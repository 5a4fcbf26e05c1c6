import AstropathRelay.DataPlane.Protocol
import AstropathRelay.Providers.Base

/-! The challenge dispatcher: zone routing, the write surface, TXT normalisation and the provider
call. What a dispatch does to the outside is the list of its effects. -/

namespace AstropathRelay.DataPlane

open Lib Lib.ByteStrings Dns Providers

structure Route (P : Type) where
  zone : Name
  provider : P
  recordName : Name
deriving DecidableEq

abbrev RoutingTable (P : Type) := Dict Name (Route P)

namespace RoutingTable

variable {P : Type}

def ofRoutes (routes : List (Route P)) : RoutingTable P :=
  Dict.ofList (routes.map (fun r => (r.zone, r)))

def matchLabels (t : RoutingTable P) : (labels : List Label) → ValidLabels labels → Option (Route P)
  | [], h => t.get? ⟨[], h⟩
  | l :: ls, h =>
    match t.get? ⟨l :: ls, h⟩ with
    | some r => some r
    | none => matchLabels t ls (Name.tail_valid h)

def «match» (t : RoutingTable P) (zone : Name) : Option (Route P) :=
  matchLabels t zone.labels zone.valid

lemma match_eq (t : RoutingTable P) (zone : Name) :
    t.match zone = match t.get? zone with
      | some r => some r
      | none => zone.parent.bind (fun p => t.match p) := by
  obtain ⟨labels, h⟩ := zone
  cases labels with
  | nil =>
    simp only [RoutingTable.match, matchLabels, Name.parent, Option.bind_none]
    split <;> simp_all
  | cons l ls => rfl

end RoutingTable

inductive Action
  | present
  | cleanup
deriving DecidableEq

def Action.text : Action → String
  | present => "present"
  | cleanup => "cleanup"

inductive WriteSurfaceViolation
  | rrsetCount (got : ℕ)
  | notTxt (rdtype : ℕ)
  | owner (name : Name)
  | updateClass (deleting : ℕ)
  | valueRequired
  | multipleValues (got : ℕ)
  | rdataNotTxt
  | notAscii
  | emptyValue
  | tooLong
deriving DecidableEq

def maxTxtLen : ℕ := 255

def classifyAction (rrset : RRset) : Except WriteSurfaceViolation Action :=
  match rrset.deleting with
  | none => .ok .present
  | some c => if c = RdClass.none ∨ c = RdClass.any then .ok .cleanup else .error (.updateClass c)

def validateWriteSurface {P : Type} (msg : Message)
    (route : Route P) : Except WriteSurfaceViolation (Action × RRset) :=
  match msg.update with
  | [rrset] =>
    if rrset.rdtype ≠ RdType.txt then .error (.notTxt rrset.rdtype)
    else if !(rrset.name.canonicalize == route.recordName) then .error (.owner rrset.name)
    else (classifyAction rrset).map (fun action => (action, rrset))
  | rrsets => .error (.rrsetCount rrsets.length)

def normalizeTxt : Rdata → Except WriteSurfaceViolation String
  | .other => .error .rdataNotTxt
  | .txt strings =>
    let raw := strings.flatten
    if raw.any (fun b => 128 ≤ b) then .error .notAscii
    else if raw = [] then .error .emptyValue
    else if maxTxtLen < raw.length then .error .tooLong
    else .ok (Name.textOf raw)

def normalizeTxtValues (rrset : RRset) (action : Action) (allowMultivalue : Bool) :
    Except WriteSurfaceViolation (List String) :=
  if rrset.rdatas = [] then
    if action = .cleanup then .ok [] else .error .valueRequired
  else if 1 < rrset.rdatas.length ∧
    !allowMultivalue then .error (.multipleValues rrset.rdatas.length)
  else rrset.rdatas.mapM normalizeTxt

def zoneFromMessage (msg : Message) : Option Name :=
  msg.zone.head?.map (fun z => z.name.canonicalize)

structure ProviderCall (P : Type) where
  provider : P
  action : Action
  zone : String
  recordName : String
  values : List String
deriving DecidableEq

structure Plan (P : Type) where
  route : Route P
  call : ProviderCall P
  lockKey : String
deriving DecidableEq

inductive Outcome
  | ok
  | providerError (detail : String)
  | raised
deriving DecidableEq

structure AuditRecord where
  zone : String
  recordName : String
  action : String
  provider : String
  result : String
  latencyMs : ℕ
  tsigKeyId : Option ℕ
  source : String
  errorDetail : Option String
deriving DecidableEq

inductive Effect (P : Type)
  | acquire (lockKey : String)
  | release (lockKey : String)
  | call (c : ProviderCall P)
  | observeDuration (provider : String) (latencyMs : ℕ)
  | recordChallenge (provider action result : String)
  | markZoneSuccess (zone : String) (clock : ℕ)
  | audit (record : AuditRecord)
  | auditFailure
deriving DecidableEq

/-- What the outside answers during one dispatch. The audit sink may be absent, and it may raise
once it is handed the record. -/
structure World where
  outcome : Outcome
  latencyMs : ℕ
  clock : ℕ
  auditSink : Option Bool

structure Dispatched (P : Type) where
  rcode : Option ℕ
  effects : List (Effect P)
deriving DecidableEq

section Dispatch

variable {P : Type} (typeOf : P → ProviderType)

def plan (routing : RoutingTable P) (msg : Message) : Option (Plan P) :=
  match zoneFromMessage msg with
  | none => none
  | some zone =>
    match routing.match zone with
    | none => none
    | some route =>
      match validateWriteSurface msg route with
      | .error _ => none
      | .ok (action, rrset) =>
        match normalizeTxtValues rrset action (typeOf route.provider).supportsMultivalue with
        | .error _ => none
        | .ok values =>
          some ⟨route, ⟨route.provider, action, route.zone.toText, rrset.name.toText, values⟩,
            rrset.name.canonicalize.toText⟩

def writeAudit (w : World) (record : AuditRecord) : List (Effect P) :=
  match w.auditSink with
  | none => []
  | some true => [.audit record]
  | some false => [.audit record, .auditFailure]

def recordOutcome (p : Plan P) (w : World) (source : String) (tsigKeyId : Option ℕ)
    (errorDetail : Option String) : List (Effect P) :=
  let kind := (typeOf p.call.provider).text
  let result := if errorDetail.isSome then "error" else "ok"
  let suppressed := errorDetail.isSome ∧ p.call.action = .cleanup
  [.observeDuration kind w.latencyMs,
    .recordChallenge kind p.call.action.text (if suppressed then "suppressed" else result)] ++
  (if errorDetail.isSome then [] else [.markZoneSuccess p.call.zone w.clock]) ++
  writeAudit w ⟨p.call.zone, p.call.recordName, p.call.action.text, kind, result, w.latencyMs,
    tsigKeyId, source, errorDetail⟩

def invokeProvider (p : Plan P) (w : World) (source : String)
    (tsigKeyId : Option ℕ) : Dispatched P :=
  match w.outcome with
  | .ok => ⟨some Rcode.noerror, .call p.call :: recordOutcome typeOf p w source tsigKeyId none⟩
  | .providerError detail =>
    ⟨some (if p.call.action = .cleanup then Rcode.noerror else Rcode.servfail),
      .call p.call :: recordOutcome typeOf p w source tsigKeyId (some detail)⟩
  | .raised => ⟨none, [.call p.call]⟩

def resolveTsigKeyId (resolver : Option (Name → Option ℕ)) (msg : Message) : Option ℕ :=
  match resolver, msg.keyname with
  | some f, some name => f name
  | _, _ => none

def dispatch (routing : RoutingTable P) (resolver : Option (Name → Option ℕ)) (w : World)
    (source : String) (msg : Message) : Dispatched P :=
  match plan typeOf routing msg with
  | none => ⟨some Rcode.refused, []⟩
  | some p =>
    let out := invokeProvider typeOf p w source (resolveTsigKeyId resolver msg)
    ⟨out.rcode, .acquire p.lockKey :: out.effects ++ [.release p.lockKey]⟩

end Dispatch

end AstropathRelay.DataPlane
