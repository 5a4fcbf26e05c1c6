import AstropathRelay.DataPlane.Dispatcher
import AstropathRelay.Lib.Results

/-! Which messages reach a provider, and with what. -/

namespace AstropathRelay.DataPlane

open Lib Lib.ByteStrings Dns Providers

section Tokens

def IsToken (rd : Rdata) : Prop :=
  ∃ strings, rd = .txt strings ∧ strings.flatten ≠ [] ∧ (∀ b ∈ strings.flatten, b < 128) ∧
    strings.flatten.length ≤ maxTxtLen

def joined : Rdata → String
  | .txt strings => Name.textOf strings.flatten
  | .other => ""

def tokens (rrset : RRset) : List String := rrset.rdatas.map joined

lemma normalizeTxt_eq_ok {rd : Rdata} {v : String} : normalizeTxt rd = .ok v ↔
    IsToken rd ∧ v = joined rd := by
  cases rd with
  | other => simp [normalizeTxt, IsToken]
  | txt strings =>
    have hany : (strings.flatten.any (fun b => decide (128 ≤ b)) = true) ↔
        ¬ ∀ b ∈ strings.flatten, b < 128 := by
      rw [List.any_eq_true]
      push Not
      simp
    simp only [normalizeTxt, IsToken, joined, Rdata.txt.injEq]
    split_ifs with ha he hl
    · have hna := hany.mp ha
      simp only [false_iff, not_and]
      rintro ⟨s, rfl, -, hlt, -⟩
      exact absurd hlt hna
    · simp [he]
    · simp only [false_iff, not_and]
      rintro ⟨s, rfl, -, -, hle⟩
      omega
    · have hlt := not_not.mp (fun hn => ha (hany.mpr hn))
      constructor
      · intro h
        exact ⟨⟨strings, rfl, he, hlt, by omega⟩, (Except.ok.inj h).symm⟩
      · rintro ⟨-, rfl⟩
        rfl

lemma mapM_normalizeTxt {rds : List Rdata} {vs : List String} :
    rds.mapM normalizeTxt = .ok vs ↔ (∀ rd ∈ rds, IsToken rd) ∧ vs = rds.map joined := by
  simp only [Lib.Results.mapM_ok, normalizeTxt_eq_ok]
  induction rds generalizing vs with
  | nil => simp
  | cons rd rds ih =>
    rw [List.forall₂_cons_left_iff, List.forall_mem_cons, List.map_cons]
    constructor
    · rintro ⟨v, ws, ⟨ht, rfl⟩, hws, rfl⟩
      obtain ⟨hts, rfl⟩ := ih.mp hws
      exact ⟨⟨ht, hts⟩, rfl⟩
    · rintro ⟨⟨ht, hts⟩, rfl⟩
      exact ⟨_, _, ⟨ht, rfl⟩, ih.mpr ⟨hts, rfl⟩, rfl⟩

lemma normalizeTxtValues_eq_ok {rrset : RRset} {action : Action} {multi : Bool} {vs : List String} :
    normalizeTxtValues rrset action multi = .ok vs ↔
      (∀ rd ∈ rrset.rdatas, IsToken rd) ∧ (rrset.rdatas.length ≤ 1 ∨ multi = true) ∧
        (rrset.rdatas ≠ [] ∨ action = .cleanup) ∧ vs = tokens rrset := by
  rw [normalizeTxtValues, tokens]
  split_ifs with he ha hm
  · simp [he, ha, eq_comm]
  · simp [he, ha]
  · simp only [false_iff, not_and]
    intro _ hle
    obtain ⟨hlt, hb⟩ := hm
    rcases hle with hle | hle
    · omega
    · simp [hle] at hb
  · have hle : rrset.rdatas.length ≤ 1 ∨ multi = true := by
      by_contra hn
      push Not at hn
      exact hm ⟨hn.1, by simpa using hn.2⟩
    simp [mapM_normalizeTxt, he, hle]

end Tokens

section Matching

variable {P : Type}

lemma get?_of_match {routing : RoutingTable P} {zone : Name} {r : Route P}
    (h : routing.match zone = some r) : ∃ k, routing.get? k = some r := by
  obtain ⟨labels, hv⟩ := zone
  induction labels with
  | nil => exact ⟨_, h⟩
  | cons l ls ih =>
    rw [RoutingTable.match_eq] at h
    split at h
    · next r' hg =>
      obtain rfl := Option.some.inj h
      exact ⟨_, hg⟩
    · exact ih _ h

lemma mem_of_match {routes : List (Route P)} {zone : Name} {r : Route P}
    (h : (RoutingTable.ofRoutes routes).match zone = some r) : r ∈ routes := by
  obtain ⟨k, hg⟩ := get?_of_match h
  obtain ⟨k', hm, -⟩ := Dict.get?_ofList_mem hg
  obtain ⟨r', hr', he⟩ := List.mem_map.mp hm
  obtain rfl : r' = r := (Prod.mk.inj he).2
  exact hr'

end Matching

def actionOf (rrset : RRset) : Action := if rrset.deleting = none then .present else .cleanup

lemma classifyAction_eq_ok {rrset : RRset} {a : Action} :
    classifyAction rrset = .ok a ↔
      rrset.deleting ∈ [none, some RdClass.none, some RdClass.any] ∧ a = actionOf rrset := by
  rw [classifyAction, actionOf]
  cases hd : rrset.deleting with
  | none => simp [eq_comm]
  | some c =>
    by_cases hc : c = RdClass.none ∨ c = RdClass.any
    · simp [hc, eq_comm]
    · simp [hc]

lemma validateWriteSurface_eq_ok {P : Type} {msg : Message} {route : Route P} {a : Action}
    {rrset : RRset} : validateWriteSurface msg route = .ok (a, rrset) ↔
    msg.update = [rrset] ∧ rrset.rdtype = RdType.txt ∧ rrset.name == route.recordName ∧
    rrset.deleting ∈ [none, some RdClass.none, some RdClass.any] ∧ a = actionOf rrset := by
  unfold validateWriteSurface
  split
  · next rr hu =>
    have hown : (rr.name.canonicalize == route.recordName) = (rr.name == route.recordName) :=
      BEq.congr_left (Name.canonicalize_beq rr.name)
    rw [hu, hown]
    simp only [List.cons.injEq, and_true]
    split_ifs with ht ho
    · simp only [false_iff, not_and]
      rintro rfl hh
      exact absurd hh ht
    · simp only [false_iff, not_and]
      rintro rfl - hh
      simp [hh] at ho
    · have ht : rr.rdtype = RdType.txt := not_not.mp ht
      have ho : (rr.name == route.recordName) = true := by simpa using ho
      cases hc : classifyAction rr with
      | error e =>
        simp only [Except.map, reduceCtorEq, false_iff, not_and]
        rintro rfl - - hd rfl
        have hok := classifyAction_eq_ok.mpr ⟨hd, rfl⟩
        simp [hc] at hok
      | ok b =>
        obtain ⟨hd, rfl⟩ := classifyAction_eq_ok.mp hc
        simp only [Except.map, Except.ok.injEq, Prod.mk.injEq]
        constructor
        · rintro ⟨rfl, rfl⟩
          exact ⟨rfl, ht, ho, hd, rfl⟩
        · rintro ⟨rfl, -, -, -, rfl⟩
          exact ⟨rfl, rfl⟩
  · next hn =>
    simp only [reduceCtorEq, false_iff, not_and]
    intro hu
    exact absurd hu (hn rrset)

section Permitted

variable {P : Type} (typeOf : P → ProviderType) (routing : RoutingTable P)

structure Checked (msg : Message) (route : Route P) (rrset : RRset) : Prop where
  zone : ∃ z, msg.zone.head? = some z ∧ routing.match z.name.canonicalize = some route
  single : msg.update = [rrset]
  txt : rrset.rdtype = RdType.txt
  owner : rrset.name == route.recordName
  deleting : rrset.deleting ∈ [none, some RdClass.none, some RdClass.any]
  token : ∀ rd ∈ rrset.rdatas, IsToken rd
  atMostOne : rrset.rdatas.length ≤ 1 ∨ (typeOf route.provider).supportsMultivalue = true
  atLeastOne : rrset.rdatas ≠ [] ∨ actionOf rrset = .cleanup

def callOf (route : Route P) (rrset : RRset) : ProviderCall P :=
  ⟨route.provider, actionOf rrset, route.zone.toText, rrset.name.toText, tokens rrset⟩

variable {typeOf routing}

lemma Checked.unique {msg : Message} {route route' : Route P} {rrset rrset' : RRset}
    (h : Checked typeOf routing msg route rrset) (h' : Checked typeOf routing msg route' rrset') :
    route = route' ∧ rrset = rrset' := by
  obtain ⟨z, hz, hr⟩ := h.zone
  obtain ⟨z', hz', hr'⟩ := h'.zone
  obtain rfl : z = z' := Option.some.inj (hz.symm.trans hz')
  refine ⟨Option.some.inj (hr.symm.trans hr'), ?_⟩
  have hs := h.single.symm.trans h'.single
  simpa using hs

theorem plan_eq_some {msg : Message} {p : Plan P} :
    plan typeOf routing msg = some p ↔ ∃ route rrset, Checked typeOf routing msg route rrset ∧
      p = ⟨route, callOf route rrset, rrset.name.canonicalize.toText⟩ := by
  constructor
  · intro h
    unfold plan at h
    split at h
    · simp at h
    · next zone hz =>
      split at h
      · simp at h
      · next route hr =>
        split at h
        · simp at h
        · next action rrset hv =>
          split at h
          · simp at h
          · next values hn =>
            obtain ⟨hs, ht, ho, hd, rfl⟩ := validateWriteSurface_eq_ok.mp hv
            obtain ⟨htok, hmost, hleast, rfl⟩ := normalizeTxtValues_eq_ok.mp hn
            obtain ⟨z, hhead, rfl⟩ := Option.map_eq_some_iff.mp hz
            exact ⟨route, rrset, ⟨⟨z, hhead, hr⟩, hs, ht, ho, hd, htok, hmost, hleast⟩,
              (Option.some.inj h).symm⟩
  · rintro ⟨route, rrset, hc, rfl⟩
    obtain ⟨z, hz, hr⟩ := hc.zone
    have hzone : zoneFromMessage msg = some z.name.canonicalize :=
      Option.map_eq_some_iff.mpr ⟨z, hz, rfl⟩
    have hv : validateWriteSurface msg route = .ok (actionOf rrset, rrset) :=
      validateWriteSurface_eq_ok.mpr ⟨hc.single, hc.txt, hc.owner, hc.deleting, rfl⟩
    have hn := normalizeTxtValues_eq_ok.mpr ⟨hc.token, hc.atMostOne, hc.atLeastOne, rfl⟩
    simp only [plan, hzone, hr, hv, hn]
    rfl

end Permitted

section AllOrNothing

variable {P : Type} (typeOf : P → ProviderType) (routing : RoutingTable P)

def calls (d : Dispatched P) : List (ProviderCall P) :=
  d.effects.filterMap (fun e => match e with
    | .call c => some c
    | _ => none)

lemma calls_recordOutcome (p : Plan P) (w : World) (source : String) (tsigKeyId : Option ℕ)
    (detail : Option String)
    (rcode : Option ℕ) : calls ⟨rcode, recordOutcome typeOf p w source tsigKeyId detail⟩ = [] := by
  cases detail <;> cases h : w.auditSink with
  | none => simp [calls, recordOutcome, writeAudit, h]
  | some b => cases b <;> simp [calls, recordOutcome, writeAudit, h]

variable {typeOf routing}

variable (typeOf) in
lemma calls_invokeProvider (p : Plan P) (w : World) (source : String) (tsigKeyId : Option ℕ) :
    calls (invokeProvider typeOf p w source tsigKeyId) = [p.call] := by
  have hr (detail : Option String) := calls_recordOutcome typeOf p w source tsigKeyId detail none
  simp only [calls] at hr
  cases h : w.outcome <;> simp [calls, invokeProvider, h, hr]

lemma calls_dispatch_of_plan (resolver : Option (Name → Option ℕ)) (w : World) (source : String)
    {msg : Message} {p : Plan P} (h : plan typeOf routing msg = some p) :
    calls (dispatch typeOf routing resolver w source msg) = [p.call] := by
  have hi := calls_invokeProvider typeOf p w source (resolveTsigKeyId resolver msg)
  simp only [calls] at hi
  simp [calls, dispatch, h, hi]

lemma checked_of_call {resolver : Option (Name → Option ℕ)} {w : World} {source : String}
    {msg : Message}
    {c : ProviderCall P} (h : c ∈ calls (dispatch typeOf routing resolver w source msg)) :
    ∃ route rrset, Checked typeOf routing msg route rrset ∧ c = callOf route rrset := by
  cases hp : plan typeOf routing msg with
  | none => simp [dispatch, hp, calls] at h
  | some p =>
    rw [calls_dispatch_of_plan resolver w source hp, List.mem_singleton] at h
    obtain ⟨route, rrset, hc, rfl⟩ := plan_eq_some.mp hp
    exact ⟨route, rrset, hc, h⟩

variable (typeOf routing)

def Permitted (msg : Message) (route : Route P) (rrset : RRset) : Prop :=
  Checked typeOf routing msg route rrset ∧ rrset.rdclass = RdClass.internet

structure AllOrNothing (msg : Message) (d : Dispatched P) : Prop where
  once : (calls d).length = 1 ↔ ∃ route rrset, Permitted typeOf routing msg route rrset
  call : ∀ route rrset, Permitted typeOf routing msg route rrset → calls d = [callOf route rrset]
  otherwise : (¬ ∃ route rrset, Permitted typeOf routing msg route rrset) →
    d = ⟨some Rcode.refused, []⟩

/-- A dispatch is all or nothing unless the message passes every check with an update that is not of
class IN. -/
theorem dispatch_allOrNothing_iff (resolver : Option (Name → Option ℕ)) (w : World)
    (source : String) (msg : Message) :
    AllOrNothing typeOf routing msg (dispatch typeOf routing resolver w source msg) ↔
      ¬ ∃ route rrset, Checked typeOf routing msg route rrset ∧
        rrset.rdclass ≠ RdClass.internet := by
  constructor
  · rintro h ⟨route, rrset, hc, hcl⟩
    have hp := plan_eq_some.mpr ⟨route, rrset, hc, rfl⟩
    have hone : (calls (dispatch typeOf routing resolver w source msg)).length = 1 := by
      rw [calls_dispatch_of_plan resolver w source hp]
      rfl
    obtain ⟨route', rrset', hc', hcl'⟩ := h.once.mp hone
    obtain ⟨rfl, rfl⟩ := hc.unique hc'
    exact hcl hcl'
  · intro hn
    cases hp : plan typeOf routing msg with
    | none =>
      have hno : ¬ ∃ route rrset, Permitted typeOf routing msg route rrset := by
        rintro ⟨route, rrset, hc, -⟩
        have hs := plan_eq_some.mpr ⟨route, rrset, hc, rfl⟩
        simp [hp] at hs
      have hd : dispatch typeOf routing resolver w source msg = ⟨some Rcode.refused, []⟩ := by
        simp [dispatch, hp]
      refine ⟨⟨fun h => ?_, fun h => absurd h hno⟩,
        fun route rrset h => absurd ⟨route, rrset, h⟩ hno, fun _ => hd⟩
      simp [hd, calls] at h
    | some p =>
      have hcalls := calls_dispatch_of_plan resolver w source hp
      obtain ⟨route, rrset, hc, rfl⟩ := plan_eq_some.mp hp
      have hper : Permitted typeOf routing msg route rrset := by
        refine ⟨hc, ?_⟩
        by_contra hcl
        exact hn ⟨route, rrset, hc, hcl⟩
      refine ⟨⟨fun _ => ⟨route, rrset, hper⟩, fun _ => by rw [hcalls]; rfl⟩,
        fun route' rrset' h => ?_, fun h => absurd ⟨route, rrset, hper⟩ h⟩
      obtain ⟨rfl, rfl⟩ := hc.unique h.1
      exact hcalls

def sampleZone : Name := ⟨[[122]], by decide⟩

def sampleRecord : Name := ⟨[Name.octetsOf "_acme-challenge", [122]], by decide +kernel⟩

def chaosUpdate : Message where
  id := 0
  flags := 0x2800
  question := [⟨sampleZone, RdClass.internet, RdType.soa, none, []⟩]
  authority := [⟨sampleRecord, 3, RdType.txt, none, [.txt [[120]]]⟩]

def sampleRouting : RoutingTable Unit := RoutingTable.ofRoutes [⟨sampleZone, (), sampleRecord⟩]

theorem chaosUpdate_presented :
    ¬ AllOrNothing (fun _ => ProviderType.hurricane) sampleRouting chaosUpdate
      (dispatch (fun _ => ProviderType.hurricane) sampleRouting none ⟨.ok, 0, 0, none⟩ ""
        chaosUpdate) := by
  intro h
  have hone : (calls (dispatch (fun _ => ProviderType.hurricane) sampleRouting none ⟨.ok, 0, 0,
      none⟩ "" chaosUpdate)).length = 1 := by decide +kernel
  obtain ⟨route, rrset, hc, hcl⟩ := h.once.mp hone
  have hs := hc.single
  simp only [Message.update, chaosUpdate, List.cons.injEq, and_true] at hs
  rw [← hs] at hcl
  simp [RdClass.internet] at hcl

end AllOrNothing

end AstropathRelay.DataPlane
