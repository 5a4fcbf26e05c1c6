import AstropathRelay.DataPlane.ProviderCalls
import AstropathRelay.DataPlane.WriteSurface

/-! One answer, one audit record and one count for each provider call. -/

namespace AstropathRelay.DataPlane

open Lib Dns Providers Cache

variable {P : Type} (typeOf : P → ProviderType)

def recordOf : Effect P → Option AuditRecord
  | .audit record => some record
  | _ => none

def challengeOf : Effect P → Option String
  | .recordChallenge _ _ result => some result
  | _ => none

def handed (d : Dispatched P) : List AuditRecord := d.effects.filterMap recordOf

def challenges (d : Dispatched P) : List String := d.effects.filterMap challengeOf

structure Audited (c : ProviderCall P) (outcome : Outcome) (d : Dispatched P) : Prop where
  answered : d.rcode = some (if c.action = .present ∧ outcome ≠ .ok then Rcode.servfail
    else Rcode.noerror)
  recorded : ∃ record, handed d = [record] ∧ (record.result = "ok" ↔ outcome = .ok)
  counted : (challenges d).length = 1

lemma recordOutcome_recorded (p : Plan P) {w : World} (hs : w.auditSink ≠ none) (source : String)
    (tsigKeyId : Option ℕ) (detail : Option String) :
    (recordOutcome typeOf p w source tsigKeyId detail).filterMap recordOf =
      [⟨p.call.zone, p.call.recordName, p.call.action.text, (typeOf p.call.provider).text,
        if detail.isSome then "error" else "ok", w.latencyMs, tsigKeyId, source, detail⟩] := by
  obtain ⟨b, hb⟩ := Option.ne_none_iff_exists'.mp hs
  cases detail <;> cases b <;> simp [recordOf, recordOutcome, writeAudit, hb, List.filterMap_cons]

lemma recordOutcome_counted (p : Plan P) (w : World) (source : String) (tsigKeyId : Option ℕ)
    (detail : Option String) :
    ((recordOutcome typeOf p w source tsigKeyId detail).filterMap challengeOf).length = 1 := by
  cases detail <;> cases hb : w.auditSink with
  | none => simp [challengeOf, recordOutcome, writeAudit, hb, List.filterMap_cons]
  | some b => cases b <;> simp [challengeOf, recordOutcome, writeAudit, hb, List.filterMap_cons]

lemma invokeProvider_audited (p : Plan P) {w : World} (hs : w.auditSink ≠ none)
    (hr : w.outcome ≠ .raised) (source : String) (tsigKeyId : Option ℕ) :
    Audited p.call w.outcome (invokeProvider typeOf p w source tsigKeyId) := by
  have hrec := recordOutcome_recorded typeOf p hs source tsigKeyId
  have hcnt := recordOutcome_counted typeOf p w source tsigKeyId
  cases ho : w.outcome with
  | raised => exact absurd ho hr
  | ok =>
    constructor
    · simp [invokeProvider, ho]
    · simp [handed, invokeProvider, ho, recordOf, hrec, List.filterMap_cons]
    · simp [challenges, invokeProvider, ho, challengeOf, hcnt, List.filterMap_cons]
  | providerError detail =>
    constructor
    · cases ha : p.call.action <;> simp [invokeProvider, ho, ha]
    · simp [handed, invokeProvider, ho, recordOf, hrec, List.filterMap_cons]
    · simp [challenges, invokeProvider, ho, challengeOf, hcnt, List.filterMap_cons]

/-- Every provider call is answered, audited and counted once, unless an exception other than
`ProviderError` leaves the provider. -/
theorem dispatch_audited_iff (routing : RoutingTable P) (resolver : Option (Name → Option ℕ))
    {w : World} (hs : w.auditSink ≠ none) (source : String) {msg : Message} {p : Plan P}
    (hp : plan typeOf routing msg = some p) :
    Audited p.call w.outcome (dispatch typeOf routing resolver w source msg) ↔
      w.outcome ≠ .raised := by
  constructor
  · intro h ho
    have ha := h.answered
    simp [dispatch, hp, invokeProvider, ho] at ha
  · intro hr
    have h := invokeProvider_audited typeOf p hs hr source (resolveTsigKeyId resolver msg)
    have hrec := h.recorded
    have hcnt := h.counted
    constructor
    · simp only [dispatch, hp, h.answered]
    · simpa [handed, dispatch, hp, recordOf, List.filterMap_cons] using hrec
    · simpa [challenges, dispatch, hp, challengeOf, List.filterMap_cons] using hcnt

def presentUpdate : Message where
  id := 0
  flags := 0x2800
  question := [⟨sampleZone, RdClass.internet, RdType.soa, none, []⟩]
  authority := [⟨sampleRecord, RdClass.internet, RdType.txt, none, [.txt [[120]]]⟩]

def presentPlan : Plan Unit :=
  ⟨⟨sampleZone, (), sampleRecord⟩, ⟨(), .present, "z.", "_acme-challenge.z.", ["x"]⟩,
    "_acme-challenge.z."⟩

theorem failed_present_audited :
    Audited presentPlan.call (.providerError "down") (dispatch (fun _ => ProviderType.route53)
      sampleRouting none ⟨.providerError "down", 7, 0, some false⟩ "10.0.0.1" presentUpdate) :=
  (dispatch_audited_iff (w := ⟨.providerError "down", 7, 0, some false⟩)
    (fun _ => ProviderType.route53) sampleRouting
    none (by decide) "10.0.0.1" (p := presentPlan) (by decide +kernel)).mpr (by decide)

def namelessListing : Outside where
  client :=
    { opens := true
      closes := true
      list := fun _ => .ok [⟨some "TXT", none, some 60, []⟩]
      changeId := fun _ _ => .ok (some "C1")
      status := fun _ _ => .ok (some "INSYNC") }
  responses := fun _ => .raised

def route53Provider : Provider := ⟨.route53 ⟨"AKIA", "secret", "Z1", none, false⟩, ∅⟩

theorem namelessListing_unanswered :
    plan (fun _ => ProviderType.route53) sampleRouting presentUpdate = some presentPlan ∧
      ∀ E repr, ¬ Audited presentPlan.call (outcomeOf repr (callProvider E route53Provider
      namelessListing presentPlan.call.action presentPlan.call.recordName presentPlan.call.values))
      (dispatch (fun _ => ProviderType.route53) sampleRouting none
      ⟨outcomeOf repr (callProvider E route53Provider namelessListing presentPlan.call.action
      presentPlan.call.recordName presentPlan.call.values), 7, 0,
      some true⟩ "10.0.0.1" presentUpdate) := by
  refine ⟨by decide +kernel, fun E repr h => ?_⟩
  have hp : plan (fun _ => ProviderType.route53) sampleRouting presentUpdate =
      some presentPlan := by decide +kernel
  have ho : outcomeOf repr (callProvider E route53Provider namelessListing presentPlan.call.action
      presentPlan.call.recordName presentPlan.call.values) = .raised := rfl
  have ha := h.answered
  simp [dispatch, hp, invokeProvider, ho] at ha

end AstropathRelay.DataPlane
