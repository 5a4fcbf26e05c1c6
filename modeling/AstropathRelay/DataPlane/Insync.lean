import AstropathRelay.DataPlane.HostedZone
import Mathlib.Data.Prod.Lex
import Mathlib.Data.String.Basic

/-! What a `present` that awaits INSYNC has seen when it returns. -/

namespace AstropathRelay.DataPlane

open Lib Providers Providers.Route53

section Awaiting

variable {γ : Type} [LinearOrder γ]

def Live (s : Service) (recordName : String) (values : List String) : Prop :=
  ∀ v ∈ values, quote v ∈ recordValues (s.zone.find (txtKey recordName)) ∧
    s.putBy (txtKey recordName) (quote v) ∈ s.reported

def Settled (s : Service) (c : ZoneCall) : Prop :=
  ∀ v ∈ c.values, quote v ∈ recordValues (s.zone.find (txtKey c.recordName)) →
    s.putBy (txtKey c.recordName) (quote v) ∈ s.reported

def AllReported (s : Service) : Prop :=
  ∀ key, ∀ v ∈ recordValues (s.zone.find key), s.putBy key v ∈ s.reported

variable {order : RrsetKey ↪ γ} {config : Route53Config} {s s' : Service} {c : ZoneCall}
  {w : Written}

lemma AllReported.settled (h : AllReported s) (c : ZoneCall) : Settled s c := fun _ _ hm => h _ _ hm

lemma returned_cases (hw : config.awaitInsync = true)
    (hr : (Api.call order config c).run s = .ok w s') :
    s' = s ∨ ∃ change zone, s' = (s.sent (txtKey c.recordName) change zone).report s.nextChange ∧
      ∀ key, key ≠ txtKey c.recordName → zone.find key = s.zone.find key := by
  rcases Api.after_cases order config s c with ⟨-, h⟩ | ⟨change, zone, -, -, -, hothers, h | ⟨e, h⟩⟩
  · rw [h] at hr
    cases hr
    exact .inl rfl
  · rw [h, if_pos hw] at hr
    cases hr
    exact .inr ⟨change, zone, rfl, hothers⟩
  · rw [h] at hr
    cases hr

lemma after_of_returned (hr : (Api.call order config c).run s = .ok w s') :
    Api.after order config s c = s' := by
  rw [Api.after, hr]
  rfl

lemma putBy_reported_iff {key k : RrsetKey} {change : Change} {zone : HostedZone} {v : String} :
    ((s.sent key change zone).report s.nextChange).putBy k v ∈
      ((s.sent key change zone).report s.nextChange).reported ↔
      k = key ∧ v ∉ recordValues (s.zone.find k) ∨ s.putBy k v ∈ s.reported := by
  change (if k = key ∧ v ∉ recordValues (s.zone.find k) then s.nextChange else s.putBy k v) ∈
    insert s.nextChange s.reported ↔ _
  split
  · next h => exact iff_of_true (Finset.mem_insert_self _ _) (.inl h)
  · next h =>
    have hne : s.putBy k v ≠ s.nextChange := (s.putBy_lt k v).ne
    simp [h, hne]

lemma live_iff_settled (hw : config.awaitInsync = true) (hp : c.action = .present)
    (hr : (Api.call order config c).run s = .ok w s') : Live s' c.recordName c.values ↔
    Settled s c := by
  have hin : ∀ v ∈ c.values, quote v ∈ recordValues (s'.zone.find (txtKey c.recordName)) := by
    intro v hv
    have hset := (after_refines order config s c).values
    rw [after_of_returned hr, hp] at hset
    have hm : quote v ∈ Serialization.valueSet (s'.zone.find (txtKey c.recordName)) := by
      rw [hset]
      exact Finset.mem_union_right _ (List.mem_toFinset.mpr (List.mem_map_of_mem hv))
    exact List.mem_toFinset.mp hm
  have hlive : Live s' c.recordName c.values ↔
      ∀ v ∈ c.values, s'.putBy (txtKey c.recordName) (quote v) ∈ s'.reported :=
    forall₂_congr fun v hv => and_iff_right (hin v hv)
  rw [hlive]
  rcases returned_cases hw hr with rfl | ⟨change, zone, rfl, -⟩
  · exact forall₂_congr fun v hv => (imp_iff_right (hin v hv)).symm
  · refine forall₂_congr fun v hv => ?_
    rw [putBy_reported_iff, eq_self_iff_true, true_and, ← imp_iff_not_or]

lemma AllReported.returned (h : AllReported s) (hw : config.awaitInsync = true)
    (hr : (Api.call order config c).run s = .ok w s') : AllReported s' := by
  rcases returned_cases hw hr with rfl | ⟨change, zone, rfl, hothers⟩
  · exact h
  · intro key v hv
    rw [putBy_reported_iff]
    by_cases hk : key = txtKey c.recordName
    · by_cases hm : v ∈ recordValues (s.zone.find key)
      · exact .inr (h key v hm)
      · exact .inl ⟨hk, hm⟩
    · have hz : zone.find key = s.zone.find key := hothers key hk
      exact .inr (h key v (hz ▸ hv))

lemma allReported_of_returned (hw : config.awaitInsync = true) {s₀ : Service} (h : AllReported s₀)
    (es : List ZoneCall) (hr : ∀ past c, past ++ [c] <+: es →
      ∃ w s', (Api.call order config c).run (past.foldl (Api.after order config) s₀) = .ok w s') :
    AllReported (es.foldl (Api.after order config) s₀) := by
  induction es using List.reverseRecOn with
  | nil => exact h
  | append_singleton es c ih =>
    obtain ⟨w, s', hrun⟩ := hr es c List.prefix_rfl
    have hes := ih fun past d hd => hr past d (hd.trans (List.prefix_append _ _))
    rw [List.foldl_concat, after_of_returned hrun]
    exact hes.returned hw hrun

/-- In a run whose every `present` finds the values already stored settled, each `present` that
returns leaves its values live, and otherwise it does not. A run in which every call returns is such
a run. -/
theorem present_live_of_settled (order : RrsetKey ↪ γ) {config : Route53Config}
    (hw : config.awaitInsync = true) (s₀ : Service) (es : List ZoneCall) :
    ((∀ past c, past ++ [c] <+: es → c.action = .present →
        Settled (past.foldl (Api.after order config) s₀) c) →
      ∀ past c, past ++ [c] <+: es → c.action = .present →
      ∀ w s', (Api.call order config c).run (past.foldl (Api.after order config) s₀) = .ok w s' →
        Live s' c.recordName c.values) ∧
    (∀ past c, past ++ [c] <+: es → c.action = .present →
      ∀ w s', (Api.call order config c).run (past.foldl (Api.after order config) s₀) = .ok w s' →
        (Live s' c.recordName c.values ↔ Settled (past.foldl (Api.after order config) s₀) c)) ∧
    (AllReported s₀ →
      (∀ past c, past ++ [c] <+: es → ∃ w s',
        (Api.call order config c).run (past.foldl (Api.after order config) s₀) = .ok w s') →
      ∀ past c, past ++ [c] <+: es → Settled (past.foldl (Api.after order config) s₀) c) := by
  refine ⟨fun h past c hc hp w s' hr => ?_, fun past c _ hp w s' hr => live_iff_settled hw hp hr,
    fun h hret past c hc => ?_⟩
  · exact (live_iff_settled hw hp hr).mpr (h past c hc hp)
  · refine (allReported_of_returned hw h past fun past' d hd => hret past' d ?_).settled c
    exact hd.trans ((List.prefix_append _ _).trans hc)

end Awaiting

section Sample

def byName : RrsetKey ↪ String ×ₗ String where
  toFun key := toLex (key.name, key.type)
  inj' := by
    rintro ⟨n, t, hn⟩ ⟨n', t', hn'⟩ h
    obtain ⟨rfl, rfl⟩ := Prod.mk.inj (toLex.injective h)
    rfl

def awaiting : Route53Config := ⟨"AKIA", "secret", "Z1", none, true⟩

def emptyZone : Service := ⟨⟨∅, by simp⟩, [], 1, fun _ _ => 0, ∅, fun _ _ => Nat.one_pos⟩

def presentA (status : String) : ZoneCall :=
  ⟨.present, "_acme-challenge.z.", ["a"], fun _ => .ok (some status)⟩

theorem first_present_live :
    ∃ w s', (Api.call byName awaiting (presentA "INSYNC")).run emptyZone = .ok w s' ∧
      Live s' "_acme-challenge.z." ["a"] := by
  have hret : (answerOf
      ((Api.call byName awaiting (presentA "INSYNC")).run emptyZone)).toOption.isSome := by
    decide +kernel
  cases hr : (Api.call byName awaiting (presentA "INSYNC")).run emptyZone with
  | error e s' => simp [hr, answerOf, Except.toOption] at hret
  | ok w s' =>
    refine ⟨w, s', rfl, (present_live_of_settled byName rfl emptyZone [presentA "INSYNC"]).1 ?_ []
      (presentA "INSYNC") List.prefix_rfl rfl w s' hr⟩
    intro past c hc _
    obtain ⟨rfl, rfl⟩ : past = [] ∧ c = presentA "INSYNC" := by
      obtain ⟨t, ht⟩ := hc
      cases past with
      | nil => exact ⟨rfl, (List.cons.inj ht).1⟩
      | cons d past => simp at ht
    exact fun v _ hm => absurd hm (by simp [emptyZone, HostedZone.find, recordValues])

theorem retry_returns_pending :
    answerOf ((Api.call byName awaiting (presentA "PENDING")).run emptyZone) =
      .error (.provider (.notInSync "/change/C1" 30)) ∧
    ∃ s', (Api.call byName awaiting (presentA "PENDING")).run
        (Api.after byName awaiting emptyZone (presentA "PENDING")) = .ok .nothing s' ∧
      ¬ Live s' "_acme-challenge.z." ["a"] := by
  have hrep : (Api.after byName awaiting emptyZone (presentA "PENDING")).reported = ∅ := by
    decide +kernel
  have hnone : Serialization.change .present ["a"] ((Api.after byName awaiting emptyZone
      (presentA "PENDING")).zone.find (txtKey "_acme-challenge.z.")) = none := by decide +kernel
  refine ⟨by decide +kernel, _, Api.run_call_none hnone, fun h => ?_⟩
  have hm := (h "a" (by simp)).2
  rw [hrep] at hm
  simp at hm

end Sample

end AstropathRelay.DataPlane
