import AstropathRelay.DataPlane.ProviderCalls
import AstropathRelay.DataPlane.Serialization
import AstropathRelay.Lib.Runs

/-! What a cleanup takes away from a record, after any run of successful calls on it. -/

namespace AstropathRelay.DataPlane

open Lib Lib.Results Providers Providers.Route53 Cache

section Quote

def escape (c : Char) : List Char := if c = '\\' ∨ c = '"' then ['\\', c] else [c]

lemma escape_append_inj {a b : Char} {s t : List Char} (h : escape a ++ s = escape b ++ t) :
    a = b ∧ s = t := by
  unfold escape at h
  split_ifs at h with ha hb hb
  · simpa using h
  · simp only [List.cons_append, List.nil_append, List.cons.injEq] at h
    exact absurd (Or.inl h.1.symm) hb
  · simp only [List.cons_append, List.nil_append, List.cons.injEq] at h
    exact absurd (Or.inl h.1) ha
  · simpa using h

lemma escape_ne_nil (c : Char) (s : List Char) : escape c ++ s ≠ [] := by
  unfold escape
  split_ifs <;> simp

lemma flatMap_escape_injective : Function.Injective (fun s : List Char => s.flatMap escape) := by
  intro s
  induction s with
  | nil =>
    intro t h
    cases t with
    | nil => rfl
    | cons b t => exact absurd h.symm (escape_ne_nil b _)
  | cons a s ih =>
    intro t h
    cases t with
    | nil => exact absurd h (escape_ne_nil a _)
    | cons b t =>
      obtain ⟨rfl, hst⟩ := escape_append_inj h
      rw [ih hst]

lemma quote_injective : Function.Injective quote := by
  intro v w h
  have hl := congrArg String.toList h
  simp only [quote, String.toList_ofList, List.cons_append, List.cons.injEq, true_and] at hl
  exact String.toList_inj.mp (flatMap_escape_injective (List.append_cancel_right hl))

end Quote

inductive Stored
  | rrset (r : Option ResourceRecordSet)
  | txt (value : Option String)
deriving DecidableEq

namespace Stored

def Published : Stored → String → Prop
  | rrset r, v => quote v ∈ recordValues r
  | txt value, v => value = some v

instance : (s : Stored) → (v : String) → Decidable (s.Published v)
  | rrset r, v => inferInstanceAs (Decidable (quote v ∈ recordValues r))
  | txt value, v => inferInstanceAs (Decidable (value = some v))

def write : Stored → Written → Option Stored
  | s, .nothing => some s
  | rrset r, .change c => (submit r c).map rrset
  | txt _, .txt value => some (txt (some value))
  | _, _ => none

def Fits : ProviderConfig → Stored → Prop
  | .route53 _, rrset _ => True
  | .hurricane _, txt _ => True
  | _, _ => False

def Shows (o : Outside) (recordName : String) : Stored → Prop
  | rrset r => readRrset o.client (normalizeName recordName) = .ok r
  | txt _ => True

end Stored

structure RecordCall where
  action : Action
  values : List String
  outside : Outside

section Runs

variable (E : Platform) (provider : Provider) (recordName : String)

def record : System Stored RecordCall where
  init s := s.Fits provider.config
  step s e s' := s.Shows e.outside recordName ∧ ∃ w,
    callProvider E provider e.outside e.action recordName e.values = .ok w ∧ s.write w = some s'

def accepted (o : Outside) : Prop :=
  ∃ text, postWithRetry o.responses 0 (maxAttempts - 1) = .http 200 text ∧
    statusOf E text ∈ okResponses

variable {E provider recordName}

lemma changeRrset_ok {config : Route53Config} {c : Client}
    {decide : Option ResourceRecordSet → Option Change}
    {w : Written} (h : changeRrset config c recordName decide = .ok w) :
    ∃ existing, readRrset c (normalizeName recordName) = .ok existing ∧
      w = (decide existing).elim .nothing .change := by
  rw [changeRrset, withClient] at h
  split at h
  · obtain ⟨existing, he, h⟩ := bind_ok.mp h
    refine ⟨existing, he, ?_⟩
    cases hd : decide existing with
    | none =>
      rw [hd] at h
      exact (pure_ok.mp h).symm
    | some change =>
      rw [hd] at h
      obtain ⟨-, -, h⟩ := bind_ok.mp h
      exact (pure_ok.mp h).symm
  · simp at h

lemma update_ok {keys : Dict String String} {responses : ℕ → Response} {value : String}
    {cleanup : Bool} {w : Written} (h : update E keys responses recordName value cleanup = .ok w) :
    ∃ text, postWithRetry responses 0 (maxAttempts - 1) = .http 200 text ∧
      w = if statusOf E text ∈ okResponses then .txt value else .nothing := by
  obtain ⟨form, hf, h⟩ := bind_ok.mp h
  have htxt : form.txt = value := by
    unfold formFor at hf
    dsimp only at hf
    split at hf
    · simp at hf
    · rw [← Except.ok.inj hf]
  unfold readResponse at h
  split at h
  · simp at h
  · simp at h
  · next code text hp =>
    dsimp only at h
    split_ifs at h with hcode hok hben
    · obtain rfl : code = 200 := not_not.mp hcode
      exact ⟨text, hp, by rw [if_pos hok, ← Except.ok.inj h, htxt]⟩
    · obtain rfl : code = 200 := not_not.mp hcode
      exact ⟨text, hp, by rw [if_neg hok, Except.ok.inj h]⟩

lemma write_change {r : Option ResourceRecordSet} {c : Option Change} {s' : Stored}
    (h : (Stored.rrset r).write (c.elim .nothing .change) = some s') :
    s' = .rrset ((c.bind (submit r)).getD r) := by
  cases c with
  | none => exact (Option.some.inj h).symm
  | some c =>
    obtain ⟨r', hr, rfl⟩ := Option.map_eq_some_iff.mp h
    simp [hr]

lemma Stored.Fits.write {config : ProviderConfig} {s s' : Stored} (h : s.Fits config) {w : Written}
    (hw : s.write w = some s') : s'.Fits config := by
  cases w with
  | nothing =>
    obtain rfl := Option.some.inj hw
    exact h
  | change c =>
    cases s with
    | rrset r =>
      obtain ⟨r', -, rfl⟩ := Option.map_eq_some_iff.mp hw
      cases config <;> exact h
    | txt value => simp [Stored.write] at hw
  | txt value =>
    cases s with
    | rrset r => simp [Stored.write] at hw
    | txt old =>
      obtain rfl := Option.some.inj hw
      cases config <;> exact h

lemma fits_of_run {es : List RecordCall} {s : Stored}
    (h : (record E provider recordName).Run es s) : s.Fits provider.config := by
  refine System.Run.invariant (I := fun s => s.Fits provider.config) (fun _ h => h) ?_ h
  rintro s e s' hi ⟨-, w, -, hw⟩
  exact hi.write hw

lemma rrset_cleanup {config : Route53Config} (hc : provider.config = .route53 config)
    {r : Option ResourceRecordSet} {vs : List String} {o : Outside} {s' : Stored} (hv : vs ≠ [])
    (hs : (record E provider recordName).step (.rrset r) ⟨.cleanup, vs, o⟩ s') {v : String}
    (hp : (Stored.rrset r).Published v) (hn : v ∉ vs) : s'.Published v := by
  obtain ⟨hshow, w, hw, hwrite⟩ := hs
  simp only [callProvider, hc] at hw
  obtain ⟨existing, he, rfl⟩ := changeRrset_ok hw
  obtain rfl : existing = r := Except.ok.inj (he.symm.trans hshow)
  rw [write_change hwrite]
  have hset := Serialization.valueSet_cleanup vs existing
  have hq : quote v ∈ Serialization.valueSet existing \ (vs.map quote).toFinset := by
    rw [Finset.mem_sdiff, List.mem_toFinset]
    exact ⟨List.mem_toFinset.mpr hp,
      fun hm => hn ((List.mem_map_of_injective quote_injective).mp hm)⟩
  rw [Serialization.apply, if_neg hv] at hset
  rw [← hset] at hq
  exact List.mem_toFinset.mp hq

lemma txt_cleanup {config : HurricaneConfig} (hc : provider.config = .hurricane config)
    {value : Option String} {vs : List String} {o : Outside} {s' : Stored}
    (hs : (record E provider recordName).step (.txt value) ⟨.cleanup, vs, o⟩ s') : accepted E o ∧
    s' = .txt (some config.cleanupPlaceholder) ∨ ¬ accepted E o ∧ s' = .txt value := by
  obtain ⟨-, w, hw, hwrite⟩ := hs
  simp only [callProvider, hc] at hw
  obtain ⟨text, ht, rfl⟩ := update_ok hw
  by_cases hok : statusOf E text ∈ okResponses
  · rw [if_pos hok] at hwrite
    exact .inl ⟨⟨text, ht, hok⟩, (Option.some.inj hwrite).symm⟩
  · rw [if_neg hok] at hwrite
    refine .inr ⟨?_, (Option.some.inj hwrite).symm⟩
    rintro ⟨text', ht', hok'⟩
    obtain ⟨-, rfl⟩ := Response.http.inj (ht.symm.trans ht')
    exact hok hok'

/-- A cleanup of named values keeps every other value of a Route 53 record. A Hurricane record holds
one value, and an accepted cleanup puts the placeholder in its place. -/
theorem cleanup_keeps {es : List RecordCall} {s : Stored}
    (hr : (record E provider recordName).Run es s) {vs : List String} (hv : vs ≠ []) {o : Outside}
    {s' : Stored} (hs : (record E provider recordName).step s ⟨.cleanup, vs, o⟩ s') :
    match provider.config with
    | .route53 _ => ∀ v, s.Published v → v ∉ vs → s'.Published v
    | .hurricane config =>
      accepted E o ∧ s' = .txt (some config.cleanupPlaceholder) ∨ ¬ accepted E o ∧ s' = s := by
  have hf := fits_of_run hr
  cases hc : provider.config with
  | route53 config =>
    rw [hc] at hf
    cases s with
    | rrset r => exact fun v hp hn => rrset_cleanup hc hv hs hp hn
    | txt value => exact hf.elim
  | hurricane config =>
    rw [hc] at hf
    cases s with
    | rrset r => exact hf.elim
    | txt value => exact txt_cleanup hc hs

end Runs

section Samples

def bothValues : Option ResourceRecordSet := some ⟨60, [quote "a", quote "b"]⟩

def showsBoth : Outside where
  client :=
    { opens := true
      closes := true
      list := fun name =>
      .ok [⟨some "TXT", some name, some 60, [some (quote "a"), some (quote "b")]⟩]
      changeId := fun _ _ => .ok (some "C1")
      status := fun _ _ => .ok (some "INSYNC") }
  responses := fun _ => .raised

def zoneProvider53 : Provider := ⟨.route53 ⟨"AKIA", "secret", "Z1", none, false⟩, ∅⟩

theorem cleanup_keeps_other : ∃ s', (record asciiPlatform zoneProvider53 "r.z.").step
    (.rrset bothValues) ⟨.cleanup, ["a"], showsBoth⟩ s' ∧ s'.Published "b" := by
  have hs : (record asciiPlatform zoneProvider53 "r.z.").step (.rrset bothValues) ⟨.cleanup, ["a"],
      showsBoth⟩ (.rrset (some ⟨60, [quote "b"]⟩)) :=
    ⟨by change readRrset _ _ = _; decide +kernel, .change (.upsert 60 [quote "b"]),
      by decide +kernel, by decide +kernel⟩
  have hi : (record asciiPlatform zoneProvider53 "r.z.").init (.rrset bothValues) := trivial
  have hk := cleanup_keeps (.init hi) (by decide) hs
  exact ⟨_, hs, hk "b" (by decide +kernel) (by decide)⟩

def answersGood : Outside where
  client := showsBoth.client
  responses := fun _ => .http 200 "good"

def heProvider : Provider := ⟨.hurricane ⟨"acme-challenge-cleared"⟩, Dict.ofList [("r.z", "key")]⟩

theorem cleanup_clears_other : ∃ s s', (record asciiPlatform heProvider "r.z.").Run
    [⟨.present, ["a"], answersGood⟩, ⟨.present, ["b"], answersGood⟩] s ∧ s.Published "b" ∧
    (record asciiPlatform heProvider "r.z.").step s ⟨.cleanup, ["a"], answersGood⟩ s' ∧
    ¬ s'.Published "b" := by
  have hput (s : Option String) (v : String) : (record asciiPlatform heProvider "r.z.").step
      (.txt s) ⟨.present, [v], answersGood⟩ (.txt (some v)) := ⟨trivial, .txt v, rfl, rfl⟩
  have hclear : (record asciiPlatform heProvider "r.z.").step (.txt (some "b")) ⟨.cleanup, ["a"],
      answersGood⟩ (.txt (some "acme-challenge-cleared")) :=
    ⟨trivial, .txt "acme-challenge-cleared", by decide +kernel, rfl⟩
  have hi : (record asciiPlatform heProvider "r.z.").init (.txt none) := trivial
  exact ⟨.txt (some "b"), .txt (some "acme-challenge-cleared"), .two hi (hput _ _) (hput _ _),
    by decide, hclear,
    by decide⟩

end Samples

end AstropathRelay.DataPlane
