import Mathlib.Tactic

/-! Labelled transition systems: their runs, the invariant rule, and runs that keep to some of the
steps. -/

namespace AstropathRelay.Lib

structure System (σ ε : Type) where
  init : σ → Prop
  step : σ → ε → σ → Prop

namespace System

variable {σ ε : Type}

inductive Run (T : System σ ε) : List ε → σ → Prop
  | init {s : σ} : T.init s → Run T [] s
  | step {es : List ε} {s s' : σ} {e : ε} : Run T es s → T.step s e s' → Run T (es ++ [e]) s'

def restrict (T : System σ ε) (P : σ → ε → Prop) : System σ ε :=
  ⟨T.init, fun s e s' => P s e ∧ T.step s e s'⟩

variable {T : System σ ε}

theorem Run.invariant {I : σ → Prop} (hinit : ∀ s, T.init s → I s) (hstep : ∀ s e s', I s →
      T.step s e s' → I s') {es : List ε} {s : σ} (h : T.Run es s) : I s := by
  induction h with
  | init h => exact hinit _ h
  | step _ hs ih => exact hstep _ _ _ ih hs

lemma Run.of_restrict {P : σ → ε → Prop} {es : List ε} {s : σ} (h : (T.restrict P).Run es s) :
    T.Run es s := by
  induction h with
  | init h => exact .init h
  | step _ hs ih => exact .step ih hs.2

lemma Run.snoc_inv {es : List ε} {e : ε} {s' : σ} (h : T.Run (es ++ [e]) s') : ∃ s, T.Run es s ∧
    T.step s e s' := by
  generalize hes : es ++ [e] = es' at h
  cases h with
  | init => simp at hes
  | @step es₀ s s' e₀ hr hs =>
    obtain ⟨rfl, he⟩ := List.append_inj' hes rfl
    obtain rfl := List.singleton_inj.mp he
    exact ⟨s, hr, hs⟩

lemma Run.two {s t u : σ} {e f : ε} (hs : T.init s) (ht : T.step s e t) (hu : T.step t f u) :
    T.Run [e, f] u :=
  .step (.step (.init hs) ht) hu

section Deterministic

variable (init : σ → Prop) (next : σ → ε → Option σ)

def deterministic : System σ ε := ⟨init, fun s e s' => next s e = some s'⟩

variable {init next}

variable (next) in
lemma run_deterministic (es : List ε) {s₀ : σ} (hi : init s₀) {s : σ}
    (h : es.foldlM next s₀ = some s) : (deterministic init next).Run es s := by
  induction es using List.reverseRecOn generalizing s with
  | nil =>
    obtain rfl := Option.some.inj h
    exact .init hi
  | append_singleton es e ih =>
    rw [List.foldlM_append] at h
    obtain ⟨t, ht, h⟩ := Option.bind_eq_some_iff.mp h
    rw [List.foldlM_cons] at h
    obtain ⟨u, hu, h⟩ := Option.bind_eq_some_iff.mp h
    obtain rfl := Option.some.inj h
    exact .step (ih ht) hu

lemma run_unique (hi : ∀ s t, init s → init t → s = t) {es : List ε} {s t : σ}
    (hs : (deterministic init next).Run es s)
    (ht : (deterministic init next).Run es t) : s = t := by
  induction hs generalizing t with
  | init h =>
    generalize hes : ([] : List ε) = es' at ht
    cases ht with
    | init h' => exact hi _ _ h h'
    | step => simp at hes
  | step _ hs ih =>
    obtain ⟨u, hu, ht⟩ := ht.snoc_inv
    rw [ih hu] at hs
    exact Option.some.inj (hs.symm.trans ht)

lemma restrict_deterministic (P : σ → ε → Prop) [∀ s e, Decidable (P s e)] :
    (deterministic init next).restrict P = deterministic init (fun s e => if P s e then next s e
      else none) := by
  rw [restrict, deterministic]
  congr
  funext s e s'
  by_cases hp : P s e <;> simp [hp]

section Evaluate

variable {es : List ε} {s₀ : σ} {α : Type} {f : σ → α} {a : α}

lemma exists_run (hi : init s₀) (h : (es.foldlM next s₀).map f = some a) :
    ∃ s, (deterministic init next).Run es s ∧ f s = a := by
  obtain ⟨s, hs, ha⟩ := Option.map_eq_some_iff.mp h
  exact ⟨s, run_deterministic next es hi hs, ha⟩

lemma exists_run_restrict {P : σ → ε → Prop} [∀ s e, Decidable (P s e)] (hi : init s₀)
    (h : (es.foldlM (fun s e => if P s e then next s e else none) s₀).map f = some a) :
    ∃ s, ((deterministic init next).restrict P).Run es s ∧ f s = a := by
  rw [restrict_deterministic]
  exact exists_run hi h

end Evaluate

end Deterministic

end System

end AstropathRelay.Lib
