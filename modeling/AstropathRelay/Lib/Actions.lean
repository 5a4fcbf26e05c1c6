import Mathlib.Tactic

/-! Programs that raise and keep their state: what an action leaves of its state, and what it leaves
when it raises. -/

namespace AstropathRelay.Lib

variable {ε σ α β : Type}

def answerOf : EStateM.Result ε σ α → Except ε α
  | .ok a _ => .ok a
  | .error e _ => .error e

def stateOf : EStateM.Result ε σ α → σ
  | .ok _ s => s
  | .error _ s => s

def Keeps (R : σ → σ → Prop) (x : EStateM ε σ α) : Prop :=
  ∀ s, (∀ a t, x.run s = .ok a t → R s t) ∧ ∀ e t, x.run s = .error e t → R s t

def KeepsWhenRaising (R : σ → σ → Prop) (x : EStateM ε σ α) : Prop :=
  ∀ s e t, x.run s = .error e t → R s t

variable {R : σ → σ → Prop} {x : EStateM ε σ α} {f : α → EStateM ε σ β}

lemma Keeps.pure (hrefl : ∀ s, R s s) (a : α) : Keeps R (Pure.pure a : EStateM ε σ α) := by
  refine fun s => ⟨fun b t h => ?_, nofun⟩
  cases h
  exact hrefl s

lemma Keeps.throw (hrefl : ∀ s, R s s) (e : ε) : Keeps R (MonadExcept.throw e : EStateM ε σ α) := by
  refine fun s => ⟨nofun, fun e' t h => ?_⟩
  cases h
  exact hrefl s

lemma Keeps.get (hrefl : ∀ s, R s s) : Keeps R (MonadState.get : EStateM ε σ σ) := by
  refine fun s => ⟨fun b t h => ?_, nofun⟩
  cases h
  exact hrefl s

lemma Keeps.modify {g : σ → σ} (hg : ∀ s, R s (g s)) :
    Keeps R (modifyThe σ g : EStateM ε σ PUnit) := by
  refine fun s => ⟨fun b t h => ?_, nofun⟩
  cases h
  exact hg s

lemma Keeps.bind (htrans : ∀ s t u, R s t → R t u → R s u) (hx : Keeps R x)
    (hf : ∀ a, Keeps R (f a)) : Keeps R (x >>= f) := by
  intro s
  rw [EStateM.run_bind]
  cases hr : x.run s with
  | ok a t =>
    have hst := (hx s).1 a t hr
    exact ⟨fun b u h => htrans s t u hst ((hf a t).1 b u h),
      fun e u h => htrans s t u hst ((hf a t).2 e u h)⟩
  | error e t =>
    refine ⟨nofun, fun e' u h => ?_⟩
    cases h
    exact (hx s).2 e t hr

lemma Keeps.whenRaising (hx : Keeps R x) : KeepsWhenRaising R x := fun s e t h => (hx s).2 e t h

lemma Keeps.bind_whenRaising (htrans : ∀ s t u, R s t → R t u → R s u) (hx : Keeps R x)
    (hf : ∀ a, KeepsWhenRaising R (f a)) : KeepsWhenRaising R (x >>= f) := by
  intro s e u h
  rw [EStateM.run_bind] at h
  cases hr : x.run s with
  | ok a t =>
    simp only [hr] at h
    exact htrans s t u ((hx s).1 a t hr) (hf a t e u h)
  | error e' t =>
    simp only [hr] at h
    cases h
    exact (hx s).2 e u hr

lemma KeepsWhenRaising.bind (hx : KeepsWhenRaising R x) (hf : ∀ a s, ∃ b t, (f a).run s = .ok b t) :
    KeepsWhenRaising R (x >>= f) := by
  intro s e u h
  rw [EStateM.run_bind] at h
  cases hr : x.run s with
  | ok a t =>
    obtain ⟨b, v, hv⟩ := hf a t
    simp only [hr, hv] at h
    cases h
  | error e' t =>
    simp only [hr] at h
    cases h
    exact hx s e u hr

end AstropathRelay.Lib
