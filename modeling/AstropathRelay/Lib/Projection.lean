import AstropathRelay.Lib.Runs

/-! Runs of a system seen through one of its components: each step of the whole is a path of the
component. -/

namespace AstropathRelay.Lib.System

variable {σ τ ε δ : Type} {T : System σ ε} {U : System τ δ}

inductive Path (U : System τ δ) (t : τ) : List δ → τ → Prop
  | nil : Path U t [] t
  | snoc {ds : List δ} {d : δ} {u v : τ} : Path U t ds u → U.step u d v → Path U t (ds ++ [d]) v

lemma Path.single {t u : τ} {d : δ} (h : U.step t d u) : U.Path t [d] u := .snoc .nil h

lemma Run.path {ds ds' : List δ} {t u : τ} (h : U.Run ds t) (hp : U.Path t ds' u) :
    U.Run (ds ++ ds') u := by
  induction hp with
  | nil => rwa [List.append_nil]
  | snoc _ hs ih =>
    rw [← List.append_assoc]
    exact .step ih hs

theorem Run.project (π : σ → τ) (view : σ → ε → List δ) (P : List ε → List δ → Prop)
    (hinit : ∀ s, T.init s → U.init (π s))
    (hstep : ∀ s e s', T.step s e s' → U.Path (π s) (view s e) (π s'))
    (hnil : P [] []) (hsnoc : ∀ es ds s e, P es ds → P (es ++ [e]) (ds ++ view s e))
    {es : List ε} {s : σ} (h : T.Run es s) : ∃ ds, U.Run ds (π s) ∧ P es ds := by
  induction h with
  | init h => exact ⟨[], .init (hinit _ h), hnil⟩
  | @step es s s' e _ hs ih =>
    obtain ⟨ds, hr, hp⟩ := ih
    exact ⟨ds ++ view s e, hr.path (hstep s e s' hs), hsnoc es ds s e hp⟩

end AstropathRelay.Lib.System
