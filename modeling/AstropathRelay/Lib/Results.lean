import Mathlib.Tactic

/-! Computations that return or raise, read backwards from their result. -/

namespace AstropathRelay.Lib.Results

variable {ε α β : Type}

lemma bind_ok {x : Except ε α} {f : α → Except ε β} {b : β} :
    (x >>= f) = .ok b ↔ ∃ a, x = .ok a ∧ f a = .ok b := by
  cases x <;> simp [bind, Except.bind]

@[simp] lemma pure_ok {a b : α} : (pure a : Except ε α) = .ok b ↔ a = b := by
  simp [pure, Except.pure]

lemma ok_bind (a : α) (f : α → Except ε β) : ((.ok a : Except ε α) >>= f) = f a := rfl

lemma map_ok {x : Except ε α} {f : α → β} {b : β} : x.map f = .ok b ↔ ∃ a, x = .ok a ∧ f a = b := by
  cases x <;> simp [Except.map]

lemma returns_of_isSome {x : Except ε α} (h : x.toOption.isSome) : ∃ a, x = .ok a := by
  cases x with
  | error e => simp [Except.toOption] at h
  | ok a => exact ⟨a, rfl⟩

lemma returns_of_map {x : Except ε α} {f : α → β} {b : β} (h : x.toOption.map f = some b) :
    ∃ a, x = .ok a ∧ f a = b := by
  cases x with
  | error e => simp [Except.toOption] at h
  | ok a => exact ⟨a, rfl, by simpa [Except.toOption] using h⟩

lemma mapM_ok {f : α → Except ε β} {as : List α} {bs : List β} :
    as.mapM f = .ok bs ↔ List.Forall₂ (fun a b => f a = .ok b) as bs := by
  induction as generalizing bs with
  | nil =>
    rw [List.mapM_nil, pure_ok, List.forall₂_nil_left_iff]
    exact eq_comm
  | cons a as ih =>
    rw [List.mapM_cons, List.forall₂_cons_left_iff]
    constructor
    · intro h
      obtain ⟨b, hb, h⟩ := bind_ok.mp h
      obtain ⟨bs', hbs, h⟩ := bind_ok.mp h
      exact ⟨b, bs', hb, ih.mp hbs, (pure_ok.mp h).symm⟩
    · rintro ⟨b, bs', hb, hbs, rfl⟩
      exact bind_ok.mpr ⟨b, hb, bind_ok.mpr ⟨bs', ih.mpr hbs, rfl⟩⟩

lemma mapM_returns {f : α → Except ε β} {as : List α} :
    (∃ bs, as.mapM f = .ok bs) ↔ ∀ a ∈ as, ∃ b, f a = .ok b := by
  simp only [mapM_ok]
  induction as with
  | nil => simp
  | cons a as ih =>
    rw [List.forall_mem_cons, ← ih]
    constructor
    · rintro ⟨bs, h⟩
      obtain ⟨b, bs', hb, hbs, -⟩ := List.forall₂_cons_left_iff.mp h
      exact ⟨⟨b, hb⟩, bs', hbs⟩
    · rintro ⟨⟨b, hb⟩, bs, hbs⟩
      exact ⟨b :: bs, .cons hb hbs⟩

lemma mapM_congr {f g : α → Except ε β} {as : List α} (h : ∀ a ∈ as, f a = g a) :
    as.mapM f = as.mapM g := by
  induction as with
  | nil => rfl
  | cons a as ih =>
    rw [List.mapM_cons, List.mapM_cons, h a (by simp), ih (fun a' ha' => h a' (by simp [ha']))]

lemma foldlM_congr {f g : β → α → Except ε β} {as : List α} (h : ∀ a ∈ as, ∀ b, f b a = g b a)
    (b : β) : as.foldlM f b = as.foldlM g b := by
  induction as generalizing b with
  | nil => rfl
  | cons a as ih =>
    rw [List.foldlM_cons, List.foldlM_cons, h a (by simp)]
    cases g b a with
    | error e => rfl
    | ok b' => exact ih (fun a' ha' => h a' (by simp [ha'])) b'

lemma exists_related {R : α → β → Prop} {as : List α} {bs : List β} (h : List.Forall₂ R as bs)
    {a : α} (ha : a ∈ as) : ∃ b ∈ bs, R a b := by
  induction h with
  | nil => simp at ha
  | cons hr _ ih =>
    rcases List.mem_cons.mp ha with rfl | ha
    · exact ⟨_, by simp, hr⟩
    · obtain ⟨b, hb, hab⟩ := ih ha
      exact ⟨b, by simp [hb], hab⟩

lemma pairwise_related {R : α → β → Prop} {P : α → α → Prop} {Q : β → β → Prop}
    (hPQ : ∀ a b a' b', R a b → R a' b' → (P a a' ↔ Q b b')) {as : List α} {bs : List β}
    (h : List.Forall₂ R as bs) : as.Pairwise P ↔ bs.Pairwise Q := by
  induction h with
  | nil => simp
  | cons hab hr ih =>
    rw [List.pairwise_cons, List.pairwise_cons, ih]
    refine and_congr_left (fun _ => ⟨fun hp b' hb' => ?_, fun hq a' ha' => ?_⟩)
    · obtain ⟨a', ha', hab'⟩ := exists_related (R := flip R) hr.flip hb'
      exact (hPQ _ _ _ _ hab hab').mp (hp a' ha')
    · obtain ⟨b', hb', hab'⟩ := exists_related hr ha'
      exact (hPQ _ _ _ _ hab hab').mpr (hq b' hb')

lemma bind_error {x : Except ε α} {f : α → Except ε β} {e : ε} :
    (x >>= f) = .error e ↔ x = .error e ∨ ∃ a, x = .ok a ∧ f a = .error e := by
  cases x <;> simp [bind, Except.bind]

lemma mapM_error {f : α → Except ε β} {as : List α} {e : ε} (h : as.mapM f = .error e) :
    ∃ a ∈ as, f a = .error e := by
  induction as with
  | nil => cases h
  | cons a as ih =>
    rw [List.mapM_cons] at h
    rcases bind_error.mp h with ha | ⟨b, -, h⟩
    · exact ⟨a, by simp, ha⟩
    · rcases bind_error.mp h with hr | ⟨bs, -, h⟩
      · obtain ⟨a', ha', he⟩ := ih hr
        exact ⟨a', by simp [ha'], he⟩
      · cases h

lemma foldlM_error {f : β → α → Except ε β} {as : List α} {b : β} {e : ε}
    (h : as.foldlM f b = .error e) : ∃ b', ∃ a ∈ as, f b' a = .error e := by
  induction as generalizing b with
  | nil => cases h
  | cons a as ih =>
    rw [List.foldlM_cons] at h
    rcases bind_error.mp h with ha | ⟨b', -, h⟩
    · exact ⟨b, a, by simp, ha⟩
    · obtain ⟨b', a', ha', he⟩ := ih h
      exact ⟨b', a', by simp [ha'], he⟩

lemma forM_ok {f : α → Except ε Unit} {as : List α} : as.forM f = .ok () ↔
    ∀ a ∈ as, f a = .ok () := by
  induction as with
  | nil => exact iff_of_true rfl (by simp)
  | cons a as ih =>
    have hcons : (a :: as).forM f = f a >>= fun _ => as.forM f := rfl
    rw [hcons, List.forall_mem_cons, ← ih, bind_ok]
    exact ⟨fun ⟨_, ha, h⟩ => ⟨ha, h⟩, fun ⟨ha, h⟩ => ⟨(), ha, h⟩⟩

end AstropathRelay.Lib.Results
