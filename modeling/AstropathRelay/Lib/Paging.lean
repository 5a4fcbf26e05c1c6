import Mathlib.Tactic

/-! Pages of a list in descending order of a key, and where an element stands in it. -/

namespace AstropathRelay.Lib

variable {α κ : Type} [LinearOrder κ] (key : α → κ)

def descending (xs : List α) : List α := xs.insertionSort (fun a b => key b ≤ key a)

def page (xs : List α) (limit offset : ℕ) : List α := (xs.drop offset).take limit

def rank (x : α) (xs : List α) : ℕ := xs.countP (fun y => key x < key y)

section Descending

variable {key} {x : α} {xs ys : List α}

lemma descending_perm (xs : List α) : (descending key xs).Perm xs := List.perm_insertionSort _ xs

variable (key) in
lemma descending_length (xs : List α) : (descending key xs).length = xs.length :=
  (descending_perm xs).length_eq

lemma descending_pairwise (h : (xs.map key).Nodup) :
    (descending key xs).Pairwise (fun a b => key b < key a) := by
  have hle : (descending key xs).Pairwise (fun a b => key b ≤ key a) :=
    List.pairwise_insertionSort _ xs
  have hne : (descending key xs).Pairwise (fun a b => key a ≠ key b) :=
    List.pairwise_map.mp (((descending_perm xs).map key).nodup_iff.mpr h)
  exact hle.imp₂ (fun _ _ hab hn => lt_of_le_of_ne hab (Ne.symm hn)) hne

lemma rank_perm (h : xs.Perm ys) : rank key x xs = rank key x ys := h.countP_eq _

lemma rank_le_append (x : α) (xs ys : List α) : rank key x xs ≤ rank key x (xs ++ ys) := by
  rw [rank, rank, List.countP_append]
  exact Nat.le_add_right _ _

lemma getElem?_rank (h : xs.Pairwise (fun a b => key b < key a))
    (hx : x ∈ xs) : xs[rank key x xs]? = some x := by
  induction xs with
  | nil => simp at hx
  | cons y ys ih =>
    obtain ⟨hy, hys⟩ := List.pairwise_cons.mp h
    rcases List.mem_cons.mp hx with rfl | hx
    · have hz : rank key x ys = 0 := by
        rw [rank, List.countP_eq_zero]
        intro z hz
        simpa using (hy z hz).le
      simp only [rank, List.countP_cons, lt_self_iff_false, decide_false, Bool.false_eq_true,
        if_false] at hz ⊢
      simp [hz]
    · have hr : rank key x (y :: ys) = rank key x ys + 1 := by simp [rank, hy x hx]
      rw [hr, List.getElem?_cons_succ]
      exact ih hys hx

lemma rank_lt_length (h : (xs.map key).Nodup) (hx : x ∈ xs) : rank key x xs < xs.length := by
  have hg := getElem?_rank (descending_pairwise h) ((descending_perm xs).mem_iff.mpr hx)
  rw [rank_perm (descending_perm xs)] at hg
  rw [← descending_length key]
  exact (List.getElem?_eq_some_iff.mp hg).1

lemma mem_page {limit offset : ℕ} (h : (xs.map key).Nodup) (hx : x ∈ xs)
    (ho : offset ≤ rank key x xs)
    (hl : rank key x xs < offset + limit) : x ∈ page (descending key xs) limit offset := by
  have hg := getElem?_rank (descending_pairwise h) ((descending_perm xs).mem_iff.mpr hx)
  rw [rank_perm (descending_perm xs)] at hg
  apply List.mem_of_getElem? (i := rank key x xs - offset)
  rw [page, List.getElem?_take_of_lt (by omega), List.getElem?_drop, Nat.add_sub_cancel' ho]
  exact hg

end Descending

end AstropathRelay.Lib
