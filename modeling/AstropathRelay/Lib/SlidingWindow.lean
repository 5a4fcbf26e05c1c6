import Mathlib.Algebra.Order.Group.Defs
import Mathlib.Data.List.DropRight
import Mathlib.Tactic

/-! Timestamps kept in a deque under a sliding window: expiry from the front, and what it keeps of
all that was recorded. -/

namespace AstropathRelay.Lib

variable {α : Type} [AddCommGroup α] [LinearOrder α]

def expire (w now : α) (events : List α) : List α := events.dropWhile (· ≤ now - w)

def inWindow (w now : α) (events : List α) : List α :=
  events.filter (fun t => now - w < t ∧ t ≤ now)

structure Tracks (w now : α) (kept recorded : List α) : Prop where
  sorted : kept.Pairwise (· ≤ ·)
  kept_le : ∀ t ∈ kept, t ≤ now
  recorded_le : ∀ t ∈ recorded, t ≤ now
  recent : ∀ m, now ≤ m → kept.filter (m - w < ·) = recorded.filter (m - w < ·)

variable {w now n : α} {kept recorded events : List α}

@[simp]
lemma inWindow_append (xs ys : List α) :
    inWindow w n (xs ++ ys) = inWindow w n xs ++ inWindow w n ys :=
  List.filter_append ..

lemma expire_eq_filter (h : events.Pairwise (· ≤ ·)) :
    expire w now events = events.filter (now - w < ·) := by
  rw [expire]
  induction h with
  | nil => rfl
  | @cons t ts hts _ ih =>
    by_cases ht : t ≤ now - w
    · rw [List.dropWhile_cons_of_pos (by simpa using ht),
        List.filter_cons_of_neg (by simpa using ht), ih]
    · have hlt : ∀ u ∈ t :: ts, now - w < u := by
        intro u hu
        rcases List.mem_cons.mp hu with rfl | hu
        · exact not_le.mp ht
        · exact lt_of_lt_of_le (not_le.mp ht) (hts u hu)
      rw [List.dropWhile_cons_of_neg (by simpa using ht),
        List.filter_eq_self.mpr (fun u hu => by simpa using hlt u hu)]

lemma Tracks.nil : Tracks w now [] [] := ⟨.nil, by simp, by simp, fun _ _ => rfl⟩

lemma Tracks.later (h : Tracks w now kept recorded) (hn : now ≤ n) : Tracks w n kept recorded :=
  ⟨h.sorted, fun t ht => (h.kept_le t ht).trans hn, fun t ht => (h.recorded_le t ht).trans hn,
    fun m hm => h.recent m (hn.trans hm)⟩

lemma Tracks.push (h : Tracks w now kept recorded) :
    Tracks w now (kept ++ [now]) (recorded ++ [now]) := by
  refine ⟨?_, ?_, ?_, fun m hm => ?_⟩
  · rw [List.pairwise_append]
    exact ⟨h.sorted, List.pairwise_singleton _ _, by simpa using h.kept_le⟩
  · intro t ht
    rcases List.mem_append.mp ht with ht | ht
    · exact h.kept_le t ht
    · exact (List.mem_singleton.mp ht).le
  · intro t ht
    rcases List.mem_append.mp ht with ht | ht
    · exact h.recorded_le t ht
    · exact (List.mem_singleton.mp ht).le
  · rw [List.filter_append, List.filter_append, h.recent m hm]

lemma Tracks.expire_eq (h : Tracks w now kept recorded) :
    expire w now kept = inWindow w now recorded := by
  rw [expire_eq_filter h.sorted, h.recent now le_rfl]
  refine List.filter_congr (fun t ht => ?_)
  simp [h.recorded_le t ht]

lemma Tracks.expire [IsOrderedAddMonoid α] (h : Tracks w now kept recorded) :
    Tracks w now (expire w now kept) recorded := by
  have hs := List.dropWhile_sublist (l := kept) (· ≤ now - w)
  refine ⟨h.sorted.sublist hs, fun t ht => h.kept_le t (hs.subset ht), h.recorded_le,
    fun m hm => ?_⟩
  rw [expire_eq_filter h.sorted, List.filter_filter, ← h.recent m hm]
  refine List.filter_congr (fun t _ => ?_)
  have hle : now - w ≤ m - w := sub_le_sub_right hm w
  by_cases ht : m - w < t
  · simp [ht, lt_of_le_of_lt hle ht]
  · simp [ht]

lemma length_inWindow_push [IsOrderedAddMonoid α] {max : ℕ} (hle : ∀ t ∈ recorded, t ≤ now)
    (hb : ∀ t, (inWindow w t recorded).length ≤ max) (hnow : (inWindow w now recorded).length < max)
    (t : α) : (inWindow w t (recorded ++ [now])).length ≤ max := by
  rw [inWindow_append, List.length_append]
  by_cases ht : t - w < now ∧ now ≤ t
  · have hsub : (inWindow w t recorded).length ≤ (inWindow w now recorded).length := by
      unfold inWindow
      rw [← List.countP_eq_length_filter, ← List.countP_eq_length_filter]
      refine List.countP_mono_left (fun u hu hw => ?_)
      have hwu := (of_decide_eq_true hw).1
      have hcut : now - w ≤ t - w := sub_le_sub_right ht.2 w
      exact decide_eq_true ⟨lt_of_le_of_lt hcut hwu, hle u hu⟩
    have hone : (inWindow w t [now]).length ≤ 1 := List.length_filter_le _ _
    omega
  · have hnil : inWindow w t [now] = [] := List.filter_cons_of_neg (by simpa using ht)
    rw [hnil]
    exact hb t

end AstropathRelay.Lib
