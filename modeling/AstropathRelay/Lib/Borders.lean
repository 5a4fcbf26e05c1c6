import AstropathRelay.Lib.Substitution

/-! Searching a text that is put together of parts. What a search finds inside the first part does
not depend on the second one, but for the symbol it begins with, and of what stands before it the
last symbol is all that counts. -/

namespace AstropathRelay.Lib

namespace Cursor

variable {α : Type}

def onto (c : Cursor α) (t : List α) : Cursor α := { c with rest := c.rest ++ t }

def under (c : Cursor α) (b : List α) : Cursor α := { c with before := c.before ++ b }

variable {c d : Cursor α} {t b : List α}

lemma advance_onto {n : ℕ} (h : n ≤ c.rest.length) :
    (c.onto t).advance n = (c.advance n).onto t := by
  simp [advance, onto, List.take_append_of_le_length h, List.drop_append_of_le_length h]

lemma capture_onto (name : String) :
    (c.onto t).capture name (d.onto t) = (c.capture name d).onto t := by
  have hlen : (c.rest ++ t).length - (d.rest ++ t).length = c.rest.length - d.rest.length := by
    simp only [List.length_append]
    omega
  simp only [capture, onto, hlen, List.take_append_of_le_length (Nat.sub_le _ _)]

lemma onto_inj (h : c.onto t = d.onto t) : c = d := by
  obtain ⟨hbefore, hrest, hgroups⟩ := Cursor.ext_iff.mp h
  exact Cursor.ext hbefore (List.append_cancel_right hrest) hgroups

lemma advance_under {n : ℕ} : (c.under b).advance n = (c.advance n).under b := by
  simp [advance, under]

end Cursor

namespace Regex

variable {α : Type}

def Alike (a a' : Option α) : Regex α → Prop
  | empty | one _ | many _ _ _ => True
  | boundary word => a.any word = a'.any word
  | seq r s | alt r s => Alike a a' r ∧ Alike a a' s
  | group _ r => Alike a a' r

lemma alike_refl (a : Option α) (r : Regex α) : Alike a a r := by
  induction r with
  | empty | one | many => trivial
  | boundary => rfl
  | seq r s ihr ihs | alt r s ihr ihs => exact ⟨ihr, ihs⟩
  | group name r ih => exact ih

lemma alike_seqs {a a' : Option α} {rs : List (Regex α)} : Alike a a' (seqs rs) ↔
    ∀ r ∈ rs, Alike a a' r := by
  induction rs with
  | nil => simp [seqs, Alike]
  | cons r rs ih => rw [List.forall_mem_cons, ← ih]; rfl

lemma alike_alts {a a' : Option α} {rs : List (Regex α)} : Alike a a' (alts rs) ↔
    ∀ r ∈ rs, Alike a a' r := by
  induction rs with
  | nil => simp [alts, Alike]
  | cons r rs ih => rw [List.forall_mem_cons, ← ih]; rfl

def staying (t : List α) (ds : List (Cursor α)) : List (Cursor α) :=
  ds.filter (fun d => t.length ≤ d.rest.length)

section Staying

variable {t t' : List α} {c : Cursor α}

lemma staying_map_onto (ds : List (Cursor α)) :
    staying t (ds.map (·.onto t)) = ds.map (·.onto t) := by
  refine List.filter_eq_self.mpr fun d hd => ?_
  obtain ⟨e, -, rfl⟩ := List.mem_map.mp hd
  simp [Cursor.onto]

lemma range_filter_le (m n : ℕ) :
    (List.range (m + 1)).filter (· ≤ n) = List.range (min m n + 1) := by
  induction m with
  | zero => simp
  | succ m ih =>
    rw [List.range_succ, List.filter_append, ih]
    by_cases h : m + 1 ≤ n
    · have hm : m ≤ n := Nat.le_of_succ_le h
      have hlast : [m + 1].filter (· ≤ n) = [m + 1] := by simp [h]
      rw [min_eq_left h, min_eq_left hm, hlast, List.range_succ (n := m + 1)]
    · have hm : n ≤ m := by omega
      simp [h, min_eq_right hm, min_eq_right (hm.trans (Nat.le_succ m))]

lemma length_takeWhile_append (p : α → Bool) (l t : List α) :
    min ((l ++ t).takeWhile p).length l.length = (l.takeWhile p).length := by
  induction l with
  | nil => simp
  | cons a l ih =>
    by_cases ha : p a
    · simp [ha, ih]
    · simp [ha]

lemma staying_run_many (p : α → Bool) (lo : ℕ) (hi : Option ℕ) (c : Cursor α) (t : List α) :
    staying t (run (many p lo hi) (c.onto t)) = (run (many p lo hi) c).map (·.onto t) := by
  have hlongest := length_takeWhile_append p c.rest t
  have hmost : min (hi.elim ((c.rest ++ t).takeWhile p).length
      (min ((c.rest ++ t).takeWhile p).length)) c.rest.length =
      hi.elim (c.rest.takeWhile p).length (min (c.rest.takeWhile p).length) := by
    cases hi with
    | none => exact hlongest
    | some h => simp only [Option.elim_some, ← hlongest, min_right_comm]
  have hbound : hi.elim ((c.rest ++ t).takeWhile p).length
      (min ((c.rest ++ t).takeWhile p).length) ≤ c.rest.length + t.length := by
    have hle : ((c.rest ++ t).takeWhile p).length ≤ c.rest.length + t.length := by
      rw [← List.length_append]
      exact (List.takeWhile_prefix p).length_le
    cases hi with
    | none => exact hle
    | some h => exact (min_le_left _ _).trans hle
  change List.filter _ (List.map (c.onto t).advance ((List.range (hi.elim ((c.rest ++ t).takeWhile
    p).length (min ((c.rest ++ t).takeWhile p).length) + 1)).filter (lo ≤ ·)).reverse) = _
  generalize hi.elim ((c.rest ++ t).takeWhile p).length (min ((c.rest ++ t).takeWhile p).length) = m
    at hmost hbound ⊢
  have hfilter : ∀ n ∈ ((List.range (m + 1)).filter (lo ≤ ·)).reverse,
      ((fun d : Cursor α => decide (t.length ≤ d.rest.length)) ∘ (c.onto t).advance) n =
        decide (n ≤ c.rest.length) := by
    intro n hn
    have hlt : n ≤ c.rest.length + t.length := by
      simp only [List.mem_reverse, List.mem_filter, List.mem_range] at hn
      omega
    simp only [Function.comp_apply, Cursor.onto, Cursor.advance, List.length_drop,
      List.length_append, decide_eq_decide]
    omega
  rw [run, List.filter_map, List.map_map, List.filter_congr hfilter, List.filter_reverse,
    List.filter_comm, range_filter_le, hmost]
  refine List.map_congr_left fun n hn => Cursor.advance_onto ?_
  have hle := hmost ▸ min_le_right m c.rest.length
  simp only [List.mem_reverse, List.mem_filter, List.mem_range] at hn
  omega

lemma staying_run_seq (r s : Regex α) (c : Cursor α) :
    staying t (run (seq r s) c) = (staying t (run r c)).flatMap (fun d => staying t (run s d)) := by
  rw [run, staying, List.filter_flatMap, staying]
  induction run r c with
  | nil => rfl
  | cons d ds ih =>
    rw [List.flatMap_cons, ih]
    by_cases hd : t.length ≤ d.rest.length
    · simp [hd, staying]
    · have hnil : (run s d).filter (fun e => t.length ≤ e.rest.length) = [] := by
        refine List.filter_eq_nil_iff.mpr fun e he => ?_
        have hle := minLength_le he
        simp only [decide_eq_true_eq, not_le]
        omega
      simp [hd, hnil]

lemma exists_staying {r : Regex α} (h : Alike t.head? t'.head? r)
    (c : Cursor α) : ∃ ds : List (Cursor α), staying t (run r (c.onto t)) = ds.map (·.onto t) ∧
    staying t' (run r (c.onto t')) = ds.map (·.onto t') := by
  induction r generalizing c with
  | empty => exact ⟨[c], staying_map_onto [c], staying_map_onto [c]⟩
  | one p =>
    have hstay : ∀ t : List α,
        staying t (run (one p) (c.onto t)) = (run (one p) c).map (·.onto t) := by
      intro t
      obtain ⟨before, rest, groups⟩ := c
      cases rest with
      | nil =>
        refine List.filter_eq_nil_iff.mpr fun d hd => ?_
        obtain ⟨a, -, hd⟩ := mem_run_one.mp hd
        have hr : t = a :: d.rest := hd.rest
        simp [hr]
      | cons a as => by_cases ha : p a <;> simp [run, staying, Cursor.onto, Cursor.advance, ha]
    exact ⟨_, hstay t, hstay t'⟩
  | many p lo hi => exact ⟨_, staying_run_many p lo hi c t, staying_run_many p lo hi c t'⟩
  | boundary word =>
    have hedge : (c.onto t').atBoundary word = (c.onto t).atBoundary word := by
      obtain ⟨before, rest, groups⟩ := c
      cases rest with
      | nil => exact congrArg (_ != ·) h.symm
      | cons a as => rfl
    have hstay : ∀ t : List α, staying t (if (c.onto t).atBoundary word then [c.onto t] else []) =
        (if (c.onto t).atBoundary word then [c] else []).map (·.onto t) := by
      intro t
      split
      · exact staying_map_onto [c]
      · rfl
    exact ⟨_, hstay t, hedge ▸ hstay t'⟩
  | seq r s ihr ihs =>
    obtain ⟨ds, hd, hd'⟩ := ihr h.1 c
    choose es hes hes' using ihs h.2
    refine ⟨ds.flatMap es, ?_, ?_⟩
    · rw [staying_run_seq, hd, List.flatMap_map, List.map_flatMap]
      exact List.flatMap_congr fun d _ => hes d
    · rw [staying_run_seq, hd', List.flatMap_map, List.map_flatMap]
      exact List.flatMap_congr fun d _ => hes' d
  | alt r s ihr ihs =>
    obtain ⟨ds, hd, hd'⟩ := ihr h.1 c
    obtain ⟨es, he, he'⟩ := ihs h.2 c
    refine ⟨ds ++ es, ?_, ?_⟩
    · rw [run, staying, List.filter_append, List.map_append]
      exact congrArg₂ _ hd he
    · rw [run, staying, List.filter_append, List.map_append]
      exact congrArg₂ _ hd' he'
  | group name r ih =>
    obtain ⟨ds, hd, hd'⟩ := ih h c
    have hcapture : ∀ t : List α, ∀ ds : List (Cursor α),
        staying t (run r (c.onto t)) = ds.map (·.onto t) →
        staying t (run (group name r) (c.onto t)) = (ds.map (c.capture name)).map (·.onto t) := by
      intro t ds hd
      rw [run, staying, List.filter_map, List.map_map]
      refine (congrArg (List.map ((c.onto t).capture name)) hd).trans ?_
      rw [List.map_map]
      exact List.map_congr_left fun d _ => Cursor.capture_onto name
    exact ⟨_, hcapture t ds hd, hcapture t' ds hd'⟩

end Staying

section Under

variable {c d : Cursor α}

lemma over_true (r : Regex α) : Over (fun _ => True) r := by
  induction r with
  | empty => trivial
  | one | many | boundary => exact fun _ _ => trivial
  | seq r s ihr ihs | alt r s ihr ihs => exact ⟨ihr, ihs⟩
  | group name r ih => exact ih

lemma before_ne_nil {r : Regex α} (h : d ∈ run r c) (hc : c.before ≠ []) : d.before ≠ [] := by
  obtain ⟨m, hm, -⟩ := eats_of_run (over_true r) h
  rw [hm.before]
  exact List.append_ne_nil_of_right_ne_nil _ hc

lemma run_under (r : Regex α) (b : List α) (hc : c.before ≠ []) :
    run r (c.under b) = (run r c).map (·.under b) := by
  induction r generalizing c with
  | empty => rfl
  | one p =>
    change (if c.rest.head?.any p then _ else _) = List.map _ (if c.rest.head?.any p then _ else _)
    split
    · exact congrArg (· :: []) Cursor.advance_under
    · rfl
  | many p lo hi =>
    simp only [run, List.map_map]
    exact List.map_congr_left fun n _ => Cursor.advance_under
  | boundary word =>
    have hedge : (c.under b).atBoundary word = c.atBoundary word := by
      obtain ⟨a, as, ha⟩ := List.exists_cons_of_ne_nil hc
      simp [Cursor.atBoundary, Cursor.under, ha]
    simp only [run, hedge]
    split <;> rfl
  | seq r s ihr ihs =>
    rw [run, run, ihr hc, List.flatMap_map, List.map_flatMap]
    exact List.flatMap_congr fun d hd => ihs (before_ne_nil hd hc)
  | alt r s ihr ihs => rw [run, run, ihr hc, ihs hc, List.map_append]
  | group name r ih =>
    rw [run, run, ih hc, List.map_map, List.map_map]
    rfl

end Under

def Apart (r : Regex α) (before w t : List α) : Prop :=
  ∀ x y, w = x ++ y → y ≠ [] →
    ∀ c ∈ run r ⟨x.reverse ++ before, y ++ t, []⟩, t.length ≤ c.rest.length

lemma apart_iff {r : Regex α} {before w t : List α} : Apart r before w t ↔ ∀ n < w.length,
    ∀ c ∈ run r ⟨(w.take n).reverse ++ before, w.drop n ++ t, []⟩, t.length ≤ c.rest.length := by
  constructor
  · intro h n hn
    exact h (w.take n) (w.drop n) (List.take_append_drop n w).symm (by simpa using hn)
  · rintro h x y rfl hy
    have hn := h x.length (by simpa using List.length_pos_of_ne_nil hy)
    rwa [List.take_left' rfl, List.drop_left' rfl] at hn

instance (r : Regex α) (before w t : List α) : Decidable (Apart r before w t) :=
  decidable_of_iff' _ apart_iff

lemma Apart.tail {r : Regex α} {before x w t : List α} (h : Apart r before (x ++ w) t) :
    Apart r (x.reverse ++ before) w t := by
  intro y z hw hz c hc
  refine h (x ++ y) z (by rw [hw, List.append_assoc]) hz c ?_
  rwa [List.reverse_append, List.append_assoc]

lemma apart_nil {r : Regex α} {before w : List α} :
    Apart r before w [] := fun _ _ _ _ _ _ => Nat.zero_le _

lemma mem_run_seqs_append {rs rs' : List (Regex α)} {c d : Cursor α} :
    d ∈ run (seqs (rs ++ rs')) c ↔ ∃ e ∈ run (seqs rs) c, d ∈ run (seqs rs') e := by
  induction rs generalizing c with
  | nil => simp [mem_run_seqs_nil]
  | cons r rs ih =>
    simp only [List.cons_append, mem_run_seqs_cons, ih]
    constructor
    · rintro ⟨e, he, f, hf, hd⟩
      exact ⟨f, ⟨e, he, hf⟩, hd⟩
    · rintro ⟨f, ⟨e, he, hf⟩, hd⟩
      exact ⟨e, he, f, hf, hd⟩

lemma exists_of_concat {a : α} {w x y : List α} (h : w ++ [a] = x ++ y) (hy : y ≠ []) :
    ∃ y', y = y' ++ [a] ∧ w = x ++ y' := by
  rcases List.eq_nil_or_concat y with rfl | ⟨y', b, rfl⟩
  · exact absurd rfl hy
  · rw [List.concat_eq_append] at h ⊢
    rw [← List.append_assoc] at h
    obtain ⟨rfl, hab⟩ := List.append_inj' h rfl
    exact ⟨y', by rw [hab], rfl⟩

lemma apart_of_edge (rs rs' : List (Regex α)) {p q : α → Prop} {a b : α} {before w t : List α}
    (h : ∀ r ∈ rs, Over p r) (h' : ∀ r ∈ rs', Over q r) (ha : ¬ p a) (hb : ¬ q b) :
    Apart (seqs (rs ++ rs')) before (w ++ [a]) (b :: t) := by
  intro x y hw hy c hc
  by_contra hlen
  obtain ⟨e, he, hc⟩ := mem_run_seqs_append.mp hc
  obtain ⟨k, hk, hpk⟩ := eats_of_run (over_seqs.mpr h) he
  obtain ⟨v, hv, hqv⟩ := eats_of_run (over_seqs.mpr h') hc
  have htext : y ++ b :: t = (k ++ v) ++ c.rest := (hk.trans hv).rest
  -- the match goes over both symbols
  obtain ⟨y', rfl, -⟩ := exists_of_concat hw hy
  obtain ⟨z, hz⟩ : ∃ z, k ++ v = y' ++ a :: b :: z := by
    rcases List.append_eq_append_iff.mp htext with ⟨z, hz, hrest⟩ | ⟨z, hz, hrest⟩
    · cases z with
      | nil => exact absurd (congrArg List.length hrest).le hlen
      | cons b' z =>
        obtain ⟨rfl, -⟩ := List.cons.inj hrest
        exact ⟨z, by simpa using hz⟩
    · exact absurd (by simp [hrest]) hlen
  rcases List.append_eq_append_iff.mp hz with ⟨u, rfl, hu⟩ | ⟨u, hu, huv⟩
  · exact hb (hqv b (by simp [hu]))
  · cases u with
    | nil =>
      rw [List.nil_append] at huv
      exact hb (hqv b (by simp [← huv]))
    | cons a' u =>
      obtain ⟨rfl, -⟩ := List.cons.inj huv
      exact ha (hpk a (by simp [hu]))

lemma head_run_many (p : α → Bool) (lo : ℕ) (before rest : List α)
    (groups : List (String × List α)) :
    (run (many p lo none) ⟨before, rest, groups⟩).head? = if lo ≤ (rest.takeWhile p).length then
      some ⟨(rest.takeWhile p).reverse ++ before, rest.dropWhile p, groups⟩ else none := by
  have htake : rest.take (rest.takeWhile p).length = rest.takeWhile p :=
    (List.prefix_iff_eq_take.mp (List.takeWhile_prefix p)).symm
  have hdrop : rest.drop (rest.takeWhile p).length = rest.dropWhile p := by
    have hsplit := (List.take_append_drop (rest.takeWhile p).length rest).trans
      (List.takeWhile_append_dropWhile (p := p)).symm
    rw [htake] at hsplit
    exact List.append_cancel_left hsplit
  rw [run, Option.elim_none]
  split
  · next h => simp [List.range_succ, List.filter_append, h, Cursor.advance, htake, hdrop]
  · next h =>
    have hnone : (List.range ((rest.takeWhile p).length + 1)).filter (lo ≤ ·) = [] := by
      refine List.filter_eq_nil_iff.mpr fun n hn => ?_
      rw [List.mem_range] at hn
      simp only [decide_eq_true_eq]
      omega
    rw [hnone]
    rfl

section Stretch

variable {p : α → Bool} {u rest : List α}

lemma takeWhile_stretch (hu : ∀ a ∈ u, p a) (hrest : rest.head?.any p = false) :
    (u ++ rest).takeWhile p = u := by
  rw [List.takeWhile_append_of_pos hu]
  cases rest with
  | nil => simp
  | cons a as => simp [show p a = false by simpa using hrest]

lemma dropWhile_stretch (hu : ∀ a ∈ u, p a) (hrest : rest.head?.any p = false) :
    (u ++ rest).dropWhile p = rest := by
  rw [List.dropWhile_append_of_pos hu]
  cases rest with
  | nil => rfl
  | cons a as => exact List.dropWhile_cons_of_neg (by simpa using hrest)

lemma stretch_unique {u' rest' : List α} (hu : ∀ a ∈ u, p a) (hrest : rest.head?.any p = false)
    (hu' : ∀ a ∈ u', p a)
    (hrest' : rest'.head?.any p = false) (h : u ++ rest = u' ++ rest') : u = u' ∧ rest = rest' := by
  have heq : u = u' := by rw [← takeWhile_stretch hu hrest, h, takeWhile_stretch hu' hrest']
  exact ⟨heq, List.append_cancel_left (heq ▸ h)⟩

lemma head_run_stretch {lo : ℕ} (hu : ∀ a ∈ u, p a) (hlo : lo ≤ u.length)
    (hrest : rest.head?.any p = false) (before : List α) (groups : List (String × List α)) :
    (run (many p lo none) ⟨before, u ++ rest, groups⟩).head? =
      some ⟨u.reverse ++ before, rest, groups⟩ := by
  rw [head_run_many, takeWhile_stretch hu hrest, dropWhile_stretch hu hrest, if_pos hlo]

end Stretch

lemma head_run_option (p : α → Bool) (c : Cursor α) : (run (many p 0 (some 1)) c).head? =
    some (if c.rest.head?.any p then c.advance 1 else c) := by
  obtain ⟨before, rest, groups⟩ := c
  cases rest with
  | nil => rfl
  | cons a as =>
    by_cases ha : p a
    · simp [run, ha, List.range_succ]
    · simp [run, ha, Cursor.advance]

section Head

variable {r s : Regex α} {c d e : Cursor α}

lemma head_run_group (name : String) :
    (run (group name r) c).head? = ((run r c).head?).map (c.capture name) :=
  List.head?_map

lemma run_seq (r s : Regex α) (c : Cursor α) : run (seq r s) c = (run r c).flatMap (run s) := rfl

lemma run_seqs_singleton (r : Regex α) (c : Cursor α) : run (seqs [r]) c = run r c := by
  change (run r c).flatMap (fun d => [d]) = run r c
  simp

lemma head_run_seq (hd : (run r c).head? = some d) (he : (run s d).head? = some e) :
    (run (seq r s) c).head? = some e := by
  obtain ⟨ds, hds⟩ := List.head?_eq_some_iff.mp hd
  rw [run, hds, List.flatMap_cons, List.head?_append, he]
  rfl

lemma head_run_seq_of_forced (hd : d ∈ run r c) (h : ∀ e ∈ run r c, run s e ≠ [] → e = d) :
    (run (seq r s) c).head? = (run s d).head? := by
  rw [run]
  generalize run r c = ds at hd h
  by_cases hnil : run s d = []
  · have hall : ds.flatMap (run s) = [] := by
      refine List.flatMap_eq_nil_iff.mpr fun e he => ?_
      by_contra hne
      exact hne (h e he hne ▸ hnil)
    rw [hall, hnil]
  · induction ds with
    | nil => simp at hd
    | cons e ds ih =>
      rw [List.flatMap_cons]
      by_cases he : run s e = []
      · have hde : d ∈ ds := by
          rcases List.mem_cons.mp hd with rfl | hd
          · exact absurd he hnil
          · exact hd
        rw [he, List.nil_append]
        exact ih hde fun e he => h e (List.mem_cons_of_mem _ he)
      · obtain rfl := h e List.mem_cons_self he
        obtain ⟨a, as, ha⟩ := List.exists_cons_of_ne_nil he
        rw [ha]
        rfl

end Head

end Regex

namespace Pattern

variable {α : Type} {P : Pattern α} {before w t t' rest out : List α}

lemma matchAt_under {e : List α} (he : e ≠ []) (b : List α) :
    P.matchAt (e ++ b) rest = (P.matchAt e rest).map (·.under b) := by
  rw [matchAt, matchAt, ← List.head?_map]
  exact congrArg List.head? (Regex.run_under P.regex b (c := ⟨e, rest, []⟩) he)

lemma Scan.under {e : List α} (h : P.Scan e rest out) (he : e ≠ [])
    (b : List α) : P.Scan (e ++ b) rest out := by
  induction h with
  | done => exact .done _
  | @skip before a as out hm _ ih =>
    exact .skip (by rw [matchAt_under he, hm]; rfl) (ih (List.cons_ne_nil _ _))
  | @hit before a as out c hm _ ih =>
    have hc : c.before ≠ [] := Regex.before_ne_nil (mem_run_of_matchAt hm) he
    exact .hit (c := c.under b) (by rw [matchAt_under he, hm]; rfl) (ih hc)

lemma matchAt_eq_none (rs rs' : List (Regex α)) {q : α → Prop} {a : α}
    (hP : P.regex = Regex.seqs (rs ++ rs')) (h : ∀ r ∈ rs, r.Over q) (hc : (Regex.seqs rs).consumes)
    (ha : ¬ q a) : P.matchAt before (a :: rest) = none := by
  cases hm : P.matchAt before (a :: rest) with
  | none => rfl
  | some c =>
    have hmem := mem_run_of_matchAt hm
    rw [hP] at hmem
    obtain ⟨e, he, -⟩ := Regex.mem_run_seqs_append.mp hmem
    obtain ⟨m, hm, hq⟩ := Regex.eats_of_run (Regex.over_seqs.mpr h) he
    have hlt := Regex.rest_lt_of_consumes hc he
    have hr : a :: rest = m ++ e.rest := hm.rest
    cases m with
    | nil => simp [hr] at hlt
    | cons b m =>
      obtain ⟨rfl, -⟩ := List.cons.inj hr
      exact absurd (hq a List.mem_cons_self) ha

lemma Scan.of_cons {a : α} (hm : P.matchAt before (a :: rest) = none)
    (h : P.Scan before (a :: rest) out) : ∃ out', out = a :: out' := by
  cases h with
  | skip => exact ⟨_, rfl⟩
  | hit hm' =>
    rw [hm] at hm'
    cases hm'

lemma Scan.getLast? {a : α} (hexp : ∀ groups, (P.expand groups).getLast? = some a)
    (h : P.Scan before rest out) (hr : rest.getLast? = some a) : out.getLast? = some a := by
  induction h with
  | done => cases hr
  | @skip before b as out _ hs ih =>
    cases as with
    | nil =>
      cases hs
      exact hr
    | cons b' as => rw [List.getLast?_cons, ih (by simpa using hr), Option.getD_some]
  | @hit before b as out c hm hs ih =>
    obtain ⟨m, -, hrest, -, -⟩ := eats_of_matchAt (Regex.over_true P.regex) hm
    rw [List.getLast?_append]
    cases hc : c.rest with
    | nil =>
      rw [hc] at hs
      cases hs
      simp [hexp]
    | cons b' as =>
      rw [hrest, hc, List.getLast?_append, List.getLast?_cons, Option.some_or] at hr
      rw [ih (by rw [hc, List.getLast?_cons]; exact hr), Option.some_or]

/-- The scan of `w` and then `t` comes to the edge between them: no match it makes runs over that.
-/
inductive Reaches (P : Pattern α) (t : List α) : List α → List α → Prop
  | done (before : List α) : P.Reaches t before []
  | skip {before : List α} {a : α} {w : List α} : P.matchAt before (a :: (w ++ t)) = none →
      P.Reaches t (a :: before) w → P.Reaches t before (a :: w)
  | hit {before : List α} {a : α} {w : List α} {d : Cursor α} : P.matchAt before (a :: (w ++ t)) =
      some (d.onto t) → P.Reaches t d.before d.rest → P.Reaches t before (a :: w)

lemma matchAt_onto_unique {o p : Option (Cursor α)} (ha : P.regex.Alike t.head? t'.head?)
    (h : P.matchAt before (w ++ t) = o.map (·.onto t))
    (h' : P.matchAt before (w ++ t') = p.map (·.onto t')) : o = p := by
  obtain ⟨ds, hd, hd'⟩ := Regex.exists_staying ha ⟨before, w, []⟩
  have hhead : ∀ {t : List α} {o : Option (Cursor α)},
      P.matchAt before (w ++ t) = o.map (·.onto t) →
      Regex.staying t (P.regex.run ⟨before, w ++ t, []⟩) = ds.map (·.onto t) → ds.head? = o := by
    intro t o hm hd
    cases o with
    | none =>
      rw [List.head?_eq_none_iff.mp hm] at hd
      rw [List.map_eq_nil_iff.mp hd.symm]
      rfl
    | some d =>
      obtain ⟨es, hes⟩ := List.head?_eq_some_iff.mp hm
      rw [hes, Regex.staying, List.filter_cons_of_pos (by simp [Cursor.onto])] at hd
      obtain ⟨d', ds', rfl, hdd, -⟩ := List.map_eq_cons_iff.mp hd.symm
      rw [Cursor.onto_inj hdd]
      rfl
  exact (hhead h hd).symm.trans (hhead h' hd')

def Leaves (P : Pattern α) (before w t w' : List α) : Prop :=
  ∀ out, P.Scan (w.reverse ++ before) t out → P.Scan before (w ++ t) (w' ++ out)

lemma leaves_nil : P.Leaves before [] t [] := fun _ h => h

lemma Leaves.skip {a : α} {w' : List α} (hm : P.matchAt before (a :: (w ++ t)) = none)
    (h : P.Leaves (a :: before) w t w') : P.Leaves before (a :: w) t (a :: w') := by
  intro out hout
  refine .skip hm (h out ?_)
  simpa using hout

lemma onto_of_matchAt {d : Cursor α} (hm : P.matchAt before (w ++ t) = some (d.onto t)) :
    ∃ m, m ≠ [] ∧ w = m ++ d.rest ∧ d.before = m.reverse ++ before := by
  obtain ⟨m, hm, hr, hb, -⟩ := eats_of_matchAt (Regex.over_true P.regex) hm
  refine ⟨m, hm, ?_, hb⟩
  rw [Cursor.onto, ← List.append_assoc] at hr
  exact List.append_cancel_right hr

lemma Leaves.hit {d : Cursor α} {a : α} {w' : List α}
    (hm : P.matchAt before (a :: (w ++ t)) = some (d.onto t))
    (h : P.Leaves d.before d.rest t w') : P.Leaves before (a :: w) t (P.expand d.groups ++ w') := by
  intro out hout
  obtain ⟨m, -, hw, hb⟩ := onto_of_matchAt (w := a :: w) hm
  rw [List.append_assoc]
  refine .hit (c := d.onto t) hm (h out ?_)
  rwa [hb, ← List.append_assoc, ← List.reverse_append, ← hw]

lemma reaches_of_apart (h : P.regex.Apart before w t) : P.Reaches t before w := by
  induction hn : w.length using Nat.strong_induction_on generalizing before w with
  | _ n ih =>
    cases w with
    | nil => exact .done before
    | cons a w =>
      cases hm : P.matchAt before (a :: (w ++ t)) with
      | none => exact .skip hm (ih w.length (by simp [← hn]) (Regex.Apart.tail (x := [a]) h) rfl)
      | some c =>
        have hle := h [] (a :: w) rfl (List.cons_ne_nil a w) c (mem_run_of_matchAt hm)
        obtain ⟨m, hne, hr, hb, -⟩ := eats_of_matchAt (Regex.over_true P.regex) hm
        obtain ⟨v, hv⟩ : ∃ v, c.rest = v ++ t := by
          have hsuffix : t <:+ c.rest :=
            List.suffix_of_suffix_length_le ⟨a :: w, rfl⟩ ⟨m, hr.symm⟩ hle
          exact ⟨hsuffix.choose, hsuffix.choose_spec.symm⟩
        have hw : a :: w = m ++ v := by
          rw [hv, ← List.append_assoc] at hr
          exact List.append_cancel_right hr
        have hlen : v.length < n := by
          have hpos := List.length_pos_of_ne_nil hne
          rw [← hn, hw, List.length_append]
          omega
        have hc : c = (⟨c.before, v, c.groups⟩ : Cursor α).onto t := Cursor.ext rfl hv rfl
        rw [hw] at h
        exact .hit (hc ▸ hm) (ih v.length hlen (hb ▸ h.tail) rfl)

lemma exists_leaves (ha : P.regex.Alike t.head? t'.head?) (h : P.Reaches t before w)
    (h' : P.Reaches t' before w) : ∃ w', P.Leaves before w t w' ∧ P.Leaves before w t' w' := by
  induction h with
  | done => exact ⟨[], leaves_nil, leaves_nil⟩
  | @skip before a w hm _ ih =>
    cases h' with
    | skip hm' h' =>
      obtain ⟨w', hl, hl'⟩ := ih h'
      exact ⟨a :: w', .skip hm hl, .skip hm' hl'⟩
    | hit hm' =>
      have heq := matchAt_onto_unique (w := a :: w) (o := none) (p := some _) ha hm hm'
      cases heq
  | @hit before a w d hm _ ih =>
    cases h' with
    | skip hm' =>
      have heq := matchAt_onto_unique (w := a :: w) (o := some _) (p := none) ha hm hm'
      cases heq
    | hit hm' h' =>
      obtain rfl :=
        Option.some.inj (matchAt_onto_unique (w := a :: w) (o := some _) (p := some _) ha hm hm')
      obtain ⟨w', hl, hl'⟩ := ih h'
      exact ⟨_, .hit hm hl, .hit hm' hl'⟩

lemma reaches_nil : P.Reaches [] before w := reaches_of_apart Regex.apart_nil

section Parts

variable (P w t)

def behind : List α := P.subFrom t.length w.reverse t

def ahead : List α := (P.sub (w ++ t)).take ((P.sub (w ++ t)).length - (P.behind w t).length)

def aheads : List (Pattern α) → List α → List α → List α
  | [], w, _ => w
  | P :: Ps, w, t => aheads Ps (P.ahead w t) (P.behind w t)

def behinds : List (Pattern α) → List α → List α → List α
  | [], _, t => t
  | P :: Ps, w, t => behinds Ps (P.ahead w t) (P.behind w t)

def Clear : List (Pattern α) → List α → List α → Prop
  | [], _, _ => True
  | P :: Ps, w, t => P.Reaches t [] w ∧ Clear Ps (P.ahead w t) (P.behind w t)

lemma scan_behind : P.Scan w.reverse t (P.behind w t) := scan_subFrom P le_rfl w.reverse

variable {P w t}

lemma ahead_nil : P.ahead [] t = [] := by
  have hbehind : P.behind [] t = P.sub ([] ++ t) := rfl
  rw [ahead, hbehind, Nat.sub_self, List.take_zero]

lemma aheads_nil (Ps : List (Pattern α)) : aheads Ps [] t = [] := by
  induction Ps generalizing t with
  | nil => rfl
  | cons P Ps ih => rw [aheads, ahead_nil, ih]

lemma clear_nil (Ps : List (Pattern α)) : Clear Ps [] t := by
  induction Ps generalizing t with
  | nil => trivial
  | cons P Ps ih =>
    rw [Clear, ahead_nil]
    exact ⟨.done [], ih⟩

lemma ahead_of_leaves {w' : List α} (h : P.Leaves [] w t w') : P.sub (w ++ t) = w' ++ P.behind w t ∧
    P.ahead w t = w' := by
  have hscan := h (P.behind w t) (by simpa using scan_behind P w t)
  have hsub := (scan_sub P (w ++ t)).unique hscan
  refine ⟨hsub, ?_⟩
  rw [ahead, hsub, List.length_append, Nat.add_sub_cancel]
  exact List.take_left' rfl

lemma sub_append (h : P.Reaches t [] w) : P.sub (w ++ t) = P.ahead w t ++ P.behind w t := by
  obtain ⟨w', hl, -⟩ := exists_leaves (Regex.alike_refl _ _) h h
  obtain ⟨hsub, ha⟩ := ahead_of_leaves hl
  rw [hsub, ha]

lemma ahead_congr (ha : P.regex.Alike t.head? t'.head?) (h : P.Reaches t [] w)
    (h' : P.Reaches t' [] w) : P.ahead w t = P.ahead w t' := by
  obtain ⟨w', hl, hl'⟩ := exists_leaves ha h h'
  rw [(ahead_of_leaves hl).2, (ahead_of_leaves hl').2]

lemma foldl_sub_append {Ps : List (Pattern α)} (h : Clear Ps w t) :
    Ps.foldl (fun text P => P.sub text) (w ++ t) = aheads Ps w t ++ behinds Ps w t := by
  induction Ps generalizing w t with
  | nil => rfl
  | cons P Ps ih =>
    rw [List.foldl_cons, sub_append h.1]
    exact ih h.2

lemma aheads_congr {Ps : List (Pattern α)} (h : Clear Ps w t) (h' : Clear Ps w t')
    (hheads : ∀ n, (behinds (Ps.take n) w t).head? = (behinds (Ps.take n) w t').head?) :
    aheads Ps w t = aheads Ps w t' := by
  induction Ps generalizing w t t' with
  | nil => rfl
  | cons P Ps ih =>
    have hhead : t.head? = t'.head? := hheads 0
    have hahead : P.ahead w t = P.ahead w t' := ahead_congr (hhead ▸ Regex.alike_refl _ _) h.1 h'.1
    obtain ⟨-, h'⟩ := h'
    have hnext : ∀ n, (behinds (Ps.take n) (P.ahead w t) (P.behind w t)).head? =
        (behinds (Ps.take n) (P.ahead w t') (P.behind w t')).head? := fun n => hheads (n + 1)
    rw [← hahead] at h' hnext
    rw [aheads, aheads, ← hahead]
    exact ih h.2 h' hnext

def Absent (P : Pattern α) (before w t : List α) : Prop :=
  ∀ n < w.length, P.matchAt ((w.take n).reverse ++ before) (w.drop n ++ t) = none

instance (before w t : List α) : Decidable (P.Absent before w t) :=
  inferInstanceAs
    (Decidable (∀ n < w.length, P.matchAt ((w.take n).reverse ++ before) (w.drop n ++ t) = none))

lemma Absent.scan (h : P.Absent before w t) (hs : P.Scan (w.reverse ++ before) t out) :
    P.Scan before (w ++ t) (w ++ out) := by
  induction w generalizing before with
  | nil => exact hs
  | cons a w ih =>
    refine .skip (h 0 (Nat.zero_lt_succ _)) (ih (fun n hn => ?_) (by simpa using hs))
    have hnext := h (n + 1) (Nat.succ_lt_succ hn)
    simpa using hnext

lemma behind_concat {a : α} : P.behind (w ++ [a]) t = P.behind [a] t := by
  have hscan : P.Scan ([a] ++ w.reverse) t (P.behind [a] t) :=
    (scan_behind P [a] t).under (List.cons_ne_nil a []) _
  exact (scan_behind P (w ++ [a]) t).unique (by simpa using hscan)

lemma scan_of_none {a : α} (h : ∀ before, t ≠ [] → P.matchAt before t = none) (before : List α) :
    P.Scan before t (P.behind [a] t) := by
  cases t with
  | nil => exact .done before
  | cons b t =>
    have hscan := scan_behind P [a] (b :: t)
    generalize P.behind [a] (b :: t) = out at hscan ⊢
    cases hscan with
    | skip _ hs =>
      have htail : ∀ u : List α, P.Scan ([b] ++ u) t (P.behind [b] t) :=
        fun u => (scan_behind P [b] t).under (List.cons_ne_nil b []) u
      rw [hs.unique (htail [a])]
      exact .skip (h before (List.cons_ne_nil b t)) (htail before)
    | hit hm =>
      rw [h _ (List.cons_ne_nil b t)] at hm
      cases hm

lemma sub_beyond {a b : α} (ha : P.regex.Alike (some b) none) (h : P.Reaches (b :: t) [] (w ++ [a]))
    (hb : ∀ before rest, P.matchAt before (b :: rest) = none)
    (hexp : ∀ groups, (P.expand groups).getLast? = some a) : ∃ w' t', P.sub (w ++ [a]) = w' ++ [a] ∧
    P.behind [a] (b :: t) = b :: t' ∧ P.sub (w ++ a :: b :: t) = w' ++ a :: b :: t' := by
  obtain ⟨t', ht'⟩ := (scan_behind P [a] (b :: t)).of_cons (hb _ _)
  have hwhole : P.sub (w ++ [a]) = P.ahead (w ++ [a]) [] := by
    have hsub := sub_append (w := w ++ [a]) (P := P) reaches_nil
    have hnil : P.behind (w ++ [a]) [] = [] := rfl
    rwa [hnil, List.append_nil, List.append_nil] at hsub
  have hlast := (scan_sub P (w ++ [a])).getLast? hexp (by simp)
  obtain ⟨w', hw'⟩ := List.getLast?_eq_some_iff.mp hlast
  refine ⟨w', t', hw', ht', ?_⟩
  have htext : w ++ a :: b :: t = (w ++ [a]) ++ b :: t := by simp
  have hahead : P.ahead (w ++ [a]) (b :: t) = P.ahead (w ++ [a]) [] := ahead_congr ha h reaches_nil
  rw [htext, sub_append h, behind_concat, ht', hahead, ← hwhole, hw']
  simp

end Parts

end Pattern

end AstropathRelay.Lib
