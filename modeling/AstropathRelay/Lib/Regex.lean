import Mathlib.Tactic
import Mathlib.Data.List.TakeWhile

/-! Backtracking regular expressions over any alphabet, and the replacement of their matches from
left to right. A run lists what a search may match from one place, the preferred first: the first
alternative before the second, and of a repeated class as many symbols as there are. -/

namespace AstropathRelay.Lib

inductive Regex (α : Type)
  | empty
  | one (p : α → Bool)
  | many (p : α → Bool) (lo : ℕ) (hi : Option ℕ)
  | boundary (word : α → Bool)
  | seq (r s : Regex α)
  | alt (r s : Regex α)
  | group (name : String) (r : Regex α)

/-- A place in a text: the symbols before it, the nearest first, those after it, and the groups
captured so far. -/
@[ext]
structure Cursor (α : Type) where
  before : List α
  rest : List α
  groups : List (String × List α)

namespace Cursor

variable {α β : Type}

def advance (c : Cursor α) (n : ℕ) : Cursor α :=
  ⟨(c.rest.take n).reverse ++ c.before, c.rest.drop n, c.groups⟩

def capture (c : Cursor α) (name : String) (d : Cursor α) : Cursor α :=
  { d with groups := (name, c.rest.take (c.rest.length - d.rest.length)) :: d.groups }

def atBoundary (c : Cursor α) (word : α → Bool) : Bool :=
  c.before.head?.any word != c.rest.head?.any word

def map (f : β → α) (c : Cursor β) : Cursor α :=
  ⟨c.before.map f, c.rest.map f, c.groups.map (fun g => (g.1, g.2.map f))⟩

structure Eats (c : Cursor α) (m : List α) (d : Cursor α) : Prop where
  rest : c.rest = m ++ d.rest
  before : d.before = m.reverse ++ c.before

structure Takes (c : Cursor α) (m : List α) (d : Cursor α) : Prop extends c.Eats m d where
  groups : d.groups = c.groups

lemma eats_refl (c : Cursor α) : c.Eats [] c := ⟨rfl, rfl⟩

lemma Eats.trans {c d e : Cursor α} {m n : List α} (h : c.Eats m d)
    (k : d.Eats n e) : c.Eats (m ++ n) e :=
  ⟨by rw [h.rest, k.rest, List.append_assoc],
    by rw [k.before, h.before, List.reverse_append, List.append_assoc]⟩

lemma Takes.trans {c d e : Cursor α} {m n : List α} (h : c.Takes m d) (k : d.Takes n e) :
    c.Takes (m ++ n) e :=
  ⟨h.toEats.trans k.toEats, k.groups.trans h.groups⟩

lemma takes_nil {c d : Cursor α} : c.Takes [] d ↔ d = c :=
  ⟨fun h => Cursor.ext h.before h.rest.symm h.groups, fun h => h ▸ ⟨d.eats_refl, rfl⟩⟩

lemma takes_iff {c d : Cursor α} {m : List α} :
    c.Takes m d ↔ ∃ as, c.rest = m ++ as ∧ d = ⟨m.reverse ++ c.before, as, c.groups⟩ := by
  constructor
  · intro h
    exact ⟨d.rest, h.rest, Cursor.ext h.before rfl h.groups⟩
  · rintro ⟨as, hr, rfl⟩
    exact ⟨⟨hr, rfl⟩, rfl⟩

lemma exists_takes {c : Cursor α} {m as : List α} (h : c.rest = m ++ as) : ∃ d, c.Takes m d ∧
    d.rest = as :=
  ⟨_, takes_iff.mpr ⟨as, h, rfl⟩, rfl⟩

end Cursor

namespace Regex

variable {α β : Type}

def run : Regex α → Cursor α → List (Cursor α)
  | empty, c => [c]
  | one p, c => if c.rest.head?.any p then [c.advance 1] else []
  | many p lo hi, c =>
    let longest := (c.rest.takeWhile p).length
    let most := hi.elim longest (min longest)
    ((List.range (most + 1)).filter (lo ≤ ·)).reverse.map c.advance
  | boundary word, c => if c.atBoundary word then [c] else []
  | seq r s, c => (run r c).flatMap (run s)
  | alt r s, c => run r c ++ run s c
  | group name r, c => (run r c).map (c.capture name)

def seqs (rs : List (Regex α)) : Regex α := rs.foldr seq empty

def alts (rs : List (Regex α)) : Regex α := rs.foldr alt (one fun _ => false)

def optional (r : Regex α) : Regex α := alt r empty

def consumes : Regex α → Bool
  | empty => false
  | one _ => true
  | many _ lo _ => 0 < lo
  | boundary _ => false
  | seq r s => r.consumes || s.consumes
  | alt r s => r.consumes && s.consumes
  | group _ r => r.consumes

def minLength : Regex α → ℕ
  | empty | boundary _ => 0
  | one _ => 1
  | many _ lo _ => lo
  | seq r s => r.minLength + s.minLength
  | alt r s => min r.minLength s.minLength
  | group _ r => r.minLength

def Over (q : α → Prop) : Regex α → Prop
  | empty => True
  | one p | many p _ _ | boundary p => ∀ a, p a → q a
  | seq r s | alt r s => Over q r ∧ Over q s
  | group _ r => Over q r

def comap (f : β → α) : Regex α → Regex β
  | empty => empty
  | one p => one (p ∘ f)
  | many p lo hi => many (p ∘ f) lo hi
  | boundary word => boundary (word ∘ f)
  | seq r s => seq (comap f r) (comap f s)
  | alt r s => alt (comap f r) (comap f s)
  | group name r => group name (comap f r)

def Agree (f g : β → α) : Regex α → Prop
  | empty => True
  | one p | many p _ _ | boundary p => ∀ b, p (f b) = p (g b)
  | seq r s | alt r s => Agree f g r ∧ Agree f g s
  | group _ r => Agree f g r

section Run

variable {c d : Cursor α} {p : α → Bool}

lemma mem_run_empty : d ∈ run empty c ↔ d = c := List.mem_singleton

lemma mem_run_one : d ∈ run (one p) c ↔ ∃ a, p a ∧ c.Takes [a] d := by
  obtain ⟨before, rest, groups⟩ := c
  cases rest with
  | nil => simp [run, Cursor.takes_iff]
  | cons a as =>
    by_cases ha : p a
    · simp [run, ha, Cursor.advance, Cursor.takes_iff]
    · simp only [run, List.head?_cons, Option.any_some, ha, Bool.false_eq_true, if_false,
        List.not_mem_nil, false_iff]
      rintro ⟨b, hb, hd⟩
      obtain rfl : a = b := (List.cons.inj hd.rest).1
      exact ha hb

lemma length_le_takeWhile (m as : List α) (h : ∀ a ∈ m, p a) :
    m.length ≤ ((m ++ as).takeWhile p).length := by
  rw [List.takeWhile_append_of_pos h, List.length_append]
  exact Nat.le_add_right _ _

lemma mem_run_many {lo : ℕ} {hi : Option ℕ} : d ∈ run (many p lo hi) c ↔
    ∃ m, (∀ a ∈ m, p a) ∧ lo ≤ m.length ∧ (∀ h ∈ hi, m.length ≤ h) ∧ c.Takes m d := by
  have hmost : ∀ n, n < hi.elim (c.rest.takeWhile p).length (min (c.rest.takeWhile p).length) + 1 ↔
      n ≤ (c.rest.takeWhile p).length ∧ ∀ h ∈ hi, n ≤ h := by
    intro n
    cases hi <;> simp
  simp only [run, List.mem_map, List.mem_reverse, List.mem_filter, List.mem_range, hmost,
    decide_eq_true_eq]
  constructor
  · rintro ⟨n, ⟨⟨hn, hh⟩, hlo⟩, rfl⟩
    have hlen : n ≤ c.rest.length := hn.trans (List.takeWhile_prefix p).length_le
    refine ⟨c.rest.take n, fun a ha => ?_, ?_, ?_,
      ⟨(List.take_append_drop n c.rest).symm, rfl⟩, rfl⟩
    · have hprefix : c.rest.takeWhile p <+: c.rest := List.takeWhile_prefix p
      have hm : c.rest.take n = (c.rest.takeWhile p).take n := by
        rw [List.prefix_iff_eq_take.mp hprefix, List.take_take, min_eq_left hn]
      rw [hm] at ha
      exact List.mem_takeWhile_imp (List.mem_of_mem_take ha)
    · rwa [List.length_take_of_le hlen]
    · rwa [List.length_take_of_le hlen]
  · rintro ⟨m, hm, hlo, hh, hd⟩
    obtain ⟨as, hr, rfl⟩ := Cursor.takes_iff.mp hd
    refine ⟨m.length, ⟨⟨?_, hh⟩, hlo⟩, ?_⟩
    · rw [hr]
      exact length_le_takeWhile m as hm
    · rw [Cursor.advance, hr, List.take_left' rfl, List.drop_left' rfl]

lemma mem_run_boundary {word : α → Bool} : d ∈ run (boundary word) c ↔
    c.atBoundary word ∧ d = c := by
  rw [run]
  split <;> simp_all

lemma mem_run_seq {r s : Regex α} : d ∈ run (seq r s) c ↔ ∃ e ∈ run r c, d ∈ run s e :=
  List.mem_flatMap

lemma mem_run_seqs_nil : d ∈ run (seqs []) c ↔ d = c := mem_run_empty

lemma mem_run_seqs_cons {r : Regex α} {rs : List (Regex α)} :
    d ∈ run (seqs (r :: rs)) c ↔ ∃ e ∈ run r c, d ∈ run (seqs rs) e := mem_run_seq

lemma mem_run_alt {r s : Regex α} : d ∈ run (alt r s) c ↔ d ∈ run r c ∨ d ∈ run s c :=
  List.mem_append

lemma mem_run_alts {rs : List (Regex α)} : d ∈ run (alts rs) c ↔ ∃ r ∈ rs, d ∈ run r c := by
  induction rs with
  | nil =>
    have hnone : d ∉ run (one fun _ => false) c := by
      rw [mem_run_one]
      rintro ⟨a, ha, -⟩
      exact absurd ha (by decide)
    simpa [alts] using hnone
  | cons r rs ih =>
    change d ∈ run (alt r (alts rs)) c ↔ _
    rw [mem_run_alt, ih, List.exists_mem_cons_iff]

lemma mem_run_group {name : String} {r : Regex α} :
    d ∈ run (group name r) c ↔ ∃ e ∈ run r c, c.capture name e = d := List.mem_map

lemma Over.mono {p q : α → Prop} {r : Regex α} (h : Over p r) (hpq : ∀ a, p a → q a) :
    Over q r := by
  induction r with
  | empty => trivial
  | one | many | boundary => exact fun a ha => hpq a (h a ha)
  | seq r s ihr ihs | alt r s ihr ihs => exact ⟨ihr h.1, ihs h.2⟩
  | group name r ih => exact ih h

lemma over_seqs {q : α → Prop} {rs : List (Regex α)} : Over q (seqs rs) ↔ ∀ r ∈ rs, Over q r := by
  induction rs with
  | nil => simp [seqs, Over]
  | cons r rs ih => rw [List.forall_mem_cons, ← ih]; rfl

lemma over_alts {q : α → Prop} {rs : List (Regex α)} : Over q (alts rs) ↔ ∀ r ∈ rs, Over q r := by
  induction rs with
  | nil => simp [alts, Over]
  | cons r rs ih => rw [List.forall_mem_cons, ← ih]; rfl

lemma capture_of_eats {m : List α} (h : c.Eats m d) (name : String) :
    c.capture name d = ⟨d.before, d.rest, (name, m) :: d.groups⟩ := by
  rw [Cursor.capture, h.rest, List.length_append, Nat.add_sub_cancel, List.take_left' rfl]

lemma mem_run_row {ps : List (α → Bool)} : d ∈ run (seqs (ps.map one)) c ↔
    ∃ m, List.Forall₂ (fun p a => p a = true) ps m ∧ c.Takes m d := by
  induction ps generalizing c with
  | nil =>
    rw [List.map_nil, mem_run_seqs_nil]
    constructor
    · intro h
      exact ⟨[], .nil, Cursor.takes_nil.mpr h⟩
    · rintro ⟨m, hm, hd⟩
      obtain rfl := List.forall₂_nil_left_iff.mp hm
      exact Cursor.takes_nil.mp hd
  | cons p ps ih =>
    rw [List.map_cons, mem_run_seqs_cons]
    constructor
    · rintro ⟨e, he, hd⟩
      obtain ⟨a, ha, hce⟩ := mem_run_one.mp he
      obtain ⟨m, hm, hmd⟩ := ih.mp hd
      exact ⟨a :: m, .cons ha hm, hce.trans hmd⟩
    · rintro ⟨m, hm, hd⟩
      obtain ⟨a, m', ha, hm', rfl⟩ := List.forall₂_cons_left_iff.mp hm
      obtain ⟨as, hr, rfl⟩ := Cursor.takes_iff.mp hd
      refine ⟨⟨a :: c.before, m' ++ as, c.groups⟩, mem_run_one.mpr ⟨a, ha, ⟨hr, rfl⟩, rfl⟩,
        ih.mpr ⟨m', hm', ?_⟩⟩
      exact ⟨⟨rfl, by simp⟩, rfl⟩

lemma eats_of_run {q : α → Prop} {r : Regex α} (hq : Over q r) (h : d ∈ run r c) :
    ∃ m, c.Eats m d ∧ ∀ a ∈ m, q a := by
  induction r generalizing c d with
  | empty =>
    obtain rfl := mem_run_empty.mp h
    exact ⟨[], d.eats_refl, by simp⟩
  | one p =>
    obtain ⟨a, ha, hd⟩ := mem_run_one.mp h
    exact ⟨[a], hd.toEats, by simpa using hq a ha⟩
  | many p lo hi =>
    obtain ⟨m, hm, -, -, hd⟩ := mem_run_many.mp h
    exact ⟨m, hd.toEats, fun a ha => hq a (hm a ha)⟩
  | boundary word =>
    obtain ⟨-, rfl⟩ := mem_run_boundary.mp h
    exact ⟨[], d.eats_refl, by simp⟩
  | seq r s ihr ihs =>
    obtain ⟨e, he, hd⟩ := mem_run_seq.mp h
    obtain ⟨m, hm, hqm⟩ := ihr hq.1 he
    obtain ⟨n, hn, hqn⟩ := ihs hq.2 hd
    exact ⟨m ++ n, hm.trans hn, by simpa [or_imp, forall_and] using ⟨hqm, hqn⟩⟩
  | alt r s ihr ihs =>
    rcases mem_run_alt.mp h with h | h
    · exact ihr hq.1 h
    · exact ihs hq.2 h
  | group name r ih =>
    obtain ⟨e, he, rfl⟩ := mem_run_group.mp h
    obtain ⟨m, hm, hqm⟩ := ih hq he
    exact ⟨m, ⟨hm.rest, hm.before⟩, hqm⟩

lemma minLength_le {r : Regex α} (h : d ∈ run r c) :
    d.rest.length + r.minLength ≤ c.rest.length := by
  induction r generalizing c d with
  | empty =>
    obtain rfl := mem_run_empty.mp h
    rfl
  | one p =>
    obtain ⟨a, -, hd⟩ := mem_run_one.mp h
    simp [hd.rest, minLength]
  | many p lo hi =>
    obtain ⟨m, -, hlo, -, hd⟩ := mem_run_many.mp h
    rw [hd.rest, List.length_append, minLength]
    omega
  | boundary word =>
    obtain ⟨-, rfl⟩ := mem_run_boundary.mp h
    rfl
  | seq r s ihr ihs =>
    obtain ⟨e, he, hd⟩ := mem_run_seq.mp h
    have hr := ihr he
    have hs := ihs hd
    rw [minLength]
    omega
  | alt r s ihr ihs =>
    rw [minLength]
    rcases mem_run_alt.mp h with h | h
    · have hr := ihr h
      omega
    · have hs := ihs h
      omega
  | group name r ih =>
    obtain ⟨e, he, rfl⟩ := mem_run_group.mp h
    change e.rest.length + r.minLength ≤ c.rest.length
    exact ih he

lemma minLength_pos_of_consumes {r : Regex α} (hr : r.consumes) : 0 < r.minLength := by
  induction r with
  | empty | boundary => simp [consumes] at hr
  | one => exact Nat.one_pos
  | many p lo hi => simpa [consumes, minLength] using hr
  | seq r s ihr ihs =>
    rcases Bool.or_eq_true _ _ ▸ hr with hr | hr
    · exact Nat.add_pos_left (ihr hr) _
    · exact Nat.add_pos_right _ (ihs hr)
  | alt r s ihr ihs =>
    obtain ⟨hr, hs⟩ := Bool.and_eq_true _ _ ▸ hr
    exact lt_min (ihr hr) (ihs hs)
  | group name r ih => exact ih hr

lemma rest_lt_of_consumes {r : Regex α} (hr : r.consumes) (h : d ∈ run r c) :
    d.rest.length < c.rest.length := by
  have hle := minLength_le h
  have hpos := minLength_pos_of_consumes hr
  omega

end Run

section Comap

variable {f g : β → α}

lemma map_advance (c : Cursor β) (n : ℕ) : (c.advance n).map f = (c.map f).advance n := by
  simp [Cursor.advance, Cursor.map]

lemma map_atBoundary (c : Cursor β) (word : α → Bool) :
    (c.map f).atBoundary word = c.atBoundary (word ∘ f) := by
  simp [Cursor.atBoundary, Cursor.map, Option.any_map, Function.comp_def]

lemma map_capture (c d : Cursor β) (name : String) :
    (c.capture name d).map f = (c.map f).capture name (d.map f) := by
  simp [Cursor.capture, Cursor.map]

lemma map_run_comap (r : Regex α)
    (c : Cursor β) : (run (comap f r) c).map (Cursor.map f) = run r (c.map f) := by
  induction r generalizing c with
  | empty => rfl
  | one p =>
    have hc : (c.map f).rest.head?.any p = c.rest.head?.any (p ∘ f) := by
      simp [Cursor.map, Option.any_map, Function.comp_def]
    rw [comap, run, run, hc]
    split
    · simp [map_advance]
    · rfl
  | many p lo hi =>
    have hc : (c.map f).rest.takeWhile p = (c.rest.takeWhile (p ∘ f)).map f := by
      simp [Cursor.map, List.takeWhile_map]
    have hadvance : (fun n => (c.advance n).map f) = (c.map f).advance := funext (map_advance c)
    simp only [comap, run, hc, List.length_map, List.map_map]
    rw [← hadvance]
    rfl
  | boundary word =>
    rw [comap, run, run, map_atBoundary]
    split <;> rfl
  | seq r s ihr ihs =>
    rw [comap, run, run, ← ihr, List.map_flatMap, List.flatMap_map]
    exact List.flatMap_congr fun d _ => ihs d
  | alt r s ihr ihs => rw [comap, run, run, List.map_append, ihr, ihs]
  | group name r ih =>
    rw [comap, run, run, ← ih, List.map_map, List.map_map]
    exact List.map_congr_left fun d _ => map_capture c d name

lemma agree_of_over {q : α → Prop} {r : Regex α} (h : Over q r)
    (hfg : ∀ b, f b = g b ∨ ¬ q (f b) ∧ ¬ q (g b)) : Agree f g r := by
  have hclass : ∀ p : α → Bool, (∀ a, p a → q a) → ∀ b, p (f b) = p (g b) := by
    intro p hp b
    rcases hfg b with heq | ⟨hf, hg⟩
    · rw [heq]
    · rw [Bool.eq_false_iff.mpr fun hpf => hf (hp _ hpf),
        Bool.eq_false_iff.mpr fun hpg => hg (hp _ hpg)]
  induction r with
  | empty => trivial
  | one p | many p | boundary p => exact hclass p h
  | seq r s ihr ihs | alt r s ihr ihs => exact ⟨ihr h.1, ihs h.2⟩
  | group name r ih => exact ih h

lemma comap_of_agree {r : Regex α} (h : Agree f g r) : comap f r = comap g r := by
  induction r with
  | empty => rfl
  | one p | many p | boundary p =>
    have hp : p ∘ f = p ∘ g := funext h
    rw [comap, comap, hp]
  | seq r s ihr ihs | alt r s ihr ihs => rw [comap, comap, ihr h.1, ihs h.2]
  | group name r ih => rw [comap, comap, ih h]

lemma over_comap {q : α → Prop} {r : Regex α}
    (h : Over q r) : Over (fun b => q (f b)) (comap f r) := by
  induction r with
  | empty => trivial
  | one p | many p | boundary p => exact fun b hb => h (f b) hb
  | seq r s ihr ihs | alt r s ihr ihs => exact ⟨ihr h.1, ihs h.2⟩
  | group name r ih => exact ih h

lemma consumes_comap (r : Regex α) : (comap f r).consumes = r.consumes := by
  induction r <;> simp_all [comap, consumes]

end Comap

end Regex

end AstropathRelay.Lib
