import Mathlib.Tactic
import Mathlib.Data.List.TakeWhile

/-! Runs of symbols of one class in a list, and the class of the blanks. -/

namespace AstropathRelay.Lib

def isSpace (c : Char) : Bool :=
  let n := c.toNat
  (9 ≤ n && n ≤ 13) || (28 ≤ n && n ≤ 32) || (0x2000 ≤ n && n ≤ 0x200A) ||
    n ∈ [0x85, 0xA0, 0x1680, 0x2028, 0x2029, 0x202F, 0x205F, 0x3000]

variable {α β : Type} {p : α → Bool} {q : β → Bool} {n : ℕ} {a : α} {l l' : List α}

def HasRun (p : α → Bool) (n : ℕ) (l : List α) : Prop := ∃ run, run <:+: l ∧ n ≤ run.length ∧
  ∀ a ∈ run, p a

def lead (p : α → Bool) (l : List α) : ℕ := (l.takeWhile p).length

lemma lead_cons_of_pos (h : p a) : lead p (a :: l) = lead p l + 1 := by simp [lead, h]

lemma lead_cons_of_neg (h : p a = false) : lead p (a :: l) = 0 := by simp [lead, h]

lemma le_lead_iff : n ≤ lead p l ↔ ∃ run, run <+: l ∧ n ≤ run.length ∧ ∀ a ∈ run, p a := by
  constructor
  · intro h
    exact ⟨l.takeWhile p, List.takeWhile_prefix p, h, fun a ha => List.mem_takeWhile_imp ha⟩
  · rintro ⟨run, ⟨rest, rfl⟩, hn, hp⟩
    rw [lead, List.takeWhile_append_of_pos hp, List.length_append]
    omega

lemma hasRun_cons : HasRun p n (a :: l) ↔ n ≤ lead p (a :: l) ∨ HasRun p n l := by
  simp only [HasRun, List.infix_cons_iff, le_lead_iff, or_and_right, exists_or]

lemma not_hasRun_nil (hn : 0 < n) : ¬ HasRun p n [] := by
  rintro ⟨run, hr, hlen, -⟩
  obtain rfl := List.infix_nil.mp hr
  exact absurd hlen (by simpa using hn.ne')

lemma lead_append_cons (h : p a = false) : lead p (l ++ a :: l') = lead p l := by
  induction l with
  | nil => simp [lead, h]
  | cons b l ih =>
    cases hb : p b with
    | true => rw [List.cons_append, lead_cons_of_pos hb, lead_cons_of_pos hb, ih]
    | false => rw [List.cons_append, lead_cons_of_neg hb, lead_cons_of_neg hb]

lemma hasRun_cons_of_neg (hn : 0 < n) (h : p a = false) : HasRun p n (a :: l) ↔ HasRun p n l := by
  rw [hasRun_cons, lead_cons_of_neg h, Nat.le_zero]
  simp [hn.ne']

lemma hasRun_append_cons (hn : 0 < n) (h : p a = false) :
    HasRun p n (l ++ a :: l') ↔ HasRun p n l ∨ HasRun p n l' := by
  induction l with
  | nil => simp [hasRun_cons_of_neg hn h, not_hasRun_nil hn]
  | cons b l ih => rw [List.cons_append, hasRun_cons, hasRun_cons, ih, ← List.cons_append,
      lead_append_cons h, or_assoc]

lemma hasRun_append_append (hn : 0 < n) {m : List α} (hm : m ≠ []) (h : ∀ a ∈ m, p a = false) :
    HasRun p n (l ++ (m ++ l')) ↔ HasRun p n l ∨ HasRun p n l' := by
  induction m generalizing l with
  | nil => exact absurd rfl hm
  | cons a m ih =>
    obtain ⟨ha, hm'⟩ := List.forall_mem_cons.mp h
    rw [List.cons_append, hasRun_append_cons hn ha]
    cases m with
    | nil => rfl
    | cons b m =>
      rw [← List.nil_append (b :: m ++ l'), ih (List.cons_ne_nil b m) hm']
      simp [not_hasRun_nil hn]

lemma not_hasRun_of_forall (hn : 0 < n) (h : ∀ a ∈ l, p a = false) : ¬ HasRun p n l := by
  induction l with
  | nil => exact not_hasRun_nil hn
  | cons a l ih =>
    obtain ⟨ha, hl⟩ := List.forall_mem_cons.mp h
    rw [hasRun_cons_of_neg hn ha]
    exact ih hl

section FlatMap

variable {f : α → List β}

lemma lead_flatMap (hrun : ∀ a, p a → ∃ b, f a = [b] ∧ q b) (hgap : ∀ a, p a = false →
      f a ≠ [] ∧ ∀ b ∈ f a, q b = false) : lead q (l.flatMap f) = lead p l := by
  induction l with
  | nil => rfl
  | cons a l ih =>
    rw [List.flatMap_cons]
    cases ha : p a with
    | true =>
      obtain ⟨b, hb, hq⟩ := hrun a ha
      rw [hb, List.singleton_append, lead_cons_of_pos hq, lead_cons_of_pos ha, ih]
    | false =>
      obtain ⟨hne, hq⟩ := hgap a ha
      obtain ⟨b, bs, hb⟩ := List.exists_cons_of_ne_nil hne
      rw [hb, List.cons_append, lead_cons_of_neg (hq b (by simp [hb])), lead_cons_of_neg ha]

lemma hasRun_flatMap (hn : 0 < n) (hrun : ∀ a, p a → ∃ b, f a = [b] ∧ q b)
    (hgap : ∀ a, p a = false → f a ≠ [] ∧ ∀ b ∈ f a, q b = false) : HasRun q n (l.flatMap f) ↔
    HasRun p n l := by
  induction l with
  | nil => simp [not_hasRun_nil hn]
  | cons a l ih =>
    cases ha : p a with
    | true =>
      obtain ⟨b, hb, hq⟩ := hrun a ha
      have hlead := lead_flatMap (l := a :: l) hrun hgap
      rw [List.flatMap_cons, hb, List.singleton_append] at hlead ⊢
      rw [hasRun_cons, hasRun_cons, hlead, ih]
    | false =>
      obtain ⟨hne, hq⟩ := hgap a ha
      rw [List.flatMap_cons, ← List.nil_append (f a ++ _), hasRun_append_append hn hne hq,
        hasRun_cons_of_neg hn ha, ih]
      simp [not_hasRun_nil hn]

end FlatMap

end AstropathRelay.Lib
