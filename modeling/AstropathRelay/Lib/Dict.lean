import Mathlib.Tactic

/-! Insertion-ordered dictionaries over keys that are compared with `==`. Writing an existing key
keeps its position, and building from a list lets the last writer win. -/

namespace AstropathRelay.Lib

structure Dict (K V : Type) where
  entries : List (K × V)
deriving DecidableEq

namespace Dict

variable {K V : Type}

instance : EmptyCollection (Dict K V) := ⟨⟨[]⟩⟩

def keys (d : Dict K V) : List K := d.entries.map Prod.fst
def values (d : Dict K V) : List V := d.entries.map Prod.snd

variable [BEq K]

def get? (d : Dict K V) (k : K) : Option V := d.entries.lookup k

def setEntries (k : K) (v : V) : List (K × V) → List (K × V)
  | [] => [(k, v)]
  | e :: es => if k == e.1 then (e.1, v) :: es else e :: setEntries k v es

def set (d : Dict K V) (k : K) (v : V) : Dict K V := ⟨setEntries k v d.entries⟩

def ofList (es : List (K × V)) : Dict K V := es.foldl (fun d e => d.set e.1 e.2) ∅

@[simp] lemma get?_empty (k : K) : (∅ : Dict K V).get? k = none := rfl

lemma length_setEntries (k : K) (v : V) (es : List (K × V)) :
    (setEntries k v es).length = if (es.lookup k).isSome then es.length else es.length + 1 := by
  induction es with
  | nil => rfl
  | cons e es ih =>
    obtain ⟨a, w⟩ := e
    by_cases hk : k == a
    · simp [setEntries, hk, List.lookup_cons]
    · simp only [setEntries, hk, Bool.false_eq_true, ↓reduceIte, List.length_cons, ih,
        List.lookup_cons]
      split <;> rfl

lemma setEntries_of_none {k : K} {v : V} {es : List (K × V)} (h : es.lookup k = none) :
    setEntries k v es = es ++ [(k, v)] := by
  induction es with
  | nil => rfl
  | cons e es ih =>
    obtain ⟨a, w⟩ := e
    rw [List.lookup_cons] at h
    cases hk : k == a with
    | true => simp [hk] at h
    | false => simp [setEntries, hk, ih (by simpa [hk] using h)]

lemma forall₂_setEntries {α : Type} {R : α → K × V → Prop} {as : List α} {es : List (K × V)}
    (h : List.Forall₂ R as es) {k : K} {v : V} (hk : (es.lookup k).isSome)
    (hset : ∀ a ∈ as, ∀ e, R a e → k == e.1 → R a (e.1, v)) :
    List.Forall₂ R as (setEntries k v es) := by
  induction h with
  | nil => simp at hk
  | @cons a e as es hae hrest ih =>
    obtain ⟨ha, has⟩ := List.forall_mem_cons.mp hset
    rw [setEntries]
    split
    · next he => exact .cons (ha e hae he) hrest
    · next he =>
      rw [List.lookup_cons] at hk
      exact .cons hae (ih (by simpa [he] using hk) has)

lemma ofList_concat (es : List (K × V)) (e : K × V) :
    ofList (es ++ [e]) = (ofList es).set e.1 e.2 := by
  simp [ofList]

lemma length_ofList_le (es : List (K × V)) : (ofList es).entries.length ≤ es.length := by
  induction es using List.reverseRecOn with
  | nil => rfl
  | append_singleton es e ih =>
    rw [ofList_concat, set, length_setEntries, List.length_append, List.length_singleton]
    split <;> omega

def Distinct (es : List (K × V)) : Prop := es.Pairwise (fun a b => (a.1 == b.1) = false)

lemma distinct_of_nodup [LawfulBEq K] {es : List (K × V)} (h : (es.map Prod.fst).Nodup) :
    Distinct es := by
  refine (List.pairwise_map.mp h).imp ?_
  intro a b hab
  exact beq_eq_false_iff_ne.mpr hab

variable [EquivBEq K]

lemma lookup_setEntries (k j : K) (v : V) (es : List (K × V)) :
    (setEntries k v es).lookup j = if k == j then some v else es.lookup j := by
  induction es with
  | nil => by_cases h : k == j <;> simp [setEntries, List.lookup_cons, BEq.comm (a := j), h]
  | cons e es ih =>
    obtain ⟨a, w⟩ := e
    by_cases hk : k == a
    · have hj : (j == a) = (k == j) := by
        rw [BEq.comm (a := k), BEq.congr_right hk]
      by_cases h : k == j <;> simp [setEntries, hk, List.lookup_cons, hj, h]
    · by_cases hj : j == a
      · have h : (k == j) = false := by
          rw [BEq.congr_right hj]
          simpa using hk
        simp [setEntries, hk, List.lookup_cons, hj, h]
      · simp [setEntries, hk, List.lookup_cons, hj, ih]

lemma get?_set (d : Dict K V) (k j : K) (v : V) :
    (d.set k v).get? j = if k == j then some v else d.get? j :=
  lookup_setEntries k j v d.entries

lemma exists_last_of_get? {es : List (K × V)} {j : K} {v : V} (h : (ofList es).get? j = some v) :
    ∃ pre k post, es = pre ++ (k, v) :: post ∧ k == j ∧ ∀ e ∈ post, (e.1 == k) = false := by
  induction es using List.reverseRecOn with
  | nil => simp [ofList] at h
  | append_singleton es e ih =>
    rw [ofList_concat, get?_set] at h
    split at h
    · next he =>
      obtain rfl := Option.some.inj h
      exact ⟨es, e.1, [], rfl, he, by simp⟩
    · next he =>
      obtain ⟨pre, k, post, rfl, hk, hpost⟩ := ih h
      refine ⟨pre, k, post ++ [e], by simp, hk, ?_⟩
      simp only [List.mem_append, List.mem_singleton]
      rintro e' (he' | rfl)
      · exact hpost e' he'
      · rw [BEq.congr_right hk]
        simpa using he

lemma get?_ofList_mem {es : List (K × V)} {j : K} {v : V} (h : (ofList es).get? j = some v) :
    ∃ k, (k, v) ∈ es ∧ k == j := by
  obtain ⟨pre, k, post, rfl, hk, -⟩ := exists_last_of_get? h
  exact ⟨k, by simp, hk⟩

lemma get?_ofList_none {es : List (K × V)} {j : K} :
    (ofList es).get? j = none ↔ ∀ e ∈ es, (e.1 == j) = false := by
  induction es using List.reverseRecOn with
  | nil => simp [ofList]
  | append_singleton es e ih =>
    rw [ofList_concat, get?_set, List.forall_mem_append, List.forall_mem_singleton, ← ih]
    cases he : e.1 == j <;> simp

lemma get?_ofList_of_distinct {es : List (K × V)} (h : Distinct es) {k : K} {v : V}
    (hm : (k, v) ∈ es) : (ofList es).get? k = some v := by
  induction es using List.reverseRecOn with
  | nil => simp at hm
  | append_singleton es e ih =>
    obtain ⟨hes, -, hlast⟩ := List.pairwise_append.mp h
    rw [ofList_concat, get?_set]
    rcases List.mem_append.mp hm with hm | hm
    · have hne : (e.1 == k) = false := by
        rw [BEq.comm]
        exact hlast (k, v) hm e (by simp)
      rw [hne]
      exact ih hes hm
    · obtain rfl := List.mem_singleton.mp hm
      simp

lemma get?_congr (d : Dict K V) {j k : K} (h : j == k) : d.get? j = d.get? k := by
  unfold get?
  induction d.entries with
  | nil => rfl
  | cons e es ih => rw [List.lookup_cons, List.lookup_cons, BEq.congr_left h, ih]

lemma get?_ofList_last {pre post : List (K × V)} {k : K} {v : V}
    (h : ∀ e ∈ post, (e.1 == k) = false) : (ofList (pre ++ (k, v) :: post)).get? k = some v := by
  induction post using List.reverseRecOn with
  | nil => simp [ofList_concat, get?_set]
  | append_singleton post e ih =>
    rw [← List.cons_append, ← List.append_assoc, ofList_concat, get?_set, h e (by simp)]
    exact ih fun e' he => h e' (by simp [he])

lemma length_ofList_eq {es : List (K × V)} :
    (ofList es).entries.length = es.length ↔ Distinct es := by
  induction es using List.reverseRecOn with
  | nil => simp [ofList, Distinct]; rfl
  | append_singleton es e ih =>
    have hle := length_ofList_le es
    have hdist : Distinct (es ++ [e]) ↔ Distinct es ∧ ∀ a ∈ es, (a.1 == e.1) = false := by
      simp [Distinct, List.pairwise_append]
    rw [ofList_concat, set, length_setEntries, hdist, ← ih, ← get?_ofList_none]
    change (if ((ofList es).get? e.1).isSome then _ else _) = _ ↔ _
    cases hg : (ofList es).get? e.1 with
    | none => simp
    | some v =>
      simp only [Option.isSome_some, ↓reduceIte, List.length_append, List.length_singleton,
        reduceCtorEq, and_false, iff_false]
      omega

end Dict

end AstropathRelay.Lib
