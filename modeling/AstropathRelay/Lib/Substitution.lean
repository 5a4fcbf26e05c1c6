import AstropathRelay.Lib.Regex

/-! Replacing every match of a regular expression, the leftmost first and none over another, for
expressions that never match the empty text. -/

namespace AstropathRelay.Lib

inductive Piece (α : Type)
  | text (symbols : List α)
  | ref (name : String)

structure Pattern (α : Type) where
  regex : Regex α
  template : List (Piece α)
  consumes : regex.consumes

namespace Pattern

variable {α β : Type}

section Sub

variable (P : Pattern α)

def expandPiece (groups : List (String × List α)) : Piece α → List α
  | .text symbols => symbols
  | .ref name => (groups.lookup name).getD []

def expand (groups : List (String × List α)) : List α := P.template.flatMap (expandPiece groups)

def matchAt (before rest : List α) : Option (Cursor α) := (P.regex.run ⟨before, rest, []⟩).head?

def subFrom : ℕ → List α → List α → List α
  | _, _, [] => []
  | 0, _, rest => rest
  | n + 1, before, a :: as =>
    match P.matchAt before (a :: as) with
    | none => a :: subFrom n (a :: before) as
    | some c => P.expand c.groups ++ subFrom n c.before c.rest

def sub (text : List α) : List α := P.subFrom text.length [] text

/-- The scan from one place to the end of the text, and what it leaves. -/
inductive Scan : List α → List α → List α → Prop
  | done (before : List α) : Scan before [] []
  | skip {before : List α} {a : α} {as out : List α} : P.matchAt before (a :: as) = none →
      Scan (a :: before) as out → Scan before (a :: as) (a :: out)
  | hit {before : List α} {a : α} {as out : List α} {c : Cursor α} : P.matchAt before (a :: as) =
      some c → Scan c.before c.rest out → Scan before (a :: as) (P.expand c.groups ++ out)

end Sub

variable {P : Pattern α} {before rest out out' : List α} {c : Cursor α}

lemma mem_run_of_matchAt (h : P.matchAt before rest = some c) :
    c ∈ P.regex.run ⟨before, rest, []⟩ :=
  List.mem_of_head? h

lemma not_mem_run_of_matchAt (h : P.matchAt before rest = none) :
    c ∉ P.regex.run ⟨before, rest, []⟩ := by
  rw [List.head?_eq_none_iff.mp h]
  simp

lemma exists_matchAt (h : c ∈ P.regex.run ⟨before, rest, []⟩) :
    ∃ d, P.matchAt before rest = some d := by
  cases hm : P.matchAt before rest with
  | none => exact absurd h (not_mem_run_of_matchAt hm)
  | some d => exact ⟨d, rfl⟩

lemma rest_lt_of_matchAt (h : P.matchAt before rest = some c) : c.rest.length < rest.length :=
  Regex.rest_lt_of_consumes P.consumes (mem_run_of_matchAt h)

lemma eats_of_matchAt {q : α → Prop} (hq : P.regex.Over q) (h : P.matchAt before rest = some c) :
    ∃ m, m ≠ [] ∧ rest = m ++ c.rest ∧ c.before = m.reverse ++ before ∧ ∀ a ∈ m, q a := by
  obtain ⟨m, hm, hqm⟩ := Regex.eats_of_run hq (mem_run_of_matchAt h)
  have hr : rest = m ++ c.rest := hm.rest
  refine ⟨m, ?_, hr, hm.before, hqm⟩
  rintro rfl
  have hlt := rest_lt_of_matchAt h
  rw [hr] at hlt
  simp at hlt

lemma scan_subFrom (P : Pattern α) {n : ℕ} (h : rest.length ≤ n) (before : List α) :
    P.Scan before rest (P.subFrom n before rest) := by
  induction n generalizing before rest with
  | zero =>
    obtain rfl := List.length_eq_zero_iff.mp (Nat.le_zero.mp h)
    exact .done before
  | succ n ih =>
    cases rest with
    | nil => exact .done before
    | cons a as =>
      rw [subFrom]
      split
      · next hm => exact .skip hm (ih (Nat.le_of_succ_le_succ h) _)
      · next c hm => exact .hit hm (ih (Nat.le_of_lt_succ ((rest_lt_of_matchAt hm).trans_le h)) _)

lemma scan_sub (P : Pattern α) (text : List α) : P.Scan [] text (P.sub text) :=
  scan_subFrom P le_rfl []

lemma Scan.unique (h : P.Scan before rest out) (h' : P.Scan before rest out') : out = out' := by
  induction h generalizing out' with
  | done =>
    cases h'
    rfl
  | skip hm _ ih =>
    cases h' with
    | skip hm' h' => rw [ih h']
    | hit hm' h' => simp [hm] at hm'
  | hit hm _ ih =>
    cases h' with
    | skip hm' h' => simp [hm] at hm'
    | hit hm' h' =>
      obtain rfl := Option.some.inj (hm.symm.trans hm')
      rw [ih h']

lemma sub_of_length_lt (P : Pattern α) {text : List α} (h : text.length < P.regex.minLength) :
    P.sub text = text := by
  have hnone : ∀ before rest, rest.length < P.regex.minLength → P.matchAt before rest = none := by
    intro before rest hlt
    cases hm : P.matchAt before rest with
    | none => rfl
    | some c =>
      have hle : c.rest.length + P.regex.minLength ≤ rest.length :=
        Regex.minLength_le (mem_run_of_matchAt hm)
      omega
  have hscan : ∀ before rest, rest.length < P.regex.minLength → P.Scan before rest rest := by
    intro before rest
    induction rest generalizing before with
    | nil => exact fun _ => .done before
    | cons a as ih => exact fun hlt => .skip (hnone _ _ hlt) (ih _ (Nat.lt_of_succ_lt hlt))
  exact (scan_sub P text).unique (hscan [] text h)

lemma Scan.mem_of_over {q : α → Prop} {a : α} (hq : P.regex.Over q) (ha : ¬ q a)
    (h : P.Scan before rest out) (hm : a ∈ rest) : a ∈ out := by
  induction h with
  | done => exact hm
  | skip _ _ ih =>
    rcases List.mem_cons.mp hm with rfl | hm
    · exact List.mem_cons_self
    · exact List.mem_cons_of_mem _ (ih hm)
  | hit hmatch _ ih =>
    obtain ⟨m, -, hrest, -, hqm⟩ := eats_of_matchAt hq hmatch
    rw [hrest] at hm
    refine List.mem_append_right _ (ih ?_)
    rcases List.mem_append.mp hm with hm | hm
    · exact absurd (hqm _ hm) ha
    · exact hm

section Comap

variable (f : β → α) (lit : α → β)

def comapPiece : Piece α → Piece β
  | .text symbols => .text (symbols.map lit)
  | .ref name => .ref name

def comap (P : Pattern α) : Pattern β where
  regex := P.regex.comap f
  template := P.template.map (comapPiece lit)
  consumes := by rw [Regex.consumes_comap]; exact P.consumes

variable {f lit}

lemma map_expand (hlit : ∀ a, f (lit a) = a) (P : Pattern α) (groups : List (String × List β)) :
    ((P.comap f lit).expand groups).map f = P.expand (groups.map (fun g => (g.1, g.2.map f))) := by
  have hlookup : ∀ name, ((groups.map (fun g => (g.1, g.2.map f))).lookup name).getD [] =
      ((groups.lookup name).getD []).map f := by
    intro name
    induction groups with
    | nil => rfl
    | cons g groups ih =>
      rw [List.map_cons, List.lookup_cons, List.lookup_cons]
      split
      · rfl
      · exact ih
  have hpiece : ∀ piece, (expandPiece groups (comapPiece lit piece)).map f =
      expandPiece (groups.map (fun g => (g.1, g.2.map f))) piece := by
    intro piece
    cases piece with
    | text symbols => simp [comapPiece, expandPiece, hlit, Function.comp_def]
    | ref name => exact (hlookup name).symm
  rw [expand, expand, comap, List.flatMap_map, List.map_flatMap]
  exact List.flatMap_congr fun piece _ => hpiece piece

variable (f lit) in
lemma map_matchAt (P : Pattern α) (before rest : List β) : ((P.comap f lit).matchAt before rest).map
    (Cursor.map f) = P.matchAt (before.map f) (rest.map f) := by
  rw [matchAt, matchAt, ← List.head?_map]
  exact congrArg List.head? (Regex.map_run_comap P.regex ⟨before, rest, []⟩)

lemma Scan.map (hlit : ∀ a, f (lit a) = a) {before rest out : List β}
    (h : (P.comap f lit).Scan before rest out) :
    P.Scan (before.map f) (rest.map f) (out.map f) := by
  induction h with
  | done => exact .done _
  | @skip before a as out hm _ ih =>
    have hnone : P.matchAt (before.map f) (f a :: as.map f) = none := by
      rw [← List.map_cons, ← map_matchAt f lit, hm]
      rfl
    exact .skip hnone ih
  | @hit before a as out c hm _ ih =>
    have hsome : P.matchAt (before.map f) (f a :: as.map f) = some (c.map f) := by
      rw [← List.map_cons, ← map_matchAt f lit, hm]
      rfl
    rw [List.map_append, map_expand hlit]
    exact .hit hsome ih

lemma map_sub (hlit : ∀ a, f (lit a) = a) (P : Pattern α) (text : List β) :
    ((P.comap f lit).sub text).map f = P.sub (text.map f) :=
  ((scan_sub _ text).map hlit).unique (scan_sub P (text.map f))

lemma comap_eq_of_agree {g : β → α} (h : P.regex.Agree f g) : P.comap f lit = P.comap g lit := by
  simp only [comap, Regex.comap_of_agree h]

lemma map_foldl_sub (hlit : ∀ a, f (lit a) = a) (Ps : List (Pattern α)) (text : List β) :
    ((Ps.map (comap f lit)).foldl (fun text P => P.sub text) text).map f =
      Ps.foldl (fun text P => P.sub text) (text.map f) := by
  induction Ps generalizing text with
  | nil => rfl
  | cons P Ps ih => rw [List.map_cons, List.foldl_cons, List.foldl_cons, ih, map_sub hlit]

end Comap

end Pattern

end AstropathRelay.Lib
