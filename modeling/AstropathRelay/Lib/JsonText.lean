import Mathlib.Tactic

/-! The compact JSON text of objects whose members are strings, booleans and null, and that it reads
back. -/

namespace AstropathRelay.Lib.JsonText

inductive Scalar
  | str (s : String)
  | bool (b : Bool)
  | null
deriving DecidableEq

section Strings

def hexDigit (n : ℕ) : Char := if n < 10 then Char.ofNat (48 + n) else Char.ofNat (87 + n)

def hexValue (c : Char) : Option ℕ :=
  if '0' ≤ c ∧ c ≤ '9' then some (c.toNat - 48)
  else if 'a' ≤ c ∧ c ≤ 'f' then some (c.toNat - 87)
  else if 'A' ≤ c ∧ c ≤ 'F' then some (c.toNat - 55)
  else none

def hex4 (n : ℕ) : List Char :=
  [hexDigit (n / 4096 % 16), hexDigit (n / 256 % 16), hexDigit (n / 16 % 16), hexDigit (n % 16)]

def readHex4 (a b c d : Char) : Option ℕ := do
  let a ← hexValue a
  let b ← hexValue b
  let c ← hexValue c
  let d ← hexValue d
  return a * 4096 + b * 256 + c * 16 + d

def shortEscapes : List (Char × Char) :=
  [('"', '"'), ('\\', '\\'), ('n', '\n'), ('r', '\r'), ('t', '\t'), ('f', Char.ofNat 12),
    ('b', Char.ofNat 8)]

def escapeChar (c : Char) : List Char :=
  match shortEscapes.find? (fun e => e.2 = c) with
  | some e => ['\\', e.1]
  | none =>
    if ' ' ≤ c ∧ c ≤ '~' then [c]
    else if c.toNat < 0x10000 then '\\' :: 'u' :: hex4 c.toNat
    else '\\' :: 'u' :: hex4 (0xD800 + (c.toNat - 0x10000) / 0x400) ++
      '\\' :: 'u' :: hex4 (0xDC00 + (c.toNat - 0x10000) % 0x400)

def readUnit (n : ℕ) (rest : List Char) : Option (Char × List Char) :=
  if 0xD800 ≤ n ∧ n < 0xDC00 then
    match rest with
    | '\\' :: 'u' :: a :: b :: c :: d :: rest => do
      let m ← readHex4 a b c d
      if 0xDC00 ≤ m ∧
        m < 0xE000 then return (Char.ofNat (0x10000 + (n - 0xD800) * 0x400 + (m - 0xDC00)), rest)
      else none
    | _ => none
  else some (Char.ofNat n, rest)

def readEscape : List Char → Option (Char × List Char)
  | 'u' :: a :: b :: c :: d :: rest => do
    let n ← readHex4 a b c d
    readUnit n rest
  | c :: rest => (shortEscapes.find? (fun e => e.1 = c)).map (fun e => (e.2, rest))
  | [] => none

def readString : ℕ → List Char → List Char → Option (List Char × List Char)
  | 0, _, _ => none
  | _ + 1, _, [] => none
  | fuel + 1, acc, c :: rest =>
    if c = '"' then some (acc, rest)
    else if c = '\\' then do
      let (d, rest) ← readEscape rest
      readString fuel (acc ++ [d]) rest
    else if c.toNat < 0x20 then none
    else readString fuel (acc ++ [c]) rest

lemma hexValue_hexDigit {n : ℕ} (h : n < 16) : hexValue (hexDigit n) = some n := by
  have hh : ∀ n : Fin 16, hexValue (hexDigit n.val) = some n.val := by decide +kernel
  exact hh ⟨n, h⟩

lemma readHex4_hex4 {n : ℕ} (h : n < 65536) : readHex4 (hexDigit (n / 4096 % 16))
    (hexDigit (n / 256 % 16)) (hexDigit (n / 16 % 16)) (hexDigit (n % 16)) = some n := by
  have hn : n / 4096 % 16 * 4096 + n / 256 % 16 * 256 + n / 16 % 16 * 16 + n % 16 = n := by omega
  simp [readHex4, hexValue_hexDigit (Nat.mod_lt _ (show 0 < 16 by decide)), hn]

lemma readEscape_unit {n : ℕ} (h : n < 65536) (rest : List Char) :
    readEscape ('u' :: hex4 n ++ rest) = readUnit n rest := by
  simp [readEscape, hex4, readHex4_hex4 h]

lemma readUnit_pair {n m : ℕ} (hn : 0xD800 ≤ n) (hn' : n < 0xDC00) (hm : 0xDC00 ≤ m)
    (hm' : m < 0xE000) (rest : List Char) : readUnit n ('\\' :: 'u' :: hex4 m ++ rest) =
    some (Char.ofNat (0x10000 + (n - 0xD800) * 0x400 + (m - 0xDC00)), rest) := by
  have hread := readHex4_hex4 (n := m) (by omega)
  unfold readUnit
  rw [if_pos ⟨hn, hn'⟩]
  simp only [hex4, List.cons_append, List.nil_append, hread, Option.bind_eq_bind, Option.bind_some]
  rw [if_pos ⟨hm, hm'⟩]
  rfl

lemma toNat_cases (c : Char) : c.toNat < 0xD800 ∨ 0xDFFF < c.toNat ∧ c.toNat < 0x110000 := c.valid

lemma readEscape_short {c d : Char} (h : shortEscapes.find? (fun e => e.2 = c) = some (d, c))
    (rest : List Char) : readEscape (d :: rest) = some (c, rest) := by
  have hm := List.mem_of_find?_eq_some h
  simp only [shortEscapes, List.mem_cons, Prod.mk.injEq, List.not_mem_nil, or_false] at hm
  rcases hm with ⟨rfl, rfl⟩ | ⟨rfl, rfl⟩ | ⟨rfl, rfl⟩ | ⟨rfl, rfl⟩ | ⟨rfl, rfl⟩ | ⟨rfl, rfl⟩ |
    ⟨rfl, rfl⟩ <;> rfl

lemma readString_escapeChar (fuel : ℕ) (acc : List Char) (c : Char) (rest : List Char) :
    readString (fuel + 1) acc (escapeChar c ++ rest) = readString fuel (acc ++ [c]) rest := by
  unfold escapeChar
  split
  · next e he =>
    have hc : e.2 = c := by simpa using List.find?_some he
    obtain ⟨d, c'⟩ := e
    obtain rfl : c' = c := hc
    simp only [List.cons_append, List.nil_append, readString, readEscape_short he]
    simp
  · next hn =>
    have hquote : c ≠ '"' := by
      rintro rfl
      simp [shortEscapes] at hn
    have hback : c ≠ '\\' := by
      rintro rfl
      simp [shortEscapes] at hn
    have hv := toNat_cases c
    split
    · next hr =>
      have hlow : ¬ c.toNat < 0x20 := by
        have h20 : (' ' : Char).toNat ≤ c.toNat := hr.1
        exact Nat.not_lt.mpr h20
      simp [readString, hquote, hback, hlow]
    · split
      · next hlt =>
        have hu : ¬ (0xD800 ≤ c.toNat ∧ c.toNat < 0xDC00) := by omega
        have he : readEscape ('u' :: hex4 c.toNat ++ rest) = some (c, rest) := by
          rw [readEscape_unit hlt]
          unfold readUnit
          rw [if_neg hu, Char.ofNat_toNat]
        simp only [List.cons_append] at he ⊢
        simp [readString, he]
      · next hge =>
        obtain ⟨k, hk⟩ : ∃ k, c.toNat = k + 0x10000 := ⟨c.toNat - 0x10000, by omega⟩
        have hsub : c.toNat - 0x10000 = k := by omega
        have he : readEscape ('u' :: hex4 (0xD800 + k / 0x400) ++
            ('\\' :: 'u' :: hex4 (0xDC00 + k % 0x400) ++ rest)) = some (c, rest) := by
          rw [readEscape_unit (by omega), readUnit_pair (by omega) (by omega) (by omega) (by omega),
            show 0x10000 + (0xD800 + k / 0x400 - 0xD800) * 0x400 +
            (0xDC00 + k % 0x400 - 0xDC00) = c.toNat by omega, Char.ofNat_toNat]
        rw [hsub]
        simp only [List.cons_append, List.append_assoc] at he ⊢
        simp [readString, he]

lemma readString_escaped (s : List Char) (fuel : ℕ) (hf : s.length < fuel) (acc rest : List Char) :
    readString fuel acc (s.flatMap escapeChar ++ '"' :: rest) = some (acc ++ s, rest) := by
  induction s generalizing fuel acc with
  | nil =>
    obtain ⟨fuel, rfl⟩ := Nat.exists_eq_add_of_lt hf
    simp [readString]
  | cons c s ih =>
    obtain ⟨fuel, rfl⟩ : ∃ k, fuel = k + 1 := ⟨fuel - 1, by simp at hf; omega⟩
    rw [List.flatMap_cons, List.append_assoc, readString_escapeChar, ih fuel (by simp at hf; omega),
      List.append_assoc]
    rfl

lemma length_flatMap_escapeChar (s : List Char) : s.length ≤ (s.flatMap escapeChar).length := by
  induction s with
  | nil => simp
  | cons c s ih =>
    have hc : 1 ≤ (escapeChar c).length := by
      unfold escapeChar
      split
      · simp
      · split
        · simp
        · split <;> simp
    rw [List.flatMap_cons, List.length_append, List.length_cons]
    omega

end Strings

section Objects

abbrev Object := List (String × Scalar)

def quoted (s : String) : List Char := '"' :: s.toList.flatMap escapeChar ++ ['"']

def dumpScalar : Scalar → List Char
  | .str s => quoted s
  | .bool true => ['t', 'r', 'u', 'e']
  | .bool false => ['f', 'a', 'l', 's', 'e']
  | .null => ['n', 'u', 'l', 'l']

def dumpMember (m : String × Scalar) : List Char := quoted m.1 ++ ':' :: dumpScalar m.2

def dumpMembers : Object → List Char
  | [] => []
  | [m] => dumpMember m
  | m :: ms => dumpMember m ++ ',' :: dumpMembers ms

def sortKeys (o : Object) : Object := o.mergeSort (fun a b => a.1 ≤ b.1)

def dumps (o : Object) : String := String.ofList ('{' :: dumpMembers (sortKeys o) ++ ['}'])

def readQuoted (cs : List Char) : Option (String × List Char) :=
  (readString (cs.length + 1) [] cs).map (fun r => (String.ofList r.1, r.2))

def readScalar : List Char → Option (Scalar × List Char)
  | '"' :: rest => (readQuoted rest).map (fun r => (.str r.1, r.2))
  | 't' :: 'r' :: 'u' :: 'e' :: rest => some (.bool true, rest)
  | 'f' :: 'a' :: 'l' :: 's' :: 'e' :: rest => some (.bool false, rest)
  | 'n' :: 'u' :: 'l' :: 'l' :: rest => some (.null, rest)
  | _ => none

def readColon (key : String) : List Char → Option ((String × Scalar) × List Char)
  | ':' :: rest => (readScalar rest).map (fun r => ((key, r.1), r.2))
  | _ => none

def readMember : List Char → Option ((String × Scalar) × List Char)
  | '"' :: rest => (readQuoted rest).bind (fun r => readColon r.1 r.2)
  | _ => none

def readMembers : ℕ → List Char → Option Object
  | 0, _ => none
  | fuel + 1, cs => do
    let (m, rest) ← readMember cs
    match rest with
    | ['}'] => return [m]
    | ',' :: rest => do
      let ms ← readMembers fuel rest
      return m :: ms
    | _ => none

def loads (text : String) : Option Object :=
  match text.toList with
  | ['{', '}'] => some []
  | '{' :: rest => readMembers rest.length rest
  | _ => none

lemma readQuoted_quoted (s : String) (rest : List Char) :
    readQuoted (s.toList.flatMap escapeChar ++ ['"'] ++ rest) = some (s, rest) := by
  have hl := length_flatMap_escapeChar s.toList
  have hr := readString_escaped s.toList ((s.toList.flatMap escapeChar ++ ['"'] ++ rest).length + 1)
    (by simp only [List.length_append]; omega) [] rest
  rw [List.nil_append] at hr
  rw [readQuoted, List.append_assoc, List.singleton_append] at *
  rw [hr]
  simp

lemma readScalar_dumpScalar (v : Scalar) (rest : List Char) :
    readScalar (dumpScalar v ++ rest) = some (v, rest) := by
  cases v with
  | str s =>
    have hq := readQuoted_quoted s rest
    simp only [dumpScalar, quoted, List.cons_append, readScalar, hq]
    rfl
  | bool b => cases b <;> rfl
  | null => rfl

lemma readMember_dumpMember (m : String × Scalar) (rest : List Char) :
    readMember (dumpMember m ++ rest) = some (m, rest) := by
  have hq := readQuoted_quoted m.1 (':' :: (dumpScalar m.2 ++ rest))
  have hs := readScalar_dumpScalar m.2 rest
  simp only [dumpMember, quoted, List.cons_append, List.append_assoc, List.nil_append] at hq ⊢
  simp only [readMember, hq, Option.bind_some, readColon, hs]
  rfl

lemma readMembers_dumpMembers {o : Object} (ho : o ≠ []) (fuel : ℕ) (hf : o.length ≤ fuel) :
    readMembers fuel (dumpMembers o ++ ['}']) = some o := by
  induction o generalizing fuel with
  | nil => exact absurd rfl ho
  | cons m o ih =>
    obtain ⟨fuel, rfl⟩ : ∃ k, fuel = k + 1 := ⟨fuel - 1, by simp at hf; omega⟩
    cases o with
    | nil => simp [dumpMembers, readMembers, readMember_dumpMember]
    | cons m' o =>
      have hr := ih (by simp) fuel (by simpa using hf)
      simp only [dumpMembers, List.append_assoc, List.cons_append, readMembers,
        readMember_dumpMember, Option.bind_eq_bind, Option.bind_some] at hr ⊢
      rw [hr]
      rfl

lemma length_dumpMembers (o : Object) : o.length ≤ (dumpMembers o).length := by
  induction o with
  | nil => simp
  | cons m o ih =>
    have hm : 1 ≤ (dumpMember m).length := by simp [dumpMember, quoted]
    cases o with
    | nil => simpa [dumpMembers] using hm
    | cons m' o =>
      simp only [dumpMembers, List.length_append, List.length_cons] at ih ⊢
      omega

theorem loads_dumps (o : Object) : loads (dumps o) = some (sortKeys o) := by
  rw [loads, dumps, String.toList_ofList]
  generalize sortKeys o = o
  cases o with
  | nil => rfl
  | cons m o =>
    have hm : dumpMembers (m :: o) ++ ['}'] = '"' :: (dumpMembers (m :: o) ++ ['}']).tail := by
      cases o <;> simp [dumpMembers, dumpMember, quoted]
    have hl := length_dumpMembers (m :: o)
    rw [List.cons_append, hm]
    change readMembers _ _ = _
    rw [← hm]
    exact readMembers_dumpMembers (by simp) _ (by rw [List.length_append]; omega)

end Objects

end AstropathRelay.Lib.JsonText
