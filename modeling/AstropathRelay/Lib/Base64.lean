import AstropathRelay.Lib.ByteStrings

/-! Base64 text with padding, and that it decodes to what was encoded. -/

namespace AstropathRelay.Lib.Base64

open ByteStrings

def digit (n : ℕ) : Char :=
  if n < 26 then Char.ofNat (65 + n)
  else if n < 52 then Char.ofNat (71 + n)
  else if n < 62 then Char.ofNat (n - 4)
  else if n = 62 then '+'
  else '/'

def value (c : Char) : Option ℕ :=
  if 'A' ≤ c ∧ c ≤ 'Z' then some (c.toNat - 65)
  else if 'a' ≤ c ∧ c ≤ 'z' then some (c.toNat - 71)
  else if '0' ≤ c ∧ c ≤ '9' then some (c.toNat + 4)
  else if c = '+' then some 62
  else if c = '/' then some 63
  else none

def encodeChars : Octets → List Char
  | [] => []
  | [a] => [digit (a.toNat / 4), digit (a.toNat % 4 * 16), '=', '=']
  | [a, b] =>
    [digit (a.toNat / 4), digit (a.toNat % 4 * 16 + b.toNat / 16), digit (b.toNat % 16 * 4), '=']
  | a :: b :: c :: rest =>
    digit (a.toNat / 4) :: digit (a.toNat % 4 * 16 + b.toNat / 16) ::
      digit (b.toNat % 16 * 4 + c.toNat / 64) :: digit (c.toNat % 64) :: encodeChars rest

-- `quad` counts the digits of a quad so far, `left` is what they have left for the next octet. What
-- is no digit is skipped, and so is a padding that comes too early; one that fills a quad ends the
-- text.
def decodeChars (quad left pads : ℕ) : List Char → Option Octets
  | [] => if quad = 0 then some [] else none
  | c :: cs =>
    if c = '=' then
      if quad < 2 then decodeChars quad left pads cs
      else if 4 ≤ quad + (pads + 1) then some []
      else decodeChars quad left (pads + 1) cs
    else
      match value c, quad with
      | none, quad => decodeChars quad left pads cs
      | some n, 0 => decodeChars 1 n 0 cs
      | some n, 1 => (decodeChars 2 (n % 16) 0 cs).map (UInt8.ofNat (left * 4 + n / 16) :: ·)
      | some n, 2 => (decodeChars 3 (n % 4) 0 cs).map (UInt8.ofNat (left * 16 + n / 4) :: ·)
      | some n, _ => (decodeChars 0 0 0 cs).map (UInt8.ofNat (left * 64 + n) :: ·)

def encode (bs : Octets) : String := String.ofList (encodeChars bs)

def decode (text : String) : Option Octets := decodeChars 0 0 0 text.toList

lemma value_digit {n : ℕ} (h : n < 64) : value (digit n) = some n := by
  have hh : ∀ n : Fin 64, value (digit n.val) = some n.val := by decide +kernel
  exact hh ⟨n, h⟩

lemma digit_ne_pad {n : ℕ} (h : n < 64) : digit n ≠ '=' := by
  have hh : ∀ n : Fin 64, digit n.val ≠ '=' := by decide +kernel
  exact hh ⟨n, h⟩

section Quad

variable {n : ℕ} (h : n < 64) (left pads : ℕ) (cs : List Char)

include h

lemma decodeChars_first : decodeChars 0 left pads (digit n :: cs) = decodeChars 1 n 0 cs := by
  simp [decodeChars, digit_ne_pad h, value_digit h]

lemma decodeChars_second : decodeChars 1 left pads (digit n :: cs) =
    (decodeChars 2 (n % 16) 0 cs).map (UInt8.ofNat (left * 4 + n / 16) :: ·) := by
  simp [decodeChars, digit_ne_pad h, value_digit h]

lemma decodeChars_third : decodeChars 2 left pads (digit n :: cs) =
    (decodeChars 3 (n % 4) 0 cs).map (UInt8.ofNat (left * 16 + n / 4) :: ·) := by
  simp [decodeChars, digit_ne_pad h, value_digit h]

lemma decodeChars_fourth : decodeChars 3 left pads (digit n :: cs) =
    (decodeChars 0 0 0 cs).map (UInt8.ofNat (left * 64 + n) :: ·) := by
  simp [decodeChars, digit_ne_pad h, value_digit h]

end Quad

lemma ofNat_eq {a : UInt8} {n : ℕ} (h : n = a.toNat) : UInt8.ofNat n = a := by
  rw [h, UInt8.ofNat_toNat]

lemma decodeChars_encodeChars (bs : Octets) : decodeChars 0 0 0 (encodeChars bs) = some bs := by
  induction bs using encodeChars.induct with
  | case1 => rfl
  | case2 a =>
    have ha := a.toNat_lt
    have hpads : decodeChars 2 (a.toNat % 4 * 16 % 16) 0 ['=', '='] = some [] := rfl
    rw [encodeChars, decodeChars_first (by omega), decodeChars_second (by omega), hpads,
      Option.map_some, ofNat_eq (a := a) (by omega)]
  | case3 a b =>
    have ha := a.toNat_lt
    have hb := b.toNat_lt
    have hpad : decodeChars 3 (b.toNat % 16 * 4 % 4) 0 ['='] = some [] := rfl
    rw [encodeChars, decodeChars_first (by omega), decodeChars_second (by omega),
      decodeChars_third (by omega), hpad, Option.map_some, Option.map_some,
      ofNat_eq (a := a) (by omega), ofNat_eq (a := b) (by omega)]
  | case4 a b c rest ih =>
    have ha := a.toNat_lt
    have hb := b.toNat_lt
    have hc := c.toNat_lt
    rw [encodeChars, decodeChars_first (by omega), decodeChars_second (by omega),
      decodeChars_third (by omega), decodeChars_fourth (by omega), ih, Option.map_some,
      Option.map_some, Option.map_some, ofNat_eq (a := a) (by omega), ofNat_eq (a := b) (by omega),
      ofNat_eq (a := c) (by omega)]

theorem decode_encode (bs : Octets) : decode (encode bs) = some bs := by
  rw [decode, encode, String.toList_ofList, decodeChars_encodeChars]

end AstropathRelay.Lib.Base64
