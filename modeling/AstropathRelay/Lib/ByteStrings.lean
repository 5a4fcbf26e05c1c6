import Mathlib.Tactic

/-! Octet strings and fixed-width big-endian integers. -/

namespace AstropathRelay.Lib.ByteStrings

abbrev Octets := List UInt8

def encode : ℕ → ℕ → Octets
  | 0, _ => []
  | w + 1, n => UInt8.ofNat (n / 256 ^ w) :: encode w n

def decode (bs : Octets) : ℕ := bs.foldl (fun acc b => acc * 256 + b.toNat) 0

def u16 (n : ℕ) : Octets := encode 2 n
def u32 (n : ℕ) : Octets := encode 4 n
def u48 (n : ℕ) : Octets := encode 6 n

@[simp] lemma length_encode (w n : ℕ) : (encode w n).length = w := by
  induction w with
  | zero => rfl
  | succ w ih => simp [encode, ih]

@[simp] lemma length_u16 (n : ℕ) : (u16 n).length = 2 := length_encode 2 n
@[simp] lemma length_u32 (n : ℕ) : (u32 n).length = 4 := length_encode 4 n
@[simp] lemma length_u48 (n : ℕ) : (u48 n).length = 6 := length_encode 6 n

lemma foldl_shift (bs : Octets) (a : ℕ) :
    bs.foldl (fun acc b => acc * 256 + b.toNat) a = a * 256 ^ bs.length + decode bs := by
  induction bs generalizing a with
  | nil => simp [decode]
  | cons b bs ih =>
    have h0 := ih (0 * 256 + b.toNat)
    simp only [decode, List.foldl_cons, List.length_cons] at *
    rw [ih, h0, pow_succ]
    ring

lemma decode_cons (b : UInt8) (bs : Octets) :
    decode (b :: bs) = b.toNat * 256 ^ bs.length + decode bs := by
  rw [decode, List.foldl_cons, foldl_shift]
  simp

lemma decode_encode (w n : ℕ) : decode (encode w n) = n % 256 ^ w := by
  induction w with
  | zero => simp [encode, decode, Nat.mod_one]
  | succ w ih =>
    have hd : n % 256 ^ (w + 1) = n % 256 ^ w + 256 ^ w * (n / 256 ^ w % 256) := by
      rw [pow_succ]
      exact Nat.mod_mul
    rw [encode, decode_cons, ih, length_encode, UInt8.toNat_ofNat', hd]
    ring

lemma decode_lt (bs : Octets) : decode bs < 256 ^ bs.length := by
  induction bs with
  | nil => simp [decode]
  | cons b bs ih =>
    have hb : b.toNat < 256 := b.toNat_lt
    rw [decode_cons, List.length_cons, pow_succ]
    nlinarith

lemma encode_add_mul (w k n : ℕ) : encode w (k * 256 ^ w + n) = encode w n := by
  induction w generalizing k with
  | zero => rfl
  | succ w ih =>
    have hk : k * 256 ^ (w + 1) + n = k * 256 * 256 ^ w + n := by ring
    have hd : (k * 256 * 256 ^ w + n) / 256 ^ w = k * 256 + n / 256 ^ w := by
      rw [Nat.add_comm, Nat.add_mul_div_right _ _ (by positivity), Nat.add_comm]
    rw [hk, encode, encode, ih, hd]
    congr 1
    apply UInt8.toNat.inj
    simp only [UInt8.toNat_ofNat']
    omega

lemma encode_decode (bs : Octets) : encode bs.length (decode bs) = bs := by
  induction bs with
  | nil => rfl
  | cons b bs ih =>
    have hd : (b.toNat * 256 ^ bs.length + decode bs) / 256 ^ bs.length = b.toNat := by
      rw [Nat.add_comm, Nat.add_mul_div_right _ _ (by positivity),
        Nat.div_eq_of_lt (decode_lt bs), zero_add]
    rw [decode_cons, List.length_cons, encode, encode_add_mul, ih, hd]
    simp

end AstropathRelay.Lib.ByteStrings
