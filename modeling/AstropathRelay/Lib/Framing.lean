import AstropathRelay.Lib.ByteStrings

/-! Messages on a byte stream, each behind its length in a big-endian integer of fixed width. -/

namespace AstropathRelay.Lib.Framing

open ByteStrings

variable (w : ℕ)

def frame (payload : Octets) : Octets := encode w payload.length ++ payload

def Complete (bs : Octets) : Prop := w + decode (bs.take w) ≤ bs.length

instance (bs : Octets) : Decidable (Complete w bs) := inferInstanceAs (Decidable (_ ≤ _))

def unframe (bs : Octets) : List Octets × Octets :=
  if h : 0 < w ∧ Complete w bs then
    let n := decode (bs.take w)
    have : bs.length - (w + n) < bs.length := Nat.sub_lt_self (Nat.add_pos_left h.1 n) h.2
    let r := unframe (bs.drop (w + n))
    ((bs.drop w).take n :: r.1, r.2)
  else ([], bs)
termination_by bs.length

variable {w}

lemma unframe_partial {bs : Octets} (h : ¬ Complete w bs) : unframe w bs = ([], bs) := by
  rw [unframe, dif_neg fun hc => h hc.2]

lemma take_frame {payload : Octets}
    (rest : Octets) : (frame w payload ++ rest).take w = encode w payload.length := by
  rw [frame, List.append_assoc, List.take_left' (length_encode _ _)]

lemma drop_frame {payload : Octets}
    (rest : Octets) : (frame w payload ++ rest).drop w = payload ++ rest := by
  rw [frame, List.append_assoc, List.drop_left' (length_encode _ _)]

lemma length_frame (payload : Octets) : (frame w payload).length = w + payload.length := by
  rw [frame, List.length_append, length_encode]

lemma decode_length {n : ℕ} (h : n < 256 ^ w) : decode (encode w n) = n := by
  rw [decode_encode, Nat.mod_eq_of_lt h]

lemma unframe_frame_append (hw : 0 < w) {payload : Octets} (hp : payload.length < 256 ^ w)
    (rest : Octets) :
    unframe w (frame w payload ++ rest) = (payload :: (unframe w rest).1, (unframe w rest).2) := by
  have hc : Complete w (frame w payload ++ rest) := by
    rw [Complete, take_frame, decode_length hp, List.length_append, length_frame]
    exact Nat.le_add_right _ _
  rw [unframe, dif_pos ⟨hw, hc⟩]
  simp only [take_frame, decode_length hp, drop_frame, List.take_left' rfl]
  rw [List.drop_left' (length_frame payload)]

lemma unframe_frames_append (hw : 0 < w) {payloads : List Octets}
    (hp : ∀ p ∈ payloads, p.length < 256 ^ w)
    (rest : Octets) : unframe w (payloads.flatMap (frame w) ++ rest) =
    (payloads ++ (unframe w rest).1, (unframe w rest).2) := by
  induction payloads with
  | nil => rfl
  | cons p ps ih =>
    obtain ⟨hp, hps⟩ := List.forall_mem_cons.mp hp
    rw [List.flatMap_cons, List.append_assoc, unframe_frame_append hw hp, ih hps]
    rfl

lemma unframe_frames (hw : 0 < w) {payloads : List Octets}
    (hp : ∀ p ∈ payloads, p.length < 256 ^ w) :
    unframe w (payloads.flatMap (frame w)) = (payloads, []) := by
  have hn : ¬ Complete w [] := by
    rw [Complete, List.length_nil]
    omega
  have h := unframe_frames_append hw hp []
  rwa [List.append_nil, unframe_partial hn, List.append_nil] at h

lemma frame_of_header {header payload : Octets} (hh : header.length = w)
    (hp : payload.length = decode header) : frame w payload = header ++ payload := by
  rw [frame, hp, ← hh, encode_decode]

end AstropathRelay.Lib.Framing
