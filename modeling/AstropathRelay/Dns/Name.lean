import AstropathRelay.Lib.ByteStrings

/-! Absolute domain names and their text form, as `dns.name` computes them. The labels of a name
leave out the empty root label, so the root is the name without labels. -/

namespace AstropathRelay.Dns

open Lib.ByteStrings

abbrev Label := Octets

def labelsLength (labels : List Label) : ℕ := (labels.map (fun l => l.length + 1)).sum + 1

def ValidLabels (labels : List Label) : Prop :=
  (∀ l ∈ labels, l ≠ [] ∧ l.length ≤ 63) ∧ labelsLength labels ≤ 255

instance (labels : List Label) : Decidable (ValidLabels labels) := by
  unfold ValidLabels; infer_instance

structure Name where
  labels : List Label
  valid : ValidLabels labels
deriving DecidableEq

inductive NameError
  | labelTooLong
  | nameTooLong
  | emptyLabel
  | badEscape
  | octetRange
  | idna
deriving DecidableEq

namespace Name

def root : Name := ⟨[], by decide⟩

instance : Inhabited Name := ⟨root⟩

def make (labels : List Label) : Except NameError Name :=
  if labels.any (fun l => 63 < l.length) then .error .labelTooLong
  else if 255 < labelsLength labels then .error .nameTooLong
  else if h : ValidLabels labels then .ok ⟨labels, h⟩
  else .error .emptyLabel

def lowerOctet (b : UInt8) : UInt8 := if 65 ≤ b ∧ b ≤ 90 then b + 32 else b

@[simp] lemma lowerOctet_idem (b : UInt8) : lowerOctet (lowerOctet b) = lowerOctet b := by
  unfold lowerOctet
  grind

def lowerLabels (labels : List Label) : List Label := labels.map (fun l => l.map lowerOctet)

lemma lowerLabels_valid {labels : List Label} (h : ValidLabels labels) :
    ValidLabels (lowerLabels labels) := by
  obtain ⟨hl, ht⟩ := h
  constructor
  · intro l hm
    obtain ⟨k, hk, rfl⟩ := List.mem_map.mp hm
    simpa using hl k hk
  · simpa [labelsLength, lowerLabels, List.map_map, Function.comp_def] using ht

def canonicalize (n : Name) : Name := ⟨lowerLabels n.labels, lowerLabels_valid n.valid⟩

@[simp] lemma canonicalize_idem (n : Name) : n.canonicalize.canonicalize = n.canonicalize := by
  simp [canonicalize, lowerLabels, List.map_map, Function.comp_def]

instance : BEq Name := ⟨fun a b => decide (a.canonicalize = b.canonicalize)⟩

lemma beq_iff {a b : Name} : a == b ↔ a.canonicalize = b.canonicalize := decide_eq_true_iff

instance : EquivBEq Name where
  rfl := beq_iff.mpr rfl
  symm h := beq_iff.mpr (beq_iff.mp h).symm
  trans h k := beq_iff.mpr ((beq_iff.mp h).trans (beq_iff.mp k))

@[simp] lemma canonicalize_beq (n : Name) : n.canonicalize == n := beq_iff.mpr (canonicalize_idem n)

lemma tail_valid {l : Label} {ls : List Label} (h : ValidLabels (l :: ls)) : ValidLabels ls := by
  obtain ⟨hl, ht⟩ := h
  refine ⟨fun k hk => hl k (List.mem_cons_of_mem _ hk), ?_⟩
  simp only [labelsLength, List.map_cons, List.sum_cons] at *
  omega

def parent : Name → Option Name
  | ⟨[], _⟩ => none
  | ⟨_ :: ls, h⟩ => some ⟨ls, tail_valid h⟩

def toDigestable (n : Name) : Octets :=
  n.canonicalize.labels.flatMap (fun l => UInt8.ofNat l.length :: l) ++ [0]

def wireLabels (n : Name) : Octets := n.labels.flatMap (fun l => UInt8.ofNat l.length :: l) ++ [0]

section Text

def isDigit (b : UInt8) : Bool := 48 ≤ b ∧ b ≤ 57

def escaped : List UInt8 := [34, 40, 41, 46, 59, 92, 64, 36]

def escapify (b : UInt8) : Octets :=
  if b ∈ escaped then [92, b]
  else if 0x20 < b ∧ b < 0x7F then [b]
  else [92, 48 + b / 100, 48 + b / 10 % 10, 48 + b % 10]

def textOf (bs : Octets) : String := String.ofList (bs.map (fun b => Char.ofNat b.toNat))

def toTextOctets (n : Name) : Octets :=
  if n.labels = [] then [46] else n.labels.flatMap (fun l => l.flatMap escapify ++ [46])

def toText (n : Name) : String := textOf n.toTextOctets

inductive Escape
  | none
  | start
  | digits (count total : ℕ)

def scan : Octets → List Label → Label → Escape → Except NameError (List Label)
  | [], labels, label, .none => .ok (if label = [] then labels else labels ++ [label])
  | [], _, _, _ => .error .badEscape
  | c :: cs, labels, label, .start =>
    if isDigit c then scan cs labels label (.digits 1 (c.toNat - 48))
    else scan cs labels (label ++ [c]) .none
  | c :: cs, labels, label, .digits count total =>
    if !isDigit c then .error .badEscape
    else if count + 1 = 3 then
      if 255 < total * 10 + (c.toNat - 48) then .error .octetRange
      else scan cs labels (label ++ [UInt8.ofNat (total * 10 + (c.toNat - 48))]) .none
    else scan cs labels label (.digits (count + 1) (total * 10 + (c.toNat - 48)))
  | c :: cs, labels, label, .none =>
    if c = 46 then if label = [] then .error .emptyLabel else scan cs (labels ++ [label]) [] .none
    else if c = 92 then scan cs labels label .start
    else scan cs labels (label ++ [c]) .none

def fromOctets (text : Octets) : Except NameError Name :=
  if text = [64] ∨ text = [46] then .ok root else scan text [] [] .none >>= make

def isAscii (text : String) : Bool := text.toList.all (fun c => c.toNat < 128)

def octetsOf (text : String) : Octets := text.toList.map (fun c => UInt8.ofNat c.toNat)

/-- `dns.name.from_text`; text outside ASCII is handed to the IDNA path `from_unicode`. -/
def fromText (fromUnicode : String → Except NameError Name)
    (text : String) : Except NameError Name :=
  if isAscii text then fromOctets (octetsOf text) else fromUnicode text

end Text

end Name

end AstropathRelay.Dns
