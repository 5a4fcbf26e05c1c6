import AstropathRelay.Dns.Name

/-! The text form of a name reads back as that name, with or without its final dot. -/

namespace AstropathRelay.Dns.Name

open Lib.ByteStrings

lemma forall_octet {p : UInt8 → Prop} (h : ∀ n : Fin 256, p (UInt8.ofFin n))
    (b : UInt8) : p b := h b.toFin

lemma escapify_lower (b : UInt8) : escapify (lowerOctet b) = (escapify b).map lowerOctet := by
  revert b
  exact forall_octet (by decide +kernel)

lemma digits_octet (b : UInt8) : isDigit (48 + b / 100) ∧ isDigit (48 + b / 10 % 10) ∧
    isDigit (48 + b % 10) ∧ (((48 + b / 100).toNat - 48) * 10 + ((48 + b / 10 % 10).toNat - 48)) *
    10 + ((48 + b % 10).toNat - 48) = b.toNat := by
  revert b
  exact forall_octet (by decide +kernel)

lemma lt_of_isDigit {c : UInt8} (h : isDigit c) : c < 128 := by
  have hc : c ≤ 57 := (of_decide_eq_true h).2
  exact UInt8.lt_of_le_of_lt hc (by decide)

lemma escapify_ascii (b : UInt8) : ∀ c ∈ escapify b, c < 128 := by
  rw [escapify]
  split
  · next hb =>
    have hall : ∀ c ∈ escaped, c < 128 := by decide +kernel
    simpa using hall b hb
  · split
    · next hb => simpa using UInt8.lt_trans hb.2 (by decide : (0x7F : UInt8) < 128)
    · obtain ⟨h₂, h₁, h₀, -⟩ := digits_octet b
      simpa using ⟨lt_of_isDigit h₂, lt_of_isDigit h₁, lt_of_isDigit h₀⟩

lemma scan_backslash (cs : Octets) (labels : List Label) (label : Label) :
    scan (92 :: cs) labels label .none = scan cs labels label .start := by
  simp [scan]

lemma scan_escapify (b : UInt8) (cs : Octets) (labels : List Label) (label : Label) :
    scan (escapify b ++ cs) labels label .none = scan cs labels (label ++ [b]) .none := by
  rw [escapify]
  split
  · next hb =>
    have hd : isDigit b = false := by
      simp only [escaped, List.mem_cons, List.not_mem_nil, or_false] at hb
      rcases hb with rfl | rfl | rfl | rfl | rfl | rfl | rfl | rfl <;> rfl
    simp [scan, hd]
  · next hb =>
    split
    · have h46 : b ≠ 46 := by rintro rfl; exact hb (by decide)
      have h92 : b ≠ 92 := by rintro rfl; exact hb (by decide)
      simp [scan, h46, h92]
    · obtain ⟨h2, h1, h0, hv⟩ := digits_octet b
      have hlt : ¬ 255 < b.toNat := by have := b.toNat_lt; omega
      have hs : UInt8.ofNat b.toNat = b := UInt8.ofNat_toNat
      rw [List.cons_append, scan_backslash]
      simp only [List.cons_append, List.nil_append, scan, ↓reduceIte, h2, h1, h0, hv, hlt, hs,
        Bool.not_true, Bool.false_eq_true, Nat.reduceAdd, Nat.reduceEqDiff]

lemma scan_label (l : Label) (cs : Octets) (labels : List Label) (label : Label) :
    scan (l.flatMap escapify ++ cs) labels label .none = scan cs labels (label ++ l) .none := by
  induction l generalizing label with
  | nil => simp
  | cons b l ih =>
    rw [List.flatMap_cons, List.append_assoc, scan_escapify, ih, List.append_assoc]; rfl

lemma scan_labels (ls : List Label) (hl : ∀ l ∈ ls, l ≠ []) (cs : Octets) (labels : List Label) :
    scan (ls.flatMap (fun l => l.flatMap escapify ++ [46]) ++ cs) labels [] .none =
      scan cs (labels ++ ls) [] .none := by
  induction ls generalizing labels with
  | nil => simp
  | cons l ls ih =>
    have hne : l ≠ [] := hl l (by simp)
    have hs : scan (l.flatMap escapify ++
        (46 :: (ls.flatMap (fun l => l.flatMap escapify ++ [46]) ++ cs))) labels [] .none =
        scan (ls.flatMap (fun l => l.flatMap escapify ++ [46]) ++ cs) (labels ++ [l]) [] .none := by
      rw [scan_label]
      simp [scan, hne]
    rw [List.flatMap_cons, List.append_assoc, List.append_assoc, List.singleton_append, hs,
      ih (fun k hk => hl k (by simp [hk])), List.append_assoc]
    rfl

lemma make_valid (n : Name) : make n.labels = .ok n := by
  obtain ⟨hl, ht⟩ := n.valid
  have hany : n.labels.any (fun l => 63 < l.length) = false := by
    rw [List.any_eq_false]
    intro l hm
    have := (hl l hm).2
    simpa using this
  simp [make, hany, Nat.not_lt.mpr ht, n.valid]

lemma labels_ne_nil (n : Name) : ∀ l ∈ n.labels, l ≠ [] := fun l hl => (n.valid.1 l hl).1

lemma toTextOctets_cons {n : Name} {l : Label} {ls : List Label} (h : n.labels = l :: ls) :
    n.toTextOctets = n.labels.flatMap (fun l => l.flatMap escapify ++ [46]) := by
  simp [toTextOctets, h]

lemma escapify_ne_nil (b : UInt8) : escapify b ≠ [] := by
  rw [escapify]
  split
  · simp
  · split <;> simp

lemma length_escaped_label {l : Label} (h : l ≠ []) : 1 ≤ (l.flatMap escapify).length := by
  obtain ⟨b, l, rfl⟩ := List.exists_cons_of_ne_nil h
  have hb := List.length_pos_of_ne_nil (escapify_ne_nil b)
  simp only [List.flatMap_cons, List.length_append]
  omega

lemma fromOctets_toText (n : Name) : fromOctets n.toTextOctets = .ok n := by
  cases hn : n.labels with
  | nil =>
    have hr : n = root := by cases n; cases hn; rfl
    simp [hr, toTextOctets, root, fromOctets]
  | cons l ls =>
    have hlen : 2 ≤ n.toTextOctets.length := by
      have hl := length_escaped_label (labels_ne_nil n l (by simp [hn]))
      simp only [toTextOctets_cons hn, hn, List.flatMap_cons, List.length_append,
        List.length_singleton]
      omega
    have hne : ¬ (n.toTextOctets = [64] ∨ n.toTextOctets = [46]) := by
      rintro (h | h) <;> simp [h] at hlen
    have hs := scan_labels n.labels (labels_ne_nil n) [] []
    rw [List.append_nil, List.nil_append] at hs
    rw [fromOctets, if_neg hne, toTextOctets_cons hn, hs]
    rw [scan, if_pos rfl]
    exact make_valid n

lemma escapify_ne_singleton {b c : UInt8} (hc : c ∈ escaped) : escapify b ≠ [c] := by
  rw [escapify]
  split
  · simp
  · next hb =>
    split
    · intro h
      exact hb (List.singleton_inj.mp h ▸ hc)
    · simp

lemma escapify_ne_at_dot (b : UInt8) : escapify b ≠ [64] ∧ escapify b ≠ [46] :=
  ⟨escapify_ne_singleton (by decide), escapify_ne_singleton (by decide)⟩

lemma escaped_label_ne_at_dot {l : Label} (h : l ≠ []) : l.flatMap escapify ≠ [64] ∧
    l.flatMap escapify ≠ [46] := by
  obtain ⟨b, l, rfl⟩ := List.exists_cons_of_ne_nil h
  cases l with
  | nil => simpa using escapify_ne_at_dot b
  | cons c l =>
    have hb := List.length_pos_of_ne_nil (escapify_ne_nil b)
    have hc := length_escaped_label (l := c :: l) (by simp)
    have hlen : 2 ≤ ((b :: c :: l).flatMap escapify).length := by
      rw [List.flatMap_cons, List.length_append]
      omega
    constructor <;> intro hh <;> simp [hh] at hlen

lemma toTextOctets_concat {n : Name} {ls : List Label} {l : Label} (h : n.labels = ls ++ [l]) :
    n.toTextOctets = ls.flatMap (fun l => l.flatMap escapify ++ [46]) ++
      l.flatMap escapify ++ [46] := by
  simp [toTextOctets, h]

lemma fromOctets_dropLast {n : Name} (h : n.labels ≠ []) :
    fromOctets n.toTextOctets.dropLast = .ok n := by
  obtain ⟨ls, l, hl⟩ := (List.eq_nil_or_concat' n.labels).resolve_left h
  have hne : ∀ k ∈ ls ++ [l], k ≠ [] := fun k hk => labels_ne_nil n k (hl ▸ hk)
  have hlast := escaped_label_ne_at_dot (hne l (by simp))
  rw [toTextOctets_concat hl, List.dropLast_concat]
  have hcond : ¬ (ls.flatMap (fun l => l.flatMap escapify ++ [46]) ++ l.flatMap escapify = [64] ∨
      ls.flatMap (fun l => l.flatMap escapify ++ [46]) ++ l.flatMap escapify = [46]) := by
    cases ls with
    | nil => simpa using hlast
    | cons k ks =>
      have hk := length_escaped_label (hne k (by simp))
      have hl := length_escaped_label (hne l (by simp))
      rintro (hh | hh) <;>
      · have hlen := congrArg List.length hh
        simp only [List.flatMap_cons, List.length_append, List.length_singleton] at hlen
        omega
  have hscan := scan_label l [] ls []
  rw [List.append_nil, List.nil_append] at hscan
  rw [fromOctets, if_neg hcond, scan_labels ls (fun k hk => hne k (by simp [hk])), List.nil_append,
    hscan, scan, if_neg (hne l (by simp)), ← hl]
  exact make_valid n

lemma toTextOctets_ascii (n : Name) : ∀ c ∈ n.toTextOctets, c < 128 := by
  intro c hc
  unfold toTextOctets at hc
  split at hc
  · simp only [List.mem_singleton] at hc
    subst hc
    decide
  · simp only [List.mem_flatMap, List.mem_append, List.mem_singleton] at hc
    rcases hc with ⟨l, -, ⟨b, -, hb⟩ | rfl⟩
    · exact escapify_ascii b c hb
    · decide

lemma toNat_ofNat_octet (b : UInt8) : (Char.ofNat b.toNat).toNat = b.toNat := by
  have hv : b.toNat.isValidChar := Or.inl (b.toNat_lt.trans (by decide))
  rw [Char.ofNat, dif_pos hv]
  rfl

@[simp] lemma octetsOf_textOf (bs : Octets) : octetsOf (textOf bs) = bs := by
  simp [octetsOf, textOf, Function.comp_def, toNat_ofNat_octet]

lemma isAscii_textOf {bs : Octets} (h : ∀ c ∈ bs, c < 128) : isAscii (textOf bs) = true := by
  simp only [isAscii, textOf, String.toList_ofList, List.all_map, List.all_eq_true]
  intro c hc
  simpa [toNat_ofNat_octet, UInt8.lt_iff_toNat_lt] using h c hc

theorem fromText_toText (fromUnicode : String → Except NameError Name) (n : Name) :
    fromText fromUnicode n.toText = .ok n := by
  rw [fromText, toText, if_pos (isAscii_textOf (toTextOctets_ascii n)), octetsOf_textOf,
    fromOctets_toText]

lemma toTextOctets_canonicalize (n : Name) :
    n.canonicalize.toTextOctets = n.toTextOctets.map lowerOctet := by
  have hdot : lowerOctet 46 = 46 := by decide
  by_cases hn : n.labels = []
  · simp [toTextOctets, canonicalize, lowerLabels, hn, hdot]
  · simp [toTextOctets, canonicalize, lowerLabels, hn, List.flatMap_map, List.map_flatMap,
      escapify_lower, hdot]

end AstropathRelay.Dns.Name
