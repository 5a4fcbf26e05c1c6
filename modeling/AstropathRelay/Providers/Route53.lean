import AstropathRelay.Dns.NameText
import Mathlib.Data.List.DropRight

/-! The Route 53 provider: `present` and `cleanup` read the TXT rrset of a name and then change it.
-/

namespace AstropathRelay.Providers.Route53

open Lib.ByteStrings Dns

def normalizeName (recordName : String) : String :=
  String.ofList ((recordName.toList.rdropWhile (· = '.')).map Char.toLower ++ ['.'])

def quote (token : String) : String :=
  String.ofList ('"' ::
    token.toList.flatMap (fun c => if c = '\\' ∨ c = '"' then ['\\', c] else [c]) ++ ['"'])

structure ResourceRecordSet where
  ttl : ℕ
  values : List String
deriving DecidableEq

inductive Change
  | upsert (ttl : ℕ) (values : List String)
  | delete (ttl : ℕ) (values : List String)
deriving DecidableEq

def txtTtl : ℕ := 60

def recordValues : Option ResourceRecordSet → List String
  | none => []
  | some r => r.values

def merge (current : List String) (v : String) : List String :=
  if v ∈ current then current else current ++ [v]

def presentChange (values : List String) (existing : Option ResourceRecordSet) : Option Change :=
  let current := recordValues existing
  let merged := (values.map quote).foldl merge current
  if merged = current then none else some (.upsert txtTtl merged)

def cleanupChange (values : List String) : Option ResourceRecordSet → Option Change
  | none => none
  | some existing =>
    let current := existing.values
    let remaining := if values = [] then [] else current.filter (fun v => v ∉ values.map quote)
    if values ≠ [] ∧ remaining = current then none
    else if remaining ≠ [] then some (.upsert txtTtl remaining)
    else some (.delete existing.ttl current)

def submit (stored : Option ResourceRecordSet) : Change → Option (Option ResourceRecordSet)
  | .upsert ttl values => some (some ⟨ttl, values⟩)
  | .delete ttl values => if stored = some ⟨ttl, values⟩ then some none else none

section Changes

variable {values : List String} {existing : Option ResourceRecordSet} {c : Change}

lemma mem_foldl_merge {v : String} {current vs : List String} : v ∈ vs.foldl merge current ↔
    v ∈ current ∨ v ∈ vs := by
  induction vs generalizing current with
  | nil => simp
  | cons w vs ih =>
    rw [List.foldl_cons, ih, List.mem_cons, merge]
    split
    · next hw =>
      constructor
      · rintro (h | h)
        · exact .inl h
        · exact .inr (.inr h)
      · rintro (h | rfl | h)
        · exact .inl h
        · exact .inl hw
        · exact .inr h
    · rw [List.mem_append, List.mem_singleton, or_assoc]

lemma nodup_foldl_merge {current : List String} (h : current.Nodup) (vs : List String) :
    (vs.foldl merge current).Nodup := by
  induction vs generalizing current with
  | nil => exact h
  | cons v vs ih =>
    apply ih
    unfold merge
    split
    · exact h
    · next hv =>
      rw [← List.concat_eq_append]
      exact h.concat hv

lemma foldl_merge_of_subset {current vs : List String} (h : ∀ v ∈ vs, v ∈ current) :
    vs.foldl merge current = current := by
  induction vs with
  | nil => rfl
  | cons v vs ih =>
    rw [List.foldl_cons, merge, if_pos (h v (by simp))]
    exact ih fun w hw => h w (by simp [hw])

lemma presentChange_eq_none : presentChange values existing = none ↔
    ∀ v ∈ values, quote v ∈ recordValues existing := by
  simp only [presentChange, ite_eq_left_iff, reduceCtorEq, imp_false, not_not]
  constructor
  · intro h v hv
    rw [← h, mem_foldl_merge]
    exact .inr (List.mem_map_of_mem hv)
  · intro h
    exact foldl_merge_of_subset (List.forall_mem_map.mpr h)

lemma cleanupChange_nil (r : ResourceRecordSet) :
    cleanupChange [] (some r) = some (.delete r.ttl r.values) := by
  simp [cleanupChange]

lemma cleanupChange_values {r : ResourceRecordSet} (hv : values ≠ []) {remaining : List String}
    (hr : r.values.filter (fun v => v ∉ values.map quote) = remaining) :
    cleanupChange values (some r) =
      if remaining = r.values then none
      else if remaining ≠ [] then some (.upsert txtTtl remaining)
        else some (.delete r.ttl r.values) := by
  subst hr
  simp only [cleanupChange, ne_eq, hv, not_false_eq_true, true_and, ↓reduceIte]

lemma cleanupChange_eq_none :
    cleanupChange values existing = none ↔
      existing = none ∨ values ≠ [] ∧ ∀ v ∈ values, quote v ∉ recordValues existing := by
  cases existing with
  | none => simp [cleanupChange]
  | some r =>
    by_cases hv : values = []
    · simp [hv, cleanupChange_nil]
    · rw [cleanupChange_values hv rfl]
      have hk : r.values.filter (fun v => v ∉ values.map quote) = r.values ↔
          ∀ v ∈ values, quote v ∉ r.values := by
        simp only [List.filter_eq_self, decide_eq_true_eq, List.mem_map, not_exists, not_and]
        exact ⟨fun h v hv hq => h _ hq v hv rfl, fun h w hw v hv hq => h v hv (hq ▸ hw)⟩
      simp only [ite_eq_left_iff, hk, recordValues, ne_eq, hv, not_false_eq_true, true_and,
        reduceCtorEq, false_or]
      constructor
      · intro h
        by_contra hn
        have := h hn
        split at this <;> simp at this
      · intro h hn
        exact absurd h hn

def Change.Fits (existing : Option ResourceRecordSet) : Change → Prop
  | .upsert _ values => values.Nodup
  | .delete ttl values => existing = some ⟨ttl, values⟩

lemma fits_presentChange (hd : (recordValues existing).Nodup)
    (h : presentChange values existing = some c) : c.Fits existing := by
  simp only [presentChange] at h
  split at h
  · simp at h
  · obtain rfl := Option.some.inj h
    exact nodup_foldl_merge hd _

lemma fits_cleanupChange (hd : (recordValues existing).Nodup)
    (h : cleanupChange values existing = some c) : c.Fits existing := by
  cases existing with
  | none => simp [cleanupChange] at h
  | some r =>
    by_cases hv : values = []
    · rw [hv, cleanupChange_nil] at h
      obtain rfl := Option.some.inj h
      rfl
    · rw [cleanupChange_values hv rfl] at h
      split_ifs at h
      · obtain rfl := Option.some.inj h
        exact hd.filter _
      · obtain rfl := Option.some.inj h
        rfl

end Changes

section Names

def normalizeOctets (bs : Octets) : Octets := (bs.rdropWhile (· = 46)).map Name.lowerOctet ++ [46]

lemma toLower_ofNat (b : UInt8) :
    (Char.ofNat b.toNat).toLower = Char.ofNat (Name.lowerOctet b).toNat := by
  revert b
  exact Name.forall_octet (by decide +kernel)

lemma ofNat_eq_dot (b : UInt8) : decide (Char.ofNat b.toNat = '.') = decide (b = 46) := by
  revert b
  exact Name.forall_octet (by decide +kernel)

lemma rdropWhile_map {α β : Type} {f : α → β} {p : α → Bool} {q : β → Bool} (h : ∀ a, q (f a) = p a)
    (l : List α) : (l.map f).rdropWhile q = (l.rdropWhile p).map f := by
  induction l using List.reverseRecOn with
  | nil => rfl
  | append_singleton l a ih =>
    rw [List.map_append, List.map_singleton, List.rdropWhile_concat, List.rdropWhile_concat, h]
    split
    · exact ih
    · rw [List.map_append, List.map_singleton]

lemma normalizeName_textOf (bs : Octets) :
    normalizeName (Name.textOf bs) = Name.textOf (normalizeOctets bs) := by
  have hdrop : (bs.map (fun b => Char.ofNat b.toNat)).rdropWhile (· = '.') =
      (bs.rdropWhile (· = 46)).map (fun b => Char.ofNat b.toNat) :=
    rdropWhile_map (q := (· = '.')) ofNat_eq_dot bs
  simp only [normalizeName, Name.textOf, normalizeOctets, String.toList_ofList, hdrop, List.map_map,
    List.map_append, Function.comp_def, toLower_ofNat]
  rfl

lemma toLower_eq_dot (c : Char) : decide (c.toLower = '.') = decide (c = '.') := by
  refine decide_eq_decide.mpr ⟨fun h => ?_, ?_⟩
  · unfold Char.toLower at h
    split at h
    · next hu =>
      have hv := congrArg Char.val h
      grind
    · exact h
  · rintro rfl
    decide

lemma toLower_toLower (c : Char) : c.toLower.toLower = c.toLower := by
  unfold Char.toLower
  split
  · next hu =>
    rw [dif_neg]
    grind
  · rfl

lemma normalizeName_normalizeName (recordName : String) :
    normalizeName (normalizeName recordName) = normalizeName recordName := by
  have hdrop (l : List Char) : (l.map Char.toLower).rdropWhile (· = '.') =
      (l.rdropWhile (· = '.')).map Char.toLower :=
    rdropWhile_map (q := (· = '.')) toLower_eq_dot l
  unfold normalizeName
  rw [String.toList_ofList, List.rdropWhile_concat_pos _ _ _ (by simp), hdrop,
    List.rdropWhile_idempotent, List.map_map]
  simp only [Function.comp_def, toLower_toLower]

lemma lowerOctet_eq_dot (b : UInt8) : decide (Name.lowerOctet b = 46) = decide (b = 46) := by
  revert b
  exact Name.forall_octet (by decide +kernel)

lemma normalizeOctets_lower (bs : Octets) :
    normalizeOctets (bs.map Name.lowerOctet) = normalizeOctets bs := by
  have hdrop : (bs.map Name.lowerOctet).rdropWhile (· = 46) =
      (bs.rdropWhile (· = 46)).map Name.lowerOctet :=
    rdropWhile_map (q := fun b : UInt8 => b = 46) lowerOctet_eq_dot bs
  rw [normalizeOctets, hdrop, List.map_map]
  simp [normalizeOctets, Function.comp_def]

lemma escapify_last (b : UInt8) :
    Name.escapify b = [92, 46] ∨ Name.escapify b ≠ [] ∧ (Name.escapify b).getLast? ≠ some 46 := by
  revert b
  exact Name.forall_octet (by decide +kernel)

lemma normalizeOctets_toText (n : Name) :
    normalizeOctets n.toTextOctets = n.canonicalize.toTextOctets ∨
      n.labels ≠ [] ∧ normalizeOctets n.toTextOctets = n.canonicalize.toTextOctets.dropLast := by
  have hdot : Name.lowerOctet 46 = 46 := by decide
  rw [Name.toTextOctets_canonicalize]
  rcases List.eq_nil_or_concat' n.labels with hn | ⟨ls, l, hl⟩
  · left
    simp [Name.toTextOctets, hn, normalizeOctets, List.rdropWhile, hdot]
  · have hne : l ≠ [] := Name.labels_ne_nil n l (by simp [hl])
    obtain ⟨k, b, rfl⟩ := (List.eq_nil_or_concat' l).resolve_left hne
    rw [Name.toTextOctets_concat hl, List.flatMap_append, List.flatMap_singleton]
    generalize ls.flatMap (fun l => l.flatMap Name.escapify ++ [46]) = front
    generalize k.flatMap Name.escapify = back
    rcases escapify_last b with hb | ⟨hb, hlast⟩
    · right
      refine ⟨by simp [hl], ?_⟩
      rw [hb, normalizeOctets, List.rdropWhile_concat_pos _ _ _ (by simp), ← List.append_assoc,
        show ([92, 46] : Octets) = [92] ++ [46] from rfl, ← List.append_assoc,
        List.rdropWhile_concat_pos _ _ _ (by simp), List.rdropWhile_concat_neg _ _ _ (by decide)]
      simp [hdot]
    · left
      obtain ⟨e, c, he⟩ := (List.eq_nil_or_concat' (Name.escapify b)).resolve_left hb
      have hc : c ≠ 46 := by
        rintro rfl
        simp [he] at hlast
      rw [he, normalizeOctets, List.rdropWhile_concat_pos _ _ _ (by simp), ← List.append_assoc,
        ← List.append_assoc, List.rdropWhile_concat_neg _ _ _ (by simpa using hc)]
      simp [hdot]

lemma fromOctets_normalizeOctets (n : Name) :
    Name.fromOctets (normalizeOctets n.toTextOctets) = .ok n.canonicalize := by
  rcases normalizeOctets_toText n with h | ⟨hn, h⟩
  · rw [h, Name.fromOctets_toText]
  · have hc : n.canonicalize.labels ≠ [] := by simpa [Name.canonicalize, Name.lowerLabels] using hn
    rw [h, Name.fromOctets_dropLast hc]

theorem normalizeName_toText_inj {m n : Name} : normalizeName m.toText = normalizeName n.toText ↔
    m == n := by
  rw [Name.beq_iff, Name.toText, Name.toText, normalizeName_textOf, normalizeName_textOf]
  constructor
  · intro h
    have ho := congrArg Name.octetsOf h
    rw [Name.octetsOf_textOf, Name.octetsOf_textOf] at ho
    have hf := congrArg Name.fromOctets ho
    rw [fromOctets_normalizeOctets, fromOctets_normalizeOctets] at hf
    exact Except.ok.inj hf
  · intro h
    rw [← normalizeOctets_lower, ← Name.toTextOctets_canonicalize, h,
      Name.toTextOctets_canonicalize, normalizeOctets_lower]

end Names

end AstropathRelay.Providers.Route53
