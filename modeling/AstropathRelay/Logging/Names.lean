import AstropathRelay.Logging.Scrub

/-! The words the value patterns look for, in either case. -/

namespace AstropathRelay.Logging

open Lib Lib.Regex

-- What holds of the characters of a word is decided over the word, not over all characters.
instance (priority := 2000) decidableForallMem (cs : List Char) (p : Char → Prop)
    [DecidablePred p] : Decidable (∀ c ∈ cs, p c) := List.decidableBAll p cs

section FoldCase

variable {c a : Char}

lemma toLower_eq_self (h : c.toNat < 65 ∨ 90 < c.toNat) : c.toLower = c := by
  have hn : ¬ (c.val ≥ 'A'.val ∧ c.val ≤ 'Z'.val) := by
    rintro ⟨hlo, hhi⟩
    have hlo' : 65 ≤ c.toNat := hlo
    have hhi' : c.toNat ≤ 90 := hhi
    omega
  exact dif_neg hn

lemma isLower_toLower (h : 65 ≤ c.toNat ∧ c.toNat ≤ 90) : c.toLower.isLower := by
  have hchars : ∀ n : Fin 128, 65 ≤ n.val ∧ n.val ≤ 90 → (Char.ofNat n).toLower.isLower := by
    decide +kernel
  have hc := hchars ⟨c.toNat, by omega⟩ h
  rwa [Char.ofNat_toNat] at hc

lemma eq_of_foldCase (h : foldCase c = a) (ha : a.isLower = false) : c = a := by
  rw [foldCase] at h
  split_ifs at h
  · exact absurd ha (by rw [← h]; decide)
  · exact absurd ha (by rw [← h]; decide)
  · exact absurd ha (by rw [← h]; decide)
  · by_cases hupper : 65 ≤ c.toNat ∧ c.toNat ≤ 90
    · rw [← h, isLower_toLower hupper] at ha
      cases ha
    · rwa [toLower_eq_self (by omega)] at h

lemma foldCase_of_isSpace (h : isSpace c) : foldCase c = c := by
  simp only [isSpace, Bool.or_eq_true, Bool.and_eq_true, decide_eq_true_eq, List.mem_cons,
    List.not_mem_nil, or_false] at h
  rw [foldCase, if_neg (by omega), if_neg (by omega), if_neg (by omega), toLower_eq_self (by omega)]

end FoldCase

section Words

def Named (names : List String) (name : List Char) : Prop :=
  name.map foldCase ∈ names.map String.toList

instance (names : List String) (name : List Char) : Decidable (Named names name) :=
  inferInstanceAs (Decidable (_ ∈ _))

def wordAlts (ahead behind : List String) : Regex Char :=
  alts (ahead.map ignoreCase ++ apiKey :: behind.map ignoreCase)

def apiKeys : List String := ["api-key", "api_key", "apikey"]

variable {names : List String} {name cs : List Char} {c d : Cursor Char}

lemma Named.ne_nil (h : Named names name) (hnames : ∀ s ∈ names, s ≠ "") : name ≠ [] := by
  rintro rfl
  obtain ⟨s, hs, heq⟩ := List.mem_map.mp h
  exact hnames s hs (String.toList_eq_nil_iff.mp heq)

lemma named_append {names' : List String} : Named (names ++ names') name ↔
    Named names name ∨ Named names' name := by
  rw [Named, List.map_append, List.mem_append]
  rfl

lemma mem_run_ignoreCase {s : String} :
    d ∈ run (ignoreCase s) c ↔ ∃ m, m.map foldCase = s.toList ∧ c.Takes m d := by
  have hrow : ignoreCase s = seqs ((s.toList.map fun a => (foldCase · == a)).map one) := by
    rw [List.map_map]
    rfl
  have hchars : ∀ m : List Char, List.Forall₂ (fun (p : Char → Bool) a => p a = true)
      (s.toList.map fun a => (foldCase · == a)) m ↔ m.map foldCase = s.toList := by
    intro m
    simp only [List.forall₂_map_left_iff, beq_iff_eq]
    rw [← List.forall₂_eq_eq_eq, List.forall₂_map_left_iff]
    exact ⟨List.Forall₂.flip, List.Forall₂.flip⟩
  rw [hrow, mem_run_row]
  simp only [hchars]

lemma named_apiKey {m : List Char} : Named apiKeys m ↔
    ∃ api between key, m = api ++ (between ++ key) ∧ api.map foldCase = "api".toList ∧
    between ∈ [['-'], ['_'], []] ∧ key.map foldCase = "key".toList := by
  have hself : ∀ between ∈ [['-'], ['_'], []], between.map foldCase = between := by decide
  have hback : ∀ between ∈ [['-'], ['_'], []], ∀ m : List Char, m.map foldCase = between →
      m = between := by
    intro between hb m hm
    have heq : m.map foldCase = m.map id := by
      refine List.map_congr_left fun c hc => (eq_of_foldCase rfl ?_).symm
      have hmem : foldCase c ∈ between := hm ▸ List.mem_map_of_mem hc
      have hall : ∀ between ∈ [['-'], ['_'], []], ∀ a ∈ between, a.isLower = false := by decide
      exact hall between hb _ hmem
    rw [← hm, heq, List.map_id]
  constructor
  · intro h
    have hsplit : ∃ between ∈ [['-'], ['_'], []],
        m.map foldCase = "api".toList ++ (between ++ "key".toList) := by
      simpa [Named, apiKeys] using h
    obtain ⟨between, hb, hm⟩ := hsplit
    obtain ⟨api, m, rfl, hapi, hm⟩ := List.map_eq_append_iff.mp hm
    obtain ⟨between', key, rfl, hb', hkey⟩ := List.map_eq_append_iff.mp hm
    exact ⟨api, between', key, rfl, hapi, hback between hb between' hb' ▸ hb, hkey⟩
  · rintro ⟨api, between, key, rfl, hapi, hb, hkey⟩
    rw [Named, List.map_append, List.map_append, hapi, hkey, hself between hb]
    revert between
    decide

lemma mem_run_apiKey : d ∈ run apiKey c ↔ ∃ m, Named apiKeys m ∧ c.Takes m d := by
  have hbetween : ∀ m : List Char, (∀ a ∈ m, decide (a ∈ ['_', '-'])) ∧ 0 ≤ m.length ∧
      (∀ h ∈ some 1, m.length ≤ h) ↔ m ∈ [['-'], ['_'], []] := by
    intro m
    rcases m with _ | ⟨a, _ | ⟨b, m⟩⟩
    · simp
    · simp [or_comm]
    · simp
  simp only [apiKey, mem_run_seqs_cons, mem_run_seqs_nil, mem_run_ignoreCase, mem_run_many,
    named_apiKey]
  constructor
  · rintro ⟨e, ⟨api, hapi, he⟩, f, ⟨between, hb, hlo, hhi, hf⟩, g, ⟨key, hkey, hg⟩, rfl⟩
    exact ⟨_, ⟨api, between, key, rfl, hapi, (hbetween between).mp ⟨hb, hlo, hhi⟩, hkey⟩,
      he.trans (hf.trans hg)⟩
  · rintro ⟨m, ⟨api, between, key, rfl, hapi, hb, hkey⟩, hd⟩
    obtain ⟨hb, hlo, hhi⟩ := (hbetween between).mpr hb
    obtain ⟨as, hr, rfl⟩ := Cursor.takes_iff.mp hd
    rw [List.append_assoc, List.append_assoc] at hr
    refine ⟨_, ⟨api, hapi, Cursor.takes_iff.mpr ⟨_, hr, rfl⟩⟩, _, ⟨between, hb, hlo, hhi,
      Cursor.takes_iff.mpr ⟨_, rfl, rfl⟩⟩, _, ⟨key, hkey, Cursor.takes_iff.mpr ⟨_, rfl, rfl⟩⟩, ?_⟩
    simp

lemma mem_run_wordAlts {ahead behind : List String} : d ∈ run (wordAlts ahead behind) c ↔
    ∃ m, Named (ahead ++ (apiKeys ++ behind)) m ∧ c.Takes m d := by
  have hwords : ∀ names : List String, (∃ r ∈ names.map ignoreCase, d ∈ run r c) ↔
      ∃ m, Named names m ∧ c.Takes m d := by
    intro names
    constructor
    · rintro ⟨r, hr, hd⟩
      obtain ⟨s, hs, rfl⟩ := List.mem_map.mp hr
      obtain ⟨m, hm, hd⟩ := mem_run_ignoreCase.mp hd
      exact ⟨m, List.mem_map.mpr ⟨s, hs, hm.symm⟩, hd⟩
    · rintro ⟨m, hm, hd⟩
      obtain ⟨s, hs, heq⟩ := List.mem_map.mp hm
      exact ⟨_, List.mem_map_of_mem hs, mem_run_ignoreCase.mpr ⟨m, heq.symm, hd⟩⟩
  rw [wordAlts, mem_run_alts]
  simp only [List.mem_append, List.mem_cons, or_and_right, exists_or, exists_eq_left, hwords,
    mem_run_apiKey, named_append]

end Words

section Classes

def isTokenChar : Char → Bool := noneOf [',', ';']

variable {cs : List Char} {a : Char}

lemma isSpace_of_noneOf (h : noneOf cs a) : isSpace a = false := by
  rw [noneOf, Bool.and_eq_true, Bool.not_eq_true'] at h
  exact h.1

lemma not_mem_of_noneOf (h : noneOf cs a) : a ∉ cs := by
  rw [noneOf, Bool.and_eq_true, decide_eq_true_eq] at h
  exact h.2

lemma not_noneOf_of_isSpace (h : isSpace a) : noneOf cs a = false := by
  simp [noneOf, h]

lemma noneOf_mono {cs' : List Char} (hsub : ∀ b ∈ cs', b ∈ cs) (h : noneOf cs a) :
    noneOf cs' a := by
  have hm : a ∉ cs' := fun hm => not_mem_of_noneOf h (hsub a hm)
  simp [noneOf, isSpace_of_noneOf h, hm]

lemma noneOf_of_foldCase (hcs : ∀ b ∈ cs, foldCase b = b) (h : noneOf cs (foldCase a)) :
    noneOf cs a := by
  by_contra hn
  rw [noneOf, Bool.and_eq_true, Bool.not_eq_true', decide_eq_true_eq, not_and_or, not_not,
    Bool.not_eq_false] at hn
  have hfold : foldCase a = a := by
    rcases hn with hn | hn
    · exact foldCase_of_isSpace hn
    · exact hcs a hn
  rw [hfold] at h
  rcases hn with hn | hn
  · rw [isSpace_of_noneOf h] at hn
    cases hn
  · exact not_mem_of_noneOf h hn

variable {names : List String} {name : List Char}

lemma Named.noneOf (h : Named names name) (hcs : ∀ b ∈ cs, foldCase b = b)
    (hnames : ∀ s ∈ names, s.toList.all (noneOf cs)) : ∀ a ∈ name, noneOf cs a := by
  intro a ha
  obtain ⟨s, hs, heq⟩ := List.mem_map.mp h
  refine noneOf_of_foldCase hcs (List.all_eq_true.mp (hnames s hs) _ ?_)
  rw [heq]
  exact List.mem_map_of_mem ha

lemma over_ignoreCase {s : String} (hcs : ∀ b ∈ cs, foldCase b = b)
    (hs : s.toList.all (noneOf cs)) : (ignoreCase s).Over (fun c => noneOf cs c) := by
  refine over_seqs.mpr fun r hr => ?_
  obtain ⟨a, ha, rfl⟩ := List.mem_map.mp hr
  intro c hc
  refine noneOf_of_foldCase hcs ?_
  rw [eq_of_beq hc]
  exact List.all_eq_true.mp hs a ha

lemma over_wordAlts {ahead behind : List String} (hcs : ∀ b ∈ cs, foldCase b = b)
    (hs : ∀ s ∈ ahead ++ behind, s.toList.all (noneOf cs))
    (hkey : "api_-key".toList.all (noneOf cs)) :
    (wordAlts ahead behind).Over (fun c => noneOf cs c) := by
  have hchars : ∀ a ∈ "api_-key".toList, noneOf cs a := fun a ha => List.all_eq_true.mp hkey a ha
  refine over_alts.mpr fun r hr => ?_
  rcases List.mem_append.mp hr with hr | hr
  · obtain ⟨s, hmem, rfl⟩ := List.mem_map.mp hr
    exact over_ignoreCase hcs (hs s (List.mem_append_left _ hmem))
  · rcases List.mem_cons.mp hr with rfl | hr
    · have hapi : "api".toList.all (noneOf cs) :=
        List.all_eq_true.mpr fun a ha => hchars a (by revert a; decide)
      have hend : "key".toList.all (noneOf cs) :=
        List.all_eq_true.mpr fun a ha => hchars a (by revert a; decide)
      have hbetween : (many (· ∈ ['_', '-']) 0 (some 1) : Regex Char).Over
          (fun c => noneOf cs c) := by
        intro a ha
        have hboth : ∀ b ∈ ['_', '-'], b ∈ "api_-key".toList := by decide
        exact hchars a (hboth a (by simpa using ha))
      refine over_seqs.mpr ?_
      simp only [List.forall_mem_cons]
      exact ⟨over_ignoreCase hcs hapi, hbetween, over_ignoreCase hcs hend, by simp⟩
    · obtain ⟨s, hmem, rfl⟩ := List.mem_map.mp hr
      exact over_ignoreCase hcs (hs s (List.mem_append_right _ hmem))

end Classes

section Word

/-- What `\w` is documented to take of the ASCII characters and of the blanks. -/
structure WordClass (word : Char → Bool) : Prop where
  ascii : ∀ c : Char, c.toNat < 128 → word c = asciiWord c
  blank : ∀ c, isSpace c → word c = false

lemma toNat_lt_of_asciiWord {c : Char} (h : asciiWord c) : c.toNat < 128 := by
  rw [asciiWord] at h
  delta Char.isAlphanum Char.isAlpha Char.isUpper Char.isLower Char.isDigit at h
  simp only [Bool.or_eq_true, Bool.and_eq_true, decide_eq_true_eq, UInt32.le_iff_toNat_le,
    beq_iff_eq] at h
  rcases h with ((⟨-, h⟩ | ⟨-, h⟩) | ⟨-, h⟩) | rfl
  all_goals first | exact h.trans_lt (by decide) | decide

lemma wordClass_asciiWord : WordClass asciiWord where
  ascii _ _ := rfl
  blank c hc := by
    have hchars : ∀ n : Fin 128, isSpace (Char.ofNat n) → asciiWord (Char.ofNat n) = false := by
      decide +kernel
    by_contra hw
    have hn := hchars ⟨c.toNat, toNat_lt_of_asciiWord (by simpa using hw)⟩
    rw [Char.ofNat_toNat] at hn
    exact hw (hn hc)

variable {word : Char → Bool} (h : WordClass word)

include h

lemma WordClass.noneOf {cs : List Char} (hcs : ∀ b ∈ cs, b.toNat < 128 ∧ asciiWord b = false) :
    ∀ a, word a → noneOf cs a := by
  intro a ha
  have hblank : isSpace a = false := by
    by_contra hb
    rw [h.blank a (by simpa using hb)] at ha
    cases ha
  have hmem : a ∉ cs := by
    intro hm
    obtain ⟨hlt, hw⟩ := hcs a hm
    rw [h.ascii a hlt, hw] at ha
    cases ha
  simp [Logging.noneOf, hblank, hmem]

end Word

section Patterns

def headerAlts : Regex Char :=
  wordAlts ["authorization", "proxy-authorization", "x-api-key"] ["cookie", "set-cookie"]

def keyAlts : Regex Char :=
  wordAlts ["password", "passwd", "secret", "credential", "kek", "token"] []

def sepRegex (isSign : Char → Bool) : Regex Char :=
  seqs [many isSpace 0 none, one isSign, many isSpace 0 none]

def isHeaderSign (c : Char) : Bool := c ∈ [':', '=']

def schemeAlts : Regex Char :=
  alts [seq (ignoreCase "bearer") (many isSpace 1 none),
    seq (ignoreCase "basic") (many isSpace 1 none)]

def isBearerChar (c : Char) : Bool :=
  (foldCase c).isAlphanum || c ∈ ['.', '_', '~', '+', '/', '=', '-']

def keyRegex (word : Char → Bool) : Regex Char :=
  seqs [boundary word, many (isNameChar word) 0 none, keyAlts, many (isNameChar word) 0 none]

def isQuote (c : Char) : Bool := c ∈ ['"', '\'']

def isValueChar : Char → Bool := noneOf ['"', '\'', ',', ';']

variable (word : Char → Bool)

lemma headerPattern_regex :
    (headerPattern word).regex = seqs [group "name" (seqs [boundary word, headerAlts]),
      group "sep" (sepRegex isHeaderSign), optional schemeAlts, many isTokenChar 1 none] := rfl

lemma bearerPattern_regex : (bearerPattern word).regex = seqs [boundary word,
      group "scheme" (alts [ignoreCase "bearer", ignoreCase "basic"]), many isSpace 1 none,
      many isBearerChar 8 none] := rfl

lemma assignmentPattern_regex : (assignmentPattern word).regex = seqs [group "key" (keyRegex word),
      group "sep" (sepRegex (· == '=')), many isQuote 0 (some 1), many isValueChar 1 none,
      many isQuote 0 (some 1)] := rfl

end Patterns

end AstropathRelay.Logging
