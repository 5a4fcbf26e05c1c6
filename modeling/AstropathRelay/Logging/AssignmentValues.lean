import AstropathRelay.Logging.HeaderValues

/-! The value of an assignment between quotes. -/

namespace AstropathRelay.Logging

open Lib Lib.Regex

section Match

def keyFragments : List String :=
  ["password", "passwd", "secret", "credential", "kek", "token", "api-key", "api_key", "apikey"]

def IsKey (word : Char → Bool) (key : List Char) : Prop :=
  (∀ a ∈ key, isNameChar word a) ∧ ∃ ahead fragment behind, key = ahead ++ (fragment ++ behind) ∧
    Named keyFragments fragment

def IsValue (value : List Char) : Prop := value ≠ [] ∧ ∀ a ∈ value, isValueChar a

instance (value : List Char) : Decidable (IsValue value) := inferInstanceAs (Decidable (_ ∧ _))

def isKeyPart : Char → Bool := noneOf ['=']

def closing (rest : List Char) : List Char := (rest.take 1).filter isQuote

def unclosed (rest : List Char) : List Char := rest.drop (closing rest).length

variable {word : Char → Bool} {c d : Cursor Char} {before key sep token rest : List Char}

lemma mem_run_keyAlts : d ∈ run keyAlts c ↔ ∃ m, Named keyFragments m ∧ c.Takes m d :=
  mem_run_wordAlts

lemma isSpace_of_isSign {a : Char} (h : a == '=') : isSpace a = false := by
  rw [eq_of_beq h]
  decide

lemma isKeyPart_of_isSign {a : Char} (h : a == '=') : isKeyPart a = false := by
  rw [eq_of_beq h]
  decide

lemma IsSep.isHeaderSign (h : IsSep (· == '=') sep) : IsSep isHeaderSign sep := by
  obtain ⟨blanks, sign, blanks', rfl, hs, hb, hb'⟩ := h
  exact ⟨blanks, sign, blanks', rfl, eq_of_beq hs ▸ by decide, hb, hb'⟩

lemma IsSep.noneOf (h : IsSep (· == '=') sep) : ∀ a ∈ sep, noneOf ['=', '"'] a = false := by
  obtain ⟨blanks, sign, blanks', rfl, hs, hb, hb'⟩ := h
  intro a ha
  simp only [List.mem_append, List.mem_cons] at ha
  rcases ha with ha | rfl | ha
  · exact not_noneOf_of_isSpace (hb a ha)
  · rw [eq_of_beq hs]
    decide
  · exact not_noneOf_of_isSpace (hb' a ha)

lemma IsKey.ne_nil (h : IsKey word key) : key ≠ [] := by
  obtain ⟨-, ahead, fragment, behind, rfl, hfragment⟩ := h
  have hne := hfragment.ne_nil (by decide)
  simp [hne]

lemma isKeyPart_of_isNameChar (hword : WordClass word) {a : Char} (h : isNameChar word a) :
    isKeyPart a := by
  rcases Bool.or_eq_true _ _ ▸ h with h | h
  · exact hword.noneOf (by decide) a h
  · have hall : ∀ a ∈ ['.', '-'], isKeyPart a := by decide
    exact hall a (by simpa using h)

lemma IsKey.keyPart (hword : WordClass word) (h : IsKey word key) : ∀ a ∈ key, isKeyPart a :=
  fun a ha => isKeyPart_of_isNameChar hword (h.1 a ha)

lemma IsKey.not_colon (hword : WordClass word) (h : IsKey word key) : ':' ∉ key := by
  intro hm
  have hcolon := h.1 ':' hm
  rw [isNameChar, hword.ascii ':' (by decide)] at hcolon
  exact absurd hcolon (by decide)

lemma keyPart_of_run (hword : WordClass word) (h : d ∈ run (keyRegex word) c) :
    ∃ m, c.Takes m d ∧ ∀ a ∈ m, isKeyPart a := by
  simp only [keyRegex, mem_run_seqs_cons, mem_run_seqs_nil, mem_run_boundary, mem_run_many,
    mem_run_keyAlts] at h
  obtain ⟨c₁, ⟨-, rfl⟩, c₂, ⟨m, hm, -, -, h₁⟩, c₃, ⟨fragment, hf, h₂⟩, c₄,
      ⟨m', hm', -, -, h₃⟩, rfl⟩ := h
  refine ⟨_, h₁.trans (h₂.trans h₃), fun a ha => ?_⟩
  rcases List.mem_append.mp ha with ha | ha
  · exact isKeyPart_of_isNameChar hword (hm a ha)
  · rcases List.mem_append.mp ha with ha | ha
    · exact hf.noneOf (by decide) (by decide) a ha
    · exact isKeyPart_of_isNameChar hword (hm' a ha)

lemma mem_run_keyRegex (hkey : IsKey word key) (hedge : before.head?.any word != key.head?.any word)
    (t : List Char) : (⟨key.reverse ++ before, t, []⟩ : Cursor Char) ∈ run (keyRegex word) ⟨before,
      key ++ t, []⟩ := by
  obtain ⟨b, bs, hb⟩ := List.exists_cons_of_ne_nil hkey.ne_nil
  obtain ⟨hchars, ahead, fragment, behind, rfl, hf⟩ := hkey
  simp only [keyRegex, mem_run_seqs_cons, mem_run_seqs_nil, mem_run_boundary, mem_run_many,
    mem_run_keyAlts]
  have hahead : ∀ a ∈ ahead, isNameChar word a := fun a ha => hchars a (by simp [ha])
  have hbehind : ∀ a ∈ behind, isNameChar word a := fun a ha => hchars a (by simp [ha])
  refine ⟨_, ⟨?_, rfl⟩, _, ⟨ahead, hahead, Nat.zero_le _,
    by simp, Cursor.takes_iff.mpr ⟨fragment ++ (behind ++ t), by simp, rfl⟩⟩,
    _, ⟨fragment, hf, Cursor.takes_iff.mpr ⟨behind ++ t, rfl, rfl⟩⟩,
    _, ⟨behind, hbehind, Nat.zero_le _, by simp, Cursor.takes_iff.mpr ⟨t, rfl, rfl⟩⟩, by simp⟩
  rw [Cursor.atBoundary, hb]
  rw [hb] at hedge
  exact hedge

lemma closing_cases (h : rest.head?.any isValueChar = false) :
    (∃ q t, rest = q :: t ∧ isQuote q ∧ closing rest = [q] ∧ unclosed rest = t) ∨
      closing rest = [] ∧ unclosed rest = rest ∧ rest.head?.any isTokenChar = false := by
  cases rest with
  | nil => exact .inr ⟨rfl, rfl, rfl⟩
  | cons a t =>
    by_cases ha : isQuote a
    · exact .inl ⟨a, t, rfl, ha, by simp [closing, ha], by simp [unclosed, closing, ha]⟩
    · refine .inr ⟨by simp [closing, ha], by simp [unclosed, closing, ha], ?_⟩
      have hvalue : isValueChar a = false := h
      rw [isQuote, decide_eq_true_eq] at ha
      change isTokenChar a = false
      by_contra htoken
      rw [Bool.not_eq_false] at htoken
      have hm : a ∉ ['"', '\'', ',', ';'] := by
        have hsep := not_mem_of_noneOf htoken
        simp only [List.mem_cons, List.not_mem_nil, or_false, not_or] at ha hsep ⊢
        exact ⟨ha.1, ha.2, hsep⟩
      rw [isValueChar, noneOf, isSpace_of_noneOf htoken] at hvalue
      simp [hm] at hvalue

lemma closing_unclosed (h : rest.head?.any isValueChar = false) :
    closing rest ++ unclosed rest = rest := by
  rcases closing_cases h with ⟨q, t, rfl, -, hclosing, hunclosed⟩ | ⟨hclosing, hunclosed, -⟩
  · rw [hclosing, hunclosed]
    rfl
  · rw [hclosing, hunclosed, List.nil_append]

lemma head_run_closing (before rest : List Char) (groups : List (String × List Char)) :
    (run (many isQuote 0 (some 1)) ⟨before, rest, groups⟩).head? =
      some ⟨(closing rest).reverse ++ before, unclosed rest, groups⟩ := by
  rw [head_run_option]
  cases rest with
  | nil => rfl
  | cons a t =>
    by_cases ha : isQuote a
    · simp [closing, unclosed, ha, Cursor.advance]
    · simp [closing, unclosed, ha]

lemma head_run_quoted (htoken : IsValue token) (hrest : rest.head?.any isValueChar = false)
    (before : List Char) (groups : List (String × List Char)) :
    (run (seqs [many isQuote 0 (some 1), many isValueChar 1 none, many isQuote 0 (some 1)])
      ⟨before, '"' :: (token ++ rest), groups⟩).head? =
      some ⟨(closing rest).reverse ++ (token.reverse ++ '"' :: before), unclosed rest, groups⟩ := by
  have hopening : (run (many isQuote 0 (some 1)) ⟨before, '"' :: (token ++ rest), groups⟩).head? =
      some ⟨'"' :: before, token ++ rest, groups⟩ := head_run_closing _ _ _
  have hlast : ∀ before, (run (seqs [many isQuote 0 (some 1)]) ⟨before, rest, groups⟩).head? =
      some ⟨(closing rest).reverse ++ before, unclosed rest, groups⟩ := by
    intro before
    rw [run_seqs_singleton]
    exact head_run_closing _ _ _
  exact head_run_seq hopening (head_run_seq
    (head_run_stretch htoken.2 (List.length_pos_of_ne_nil htoken.1) hrest _ _) (hlast _))

lemma matchAt_assignment (hword : WordClass word) (hkey : IsKey word key)
    (hedge : before.head?.any word != key.head?.any word) (hsep : IsSep (· == '=') sep)
    (htoken : IsValue token) (hrest : rest.head?.any isValueChar = false) :
    (assignmentPattern word).matchAt before (key ++ (sep ++ '"' :: (token ++ rest))) =
      some ⟨(closing rest).reverse ++ (token.reverse ++ '"' ::
      (sep.reverse ++ (key.reverse ++ before))), unclosed rest, [("sep", sep), ("key", key)]⟩ :=
  head_run_named (r := keyRegex word) (p := isKeyPart) (fun _ => not_noneOf_of_isSpace)
    (fun _ ha => ⟨isKeyPart_of_isSign ha, isSpace_of_isSign ha⟩) (fun he => keyPart_of_run hword he)
    (mem_run_keyRegex hkey hedge _) (hkey.keyPart hword) hsep rfl (head_run_quoted htoken hrest _ _)

end Match

section Bearer

variable {word : Char → Bool} {c d : Cursor Char} {before key sep token text t : List Char}

def BearerText (text : List Char) : Prop :=
  ∃ scheme blanks creds rest, text = scheme ++ (blanks ++ (creds ++ rest)) ∧
    Named schemes scheme ∧ IsBlanks blanks ∧ 8 ≤ creds.length ∧ ∀ a ∈ creds, isBearerChar a

lemma bearerText_of_run (h : d ∈ (bearerPattern word).regex.run c) : BearerText c.rest := by
  have hschemes : ∀ {c d : Cursor Char},
      d ∈ run (alts [ignoreCase "bearer", ignoreCase "basic"]) c →
      ∃ m, Named schemes m ∧ c.Takes m d := by
    intro c d hd
    obtain ⟨r, hr, hd⟩ := mem_run_alts.mp hd
    have hall : ∀ r ∈ [ignoreCase "bearer", ignoreCase "basic"], ∃ s ∈ schemes,
        r = ignoreCase s := by
      simp only [List.forall_mem_cons]
      exact ⟨⟨_, by decide, rfl⟩, ⟨_, by decide, rfl⟩, by simp⟩
    obtain ⟨s, hs, rfl⟩ := hall r hr
    obtain ⟨m, hm, hd⟩ := mem_run_ignoreCase.mp hd
    exact ⟨m, List.mem_map.mpr ⟨s, hs, hm.symm⟩, hd⟩
  rw [bearerPattern_regex] at h
  simp only [mem_run_seqs_cons, mem_run_seqs_nil, mem_run_boundary, mem_run_group, mem_run_many]
    at h
  obtain ⟨c₁, ⟨-, rfl⟩, c₂, ⟨e, he, rfl⟩, c₃, ⟨blanks, hb, hlo, -, h₂⟩, c₄,
      ⟨creds, hc, hlo', -, h₃⟩, rfl⟩ := h
  obtain ⟨scheme, hs, h₁⟩ := hschemes he
  refine ⟨scheme, blanks, creds, d.rest, ?_, hs, ⟨List.ne_nil_of_length_pos hlo, hb⟩, hlo', hc⟩
  have hr₂ : e.rest = blanks ++ c₃.rest := h₂.rest
  rw [h₁.rest, hr₂, h₃.rest]

lemma isSpace_of_isBearerChar {a : Char} (h : isBearerChar a) : isSpace a = false := by
  by_contra hs
  have hspace : isSpace a := by simpa using hs
  rw [isBearerChar, foldCase_of_isSpace hspace] at h
  rcases Bool.or_eq_true _ _ ▸ h with h | h
  · have hword : asciiWord a := by rw [asciiWord, h]; rfl
    rw [wordClass_asciiWord.blank a hspace] at hword
    cases hword
  · have hall : ∀ a ∈ ['.', '_', '~', '+', '/', '=', '-'], isSpace a = false := by decide
    rw [hall a (by simpa using h)] at hspace
    cases hspace

lemma BearerText.scheme {y rest : List Char} (h : BearerText (y ++ rest)) (cs : List Char)
    (hcs : ∀ a ∈ cs, foldCase a = a) (hschemes : ∀ s ∈ schemes, s.toList.all (noneOf cs))
    (hy : ∀ a ∈ y, noneOf cs a) (hrest : rest.head?.any (noneOf cs) = false) :
    y ≠ [] ∧ ∃ blanks creds u, rest = blanks ++ (creds ++ u) ∧
      IsBlanks blanks ∧ 8 ≤ creds.length ∧ ∀ a ∈ creds, isBearerChar a := by
  obtain ⟨scheme, blanks, creds, u, htext, hs, hb, hlen, hc⟩ := h
  obtain ⟨b, bs, rfl⟩ := List.exists_cons_of_ne_nil hb.1
  have hstop : ((b :: bs) ++ (creds ++ u)).head?.any (noneOf cs) = false :=
    not_noneOf_of_isSpace (hb.2 b List.mem_cons_self)
  obtain ⟨rfl, rfl⟩ := stretch_unique hy hrest (hs.noneOf hcs hschemes) hstop htext
  exact ⟨hs.ne_nil (by decide), b :: bs, creds, u, rfl, hb, hlen, hc⟩

lemma not_bearerText_cons {a : Char} (ha : noneOf ['=', '"'] a = false) :
    ¬ BearerText (a :: t) := fun h =>
  (h.scheme ['=', '"'] (y := []) (by decide) (by decide) (by simp) (by simpa using ha)).1 rfl

lemma not_bearerText_quote {q : Char} {y : List Char} (hq : isQuote q)
    (hy : ∀ a ∈ y, noneOf ['"', '\''] a) : ¬ BearerText (y ++ q :: t) := by
  intro h
  have hquotes : ∀ q ∈ ['"', '\''], noneOf ['"', '\''] q = false ∧ isSpace q = false := by decide
  obtain ⟨hstop, hspace⟩ := hquotes q (by simpa [isQuote] using hq)
  obtain ⟨-, blanks, creds, u, hrest, hb, -, -⟩ :=
    h.scheme _ (by decide) (by decide) hy (by simpa using hstop)
  obtain ⟨b, bs, rfl⟩ := List.exists_cons_of_ne_nil hb.1
  obtain rfl : q = b := (List.cons.inj hrest).1
  rw [hb.2 q List.mem_cons_self] at hspace
  cases hspace

lemma not_bearerText_key {k : List Char} (hk : ∀ a ∈ k, isKeyPart a) (hsep : IsSep (· == '=') sep) :
    ¬ BearerText (k ++ (sep ++ '"' :: t)) := by
  intro h
  have hstop := hsep.stop (p := isKeyPart) (fun _ => not_noneOf_of_isSpace)
    (fun _ => isKeyPart_of_isSign) ('"' :: t)
  obtain ⟨-, blanks, creds, u, hrest, hb, hlen, hc⟩ := h.scheme _ (by decide) (by decide) hk hstop
  obtain ⟨e, f, es, rfl⟩ : ∃ e f es, creds = e :: f :: es := by
    rcases creds with _ | ⟨e, _ | ⟨f, es⟩⟩
    · simp at hlen
    · simp at hlen
    · exact ⟨e, f, es, rfl⟩
  obtain ⟨bl, sign, bl', rfl, hsign, hbl, hbl'⟩ := hsep
  rw [List.append_assoc] at hrest
  obtain ⟨-, hcreds⟩ := stretch_unique hbl (by simp [isSpace_of_isSign hsign]) hb.2
    (by simp [isSpace_of_isBearerChar (hc e (by simp))]) hrest
  have hf := hc f (by simp)
  cases bl' with
  | nil =>
    obtain rfl : '"' = f := (List.cons.inj (List.cons.inj hcreds).2).1
    exact absurd hf (by decide)
  | cons a bl' =>
    obtain rfl : a = f := (List.cons.inj (List.cons.inj hcreds).2).1
    have ha := hbl' a List.mem_cons_self
    rw [isSpace_of_isBearerChar hf] at ha
    cases ha

lemma absent_bearer {q : Char} (hq : isQuote q) (hword : WordClass word) (hkey : IsKey word key)
    (hsep : IsSep (· == '=') sep) (htoken : IsValue token) :
    (bearerPattern word).Absent before (key ++ (sep ++ '"' :: token) ++ [q]) t := by
  intro n hn
  cases hm : (bearerPattern word).matchAt _ _ with
  | none => rfl
  | some d =>
    exfalso
    have htext := bearerText_of_run (Pattern.mem_run_of_matchAt hm)
    have hsplit := List.take_append_drop n (key ++ (sep ++ '"' :: token) ++ [q])
    have hne : List.drop n (key ++ (sep ++ '"' :: token) ++ [q]) ≠ [] := by simpa using hn
    generalize List.drop n (key ++ (sep ++ '"' :: token) ++ [q]) = y at htext hsplit hne
    generalize List.take n (key ++ (sep ++ '"' :: token) ++ [q]) = x at htext hsplit
    obtain ⟨y, rfl, hxy⟩ := exists_of_concat hsplit.symm hne
    have hbegins : BearerText (y ++ q :: t) := by simpa using htext
    rcases List.append_eq_append_iff.mp hxy with ⟨x', rfl, hrest⟩ | ⟨k, rfl, rfl⟩
    · rcases List.append_eq_append_iff.mp hrest.symm with ⟨s, rfl, rfl⟩ | ⟨x, rfl, hquoted⟩
      · cases s with
        | nil => exact not_bearerText_cons (by decide) hbegins
        | cons a s => exact not_bearerText_cons (hsep.noneOf a (by simp)) hbegins
      · cases x with
        | nil =>
          obtain rfl : y = '"' :: token := hquoted.symm
          exact not_bearerText_cons (by decide) hbegins
        | cons a x =>
          obtain ⟨-, rfl⟩ := List.cons.inj hquoted
          exact not_bearerText_quote hq
            (fun a ha => noneOf_mono (by decide) (htoken.2 a (by simp [ha]))) hbegins
    · have hk : ∀ a ∈ k, isKeyPart a := fun a ha => hkey.keyPart hword a (by simp [ha])
      rw [List.append_assoc, List.append_assoc] at hbegins
      exact not_bearerText_key hk hsep hbegins

end Bearer

section Assignment

variable {word : Char → Bool} {P : Pattern Char}
  {pre key sep value value' token rest rest' t u w : List Char}

def mark (rest : List Char) : Char := (closing rest).headD '"'

def Follows (rest t : List Char) : Prop := closing rest = [] → t.head?.any isTokenChar = false

lemma follows_unclosed (hrest : rest.head?.any isValueChar = false) :
    Follows rest (unclosed rest) := by
  intro hnil
  rcases closing_cases hrest with ⟨q, t, -, -, hq, -⟩ | ⟨-, hunclosed, hstop⟩
  · rw [hnil] at hq
    cases hq
  · rwa [hunclosed]

lemma scan_closing
    (hP : ∀ b, isTokenChar b = false → ∀ before rest, P.matchAt before (b :: rest) = none)
    (hrest : rest.head?.any isValueChar = false) (ht : Follows rest t) (u : List Char) :
    P.Scan ((closing rest).reverse ++ u) t (P.behind [mark rest] t) := by
  rcases closing_cases hrest with ⟨q, -, -, -, hq, -⟩ | ⟨hnil, -, -⟩
  · rw [mark, hq]
    exact (P.scan_behind [q] t).under (List.cons_ne_nil q []) u
  · refine Pattern.scan_of_none (fun before hne => ?_) _
    obtain ⟨b, bs, rfl⟩ := List.exists_cons_of_ne_nil hne
    exact hP b (by simpa using ht hnil) before bs

lemma Follows.behind
    (hP : ∀ b, isTokenChar b = false → ∀ before rest, P.matchAt before (b :: rest) = none)
    (ht : Follows rest t) : Follows rest (P.behind [mark rest] t) := by
  intro hnil
  have hstop := ht hnil
  cases t with
  | nil => rfl
  | cons b t =>
    obtain ⟨out, hout⟩ := (P.scan_behind [mark rest] (b :: t)).of_cons (hP b hstop _ _)
    rw [hout]
    exact hstop

lemma behind_within
    (hP : ∀ b, isTokenChar b = false → ∀ before rest, P.matchAt before (b :: rest) = none)
    (hrest : rest.head?.any isValueChar = false) (ht : Follows rest t)
    (habsent : P.Absent pre.reverse (w ++ closing rest) t) :
    P.behind pre ((w ++ closing rest) ++ t) = (w ++ closing rest) ++ P.behind [mark rest] t := by
  have hscan := scan_closing hP hrest ht (w.reverse ++ pre.reverse)
  refine (P.scan_behind pre _).unique (habsent.scan ?_)
  rwa [List.reverse_append, List.append_assoc]

lemma closing_append (hrest : rest.head?.any isValueChar = false) (ht : Follows rest t) :
    closing (closing rest ++ t) = closing rest ∧ unclosed (closing rest ++ t) = t ∧
      (closing rest ++ t).head?.any isValueChar = false := by
  rcases closing_cases hrest with ⟨q, v, rfl, hq, hclosing, -⟩ | ⟨hnil, -, -⟩
  · rw [hclosing]
    exact ⟨by simp [closing, hq], by simp [unclosed, closing, hq], by simpa using hrest⟩
  · have hstop := ht hnil
    rw [hnil, List.nil_append]
    cases t with
    | nil => exact ⟨rfl, rfl, rfl⟩
    | cons b t =>
      have hb : isTokenChar b = false := by simpa using hstop
      have hquote : isQuote b = false := by
        have hall : ∀ b ∈ ['"', '\''], isTokenChar b := by decide
        by_contra hq
        rw [Bool.not_eq_false] at hq
        rw [hall b (by simpa [isQuote] using hq)] at hb
        cases hb
      have hvalue : isValueChar b = false := by
        by_contra hv
        rw [Bool.not_eq_false] at hv
        have htoken : isTokenChar b := noneOf_mono (by decide) hv
        rw [htoken] at hb
        cases hb
      exact ⟨by simp [closing, hquote], by simp [unclosed, closing, hquote], by simpa using hvalue⟩

def assignedPatterns (word : Char → Bool) : List (Pattern Char) :=
  [dsnPattern, headerPattern word, bearerPattern word, assignmentPattern word]

/-- An assignment in a text, the text from its opening quote on, and what its match leaves of that
once the DSNs are masked. No header begins within it, and no credentials. -/
structure Assigned (word : Char → Bool) (pre key sep value rest : List Char) : Prop where
  isKey : IsKey word key
  isSep : IsSep (· == '=') sep
  clear : Pattern.Clear (assignedPatterns word) pre (key ++ (sep ++ '"' :: value))
  edge : (Pattern.aheads ((assignedPatterns word).take 3) pre (key ++
    (sep ++ '"' :: value))).getLast?.any word != key.head?.any word
  stop : rest.head?.any isValueChar = false
  quoted : ∃ token, IsValue token ∧ exposed sep ('"' :: value) = '"' :: (token ++ rest) ∧
    (headerPattern word).Absent (Pattern.aheads ((assignedPatterns word).take 1) pre (key ++ (sep ++
    '"' :: value))).reverse ((key ++ (sep ++ '"' :: token)) ++ closing rest) (unclosed rest) ∧
    (bearerPattern word).Absent (Pattern.aheads ((assignedPatterns word).take 2) pre (key ++
    (sep ++ '"' :: value))).reverse ((key ++ (sep ++ '"' :: token)) ++
    closing rest) ((headerPattern word).behind [mark rest] (unclosed rest))

def behindQuote (word : Char → Bool) (rest : List Char) : List Char :=
  (bearerPattern word).behind [mark rest] ((headerPattern word).behind [mark rest] (unclosed rest))

lemma follows_behindQuote (hword : WordClass word) (hrest : rest.head?.any isValueChar = false) :
    Follows rest (behindQuote word rest) :=
  ((follows_unclosed hrest).behind fun _ hb _ _ => matchAt_header_stop hword hb).behind fun _ hb =>
    matchAt_bearer_stop hword hb

lemma behind_assignment (hword : WordClass word) (hkey : IsKey word key)
    (hedge : pre.getLast?.any word != key.head?.any word) (hsep : IsSep (· == '=') sep)
    (htoken : IsValue token) (hrest : rest.head?.any isValueChar = false) (ht : Follows rest t) :
    (assignmentPattern word).behind pre (((key ++ (sep ++ '"' :: token)) ++ closing rest) ++ t) =
      key ++ (sep ++ (redacted.toList ++ (assignmentPattern word).behind [mark rest] t)) := by
  obtain ⟨hclosing, hunclosed, hstop⟩ := closing_append hrest ht
  rw [← List.head?_reverse] at hedge
  have hm := matchAt_assignment hword hkey hedge hsep htoken hstop
  have hscan := scan_closing (fun _ hb => matchAt_assignment_stop hword hb) hrest ht
    (token.reverse ++ '"' :: (sep.reverse ++ (key.reverse ++ pre.reverse)))
  rw [hclosing, hunclosed] at hm
  obtain ⟨b, bs, rfl⟩ := List.exists_cons_of_ne_nil hkey.ne_nil
  have hhit := Pattern.Scan.hit hm hscan
  refine ((assignmentPattern word).scan_behind pre _).unique ?_
  simpa [assignmentPattern, Pattern.expand, Pattern.expandPiece, List.lookup_cons] using hhit

lemma Assigned.behinds (hword : WordClass word) (h : Assigned word pre key sep value rest) : ∃ u,
    Pattern.behinds ((assignedPatterns word).take 1) pre (key ++ (sep ++ '"' :: value)) = key ++
    u ++ unclosed rest ∧ Pattern.behinds ((assignedPatterns word).take 2) pre (key ++
      (sep ++ '"' :: value)) = key ++ u ++ (headerPattern word).behind [mark rest] (unclosed rest) ∧
    Pattern.behinds ((assignedPatterns word).take 3) pre (key ++ (sep ++ '"' :: value)) = key ++
    u ++ behindQuote word rest ∧ Pattern.behinds (assignedPatterns word) pre (key ++
      (sep ++ '"' :: value)) = key ++ (sep ++ (redacted.toList ++
      (assignmentPattern word).behind [mark rest] (behindQuote word rest))) := by
  obtain ⟨token, htoken, hexposed, hheader, hbearer⟩ := h.quoted
  have hdsn : dsnPattern.behind pre (key ++ (sep ++ '"' :: value)) =
      ((key ++ (sep ++ '"' :: token)) ++ closing rest) ++ unclosed rest := by
    rw [behind_dsnPattern, sub_dsnPattern_named (h.isKey.not_colon hword) h.isSep.isHeaderSign,
      hexposed, List.append_assoc, closing_unclosed h.stop]
    simp
  have hedge := h.edge
  simp only [assignedPatterns, List.take_succ_cons, List.take_zero, Pattern.behinds, Pattern.aheads,
    hdsn] at hheader hbearer hedge ⊢
  have hbehind := behind_within
    (fun _ hb _ _ => matchAt_header_stop hword hb) h.stop (follows_unclosed h.stop) hheader
  simp only [hbehind] at hbearer hedge ⊢
  have hbehind' := behind_within (fun _ hb _ _ => matchAt_bearer_stop hword hb _ _) h.stop
    ((follows_unclosed h.stop).behind fun _ hb _ _ => matchAt_header_stop hword hb) hbearer
  simp only [hbehind'] at hedge ⊢
  have hassignment :=
    behind_assignment hword h.isKey hedge h.isSep htoken h.stop (follows_behindQuote hword h.stop)
  exact ⟨sep ++ ('"' :: token ++ closing rest),
    by simp, by simp, by simp [behindQuote], hassignment⟩

lemma Assigned.heads (hword : WordClass word) (h : Assigned word pre key sep value rest) (n : ℕ) :
    (Pattern.behinds ((assignedPatterns word).take n) pre (key ++ (sep ++ '"' :: value))).head? =
      key.head? := by
  obtain ⟨token, h₁, h₂, h₃, h₄⟩ := h.behinds hword
  obtain ⟨a, as, rfl⟩ := List.exists_cons_of_ne_nil h.isKey.ne_nil
  match n with
  | 0 => rfl
  | 1 => rw [h₁]; rfl
  | 2 => rw [h₂]; rfl
  | 3 => rw [h₃]; rfl
  | n + 4 =>
    rw [List.take_of_length_le (by simp [assignedPatterns]), h₄]
    rfl

def quotedRemainder (word : Char → Bool) (rest : List Char) : List Char :=
  runPattern.behind ['>'] ((assignmentPattern word).behind [mark rest] (behindQuote word rest))

lemma sub_runPattern_mark (u : List Char) :
    ∃ u', ∀ t, runPattern.sub (u ++ '>' :: t) = u' ++ runPattern.behind ['>'] t := by
  have hreaches : ∀ t, runPattern.Reaches t [] (u ++ ['>']) := by
    intro t
    refine Pattern.reaches_of_apart ?_
    cases t with
    | nil => exact apart_nil
    | cons b t =>
      exact apart_of_edge [_, _] [] (q := fun _ => False) (over_seqs.mp over_runPattern) (by simp)
        (by decide) id
  refine ⟨runPattern.ahead (u ++ ['>']) [], fun t => ?_⟩
  have halike : runPattern.regex.Alike t.head? ([] : List Char).head? := ⟨trivial, trivial, trivial⟩
  have htext : u ++ '>' :: t = (u ++ ['>']) ++ t := by simp
  rw [htext, Pattern.sub_append (hreaches t), Pattern.behind_concat,
    Pattern.ahead_congr halike (hreaches t) (hreaches [])]

lemma scrubChars_assignment_iff (hword : WordClass word) (h : Assigned word pre key sep value rest)
    (h' : Assigned word pre key sep value' rest') : scrubChars word (pre ++
      (key ++ (sep ++ '"' :: value))) = scrubChars word (pre ++ (key ++ (sep ++ '"' :: value'))) ↔
    quotedRemainder word rest = quotedRemainder word rest' := by
  have hheads := fun n => (h.heads hword n).trans (h'.heads hword n).symm
  obtain ⟨-, -, -, -, hbehinds⟩ := h.behinds hword
  obtain ⟨-, -, -, -, hbehinds'⟩ := h'.behinds hword
  obtain ⟨u, hu⟩ := sub_runPattern_mark (Pattern.aheads (assignedPatterns word) pre (key ++
    (sep ++ '"' :: value')) ++ (key ++ (sep ++ "<REDACTED".toList)))
  have hredacted : redacted.toList = "<REDACTED".toList ++ ['>'] := by decide
  have hsub : ∀ t,
      runPattern.sub (Pattern.aheads (assignedPatterns word) pre (key ++ (sep ++ '"' :: value')) ++
      (key ++ (sep ++ (redacted.toList ++ t)))) = u ++ runPattern.behind ['>'] t := by
    intro t
    rw [← hu t, hredacted]
    simp
  have hfold := Pattern.foldl_sub_append h.clear
  have hfold' := Pattern.foldl_sub_append h'.clear
  rw [Pattern.aheads_congr h.clear h'.clear hheads, hbehinds] at hfold
  rw [hbehinds'] at hfold'
  have hscrub : ∀ text : List Char, scrubChars word text =
      runPattern.sub ((assignedPatterns word).foldl (fun text P => P.sub text) text) := fun _ => rfl
  rw [hscrub, hscrub, hfold, hfold', hsub, hsub, List.append_right_inj]
  rfl

end Assignment

end AstropathRelay.Logging
