import AstropathRelay.Logging.Separators

/-! The value of a header up to the end of its token: what stands there does not show. -/

namespace AstropathRelay.Logging

open Lib Lib.Regex

def isNamePart : Char → Bool := noneOf [':', '=']

def headerNames : List String :=
  ["authorization", "proxy-authorization", "x-api-key", "api-key", "api_key", "apikey", "cookie",
    "set-cookie"]

def schemes : List String := ["bearer", "basic"]

section Match

def IsToken (token : List Char) : Prop := token ≠ [] ∧ ∀ a ∈ token, isTokenChar a

def IsBlanks (blanks : List Char) : Prop := blanks ≠ [] ∧ ∀ a ∈ blanks, isSpace a

instance (token : List Char) : Decidable (IsToken token) := inferInstanceAs (Decidable (_ ∧ _))

instance (blanks : List Char) : Decidable (IsBlanks blanks) := inferInstanceAs (Decidable (_ ∧ _))

def IsSep (isSign : Char → Bool) (sep : List Char) : Prop :=
  ∃ blanks sign blanks', sep = blanks ++ sign :: blanks' ∧ isSign sign ∧
    (∀ a ∈ blanks, isSpace a) ∧ ∀ a ∈ blanks', isSpace a

def Schemed (value : List Char) : Prop := ∃ scheme blanks a rest,
  value = scheme ++ (blanks ++ a :: rest) ∧ Named schemes scheme ∧ IsBlanks blanks ∧ isTokenChar a

/-- What the match of a header leaves of its value: it takes a token, and a scheme before it. -/
inductive Taken : List Char → List Char → Prop
  | plain {token rest : List Char} : IsToken token → rest.head?.any isTokenChar = false →
      ¬ Schemed (token ++ rest) → Taken (token ++ rest) rest
  | schemed {scheme blanks token rest : List Char} : Named schemes scheme → IsBlanks blanks →
      IsToken token → rest.head?.any isTokenChar = false →
      Taken (scheme ++ (blanks ++ (token ++ rest))) rest

variable {c d : Cursor Char} {before name sep value rest : List Char}
  {groups : List (String × List Char)}

lemma mem_run_schemeAlts : d ∈ run schemeAlts c ↔ ∃ scheme blanks, Named schemes scheme ∧
    IsBlanks blanks ∧ c.Takes (scheme ++ blanks) d := by
  have hone : ∀ s, d ∈ run (seq (ignoreCase s) (many isSpace 1 none)) c ↔ ∃ scheme blanks,
      scheme.map foldCase = s.toList ∧ IsBlanks blanks ∧ c.Takes (scheme ++ blanks) d := by
    intro s
    simp only [mem_run_seq, mem_run_ignoreCase, mem_run_many]
    constructor
    · rintro ⟨e, ⟨scheme, hs, he⟩, blanks, hb, hlo, -, hd⟩
      exact ⟨scheme, blanks, hs, ⟨List.ne_nil_of_length_pos hlo, hb⟩, he.trans hd⟩
    · rintro ⟨scheme, blanks, hs, ⟨hne, hb⟩, hd⟩
      obtain ⟨as, hr, rfl⟩ := Cursor.takes_iff.mp hd
      rw [List.append_assoc] at hr
      refine ⟨_, ⟨scheme, hs, Cursor.takes_iff.mpr ⟨_, hr, rfl⟩⟩, blanks, hb,
        List.length_pos_of_ne_nil hne, by simp, Cursor.takes_iff.mpr ⟨as, rfl, ?_⟩⟩
      simp
  have hnamed : ∀ m, Named schemes m ↔ m.map foldCase = "bearer".toList ∨
      m.map foldCase = "basic".toList := by
    intro m
    simp only [Named, schemes, List.map_cons, List.map_nil, List.mem_cons,
      List.not_mem_nil, or_false]
  simp only [schemeAlts, mem_run_alts, List.mem_cons, List.not_mem_nil, or_false, exists_eq_left,
    hone, hnamed, or_and_right, exists_or]

lemma Taken.head (h : Taken value rest) : ∃ a as, value = a :: as ∧ isSpace a = false := by
  cases h with
  | @plain token _ ht =>
    obtain ⟨a, as, rfl⟩ := List.exists_cons_of_ne_nil ht.1
    exact ⟨a, as ++ rest, rfl, isSpace_of_noneOf (ht.2 a List.mem_cons_self)⟩
  | @schemed scheme blanks token _ hs =>
    obtain ⟨a, as, rfl⟩ := List.exists_cons_of_ne_nil (hs.ne_nil (by decide))
    have ha : noneOf [] a := hs.noneOf (by decide) (by decide) a List.mem_cons_self
    exact ⟨a, _, rfl, isSpace_of_noneOf ha⟩

lemma IsToken.taken {token : List Char} (h : IsToken token) : Taken token [] := by
  have hplain : ¬ Schemed (token ++ []) := by
    rintro ⟨scheme, blanks, a, rest, htext, -, hb, -⟩
    obtain ⟨b, bs, rfl⟩ := List.exists_cons_of_ne_nil hb.1
    have hm : b ∈ token := by
      rw [← List.append_nil token, htext]
      simp
    have hblank := hb.2 b List.mem_cons_self
    rw [isSpace_of_noneOf (h.2 b hm)] at hblank
    cases hblank
  simpa using Taken.plain h rfl hplain

lemma IsToken.taken_scheme {scheme blanks token : List Char} (h : IsToken token)
    (hs : Named schemes scheme) (hb : IsBlanks blanks) :
    Taken (scheme ++ (blanks ++ token)) [] := by
  have htaken : Taken (scheme ++ (blanks ++ (token ++ []))) [] := .schemed hs hb h rfl
  rwa [List.append_nil] at htaken

lemma mem_run_headerAlts : d ∈ run headerAlts c ↔ ∃ m, Named headerNames m ∧ c.Takes m d :=
  mem_run_wordAlts

lemma IsBlanks.head {blanks : List Char} (h : IsBlanks blanks) (rest : List Char) :
    (blanks ++ rest).head?.any isNamePart = false := by
  obtain ⟨hne, hall⟩ := h
  obtain ⟨b, bs, rfl⟩ := List.exists_cons_of_ne_nil hne
  simp [isNamePart, not_noneOf_of_isSpace (hall b List.mem_cons_self)]

lemma schemed_unique {scheme scheme' blanks blanks' rest' : List Char}
    (hs : Named schemes scheme) (hs' : Named schemes scheme') (hb : IsBlanks blanks)
    (hb' : IsBlanks blanks') (hrest : rest.head?.any isSpace = false)
    (hrest' : rest'.head?.any isSpace = false)
    (h : scheme ++ (blanks ++ rest) = scheme' ++ (blanks' ++ rest')) :
    scheme = scheme' ∧ blanks = blanks' ∧ rest = rest' := by
  obtain ⟨hscheme, hbehind⟩ := stretch_unique (hs.noneOf (by decide) (by decide)) (hb.head rest)
    (hs'.noneOf (by decide) (by decide)) (hb'.head rest') h
  exact ⟨hscheme, stretch_unique hb.2 hrest hb'.2 hrest' hbehind⟩

lemma begins_of_mem_run (h : d ∈ run (many isTokenChar 1 none) c) :
    ∃ a as, c.rest = a :: as ∧ isTokenChar a := by
  obtain ⟨m, hm, hlo, -, ht⟩ := mem_run_many.mp h
  obtain ⟨a, as, rfl⟩ := List.exists_cons_of_ne_nil (List.ne_nil_of_length_pos hlo)
  exact ⟨a, as ++ d.rest, ht.rest, hm a List.mem_cons_self⟩

lemma head_run_value (c : Cursor Char) :
    (run (seqs [optional schemeAlts, many isTokenChar 1 none]) c).head? =
      ((run schemeAlts c).flatMap (run (many isTokenChar 1 none))).head?.or
        (run (many isTokenChar 1 none) c).head? := by
  have htoken : run (seqs [many isTokenChar 1 none]) = run (many isTokenChar 1 none) :=
    funext (run_seqs_singleton _)
  change ((run schemeAlts c ++ [c]).flatMap (run (seqs [many isTokenChar 1 none]))).head? = _
  rw [htoken, List.flatMap_append, List.head?_append, List.flatMap_singleton]

lemma head_run_taken (h : Taken value rest) (before : List Char)
    (groups : List (String × List Char)) : ∃ taken, value = taken ++ rest ∧
      (run (seqs [optional schemeAlts, many isTokenChar 1 none]) ⟨before, value, groups⟩).head? =
        some ⟨taken.reverse ++ before, rest, groups⟩ := by
  rw [head_run_value]
  cases h with
  | @plain token _ ht hstop hn =>
    refine ⟨token, rfl, ?_⟩
    have hnone : (run schemeAlts ⟨before, token ++ rest, groups⟩).flatMap
        (run (many isTokenChar 1 none)) = [] := by
      refine List.flatMap_eq_nil_iff.mpr fun e he =>
        List.eq_nil_iff_forall_not_mem.mpr fun f hf => hn ?_
      obtain ⟨scheme, blanks, hs, hb, hd⟩ := mem_run_schemeAlts.mp he
      obtain ⟨a, as, hr, ha⟩ := begins_of_mem_run hf
      refine ⟨scheme, blanks, a, as, ?_, hs, hb, ha⟩
      rw [← hr, ← List.append_assoc]
      exact hd.rest
    rw [hnone, head_run_stretch ht.2 (List.length_pos_of_ne_nil ht.1) hstop]
    rfl
  | @schemed scheme blanks token _ hs hb ht hstop =>
    refine ⟨scheme ++ (blanks ++ token), by simp, ?_⟩
    have hmem : (⟨(scheme ++ blanks).reverse ++ before, token ++ rest, groups⟩ : Cursor Char) ∈
        run schemeAlts ⟨before, scheme ++ (blanks ++ (token ++ rest)), groups⟩ :=
      mem_run_schemeAlts.mpr ⟨scheme, blanks, hs, hb, Cursor.takes_iff.mpr ⟨_, by simp, rfl⟩⟩
    -- Wherever another reading of the scheme ends, a token must begin there.
    have hforced : ∀ e ∈ run schemeAlts ⟨before, scheme ++ (blanks ++ (token ++ rest)), groups⟩,
        run (many isTokenChar 1 none) e ≠ [] →
          e = ⟨(scheme ++ blanks).reverse ++ before, token ++ rest, groups⟩ := by
      intro e he hne
      obtain ⟨f, hf⟩ := List.exists_mem_of_ne_nil _ hne
      obtain ⟨a, as, hr, ha⟩ := begins_of_mem_run hf
      obtain ⟨scheme', blanks', hs', hb', hd⟩ := mem_run_schemeAlts.mp he
      obtain ⟨t, ts, hts⟩ := List.exists_cons_of_ne_nil ht.1
      have hspace : (token ++ rest).head?.any isSpace = false := by
        simp [hts, isSpace_of_noneOf (ht.2 t (by simp [hts]))]
      have hspace' : e.rest.head?.any isSpace = false := by simp [hr, isSpace_of_noneOf ha]
      have heq : scheme ++ (blanks ++ (token ++ rest)) = scheme' ++ (blanks' ++ e.rest) := by
        rw [← List.append_assoc scheme']
        exact hd.rest
      obtain ⟨rfl, rfl, hrest⟩ := schemed_unique hs hs' hb hb' hspace hspace' heq
      exact Cursor.ext hd.before hrest.symm hd.groups
    have hhead := head_run_seq_of_forced (s := many isTokenChar 1 none) hmem hforced
    rw [head_run_stretch ht.2 (List.length_pos_of_ne_nil ht.1) hstop, run_seq] at hhead
    rw [hhead]
    simp

variable {isSign : Char → Bool}

lemma isSep_of_run (h : d ∈ run (sepRegex isSign) c) : ∃ sep, IsSep isSign sep ∧ c.Takes sep d := by
  simp only [sepRegex, mem_run_seqs_cons, mem_run_seqs_nil, mem_run_many, mem_run_one] at h
  obtain ⟨c₁, ⟨blanks, hb, -, -, h₁⟩, c₂, ⟨sign, hsign, h₂⟩, c₃, ⟨blanks', hb', -, -, h₃⟩, rfl⟩ := h
  exact ⟨_, ⟨blanks, sign, blanks', rfl, hsign, hb, hb'⟩, h₁.trans (h₂.trans h₃)⟩

lemma IsSep.stop {p : Char → Bool} (hblank : ∀ a, isSpace a → p a = false)
    (hsign : ∀ a, isSign a → p a = false)
    (hsep : IsSep isSign sep) (rest : List Char) : (sep ++ rest).head?.any p = false := by
  obtain ⟨blanks, sign, blanks', rfl, hs, hb, -⟩ := hsep
  cases blanks with
  | nil => simp [hsign sign hs]
  | cons a as => simp [hblank a (hb a List.mem_cons_self)]

lemma head_run_sep (hsign : ∀ a, isSign a → isSpace a = false) (hsep : IsSep isSign sep)
    (hv : value.head?.any isSpace = false) :
    (run (group "sep" (sepRegex isSign)) ⟨before, sep ++ value, groups⟩).head? =
      some ⟨sep.reverse ++ before, value, ("sep", sep) :: groups⟩ := by
  obtain ⟨blanks, sign, blanks', rfl, hs, hb, hb'⟩ := hsep
  have hlast : ∀ before groups,
      (run (seqs [many isSpace 0 none]) ⟨before, blanks' ++ value, groups⟩).head? =
      some ⟨blanks'.reverse ++ before, value, groups⟩ := by
    intro before groups
    rw [run_seqs_singleton]
    exact head_run_stretch hb' (Nat.zero_le _) hv _ _
  have hmiddle : ∀ before groups, (run (seqs [one isSign, many isSpace 0 none])
      ⟨before, sign :: (blanks' ++ value), groups⟩).head? =
        some ⟨blanks'.reverse ++ sign :: before, value, groups⟩ := by
    intro before groups
    have hone : (run (one isSign) ⟨before, sign :: (blanks' ++ value), groups⟩).head? =
        some ⟨sign :: before, blanks' ++ value, groups⟩ := by
      simp [run, Cursor.advance, hs]
    exact head_run_seq hone (hlast _ _)
  have hfirst : (run (many isSpace 0 none) ⟨before, blanks ++ (sign :: (blanks' ++ value)),
      groups⟩).head? = some ⟨blanks.reverse ++ before, sign :: (blanks' ++ value), groups⟩ :=
    head_run_stretch hb (Nat.zero_le _) (by simp [hsign sign hs]) _ _
  have htext : (blanks ++ sign :: blanks') ++ value = blanks ++ (sign :: (blanks' ++ value)) := by
    simp
  have hall : (run (sepRegex isSign) ⟨before, (blanks ++ sign :: blanks') ++ value, groups⟩).head? =
      some ⟨blanks'.reverse ++ sign :: (blanks.reverse ++ before), value, groups⟩ := by
    rw [htext]
    exact head_run_seq hfirst (hmiddle _ _)
  have heats : Cursor.Eats ⟨before, (blanks ++ sign :: blanks') ++ value, groups⟩ (blanks ++
      sign :: blanks') ⟨blanks'.reverse ++ sign :: (blanks.reverse ++ before), value, groups⟩ :=
    ⟨rfl, by simp⟩
  rw [head_run_group, hall, Option.map_some, capture_of_eats heats]
  simp

lemma head_run_named {n : String} {r tail : Regex Char} {p : Char → Bool} (hblank : ∀ a, isSpace a →
      p a = false) (hsign : ∀ a, isSign a → p a = false ∧ isSpace a = false)
    (hr : ∀ {e}, e ∈ run r ⟨before, name ++ (sep ++ value), []⟩ →
      ∃ m, Cursor.Takes ⟨before, name ++ (sep ++ value), []⟩ m e ∧ ∀ a ∈ m, p a)
    (hmem : (⟨name.reverse ++ before, sep ++ value, []⟩ : Cursor Char) ∈
      run r ⟨before, name ++ (sep ++ value), []⟩) (hname : ∀ a ∈ name, p a)
    (hsep : IsSep isSign sep) (hv : value.head?.any isSpace = false) (hend : (run tail
      ⟨sep.reverse ++ (name.reverse ++ before), value, [("sep", sep), (n, name)]⟩).head? = some d) :
    (run (seq (group n r) (seq (group "sep" (sepRegex isSign)) tail)) ⟨before,
      name ++ (sep ++ value), []⟩).head? = some d := by
  have hcapture : ∀ m (e : Cursor Char), Cursor.Takes ⟨before, name ++ (sep ++ value), []⟩ m e →
      Cursor.capture ⟨before, name ++ (sep ++ value), []⟩ n e =
      ⟨m.reverse ++ before, e.rest, [(n, m)]⟩ := by
    intro m e he
    rw [capture_of_eats he.toEats, he.before, he.groups]
  have hmem' : (⟨name.reverse ++ before, sep ++ value, [(n, name)]⟩ : Cursor Char) ∈
      run (group n r) ⟨before, name ++ (sep ++ value), []⟩ :=
    mem_run_group.mpr ⟨_, hmem, hcapture name _ (Cursor.takes_iff.mpr ⟨_, rfl, rfl⟩)⟩
  have hforced : ∀ e ∈ run (group n r) ⟨before, name ++ (sep ++ value), []⟩,
      run (seq (group "sep" (sepRegex isSign)) tail) e ≠ [] →
        e = ⟨name.reverse ++ before, sep ++ value, [(n, name)]⟩ := by
    intro e he hne
    obtain ⟨f, hf⟩ := List.exists_mem_of_ne_nil _ hne
    obtain ⟨g, hg, -⟩ := mem_run_seq.mp hf
    obtain ⟨g₀, hg₀, -⟩ := mem_run_group.mp hg
    obtain ⟨sep', hsep', hd'⟩ := isSep_of_run hg₀
    have hstop : e.rest.head?.any p = false := by
      have hrest : e.rest = sep' ++ g₀.rest := hd'.rest
      rw [hrest]
      exact hsep'.stop hblank (fun a ha => (hsign a ha).1) _
    obtain ⟨e₀, he₀, rfl⟩ := mem_run_group.mp he
    obtain ⟨m, hd, hm⟩ := hr he₀
    rw [hcapture m _ hd] at hstop ⊢
    obtain ⟨rfl, hrest⟩ :=
      stretch_unique hname (hsep.stop hblank (fun a ha => (hsign a ha).1) value) hm hstop hd.rest
    rw [hrest]
  exact (head_run_seq_of_forced hmem' hforced).trans
    (head_run_seq (head_run_sep (fun a ha => (hsign a ha).2) hsep hv) hend)

variable {word : Char → Bool}

lemma matchAt_header (hname : Named headerNames name)
    (hedge : before.head?.any word != name.head?.any word)
    (hsep : IsSep isHeaderSign sep) (ht : Taken value rest) : ∃ taken, value = taken ++ rest ∧
    (headerPattern word).matchAt before (name ++ (sep ++ value)) = some ⟨taken.reverse ++
      (sep.reverse ++ (name.reverse ++ before)), rest, [("sep", sep), ("name", name)]⟩ := by
  obtain ⟨a, as, hv, ha⟩ := ht.head
  obtain ⟨b, bs, hb⟩ := List.exists_cons_of_ne_nil (hname.ne_nil (by decide))
  obtain ⟨taken, htaken, hend⟩ :=
    head_run_taken ht (sep.reverse ++ (name.reverse ++ before)) [("sep", sep), ("name", name)]
  have hsign : ∀ a, isHeaderSign a → isNamePart a = false ∧ isSpace a = false := by
    intro a ha
    have hall : ∀ a ∈ [':', '='], isNamePart a = false ∧ isSpace a = false := by decide
    exact hall a (by simpa [isHeaderSign] using ha)
  refine ⟨taken, htaken,
    head_run_named (r := seqs [boundary word, headerAlts]) (fun a => not_noneOf_of_isSpace) hsign ?_
    ?_ (hname.noneOf (by decide) (by decide)) hsep (by simp [hv, ha]) hend⟩
  · intro e he
    obtain ⟨c₁, hc₁, he⟩ := mem_run_seqs_cons.mp he
    obtain ⟨-, rfl⟩ := mem_run_boundary.mp hc₁
    rw [run_seqs_singleton] at he
    obtain ⟨m, hm, hd⟩ := mem_run_headerAlts.mp he
    exact ⟨m, hd, hm.noneOf (by decide) (by decide)⟩
  · simp only [mem_run_seqs_cons, mem_run_seqs_nil, mem_run_boundary]
    refine ⟨_, ⟨?_, rfl⟩, _,
      mem_run_headerAlts.mpr ⟨name, hname, Cursor.takes_iff.mpr ⟨_, rfl, rfl⟩⟩, rfl⟩
    rw [hb] at hedge ⊢
    exact hedge

end Match

section Dsns

variable {before w t out sep value : List Char}

lemma sub_of_scan (h : dsnPattern.Scan before t out) : out = dsnPattern.sub t :=
  (masks_of_scan h).unique (masks_dsnPattern t)

lemma behind_dsnPattern (w t : List Char) : dsnPattern.behind w t = dsnPattern.sub t :=
  sub_of_scan (dsnPattern.scan_behind w t)

lemma ahead_dsnPattern (h : dsnPattern.Reaches t [] w) :
    dsnPattern.ahead w t = dsnPattern.sub w := by
  have halike : dsnPattern.regex.Alike ([] : List Char).head? t.head? := by
    simp [dsnPattern, seqs, literal, Regex.Alike]
  have hw := Pattern.sub_append (P := dsnPattern) (w := w) Pattern.reaches_nil
  rw [List.append_nil, behind_dsnPattern, show dsnPattern.sub [] = [] from rfl, List.append_nil]
    at hw
  rw [hw, Pattern.ahead_congr halike Pattern.reaches_nil h]

lemma Masks.getLast? (h : Masks t out) : out.getLast? = t.getLast? := by
  induction h with
  | done => rfl
  | skip _ _ ih => rw [List.getLast?_cons, List.getLast?_cons, ih]
  | @hit text user password rest out hd _ ih =>
    have htext : text = (':' :: '/' :: '/' :: (user ++ ':' :: password) ++ ['@']) ++ rest := by
      rw [hd.text_eq]
      simp
    have hmasked : masked user = ':' :: '/' :: '/' :: (user ++ ':' :: redacted.toList) ++
        ['@'] := by simp [masked]
    rw [htext, hmasked]
    simp only [List.getLast?_append, ih, List.getLast?_singleton, Option.some_or]

lemma sub_dsnPattern_skip (h : ':' ∉ w) : dsnPattern.sub (w ++ t) = w ++ dsnPattern.sub t := by
  refine (masks_dsnPattern _).unique ?_
  induction w with
  | nil => exact masks_dsnPattern t
  | cons a w ih =>
    obtain ⟨ha, hw⟩ := not_or.mp (List.mem_cons.not.mp h)
    refine .skip (fun user password rest hd => ha ?_) (ih hw)
    exact (List.cons.inj hd.text_eq).1.symm

lemma sub_dsnPattern_sep (hsep : IsSep isHeaderSign sep) (value : List Char) :
    ∃ exposed, dsnPattern.sub (sep ++ value) = sep ++ exposed := by
  obtain ⟨blanks, sign, blanks', rfl, hsign, hb, hb'⟩ := hsep
  have hskip : ∀ {l : List Char}, (∀ a ∈ l, isSpace a) →
      ':' ∉ l := fun hl hm => absurd (hl _ hm) (by decide)
  suffices h : ∃ exposed,
    dsnPattern.sub (sign :: (blanks' ++ value)) = sign :: (blanks' ++ exposed) by
    obtain ⟨exposed, he⟩ := h
    refine ⟨exposed, ?_⟩
    rw [List.append_assoc, List.cons_append, sub_dsnPattern_skip (hskip hb), he]
    simp
  cases blanks' with
  | nil =>
    obtain ⟨out, hout⟩ : ∃ out, Masks (sign :: value) (sign :: out) := by
      have hm := masks_dsnPattern (sign :: value)
      generalize dsnPattern.sub (sign :: value) = masked at hm
      generalize htext : sign :: value = text at hm
      cases hm with
      | done => cases htext
      | skip hn hm =>
        obtain ⟨rfl, rfl⟩ := List.cons.inj htext
        exact ⟨_, .skip hn hm⟩
      | hit hd hm =>
        obtain rfl : sign = ':' := (List.cons.inj (htext.trans hd.text_eq)).1
        exact ⟨_, .hit hd hm⟩
    exact ⟨out, (masks_dsnPattern _).unique hout⟩
  | cons a as =>
    refine ⟨dsnPattern.sub value,
      (masks_dsnPattern _).unique (.skip (fun user password rest hd => ?_) ?_)⟩
    · have ha : a = '/' := (List.cons.inj (List.cons.inj hd.text_eq).2).1
      rw [ha] at hb'
      have hslash := hb' '/' List.mem_cons_self
      exact absurd hslash (by decide)
    · rw [← sub_dsnPattern_skip (hskip hb')]
      exact masks_dsnPattern _

def exposed (sep value : List Char) : List Char := (dsnPattern.sub (sep ++ value)).drop sep.length

lemma sub_dsnPattern_named {name : List Char} (hname : ':' ∉ name) (hsep : IsSep isHeaderSign sep)
    (value : List Char) :
    dsnPattern.sub (name ++ (sep ++ value)) = name ++ (sep ++ exposed sep value) := by
  obtain ⟨rest, he⟩ := sub_dsnPattern_sep hsep value
  rw [sub_dsnPattern_skip hname, exposed, he, List.drop_left' rfl]

lemma Named.not_colon {name : List Char} (h : Named headerNames name) : ':' ∉ name := fun hm =>
  not_mem_of_noneOf (h.noneOf (by decide) (by decide) _ hm) (List.mem_singleton_self ':')

end Dsns

section Header

variable {word : Char → Bool} {pre name sep value value' post rest before : List Char}

variable (hword : WordClass word)

include hword in
lemma matchAt_header_stop {b : Char} (hb : isTokenChar b = false) :
    (headerPattern word).matchAt before (b :: rest) = none := by
  have hstop : ¬ isTokenChar b := by simp [hb]
  refine Pattern.matchAt_eq_none [group "name" (seqs [boundary word, headerAlts])] _
    (headerPattern_regex word) (q := fun c => isTokenChar c) ?_ rfl hstop
  intro r hr
  rw [List.mem_singleton.mp hr]
  exact (over_headerName hword).mono fun a ha => noneOf_mono (by decide) ha

include hword in
lemma scan_header_stop (hrest : rest.head?.any isTokenChar = false) (before : List Char) :
    (headerPattern word).Scan before rest ((headerPattern word).sub rest) := by
  cases rest with
  | nil => exact .done before
  | cons b rest =>
    have hb : isTokenChar b = false := by simpa using hrest
    have hsub := (headerPattern word).scan_sub (b :: rest)
    generalize (headerPattern word).sub (b :: rest) = out at hsub ⊢
    cases hsub with
    | skip hm hs =>
      exact .skip (matchAt_header_stop hword hb) (hs.under (List.cons_ne_nil b []) before)
    | hit hm =>
      rw [matchAt_header_stop hword hb] at hm
      cases hm

lemma Taken.stop (h : Taken value rest) : rest.head?.any isTokenChar = false := by
  cases h <;> assumption

include hword in
lemma behind_header (hname : Named headerNames name)
    (hedge : pre.getLast?.any word != name.head?.any word) (hsep : IsSep isHeaderSign sep)
    (ht : Taken value rest) : (headerPattern word).behind pre (name ++ (sep ++ value)) =
    name ++ (sep ++ (redacted.toList ++ (headerPattern word).sub rest)) := by
  rw [← List.head?_reverse] at hedge
  obtain ⟨taken, -, hm⟩ := matchAt_header hname hedge hsep ht
  obtain ⟨b, bs, rfl⟩ := List.exists_cons_of_ne_nil (hname.ne_nil (by decide))
  have hscan := Pattern.Scan.hit hm (scan_header_stop hword ht.stop _)
  refine ((headerPattern word).scan_behind pre _).unique ?_
  simpa [headerPattern, Pattern.expand, Pattern.expandPiece, List.lookup_cons] using hscan

/-- A header in a text, the value that stands behind it, and what its match leaves of it once the
DSNs are masked. -/
structure Headed (word : Char → Bool) (pre name sep value rest : List Char) : Prop where
  named : Named headerNames name
  edge : pre.getLast?.any word != name.head?.any word
  isSep : IsSep isHeaderSign sep
  clear : Pattern.Clear [dsnPattern, headerPattern word] pre (name ++ (sep ++ value))
  taken : Taken (exposed sep value) rest

lemma Headed.behind_dsn (h : Headed word pre name sep value rest) :
    dsnPattern.behind pre (name ++ (sep ++ value)) = name ++ (sep ++ exposed sep value) := by
  rw [behind_dsnPattern, sub_dsnPattern_named h.named.not_colon h.isSep]

include hword in
lemma Headed.behinds (h : Headed word pre name sep value rest) :
    Pattern.behinds [dsnPattern, headerPattern word] pre (name ++ (sep ++ value)) =
      name ++ (sep ++ (redacted.toList ++ (headerPattern word).sub rest)) := by
  have hlast : (dsnPattern.sub pre).getLast?.any word != name.head?.any word := by
    rw [(masks_dsnPattern pre).getLast?]
    exact h.edge
  simp only [Pattern.behinds, h.behind_dsn, ahead_dsnPattern h.clear.1]
  exact behind_header hword h.named hlast h.isSep h.taken

lemma Headed.heads (hword : WordClass word) (h : Headed word pre name sep value rest) (n : ℕ) :
    (Pattern.behinds ([dsnPattern, headerPattern word].take n) pre (name ++ (sep ++ value))).head? =
      name.head? := by
  obtain ⟨a, as, ha⟩ := List.exists_cons_of_ne_nil (h.named.ne_nil (by decide))
  have hhead : ∀ t : List Char, (name ++ t).head? = name.head? := by
    rw [ha]
    exact fun _ => rfl
  match n with
  | 0 => exact hhead _
  | 1 =>
    simp only [List.take_succ_cons, List.take_zero, Pattern.behinds, h.behind_dsn]
    exact hhead _
  | n + 2 =>
    simp only [List.take_succ_cons, List.take_nil, h.behinds hword]
    exact hhead _

lemma Headed.sub (hword : WordClass word) (h : Headed word pre name sep value rest) :
    (headerPattern word).sub (dsnPattern.sub (pre ++ (name ++ (sep ++ value)))) =
      Pattern.aheads [dsnPattern, headerPattern word] pre (name ++ (sep ++ value)) ++
        (name ++ (sep ++ (redacted.toList ++ (headerPattern word).sub rest))) := by
  have hfold := Pattern.foldl_sub_append h.clear
  rwa [h.behinds hword] at hfold

end Header

section Remainder

variable {word : Char → Bool} {b : Char} {pre name sep value value' rest rest' : List Char}

def Keeps (P : Pattern Char) (b : Char) : Prop := ∀ w t, ∃ w' t', P.sub (w ++ ['>']) = w' ++ ['>'] ∧
  P.behind ['>'] (b :: t) = b :: t' ∧ P.sub (w ++ '>' :: b :: t) = w' ++ '>' :: b :: t'

lemma keeps_foldl {Ps : List (Pattern Char)} (h : ∀ P ∈ Ps, Keeps P b) (w t : List Char) :
    ∃ w' t', Ps.foldl (fun text P => P.sub text) (w ++ ['>']) = w' ++ ['>'] ∧
      Ps.foldl (fun text P => P.behind ['>'] text) (b :: t) = b :: t' ∧
      Ps.foldl (fun text P => P.sub text) (w ++ '>' :: b :: t) = w' ++ '>' :: b :: t' := by
  induction Ps generalizing w t with
  | nil => exact ⟨w, t, rfl, rfl, rfl⟩
  | cons P Ps ih =>
    obtain ⟨hP, hPs⟩ := List.forall_mem_cons.mp h
    obtain ⟨w', t', hw, ht, hwt⟩ := hP w t
    simp only [List.foldl_cons, hw, ht, hwt]
    exact ih hPs w' t'

lemma isTokenChar_of_isRunChar {a : Char} (h : isRunChar a) : isTokenChar a := by
  rcases Bool.or_eq_true _ _ ▸ h with h | h
  · have hword : asciiWord a := by rw [asciiWord, h]; rfl
    exact wordClass_asciiWord.noneOf (by decide) a hword
  · have hall : ∀ a ∈ ['+', '/', '_', '-'], isTokenChar a := by decide
    exact hall a (by simpa using h)

lemma keeps_of_over {P : Pattern Char} (rs rs' : List (Regex Char)) (hb : isTokenChar b = false)
    (hP : P.regex = seqs (rs ++ rs')) (hrs : ∀ r ∈ rs, r.Over (fun c => c ∉ marks))
    (hrs' : ∀ r ∈ rs', r.Over (fun c => isTokenChar c))
    (hstop : ∀ before rest, P.matchAt before (b :: rest) = none) (ha : P.regex.Alike (some b) none)
    (hexp : ∀ groups, (P.expand groups).getLast? = some '>') : Keeps P b := by
  intro w t
  refine Pattern.sub_beyond ha (Pattern.reaches_of_apart ?_) hstop hexp
  rw [hP]
  exact apart_of_edge rs rs' hrs hrs' (by decide) (by simp [hb])

variable (hword : WordClass word) (hb : isTokenChar b = false)

include hword hb in
lemma word_of_stop : word b = false := by
  by_contra hw
  have htoken : isTokenChar b := hword.noneOf (by decide) b (by simpa using hw)
  rw [htoken] at hb
  cases hb

lemma alike_ignoreCase {a a' : Option Char} {s : String} : Regex.Alike a a' (ignoreCase s) := by
  refine alike_seqs.mpr fun r hr => ?_
  obtain ⟨c, -, rfl⟩ := List.mem_map.mp hr
  trivial

lemma alike_wordAlts {a a' : Option Char} {ahead behind : List String} :
    Regex.Alike a a' (wordAlts ahead behind) := by
  refine alike_alts.mpr fun r hr => ?_
  simp only [List.mem_append, List.mem_cons, List.mem_map] at hr
  rcases hr with ⟨s, -, rfl⟩ | rfl | ⟨s, -, rfl⟩
  · exact alike_ignoreCase
  · exact ⟨alike_ignoreCase, trivial, alike_ignoreCase, trivial⟩
  · exact alike_ignoreCase

include hword hb in
lemma matchAt_bearer_stop (before rest : List Char) :
    (bearerPattern word).matchAt before (b :: rest) = none := by
  refine Pattern.matchAt_eq_none [_,
    _] _ (bearerPattern_regex word) (q := fun c => isTokenChar c) ?_ rfl (by simp [hb])
  exact fun r hr => (over_scheme hword r hr).mono fun _ h => noneOf_mono (by decide) h

include hword hb in
lemma matchAt_assignment_stop (before rest : List Char) :
    (assignmentPattern word).matchAt before (b :: rest) = none := by
  refine Pattern.matchAt_eq_none [_] _ (assignmentPattern_regex word) (q := fun c =>
    isTokenChar c) ?_ rfl (by simp [hb])
  intro r hr
  rw [List.mem_singleton.mp hr]
  exact (over_keyRegex hword).mono fun _ h => noneOf_mono (by decide) h

include hb in
lemma matchAt_run_stop (before rest : List Char) :
    runPattern.matchAt before (b :: rest) = none := by
  refine Pattern.matchAt_eq_none [_] [_] rfl (q := fun c => isTokenChar c) ?_ rfl (by simp [hb])
  intro r hr
  rw [List.mem_singleton.mp hr]
  exact fun _ => isTokenChar_of_isRunChar

include hword hb in
lemma keeps_bearerPattern : Keeps (bearerPattern word) b := by
  refine keeps_of_over [_, _, _, _] [] hb (bearerPattern_regex word) ?_ (by simp)
    (matchAt_bearer_stop hword hb) ?_ fun groups => ?_
  · exact over_seqs.mp (over_bearerPattern hword)
  · exact ⟨word_of_stop hword hb, ⟨alike_ignoreCase, alike_ignoreCase, trivial⟩, trivial,
      trivial, trivial⟩
  · simp [Pattern.expand, bearerPattern, Pattern.expandPiece, redacted]

include hword hb in
lemma keeps_assignmentPattern : Keeps (assignmentPattern word) b := by
  refine keeps_of_over [_, _, _] _ hb (assignmentPattern_regex word) (over_assigned hword).1
    (over_assigned hword).2 (matchAt_assignment_stop hword hb) ?_ fun groups => ?_
  · have hkey : Regex.Alike (some b) none keyAlts := alike_wordAlts
    exact ⟨⟨word_of_stop hword hb, trivial, hkey, trivial, trivial⟩,
      ⟨trivial, trivial, trivial, trivial⟩, trivial, trivial, trivial, trivial⟩
  · simp [Pattern.expand, assignmentPattern, Pattern.expandPiece, redacted]

include hb in
lemma keeps_runPattern : Keeps runPattern b := by
  refine keeps_of_over [_,
    _] [] hb rfl (over_seqs.mp over_runPattern) (by simp) (matchAt_run_stop hb) ?_ fun groups => ?_
  · exact ⟨trivial, trivial, trivial⟩
  · rfl

def laterPatterns (word : Char → Bool) : List (Pattern Char) :=
  [bearerPattern word, assignmentPattern word, runPattern]

def remainder (word : Char → Bool) (rest : List Char) : List Char :=
  (laterPatterns word).foldl (fun text P => P.behind ['>'] text) ((headerPattern word).sub rest)

include hword hb in
lemma keeps_laterPatterns : ∀ P ∈ laterPatterns word, Keeps P b := by
  simp only [laterPatterns, List.forall_mem_cons]
  exact ⟨keeps_bearerPattern hword hb, keeps_assignmentPattern hword hb,
    keeps_runPattern hb, by simp⟩

include hword hb in
lemma remainder_cons (rest : List Char) : ∃ rest', remainder word (b :: rest) = b :: rest' := by
  obtain ⟨out, hout⟩ :=
    ((headerPattern word).scan_sub (b :: rest)).of_cons (matchAt_header_stop hword hb)
  obtain ⟨-, t', -, ht, -⟩ := keeps_foldl (keeps_laterPatterns hword hb) [] out
  rw [remainder, hout]
  exact ⟨t', ht⟩

include hword in
lemma remainder_eq_nil (hrest : rest.head?.any isTokenChar = false) : remainder word rest = [] ↔
    rest = [] := by
  cases rest with
  | nil => exact ⟨fun _ => rfl, fun _ => rfl⟩
  | cons b rest =>
    obtain ⟨out, hout⟩ := remainder_cons hword (by simpa using hrest) rest
    simp [hout]

include hword in
lemma later_remainder (u : List Char) : ∃ u', ∀ rest : List Char,
    rest.head?.any isTokenChar = false → (laterPatterns word).foldl (fun text P => P.sub text) (u ++
      (redacted.toList ++ (headerPattern word).sub rest)) = u' ++ '>' :: remainder word rest := by
  have hredacted : redacted.toList = "<REDACTED".toList ++ ['>'] := by decide
  obtain ⟨w, -, hw, -, -⟩ :=
    keeps_foldl (b := ',') (keeps_laterPatterns hword (by decide)) (u ++ "<REDACTED".toList) []
  refine ⟨w, fun rest hrest => ?_⟩
  cases rest with
  | nil =>
    have hnil : remainder word [] = [] := rfl
    have htext : u ++
        (redacted.toList ++ (headerPattern word).sub []) = (u ++ "<REDACTED".toList) ++ ['>'] := by
      rw [hredacted, show (headerPattern word).sub [] = [] from rfl]
      simp
    rw [htext, hw, hnil]
  | cons b rest =>
    have hb : isTokenChar b = false := by simpa using hrest
    obtain ⟨out, hout⟩ :=
      ((headerPattern word).scan_sub (b :: rest)).of_cons (matchAt_header_stop hword hb)
    obtain ⟨w', t', hw', ht, hwt⟩ :=
      keeps_foldl (keeps_laterPatterns hword hb) (u ++ "<REDACTED".toList) out
    have htext : u ++ (redacted.toList ++ (headerPattern word).sub (b :: rest)) =
        (u ++ "<REDACTED".toList) ++ '>' :: b :: out := by
      rw [hredacted, hout]
      simp
    rw [htext, hwt, remainder, hout, ht, List.append_cancel_right (hw.symm.trans hw')]

lemma scrubChars_header_iff (hword : WordClass word) (h : Headed word pre name sep value rest)
    (h' : Headed word pre name sep value' rest') : scrubChars word (pre ++
      (name ++ (sep ++ value))) = scrubChars word (pre ++ (name ++ (sep ++ value'))) ↔
    remainder word rest = remainder word rest' := by
  have hsub := h.sub hword
  have hsub' := h'.sub hword
  have hheads := fun n => (h.heads hword n).trans (h'.heads hword n).symm
  rw [Pattern.aheads_congr h.clear h'.clear hheads] at hsub
  obtain ⟨u, hu⟩ := later_remainder hword
    (Pattern.aheads [dsnPattern, headerPattern word] pre (name ++ (sep ++ value')) ++ (name ++ sep))
  have hscrub : scrubChars word (pre ++ (name ++ (sep ++ value))) = u ++
      '>' :: remainder word rest := by
    rw [← hu rest h.taken.stop]
    simp only [scrubChars, valuePatterns, laterPatterns, List.foldl_cons, hsub, List.append_assoc]
  have hscrub' : scrubChars word (pre ++ (name ++ (sep ++ value'))) = u ++
      '>' :: remainder word rest' := by
    rw [← hu rest' h'.taken.stop]
    simp only [scrubChars, valuePatterns, laterPatterns, List.foldl_cons, hsub', List.append_assoc]
  rw [hscrub, hscrub', List.append_right_inj, List.cons.injEq]
  exact ⟨And.right, fun heq => ⟨rfl, heq⟩⟩

end Remainder

end AstropathRelay.Logging
