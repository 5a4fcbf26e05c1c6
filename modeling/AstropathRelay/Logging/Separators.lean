import AstropathRelay.Logging.Dsn
import AstropathRelay.Logging.Names

/-! What the classes of the value patterns leave out. A separator with a blank before it is in no
match, so it stays in the scrubbed text, whatever stands around it. -/

namespace AstropathRelay.Logging

open Lib Lib.Regex

section Marks

def separators : List Char := [',', ';']

def marks : List Char := [',', ';', '>']

lemma not_mem_separators {c : Char} (h : c ∉ marks) : c ∉ separators := by
  have hsub : ∀ a ∈ separators, a ∈ marks := by decide
  exact fun hc => h (hsub c hc)

lemma rejects {p : Char → Bool} (h : ∀ a ∈ marks, p a = false) : ∀ c, p c → c ∉ marks := by
  intro c hc hm
  rw [h c hm] at hc
  cases hc

lemma over_words {ahead behind : List String}
    (h : ∀ s ∈ ahead ++ behind, s.toList.all (noneOf marks)) :
    (wordAlts ahead behind).Over (fun c => noneOf marks c) :=
  over_wordAlts (by decide) h (by decide)

lemma over_word {s : String} (h : s.toList.all (noneOf marks)) :
    (ignoreCase s).Over (fun c => noneOf marks c) :=
  over_ignoreCase (by decide) h

attribute [local irreducible] ignoreCase wordAlts

lemma over_blanks {lo : ℕ} {hi : Option ℕ} : (many isSpace lo hi).Over (fun c => c ∉ marks) :=
  rejects (by decide)

lemma over_sep {isSign : Char → Bool} (h : ∀ a ∈ marks, isSign a = false) :
    (sepRegex isSign).Over (fun c => c ∉ marks) := by
  simp only [sepRegex, over_seqs, List.forall_mem_cons]
  exact ⟨over_blanks, rejects h, over_blanks, by simp⟩

variable {word : Char → Bool} (hword : WordClass word)

include hword

lemma over_boundary : (boundary word).Over (fun c => noneOf marks c) := hword.noneOf (by decide)

lemma over_headerName :
    (group "name" (seqs [boundary word, headerAlts])).Over (fun c => noneOf marks c) := by
  simp only [Over, over_seqs, List.forall_mem_cons]
  exact ⟨over_boundary hword, over_words (by decide), by simp⟩

lemma over_headerPattern : (headerPattern word).regex.Over (fun c => c ∉ separators) := by
  have hscheme : ∀ s : String, s.toList.all (noneOf marks) →
      (seq (ignoreCase s) (many isSpace 1 none)).Over (fun c => c ∉ separators) := fun s hs =>
    ⟨(over_word hs).mono fun _ h => not_mem_separators (not_mem_of_noneOf h),
      over_blanks.mono fun _ => not_mem_separators⟩
  rw [headerPattern_regex, over_seqs]
  simp only [List.forall_mem_cons]
  refine ⟨(over_headerName hword).mono fun _ h => not_mem_separators (not_mem_of_noneOf h),
    (over_sep (by decide)).mono fun _ => not_mem_separators, ⟨?_, trivial⟩,
    fun _ => not_mem_of_noneOf, by simp⟩
  simp only [schemeAlts, over_alts, List.forall_mem_cons]
  exact ⟨hscheme _ (by decide), hscheme _ (by decide), by simp⟩

lemma over_scheme :
    ∀ r ∈ [boundary word, group "scheme" (alts [ignoreCase "bearer", ignoreCase "basic"])],
      r.Over (fun c => noneOf marks c) := by
  have hschemes : (alts [ignoreCase "bearer", ignoreCase "basic"]).Over
      (fun c => noneOf marks c) := by
    simp only [over_alts, List.forall_mem_cons]
    exact ⟨over_word (by decide), over_word (by decide), by simp⟩
  simp only [List.forall_mem_cons]
  exact ⟨over_boundary hword, hschemes, by simp⟩

lemma over_bearerPattern : (bearerPattern word).regex.Over (fun c => c ∉ marks) := by
  have hscheme := over_scheme hword
  simp only [List.forall_mem_cons] at hscheme
  rw [bearerPattern_regex, over_seqs]
  simp only [List.forall_mem_cons]
  exact ⟨hscheme.1.mono fun _ => not_mem_of_noneOf, hscheme.2.1.mono fun _ => not_mem_of_noneOf,
    over_blanks, rejects (by decide), by simp⟩

lemma over_keyRegex : (group "key" (keyRegex word)).Over (fun c => noneOf marks c) := by
  have hname : ∀ a, isNameChar word a → noneOf marks a := by
    intro a ha
    rcases Bool.or_eq_true _ _ ▸ ha with ha | ha
    · exact hword.noneOf (by decide) a ha
    · have hall : ∀ a ∈ ['.', '-'], noneOf marks a := by decide
      exact hall a (by simpa using ha)
  simp only [Over, keyRegex, over_seqs, List.forall_mem_cons]
  exact ⟨over_boundary hword, hname, over_words (by decide), hname, by simp⟩

lemma over_assigned : (∀ r ∈ [group "key" (keyRegex word), group "sep" (sepRegex (· == '=')),
      many isQuote 0 (some 1)], r.Over (fun c => c ∉ marks)) ∧
    ∀ r ∈ [many isValueChar 1 none, many isQuote 0 (some 1)], r.Over (fun c => isTokenChar c) := by
  simp only [List.forall_mem_cons]
  refine ⟨⟨(over_keyRegex hword).mono fun _ => not_mem_of_noneOf, over_sep (by decide),
    rejects (by decide), by simp⟩, fun a ha => ?_, fun a ha => ?_, by simp⟩
  · exact noneOf_mono (by decide) ha
  · have hall : ∀ a ∈ ['"', '\''], isTokenChar a := by decide
    exact hall a (by simpa [isQuote] using ha)

lemma over_assignmentPattern : (assignmentPattern word).regex.Over (fun c => c ∉ separators) := by
  obtain ⟨hkey, hvalue⟩ := over_assigned hword
  simp only [List.forall_mem_cons] at hkey hvalue
  rw [assignmentPattern_regex, over_seqs]
  simp only [List.forall_mem_cons]
  exact ⟨hkey.1.mono fun _ => not_mem_separators, hkey.2.1.mono fun _ => not_mem_separators,
    hkey.2.2.1.mono fun _ => not_mem_separators, hvalue.1.mono fun _ => not_mem_of_noneOf,
    hvalue.2.1.mono fun _ => not_mem_of_noneOf, by simp⟩

omit hword in
lemma over_runPattern : runPattern.regex.Over (fun c => c ∉ marks) := by
  simp only [runPattern, over_seqs, List.forall_mem_cons, Over]
  exact ⟨rejects (by decide), rejects (by decide), by simp⟩

end Marks

section Hole

def fill (d : Char) (x : Option Char) : Char := x.getD d

abbrev holed (P : Pattern Char) : Pattern (Option Char) := P.comap (fill ',') some

variable {before rest out : List (Option Char)}

lemma over_dsnPattern : dsnPattern.regex.Over (fun c => isSpace c = false) := by
  have hnone : ∀ cs c, noneOf cs c → isSpace c = false := by
    intro cs c hc
    rw [noneOf, Bool.and_eq_true, Bool.not_eq_true'] at hc
    exact hc.1
  have hone : ∀ a, isSpace a = false → ∀ c, (c == a) → isSpace c = false := by
    intro a ha c hc
    rwa [eq_of_beq hc]
  have hliteral : ∀ a ∈ "://".toList, ∀ c, (c == a) → isSpace c = false := by
    intro a ha
    have hall : "://".toList.all (fun a => !isSpace a) := by decide
    exact hone a (by simpa using List.all_eq_true.mp hall a ha)
  simp only [dsnPattern, literal, over_seqs, List.forall_mem_cons, List.forall_mem_map, Over]
  exact ⟨⟨hliteral, hnone _, hone _ (by decide), by simp⟩, hnone _, hone _ (by decide), by simp⟩

lemma agree_dsnPattern : dsnPattern.regex.Agree (fill ',') (fill ';') := by
  refine ⟨⟨⟨?_, ?_, ?_, trivial⟩, ?_, ?_, trivial⟩, ?_, ?_, trivial⟩
  all_goals
    intro x
    cases x with
    | none => decide
    | some c => rfl

lemma none_mem_of_scan_cons (h : (holed dsnPattern).Scan before (none :: rest) out) :
    none ∈ out := by
  cases h with
  | skip => exact List.mem_cons_self
  | hit hm =>
    have hmatch := Pattern.map_matchAt (fill ',') some dsnPattern before (none :: rest)
    rw [hm] at hmatch
    obtain ⟨user, password, hd, -⟩ := dsnAt_of_run (Pattern.mem_run_of_matchAt hmatch.symm)
    exact absurd (List.cons.inj hd.text_eq).1 (by decide)

lemma none_mem_of_scan {x y : List (Option Char)} (h : (holed dsnPattern).Scan before rest out)
    (hrest : rest = x ++ some ' ' :: none :: y) : none ∈ out := by
  induction h generalizing x with
  | done => simp at hrest
  | skip _ hs ih =>
    cases x with
    | nil =>
      obtain ⟨rfl, rfl⟩ := List.cons.inj hrest
      exact List.mem_cons_of_mem _ (none_mem_of_scan_cons hs)
    | cons b x => exact List.mem_cons_of_mem _ (ih (List.cons.inj hrest).2)
  | hit hm _ ih =>
    obtain ⟨m, -, heq, -, hspace⟩ := Pattern.eats_of_matchAt (over_comap over_dsnPattern) hm
    rw [hrest] at heq
    refine List.mem_append_right _ ?_
    rcases List.append_eq_append_iff.mp heq with ⟨t, hmt, ht⟩ | ⟨t, -, ht⟩
    · cases t with
      | nil => exact ih (x := []) ht.symm
      | cons b t =>
        obtain ⟨rfl, -⟩ := List.cons.inj ht
        exact absurd (hspace (some ' ') (by simp [hmt])) (by decide)
    · exact ih ht

lemma none_mem_foldl {Ps : List (Pattern Char)}
    (h : ∀ P ∈ Ps, P.regex.Over (fun c => c ∉ separators)) {text : List (Option Char)}
    (hm : none ∈ text) : none ∈ (Ps.map holed).foldl (fun text P => P.sub text) text := by
  induction Ps generalizing text with
  | nil => exact hm
  | cons P Ps ih =>
    obtain ⟨hP, hPs⟩ := List.forall_mem_cons.mp h
    exact ih hPs (((holed P).scan_sub text).mem_of_over (over_comap hP) (by decide) hm)

end Hole

section Values

variable {word : Char → Bool} (hword : WordClass word)

include hword

lemma agree_valuePatterns : ∀ P ∈ valuePatterns word, P.regex.Agree (fill ',') (fill ';') := by
  have hfill : ∀ x, fill ',' x = fill ';' x ∨
      ¬ (fill ',' x) ∉ separators ∧ ¬ (fill ';' x) ∉ separators := by
    intro x
    cases x with
    | none => exact .inr (by decide)
    | some c => exact .inl rfl
  simp only [valuePatterns, List.forall_mem_cons]
  exact ⟨agree_dsnPattern, agree_of_over (over_headerPattern hword) hfill,
    agree_of_over ((over_bearerPattern hword).mono fun _ => not_mem_separators) hfill,
    agree_of_over (over_assignmentPattern hword) hfill,
    agree_of_over (over_runPattern.mono fun _ => not_mem_separators) hfill,
    by simp⟩

lemma scrubChars_separator_ne (pre post : List Char) :
    scrubChars word (pre ++ ' ' :: ',' :: post) ≠ scrubChars word (pre ++ ' ' :: ';' :: post) := by
  have hpatterns : (valuePatterns word).map holed =
      (valuePatterns word).map (Pattern.comap (fill ';') some) :=
    List.map_congr_left fun P hP => Pattern.comap_eq_of_agree (agree_valuePatterns hword P hP)
  have htext : ∀ d, ((pre.map some ++ some ' ' :: none :: post.map some).map (fill d)) = pre ++
      ' ' :: d :: post := by
    intro d
    simp [fill, Function.comp_def]
  have hfill : ∀ d a, fill d (some a) = a := fun _ _ => rfl
  have hcomma := Pattern.map_foldl_sub (hfill ',') (valuePatterns word)
    (pre.map some ++ some ' ' :: none :: post.map some)
  have hsemicolon := Pattern.map_foldl_sub (hfill ';') (valuePatterns word)
    (pre.map some ++ some ' ' :: none :: post.map some)
  rw [← hpatterns, htext] at hsemicolon
  rw [htext] at hcomma
  have hmem : none ∈ ((valuePatterns word).map holed).foldl (fun text P => P.sub text)
      (pre.map some ++ some ' ' :: none :: post.map some) := by
    rw [valuePatterns, List.map_cons, List.foldl_cons]
    refine none_mem_foldl ?_ (none_mem_of_scan ((holed dsnPattern).scan_sub _) rfl)
    simp only [List.forall_mem_cons]
    exact ⟨over_headerPattern hword, (over_bearerPattern hword).mono fun _ => not_mem_separators,
      over_assignmentPattern hword, over_runPattern.mono fun _ => not_mem_separators, by simp⟩
  intro heq
  rw [scrubChars, scrubChars, ← hcomma, ← hsemicolon, List.map_inj_left] at heq
  exact absurd (heq none hmem) (by decide)

end Values

end AstropathRelay.Logging
