import AstropathRelay.Logging.AssignmentValues

/-! Where the secrets of headers and of quoted assignments stand, and when one of them does not
show. -/

namespace AstropathRelay.Logging

open Lib Lib.Regex

section Covers

inductive Cover
  | dsn (pre user : List Char)
  | header (pre name sep : List Char)
  | assignment (pre key sep : List Char)

/-- The text has the match, and this much is left behind it. -/
def Cover.Leaves (word : Char → Bool) (text rest : List Char) : Cover → Prop
  | .dsn pre user => ∃ t password, text = pre ++ t ∧ dsnPattern.Reaches t [] pre ∧
      DsnAt t user password rest
  | .header pre name sep => ∃ value, text = pre ++ (name ++ (sep ++ value)) ∧
      Headed word pre name sep value rest
  | .assignment pre key sep => ∃ value, text = pre ++ (key ++ (sep ++ '"' :: value)) ∧
      Assigned word pre key sep value rest

variable {word : Char → Bool} {text text' pre user t t' password password' rest : List Char}
  {cover : Cover}

lemma behind_dsnAt (h : DsnAt t user password rest) :
    dsnPattern.behind pre t = masked user ++ dsnPattern.sub rest := by
  rw [behind_dsnPattern]
  exact (masks_dsnPattern t).unique (.hit h (masks_dsnPattern rest))

lemma scrubChars_dsnAt (hr : dsnPattern.Reaches t [] pre) (hr' : dsnPattern.Reaches t' [] pre)
    (h : DsnAt t user password rest) (h' : DsnAt t' user password' rest) :
    scrubChars word (pre ++ t) = scrubChars word (pre ++ t') := by
  have hsub : dsnPattern.sub (pre ++ t) = dsnPattern.sub (pre ++ t') := by
    rw [Pattern.sub_append hr, Pattern.sub_append hr', ahead_dsnPattern hr, ahead_dsnPattern hr',
      behind_dsnAt h, behind_dsnAt h']
  simp only [scrubChars, valuePatterns, List.foldl_cons, hsub]

lemma scrubChars_cover (hword : WordClass word) (h : cover.Leaves word text rest)
    (h' : cover.Leaves word text' rest) : scrubChars word text = scrubChars word text' := by
  cases cover with
  | dsn =>
    obtain ⟨t, password, rfl, hr, hd⟩ := h
    obtain ⟨t', password', rfl, hr', hd'⟩ := h'
    exact scrubChars_dsnAt hr hr' hd hd'
  | header =>
    obtain ⟨value, rfl, hv⟩ := h
    obtain ⟨value', rfl, hv'⟩ := h'
    exact (scrubChars_header_iff hword hv hv').mpr rfl
  | assignment =>
    obtain ⟨value, rfl, hv⟩ := h
    obtain ⟨value', rfl, hv'⟩ := h'
    exact (scrubChars_assignment_iff hword hv hv').mpr rfl

end Covers

section Places

/-- Where a value stands: behind a header's colon to the end of the line, or between the quotes of
an assignment. -/
inductive Place
  | header (pre name blanks : String)
  | quoted (pre key blanks blanks' post : String)

def Place.before : Place → String
  | .header pre name blanks => pre ++ name ++ ":" ++ blanks
  | .quoted pre key blanks blanks' _ => pre ++ key ++ blanks ++ "=" ++ blanks' ++ "\""

def Place.after : Place → String
  | .header .. => ""
  | .quoted _ _ _ _ post => "\"" ++ post

def Place.text (place : Place) (value : String) : String := place.before ++ value ++ place.after

def Place.Admits : Place → String → Prop
  | .header .., value => '\n' ∉ value.toList
  | .quoted .., value => '\n' ∉ value.toList ∧ '"' ∉ value.toList

variable {word : Char → Bool}

lemma scrubValue_separator_ne (hword : WordClass word) (place : Place) :
    scrubValue word (place.text "a , b") ≠ scrubValue word (place.text "a ; b") := by
  have hne :=
    scrubChars_separator_ne hword (place.before.toList ++ ['a']) (' ' :: 'b' :: place.after.toList)
  have hcomma : (place.text "a , b").toList =
      (place.before.toList ++ ['a']) ++ ' ' :: ',' :: (' ' :: 'b' :: place.after.toList) := by
    simp [Place.text]
  have hsemicolon : (place.text "a ; b").toList =
      (place.before.toList ++ ['a']) ++ ' ' :: ';' :: (' ' :: 'b' :: place.after.toList) := by
    simp [Place.text]
  rw [scrubValue, scrubValue, hcomma, hsemicolon]
  exact fun heq => hne (String.ofList_injective heq)

lemma admits_separators (place : Place) : place.Admits "a , b" ∧ place.Admits "a ; b" := by
  cases place with
  | header =>
    have hline : '\n' ∉ "a , b".toList ∧ '\n' ∉ "a ; b".toList := by decide
    exact hline
  | quoted =>
    have hline : ('\n' ∉ "a , b".toList ∧ '"' ∉ "a , b".toList) ∧ '\n' ∉ "a ; b".toList ∧
        '"' ∉ "a ; b".toList := by
      decide
    exact hline

lemma leaves_header {text name sep value rest : List Char} (htext : text = name ++ (sep ++ value))
    (hname : Named headerNames name) (hedge : name.head?.any word) (hsep : IsSep isHeaderSign sep)
    (ht : Taken (exposed sep value) rest) : (Cover.header [] name sep).Leaves word text rest :=
  ⟨value, htext, hname, by simp [hedge], hsep, Pattern.clear_nil _, ht⟩

lemma leaves_assignment {text key sep value token rest : List Char}
    (htext : text = key ++ (sep ++ '"' :: value)) (hkey : IsKey word key)
    (hedge : key.head?.any word) (hsep : IsSep (· == '=') sep) (htoken : IsValue token)
    (hstop : rest.head?.any isValueChar = false)
    (hexposed : exposed sep ('"' :: value) = '"' :: (token ++ rest))
    (hheader : (headerPattern word).Absent [] ((key ++ (sep ++ '"' :: token)) ++ closing rest)
      (unclosed rest)) (hbearer : (bearerPattern word).Absent [] ((key ++ (sep ++ '"' :: token)) ++
      closing rest) ((headerPattern word).behind [mark rest] (unclosed rest))) :
    (Cover.assignment [] key sep).Leaves word text rest := by
  refine ⟨value, htext, hkey, hsep, Pattern.clear_nil _, ?_, hstop, token, htoken, hexposed, ?_, ?_⟩
  · simp [Pattern.aheads_nil, hedge]
  · rwa [Pattern.aheads_nil]
  · rwa [Pattern.aheads_nil]

end Places

end AstropathRelay.Logging
