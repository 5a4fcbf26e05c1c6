import AstropathRelay.Lib.ClassRuns
import AstropathRelay.Logging.Record

/-! Long runs of base64 characters on their way to the line: the message and the correlation id
carry none, the text of an exception is written as it stands. -/

namespace AstropathRelay.Logging

open Lib Lib.Regex

section Scrubbed

lemma lead_of_scan {before rest out : List Char} (h : runPattern.Scan before rest out) :
    lead isRunChar out ≤ lead isRunChar rest ∧ ¬ HasRun isRunChar 40 out := by
  induction h with
  | done => exact ⟨le_rfl, not_hasRun_nil (by decide)⟩
  | @skip before a as out hm _ ih =>
    have hle : lead isRunChar (a :: out) ≤ lead isRunChar (a :: as) := by
      cases ha : isRunChar a with
      | true =>
        rw [lead_cons_of_pos ha, lead_cons_of_pos ha]
        exact Nat.succ_le_succ ih.1
      | false => rw [lead_cons_of_neg ha, lead_cons_of_neg ha]
    have hshort : ¬ 40 ≤ lead isRunChar (a :: as) := by
      intro hlong
      obtain ⟨run, ⟨rest, hr⟩, hn, hp⟩ := le_lead_iff.mp hlong
      obtain ⟨c, hc, hrest⟩ := Cursor.exists_takes (c := ⟨before, a :: as, []⟩) hr.symm
      refine Pattern.not_mem_run_of_matchAt (c := c) hm ?_
      rw [runPattern, mem_run_seqs_cons]
      refine ⟨c, mem_run_many.mpr ⟨run, hp, hn, by simp, hc⟩, ?_⟩
      rw [mem_run_seqs_cons]
      exact ⟨c, mem_run_many.mpr ⟨[], by simp, by simp, by simp, Cursor.takes_nil.mpr rfl⟩,
        mem_run_seqs_nil.mpr rfl⟩
    refine ⟨hle, fun hr => ?_⟩
    rcases hasRun_cons.mp hr with hr | hr
    · exact hshort (hr.trans hle)
    · exact ih.2 hr
  | @hit before a as out c _ _ ih =>
    have hexpand : runPattern.expand c.groups = '<' :: ("REDACTED".toList ++ ['>']) := by
      simp [runPattern, Pattern.expand, Pattern.expandPiece, redacted]
    rw [hexpand, List.cons_append, lead_cons_of_neg (by decide), List.append_assoc]
    refine ⟨Nat.zero_le _, fun hr => ?_⟩
    rw [hasRun_cons_of_neg (by decide) (by decide), List.singleton_append,
      hasRun_append_cons (by decide) (by decide)] at hr
    rcases hr with ⟨run, hr, hn, -⟩ | hr
    · exact absurd (hn.trans hr.length_le) (by decide)
    · exact ih.2 hr

lemma not_hasRun_scrubValue (word : Char → Bool) (text : String) :
    ¬ HasRun isRunChar 40 (scrubValue word text).toList := by
  have hlast : ∀ chars, ¬ HasRun isRunChar 40 (runPattern.sub chars) := fun chars =>
    (lead_of_scan (runPattern.scan_sub chars)).2
  simp only [scrubValue, scrubChars, valuePatterns, List.foldl_cons, List.foldl_nil,
    String.toList_ofList]
  exact hlast _

end Scrubbed

section Lines

def isTaken (x : Char × Origin) : Bool := isRunChar x.1 && x.2 = .taken

def TakenRun (line : Line) : Prop := HasRun isTaken 40 line

lemma isTaken_own (c : Char) : isTaken (c, .own) = false := by simp [isTaken]

lemma isTaken_taken (c : Char) : isTaken (c, .taken) = isRunChar c := by simp [isTaken]

lemma own_of_mem_write {text : String} : ∀ x ∈ write .own text, isTaken x = false := by
  intro x hx
  obtain ⟨c, -, rfl⟩ := List.mem_map.mp hx
  exact isTaken_own c

lemma takenRun_write (text : String) : TakenRun (write .taken text) ↔
    HasRun isRunChar 40 text.toList := by
  rw [TakenRun, write, List.map_eq_flatMap]
  refine hasRun_flatMap (by decide) (fun c hc => ⟨(c, .taken), rfl, ?_⟩) fun c hc => ⟨by simp, ?_⟩
  · rw [isTaken_taken, hc]
  · simp [isTaken_taken, hc]

lemma escapeChar_of_isRunChar {c : Char} (h : isRunChar c) : JsonText.escapeChar c = [c] := by
  have hascii : c.toNat < 128 := by
    rw [isRunChar] at h
    delta Char.isAlphanum Char.isAlpha Char.isUpper Char.isLower Char.isDigit at h
    simp only [Bool.or_eq_true, Bool.and_eq_true, decide_eq_true_eq, UInt32.le_iff_toNat_le,
      List.mem_cons, List.not_mem_nil, or_false] at h
    rcases h with (((⟨-, h⟩ | ⟨-, h⟩) | ⟨-, h⟩) | rfl | rfl | rfl | rfl)
    all_goals first | exact h.trans_lt (by decide) | decide
  have hchars : ∀ n : Fin 128, isRunChar (Char.ofNat n) →
      JsonText.escapeChar (Char.ofNat n) = [Char.ofNat n] := by
    decide +kernel
  have hc := hchars ⟨c.toNat, hascii⟩
  rw [Char.ofNat_toNat] at hc
  exact hc h

lemma escapeChar_ne_nil (c : Char) : JsonText.escapeChar c ≠ [] := by
  rw [JsonText.escapeChar]
  split
  · simp
  · split
    · simp
    · split <;> simp

lemma takenRun_jsonString (text : String) :
    TakenRun (jsonString .taken text) ↔ HasRun isRunChar 40 text.toList := by
  have hchars : HasRun isTaken 40 (text.toList.flatMap (jsonChar .taken)) ↔
      HasRun isRunChar 40 text.toList := by
    refine hasRun_flatMap (by decide) (fun c hc => ⟨(c, .taken), ?_, ?_⟩) fun c hc => ?_
    · rw [jsonChar, if_pos (escapeChar_of_isRunChar hc)]
    · rw [isTaken_taken, hc]
    · rw [jsonChar]
      split
      · simp [isTaken_taken, hc]
      · refine ⟨by simp [escapeChar_ne_nil], fun x hx => ?_⟩
        obtain ⟨d, -, rfl⟩ := List.mem_map.mp hx
        exact isTaken_own d
  have hquote : write .own "\"" = [('"', .own)] := rfl
  rw [TakenRun, jsonString, hquote, List.append_assoc, List.singleton_append, hasRun_cons_of_neg
    (by decide) (isTaken_own _), hasRun_append_cons (by decide) (isTaken_own _), hchars]
  simp [not_hasRun_nil]

lemma not_takenRun_nil : ¬ TakenRun [] := not_hasRun_nil (by decide)

lemma not_takenRun_own (text : String) : ¬ TakenRun (write .own text) :=
  not_hasRun_of_forall (by decide) own_of_mem_write

lemma takenRun_append_own {text : String} (h : text ≠ "") {l l' : Line} :
    TakenRun (l ++ (write .own text ++ l')) ↔ TakenRun l ∨ TakenRun l' := by
  refine hasRun_append_append (by decide) ?_ own_of_mem_write
  simpa [write, String.toList_eq_nil_iff] using h

lemma takenRun_endLine_append (l l' : Line) : TakenRun (endLine l ++ l') ↔
    TakenRun l ∨ TakenRun l' := by
  rw [endLine]
  split
  · next h =>
    obtain ⟨⟨c, origin⟩, hlast, hc⟩ := Option.map_eq_some_iff.mp h
    obtain rfl : c = '\n' := hc
    obtain ⟨l, rfl⟩ := List.getLast?_eq_some_iff.mp hlast
    have hend : isTaken ('\n', origin) = false := rfl
    have hnil : TakenRun (l ++ [('\n', origin)]) ↔ TakenRun l ∨ TakenRun [] :=
      hasRun_append_cons (by decide) hend
    rw [hnil, or_iff_left not_takenRun_nil, List.append_assoc, List.singleton_append]
    exact hasRun_append_cons (by decide) hend
  · rw [List.append_assoc, takenRun_append_own (by decide)]

lemma not_takenRun_jsonString_own (text : String) : ¬ TakenRun (jsonString .own text) := by
  refine not_hasRun_of_forall (by decide) fun x hx => ?_
  simp only [jsonString, List.mem_append, List.mem_flatMap, jsonChar] at hx
  rcases hx with (hx | ⟨c, -, hx⟩) | hx
  · exact own_of_mem_write x hx
  · split at hx
    · rw [List.mem_singleton.mp hx]
      exact isTaken_own c
    · obtain ⟨d, -, rfl⟩ := List.mem_map.mp hx
      exact isTaken_own d
  · exact own_of_mem_write x hx

lemma takenRun_intersperse (lines : List Line) :
    TakenRun (lines.intersperse (write .own ", ")).flatten ↔ ∃ l ∈ lines, TakenRun l := by
  induction lines with
  | nil => simp [TakenRun, not_hasRun_nil]
  | cons l lines ih =>
    cases lines with
    | nil => simp
    | cons l' lines =>
      rw [List.intersperse_cons_cons, List.flatten_cons, List.flatten_cons,
        takenRun_append_own (by decide), ih, List.exists_mem_cons_iff (l := l' :: lines)]

lemma takenRun_jsonObject (members : List (String × Line)) :
    TakenRun (jsonObject members) ↔ ∃ m ∈ members, TakenRun m.2 := by
  have hmember : ∀ m : String × Line, TakenRun (jsonString .own m.1 ++ write .own ": " ++ m.2) ↔
      TakenRun m.2 := by
    intro m
    rw [List.append_assoc, takenRun_append_own (by decide)]
    simp [not_takenRun_jsonString_own]
  rw [jsonObject, List.append_assoc, ← List.nil_append (write .own _ ++ _),
    takenRun_append_own (by decide),
    ← List.append_nil (write .own "\x7d"), takenRun_append_own (by decide), takenRun_intersperse]
  simp only [List.mem_map, exists_exists_and_eq_and, hmember, not_takenRun_nil, false_or, or_false]

end Lines

section Handler

variable {α : Type} (R : Runtime α)

def exceptionText (fmt : Format) (record : LogRecord α) : String :=
  match fmt with
  | .text => textException R record
  | .json => (record.excInfo.map R.formatException).getD ""

variable {R} {fmt : Format} {record : LogRecord α}

lemma takenRun_textLine {correlationId message : String}
    (hid : ¬ HasRun isRunChar 40 correlationId.toList) (hm : ¬ HasRun isRunChar 40 message.toList) :
    TakenRun (textLine R record correlationId message) ↔
      HasRun isRunChar 40 (textException R record).toList := by
  have hhead : ∀ before between : String, before ≠ "" → between ≠ "" →
      ¬ TakenRun (write .own before ++ write .taken correlationId ++ write .own between ++
      write .taken message) := by
    intro before between hbefore hbetween
    rw [List.append_assoc, takenRun_append_own hbetween, ← List.nil_append (write .own before ++ _),
      takenRun_append_own hbefore, takenRun_write, takenRun_write]
    simp [hid, hm, not_takenRun_nil]
  have hstack : ∀ l : Line, TakenRun (if record.stackInfo = "" then l
      else endLine l ++ write .own record.stackInfo) ↔ TakenRun l := by
    intro l
    split
    · rfl
    · rw [takenRun_endLine_append]
      simp [not_takenRun_own]
  rw [textLine, hstack]
  split
  · next hnone =>
    simp only [hnone, String.toList_empty, not_hasRun_nil (show 0 < 40 by decide), iff_false]
    exact hhead _ _ (by simp) (by simp)
  · rw [takenRun_endLine_append, takenRun_write]
    exact or_iff_right (hhead _ _ (by simp) (by simp))

lemma takenRun_jsonLine {correlationId message : String}
    (hid : ¬ HasRun isRunChar 40 correlationId.toList) (hm : ¬ HasRun isRunChar 40 message.toList) :
    TakenRun (jsonLine R record (some (.str correlationId)) message) ↔
      HasRun isRunChar 40 (exceptionText R .json record).toList := by
  rw [jsonLine, takenRun_jsonObject, exceptionText]
  cases record.excInfo with
  | none =>
    simp [not_takenRun_jsonString_own, jsonValue, takenRun_jsonString, hid, hm, not_hasRun_nil]
  | some e => simp [not_takenRun_jsonString_own, jsonValue, takenRun_jsonString, hid, hm]

/-- What stands in the line as it stood in the record holds no long run exactly when the text of the
exception, which no filter touches, holds none. -/
theorem longRuns_iff [DecidableEq α] (fmt : Format) (correlationId : Option String)
    (record : LogRecord α) (line : Line) (h : handle R fmt correlationId record = some line) :
    ¬ TakenRun line ↔ ¬ HasRun isRunChar 40 (exceptionText R fmt record).toList := by
  rw [handle_eq] at h
  obtain ⟨message, -, rfl⟩ := Option.map_eq_some_iff.mp h
  have hid : ¬ HasRun isRunChar 40 (stampedId R correlationId).toList := by
    rw [stampedId]
    split
    · rintro ⟨run, hr, hn, -⟩
      exact absurd (hn.trans hr.length_le) (by decide)
    · exact not_hasRun_scrubValue _ _
  have hm := not_hasRun_scrubValue R.word message
  rw [← List.append_nil (write .own "\n"), takenRun_append_own (by decide),
    or_iff_left not_takenRun_nil]
  cases fmt with
  | text => rw [lineOf, takenRun_textLine hid hm]; rfl
  | json => rw [lineOf, takenRun_jsonLine hid hm]

end Handler

section Key

def keyText : String := String.ofList (List.replicate 44 'A')

def failedDecrypt (message : Value String) : LogRecord String where
  name := "astropath.main"
  levelname := "ERROR"
  created := 0
  msg := message
  args := .tuple []
  excInfo := some ("ValueError: " ++ keyText)
  excText := ""
  stackInfo := ""
  extras := ∅

def failedLine : Line :=
  write .own "1970-01-01 00:00:00,000 ERROR    [" ++ write .taken "-" ++
    write .own "] astropath.main: " ++ write .taken "bad key <REDACTED>" ++ write .own "\n" ++
    write .taken ("ValueError: " ++ keyText) ++ write .own "\n"

lemma handle_failedDecrypt :
    handle plain .text none (failedDecrypt (.str ("bad key " ++ keyText))) = some failedLine := by
  decide +kernel

def wrongPadding : LogRecord String :=
  { failedDecrypt (.str ("bad key " ++ keyText)) with
    excInfo := some "ValueError: Incorrect padding" }

def paddingLine : Line :=
  write .own "1970-01-01 00:00:00,000 ERROR    [" ++ write .taken "-" ++
    write .own "] astropath.main: " ++ write .taken "bad key <REDACTED>" ++ write .own "\n" ++
    write .taken "ValueError: Incorrect padding" ++ write .own "\n"

lemma handle_wrongPadding : handle plain .text none wrongPadding = some paddingLine := by
  decide +kernel

theorem failedDecrypt_iff : (¬ TakenRun failedLine ↔ ¬ HasRun isRunChar 40
      (exceptionText plain .text (failedDecrypt (.str ("bad key " ++ keyText)))).toList) ∧
    ¬ TakenRun paddingLine := by
  refine ⟨longRuns_iff _ _ _ _ handle_failedDecrypt,
    (longRuns_iff _ _ _ _ handle_wrongPadding).mpr ?_⟩
  rintro ⟨run, hr, hn, -⟩
  exact absurd (hn.trans hr.length_le) (by decide +kernel)

theorem failedDecrypt_takenRun :
    handle plain .text none (failedDecrypt (.str ("bad key " ++ keyText))) = some failedLine ∧
      TakenRun failedLine := by
  refine ⟨handle_failedDecrypt, write .taken keyText, ?_, by decide +kernel, by decide +kernel⟩
  exact ⟨write .own "1970-01-01 00:00:00,000 ERROR    [" ++ write .taken "-" ++
    write .own "] astropath.main: " ++ write .taken "bad key <REDACTED>" ++ write .own "\n" ++
    write .taken "ValueError: ", write .own "\n",
    by decide +kernel⟩

end Key

end AstropathRelay.Logging
