import AstropathRelay.Logging.LongRuns

/-! Two log calls that differ in the values of secret fields alone, and when their lines are the
same. -/

namespace AstropathRelay.Logging

open Lib

section Alike

variable {α : Type} (lower : String → String)

mutual

inductive Alike : Value α → Value α → Prop
  | str (s : String) : Alike (.str s) (.str s)
  | other (a : α) : Alike (.other a) (.other a)
  | list {items items' : List (Value α)} : List.Forall₂ Alike items items' →
      Alike (.list items) (.list items')
  | tuple {items items' : List (Value α)} : List.Forall₂ Alike items items' →
      Alike (.tuple items) (.tuple items')
  | mapping (kind : String) {items items' : List (Key α × Value α)} : List.Forall₂ AlikeItem items
      items' → Alike (.mapping kind items) (.mapping kind items')

inductive AlikeItem : Key α × Value α → Key α × Value α → Prop
  | secret {key : Key α} (value value' : Value α) : key.isSecret lower →
      AlikeItem (key, value) (key, value')
  | same (key : Key α) {value value' : Value α} : Alike value value' →
      AlikeItem (key, value) (key, value')

end

structure AlikeCalls (call call' : Call α) : Prop where
  name : call.name = call'.name
  levelname : call.levelname = call'.levelname
  created : call.created = call'.created
  msg : call.msg = call'.msg
  excInfo : call.excInfo = call'.excInfo
  stackInfo : call.stackInfo = call'.stackInfo
  args : List.Forall₂ (Alike lower) call.args call'.args
  extra : List.Forall₂ (AlikeItem lower) call.extra call'.extra

def AlikeEntry (item item' : Key α × Value α) : Prop :=
  item.1 = item'.1 ∧ (item.1.isSecret lower ∨ item.2 = item'.2)

inductive AlikeAtTop : Value α → Value α → Prop
  | same (value : Value α) : AlikeAtTop value value
  | mapping (kind : String) {items items' : List (Key α × Value α)} : List.Forall₂
      (AlikeEntry lower) items items' → AlikeAtTop (.mapping kind items) (.mapping kind items')

variable {lower}

lemma AlikeItem.key_eq {item item' : Key α × Value α} (h : AlikeItem lower item item') :
    item.1 = item'.1 := by
  cases h <;> rfl

lemma redactItem_eq_iff {item item' : Key α × Value α} :
    redactItem lower item = redactItem lower item' ↔ AlikeEntry lower item item' := by
  obtain ⟨key, value⟩ := item
  obtain ⟨key', value'⟩ := item'
  simp only [redactItem, AlikeEntry, Prod.mk.injEq]
  refine and_congr_right fun hkey => ?_
  subst hkey
  split
  · next h => simp [h]
  · next h => simp [h]

lemma forall₂_iff_map_eq {β γ : Type} {f : β → γ} {S : β → β → Prop} (h : ∀ {a b}, f a = f b ↔
      S a b) (l l' : List β) : l.map f = l'.map f ↔ List.Forall₂ S l l' := by
  rw [← List.forall₂_eq_eq_eq, List.forall₂_map_left_iff, List.forall₂_map_right_iff]
  simp only [h]

lemma redactItems_eq_iff {items items' : List (Key α × Value α)} :
    items.map (redactItem lower) = items'.map (redactItem lower) ↔
      List.Forall₂ (AlikeEntry lower) items items' :=
  forall₂_iff_map_eq redactItem_eq_iff items items'

lemma redactArg_eq_iff {value value' : Value α} (h : Alike lower value value') :
    redactArg lower value = redactArg lower value' ↔ AlikeAtTop lower value value' := by
  constructor
  · intro heq
    cases h with
    | str s => exact .same _
    | other a => exact .same _
    | list _ | tuple _ =>
      simp only [redactArg] at heq
      exact heq ▸ .same _
    | mapping kind _ => exact .mapping kind (redactItems_eq_iff.mp (Value.mapping.inj heq).2)
  · rintro (_ | ⟨kind, hitems⟩)
    · rfl
    · rw [redactArg, redactArg, redactMapping, redactMapping, redactItems_eq_iff.mpr hitems]

lemma redactArg_list_eq_iff {args args' : List (Value α)}
    (h : List.Forall₂ (Alike lower) args args') : args.map (redactArg lower) =
    args'.map (redactArg lower) ↔ List.Forall₂ (AlikeAtTop lower) args args' := by
  induction h with
  | nil => simp
  | cons hvalue _ ih => rw [List.map_cons, List.map_cons, List.cons.injEq, List.forall₂_cons,
      redactArg_eq_iff hvalue, ih]

end Alike

section Args

variable {α : Type} {lower : String → String}

lemma recordArgs_injective : Function.Injective (recordArgs (α := α)) := by
  intro args args' h
  unfold recordArgs at h
  split at h <;> split at h
  · obtain ⟨rfl, hitems⟩ := Args.mapping.inj h
    rw [hitems]
  · cases h
  · cases h
  · exact Args.tuple.inj h

lemma redactArgs_recordArgs (args : List (Value α)) :
    redactArgs lower (recordArgs args) = recordArgs (args.map (redactArg lower)) := by
  unfold recordArgs
  split
  · rfl
  · next hne =>
    split
    · next kind item items heq =>
      obtain ⟨value, rfl, hvalue⟩ := List.map_eq_singleton_iff.mp heq
      cases value with
      | mapping kind' items' =>
        cases items' with
        | nil => simp [redactArg, redactMapping] at hvalue
        | cons item' items' => exact absurd rfl (hne _ _ _)
      | str | other | list | tuple => simp [redactArg] at hvalue
    · rfl

lemma isEmpty_recordArgs (args : List (Value α)) : (recordArgs args).isEmpty = args.isEmpty := by
  unfold recordArgs
  split <;> rfl

end Args

section Frame

variable {α : Type} {R : Runtime α}

lemma endLine_append (l : Line) {m : Line} (h : m ≠ []) : endLine (l ++ m) = l ++ endLine m := by
  have hlast : (l ++ m).getLast? = m.getLast? := List.getLast?_append_of_ne_nil l h
  rw [endLine, endLine, hlast]
  split
  · rfl
  · rw [List.append_assoc]

lemma endLine_letter {c : Char} (hc : c ≠ '\n') (origin : Origin) :
    endLine [(c, origin)] = [(c, origin)] ++ write .own "\n" := by
  simp [endLine, hc]

lemma exists_intersperse (before after : List Line) :
    ∃ pre post, ∀ l : Line,
      ((before ++ l :: after).intersperse (write .own ", ")).flatten = pre ++ (l ++ post) := by
  induction before with
  | nil =>
    cases after with
    | nil => exact ⟨[], [], by simp⟩
    | cons m after =>
      refine ⟨[], write .own ", " ++ ((m :: after).intersperse (write .own ", ")).flatten,
        fun l => ?_⟩
      rw [List.nil_append, List.nil_append, List.intersperse_cons_cons, List.flatten_cons,
        List.flatten_cons]
  | cons m before ih =>
    obtain ⟨pre, post, h⟩ := ih
    refine ⟨m ++ (write .own ", " ++ pre), post, fun l => ?_⟩
    cases before with
    | nil =>
      have hl := h l
      rw [List.nil_append] at hl
      rw [List.cons_append, List.nil_append, List.intersperse_cons_cons, List.flatten_cons,
        List.flatten_cons, hl]
      simp
    | cons m' before =>
      have hl := h l
      rw [List.cons_append] at hl
      rw [List.cons_append, List.cons_append, List.intersperse_cons_cons, List.flatten_cons,
        List.flatten_cons, hl]
      simp

lemma write_singleton (c : Char) : write .taken (String.singleton c) = [(c, .taken)] := by
  simp [write]

lemma exists_append_part {line : Char → Line} {pre post : Line}
    (h : ∀ c, isRunChar c → line c = pre ++ (c, .taken) :: post) (origin : Origin) (part : String) :
    ∃ post, ∀ c, isRunChar c → (if part = "" then line c
      else endLine (line c) ++ write origin part) = pre ++ (c, .taken) :: post := by
  by_cases hpart : part = ""
  · exact ⟨post, fun c hc => by rw [if_pos hpart, h c hc]⟩
  · cases post with
    | nil =>
      refine ⟨write .own "\n" ++ write origin part, fun c hc => ?_⟩
      have hne : c ≠ '\n' := by
        rintro rfl
        exact absurd hc (by decide)
      rw [if_neg hpart, h c hc, endLine_append pre (by simp), endLine_letter hne]
      simp
    | cons x post =>
      refine ⟨endLine (x :: post) ++ write origin part, fun c hc => ?_⟩
      rw [if_neg hpart, h c hc, ← List.singleton_append, ← List.append_assoc,
        endLine_append _ (List.cons_ne_nil x post)]
      simp

lemma exists_textLine (record : LogRecord α)
    (correlationId : String) : ∃ pre post, ∀ c, isRunChar c →
    textLine R record correlationId (String.singleton c) = pre ++ (c, .taken) :: post := by
  have hmessage : ∀ c, isRunChar c →
      write .own (R.formatTime record.created ++ " " ++ padRight 8 record.levelname ++ " [") ++
      write .taken correlationId ++ write .own ("] " ++ record.name ++ ": ") ++
      write .taken (String.singleton c) =
      write .own (R.formatTime record.created ++ " " ++ padRight 8 record.levelname ++ " [") ++
      write .taken correlationId ++ write .own ("] " ++ record.name ++ ": ") ++ (c, .taken) :: [] :=
    fun c _ => by rw [write_singleton]
  obtain ⟨post, hpost⟩ := exists_append_part hmessage .taken (textException R record)
  obtain ⟨post', hpost'⟩ := exists_append_part hpost .own record.stackInfo
  exact ⟨_, post', hpost'⟩

lemma exists_jsonLine (record : LogRecord α)
    (correlationId : Option (Value α)) : ∃ pre post, ∀ c, isRunChar c →
    jsonLine R record correlationId (String.singleton c) = pre ++ (c, .taken) :: post := by
  let member := fun m : String × Line => jsonString .own m.1 ++ write .own ": " ++ m.2
  obtain ⟨pre, post, h⟩ :=
    exists_intersperse ([("ts", jsonString .own (R.formatTime record.created)),
      ("level", jsonString .own record.levelname), ("logger", jsonString .own record.name),
      ("correlation_id", jsonValue R correlationId)].map member) ((record.excInfo.map fun e =>
      ("exc_info", jsonString .taken (R.formatException e))).toList.map member)
  refine ⟨write .own "\x7b" ++ pre ++ jsonString .own "message" ++ write .own ": " ++
    write .own "\"", write .own "\"" ++ post ++ write .own "\x7d", fun c hc => ?_⟩
  have hletter : jsonString .taken (String.singleton c) = write .own "\"" ++
      (c, .taken) :: write .own "\"" := by
    simp [jsonString, jsonChar, escapeChar_of_isRunChar hc]
  have hline := h (member ("message", jsonString .taken (String.singleton c)))
  rw [List.map_cons, List.map_cons, List.map_cons, List.map_cons, List.map_nil] at hline
  simp only [jsonLine, jsonObject, List.map_cons, List.cons_append, List.nil_append]
  simp only [List.cons_append, List.nil_append] at hline
  rw [hline]
  simp [member, hletter]

lemma scrubValue_singleton (word : Char → Bool) (c : Char) :
    scrubValue word (String.singleton c) = String.singleton c := by
  have hlength : ∀ P ∈ valuePatterns word, [c].length < P.regex.minLength := by
    simp only [valuePatterns, List.forall_mem_cons]
    refine ⟨?_, ?_, ?_, ?_, ?_, ?_⟩
    · exact Nat.le_of_ble_eq_true rfl
    · exact Nat.le_of_ble_eq_true rfl
    · exact Nat.le_of_ble_eq_true rfl
    · exact Nat.le_of_ble_eq_true rfl
    · exact Nat.le_of_ble_eq_true rfl
    · simp
  have hfold : ∀ Ps : List (Pattern Char), (∀ P ∈ Ps, [c].length < P.regex.minLength) →
      Ps.foldl (fun text P => P.sub text) [c] = [c] := by
    intro Ps hPs
    induction Ps with
    | nil => rfl
    | cons P Ps ih =>
      obtain ⟨hP, hPs⟩ := List.forall_mem_cons.mp hPs
      rw [List.foldl_cons, Pattern.sub_of_length_lt P hP, ih hPs]
  rw [scrubValue, String.toList_singleton, scrubChars, hfold _ hlength, String.singleton_eq_ofList]

end Frame

section Calls

variable {α : Type} {R : Runtime α} {fmt : Format} {correlationId : Option String}
  {call call' : Call α}

def Call.overwrites (call : Call α) : Bool := call.extra.any (fun item => item.1.isReserved)

variable (R fmt correlationId call) in
def callLine (message : String) : String :=
  Line.text (lineOf R fmt ⟨call.name, call.levelname, call.created, call.msg, .tuple [],
    call.excInfo, "", call.stackInfo, ∅⟩ (stampedId R correlationId) (scrubValue R.word message) ++
    write .own "\n")

lemma callLine_congr (h : AlikeCalls R.lower call call') :
    callLine R fmt correlationId call = callLine R fmt correlationId call' := by
  funext message
  rw [callLine, callLine, h.name, h.levelname, h.created, h.msg, h.excInfo, h.stackInfo]

lemma callLine_singleton_injective {c c' : Char} (hc : isRunChar c) (hc' : isRunChar c')
    (h : callLine R fmt correlationId call (String.singleton c) =
      callLine R fmt correlationId call (String.singleton c')) : c = c' := by
  obtain ⟨pre, post, hline⟩ : ∃ pre post, ∀ c, isRunChar c → lineOf R fmt ⟨call.name,
      call.levelname, call.created, call.msg, .tuple [], call.excInfo, "", call.stackInfo,
      ∅⟩ (stampedId R correlationId) (String.singleton c) = pre ++ (c, .taken) :: post := by
    cases fmt with
    | text => exact exists_textLine _ _
    | json => exact exists_jsonLine _ _
  rw [callLine, callLine, scrubValue_singleton, scrubValue_singleton, hline c hc, hline c' hc'] at h
  simpa [Line.text] using h

lemma AlikeCalls.overwrites_eq (h : AlikeCalls R.lower call call') :
    call.overwrites = call'.overwrites := by
  have hextra := h.extra
  rw [Call.overwrites, Call.overwrites]
  generalize call.extra = extra, call'.extra = extra' at hextra ⊢
  induction hextra with
  | nil => rfl
  | cons hitem _ ih => rw [List.any_cons, List.any_cons, hitem.key_eq, ih]

variable [DecidableEq α]

lemma emit_eq (h : call.overwrites = false) : emit R fmt correlationId call =
    (if call.args.isEmpty then some (R.text call.msg)
      else R.percent (R.text call.msg) (recordArgs (call.args.map (redactArg R.lower)))).map
        (callLine R fmt correlationId call) := by
  have hrecord : makeRecord call = some ⟨call.name, call.levelname, call.created, call.msg,
      recordArgs call.args, call.excInfo, "", call.stackInfo, Dict.ofList call.extra⟩ := by
    rw [makeRecord, ← Call.overwrites, h]
    rfl
  simp only [emit, hrecord, handle_eq, LogRecord.getMessage, redactArgs_recordArgs,
    isEmpty_recordArgs, List.isEmpty_map, Option.bind_eq_bind, Option.bind_some, Option.pure_def]
  generalize (if call.args.isEmpty then some (R.text call.msg)
    else R.percent (R.text call.msg) (recordArgs (call.args.map (redactArg R.lower)))) = message
  cases message with
  | none => rfl
  | some message => cases fmt <;> rfl

lemma emit_of_overwrites (h : call.overwrites) : emit R fmt correlationId call = none := by
  have hnone : makeRecord call = none := by rw [makeRecord, ← Call.overwrites, if_pos h]
  rw [emit, hnone]
  rfl

/-- The lines agree, whatever the arguments look like as text, exactly when the calls differ in
nothing but the values of secret keys of mappings that are themselves arguments. -/
theorem secretFields_iff (R : Runtime α) (fmt : Format) (correlationId : Option String)
    (call call' : Call α) (h : AlikeCalls R.lower call call') :
    (∀ percent, emit { R with percent := percent } fmt correlationId call =
      emit { R with percent := percent } fmt correlationId call') ↔
      call.overwrites ∨ List.Forall₂ (AlikeAtTop R.lower) call.args call'.args := by
  have hoverwrites := h.overwrites_eq
  have h' : ∀ percent,
      AlikeCalls ({ R with percent := percent } : Runtime α).lower call call' := fun _ => h
  have hempty : call.args.isEmpty = call'.args.isEmpty := by
    rw [Bool.eq_iff_iff, List.isEmpty_iff_length_eq_zero, List.isEmpty_iff_length_eq_zero,
      h.args.length_eq]
  cases hcall : call.overwrites with
  | true =>
    rw [hcall] at hoverwrites
    simp [emit_of_overwrites hcall, emit_of_overwrites hoverwrites.symm]
  | false =>
    rw [hcall] at hoverwrites
    simp only [emit_eq hcall, emit_eq hoverwrites.symm, ← redactArg_list_eq_iff h.args,
      Bool.false_eq_true, false_or]
    constructor
    · intro hemit
      by_contra hne
      classical
      have hargs : call.args.isEmpty = false := by
        rw [Bool.eq_false_iff, ne_eq, List.isEmpty_iff]
        intro hnil
        rw [hnil, List.isEmpty_nil, eq_comm, List.isEmpty_iff] at hempty
        rw [hnil, hempty] at hne
        exact hne rfl
      have hother : recordArgs (call'.args.map (redactArg R.lower)) ≠
          recordArgs (call.args.map (redactArg R.lower)) :=
        fun heq => hne (recordArgs_injective heq).symm
      have hlines := hemit fun _ args =>
        some (String.singleton (if args = recordArgs (call.args.map (redactArg R.lower)) then 'a'
          else 'b'))
      rw [← hempty, hargs] at hlines
      simp only [Bool.false_eq_true, if_false, if_true, if_neg hother, Option.map_some,
        Option.some.injEq] at hlines
      rw [← callLine_congr (h' _)] at hlines
      exact absurd (callLine_singleton_injective (by decide) (by decide) hlines) (by decide)
    · intro heq percent
      rw [heq, hempty, h.msg, callLine_congr (h' percent)]

end Calls

section Password

def authCall (args : List (Value String)) : Call String where
  name := "astropath.auth"
  levelname := "INFO"
  created := 0
  msg := .str "auth %s"
  args := args
  excInfo := none
  stackInfo := ""
  extra := []

def withPassword (password : String) : Value String :=
  .mapping "dict" [(.str "user", .str "sa"), (.str "password", .str password)]

lemma alikeItem_password (password password' : String) :
    AlikeItem plain.lower ((.str "password", .str password) : Key String × Value String)
      (.str "password", .str password') :=
  .secret _ _ (by decide +kernel)

lemma alike_withPassword (password password' : String) :
    Alike plain.lower (withPassword password) (withPassword password') :=
  .mapping _ (.cons (.same _ (.str _)) (.cons (alikeItem_password _ _) .nil))

lemma alikeCalls_auth {args args' : List (Value String)}
    (h : List.Forall₂ (Alike plain.lower) args args') :
    AlikeCalls plain.lower (authCall args) (authCall args') :=
  ⟨rfl, rfl, rfl, rfl, rfl, rfl, h, .nil⟩

theorem secretFields_flat : (∀ percent,
      emit { plain with percent := percent } .json none (authCall [withPassword "tiger"]) =
      emit { plain with percent := percent } .json none (authCall [withPassword "scott"])) ↔
    (authCall [withPassword "tiger"]).overwrites ∨
    List.Forall₂ (AlikeAtTop plain.lower) [withPassword "tiger"] [withPassword "scott"] :=
  secretFields_iff plain .json none _ _ (alikeCalls_auth (.cons (alike_withPassword _ _) .nil))

theorem secretFields_nested :
    AlikeCalls plain.lower (authCall [.mapping "dict" [(.str "db", withPassword "tiger")]])
      (authCall [.mapping "dict" [(.str "db", withPassword "scott")]]) ∧
    emit plain .text none (authCall [.mapping "dict" [(.str "db", withPassword "tiger")]]) ≠
      emit plain .text none (authCall [.mapping "dict" [(.str "db", withPassword "scott")]]) := by
  refine ⟨alikeCalls_auth (.cons (.mapping _ (.cons (.same _ (alike_withPassword _ _)) .nil)) .nil),
    ?_⟩
  decide +kernel

end Password

end AstropathRelay.Logging
