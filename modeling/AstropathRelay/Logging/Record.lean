import AstropathRelay.Lib.Dict
import AstropathRelay.Lib.JsonText
import AstropathRelay.Logging.Scrub

/-! A log call on its way to stdout: the record, the two filters of the console handler and its two
formatters. -/

namespace AstropathRelay.Logging

open Lib

inductive Key (α : Type)
  | str (name : String)
  | other (a : α)
deriving DecidableEq

inductive Value (α : Type)
  | str (s : String)
  | other (a : α)
  | list (items : List (Value α))
  | tuple (items : List (Value α))
  | mapping (kind : String) (items : List (Key α × Value α))

inductive Args (α : Type)
  | tuple (items : List (Value α))
  | mapping (kind : String) (items : List (Key α × Value α))

/-- What the language does with texts and objects: `str.lower`, `\w`, `str`, `%` (none where it
raises), `json.dumps` of what is no string, and the texts of times and exceptions. -/
structure Runtime (α : Type) where
  lower : String → String
  word : Char → Bool
  str : Value α → String
  percent : String → Args α → Option String
  dumps : Value α → String
  formatTime : ℕ → String
  formatException : α → String

structure LogRecord (α : Type) where
  name : String
  levelname : String
  created : ℕ
  msg : Value α
  args : Args α
  excInfo : Option α
  excText : String
  stackInfo : String
  extras : Dict (Key α) (Value α)

structure Call (α : Type) where
  name : String
  levelname : String
  created : ℕ
  msg : Value α
  args : List (Value α)
  excInfo : Option α
  stackInfo : String
  extra : List (Key α × Value α)

section Fields

def denyFieldFragments : List String :=
  ["password", "passwd", "secret", "token", "credential", "kek", "dsn", "authorization", "api_key",
    "apikey", "x_api_key", "cookie", "he_dynamic_key", "dynamic_key", "private_key", "tsig_secret",
    "session_secret", "password_hash", "bearer", "passphrase"]

def allowFields : List String :=
  ["key_name", "tsig_key_name", "key_id", "tsig_key_id", "token_count", "token_type", "public_key"]

def reservedAttrs : List String :=
  ["name", "msg", "args", "levelname", "levelno", "pathname", "filename", "module", "exc_info",
    "exc_text", "stack_info", "lineno", "funcName", "created", "msecs", "relativeCreated", "thread",
    "threadName", "processName", "process", "taskName", "message", "asctime"]

variable (lower : String → String)

def isSecretKey (name : String) : Bool :=
  let normalized := (lower name).toList.map (fun c => if c = '-' then '_' else c)
  if normalized ∈ allowFields.map String.toList then false
  else denyFieldFragments.any (fun fragment => fragment.toList <:+: normalized)

variable {α : Type}

def Key.isSecret : Key α → Bool
  | .str name => isSecretKey lower name
  | .other _ => false

def redactItem (item : Key α × Value α) : Key α × Value α :=
  (item.1, if item.1.isSecret lower then .str redacted else item.2)

def redactMapping (items : List (Key α × Value α)) : Value α :=
  .mapping "dict" (items.map (redactItem lower))

def redactArg : Value α → Value α
  | .mapping _ items => redactMapping lower items
  | item => item

def redactArgs : Args α → Args α
  | .mapping _ items => .mapping "dict" (items.map (redactItem lower))
  | .tuple items => .tuple (items.map (redactArg lower))

end Fields

section Pipeline

variable {α : Type} (R : Runtime α)

-- A lone non-empty mapping stands for the arguments.
def recordArgs : List (Value α) → Args α
  | [.mapping kind (item :: items)] => .mapping kind (item :: items)
  | args => .tuple args

def Key.isReserved : Key α → Bool
  | .str name => name ∈ reservedAttrs
  | .other _ => false

/-- Extras that would overwrite an attribute of the record raise. -/
def makeRecord [DecidableEq α] (call : Call α) : Option (LogRecord α) :=
  if call.extra.any (fun item => item.1.isReserved) then none
  else some ⟨call.name, call.levelname, call.created, call.msg, recordArgs call.args, call.excInfo,
    "", call.stackInfo, Dict.ofList call.extra⟩

def Runtime.text : Value α → String
  | .str s => s
  | value => R.str value

def Args.isEmpty : Args α → Bool
  | .tuple items => items.isEmpty
  | .mapping _ items => items.isEmpty

def LogRecord.getMessage (record : LogRecord α) : Option String :=
  let msg := R.text record.msg
  if record.args.isEmpty then some msg else R.percent msg record.args

def unset : String := "-"

def boundId (correlationId : Option String) : String :=
  match correlationId with
  | some id => if id = "" then unset else id
  | none => unset

def correlationIdFilter [DecidableEq α] (correlationId : Option String)
    (record : LogRecord α) : LogRecord α :=
  { record with extras := record.extras.set (.str "correlation_id") (.str (boundId correlationId)) }

def redactExtra (item : Key α × Value α) : Key α × Value α :=
  match item with
  | (.str name, value) =>
    if name ∈ reservedAttrs then item
    else if isSecretKey R.lower name then (.str name, .str redacted)
    else match value with
      | .str s => (.str name, .str (scrubValue R.word s))
      | _ => item
  | _ => item

def redactionFilter (record : LogRecord α) : Option (LogRecord α) := do
  let extras : Dict (Key α) (Value α) := ⟨record.extras.entries.map (redactExtra R)⟩
  let record := { record with extras := extras, args := redactArgs R.lower record.args }
  let message ← record.getMessage R
  return { record with msg := .str (scrubValue R.word message), args := .tuple [] }

inductive Origin
  | own
  | taken
deriving DecidableEq

abbrev Line := List (Char × Origin)

def Line.text (line : Line) : String := String.ofList (line.map Prod.fst)

def write (origin : Origin) (text : String) : Line := text.toList.map (·, origin)

def jsonChar (origin : Origin) (c : Char) : Line :=
  if JsonText.escapeChar c = [c] then [(c, origin)] else (JsonText.escapeChar c).map (·, .own)

def jsonString (origin : Origin) (text : String) : Line :=
  write .own "\"" ++ text.toList.flatMap (jsonChar origin) ++ write .own "\""

def jsonValue : Option (Value α) → Line
  | none => write .own "null"
  | some (.str s) => jsonString .taken s
  | some value => write .taken (R.dumps value)

def jsonObject (members : List (String × Line)) : Line :=
  let member := fun m : String × Line => jsonString .own m.1 ++ write .own ": " ++ m.2
  write .own "\x7b" ++ ((members.map member).intersperse (write .own ", ")).flatten ++
    write .own "\x7d"

inductive Format
  | text
  | json
deriving DecidableEq

def padRight (width : ℕ) (s : String) : String :=
  String.ofList (s.toList ++ List.replicate (width - s.length) ' ')

def endLine (line : Line) : Line :=
  if (line.getLast?).map Prod.fst = some '\n' then line else line ++ write .own "\n"

def textException (record : LogRecord α) : String :=
  if record.excText = "" then (record.excInfo.map R.formatException).getD "" else record.excText

def textLine (record : LogRecord α) (correlationId message : String) : Line :=
  let s := write .own (R.formatTime record.created ++ " " ++ padRight 8 record.levelname ++ " [") ++
    write .taken correlationId ++ write .own ("] " ++ record.name ++ ": ") ++ write .taken message
  let excText := textException R record
  let s := if excText = "" then s else endLine s ++ write .taken excText
  if record.stackInfo = "" then s else endLine s ++ write .own record.stackInfo

def formatText [DecidableEq α] (record : LogRecord α) : Option Line := do
  let message ← record.getMessage R
  let correlationId ← record.extras.get? (.str "correlation_id")
  return textLine R record (R.text correlationId) message

def jsonLine (record : LogRecord α) (correlationId : Option (Value α)) (message : String) : Line :=
  let payload := [("ts", jsonString .own (R.formatTime record.created)),
    ("level", jsonString .own record.levelname), ("logger", jsonString .own record.name),
    ("correlation_id", jsonValue R correlationId), ("message", jsonString .taken message)]
  let excInfo := record.excInfo.map fun e => ("exc_info", jsonString .taken (R.formatException e))
  jsonObject (payload ++ excInfo.toList)

def formatJson [DecidableEq α] (record : LogRecord α) : Option Line := do
  let message ← record.getMessage R
  return jsonLine R record (record.extras.get? (.str "correlation_id")) message

def format [DecidableEq α] : Format → LogRecord α → Option Line
  | .text => formatText R
  | .json => formatJson R

def handle [DecidableEq α] (fmt : Format) (correlationId : Option String)
    (record : LogRecord α) : Option Line := do
  let record ← redactionFilter R (correlationIdFilter correlationId record)
  let line ← format R fmt record
  return line ++ write .own "\n"

def emit [DecidableEq α] (fmt : Format) (correlationId : Option String)
    (call : Call α) : Option String := do
  let record ← makeRecord call
  let line ← handle R fmt correlationId record
  return line.text

def stampedId (correlationId : Option String) : String :=
  if isSecretKey R.lower "correlation_id" then redacted
    else scrubValue R.word (boundId correlationId)

def lineOf (fmt : Format) (record : LogRecord α) (correlationId message : String) : Line :=
  match fmt with
  | .text => textLine R record correlationId message
  | .json => jsonLine R record (some (.str correlationId)) message

section Spec

variable {R}

lemma redactExtra_key (item : Key α × Value α) : (redactExtra R item).1 = item.1 := by
  obtain ⟨key | key, value⟩ := item
  · simp only [redactExtra]
    split
    · rfl
    · split
      · rfl
      · split <;> rfl
  · rfl

lemma lookup_redactExtra [DecidableEq α] (key : Key α) (items : List (Key α × Value α)) :
    (items.map (redactExtra R)).lookup key = (items.lookup key).map fun value =>
      (redactExtra R (key, value)).2 := by
  induction items with
  | nil => rfl
  | cons item items ih =>
    rw [List.map_cons, List.lookup_cons, List.lookup_cons, redactExtra_key, ih]
    split
    · next h =>
      rw [eq_of_beq h]
      rfl
    · rfl

lemma redactExtra_correlationId (id : String) :
    (redactExtra R ((.str "correlation_id", .str id) : Key α × Value α)).2 =
      .str (if isSecretKey R.lower "correlation_id" then redacted else scrubValue R.word id) := by
  rw [redactExtra, if_neg (by decide)]
  split <;> rfl

variable [DecidableEq α]

lemma get?_correlationId (correlationId : Option String) (record : LogRecord α) :
    Dict.get? ⟨(correlationIdFilter correlationId record).extras.entries.map (redactExtra R)⟩
      (Key.str "correlation_id" : Key α) = some (.str (stampedId R correlationId)) := by
  have hset : (correlationIdFilter correlationId record).extras.get? (.str "correlation_id") =
      some (.str (boundId correlationId)) := by
    rw [correlationIdFilter, Dict.get?_set, beq_self_eq_true, if_pos rfl]
  rw [Dict.get?, lookup_redactExtra]
  change Option.map _ (Dict.get? _ _) = _
  rw [hset, Option.map_some, redactExtra_correlationId, stampedId]

lemma handle_eq (fmt : Format) (correlationId : Option String) (record : LogRecord α) :
    handle R fmt correlationId record =
      ({ record with args := redactArgs R.lower record.args }.getMessage R).map fun message =>
        lineOf R fmt record (stampedId R correlationId) (scrubValue R.word message) ++
          write .own "\n" := by
  have hmessage : LogRecord.getMessage R { correlationIdFilter correlationId record with
      extras := ⟨(correlationIdFilter correlationId record).extras.entries.map (redactExtra R)⟩,
      args := redactArgs R.lower record.args } =
        { record with args := redactArgs R.lower record.args }.getMessage R := rfl
  have hid := get?_correlationId (R := R) correlationId record
  simp only [handle, redactionFilter, Option.bind_eq_bind, Option.pure_def]
  change (Option.bind
    (Option.bind (LogRecord.getMessage R { correlationIdFilter correlationId record with
      extras := ⟨(correlationIdFilter correlationId record).extras.entries.map (redactExtra R)⟩,
      args := redactArgs R.lower record.args }) _) _) = _
  rw [hmessage]
  cases { record with args := redactArgs R.lower record.args }.getMessage R with
  | none => rfl
  | some message =>
    cases fmt with
    | text => simp only [Option.bind_some, format, formatText, hid]; rfl
    | json => simp only [Option.bind_some, format, formatJson, hid]; rfl

end Spec

end Pipeline

section Plain

def keyRepr : Key String → String
  | .str name => "'" ++ name ++ "'"
  | .other text => text

mutual

def repr : Value String → String
  | .str s => "'" ++ s ++ "'"
  | .other text => text
  | .list items => "[" ++ ", ".intercalate (reprs items) ++ "]"
  | .tuple [item] => "(" ++ repr item ++ ",)"
  | .tuple items => "(" ++ ", ".intercalate (reprs items) ++ ")"
  | .mapping _ items => "\x7b" ++ ", ".intercalate (reprItems items) ++ "\x7d"

def reprs : List (Value String) → List String
  | [] => []
  | item :: items => repr item :: reprs items

def reprItems : List (Key String × Value String) → List String
  | [] => []
  | (key, value) :: items => (keyRepr key ++ ": " ++ repr value) :: reprItems items

end

def plainText : Value String → String
  | .str s => s
  | value => repr value

def percentS : List Char → List String → Option (List Char)
  | '%' :: 's' :: rest, arg :: args => (percentS rest args).map (arg.toList ++ ·)
  | '%' :: _, _ => none
  | c :: rest, args => (percentS rest args).map (c :: ·)
  | [], [] => some []
  | [], _ :: _ => none

-- The runtime on ASCII text without quotes and with `%s` alone; every other object is known by its
-- text.
def plain : Runtime String where
  lower := fun s => String.ofList (s.toList.map Char.toLower)
  word := asciiWord
  str := repr
  percent := fun msg args => (match args with
    | .tuple items => percentS msg.toList (items.map plainText)
    | .mapping kind items => percentS msg.toList [repr (.mapping kind items)]).map String.ofList
  dumps := fun value => "\"" ++ repr value ++ "\""
  formatTime := fun _ => "1970-01-01 00:00:00,000"
  formatException := id

end Plain

end AstropathRelay.Logging
