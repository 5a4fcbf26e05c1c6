import AstropathRelay.Lib.ClassRuns
import AstropathRelay.Lib.Substitution

/-! The value patterns of `logging_config.py` and `_scrub_value`. -/

namespace AstropathRelay.Logging

open Lib Lib.Regex

section Classes

/-- Besides its other case an ASCII letter takes, when case is ignored, the dotted and the dotless
`i`, the long `s` and the Kelvin sign. -/
def foldCase (c : Char) : Char :=
  if c.toNat = 0x130 ∨ c.toNat = 0x131 then 'i'
  else if c.toNat = 0x17F then 's'
  else if c.toNat = 0x212A then 'k'
  else c.toLower

def noneOf (cs : List Char) (c : Char) : Bool := !isSpace c && c ∉ cs

def literal (s : String) : Regex Char := seqs (s.toList.map fun a => one (· == a))

def ignoreCase (s : String) : Regex Char := seqs (s.toList.map fun a => one (foldCase · == a))

def apiKey : Regex Char :=
  seqs [ignoreCase "api", many (· ∈ ['_', '-']) 0 (some 1), ignoreCase "key"]

lemma mem_run_literal {s : String} {c d : Cursor Char} : d ∈ run (literal s) c ↔
    c.Takes s.toList d := by
  have hrow : literal s = seqs ((s.toList.map fun a => (· == a)).map one) := by
    rw [List.map_map]
    rfl
  rw [hrow, mem_run_row]
  simp only [List.forall₂_map_left_iff, beq_iff_eq]
  constructor
  · rintro ⟨m, hm, hd⟩
    have hm' : List.Forall₂ (· = ·) m s.toList := hm.flip
    rw [List.forall₂_eq_eq_eq] at hm'
    rwa [hm'] at hd
  · intro hd
    exact ⟨s.toList, List.forall₂_same.mpr fun _ _ => rfl, hd⟩

end Classes

def redacted : String := "<REDACTED>"

def dsnPattern : Pattern Char where
  regex := seqs [
    group "pre" (seqs [literal "://", many (noneOf [':', '/', '@']) 1 none, one (· == ':')]),
    many (noneOf ['@', '/']) 1 none,
    group "at" (one (· == '@'))]
  template := [.ref "pre", .text redacted.toList, .ref "at"]
  consumes := by decide

section Word

variable (word : Char → Bool)

/-- Auth headers and API keys. `word` is `\w`, by which `\b` is defined too. -/
def headerPattern : Pattern Char where
  regex := seqs [
    group "name"
      (seqs [boundary word, alts [ignoreCase "authorization", ignoreCase "proxy-authorization",
      ignoreCase "x-api-key", apiKey, ignoreCase "cookie", ignoreCase "set-cookie"]]),
    group "sep" (seqs [many isSpace 0 none, one (· ∈ [':', '=']), many isSpace 0 none]),
    optional (alts [seq (ignoreCase "bearer") (many isSpace 1 none),
      seq (ignoreCase "basic") (many isSpace 1 none)]),
    many (noneOf [',', ';']) 1 none]
  template := [.ref "name", .ref "sep", .text redacted.toList]
  consumes := by simp [seqs, consumes]

def bearerPattern : Pattern Char where
  regex := seqs [boundary word,
    group "scheme" (alts [ignoreCase "bearer", ignoreCase "basic"]),
    many isSpace 1 none,
    many (fun c => (foldCase c).isAlphanum || c ∈ ['.', '_', '~', '+', '/', '=', '-']) 8 none]
  template := [.ref "scheme", .text (" " ++ redacted).toList]
  consumes := by simp [seqs, consumes]

def isNameChar (c : Char) : Bool := word c || c ∈ ['.', '-']

def assignmentPattern : Pattern Char where
  regex := seqs [
    group "key" (seqs [boundary word, many (isNameChar word) 0 none, alts [ignoreCase "password",
      ignoreCase "passwd", ignoreCase "secret", ignoreCase "credential", ignoreCase "kek",
      ignoreCase "token", apiKey], many (isNameChar word) 0 none]),
    group "sep" (seqs [many isSpace 0 none, one (· == '='), many isSpace 0 none]),
    many (· ∈ ['"', '\'']) 0 (some 1),
    many (noneOf ['"', '\'', ',', ';']) 1 none,
    many (· ∈ ['"', '\'']) 0 (some 1)]
  template := [.ref "key", .ref "sep", .text redacted.toList]
  consumes := by simp [seqs, consumes]

def isRunChar (c : Char) : Bool := c.isAlphanum || c ∈ ['+', '/', '_', '-']

def runPattern : Pattern Char where
  regex := seqs [many isRunChar 40 none, many (· == '=') 0 (some 2)]
  template := [.text redacted.toList]
  consumes := by simp [seqs, consumes]

def valuePatterns : List (Pattern Char) :=
  [dsnPattern, headerPattern word, bearerPattern word, assignmentPattern word, runPattern]

def scrubChars (text : List Char) : List Char :=
  (valuePatterns word).foldl (fun text P => P.sub text) text

def scrubValue (text : String) : String := String.ofList (scrubChars word text.toList)

end Word

def asciiWord (c : Char) : Bool := c.isAlphanum || c == '_'

end AstropathRelay.Logging
