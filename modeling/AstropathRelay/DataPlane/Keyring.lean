import AstropathRelay.Dns.Tsig
import AstropathRelay.Dns.NameText
import AstropathRelay.Lib.Base64
import AstropathRelay.Lib.ClassRuns
import Mathlib.Data.List.DropRight

/-! The algorithm-bound keyring of `data_plane/tsig.py`. -/

namespace AstropathRelay.DataPlane

open Lib Lib.ByteStrings Dns

def supportedAlgorithms : List (String × Algorithm) :=
  [("hmac-sha256", .hmacSha256), ("hmac-sha384", .hmacSha384), ("hmac-sha512", .hmacSha512),
    ("hmac-sha224", .hmacSha224), ("hmac-sha1", .hmacSha1), ("hmac-md5", .hmacMd5)]

/-- `_normalize_algorithm`. No letter outside ASCII has a lower case that a supported algorithm is
spelled with, so only ASCII letters are lowered. -/
def normalizeAlgorithm (text : String) : String :=
  let stripped := (text.toList.dropWhile isSpace).rdropWhile isSpace
  let chars := (stripped.rdropWhile (· = '.')).map Char.toLower
  let normalized := String.ofList chars
  if supportedAlgorithms.any (fun e => e.1 = normalized) then normalized
  else if ['h', 'm', 'a', 'c'] <+: chars ∧ '-' ∉ chars then
    let candidate := String.ofList (['h', 'm', 'a', 'c', '-'] ++ chars.drop 4)
    if supportedAlgorithms.any (fun e => e.1 = candidate) then candidate else normalized
  else normalized

def algorithmFromText (text : String) : Option Algorithm :=
  supportedAlgorithms.lookup (normalizeAlgorithm text)

structure TsigKeySpec where
  name : String
  algorithm : String
  secretB64 : String
deriving DecidableEq

inductive BuildError
  | unknownAlgorithm
  | name (e : NameError)
  | base64
  | unknownProvider
  | validation
deriving DecidableEq

variable (fromUnicode : String → Except NameError Name)

def parseName (text : String) : Except BuildError Name :=
  match Name.fromText fromUnicode text with
  | .ok n => .ok n
  | .error e => .error (.name e)

def keyOfSpec (spec : TsigKeySpec) : Except BuildError (Name × Key) :=
  match algorithmFromText spec.algorithm with
  | none => .error .unknownAlgorithm
  | some algorithm => do
    let name ← parseName fromUnicode spec.name
    match Base64.decode spec.secretB64 with
    | none => .error .base64
    | some secret => return (name, ⟨name, secret, algorithm⟩)

def buildKeyring (specs : List TsigKeySpec) : Except BuildError Keyring := do
  let keys ← specs.mapM (keyOfSpec fromUnicode)
  return Dict.ofList keys

variable {fromUnicode}

lemma parseName_ok {text : String} {n : Name} :
    parseName fromUnicode text = .ok n ↔ Name.fromText fromUnicode text = .ok n := by
  rw [parseName]
  split <;> simp_all

lemma keyOfSpec_ok {spec : TsigKeySpec} {e : Name × Key} : keyOfSpec fromUnicode spec = .ok e ↔
    ∃ algorithm name secret, algorithmFromText spec.algorithm = some algorithm ∧
    Name.fromText fromUnicode spec.name = .ok name ∧ Base64.decode spec.secretB64 = some secret ∧
    e = (name, ⟨name, secret, algorithm⟩) := by
  rw [keyOfSpec]
  cases ha : algorithmFromText spec.algorithm with
  | none => simp
  | some algorithm =>
    cases hn : parseName fromUnicode spec.name with
    | error err =>
      have hne : ∀ n, Name.fromText fromUnicode spec.name ≠ .ok n := fun n hh => by
        rw [parseName_ok.mpr hh] at hn
        simp at hn
      simp [bind, Except.bind, hne]
    | ok name =>
      have hn' := parseName_ok.mp hn
      cases hs : Base64.decode spec.secretB64 with
      | none => simp [bind, Except.bind]
      | some secret => simp [bind, Except.bind, pure, Except.pure, hn', eq_comm]

end AstropathRelay.DataPlane
