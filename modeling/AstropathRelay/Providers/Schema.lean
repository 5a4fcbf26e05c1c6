import AstropathRelay.Lib.Dict
import AstropathRelay.Lib.JsonText
import AstropathRelay.Providers.Base

/-! The config schemas of the providers: validation of a request's config, the dump of the validated
model, and `from_config`. -/

namespace AstropathRelay.Providers

open Lib Lib.JsonText

/-- A value of a config mapping. No field takes a list or a mapping, and a float counts only by its
value; one that is not finite has none. -/
inductive Json
  | null
  | bool (b : Bool)
  | int (n : ℤ)
  | float (q : Option ℚ)
  | str (s : String)
  | compound
deriving DecidableEq

abbrev Config := Dict String Json

inductive FieldError
  | missing
  | stringType
  | boolType
  | boolParsing
deriving DecidableEq

structure HurricaneConfig where
  cleanupPlaceholder : String
deriving DecidableEq

structure Route53Config where
  accessKeyId : String
  secretAccessKey : String
  hostedZoneId : String
  region : Option String
  awaitInsync : Bool
deriving DecidableEq

inductive ProviderConfig
  | hurricane (c : HurricaneConfig)
  | route53 (c : Route53Config)
deriving DecidableEq

def ProviderConfig.type : ProviderConfig → ProviderType
  | hurricane _ => .hurricane
  | route53 _ => .route53

section Fields

def strField (config : Config) (name : String)
    (default : Option String) : Except FieldError String :=
  match config.get? name, default with
  | none, some d => .ok d
  | none, none => .error .missing
  | some (.str s), _ => .ok s
  | some _, _ => .error .stringType

def optStrField (config : Config) (name : String) : Except FieldError (Option String) :=
  match config.get? name with
  | none => .ok none
  | some .null => .ok none
  | some (.str s) => .ok (some s)
  | some _ => .error .stringType

def falseTexts : List String := ["0", "off", "f", "false", "n", "no"]
def trueTexts : List String := ["1", "on", "t", "true", "y", "yes"]

def strAsBool (s : String) : Except FieldError Bool :=
  let lower := String.ofList (s.toList.map Char.toLower)
  if lower ∈ falseTexts then .ok false
  else if lower ∈ trueTexts then .ok true
  else .error .boolParsing

def intAsBool (n : ℤ) : Except FieldError Bool :=
  if n = 0 then .ok false else if n = 1 then .ok true else .error .boolParsing

def boolField (config : Config) (name : String) (default : Bool) : Except FieldError Bool :=
  match config.get? name with
  | none => .ok default
  | some (.bool b) => .ok b
  | some (.str s) => strAsBool s
  | some (.int n) => intAsBool n
  | some (.float (some q)) => if q.den = 1 then intAsBool q.num else .error .boolType
  | some _ => .error .boolType

def fieldErrors (fields : List (String × Option FieldError)) : List (String × FieldError) :=
  fields.filterMap (fun f => f.2.map (fun e => (f.1, e)))

def errorOf {α : Type} : Except FieldError α → Option FieldError
  | .ok _ => none
  | .error e => some e

end Fields

def modelValidate (p : ProviderType)
    (config : Config) : Except (List (String × FieldError)) ProviderConfig :=
  match p with
  | .hurricane =>
    match strField config "cleanup_placeholder" (some "acme-challenge-cleared") with
    | .ok s => .ok (.hurricane ⟨s⟩)
    | .error e => .error [("cleanup_placeholder", e)]
  | .route53 =>
    let access := strField config "access_key_id" none
    let secret := strField config "secret_access_key" none
    let zone := strField config "hosted_zone_id" none
    let region := optStrField config "region"
    let insync := boolField config "await_insync" false
    match access, secret, zone, region, insync with
    | .ok a, .ok s, .ok z, .ok r, .ok i => .ok (.route53 ⟨a, s, z, r, i⟩)
    | _, _, _, _, _ => .error (fieldErrors [("access_key_id", errorOf access),
        ("secret_access_key", errorOf secret), ("hosted_zone_id", errorOf zone),
        ("region", errorOf region), ("await_insync", errorOf insync)])

inductive PyValue
  | str (s : String)
  | bool (b : Bool)
  | none
  | secretStr (s : String)
deriving DecidableEq

def modelDump : ProviderConfig → List (String × PyValue)
  | .hurricane c => [("cleanup_placeholder", .str c.cleanupPlaceholder)]
  | .route53 c => [("access_key_id", .str c.accessKeyId),
      ("secret_access_key", .secretStr c.secretAccessKey), ("hosted_zone_id", .str c.hostedZoneId),
      ("region", c.region.elim .none .str), ("await_insync", .bool c.awaitInsync)]

def PyValue.toScalar : PyValue → Option Scalar
  | str s => some (.str s)
  | bool b => some (.bool b)
  | none => some .null
  | secretStr _ => Option.none

def Json.ofScalar : Scalar → Json
  | .str s => .str s
  | .bool b => .bool b
  | .null => .null

structure Provider where
  config : ProviderConfig
  recordKeys : Dict String String
deriving DecidableEq

def fromConfig (p : ProviderType)
    (config : Config) : Except (List (String × FieldError)) Provider :=
  (modelValidate p config).map (fun c => ⟨c, ∅⟩)

lemma type_of_modelValidate {p : ProviderType} {config : Config} {c : ProviderConfig}
    (h : modelValidate p config = .ok c) : c.type = p := by
  unfold modelValidate at h
  split at h
  · split at h
    · obtain rfl := Except.ok.inj h
      rfl
    · simp at h
  · dsimp only at h
    split at h
    · obtain rfl := Except.ok.inj h
      rfl
    · simp at h

end AstropathRelay.Providers
