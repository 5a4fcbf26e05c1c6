import AstropathRelay.Lib.Base64
import AstropathRelay.Providers.Schema

/-! Secrets at rest: the KEK over an ordered list of Fernet keys, and the codec for texts and
configs. -/

namespace AstropathRelay.Store

open Lib Lib.ByteStrings Lib.JsonText Providers

/-- Fernet on UTF-8 texts. A token depends on the randomness of its making, and decrypts under the
key that made it. -/
structure Fernet (Key Token : Type) where
  encrypt : Key → ℕ → String → Token
  decrypt : Key → Token → Option String
  decrypt_encrypt : ∀ key r text, decrypt key (encrypt key r text) = some text

structure Kek (Key : Type) where
  keys : List Key
  nonempty : keys ≠ []

variable {Key Token : Type} (F : Fernet Key Token) (kek : Kek Key)

namespace Kek

def encrypt (r : ℕ) (text : String) : Token := F.encrypt (kek.keys.head kek.nonempty) r text

def decrypt (token : Token) : Option String := kek.keys.findSome? (fun key => F.decrypt key token)

@[simp] lemma decrypt_encrypt (r : ℕ)
    (text : String) : kek.decrypt F (kek.encrypt F r text) = some text := by
  obtain ⟨keys, hk⟩ := kek
  cases keys with
  | nil => exact absurd rfl hk
  | cons key keys => simp [decrypt, encrypt, F.decrypt_encrypt]

def primary : Kek Key := ⟨[kek.keys.head kek.nonempty], by simp⟩

@[simp] lemma decrypt_primary_encrypt (r : ℕ) (text : String) :
    kek.primary.decrypt F (kek.encrypt F r text) = some text :=
  kek.primary.decrypt_encrypt F r text

end Kek

inductive StoreError
  | typeError
  | invalidToken
  | jsonDecode
deriving DecidableEq

def Kek.rotate (r : ℕ) (token : Token) : Except StoreError Token :=
  match kek.decrypt F token with
  | some text => .ok (kek.encrypt F r text)
  | none => .error .invalidToken

variable {F kek} in
lemma Kek.decrypt_of_rotate {r : ℕ} {token rotated : Token}
    (h : kek.rotate F r token = .ok rotated) : kek.decrypt F rotated = kek.decrypt F token := by
  unfold rotate at h
  cases ht : kek.decrypt F token with
  | none => simp [ht] at h
  | some text =>
    rw [ht] at h
    obtain rfl := Except.ok.inj h
    exact kek.decrypt_encrypt F r text

namespace SecretCodec

def encryptText (r : ℕ) (text : String) : Token := kek.encrypt F r text

def decryptText (token : Token) : Except StoreError String :=
  match kek.decrypt F token with
  | some text => .ok text
  | none => .error .invalidToken

def encryptJson (r : ℕ) (config : List (String × PyValue)) : Except StoreError Token :=
  match config.mapM (fun m => m.2.toScalar.map (fun v => (m.1, v))) with
  | some o => .ok (kek.encrypt F r (dumps o))
  | none => .error .typeError

def decryptJson (token : Token) : Except StoreError Config :=
  match kek.decrypt F token with
  | none => .error .invalidToken
  | some text =>
    match loads text with
    | none => .error .jsonDecode
    | some o => .ok (Dict.ofList (o.map (fun m => (m.1, Json.ofScalar m.2))))

@[simp] lemma decryptText_encryptText (r : ℕ) (text : String) :
    decryptText F kek (encryptText F kek r text) = .ok text := by
  simp [decryptText, encryptText]

end SecretCodec

def generateTsigSecret (drawn : Octets) : String := Base64.encode drawn

section Configs

lemma encryptJson_modelDump (r : ℕ) (c : ProviderConfig) :
    SecretCodec.encryptJson F kek r (modelDump c) = match c with
      | .hurricane c =>
        .ok (kek.encrypt F r (dumps [("cleanup_placeholder", .str c.cleanupPlaceholder)]))
      | .route53 _ => .error .typeError := by
  cases c with
  | hurricane c => rfl
  | route53 c => rfl

lemma decryptJson_hurricane (r : ℕ) (placeholder : String) : SecretCodec.decryptJson F kek
    (kek.encrypt F r (dumps [("cleanup_placeholder", .str placeholder)])) =
    .ok (Dict.ofList [("cleanup_placeholder", .str placeholder)]) := by
  simp [SecretCodec.decryptJson, loads_dumps, sortKeys, Json.ofScalar]

end Configs

end AstropathRelay.Store
