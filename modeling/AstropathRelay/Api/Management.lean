import AstropathRelay.DataPlane.Keyring
import AstropathRelay.Store.Secrets
import AstropathRelay.Store.Tables

/-! The management API: what each route checks, what it commits, and the status it answers. -/

namespace AstropathRelay.Api

open Lib Lib.ByteStrings DataPlane Providers Store

section Payloads

def lengthOk (s : String) : Bool := 1 ≤ s.length ∧ s.length ≤ 255

/-- PostgreSQL takes no NUL in a text. -/
def storable (s : String) : Bool := Char.ofNat 0 ∉ s.toList

def inInt32 (n : ℤ) : Bool := -2147483648 ≤ n ∧ n ≤ 2147483647

structure BackendCreate where
  name : String
  type : String
  config : Config

structure BackendUpdate where
  name : Option String
  config : Option Config

structure DomainCreate where
  zone : String
  backendId : ℤ
  recordName : String
  heDynamicKey : Option String

structure TsigKeyCreate where
  name : String
  algorithm : String

end Payloads

inductive Request
  | createBackend (payload : BackendCreate) (r : ℕ)
  | updateBackend (id : ℤ) (payload : BackendUpdate) (r : ℕ)
  | deleteBackend (id : ℤ)
  | createDomain (payload : DomainCreate) (r : ℕ)
  | deleteDomain (id : ℤ)
  | createTsigKey (payload : TsigKeyCreate) (drawn : Octets) (r : ℕ)
  | revokeTsigKey (id : ℤ)

namespace Status
def ok : ℕ := 200
def created : ℕ := 201
def noContent : ℕ := 204
def notFound : ℕ := 404
def conflict : ℕ := 409
def unprocessable : ℕ := 422
def serverError : ℕ := 500
end Status

variable {Key Token : Type} (F : Fernet Key Token) (kek : Kek Key)

def encryptedConfig (p : ProviderType) (config : Config) (r : ℕ) : Except ℕ Token :=
  match modelValidate p config with
  | .error _ => .error Status.unprocessable
  | .ok c =>
    match SecretCodec.encryptJson F kek r (modelDump c) with
    | .error _ => .error Status.serverError
    | .ok token => .ok token

section Routes

def createBackend (payload : BackendCreate) (r : ℕ) : Except ℕ (Write Token) :=
  if !lengthOk payload.name ∨ payload.type = "" then .error Status.unprocessable
  else match getProvider payload.type with
    | none => .error Status.unprocessable
    | some p => do
      let token ← encryptedConfig F kek p payload.config r
      if !storable payload.name then .error Status.serverError
      else return .addBackend payload.name payload.type token

def patchedConfig (type : String) (config : Option Config) (r : ℕ) : Except ℕ (Option Token) :=
  match config with
  | none => .ok none
  | some config =>
    match getProvider type with
    | none => .error Status.unprocessable
    | some p => (encryptedConfig F kek p config r).map some

def updateBackend (db : Database Token) (id : ℤ) (payload : BackendUpdate)
    (r : ℕ) : Except ℕ (Write Token) :=
  if payload.name.any (fun n => !lengthOk n) then .error Status.unprocessable
  else if !inInt32 id then .error Status.serverError
  else match db.backend? id with
    | none => .error Status.notFound
    | some row => do
      let token ← patchedConfig F kek row.type payload.config r
      if payload.name.any (fun n => !storable n) then .error Status.serverError
      else return .setBackend row.id payload.name token

def deleteBackend (db : Database Token) (id : ℤ) : Except ℕ (Write Token) :=
  if !inInt32 id then .error Status.serverError
  else match db.backend? id with
    | none => .error Status.notFound
    | some row =>
      if db.tables.domains.any (fun d => d.backendId = row.id) then .error Status.conflict
      else .ok (.dropBackend row.id)

def domainSecret (heDynamicKey : Option String) (r : ℕ) : Option Token :=
  match heDynamicKey with
  | none => none
  | some key => if key = "" then none else some (SecretCodec.encryptText F kek r key)

def createDomain (db : Database Token) (payload : DomainCreate) (r : ℕ) : Except ℕ (Write Token) :=
  if !lengthOk payload.zone ∨ !lengthOk payload.recordName then .error Status.unprocessable
  else if !inInt32 payload.backendId then .error Status.serverError
  else match db.backend? payload.backendId with
    | none => .error Status.unprocessable
    | some row =>
      if !storable payload.zone ∨ !storable payload.recordName then .error Status.serverError
      else .ok (.addDomain payload.zone row.id payload.recordName
        (domainSecret F kek payload.heDynamicKey r))

def deleteDomain (db : Database Token) (id : ℤ) : Except ℕ (Write Token) :=
  if !inInt32 id then .error Status.serverError
  else match db.domain? id with
    | none => .error Status.notFound
    | some row => .ok (.dropDomain row.id)

def createTsigKey (payload : TsigKeyCreate) (drawn : Octets) (r : ℕ) : Except ℕ (Write Token) :=
  if !lengthOk payload.name then .error Status.unprocessable
  else match algorithmFromText payload.algorithm with
    | none => .error Status.unprocessable
    | some _ =>
      if !storable payload.name then .error Status.serverError
      else .ok (.addTsigKey payload.name payload.algorithm
        (SecretCodec.encryptText F kek r (generateTsigSecret drawn)))

def revokeTsigKey (db : Database Token) (id : ℤ) : Except ℕ (Write Token) :=
  if !inInt32 id then .error Status.serverError
  else match db.tsigKey? id with
    | none => .error Status.notFound
    | some row => .ok (.dropTsigKey row.id)

def prepare (db : Database Token) : Request → Except ℕ (Write Token)
  | .createBackend payload r => createBackend F kek payload r
  | .updateBackend id payload r => updateBackend F kek db id payload r
  | .deleteBackend id => deleteBackend db id
  | .createDomain payload r => createDomain F kek db payload r
  | .deleteDomain id => deleteDomain db id
  | .createTsigKey payload drawn r => createTsigKey F kek payload drawn r
  | .revokeTsigKey id => revokeTsigKey db id

end Routes

def Request.success : Request → ℕ
  | createBackend _ _ => Status.created
  | updateBackend _ _ _ => Status.ok
  | deleteBackend _ => Status.noContent
  | createDomain _ _ => Status.created
  | deleteDomain _ => Status.noContent
  | createTsigKey _ _ _ => Status.created
  | revokeTsigKey _ => Status.noContent

-- The status of a request whose commit raised `IntegrityError`, which the deletes do not catch.
def Request.failure : Request → ℕ
  | createBackend _ _ => Status.conflict
  | updateBackend _ _ _ => Status.conflict
  | createDomain _ _ => Status.conflict
  | createTsigKey _ _ _ => Status.conflict
  | deleteBackend _ => Status.serverError
  | deleteDomain _ => Status.serverError
  | revokeTsigKey _ => Status.serverError

def handle (db : Database Token) (req : Request) : ℕ × Database Token :=
  match prepare F kek db req with
  | .error status => (status, db)
  | .ok w =>
    match db.commit w with
    | some db' => (req.success, db')
    | none => (req.failure, db.drawn w)

end AstropathRelay.Api
