import AstropathRelay.Cache.Assembly
import AstropathRelay.Store.Secrets
import AstropathRelay.Store.Tables

/-! `cache.py`: from the rows that four SELECTs return to a snapshot. -/

namespace AstropathRelay.Cache

open Lib Dns DataPlane Providers Store

inductive LoadError
  | store (e : StoreError)
  | keyError
  | build (e : BuildError)
deriving DecidableEq

structure CacheSnapshot where
  runtime : DataPlaneRuntime
  tsigKeyIds : Dict Name ℕ
deriving DecidableEq

structure Selected (Token : Type) where
  tsigKeys : List (TsigKeyRow Token)
  backends : List (BackendRow Token)
  domains : List (DomainRow Token)
  tsigKeyIds : List (ℕ × String)

variable {Key Token : Type} (E : Platform) (F : Fernet Key Token) (kek : Kek Key)

section Rows

def liftStore {α : Type} : Except StoreError α → Except LoadError α
  | .ok a => .ok a
  | .error e => .error (.store e)

def liftBuild {α : Type} : Except BuildError α → Except LoadError α
  | .ok a => .ok a
  | .error e => .error (.build e)

def tsigKeySpec (row : TsigKeyRow Token) : Except LoadError TsigKeySpec := do
  let secret ← liftStore (SecretCodec.decryptText F kek row.secretEncrypted)
  return ⟨row.name, row.algorithm, secret⟩

def backendConfig (row : BackendRow Token) : Except LoadError BackendConfig := do
  let config ← liftStore (SecretCodec.decryptJson F kek row.configEncrypted)
  return ⟨row.name, row.type, config⟩

def domainKey (row : DomainRow Token) : Except LoadError (Option String) :=
  match row.secretEncrypted with
  | none => .ok none
  | some token => (liftStore (SecretCodec.decryptText F kek token)).map some

def zoneConfig (backendById : Dict ℕ (BackendRow Token))
    (row : DomainRow Token) : Except LoadError ZoneConfig :=
  match backendById.get? row.backendId with
  | none => .error .keyError
  | some backend => do
    let key ← domainKey F kek row
    return ⟨row.zone, backend.type, row.recordName, key, some backend.name⟩

end Rows

def loadConfigFromDb (rows : Selected Token) : Except LoadError BootstrapConfig := do
  let tsigKeys ← rows.tsigKeys.mapM (tsigKeySpec F kek)
  let backendById := Dict.ofList (rows.backends.map (fun r => (r.id, r)))
  let backends ← rows.backends.mapM (backendConfig F kek)
  let zones ← rows.domains.mapM (zoneConfig F kek backendById)
  return ⟨tsigKeys, zones, backends⟩

def loadTsigKeyIds (rows : List (ℕ × String)) : Except LoadError (Dict Name ℕ) := do
  let names ← rows.mapM (fun row => do
    let name ← liftBuild (parseName E.fromUnicode row.2)
    return (name.canonicalize, row.1))
  return Dict.ofList names

def loadRuntime (rows : Selected Token) : Except LoadError DataPlaneRuntime := do
  let config ← loadConfigFromDb F kek rows
  liftBuild (buildDataPlane E config)

def load (rows : Selected Token) : Except LoadError CacheSnapshot := do
  let config ← loadConfigFromDb F kek rows
  let ids ← loadTsigKeyIds E rows.tsigKeyIds
  let runtime ← liftBuild (buildDataPlane E config)
  return ⟨runtime, ids⟩

structure Selects (t : Tables Token) (rows : Selected Token) : Prop where
  tsigKeys : rows.tsigKeys.Perm t.tsigKeys
  backends : rows.backends.Perm t.backends
  domains : rows.domains.Perm t.domains
  tsigKeyIds : rows.tsigKeyIds.Perm (t.tsigKeys.map (fun r => (r.id, r.name)))

end AstropathRelay.Cache
