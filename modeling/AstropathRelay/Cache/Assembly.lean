import AstropathRelay.DataPlane.Dispatcher
import AstropathRelay.DataPlane.Keyring
import AstropathRelay.Providers.Schema

/-! `assembly.py`: from a decrypted config to the keyring, the routes and one provider per backend.
-/

namespace AstropathRelay.Cache

open Lib Dns DataPlane Providers

structure ZoneConfig where
  zone : String
  provider : String
  recordName : String
  heDynamicKey : Option String
  backend : Option String
deriving DecidableEq

structure BackendConfig where
  name : String
  provider : String
  config : Config

structure BootstrapConfig where
  tsigKeys : List TsigKeySpec
  zones : List ZoneConfig
  backends : List BackendConfig

-- What assembling depends on outside the program: the IDNA path of `from_text`, and `str.lower`.
structure Platform where
  fromUnicode : String → Except NameError Name
  lower : String → String

structure ProviderRef where
  key : String
  type : ProviderType
deriving DecidableEq

structure DataPlaneRuntime where
  keyring : Keyring
  routing : RoutingTable ProviderRef
  providers : Dict String Provider
deriving DecidableEq

def normalizeRecord (E : Platform) (recordName : String) : String :=
  E.lower (String.ofList (recordName.toList.rdropWhile (· = '.')))

def Provider.registerRecordKey (E : Platform) (p : Provider)
    (recordName dynamicKey : String) : Provider :=
  { p with recordKeys := p.recordKeys.set (normalizeRecord E recordName) dynamicKey }

section Build

variable (E : Platform)

def providerKey (z : ZoneConfig) : String :=
  match z.backend with
  | none => z.provider
  | some name => if name = "" then z.provider else name

def makeProvider (backendsByName : Dict String BackendConfig)
    (z : ZoneConfig) : Except BuildError Provider :=
  let backend := z.backend.bind backendsByName.get?
  match getProvider (backend.elim z.provider BackendConfig.provider) with
  | none => .error .unknownProvider
  | some p =>
    match fromConfig p (backend.elim ∅ BackendConfig.config) with
    | .error _ => .error .validation
    | .ok provider => .ok provider

def zoneProvider (backendsByName : Dict String BackendConfig) (providers : Dict String Provider)
    (z : ZoneConfig) : Except BuildError Provider :=
  match providers.get? (providerKey z) with
  | some provider => .ok provider
  | none => makeProvider backendsByName z

def bindKey (provider : Provider) (z : ZoneConfig) : Provider :=
  match provider.config, z.heDynamicKey with
  | .hurricane _, some key => if key = "" then provider
      else Provider.registerRecordKey E provider z.recordName key
  | _, _ => provider

def buildZone (backendsByName : Dict String BackendConfig)
    (acc : Dict String Provider × List (Route ProviderRef))
    (z : ZoneConfig) : Except BuildError (Dict String Provider × List (Route ProviderRef)) := do
  let provider ← zoneProvider backendsByName acc.1 z
  let zone ← parseName E.fromUnicode z.zone
  let recordName ← parseName E.fromUnicode z.recordName
  return (acc.1.set (providerKey z) (bindKey E provider z),
    acc.2 ++ [⟨zone.canonicalize, ⟨providerKey z, provider.config.type⟩, recordName.canonicalize⟩])

def buildDataPlane (config : BootstrapConfig) : Except BuildError DataPlaneRuntime := do
  let keyring ← buildKeyring E.fromUnicode config.tsigKeys
  let backendsByName := Dict.ofList (config.backends.map (fun b => (b.name, b)))
  let (providers, routes) ← config.zones.foldlM (buildZone E backendsByName) (∅, [])
  return ⟨keyring, RoutingTable.ofRoutes routes, providers⟩

end Build

def asciiPlatform : Platform :=
  ⟨fun _ => .error .idna, fun s => String.ofList (s.toList.map Char.toLower)⟩

end AstropathRelay.Cache
