import Mathlib.Tactic

/-! The provider types of the registry. -/

namespace AstropathRelay.Providers

inductive ProviderType
  | hurricane
  | route53
deriving DecidableEq

namespace ProviderType

def text : ProviderType → String
  | hurricane => "hurricane"
  | route53 => "route53"

def supportsMultivalue : ProviderType → Bool
  | hurricane => false
  | route53 => true

def registry : List ProviderType := [hurricane, route53]

end ProviderType

def getProvider (providerType : String) : Option ProviderType :=
  ProviderType.registry.find? (fun p => p.text = providerType)

lemma getProvider_text (p : ProviderType) : getProvider p.text = some p := by
  cases p <;> decide

end AstropathRelay.Providers
