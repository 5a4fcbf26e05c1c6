import AstropathRelay.Dns.Wire
import AstropathRelay.Lib.Dict

/-! TSIG keys, the digest that `dns.tsig` signs and checks, and its validation of a request. -/

namespace AstropathRelay.Dns

open Lib.ByteStrings

inductive Algorithm
  | hmacSha256
  | hmacSha384
  | hmacSha512
  | hmacSha224
  | hmacSha1
  | hmacMd5
deriving DecidableEq

namespace Algorithm

def name : Algorithm → Name
  | hmacSha256 => ⟨[Name.octetsOf "hmac-sha256"], by decide +kernel⟩
  | hmacSha384 => ⟨[Name.octetsOf "hmac-sha384"], by decide +kernel⟩
  | hmacSha512 => ⟨[Name.octetsOf "hmac-sha512"], by decide +kernel⟩
  | hmacSha224 => ⟨[Name.octetsOf "hmac-sha224"], by decide +kernel⟩
  | hmacSha1 => ⟨[Name.octetsOf "hmac-sha1"], by decide +kernel⟩
  | hmacMd5 => ⟨["HMAC-MD5", "SIG-ALG", "REG", "INT"].map Name.octetsOf, by decide +kernel⟩

def macSize : Algorithm → ℕ
  | hmacSha256 => 32
  | hmacSha384 => 48
  | hmacSha512 => 64
  | hmacSha224 => 28
  | hmacSha1 => 20
  | hmacMd5 => 16

lemma macSize_ge (a : Algorithm) : 16 ≤ a.macSize := by
  cases a <;> decide

end Algorithm

structure Hmac where
  mac : Algorithm → Octets → Octets → Octets
  length_mac : ∀ a secret data, (mac a secret data).length = a.macSize

structure Key where
  name : Name
  secret : Octets
  algorithm : Algorithm
deriving DecidableEq

abbrev Keyring := Lib.Dict Name Key

structure TsigRdata where
  algorithm : Name
  timeSigned : ℕ
  fudge : ℕ
  mac : Octets
  originalId : ℕ
  error : ℕ
  other : Octets
deriving DecidableEq

structure TsigRecord where
  owner : Name
  rdata : TsigRdata
  start : ℕ
deriving DecidableEq

namespace Tsig

def keyBlock (key : Key) : Octets :=
  key.name.toDigestable ++ (u16 255 ++ u32 0) ++ key.algorithm.name.toDigestable

def macPrefix (requestMac : Octets) : Octets :=
  if requestMac = [] then [] else u16 requestMac.length ++ requestMac

def timers (t : TsigRdata) : Octets :=
  u48 t.timeSigned ++ u16 t.fudge ++ u16 t.error ++ u16 t.other.length ++ t.other

def digest (wire : Octets) (key : Key) (t : TsigRdata) (requestMac : Octets) : Octets :=
  macPrefix requestMac ++ (u16 t.originalId ++ wire.drop 2) ++ keyBlock key ++ timers t

def unsigned (wire : Octets) (tsigStart : ℕ) : Octets :=
  wire.take 10 ++ u16 (decode ((wire.drop 10).take 2) - 1) ++ (wire.take tsigStart).drop 12

def validate (H : Hmac) (wire : Octets) (key : Key) (owner : Name) (t : TsigRdata) (now : ℕ)
    (requestMac : Octets) (tsigStart : ℕ) : Except DnsError Unit :=
  if decode ((wire.drop 10).take 2) = 0 then .error .formError
  else if t.error ≠ 0 then .error .peerError
  else if t.fudge < max t.timeSigned now - min t.timeSigned now then .error .badTime
  else if !(key.name == owner) then .error .badKey
  else if !(key.algorithm.name == t.algorithm) then .error .badAlgorithm
  else if H.mac key.algorithm key.secret (digest (unsigned wire tsigStart) key t requestMac) ≠
    t.mac then
    .error .badSignature
  else .ok ()

lemma validate_ok {H : Hmac} {wire : Octets} {key : Key} {owner : Name} {t : TsigRdata}
    {now tsigStart : ℕ} {requestMac : Octets}
    (h : validate H wire key owner t now requestMac tsigStart = .ok ()) : t.error = 0 ∧
    t.mac = H.mac key.algorithm key.secret (digest (unsigned wire tsigStart) key t requestMac) := by
  unfold validate at h
  split_ifs at h with h₁ h₂ h₃ h₄ h₅ h₆
  exact ⟨not_not.mp h₂, (not_not.mp h₆).symm⟩

@[simp] lemma length_timers (t : TsigRdata) : (timers t).length = 12 + t.other.length := by
  simp [timers]
  omega

lemma length_unsigned {wire : Octets} {tsigStart : ℕ} (h : 12 ≤ tsigStart)
    (hw : tsigStart ≤ wire.length) : (unsigned wire tsigStart).length = tsigStart := by
  simp [unsigned]
  omega

end Tsig

end AstropathRelay.Dns
