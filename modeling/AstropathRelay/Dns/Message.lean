import AstropathRelay.Dns.Tsig

/-! Reading a whole message: `dns.message.from_wire` with the header rules of
`dns.update.UpdateMessage`. -/

namespace AstropathRelay.Dns

open Lib.ByteStrings Dns.Parser

namespace RdType
def soa : ℕ := 6
def txt : ℕ := 16
def opt : ℕ := 41
def tsig : ℕ := 250
end RdType

namespace RdClass
def internet : ℕ := 1
def none : ℕ := 254
def any : ℕ := 255
end RdClass

def opcodeUpdate : ℕ := 5

def opcodeOf (flags : ℕ) : ℕ := flags / 2048 % 16

inductive Rdata
  | txt (strings : List Octets)
  | other
deriving DecidableEq

structure RRset where
  name : Name
  rdclass : ℕ
  rdtype : ℕ
  deleting : Option ℕ
  rdatas : List Rdata
deriving DecidableEq

inductive Section
  | answer
  | authority
  | additional
deriving DecidableEq

/-- A parsed message. An UPDATE message calls its first three sections zone, prerequisite and
update, and keeps every record in an rrset of its own; the model does so for all messages. -/
structure Message where
  id : ℕ
  flags : ℕ
  question : List RRset := []
  answer : List RRset := []
  authority : List RRset := []
  additional : List RRset := []
  opt : Bool := false
  tsig : Option TsigRecord := none
  key : Option Key := none
deriving DecidableEq

namespace Message

def opcode (m : Message) : ℕ := opcodeOf m.flags
def isUpdate (m : Message) : Bool := m.opcode = opcodeUpdate
def hadTsig (m : Message) : Bool := m.tsig.isSome
def qr (m : Message) : Bool := m.flags / 32768 % 2 = 1
def zone (m : Message) : List RRset := m.question
def update (m : Message) : List RRset := m.authority
def keyname (m : Message) : Option Name := m.tsig.map TsigRecord.owner

def addRRset (m : Message) (r : RRset) : Section → Message
  | .answer => { m with answer := m.answer ++ [r] }
  | .authority => { m with authority := m.authority ++ [r] }
  | .additional => { m with additional := m.additional ++ [r] }

@[simp] lemma addRRset_id (m : Message) (r : RRset) (s : Section) : (m.addRRset r s).id = m.id := by
  cases s <;> rfl

@[simp] lemma addRRset_flags (m : Message) (r : RRset)
    (s : Section) : (m.addRRset r s).flags = m.flags := by
  cases s <;> rfl

@[simp] lemma addRRset_tsig (m : Message) (r : RRset)
    (s : Section) : (m.addRRset r s).tsig = m.tsig := by
  cases s <;> rfl

@[simp] lemma addRRset_key (m : Message) (r : RRset)
    (s : Section) : (m.addRRset r s).key = m.key := by
  cases s <;> rfl

end Message

/-- What reading depends on besides the octets: the record types the library knows (whether rdata of
a class and type, at a place of a message, is well formed), the keyed hash, the keyring and the
clock. -/
structure Reader where
  rdataOk : ℕ → ℕ → Octets → ℕ → ℕ → Bool
  hmac : Hmac
  keyring : Keyring
  now : ℕ

namespace Reader

def isMetaclass (rdclass : ℕ) : Bool := rdclass = RdClass.none ∨ rdclass = RdClass.any

def questionHeader (m : Message) (rdclass rdtype : ℕ) : Parse Unit :=
  if m.isUpdate ∧ (isMetaclass rdclass ∨ rdtype ≠ RdType.soa ∨ m.zone ≠ []) then fail .formError
    else pure ()

def getQuestion : ℕ → Message → Parse Message
  | 0, m => pure m
  | n + 1, m => do
    let qname ← getName
    let rdtype ← getUint 2
    let rdclass ← getUint 2
    questionHeader m rdclass rdtype
    getQuestion n { m with question := m.question ++ [⟨qname, rdclass, rdtype, none, []⟩] }

def recordHeader (m : Message) (s : Section) (rdclass : ℕ) : Parse (ℕ × Option ℕ × Bool) :=
  if m.isUpdate then
    match m.zone with
    | [] => fail .formError
    | z :: _ =>
      if isMetaclass rdclass then
        pure (z.rdclass, some rdclass, rdclass = RdClass.any ∨ s = .answer)
      else pure (rdclass, none, false)
  else pure (rdclass, none, false)

def getStrings : ℕ → List Octets → Parse (List Octets)
  | 0, ss => pure ss
  | fuel + 1, ss => do
    if (← get).remaining = 0 then return ss
    else
      let s ← getCountedBytes 1
      getStrings fuel (ss ++ [s])

def getTxt (rdlen : ℕ) : Parse Rdata := do
  let ss ← getStrings rdlen []
  if ss = [] then fail .formError else return .txt ss

def getOther (ok : Octets → ℕ → ℕ → Bool) (rdlen : ℕ) : Parse Rdata := do
  let p ← get
  if ok p.wire p.current rdlen then
    let _ ← getBytes rdlen
    return .other
  else fail .formError

def getTsig : Parse TsigRdata := do
  let algorithm ← getName
  let timeSigned ← getUint 6
  let fudge ← getUint 2
  let mac ← getCountedBytes 2
  let originalId ← getUint 2
  let error ← getUint 2
  let other ← getCountedBytes 2
  if 4095 < error then fail .formError
  else return ⟨algorithm, timeSigned, fudge, mac, originalId, error, other⟩

variable (R : Reader)

def getRdata (rdclass rdtype rdlen : ℕ) : Parse Rdata :=
  restrictTo rdlen (if rdtype = RdType.txt then getTxt rdlen
    else getOther (R.rdataOk rdclass rdtype) rdlen)

def checkTsig (start : ℕ) (owner : Name) (t : TsigRdata) (m : Message) : Parse Message := fun p =>
  match R.keyring.get? owner with
  | none => .error .unknownTSIGKey
  | some key =>
    match Tsig.validate R.hmac p.wire key owner t R.now [] start with
    | .error e => .error e
    | .ok () => .ok ({ m with tsig := some ⟨owner, t, start⟩, key := some key }, p)

def getPlain (s : Section) (name : Name) (rdtype rdclass rdlen : ℕ)
    (m : Message) : Parse Message := do
  let (rdclass, deleting, empty) ← recordHeader m s rdclass
  if empty then
    if 0 < rdlen then fail .formError else return m.addRRset ⟨name, rdclass, rdtype, deleting, []⟩ s
  else
    let rd ← R.getRdata rdclass rdtype rdlen
    return m.addRRset ⟨name, rdclass, rdtype, deleting, [rd]⟩ s

def getRecordAt (start : ℕ) (s : Section) (last : Bool) (m : Message) : Parse Message := do
  let name ← getName
  let rdtype ← getUint 2
  let rdclass ← getUint 2
  let _ ← getUint 4
  let rdlen ← getUint 2
  if rdtype = RdType.tsig then
    if s ≠ .additional ∨ rdclass ≠ RdClass.any ∨ !last then fail .badTSIG
    else
      let t ← restrictTo rdlen getTsig
      R.checkTsig start name t m
  else if rdtype = RdType.opt then
    if s ≠ .additional ∨ m.opt ∨ !(name == Name.root) then fail .badEDNS
    else
      let _ ← restrictTo rdlen (getOther (R.rdataOk rdclass rdtype) rdlen)
      return { m with opt := true }
  else R.getPlain s name rdtype rdclass rdlen m

def getRecord (s : Section) (last : Bool) (m : Message) : Parse Message := fun p =>
  R.getRecordAt p.current s last m p

def getSection (s : Section) : ℕ → Message → Parse Message
  | 0, m => pure m
  | n + 1, m => do
    let m ← R.getRecord s (n = 0) m
    getSection s n m

def getMessage : Parse Message := do
  let id ← getUint 2
  let flags ← getUint 2
  let qd ← getUint 2
  let an ← getUint 2
  let ns ← getUint 2
  let ar ← getUint 2
  let m ← getQuestion qd { id, flags }
  let m ← R.getSection .answer an m
  let m ← R.getSection .authority ns m
  R.getSection .additional ar m

def fromWire (wire : Octets) : Except DnsError Message :=
  if wire.length < 12 then .error .shortHeader
  else match R.getMessage (Parser.ofWire wire) with
    | .error e => .error e
    | .ok (m, p) => if p.remaining ≠ 0 then .error .trailingJunk else .ok m

end Reader

end AstropathRelay.Dns
