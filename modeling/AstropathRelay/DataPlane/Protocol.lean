import AstropathRelay.Dns.Verified

/-! The wire pipeline of `data_plane/protocol.py`: parse, auth gate, dispatch, reply. -/

namespace AstropathRelay.DataPlane

open Lib.ByteStrings Dns Dns.Parser

namespace Rcode
def noerror : ℕ := 0
def servfail : ℕ := 2
def refused : ℕ := 5
def notauth : ℕ := 9
def badsig : ℕ := 16
def badkey : ℕ := 17
def badtime : ℕ := 18
end Rcode

structure TsigWire where
  id : ℕ
  opcode : ℕ
  keyname : Option Name
  mac : Option Octets
deriving DecidableEq

def skipQuestions : ℕ → Parse Unit
  | 0 => pure ()
  | n + 1 => do
    let _ ← getName
    let _ ← getUint 2
    let _ ← getUint 2
    skipQuestions n

def contextRecord (found : Option (Name × Octets)) : Parse (Option (Name × Octets)) := do
  let name ← getName
  let rdtype ← getUint 2
  let _ ← getUint 2
  let _ ← getUint 4
  let rdlen ← getUint 2
  restrictTo rdlen (
    if rdtype = RdType.tsig then do
      let rdata ← Reader.getTsig
      return some (name, rdata.mac)
    else do
      let _ ← getBytes rdlen
      return found)

def contextRecords : ℕ → Option (Name × Octets) → Parse (Option (Name × Octets))
  | 0, found => pure found
  | n + 1, found => do
    let found ← contextRecord found
    contextRecords n found

def contextBody : Parse TsigWire := do
  let id ← getUint 2
  let flags ← getUint 2
  let qd ← getUint 2
  let an ← getUint 2
  let ns ← getUint 2
  let ar ← getUint 2
  skipQuestions qd
  let found ← contextRecords (an + ns + ar) none
  return ⟨id, opcodeOf flags, found.map Prod.fst, found.map Prod.snd⟩

def extractTsigContext (wire : Octets) : Option TsigWire :=
  match contextBody (Parser.ofWire wire) with
  | .ok (ctx, _) => some ctx
  | .error _ => none

structure ReplyTsig where
  key : Key
  requestMac : Octets
  originalId : ℕ
  timeSigned : ℕ
  fudge : ℕ
  error : ℕ

namespace ReplyTsig

def rdata (r : ReplyTsig) (mac : Octets) : TsigRdata :=
  ⟨r.key.algorithm.name, r.timeSigned, r.fudge, mac, r.originalId, r.error, []⟩

def signed (r : ReplyTsig) (wire : Octets) : Octets :=
  Tsig.digest wire r.key (r.rdata []) r.requestMac

end ReplyTsig

structure Reply where
  message : Octets
  tsig : Option ReplyTsig

namespace Reply

def tsigWire (t : TsigRdata) : Octets :=
  t.algorithm.wireLabels ++ u48 t.timeSigned ++ u16 t.fudge ++ u16 t.mac.length ++ t.mac ++
    u16 t.originalId ++ u16 t.error ++ u16 t.other.length ++ t.other

def toWire (H : Hmac) (r : Reply) : Octets :=
  match r.tsig with
  | none => r.message
  | some s =>
    let rdata := tsigWire (s.rdata (H.mac s.key.algorithm s.key.secret (s.signed r.message)))
    r.message.take 10 ++ u16 (decode ((r.message.drop 10).take 2) + 1) ++ r.message.drop 12 ++
      s.key.name.wireLabels ++ u16 RdType.tsig ++ u16 RdClass.any ++ u32 0 ++
      u16 rdata.length ++ rdata

end Reply

inductive TsigFailure
  | absent
  | badsig
  | badkey
  | badtime
  | unknownkey
deriving DecidableEq

structure Handled where
  failure : Option TsigFailure
  dispatched : Option Message
  reply : Except DnsError (Option Reply)

def headerFlags (opcode rcode : ℕ) : ℕ := 32768 + opcode * 2048 + rcode % 16

def replyFromCtx (ctx : TsigWire) (rcode : ℕ) : Octets :=
  u16 ctx.id ++ u16 (headerFlags ctx.opcode rcode) ++ u16 0 ++ u16 0 ++ u16 0 ++ u16 0

def plainErrorReply (wire : Octets) (rcode : ℕ) : Option Reply :=
  (extractTsigContext wire).map (fun ctx => ⟨replyFromCtx ctx rcode, none⟩)

def signedErrorReply (R : Reader) (wire : Octets) (rcode tsigError : ℕ) : Option Reply :=
  match extractTsigContext wire with
  | none => none
  | some ctx =>
    match ctx.keyname, ctx.mac with
    | some keyname, some mac =>
      match R.keyring.get? keyname with
      | none => some ⟨replyFromCtx ctx rcode, none⟩
      | some key => some ⟨replyFromCtx ctx rcode, some ⟨key, mac, ctx.id, R.now, 300, tsigError⟩⟩
    | _, _ => some ⟨replyFromCtx ctx rcode, none⟩

/-- What `to_wire` renders of a response besides its header: the copied question section and the
options of an OPT record; and whether the whole stays within the size that the requester takes. -/
structure Renderer where
  question : Message → Octets
  options : Message → Octets
  fits : Message → ℕ → Bool

def optRecord (payload extended : ℕ) (options : Octets) : Octets :=
  [0] ++ u16 RdType.opt ++ u16 payload ++ u32 (extended * 16777216) ++ u16 options.length ++ options

def responseHasOpt (query : Message) (rcode : ℕ) : Bool := query.opt ∨ 16 ≤ rcode

def responseBody (render : Renderer) (query : Message) (rcode : ℕ) : Octets :=
  render.question query ++
    if responseHasOpt query rcode then
      optRecord (if query.opt then 8192
        else 1232) (rcode / 16) (if query.opt then render.options query else [])
    else []

def responseMessage (render : Renderer) (query : Message) (rcode : ℕ) : Octets :=
  u16 query.id ++ u16 (headerFlags query.opcode rcode + query.flags / 256 % 2 * 256) ++
    u16 query.question.length ++ u16 0 ++ u16 0 ++
    u16 (if responseHasOpt query rcode then 1 else 0) ++ responseBody render query rcode

def reply (R : Reader) (render : Renderer) (query : Message)
    (rcode : ℕ) : Except DnsError (Option Reply) :=
  if query.qr then .error .formError
  else if !render.fits query rcode then .error .tooBig
  else .ok (some ⟨responseMessage render query rcode,
    match query.tsig, query.key with
    | some t, some key => some ⟨key, t.rdata.mac, query.id, R.now, 300, 0⟩
    | _, _ => none⟩)

def handleQuery (R : Reader) (render : Renderer) (dispatch : Message → ℕ)
    (wire : Octets) : Handled :=
  match R.fromWire wire with
  | .error .unknownTSIGKey => ⟨some .unknownkey, none, .ok (plainErrorReply wire Rcode.notauth)⟩
  | .error .badSignature =>
    ⟨some .badsig, none, .ok (signedErrorReply R wire Rcode.notauth Rcode.badsig)⟩
  | .error .badTime =>
    ⟨some .badtime, none, .ok (signedErrorReply R wire Rcode.notauth Rcode.badtime)⟩
  | .error .badKey => ⟨some .badkey, none, .ok (signedErrorReply R wire Rcode.notauth Rcode.badkey)⟩
  | .error .badAlgorithm =>
    ⟨some .badkey, none, .ok (signedErrorReply R wire Rcode.notauth Rcode.badkey)⟩
  | .error _ => ⟨none, none, .ok none⟩
  | .ok m =>
    if !m.hadTsig then ⟨some .absent, none, reply R render m Rcode.notauth⟩
    else if m.opcode ≠ opcodeUpdate then ⟨none, none, reply R render m Rcode.refused⟩
    else ⟨none, some m, reply R render m (dispatch m)⟩

end AstropathRelay.DataPlane
