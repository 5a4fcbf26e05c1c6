import AstropathRelay.DataPlane.Protocol
import AstropathRelay.Lib.Runs

/-! Who signed what the server dispatches. The keyed hash is ideal: a message verifies only when its
digest was fed to the HMAC before, by a holder of the secret or by the server for a reply. -/

namespace AstropathRelay.DataPlane.Forgery

open Lib Lib.ByteStrings Dns Dns.Reader

structure Signed where
  algorithm : Algorithm
  secret : Octets
  data : Octets
deriving DecidableEq

def checked (wire : Octets) (m : Message) : Option Signed :=
  match m.tsig, m.key with
  | some t, some key =>
    some ⟨key.algorithm, key.secret, Tsig.digest (Tsig.unsigned wire t.start) key t.rdata []⟩
  | _, _ => none

def replySigns (r : Reply) : Option Signed :=
  r.tsig.map (fun s => ⟨s.key.algorithm, s.key.secret, s.signed r.message⟩)

def signs (h : Handled) : Option Signed :=
  match h.reply with
  | .ok (some r) => replySigns r
  | _ => none

structure Server where
  rdataOk : ℕ → ℕ → Octets → ℕ → ℕ → Bool
  hmac : Hmac
  keyring : Keyring
  render : Renderer
  dispatch : Message → ℕ

namespace Server

variable (S : Server)

def reader (now : ℕ) : Reader := ⟨S.rdataOk, S.hmac, S.keyring, now⟩

def rcode (m : Message) : ℕ := if m.opcode ≠ opcodeUpdate then Rcode.refused else S.dispatch m

def handle (now : ℕ) (wire : Octets) : Handled :=
  handleQuery (S.reader now) S.render S.dispatch wire

end Server

structure Exchange where
  holders : List Signed := []
  server : List Signed := []
  dispatched : List (Octets × Message) := []

inductive Event
  | sign (x : Signed)
  | deliver (now : ℕ) (wire : Octets)

namespace Server

variable (S : Server)

def next (s : Exchange) : Event → Exchange
  | .sign x => { s with holders := s.holders ++ [x] }
  | .deliver now wire =>
    { s with
      server := s.server ++ (signs (S.handle now wire)).toList
      dispatched :=
        s.dispatched ++ ((S.handle now wire).dispatched.map (fun m => (wire, m))).toList }

def Unforged (s : Exchange) : Event → Prop
  | .sign _ => True
  | .deliver now wire => ∀ m x, (S.reader now).fromWire wire = .ok m → checked wire m = some x →
      x ∈ s.holders ∨ x ∈ s.server

def system : System Exchange Event := ⟨(· = {}), fun s e s' => S.Unforged s e ∧ s' = S.next s e⟩

end Server

section Condition

def Opens (s : Octets) (i : ℕ) : Prop :=
  opcodeOf (field s 0) = opcodeUpdate ∧
    10 + 5 * field s 2 + 11 * (field s 4 + field s 6 + field s 8) ≤ i

def Closes (s : Octets) : Prop := field s 8 = 0 ∧ 12 + field s 10 = s.length

instance (s : Octets) (i : ℕ) : Decidable (Opens s i) := by unfold Opens; infer_instance

instance (s : Octets) : Decidable (Closes s) := by unfold Closes; infer_instance

/-- The MAC of a message, read on into the header of the reply, spells a signed UPDATE of its own:
before the reply's TSIG variables there is a second copy of the key's. -/
def SpellsUpdate (key : Key) (mac header timers : Octets) : Prop :=
  ∃ i < mac.length + header.length, Opens (mac ++ header) i ∧
    Tsig.keyBlock key <+: (mac ++ header ++ Tsig.keyBlock key).drop i ∧
    Closes ((mac ++ header ++ Tsig.keyBlock key ++ timers).drop (i + (Tsig.keyBlock key).length))

instance (key : Key)
    (mac header timers : Octets) : Decidable (SpellsUpdate key mac header timers) := by
  unfold SpellsUpdate; infer_instance

def tsigError : DnsError → Option ℕ
  | .badSignature => some Rcode.badsig
  | .badTime => some Rcode.badtime
  | .badKey => some Rcode.badkey
  | .badAlgorithm => some Rcode.badkey
  | _ => none

def replyTimers (now error : ℕ) : Octets := u48 now ++ u16 300 ++ u16 error ++ u16 0

def Server.unambiguous (S : Server) (now : ℕ) (wire : Octets) : Bool :=
  match (S.reader now).fromWire wire with
  | .error e => decide (∀ error ∈ tsigError e, ∀ ctx ∈ extractTsigContext wire,
      ∀ keyname ∈ ctx.keyname, ∀ mac ∈ ctx.mac, ∀ key ∈ S.keyring.get? keyname,
      ¬ SpellsUpdate key mac (replyFromCtx ctx Rcode.notauth) (replyTimers now error))
  | .ok m => decide (∀ t ∈ m.tsig,
      ¬ Opens t.rdata.mac (t.rdata.mac.length + (responseMessage S.render m (S.rcode m)).length))

end Condition

section Fields

lemma opens_append {a b : Octets} (i : ℕ) (h : 10 ≤ a.length) : Opens (a ++ b) i ↔ Opens a i := by
  simp only [Opens, field_append b (show 0 + 2 ≤ a.length by omega), field_append b
    (show 2 + 2 ≤ a.length by omega), field_append b (show 4 + 2 ≤ a.length by omega), field_append
    b (show 6 + 2 ≤ a.length by omega), field_append b (show 8 + 2 ≤ a.length by omega)]

lemma field_timers_error (t : TsigRdata) : field (Tsig.timers t) 8 = t.error % 65536 := by
  have h : Tsig.timers t = (u48 t.timeSigned ++ u16 t.fudge) ++
      (u16 t.error ++ (u16 t.other.length ++ t.other)) := by
    simp [Tsig.timers]
  rw [h, field_behind _ _ (by simp), List.length_append, length_u48, length_u16, field_u16]

lemma field_timers_other (t : TsigRdata) : field (Tsig.timers t) 10 = t.other.length % 65536 := by
  have h : Tsig.timers t = (u48 t.timeSigned ++ u16 t.fudge ++ u16 t.error) ++
      (u16 t.other.length ++ t.other) := by
    simp [Tsig.timers]
  rw [h, field_behind _ _ (by simp), List.length_append, List.length_append, length_u48, length_u16,
    length_u16, field_u16]

lemma closes_timers {t : TsigRdata} (he : t.error = 0) (ho : t.other.length < 65536) :
    Closes (Tsig.timers t) := by
  refine ⟨by rw [field_timers_error, he], ?_⟩
  rw [field_timers_other, Nat.mod_eq_of_lt ho, Tsig.length_timers]

end Fields

section Requests

lemma validate_count {H : Hmac} {wire : Octets} {key : Key} {owner : Name} {t : TsigRdata}
    {now start : ℕ} {requestMac : Octets}
    (h : Tsig.validate H wire key owner t now requestMac start = .ok ()) : 1 ≤ field wire 10 := by
  unfold Tsig.validate at h
  split_ifs at h with h₁
  exact Nat.one_le_iff_ne_zero.mpr h₁

lemma field_unsigned {wire : Octets} {start : ℕ} (h : 12 ≤ wire.length) {i : ℕ} (hi : i + 2 ≤ 10) :
    field (Tsig.unsigned wire start) i = field wire i := by
  have hu : Tsig.unsigned wire start =
      wire.take 10 ++ (u16 (decode ((wire.drop 10).take 2) - 1) ++ (wire.take start).drop 12) := by
    simp [Tsig.unsigned]
  rw [hu, field_append _ (by rw [List.length_take]; omega)]
  conv_rhs => rw [← List.take_append_drop 10 wire, field_append _ (by rw [List.length_take]; omega)]

lemma field_unsigned_count {wire : Octets} {start : ℕ} (h : 12 ≤ wire.length) :
    field (Tsig.unsigned wire start) 10 = field wire 10 - 1 := by
  have hu : Tsig.unsigned wire start =
      wire.take 10 ++ (u16 (decode ((wire.drop 10).take 2) - 1) ++ (wire.take start).drop 12) := by
    simp [Tsig.unsigned]
  have hl : (wire.take 10).length = 10 := by
    rw [List.length_take]
    omega
  have hd := decode_lt ((wire.drop 10).take 2)
  have hk : ((wire.drop 10).take 2).length = 2 := by
    rw [List.length_take, List.length_drop]
    omega
  rw [hk] at hd
  rw [hu, field_behind _ _ hl.le, hl, field_u16, field, Nat.mod_eq_of_lt (by omega)]

lemma checked_update {R : Reader} {wire : Octets} {m : Message} {x : Signed}
    (h : R.fromWire wire = .ok m) (hu : m.opcode = opcodeUpdate) (hx : checked wire m = some x) :
    ∃ owner key id body timers, R.keyring.get? owner = some key ∧ Opens body body.length ∧
      Closes timers ∧
      x = ⟨key.algorithm, key.secret, u16 id ++ body ++ Tsig.keyBlock key ++ timers⟩ := by
  obtain ⟨hf, ⟨ht, hk⟩ | ⟨t, key, hle, hlt, ha, ht, hk⟩⟩ := fromWire_ok h
  · simp [checked, ht, hk] at hx
  · simp only [checked, ht, hk, Option.some.injEq] at hx
    obtain ⟨he, -⟩ := Tsig.validate_ok ha.valid
    have hw : 12 ≤ wire.length := by omega
    have hc := validate_count ha.valid
    have hl : (Tsig.unsigned wire t.start).length = t.start :=
      Tsig.length_unsigned (by omega) hlt.le
    refine ⟨t.owner, key, t.rdata.originalId, (Tsig.unsigned wire t.start).drop 2,
      Tsig.timers t.rdata, ha.inKeyring, ?_, closes_timers he ha.other, ?_⟩
    · simp only [Opens, field_drop, Nat.add_zero, Nat.reduceAdd]
      rw [field_unsigned hw (by omega), field_unsigned hw (by omega), field_unsigned hw (by omega),
        field_unsigned hw (by omega), field_unsigned_count hw, List.length_drop, hl]
      refine ⟨by rw [← hf]; exact hu, ?_⟩
      unfold sectionsFloor at hle
      omega
    · rw [← hx]
      simp [Tsig.digest, Tsig.macPrefix]

end Requests

section Replies

inductive Answers (S : Server) (now : ℕ) (wire : Octets) : Signed → Prop
  | error {e : DnsError} {error : ℕ} {ctx : TsigWire} {keyname : Name} {mac : Octets}
      {key : Key} : (S.reader now).fromWire wire = .error e → tsigError e = some error →
      extractTsigContext wire = some ctx →
      ctx.keyname = some keyname → ctx.mac = some mac → S.keyring.get? keyname = some key →
      Answers S now wire ⟨key.algorithm, key.secret, Tsig.macPrefix mac ++
      replyFromCtx ctx Rcode.notauth ++ Tsig.keyBlock key ++ replyTimers now error⟩
  | response {m : Message} {t : TsigRecord} {key : Key} :
      (S.reader now).fromWire wire = .ok m → m.tsig = some t → m.key = some key →
      Answers S now wire ⟨key.algorithm, key.secret, Tsig.macPrefix t.rdata.mac ++
        responseMessage S.render m (S.rcode m) ++ Tsig.keyBlock key ++ replyTimers now 0⟩

lemma signed_eq (r : ReplyTsig) (rest : Octets) :
    r.signed (u16 r.originalId ++ rest) =
      Tsig.macPrefix r.requestMac ++ (u16 r.originalId ++ rest) ++ Tsig.keyBlock r.key ++
        (u48 r.timeSigned ++ u16 r.fudge ++ u16 r.error ++ u16 0) := by
  have hd : (u16 r.originalId ++ rest).drop 2 = rest := List.drop_left' (length_u16 _)
  simp [ReplyTsig.signed, ReplyTsig.rdata, Tsig.digest, Tsig.timers, hd]

lemma signedErrorReply_answers {S : Server} {now error : ℕ} {wire : Octets} {e : DnsError}
    {r : Reply} {x : Signed}
    (he : (S.reader now).fromWire wire = .error e) (ht : tsigError e = some error)
    (hr : signedErrorReply (S.reader now) wire Rcode.notauth error = some r)
    (hx : replySigns r = some x) : Answers S now wire x := by
  unfold signedErrorReply at hr
  split at hr
  · simp at hr
  · next ctx hctx =>
    split at hr
    · next keyname mac hn hm =>
      split at hr
      · obtain rfl := Option.some.inj hr
        simp [replySigns] at hx
      · next key hk =>
        obtain rfl := Option.some.inj hr
        obtain rfl := Option.some.inj hx
        have hs :=
          signed_eq ⟨key, mac, ctx.id, now, 300, error⟩ ((replyFromCtx ctx Rcode.notauth).drop 2)
        rw [show u16 ctx.id ++
          (replyFromCtx ctx Rcode.notauth).drop 2 = replyFromCtx ctx Rcode.notauth from rfl] at hs
        change Answers S now wire ⟨key.algorithm, key.secret,
          ReplyTsig.signed ⟨key, mac, ctx.id, now, 300, error⟩ (replyFromCtx ctx Rcode.notauth)⟩
        rw [hs]
        exact .error he ht hctx hn hm hk
    · obtain rfl := Option.some.inj hr
      simp [replySigns] at hx

lemma reply_unsigned {R : Reader} {render : Renderer} {m : Message} {rcode : ℕ} {r : Reply}
    (ht : m.tsig = none) (hr : reply R render m rcode = .ok (some r)) : replySigns r = none := by
  unfold reply at hr
  split_ifs at hr
  obtain rfl := Option.some.inj (Except.ok.inj hr)
  simp [replySigns, ht]

lemma reply_answers {S : Server} {now : ℕ} {wire : Octets} {m : Message} {r : Reply} {x : Signed}
    (hm : (S.reader now).fromWire wire = .ok m)
    (hr : reply (S.reader now) S.render m (S.rcode m) = .ok (some r))
    (hx : replySigns r = some x) : Answers S now wire x := by
  unfold reply at hr
  split_ifs at hr
  obtain rfl := Option.some.inj (Except.ok.inj hr)
  simp only [replySigns] at hx
  split at hx
  · next t key ht hk =>
    obtain rfl := Option.some.inj hx
    have hs := signed_eq ⟨key, t.rdata.mac, m.id, now, 300,
      0⟩ ((responseMessage S.render m (S.rcode m)).drop 2)
    rw [show u16 m.id ++ (responseMessage S.render m (S.rcode m)).drop 2 =
      responseMessage S.render m (S.rcode m) from rfl] at hs
    change Answers S now wire ⟨key.algorithm, key.secret, ReplyTsig.signed ⟨key, t.rdata.mac, m.id,
      now, 300, 0⟩ (responseMessage S.render m (S.rcode m))⟩
    rw [hs]
    exact .response hm ht hk
  · simp at hx

lemma plainErrorReply_unsigned {wire : Octets} {rcode : ℕ} {r : Reply}
    (h : plainErrorReply wire rcode = some r) : replySigns r = none := by
  obtain ⟨ctx, -, rfl⟩ := Option.map_eq_some_iff.mp h
  rfl

lemma handle_answers {S : Server} {now : ℕ} {wire : Octets} {x : Signed}
    (h : signs (S.handle now wire) = some x) : Answers S now wire x := by
  unfold signs at h
  split at h
  · next r hr =>
    unfold Server.handle handleQuery at hr
    split at hr
    · rw [plainErrorReply_unsigned (Except.ok.inj hr)] at h
      simp at h
    · next he => exact signedErrorReply_answers he rfl (Except.ok.inj hr) h
    · next he => exact signedErrorReply_answers he rfl (Except.ok.inj hr) h
    · next he => exact signedErrorReply_answers he rfl (Except.ok.inj hr) h
    · next he => exact signedErrorReply_answers he rfl (Except.ok.inj hr) h
    · simp at hr
    · next m hm =>
      split at hr
      · next ht =>
        have hn : m.tsig = none := by simpa [Message.hadTsig] using ht
        rw [reply_unsigned hn hr] at h
        simp at h
      · split at hr
        · next hop => exact reply_answers hm (by rw [Server.rcode, if_pos hop]; exact hr) h
        · next hop => exact reply_answers hm (by rw [Server.rcode, if_neg hop]; exact hr) h
  · simp at h

lemma length_replyTimers (now error : ℕ) : (replyTimers now error).length = 12 := by
  simp [replyTimers]

lemma field_replyTimers (now error : ℕ) : field (replyTimers now error) 8 = error % 65536 := by
  have h : replyTimers now error = (u48 now ++ u16 300) ++ (u16 error ++ u16 0) := by
    simp [replyTimers]
  rw [h, field_behind _ _ (by simp), List.length_append, length_u48, length_u16, field_u16]

lemma length_replyFromCtx (ctx : TsigWire) (rcode : ℕ) : (replyFromCtx ctx rcode).length = 12 := by
  simp [replyFromCtx]

lemma tsigError_ne_zero {e : DnsError} {error : ℕ} (h : tsigError e = some error) :
    error % 65536 ≠ 0 := by
  cases e <;> simp only [tsigError, Option.some.injEq, reduceCtorEq] at h <;> subst h <;> decide

end Replies

section Cuts

variable {key : Key} {front timers body timers' : Octets}

lemma Opens.length {s : Octets} {i : ℕ} (h : Opens s i) : 10 ≤ i := by
  obtain ⟨-, h⟩ := h
  omega

lemma Closes.length {s : Octets} (h : Closes s) : 12 ≤ s.length := by
  obtain ⟨-, h⟩ := h
  omega

lemma cut_le (h : front ++ Tsig.keyBlock key ++ timers = body ++ Tsig.keyBlock key ++ timers')
    (ht : timers.length = 12) (hc : Closes timers') : body.length < front.length ∨ body = front ∧
    timers' = timers := by
  have hl := congrArg List.length h
  simp only [List.length_append] at hl
  have ht' := hc.length
  rcases Nat.lt_or_ge body.length front.length with hlt | hge
  · exact Or.inl hlt
  · have he : front.length = body.length := by omega
    rw [List.append_assoc, List.append_assoc] at h
    obtain ⟨rfl, hr⟩ := List.append_inj h he
    exact Or.inr ⟨rfl, (List.append_cancel_left hr).symm⟩

lemma spellsUpdate_of_eq {mac header : Octets}
    (h : mac ++ header ++ Tsig.keyBlock key ++ timers = body ++ Tsig.keyBlock key ++ timers')
    (ht : timers.length = 12) (he : field timers 8 ≠ 0) (ho : Opens body body.length)
    (hc : Closes timers') : SpellsUpdate key mac header timers := by
  rcases cut_le h ht hc with hlt | ⟨-, rfl⟩
  · rw [List.length_append] at hlt
    have hd : (mac ++ header ++ Tsig.keyBlock key ++ timers).drop body.length = Tsig.keyBlock key ++
        timers' := by
      rw [h, List.append_assoc, List.drop_left]
    refine ⟨body.length, hlt, ?_, ?_, ?_⟩
    · have hp : body <+: mac ++ header := by
        have hbody : body <+: mac ++ header ++ Tsig.keyBlock key ++ timers := by
          rw [h, List.append_assoc]
          exact List.prefix_append _ _
        have hfront : mac ++ header <+: mac ++ header ++ Tsig.keyBlock key ++ timers := by
          rw [List.append_assoc (mac ++ header)]
          exact List.prefix_append _ _
        refine List.prefix_of_prefix_length_le hbody hfront ?_
        rw [List.length_append]
        omega
      obtain ⟨rest, hr⟩ := hp
      rw [← hr, opens_append _ ho.length]
      exact ho
    · have hk : (Tsig.keyBlock key).length ≤
          ((mac ++ header ++ Tsig.keyBlock key).drop body.length).length := by
        simp only [List.length_drop, List.length_append]
        omega
      have hsplit : (mac ++ header ++ Tsig.keyBlock key).drop body.length ++
          timers = Tsig.keyBlock key ++ timers' := by
        rw [← hd]
        refine (List.drop_append_of_le_length ?_).symm
        simp only [List.length_append]
        omega
      exact List.prefix_of_prefix_length_le ⟨timers', hsplit.symm⟩ (List.prefix_append _ _) hk
    · rw [← List.drop_drop, hd, List.drop_left]
      exact hc
  · exact absurd hc.1 he

end Cuts

section Safety

def Inert (S : Server) (x : Signed) : Prop :=
  ∀ now wire m, (S.reader now).fromWire wire = .ok m → m.opcode = opcodeUpdate →
    checked wire m ≠ some x

def OwnSecrets (keyring : Keyring) : Prop :=
  ∀ a b k k', keyring.get? a = some k → keyring.get? b = some k' → k.algorithm = k'.algorithm →
    k.secret = k'.secret → k = k'

lemma macPrefix_front {mac front rest : Octets} {id : ℕ} (hm : mac ≠ [])
    (h : Tsig.macPrefix mac ++ front = u16 id ++ rest) : mac ++ front = rest := by
  simp only [Tsig.macPrefix, hm, ↓reduceIte, List.append_assoc] at h
  exact (List.append_inj h (by simp)).2

lemma Opens.mono {s : Octets} {i j : ℕ} (h : Opens s i) (hij : i ≤ j) : Opens s j :=
  ⟨h.1, h.2.trans hij⟩

lemma inert_of_answers {S : Server} (hS : OwnSecrets S.keyring) {now : ℕ} {wire : Octets}
    {x : Signed} (hx : Answers S now wire x) (hu : S.unambiguous now wire) : Inert S x := by
  intro now' wire' m' hm' hop hc
  obtain ⟨owner, key', id, body, timers', hk', ho, hcl, hd⟩ := checked_update hm' hop hc
  unfold Server.unambiguous at hu
  cases hx with
  | @error e error ctx keyname mac key he hte hctx hn hm hk =>
    rw [he] at hu
    replace hu := of_decide_eq_true hu
    obtain ⟨ha, hs, hd⟩ := Signed.mk.inj hd
    obtain rfl := hS _ _ _ _ hk hk' ha hs
    have hne : field (replyTimers now error) 8 ≠ 0 := by
      rw [field_replyTimers]
      exact tsigError_ne_zero hte
    by_cases hz : mac = []
    · subst hz
      simp only [Tsig.macPrefix, ↓reduceIte, List.nil_append] at hd
      rcases cut_le hd (length_replyTimers _ _) hcl with hlt | ⟨-, rfl⟩
      · have hl := ho.length
        rw [length_replyFromCtx, List.length_append, length_u16] at hlt
        omega
      · exact hne hcl.1
    · simp only [List.append_assoc] at hd
      have hd := macPrefix_front hz hd
      simp only [← List.append_assoc] at hd
      exact hu _ hte _ hctx _ hn _ hm _ hk
        (spellsUpdate_of_eq hd (length_replyTimers _ _) hne ho hcl)
  | @response m t key hm ht hk =>
    rw [hm] at hu
    replace hu := of_decide_eq_true hu
    obtain ⟨-, ⟨ht', -⟩ | ⟨t', k, -, -, ha, ht', hk₁⟩⟩ := fromWire_ok hm
    · simp [ht] at ht'
    obtain rfl : t = t' := Option.some.inj (ht.symm.trans ht')
    obtain rfl : key = k := Option.some.inj (hk.symm.trans hk₁)
    obtain ⟨halg, hs, hd⟩ := Signed.mk.inj hd
    obtain rfl := hS _ _ _ _ ha.inKeyring hk' halg hs
    have hl : 16 ≤ t.rdata.mac.length := by
      rw [(Tsig.validate_ok ha.valid).2, Hmac.length_mac]
      exact key.algorithm.macSize_ge
    have hz : t.rdata.mac ≠ [] := List.ne_nil_of_length_pos (by omega)
    simp only [List.append_assoc] at hd
    have hd := macPrefix_front hz hd
    have hlen := congrArg List.length hd
    simp only [List.length_append, length_replyTimers] at hlen
    have hcl := hcl.length
    have ho : Opens t.rdata.mac body.length := by
      rw [← opens_append _ (by omega), hd, opens_append _ ho.length]
      exact ho
    refine hu t ht (ho.mono ?_)
    omega

lemma signs_inert {S : Server} (hS : OwnSecrets S.keyring) {now : ℕ} {wire : Octets} {x : Signed}
    (hu : S.unambiguous now wire) (hx : signs (S.handle now wire) = some x) : Inert S x :=
  inert_of_answers hS (handle_answers hx) hu

lemma handle_dispatched {S : Server} {now : ℕ} {wire : Octets} {m : Message}
    (h : (S.handle now wire).dispatched = some m) :
    (S.reader now).fromWire wire = .ok m ∧ m.hadTsig ∧ m.opcode = opcodeUpdate := by
  unfold Server.handle handleQuery at h
  split at h
  case h_7 m' hm =>
    split_ifs at h with ht hop
    obtain rfl := Option.some.inj h
    exact ⟨hm, by simpa using ht, not_not.mp hop⟩
  all_goals simp at h

lemma checked_of_hadTsig {R : Reader} {wire : Octets} {m : Message} (h : R.fromWire wire = .ok m)
    (ht : m.hadTsig) : ∃ x, checked wire m = some x := by
  obtain ⟨-, ⟨hn, -⟩ | ⟨t, key, -, -, -, hs, hk⟩⟩ := fromWire_ok h
  · simp [Message.hadTsig, hn] at ht
  · exact ⟨_, by rw [checked, hs, hk]⟩

structure Safe (S : Server) (s : Exchange) : Prop where
  inert : ∀ x ∈ s.server, Inert S x
  held : ∀ d ∈ s.dispatched, ∃ x ∈ s.holders, checked d.1 d.2 = some x

def Server.Fair (S : Server) (_ : Exchange) : Event → Prop
  | .sign _ => True
  | .deliver now wire => S.unambiguous now wire

lemma Server.step_sign (S : Server) (s : Exchange) (x : Signed) :
    (S.system.restrict S.Fair).step s (.sign x) (S.next s (.sign x)) := ⟨trivial, trivial, rfl⟩

lemma Server.step_deliver {S : Server} {s : Exchange} {now : ℕ} {wire : Octets}
    (hu : S.unambiguous now wire) (hf : S.Unforged s (.deliver now wire)) :
    (S.system.restrict S.Fair).step s (.deliver now wire) (S.next s (.deliver now wire)) :=
  ⟨hu, hf, rfl⟩

lemma Safe.step {S : Server} (hS : OwnSecrets S.keyring) {s : Exchange} (h : Safe S s) {e : Event}
    (hf : S.Fair s e) (hu : S.Unforged s e) : Safe S (S.next s e) := by
  cases e with
  | sign x =>
    refine ⟨h.inert, fun d hd => ?_⟩
    obtain ⟨y, hy, hc⟩ := h.held d hd
    exact ⟨y, List.mem_append_left _ hy, hc⟩
  | deliver now wire =>
    refine ⟨fun x hx => ?_, fun d hd => ?_⟩
    · rcases List.mem_append.mp hx with hx | hx
      · exact h.inert x hx
      · exact signs_inert hS hf (Option.mem_toList.mp hx)
    · rcases List.mem_append.mp hd with hd | hd
      · exact h.held d hd
      · obtain ⟨m, hm, rfl⟩ := Option.map_eq_some_iff.mp (Option.mem_toList.mp hd)
        obtain ⟨hr, ht, hop⟩ := handle_dispatched hm
        obtain ⟨x, hx⟩ := checked_of_hadTsig hr ht
        rcases hu m x hr hx with hh | hs
        · exact ⟨x, hh, hx⟩
        · exact absurd hx (h.inert x hs now wire m hr hop)

end Safety

/-- In a run in which every delivered message is unambiguous, the octets signed for a reply are
never those an accepted UPDATE was checked over, and every dispatched message was signed by a holder
of the secret. -/
theorem dispatched_held_of_unambiguous (S : Server) (hS : OwnSecrets S.keyring) :
    (∀ now wire x, S.unambiguous now wire → signs (S.handle now wire) = some x →
      ∀ now' wire' m, (S.reader now').fromWire wire' = .ok m → m.opcode = opcodeUpdate →
        checked wire' m ≠ some x) ∧
    ∀ es s, (S.system.restrict S.Fair).Run es s →
      ∀ d ∈ s.dispatched, ∃ x ∈ s.holders, checked d.1 d.2 = some x := by
  refine ⟨fun now wire x hu hx => signs_inert hS hu hx, fun es s hr => ?_⟩
  have hsafe : Safe S s := by
    refine hr.invariant ?_ ?_
    · rintro s rfl
      exact ⟨by simp, by simp⟩
    · rintro s e s' h ⟨hf, hu, rfl⟩
      exact h.step hS hf hu
  exact hsafe.held

section Attack

lemma unforged_deliver {S : Server} {s : Exchange} {now : ℕ} {wire : Octets} :
    S.Unforged s (.deliver now wire) ↔
      ∀ x ∈ (((S.reader now).fromWire wire).toOption.bind (checked wire)), x ∈ s.holders ∨
      x ∈ s.server := by
  constructor
  · intro h x hx
    obtain ⟨m, hm, hc⟩ := Option.bind_eq_some_iff.mp hx
    cases hr : (S.reader now).fromWire wire with
    | error e => simp [hr, Except.toOption] at hm
    | ok m' =>
      obtain rfl : m' = m := by simpa [hr, Except.toOption] using hm
      exact h m' x hr hc
  · intro h m x hm hx
    refine h x ?_
    rw [hm]
    exact hx

def checksum : Hmac where
  mac a secret data :=
    encode a.macSize ((secret ++ data).foldl (fun acc b => (acc * 257 + b.toNat) % 2 ^ 512) 7)
  length_mac _ _ _ := length_encode _ _

def sampleKey : Key := ⟨⟨[Name.octetsOf "k"], by decide⟩, [1, 2, 3], .hmacSha256⟩

def sampleServer : Server where
  rdataOk _ _ _ _ _ := true
  hmac := checksum
  keyring := Dict.ofList [(sampleKey.name, sampleKey)]
  render :=
    { question := fun m =>
        m.question.flatMap (fun q => q.name.wireLabels ++ u16 q.rdtype ++ u16 q.rdclass)
      options := fun _ => []
      fits := fun _ _ => true }
  dispatch _ := Rcode.noerror

lemma sampleServer_ownSecrets : OwnSecrets sampleServer.keyring := by
  intro a b k k' hk hk' _ _
  obtain ⟨_, hm, -⟩ := Dict.get?_ofList_mem hk
  obtain ⟨_, hm', -⟩ := Dict.get?_ofList_mem hk'
  simp only [List.mem_singleton, Prod.mk.injEq] at hm hm'
  rw [hm.2, hm'.2]

def updateBody : Octets :=
  u16 0x2800 ++ u16 1 ++ u16 0 ++ u16 1 ++ u16 0 ++ [1, 122, 0] ++ u16 6 ++ u16 1 ++
    (15 :: Name.octetsOf "_acme-challenge") ++ [1, 122, 0] ++ u16 16 ++ u16 1 ++ u32 60 ++
    u16 2 ++ [1, 120]

def withTsig (id : ℕ) (body : Octets) (t : TsigRdata) : Octets :=
  u16 id ++ body.take 8 ++ u16 1 ++ body.drop 10 ++ sampleKey.name.wireLabels ++ u16 250 ++
    u16 255 ++ u32 0 ++ u16 (Reply.tsigWire t).length ++ Reply.tsigWire t

def probeTail : Octets :=
  replyFromCtx ⟨7, opcodeUpdate, none, none⟩ Rcode.notauth ++ Tsig.keyBlock sampleKey ++
    replyTimers 1000 Rcode.badsig

def probeMac : Octets :=
  updateBody ++ Tsig.keyBlock sampleKey ++ u48 1000 ++ u16 300 ++ u16 0 ++ u16 probeTail.length

def probe : Octets :=
  withTsig 7 (u16 0x2800 ++ u16 0 ++ u16 0 ++ u16 0 ++ u16 0)
    ⟨Algorithm.hmacSha256.name, 1000, 300, probeMac, 7, 0, []⟩

def answeredMac : Octets :=
  match (sampleServer.handle 1000 probe).reply with
  | .ok (some r) => ((r.toWire checksum).drop 48).take 32
  | _ => []

def forged : Octets :=
  withTsig 9 updateBody ⟨Algorithm.hmacSha256.name, 1000, 300, answeredMac, probeMac.length,
    0, probeTail⟩

theorem forged_update_dispatched :
    OwnSecrets sampleServer.keyring ∧
    (∃ m x, (sampleServer.reader 1000).fromWire forged = .ok m ∧ m.opcode = opcodeUpdate ∧
      checked forged m = some x ∧ signs (sampleServer.handle 1000 probe) = some x) ∧
    ∃ s, sampleServer.system.Run [.deliver 1000 probe, .deliver 1000 forged] s ∧ s.holders = [] ∧
      forged ∈ s.dispatched.map Prod.fst := by
  refine ⟨sampleServer_ownSecrets, ?_, ?_⟩
  · have hd : (sampleServer.handle 1000 forged).dispatched.isSome := by decide +kernel
    have he : (sampleServer.handle 1000 forged).dispatched.bind (checked forged) =
        signs (sampleServer.handle 1000 probe) := by decide +kernel
    obtain ⟨m, hm⟩ := Option.isSome_iff_exists.mp hd
    obtain ⟨hr, ht, hop⟩ := handle_dispatched hm
    obtain ⟨x, hx⟩ := checked_of_hadTsig hr ht
    rw [hm, Option.bind_some, hx] at he
    exact ⟨m, x, hr, hop, hx, he.symm⟩
  · have hu : sampleServer.Unforged {} (.deliver 1000 probe) :=
      unforged_deliver.mpr (by decide +kernel)
    have hu' : sampleServer.Unforged (sampleServer.next {} (.deliver 1000 probe))
        (.deliver 1000 forged) :=
      unforged_deliver.mpr (by decide +kernel)
    exact ⟨_, System.Run.two rfl ⟨hu, rfl⟩ ⟨hu', rfl⟩, rfl, by decide +kernel⟩

def genuineSigned : Signed :=
  ⟨.hmacSha256, sampleKey.secret,
    u16 9 ++ updateBody ++ Tsig.keyBlock sampleKey ++ replyTimers 1000 0⟩

def genuine : Octets :=
  withTsig 9 updateBody ⟨Algorithm.hmacSha256.name, 1000, 300,
    checksum.mac .hmacSha256 sampleKey.secret genuineSigned.data, 9, 0, []⟩

theorem genuine_update_dispatched :
    OwnSecrets sampleServer.keyring ∧ sampleServer.unambiguous 1000 genuine ∧
      ∃ s, (sampleServer.system.restrict sampleServer.Fair).Run [.sign genuineSigned,
      .deliver 1000 genuine] s ∧ genuine ∈ s.dispatched.map Prod.fst ∧
      ∀ d ∈ s.dispatched, ∃ x ∈ s.holders, checked d.1 d.2 = some x := by
  have hu : sampleServer.unambiguous 1000 genuine := by decide +kernel
  have hf : sampleServer.Unforged (sampleServer.next {} (.sign genuineSigned))
      (.deliver 1000 genuine) :=
    unforged_deliver.mpr (by decide +kernel)
  have hr :=
    System.Run.two rfl (sampleServer.step_sign {} genuineSigned) (Server.step_deliver hu hf)
  exact ⟨sampleServer_ownSecrets, hu, _, hr, by decide +kernel,
    (dispatched_held_of_unambiguous sampleServer sampleServer_ownSecrets).2 _ _ hr⟩

end Attack

end AstropathRelay.DataPlane.Forgery
