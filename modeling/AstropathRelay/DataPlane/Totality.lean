import AstropathRelay.DataPlane.Forgery

/-! `handle_query` on every byte string: when it returns, and what the reply says. -/

namespace AstropathRelay.DataPlane

open Lib.ByteStrings Dns Dns.Parser Dns.Reader

section Headers

structure Echoes (wire out : Octets) : Prop where
  id : field out 0 = field wire 0
  opcode : opcodeOf (field out 2) = opcodeOf (field wire 2)
  qr : field out 2 / 32768 % 2 = 1

def Carries (message : Octets) (rcode : ℕ) : Prop :=
  field message 2 % 16 = rcode % 16 ∧
    (field message 10 = 0 ∧ rcode < 16 ∨ field message 10 = 1 ∧ rcode / 16 < 256 ∧
    ∃ front payload options, message = front ++ optRecord payload (rcode / 16) options)

lemma field_lt (wire : Octets) (i : ℕ) : field wire i < 65536 := by
  have h := decode_lt ((wire.drop i).take 2)
  have hl : ((wire.drop i).take 2).length ≤ 2 := List.length_take_le _ _
  calc field wire i < 256 ^ ((wire.drop i).take 2).length := h
    _ ≤ 256 ^ 2 := Nat.pow_le_pow_right (by omega) hl

lemma opcodeOf_lt (flags : ℕ) : opcodeOf flags < 16 := Nat.mod_lt _ (by omega)

lemma field_second (a b : ℕ) (rest : Octets) : field (u16 a ++ u16 b ++ rest) 2 = b % 65536 := by
  rw [List.append_assoc, field_behind _ _ (by simp), length_u16]
  exact field_u16 b rest

lemma field_first (a b : ℕ) (rest : Octets) : field (u16 a ++ u16 b ++ rest) 0 = a % 65536 := by
  rw [List.append_assoc]
  exact field_u16 a _

lemma headerFlags_lt {opcode : ℕ} (h : opcode < 16) (rcode : ℕ) {rd : ℕ} (hd : rd < 2) :
    headerFlags opcode rcode + rd * 256 < 65536 := by
  have := Nat.mod_lt rcode (show 0 < 16 by omega)
  rw [headerFlags]
  omega

lemma echoes_header {wire : Octets} {opcode rd : ℕ} (rcode : ℕ) (rest : Octets)
    (ho : opcode = opcodeOf (field wire 2)) (hd : rd < 2) :
    Echoes wire (u16 (field wire 0) ++ u16 (headerFlags opcode rcode + rd * 256) ++ rest) := by
  have hlt : opcode < 16 := ho ▸ opcodeOf_lt _
  have hr := Nat.mod_lt rcode (show 0 < 16 by omega)
  constructor
  · rw [field_first, Nat.mod_eq_of_lt (field_lt _ _)]
  · rw [field_second, Nat.mod_eq_of_lt (headerFlags_lt hlt rcode hd), ← ho]
    rw [opcodeOf, headerFlags]
    omega
  · rw [field_second, Nat.mod_eq_of_lt (headerFlags_lt hlt rcode hd)]
    rw [headerFlags]
    omega

lemma field_toWire {r : Reply} (hl : 10 ≤ r.message.length) (H : Hmac) {i : ℕ} (hi : i + 2 ≤ 10) :
    field (r.toWire H) i = field r.message i := by
  rw [Reply.toWire]
  split
  · rfl
  · have hlen : (r.message.take 10).length = 10 := by simpa using hl
    simp only [List.append_assoc]
    rw [field_append _ (by omega),
      ← field_append (a := r.message.take 10) (r.message.drop 10) (by omega), List.take_append_drop]

lemma Echoes.toWire {wire : Octets} {r : Reply} (h : Echoes wire r.message)
    (hl : 10 ≤ r.message.length) (H : Hmac) : Echoes wire (r.toWire H) where
  id := (field_toWire hl H (by omega)).trans h.id
  opcode := (congrArg opcodeOf (field_toWire hl H (by omega))).trans h.opcode
  qr := by
    rw [field_toWire hl H (by omega)]
    exact h.qr

end Headers

section Replies

lemma extractTsigContext_some {wire : Octets} {ctx : TsigWire}
    (h : extractTsigContext wire = some ctx) :
    ctx.id = field wire 0 ∧ ctx.opcode = opcodeOf (field wire 2) := by
  unfold extractTsigContext at h
  split at h
  · next ctx' q hb =>
    obtain rfl := Option.some.inj h
    obtain ⟨r, p₁, h₁, g⟩ := withHeader_ok hb
    obtain ⟨rfl, -⟩ := header_ofWire h₁
    obtain ⟨_, p₂, -, g⟩ := bind_ok.mp g
    obtain ⟨found, p₃, -, g⟩ := bind_ok.mp g
    obtain ⟨rfl, -⟩ := Prod.mk.inj (pure_ok.mp g)
    exact ⟨rfl, rfl⟩
  · simp at h

lemma replyFromCtx_echoes {wire : Octets} {ctx : TsigWire} (h : extractTsigContext wire = some ctx)
    (rcode : ℕ) : Echoes wire (replyFromCtx ctx rcode) := by
  obtain ⟨hi, ho⟩ := extractTsigContext_some h
  have he := echoes_header rcode (u16 0 ++ u16 0 ++ u16 0 ++ u16 0) ho (show 0 < 2 by omega)
  simpa [replyFromCtx, hi] using he

lemma plainErrorReply_echoes {wire : Octets} {rcode : ℕ} {r : Reply}
    (h : plainErrorReply wire rcode = some r) (H : Hmac) : Echoes wire (r.toWire H) := by
  obtain ⟨ctx, hc, rfl⟩ := Option.map_eq_some_iff.mp h
  exact Echoes.toWire (replyFromCtx_echoes hc rcode) (by simp [replyFromCtx]) H

lemma signedErrorReply_echoes {R : Reader} {wire : Octets} {rcode error : ℕ} {r : Reply}
    (h : signedErrorReply R wire rcode error = some r) (H : Hmac) : Echoes wire (r.toWire H) := by
  have hm : ∃ ctx, extractTsigContext wire = some ctx ∧ r.message = replyFromCtx ctx rcode := by
    unfold signedErrorReply at h
    split at h
    · simp at h
    · next ctx hctx =>
      split at h
      · split at h <;> exact ⟨ctx, hctx, by rw [← Option.some.inj h]⟩
      · exact ⟨ctx, hctx, by rw [← Option.some.inj h]⟩
  obtain ⟨ctx, hc, hr⟩ := hm
  refine Echoes.toWire ?_ (by simp [hr, replyFromCtx]) H
  rw [hr]
  exact replyFromCtx_echoes hc rcode

lemma responseMessage_echoes {R : Reader} {wire : Octets} {m : Message}
    (h : R.fromWire wire = .ok m)
    (render : Renderer) (rcode : ℕ) : Echoes wire (responseMessage render m rcode) := by
  have hr := fromWire_reads h
  have ho : m.opcode = opcodeOf (field wire 2) := by rw [Message.opcode, hr.flags]
  have he := echoes_header rcode (u16 m.question.length ++ (u16 0 ++ (u16 0 ++
    (u16 (if responseHasOpt m rcode then 1 else 0) ++ responseBody render m rcode)))) ho
    (show m.flags / 256 % 2 < 2 from Nat.mod_lt _ (by omega))
  rw [show field wire 0 = m.id from hr.id.symm] at he
  simpa only [responseMessage, List.append_assoc] using he

lemma responseMessage_carries (render : Renderer) (m : Message) {rcode : ℕ} (h : rcode < 4096) :
    Carries (responseMessage render m rcode) rcode := by
  have ho : m.opcode < 16 := opcodeOf_lt _
  have hd : m.flags / 256 % 2 < 2 := Nat.mod_lt _ (by omega)
  have hlow : field (responseMessage render m rcode) 2 % 16 = rcode % 16 := by
    simp only [responseMessage, List.append_assoc]
    rw [← List.append_assoc, field_second, Nat.mod_eq_of_lt (headerFlags_lt ho rcode hd)]
    rw [headerFlags]
    omega
  have hcount : field (responseMessage render m rcode) 10 = if responseHasOpt m rcode then 1
      else 0 := by
    rw [responseMessage, field_append _ (by simp), field_behind _ _ (by simp)]
    have hu := field_u16 (if responseHasOpt m rcode then 1 else 0) []
    rw [List.append_nil] at hu
    simp only [List.length_append, length_u16, Nat.reduceAdd, Nat.sub_self, hu]
    split <;> rfl
  refine ⟨hlow, ?_⟩
  rw [hcount]
  by_cases hopt : responseHasOpt m rcode
  · right
    refine ⟨if_pos hopt, by omega, ?_⟩
    simp only [responseMessage, responseBody, hopt, ↓reduceIte]
    rw [← List.append_assoc]
    exact ⟨_, _, _, rfl⟩
  · left
    have hlt : rcode < 16 := by
      by_contra hn
      exact hopt (by simp [responseHasOpt]; omega)
    exact ⟨if_neg hopt, hlt⟩

end Replies

section Total

structure Total (R : Reader) (dispatch : Message → Fin 4096) (wire : Octets)
    (h : Handled) : Prop where
  returns : ∃ r, h.reply = .ok r
  echoes : ∀ r, h.reply = .ok (some r) → Echoes wire (r.toWire R.hmac)
  answered : ∀ m, h.dispatched = some m → ∃ r, h.reply = .ok (some r) ∧ r.tsig.isSome ∧
    Carries r.message (dispatch m)

def replyCode (dispatch : Message → Fin 4096) (m : Message) : ℕ :=
  if !m.hadTsig then Rcode.notauth else if m.opcode ≠ opcodeUpdate then Rcode.refused
    else dispatch m

variable {R : Reader} {render : Renderer} {dispatch : Message → Fin 4096} {wire : Octets}
  {m : Message}

variable (render dispatch) in
lemma handleQuery_accepted (h : R.fromWire wire = .ok m) :
    (handleQuery R render (fun m => dispatch m) wire).reply =
      reply R render m (replyCode dispatch m) ∧
      ∀ m', (handleQuery R render (fun m => dispatch m) wire).dispatched = some m' →
      m' = m ∧ m.hadTsig = true ∧ replyCode dispatch m = dispatch m := by
  rw [handleQuery, replyCode]
  rw [h]
  dsimp only
  by_cases ht : m.hadTsig
  · by_cases ho : m.opcode = opcodeUpdate
    · simp [ht, ho, eq_comm]
    · simp [ht, ho]
  · simp [ht]

lemma reply_ok {rcode : ℕ} (hq : m.qr = false) (hf : render.fits m rcode = true) :
    ∃ tsig, reply R render m rcode = .ok (some ⟨responseMessage render m rcode, tsig⟩) ∧
      ∀ t key, m.tsig = some t → m.key = some key → tsig.isSome := by
  rw [reply, if_neg (by simp [hq]), if_neg (by simp [hf])]
  refine ⟨_, rfl, fun t key ht hk => ?_⟩
  simp [ht, hk]

lemma total_of_accepted (h : R.fromWire wire = .ok m) (hq : m.qr = false)
    (hf : render.fits m (replyCode dispatch m) = true) :
    Total R dispatch wire (handleQuery R render (fun m => dispatch m) wire) := by
  obtain ⟨hr, hd⟩ := handleQuery_accepted render dispatch h
  obtain ⟨tsig, hre, hsigned⟩ := reply_ok hq hf
  rw [hre] at hr
  refine ⟨⟨_, hr⟩, ?_, ?_⟩
  · intro r h'
    obtain rfl := Option.some.inj (Except.ok.inj (hr.symm.trans h'))
    exact Echoes.toWire (responseMessage_echoes h render _)
      (by simp [responseMessage]; omega) R.hmac
  · intro m' hm'
    obtain ⟨rfl, ht, hc⟩ := hd m' hm'
    refine ⟨_, hr, ?_, ?_⟩
    · obtain ⟨-, ⟨hn, -⟩ | ⟨t, key, -, -, -, hs, hk⟩⟩ := fromWire_ok h
      · simp [Message.hadTsig, hn] at ht
      · exact hsigned t key hs hk
    · rw [hc]
      exact responseMessage_carries render m' (dispatch m').isLt

lemma total_of_rejected {e : DnsError} (h : R.fromWire wire = .error e) :
    Total R dispatch wire (handleQuery R render (fun m => dispatch m) wire) := by
  have hplain : Total R dispatch wire ⟨some .unknownkey, none,
      .ok (plainErrorReply wire Rcode.notauth)⟩ :=
    ⟨⟨_, rfl⟩, fun r hr => plainErrorReply_echoes (Except.ok.inj hr) R.hmac,
      fun m hm => by simp at hm⟩
  have hsigned (failure : Option TsigFailure) (error : ℕ) :
      Total R dispatch wire ⟨failure, none, .ok (signedErrorReply R wire Rcode.notauth error)⟩ :=
    ⟨⟨_, rfl⟩, fun r hr => signedErrorReply_echoes (Except.ok.inj hr) R.hmac,
      fun m hm => by simp at hm⟩
  have hdrop : Total R dispatch wire ⟨none, none, .ok none⟩ :=
    ⟨⟨_, rfl⟩, fun r hr => by simp at hr, fun m hm => by simp at hm⟩
  rw [handleQuery]
  rw [h]
  cases e with
  | unknownTSIGKey => exact hplain
  | badSignature => exact hsigned _ _
  | badTime => exact hsigned _ _
  | badKey => exact hsigned _ _
  | badAlgorithm => exact hsigned _ _
  | _ => exact hdrop

/-- `handle_query` raises only after `from_wire` accepted the message: because its QR bit is set, or
because the reply does not fit into what the requester takes. -/
theorem handleQuery_total_iff (R : Reader) (render : Renderer) (dispatch : Message → Fin 4096)
    (wire : Octets) :
    Total R dispatch wire (handleQuery R render (fun m => dispatch m) wire) ↔
      ∀ m, R.fromWire wire = .ok m →
        m.qr = false ∧ render.fits m (replyCode dispatch m) = true := by
  constructor
  · intro ht m hm
    obtain ⟨r, hr⟩ := ht.returns
    rw [(handleQuery_accepted render dispatch hm).1, reply] at hr
    split_ifs at hr with hq hf
    exact ⟨by simpa using hq, by simpa using hf⟩
  · intro hc
    cases hm : R.fromWire wire with
    | error e => exact total_of_rejected hm
    | ok m => exact total_of_accepted hm (hc m hm).1 (hc m hm).2

def qrBody : Octets := u16 0xa800 ++ Forgery.updateBody.drop 2

def qrUpdate : Octets :=
  Forgery.withTsig 9 qrBody ⟨Algorithm.hmacSha256.name, 1000, 300,
    Forgery.checksum.mac .hmacSha256 Forgery.sampleKey.secret
      (u16 9 ++ qrBody ++ Tsig.keyBlock Forgery.sampleKey ++ Forgery.replyTimers 1000 0), 9, 0, []⟩

def answersNoerror : Message → Fin 4096 := fun _ => 0

theorem qrUpdate_dispatched_unanswered : (handleQuery (Forgery.sampleServer.reader 1000)
      Forgery.sampleServer.render (fun m => answersNoerror m) qrUpdate).dispatched.isSome ∧
    ¬ Total (Forgery.sampleServer.reader 1000) answersNoerror qrUpdate
    (handleQuery (Forgery.sampleServer.reader 1000) Forgery.sampleServer.render
      (fun m => answersNoerror m) qrUpdate) := by
  have hd : (handleQuery (Forgery.sampleServer.reader 1000) Forgery.sampleServer.render
      (fun m => answersNoerror m) qrUpdate).dispatched.isSome := by decide +kernel
  have hr : (handleQuery (Forgery.sampleServer.reader 1000) Forgery.sampleServer.render
      (fun m => answersNoerror m) qrUpdate).reply.toOption.isNone := by decide +kernel
  refine ⟨hd, fun h => ?_⟩
  obtain ⟨r, he⟩ := h.returns
  simp [he, Except.toOption] at hr

end Total

end AstropathRelay.DataPlane
