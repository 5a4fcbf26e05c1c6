import AstropathRelay.Dns.TsigErrors
import AstropathRelay.DataPlane.Totality

/-! `_extract_tsig_context` keeps in step with `from_wire`: where the check of a TSIG record fails,
the second pass over the octets finds that record, so the failure is answered. -/

namespace AstropathRelay.Dns.Parser

section Levels

variable {α β : Type}

def Level (p : Parser) : Prop := p.furthest = p.current

def skipped (p : Parser) (n : ℕ) : Parser :=
  { p with current := p.current + n, furthest := p.current + n }

def KeepsLevel (x : Parse α) : Prop := ∀ ⦃p q a⦄, x p = .ok (a, q) → p.Level → q.Level

lemma KeepsLevel.bind {x : Parse α} {f : α → Parse β} (hx : KeepsLevel x)
    (hf : ∀ a, KeepsLevel (f a)) : KeepsLevel (x >>= f) := by
  intro p q b h hp
  obtain ⟨a, r, hr, h⟩ := bind_ok.mp h
  exact hf a h (hx hr hp)

lemma keepsLevel_pure (a : α) : KeepsLevel (pure a : Parse α) := by
  intro p q b h hp
  obtain ⟨-, rfl⟩ := Prod.mk.inj (pure_ok.mp h)
  exact hp

lemma keepsLevel_fail (e : DnsError) : KeepsLevel (fail e : Parse α) := by
  intro p q b h
  simp at h

lemma keepsLevel_get : KeepsLevel (get : Parse Parser) := by
  intro p q b h hp
  obtain ⟨-, rfl⟩ := Prod.mk.inj (Except.ok.inj h)
  exact hp

lemma keepsLevel_ite {c : Prop} [Decidable c] {x y : Parse α} (hx : KeepsLevel x)
    (hy : KeepsLevel y) : KeepsLevel (if c then x else y) := by
  split <;> assumption

lemma keepsLevel_getBytes (n : ℕ) : KeepsLevel (getBytes n) := by
  intro p q bs h hp
  obtain ⟨-, -, rfl⟩ := getBytes_ok h
  have hf : p.furthest = p.current := hp
  change max p.furthest (p.current + n) = p.current + n
  omega

lemma keepsLevel_getUint (w : ℕ) : KeepsLevel (getUint w) :=
  (keepsLevel_getBytes w).bind fun _ => keepsLevel_pure _

lemma keepsLevel_getCountedBytes (w : ℕ) : KeepsLevel (getCountedBytes w) :=
  (keepsLevel_getUint w).bind keepsLevel_getBytes

lemma getName_level {n : Name} {p q : Parser} (h : getName p = .ok (n, q)) : q.Level := by
  obtain ⟨labels, p₁, -, h⟩ := bind_ok.mp h
  obtain ⟨_, p₂, h₂, h⟩ := bind_ok.mp h
  obtain ⟨-, rfl⟩ := Prod.mk.inj (Except.ok.inj h₂)
  unfold liftName at h
  split at h
  · obtain ⟨-, rfl⟩ := Prod.mk.inj (Except.ok.inj h)
    rfl
  · simp at h

lemma recordFields_level {r : RecordFields} {p q : Parser} (h : recordFields p = .ok (r, q)) :
    q.Level := by
  obtain ⟨name, p₁, h₁, h⟩ := bind_ok.mp h
  have hk : KeepsLevel (do
      let rdtype ← getUint 2
      let rdclass ← getUint 2
      let ttl ← getUint 4
      let rdlen ← getUint 2
      pure (⟨name, rdtype, rdclass, ttl, rdlen⟩ : RecordFields)) :=
    (keepsLevel_getUint 2).bind fun _ => (keepsLevel_getUint 2).bind fun _ =>
      (keepsLevel_getUint 4).bind fun _ =>
      (keepsLevel_getUint 2).bind fun _ => keepsLevel_pure _
  exact hk h (getName_level h₁)

variable {p q : Parser} {n : ℕ}

lemma skipped_zero (hp : p.Level) : p.skipped 0 = p := by
  obtain ⟨wire, current, stop, furthest⟩ := p
  obtain rfl : furthest = current := hp
  rfl

lemma getBytes_skipped (hp : p.Level) (hn : n ≤ p.remaining) :
    getBytes n p = .ok ((p.wire.drop p.current).take n, p.skipped n) := by
  have hf : p.furthest = p.current := hp
  rw [getBytes, if_neg (by omega), skipped, hf, max_eq_right (Nat.le_add_right _ _)]

lemma restrictTo_skipped {body : Parse α} {a : α} (ha : Advances 0 body) (hl : KeepsLevel body)
    (hp : p.Level) (h : restrictTo n body p = .ok (a, q)) : n ≤ p.remaining ∧ q = p.skipped n := by
  obtain ⟨r, hr, hc, rfl⟩ := restrictTo_ok h
  have hm := ha hr
  have hs : r.stop = p.current + n := hm.stop
  have hf : r.furthest = r.current := hl hr hp
  constructor
  · by_contra hn
    rw [restrictTo, if_pos (by omega)] at h
    simp at h
  · rw [skipped, ← hs, ← hc, ← hm.wire]
    nth_rewrite 3 [← hf]
    rfl

lemma restrictTo_getBytes (hp : p.Level) (hn : n ≤ p.remaining) (b : β) :
    restrictTo n (getBytes n >>= fun _ => pure b) p = .ok (b, p.skipped n) := by
  have hr : n ≤ ({ p with stop := p.current + n } : Parser).remaining := by simp [remaining]
  rw [restrictTo, if_neg (by omega),
    bind_eq_of_ok (getBytes_skipped (p := { p with stop := p.current + n }) hp hr)]
  change (if p.current + n ≠ p.current + n then _ else _) = _
  rw [if_neg (not_not.mpr rfl)]
  rfl

lemma restrictTo_map {body : Parse α} {a : α} (h : restrictTo n body p = .ok (a, q)) (f : α → β) :
    restrictTo n (body >>= fun a => pure (f a)) p = .ok (f a, q) := by
  unfold restrictTo at h ⊢
  split at h
  · simp at h
  · next hn =>
    rw [if_neg hn]
    split at h
    · simp at h
    · next a' r hr =>
      rw [bind_eq_of_ok hr]
      split at h
      · simp at h
      · next hc =>
        obtain ⟨rfl, rfl⟩ := Prod.mk.inj (Except.ok.inj h)
        exact if_neg hc

end Levels

end AstropathRelay.Dns.Parser

namespace AstropathRelay.DataPlane

open Lib.ByteStrings Dns Dns.Parser Dns.Reader

section Simulation

lemma keepsLevel_getStrings (fuel : ℕ) (ss : List Octets) : KeepsLevel (getStrings fuel ss) := by
  induction fuel generalizing ss with
  | zero => exact keepsLevel_pure ss
  | succ fuel ih =>
    refine keepsLevel_get.bind (fun p => keepsLevel_ite (keepsLevel_pure ss) ?_)
    exact (keepsLevel_getCountedBytes 1).bind (fun s => ih _)

lemma keepsLevel_getTxt (rdlen : ℕ) : KeepsLevel (getTxt rdlen) :=
  (keepsLevel_getStrings rdlen []).bind fun _ =>
    keepsLevel_ite (keepsLevel_fail _) (keepsLevel_pure _)

lemma keepsLevel_getOther (ok : Octets → ℕ → ℕ → Bool)
    (rdlen : ℕ) : KeepsLevel (getOther ok rdlen) :=
  keepsLevel_get.bind fun _ =>
    keepsLevel_ite ((keepsLevel_getBytes rdlen).bind fun _ => keepsLevel_pure _) (keepsLevel_fail _)

variable {R : Reader} {s : Section} {m m' : Message} {p q : Parser}

lemma skipQuestions_of_getQuestion {n : ℕ} (h : getQuestion n m p = .ok (m', q)) :
    skipQuestions n p = .ok ((), q) := by
  induction n generalizing m p with
  | zero =>
    obtain ⟨-, rfl⟩ := Prod.mk.inj (pure_ok.mp h)
    rfl
  | succ n ih =>
    obtain ⟨qname, p₁, h₁, h⟩ := bind_ok.mp h
    obtain ⟨rdtype, p₂, h₂, h⟩ := bind_ok.mp h
    obtain ⟨rdclass, p₃, h₃, h⟩ := bind_ok.mp h
    obtain ⟨_, p₄, h₄, h⟩ := bind_ok.mp h
    have hp : p₄ = p₃ := by
      unfold questionHeader at h₄
      split at h₄
      · simp at h₄
      · exact (Prod.mk.inj (pure_ok.mp h₄)).2.symm
    rw [hp] at h
    rw [skipQuestions, bind_eq_of_ok h₁, bind_eq_of_ok h₂, bind_eq_of_ok h₃]
    exact ih h

lemma recordHeader_state {rdclass : ℕ} {r : ℕ × Option ℕ × Bool}
    (h : recordHeader m s rdclass p = .ok (r, q)) : q = p := by
  unfold recordHeader at h
  cases hu : m.isUpdate with
  | false =>
    rw [hu, if_neg (by simp)] at h
    exact (Prod.mk.inj (pure_ok.mp h)).2.symm
  | true =>
    rw [hu, if_pos rfl] at h
    cases hz : m.zone with
    | nil => simp [hz] at h
    | cons z zs =>
      simp only [hz] at h
      split at h <;> exact (Prod.mk.inj (pure_ok.mp h)).2.symm

lemma getPlain_skipped {name : Name} {rdtype rdclass rdlen : ℕ} (hp : p.Level)
    (h : R.getPlain s name rdtype rdclass rdlen m p = .ok (m', q)) : rdlen ≤ p.remaining ∧
    q = p.skipped rdlen := by
  obtain ⟨⟨c, d, empty⟩, p₁, h₁, h⟩ := bind_ok.mp h
  rw [recordHeader_state h₁] at h
  dsimp only at h
  split at h
  · split at h
    · simp at h
    · next hz =>
      obtain ⟨-, rfl⟩ := Prod.mk.inj (pure_ok.mp h)
      obtain rfl : rdlen = 0 := by omega
      exact ⟨Nat.zero_le _, (skipped_zero hp).symm⟩
  · obtain ⟨rd, p₂, h₂, h⟩ := bind_ok.mp h
    obtain ⟨-, rfl⟩ := Prod.mk.inj (pure_ok.mp h)
    exact restrictTo_skipped (advances_ite (advances_getTxt rdlen) (advances_getOther _ rdlen))
      (keepsLevel_ite (keepsLevel_getTxt rdlen) (keepsLevel_getOther _ rdlen)) hp h₂

lemma contextRecord_of_getRecord {last : Bool} (h : R.getRecord s last m p = .ok (m', q))
    (found : Option (Name × Octets)) : ∃ found', contextRecord found p = .ok (found', q) := by
  obtain ⟨r, p₁, h₁, h⟩ := withFields_ok h
  have hp : p₁.Level := recordFields_level h₁
  split at h
  · next ht =>
    split at h
    · simp at h
    · obtain ⟨t, p₂, h₂, h⟩ := bind_ok.mp h
      obtain rfl := checkTsig_state h
      refine ⟨some (r.name, t.mac), (withFields_of_ok h₁ _).trans ?_⟩
      rw [if_pos ht]
      exact restrictTo_map h₂ (fun t => some (r.name, t.mac))
  · next ht =>
    have hs : r.rdlen ≤ p₁.remaining ∧ q = p₁.skipped r.rdlen := by
      split at h
      · split at h
        · simp at h
        · obtain ⟨_, p₂, h₂, h⟩ := bind_ok.mp h
          obtain ⟨-, rfl⟩ := Prod.mk.inj (pure_ok.mp h)
          exact restrictTo_skipped (advances_getOther _ r.rdlen)
            (keepsLevel_getOther _ r.rdlen) hp h₂
      · exact getPlain_skipped hp h
    obtain ⟨hn, rfl⟩ := hs
    refine ⟨found, (withFields_of_ok h₁ _).trans ?_⟩
    rw [if_neg ht]
    exact restrictTo_getBytes hp hn found

lemma contextRecords_of_getRecords {n : ℕ} (h : R.getRecords s n m p = .ok (m', q))
    (found : Option (Name × Octets)) : ∃ found', contextRecords n found p = .ok (found', q) := by
  induction n generalizing m p found with
  | zero =>
    obtain ⟨-, rfl⟩ := Prod.mk.inj (pure_ok.mp h)
    exact ⟨found, rfl⟩
  | succ n ih =>
    obtain ⟨m₁, p₁, h₁, h⟩ := bind_ok.mp h
    obtain ⟨found₁, hf⟩ := contextRecord_of_getRecord h₁ found
    rw [contextRecords, bind_eq_of_ok hf]
    exact ih h found₁

lemma contextRecords_add (a b : ℕ) (found : Option (Name × Octets)) :
    contextRecords (a + b) found = contextRecords a found >>= contextRecords b := by
  induction a generalizing found with
  | zero => rw [Nat.zero_add, contextRecords, pure_bind]
  | succ a ih =>
    rw [Nat.succ_add, contextRecords, contextRecords, bind_assoc]
    exact congrArg (contextRecord found >>= ·) (funext ih)

lemma contextRecord_of_tsigRecord {t : TsigRecord} (h : tsigRecord p = .ok (t, q))
    (found : Option (Name × Octets)) :
    contextRecord found p = .ok (some (t.owner, t.rdata.mac), q) := by
  obtain ⟨r, p₁, h₁, h⟩ := withFields_ok h
  split at h
  · next hc =>
    obtain ⟨rdata, p₂, h₂, h⟩ := bind_ok.mp h
    obtain ⟨rfl, rfl⟩ := Prod.mk.inj (pure_ok.mp h)
    refine (withFields_of_ok h₁ _).trans ?_
    rw [if_pos hc.1]
    exact restrictTo_map h₂ (fun t => some (r.name, t.mac))
  · simp at h

lemma contextBody_of_readToTsig {t : TsigRecord} (h : R.readToTsig p = .ok ((m, t), q)) : ∃ ctx,
    contextBody p = .ok (ctx, q) ∧ ctx.keyname = some t.owner ∧ ctx.mac = some t.rdata.mac := by
  obtain ⟨r, p₁, h₁, h⟩ := withHeader_ok h
  obtain ⟨m₁, p₂, h₂, h⟩ := bind_ok.mp h
  obtain ⟨m₂, p₃, h₃, h⟩ := bind_ok.mp h
  obtain ⟨m₃, p₄, h₄, h⟩ := bind_ok.mp h
  split at h
  · simp at h
  · next hn =>
    obtain ⟨m₄, p₅, h₅, h⟩ := bind_ok.mp h
    obtain ⟨t', q', ht, h⟩ := bind_ok.mp h
    obtain ⟨he, rfl⟩ := Prod.mk.inj (pure_ok.mp h)
    obtain ⟨-, rfl⟩ := Prod.mk.inj he
    rw [R.getSection_eq_getRecords (by simp)] at h₃ h₄
    obtain ⟨f₁, hf₁⟩ := contextRecords_of_getRecords h₃ none
    obtain ⟨f₂, hf₂⟩ := contextRecords_of_getRecords h₄ f₁
    obtain ⟨f₃, hf₃⟩ := contextRecords_of_getRecords h₅ f₂
    have hr : contextRecords (r.an + r.ns + r.ar) none p₂ =
        .ok (some (t'.owner, t'.rdata.mac), q') := by
      rw [← Nat.sub_one_add_one hn, contextRecords_add, contextRecords_add, bind_assoc,
        bind_eq_of_ok hf₁, bind_eq_of_ok hf₂, contextRecords_add, bind_eq_of_ok hf₃, contextRecords,
        bind_eq_of_ok (contextRecord_of_tsigRecord ht f₃)]
      rfl
    refine ⟨⟨r.id, opcodeOf r.flags, some t'.owner, some t'.rdata.mac⟩,
      (withHeader_of_ok h₁ _).trans ?_, rfl, rfl⟩
    rw [bind_eq_of_ok (skipQuestions_of_getQuestion h₂), bind_eq_of_ok hr]
    rfl

lemma extractTsigContext_of_readToTsig {wire : Octets} {t : TsigRecord}
    (h : R.readToTsig (ofWire wire) = .ok ((m, t), q)) :
    extractTsigContext wire =
      some ⟨field wire 0, opcodeOf (field wire 2), some t.owner, some t.rdata.mac⟩ := by
  obtain ⟨ctx, hb, hk, hm⟩ := contextBody_of_readToTsig h
  have he : extractTsigContext wire = some ctx := by rw [extractTsigContext, hb]
  obtain ⟨hi, ho⟩ := extractTsigContext_some he
  rw [he, ← hi, ← ho, ← hk, ← hm]

end Simulation

section Answers

structure Answered (R : Reader) (wire : Octets) (t : TsigRecord) (e : DnsError)
    (r : Reply) : Prop where
  echoes : Echoes wire (r.toWire R.hmac)
  notauth : field (r.toWire R.hmac) 2 % 16 = Rcode.notauth
  unsigned : e = .unknownTSIGKey → r.tsig = none
  signed : e ≠ .unknownTSIGKey →
    ∃ key error, R.keyring.get? t.owner = some key ∧ Forgery.tsigError e = some error ∧
    r.tsig = some ⟨key, t.rdata.mac, field wire 0, R.now, 300, error⟩

lemma tsigError_of_ofTsig {e : DnsError} (he : e.ofTsig = true) (hu : e ≠ .unknownTSIGKey) :
    ∃ error, Forgery.tsigError e = some error := by
  cases e <;> simp_all [DnsError.ofTsig, Forgery.tsigError]

variable {R : Reader} {wire : Octets} {t : TsigRecord} {e : DnsError}

lemma field_notauth {r : Reply} {ctx : TsigWire} (hr : r.message = replyFromCtx ctx Rcode.notauth)
    (ho : ctx.opcode < 16) (H : Hmac) : field (r.toWire H) 2 % 16 = Rcode.notauth := by
  have hl : r.message.length = 12 := hr ▸ Forgery.length_replyFromCtx ctx Rcode.notauth
  have hf : headerFlags ctx.opcode Rcode.notauth < 65536 :=
    headerFlags_lt ho Rcode.notauth (show 0 < 2 by omega)
  rw [field_toWire (by omega) H (by omega), hr]
  simp only [replyFromCtx, List.append_assoc]
  rw [← List.append_assoc, field_second, Nat.mod_eq_of_lt hf]
  rw [headerFlags, Rcode.notauth]
  omega

lemma handleQuery_unknownTSIGKey (render : Renderer) (dispatch : Message → ℕ)
    (h : R.fromWire wire = .error .unknownTSIGKey) :
    (handleQuery R render dispatch wire).dispatched = none ∧
      (handleQuery R render dispatch wire).reply = .ok (plainErrorReply wire Rcode.notauth) := by
  simp [handleQuery, h]

lemma handleQuery_tsigError (render : Renderer) (dispatch : Message → ℕ)
    (h : R.fromWire wire = .error e) {error : ℕ} (he : Forgery.tsigError e = some error) :
    (handleQuery R render dispatch wire).dispatched = none ∧
      (handleQuery R render dispatch wire).reply =
      .ok (signedErrorReply R wire Rcode.notauth error) := by
  cases e <;> simp_all [handleQuery, Forgery.tsigError]

/-- Whenever `from_wire` raises an error of the TSIG record it is checking, the second pass finds
that record behind whatever stands before it. So every such message is answered with NOTAUTH, and
unless the key is unknown the answer is signed with the key that failed and says why. -/
theorem fallback_agrees (R : Reader) (render : Renderer) (dispatch : Message → ℕ) (wire : Octets)
    (e : DnsError) (h : R.fromWire wire = .error e) (he : e.ofTsig = true) :
    ∃ t, R.FailsAt wire t e ∧
      extractTsigContext wire = some ⟨field wire 0, opcodeOf (field wire 2),
        some t.owner, some t.rdata.mac⟩ ∧
      (handleQuery R render dispatch wire).dispatched = none ∧
      ∃ r, (handleQuery R render dispatch wire).reply = .ok (some r) ∧ Answered R wire t e r := by
  obtain ⟨t, m, q, hr, hg, hc⟩ := failsAt_of_fromWire h he
  have hx := extractTsigContext_of_readToTsig hr
  refine ⟨t, ⟨m, q, hr, hg, hc⟩, hx, ?_⟩
  obtain ⟨rfl, hk⟩ | ⟨hu, key, hk⟩ := checkTsig_error hc
  · obtain ⟨hd, hq⟩ := handleQuery_unknownTSIGKey render dispatch h
    have hp : plainErrorReply wire Rcode.notauth = some ⟨replyFromCtx ⟨field wire 0,
        opcodeOf (field wire 2), some t.owner, some t.rdata.mac⟩ Rcode.notauth, none⟩ := by
      rw [plainErrorReply, hx, Option.map_some]
    refine ⟨hd, _, hq.trans (congrArg Except.ok hp), plainErrorReply_echoes hp R.hmac, ?_,
      fun _ => rfl, ?_⟩
    · exact field_notauth rfl (opcodeOf_lt _) R.hmac
    · exact fun hu => absurd rfl hu
  · obtain ⟨error, hte⟩ := tsigError_of_ofTsig he hu
    obtain ⟨hd, hq⟩ := handleQuery_tsigError render dispatch h hte
    have hp : signedErrorReply R wire Rcode.notauth error = some ⟨replyFromCtx
        ⟨field wire 0, opcodeOf (field wire 2), some t.owner, some t.rdata.mac⟩ Rcode.notauth,
        some ⟨key, t.rdata.mac, field wire 0, R.now, 300, error⟩⟩ := by
      simp only [signedErrorReply, hx, hk]
    refine ⟨hd, _, hq.trans (congrArg Except.ok hp), signedErrorReply_echoes hp R.hmac, ?_, ?_, ?_⟩
    · exact field_notauth rfl (opcodeOf_lt _) R.hmac
    · exact fun hu' => absurd hu' hu
    · exact fun _ => ⟨key, error, hk, hte, rfl⟩

def tampered : Octets :=
  Forgery.withTsig 9 Forgery.updateBody ⟨Algorithm.hmacSha256.name, 1000, 300,
    List.replicate 32 0, 9, 0, []⟩

theorem tampered_answered :
    ∃ t, (Forgery.sampleServer.reader 1000).FailsAt tampered t .badSignature ∧
      extractTsigContext tampered = some ⟨field tampered 0, opcodeOf (field tampered 2),
      some t.owner, some t.rdata.mac⟩ ∧ (handleQuery (Forgery.sampleServer.reader 1000)
      Forgery.sampleServer.render Forgery.sampleServer.dispatch tampered).dispatched = none ∧
      ∃ r, (handleQuery (Forgery.sampleServer.reader 1000) Forgery.sampleServer.render
      Forgery.sampleServer.dispatch tampered).reply = .ok (some r) ∧
      Answered (Forgery.sampleServer.reader 1000) tampered t .badSignature r := by
  have h : (Forgery.sampleServer.reader 1000).fromWire tampered = .error .badSignature := by
    decide +kernel
  exact fallback_agrees (Forgery.sampleServer.reader 1000) Forgery.sampleServer.render
    Forgery.sampleServer.dispatch tampered .badSignature h rfl

end Answers

end AstropathRelay.DataPlane
