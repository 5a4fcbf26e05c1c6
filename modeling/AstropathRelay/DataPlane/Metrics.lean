import AstropathRelay.DataPlane.Dispatcher
import AstropathRelay.DataPlane.FallbackParser
import AstropathRelay.Lib.Interleaving

/-! The data-plane metrics of `observability.py`, and everything that handling one inbound message
does to the metrics, to the audit table and to the network. -/

namespace AstropathRelay.DataPlane

open Lib Lib.ByteStrings Dns Dns.Reader Providers

inductive Note (P : Type)
  | tsigFailure (reason : TsigFailure)
  | effect (e : Effect P)
  | inserted (record : AuditRecord)
  | sent (reply : Reply)

-- Of the duration histogram only the number of its observations.
structure DataPlaneMetrics where
  challenges : String → String → String → ℕ := fun _ _ _ => 0
  tsigFailures : TsigFailure → ℕ := fun _ => 0
  tsigBadtime : ℕ := 0
  providerCallDuration : String → ℕ := fun _ => 0
  zoneLastSuccess : String → Option ℕ := fun _ => none
  auditFailures : ℕ := 0

namespace DataPlaneMetrics

variable {P : Type} (m : DataPlaneMetrics)

def recordTsigFailure (reason : TsigFailure) : DataPlaneMetrics :=
  { m with
    tsigFailures := fun r => m.tsigFailures r + if r = reason then 1 else 0
    tsigBadtime := m.tsigBadtime + if reason = .badtime then 1 else 0 }

def recordChallenge (provider action result : String) : DataPlaneMetrics :=
  { m with
    challenges := fun p r a =>
      m.challenges p r a + if p = provider ∧ r = result ∧ a = action then 1 else 0 }

def observeDuration (provider : String) : DataPlaneMetrics :=
  { m with
    providerCallDuration := fun p => m.providerCallDuration p + if p = provider then 1 else 0 }

def markZoneSuccess (zone : String) (timestamp : ℕ) : DataPlaneMetrics :=
  { m with zoneLastSuccess := Function.update m.zoneLastSuccess zone (some timestamp) }

def recordAuditFailure : DataPlaneMetrics := { m with auditFailures := m.auditFailures + 1 }

def note : Note P → DataPlaneMetrics
  | .tsigFailure reason => m.recordTsigFailure reason
  | .effect (.observeDuration provider _) => m.observeDuration provider
  | .effect (.recordChallenge provider action result) => m.recordChallenge provider action result
  | .effect (.markZoneSuccess zone clock) => m.markZoneSuccess zone clock
  | .effect .auditFailure => m.recordAuditFailure
  | _ => m

end DataPlaneMetrics

/-- One inbound message with what its handler finds at its start and what the outside will answer.
`landed` says whether a row whose insertion raised is in the table after all. -/
structure Request (P : Type) where
  reader : Reader
  render : Renderer
  routing : RoutingTable P
  resolver : Option (Name → Option ℕ)
  world : World
  landed : Bool
  source : String
  wire : Octets

namespace Note

variable {P : Type}

def suspends : Note P → Bool
  | .effect (.call _) => true
  | .effect (.audit _) => true
  | .inserted _ => true
  | _ => false

def acquires (key : String) : Note P → Bool
  | .effect (.acquire k) => k = key
  | _ => false

def releases (key : String) : Note P → Bool
  | .effect (.release k) => k = key
  | _ => false

def lock : Note P → Option String
  | .effect (.acquire k) => some k
  | _ => none

/-- A handler that is cancelled leaves `async with` on its way out. -/
def unwind (performed : List (Note P)) : List (Note P) :=
  match performed.findSome? lock with
  | none => []
  | some k => if performed.any (releases k) then [] else [.effect (.release k)]

end Note

namespace Request

variable {P : Type} (typeOf : P → ProviderType) (q : Request P)

def inserts : Bool :=
  match q.world.auditSink with
  | some false => q.landed
  | _ => true

def withRow : Effect P → List (Note P)
  | .audit record => if q.inserts then [.effect (.audit record), .inserted record]
      else [.effect (.audit record)]
  | e => [.effect e]

def dispatched (msg : Message) : Dispatched P :=
  dispatch typeOf q.routing q.resolver q.world q.source msg

def handled : Handled :=
  handleQuery q.reader q.render (fun msg => ((q.dispatched typeOf msg).rcode).getD 0) q.wire

def reply : List (Note P) :=
  match (q.handled typeOf).reply with
  | .ok (some r) => [.sent r]
  | _ => []

def notes : List (Note P) :=
  (q.handled typeOf).failure.toList.map .tsigFailure ++
    match (q.handled typeOf).dispatched with
    | none => q.reply typeOf
    | some msg =>
      (q.dispatched typeOf msg).effects.flatMap q.withRow ++
        if (q.dispatched typeOf msg).rcode.isSome then q.reply typeOf else []

def script : List (List (Note P)) := segments Note.suspends (q.notes typeOf)

end Request

def Reply.rcode (r : Reply) : ℕ := field r.message 2 % 16

def Answers {P : Type} (rcode : ℕ) (l : List (Note P)) : Prop :=
  l = [] ∨ ∃ r : Reply, l = [.sent r] ∧ r.rcode = rcode

section Shape

variable {P : Type} (typeOf : P → ProviderType)

def Outcome.detail : Outcome → Option String
  | .providerError detail => some detail
  | _ => none

def Plan.answer (p : Plan P) (detail : Option String) : ℕ :=
  if detail.isSome ∧ p.call.action = .present then Rcode.servfail else Rcode.noerror

def Plan.result (p : Plan P) (detail : Option String) : String :=
  if detail.isSome ∧ p.call.action = .cleanup then "suppressed"
    else if detail.isSome then "error" else "ok"

def Request.observed (q : Request P) (p : Plan P) : List (Note P) :=
  .effect (.observeDuration (typeOf p.call.provider).text q.world.latencyMs) ::
    .effect (.recordChallenge (typeOf p.call.provider).text p.call.action.text
    (p.result q.world.outcome.detail)) :: if q.world.outcome.detail.isSome then []
    else [.effect (.markZoneSuccess p.call.zone q.world.clock)]

def Request.record (q : Request P) (p : Plan P) (tsigKeyId : Option ℕ) : AuditRecord :=
  ⟨p.call.zone, p.call.recordName, p.call.action.text, (typeOf p.call.provider).text,
    if q.world.outcome.detail.isSome then "error" else "ok", q.world.latencyMs, tsigKeyId, q.source,
    q.world.outcome.detail⟩

inductive Recorded (q : Request P) (record : AuditRecord) : List (Note P) → Prop
  | unrecorded : q.world.auditSink = none → Recorded q record []
  | stored : Recorded q record [.effect (.audit record), .inserted record]
  | lost : Recorded q record [.effect (.audit record), .effect .auditFailure]
  | landed : Recorded q record [.effect (.audit record), .inserted record, .effect .auditFailure]

inductive Handles (q : Request P) : List (Note P) → Prop
  | failed (reason : TsigFailure) {r : List (Note P)} : Answers Rcode.notauth r →
      Handles q (.tsigFailure reason :: r)
  | refused {r : List (Note P)} : Answers Rcode.refused r → Handles q r
  | raised (p : Plan P) : q.world.outcome = .raised →
      Handles q [.effect (.acquire p.lockKey), .effect (.call p.call), .effect (.release p.lockKey)]
  | called (p : Plan P) (tsigKeyId : Option ℕ) {audit r : List (Note P)} : q.world.outcome ≠
      .raised →
      Recorded q (q.record typeOf p tsigKeyId) audit → Answers (p.answer q.world.outcome.detail) r →
      (r = [] → ∃ e, (q.handled typeOf).reply = .error e) →
      Handles q (.effect (.acquire p.lockKey) :: .effect (.call p.call) ::
      (q.observed typeOf p ++ (audit ++ .effect (.release p.lockKey) :: r)))

variable {typeOf} {q : Request P}

lemma rcode_replyFromCtx {ctx : TsigWire} {rcode : ℕ} (ho : ctx.opcode < 16) (hr : rcode < 16) :
    field (replyFromCtx ctx rcode) 2 % 16 = rcode := by
  have hf : headerFlags ctx.opcode rcode < 65536 := headerFlags_lt ho rcode (show 0 < 2 by omega)
  simp only [replyFromCtx, List.append_assoc]
  rw [← List.append_assoc, field_second, Nat.mod_eq_of_lt hf]
  rw [headerFlags]
  omega

lemma rcode_responseMessage (render : Renderer) (m : Message) {rcode : ℕ} (hr : rcode < 16) :
    field (responseMessage render m rcode) 2 % 16 = rcode := by
  rw [(responseMessage_carries render m (show rcode < 4096 by omega)).1]
  exact Nat.mod_eq_of_lt hr

lemma answers_plainErrorReply {wire : Octets} {rcode : ℕ} (hr : rcode < 16) {r : Reply}
    (h : plainErrorReply wire rcode = some r) : r.rcode = rcode := by
  obtain ⟨ctx, hc, rfl⟩ := Option.map_eq_some_iff.mp h
  have ho := (extractTsigContext_some hc).2
  exact rcode_replyFromCtx (ho ▸ opcodeOf_lt _) hr

lemma answers_signedErrorReply {R : Reader} {wire : Octets} {rcode error : ℕ} (hr : rcode < 16)
    {r : Reply} (h : signedErrorReply R wire rcode error = some r) : r.rcode = rcode := by
  unfold signedErrorReply at h
  split at h
  · simp at h
  · next ctx hc =>
    have ho := (extractTsigContext_some hc).2
    have hf := rcode_replyFromCtx (show ctx.opcode < 16 from ho ▸ opcodeOf_lt _) hr
    split at h
    · split at h
      · obtain rfl := Option.some.inj h
        exact hf
      · obtain rfl := Option.some.inj h
        exact hf
    · obtain rfl := Option.some.inj h
      exact hf

lemma answers_reply {R : Reader} {render : Renderer} {m : Message} {rcode : ℕ} (hr : rcode < 16)
    {r : Reply} (h : reply R render m rcode = .ok (some r)) : r.rcode = rcode := by
  rw [reply] at h
  split at h
  · simp at h
  · split at h
    · simp at h
    · obtain rfl := Option.some.inj (Except.ok.inj h)
      exact rcode_responseMessage render m hr

lemma reply_error {R : Reader} {render : Renderer} {m : Message} {rcode : ℕ}
    (h : ∀ r, reply R render m rcode ≠ .ok (some r)) : ∃ e, reply R render m rcode = .error e := by
  rw [reply] at h ⊢
  split
  · exact ⟨_, rfl⟩
  · next hq =>
    split
    · exact ⟨_, rfl⟩
    · next hf => exact absurd rfl (by rw [if_neg hq, if_neg hf] at h; exact h _)

lemma invokeProvider_answered (p : Plan P) (tsigKeyId : Option ℕ) (ho : q.world.outcome ≠ .raised) :
    invokeProvider typeOf p q.world q.source tsigKeyId = ⟨some (p.answer q.world.outcome.detail),
      .call p.call ::
      recordOutcome typeOf p q.world q.source tsigKeyId q.world.outcome.detail⟩ := by
  rw [invokeProvider]
  cases hw : q.world.outcome with
  | ok => simp [Plan.answer, Outcome.detail]
  | providerError detail => cases ha : p.call.action <;> simp [Plan.answer, Outcome.detail, ha]
  | raised => exact absurd hw ho

lemma rcode_lt {msg : Message} {rcode : ℕ} (h : (q.dispatched typeOf msg).rcode = some rcode) :
    rcode < 16 := by
  rw [Request.dispatched, dispatch] at h
  cases hp : plan typeOf q.routing msg with
  | none =>
    rw [hp] at h
    exact Option.some.inj h ▸ (by decide)
  | some p =>
    rw [hp] at h
    by_cases ho : q.world.outcome = .raised
    · simp [invokeProvider, ho] at h
    · dsimp only at h
      rw [invokeProvider_answered p _ ho] at h
      obtain rfl := Option.some.inj h
      rw [Plan.answer]
      split <;> decide

lemma answers_of {rcode : ℕ} (h : ∀ r, (q.handled typeOf).reply = .ok (some r) → r.rcode = rcode) :
    Answers rcode (q.reply typeOf) := by
  rw [Request.reply]
  split
  · next r hr => exact .inr ⟨r, rfl, h r hr⟩
  · exact .inl rfl

variable (typeOf q) in
lemma recordOutcome_notes (p : Plan P) (tsigKeyId : Option ℕ) :
    ∃ audit, Recorded q (q.record typeOf p tsigKeyId) audit ∧
      (recordOutcome typeOf p q.world q.source tsigKeyId q.world.outcome.detail).flatMap q.withRow =
        q.observed typeOf p ++ audit := by
  have hsplit (audit : List (Note P))
      (ha : (writeAudit q.world (q.record typeOf p tsigKeyId)).flatMap q.withRow = audit) :
      (recordOutcome typeOf p q.world q.source tsigKeyId q.world.outcome.detail).flatMap q.withRow =
        q.observed typeOf p ++ audit := by
    rw [← ha, recordOutcome, Request.observed, Request.record, Plan.result]
    cases q.world.outcome.detail <;> simp [Request.withRow]
  cases hs : q.world.auditSink with
  | none => exact ⟨[], .unrecorded hs, hsplit _ (by simp [writeAudit, hs])⟩
  | some b =>
    cases b with
    | true =>
      exact ⟨_, .stored, hsplit _ (by simp [writeAudit, hs, Request.withRow, Request.inserts])⟩
    | false =>
      cases hl : q.landed with
      | true => exact ⟨_, .landed,
          hsplit _ (by simp [writeAudit, hs, Request.withRow, Request.inserts, hl])⟩
      | false =>
        exact ⟨_, .lost, hsplit _ (by simp [writeAudit, hs, Request.withRow, Request.inserts, hl])⟩

lemma handles_dispatched {msg : Message} {r : List (Note P)}
    (hr : ∀ rcode, (q.dispatched typeOf msg).rcode = some rcode → Answers rcode r)
    (he : r = [] → ∃ e, (q.handled typeOf).reply = .error e) :
    Handles typeOf q ((q.dispatched typeOf msg).effects.flatMap q.withRow ++
      if (q.dispatched typeOf msg).rcode.isSome then r else []) := by
  cases hp : plan typeOf q.routing msg with
  | none =>
    have hd : q.dispatched typeOf msg = ⟨some Rcode.refused, []⟩ := by
      rw [Request.dispatched, dispatch, hp]
    rw [hd] at hr ⊢
    exact .refused (hr _ rfl)
  | some p =>
    have hd : q.dispatched typeOf msg =
        ⟨(invokeProvider typeOf p q.world q.source (resolveTsigKeyId q.resolver msg)).rcode,
        .acquire p.lockKey ::
        (invokeProvider typeOf p q.world q.source (resolveTsigKeyId q.resolver msg)).effects ++
        [.release p.lockKey]⟩ := by
      rw [Request.dispatched, dispatch, hp]
    rw [hd] at hr ⊢
    obtain ⟨audit, ha, hrec⟩ := recordOutcome_notes typeOf q p (resolveTsigKeyId q.resolver msg)
    by_cases ho : q.world.outcome = .raised
    · have hc : Handles typeOf q _ := .raised p ho
      simpa [invokeProvider, ho, Request.withRow] using hc
    · rw [invokeProvider_answered p _ ho] at hr ⊢
      have hc := Handles.called p (resolveTsigKeyId q.resolver msg) ho ha (hr _ rfl) he
      rw [← List.append_assoc, ← hrec] at hc
      simpa [Request.withRow] using hc

lemma handles_failed {reason : TsigFailure} (hf : (q.handled typeOf).failure = some reason)
    (hd : (q.handled typeOf).dispatched = none)
    (hr : ∀ r, (q.handled typeOf).reply = .ok (some r) → r.rcode = Rcode.notauth) :
    Handles typeOf q (q.notes typeOf) := by
  have hn : q.notes typeOf = .tsigFailure reason :: q.reply typeOf := by
    simp [Request.notes, hf, hd]
  rw [hn]
  exact .failed reason (answers_of hr)

theorem handles_notes (typeOf : P → ProviderType)
    (q : Request P) : Handles typeOf q (q.notes typeOf) := by
  have hplain {r : Reply} (h : plainErrorReply q.wire Rcode.notauth = some r) : r.rcode =
      Rcode.notauth :=
    answers_plainErrorReply (show Rcode.notauth < 16 by decide) h
  have hsigned {error : ℕ} {r : Reply} (h : signedErrorReply q.reader q.wire Rcode.notauth error =
      some r) : r.rcode = Rcode.notauth :=
    answers_signedErrorReply (show Rcode.notauth < 16 by decide) h
  have hh : q.handled typeOf = handleQuery q.reader q.render
      (fun msg => ((q.dispatched typeOf msg).rcode).getD 0) q.wire := rfl
  rw [handleQuery] at hh
  cases hw : q.reader.fromWire q.wire with
  | error e =>
    rw [hw] at hh
    cases e with
    | unknownTSIGKey =>
      exact handles_failed (by rw [hh]) (by rw [hh]) (fun r h => hplain (Except.ok.inj (hh ▸ h)))
    | badSignature =>
      exact handles_failed (by rw [hh]) (by rw [hh]) (fun r h => hsigned (Except.ok.inj (hh ▸ h)))
    | badTime =>
      exact handles_failed (by rw [hh]) (by rw [hh]) (fun r h => hsigned (Except.ok.inj (hh ▸ h)))
    | badKey =>
      exact handles_failed (by rw [hh]) (by rw [hh]) (fun r h => hsigned (Except.ok.inj (hh ▸ h)))
    | badAlgorithm =>
      exact handles_failed (by rw [hh]) (by rw [hh]) (fun r h => hsigned (Except.ok.inj (hh ▸ h)))
    | _ =>
      have hn : q.notes typeOf = [] := by simp [Request.notes, Request.reply, hh]
      rw [hn]
      exact .refused (.inl rfl)
  | ok m =>
    rw [hw] at hh
    dsimp only at hh
    by_cases ht : m.hadTsig
    · by_cases ho : m.opcode = opcodeUpdate
      · rw [if_neg (by simp [ht]), if_neg (by simp [ho])] at hh
        have hn : q.notes typeOf = (q.dispatched typeOf m).effects.flatMap q.withRow ++
            if (q.dispatched typeOf m).rcode.isSome then q.reply typeOf else [] := by
          rw [Request.notes, hh]
          rfl
        rw [hn]
        refine handles_dispatched (fun rcode hr => answers_of (fun r h => ?_)) (fun he => ?_)
        · rw [hh] at h
          dsimp only at h
          rw [hr] at h
          exact answers_reply (rcode_lt hr) h
        · rw [Request.reply, hh] at he
          rw [hh]
          exact reply_error (fun r h => by simp [h] at he)
      · rw [if_neg (by simp [ht]), if_pos ho] at hh
        have hn : q.notes typeOf = q.reply typeOf := by
          rw [Request.notes, hh]
          rfl
        rw [hn]
        exact .refused
          (answers_of (fun r h => answers_reply (show Rcode.refused < 16 by decide) (hh ▸ h)))
    · rw [if_pos (by simp [ht])] at hh
      exact handles_failed (by rw [hh]) (by rw [hh])
        (fun r h => answers_reply (show Rcode.notauth < 16 by decide) (hh ▸ h))

end Shape

end AstropathRelay.DataPlane
