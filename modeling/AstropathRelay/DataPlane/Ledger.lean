import AstropathRelay.DataPlane.Handlers

/-! The books of the data plane: what its metrics, the audit table and the replies say about one
another while any number of messages are handled at once. -/

namespace AstropathRelay.DataPlane

open Lib Lib.ByteStrings Dns Dns.Reader Providers

variable {P : Type} (typeOf : P → ProviderType)

section Weights

def calling (kind : String) : Note P → ℕ
  | .effect (.call c) => if kind = (typeOf c.provider).text then 1 else 0
  | _ => 0

def timed (kind : String) : Note P → ℕ
  | .effect (.observeDuration k _) => if kind = k then 1 else 0
  | _ => 0

def challenged (kind result action : String) : Note P → ℕ
  | .effect (.recordChallenge k a r) => if kind = k ∧ result = r ∧ action = a then 1 else 0
  | _ => 0

def tsigFailed (reason : TsigFailure) : Note P → ℕ
  | .tsigFailure r => if reason = r then 1 else 0
  | _ => 0

def auditFailed : Note P → ℕ
  | .effect .auditFailure => 1
  | _ => 0

def rowed (p : AuditRecord → Bool) : Note P → ℕ
  | .inserted r => if p r then 1 else 0
  | _ => 0

def replied (rcode : ℕ) : Note P → ℕ
  | .sent r => if rcode = r.rcode then 1 else 0
  | _ => 0

end Weights

def metrics (s : Interleaving.State (Note P)) : DataPlaneMetrics :=
  s.log.foldl DataPlaneMetrics.note {}

def Note.row : Note P → Option AuditRecord
  | .inserted r => some r
  | _ => none

def Note.reply : Note P → Option Reply
  | .sent r => some r
  | _ => none

def rows (s : Interleaving.State (Note P)) : List AuditRecord := s.log.filterMap Note.row

def replies (s : Interleaving.State (Note P)) : List Reply := s.log.filterMap Note.reply

section Readings

variable (s : Interleaving.State (Note P))

lemma metrics_counter (get : DataPlaneMetrics → ℕ) {w : Note P → ℕ} (h₀ : get {} = 0)
    (h : ∀ m a, get (m.note a) = get m + w a) : get (metrics s) = tally w s.log := by
  rw [metrics, foldl_counter get h, h₀, Nat.zero_add]

lemma metrics_challenges (kind result action : String) :
    (metrics s).challenges kind result action = tally (challenged kind result action) s.log := by
  refine metrics_counter s (fun m => m.challenges kind result action) rfl (fun m a => ?_)
  cases a with
  | effect e => cases e <;> rfl
  | _ => rfl

lemma metrics_duration (kind : String) :
    (metrics s).providerCallDuration kind = tally (timed kind) s.log := by
  refine metrics_counter s (fun m => m.providerCallDuration kind) rfl (fun m a => ?_)
  cases a with
  | effect e => cases e <;> rfl
  | _ => rfl

lemma metrics_tsigFailures (reason : TsigFailure) :
    (metrics s).tsigFailures reason = tally (tsigFailed reason) s.log := by
  refine metrics_counter s (fun m => m.tsigFailures reason) rfl (fun m a => ?_)
  cases a with
  | effect e => cases e <;> rfl
  | _ => rfl

lemma metrics_badtime : (metrics s).tsigBadtime = tally (tsigFailed .badtime) s.log := by
  refine metrics_counter s (fun m => m.tsigBadtime) rfl (fun m a => ?_)
  cases a with
  | tsigFailure reason => cases reason <;> rfl
  | effect e => cases e <;> rfl
  | _ => rfl

lemma metrics_auditFailures : (metrics s).auditFailures = tally auditFailed s.log := by
  refine metrics_counter s (fun m => m.auditFailures) rfl (fun m a => ?_)
  cases a with
  | effect e => cases e <;> rfl
  | _ => rfl

lemma countP_rows (p : AuditRecord → Bool) : (rows s).countP p = tally (rowed p) s.log := by
  rw [rows]
  induction s.log with
  | nil => rfl
  | cons a log ih =>
    rw [tally_cons, ← ih]
    cases a <;> simp [Note.row, rowed, List.filterMap_cons, List.countP_cons, Nat.add_comm]

lemma countP_replies (rcode : ℕ) :
    (replies s).countP (fun r => r.rcode = rcode) = tally (replied rcode) s.log := by
  rw [replies]
  induction s.log with
  | nil => rfl
  | cons a log ih =>
    rw [tally_cons, ← ih]
    cases a <;>
      simp [Note.reply, replied, List.filterMap_cons, List.countP_cons, Nat.add_comm, eq_comm]

end Readings

section Books

variable {typeOf} {q : Request P} {Q : Request P → Prop} {w : Note P → ℕ}

def totalled (kind : String) (a : Note P) : ℕ :=
  challenged kind "ok" "present" a + challenged kind "error" "present" a +
    challenged kind "ok" "cleanup" a + challenged kind "suppressed" "cleanup" a

lemma observed_totalled (kind : String) (p : Plan P) : tally (totalled kind) (q.observed typeOf p) =
    if kind = (typeOf p.call.provider).text then 1 else 0 := by
  rw [tally_observed p (fun _ _ => rfl)]
  cases ha : p.call.action <;> cases q.world.outcome.detail <;>
    simp [totalled, challenged, Plan.result, Action.text, ha]

lemma observed_timed (kind : String) (p : Plan P) : tally (timed kind) (q.observed typeOf p) =
    if kind = (typeOf p.call.provider).text then 1 else 0 := by
  rw [tally_observed p (fun _ _ => rfl)]
  simp [timed]

lemma timed_everywhere (kind : String) {script : List (List (Note P))}
    (h : Scripted typeOf q script) :
    Everywhere (fun l => tally (timed kind) l = tally (totalled kind) l ∧
      tally (timed kind) l ≤ tally (calling typeOf kind) l) [] script := by
  have hobs (p : Plan P) : tally (calling typeOf kind) (q.observed typeOf p) = 0 := by
    rw [tally_observed p (fun _ _ => rfl)]
    rfl
  cases h with
  | dropped => exact ⟨rfl, Nat.le_refl 0⟩
  | refused => simp [Everywhere, timed, totalled, challenged]
  | failed reason hr =>
    have h₁ := hr.silent (w := timed kind) (fun _ => rfl)
    have h₂ := hr.silent (w := totalled kind) (fun _ => rfl)
    simp [Everywhere, h₁, h₂, timed, totalled, challenged]
  | raised p => simp [Everywhere, timed, totalled, challenged]
  | called p tsigKeyId ho hr he hc =>
    have h₁ := hr.silent (w := timed kind) (fun _ => rfl)
    have h₂ := hr.silent (w := totalled kind) (fun _ => rfl)
    have h₃ := hr.silent (w := calling typeOf kind) (fun _ => rfl)
    cases hc <;> simp [Everywhere, h₁, h₂, h₃, hobs, observed_totalled, observed_timed, timed,
      totalled, challenged, calling]

def series : List (String × String) :=
  [("ok", "present"), ("error", "present"), ("ok", "cleanup"), ("suppressed", "cleanup")]

lemma result_mem_series (p : Plan P) (detail : Option String) :
    (p.result detail, p.call.action.text) ∈ series := by
  cases ha : p.call.action <;> cases detail <;> simp [series, Plan.result, Action.text, ha]

lemma series_everywhere {kind result action : String} (hn : (result, action) ∉ series)
    {script : List (List (Note P))} (h : Scripted typeOf q script) : Everywhere
    (fun l => tally (challenged kind result action) l = tally (fun _ => 0) l) [] script := by
  have hobs (p : Plan P) : tally (challenged kind result action) (q.observed typeOf p) = 0 := by
    rw [tally_observed p (fun _ _ => rfl)]
    have hs := result_mem_series p q.world.outcome.detail
    have hne : ¬ (result = p.result q.world.outcome.detail ∧ action = p.call.action.text) := by
      rintro ⟨rfl, rfl⟩
      exact hn hs
    simp [challenged, hne]
  have hz (l : List (Note P)) : tally (fun _ => 0) l = 0 := tally_eq_zero _ (fun _ _ => rfl)
  simp only [hz]
  cases h with
  | dropped => rfl
  | refused => simp [Everywhere, challenged]
  | failed reason hr =>
    simp [Everywhere, hr.silent (w := challenged kind result action) (fun _ => rfl), challenged]
  | raised p => simp [Everywhere, challenged]
  | called p tsigKeyId ho hr he hc =>
    have h₁ := hr.silent (w := challenged kind result action) (fun _ => rfl)
    cases hc <;> simp [Everywhere, h₁, hobs, challenged]

def DataPlaneMetrics.total (m : DataPlaneMetrics) (kind : String) : ℕ :=
  m.challenges kind "ok" "present" + m.challenges kind "error" "present" +
    m.challenges kind "ok" "cleanup" + m.challenges kind "suppressed" "cleanup"

lemma metrics_total (s : Interleaving.State (Note P)) (kind : String) :
    (metrics s).total kind = tally (totalled kind) s.log := by
  have ht : tally (totalled kind) s.log = tally (fun a => challenged kind "ok" "present" a +
      challenged kind "error" "present" a + challenged kind "ok" "cleanup" a +
      challenged kind "suppressed" "cleanup" a) s.log := rfl
  rw [ht, tally_add, tally_add, tally_add]
  simp only [DataPlaneMetrics.total, metrics_challenges]

/-- At every moment the durations that were observed for a provider are as many as the challenges
that were counted for it, and no more than its calls; a failed cleanup is counted as suppressed and
never as an error; and every BADTIME failure is counted on both counters. -/
theorem counters_agree {es : List (Interleaving.Event (Note P))} {s : Interleaving.State (Note P)}
    (h : (handlers typeOf Q).system.Run es s) (kind : String) :
    (metrics s).providerCallDuration kind = (metrics s).total kind ∧
      (metrics s).providerCallDuration kind ≤ tally (calling typeOf kind) s.log ∧
      (∀ result action, (metrics s).challenges kind result action ≠ 0 → (result, action) ∈ series) ∧
      (metrics s).tsigBadtime = (metrics s).tsigFailures .badtime := by
  have hbooks (script : List (List (Note P))) (ha : (handlers typeOf Q).admits script) :=
    everywhere_of_scripted (fun q script _ hs => timed_everywhere kind hs) script ha
  refine ⟨?_, ?_, fun result action hne => ?_, ?_⟩
  · rw [metrics_duration, metrics_total]
    exact Interleaving.tally_eq h (tally_unwind (fun _ => rfl)) (tally_unwind (fun _ => rfl))
      (fun script ha => (hbooks script ha).imp (fun _ hl => hl.1))
  · rw [metrics_duration]
    exact Interleaving.tally_le h (tally_unwind (fun _ => rfl))
      (fun script ha => (hbooks script ha).imp (fun _ hl => hl.2))
  · by_contra hn
    apply hne
    rw [metrics_challenges, Interleaving.tally_eq h (tally_unwind (fun _ => rfl)) (tally_unwind
      (fun _ => rfl)) (everywhere_of_scripted (fun q script _ hs => series_everywhere hn hs))]
    exact tally_eq_zero _ (fun _ _ => rfl)
  · rw [metrics_badtime, metrics_tsigFailures]

def countedAs (result action : String) : String :=
  if result = "error" ∧ action = "cleanup" then "suppressed" else result

variable (typeOf) in
lemma result_eq_countedAs (p : Plan P) (tsigKeyId : Option ℕ) :
    p.result q.world.outcome.detail =
      countedAs (q.record typeOf p tsigKeyId).result (q.record typeOf p tsigKeyId).action := by
  cases ha : p.call.action <;> cases hd : q.world.outcome.detail <;>
    simp [Plan.result, countedAs, Request.record, Action.text, ha, hd]

def rowOf (kind result action : String) (r : AuditRecord) : Bool :=
  r.provider = kind ∧ r.result = result ∧ r.action = action

lemma rowed_everywhere (kind result action : String) {script : List (List (Note P))}
    (h : Scripted typeOf q script) :
    Everywhere (fun l => tally (rowed (rowOf kind result action)) l ≤
      tally (challenged kind (countedAs result action) action) l) [] script := by
  have hobs (p : Plan P) : tally (rowed (rowOf kind result action)) (q.observed typeOf p) = 0 := by
    rw [tally_observed p (fun _ _ => rfl)]
    rfl
  cases h with
  | dropped => exact Nat.le_refl 0
  | refused => simp [Everywhere, rowed]
  | failed reason hr =>
    simp [Everywhere, hr.silent (w := rowed (rowOf kind result action)) (fun _ => rfl), rowed]
  | raised p => simp [Everywhere, rowed]
  | called p tsigKeyId ho hr he hc =>
    have h₁ := hr.silent (w := rowed (rowOf kind result action)) (fun _ => rfl)
    have h₂ := hr.silent (w := challenged kind (countedAs result action) action) (fun _ => rfl)
    have hrow : (if rowOf kind result action (q.record typeOf p tsigKeyId) then 1 else 0) ≤
        tally (challenged kind (countedAs result action) action) (q.observed typeOf p) := by
      split
      · next hrow =>
        simp only [rowOf, decide_eq_true_eq] at hrow
        obtain ⟨rfl, rfl, rfl⟩ := hrow
        rw [tally_observed p (fun _ _ => rfl), result_eq_countedAs typeOf p tsigKeyId]
        simp [challenged, Request.record]
      · exact Nat.zero_le _
    cases hc with
    | unrecorded => simp [Everywhere, h₁, hobs, rowed]
    | stored => simpa [Everywhere, h₁, h₂, hobs, rowed, challenged] using hrow
    | lost => simp [Everywhere, h₁, hobs, rowed]
    | landed => simpa [Everywhere, h₁, h₂, hobs, rowed, challenged] using hrow

def allTotalled (a : Note P) : ℕ := totalled "hurricane" a + totalled "route53" a

lemma observed_allTotalled (p : Plan P) : tally allTotalled (q.observed typeOf p) = 1 := by
  have ht : tally allTotalled (q.observed typeOf p) =
      tally (fun a => totalled "hurricane" a + totalled "route53" a) (q.observed typeOf p) := rfl
  rw [ht, tally_add, observed_totalled, observed_totalled]
  cases typeOf p.call.provider <;> simp [ProviderType.text]

lemma failures_everywhere {script : List (List (Note P))} (h : Scripted typeOf q script) :
    Everywhere (fun l => tally auditFailed l ≤ tally allTotalled l) [] script := by
  have hobs (p : Plan P) : tally auditFailed (q.observed typeOf p) = 0 := by
    rw [tally_observed p (fun _ _ => rfl)]
    rfl
  cases h with
  | dropped => exact Nat.le_refl 0
  | refused => simp [Everywhere, auditFailed]
  | failed reason hr => simp [Everywhere, hr.silent (w := auditFailed) (fun _ => rfl), auditFailed]
  | raised p => simp [Everywhere, auditFailed]
  | called p tsigKeyId ho hr he hc =>
    have h₁ := hr.silent (w := auditFailed) (fun _ => rfl)
    cases hc <;> simp [Everywhere, h₁, hobs, observed_allTotalled, auditFailed] <;> omega

lemma audited_whole {script : List (List (Note P))} (hq : q.world.auditSink ≠ none)
    (h : Scripted typeOf q script) : tally allTotalled script.flatten ≤
    tally (fun a => rowed (fun _ => true) a + auditFailed a) script.flatten := by
  cases h with
  | dropped => exact Nat.le_refl 0
  | refused => simp [allTotalled, totalled, challenged]
  | failed reason hr =>
    simp [hr.silent (w := allTotalled) (fun _ => rfl), allTotalled, totalled, challenged]
  | raised p => simp [allTotalled, totalled, challenged]
  | called p tsigKeyId ho hr he hc =>
    have h₁ := hr.silent (w := allTotalled) (fun _ => rfl)
    cases hc with
    | unrecorded hn => exact absurd hn hq
    | stored =>
      simp [h₁, observed_allTotalled, allTotalled, totalled, challenged, rowed, auditFailed]; omega
    | lost =>
      simp [h₁, observed_allTotalled, allTotalled, totalled, challenged, rowed, auditFailed]; omega
    | landed =>
      simp [h₁, observed_allTotalled, allTotalled, totalled, challenged, rowed, auditFailed]; omega

theorem sampleRequest_counted :
    ∃ es s, (handlers (fun _ : Unit => ProviderType.route53) (· = sampleRequest)).system.Run es s ∧
      (metrics s).providerCallDuration "route53" = 1 ∧ (metrics s).total "route53" = 1 := by
  obtain ⟨es, s, h, -, hl⟩ := exists_run_alone (q := sampleRequest) (Q := (· = sampleRequest))
    (fun _ => ProviderType.route53) rfl
  have ht : (metrics s).providerCallDuration "route53" = 1 := by
    rw [metrics_duration, hl]
    decide +kernel
  exact ⟨es, s, h, ht, (counters_agree h "route53").1.symm.trans ht⟩

def DataPlaneMetrics.all (m : DataPlaneMetrics) : ℕ := m.total "hurricane" + m.total "route53"

lemma metrics_all (s : Interleaving.State (Note P)) :
    (metrics s).all = tally allTotalled s.log := by
  have ht : tally allTotalled s.log =
      tally (fun a => totalled "hurricane" a + totalled "route53" a) s.log := rfl
  rw [ht, tally_add, DataPlaneMetrics.all, metrics_total, metrics_total]

/-- At every moment a row of the audit table has its challenge on the counters, under the row's
provider, action and result, and a failed insertion has one too. When every handler has come to its
end uncancelled, no challenge is without its row or its failure. -/
theorem rows_accounted {es : List (Interleaving.Event (Note P))} {s : Interleaving.State (Note P)}
    (h : (handlers typeOf Q).system.Run es s) :
    (∀ kind result action, (rows s).countP (rowOf kind result action) ≤
      (metrics s).challenges kind (countedAs result action) action) ∧
    (metrics s).auditFailures ≤ (metrics s).all ∧
    (s.Settled → (∀ q, Q q → q.world.auditSink ≠ none) →
      (metrics s).all ≤ (rows s).length + (metrics s).auditFailures) := by
  refine ⟨fun kind result action => ?_, ?_, fun hs hQ => ?_⟩
  · rw [countP_rows, metrics_challenges]
    exact Interleaving.tally_le h (tally_unwind (fun _ => rfl))
      (everywhere_of_scripted (fun q script _ hs => rowed_everywhere kind result action hs))
  · rw [metrics_auditFailures, metrics_all]
    exact Interleaving.tally_le h (tally_unwind (fun _ => rfl))
      (everywhere_of_scripted (fun q script _ hs => failures_everywhere hs))
  · have hl : (rows s).length = tally (rowed (fun _ => true)) s.log := by
      rw [← countP_rows, List.countP_true]
    rw [hl, metrics_auditFailures, metrics_all, ← tally_add]
    refine Interleaving.tally_le_of_settled h hs (fun script ha => ?_)
    obtain ⟨q, hq, rfl⟩ := ha
    exact audited_whole (hQ q hq) (scripted typeOf q)

theorem sampleRequest_recorded :
    ∃ es s, (handlers (fun _ : Unit => ProviderType.route53) (· = sampleRequest)).system.Run es s ∧
      s.Settled ∧ (metrics s).all = 1 ∧ 1 ≤ (rows s).length + (metrics s).auditFailures := by
  obtain ⟨es, s, h, hs, hl⟩ := exists_run_alone (q := sampleRequest) (Q := (· = sampleRequest))
    (fun _ => ProviderType.route53) rfl
  have ha : (metrics s).all = 1 := by
    rw [metrics_all, hl]
    decide +kernel
  exact ⟨es, s, h, hs, ha, ha ▸ (rows_accounted h).2.2 hs (fun q hq => by rw [hq]; decide)⟩

end Books

section Answers

variable {typeOf} {q : Request P} {Q : Request P → Prop} {w : Note P → ℕ}

def expected (rcode : ℕ) (a : Note P) : ℕ :=
  if rcode = Rcode.servfail then
    challenged "hurricane" "error" "present" a + challenged "route53" "error" "present" a
  else if rcode = Rcode.noerror then
    challenged "hurricane" "ok" "present" a + challenged "route53" "ok" "present" a +
      (challenged "hurricane" "ok" "cleanup" a + challenged "route53" "ok" "cleanup" a) +
      (challenged "hurricane" "suppressed" "cleanup" a +
      challenged "route53" "suppressed" "cleanup" a)
  else 0

def fromProvider : List ℕ := [Rcode.noerror, Rcode.servfail]

variable (typeOf q) in
lemma observed_expected (p : Plan P) {rcode : ℕ} (hr : rcode ∈ fromProvider) :
    tally (expected rcode) (q.observed typeOf p) = if rcode = p.answer q.world.outcome.detail then 1
      else 0 := by
  have hm : ∀ zone clock, expected rcode (.effect (.markZoneSuccess zone clock) : Note P) = 0 := by
    intro zone clock
    rw [expected]
    split_ifs <;> rfl
  rw [tally_observed p hm]
  obtain rfl | rfl : rcode = Rcode.noerror ∨ rcode = Rcode.servfail := by
    simpa [fromProvider] using hr
  · cases ha : p.call.action <;> cases hd : q.world.outcome.detail <;>
      cases hk : typeOf p.call.provider <;> simp [expected, challenged, Plan.result, Plan.answer,
      Action.text, ProviderType.text, Rcode.noerror, Rcode.servfail, ha]
  · cases ha : p.call.action <;> cases hd : q.world.outcome.detail <;>
      cases hk : typeOf p.call.provider <;> simp [expected, challenged, Plan.result, Plan.answer,
      Action.text, ProviderType.text, Rcode.noerror, Rcode.servfail, ha]

lemma Answers.replied_le {code : ℕ} {r : List (Note P)} (h : Answers code r) (rcode : ℕ) :
    tally (replied rcode) r ≤ if rcode = code then 1 else 0 := by
  obtain rfl | ⟨reply, rfl, rfl⟩ := h
  · exact Nat.zero_le _
  · simp [replied]

lemma replied_everywhere {rcode : ℕ} (hc : rcode ∈ fromProvider) {script : List (List (Note P))}
    (h : Scripted typeOf q script) :
    Everywhere (fun l => tally (replied rcode) l ≤ tally (expected rcode) l) [] script := by
  have hobs (p : Plan P) : tally (replied rcode) (q.observed typeOf p) = 0 := by
    rw [tally_observed p (fun _ _ => rfl)]
    rfl
  have hne (code : ℕ) (hn : code ∉ fromProvider) : rcode ≠ code := by
    rintro rfl
    exact hn hc
  cases h with
  | dropped => exact Nat.le_refl 0
  | refused hr =>
    have hn := hne Rcode.refused (by decide)
    simp [Everywhere, replied, hr, hn]
  | failed reason hr =>
    have hn := hr.replied_le rcode
    rw [if_neg (hne Rcode.notauth (by decide))] at hn
    simp [Everywhere, replied, Nat.le_zero.mp hn]
  | raised p => simp [Everywhere, replied]
  | called p tsigKeyId ho hr he hcl =>
    have hn := hr.replied_le rcode
    rw [← observed_expected typeOf q p hc] at hn
    cases hcl <;> simp [Everywhere, hobs, replied] <;> omega

lemma Answers.unexpected {code : ℕ} {r : List (Note P)} (h : Answers code r) (rcode : ℕ) :
    tally (expected rcode) r = 0 := h.silent (fun reply => by simp [expected, challenged])

lemma replied_whole (hq : ∃ r, (q.handled typeOf).reply = .ok r) (ho : q.world.outcome ≠ .raised)
    {rcode : ℕ}
    (hc : rcode ∈ fromProvider) {script : List (List (Note P))} (h : Scripted typeOf q script) :
    tally (expected rcode) script.flatten ≤ tally (replied rcode) script.flatten := by
  cases h with
  | dropped => exact Nat.le_refl 0
  | refused hr => simp [expected, challenged]
  | failed reason hr => simp [hr.unexpected, expected, challenged]
  | raised p hraised => exact absurd hraised ho
  | @called p tsigKeyId r closing _ hr he hcl =>
    have hn : tally (expected rcode) (q.observed typeOf p) ≤ tally (replied rcode) r := by
      rw [observed_expected typeOf q p hc]
      obtain rfl | ⟨reply, rfl, hrc⟩ := hr
      · obtain ⟨e, he⟩ := he rfl
        obtain ⟨r, hok⟩ := hq
        rw [hok] at he
        cases he
      · rw [tally_cons, replied, hrc]
        exact Nat.le_add_right _ _
    cases hcl <;> simp [hr.unexpected, expected, challenged] <;> omega

def reasons (a : Note P) : ℕ :=
  tsigFailed .absent a + tsigFailed .badsig a + tsigFailed .badkey a + tsigFailed .badtime a +
    tsigFailed .unknownkey a

def DataPlaneMetrics.allTsigFailures (m : DataPlaneMetrics) : ℕ :=
  m.tsigFailures .absent + m.tsigFailures .badsig + m.tsigFailures .badkey +
    m.tsigFailures .badtime + m.tsigFailures .unknownkey

lemma notauth_everywhere {script : List (List (Note P))} (h : Scripted typeOf q script) :
    Everywhere (fun l => tally (replied Rcode.notauth) l ≤ tally reasons l) [] script := by
  have hobs (p : Plan P) : tally (replied Rcode.notauth) (q.observed typeOf p) = 0 := by
    rw [tally_observed p (fun _ _ => rfl)]
    rfl
  cases h with
  | dropped => exact Nat.le_refl 0
  | refused hr => simp [Everywhere, replied, hr, Rcode.notauth, Rcode.refused]
  | failed reason hr =>
    have hn := hr.replied_le Rcode.notauth
    rw [if_pos rfl] at hn
    cases reason <;> simp [Everywhere, replied, reasons, tsigFailed] <;> omega
  | raised p => simp [Everywhere, replied]
  | called p tsigKeyId ho hr he hcl =>
    have hn := hr.replied_le Rcode.notauth
    rw [if_neg (by rw [Plan.answer]; split <;> decide)] at hn
    cases hcl <;> simp [Everywhere, hobs, replied] <;> omega

def replyCodes : List ℕ := [Rcode.noerror, Rcode.servfail, Rcode.refused, Rcode.notauth]

def strayed : Note P → ℕ
  | .sent r => if r.rcode ∈ replyCodes then 0 else 1
  | _ => 0

lemma strayed_everywhere {script : List (List (Note P))} (h : Scripted typeOf q script) :
    Everywhere (fun l => tally strayed l = tally (fun _ => 0) l) [] script := by
  have hobs (p : Plan P) : tally strayed (q.observed typeOf p) = 0 := by
    rw [tally_observed p (fun _ _ => rfl)]
    rfl
  have hr {code : ℕ} (hc : code ∈ replyCodes) {r : List (Note P)} (ha : Answers code r) : tally
      strayed r = 0 := by
    obtain rfl | ⟨reply, rfl, rfl⟩ := ha
    · rfl
    · simp [strayed, hc]
  have hz (l : List (Note P)) : tally (fun _ => 0) l = 0 := tally_eq_zero _ (fun _ _ => rfl)
  simp only [hz]
  cases h with
  | dropped => rfl
  | refused hrc => simp [Everywhere, strayed, hrc, replyCodes]
  | failed reason ha => simp [Everywhere, strayed, hr (by simp [replyCodes]) ha]
  | raised p => simp [Everywhere, strayed]
  | called p tsigKeyId ho ha he hcl =>
    have hlast := hr (by rw [Plan.answer]; split <;> simp [replyCodes]) ha
    cases hcl <;> simp [Everywhere, hobs, hlast, strayed]

def DataPlaneMetrics.both (m : DataPlaneMetrics) (result action : String) : ℕ :=
  m.challenges "hurricane" result action + m.challenges "route53" result action

lemma metrics_servfail (s : Interleaving.State (Note P)) :
    (metrics s).both "error" "present" = tally (expected Rcode.servfail) s.log := by
  have he : (expected Rcode.servfail : Note P → ℕ) = fun a =>
      challenged "hurricane" "error" "present" a + challenged "route53" "error" "present" a := by
    funext a
    exact if_pos rfl
  rw [he, tally_add]
  simp only [DataPlaneMetrics.both, metrics_challenges]

lemma metrics_noerror (s : Interleaving.State (Note P)) :
    (metrics s).both "ok" "present" + (metrics s).both "ok" "cleanup" +
      (metrics s).both "suppressed" "cleanup" = tally (expected Rcode.noerror) s.log := by
  have he : (expected Rcode.noerror : Note P → ℕ) = fun a =>
      challenged "hurricane" "ok" "present" a + challenged "route53" "ok" "present" a +
        (challenged "hurricane" "ok" "cleanup" a + challenged "route53" "ok" "cleanup" a) +
        (challenged "hurricane" "suppressed" "cleanup" a +
        challenged "route53" "suppressed" "cleanup" a) := by
    funext a
    rw [expected, if_neg (by decide), if_pos rfl]
  rw [he, tally_add, tally_add, tally_add, tally_add, tally_add]
  simp only [DataPlaneMetrics.both, metrics_challenges]

lemma metrics_notauth (s : Interleaving.State (Note P)) :
    (metrics s).allTsigFailures = tally reasons s.log := by
  have he : (reasons : Note P → ℕ) = fun a => tsigFailed .absent a + tsigFailed .badsig a +
      tsigFailed .badkey a + tsigFailed .badtime a + tsigFailed .unknownkey a := rfl
  rw [he, tally_add, tally_add, tally_add, tally_add]
  simp only [DataPlaneMetrics.allTsigFailures, metrics_tsigFailures]

def replyCount (s : Interleaving.State (Note P)) (rcode : ℕ) : ℕ :=
  (replies s).countP (fun r => r.rcode = rcode)

/-- At every moment a NOERROR reply has its challenge among the successes and the suppressed
cleanups, a SERVFAIL reply has its among the failed presents, a NOTAUTH reply has its TSIG failure,
and all other replies are REFUSED. When every handler has come to its end uncancelled, unanswered or
unwilling to reply in none of them, NOERROR and SERVFAIL replies are as many as those challenges. -/
theorem answers_accounted {es : List (Interleaving.Event (Note P))}
    {s : Interleaving.State (Note P)} (h : (handlers typeOf Q).system.Run es s) :
    (∀ r ∈ replies s, r.rcode ∈ replyCodes) ∧
    replyCount s Rcode.notauth ≤ (metrics s).allTsigFailures ∧
    replyCount s Rcode.servfail ≤ (metrics s).both "error" "present" ∧
    replyCount s Rcode.noerror ≤ (metrics s).both "ok" "present" + (metrics s).both "ok" "cleanup" +
      (metrics s).both "suppressed" "cleanup" ∧
    (s.Settled → (∀ q, Q q → q.world.outcome ≠ .raised ∧ ∃ r, (q.handled typeOf).reply = .ok r) →
      replyCount s Rcode.servfail = (metrics s).both "error" "present" ∧
      replyCount s Rcode.noerror = (metrics s).both "ok" "present" +
        (metrics s).both "ok" "cleanup" + (metrics s).both "suppressed" "cleanup") := by
  have hle {rcode : ℕ} (hc : rcode ∈ fromProvider) : tally (replied rcode) s.log ≤
      tally (expected rcode) s.log :=
    Interleaving.tally_le h (tally_unwind (fun _ => rfl))
      (everywhere_of_scripted (fun q script _ hs => replied_everywhere hc hs))
  have hge (hs : s.Settled) (hQ : ∀ q, Q q →
      q.world.outcome ≠ .raised ∧ ∃ r, (q.handled typeOf).reply = .ok r) {rcode : ℕ}
      (hc : rcode ∈ fromProvider) : tally (expected rcode) s.log ≤ tally (replied rcode) s.log := by
    refine Interleaving.tally_le_of_settled h hs (fun script ha => ?_)
    obtain ⟨q, hq, rfl⟩ := ha
    exact replied_whole (hQ q hq).2 (hQ q hq).1 hc (scripted typeOf q)
  have hservfail : Rcode.servfail ∈ fromProvider := by simp [fromProvider]
  have hnoerror : Rcode.noerror ∈ fromProvider := by simp [fromProvider]
  simp only [replyCount, countP_replies, metrics_servfail, metrics_noerror, metrics_notauth]
  refine ⟨?_, ?_, hle hservfail, hle hnoerror, fun hs hQ =>
    ⟨Nat.le_antisymm (hle hservfail) (hge hs hQ hservfail),
      Nat.le_antisymm (hle hnoerror) (hge hs hQ hnoerror)⟩⟩
  · intro r hr
    obtain ⟨a, ha, hrow⟩ := List.mem_filterMap.mp hr
    have hz : tally strayed s.log = 0 := by
      rw [Interleaving.tally_eq h (tally_unwind (fun _ => rfl)) (tally_unwind (fun _ => rfl))
        (everywhere_of_scripted (fun q script _ hs => strayed_everywhere hs))]
      exact tally_eq_zero _ (fun _ _ => rfl)
    have hs := eq_zero_of_tally hz ha
    cases a with
    | sent reply =>
      obtain rfl := Option.some.inj hrow
      by_contra hn
      rw [strayed, if_neg hn] at hs
      exact absurd hs (by omega)
    | _ => cases hrow
  · exact Interleaving.tally_le h (tally_unwind (fun _ => rfl))
      (everywhere_of_scripted (fun q script _ hs => notauth_everywhere hs))

theorem sampleRequest_answered :
    ∃ es s, (handlers (fun _ : Unit => ProviderType.route53) (· = sampleRequest)).system.Run es s ∧
      s.Settled ∧ replyCount s Rcode.noerror = 1 ∧ replyCount s Rcode.servfail = 0 := by
  obtain ⟨es, s, h, hs, hl⟩ := exists_run_alone (q := sampleRequest) (Q := (· = sampleRequest))
    (fun _ => ProviderType.route53) rfl
  have hok : (sampleRequest.handled (fun _ => ProviderType.route53)).reply.toOption.isSome := by
    decide +kernel
  have hr : ∃ r, (sampleRequest.handled (fun _ => ProviderType.route53)).reply = .ok r := by
    cases he : (sampleRequest.handled (fun _ => ProviderType.route53)).reply with
    | ok r => exact ⟨r, rfl⟩
    | error e => simp [he, Except.toOption] at hok
  obtain ⟨hsf, hne⟩ :=
    (answers_accounted h).2.2.2.2 hs (fun q hq => by rw [hq]; exact ⟨by decide, hr⟩)
  refine ⟨es, s, h, hs, ?_, ?_⟩
  · rw [hne, metrics_noerror, hl]
    decide +kernel
  · rw [hsf, metrics_servfail, hl]
    decide +kernel

end Answers

end AstropathRelay.DataPlane
