import AstropathRelay.DataPlane.Listeners

/-! Shutting the server down: no new work once `stop_accepting` has returned, nothing running once
`drain` has. -/

namespace AstropathRelay.DataPlane.Listeners

open Lib

section Handlers

def Phase.admitted : Phase → Bool
  | reading | handling | replying | closing => true
  | created | refusing | finished => false

variable {h : Handler} {accepting : Bool} {e : HandlerEvent} {phase : Phase}

lemma Handler.next_running (hn : h.next accepting e = some phase) : h.phase ≠ .finished := by
  intro hf
  cases e <;> simp [Handler.next, hf] at hn

inductive Handler.Moves (h : Handler) (accepting : Bool) : Phase → Prop
  | read : accepting = true → Moves h accepting .reading
  | handle : h.phase = .reading → Moves h accepting .handling
  | leave {phase : Phase} : h.phase.admitted → phase = .replying ∨ phase = .closing →
      Moves h accepting phase
  | stop {phase : Phase} : phase = .refusing ∨ phase = .finished → Moves h accepting phase

lemma Handler.moves_of_next (hn : h.next accepting e = some phase) : h.Moves accepting phase := by
  obtain ⟨transport, p⟩ := h
  cases e with
  | start =>
    simp only [Handler.next] at hn
    split_ifs at hn with hp ha
    · obtain rfl := Option.some.inj hn
      exact .read ha
    · obtain rfl := Option.some.inj hn
      exact .stop (.inl rfl)
  | message =>
    simp only [Handler.next] at hn
    split_ifs at hn with hp
    obtain rfl := Option.some.inj hn
    exact .handle hp
  | lost =>
    simp only [Handler.next] at hn
    split_ifs at hn with hp
    obtain rfl := Option.some.inj hn
    obtain rfl | rfl := hp
    · exact .leave rfl (.inr rfl)
    · exact .leave rfl (.inr rfl)
  | answer reply =>
    have hp : p = .handling := by
      by_contra hne
      simp [Handler.next, hne] at hn
    subst hp
    cases transport with
    | udp q =>
      obtain rfl := Option.some.inj hn
      exact .stop (.inr rfl)
    | tcp =>
      obtain rfl := Option.some.inj hn
      cases reply with
      | true => exact .leave rfl (.inl rfl)
      | false => exact .leave rfl (.inr rfl)
  | written =>
    simp only [Handler.next] at hn
    split_ifs at hn with hp ha
    · obtain rfl := Option.some.inj hn
      exact .read ha
    · obtain rfl := Option.some.inj hn
      subst hp
      exact .leave rfl (.inr rfl)
  | closed =>
    simp only [Handler.next] at hn
    split_ifs at hn
    obtain rfl := Option.some.inj hn
    exact .stop (.inr rfl)
  | cancel =>
    cases p with
    | finished => simp [Handler.next] at hn
    | reading | replying =>
      obtain rfl := Option.some.inj hn
      exact .leave rfl (.inr rfl)
    | created | refusing | closing =>
      obtain rfl := Option.some.inj hn
      exact .stop (.inr rfl)
    | handling =>
      cases transport with
      | udp q =>
        obtain rfl := Option.some.inj hn
        exact .stop (.inr rfl)
      | tcp =>
        obtain rfl := Option.some.inj hn
        exact .leave rfl (.inr rfl)

lemma Handler.next_reading (hn : h.next accepting e = some .reading) : accepting = true := by
  cases moves_of_next hn with
  | read ha => exact ha
  | leave _ hp | stop hp => simp at hp

lemma Handler.next_handling (hn : h.next accepting e = some .handling) : h.phase = .reading := by
  cases moves_of_next hn with
  | handle hp => exact hp
  | leave _ hp | stop hp => simp at hp

lemma Handler.next_admitted (hn : h.next accepting e = some phase) (ha : phase.admitted) :
    phase = .reading ∨ h.phase.admitted := by
  cases moves_of_next hn with
  | read => exact .inl rfl
  | handle hp => exact .inr (by rw [hp]; rfl)
  | leave hp => exact .inr hp
  | stop hp =>
    obtain rfl | rfl := hp
    · simp [Phase.admitted] at ha
    · simp [Phase.admitted] at ha

end Handlers

namespace Tasks

def Rest (t : Tasks) : Prop := ∀ i, t.count ≤ i → (t.handlers i).phase = .finished

variable {k : Sockets} {stopped : Bool} {t t' : Tasks}

lemma handle_some {i : ℕ} {e : HandlerEvent} (h : t.handle k stopped i e = some t') : i < t.count ∧
    ∃ phase, (t.handlers i).next k.accepting e = some phase ∧ t' = t.move stopped i phase := by
  unfold handle at h
  split_ifs at h with hc
  obtain ⟨phase, hp, rfl⟩ := Option.map_eq_some_iff.mp h
  push Not at hc
  exact ⟨hc.1, phase, hp, rfl⟩

inductive Change (k : Sockets) (stopped : Bool) (t : Tasks) : TaskEvent → Tasks → Prop
  | drain : Change k stopped t .drain { t with drain := .waiting t.count (t.inflight k) }
  | drained {n tasks} : t.drain = .waiting n tasks →
      (∀ i ∈ tasks, (t.handlers i).phase = .finished) →
      Change k stopped t .drained { t with drain := .returned n }
  | datagram {p} : (k.protocols p).isOpen → (k.protocols p).accepting →
      Change k stopped t (.datagram p)
      { t.spawn ⟨.udp p, .handling⟩ with late := t.begun stopped true }
  | dropped {p} : Change k stopped t (.datagram p) t
  | connect {l} : Change k stopped t (.connect l) (t.spawn ⟨.tcp, .created⟩)
  | move {i e phase} : i < t.count → (t.handlers i).next k.accepting e = some phase →
      Change k stopped t (.handler i e) (t.move stopped i phase)

lemma change_of_next {e : TaskEvent} (h : t.next k stopped e = some t') :
    Change k stopped t e t' := by
  cases e with
  | drain =>
    simp only [next] at h
    split at h
    · simp at h
    · obtain rfl := Option.some.inj h
      exact .drain
  | drained =>
    simp only [next] at h
    split at h
    · next n tasks hd =>
      split_ifs at h with hf
      obtain rfl := Option.some.inj h
      exact .drained hd hf
    · simp at h
  | datagram p =>
    simp only [next] at h
    split_ifs at h with ho ha
    · obtain rfl := Option.some.inj h
      exact .datagram ho ha
    · obtain rfl := Option.some.inj h
      exact .dropped
  | connect l =>
    simp only [next] at h
    split_ifs at h
    obtain rfl := Option.some.inj h
    exact .connect
  | handler i e =>
    obtain ⟨hi, phase, hp, rfl⟩ := handle_some h
    exact .move hi hp

lemma Rest.spawn (h : t.Rest) (x : Handler) : (t.spawn x).Rest := by
  intro i hi
  change t.count + 1 ≤ i at hi
  change (Function.update t.handlers t.count x i).phase = .finished
  rw [Function.update_of_ne (by omega)]
  exact h i (by omega)

lemma Rest.move (h : t.Rest) {i : ℕ} (hi : i < t.count)
    (phase : Phase) : (t.move stopped i phase).Rest := by
  intro j hj
  change (Function.update t.handlers i _ j).phase = .finished
  rw [Function.update_of_ne (show j ≠ i by rintro rfl; exact absurd hj (by exact not_le.mpr hi))]
  exact h j hj

lemma Rest.step (h : t.Rest) {e : TaskEvent} (hs : t.next k stopped e = some t') : t'.Rest := by
  cases change_of_next hs with
  | drain | drained | dropped => exact h
  | datagram => exact h.spawn _
  | connect => exact h.spawn _
  | move hi => exact h.move hi _

end Tasks

section Stopping

namespace Sockets

structure Halted (k : Sockets) : Prop where
  refuses : k.accepting = false
  bound : k.serve ≠ .bindingUdp ∧ k.serve ≠ .bindingTcp
  drops : ∀ p, (k.protocols p).isOpen → (k.protocols p).accepting = false

variable {k k' : Sockets}

lemma serve_close (k : Sockets) : k.close.serve = k.serve := by
  rw [close, closeUdp, unlisten]
  split <;> split <;> rfl

lemma Current.halted (h : k.Current) (hs : k.serve ≠ .bindingUdp ∧ k.serve ≠ .bindingTcp) :
    k.stopAccepting.Halted := by
  obtain ⟨protocols, hk, hopen⟩ := k.stopAccepting_eq
  refine ⟨by rw [hk], by rw [hk]; exact hs, fun p ho => ?_⟩
  rw [hk] at ho
  have hu := h.held p ((hopen p).symm.trans ho)
  simp [stopAccepting, hu, setProtocol]

lemma Halted.step (h : k.Halted) (hc : k.Current) {e : SocketEvent} (he : e ≠ .serve)
    (hs : k.next e = some k') : k'.Halted := by
  cases change_of_next hs with
  | serve => exact absurd rfl he
  | openUdp hserve | noUdp hserve => exact absurd hserve h.bound.1
  | listen hserve | noTcp hserve | lostTcp hserve | cancelTcp hserve =>
    exact absurd hserve h.bound.2
  | cancelServing =>
    obtain ⟨listening, hk⟩ := k.unlisten_eq
    rw [hk]
    exact ⟨h.refuses, ⟨by simp [enter], by simp [enter]⟩, h.drops⟩
  | exit => exact ⟨rfl, ⟨by simp [enter], by simp [enter]⟩, fun p ho => absurd ho (hc.close_open p)⟩
  | close =>
    exact ⟨rfl, by rw [serve_close]; exact h.bound, fun p ho => absurd ho (hc.close_open p)⟩
  | stopAccepting => exact hc.halted h.bound

end Sockets

def NoNewWork (s : Plane) : Prop := s.stopped → s.sockets.accepting = false ∧ s.tasks.late = 0

def StopsAtRest (s : Plane) : Event → Prop
  | .socket .stopAccepting => (s.sockets.serve ≠ .bindingUdp ∧ s.sockets.serve ≠ .bindingTcp) ∧
      ∀ i < s.tasks.count, (s.tasks.handlers i).phase ≠ .reading
  | .socket .serve => s.stopped = false
  | _ => True

instance (s : Plane) : (e : Event) → Decidable (StopsAtRest s e)
  | .socket .stopAccepting => inferInstanceAs (Decidable
      ((s.sockets.serve ≠ .bindingUdp ∧ s.sockets.serve ≠ .bindingTcp) ∧
        ∀ i < s.tasks.count, (s.tasks.handlers i).phase ≠ .reading))
  | .socket .serve => inferInstanceAs (Decidable (s.stopped = false))
  | .socket (.bindUdp _) | .socket .cancelUdp | .socket (.bindTcp _) | .socket (.cancelTcp _)
  | .socket .cancelServing
  | .socket .exit | .socket .close | .task _ => inferInstanceAs (Decidable True)

structure Stopped (s : Plane) : Prop where
  current : s.sockets.Current
  rest : s.tasks.Rest
  late : s.tasks.late = 0
  halted : s.stopped → s.sockets.Halted ∧ ∀ i, (s.tasks.handlers i).phase ≠ .reading

variable {s : Plane}

lemma Stopped.socket_step (h : Stopped s) {e : SocketEvent} {k : Sockets}
    (hp : StopsAtRest s (.socket e)) (hs : s.sockets.next e = some k) :
    Stopped { s with sockets := k, stopped := s.stopped || e = .stopAccepting } := by
  refine ⟨h.current.step hs, h.rest, h.late, fun hst => ?_⟩
  by_cases he : e = .stopAccepting
  · subst he
    obtain rfl := Option.some.inj hs
    refine ⟨h.current.halted hp.1, fun i => ?_⟩
    by_cases hi : i < s.tasks.count
    · exact hp.2 i hi
    · change (s.tasks.handlers i).phase ≠ .reading
      rw [h.rest i (by omega)]
      simp
  · have hstopped : s.stopped = true := by simpa [he] using hst
    obtain ⟨hh, hr⟩ := h.halted hstopped
    have hserve : e ≠ .serve := by
      rintro rfl
      have hn : s.stopped = false := hp
      simp [hstopped] at hn
    exact ⟨hh.step h.current hserve hs, hr⟩

lemma Stopped.task_step (h : Stopped s) {e : TaskEvent} {t : Tasks}
    (hs : s.tasks.next s.sockets s.stopped e = some t) : Stopped { s with tasks := t } := by
  have hrest := h.rest.step hs
  cases Tasks.change_of_next hs with
  | drain | drained | dropped => exact ⟨h.current, hrest, h.late, h.halted⟩
  | @datagram p ho ha =>
    have hrun : s.stopped = false := by
      by_contra hn
      have hd := (h.halted (by simpa using hn)).1.drops p ho
      simp [ha] at hd
    refine ⟨h.current, hrest, ?_, fun hst => by simp [hrun] at hst⟩
    simpa [Tasks.begun, hrun] using h.late
  | connect =>
    refine ⟨h.current, hrest, h.late, fun hst => ⟨(h.halted hst).1, ?_⟩⟩
    apply (Function.forall_update_iff s.tasks.handlers (fun _ x => x.phase ≠ .reading)).mpr
    exact ⟨by simp, fun j _ => (h.halted hst).2 j⟩
  | @move i e phase hi hn =>
    refine ⟨h.current, hrest, ?_, fun hst => ⟨(h.halted hst).1, ?_⟩⟩
    · change s.tasks.begun s.stopped (phase = .handling) = 0
      rw [Tasks.begun]
      split_ifs with hb
      · simp only [Bool.and_eq_true, decide_eq_true_eq] at hb
        obtain ⟨rfl, hst⟩ := hb
        exact absurd (Handler.next_handling hn) ((h.halted hst).2 i)
      · exact h.late
    · apply (Function.forall_update_iff s.tasks.handlers (fun _ x => x.phase ≠ .reading)).mpr
      refine ⟨?_, fun j _ => (h.halted hst).2 j⟩
      rintro rfl
      have ha := Handler.next_reading hn
      simp [(h.halted hst).1.refuses] at ha

lemma stopped_of_run {es : List Event} (h : (server.restrict StopsAtRest).Run es s) :
    Stopped s := by
  refine System.Run.invariant (I := Stopped) ?_ ?_ h
  · rintro s rfl
    exact ⟨Sockets.current_init, fun _ _ => rfl, rfl, fun hst => by simp at hst⟩
  · rintro s e s' hi ⟨hp, hs⟩
    cases e with
    | socket e =>
      obtain ⟨k, hk, rfl⟩ := Option.map_eq_some_iff.mp hs
      exact hi.socket_step hp hk
    | task e =>
      obtain ⟨t, ht, rfl⟩ := Option.map_eq_some_iff.mp hs
      exact hi.task_step ht

/-- After `stop_accepting` nothing new is handled and the server stays closed to new work, when
`serve` was at neither of its binds at that moment and is not called again, and no open connection
was waiting for a message. -/
theorem stop_accepting_final {es : List Event} (h : (server.restrict StopsAtRest).Run es s) :
    NoNewWork s := by
  have hi := stopped_of_run h
  exact fun hst => ⟨(hi.halted hst).1.refuses, hi.late⟩

def serving : List Event := [.socket .serve, .socket (.bindUdp true), .socket (.bindTcp true)]

def stopInFlight : List Event :=
  serving ++ ([.task (.connect 0), .task (.handler 0 .start), .task (.handler 0 .message),
    .socket .stopAccepting, .task (.handler 0 (.answer true)), .task (.handler 0 .written),
    .task (.datagram 0)] : List Event)

theorem stop_in_flight_final :
    ∃ s, (server.restrict StopsAtRest).Run stopInFlight s ∧ s.stopped ∧ NoNewWork s := by
  obtain ⟨s, hr, hst⟩ : ∃ s, (server.restrict StopsAtRest).Run stopInFlight s ∧ s.stopped = true :=
    System.exists_run_restrict Plane.initial (by decide +kernel)
  exact ⟨s, hr, hst, stop_accepting_final hr⟩

def idleConnection : List Event :=
  serving ++ ([.task (.connect 0), .task (.handler 0 .start), .socket .stopAccepting,
    .task (.handler 0 .message)] : List Event)

theorem work_after_stop :
    (∃ s, server.Run [.socket .serve, .socket (.bindUdp true), .socket .stopAccepting,
      .socket (.bindTcp true)] s ∧ s.stopped ∧ s.sockets.accepting = true ∧ ¬ NoNewWork s) ∧
      ∃ s, server.Run idleConnection s ∧ s.stopped ∧ s.tasks.late = 1 ∧ ¬ NoNewWork s := by
  constructor
  · obtain ⟨s, hr, he⟩ : ∃ s, server.Run [.socket .serve, .socket (.bindUdp true),
        .socket .stopAccepting, .socket (.bindTcp true)] s ∧ (s.stopped, s.sockets.accepting) =
        (true, true) := System.exists_run Plane.initial (by decide +kernel)
    obtain ⟨hst, ha⟩ := Prod.mk.inj he
    refine ⟨s, hr, hst, ha, fun h => ?_⟩
    simp [(h hst).1] at ha
  · obtain ⟨s, hr, he⟩ : ∃ s, server.Run idleConnection s ∧ (s.stopped, s.tasks.late) = (true, 1) :=
      System.exists_run Plane.initial (by decide +kernel)
    obtain ⟨hst, hl⟩ := Prod.mk.inj he
    refine ⟨s, hr, hst, hl, fun h => ?_⟩
    simp [(h hst).2] at hl

end Stopping

section Draining

def DrainComplete (s : Plane) : Prop :=
  ∀ n, s.tasks.drain = .returned n → ∀ i < n, (s.tasks.handlers i).phase = .finished

/-- `exit` and `close` drop the UDP protocol, and with it the set of its tasks; a TCP task is in no
set before it is admitted, nor when it is refused. -/
def DrainsAll (s : Plane) : Event → Prop
  | .socket .exit | .socket .close => ∀ i < s.tasks.count, (s.tasks.handlers i).transport ≠ .tcp →
      (s.tasks.handlers i).phase = .finished
  | .task .drain => ∀ i < s.tasks.count, (s.tasks.handlers i).phase ≠ .created ∧
      (s.tasks.handlers i).phase ≠ .refusing
  | _ => True

instance (s : Plane) : (e : Event) → Decidable (DrainsAll s e)
  | .socket .exit | .socket .close => inferInstanceAs (Decidable (∀ i < s.tasks.count,
      (s.tasks.handlers i).transport ≠ .tcp → (s.tasks.handlers i).phase = .finished))
  | .task .drain => inferInstanceAs (Decidable (∀ i < s.tasks.count,
      (s.tasks.handlers i).phase ≠ .created ∧ (s.tasks.handlers i).phase ≠ .refusing))
  | .socket .serve | .socket (.bindUdp _) | .socket .cancelUdp | .socket (.bindTcp _)
  | .socket (.cancelTcp _) | .socket .cancelServing | .socket .stopAccepting | .task .drained
  | .task (.datagram _) | .task (.connect _)
  | .task (.handler _ _) => inferInstanceAs (Decidable True)

def Draining.Covers (t : Tasks) : Draining → Prop
  | .no => True
  | .waiting n tasks => n ≤ t.count ∧ ∀ i < n, (t.handlers i).phase = .finished ∨ i ∈ tasks
  | .returned n => n ≤ t.count ∧ ∀ i < n, (t.handlers i).phase = .finished

namespace Sockets

def Bound (k : Sockets) : Prop := ∀ p, k.udp = some p → (k.protocols p).isOpen

variable {k k' : Sockets}

lemma udp_close (k : Sockets) : k.close.udp = none := by
  obtain ⟨listening, hk⟩ := k.closeUdp.unlisten_eq
  rw [close, hk, closeUdp]
  split
  · next hu => exact hu
  · rfl

lemma Bound.step (h : k.Bound) {e : SocketEvent} (hs : k.next e = some k') : k'.Bound := by
  cases change_of_next hs with
  | serve | noUdp | listen | noTcp | lostTcp | cancelTcp => exact h
  | openUdp =>
    intro p hu
    obtain rfl := Option.some.inj hu
    change (Function.update k.protocols k.protocolCount _ k.protocolCount).isOpen = true
    rw [Function.update_self]
  | cancelServing =>
    obtain ⟨listening, hk⟩ := k.unlisten_eq
    rw [hk]
    exact h
  | exit | close =>
    intro p hu
    change k.close.udp = some p at hu
    simp [udp_close] at hu
  | stopAccepting =>
    obtain ⟨protocols, hk, hopen⟩ := k.stopAccepting_eq
    rw [hk]
    intro p hu
    exact (hopen p).trans (h p hu)

lemma udp_of_next (hc : k.Current) (hb : k.Bound) {e : SocketEvent} (hs : k.next e = some k') :
    k'.udp = k.udp ∨ k.udp = none ∨ e = .exit ∨ e = .close := by
  cases change_of_next hs with
  | serve | noUdp | listen | noTcp | lostTcp | cancelTcp => exact .inl rfl
  | openUdp _ ht =>
    right; left
    by_contra hn
    obtain ⟨p, hp⟩ := Option.ne_none_iff_exists'.mp hn
    exact hc.none_open ht p (hb p hp)
  | cancelServing =>
    obtain ⟨listening, hk⟩ := k.unlisten_eq
    rw [hk]
    exact .inl rfl
  | exit => exact .inr (.inr (.inl rfl))
  | close => exact .inr (.inr (.inr rfl))
  | stopAccepting =>
    obtain ⟨protocols, hk, -⟩ := k.stopAccepting_eq
    rw [hk]
    exact .inl rfl

end Sockets

structure Tracked (s : Plane) : Prop where
  current : s.sockets.Current
  bound : s.sockets.Bound
  rest : s.tasks.Rest
  udp : ∀ i p, (s.tasks.handlers i).transport = .udp p → (s.tasks.handlers i).phase ≠ .finished →
    s.sockets.udp = some p
  tcp : ∀ i, (s.tasks.handlers i).transport = .tcp → (s.tasks.handlers i).phase.admitted →
    i ∈ s.tasks.tcpConns
  drain : s.tasks.drain.Covers s.tasks

variable {s : Plane}

lemma Tracked.socket_step (h : Tracked s) {e : SocketEvent} {k : Sockets}
    (hp : DrainsAll s (.socket e)) (hs : s.sockets.next e = some k) :
    Tracked { s with sockets := k, stopped := s.stopped || e = .stopAccepting } := by
  refine ⟨h.current.step hs, h.bound.step hs, h.rest, fun i p ht hf => ?_, h.tcp, h.drain⟩
  have hu := h.udp i p ht hf
  have hi : i < s.tasks.count := by
    by_contra hn
    exact hf (h.rest i (by omega))
  have hudp : (s.tasks.handlers i).transport ≠ .tcp := by
    intro htcp
    rw [htcp] at ht
    simp at ht
  rcases Sockets.udp_of_next h.current h.bound hs with hsame | hnone | rfl | rfl
  · exact hsame.trans hu
  · rw [hnone] at hu
    simp at hu
  · exact absurd (hp i hi hudp) hf
  · exact absurd (hp i hi hudp) hf

lemma Draining.Covers.spawn {t : Tasks} {d : Draining} (h : d.Covers t)
    (x : Handler) : d.Covers (t.spawn x) := by
  have hold : ∀ i < t.count, (t.spawn x).handlers i = t.handlers i :=
    fun i hi => Function.update_of_ne (by omega) _ _
  cases d with
  | no => trivial
  | waiting n tasks =>
    refine ⟨h.1.trans (Nat.le_succ _), fun i hi => ?_⟩
    rw [hold i (hi.trans_le h.1)]
    exact h.2 i hi
  | returned n =>
    refine ⟨h.1.trans (Nat.le_succ _), fun i hi => ?_⟩
    rw [hold i (hi.trans_le h.1)]
    exact h.2 i hi

lemma Draining.Covers.move {t : Tasks} {d : Draining} (h : d.Covers t) {stopped : Bool} {i : ℕ}
    (hf : (t.handlers i).phase ≠ .finished)
    (phase : Phase) : d.Covers (t.move stopped i phase) := by
  have hold : ∀ j ≠ i, (t.move stopped i phase).handlers j = t.handlers j := fun j hj =>
    Function.update_of_ne hj _ _
  cases d with
  | no => trivial
  | waiting n tasks =>
    refine ⟨h.1, fun j hj => ?_⟩
    by_cases hji : j = i
    · subst hji
      exact .inr ((h.2 j hj).resolve_left hf)
    · rw [hold j hji]
      exact h.2 j hj
  | returned n =>
    refine ⟨h.1, fun j hj => ?_⟩
    have hji : j ≠ i := by
      rintro rfl
      exact hf (h.2 j hj)
    rw [hold j hji]
    exact h.2 j hj

lemma Tracked.inflight (h : Tracked s) {i : ℕ} (hi : i < s.tasks.count)
    (hc : (s.tasks.handlers i).phase ≠ .created ∧ (s.tasks.handlers i).phase ≠ .refusing)
    (hf : (s.tasks.handlers i).phase ≠ .finished) : i ∈ s.tasks.inflight s.sockets := by
  rw [Tasks.inflight]
  rw [List.mem_filter, List.mem_range]
  refine ⟨hi, ?_⟩
  rw [Bool.and_eq_true]
  refine ⟨by simpa using hf, ?_⟩
  cases ht : (s.tasks.handlers i).transport with
  | udp p => simpa using h.udp i p ht hf
  | tcp =>
    have ha : (s.tasks.handlers i).phase.admitted := by
      cases hp : (s.tasks.handlers i).phase <;> simp_all [Phase.admitted]
    simpa using h.tcp i ht ha

lemma Tracked.move {i : ℕ} {e : HandlerEvent} {phase : Phase} (h : Tracked s)
    (hi : i < s.tasks.count) (hn : (s.tasks.handlers i).next s.sockets.accepting e = some phase) :
    Tracked { s with tasks := s.tasks.move s.stopped i phase } := by
  have hrun := Handler.next_running hn
  refine ⟨h.current, h.bound, h.rest.move hi phase, ?_, ?_, h.drain.move hrun phase⟩
  · apply (Function.forall_update_iff s.tasks.handlers
      (fun _ x => ∀ p, x.transport = .udp p → x.phase ≠ .finished → s.sockets.udp = some p)).mpr
    exact ⟨fun p ht _ => h.udp i p ht hrun, fun j _ => h.udp j⟩
  · change ∀ j, (Function.update s.tasks.handlers i { s.tasks.handlers i with phase := phase }
      j).transport = .tcp → (Function.update s.tasks.handlers i { s.tasks.handlers i with
      phase := phase } j).phase.admitted → j ∈ s.tasks.register i phase
    intro j
    by_cases hj : j = i
    · subst hj
      rw [Function.update_self]
      intro ht ha
      rw [Tasks.register]
      split_ifs with hread hfin
      · exact List.mem_cons_self
      · rw [hfin] at ha
        simp [Phase.admitted] at ha
      · exact h.tcp j ht ((Handler.next_admitted hn ha).resolve_left hread)
    · rw [Function.update_of_ne hj]
      intro ht ha
      have hmem := h.tcp j ht ha
      rw [Tasks.register]
      split_ifs
      · exact List.mem_cons_of_mem _ (List.mem_filter.mpr ⟨hmem, by simpa using hj⟩)
      · exact List.mem_filter.mpr ⟨hmem, by simpa using hj⟩
      · exact hmem

lemma Tracked.task_step (h : Tracked s) {e : TaskEvent} {t : Tasks} (hp : DrainsAll s (.task e))
    (hs : s.tasks.next s.sockets s.stopped e = some t) : Tracked { s with tasks := t } := by
  cases Tasks.change_of_next hs with
  | drain =>
    refine ⟨h.current, h.bound, h.rest, h.udp, h.tcp, le_rfl, fun i hi => ?_⟩
    by_cases hf : (s.tasks.handlers i).phase = .finished
    · exact .inl hf
    · exact .inr (h.inflight hi (hp i hi) hf)
  | @drained n tasks hd hall =>
    have hc := h.drain
    rw [hd] at hc
    refine ⟨h.current, h.bound, h.rest, h.udp, h.tcp, hc.1, fun i hi => ?_⟩
    exact (hc.2 i hi).elim id (hall i)
  | dropped => exact h
  | @datagram p ho _ =>
    refine ⟨h.current, h.bound, h.rest.spawn _, ?_, ?_, h.drain.spawn ⟨.udp p, .handling⟩⟩
    · apply (Function.forall_update_iff s.tasks.handlers
        (fun _ x => ∀ p, x.transport = .udp p → x.phase ≠ .finished → s.sockets.udp = some p)).mpr
      refine ⟨?_, fun j _ => h.udp j⟩
      rintro q ⟨⟩ -
      exact h.current.held p ho
    · apply (Function.forall_update_iff s.tasks.handlers
        (fun i x => x.transport = .tcp → x.phase.admitted → i ∈ s.tasks.tcpConns)).mpr
      exact ⟨by simp, fun j _ => h.tcp j⟩
  | connect =>
    refine ⟨h.current, h.bound, h.rest.spawn _, ?_, ?_, h.drain.spawn ⟨.tcp, .created⟩⟩
    · apply (Function.forall_update_iff s.tasks.handlers
        (fun _ x => ∀ p, x.transport = .udp p → x.phase ≠ .finished → s.sockets.udp = some p)).mpr
      exact ⟨by simp, fun j _ => h.udp j⟩
    · apply (Function.forall_update_iff s.tasks.handlers
        (fun i x => x.transport = .tcp → x.phase.admitted → i ∈ s.tasks.tcpConns)).mpr
      exact ⟨by simp [Phase.admitted], fun j _ => h.tcp j⟩
  | move hi hn => exact h.move hi hn

lemma tracked_of_run {es : List Event} (h : (server.restrict DrainsAll).Run es s) : Tracked s := by
  refine System.Run.invariant (I := Tracked) ?_ ?_ h
  · rintro s rfl
    refine ⟨Sockets.current_init, ?_, fun _ _ => rfl, ?_, ?_, trivial⟩
    · intro p hu
      simp at hu
    · intro i p ht
      simp at ht
    · intro i _ ha
      simp [Phase.admitted] at ha
  · rintro s e s' hi ⟨hp, hs⟩
    cases e with
    | socket e =>
      obtain ⟨k, hk, rfl⟩ := Option.map_eq_some_iff.mp hs
      exact hi.socket_step hp hk
    | task e =>
      obtain ⟨t, ht, rfl⟩ := Option.map_eq_some_iff.mp hs
      exact hi.task_step hp ht

/-- When `drain` returns, every handler task started before it was called is finished, if the server
dropped no protocol with a datagram still in hand and no TCP task stood outside its admitted stretch
at the call. -/
theorem drain_complete {es : List Event} (h : (server.restrict DrainsAll).Run es s) :
    DrainComplete s := by
  have hd := (tracked_of_run h).drain
  intro n hn i hi
  rw [hn] at hd
  exact hd.2 i hi

def drainInFlight : List Event :=
  serving ++ ([.task (.datagram 0), .task (.connect 0), .task (.handler 1 .start),
    .socket .stopAccepting, .task .drain, .task (.handler 0 (.answer true)),
    .task (.handler 1 .cancel), .task (.handler 1 .closed), .task .drained] : List Event)

theorem drain_in_flight_complete : ∃ s, (server.restrict DrainsAll).Run drainInFlight s ∧
    s.tasks.drain = .returned 2 ∧ DrainComplete s := by
  obtain ⟨s, hr, hd⟩ : ∃ s, (server.restrict DrainsAll).Run drainInFlight s ∧
      s.tasks.drain = .returned 2 :=
    System.exists_run_restrict Plane.initial (by decide +kernel)
  exact ⟨s, hr, hd, drain_complete hr⟩

def drainAfterRestart : List Event :=
  serving ++ ([.task (.datagram 0), .socket .exit] : List Event) ++ serving ++
    ([.socket .stopAccepting, .task .drain, .task .drained] : List Event)

theorem drain_misses_old_protocol : ∃ s, server.Run drainAfterRestart s ∧
    s.tasks.drain = .returned 1 ∧ (s.tasks.handlers 0).phase = .handling ∧ ¬ DrainComplete s := by
  obtain ⟨s, hr, he⟩ : ∃ s, server.Run drainAfterRestart s ∧
      (s.tasks.drain, (s.tasks.handlers 0).phase) = (.returned 1, .handling) :=
    System.exists_run Plane.initial (by decide +kernel)
  obtain ⟨hd, hp⟩ := Prod.mk.inj he
  refine ⟨s, hr, hd, hp, fun h => ?_⟩
  have hf := h 1 hd 0 (by decide)
  simp [hp] at hf

end Draining

end AstropathRelay.DataPlane.Listeners
