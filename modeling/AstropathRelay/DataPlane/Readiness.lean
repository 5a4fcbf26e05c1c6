import AstropathRelay.Cache.Convergence
import AstropathRelay.DataPlane.Shutdown

/-! What the readiness probe promises: the server and the cache run side by side, `readyz` looks at
both and then waits for the database. -/

namespace AstropathRelay.DataPlane.Readiness

open Lib Dns Providers Store Cache Listeners Sockets
open AstropathRelay.Api (plainFernet sampleKek)

variable {Key Token : Type}

inductive Probe
  | idle
  | asked (dns : Bool)
  | answered (dns api : Bool)

def Probe.dns? : Probe → Option Bool
  | .idle => none
  | .asked dns | .answered dns _ => some dns

structure Answer where
  statusCode : ℕ
  ready : Bool
  dns : Bool
  api : Bool

def readyz (dns api : Bool) : Answer :=
  let ready := dns && api
  ⟨if !ready then 503 else 200, ready, dns, api⟩

structure State (Token : Type) where
  plane : Plane
  relay : Relay Token
  probes : ℕ → Probe

namespace State

variable (s : State Token) (i : ℕ) (probe : Probe)

def set : State Token := { s with probes := Function.update s.probes i probe }

@[simp] lemma set_self : (s.set i probe).probes i = probe := Function.update_self ..

lemma set_of_ne {i j : ℕ} (h : j ≠ i) : (s.set i probe).probes j = s.probes j :=
  Function.update_of_ne h ..

end State

def dnsReady (s : State Token) : Bool := s.plane.sockets.accepting && s.relay.snapshot.isSome

inductive Event
  | plane (e : Listeners.Event)
  | relay (e : RelayEvent)
  | ask (i : ℕ)
  | ping (i : ℕ) (answers : Bool)

section Process

variable (E : Platform) (F : Fernet Key Token) (kek : Kek Key)

inductive Step : State Token → Event → State Token → Prop
  | plane {s : State Token} {e : Listeners.Event} {plane : Plane} : s.plane.next e = some plane →
      Step s (.plane e) { s with plane := plane }
  | relay {s : State Token} {e : RelayEvent} {σ : Relay Token} : RelayStep E F kek s.relay e σ →
      Step s (.relay e) { s with relay := σ }
  | ask {s : State Token} {i : ℕ} : s.probes i = .idle →
      Step s (.ask i) (s.set i (.asked (dnsReady s)))
  | ping {s : State Token} {i : ℕ} {dns answers : Bool} : s.probes i = .asked dns →
      Step s (.ping i answers) (s.set i (.answered dns answers))

def process : System (State Token) Event :=
  ⟨fun s => s.plane.Initial ∧ (Cache.relay E F kek).init s.relay ∧
    ∀ i, s.probes i = .idle, Step E F kek⟩

end Process

def withdraws : Event → Bool
  | .plane (.socket e) => e = .stopAccepting ∨ e = .close ∨ e = .exit
  | _ => false

/-- Between the two binds of `serve` nobody stops or closes the server. -/
def Undisturbed (s : Plane) : Listeners.Event → Prop
  | .socket .stopAccepting | .socket .close => s.sockets.serve ≠ .bindingTcp
  | _ => True

instance (s : Plane) : (e : Listeners.Event) → Decidable (Undisturbed s e)
  | .socket .stopAccepting | .socket .close =>
    inferInstanceAs (Decidable (s.sockets.serve ≠ .bindingTcp))
  | .socket .serve | .socket (.bindUdp _) | .socket .cancelUdp | .socket (.bindTcp _)
  | .socket (.cancelTcp _)
  | .socket .cancelServing | .socket .exit | .task _ => inferInstanceAs (Decidable True)

def OnPlane (P : Plane → Listeners.Event → Prop) (s : State Token) : Event → Prop
  | .plane e => P s.plane e
  | _ => True

section Backed

variable {k k' : Sockets}

structure Backed (k : Sockets) : Prop where
  current : k.Current
  binding : k.serve = .bindingTcp → ∃ p, k.protocols p = ⟨true, true⟩
  udp : k.accepting = true → ∃ p, k.protocols p = ⟨true, true⟩
  phase : k.accepting = true → k.serve = .serving ∨ k.serve = .cancelled
  tcp : k.accepting = true → k.serve = .serving → ∃ l, k.listening l = true

lemma Backed.refuses (h : Backed k) (hs : k.serve ≠ .serving ∧ k.serve ≠ .cancelled) :
    k.accepting = false := by
  by_contra hn
  rcases h.phase (by simpa using hn) with hp | hp
  · exact hs.1 hp
  · exact hs.2 hp

lemma backed_of_refuses (hc : k.Current) (ha : k.accepting = false) (hs : k.serve ≠ .bindingTcp) :
    Backed k where
  current := hc
  binding h := absurd h hs
  udp h := by simp [ha] at h
  phase h := by simp [ha] at h
  tcp h := by simp [ha] at h

lemma Backed.step (h : Backed k) {e : SocketEvent} (hu : e = .stopAccepting ∨ e = .close →
      k.serve ≠ .bindingTcp) (hs : k.next e = some k') : Backed k' := by
  have hc := h.current.step hs
  cases change_of_next hs with
  | serve hk | noUdp hk | noTcp hk | lostTcp hk | cancelTcp hk =>
    exact backed_of_refuses hc (h.refuses (by simp [hk])) (by simp [enter])
  | openUdp hk =>
    have ha : (k.openUdp.enter .bindingTcp).accepting ≠ true := by
      have hr := h.refuses (by simp [hk])
      simpa [openUdp, enter, setProtocol] using hr
    exact ⟨hc, fun _ => ⟨k.protocolCount, Function.update_self ..⟩, fun hn => absurd hn ha,
      fun hn => absurd hn ha, fun hn => absurd hn ha⟩
  | listen hk =>
    exact ⟨hc, fun hb => by simp [enter] at hb, fun _ => h.binding hk, fun _ => .inl rfl,
      fun _ _ => ⟨k.serverCount, Function.update_self ..⟩⟩
  | cancelServing =>
    obtain ⟨listening, hl⟩ := k.unlisten_eq
    rw [hl] at hc ⊢
    exact ⟨hc,
      fun hb => by simp [enter] at hb, h.udp, fun _ => .inr rfl, fun _ hb => by simp [enter] at hb⟩
  | exit => exact backed_of_refuses hc rfl (by simp [enter])
  | close => exact backed_of_refuses hc rfl (by rw [serve_close]; exact hu (.inr rfl))
  | stopAccepting =>
    obtain ⟨protocols, hk, -⟩ := k.stopAccepting_eq
    rw [hk] at hc ⊢
    exact backed_of_refuses hc rfl (hu (.inl rfl))

lemma Backed.accepting_next (h : Backed k) (ha : k.accepting = true) {e : SocketEvent}
    (hs : k.next e = some k') : k'.accepting = !withdraws (.plane (.socket e)) := by
  have hup := h.phase ha
  cases change_of_next hs with
  | serve hk | openUdp hk | noUdp hk | listen hk | noTcp hk | lostTcp hk | cancelTcp hk =>
    simp [hk] at hup
  | cancelServing =>
    obtain ⟨listening, hl⟩ := k.unlisten_eq
    rw [hl]
    exact ha
  | exit | close => rfl
  | stopAccepting =>
    obtain ⟨protocols, hk, -⟩ := k.stopAccepting_eq
    rw [hk]
    rfl

end Backed

section Receiving

structure Receives (s : Plane) : Prop where
  bound : ∃ p, (s.sockets.protocols p).isOpen
  datagram : ∀ p, (s.sockets.protocols p).isOpen → ∃ s', s.next (.task (.datagram p)) = some s' ∧
    s'.tasks.count = s.tasks.count + 1 ∧ s'.tasks.handlers s.tasks.count = ⟨.udp p, .handling⟩
  listening : s.sockets.serve ≠ .cancelled → ∃ l, s.sockets.listening l
  connection : ∀ l, s.sockets.listening l →
    ∃ s', [Listeners.Event.task (.connect l), .task (.handler s.tasks.count .start),
    .task (.handler s.tasks.count .message)].foldlM Plane.next s = some s' ∧
    s'.tasks.handlers s.tasks.count = ⟨.tcp, .handling⟩

variable {s s' : Plane}

lemma next_datagram {p : ℕ} (hp : s.sockets.protocols p = ⟨true, true⟩) :
    s.next (.task (.datagram p)) = some { s with tasks := { s.tasks.spawn ⟨.udp p, .handling⟩ with
      late := s.tasks.begun s.stopped true } } := by
  simp [Plane.next, Tasks.next, hp]

lemma next_connect {l : ℕ} (hl : s.sockets.listening l = true) : s.next (.task (.connect l)) =
    some { s with tasks := s.tasks.spawn ⟨.tcp, .created⟩ } := by
  simp [Plane.next, Tasks.next, hl]

lemma next_handler {i : ℕ} {e : HandlerEvent} {phase : Phase} (hi : i < s.tasks.count)
    (he : e ≠ .cancel) (hn : (s.tasks.handlers i).next s.sockets.accepting e = some phase) :
    ∃ s', s.next (.task (.handler i e)) = some s' ∧ s'.tasks.count = s.tasks.count ∧
      s'.tasks.handlers i = ⟨(s.tasks.handlers i).transport, phase⟩ := by
  have hg : ¬ (s.tasks.count ≤ i ∨ e = .cancel ∧ !s.tasks.mayCancel i) := by simp [he, hi]
  refine ⟨{ s with tasks := s.tasks.move s.stopped i phase }, ?_, rfl, Function.update_self ..⟩
  simp only [Plane.next, Tasks.next, Tasks.handle, if_neg hg, hn, Option.map_some]

lemma exists_handled {l : ℕ} (hl : s.sockets.listening l) (ha : s.sockets.accepting = true) :
    ∃ s', [Listeners.Event.task (.connect l), .task (.handler s.tasks.count .start),
      .task (.handler s.tasks.count .message)].foldlM Plane.next s = some s' ∧
      s'.tasks.handlers s.tasks.count = ⟨.tcp, .handling⟩ := by
  have h₁ := next_connect hl
  have hstart : ((s.tasks.spawn ⟨.tcp, .created⟩).handlers s.tasks.count).next s.sockets.accepting
      .start = some .reading := by
    simp [Tasks.spawn, Handler.next, ha]
  obtain ⟨s₂, h₂, hcount, hreading⟩ := next_handler
    (s := { s with tasks := s.tasks.spawn ⟨.tcp, .created⟩ }) (Nat.lt_succ_self _) (by simp) hstart
  have hmessage : (s₂.tasks.handlers s.tasks.count).next s₂.sockets.accepting .message =
      some .handling := by
    simp [hreading, Handler.next]
  obtain ⟨s₃, h₃, -, hhandling⟩ := next_handler (hcount ▸ Nat.lt_succ_self _) (by simp) hmessage
  refine ⟨s₃, ?_, ?_⟩
  · simp only [List.foldlM_cons, List.foldlM_nil, h₁, h₂, h₃, Option.bind_eq_bind, Option.bind_some,
      Option.pure_def]
  · rw [hhandling, hreading]
    simp [Tasks.spawn]

lemma Backed.receives (h : Backed s.sockets) (ha : s.sockets.accepting = true) : Receives s := by
  obtain ⟨p, hp⟩ := h.udp ha
  have hopen : (s.sockets.protocols p).isOpen := by rw [hp]
  refine ⟨⟨p, hopen⟩, fun q hq => ?_, fun hc => h.tcp ha ((h.phase ha).resolve_right hc),
    fun l hl => exists_handled hl ha⟩
  -- no endpoint but the current one is open
  obtain rfl : p = q := Option.some.inj ((h.current.held p hopen).symm.trans (h.current.held q hq))
  exact ⟨_, next_datagram hp, rfl, Function.update_self ..⟩

end Receiving

section Runs

variable {E : Platform} {F : Fernet Key Token} {kek : Kek Key} {es : List Event}
  {s s' : State Token} {e : Event}

lemma backed_of_run (h : ((process E F kek).restrict (OnPlane Undisturbed)).Run es s) :
    Backed s.plane.sockets := by
  refine h.invariant (I := fun s => Backed s.plane.sockets) ?_ ?_
  · rintro s ⟨hp, -⟩
    rw [hp]
    exact backed_of_refuses current_init rfl (by simp)
  · rintro s e s' hi ⟨hu, hs⟩
    cases hs with
    | relay | ask | ping => exact hi
    | @plane e _ hn =>
      cases e with
      | task e =>
        obtain ⟨t, -, rfl⟩ := Option.map_eq_some_iff.mp hn
        exact hi
      | socket e =>
        obtain ⟨k, hk, rfl⟩ := Option.map_eq_some_iff.mp hn
        refine hi.step ?_ hk
        rintro (rfl | rfl)
        · exact hu
        · exact hu

lemma relay_of_run (h : (process E F kek).Run es s) :
    ∃ fs, (Cache.relay E F kek).Run fs s.relay := by
  induction h with
  | init h => exact ⟨[], .init h.2.1⟩
  | step _ hs ih =>
    obtain ⟨fs, hf⟩ := ih
    cases hs with
    | plane | ask | ping => exact ⟨fs, hf⟩
    | relay hr => exact ⟨_, hf.step hr⟩

lemma ready_step (hb : Backed s.plane.sockets) (hr : dnsReady s = true) (hs : Step E F kek s e s') :
    dnsReady s' = !withdraws e := by
  obtain ⟨ha, hp⟩ := Bool.and_eq_true_iff.mp hr
  cases hs with
  | @plane e _ hn =>
    cases e with
    | task e =>
      obtain ⟨t, -, rfl⟩ := Option.map_eq_some_iff.mp hn
      exact hr
    | socket e =>
      obtain ⟨k, hk, rfl⟩ := Option.map_eq_some_iff.mp hn
      rw [dnsReady, hb.accepting_next ha hk, hp, Bool.and_true]
  | relay hr =>
    rcases snapshot_of_step hr with he | ⟨_, _, _, _, _, -, -, -, he⟩
    · rw [dnsReady, ha, he, hp]
      rfl
    · rw [dnsReady, ha, he]
      rfl
  | ask | ping => exact hr

/-- While the probe says that the data plane is ready the server receives what comes, the routes are
those of one complete load of the database, and only stopping or closing the server takes the
readiness back; all this if the server is never stopped or closed between the two binds of `serve`.
-/
theorem ready_truthful (h : ((process E F kek).restrict (OnPlane Undisturbed)).Run es s)
    (hr : dnsReady s = true) :
    Receives s.plane ∧
    (∃ start n rows snapshot, Reads s.relay.states start (.read rows) n ∧
      load E F kek rows = .ok snapshot ∧ s.relay.snapshot = some snapshot) ∧
    ∀ e s', Step E F kek s e s' → dnsReady s' = !withdraws e := by
  have hb := backed_of_run h
  obtain ⟨ha, hp⟩ := Bool.and_eq_true_iff.mp hr
  obtain ⟨fs, hf⟩ := relay_of_run h.of_restrict
  refine ⟨hb.receives ha, ?_, fun e s' hs => ready_step hb hr hs⟩
  rcases (recorded_of_run hf).snapshot with hn | hload
  · simp [hn] at hp
  · exact hload

lemma probe_step {i : ℕ} {dns : Bool} (hs : Step E F kek s e s')
    (hd : (s'.probes i).dns? = some dns) :
    (s.probes i).dns? = some dns ∨ e = .ask i ∧ dns = dnsReady s ∧ dnsReady s' = dnsReady s := by
  cases hs with
  | plane | relay => exact .inl hd
  | @ask j _ =>
    by_cases hj : i = j
    · subst hj
      rw [State.set_self] at hd
      exact .inr ⟨rfl, (Option.some.inj hd).symm, rfl⟩
    · rw [State.set_of_ne _ _ hj] at hd
      exact .inl hd
  | @ping j _ _ hp =>
    by_cases hj : i = j
    · subst hj
      rw [State.set_self] at hd
      rw [hp]
      exact .inl hd
    · rw [State.set_of_ne _ _ hj] at hd
      exact .inl hd

lemma probe_of_run {i : ℕ} {dns : Bool}
    (h : ((process E F kek).restrict (OnPlane Undisturbed)).Run es s)
    (hd : (s.probes i).dns? = some dns) : ∃ es₁ es₂ t, es = es₁ ++ .ask i :: es₂ ∧
    ((process E F kek).restrict (OnPlane Undisturbed)).Run es₁ t ∧ dns = dnsReady t ∧
    (dns = true → (∀ e ∈ es₂, withdraws e = false) → dnsReady s = true) := by
  induction h with
  | init h => simp [h.2.2 i, Probe.dns?] at hd
  | @step es s s' e hr hs ih =>
    rcases probe_step hs.2 hd with hd | ⟨rfl, hdns, hsame⟩
    · obtain ⟨es₁, es₂, t, rfl, ht, hdns, hkeeps⟩ := ih hd
      refine ⟨es₁, es₂ ++ [e], t, by simp, ht, hdns, fun hdns hw => ?_⟩
      have hready := hkeeps hdns (fun e he => hw e (List.mem_append_left _ he))
      rw [ready_step (backed_of_run hr) hready hs.2, hw e (by simp)]
      rfl
    · exact ⟨es, [], s, rfl, hr, hdns, fun hdns' _ => by rw [hsame, ← hdns, hdns']⟩

/-- `/readyz` answers 200 exactly when the data plane was ready as the request came and the database
answered. Then the server received and the routes were loaded at that moment, and they are so at the
answer unless the server was stopped or closed meanwhile. -/
theorem readyz_truthful {i : ℕ} {dns api : Bool}
    (h : ((process E F kek).restrict (OnPlane Undisturbed)).Run es s)
    (ha : s.probes i = .answered dns api) :
    ∃ es₁ es₂ t, es = es₁ ++ .ask i :: es₂ ∧
      ((process E F kek).restrict (OnPlane Undisturbed)).Run es₁ t ∧
      ((readyz dns api).statusCode = 200 ↔ dnsReady t = true ∧ api = true) ∧
      ((readyz dns api).statusCode = 200 →
        Receives t.plane ∧ t.relay.snapshot.isSome = true ∧
        ((∀ e ∈ es₂, withdraws e = false) →
          Receives s.plane ∧ s.relay.snapshot.isSome = true)) := by
  obtain ⟨es₁, es₂, t, hes, ht, hdns, hkeeps⟩ := probe_of_run h (by rw [ha]; rfl)
  have hstatus : (readyz dns api).statusCode = 200 ↔ dns = true ∧ api = true := by
    cases dns <;> cases api <;> simp [readyz]
  have hboth {u : State Token} {fs : List Event}
      (hu : ((process E F kek).restrict (OnPlane Undisturbed)).Run fs u)
      (hr : dnsReady u = true) : Receives u.plane ∧ u.relay.snapshot.isSome = true := by
    obtain ⟨hacc, hp⟩ := Bool.and_eq_true_iff.mp hr
    exact ⟨(backed_of_run hu).receives hacc, hp⟩
  refine ⟨es₁, es₂, t, hes, ht, hdns ▸ hstatus, fun hok => ?_⟩
  have hd := (hstatus.mp hok).1
  obtain ⟨hreceives, hloaded⟩ := hboth ht (hdns ▸ hd)
  exact ⟨hreceives, hloaded, fun hw => hboth h (hkeeps hd hw)⟩

section Sample

variable {P : Plane → Listeners.Event → Prop} {ps : List Listeners.Event} {fs : List RelayEvent}
  {plane : Plane} {σ : Relay Token}

lemma run_plane (hp : (server.restrict P).Run ps plane) (hσ : (Cache.relay E F kek).init σ) :
    ((process E F kek).restrict (OnPlane P)).Run (ps.map .plane) ⟨plane, σ, fun _ => .idle⟩ := by
  induction hp with
  | init h => exact .init ⟨h, hσ, fun _ => rfl⟩
  | step _ hs ih =>
    rw [List.map_append]
    exact ih.step ⟨hs.1, .plane hs.2⟩

lemma run_beside (hp : (server.restrict P).Run ps plane) (hr : (Cache.relay E F kek).Run fs σ) :
    ((process E F kek).restrict (OnPlane P)).Run (ps.map .plane ++ fs.map .relay)
      ⟨plane, σ, fun _ => .idle⟩ := by
  induction hr with
  | init h =>
    rw [List.map_nil, List.append_nil]
    exact run_plane hp h
  | step _ hs ih =>
    rw [List.map_append, ← List.append_assoc]
    exact ih.step ⟨trivial, .relay hs⟩

lemma run_cached : ∃ fs σ, (Cache.relay asciiPlatform plainFernet sampleKek).Run fs σ ∧
    σ.snapshot.isSome = true := by
  obtain ⟨s, hl⟩ := keyDb_loads
  obtain ⟨σ, hrun, -, -, -, -, hs, -⟩ := run_refresh run_mint (Relay.set_self ..) rfl hl
  exact ⟨_, σ, hrun, by simp [hs]⟩

lemma run_ready : ∃ es s,
    ((process asciiPlatform plainFernet sampleKek).restrict (OnPlane Undisturbed)).Run es s ∧
    dnsReady s = true ∧ s.probes 0 = .idle := by
  obtain ⟨fs, σ, hr, hs⟩ := run_cached
  obtain ⟨plane, hp, ha⟩ : ∃ plane, (server.restrict Undisturbed).Run serving plane ∧
      plane.sockets.accepting = true :=
    System.exists_run_restrict Plane.initial (by decide +kernel)
  exact ⟨_, _, run_beside hp hr, by simp [dnsReady, ha, hs], rfl⟩

theorem serving_ready : ∃ es s,
    ((process asciiPlatform plainFernet sampleKek).restrict (OnPlane Undisturbed)).Run es s ∧
    dnsReady s = true ∧ Receives s.plane := by
  obtain ⟨es, s, hr, hready, -⟩ := run_ready
  exact ⟨es, s, hr, hready, (ready_truthful hr hready).1⟩

theorem serving_answers :
    ∃ es s dns, ((process asciiPlatform plainFernet sampleKek).restrict (OnPlane Undisturbed)).Run
      (es ++ [.ask 0] ++ [.ping 0 true]) s ∧ s.probes 0 = .answered dns true ∧ ∃ es₁ es₂ t,
      es ++ [.ask 0] ++ [.ping 0 true] = es₁ ++ .ask 0 :: es₂ ∧
      ((process asciiPlatform plainFernet sampleKek).restrict (OnPlane Undisturbed)).Run es₁ t ∧
      ((readyz dns true).statusCode = 200 ↔ dnsReady t = true ∧ true = true) := by
  obtain ⟨es, s, hr, hready, hi⟩ := run_ready
  have h₁ := hr.step (e := Event.ask 0) ⟨trivial, .ask hi⟩
  have h₂ := h₁.step (e := Event.ping 0 true) ⟨trivial, .ping (State.set_self ..)⟩
  obtain ⟨es₁, es₂, t, hes, ht, hstatus, -⟩ := readyz_truthful (i := 0) h₂ (State.set_self ..)
  exact ⟨es, _, _, h₂, State.set_self .., es₁, es₂, t, hes, ht, hstatus⟩

lemma current_of_run (h : server.Run ps plane) : plane.sockets.Current := by
  refine h.invariant (I := fun s => s.sockets.Current) ?_ ?_
  · rintro s rfl
    exact current_init
  · intro s e s' hi hs
    cases e with
    | task e =>
      obtain ⟨t, -, rfl⟩ := Option.map_eq_some_iff.mp hs
      exact hi
    | socket e =>
      obtain ⟨k, hk, rfl⟩ := Option.map_eq_some_iff.mp hs
      exact hi.step hk

lemma next_dropped (hc : plane.sockets.Current) {q : ℕ} (hu : plane.sockets.udp = some q)
    (ha : (plane.sockets.protocols q).accepting = false) {p : ℕ} {plane' : Plane}
    (hn : plane.next (.task (.datagram p)) = some plane') : plane' = plane := by
  obtain ⟨t, ht, rfl⟩ := Option.map_eq_some_iff.mp hn
  cases Tasks.change_of_next ht with
  | dropped => rfl
  | datagram ho hacc =>
    have hp : p = q := Option.some.inj ((hc.held p ho).symm.trans hu)
    simp [hp, ha] at hacc

def stopBetween : List Listeners.Event :=
  [.socket .serve, .socket (.bindUdp true), .socket .stopAccepting, .socket (.bindTcp true)]

theorem stopped_ready : ∃ es s, (process asciiPlatform plainFernet sampleKek).Run es s ∧
    s.plane.stopped = true ∧ dnsReady s = true ∧
    ∀ p plane, s.plane.next (.task (.datagram p)) = some plane → plane = s.plane := by
  obtain ⟨fs, σ, hr, hs⟩ := run_cached
  obtain ⟨plane, hp, he⟩ : ∃ plane, (server.restrict (fun _ _ => True)).Run stopBetween plane ∧
      (plane.stopped, plane.sockets.accepting, plane.sockets.udp,
      (plane.sockets.protocols 0).accepting) = (true, true, some 0, false) :=
    System.exists_run_restrict Plane.initial (by decide +kernel)
  simp only [Prod.mk.injEq] at he
  obtain ⟨hst, ha, hu, hd⟩ := he
  have hc := current_of_run hp.of_restrict
  exact ⟨_, ⟨plane, σ, _⟩, (run_beside hp hr).of_restrict, hst, by simp [dnsReady, ha, hs],
    fun p plane' hn => next_dropped hc hu hd hn⟩

end Sample

end Runs

end AstropathRelay.DataPlane.Readiness
