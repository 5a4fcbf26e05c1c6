import AstropathRelay.DataPlane.Listeners

/-! What a `serve` that has come to its end leaves bound. -/

namespace AstropathRelay.DataPlane.Listeners

open Lib

namespace Sockets

structure Clean (k : Sockets) : Prop where
  udp : ∀ p, ¬ (k.protocols p).isOpen
  tcp : ∀ l, ¬ k.listening l
  restarts : ∃ k', [SocketEvent.serve, .bindUdp true, .bindTcp true].foldlM next k = some k' ∧
    k'.serve = .serving ∧ k'.accepting = true

structure Owned (k : Sockets) : Prop where
  current : k.Current
  udp : ∀ p, (k.protocols p).isOpen → k.serve = .bindingTcp ∨ k.serve = .serving ∨
    k.serve = .cancelled
  tcp : ∀ l, k.listening l → k.tcpServer = some l ∧ k.serve = .serving

variable {k k' : Sockets}

lemma not_udpTaken (h : ∀ p, ¬ (k.protocols p).isOpen) : k.udpTaken = false := by
  rw [udpTaken, decide_eq_false_iff_not]
  rintro ⟨p, -, ho⟩
  exact h p ho

lemma not_tcpTaken (h : ∀ l, ¬ k.listening l) : k.tcpTaken = false := by
  rw [tcpTaken, decide_eq_false_iff_not]
  rintro ⟨l, -, hl⟩
  exact h l hl

lemma unlisten_none (h : ∀ l, k.listening l → k.tcpServer = some l)
    (l : ℕ) : ¬ k.unlisten.listening l := by
  intro hl
  unfold unlisten at hl
  split at hl
  · next ht =>
    rw [h l hl] at ht
    simp at ht
  · next q ht =>
    change Function.update k.listening q false l = true at hl
    by_cases hq : l = q
    · subst hq
      simp at hl
    · rw [Function.update_of_ne hq] at hl
      have he := h l hl
      rw [ht] at he
      exact hq (Option.some.inj he).symm

lemma closeUdp_eq (k : Sockets) :
    ∃ protocols udp, k.closeUdp = { k with protocols := protocols, udp := udp } := by
  rw [closeUdp]
  split
  · exact ⟨k.protocols, k.udp, rfl⟩
  · exact ⟨_, none, rfl⟩

lemma close_none (h : ∀ l, k.listening l → k.tcpServer = some l)
    (l : ℕ) : ¬ k.close.listening l := by
  change ¬ k.closeUdp.unlisten.listening l = true
  obtain ⟨protocols, udp, hk⟩ := k.closeUdp_eq
  rw [hk]
  exact unlisten_none (k := { k with protocols := protocols, udp := udp }) h l

def Binds : SocketEvent → Prop
  | .bindTcp free => free = true
  | .cancelTcp _ => False
  | _ => True

instance : (e : SocketEvent) → Decidable (Binds e)
  | .bindTcp free => inferInstanceAs (Decidable (free = true))
  | .cancelTcp _ => inferInstanceAs (Decidable False)
  | .serve | .bindUdp _ | .cancelUdp | .cancelServing | .exit | .close | .stopAccepting =>
    inferInstanceAs (Decidable True)

lemma Owned.step (h : k.Owned) {e : SocketEvent} (hb : Binds e) (hs : k.next e = some k') :
    k'.Owned := by
  have hc := h.current.step hs
  have hheld : ∀ l, k.listening l → k.tcpServer = some l := fun l hl => (h.tcp l hl).1
  have hquiet (hserve : k.serve ≠ .serving) : ∀ l,
      ¬ k.listening l := fun l hl => hserve (h.tcp l hl).2
  cases change_of_next hs with
  | serve hserve =>
    refine ⟨hc, fun p ho => ?_, fun l hl => absurd hl (hquiet (by simp [hserve]) l)⟩
    have hu := h.udp p ho
    simp [hserve] at hu
  | openUdp hserve ht =>
    exact ⟨hc, fun _ _ => .inl rfl, fun l hl => absurd hl (hquiet (by simp [hserve]) l)⟩
  | noUdp hserve =>
    refine ⟨hc, fun p ho => ?_, fun l hl => absurd hl (hquiet (by simp [hserve]) l)⟩
    have hu := h.udp p ho
    simp [hserve] at hu
  | listen hserve ht =>
    refine ⟨hc, fun _ _ => .inr (.inl rfl), fun l hl => ⟨?_, rfl⟩⟩
    change Function.update k.listening k.serverCount true l = true at hl
    by_cases hq : l = k.serverCount
    · rw [hq]
    · rw [Function.update_of_ne hq] at hl
      exact absurd hl (hquiet (by simp [hserve]) l)
  | noTcp hserve hfree =>
    have ht := hfree hb
    rw [not_tcpTaken (hquiet (by simp [hserve]))] at ht
    simp at ht
  | lostTcp | cancelTcp => exact hb.elim
  | cancelServing =>
    refine ⟨hc, fun _ _ => .inr (.inr rfl), fun l hl => ?_⟩
    exact absurd hl (unlisten_none hheld l)
  | exit | close =>
    exact ⟨hc, fun p ho => absurd ho (h.current.close_open p),
      fun l hl => absurd hl (close_none hheld l)⟩
  | stopAccepting =>
    obtain ⟨protocols, hk, hopen⟩ := k.stopAccepting_eq
    rw [hk] at hc ⊢
    refine ⟨hc, fun p ho => ?_, h.tcp⟩
    rw [hopen] at ho
    exact h.udp p ho

lemma next_bindUdp (hs : k.serve = .bindingUdp) (ht : k.udpTaken = false) :
    k.next (.bindUdp true) = some (k.openUdp.enter .bindingTcp) := by
  simp [next, hs, ht]

lemma next_bindTcp (hs : k.serve = .bindingTcp) (ht : k.tcpTaken = false) :
    k.next (.bindTcp true) =
      some { k.listen.enter .serving with tcpServer := some k.serverCount, accepting := true } := by
  simp [next, hs, ht]

lemma Owned.clean (h : k.Owned) (hi : k.serve = .idle) : k.Clean := by
  have hu : ∀ p, ¬ (k.protocols p).isOpen := fun p ho => by simpa [hi] using h.udp p ho
  have ht : ∀ l, ¬ k.listening l := fun l hl => by simpa [hi] using (h.tcp l hl).2
  have h₁ : k.next .serve = some (k.enter .bindingUdp) := if_pos hi
  have h₂ := next_bindUdp (k := k.enter .bindingUdp) rfl (not_udpTaken hu)
  obtain ⟨k', h₃, hs, ha⟩ : ∃ k',
      ((k.enter .bindingUdp).openUdp.enter .bindingTcp).next (.bindTcp true) = some k' ∧
      k'.serve = .serving ∧ k'.accepting = true := ⟨_, next_bindTcp rfl (not_tcpTaken ht), rfl, rfl⟩
  refine ⟨hu, ht, k', ?_, hs, ha⟩
  simp only [List.foldlM_cons, List.foldlM_nil, h₁, h₂, h₃, Option.bind_eq_bind, Option.bind_some,
    Option.pure_def]

end Sockets

section Runs

def BindsTcp (_ : Plane) : Event → Prop
  | .socket e => Sockets.Binds e
  | .task _ => True

instance (s : Plane) : (e : Event) → Decidable (BindsTcp s e)
  | .socket e => inferInstanceAs (Decidable (Sockets.Binds e))
  | .task _ => inferInstanceAs (Decidable True)

variable {s s' : Plane}

lemma owned_of_run {es : List Event} (h : (server.restrict BindsTcp).Run es s) :
    s.sockets.Owned := by
  refine System.Run.invariant (I := fun s => s.sockets.Owned) ?_ ?_ h
  · rintro s rfl
    exact ⟨Sockets.current_init, fun p ho => by simp at ho, fun l hl => by simp at hl⟩
  · rintro s e s' hi ⟨hb, hs⟩
    cases e with
    | socket e =>
      obtain ⟨k, hk, rfl⟩ := Option.map_eq_some_iff.mp hs
      exact hi.step hb hk
    | task e =>
      obtain ⟨t, -, rfl⟩ := Option.map_eq_some_iff.mp hs
      exact hi

def LeavesNothing (s : Plane) : Prop :=
  s.sockets.serve = .idle → s.sockets.Clean ∧ ∀ p, s.next (.task (.datagram p)) = none

/-- When every TCP bind succeeds once the UDP endpoint is open, a `serve` that ends leaves nothing
bound, and the next one starts if the ports are free. A TCP bind that fails or is cancelled leaves
the UDP endpoint behind. -/
theorem serve_leaves_nothing {es : List Event} (h : (server.restrict BindsTcp).Run es s) :
    LeavesNothing s ∧ ∀ e s', ¬ BindsTcp s e → (∃ p, (s.sockets.protocols p).isOpen) →
      s.next e = some s' → ¬ LeavesNothing s' := by
  have ho := owned_of_run h
  refine ⟨fun hi => ⟨ho.clean hi, fun p => ?_⟩, ?_⟩
  · have hu := (ho.clean hi).udp p
    simp [Plane.next, Tasks.next, hu]
  · rintro e s' hn ⟨p, hp⟩ hs hl
    cases e with
    | task e => exact hn trivial
    | socket e =>
      obtain ⟨k, hk, rfl⟩ := Option.map_eq_some_iff.mp hs
      cases Sockets.change_of_next hk with
      | noTcp | lostTcp | cancelTcp => exact (hl rfl).1.udp p hp
      | noUdp hserve =>
        have hu := ho.udp p hp
        simp [hserve] at hu
      | serve | openUdp | cancelServing | exit | close | stopAccepting => exact hn trivial
      | listen => exact hn rfl

theorem serve_exit_leaves_nothing :
    ∃ s, (server.restrict BindsTcp).Run
        [.socket .serve, .socket (.bindUdp true), .socket (.bindTcp true), .socket .exit] s ∧
      s.sockets.serve = .idle ∧ LeavesNothing s := by
  obtain ⟨s, hr, hs⟩ : ∃ s, (server.restrict BindsTcp).Run [.socket .serve, .socket (.bindUdp true),
      .socket (.bindTcp true), .socket .exit] s ∧ s.sockets.serve = .idle :=
    System.exists_run_restrict Plane.initial (by decide +kernel)
  exact ⟨s, hr, hs, (serve_leaves_nothing hr).1⟩

theorem failed_tcp_bind_leaves_udp :
    ∃ s, server.Run [.socket .serve, .socket (.bindUdp true), .socket (.bindTcp false)] s ∧
      s.sockets.serve = .idle ∧ ¬ LeavesNothing s ∧ (s.next (.task (.datagram 0))).isSome ∧
      ∃ s', server.Run [.socket .serve, .socket (.bindUdp true), .socket (.bindTcp false),
      .socket .serve, .socket (.bindUdp true)] s' ∧ s'.sockets.serve = .idle := by
  refine ⟨_, System.run_deterministic _ _ Plane.initial rfl, rfl, fun h => ?_, rfl,
    _, System.run_deterministic _ _ Plane.initial rfl, rfl⟩
  exact (h rfl).1.udp 0 rfl

end Runs

end AstropathRelay.DataPlane.Listeners
