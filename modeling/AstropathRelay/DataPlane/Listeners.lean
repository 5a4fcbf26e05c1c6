import AstropathRelay.Lib.Runs

/-! The RFC 2136 server: its sockets, the flags that `serve`, `stop_accepting`, `drain` and `close`
share, and the handler tasks, from one await to the next. -/

namespace AstropathRelay.DataPlane.Listeners

open Lib

section Handlers

inductive Transport
  | udp (protocol : ℕ)
  | tcp
deriving DecidableEq

inductive Phase
  | created
  | refusing
  | reading
  | handling
  | replying
  | closing
  | finished
deriving DecidableEq

structure Handler where
  transport : Transport
  phase : Phase
deriving DecidableEq

inductive HandlerEvent
  | start
  | message
  | lost
  | answer (reply : Bool)
  | written
  | closed
  | cancel
deriving DecidableEq

def Handler.next (h : Handler) (accepting : Bool) : HandlerEvent → Option Phase
  | .start => if h.phase = .created then some (if accepting then .reading else .refusing) else none
  | .message => if h.phase = .reading then some .handling else none
  | .lost => if h.phase = .reading ∨ h.phase = .replying then some .closing else none
  | .answer reply =>
    if h.phase = .handling then
      match h.transport with
      | .udp _ => some .finished
      | .tcp => some (if reply then .replying else .closing)
    else none
  | .written => if h.phase = .replying then some (if accepting then .reading else .closing)
      else none
  | .closed => if h.phase = .refusing ∨ h.phase = .closing then some .finished else none
  | .cancel =>
    match h.phase, h.transport with
    | .finished, _ => none
    | .reading, _ => some .closing
    | .handling, .tcp => some .closing
    | .replying, _ => some .closing
    | _, _ => some .finished

end Handlers

section Sockets

structure UdpProtocol where
  isOpen : Bool := false
  accepting : Bool := false
deriving DecidableEq

inductive ServePhase
  | idle
  | bindingUdp
  | bindingTcp
  | serving
  | cancelled
deriving DecidableEq

structure Sockets where
  protocols : ℕ → UdpProtocol := fun _ => {}
  protocolCount : ℕ := 0
  listening : ℕ → Bool := fun _ => false
  serverCount : ℕ := 0
  udp : Option ℕ := none
  tcpServer : Option ℕ := none
  accepting : Bool := false
  serve : ServePhase := .idle

inductive SocketEvent
  | serve
  | bindUdp (free : Bool)
  | cancelUdp
  | bindTcp (free : Bool)
  | cancelTcp (listens : Bool)
  | cancelServing
  | exit
  | close
  | stopAccepting
deriving DecidableEq

namespace Sockets

variable (k : Sockets)

def udpTaken : Bool := decide (∃ p < k.protocolCount, (k.protocols p).isOpen)

def tcpTaken : Bool := decide (∃ l < k.serverCount, k.listening l)

def enter (phase : ServePhase) : Sockets := { k with serve := phase }

def setProtocol (p : ℕ) (protocol : UdpProtocol) : Sockets :=
  { k with protocols := Function.update k.protocols p protocol }

def setListening (l : ℕ) (b : Bool) : Sockets :=
  { k with listening := Function.update k.listening l b }

def openUdp : Sockets :=
  { k.setProtocol k.protocolCount ⟨true, true⟩ with
    protocolCount := k.protocolCount + 1, udp := some k.protocolCount }

def listen : Sockets := { k.setListening k.serverCount true with serverCount := k.serverCount + 1 }

def closeUdp : Sockets :=
  match k.udp with
  | none => k
  | some p => { k.setProtocol p { k.protocols p with isOpen := false } with udp := none }

def unlisten : Sockets :=
  match k.tcpServer with
  | none => k
  | some l => k.setListening l false

def close : Sockets := { k.closeUdp.unlisten with accepting := false, tcpServer := none }

def stopAccepting : Sockets :=
  match k.udp with
  | none => { k with accepting := false }
  | some p => { k.setProtocol p { k.protocols p with accepting := false } with accepting := false }

/-- `free` says that nothing outside this process keeps a bind from succeeding. A cancelled TCP bind
may already listen. -/
def next : SocketEvent → Option Sockets
  | .serve => if k.serve = .idle then some (k.enter .bindingUdp) else none
  | .bindUdp free =>
    if k.serve = .bindingUdp then
      if free ∧ !k.udpTaken then some (k.openUdp.enter .bindingTcp) else some (k.enter .idle)
    else none
  | .cancelUdp => if k.serve = .bindingUdp then some (k.enter .idle) else none
  | .bindTcp free =>
    if k.serve = .bindingTcp then
      if free ∧ !k.tcpTaken then
        some { k.listen.enter .serving with tcpServer := some k.serverCount, accepting := true }
      else some (k.enter .idle)
    else none
  | .cancelTcp listens =>
    if k.serve = .bindingTcp then
      if listens ∧ !k.tcpTaken then some (k.listen.enter .idle) else some (k.enter .idle)
    else none
  | .cancelServing => if k.serve = .serving then some (k.unlisten.enter .cancelled) else none
  | .exit => if k.serve = .serving ∨ k.serve = .cancelled then some (k.close.enter .idle) else none
  | .close => some k.close
  | .stopAccepting => some k.stopAccepting

end Sockets

end Sockets

section Tasks

inductive Draining
  | no
  | waiting (started : ℕ) (tasks : List ℕ)
  | returned (started : ℕ)
deriving DecidableEq

/-- The handler tasks in the order in which they were started. `late` is history: the messages whose
handling began when `stop_accepting` had returned. -/
structure Tasks where
  handlers : ℕ → Handler := fun _ => ⟨.tcp, .finished⟩
  count : ℕ := 0
  tcpConns : List ℕ := []
  drain : Draining := .no
  late : ℕ := 0

inductive TaskEvent
  | drain
  | drained
  | datagram (protocol : ℕ)
  | connect (server : ℕ)
  | handler (i : ℕ) (e : HandlerEvent)
deriving DecidableEq

namespace Tasks

variable (k : Sockets) (stopped : Bool) (t : Tasks)

def inflight : List ℕ :=
  (List.range t.count).filter (fun i => (t.handlers i).phase ≠ .finished &&
    match (t.handlers i).transport with
    | .udp p => decide (k.udp = some p)
    | .tcp => decide (i ∈ t.tcpConns))

def spawn (h : Handler) : Tasks :=
  { t with handlers := Function.update t.handlers t.count h, count := t.count + 1 }

def begun (begins : Bool) : ℕ := if begins && stopped then t.late + 1 else t.late

def mayCancel (i : ℕ) : Bool :=
  match t.drain with
  | .waiting _ tasks => decide (i ∈ tasks)
  | _ => false

def register (i : ℕ) (phase : Phase) : List ℕ :=
  if phase = .reading then i :: t.tcpConns.filter (· ≠ i)
  else if phase = .finished then t.tcpConns.filter (· ≠ i)
  else t.tcpConns

def move (i : ℕ) (phase : Phase) : Tasks :=
  { t with
    handlers := Function.update t.handlers i { t.handlers i with phase := phase }
    tcpConns := t.register i phase
    late := t.begun stopped (phase = .handling) }

def handle (i : ℕ) (e : HandlerEvent) : Option Tasks :=
  if t.count ≤ i ∨ e = .cancel ∧ !t.mayCancel i then none
  else ((t.handlers i).next k.accepting e).map (t.move stopped i)

def next : TaskEvent → Option Tasks
  | .drain =>
    match t.drain with
    | .waiting _ _ => none
    | _ => some { t with drain := .waiting t.count (t.inflight k) }
  | .drained =>
    match t.drain with
    | .waiting started tasks =>
      if ∀ i ∈ tasks, (t.handlers i).phase = .finished then
        some { t with drain := .returned started } else none
    | _ => none
  | .datagram p =>
    if (k.protocols p).isOpen then
      if (k.protocols p).accepting then
        some { t.spawn ⟨.udp p, .handling⟩ with late := t.begun stopped true }
      else some t
    else none
  | .connect l => if k.listening l then some (t.spawn ⟨.tcp, .created⟩) else none
  | .handler i e => t.handle k stopped i e

end Tasks

end Tasks

structure Plane where
  sockets : Sockets := {}
  tasks : Tasks := {}
  stopped : Bool := false

inductive Event
  | socket (e : SocketEvent)
  | task (e : TaskEvent)
deriving DecidableEq

def Plane.next (s : Plane) : Event → Option Plane
  | .socket e => (s.sockets.next e).map
      (fun k => { s with sockets := k, stopped := s.stopped || e = .stopAccepting })
  | .task e => (s.tasks.next s.sockets s.stopped e).map (fun t => { s with tasks := t })

def Plane.Initial (s : Plane) : Prop := s = {}

lemma Plane.initial : ({} : Plane).Initial := rfl

def server : System Plane Event := .deterministic Plane.Initial Plane.next

section Current

namespace Sockets

structure Current (k : Sockets) : Prop where
  held : ∀ p, (k.protocols p).isOpen → k.udp = some p
  known : ∀ p, (k.protocols p).isOpen → p < k.protocolCount

variable {k k' : Sockets}

lemma Current.none_open (h : k.Current) (ht : k.udpTaken = false)
    (p : ℕ) : ¬ (k.protocols p).isOpen := by
  intro ho
  have hex : ∃ p < k.protocolCount, (k.protocols p).isOpen := ⟨p, h.known p ho, ho⟩
  simp [udpTaken, hex] at ht

lemma unlisten_eq (k : Sockets) : ∃ listening, k.unlisten = { k with listening := listening } := by
  rw [unlisten]
  split
  · exact ⟨k.listening, rfl⟩
  · exact ⟨_, rfl⟩

lemma stopAccepting_eq (k : Sockets) : ∃ protocols,
    k.stopAccepting = { k with protocols := protocols, accepting := false } ∧
      ∀ p, (protocols p).isOpen = (k.protocols p).isOpen := by
  rw [stopAccepting]
  split
  · exact ⟨k.protocols, rfl, fun _ => rfl⟩
  · next q hu =>
    refine ⟨Function.update k.protocols q { k.protocols q with accepting := false }, rfl,
      fun p => ?_⟩
    by_cases hq : p = q
    · subst hq
      rw [Function.update_self]
    · rw [Function.update_of_ne hq]

lemma Current.close_open (h : k.Current) (p : ℕ) : ¬ (k.close.protocols p).isOpen := by
  intro ho
  obtain ⟨listening, hk⟩ := k.closeUdp.unlisten_eq
  rw [close, hk, closeUdp] at ho
  split at ho
  · next hu =>
    rw [h.held p ho] at hu
    simp at hu
  · next q hu =>
    change (Function.update k.protocols q _ p).isOpen = true at ho
    by_cases hq : p = q
    · subst hq
      simp at ho
    · rw [Function.update_of_ne hq] at ho
      have he := h.held p ho
      rw [hu] at he
      exact hq (Option.some.inj he).symm

inductive Change (k : Sockets) : SocketEvent → Sockets → Prop
  | serve : k.serve = .idle → Change k .serve (k.enter .bindingUdp)
  | openUdp : k.serve = .bindingUdp → k.udpTaken = false →
      Change k (.bindUdp true) (k.openUdp.enter .bindingTcp)
  | noUdp {e} : k.serve = .bindingUdp → Change k e (k.enter .idle)
  | listen : k.serve = .bindingTcp → k.tcpTaken = false → Change k (.bindTcp true)
      { k.listen.enter .serving with tcpServer := some k.serverCount, accepting := true }
  | noTcp {free} : k.serve = .bindingTcp → (free = true → k.tcpTaken = true) →
      Change k (.bindTcp free) (k.enter .idle)
  | lostTcp {listens} : k.serve = .bindingTcp → Change k (.cancelTcp listens) (k.listen.enter .idle)
  | cancelTcp {listens} : k.serve = .bindingTcp → Change k (.cancelTcp listens) (k.enter .idle)
  | cancelServing : k.serve = .serving → Change k .cancelServing (k.unlisten.enter .cancelled)
  | exit : k.serve = .serving ∨ k.serve = .cancelled → Change k .exit (k.close.enter .idle)
  | close : Change k .close k.close
  | stopAccepting : Change k .stopAccepting k.stopAccepting

lemma change_of_next {e : SocketEvent} (h : k.next e = some k') : Change k e k' := by
  cases e with
  | serve =>
    simp only [next] at h
    split_ifs at h with hs
    obtain rfl := Option.some.inj h
    exact .serve hs
  | bindUdp free =>
    simp only [next] at h
    split_ifs at h with hs hf
    · obtain rfl := Option.some.inj h
      obtain ⟨rfl, ht⟩ := hf
      exact .openUdp hs (by simpa using ht)
    · obtain rfl := Option.some.inj h
      exact .noUdp hs
  | cancelUdp =>
    simp only [next] at h
    split_ifs at h with hs
    obtain rfl := Option.some.inj h
    exact .noUdp hs
  | bindTcp free =>
    simp only [next] at h
    split_ifs at h with hs hf
    · obtain rfl := Option.some.inj h
      obtain ⟨rfl, ht⟩ := hf
      exact .listen hs (by simpa using ht)
    · obtain rfl := Option.some.inj h
      refine .noTcp hs (fun hfree => ?_)
      by_contra hn
      exact hf ⟨hfree, by simpa using hn⟩
  | cancelTcp listens =>
    simp only [next] at h
    split_ifs at h with hs hf
    · obtain rfl := Option.some.inj h
      exact .lostTcp hs
    · obtain rfl := Option.some.inj h
      exact .cancelTcp hs
  | cancelServing =>
    simp only [next] at h
    split_ifs at h with hs
    obtain rfl := Option.some.inj h
    exact .cancelServing hs
  | exit =>
    simp only [next] at h
    split_ifs at h with hs
    obtain rfl := Option.some.inj h
    exact .exit hs
  | close =>
    obtain rfl := Option.some.inj h
    exact .close
  | stopAccepting =>
    obtain rfl := Option.some.inj h
    exact .stopAccepting

lemma Current.openUdp (h : k.Current) (ht : k.udpTaken = false) : k.openUdp.Current := by
  have hno := h.none_open ht
  have hp : ∀ p, (k.openUdp.protocols p).isOpen → p = k.protocolCount := by
    intro p ho
    by_contra hne
    change (Function.update k.protocols k.protocolCount _ p).isOpen = true at ho
    rw [Function.update_of_ne hne] at ho
    exact hno p ho
  exact ⟨fun p ho => by rw [hp p ho]; rfl, fun p ho => by rw [hp p ho]; exact Nat.lt_succ_self _⟩

lemma Current.step (h : k.Current) {e : SocketEvent} (hs : k.next e = some k') : k'.Current := by
  cases change_of_next hs with
  | serve | noUdp | listen | noTcp | lostTcp | cancelTcp => exact ⟨h.held, h.known⟩
  | openUdp _ ht => exact ⟨(h.openUdp ht).held, (h.openUdp ht).known⟩
  | cancelServing =>
    obtain ⟨listening, hk⟩ := k.unlisten_eq
    rw [hk]
    exact ⟨h.held, h.known⟩
  | exit | close =>
    exact ⟨fun p ho => absurd ho (h.close_open p), fun p ho => absurd ho (h.close_open p)⟩
  | stopAccepting =>
    obtain ⟨protocols, hk, hopen⟩ := k.stopAccepting_eq
    rw [hk]
    refine ⟨fun p ho => ?_, fun p ho => ?_⟩
    · rw [hopen] at ho
      exact h.held p ho
    · rw [hopen] at ho
      exact h.known p ho

lemma current_init : ({} : Sockets).Current :=
  ⟨fun p ho => by simp at ho, fun p ho => by simp at ho⟩

end Sockets

end Current

end AstropathRelay.DataPlane.Listeners
