import AstropathRelay.Lib.Framing
import AstropathRelay.Lib.Runs

/-! One TCP connection of the server: the bytes it receives, the messages it hands on, one after the
other, and the bytes it writes. -/

namespace AstropathRelay.DataPlane.TcpStream

open Lib Lib.ByteStrings Lib.Framing

inductive Answer
  | reply (wire : Octets)
  | none
  | raised
deriving DecidableEq

inductive Phase
  | accepted
  | header
  | payload (length : ℕ)
  | handling (payload : Octets)
  | closed
deriving DecidableEq

structure Connection where
  received : Octets := []
  buffer : Octets := []
  eof : Bool := false
  draining : Bool := false
  phase : Phase := .accepted
  calls : List Octets := []
  replies : List Octets := []
  written : Octets := []
deriving DecidableEq

inductive ReadResult
  | waiting
  | incomplete
  | bytes (bs rest : Octets)

def Connection.readexactly (c : Connection) (n : ℕ) : ReadResult :=
  if n ≤ c.buffer.length then .bytes (c.buffer.take n) (c.buffer.drop n)
  else if c.eof then .incomplete
  else .waiting

inductive Event
  | feedData (chunk : Octets)
  | feedEof
  | stopAccepting
  | resume
deriving DecidableEq

section Handler

variable (handle : ℕ → Octets → Answer)

def Connection.write (c : Connection) (reply : Octets) : Connection :=
  if 65535 < reply.length then { c with phase := .closed }
  else
    { c with
      replies := c.replies ++ [reply]
      written := c.written ++ (u16 reply.length ++ reply)
      phase := if c.draining then .closed else .header }

/-- The handler task up to its next await. `handle` says what `handle_query` does with a payload
after so many earlier calls on the connection. -/
def Connection.resume (c : Connection) : Option Connection :=
  match c.phase with
  | .accepted => some { c with phase := if c.draining then .closed else .header }
  | .header =>
    match c.readexactly 2 with
    | .waiting => none
    | .incomplete => some { c with buffer := [], phase := .closed }
    | .bytes header rest => some { c with buffer := rest, phase := .payload (decode header) }
  | .payload length =>
    match c.readexactly length with
    | .waiting => none
    | .incomplete => some { c with buffer := [], phase := .closed }
    | .bytes payload rest =>
      some { c with buffer := rest, phase := .handling payload, calls := c.calls ++ [payload] }
  | .handling payload =>
    match handle c.replies.length payload with
    | .reply reply => some (c.write reply)
    | .none => some { c with phase := .closed }
    | .raised => some { c with phase := .closed }
  | .closed => none

def Connection.next (c : Connection) : Event → Option Connection
  | .feedData chunk =>
    if c.eof then none
      else some { c with received := c.received ++ chunk, buffer := c.buffer ++ chunk }
  | .feedEof => if c.eof then none else some { c with eof := true }
  | .stopAccepting => some { c with draining := true }
  | .resume => c.resume handle

def connection : System Connection Event := .deterministic (· = {}) (Connection.next handle)

def NoShutdown (_ : Connection) (e : Event) : Prop := e ≠ .stopAccepting

instance (c : Connection) (e : Event) : Decidable (NoShutdown c e) :=
  inferInstanceAs (Decidable (_ ≠ _))

def served : ℕ → List Octets → List Octets × List Octets
  | _, [] => ([], [])
  | n, p :: ps =>
    match handle n p with
    | .reply reply => (p :: (served (n + 1) ps).1, reply :: (served (n + 1) ps).2)
    | .none => ([p], [])
    | .raised => ([p], [])

inductive Replied : ℕ → List Octets → List Octets → Prop
  | nil (n : ℕ) : Replied n [] []
  | cons {n : ℕ} {p reply : Octets} {ps replies : List Octets} : handle n p = .reply reply →
      Replied (n + 1) ps replies → Replied n (p :: ps) (reply :: replies)

end Handler

section Replies

variable {handle : ℕ → Octets → Answer} {n : ℕ} {ps replies : List Octets}

lemma Replied.length_eq (h : Replied handle n ps replies) : ps.length = replies.length := by
  induction h with
  | nil => rfl
  | cons _ _ ih => rw [List.length_cons, List.length_cons, ih]

lemma Replied.concat (h : Replied handle n ps replies) {p reply : Octets}
    (hr : handle (n + replies.length) p = .reply reply) :
    Replied handle n (ps ++ [p]) (replies ++ [reply]) := by
  induction h with
  | nil => exact .cons hr (.nil _)
  | cons hp _ ih =>
    refine .cons hp (ih ?_)
    rwa [List.length_cons, Nat.add_comm _ 1, ← Nat.add_assoc] at hr

lemma Replied.served_append (h : Replied handle n ps replies) (more : List Octets) :
    served handle n (ps ++ more) = (ps ++ (served handle (n + replies.length) more).1,
      replies ++ (served handle (n + replies.length) more).2) := by
  induction h with
  | nil => rfl
  | cons hp _ ih =>
    rw [List.cons_append, served, hp, ih, List.length_cons, Nat.add_assoc, Nat.add_comm 1]
    rfl

lemma served_cons_isPrefix (p : Octets) : [p] <+: (served handle n (p :: ps)).1 := by
  rw [served]
  split <;> simp

end Replies

section Invariant

variable (handle : ℕ → Octets → Answer)

def Accounted (c : Connection) : Prop :=
  match c.phase with
  | .accepted => c.received = c.buffer ∧ c.calls = [] ∧ c.replies = []
  | .header => c.received = c.calls.flatMap (frame 2) ++ c.buffer ∧
      Replied handle 0 c.calls c.replies
  | .payload length => ∃ header, header.length = 2 ∧ decode header = length ∧ c.received =
      c.calls.flatMap (frame 2) ++ (header ++ c.buffer) ∧ Replied handle 0 c.calls c.replies
  | .handling payload => ∃ done, c.calls = done ++ [payload] ∧
      c.received = c.calls.flatMap (frame 2) ++ c.buffer ∧ Replied handle 0 done c.replies
  | .closed =>
      (∃ done payload rest, c.calls = done ++ [payload] ∧
        c.received = c.calls.flatMap (frame 2) ++ rest ∧
        Replied handle 0 done c.replies ∧ ∀ reply, handle c.replies.length payload ≠ .reply reply) ∨
      ∃ rest, c.eof = true ∧ c.received = c.calls.flatMap (frame 2) ++ rest ∧ ¬ Complete 2 rest ∧
        Replied handle 0 c.calls c.replies

structure Serving (c : Connection) : Prop where
  running : c.draining = false
  short : ∀ p ∈ c.calls, p.length < 256 ^ 2
  replyShort : ∀ r ∈ c.replies, r.length < 256 ^ 2
  written : c.written = c.replies.flatMap (frame 2)
  accounted : Accounted handle c

end Invariant

section Steps

variable {handle : ℕ → Octets → Answer} {c c' : Connection}

lemma readexactly_bytes {n : ℕ} {bs rest : Octets} (h : c.readexactly n = .bytes bs rest) :
    bs.length = n ∧ c.buffer = bs ++ rest := by
  unfold Connection.readexactly at h
  split at h
  · next hn =>
    obtain ⟨rfl, rfl⟩ := ReadResult.bytes.inj h
    exact ⟨List.length_take_of_le hn, (List.take_append_drop n c.buffer).symm⟩
  · split at h <;> cases h

lemma readexactly_incomplete {n : ℕ} (h : c.readexactly n = .incomplete) : c.buffer.length < n ∧
    c.eof = true := by
  unfold Connection.readexactly at h
  split at h
  · cases h
  · next hn =>
    split at h
    · next he => exact ⟨not_le.mp hn, he⟩
    · cases h

lemma readexactly_waiting {n : ℕ} (h : c.readexactly n = .waiting) : c.buffer.length < n := by
  unfold Connection.readexactly at h
  split at h
  · cases h
  · next hn => exact not_le.mp hn

lemma not_complete_of_short {bs : Octets} (h : bs.length < 2) : ¬ Complete 2 bs := by
  rw [Complete]
  omega

lemma not_complete_of_header {header bs : Octets} (hh : header.length = 2)
    (h : bs.length < decode header) : ¬ Complete 2 (header ++ bs) := by
  rw [Complete, List.take_left' hh, List.length_append, hh]
  omega

lemma Serving.next_phase (hs : Serving handle c) :
    (if c.draining then Phase.closed else Phase.header) = .header :=
  if_neg (by simp [hs.running])

lemma Serving.feedData (hs : Serving handle c) {chunk : Octets}
    (h : c.next handle (.feedData chunk) = some c') : Serving handle c' := by
  simp only [Connection.next] at h
  split at h
  · cases h
  · next heof =>
    obtain rfl := Option.some.inj h
    refine ⟨hs.running, hs.short, hs.replyShort, hs.written, ?_⟩
    have ha := hs.accounted
    rw [Accounted] at ha ⊢
    cases hp : c.phase with
    | accepted =>
      rw [hp] at ha
      exact ⟨by rw [ha.1], ha.2⟩
    | header =>
      rw [hp] at ha
      exact ⟨by rw [ha.1, List.append_assoc], ha.2⟩
    | payload length =>
      rw [hp] at ha
      obtain ⟨header, hl, hd, hr, hrep⟩ := ha
      exact ⟨header, hl, hd, by simp [hr], hrep⟩
    | handling payload =>
      rw [hp] at ha
      obtain ⟨done, hc, hr, hrep⟩ := ha
      exact ⟨done, hc, by rw [hr, List.append_assoc], hrep⟩
    | closed =>
      rw [hp] at ha
      rcases ha with ⟨done, payload, rest, hc, hr, hrep⟩ | ⟨rest, he, -⟩
      · exact .inl ⟨done, payload, rest ++ chunk, hc, by rw [hr, List.append_assoc], hrep⟩
      · exact absurd he heof

lemma Serving.feedEof (hs : Serving handle c) (h : c.next handle .feedEof = some c') :
    Serving handle c' := by
  simp only [Connection.next] at h
  split at h
  · cases h
  · next heof =>
    obtain rfl := Option.some.inj h
    refine ⟨hs.running, hs.short, hs.replyShort, hs.written, ?_⟩
    have ha := hs.accounted
    rw [Accounted] at ha ⊢
    cases hp : c.phase with
    | accepted | header | payload | handling =>
      rw [hp] at ha
      exact ha
    | closed =>
      rw [hp] at ha
      rcases ha with hf | ⟨rest, he, -⟩
      · exact .inl hf
      · exact absurd he heof

lemma Serving.resume_header (hs : Serving handle c) (hp : c.phase = .header)
    (h : c.resume handle = some c') : Serving handle c' := by
  have ha := hs.accounted
  rw [Accounted, hp] at ha
  obtain ⟨hr, hrep⟩ := ha
  rw [Connection.resume, hp] at h
  dsimp only at h
  split at h
  · cases h
  · next hread =>
    obtain rfl := Option.some.inj h
    obtain ⟨hl, heof⟩ := readexactly_incomplete hread
    exact ⟨hs.running, hs.short, hs.replyShort, hs.written,
      .inr ⟨c.buffer, heof, hr, not_complete_of_short hl, hrep⟩⟩
  · next header rest hread =>
    obtain rfl := Option.some.inj h
    obtain ⟨hl, hb⟩ := readexactly_bytes hread
    exact ⟨hs.running, hs.short, hs.replyShort, hs.written, header, hl, rfl, by rw [hr, hb], hrep⟩

lemma Serving.resume_payload (hs : Serving handle c) {length : ℕ} (hp : c.phase = .payload length)
    (h : c.resume handle = some c') : Serving handle c' := by
  have ha := hs.accounted
  rw [Accounted, hp] at ha
  obtain ⟨header, hl, rfl, hr, hrep⟩ := ha
  rw [Connection.resume, hp] at h
  dsimp only at h
  split at h
  · cases h
  · next hread =>
    obtain rfl := Option.some.inj h
    obtain ⟨hshort, heof⟩ := readexactly_incomplete hread
    exact ⟨hs.running, hs.short, hs.replyShort, hs.written,
      .inr ⟨header ++ c.buffer, heof, hr, not_complete_of_header hl hshort, hrep⟩⟩
  · next payload rest hread =>
    obtain rfl := Option.some.inj h
    obtain ⟨hpl, hb⟩ := readexactly_bytes hread
    refine ⟨hs.running, ?_, hs.replyShort, hs.written, c.calls, rfl, ?_, hrep⟩
    · simp only [List.mem_append, List.mem_singleton]
      rintro p (hm | rfl)
      · exact hs.short p hm
      · rw [hpl, ← hl]
        exact decode_lt header
    · simp [hr, hb, frame_of_header hl hpl]

lemma Serving.resume_handling (hs : Serving handle c)
    (hlimit : ∀ n p r, handle n p = .reply r → r.length ≤ 65535) {payload : Octets}
    (hp : c.phase = .handling payload) (h : c.resume handle = some c') : Serving handle c' := by
  have ha := hs.accounted
  rw [Accounted, hp] at ha
  obtain ⟨done, hc, hr, hrep⟩ := ha
  rw [Connection.resume, hp] at h
  dsimp only at h
  split at h
  · next reply hreply =>
    have hlen := hlimit _ _ _ hreply
    rw [Connection.write, if_neg (by omega), hs.next_phase] at h
    obtain rfl := Option.some.inj h
    refine ⟨hs.running, hs.short, ?_, ?_, hr, ?_⟩
    · simp only [List.mem_append, List.mem_singleton]
      rintro r (hm | rfl)
      · exact hs.replyShort r hm
      · omega
    · simp [hs.written, frame, u16]
    · change Replied handle 0 c.calls (c.replies ++ [reply])
      rw [hc]
      exact hrep.concat (by rwa [Nat.zero_add])
  · next hnone =>
    obtain rfl := Option.some.inj h
    exact ⟨hs.running, hs.short, hs.replyShort, hs.written,
      .inl ⟨done, payload, c.buffer, hc, hr, hrep, by simp [hnone]⟩⟩
  · next hraised =>
    obtain rfl := Option.some.inj h
    exact ⟨hs.running, hs.short, hs.replyShort, hs.written,
      .inl ⟨done, payload, c.buffer, hc, hr, hrep, by simp [hraised]⟩⟩

lemma Serving.resume (hs : Serving handle c) (hlimit : ∀ n p r, handle n p = .reply r →
      r.length ≤ 65535) (h : c.resume handle = some c') : Serving handle c' := by
  cases hp : c.phase with
  | accepted =>
    have ha := hs.accounted
    rw [Accounted, hp] at ha
    rw [Connection.resume, hp] at h
    dsimp only at h
    rw [hs.next_phase] at h
    obtain rfl := Option.some.inj h
    refine ⟨hs.running, hs.short, hs.replyShort, hs.written, ?_, ?_⟩
    · simp [ha.1, ha.2.1]
    · rw [ha.2.1, ha.2.2]
      exact .nil 0
  | header => exact hs.resume_header hp h
  | payload length => exact hs.resume_payload hp h
  | handling payload => exact hs.resume_handling hlimit hp h
  | closed =>
    rw [Connection.resume, hp] at h
    cases h

lemma serving_of_run (hlimit : ∀ n p r, handle n p = .reply r → r.length ≤ 65535) {es : List Event}
    (h : ((connection handle).restrict NoShutdown).Run es c) : Serving handle c := by
  refine h.invariant ?_ ?_
  · rintro c rfl
    exact ⟨rfl, by simp, by simp, rfl, rfl, rfl, rfl⟩
  · rintro c e c' hs ⟨hquiet, hstep⟩
    cases e with
    | feedData chunk => exact hs.feedData hstep
    | feedEof => exact hs.feedEof hstep
    | stopAccepting => exact absurd rfl hquiet
    | resume => exact hs.resume hlimit hstep

structure Progress (handle : ℕ → Octets → Answer) (c : Connection) : Prop where
  calls : c.calls <+: (served handle 0 (unframe 2 c.received).1).1
  replies : c.replies <+: (served handle 0 (unframe 2 c.received).1).2
  oneAtATime : c.calls.length ≤ c.replies.length + 1
  atRest : c.resume handle = none →
    served handle 0 (unframe 2 c.received).1 = (c.calls, c.replies)

lemma unframe_received (hs : Serving handle c) {rest : Octets}
    (hr : c.received = c.calls.flatMap (frame 2) ++ rest) :
    (unframe 2 c.received).1 = c.calls ++ (unframe 2 rest).1 := by
  rw [hr, unframe_frames_append (by decide) hs.short]

lemma progress_of_replied (hs : Serving handle c) (hrep : Replied handle 0 c.calls c.replies)
    {rest : Octets} (hr : c.received = c.calls.flatMap (frame 2) ++ rest)
    (hrest : c.resume handle = none → ¬ Complete 2 rest) : Progress handle c := by
  have hserved := hrep.served_append (unframe 2 rest).1
  rw [← unframe_received hs hr] at hserved
  refine ⟨?_, ?_, hrep.length_eq.le.trans (Nat.le_succ _), fun hn => ?_⟩
  · rw [hserved]
    exact List.prefix_append _ _
  · rw [hserved]
    exact List.prefix_append _ _
  · rw [hserved, unframe_partial (hrest hn)]
    simp [served]

lemma progress_of_called (hs : Serving handle c) {done : List Octets} {payload rest : Octets}
    (hc : c.calls = done ++ [payload]) (hrep : Replied handle 0 done c.replies)
    (hr : c.received = c.calls.flatMap (frame 2) ++ rest) (hrest : c.resume handle = none →
      ∀ reply, handle c.replies.length payload ≠ .reply reply) : Progress handle c := by
  have hserved := hrep.served_append (payload :: (unframe 2 rest).1)
  have hframes : (unframe 2 c.received).1 = done ++ payload :: (unframe 2 rest).1 := by
    rw [unframe_received hs hr, hc, List.append_assoc]
    rfl
  rw [← hframes, Nat.zero_add] at hserved
  refine ⟨?_, ?_, ?_, fun hn => ?_⟩
  · rw [hserved, hc]
    exact (List.prefix_append_right_inj done).mpr (served_cons_isPrefix payload)
  · rw [hserved]
    exact List.prefix_append _ _
  · rw [hc, List.length_append, hrep.length_eq]
    rfl
  · rw [hserved, served]
    split
    · next reply hreply => exact absurd hreply (hrest hn reply)
    · rw [hc, List.append_nil]
    · rw [hc, List.append_nil]

lemma Serving.progress (hs : Serving handle c) : Progress handle c := by
  have ha := hs.accounted
  unfold Accounted at ha
  cases hp : c.phase with
  | accepted =>
    rw [hp] at ha
    obtain ⟨hr, hc, hrep⟩ := ha
    have hreplied : Replied handle 0 c.calls c.replies := by
      rw [hc, hrep]
      exact .nil 0
    have hreceived : c.received = c.calls.flatMap (frame 2) ++ c.buffer := by
      rw [hr, hc]
      rfl
    refine progress_of_replied hs hreplied hreceived (fun hn => ?_)
    rw [Connection.resume, hp] at hn
    cases hn
  | header =>
    rw [hp] at ha
    obtain ⟨hr, hrep⟩ := ha
    refine progress_of_replied hs hrep hr (fun hn => ?_)
    rw [Connection.resume, hp] at hn
    dsimp only at hn
    split at hn
    · next hw => exact not_complete_of_short (readexactly_waiting hw)
    · cases hn
    · cases hn
  | payload length =>
    rw [hp] at ha
    obtain ⟨header, hl, rfl, hr, hrep⟩ := ha
    refine progress_of_replied hs hrep hr (fun hn => ?_)
    rw [Connection.resume, hp] at hn
    dsimp only at hn
    split at hn
    · next hw => exact not_complete_of_header hl (readexactly_waiting hw)
    · cases hn
    · cases hn
  | handling payload =>
    rw [hp] at ha
    obtain ⟨done, hc, hr, hrep⟩ := ha
    refine progress_of_called hs hc hrep hr (fun hn => ?_)
    rw [Connection.resume, hp] at hn
    dsimp only at hn
    split at hn <;> cases hn
  | closed =>
    rw [hp] at ha
    rcases ha with ⟨done, payload, rest, hc, hr, hrep, hf⟩ | ⟨rest, -, hr, hn, hrep⟩
    · exact progress_of_called hs hc hrep hr (fun _ => hf)
    · exact progress_of_replied hs hrep hr (fun _ => hn)

end Steps

section Rest

variable {handle : ℕ → Octets → Answer} {c c' : Connection}

def Connection.weight (c : Connection) : ℕ :=
  4 * c.buffer.length +
    match c.phase with
    | .closed => 0
    | .header => 1
    | .handling _ => 2
    | .payload _ => 3
    | .accepted => 4

lemma resume_decreases (h : c.resume handle = some c') : c'.weight < c.weight ∧
    c'.received = c.received := by
  unfold Connection.resume at h
  cases hp : c.phase with
  | accepted =>
    rw [hp] at h
    obtain rfl := Option.some.inj h
    cases hd : c.draining <;> simp [Connection.weight, hp]
  | header =>
    rw [hp] at h
    dsimp only at h
    split at h
    · cases h
    · obtain rfl := Option.some.inj h
      simp [Connection.weight, hp]
    · next hread =>
      obtain rfl := Option.some.inj h
      obtain ⟨hl, hb⟩ := readexactly_bytes hread
      refine ⟨?_, rfl⟩
      simp only [Connection.weight, hp, hb, List.length_append, hl]
      omega
  | payload length =>
    rw [hp] at h
    dsimp only at h
    split at h
    · cases h
    · obtain rfl := Option.some.inj h
      simp [Connection.weight, hp]
    · next hread =>
      obtain rfl := Option.some.inj h
      obtain ⟨hl, hb⟩ := readexactly_bytes hread
      refine ⟨?_, rfl⟩
      simp only [Connection.weight, hp, hb, List.length_append]
      omega
  | handling payload =>
    rw [hp] at h
    dsimp only at h
    split at h
    · obtain rfl := Option.some.inj h
      rw [Connection.write]
      split
      · simp [Connection.weight, hp]
      · cases hd : c.draining <;> simp [Connection.weight, hp]
    · obtain rfl := Option.some.inj h
      simp [Connection.weight, hp]
    · obtain rfl := Option.some.inj h
      simp [Connection.weight, hp]
  | closed =>
    rw [hp] at h
    cases h

lemma comes_to_rest (c : Connection) :
    ∃ k c', (List.replicate k Event.resume).foldlM (Connection.next handle) c = some c' ∧
      c'.received = c.received ∧ c'.resume handle = none := by
  induction hw : c.weight using Nat.strong_induction_on generalizing c with
  | h w ih =>
    cases hr : c.resume handle with
    | none => exact ⟨0, c, rfl, rfl, hr⟩
    | some c₁ =>
      obtain ⟨hlt, hreceived⟩ := resume_decreases hr
      obtain ⟨k, c', hrun, hsame, hrest⟩ := ih _ (hw ▸ hlt) c₁ rfl
      refine ⟨k + 1, c', ?_, hsame.trans hreceived, hrest⟩
      rw [List.replicate_succ, List.foldlM_cons]
      exact Option.bind_eq_some_iff.mpr ⟨c₁, hr, hrun⟩

end Rest

/-- However the bytes of a connection arrive, as long as the server is not shutting down: the
payloads of the complete frames are handed on in their order, one at a time, up to the first without
a reply; what is written are the frames of the replies; and once everything received so far has been
worked through, which takes finitely many steps, no payload is left. -/
theorem tcp_stream {handle : ℕ → Octets → Answer}
    (hlimit : ∀ n p r, handle n p = .reply r → r.length ≤ 65535) {es : List Event} {c : Connection}
    (h : ((connection handle).restrict NoShutdown).Run es c) :
    Progress handle c ∧
    c.written = c.replies.flatMap (frame 2) ∧
    unframe 2 c.written = (c.replies, []) ∧
    ∃ k c', (List.replicate k Event.resume).foldlM (Connection.next handle) c = some c' ∧
      c'.received = c.received ∧ c'.resume handle = none := by
  have hs := serving_of_run hlimit h
  refine ⟨hs.progress, hs.written, ?_, comes_to_rest c⟩
  rw [hs.written, unframe_frames (by decide) hs.replyShort]

section Sample

def oneByte (_ : ℕ) (payload : Octets) : Answer := if payload = [] then .none else .reply [7]

def inThreeChunks : List Event :=
  [.resume, .feedData [0], .feedData [2, 1, 2, 0], .resume, .resume, .resume, .feedData [0, 0, 1],
    .resume, .resume, .resume]

theorem threeChunks_served : ∃ c, ((connection oneByte).restrict NoShutdown).Run inThreeChunks c ∧
    c.calls = [[1, 2], []] ∧ Progress oneByte c := by
  have hrun : ∃ c, ((connection oneByte).restrict NoShutdown).Run inThreeChunks c ∧
      c.calls = [[1, 2], []] :=
    System.exists_run_restrict rfl (by decide +kernel)
  obtain ⟨c, hc, hcalls⟩ := hrun
  refine ⟨c, hc, hcalls, (tcp_stream ?_ hc).1⟩
  intro n p r hr
  unfold oneByte at hr
  split at hr
  · cases hr
  · obtain rfl := Answer.reply.inj hr
    decide

end Sample

end AstropathRelay.DataPlane.TcpStream
