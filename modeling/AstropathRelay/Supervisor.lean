import AstropathRelay.Lib.Runs
import AstropathRelay.Lib.SlidingWindow

/-! The supervision loop of a plane and the limiter of its restarts. The factory, the clock, the
jitter and whoever else holds the shutdown event are the environment. -/

namespace AstropathRelay.Supervisor

open Lib

structure RestartLimits where
  maxRestarts : ℕ := 5
  window : ℚ := 60
  baseBackoff : ℚ := 1 / 2
  maxBackoff : ℚ := 30

section Limiter

variable (L : RestartLimits)

def allow (events : List ℚ) (now : ℚ) : Bool × List ℚ :=
  let kept := expire L.window now events
  if L.maxRestarts ≤ kept.length then (false, kept) else (true, kept ++ [now])

def backoffDelay (count : ℕ) : ℚ := min L.maxBackoff (L.baseBackoff * 2 ^ (count - 1))

/-- The result is `none` where `2.0 ** (count - 1)` leaves the range of a double and raises
`OverflowError`. -/
def backoff (events : List ℚ) (jitter : ℚ) : Option ℚ :=
  let count := max events.length 1
  if count - 1 < 1024 then some (backoffDelay L count + jitter) else none

end Limiter

inductive Phase
  | entering
  | running
  | sleeping
  | returned
  | cancelled (asleep : Bool)
  | overflowError
deriving DecidableEq

structure Attempt where
  time : ℚ
  granted : Bool
  slept : Option ℚ
deriving DecidableEq

structure Supervised where
  now : ℚ := 0
  phase : Phase := .entering
  events : List ℚ := []
  shutdownByOthers : Bool := false
  shutdownByItself : Bool := false
  planeRestarts : ℕ := 0
  unhealthy : Bool := false
  runs : ℕ := 0
  attempts : List Attempt := []

def Supervised.isSet (s : Supervised) : Bool := s.shutdownByOthers || s.shutdownByItself

inductive Event
  | tick (now : ℚ)
  | setShutdown
  | enter
  | complete
  | crash (jitter : ℚ)
  | wake
  | cancel
deriving DecidableEq

section Loop

variable (L : RestartLimits)

def crashed (s : Supervised) (jitter : ℚ) : Supervised :=
  let s := { s with planeRestarts := s.planeRestarts + 1 }
  let (granted, events) := allow L s.events s.now
  if granted then
    match backoff L events jitter with
    | some delay =>
      { s with
        events := events
        phase := .sleeping
        attempts := s.attempts ++ [⟨s.now, true, some delay⟩] }
    | none =>
      { s with
        events := events
        phase := .overflowError
        attempts := s.attempts ++ [⟨s.now, true, none⟩] }
  else
    { s with
      events := events
      unhealthy := true
      shutdownByItself := true
      phase := .returned
      attempts := s.attempts ++ [⟨s.now, false, none⟩] }

def next (s : Supervised) : Event → Option Supervised
  | .tick now => if s.now ≤ now then some { s with now := now } else none
  | .setShutdown => some { s with shutdownByOthers := true }
  | .enter =>
    if s.phase = .entering then
      if s.isSet then some { s with phase := .returned }
        else some { s with phase := .running, runs := s.runs + 1 }
    else none
  | .complete => if s.phase = .running then some { s with phase := .returned } else none
  | .crash jitter =>
    if s.phase = .running ∧ min 0 L.baseBackoff ≤ jitter ∧
      jitter ≤ max 0 L.baseBackoff then some (crashed L s jitter)
    else none
  | .wake => if s.phase = .sleeping then some { s with phase := .entering } else none
  | .cancel =>
    if s.phase = .running then some { s with phase := .cancelled false }
    else if s.phase = .sleeping then some { s with phase := .cancelled true }
    else none

def fresh (s : Supervised) : Prop := ∃ now set, s = { now := now, shutdownByOthers := set }

def supervise : System Supervised Event := .deterministic fresh (next L)

end Loop

def grants (attempts : List Attempt) : List ℚ := (attempts.filter (·.granted)).map (·.time)

def Event.isCrash : Event → Bool
  | crash _ => true
  | _ => false

def Phase.awaitsRestart : Phase → Bool
  | entering | sleeping | cancelled true => true
  | running | returned | cancelled false | overflowError => false

section Budget

variable (L : RestartLimits)

def grantedAt (t : ℚ) (attempts : List Attempt) : ℕ :=
  (inWindow L.window t (grants attempts)).length

structure Logged (attempts : List Attempt) : Prop where
  granted_le : ∀ t, grantedAt L t attempts ≤ L.maxRestarts
  denied_iff : ∀ past a, past ++ [a] <+: attempts →
    (a.granted = false ↔ grantedAt L a.time past = L.maxRestarts)
  slept : ∀ past a delay, past ++ [a] <+: attempts → a.slept = some delay →
    delay ∈ Set.uIcc (backoffDelay L (grantedAt L a.time (past ++ [a])))
      (backoffDelay L (grantedAt L a.time (past ++ [a])) + L.baseBackoff)

/-- The restart budget is kept, and `supervise` does what the attempts it was granted or denied say.
-/
structure WithinBudget (es : List Event) (s : Supervised) : Prop extends Logged L s.attempts where
  runs_le : s.runs ≤ 1 + (grants s.attempts).length
  runs_eq : s.shutdownByOthers = false → s.phase.awaitsRestart = false →
    s.runs = 1 + (grants s.attempts).length
  never_started : s.isSet = true →
    ∀ (later : List Event) (s' : Supervised), later.foldlM (next L) s = some s' → s'.runs = s.runs
  unhealthy_iff : s.unhealthy = true ↔ ∃ a ∈ s.attempts, a.granted = false
  set_iff : s.shutdownByItself = true ↔ ∃ a ∈ s.attempts, a.granted = false
  crashes : s.planeRestarts = es.countP Event.isCrash
  asked : s.attempts.length = es.countP Event.isCrash

def InRange (s : Supervised) : Event → Prop
  | .crash _ => grantedAt L s.now s.attempts < 1024 ∨ L.maxRestarts ≤ grantedAt L s.now s.attempts
  | _ => True

variable {L} {es : List Event} {s s' : Supervised} {e : Event} {attempts : List Attempt}
  {events : List ℚ} {t : ℚ}

lemma grants_append (a : Attempt) :
    grants (attempts ++ [a]) = grants attempts ++ if a.granted then [a.time] else [] := by
  by_cases ha : a.granted <;> simp [grants, ha]

lemma grantedAt_denied {slept : Option ℚ} (now : ℚ) :
    grantedAt L t (attempts ++ [⟨now, false, slept⟩]) = grantedAt L t attempts := by
  simp [grantedAt, grants_append]

lemma allow_eq (h : Tracks L.window t events (grants attempts)) :
    allow L events t =
      if L.maxRestarts ≤ grantedAt L t attempts then (false, inWindow L.window t (grants attempts))
      else (true, inWindow L.window t (grants attempts) ++ [t]) := by
  rw [allow]
  rw [h.expire_eq]
  rfl

lemma backoffDelay_grantedAt {slept : Option ℚ} :
    backoffDelay L (grantedAt L t (attempts ++ [⟨t, true, slept⟩])) =
      backoffDelay L (grantedAt L t attempts + 1) := by
  by_cases hw : 0 < L.window
  · have hin : inWindow L.window t [t] = [t] := by simp [inWindow, hw]
    simp [grantedAt, grants_append, hin]
  · have hempty : ∀ ts : List ℚ, inWindow L.window t ts = [] := by
      intro ts
      refine List.filter_eq_nil_iff.mpr (fun u _ hu => ?_)
      have hwu := of_decide_eq_true hu
      linarith [hwu.1, hwu.2]
    simp [grantedAt, hempty, backoffDelay]

lemma crashed_denied (h : Tracks L.window s.now s.events (grants s.attempts)) (jitter : ℚ)
    (hg : L.maxRestarts ≤ grantedAt L s.now s.attempts) :
    crashed L s jitter = { s with
      planeRestarts := s.planeRestarts + 1
      events := inWindow L.window s.now (grants s.attempts)
      unhealthy := true
      shutdownByItself := true
      phase := .returned
      attempts := s.attempts ++ [⟨s.now, false, none⟩] } := by
  simp only [crashed, allow_eq h, if_pos hg]
  rfl

lemma backoff_granted (kept : List ℚ) (now jitter : ℚ) :
    backoff L (kept ++ [now]) jitter =
      if kept.length < 1024 then some (backoffDelay L (kept.length + 1) + jitter) else none := by
  have hc : max (kept ++ [now]).length 1 = kept.length + 1 := by simp
  simp only [backoff, hc, Nat.add_sub_cancel]

lemma crashed_granted (h : Tracks L.window s.now s.events (grants s.attempts)) (jitter : ℚ)
    (hg : grantedAt L s.now s.attempts < L.maxRestarts) (hr : grantedAt L s.now s.attempts < 1024) :
    crashed L s jitter = { s with
      planeRestarts := s.planeRestarts + 1
      events := inWindow L.window s.now (grants s.attempts) ++ [s.now]
      phase := .sleeping
      attempts := s.attempts ++
        [⟨s.now, true, some (backoffDelay L (grantedAt L s.now s.attempts + 1) + jitter)⟩] } := by
  have hb : backoff L (inWindow L.window s.now (grants s.attempts) ++ [s.now]) jitter =
      some (backoffDelay L (grantedAt L s.now s.attempts + 1) + jitter) := by
    rw [backoff_granted]
    exact if_pos hr
  simp only [crashed, allow_eq h, if_neg (not_le.mpr hg), hb]
  rfl

lemma crashed_overflow (h : Tracks L.window s.now s.events (grants s.attempts)) (jitter : ℚ)
    (hg : grantedAt L s.now s.attempts < L.maxRestarts) (hr : 1024 ≤ grantedAt L s.now s.attempts) :
    crashed L s jitter = { s with
      planeRestarts := s.planeRestarts + 1
      events := inWindow L.window s.now (grants s.attempts) ++ [s.now]
      phase := .overflowError
      attempts := s.attempts ++ [⟨s.now, true, none⟩] } := by
  have hb : backoff L (inWindow L.window s.now (grants s.attempts) ++ [s.now]) jitter = none := by
    rw [backoff_granted]
    exact if_neg (not_lt.mpr hr)
  simp only [crashed, allow_eq h, if_neg (not_le.mpr hg), hb]
  rfl

lemma Logged.denied {now : ℚ} (h : Logged L attempts)
    (hg : L.maxRestarts ≤ grantedAt L now attempts) :
    Logged L (attempts ++ [⟨now, false, none⟩]) := by
  refine ⟨fun t => ?_, fun past a ha => ?_, fun past a delay ha hd => ?_⟩
  · rw [grantedAt_denied]
    exact h.granted_le t
  · rcases List.prefix_concat_iff.mp ha with he | ha
    · obtain ⟨rfl, rfl⟩ := List.append_inj' he rfl |>.imp_right List.singleton_inj.mp
      exact iff_of_true rfl (le_antisymm (h.granted_le now) hg)
    · exact h.denied_iff past a ha
  · rcases List.prefix_concat_iff.mp ha with he | ha
    · obtain ⟨rfl, rfl⟩ := List.append_inj' he rfl |>.imp_right List.singleton_inj.mp
      cases hd
    · exact h.slept past a delay ha hd

lemma Logged.granted {now jitter : ℚ} (h : Logged L attempts) (hle : ∀ t ∈ grants attempts, t ≤ now)
    (hg : grantedAt L now attempts < L.maxRestarts)
    (hj : min 0 L.baseBackoff ≤ jitter ∧ jitter ≤ max 0 L.baseBackoff) : Logged L (attempts ++
      [⟨now, true, some (backoffDelay L (grantedAt L now attempts + 1) + jitter)⟩]) := by
  refine ⟨fun t => ?_, fun past a ha => ?_, fun past a delay ha hd => ?_⟩
  · simpa [grantedAt, grants_append] using length_inWindow_push hle h.granted_le hg t
  · rcases List.prefix_concat_iff.mp ha with he | ha
    · obtain ⟨rfl, rfl⟩ := List.append_inj' he rfl |>.imp_right List.singleton_inj.mp
      exact iff_of_false (by simp) hg.ne
    · exact h.denied_iff past a ha
  · rcases List.prefix_concat_iff.mp ha with he | ha
    · obtain ⟨rfl, rfl⟩ := List.append_inj' he rfl |>.imp_right List.singleton_inj.mp
      obtain rfl := Option.some.inj hd
      rw [backoffDelay_grantedAt, Set.mem_uIcc]
      rcases le_total 0 L.baseBackoff with hb | hb
      · rw [min_eq_left hb, max_eq_right hb] at hj
        exact .inl ⟨by linarith [hj.1], by linarith [hj.2]⟩
      · rw [min_eq_right hb, max_eq_left hb] at hj
        exact .inr ⟨by linarith [hj.1], by linarith [hj.2]⟩
    · exact h.slept past a delay ha hd

structure Inv (L : RestartLimits) (es : List Event) (s : Supervised) : Prop where
  tracks : Tracks L.window s.now s.events (grants s.attempts)
  logged : Logged L s.attempts
  gave_up : s.shutdownByItself = true → s.phase = .returned
  runs_le : s.runs + (if s.phase.awaitsRestart then 1 else 0) ≤ 1 + (grants s.attempts).length
  runs_eq : s.shutdownByOthers = false →
    s.runs + (if s.phase.awaitsRestart then 1 else 0) = 1 + (grants s.attempts).length
  unhealthy_eq : s.unhealthy = s.shutdownByItself
  set_iff : s.shutdownByItself = true ↔ ∃ a ∈ s.attempts, a.granted = false
  crashes : s.planeRestarts = es.countP Event.isCrash
  asked : s.attempts.length = es.countP Event.isCrash

inductive Moves (s : Supervised) : Supervised → Prop
  | tick {now : ℚ} : s.now ≤ now → Moves s { s with now := now }
  | set : Moves s { s with shutdownByOthers := true }
  | start : s.phase = .entering → s.isSet = false →
      Moves s { s with phase := .running, runs := s.runs + 1 }
  | leave : s.phase = .entering → s.isSet = true → Moves s { s with phase := .returned }
  | stay {phase : Phase} : s.phase.awaitsRestart = phase.awaitsRestart →
    (s.phase = .running ∨ s.phase = .sleeping) → Moves s { s with phase := phase }

lemma moves_of_next (hs : next L s e = some s') (he : e.isCrash = false) : Moves s s' := by
  cases e with
  | tick now =>
    simp only [next] at hs
    split_ifs at hs with hn
    obtain rfl := Option.some.inj hs
    exact .tick hn
  | setShutdown =>
    obtain rfl := Option.some.inj hs
    exact .set
  | enter =>
    simp only [next] at hs
    split_ifs at hs with hp hset
    · obtain rfl := Option.some.inj hs
      exact .leave hp hset
    · obtain rfl := Option.some.inj hs
      exact .start hp (by simpa using hset)
  | complete =>
    simp only [next] at hs
    split_ifs at hs with hp
    obtain rfl := Option.some.inj hs
    exact .stay (by rw [hp]; rfl) (.inl hp)
  | crash jitter => cases he
  | wake =>
    simp only [next] at hs
    split_ifs at hs with hp
    obtain rfl := Option.some.inj hs
    exact .stay (by rw [hp]; rfl) (.inr hp)
  | cancel =>
    simp only [next] at hs
    split_ifs at hs with hp hp'
    · obtain rfl := Option.some.inj hs
      exact .stay (by rw [hp]; rfl) (.inl hp)
    · obtain rfl := Option.some.inj hs
      exact .stay (by rw [hp']; rfl) (.inr hp')

lemma Inv.moves (h : Inv L es s) (hm : Moves s s') (he : e.isCrash = false) :
    Inv L (es ++ [e]) s' := by
  have hc : (es ++ [e]).countP Event.isCrash = es.countP Event.isCrash := by
    simp [List.countP_append, he]
  have hcrashes : s.planeRestarts = (es ++ [e]).countP Event.isCrash := by rw [hc, h.crashes]
  have hasked : s.attempts.length = (es ++ [e]).countP Event.isCrash := by rw [hc, h.asked]
  cases hm with
  | tick hn => exact { h with tracks := h.tracks.later hn, crashes := hcrashes, asked := hasked }
  | set => exact { h with runs_eq := by simp, crashes := hcrashes, asked := hasked }
  | start hp hset =>
    have hle := h.runs_le
    have heq := h.runs_eq
    have hno : s.shutdownByItself = false := (Bool.or_eq_false_iff.mp hset).2
    simp only [hp, Phase.awaitsRestart, if_true] at hle heq
    exact { h with
      gave_up := by simp [hno]
      runs_le := by simpa [Phase.awaitsRestart] using hle
      runs_eq := by simpa [Phase.awaitsRestart] using heq
      crashes := hcrashes
      asked := hasked }
  | leave hp hset =>
    have hle := h.runs_le
    have hby : s.shutdownByOthers = true := by
      rcases Bool.or_eq_true_iff.mp hset with ho | hi
      · exact ho
      · rw [h.gave_up hi] at hp
        cases hp
    exact { h with
      gave_up := fun _ => rfl
      runs_le := by
        simp only [Phase.awaitsRestart, Bool.false_eq_true, if_false]
        omega
      runs_eq := by simp [hby]
      crashes := hcrashes
      asked := hasked }
  | stay hp hr =>
    have hno : s.shutdownByItself ≠ true := by
      intro hi
      rw [h.gave_up hi] at hr
      simp at hr
    exact { h with
      gave_up := fun hi => absurd hi hno
      runs_le := by simpa only [← hp] using h.runs_le
      runs_eq := by simpa only [← hp] using h.runs_eq
      crashes := hcrashes
      asked := hasked }

lemma Inv.denied (h : Inv L es s) (jitter : ℚ) (hr : s.phase = .running)
    (hg : L.maxRestarts ≤ grantedAt L s.now s.attempts) :
    Inv L (es ++ [.crash jitter]) (crashed L s jitter) := by
  have hle := h.runs_le
  have heq := h.runs_eq
  simp only [hr, Phase.awaitsRestart] at hle heq
  rw [crashed_denied h.tracks jitter hg]
  refine ⟨?_, h.logged.denied hg, fun _ => rfl, ?_, ?_, rfl, ?_, ?_, ?_⟩
  · simpa [grants_append, h.tracks.expire_eq] using h.tracks.expire
  · simpa [grants_append, Phase.awaitsRestart] using hle
  · simpa [grants_append, Phase.awaitsRestart] using heq
  · simp
  · simp [List.countP_append, Event.isCrash, h.crashes]
  · simp [List.countP_append, Event.isCrash, h.asked]

lemma Inv.granted {jitter : ℚ} (h : Inv L es s) (hr : s.phase = .running)
    (hj : min 0 L.baseBackoff ≤ jitter ∧ jitter ≤ max 0 L.baseBackoff)
    (hg : grantedAt L s.now s.attempts < L.maxRestarts) (hd : grantedAt L s.now s.attempts < 1024) :
    Inv L (es ++ [.crash jitter]) (crashed L s jitter) := by
  have hle := h.runs_le
  have heq := h.runs_eq
  have hno : s.shutdownByItself ≠ true := by
    intro hi
    rw [h.gave_up hi] at hr
    cases hr
  have hset := h.set_iff
  simp only [hr, Phase.awaitsRestart] at hle heq
  rw [crashed_granted h.tracks jitter hg hd]
  refine ⟨?_, h.logged.granted h.tracks.recorded_le hg hj, fun hi => absurd hi hno, ?_, ?_,
    h.unhealthy_eq, ?_, ?_, ?_⟩
  · simpa [grants_append, h.tracks.expire_eq] using h.tracks.expire.push
  · simpa [grants_append, Phase.awaitsRestart, ← add_assoc, Nat.lt_succ_iff] using hle
  · simpa [grants_append, Phase.awaitsRestart, ← add_assoc] using heq
  · simpa using hset
  · simp [List.countP_append, Event.isCrash, h.crashes]
  · simp [List.countP_append, Event.isCrash, h.asked]

lemma crash_of_next {jitter : ℚ} (hs : next L s (.crash jitter) = some s') : s.phase = .running ∧
    (min 0 L.baseBackoff ≤ jitter ∧ jitter ≤ max 0 L.baseBackoff) ∧ s' = crashed L s jitter := by
  simp only [next] at hs
  split_ifs at hs with hc
  exact ⟨hc.1, hc.2, (Option.some.inj hs).symm⟩

lemma Inv.next (h : Inv L es s) (hp : InRange L s e) (hs : next L s e = some s') :
    Inv L (es ++ [e]) s' := by
  by_cases he : e.isCrash
  · cases e with
    | crash jitter =>
      obtain ⟨hr, hj, rfl⟩ := crash_of_next hs
      by_cases hg : L.maxRestarts ≤ grantedAt L s.now s.attempts
      · exact h.denied jitter hr hg
      · rcases hp with hd | hd
        · exact h.granted hr hj (not_le.mp hg) hd
        · exact absurd hd hg
    | _ => cases he
  · exact h.moves (moves_of_next hs (by simpa using he)) (by simpa using he)

lemma inv_of_run (h : ((supervise L).restrict (InRange L)).Run es s) : Inv L es s := by
  induction h with
  | init h =>
    obtain ⟨now, set, rfl⟩ := h
    refine ⟨.nil, ⟨fun _ => Nat.zero_le _, ?_, ?_⟩, by simp, by simp [Phase.awaitsRestart, grants],
      by simp [Phase.awaitsRestart, grants], rfl, by simp, rfl, rfl⟩
    · simp
    · simp
  | step _ hs ih => exact ih.next hs.1 hs.2

lemma isSet_next (hset : s.isSet = true) (hs : next L s e = some s') : s'.isSet = true ∧
    s'.runs = s.runs := by
  by_cases he : e.isCrash
  · cases e with
    | crash jitter =>
      obtain ⟨-, -, rfl⟩ := crash_of_next hs
      simp only [crashed]
      split_ifs
      · split
        · exact ⟨hset, rfl⟩
        · exact ⟨hset, rfl⟩
      · exact ⟨Bool.or_true _, rfl⟩
    | _ => cases he
  · cases moves_of_next hs (by simpa using he) with
    | tick | leave | stay => exact ⟨hset, rfl⟩
    | set => exact ⟨rfl, rfl⟩
    | start _ hn =>
      rw [hset] at hn
      cases hn

lemma runs_of_isSet (hset : s.isSet = true) (later : List Event)
    (h : later.foldlM (Supervisor.next L) s = some s') : s'.runs = s.runs := by
  induction later generalizing s with
  | nil =>
    obtain rfl := Option.some.inj h
    rfl
  | cons e later ih =>
    obtain ⟨t, ht, h⟩ := Option.bind_eq_some_iff.mp h
    obtain ⟨hset, hruns⟩ := isSet_next hset ht
    rw [ih hset h, hruns]

lemma withinBudget_of_inv (h : Inv L es s) : WithinBudget L es s where
  toLogged := h.logged
  runs_le := le_trans (Nat.le_add_right _ _) h.runs_le
  runs_eq ho ha := by simpa [ha] using h.runs_eq ho
  never_started hset later s' hl := runs_of_isSet hset later hl
  unhealthy_iff := by rw [h.unhealthy_eq, h.set_iff]
  set_iff := h.set_iff
  crashes := h.crashes
  asked := h.asked

lemma inRange_of_maxRestarts_le (hm : L.maxRestarts ≤ 1024) (s : Supervised)
    (e : Event) : InRange L s e := by
  cases e with
  | crash jitter =>
    rcases lt_or_ge (grantedAt L s.now s.attempts) 1024 with hd | hd
    · exact .inl hd
    · exact .inr (hm.trans hd)
  | _ => trivial

lemma Inv.overflow {jitter : ℚ} (h : Inv L es s) (ho : s.shutdownByOthers = false)
    (hn : ¬ InRange L s (.crash jitter)) (hs : Supervisor.next L s (.crash jitter) = some s') :
    s'.phase = .overflowError ∧ s'.runs = (grants s'.attempts).length ∧
      ¬ WithinBudget L (es ++ [.crash jitter]) s' := by
  obtain ⟨hr, -, rfl⟩ := crash_of_next hs
  obtain ⟨hd, hg⟩ := not_or.mp hn
  have heq := h.runs_eq ho
  simp only [hr, Phase.awaitsRestart, Bool.false_eq_true, if_false, add_zero] at heq
  rw [crashed_overflow h.tracks jitter (not_le.mp hg) (not_lt.mp hd)]
  have hruns : s.runs = (grants (s.attempts ++ [⟨s.now, true, none⟩])).length := by
    rw [grants_append, heq, if_pos rfl, List.length_append, List.length_singleton, Nat.add_comm]
  refine ⟨rfl, hruns, fun hw => ?_⟩
  have hone : s.runs = 1 + (grants (s.attempts ++ [⟨s.now, true, none⟩])).length :=
    hw.runs_eq ho rfl
  omega

/-- A run keeps the budget as long as no crash comes with 1024 restarts granted in the window and
budget left. Such a crash ends `supervise` with an `OverflowError`, its restart granted and never
run. -/
theorem restarts_within_budget (L : RestartLimits) {es : List Event} {s : Supervised}
    (h : ((supervise L).restrict (InRange L)).Run es s) :
    WithinBudget L es s ∧
    ∀ jitter s', s.shutdownByOthers = false → ¬ InRange L s (.crash jitter) →
      next L s (.crash jitter) = some s' →
        s'.phase = .overflowError ∧ ¬ WithinBudget L (es ++ [.crash jitter]) s' := by
  have hi := inv_of_run h
  refine ⟨withinBudget_of_inv hi, fun jitter s' ho hn hs => ?_⟩
  obtain ⟨hp, -, hw⟩ := hi.overflow ho hn hs
  exact ⟨hp, hw⟩

end Budget

instance (L : RestartLimits) (s : Supervised) (e : Event) : Decidable (InRange L s e) := by
  cases e <;> unfold InRange <;> infer_instance

def deniedEvents : List Event :=
  [.enter, .tick 1, .crash (1 / 4), .tick 2, .wake, .enter, .tick 62, .crash 0, .wake, .enter,
    .tick 63, .crash 0]

theorem denied_within_budget : ∃ s,
    ((supervise { maxRestarts := 1 }).restrict (InRange { maxRestarts := 1 })).Run deniedEvents s ∧
    s.runs = 3 ∧ s.unhealthy = true ∧ WithinBudget { maxRestarts := 1 } deniedEvents s := by
  obtain ⟨s, hr, he⟩ : ∃ s, ((supervise { maxRestarts := 1 }).restrict
      (InRange { maxRestarts := 1 })).Run deniedEvents s ∧ (s.runs, s.unhealthy) = (3, true) :=
    System.exists_run_restrict ⟨0, false, rfl⟩ (by decide +kernel)
  obtain ⟨hruns, hun⟩ := Prod.mk.inj he
  exact ⟨s, hr, hruns, hun, (restarts_within_budget { maxRestarts := 1 } hr).1⟩

def flapping : RestartLimits := { maxRestarts := 1025 }

def flaps (n : ℕ) : List Event := (List.replicate n [.enter, .crash 0, .wake]).flatten

lemma run_enter {L : RestartLimits} {es : List Event} {s : Supervised}
    (h : ((supervise L).restrict (InRange L)).Run es s) (hp : s.phase = .entering)
    (hset : s.isSet = false) : ((supervise L).restrict (InRange L)).Run (es ++ [.enter]) { s with
      phase := .running, runs := s.runs + 1 } := by
  have henter : next L s .enter = some { s with phase := .running, runs := s.runs + 1 } := by
    simp [next, hp, hset]
  exact h.step (e := Event.enter) ⟨trivial, henter⟩

lemma next_wake {L : RestartLimits} {s : Supervised} (hp : s.phase = .sleeping) :
    next L s .wake = some { s with phase := .entering } :=
  if_pos hp

lemma next_flap {s : Supervised} (hp : s.phase = .running) :
    next flapping s (.crash 0) = some (crashed flapping s 0) :=
  if_pos ⟨hp, by simp [flapping], by simp [flapping]⟩

lemma grantedAt_flaps {n : ℕ} {attempts : List Attempt} (h : grants attempts = List.replicate n 0) :
    grantedAt flapping 0 attempts = n := by
  simp [grantedAt, h, inWindow, flapping]

lemma exists_flaps {n : ℕ} (hn : n ≤ 1024) :
    ∃ s, ((supervise flapping).restrict (InRange flapping)).Run (flaps n) s ∧ s.phase = .entering ∧
      s.now = 0 ∧ s.isSet = false ∧ grants s.attempts = List.replicate n 0 := by
  induction n with
  | zero => exact ⟨{}, .init ⟨0, false, rfl⟩, rfl, rfl, rfl, rfl⟩
  | succ n ih =>
    obtain ⟨s, hr, hp, ht, hset, hg⟩ := ih (by omega)
    have hat : grantedAt flapping s.now s.attempts = n := by
      rw [ht]
      exact grantedAt_flaps hg
    have hrun := run_enter hr hp hset
    have hfail := next_flap (s := { s with phase := .running, runs := s.runs + 1 }) rfl
    have hlt : n < 1025 := by omega
    rw [crashed_granted (inv_of_run hrun).tracks 0 (hat.trans_lt hlt) (hat.trans_lt hn)] at hfail
    have hrun := hrun.step (e := Event.crash 0) ⟨.inl (hat.trans_lt hn), hfail⟩
    have hrun := hrun.step (e := Event.wake) ⟨trivial, next_wake rfl⟩
    have hes : flaps (n + 1) = flaps n ++ [.enter] ++ [.crash 0] ++ [.wake] := by
      simp [flaps, List.replicate_succ']
    rw [hes]
    refine ⟨_, hrun, rfl, ht, hset, ?_⟩
    simp [grants_append, hg, ht, List.replicate_succ']

theorem flapping_overflows :
    ∃ s, (supervise flapping).Run (flaps 1024 ++ [.enter] ++ [.crash 0]) s ∧ s.isSet = false ∧
      s.phase = .overflowError ∧ s.runs = 1025 ∧ (grants s.attempts).length = 1025 ∧
      ¬ WithinBudget flapping (flaps 1024 ++ [.enter] ++ [.crash 0]) s := by
  obtain ⟨s, hr, hp, ht, hset, hg⟩ := exists_flaps (le_refl 1024)
  have hat : grantedAt flapping s.now s.attempts = 1024 := by
    rw [ht]
    exact grantedAt_flaps hg
  have hrun := run_enter hr hp hset
  have hfail := next_flap (s := { s with phase := .running, runs := s.runs + 1 }) rfl
  have hn : ¬ InRange flapping { s with phase := .running, runs := s.runs + 1 } (.crash 0) := by
    rintro (hd | hd)
    · exact absurd (hat.symm.trans_lt hd) (lt_irrefl _)
    · exact absurd (hd.trans_eq hat) (by decide)
  have ho := (Bool.or_eq_false_iff.mp hset).1
  obtain ⟨hph, hruns, hw⟩ := (inv_of_run hrun).overflow ho hn hfail
  have hc := crashed_overflow (inv_of_run hrun).tracks 0 (hat.trans_lt (by decide)) hat.ge
  have hlen : (grants (crashed flapping { s with
      phase := .running, runs := s.runs + 1 } 0).attempts).length = 1025 := by
    rw [hc, grants_append, hg, if_pos rfl, List.length_append, List.length_replicate,
      List.length_singleton]
  refine ⟨_, hrun.of_restrict.step hfail, ?_, hph, hruns.trans hlen, hlen, hw⟩
  rw [hc]
  exact hset

end AstropathRelay.Supervisor
