import AstropathRelay.Lib.Runs

/-! The login limiter under overlapping requests. A login is checked and its password verified in
one stretch; the outcome is recorded when the verification is back. -/

namespace AstropathRelay.Api

open Lib

structure Limits where
  maxAttempts : ℕ := 5
  window : ℚ := 300
  baseLockout : ℚ := 60
  maxLockout : ℚ := 3600
  globalMaxAttempts : ℕ := 20

structure Limiter where
  failures : String → List ℚ := fun _ => []
  lockedUntil : String → Option ℚ := fun _ => none
  global : List ℚ := []
  globalLockedUntil : ℚ := 0

section Limiter

variable (L : Limits)

def prune (events : List ℚ) (now : ℚ) : List ℚ := events.dropWhile (· ≤ now - L.window)

def Limiter.isAllowed (l : Limiter) (key : String) (now : ℚ) : Bool :=
  if now < l.globalLockedUntil then false else (l.lockedUntil key).getD 0 ≤ now

def lockout (failed : ℕ) : ℚ := min L.maxLockout (L.baseLockout * 2 ^ (failed - L.maxAttempts))

inductive Recorded
  | returned
  | overflowError
deriving DecidableEq

/-- The call raises where `2.0 ** over` leaves the range of a double, with the failure recorded and
no lockout set. -/
def Limiter.recordFailure (l : Limiter) (key : String) (now : ℚ) : Limiter × Recorded :=
  let events := prune L (l.failures key ++ [now]) now
  let global := prune L (l.global ++ [now]) now
  let l := { l with failures := Function.update l.failures key events, global := global }
  if L.maxAttempts + 1024 ≤ events.length then (l, .overflowError)
  else
    ({ l with
        lockedUntil :=
          if L.maxAttempts ≤ events.length then
            Function.update l.lockedUntil key (some (now + lockout L events.length))
          else l.lockedUntil
        globalLockedUntil :=
          if L.globalMaxAttempts ≤ global.length then now + L.baseLockout
            else l.globalLockedUntil },
      .returned)

def Limiter.recordSuccess (l : Limiter) (key : String) : Limiter :=
  { l with
    failures := Function.update l.failures key []
    lockedUntil := Function.update l.lockedUntil key none }

section RecordFailure

variable (l : Limiter) (key : String) (now : ℚ)

lemma recordFailure_overflow
    (h : L.maxAttempts + 1024 ≤ (prune L (l.failures key ++ [now]) now).length) :
    l.recordFailure L key now = ({ l with
          failures := Function.update l.failures key (prune L (l.failures key ++ [now]) now)
          global := prune L (l.global ++ [now]) now }, .overflowError) :=
  if_pos h

lemma recordFailure_inRange
    (h : (prune L (l.failures key ++ [now]) now).length < L.maxAttempts + 1024) :
    l.recordFailure L key now =
      ({ failures := Function.update l.failures key (prune L (l.failures key ++ [now]) now)
         lockedUntil :=
          if L.maxAttempts ≤ (prune L (l.failures key ++ [now]) now).length then
            Function.update l.lockedUntil key
              (some (now + lockout L (prune L (l.failures key ++ [now]) now).length))
          else l.lockedUntil
         global := prune L (l.global ++ [now]) now
         globalLockedUntil :=
          if L.globalMaxAttempts ≤ (prune L (l.global ++ [now]) now).length then now + L.baseLockout
          else l.globalLockedUntil },
        .returned) :=
  if_neg (not_le.mpr h)

lemma recordFailure_failures :
    (l.recordFailure L key now).1.failures =
      Function.update l.failures key (prune L (l.failures key ++ [now]) now) := by
  rcases lt_or_ge (prune L (l.failures key ++ [now]) now).length (L.maxAttempts + 1024) with h | h
  · rw [recordFailure_inRange L l key now h]
  · rw [recordFailure_overflow L l key now h]

lemma recordFailure_global :
    (l.recordFailure L key now).1.global = prune L (l.global ++ [now]) now := by
  rcases lt_or_ge (prune L (l.failures key ++ [now]) now).length (L.maxAttempts + 1024) with h | h
  · rw [recordFailure_inRange L l key now h]
  · rw [recordFailure_overflow L l key now h]

lemma recordFailure_lockedUntil :
    (l.recordFailure L key now).1.lockedUntil =
      if L.maxAttempts ≤ (prune L (l.failures key ++ [now]) now).length ∧
          (prune L (l.failures key ++ [now]) now).length < L.maxAttempts + 1024 then
        Function.update l.lockedUntil key
          (some (now + lockout L (prune L (l.failures key ++ [now]) now).length))
      else l.lockedUntil := by
  rcases lt_or_ge (prune L (l.failures key ++ [now]) now).length (L.maxAttempts + 1024) with h | h
  · simp only [recordFailure_inRange L l key now h, h, and_true]
  · rw [recordFailure_overflow L l key now h, if_neg (fun hn => absurd hn.2 (not_lt.mpr h))]

lemma recordFailure_globalLockedUntil :
    (l.recordFailure L key now).1.globalLockedUntil = l.globalLockedUntil ∨
      (l.recordFailure L key now).1.globalLockedUntil = now + L.baseLockout := by
  rcases lt_or_ge (prune L (l.failures key ++ [now]) now).length (L.maxAttempts + 1024) with h | h
  · rw [recordFailure_inRange L l key now h]
    by_cases hg : L.globalMaxAttempts ≤ (prune L (l.global ++ [now]) now).length
    · exact .inr (if_pos hg)
    · exact .inl (if_neg hg)
  · rw [recordFailure_overflow L l key now h]
    exact .inl rfl

lemma recordFailure_returned :
    (l.recordFailure L key now).2 = .returned ↔
      (prune L (l.failures key ++ [now]) now).length < L.maxAttempts + 1024 := by
  rcases lt_or_ge (prune L (l.failures key ++ [now]) now).length (L.maxAttempts + 1024) with h | h
  · rw [recordFailure_inRange L l key now h]
    exact iff_of_true rfl h
  · rw [recordFailure_overflow L l key now h]
    exact iff_of_false nofun (not_lt.mpr h)

end RecordFailure

lemma prune_eq_self {events : List ℚ} {now : ℚ} (h : ∀ t ∈ events, now - L.window < t) :
    prune L events now = events := by
  rw [prune]
  cases events with
  | nil => rfl
  | cons t ts =>
    have ht : ¬ t ≤ now - L.window := not_le.mpr (h t (by simp))
    rw [List.dropWhile_cons_of_neg (by simpa using ht)]

end Limiter

structure Logins where
  now : ℚ := 0
  limiter : Limiter := {}
  verifying : List String := []
  started : String → ℕ := fun _ => 0

inductive LoginEvent
  | tick (now : ℚ)
  | request (source : String)
  | wrong (source : String)
  | right (source : String)
deriving DecidableEq

section Runs

variable (L : Limits)

def loginNext (s : Logins) : LoginEvent → Option Logins
  | .tick now => if s.now ≤ now then some { s with now := now } else none
  | .request source =>
    if s.limiter.isAllowed source s.now then
      some { s with
        verifying := source :: s.verifying
        started := Function.update s.started source (s.started source + 1) }
    else some s
  | .wrong source =>
    if source ∈ s.verifying then
      some { s with
        verifying := s.verifying.erase source
        limiter := (s.limiter.recordFailure L source s.now).1 }
    else none
  | .right source =>
    if source ∈ s.verifying then
      some { s with
        verifying := s.verifying.erase source
        limiter := s.limiter.recordSuccess source }
    else none

def logins : System Logins LoginEvent := .deterministic (· = {}) (loginNext L)

def BoundedAttempts (key : String) (s : Logins) : Prop :=
  s.limiter.lockedUntil key = none → s.started key ≤ L.maxAttempts

/-- A request of the source is admitted only when no verification of it is under way, and none of
its failures leaves the window before the next one. -/
def InTurn (key : String) (s : Logins) : LoginEvent → Prop
  | .tick _ => True
  | .request source => source = key → s.limiter.isAllowed key s.now → key ∉ s.verifying
  | .wrong source => source = key → ∀ t ∈ s.limiter.failures key ++ [s.now], s.now - L.window < t
  | .right source => source ≠ key

instance (key : String) (s : Logins) (e : LoginEvent) : Decidable (InTurn L key s e) := by
  cases e <;> unfold InTurn <;> infer_instance

structure Counted (key : String) (s : Logins) : Prop where
  alone : s.verifying.count key ≤ 1
  fewer : s.limiter.lockedUntil key = none → (s.limiter.failures key).length < L.maxAttempts
  started : s.limiter.lockedUntil key = none →
    s.started key = (s.limiter.failures key).length + s.verifying.count key

variable {L} {key : String} {s s' : Logins}

lemma lockedUntil_recordFailure_of_ne {l : Limiter} {source : String} (h : source ≠ key) (now : ℚ) :
    (l.recordFailure L source now).1.lockedUntil key = l.lockedUntil key := by
  rw [recordFailure_lockedUntil]
  split_ifs
  · exact Function.update_of_ne h.symm _ _
  · rfl

lemma failures_recordFailure_of_ne {l : Limiter} {source : String} (h : source ≠ key) (now : ℚ) :
    (l.recordFailure L source now).1.failures key = l.failures key := by
  rw [recordFailure_failures, Function.update_of_ne h.symm]

lemma failures_recordFailure {l : Limiter} {now : ℚ}
    (h : ∀ t ∈ l.failures key ++ [now], now - L.window < t) :
    (l.recordFailure L key now).1.failures key = l.failures key ++ [now] := by
  rw [recordFailure_failures, Function.update_self, prune_eq_self L h]

lemma lockedUntil_of_recordFailure {l : Limiter} {now : ℚ}
    (h : (l.recordFailure L key now).1.lockedUntil key = none) : l.lockedUntil key = none := by
  rw [recordFailure_lockedUntil] at h
  split_ifs at h
  · simp at h
  · exact h

lemma length_of_recordFailure {l : Limiter} {now : ℚ}
    (h : (l.recordFailure L key now).1.lockedUntil key = none)
    (hfew : (l.failures key).length < L.maxAttempts)
    (hin : ∀ t ∈ l.failures key ++ [now], now - L.window < t) :
    (l.failures key).length + 1 < L.maxAttempts := by
  by_contra hn
  rw [recordFailure_lockedUntil, prune_eq_self L hin] at h
  have hlocks : L.maxAttempts ≤ (l.failures key ++ [now]).length ∧
      (l.failures key ++ [now]).length < L.maxAttempts + 1024 := by
    rw [List.length_append, List.length_singleton]
    omega
  rw [if_pos hlocks, Function.update_self] at h
  cases h

lemma Counted.request {source : String} (h : Counted L key s)
    (hp : InTurn L key s (.request source))
    (hs : loginNext L s (.request source) = some s') : Counted L key s' := by
  simp only [loginNext] at hs
  split_ifs at hs with ha
  · obtain rfl := Option.some.inj hs
    by_cases hk : source = key
    · subst hk
      have hnone := List.count_eq_zero.mpr (hp rfl ha)
      refine ⟨?_, h.fewer, fun hl => ?_⟩
      · rw [List.count_cons_self, hnone]
      · have hstarted := h.started hl
        simp only [Function.update_self, List.count_cons_self]
        omega
    · refine ⟨?_, h.fewer, fun hl => ?_⟩
      · rw [List.count_cons_of_ne hk]
        exact h.alone
      · simp only [Function.update_of_ne (Ne.symm hk), List.count_cons_of_ne hk]
        exact h.started hl
  · obtain rfl := Option.some.inj hs
    exact h

lemma Counted.wrong {source : String} (h : Counted L key s) (hp : InTurn L key s (.wrong source))
    (hs : loginNext L s (.wrong source) = some s') : Counted L key s' := by
  simp only [loginNext] at hs
  split_ifs at hs with hm
  obtain rfl := Option.some.inj hs
  by_cases hk : source = key
  · subst hk
    have hpos := List.count_pos_iff.mpr hm
    have halone := h.alone
    refine ⟨?_, fun hl => ?_, fun hl => ?_⟩
    · rw [List.count_erase_self]
      omega
    · rw [failures_recordFailure (hp rfl), List.length_append, List.length_singleton]
      exact length_of_recordFailure hl (h.fewer (lockedUntil_of_recordFailure hl)) (hp rfl)
    · have hstarted := h.started (lockedUntil_of_recordFailure hl)
      simp only [failures_recordFailure (hp rfl), List.length_append, List.length_singleton,
        List.count_erase_self]
      omega
  · refine ⟨?_, fun hl => ?_, fun hl => ?_⟩
    · rw [List.count_erase_of_ne (Ne.symm hk)]
      exact h.alone
    · rw [lockedUntil_recordFailure_of_ne hk] at hl
      rw [failures_recordFailure_of_ne hk]
      exact h.fewer hl
    · rw [lockedUntil_recordFailure_of_ne hk] at hl
      rw [failures_recordFailure_of_ne hk, List.count_erase_of_ne (Ne.symm hk)]
      exact h.started hl

lemma Counted.right {source : String} (h : Counted L key s) (hk : source ≠ key)
    (hs : loginNext L s (.right source) = some s') : Counted L key s' := by
  simp only [loginNext] at hs
  split_ifs at hs with hm
  obtain rfl := Option.some.inj hs
  refine ⟨?_, fun hl => ?_, fun hl => ?_⟩
  · rw [List.count_erase_of_ne (Ne.symm hk)]
    exact h.alone
  · simp only [Limiter.recordSuccess, Function.update_of_ne (Ne.symm hk)] at hl ⊢
    exact h.fewer hl
  · simp only [Limiter.recordSuccess, Function.update_of_ne (Ne.symm hk)] at hl ⊢
    rw [List.count_erase_of_ne (Ne.symm hk)]
    exact h.started hl

lemma counted_of_run (hmax : 0 < L.maxAttempts) {es : List LoginEvent}
    (h : ((logins L).restrict (InTurn L key)).Run es s) : Counted L key s := by
  refine System.Run.invariant (I := Counted L key) ?_ ?_ h
  · rintro s rfl
    exact ⟨Nat.zero_le _, fun _ => hmax, fun _ => rfl⟩
  · rintro s e s' hi ⟨hp, hs⟩
    cases e with
    | tick now =>
      simp only [logins, System.deterministic, loginNext] at hs
      split_ifs at hs
      obtain rfl := Option.some.inj hs
      exact ⟨hi.alone, hi.fewer, hi.started⟩
    | request source => exact hi.request hp hs
    | wrong source => exact hi.wrong hp hs
    | right source => exact hi.right hp hs

lemma run_overlapping {es : List LoginEvent} (h : (logins L).Run es s)
    (ha : s.limiter.isAllowed key s.now) (n : ℕ) :
    ∃ s', (logins L).Run (es ++ List.replicate n (.request key)) s' ∧ s'.limiter = s.limiter ∧
      s'.now = s.now ∧ s'.started key = s.started key + n := by
  induction n with
  | zero => exact ⟨s, by simpa using h, rfl, rfl, rfl⟩
  | succ n ih =>
    obtain ⟨s₁, hr, hl, hn, hst⟩ := ih
    rw [List.replicate_succ', ← List.append_assoc]
    refine ⟨_, hr.step (if_pos ?_), hl, hn, ?_⟩
    · rw [hl, hn]
      exact ha
    · simp only [Function.update_self, hst, Nat.add_assoc]

/-- No more than `max_attempts` verifications of a source start before its lockout in a run that
admits none of its requests while another one is verified, with no failure aged out. Requests that
overlap start as many as they are, from every state in which the source is admitted. -/
theorem attempts_bounded (L : Limits) (hmax : 0 < L.maxAttempts) (key : String)
    {es : List LoginEvent} {s : Logins} (h : ((logins L).restrict (InTurn L key)).Run es s) :
    BoundedAttempts L key s ∧
    (s.limiter.isAllowed key s.now → ∀ n, ∃ s',
      (logins L).Run (es ++ List.replicate n (.request key)) s' ∧
      s'.limiter.lockedUntil key = s.limiter.lockedUntil key ∧
      s'.started key = s.started key + n) := by
  have hc := counted_of_run hmax h
  refine ⟨fun hl => ?_, fun ha n => ?_⟩
  · have hfew := hc.fewer hl
    have halone := hc.alone
    rw [hc.started hl]
    omega
  · obtain ⟨s', hr, hl, -, hst⟩ := run_overlapping h.of_restrict ha n
    exact ⟨s', hr, by rw [hl], hst⟩

def guesser : String := "10.0.0.1"

def inTurnEvents : List LoginEvent :=
  [.request guesser, .tick 1, .wrong guesser, .request guesser, .tick 2, .wrong guesser,
    .request guesser]

theorem inTurn_bounded :
    ∃ s, ((logins { maxAttempts := 2 }).restrict (InTurn { maxAttempts := 2 } guesser)).Run
      inTurnEvents s ∧ s.started guesser = 2 ∧ BoundedAttempts { maxAttempts := 2 } guesser s := by
  obtain ⟨s, hr, hst⟩ : ∃ s,
      ((logins { maxAttempts := 2 }).restrict (InTurn { maxAttempts := 2 } guesser)).Run
      inTurnEvents s ∧ s.started guesser = 2 := System.exists_run_restrict rfl (by decide +kernel)
  exact ⟨s, hr, hst, (attempts_bounded { maxAttempts := 2 } (by decide) guesser hr).1⟩

theorem overlapping_requests_unbounded :
    ∃ s, (logins {}).Run (List.replicate 6 (.request guesser)) s ∧
      s.limiter.lockedUntil guesser = none ∧ s.started guesser = 6 ∧
      ¬ BoundedAttempts {} guesser s := by
  obtain ⟨s, hr, he⟩ : ∃ s, (logins {}).Run (List.replicate 6 (.request guesser)) s ∧
      (s.started guesser, s.limiter.lockedUntil guesser) = (6, none) :=
    System.exists_run rfl (by decide +kernel)
  obtain ⟨hst, hl⟩ := Prod.mk.inj he
  refine ⟨s, hr, hl, hst, fun hb => ?_⟩
  have hle := hb hl
  rw [hst] at hle
  exact absurd hle (by decide)

end Runs

end AstropathRelay.Api
