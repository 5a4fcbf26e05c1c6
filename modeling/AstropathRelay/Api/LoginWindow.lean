import AstropathRelay.Api.LoginLimit
import AstropathRelay.Lib.SlidingWindow

/-! The login limiter over whole histories of calls: the counts it uses, the lockouts they give, and
when a further failure shortens one. -/

namespace AstropathRelay.Api

open Lib

inductive LimiterCall
  | isAllowed (key : String)
  | recordFailure (key : String)
  | recordSuccess (key : String)
deriving DecidableEq

def LimiterCall.key : LimiterCall → String
  | isAllowed key | recordFailure key | recordSuccess key => key

def LimiterCall.isFailure : LimiterCall → Bool
  | recordFailure _ => true
  | isAllowed _ | recordSuccess _ => false

abbrev Calls := List (ℚ × LimiterCall)

abbrev failing (t : ℚ) (key : String) : ℚ × LimiterCall := (t, .recordFailure key)

def Nondecreasing (calls : Calls) : Prop := calls.Pairwise (fun c d => c.1 ≤ d.1)

def failuresSince (key : String) (calls : Calls) : List ℚ :=
  ((calls.rtakeWhile (·.2 ≠ .recordSuccess key)).filter (·.2 = .recordFailure key)).map (·.1)

def allFailures (calls : Calls) : List ℚ := (calls.filter (·.2.isFailure)).map (·.1)

section Histories

variable (L : Limits)

def Limiter.call (l : Limiter) : ℚ × LimiterCall → Limiter
  | (_, .isAllowed _) => l
  | (now, .recordFailure key) => (l.recordFailure L key now).1
  | (_, .recordSuccess key) => l.recordSuccess key

def after (calls : Calls) : Limiter := calls.foldl (Limiter.call L) {}

def Limiter.counted (l : Limiter) (key : String) (now : ℚ) : ℕ :=
  (prune L (l.failures key ++ [now]) now).length

def Limiter.countedGlobal (l : Limiter) (now : ℚ) : ℕ := (prune L (l.global ++ [now]) now).length

def failedAt (t : ℚ) (key : String) (calls : Calls) : ℕ :=
  (inWindow L.window t (failuresSince key calls)).length

def failedGlobalAt (t : ℚ) (calls : Calls) : ℕ := (inWindow L.window t (allFailures calls)).length

structure WindowExact (calls : Calls) : Prop where
  counted : ∀ (past : Calls) (t : ℚ) (key : String), past ++ [failing t key] <+: calls →
    (after L past).counted L key t = failedAt L t key (past ++ [failing t key])
  countedGlobal : ∀ (past : Calls) (t : ℚ) (key : String), past ++ [failing t key] <+: calls →
    (after L past).countedGlobal L t = failedGlobalAt L t (past ++ [failing t key])
  refused : ∀ (past : Calls) (t : ℚ) (key : String) (later : Calls), past ++ [failing t key] ++
    later <+: calls → (∀ c ∈ later, c.2 ≠ .recordFailure key ∧ c.2 ≠ .recordSuccess key) →
    L.maxAttempts ≤ failedAt L t key (past ++ [failing t key]) →
    ∀ u, t ≤ u → u < t + lockout L (failedAt L t key (past ++ [failing t key])) →
    (after L (past ++ [failing t key] ++ later)).isAllowed key u = false
  refusedGlobal : ∀ (past : Calls) (t : ℚ) (key : String) (later : Calls),
    past ++ [failing t key] ++ later <+: calls →
    L.globalMaxAttempts ≤ failedGlobalAt L t (past ++ [failing t key]) → ∀ other u, t ≤ u →
    u < t + L.baseLockout → (after L (past ++ [failing t key] ++ later)).isAllowed other u = false
  isolated : ∀ (past : Calls) (c : ℚ × LimiterCall) (key : String), past ++ [c] <+: calls →
    c.2.key ≠ key → (after L (past ++ [c])).failures key = (after L past).failures key ∧
    (after L (past ++ [c])).lockedUntil key = (after L past).lockedUntil key

def PowersInRange (calls : Calls) : Prop :=
  ∀ (past : Calls) (t : ℚ) (key : String), past ++ [failing t key] <+: calls →
    failedAt L t key (past ++ [failing t key]) < L.maxAttempts + 1024

def NeverLowers (calls : Calls) : Prop :=
  ∀ (past : Calls) (t : ℚ) (key : String) (T : ℚ), past ++ [failing t key] <+: calls →
    (after L past).lockedUntil key = some T →
    ∃ T', (after L (past ++ [failing t key])).lockedUntil key = some T' ∧ T ≤ T'

structure NeverHelps (calls : Calls) : Prop where
  completes : ∀ (past : Calls) (t : ℚ) (key : String), past ++ [failing t key] <+: calls →
    ((after L past).recordFailure L key t).2 = .returned
  never_lowers : NeverLowers L calls
  refused : ∀ (past later : Calls) (key : String) (T : ℚ), past ++ later <+: calls →
    (after L past).lockedUntil key = some T → (∀ c ∈ later, c.2 ≠ .recordSuccess key) → ∀ u, u < T →
    (after L (past ++ later)).isAllowed key u = false

def LockoutsGrow (calls : Calls) : Prop :=
  ∀ (earlier : Calls) (t₀ : ℚ) (between : Calls) (t : ℚ) (key : String),
    earlier ++ [failing t₀ key] ++ between ++ [failing t key] <+: calls →
    (∀ c ∈ between, c.2 ≠ .recordSuccess key) →
    L.maxAttempts ≤ failedAt L t₀ key (earlier ++ [failing t₀ key]) →
    L.maxAttempts ≤ failedAt L t key (earlier ++ [failing t₀ key] ++ between ++ [failing t key]) →
    lockout L (failedAt L t₀ key (earlier ++ [failing t₀ key])) ≤
      lockout L (failedAt L t key (earlier ++ [failing t₀ key] ++ between ++ [failing t key])) +
        (t - t₀)

variable {L} {calls past : Calls} {c : ℚ × LimiterCall} {key : String} {now t : ℚ}

lemma after_append (c : ℚ × LimiterCall) : after L (calls ++ [c]) = (after L calls).call L c := by
  simp [after]

lemma failuresSince_failure :
    failuresSince key (calls ++ [failing t key]) = failuresSince key calls ++ [t] := by
  simp [failuresSince]

lemma failuresSince_success : failuresSince key (calls ++ [(t, .recordSuccess key)]) = [] := by
  simp [failuresSince]

lemma failuresSince_of_ne (hf : c.2 ≠ .recordFailure key) (hs : c.2 ≠ .recordSuccess key) :
    failuresSince key (calls ++ [c]) = failuresSince key calls := by
  simp [failuresSince, hf, hs]

lemma allFailures_append :
    allFailures (calls ++ [c]) = allFailures calls ++ if c.2.isFailure then [c.1] else [] := by
  by_cases hf : c.2.isFailure <;> simp [allFailures, hf]

lemma call_of_ne {l : Limiter} (hf : c.2 ≠ .recordFailure key) (hs : c.2 ≠ .recordSuccess key) :
    (l.call L c).failures key = l.failures key ∧
      (l.call L c).lockedUntil key = l.lockedUntil key := by
  obtain ⟨now, call⟩ := c
  cases call with
  | isAllowed _ => exact ⟨rfl, rfl⟩
  | recordFailure source =>
    have hk : source ≠ key := fun h => hf (h ▸ rfl)
    exact ⟨failures_recordFailure_of_ne hk now, lockedUntil_recordFailure_of_ne hk now⟩
  | recordSuccess source =>
    have hk : key ≠ source := fun h => hs (h ▸ rfl)
    exact ⟨Function.update_of_ne hk _ _, Function.update_of_ne hk _ _⟩

lemma Nondecreasing.of_prefix (h : Nondecreasing calls) (hp : past <+: calls) :
    Nondecreasing past :=
  List.Pairwise.sublist hp.sublist h

lemma Nondecreasing.le_last (h : Nondecreasing (calls ++ [c])) : ∀ d ∈ calls, d.1 ≤ c.1 := by
  intro d hd
  exact (List.pairwise_append.mp h).2.2 d hd c (List.mem_singleton_self c)

lemma tracks_failures_call
    (h : Tracks L.window c.1 ((after L calls).failures key) (failuresSince key calls)) : Tracks
    L.window c.1 ((after L (calls ++ [c])).failures key) (failuresSince key (calls ++ [c])) := by
  rw [after_append]
  by_cases hf : c.2 = .recordFailure key
  · obtain ⟨now, call⟩ := c
    obtain rfl : call = .recordFailure key := hf
    have hl : ((after L calls).call L (failing now key)).failures key =
        expire L.window now ((after L calls).failures key ++ [now]) := by
      change ((after L calls).recordFailure L key now).1.failures key = _
      rw [recordFailure_failures, Function.update_self]
      rfl
    rw [hl, failuresSince_failure]
    exact h.push.expire
  · by_cases hs : c.2 = .recordSuccess key
    · obtain ⟨now, call⟩ := c
      obtain rfl : call = .recordSuccess key := hs
      have hl : ((after L calls).call L (now, .recordSuccess key)).failures key = [] :=
        Function.update_self _ _ _
      rw [hl, failuresSince_success]
      exact .nil
    · rw [(call_of_ne hf hs).1, failuresSince_of_ne hf hs]
      exact h

lemma tracks_global_call (h : Tracks L.window c.1 (after L calls).global (allFailures calls)) :
    Tracks L.window c.1 (after L (calls ++ [c])).global (allFailures (calls ++ [c])) := by
  rw [after_append, allFailures_append]
  obtain ⟨now, call⟩ := c
  cases call with
  | recordFailure key =>
    have hl : ((after L calls).call L (failing now key)).global =
        expire L.window now ((after L calls).global ++ [now]) := recordFailure_global L _ key now
    rw [hl]
    exact h.push.expire
  | isAllowed | recordSuccess => simpa [LimiterCall.isFailure, Limiter.call, Limiter.recordSuccess]
      using h

lemma tracks_after (h : Nondecreasing calls) (hn : ∀ c ∈ calls, c.1 ≤ now) :
    (∀ key, Tracks L.window now ((after L calls).failures key) (failuresSince key calls)) ∧
      Tracks L.window now (after L calls).global (allFailures calls) := by
  induction calls using List.reverseRecOn generalizing now with
  | nil => exact ⟨fun _ => .nil, .nil⟩
  | append_singleton calls c ih =>
    obtain ⟨hk, hg⟩ := ih (h.of_prefix (List.prefix_append _ _)) h.le_last
    have hc : c.1 ≤ now := hn c (by simp)
    exact ⟨fun key => (tracks_failures_call (hk key)).later hc, (tracks_global_call hg).later hc⟩

lemma counted_eq (h : Nondecreasing (past ++ [failing t key])) :
    (after L past).counted L key t = failedAt L t key (past ++ [failing t key]) := by
  have ht := (tracks_after (L := L) (h.of_prefix (List.prefix_append _ _)) h.le_last).1 key
  rw [failedAt]
  rw [failuresSince_failure, ← ht.push.expire_eq]
  rfl

lemma countedGlobal_eq (h : Nondecreasing (past ++ [failing t key])) :
    (after L past).countedGlobal L t = failedGlobalAt L t (past ++ [failing t key]) := by
  have ht := (tracks_after (L := L) (h.of_prefix (List.prefix_append _ _)) h.le_last).2
  rw [failedGlobalAt]
  rw [allFailures_append]
  change _ = (inWindow L.window t (allFailures past ++ [t])).length
  rw [← ht.push.expire_eq]
  rfl

lemma lockedUntil_failure (h : Nondecreasing (past ++ [failing t key])) :
    (after L (past ++ [failing t key])).lockedUntil key =
      if L.maxAttempts ≤ failedAt L t key (past ++ [failing t key]) ∧
          failedAt L t key (past ++ [failing t key]) < L.maxAttempts + 1024 then
        some (t + lockout L (failedAt L t key (past ++ [failing t key])))
      else (after L past).lockedUntil key := by
  rw [after_append, ← counted_eq h]
  change ((after L past).recordFailure L key t).1.lockedUntil key = _
  rw [recordFailure_lockedUntil, ite_apply, Function.update_self]
  rfl

lemma returned_iff (h : Nondecreasing (past ++ [failing t key])) :
    ((after L past).recordFailure L key t).2 = .returned ↔
      failedAt L t key (past ++ [failing t key]) < L.maxAttempts + 1024 := by
  rw [recordFailure_returned, ← counted_eq h]
  rfl

lemma globalLockedUntil_failure (h : Nondecreasing (past ++ [failing t key]))
    (hr : failedAt L t key (past ++ [failing t key]) < L.maxAttempts + 1024)
    (hg : L.globalMaxAttempts ≤ failedGlobalAt L t (past ++ [failing t key])) :
    (after L (past ++ [failing t key])).globalLockedUntil = t + L.baseLockout := by
  rw [← counted_eq h] at hr
  rw [← countedGlobal_eq h] at hg
  rw [after_append]
  change ((after L past).recordFailure L key t).1.globalLockedUntil = _
  rw [recordFailure_inRange L _ key t hr]
  exact if_pos hg

lemma le_globalLockedUntil_call {l : Limiter} (hl : t + L.baseLockout ≤ l.globalLockedUntil)
    (ht : t ≤ c.1) : t + L.baseLockout ≤ (l.call L c).globalLockedUntil := by
  obtain ⟨now, call⟩ := c
  cases call with
  | isAllowed | recordSuccess => exact hl
  | recordFailure key =>
    change _ ≤ (l.recordFailure L key now).1.globalLockedUntil
    rcases recordFailure_globalLockedUntil L l key now with he | he
    · exact hl.trans_eq he.symm
    · exact (add_le_add_left ht _).trans_eq he.symm

lemma le_globalLockedUntil {later : Calls}
    (hl : t + L.baseLockout ≤ (after L past).globalLockedUntil) (ht : ∀ c ∈ later, t ≤ c.1) :
    t + L.baseLockout ≤ (after L (past ++ later)).globalLockedUntil := by
  induction later using List.reverseRecOn with
  | nil => simpa using hl
  | append_singleton later c ih =>
    rw [← List.append_assoc, after_append]
    exact le_globalLockedUntil_call (ih fun d hd => ht d (by simp [hd])) (ht c (by simp))

lemma lockedUntil_of_ne {later : Calls}
    (h : ∀ c ∈ later, c.2 ≠ .recordFailure key ∧ c.2 ≠ .recordSuccess key) :
    (after L (past ++ later)).lockedUntil key = (after L past).lockedUntil key := by
  induction later using List.reverseRecOn with
  | nil => simp
  | append_singleton later c ih =>
    obtain ⟨hf, hs⟩ := h c (by simp)
    rw [← List.append_assoc, after_append, (call_of_ne hf hs).2]
    exact ih fun d hd => h d (by simp [hd])

lemma isAllowed_of_lockedUntil {l : Limiter} {T u : ℚ} (h : l.lockedUntil key = some T)
    (hu : u < T) : l.isAllowed key u = false := by
  simp [Limiter.isAllowed, h, hu]

lemma isAllowed_of_globalLockedUntil {l : Limiter} {u : ℚ} (hu : u < l.globalLockedUntil) :
    l.isAllowed key u = false :=
  if_pos hu

lemma globalLockedUntil_le (hc : ∀ c ∈ calls, c.1 ≤ now) (h₀ : 0 ≤ now + L.baseLockout) :
    (after L calls).globalLockedUntil ≤ now + L.baseLockout := by
  induction calls using List.reverseRecOn with
  | nil => exact h₀
  | append_singleton calls c ih =>
    have hl := ih fun d hd => hc d (by simp [hd])
    have ht : c.1 ≤ now := hc c (by simp)
    rw [after_append]
    obtain ⟨t, call⟩ := c
    cases call with
    | isAllowed | recordSuccess => exact hl
    | recordFailure key =>
      change ((after L calls).recordFailure L key t).1.globalLockedUntil ≤ _
      rcases recordFailure_globalLockedUntil L (after L calls) key t with he | he
      · exact he.trans_le hl
      · exact he.trans_le (add_le_add_left ht _)

/-- The limiter is exact over every history in which no `record_failure` counts `max_attempts +
1024` failures or more. -/
theorem login_window_exact (L : Limits) {calls : Calls} (h : Nondecreasing calls)
    (hr : PowersInRange L calls) : WindowExact L calls := by
  refine ⟨fun past t key hp => ?_, fun past t key hp => ?_,
    fun past t key later hp hl hm u htu hu => ?_,
    fun past t key later hp hm other u htu hu => ?_, fun past c key hp hc => ?_⟩
  · exact counted_eq (h.of_prefix hp)
  · exact countedGlobal_eq (h.of_prefix hp)
  · have hcall : past ++ [failing t key] <+: calls := (List.prefix_append _ _).trans hp
    refine isAllowed_of_lockedUntil ?_ hu
    rw [lockedUntil_of_ne hl, lockedUntil_failure (h.of_prefix hcall),
      if_pos ⟨hm, hr past t key hcall⟩]
  · have hcall : past ++ [failing t key] <+: calls := (List.prefix_append _ _).trans hp
    have hset := globalLockedUntil_failure (h.of_prefix hcall) (hr past t key hcall) hm
    have hlater : ∀ c ∈ later, t ≤ c.1 := fun c hc =>
      (List.pairwise_append.mp (h.of_prefix hp)).2.2 (failing t key) (by simp) c hc
    exact isAllowed_of_globalLockedUntil (hu.trans_le (le_globalLockedUntil hset.ge hlater))
  · rw [after_append]
    refine call_of_ne (fun hf => hc ?_) (fun hs => hc ?_)
    · rw [hf]
      rfl
    · rw [hs]
      rfl

lemma failedAt_le_length : failedAt L t key calls ≤ calls.length := by
  rw [failedAt, failuresSince]
  refine (List.length_filter_le _ _).trans ?_
  rw [List.length_map]
  exact (List.length_filter_le _ _).trans (List.rtakeWhile_suffix _ _).length_le

lemma powersInRange_of_length (h : calls.length < L.maxAttempts + 1024) :
    PowersInRange L calls := by
  intro past t key hp
  exact failedAt_le_length.trans_lt (hp.length_le.trans_lt h)

instance (calls : Calls) : Decidable (Nondecreasing calls) := by
  rw [Nondecreasing]
  infer_instance

def fiveFailures : Calls := (List.range 5).map fun n : ℕ => failing n guesser

theorem fiveFailures_exact : WindowExact {} fiveFailures :=
  login_window_exact {} (by decide +kernel) (powersInRange_of_length (by decide))

def burst (n : ℕ) : Calls := List.replicate n (failing 0 guesser)

lemma burst_succ (n : ℕ) : burst (n + 1) = burst n ++ [failing 0 guesser] := List.replicate_succ'

lemma nondecreasing_burst (n : ℕ) (t : ℚ) (ht : 0 ≤ t) :
    Nondecreasing (burst n ++ [failing t guesser]) := by
  refine List.pairwise_append.mpr ⟨List.pairwise_replicate.mpr (.inr le_rfl),
    List.pairwise_singleton _ _, ?_⟩
  intro c hc d hd
  obtain rfl := List.eq_of_mem_replicate hc
  obtain rfl := List.mem_singleton.mp hd
  exact ht

lemma failuresSince_burst (n : ℕ) : failuresSince guesser (burst n) = List.replicate n 0 := by
  induction n with
  | zero => rfl
  | succ n ih => rw [burst_succ, failuresSince_failure, ih, List.replicate_succ']

lemma failedAt_burst (n : ℕ) {t : ℚ} (h₀ : 0 ≤ t) (ht : t < 300) :
    failedAt {} t guesser (burst n ++ [failing t guesser]) = n + 1 := by
  rw [failedAt, failuresSince_failure, failuresSince_burst, inWindow, List.filter_eq_self.mpr]
  · simp
  · intro u hu
    rcases List.mem_append.mp hu with hu | hu
    · obtain rfl := List.eq_of_mem_replicate hu
      simp [h₀, ht]
    · obtain rfl := List.mem_singleton.mp hu
      simp

lemma lockout_capped {n : ℕ} (hn : 11 ≤ n) : lockout {} n = 3600 := by
  refine min_eq_left ?_
  have hpow : (2 : ℚ) ^ 6 ≤ 2 ^ (n - 5) := pow_le_pow_right₀ (by norm_num) (by omega)
  calc (3600 : ℚ) ≤ 60 * 2 ^ 6 := by norm_num
    _ ≤ 60 * 2 ^ (n - 5) := mul_le_mul_of_nonneg_left hpow (by norm_num)

lemma lockedUntil_burst {n : ℕ} (hn : 11 ≤ n) (hr : n < 1029) :
    (after {} (burst n)).lockedUntil guesser = some 3600 := by
  obtain ⟨m, rfl⟩ := Nat.exists_eq_add_of_le' (le_trans (by norm_num) hn : 1 ≤ n)
  have hm : ({} : Limits).maxAttempts ≤ m + 1 ∧ m + 1 < ({} : Limits).maxAttempts + 1024 := by
    change 5 ≤ m + 1 ∧ m + 1 < 1029
    omega
  rw [burst_succ, lockedUntil_failure (nondecreasing_burst m 0 le_rfl),
    failedAt_burst m le_rfl (by norm_num), if_pos hm, lockout_capped hn, zero_add]

lemma isAllowed_burst {n : ℕ} {t u : ℚ} (ht : 0 ≤ t) (hu : t + 60 ≤ u)
    (hl : (after {} (burst n ++ [failing t guesser])).lockedUntil guesser = some u) :
    (after {} (burst n ++ [failing t guesser])).isAllowed guesser u = true := by
  have hle : ∀ c ∈ burst n ++ [failing t guesser], c.1 ≤ t := by
    intro c hc
    rcases List.mem_append.mp hc with hc | hc
    · exact (nondecreasing_burst n t ht).le_last c hc
    · exact (congrArg Prod.fst (List.mem_singleton.mp hc)).le
  have hg := globalLockedUntil_le (L := {}) hle (add_nonneg ht (by norm_num))
  rw [Limiter.isAllowed]
  rw [if_neg (not_lt.mpr (hg.trans hu)), hl]
  exact decide_eq_true le_rfl

theorem burst_leaves_gap :
    Nondecreasing (burst 1028 ++ [failing 1 guesser]) ∧
      failedAt {} 1 guesser (burst 1028 ++ [failing 1 guesser]) = 1029 ∧
      (after {} (burst 1028 ++ [failing 1 guesser])).isAllowed guesser 3600 = true ∧
      ¬ WindowExact {} (burst 1028 ++ [failing 1 guesser]) := by
  have hn := nondecreasing_burst 1028 1 (by norm_num)
  have hcount := failedAt_burst 1028 (t := 1) (by norm_num) (by norm_num)
  have hlock : (after {} (burst 1028 ++ [failing 1 guesser])).lockedUntil guesser = some 3600 := by
    rw [lockedUntil_failure hn, hcount, if_neg (fun hr => absurd hr.2 (lt_irrefl 1029))]
    exact lockedUntil_burst (by norm_num) (by norm_num)
  have hopen := isAllowed_burst (by norm_num) (by norm_num) hlock
  refine ⟨hn, hcount, hopen, fun hw => ?_⟩
  have hcap : lockout {} (failedAt {} 1 guesser (burst 1028 ++ [failing 1 guesser])) = 3600 := by
    rw [hcount]
    exact lockout_capped (by norm_num)
  have hmax : ({} : Limits).maxAttempts ≤
      failedAt {} 1 guesser (burst 1028 ++ [failing 1 guesser]) := by
    rw [hcount]
    exact Nat.le_add_left 5 1024
  have hrefused := hw.refused (burst 1028) 1 guesser [] (by rw [List.append_nil])
    (fun c hc => absurd hc List.not_mem_nil) hmax 3600 (by norm_num) (by rw [hcap]; norm_num)
  rw [List.append_nil, hopen] at hrefused
  cases hrefused

lemma exists_lock {T : ℚ} (h : Nondecreasing calls)
    (hl : (after L calls).lockedUntil key = some T) : ∃ (earlier : Calls) (t : ℚ) (between : Calls),
    calls = earlier ++ [failing t key] ++ between ∧ (∀ c ∈ between, c.2 ≠ .recordSuccess key) ∧
    L.maxAttempts ≤ failedAt L t key (earlier ++ [failing t key]) ∧
    T = t + lockout L (failedAt L t key (earlier ++ [failing t key])) := by
  induction calls using List.reverseRecOn with
  | nil => cases hl
  | append_singleton calls c ih =>
    have hold : (after L calls).lockedUntil key = some T → c.2 ≠ .recordSuccess key →
        ∃ (earlier : Calls) (t : ℚ) (between : Calls), calls ++ [c] = earlier ++ [failing t key] ++
        between ∧ (∀ d ∈ between, d.2 ≠ .recordSuccess key) ∧
        L.maxAttempts ≤ failedAt L t key (earlier ++ [failing t key]) ∧
        T = t + lockout L (failedAt L t key (earlier ++ [failing t key])) := by
      intro ho hs
      obtain ⟨earlier, t, between, rfl, hb, hm, hT⟩ := ih (h.of_prefix (List.prefix_append _ _)) ho
      refine ⟨earlier, t, between ++ [c], by simp, fun d hd => ?_, hm, hT⟩
      rcases List.mem_append.mp hd with hd | hd
      · exact hb d hd
      · rwa [List.mem_singleton.mp hd]
    by_cases hf : c.2 = .recordFailure key
    · obtain ⟨t, call⟩ := c
      obtain rfl : call = .recordFailure key := hf
      rw [lockedUntil_failure h] at hl
      split_ifs at hl with hm
      · exact ⟨calls, t, [], by simp, nofun, hm.1, (Option.some.inj hl).symm⟩
      · exact hold hl nofun
    · by_cases hs : c.2 = .recordSuccess key
      · obtain ⟨t, call⟩ := c
        obtain rfl : call = .recordSuccess key := hs
        rw [after_append] at hl
        have hnone : ((after L calls).call L (t, .recordSuccess key)).lockedUntil key = none :=
          Function.update_self _ _ _
        rw [hnone] at hl
        cases hl
      · rw [after_append, (call_of_ne hf hs).2] at hl
        exact hold hl hs

lemma NeverLowers.later (h : NeverLowers L calls) {later : Calls} (hp : past ++ later <+: calls)
    {T : ℚ}
    (hl : (after L past).lockedUntil key = some T) (hs : ∀ c ∈ later, c.2 ≠ .recordSuccess key) :
    ∃ T', (after L (past ++ later)).lockedUntil key = some T' ∧ T ≤ T' := by
  induction later using List.reverseRecOn with
  | nil => exact ⟨T, by simpa using hl, le_rfl⟩
  | append_singleton later c ih =>
    rw [← List.append_assoc] at hp ⊢
    obtain ⟨T', hT', hle⟩ :=
      ih ((List.prefix_append _ _).trans hp) (fun d hd => hs d (by simp [hd]))
    by_cases hf : c.2 = .recordFailure key
    · obtain ⟨t, call⟩ := c
      obtain rfl : call = .recordFailure key := hf
      obtain ⟨T'', hT'', hle'⟩ := h _ t key T' hp hT'
      exact ⟨T'', hT'', hle.trans hle'⟩
    · rw [after_append, (call_of_ne hf (hs c (by simp))).2]
      exact ⟨T', hT', hle⟩

lemma neverLowers_of_grow (h : Nondecreasing calls) (hg : LockoutsGrow L calls) :
    NeverLowers L calls := by
  intro past t key T hp hl
  rw [lockedUntil_failure (h.of_prefix hp)]
  split_ifs with hm
  · refine ⟨_, rfl, ?_⟩
    obtain ⟨earlier, t₀, between, rfl, hb, hm₀, rfl⟩ :=
      exists_lock (h.of_prefix ((List.prefix_append _ _).trans hp)) hl
    have hle := hg earlier t₀ between t key hp hb hm₀ hm.1
    linarith
  · exact ⟨T, hl, le_rfl⟩

lemma grow_of_neverLowers (h : Nondecreasing calls) (hr : PowersInRange L calls)
    (hn : NeverLowers L calls) : LockoutsGrow L calls := by
  intro earlier t₀ between t key hp hb hm₀ hm
  have hpast : earlier ++ [failing t₀ key] ++ between <+: calls := (List.prefix_append _ _).trans hp
  have hfirst : earlier ++ [failing t₀ key] <+: calls := (List.prefix_append _ _).trans hpast
  have hlock := lockedUntil_failure (L := L) (h.of_prefix hfirst)
  rw [if_pos ⟨hm₀, hr earlier t₀ key hfirst⟩] at hlock
  obtain ⟨T, hT, hle⟩ := hn.later hpast hlock hb
  obtain ⟨T', hT', hle'⟩ := hn _ t key T hp hT
  rw [lockedUntil_failure (h.of_prefix hp), if_pos ⟨hm, hr _ t key hp⟩] at hT'
  obtain rfl := Option.some.inj hT'
  linarith

/-- Further failures never help exactly in the histories where the powers of two stay in range and
every failure that locks a source locks it at least as long as the failures before it did. -/
theorem further_failures_never_help (L : Limits) {calls : Calls} (h : Nondecreasing calls) :
    NeverHelps L calls ↔ PowersInRange L calls ∧ LockoutsGrow L calls := by
  constructor
  · intro hn
    have hr : PowersInRange L calls := fun past t key hp =>
      (returned_iff (h.of_prefix hp)).mp (hn.completes past t key hp)
    exact ⟨hr, grow_of_neverLowers h hr hn.never_lowers⟩
  · rintro ⟨hr, hg⟩
    have hn := neverLowers_of_grow h hg
    refine ⟨fun past t key hp => (returned_iff (h.of_prefix hp)).mpr (hr past t key hp), hn, ?_⟩
    intro past later key T hp hl hs u hu
    obtain ⟨T', hT', hle⟩ := hn.later hp hl hs
    exact isAllowed_of_lockedUntil hT' (hu.trans_le hle)

theorem fiveFailures_never_help : NeverHelps {} fiveFailures := by
  refine (further_failures_never_help {} (by decide +kernel)).mpr
    ⟨powersInRange_of_length (by decide), ?_⟩
  intro earlier t₀ between t key hp _ hm
  have hlen := hp.length_le
  have hle : 5 ≤ (earlier ++ [failing t₀ key]).length := hm.trans failedAt_le_length
  simp only [List.length_append, List.length_singleton, fiveFailures, List.length_map,
    List.length_range] at hlen hle
  omega

def agedBurst : Calls := burst 10 ++ List.replicate 5 (failing 300 guesser)

theorem agedBurst_shortens :
    Nondecreasing agedBurst ∧ (after {} (burst 10)).lockedUntil guesser = some 1920 ∧
      (after {} agedBurst).lockedUntil guesser = some 360 ∧
      (after {} agedBurst).isAllowed guesser 360 = true ∧ ¬ NeverHelps {} agedBurst := by
  have hlock : (after {} (burst 10)).lockedUntil guesser = some 1920 := by decide +kernel
  have hopen : (after {} agedBurst).isAllowed guesser 360 = true := by decide +kernel
  refine ⟨by decide +kernel, hlock, by decide +kernel, hopen, fun hn => ?_⟩
  have hrefused := hn.refused (burst 10) (List.replicate 5 (failing 300 guesser)) guesser 1920
    List.prefix_rfl hlock (by decide) 360 (by norm_num)
  exact absurd (hopen.symm.trans hrefused) (by decide)

end Histories

end AstropathRelay.Api
