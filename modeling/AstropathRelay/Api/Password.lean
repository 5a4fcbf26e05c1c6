import AstropathRelay.Lib.Runs

/-! The admin password: logins that upgrade the stored hash while a password change is under way. -/

namespace AstropathRelay.Api

open Lib

/-- Argon2: hashing is salted, a hash verifies the password it was made of and no other, and any
stored hash may be due for an upgrade. -/
structure Hasher (Pw Hash : Type) where
  hash : ℕ → Pw → Hash
  verify : Hash → Pw → Bool
  needsRehash : Hash → Bool
  verify_hash : ∀ salt q p, verify (hash salt q) p = true ↔ p = q

inductive AuthPhase (Hash : Type)
  | fresh
  | verifying (stored : Hash)
  | rehashing
  | upgrading (new : Hash) (update : Bool)
  | hashing
  | storing (new : Hash) (update : Bool)
  | finished (ok : Bool)
  | failed
deriving DecidableEq

def AuthPhase.updates {Hash : Type} : AuthPhase Hash → Bool
  | upgrading _ update => update
  | _ => false

lemma AuthPhase.updates_iff {Hash : Type} {p : AuthPhase Hash} : p.updates ↔
    ∃ hash, p = .upgrading hash true := by
  cases p <;> simp [updates]

structure AuthTask (Pw Hash : Type) where
  password : Pw
  newPassword : Option Pw
  phase : AuthPhase Hash
deriving DecidableEq

section Tasks

variable {Pw Hash : Type} (H : Hasher Pw Hash) (env : Hash)

def AuthTask.at (t : AuthTask Pw Hash) (phase : AuthPhase Hash) : AuthTask Pw Hash :=
  { t with phase := phase }

def AuthTask.verified (t : AuthTask Pw Hash) : AuthTask Pw Hash :=
  t.at (if t.newPassword.isSome then .hashing else .finished true)

/-- One stretch of a request between two awaits: `verify_admin_password`, and for a change
`set_admin_password` after it. A row that the session found is updated; one that it did not find is
inserted, and the insert fails when another session's came first. -/
def AuthTask.advance (salt : ℕ) (row : Option Hash)
    (t : AuthTask Pw Hash) : Option (Option Hash × AuthTask Pw Hash) :=
  match t.phase with
  | .fresh => some (row, t.at (.verifying (row.getD env)))
  | .verifying stored =>
    if !H.verify stored t.password then some (row, t.at (.finished false))
    else if H.needsRehash stored then some (row, t.at .rehashing)
    else some (row, t.verified)
  | .rehashing => some (row, t.at (.upgrading (H.hash salt t.password) row.isSome))
  | .upgrading new update =>
    if update ∨ row.isNone then some (some new, t.verified) else some (row, t.at .failed)
  | .hashing => t.newPassword.map (fun new => (row, t.at (.storing (H.hash salt new) row.isSome)))
  | .storing new update =>
    if update ∨ row.isNone then some (some new, t.at (.finished true)) else some (row, t.at .failed)
  | .finished _ => none
  | .failed => none

structure AuthTask.Ok (t : AuthTask Pw Hash) : Prop where
  upgrade : ∀ hash u, t.phase = .upgrading hash u → ∃ salt, hash = H.hash salt t.password
  store : ∀ hash u, t.phase = .storing hash u → ∃ salt n, t.newPassword = some n ∧
    hash = H.hash salt n

inductive AuthEffect (row : Option Hash) (t : AuthTask Pw Hash) : Option Hash →
    AuthTask Pw Hash → Prop
  | quiet {t'} : (t'.phase = .finished true → t.newPassword = none) → AuthEffect row t row t'
  | upgrade {salt u} : t.phase = .upgrading (H.hash salt t.password) u → (u = true ∨ row = none) →
      AuthEffect row t (some (H.hash salt t.password)) t.verified
  | store {salt n} : t.newPassword = some n →
      AuthEffect row t (some (H.hash salt n)) (t.at (.finished true))

variable {H env}

lemma AuthTask.Ok.at {t : AuthTask Pw Hash} {phase : AuthPhase Hash}
    (hu : ∀ hash u, phase ≠ .upgrading hash u)
    (hs : ∀ hash u, phase ≠ .storing hash u) : (t.at phase).Ok H :=
  ⟨fun hash u hp => absurd hp (hu hash u), fun hash u hp => absurd hp (hs hash u)⟩

lemma AuthTask.Ok.verified (t : AuthTask Pw Hash) : t.verified.Ok H := by
  rw [AuthTask.verified]
  split_ifs
  · exact .at (by simp) (by simp)
  · exact .at (by simp) (by simp)

lemma AuthTask.Ok.advance {salt : ℕ} {row row' : Option Hash} {t t' : AuthTask Pw Hash}
    (ok : t.Ok H) (h : t.advance H env salt row = some (row', t')) :
    t'.Ok H ∧ t'.newPassword = t.newPassword ∧ AuthEffect H row t row' t' := by
  unfold AuthTask.advance at h
  split at h
  · obtain ⟨rfl, rfl⟩ := Prod.mk.inj (Option.some.inj h)
    exact ⟨.at (by simp) (by simp), rfl, .quiet (by simp [AuthTask.at])⟩
  · split_ifs at h
    · obtain ⟨rfl, rfl⟩ := Prod.mk.inj (Option.some.inj h)
      exact ⟨.at (by simp) (by simp), rfl, .quiet (by simp [AuthTask.at])⟩
    · obtain ⟨rfl, rfl⟩ := Prod.mk.inj (Option.some.inj h)
      exact ⟨.at (by simp) (by simp), rfl, .quiet (by simp [AuthTask.at])⟩
    · obtain ⟨rfl, rfl⟩ := Prod.mk.inj (Option.some.inj h)
      exact ⟨.verified t, rfl,
        .quiet (by cases hn : t.newPassword <;> simp [AuthTask.verified, AuthTask.at, hn])⟩
  · obtain ⟨rfl, rfl⟩ := Prod.mk.inj (Option.some.inj h)
    refine ⟨⟨?_, by simp [AuthTask.at]⟩, rfl, .quiet (by simp [AuthTask.at])⟩
    rintro hash u ⟨⟩
    exact ⟨salt, rfl⟩
  · next hash u hp =>
    split_ifs at h with hc
    · obtain ⟨rfl, rfl⟩ := Prod.mk.inj (Option.some.inj h)
      obtain ⟨salt', rfl⟩ := ok.upgrade hash u hp
      exact ⟨.verified t, rfl, .upgrade hp (by simpa using hc)⟩
    · obtain ⟨rfl, rfl⟩ := Prod.mk.inj (Option.some.inj h)
      exact ⟨.at (by simp) (by simp), rfl, .quiet (by simp [AuthTask.at])⟩
  · obtain ⟨n, hn, he⟩ := Option.map_eq_some_iff.mp h
    obtain ⟨rfl, rfl⟩ := Prod.mk.inj he
    refine ⟨⟨by simp [AuthTask.at], ?_⟩, rfl, .quiet (by simp [AuthTask.at])⟩
    rintro hash u ⟨⟩
    exact ⟨salt, n, hn, rfl⟩
  · next hash u hp =>
    split_ifs at h with hc
    · obtain ⟨rfl, rfl⟩ := Prod.mk.inj (Option.some.inj h)
      obtain ⟨salt', n, hn, rfl⟩ := ok.store hash u hp
      exact ⟨.at (by simp) (by simp), rfl, .store hn⟩
    · obtain ⟨rfl, rfl⟩ := Prod.mk.inj (Option.some.inj h)
      exact ⟨.at (by simp) (by simp), rfl, .quiet (by simp [AuthTask.at])⟩
  · simp at h
  · simp at h

end Tasks

structure AuthState (Pw Hash : Type) where
  row : Option Hash
  logins : ℕ → AuthTask Pw Hash
  change : AuthTask Pw Hash

inductive AuthEvent
  | login (i : ℕ) (salt : ℕ)
  | change (salt : ℕ)
deriving DecidableEq

section Runs

variable {Pw Hash : Type} (H : Hasher Pw Hash) (env : Hash) (new : Pw)

def authNext (s : AuthState Pw Hash) : AuthEvent → Option (AuthState Pw Hash)
  | .login i salt =>
    ((s.logins i).advance H env salt s.row).map (fun r =>
      { s with row := r.1, logins := Function.update s.logins i r.2 })
  | .change salt =>
    (s.change.advance H env salt s.row).map (fun r => { s with row := r.1, change := r.2 })

structure Fresh (s : AuthState Pw Hash) : Prop where
  login : ∀ i, (s.logins i).newPassword = none ∧ (s.logins i).phase = .fresh
  change : s.change.newPassword = some new ∧ s.change.phase = .fresh

def auth : System (AuthState Pw Hash) AuthEvent := .deterministic (Fresh new) (authNext H env)

def Changed (s : AuthState Pw Hash) : Prop := s.change.phase = .finished true

def verifyAdminPassword (s : AuthState Pw Hash) (p : Pw) : Bool := H.verify (s.row.getD env) p

def Kept (s : AuthState Pw Hash) : Prop := Changed s →
  ∀ p, verifyAdminPassword H env s p = true ↔ p = new

def Overwrites (s : AuthState Pw Hash) (i : ℕ) : Prop :=
  Changed s ∧ (s.logins i).phase.updates ∧ (s.logins i).password ≠ new

def NoOverwrite (s : AuthState Pw Hash) : AuthEvent → Prop
  | .login i _ => ¬ Overwrites new s i
  | .change _ => True

instance [DecidableEq Pw] [DecidableEq Hash] (s : AuthState Pw Hash) : (e : AuthEvent) →
    Decidable (NoOverwrite new s e)
  | .login i _ => inferInstanceAs (Decidable (¬ (s.change.phase = .finished true ∧
      (s.logins i).phase.updates = true ∧ (s.logins i).password ≠ new)))
  | .change _ => inferInstanceAs (Decidable True)

structure AuthInv (s : AuthState Pw Hash) : Prop where
  login : ∀ i, (s.logins i).Ok H ∧ (s.logins i).newPassword = none
  change : s.change.Ok H ∧ s.change.newPassword = some new
  row : Changed s → ∃ salt, s.row = some (H.hash salt new)

variable {H env new} {s s' : AuthState Pw Hash}

lemma Fresh.inv (h : Fresh new s) : AuthInv H new s := by
  have hok {t : AuthTask Pw Hash} (ht : t.phase = .fresh) : t.Ok H := ⟨by simp [ht], by simp [ht]⟩
  refine ⟨fun i => ⟨hok (h.login i).2, (h.login i).1⟩, ⟨hok h.change.2, h.change.1⟩, ?_⟩
  intro hc
  simp [Changed, h.change.2] at hc

lemma AuthInv.login_step {i salt : ℕ} (h : AuthInv H new s) (hn : ¬ Overwrites new s i)
    (hs : authNext H env s (.login i salt) = some s') : AuthInv H new s' := by
  obtain ⟨⟨row', t'⟩, ha, rfl⟩ := Option.map_eq_some_iff.mp hs
  obtain ⟨hok, hnew, he⟩ := (h.login i).1.advance ha
  refine ⟨?_, h.change, fun hc => ?_⟩
  · apply (Function.forall_update_iff s.logins (fun _ t => t.Ok H ∧ t.newPassword = none)).mpr
    exact ⟨⟨hok, hnew.trans (h.login i).2⟩, fun j _ => h.login j⟩
  · obtain ⟨salt₀, hrow⟩ := h.row hc
    cases he with
    | quiet => exact ⟨salt₀, hrow⟩
    | @upgrade salt' u hp hu =>
      have hut : u = true := hu.resolve_right (by simp [hrow])
      have hpass : (s.logins i).password = new := by
        by_contra hne
        exact hn ⟨hc, AuthPhase.updates_iff.mpr ⟨_, by rw [hp, hut]⟩, hne⟩
      exact ⟨salt', by rw [hpass]⟩
    | store hm => simp [(h.login i).2] at hm

lemma AuthInv.change_step {salt : ℕ} (h : AuthInv H new s)
    (hs : authNext H env s (.change salt) = some s') : AuthInv H new s' := by
  obtain ⟨⟨row', t'⟩, ha, rfl⟩ := Option.map_eq_some_iff.mp hs
  obtain ⟨hok, hnew, he⟩ := h.change.1.advance ha
  refine ⟨h.login, ⟨hok, hnew.trans h.change.2⟩, fun hc => ?_⟩
  cases he with
  | quiet hf =>
    have hm := hf hc
    simp [h.change.2] at hm
  | upgrade hp hu => simp [Changed, AuthTask.verified, AuthTask.at, h.change.2] at hc
  | @store salt' n hm =>
    obtain rfl : n = new := Option.some.inj (hm.symm.trans h.change.2)
    exact ⟨salt', rfl⟩

lemma inv_of_run {es : List AuthEvent}
    (h : ((auth H env new).restrict (NoOverwrite new)).Run es s) : AuthInv H new s := by
  refine System.Run.invariant (I := AuthInv H new) (fun _ hf => Fresh.inv hf) ?_ h
  rintro s e s' hi ⟨hp, hs⟩
  cases e with
  | login i salt => exact hi.login_step hp hs
  | change salt => exact hi.change_step hs

lemma AuthInv.kept (h : AuthInv H new s) : Kept H env new s := by
  intro hc p
  obtain ⟨salt, hrow⟩ := h.row hc
  rw [verifyAdminPassword, hrow]
  exact H.verify_hash salt new p

/-- A password change stays in force in every run in which no login commits an upgraded hash of
another password after it. A login that does so undoes the change. -/
theorem password_change_kept {es : List AuthEvent}
    (h : ((auth H env new).restrict (NoOverwrite new)).Run es s) :
    Kept H env new s ∧
    ∀ i salt s', Overwrites new s i → authNext H env s (.login i salt) = some s' →
      ¬ Kept H env new s' := by
  have hi := inv_of_run h
  refine ⟨hi.kept, ?_⟩
  rintro i salt s' ⟨hc, hu, hne⟩ hs hk
  obtain ⟨hash, hp⟩ := AuthPhase.updates_iff.mp hu
  obtain ⟨salt', rfl⟩ := (hi.login i).1.upgrade hash true hp
  have ha : (s.logins i).advance H env salt s.row =
      some (some (H.hash salt' (s.logins i).password), (s.logins i).verified) := by
    simp [AuthTask.advance, hp]
  rw [authNext, ha] at hs
  obtain rfl := Option.some.inj hs
  have hv := (hk hc (s.logins i).password).mp ((H.verify_hash salt' _ _).mpr rfl)
  exact hne hv

end Runs

section Samples

def plainHasher : Hasher String (ℕ × String) where
  hash salt p := (salt, p)
  verify hash p := hash.2 = p
  needsRehash hash := hash.1 = 0
  verify_hash salt q p := by simp [eq_comm]

def requests (row : ℕ × String) (password : String) : AuthState String (ℕ × String) where
  row := some row
  logins _ := ⟨password, none, .fresh⟩
  change := ⟨"old-password", some "new-password", .fresh⟩

lemma requests_fresh (row : ℕ × String) (password : String) :
    Fresh "new-password" (requests row password) :=
  ⟨fun _ => ⟨rfl, rfl⟩, rfl, rfl⟩

def Settled (s : AuthState String (ℕ × String)) : Prop :=
  ∀ i, (s.logins i).phase = .fresh ∨ ∃ ok, (s.logins i).phase = .finished ok

def upgradedDuringChange : List AuthEvent :=
  [.login 0 1, .change 2, .login 0 1, .change 2, .login 0 1, .change 2, .login 0 1, .change 2,
    .change 3, .change 3, .login 1 4, .login 1 4]

theorem upgrade_during_change_keeps :
    ∃ s, ((auth plainHasher (1, "seed") "new-password").restrict (NoOverwrite "new-password")).Run
        upgradedDuringChange s ∧ Changed s ∧
      (s.logins 0).phase = .finished true ∧ (s.logins 1).phase = .finished false ∧
      Kept plainHasher (1, "seed") "new-password" s := by
  obtain ⟨s, hr, hp⟩ : ∃ s, ((auth plainHasher (1, "seed") "new-password").restrict
      (NoOverwrite "new-password")).Run upgradedDuringChange s ∧
      (s.change.phase, (s.logins 0).phase, (s.logins 1).phase) =
        (.finished true, .finished true, .finished false) :=
    System.exists_run_restrict (requests_fresh (0, "old-password") "old-password")
      (by decide +kernel)
  obtain ⟨hchange, hp⟩ := Prod.mk.inj hp
  obtain ⟨hfirst, hsecond⟩ := Prod.mk.inj hp
  exact ⟨s, hr, hchange, hfirst, hsecond, (password_change_kept hr).1⟩

theorem stale_upgrade_undoes_change :
    ∃ s, (auth plainHasher (1, "seed") "new-password").Run [.login 0 1, .login 0 1, .login 0 1,
      .change 2, .change 2, .change 2, .change 2, .change 3, .change 3, .login 0 1] s ∧ Changed s ∧
      Settled s ∧ verifyAdminPassword plainHasher (1, "seed") s "new-password" = false ∧
      verifyAdminPassword plainHasher (1, "seed") s "old-password" = true := by
  refine ⟨_, System.run_deterministic _ _ (requests_fresh (0, "old-password") "old-password") rfl,
    rfl, ?_,
    by decide +kernel, by decide +kernel⟩
  rintro (_ | i)
  · exact .inr ⟨true, rfl⟩
  · exact .inl rfl

end Samples

end AstropathRelay.Api
