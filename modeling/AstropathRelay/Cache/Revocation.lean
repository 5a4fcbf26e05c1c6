import AstropathRelay.Cache.Convergence

/-! From when on a revoked key is out of the keyring. -/

namespace AstropathRelay.Cache

open Lib Lib.Results Dns DataPlane Providers Store Api

variable {Key Token : Type} {E : Platform} {F : Fernet Key Token} {kek : Kek Key}

section Gone

def Gone (t : Tables Token) (n : ℕ) : Prop := n ≤ t.tsigKeySeq ∧ ∀ k ∈ t.tsigKeys, k.id ≠ n

lemma Gone.apply {t : Tables Token} {n : ℕ} (h : Gone t n) (w : Write Token) :
    Gone (w.apply t) n := by
  cases w with
  | addTsigKey name algorithm secret =>
    refine ⟨h.1.trans (Nat.le_succ _), fun k hk => ?_⟩
    rcases List.mem_append.mp hk with hk | hk
    · exact h.2 k hk
    · obtain rfl := List.mem_singleton.mp hk
      have := h.1
      simp only
      omega
  | dropTsigKey id => exact ⟨h.1, fun k hk => h.2 k (List.mem_of_mem_filter hk)⟩
  | addBackend | setBackend | dropBackend | addDomain | dropDomain => exact h

lemma Gone.drawn {db : Database Token} {n : ℕ} (h : Gone db.tables n) (w : Write Token) :
    Gone (db.drawn w).tables n := by
  cases w with
  | addTsigKey name algorithm secret => exact ⟨h.1.trans (Nat.le_succ _), h.2⟩
  | addBackend | setBackend | dropBackend | addDomain | dropDomain | dropTsigKey => exact h

lemma gone_of_drop {db db' : Database Token} {n : ℕ} (h : db.commit (.dropTsigKey n) = some db') :
    Gone db'.tables n := by
  obtain ⟨ht, htables⟩ := Database.commit_eq_some.mp h
  obtain ⟨k, hk, rfl⟩ := List.mem_map.mp ht
  rw [htables]
  refine ⟨db.consistent.tsigKeySeq k hk, fun k' hk' => ?_⟩
  have hne := (List.mem_filter.mp hk').2
  simpa using hne

end Gone

section Loaded

def Loading.keyRows : Loading Token → List (TsigKeyRow Token)
  | .start => []
  | .keys k => k
  | .backends k _ => k
  | .domains k _ _ => k
  | .read rows => rows.tsigKeys

lemma Loading.Next.keyRows {t : Tables Token} {l l' : Loading Token} (h : l.Next t l')
    {k : TsigKeyRow Token} (hk : k ∈ l'.keyRows) : k ∈ l.keyRows ∨ k ∈ t.tsigKeys := by
  cases h with
  | keys hp => exact Or.inr (hp.subset hk)
  | backends _ => exact Or.inl hk
  | domains _ => exact Or.inl hk
  | read _ => exact Or.inl hk

lemma Reads.keyRows {states : List (Database Token)} {start n : ℕ} {l : Loading Token}
    (h : Reads states start l n)
    {k : TsigKeyRow Token} (hk : k ∈ l.keyRows) : ∃ db ∈ states, k ∈ db.tables.tsigKeys := by
  induction h with
  | start _ => simp [Loading.keyRows] at hk
  | next _ _ hdb hnext ih =>
    rcases hnext.keyRows hk with hk | hk
    · exact ih hk
    · exact ⟨_, List.mem_of_getElem? hdb, hk⟩

def Loading.Without (n : ℕ) (l : Loading Token) : Prop := ∀ k ∈ l.keyRows, k.id ≠ n

lemma Loading.Without.next {t : Tables Token} {l l' : Loading Token} {n : ℕ} (h : l.Without n)
    (hg : Gone t n) (hn : l.Next t l') : l'.Without n := by
  intro k hk
  rcases hn.keyRows hk with hk | hk
  · exact h k hk
  · exact hg.2 k hk

variable (E F kek) in
def SnapshotWithout (σ : Relay Token) (n : ℕ) : Prop :=
  ∃ start m rows s, Reads σ.states start (.read rows) m ∧ (Loading.read rows).Without n ∧
    load E F kek rows = .ok s ∧ σ.snapshot = some s

end Loaded

section Revoked

def Task.committed : Task Token → Option (Write Token)
  | .waiting w => w
  | .loading w _ _ => w
  | .done w _ => w
  | _ => none

variable (E F kek) in
structure Revoked (σ : Relay Token) : Prop where
  gone : ∀ i n, (σ.tasks i).committed = some (.dropTsigKey n) → Gone σ.db.tables n
  loading : ∀ i n start l, σ.tasks i = .loading (some (.dropTsigKey n)) start l → l.Without n
  others : ∀ i n, σ.tasks i = .done (some (.dropTsigKey n)) true →
    ∀ j w start l, σ.tasks j = .loading w start l → l.Without n
  snapshot : ∀ i n, σ.tasks i = .done (some (.dropTsigKey n)) true → SnapshotWithout E F kek σ n

lemma SnapshotWithout.move {σ : Relay Token} {n : ℕ} (h : SnapshotWithout E F kek σ n)
    (db : Database Token) : SnapshotWithout E F kek (σ.move db) n := by
  obtain ⟨start, m, rows, s, hr, hw, hl, hs⟩ := h
  exact ⟨start, m, rows, s, hr.mono [db], hw, hl, hs⟩

lemma Revoked.move {σ : Relay Token} (h : Revoked E F kek σ) {db : Database Token}
    (hg : ∀ n, Gone σ.db.tables n → Gone db.tables n) : Revoked E F kek (σ.move db) :=
  ⟨fun i n hi => hg n (h.gone i n hi), h.loading, h.others,
    fun i n hi => (h.snapshot i n hi).move db⟩

lemma Revoked.set {σ : Relay Token} (h : Revoked E F kek σ) (i : ℕ) {task : Task Token}
    (hc : ∀ n, task.committed = some (.dropTsigKey n) → Gone σ.db.tables n)
    (hl : ∀ w start l, task ≠ .loading w start l) (hd : ∀ w, task ≠ .done w true) :
    Revoked E F kek (σ.set i task) := by
  refine ⟨fun j n hj => ?_, fun j n start l hj => ?_, fun j n hj k w start l hk => ?_,
    fun j n hj => ?_⟩
  · rw [Relay.set_tasks] at hj
    split at hj
    · exact hc n hj
    · exact h.gone j n hj
  · rw [Relay.set_tasks] at hj
    split at hj
    · exact absurd hj (hl _ start l)
    · exact h.loading j n start l hj
  · rw [Relay.set_tasks] at hj hk
    split at hj
    · exact absurd hj (hd _)
    · split at hk
      · exact absurd hk (hl w start l)
      · exact h.others j n hj k w start l hk
  · rw [Relay.set_tasks] at hj
    split at hj
    · exact absurd hj (hd _)
    · exact h.snapshot j n hj

lemma Revoked.step {σ σ' : Relay Token} {e : RelayEvent} (h : Revoked E F kek σ) (hx : Exclusive σ)
    (hr : Recorded E F kek σ) (hs : RelayStep E F kek σ e σ') : Revoked E F kek σ' := by
  cases hs with
  | prepare hi hp => exact h.set _ (by simp [Task.committed]) (by simp) (by simp)
  | @commit i req w db hi hc =>
    have hg : ∀ n, Gone σ.db.tables n → Gone db.tables n := by
      intro n hn
      rw [(Database.commit_eq_some.mp hc).2]
      exact hn.apply w
    refine (h.move hg).set i (fun n hn => ?_) (by simp) (by simp)
    obtain rfl := Option.some.inj hn
    exact gone_of_drop hc
  | @reject i req w hi hc =>
    exact (h.move (fun n hn => hn.drawn w)).set i (by simp [Task.committed]) (by simp) (by simp)
  | startup hi => exact h.set _ (by simp [Task.committed]) (by simp) (by simp)
  | @acquire i w hi hl =>
    refine ⟨fun j n hj => ?_, fun j n start l hj => ?_, fun j n hj k w' start l hk => ?_,
      fun j n hj => ?_⟩ <;> simp only [Relay.set_tasks] at *
    · split at hj
      · exact h.gone i n (by rw [hi]; exact hj)
      · exact h.gone j n hj
    · split at hj
      · obtain ⟨-, -, rfl⟩ := Task.loading.inj hj
        simp [Loading.Without, Loading.keyRows]
      · exact h.loading j n start l hj
    · split at hj
      · simp at hj
      · split at hk
        · obtain ⟨-, -, rfl⟩ := Task.loading.inj hk
          simp [Loading.Without, Loading.keyRows]
        · exact h.others j n hj k w' start l hk
    · split at hj
      · simp at hj
      · exact h.snapshot j n hj
  | @select i m w l l' hi hn =>
    refine ⟨fun j n hj => ?_, fun j n start k hj => ?_, fun j n hj k w' start k' hk => ?_,
      fun j n hj => ?_⟩ <;> rw [Relay.set_tasks] at hj
    · split at hj
      · exact h.gone i n (by rw [hi]; exact hj)
      · exact h.gone j n hj
    · split at hj
      · obtain ⟨rfl, rfl, rfl⟩ := Task.loading.inj hj
        exact (h.loading i n m l hi).next (h.gone i n (by rw [hi]; rfl)) hn
      · exact h.loading j n start k hj
    · split at hj
      · simp at hj
      · rw [Relay.set_tasks] at hk
        split at hk
        · obtain ⟨-, -, rfl⟩ := Task.loading.inj hk
          exact (h.others j n hj i w m l hi).next (h.gone j n (by rw [hj]; rfl)) hn
        · exact h.others j n hj k w' start k' hk
    · split at hj
      · simp at hj
      · exact h.snapshot j n hj
  | @swap i m w rows s hi hl =>
    obtain ⟨m', hreads, -⟩ := hr.loading i w m _ hi
    refine ⟨fun j n hj => ?_, fun j n start l hj => ?_, fun j n hj k w' start l hk => ?_,
      fun j n hj => ?_⟩ <;> simp only [Relay.set_tasks] at *
    · split at hj
      · exact h.gone i n (by rw [hi]; exact hj)
      · exact h.gone j n hj
    · split at hj
      · simp at hj
      · exact h.loading j n start l hj
    · split at hk
      · simp at hk
      · next hne => exact absurd (hx.unique hi hk) hne
    · refine ⟨m, m', rows, s, hreads, ?_, hl, rfl⟩
      split at hj
      · obtain ⟨rfl, -⟩ := Task.done.inj hj
        exact h.loading i n m _ hi
      · exact h.others j n hj i w m _ hi
  | @raise i m w rows e hi hl =>
    have hset := h.set i (fun n hn => h.gone i n (by rw [hi]; exact hn))
      (by simp : ∀ w' start l, Task.done w false ≠ .loading w' start l) (by simp)
    exact ⟨hset.gone, hset.loading, hset.others, hset.snapshot⟩
  | @fail i m w l hi =>
    have hset := h.set i (fun n hn => h.gone i n (by rw [hi]; exact hn))
      (by simp : ∀ w' start l, Task.done w false ≠ .loading w' start l) (by simp)
    exact ⟨hset.gone, hset.loading, hset.others, hset.snapshot⟩

lemma revoked_of_run {es : List RelayEvent} {σ : Relay Token} (h : (relay E F kek).Run es σ) :
    Revoked E F kek σ := by
  refine (System.Run.invariant (I := fun σ => Exclusive σ ∧ Recorded E F kek σ ∧
    Revoked E F kek σ) ?_ ?_ h).2.2
  · rintro σ ⟨reqs, db, hdb, rfl⟩
    have hinit := System.Run.init (T := relay E F kek) ⟨reqs, db, hdb, rfl⟩
    refine ⟨exclusive_of_run hinit, recorded_of_run hinit, ?_⟩
    constructor <;> simp [Relay.initial, Task.committed]
  · intro σ e σ' hi hs
    exact ⟨hi.1.step hs, hi.2.1.step hs, hi.2.2.step hi.1 hi.2.1 hs⟩

end Revoked

section Keyring

variable (E F kek) in
def FreshSecrets (states : List (Database Token)) : Prop :=
  ∀ db ∈ states, ∀ db' ∈ states, ∀ k ∈ db.tables.tsigKeys, ∀ k' ∈ db'.tables.tsigKeys, ∀ e e',
    rowKey E F kek k = .ok e → rowKey E F kek k' = .ok e' → e.2.secret = e'.2.secret → k.id = k'.id

/-- Once a revocation has refreshed the cache, no keyring holds the secret of the revoked row under
its name. -/
theorem revoked_secret_not_held {es : List RelayEvent} {σ : Relay Token}
    (h : (relay E F kek).Run es σ) (hfresh : FreshSecrets E F kek σ.states) {i n : ℕ}
    (hi : σ.tasks i = .done (some (.dropTsigKey n)) true) {db : Database Token}
    (hdb : db ∈ σ.states) {k : TsigKeyRow Token} (hk : k ∈ db.tables.tsigKeys) (hid : k.id = n)
    {e : Name × Dns.Key} (he : rowKey E F kek k = .ok e) :
    ∀ key, σ.keyring.get? e.1 = some key → key.secret ≠ e.2.secret := by
  intro key hget hsecret
  obtain ⟨start, m, rows, s, hreads, hwithout, hl, hs⟩ := (revoked_of_run h).snapshot i n hi
  obtain ⟨keys, hkeys, hkeyring⟩ := keyring_of_loadRuntime (load_eq_ok.mp hl).1
  simp only [Relay.keyring, hs, Option.elim_some, ← hkeyring] at hget
  obtain ⟨name, hm, -⟩ := Dict.get?_ofList_mem hget
  obtain ⟨k', hk', he'⟩ := exists_related (R := fun e k => rowKey E F kek k = .ok e) hkeys.flip hm
  obtain ⟨db', hdb', hmem⟩ := hreads.keyRows (k := k') hk'
  have hsame := hfresh db' hdb' db hdb k' hmem k hk _ _ he' he hsecret
  exact hwithout k' hk' (hsame.trans hid)

end Keyring

section Sample

def nameA : Name := ⟨[[97]], by decide⟩

def keyA : Dns.Key := ⟨nameA, List.replicate 32 1, .hmacSha256⟩

def revokedDb : Database String := ⟨(Write.dropTsigKey 1).apply keyDb.tables, by decide +kernel⟩

lemma commit_revoke : keyDb.commit (.dropTsigKey 1) = some revokedDb :=
  Database.commit_eq_some.mpr ⟨by decide +kernel, rfl⟩

lemma keyDb_keys : ∀ k ∈ keyDb.tables.tsigKeys, k.id = 1 ∧
    rowKey asciiPlatform plainFernet sampleKek k = .ok (nameA, keyA) := by
  decide +kernel

lemma run_revoke : ∃ es σ, (relay asciiPlatform plainFernet sampleKek).Run es σ ∧
    σ.tasks 1 = .waiting (some (.dropTsigKey 1)) ∧ σ.lock = none ∧ σ.db = revokedDb ∧
    σ.states = [.empty, keyDb, revokedDb] ∧ σ.keyring.get? nameA = some keyA := by
  obtain ⟨s, hl, hget⟩ : ∃ s, load asciiPlatform plainFernet sampleKek (rowsOf keyDb.tables) =
      .ok s ∧ s.runtime.keyring.get? nameA = some keyA := returns_of_map (by decide +kernel)
  obtain ⟨σ, hrun, hdb, hstates, hlock, -, hsnap, htasks⟩ :=
    run_refresh run_mint (Relay.set_self ..) rfl hl
  have hidle : σ.tasks 1 = .idle := by simp [htasks, Relay.set, Relay.move, Relay.initial]
  have hprep : prepare plainFernet sampleKek σ.db (.revokeTsigKey 1) = .ok (.dropTsigKey 1) := by
    rw [hdb]
    decide +kernel
  have hcommit : σ.db.commit (.dropTsigKey 1) = some revokedDb := by
    rw [hdb]
    exact commit_revoke
  refine ⟨_, _, (hrun.step (.prepare hidle hprep)).step (.commit (Relay.set_self ..) hcommit),
    Relay.set_self .., hlock, rfl, ?_, ?_⟩
  · simp only [Relay.set_states, Relay.move_states, hstates]
    rfl
  · simp only [Relay.keyring, Relay.set_snapshot, Relay.move_snapshot, hsnap]
    exact hget

theorem failed_refresh_keeps_secret : ∃ es σ, (relay asciiPlatform plainFernet sampleKek).Run es σ ∧
    σ.tasks 1 = .done (some (.dropTsigKey 1)) false ∧ ∃ k ∈ keyDb.tables.tsigKeys,
    keyDb ∈ σ.states ∧ k.id = 1 ∧ rowKey asciiPlatform plainFernet sampleKek k = .ok (nameA, keyA) ∧
    σ.keyring.get? nameA = some keyA := by
  obtain ⟨es, σ, hrun, hwait, hlock, -, hstates, hkeyring⟩ := run_revoke
  have hfail := (hrun.step (.acquire hwait hlock)).step (.fail (Relay.set_self ..))
  obtain ⟨k, hk⟩ : ∃ k, k ∈ keyDb.tables.tsigKeys := List.exists_mem_of_ne_nil _ (by decide +kernel)
  refine ⟨_, _, hfail, ?_, k, hk, ?_, (keyDb_keys k hk).1, (keyDb_keys k hk).2, hkeyring⟩
  · simp [Relay.set]
  · change keyDb ∈ σ.states
    simp [hstates]

theorem revoked_key_dropped : ∃ es σ, (relay asciiPlatform plainFernet sampleKek).Run es σ ∧
    σ.tasks 1 = .done (some (.dropTsigKey 1)) true ∧
    ∀ key, σ.keyring.get? nameA = some key → key.secret ≠ List.replicate 32 1 := by
  obtain ⟨es, σ, hrun, hwait, hlock, hdb, hstates, -⟩ := run_revoke
  obtain ⟨s, hl⟩ : ∃ s, load asciiPlatform plainFernet sampleKek (rowsOf σ.db.tables) = .ok s := by
    rw [hdb]
    exact returns_of_isSome (by decide +kernel)
  obtain ⟨σ', hrun', -, hstates', -, -, -, htasks⟩ := run_refresh hrun hwait hlock hl
  obtain ⟨k, hk⟩ : ∃ k, k ∈ keyDb.tables.tsigKeys := List.exists_mem_of_ne_nil _ (by decide +kernel)
  have hone : ∀ db ∈ [Database.empty, keyDb, revokedDb], ∀ k ∈ db.tables.tsigKeys, k.id = 1 := by
    decide +kernel
  have hfresh : FreshSecrets asciiPlatform plainFernet sampleKek σ'.states := by
    rw [hstates', hstates]
    intro db hdb db' hdb' k hk k' hk' _ _ _ _ _
    rw [hone db hdb k hk, hone db' hdb' k' hk']
  have hdone : σ'.tasks 1 = .done (some (.dropTsigKey 1)) true := by simp [htasks]
  have hmem : keyDb ∈ σ'.states := by simp [hstates', hstates]
  exact ⟨_, σ', hrun', hdone,
    revoked_secret_not_held hrun' hfresh hdone hmem hk (keyDb_keys k hk).1 (keyDb_keys k hk).2⟩

end Sample

end AstropathRelay.Cache
