import AstropathRelay.Cache.Refresh

/-! The cache converges: every snapshot is one complete load, and the last refresh to take the lock
has read every commit. -/

namespace AstropathRelay.Cache

open Lib Lib.Results Dns DataPlane Providers Store Api

variable {Key Token : Type} {E : Platform} {F : Fernet Key Token} {kek : Kek Key}

def Exclusive (σ : Relay Token) : Prop :=
  ∀ i w n l, σ.tasks i = .loading w n l → σ.lock = some i ∧ σ.last = some i

lemma Exclusive.unique {σ : Relay Token} (h : Exclusive σ) {i j n m : ℕ}
    {w w' : Option (Write Token)} {l l' : Loading Token} (hi : σ.tasks i = .loading w n l)
    (hj : σ.tasks j = .loading w' m l') : j = i :=
  Option.some.inj ((h j _ _ _ hj).1.symm.trans (h i _ _ _ hi).1)

lemma Exclusive.step {σ σ' : Relay Token} {e : RelayEvent} (h : Exclusive σ)
    (hs : RelayStep E F kek σ e σ') : Exclusive σ' := by
  intro j w n l hj
  cases hs with
  | prepare hi hp => grind [Exclusive]
  | commit hi hc => grind [Exclusive]
  | reject hi hc => grind [Exclusive]
  | startup hi => grind [Exclusive]
  | acquire hi hl => grind [Exclusive]
  | select hi hn => grind [Exclusive]
  | swap hi hl => grind [Exclusive]
  | raise hi hl => grind [Exclusive]
  | fail hi => grind [Exclusive]

section Snapshots

inductive Reads (states : List (Database Token)) (start : ℕ) : Loading Token → ℕ → Prop
  | start {n : ℕ} : start ≤ n → Reads states start .start n
  | next {l l' : Loading Token} {m n : ℕ} {db : Database Token} : Reads states start l m → m ≤ n →
      states[n]? = some db → l.Next db.tables l' → Reads states start l' n

lemma Reads.mono {states : List (Database Token)} {start n : ℕ} {l : Loading Token}
    (h : Reads states start l n)
    (more : List (Database Token)) : Reads (states ++ more) start l n := by
  induction h with
  | start hn => exact .start hn
  | next _ hmn hdb hnext ih =>
    refine .next ih hmn ?_ hnext
    rw [List.getElem?_append_left (List.getElem?_eq_some_iff.mp hdb).1]
    exact hdb

variable (E F kek) in
def FromLoad (states : List (Database Token)) (snapshot : Option CacheSnapshot) : Prop :=
  snapshot = none ∨ ∃ start n rows s, Reads states start (.read rows) n ∧
    load E F kek rows = .ok s ∧ snapshot = some s

variable (E F kek) in
structure Recorded (σ : Relay Token) : Prop where
  loading : ∀ i w start l, σ.tasks i = .loading w start l →
    ∃ n, Reads σ.states start l n ∧ n < σ.states.length
  snapshot : FromLoad E F kek σ.states σ.snapshot

lemma FromLoad.mono {states : List (Database Token)} {snapshot : Option CacheSnapshot}
    (h : FromLoad E F kek states snapshot) (more : List (Database Token)) :
    FromLoad E F kek (states ++ more) snapshot := by
  rcases h with h | ⟨start, n, rows, s, hr, hl, hs⟩
  · exact Or.inl h
  · exact Or.inr ⟨start, n, rows, s, hr.mono more, hl, hs⟩

lemma Recorded.move {σ : Relay Token} (h : Recorded E F kek σ) (db : Database Token) :
    Recorded E F kek (σ.move db) := by
  refine ⟨fun i w start l hi => ?_, h.snapshot.mono [db]⟩
  obtain ⟨n, hr, hn⟩ := h.loading i w start l hi
  exact ⟨n, hr.mono [db], by simp only [Relay.move_states, List.length_append]; omega⟩

lemma Recorded.set {σ : Relay Token} (h : Recorded E F kek σ) (i : ℕ) {task : Task Token}
    (ht : ∀ w start l, task ≠ .loading w start l) : Recorded E F kek (σ.set i task) := by
  refine ⟨fun j w start l hj => ?_, h.snapshot⟩
  rw [Relay.set_tasks] at hj
  split at hj
  · exact absurd hj (ht w start l)
  · exact h.loading j w start l hj

lemma Recorded.step {σ σ' : Relay Token} {e : RelayEvent} (h : Recorded E F kek σ)
    (hs : RelayStep E F kek σ e σ') : Recorded E F kek σ' := by
  cases hs with
  | prepare hi hp => exact h.set _ (by simp)
  | commit hi hc => exact (h.move _).set _ (by simp)
  | reject hi hc => exact (h.move _).set _ (by simp)
  | startup hi => exact h.set _ (by simp)
  | @acquire i w hi hl =>
    refine ⟨fun j w' start l hj => ?_, h.snapshot⟩
    change (σ.set i _).tasks j = _ at hj
    rw [Relay.set_tasks] at hj
    split at hj
    · obtain ⟨-, rfl, rfl⟩ := Task.loading.inj hj
      exact ⟨σ.past.length, .start le_rfl, by simp [Relay.states, Relay.set]⟩
    · exact h.loading j w' start l hj
  | @select i n w l l' hi hn =>
    refine ⟨fun j w' start k hj => ?_, h.snapshot⟩
    rw [Relay.set_tasks] at hj
    split at hj
    · obtain ⟨-, rfl, rfl⟩ := Task.loading.inj hj
      obtain ⟨m, hr, hm⟩ := h.loading i w n l hi
      have hlen : σ.states.length = σ.past.length + 1 := by simp [Relay.states]
      exact ⟨σ.past.length, .next hr (by omega) (by simp [Relay.states]) hn, by simp [hlen]⟩
    · exact h.loading j w' start k hj
  | @swap i n w rows s hi hl =>
    obtain ⟨m, hr, -⟩ := h.loading i w n _ hi
    have hset := h.set i (by simp : ∀ w' start l, Task.done w true ≠ .loading w' start l)
    exact ⟨hset.loading, Or.inr ⟨n, m, rows, s, hr, hl, rfl⟩⟩
  | @raise i n w rows e hi hl =>
    have hset := h.set i (by simp : ∀ w' start l, Task.done w false ≠ .loading w' start l)
    exact ⟨hset.loading, hset.snapshot⟩
  | @fail i n w l hi =>
    have hset := h.set i (by simp : ∀ w' start l, Task.done w false ≠ .loading w' start l)
    exact ⟨hset.loading, hset.snapshot⟩

lemma snapshot_of_step {σ σ' : Relay Token} {e : RelayEvent} (hs : RelayStep E F kek σ e σ') :
    σ'.snapshot = σ.snapshot ∨ ∃ i w n rows s, e = .finish i ∧
      σ.tasks i = .loading w n (.read rows) ∧ load E F kek rows = .ok s ∧ σ'.snapshot = some s := by
  cases hs with
  | swap hi hl => exact Or.inr ⟨_, _, _, _, _, rfl, hi, hl, rfl⟩
  | prepare | commit | reject | startup | acquire | select | raise | fail => exact Or.inl rfl

end Snapshots

section Converging

def Waiting (σ : Relay Token) : Prop := ∃ i w, σ.tasks i = .waiting w

def Loading.Current (t : Tables Token) : Loading Token → Prop
  | .start => True
  | .keys k => k.Perm t.tsigKeys
  | .backends k b => k.Perm t.tsigKeys ∧ b.Perm t.backends
  | .domains k b d => k.Perm t.tsigKeys ∧ b.Perm t.backends ∧ d.Perm t.domains
  | .read rows => Selects t rows

variable (E F kek) in
def UpToDate (σ : Relay Token) : Prop :=
  ∃ rows s, Selects σ.db.tables rows ∧ load E F kek rows = .ok s ∧ σ.snapshot = some s

variable (E F kek) in
structure Converging (σ : Relay Token) : Prop where
  loading : ∀ i w n l, σ.tasks i = .loading w n l → Waiting σ ∨ l.Current σ.db.tables
  done : ∀ i w, σ.last = some i → σ.tasks i = .done w true → Waiting σ ∨ UpToDate E F kek σ

lemma Loading.Current.next {t : Tables Token} {l l' : Loading Token} (h : l.Current t)
    (hn : l.Next t l') : l'.Current t := by
  cases hn with
  | keys hk => exact hk
  | backends hb => exact ⟨h, hb⟩
  | domains hd => exact ⟨h.1, h.2, hd⟩
  | read hi => exact ⟨h.1, h.2.1, h.2.2, hi⟩

lemma Selects.congr {t t' : Tables Token} {rows : Selected Token} (h : Selects t rows)
    (hk : t'.tsigKeys = t.tsigKeys)
    (hb : t'.backends = t.backends) (hd : t'.domains = t.domains) : Selects t' rows :=
  ⟨hk ▸ h.tsigKeys, hb ▸ h.backends, hd ▸ h.domains, hk ▸ h.tsigKeyIds⟩

lemma Loading.Current.congr {t t' : Tables Token} {l : Loading Token} (h : l.Current t)
    (hk : t'.tsigKeys = t.tsigKeys) (hb : t'.backends = t.backends) (hd : t'.domains = t.domains) :
    l.Current t' := by
  cases l with
  | start => trivial
  | keys k =>
    rw [Loading.Current, hk]
    exact h
  | backends k b => exact ⟨hk ▸ h.1, hb ▸ h.2⟩
  | domains k b d => exact ⟨hk ▸ h.1, hb ▸ h.2.1, hd ▸ h.2.2⟩
  | read rows => exact Selects.congr h hk hb hd

lemma Waiting.set {σ : Relay Token} (h : Waiting σ) {i : ℕ} (hi : ∀ w, σ.tasks i ≠ .waiting w)
    (task : Task Token) : Waiting (σ.set i task) := by
  obtain ⟨j, w, hj⟩ := h
  have hne : j ≠ i := fun hji => hi w (hji ▸ hj)
  exact ⟨j, w, by rw [Relay.set_tasks, if_neg hne]; exact hj⟩

lemma Converging.set {σ : Relay Token} (h : Converging E F kek σ) {i : ℕ} {task : Task Token}
    (hw : ∀ w, σ.tasks i ≠ .waiting w) (hl : ∀ w n l, task ≠ .loading w n l)
    (hd : ∀ w, task ≠ .done w true) : Converging E F kek (σ.set i task) := by
  refine ⟨fun j w n l hj => ?_, fun j w hlast hj => ?_⟩
  · rw [Relay.set_tasks] at hj
    split at hj
    · exact absurd hj (hl w n l)
    · exact (h.loading j w n l hj).imp (fun hh => hh.set hw task) id
  · rw [Relay.set_tasks] at hj
    split at hj
    · exact absurd hj (hd w)
    · exact (h.done j w hlast hj).imp (fun hh => hh.set hw task) id

lemma Converging.drawn {σ : Relay Token} (h : Converging E F kek σ) (w : Write Token) :
    Converging E F kek (σ.move (σ.db.drawn w)) := by
  obtain ⟨hk, hb, hd⟩ := σ.db.drawn_rows w
  refine ⟨fun i w n l hi => ?_, fun i w hlast hi => ?_⟩
  · exact (h.loading i w n l hi).imp id (fun hc => hc.congr hk hb hd)
  · refine (h.done i w hlast hi).imp id ?_
    rintro ⟨rows, s, hsel, hl, hs⟩
    exact ⟨rows, s, hsel.congr hk hb hd, hl, hs⟩

lemma Converging.step {σ σ' : Relay Token} {e : RelayEvent} (h : Converging E F kek σ)
    (hx : Exclusive σ) (hs : RelayStep E F kek σ e σ') : Converging E F kek σ' := by
  cases hs with
  | prepare hi hp => exact h.set (by simp [hi]) (by simp) (by simp)
  | @commit i req w db hi hc =>
    have hw : Waiting ((σ.move db).set i (.waiting (some w))) := ⟨i, some w, Relay.set_self ..⟩
    exact ⟨fun _ _ _ _ _ => Or.inl hw, fun _ _ _ _ => Or.inl hw⟩
  | @reject i req w hi hc => exact (h.drawn w).set (by simp [hi]) (by simp) (by simp)
  | @startup i hi =>
    have hw : Waiting (σ.set i (.waiting none)) := ⟨i, none, Relay.set_self ..⟩
    exact ⟨fun _ _ _ _ _ => Or.inl hw, fun _ _ _ _ => Or.inl hw⟩
  | @acquire i w hi hl =>
    refine ⟨fun j w' n l hj => ?_, fun j w' hlast hj => ?_⟩
    · change (σ.set i _).tasks j = _ at hj
      rw [Relay.set_tasks] at hj
      split at hj
      · obtain ⟨-, -, rfl⟩ := Task.loading.inj hj
        exact Or.inr trivial
      · exact absurd (hx j _ _ _ hj).1 (by simp [hl])
    · obtain rfl := Option.some.inj hlast
      change (σ.set i _).tasks i = _ at hj
      simp at hj
  | @select i n w l l' hi hn =>
    have hw : ∀ w', σ.tasks i ≠ .waiting w' := by simp [hi]
    refine ⟨fun j w' m k hj => ?_, fun j w' hlast hj => ?_⟩
    · rw [Relay.set_tasks] at hj
      split at hj
      · obtain ⟨-, -, rfl⟩ := Task.loading.inj hj
        exact (h.loading i w n l hi).imp (fun hh => hh.set hw _) (fun hc => hc.next hn)
      · exact (h.loading j w' m k hj).imp (fun hh => hh.set hw _) id
    · rw [Relay.set_tasks] at hj
      split at hj
      · simp at hj
      · exact (h.done j w' hlast hj).imp (fun hh => hh.set hw _) id
  | @swap i n w rows s hi hl =>
    have hw : ∀ w', σ.tasks i ≠ .waiting w' := by simp [hi]
    refine ⟨fun j w' m k hj => ?_, fun j w' hlast hj => ?_⟩
    · change (σ.set i _).tasks j = _ at hj
      rw [Relay.set_tasks] at hj
      split at hj
      · simp at hj
      · next hne => exact absurd (hx.unique hi hj) hne
    · refine (h.loading i w n _ hi).imp (fun hh => hh.set hw (.done w true)) ?_
      intro hc
      exact ⟨rows, s, hc, hl, rfl⟩
  | @raise i n w rows e hi hl =>
    have hset := h.set (i := i) (by simp [hi])
      (by simp : ∀ w' n l, Task.done w false ≠ .loading w' n l) (by simp)
    exact ⟨hset.loading, hset.done⟩
  | @fail i n w l hi =>
    have hset := h.set (i := i) (by simp [hi])
      (by simp : ∀ w' n l, Task.done w false ≠ .loading w' n l) (by simp)
    exact ⟨hset.loading, hset.done⟩

end Converging

section Runs

variable {es : List RelayEvent} {σ : Relay Token}

lemma exclusive_of_run (h : (relay E F kek).Run es σ) : Exclusive σ := by
  refine System.Run.invariant (I := Exclusive) ?_ (fun σ e σ' hx hs => hx.step hs) h
  rintro σ ⟨reqs, db, -, rfl⟩
  simp [Exclusive, Relay.initial]

lemma recorded_of_run (h : (relay E F kek).Run es σ) : Recorded E F kek σ := by
  refine System.Run.invariant (I := Recorded E F kek) ?_ (fun σ e σ' hr hs => hr.step hs) h
  rintro σ ⟨reqs, db, -, rfl⟩
  exact ⟨by simp [Relay.initial], Or.inl rfl⟩

lemma converging_of_run (h : (relay E F kek).Run es σ) : Converging E F kek σ := by
  refine (System.Run.invariant (I := fun σ => Exclusive σ ∧ Converging E F kek σ) ?_ ?_ h).2
  · rintro σ ⟨reqs, db, -, rfl⟩
    exact ⟨by simp [Exclusive, Relay.initial], by simp [Relay.initial], by simp [Relay.initial]⟩
  · intro σ e σ' hi hs
    exact ⟨hi.1.step hs, hi.2.step hi.1 hs⟩

def Task.Quiet : Task Token → Prop
  | .idle => True
  | .refused => True
  | .done _ _ => True
  | _ => False

/-- In every state of every run the snapshot is none or that of one complete load, and only a load
that succeeds changes it. Once every task has ended and the last one that took the lock succeeded,
it is that of the database as it is. -/
theorem cache_converges (h : (relay E F kek).Run es σ) :
    FromLoad E F kek σ.states σ.snapshot ∧
    (∀ e σ', RelayStep E F kek σ e σ' →
      σ'.snapshot = σ.snapshot ∨
      ∃ i w n rows s, e = .finish i ∧ σ.tasks i = .loading w n (.read rows) ∧
        load E F kek rows = .ok s ∧ σ'.snapshot = some s) ∧
    ((∀ i, (σ.tasks i).Quiet) → ∀ i w, σ.last = some i → σ.tasks i = .done w true →
      ∃ rows s, Selects σ.db.tables rows ∧ load E F kek rows = .ok s ∧ σ.snapshot = some s) := by
  refine ⟨(recorded_of_run h).snapshot, fun e σ' hs => snapshot_of_step hs,
    fun hq i w hlast hi => ?_⟩
  rcases (converging_of_run h).done i w hlast hi with ⟨j, w', hj⟩ | hu
  · have hquiet := hq j
    rw [hj] at hquiet
    exact absurd hquiet id
  · exact hu

def refreshEvents (i : ℕ) : List RelayEvent :=
  [.acquire i, .select i, .select i, .select i, .select i, .finish i]

lemma run_refresh (h : (relay E F kek).Run es σ) {i : ℕ} {w : Option (Write Token)}
    (hi : σ.tasks i = .waiting w)
    (hlock : σ.lock = none) {s : CacheSnapshot} (hl : load E F kek (rowsOf σ.db.tables) = .ok s) :
    ∃ σ', (relay E F kek).Run (es ++ refreshEvents i) σ' ∧ σ'.db = σ.db ∧ σ'.states = σ.states ∧
      σ'.lock = none ∧ σ'.last = some i ∧ σ'.snapshot = some s ∧
      ∀ j, σ'.tasks j = if j = i then .done w true else σ.tasks j := by
  have h₁ := h.step (.acquire hi hlock)
  have h₂ := h₁.step (.select (Relay.set_self ..) (.keys (.refl _)))
  have h₃ := h₂.step (.select (Relay.set_self ..) (.backends (.refl _)))
  have h₄ := h₃.step (.select (Relay.set_self ..) (.domains (.refl _)))
  have h₅ := h₄.step (.select (Relay.set_self ..) (.read (.refl _)))
  have h₆ := h₅.step (.swap (Relay.set_self ..) hl)
  simp only [List.append_assoc, List.singleton_append] at h₆
  refine ⟨_, h₆, rfl, rfl, rfl, rfl, rfl, fun j => ?_⟩
  by_cases hj : j = i <;> simp [Relay.set, hj]

end Runs

section Sample

def mintA : Write String := .addTsigKey "a" "hmac-sha256" (generateTsigSecret (List.replicate 32 1))

def keyDb : Database String := ⟨mintA.apply Database.empty.tables, by decide +kernel⟩

lemma run_mint : (relay asciiPlatform plainFernet sampleKek).Run
    [.prepare 0 (.createTsigKey ⟨"a", "hmac-sha256"⟩ (List.replicate 32 1) 0),
      .commit 0] ((((Relay.initial .empty).set 0 (.prepared (.createTsigKey ⟨"a", "hmac-sha256"⟩
      (List.replicate 32 1) 0) mintA)).move keyDb).set 0 (.waiting (some mintA))) := by
  refine .two ⟨[], .empty, .init rfl,
    rfl⟩ (.prepare rfl (by decide +kernel)) (.commit (Relay.set_self ..) ?_)
  exact Database.commit_eq_some.mpr ⟨trivial, rfl⟩

lemma keyDb_loads : ∃ s, load asciiPlatform plainFernet sampleKek (rowsOf keyDb.tables) = .ok s :=
  returns_of_isSome (by decide +kernel)

theorem mint_converges : ∃ σ, (relay asciiPlatform plainFernet sampleKek).Run
    ([.prepare 0 (.createTsigKey ⟨"a", "hmac-sha256"⟩ (List.replicate 32 1) 0), .commit 0] ++
      refreshEvents 0) σ ∧ σ.db = keyDb ∧ ∃ rows s, Selects σ.db.tables rows ∧
    load asciiPlatform plainFernet sampleKek rows = .ok s ∧ σ.snapshot = some s := by
  obtain ⟨s, hl⟩ := keyDb_loads
  obtain ⟨σ, hrun, hdb, -, -, hlast, -, htasks⟩ := run_refresh run_mint (Relay.set_self ..) rfl hl
  refine ⟨σ, hrun, hdb,
    (cache_converges hrun).2.2 (fun j => ?_) 0 (some mintA) hlast (by simp [htasks])⟩
  rw [htasks]
  by_cases hj : j = 0
  · simp [hj, Task.Quiet]
  · simp [hj, Task.Quiet, Relay.set, Relay.move, Relay.initial]

end Sample

end AstropathRelay.Cache
