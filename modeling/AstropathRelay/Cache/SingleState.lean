import AstropathRelay.Cache.Convergence

/-! When the SELECTs of a load add up to one state of the database. -/

namespace AstropathRelay.Cache

open Lib Lib.Results Dns DataPlane Providers Store Api

variable {Key Token : Type} {E : Platform} {F : Fernet Key Token} {kek : Kek Key}

section Congr

variable (F kek) in
structure BackendRows (bs : List (BackendRow Token)) : Prop where
  ids : (bs.map BackendRow.id).Nodup
  names : (bs.map BackendRow.name).Nodup
  ok : ∀ b ∈ bs, BackendOk F kek b

def Agree (bs bs' : List (BackendRow Token)) (ds : List (DomainRow Token)) : Prop :=
  ∀ d ∈ ds, ∃ b ∈ bs, b ∈ bs' ∧ b.id = d.backendId

lemma BackendRows.perm {bs bs' : List (BackendRow Token)} (h : BackendRows F kek bs)
    (hp : bs'.Perm bs) : BackendRows F kek bs' :=
  ⟨(hp.map _).nodup_iff.mpr h.ids, (hp.map _).nodup_iff.mpr h.names,
    fun b hb => h.ok b (hp.subset hb)⟩

lemma BackendRows.backendById {bs : List (BackendRow Token)} (h : BackendRows F kek bs)
    {b : BackendRow Token}
    (hb : b ∈ bs) : (Dict.ofList (bs.map (fun r => (r.id, r)))).get? b.id = some b := by
  refine Dict.get?_ofList_of_distinct (Dict.distinct_of_nodup ?_) (List.mem_map_of_mem hb)
  rw [List.map_map]
  exact h.ids

lemma BackendRows.configs {bs : List (BackendRow Token)} (h : BackendRows F kek bs) :
    ∃ stored, bs.mapM (backendConfig F kek) = .ok stored := by
  rw [mapM_returns]
  intro b hb
  obtain ⟨-, _, stored, _, -, hs, -⟩ := h.ok b hb
  exact ⟨stored, hs⟩

lemma buildDataPlane_congr {specs : List TsigKeySpec} {zones : List ZoneConfig}
    {bs bs' : List BackendConfig}
    (h : ∀ z ∈ zones, z.backend.bind (Dict.ofList (bs.map (fun b => (b.name, b)))).get? =
      z.backend.bind (Dict.ofList (bs'.map (fun b => (b.name, b)))).get?) :
    buildDataPlane E ⟨specs, zones, bs⟩ = buildDataPlane E ⟨specs, zones, bs'⟩ := by
  have hfold := foldlM_congr (f := buildZone E (Dict.ofList (bs.map (fun b => (b.name, b)))))
    (g := buildZone E (Dict.ofList (bs'.map (fun b => (b.name, b))))) (fun z (hz : z ∈ zones) acc =>
    by simp only [buildZone, zoneProvider, makeProvider, h z hz]) (∅, [])
  unfold buildDataPlane
  simp only [hfold]

lemma load_congr {k : List (TsigKeyRow Token)} {bs bs' : List (BackendRow Token)}
    {ds : List (DomainRow Token)} {ids : List (ℕ × String)} (hb : BackendRows F kek bs)
    (hb' : BackendRows F kek bs') (ha : Agree bs bs' ds) :
    load E F kek ⟨k, bs, ds, ids⟩ = load E F kek ⟨k, bs', ds, ids⟩ := by
  obtain ⟨stored, hs⟩ := hb.configs
  obtain ⟨stored', hs'⟩ := hb'.configs
  have hzones : ds.mapM (zoneConfig F kek (Dict.ofList (bs.map (fun r => (r.id, r))))) =
      ds.mapM (zoneConfig F kek (Dict.ofList (bs'.map (fun r => (r.id, r))))) := by
    refine mapM_congr (fun d hd => ?_)
    obtain ⟨b, hm, hm', hid⟩ := ha d hd
    unfold zoneConfig
    rw [← hid, hb.backendById hm, hb'.backendById hm']
  unfold load loadConfigFromDb
  simp only [hs, hs', hzones]
  cases k.mapM (tsigKeySpec F kek) with
  | error e => rfl
  | ok specs =>
    cases hz : ds.mapM (zoneConfig F kek (Dict.ofList (bs'.map (fun r => (r.id, r))))) with
    | error e => rfl
    | ok zones =>
      have hbuild : buildDataPlane E ⟨specs, zones, stored⟩ =
          buildDataPlane E ⟨specs, zones, stored'⟩ := by
        refine buildDataPlane_congr (fun z hzm => ?_)
        obtain ⟨d, hd, hzd⟩ :=
          exists_related (R := fun z d => zoneConfig F kek _ d = .ok z) (mapM_ok.mp hz).flip hzm
        obtain ⟨b, hm, hm', hid⟩ := ha d hd
        unfold zoneConfig at hzd
        rw [← hid, hb'.backendById hm'] at hzd
        obtain ⟨key, -, hzd⟩ := bind_ok.mp hzd
        obtain rfl := pure_ok.mp hzd
        obtain ⟨c, hc, hg⟩ := byName_of_backends hb.names (mapM_ok.mp hs) b hm
        obtain ⟨c', hc', hg'⟩ := byName_of_backends hb'.names (mapM_ok.mp hs') b hm'
        obtain rfl := Except.ok.inj (hc.symm.trans hc')
        rw [Option.bind_some, Option.bind_some, hg, hg']
      simp only [bind, Except.bind, pure, Except.pure, hbuild]

end Congr

section Calm

def onTsigKeys : Write Token → Bool
  | .addTsigKey _ _ _ => true
  | .dropTsigKey _ => true
  | _ => false

def onDomains : Write Token → Bool
  | .addDomain _ _ _ _ => true
  | .dropDomain _ => true
  | _ => false

/-- A commit that keeps what a load has read and what it will read together: no key write between
the two SELECTs of keys, and no domain write between those of backends and domains after which a
domain refers to a backend row that the first of them did not return. -/
def Loading.Calm (t : Tables Token) (w : Write Token) : Loading Token → Prop
  | .start => True
  | .keys _ => onTsigKeys w = false
  | .backends _ bs => onTsigKeys w = false ∧ (onDomains w = true →
      ∀ d ∈ (w.apply t).domains, ∀ b ∈ (w.apply t).backends, b.id = d.backendId → b ∈ bs)
  | .domains _ _ _ => onTsigKeys w = false
  | .read _ => True

def Calm (σ : Relay Token) : RelayEvent → Prop
  | .commit i => ∀ req w, σ.tasks i = .prepared req w → ∀ j w' n l, σ.tasks j = .loading w' n l →
      l.Calm σ.db.tables w
  | _ => True

lemma apply_tsigKeys {w : Write Token} (h : onTsigKeys w = false) (t : Tables Token) :
    (w.apply t).tsigKeys = t.tsigKeys := by
  cases w <;> first | rfl | simp [onTsigKeys] at h

lemma apply_domains {w : Write Token} (h : onDomains w = false) (t : Tables Token) :
    (w.apply t).domains = t.domains := by
  cases w <;> first | rfl | simp [onDomains] at h

end Calm

section Valid

variable (F kek) in
structure Valid (σ : Relay Token) : Prop where
  states : ∀ db ∈ σ.states, Sound F kek db.tables
  prepared : ∀ i req w, σ.tasks i = .prepared req w → WriteOk F kek σ.db.tables w

lemma db_mem_states (σ : Relay Token) : σ.db ∈ σ.states := by simp [Relay.states]

lemma Valid.move {σ : Relay Token} (h : Valid F kek σ) {db : Database Token}
    (hs : Sound F kek db.tables) (hw : ∀ w, WriteOk F kek σ.db.tables w →
      WriteOk F kek db.tables w) : Valid F kek (σ.move db) := by
  refine ⟨?_, fun i req w hi => hw w (h.prepared i req w hi)⟩
  rw [Relay.move_states, List.forall_mem_append, List.forall_mem_singleton]
  exact ⟨h.states, hs⟩

lemma Valid.set {σ : Relay Token} (h : Valid F kek σ) (i : ℕ) {task : Task Token}
    (ht : ∀ req w, task = .prepared req w → WriteOk F kek σ.db.tables w) :
    Valid F kek (σ.set i task) := by
  refine ⟨h.states, fun j req w hj => ?_⟩
  rw [Relay.set_tasks] at hj
  split at hj
  · exact ht req w hj
  · exact h.prepared j req w hj

lemma Valid.step {σ σ' : Relay Token} {e : RelayEvent} (h : Valid F kek σ)
    (hs : RelayStep E F kek σ e σ') : Valid F kek σ' := by
  cases hs with
  | prepare hi hp =>
    refine h.set _ (fun req w hw => ?_)
    obtain ⟨-, rfl⟩ := Task.prepared.inj hw
    exact writeOk_of_prepare hp
  | @commit i req w db hi hc =>
    have ht := (Database.commit_eq_some.mp hc).2
    refine (h.move ?_ ?_).set i (by simp)
    · rw [ht]
      exact (h.states σ.db (db_mem_states σ)).apply (h.prepared i req w hi)
    · intro w' hw'
      rw [ht]
      exact hw'.apply w
  | @reject i req w hi hc =>
    exact (h.move ((h.states σ.db (db_mem_states σ)).drawn w) (fun w' hw' => hw'.drawn w)).set i
      (by simp)
  | startup hi => exact h.set _ (by simp)
  | @acquire i w hi hl =>
    have hset :=
      h.set i (by simp : ∀ req w', Task.loading w σ.past.length .start = .prepared req w' → _)
    exact ⟨hset.states, hset.prepared⟩
  | select hi hn => exact h.set _ (by simp)
  | @swap i n w rows s hi hl =>
    have hset := h.set i (by simp : ∀ req w', Task.done w true = .prepared req w' → _)
    exact ⟨hset.states, hset.prepared⟩
  | @raise i n w rows e hi hl =>
    have hset := h.set i (by simp : ∀ req w', Task.done w false = .prepared req w' → _)
    exact ⟨hset.states, hset.prepared⟩
  | @fail i n w l hi =>
    have hset := h.set i (by simp : ∀ req w', Task.done w false = .prepared req w' → _)
    exact ⟨hset.states, hset.prepared⟩

lemma valid_of_run {es : List RelayEvent} {σ : Relay Token} (h : (relay E F kek).Run es σ) :
    Valid F kek σ := by
  refine System.Run.invariant (I := Valid F kek) ?_ (fun σ e σ' hv hs => hv.step hs) h
  rintro σ ⟨reqs, db, hdb, rfl⟩
  refine ⟨?_, by simp [Relay.initial]⟩
  simpa [Relay.states, Relay.initial] using sound_of_run hdb

end Valid

section Single

variable (F kek) in
def Loading.Single (db : Database Token) (since : List (Database Token)) : Loading Token → Prop
  | .start => True
  | .keys k => k.Perm db.tables.tsigKeys
  | .backends k bs => k.Perm db.tables.tsigKeys ∧ BackendRows F kek bs ∧ ∃ db₀ ∈ since,
      db₀.tables.tsigKeys = db.tables.tsigKeys ∧ db₀.tables.domains = db.tables.domains ∧
      Agree bs db₀.tables.backends db.tables.domains
  | .domains k bs ds => k.Perm db.tables.tsigKeys ∧ BackendRows F kek bs ∧ ∃ db₀ ∈ since,
      db₀.tables.tsigKeys = db.tables.tsigKeys ∧ ds.Perm db₀.tables.domains ∧
      Agree bs db₀.tables.backends ds
  | .read rows => BackendRows F kek rows.backends ∧
      ∃ db₀ ∈ since, rows.tsigKeys.Perm db₀.tables.tsigKeys ∧
      rows.tsigKeyIds.Perm (db₀.tables.tsigKeys.map (fun r => (r.id, r.name))) ∧
      rows.domains.Perm db₀.tables.domains ∧ Agree rows.backends db₀.tables.backends rows.domains

variable (F kek) in
def SingleState (σ : Relay Token) : Prop :=
  ∀ i w n l, σ.tasks i = .loading w n l → n ≤ σ.past.length ∧ l.Single F kek σ.db (σ.states.drop n)

lemma backendRows_of_sound {db : Database Token} (h : Sound F kek db.tables) :
    BackendRows F kek db.tables.backends :=
  ⟨db.consistent.backendIds, db.consistent.backendNames, h.backends⟩

lemma agree_self (db : Database Token) {bs : List (BackendRow Token)}
    (h : ∀ d ∈ db.tables.domains, ∀ b ∈ db.tables.backends, b.id = d.backendId → b ∈ bs) :
    Agree bs db.tables.backends db.tables.domains := by
  intro d hd
  obtain ⟨b, hb, hid⟩ := List.mem_map.mp (db.consistent.domainBackends d hd)
  exact ⟨b, h d hd b hb hid, hb, hid⟩

lemma Loading.Single.next {db : Database Token} {since : List (Database Token)}
    {l l' : Loading Token} (h : l.Single F kek db since) (hdb : db ∈ since)
    (hs : Sound F kek db.tables) (hn : l.Next db.tables l') : l'.Single F kek db since := by
  cases hn with
  | keys hk => exact hk
  | backends hb =>
    refine ⟨h, (backendRows_of_sound hs).perm hb, db, hdb, rfl, rfl, ?_⟩
    exact agree_self db (fun d _ b hm _ => hb.symm.subset hm)
  | domains hd =>
    obtain ⟨hk, hrows, db₀, hm, hkeys, hdoms, ha⟩ := h
    exact ⟨hk, hrows, db₀, hm, hkeys, by rw [hdoms]; exact hd, fun d hdm => ha d (hd.subset hdm)⟩
  | read hi =>
    obtain ⟨hk, hrows, db₀, hm, hkeys, hdoms, ha⟩ := h
    exact ⟨hrows, db₀, hm, by rw [hkeys]; exact hk, by rw [hkeys]; exact hi, hdoms, ha⟩

lemma Loading.Single.move {db db' : Database Token} {since : List (Database Token)}
    {l : Loading Token} (h : l.Single F kek db since)
    (hk : l = .start ∨ (∃ rows, l = .read rows) ∨ db'.tables.tsigKeys = db.tables.tsigKeys)
    (hd : ∀ k bs, l = .backends k bs → db'.tables.domains = db.tables.domains ∨
      Agree bs db'.tables.backends db'.tables.domains) : l.Single F kek db' (since ++ [db']) := by
  cases l with
  | start => trivial
  | keys k =>
    obtain hk | ⟨_, hk⟩ | hk := hk <;> first | simp at hk | skip
    rw [Loading.Single, hk]
    exact h
  | backends k bs =>
    obtain hk | ⟨_, hk⟩ | hk := hk <;> first | simp at hk | skip
    obtain ⟨hperm, hrows, db₀, hm, hkeys, hdoms, ha⟩ := h
    refine ⟨hk ▸ hperm, hrows, ?_⟩
    rcases hd k bs rfl with hd | hd
    · exact ⟨db₀, List.mem_append_left _ hm, hkeys.trans hk.symm, hdoms.trans hd.symm, hd ▸ ha⟩
    · exact ⟨db', by simp, rfl, rfl, hd⟩
  | domains k bs ds =>
    obtain hk | ⟨_, hk⟩ | hk := hk <;> first | simp at hk | skip
    obtain ⟨hperm, hrows, db₀, hm, hkeys, hdoms, ha⟩ := h
    exact ⟨hk ▸ hperm, hrows, db₀, List.mem_append_left _ hm, hkeys.trans hk.symm, hdoms, ha⟩
  | read rows =>
    obtain ⟨hrows, db₀, hm, hkeys, hids, hdoms, ha⟩ := h
    exact ⟨hrows, db₀, List.mem_append_left _ hm, hkeys, hids, hdoms, ha⟩

lemma Loading.Single.commit {db db' : Database Token} {since : List (Database Token)}
    {l : Loading Token} {w : Write Token} (h : l.Single F kek db since) (hc : l.Calm db.tables w)
    (ht : db'.tables = w.apply db.tables) : l.Single F kek db' (since ++ [db']) := by
  refine h.move ?_ ?_
  · cases l with
    | start => exact Or.inl rfl
    | read rows => exact Or.inr (Or.inl ⟨rows, rfl⟩)
    | keys k => exact Or.inr (Or.inr (by rw [ht, apply_tsigKeys hc]))
    | backends k bs => exact Or.inr (Or.inr (by rw [ht, apply_tsigKeys hc.1]))
    | domains k bs ds => exact Or.inr (Or.inr (by rw [ht, apply_tsigKeys hc]))
  · rintro k bs rfl
    cases hdom : onDomains w with
    | false => exact Or.inl (by rw [ht, apply_domains hdom])
    | true =>
      refine Or.inr (agree_self db' ?_)
      rw [ht]
      exact hc.2 hdom

lemma SingleState.set {σ : Relay Token} (h : SingleState F kek σ) (i : ℕ) (task : Task Token)
    (ht : ∀ w n l, task = .loading w n l → n ≤ σ.past.length ∧
      l.Single F kek σ.db (σ.states.drop n)) : SingleState F kek (σ.set i task) := by
  intro j w n l hj
  rw [Relay.set_tasks] at hj
  split at hj
  · exact ht w n l hj
  · exact h j w n l hj

lemma drop_move {σ : Relay Token} {n : ℕ} (h : n ≤ σ.past.length) (db : Database Token) :
    (σ.move db).states.drop n = σ.states.drop n ++ [db] := by
  rw [Relay.move_states, List.drop_append_of_le_length]
  simp only [Relay.states, List.length_append, List.length_singleton]
  omega

lemma db_mem_since {σ : Relay Token} {n : ℕ} (h : n ≤ σ.past.length) : σ.db ∈ σ.states.drop n := by
  rw [Relay.states, List.drop_append_of_le_length h]
  simp

lemma SingleState.move {σ : Relay Token} (h : SingleState F kek σ) {db : Database Token}
    (hm : ∀ i w n l, σ.tasks i = .loading w n l → ∀ since, l.Single F kek σ.db since →
      l.Single F kek db (since ++ [db])) : SingleState F kek (σ.move db) := by
  intro i w n l hi
  obtain ⟨hn, hl⟩ := h i w n l hi
  refine ⟨by simp only [Relay.move, List.length_append]; omega, ?_⟩
  rw [drop_move hn, Relay.move_db]
  exact hm i w n l hi _ hl

lemma SingleState.step {σ σ' : Relay Token} {e : RelayEvent} (h : SingleState F kek σ)
    (hv : Valid F kek σ)
    (hcalm : Calm σ e) (hs : RelayStep E F kek σ e σ') : SingleState F kek σ' := by
  cases hs with
  | prepare hi hp => exact h.set _ _ (by simp)
  | @commit i req w db hi hc =>
    refine (h.move (fun j w' n l hj since hl => ?_)).set i _ (by simp)
    exact hl.commit (hcalm req w hi j w' n l hj) (Database.commit_eq_some.mp hc).2
  | @reject i req w hi hc =>
    refine (h.move (fun j w' n l hj since hl => ?_)).set i _ (by simp)
    obtain ⟨hk, -, hd⟩ := σ.db.drawn_rows w
    exact hl.move (Or.inr (Or.inr hk)) (fun _ _ _ => Or.inl hd)
  | startup hi => exact h.set _ _ (by simp)
  | @acquire i w hi hl =>
    refine h.set i (.loading w σ.past.length .start) ?_
    intro w' n l hj
    obtain ⟨-, rfl, rfl⟩ := Task.loading.inj hj
    exact ⟨le_rfl, trivial⟩
  | @select i n w l l' hi hn =>
    refine h.set i _ ?_
    intro w' m k hj
    obtain ⟨-, rfl, rfl⟩ := Task.loading.inj hj
    obtain ⟨hle, hl⟩ := h i w n l hi
    exact ⟨hle, hl.next (db_mem_since hle) (hv.states σ.db (db_mem_states σ)) hn⟩
  | @swap i n w rows s hi hl => exact h.set i (.done w true) (by simp)
  | @raise i n w rows e hi hl => exact h.set i (.done w false) (by simp)
  | @fail i n w l hi => exact h.set i (.done w false) (by simp)

lemma singleState_of_run {es : List RelayEvent} {σ : Relay Token}
    (h : ((relay E F kek).restrict Calm).Run es σ) : SingleState F kek σ := by
  refine (System.Run.invariant (I := fun σ => Valid F kek σ ∧ SingleState F kek σ) ?_ ?_ h).2
  · intro σ hinit
    refine ⟨valid_of_run (E := E) (.init hinit), ?_⟩
    obtain ⟨reqs, db, -, rfl⟩ := hinit
    simp [SingleState, Relay.initial]
  · intro σ e σ' hi hs
    exact ⟨hi.1.step hs.2, hi.2.step hi.1 hs.1 hs.2⟩

/-- While every commit is calm, what a load makes of its SELECTs, a snapshot or an exception, is
what it makes of one state of the database since its start. -/
theorem load_of_single_state {es : List RelayEvent} {σ : Relay Token}
    (h : ((relay E F kek).restrict Calm).Run es σ) {i n : ℕ} {w : Option (Write Token)}
    {rows : Selected Token} (hi : σ.tasks i = .loading w n (.read rows)) :
    ∃ db ∈ σ.states.drop n, ∃ rows', Selects db.tables rows' ∧
      load E F kek rows = load E F kek rows' := by
  obtain ⟨-, hrows, db, hdb, hkeys, hids, hdoms, ha⟩ := singleState_of_run h i w n _ hi
  have hsound := (valid_of_run h.of_restrict).states db (List.mem_of_mem_drop hdb)
  refine ⟨db, hdb, ⟨rows.tsigKeys, db.tables.backends, rows.domains, rows.tsigKeyIds⟩,
    ⟨hkeys, .refl _, hdoms, hids⟩, ?_⟩
  exact load_congr hrows (backendRows_of_sound hsound) ha

end Single

section Sample

def addHe : Write String :=
  .addBackend "he" "hurricane"
    (JsonText.dumps [("cleanup_placeholder", .str "acme-challenge-cleared")])

def addExample : Write String :=
  .addDomain "example.com" 1 "_acme-challenge.example.com" (some "key")

def heDb : Database String := ⟨addHe.apply Database.empty.tables, by decide +kernel⟩

def exampleDb : Database String := ⟨addExample.apply heDb.tables, by decide +kernel⟩

lemma calm_step {es : List RelayEvent} {σ σ' : Relay Token} {e : RelayEvent}
    (h : ((relay E F kek).restrict Calm).Run es σ) (hs : RelayStep E F kek σ e σ') (hc : Calm σ e) :
    ((relay E F kek).restrict Calm).Run (es ++ [e]) σ' :=
  .step h ⟨hc, hs⟩

lemma run_heDb : ∃ es σ, ((relay asciiPlatform plainFernet sampleKek).restrict Calm).Run es σ ∧
    σ.tasks 0 = .loading none 0 (.backends [] []) ∧ σ.tasks 2 = .idle ∧ σ.db = heDb ∧
    σ.states = [.empty, heDb] := by
  have h₀ : ((relay asciiPlatform plainFernet sampleKek).restrict Calm).Run [] (.initial .empty) :=
    .init ⟨[], .empty, .init rfl, rfl⟩
  have h₁ := calm_step h₀ (.startup (i := 0) rfl) trivial
  have h₂ := calm_step h₁ (.acquire (Relay.set_self ..) rfl) trivial
  have h₃ := calm_step h₂ (.select (Relay.set_self ..) (.keys (.refl []))) trivial
  have h₄ := calm_step h₃ (.select (Relay.set_self ..) (.backends (.refl []))) trivial
  have h₅ := calm_step h₄ (.prepare (i := 1) (w := addHe) (by simp [Relay.set, Relay.initial])
    (show prepare plainFernet sampleKek .empty sampleBackend = .ok addHe by decide +kernel)) trivial
  have hcommit : Database.empty.commit addHe = some heDb :=
    Database.commit_eq_some.mpr ⟨trivial, rfl⟩
  have h₆ := calm_step h₅ (.commit (Relay.set_self ..) hcommit) (by
    intro req w hw j w' n l hj
    have hj0 : j = 0 := by
      by_contra hne
      by_cases hj1 : j = 1 <;> simp [Relay.set, Relay.initial, hne, hj1] at hj
    subst hj0
    simp [Relay.set] at hj hw
    obtain ⟨-, rfl⟩ := hw
    obtain ⟨-, -, rfl⟩ := hj
    exact ⟨rfl, by simp [onDomains, addHe]⟩)
  exact ⟨_, _, h₆, by simp [Relay.set, Relay.move, Relay.initial],
    by simp [Relay.set, Relay.move, Relay.initial], rfl, rfl⟩

theorem calm_load :
    ∃ es σ rows, ((relay asciiPlatform plainFernet sampleKek).restrict Calm).Run es σ ∧
      σ.tasks 0 = .loading none 0 (.read rows) ∧ ∃ db ∈ σ.states.drop 0, ∃ rows',
      Selects db.tables rows' ∧ load asciiPlatform plainFernet sampleKek rows =
      load asciiPlatform plainFernet sampleKek rows' := by
  obtain ⟨es, σ, h, hi, -, hdb, -⟩ := run_heDb
  have hd : σ.db.tables.domains = [] := by
    rw [hdb]
    rfl
  have hk : σ.db.tables.tsigKeys = [] := by
    rw [hdb]
    rfl
  have h₁ := calm_step h (.select hi (.domains (by rw [hd] : [].Perm σ.db.tables.domains))) trivial
  have h₂ := calm_step h₁ (.select (Relay.set_self ..)
    (.read (by rw [hk]; exact .nil : [].Perm (σ.db.tables.tsigKeys.map (fun r => (r.id, r.name))))))
    trivial
  exact ⟨_, _, _, h₂, Relay.set_self .., load_of_single_state h₂ (Relay.set_self ..)⟩

theorem torn_load : ∃ es σ rows, (relay asciiPlatform plainFernet sampleKek).Run es σ ∧
    σ.tasks 0 = .loading none 0 (.read rows) ∧
    load asciiPlatform plainFernet sampleKek rows = .error .keyError ∧
    ∀ db ∈ σ.states.drop 0, ∀ rows', Selects db.tables rows' →
      ∃ s, load asciiPlatform plainFernet sampleKek rows' = .ok s := by
  obtain ⟨es, σ, h, hi, hidle, hdb, hstates⟩ := run_heDb
  have hprep : prepare plainFernet sampleKek σ.db sampleDomain = .ok addExample := by
    rw [hdb]
    decide +kernel
  have hcommit : σ.db.commit addExample = some exampleDb := by
    rw [hdb]
    exact Database.commit_eq_some.mpr ⟨trivial, rfl⟩
  have hloading : (((σ.set 2 (.prepared sampleDomain addExample)).move exampleDb).set 2
      (.waiting (some addExample))).tasks 0 = .loading none 0 (.backends [] []) := by
    simpa [Relay.set_tasks] using hi
  have h₁ := h.of_restrict.step (.prepare hidle hprep)
  have h₂ := h₁.step (.commit (Relay.set_self ..) hcommit)
  have h₃ := h₂.step (.select hloading (.domains (.refl exampleDb.tables.domains)))
  have h₄ := h₃.step (.select (Relay.set_self ..) (.read (.refl [])))
  refine ⟨_, _, _, h₄, Relay.set_self ..,
    (by decide +kernel : load asciiPlatform plainFernet sampleKek
    ⟨[], [], exampleDb.tables.domains, []⟩ = .error .keyError), ?_⟩
  intro db hmem rows' hsel
  have hsound := (valid_of_run h₄).states db hmem
  change db ∈ (σ.states ++ [exampleDb]) at hmem
  rw [hstates] at hmem
  have hparse : ∀ db ∈ [Database.empty, heDb, exampleDb], db.tables.tsigKeys = [] ∧
      ∀ d ∈ db.tables.domains, (Name.fromText asciiPlatform.fromUnicode d.zone).toOption.isSome ∧
      (Name.fromText asciiPlatform.fromUnicode d.recordName).toOption.isSome := by decide +kernel
  obtain ⟨hk, hd⟩ := hparse db hmem
  exact load_returns hsound db.consistent hsel ⟨fun d hm => returns_of_isSome (hd d hm).1,
    fun d hm => returns_of_isSome (hd d hm).2, by simp [hk]⟩

end Sample

end AstropathRelay.Cache
