import AstropathRelay.Cache.Loads

/-! The loop over the zones constructs one provider for each backend that a zone names. -/

namespace AstropathRelay.Cache

open Lib Lib.JsonText Lib.Results Dns DataPlane Providers Store Api

variable {Key Token : Type}

abbrev BootstrapConfig.backendsByName (config : BootstrapConfig) : Dict String BackendConfig :=
  Dict.ofList (config.backends.map (fun b => (b.name, b)))

section Wired

variable (E : Platform)

def constructing (backendsByName : Dict String BackendConfig) :
    Dict String Provider × List (Route ProviderRef) → List ZoneConfig → List ZoneConfig
  | _, [] => []
  | acc, z :: zs =>
    (if (acc.1.get? (providerKey z)).isNone then [z] else []) ++
      match buildZone E backendsByName acc z with
      | .error _ => []
      | .ok acc' => constructing backendsByName acc' zs

def RouteOf (z : ZoneConfig) (r : Route ProviderRef) : Prop :=
  ∃ zone recordName, Name.fromText E.fromUnicode z.zone = .ok zone ∧
    Name.fromText E.fromUnicode z.recordName = .ok recordName ∧ r.zone = zone.canonicalize ∧
    r.recordName = recordName.canonicalize

def BuiltFrom (b : BackendConfig) (provider : Provider) : Prop :=
  ∃ p fresh, getProvider b.provider = some p ∧ fromConfig p b.config = .ok fresh ∧
    provider.config = fresh.config

def Used (config : BootstrapConfig) (b : BackendConfig) : Prop :=
  b ∈ config.backends ∧ ∃ z ∈ config.zones, z.backend = some b.name

structure Wired (config : BootstrapConfig) (providers : Dict String Provider)
    (routes : List (Route ProviderRef)) : Prop where
  route : List.Forall₂ (fun z r => RouteOf E z r ∧ ∃ b, Used config b ∧ z.backend = some b.name ∧
    ∃ provider, providers.get? r.provider.key = some provider ∧
    BuiltFrom b provider) config.zones routes
  shared : ∀ p ∈ config.zones.zip routes, ∀ q ∈ config.zones.zip routes,
    p.2.provider.key = q.2.provider.key ↔ p.1.backend = q.1.backend
  once : ∃ used : List BackendConfig, used.Nodup ∧ (∀ b, b ∈ used ↔ Used config b) ∧
    List.Forall₂ BuiltFrom used providers.values ∧
    List.Forall₂ (fun b z => z.backend = some b.name) used
      (constructing E config.backendsByName (∅, []) config.zones)

end Wired

def KeyClash (config : BootstrapConfig) : Prop :=
  ∃ b b', Used config b ∧ Used config b' ∧ b.name = "" ∧ b'.name = b.provider ∧ b'.name ≠ ""

structure FromRows (config : BootstrapConfig) : Prop where
  names : (config.backends.map BackendConfig.name).Nodup
  zones : ∀ z ∈ config.zones, ∃ b ∈ config.backends, z.backend = some b.name ∧
    z.provider = b.provider

lemma fromRows_of_load {F : Fernet Key Token} {kek : Kek Key} {rows : Selected Token}
    {config : BootstrapConfig} (hn : (rows.backends.map BackendRow.name).Nodup)
    (h : loadConfigFromDb F kek rows = .ok config) : FromRows config := by
  obtain ⟨-, hb, hz⟩ := loadConfigFromDb_ok.mp h
  refine ⟨?_, fun z hm => ?_⟩
  · have hnames : config.backends.map BackendConfig.name = rows.backends.map BackendRow.name := by
      rw [← List.forall₂_eq_eq_eq, List.forall₂_map_left_iff, List.forall₂_map_right_iff]
      exact hb.flip.imp (fun c b hc => (backendConfig_ok hc).1)
    rwa [hnames]
  · obtain ⟨d, -, hd⟩ := exists_related hz.flip hm
    replace hd : zoneConfig F kek (Dict.ofList (rows.backends.map (fun r => (r.id, r)))) d =
      .ok z := hd
    unfold zoneConfig at hd
    split at hd
    · simp at hd
    · next b hg =>
      obtain ⟨hbm, -⟩ := backendById_mem hg
      obtain ⟨stored, hstored, hs⟩ := exists_related hb hbm
      obtain ⟨hname, htype⟩ := backendConfig_ok hs
      obtain ⟨key, -, hd⟩ := bind_ok.mp hd
      obtain rfl := pure_ok.mp hd
      exact ⟨stored, hstored, by rw [hname], htype.symm⟩

section Keys

def backendKey (b : BackendConfig) : String := if b.name = "" then b.provider else b.name

variable {config : BootstrapConfig}

lemma providerKey_eq {z : ZoneConfig} {b : BackendConfig} (hz : z.backend = some b.name)
    (hp : z.provider = b.provider) : providerKey z = backendKey b := by
  simp [providerKey, backendKey, hz, hp]

lemma FromRows.eq_of_name (hc : FromRows config) {b b' : BackendConfig} (hb : b ∈ config.backends)
    (hb' : b' ∈ config.backends) (h : b.name = b'.name) : b = b' :=
  List.inj_on_of_nodup_map hc.names hb hb' h

lemma FromRows.providerKey (hc : FromRows config) {z : ZoneConfig} (hz : z ∈ config.zones) :
    ∃ b, Used config b ∧ z.backend = some b.name ∧ providerKey z = backendKey b := by
  obtain ⟨b, hb, hname, hp⟩ := hc.zones z hz
  exact ⟨b, ⟨hb, z, hz, hname⟩, hname, providerKey_eq hname hp⟩

def KeysApart (config : BootstrapConfig) : Prop :=
  ∀ b b', Used config b → Used config b' → backendKey b = backendKey b' → b = b'

lemma keysApart_iff (hc : FromRows config) : KeysApart config ↔ ¬ KeyClash config := by
  constructor
  · rintro h ⟨b, b', hb, hb', he, hn, hne⟩
    obtain rfl := h b b' hb hb' (by rw [backendKey, backendKey, if_pos he, if_neg hne, hn])
    exact hne he
  · intro h b b' hb hb' hk
    apply hc.eq_of_name hb.1 hb'.1
    unfold backendKey at hk
    by_contra hne
    by_cases he : b.name = ""
    · by_cases he' : b'.name = ""
      · exact hne (he.trans he'.symm)
      · rw [if_pos he, if_neg he'] at hk
        exact h ⟨b, b', hb, hb', he, hk.symm, he'⟩
    · by_cases he' : b'.name = ""
      · rw [if_neg he, if_pos he'] at hk
        exact h ⟨b', b, hb', hb, he', hk, he⟩
      · rw [if_neg he, if_neg he'] at hk
        exact hne hk

end Keys

section Loop

variable {E : Platform} {config : BootstrapConfig}

structure Progress (config : BootstrapConfig) (past : List ZoneConfig)
    (acc : Dict String Provider × List (Route ProviderRef)) (used : List BackendConfig) : Prop where
  nodup : used.Nodup
  mem_iff : ∀ b, b ∈ used ↔ b ∈ config.backends ∧ ∃ z ∈ past, z.backend = some b.name
  entries : List.Forall₂ (fun b e => e.1 = backendKey b ∧ BuiltFrom b e.2) used acc.1.entries

variable {past : List ZoneConfig} {acc acc' : Dict String Provider × List (Route ProviderRef)}
  {used : List BackendConfig}

lemma Progress.isUsed (hp : Progress config past acc used) (hpast : past ⊆ config.zones)
    {b : BackendConfig} (hb : b ∈ used) : Used config b := by
  obtain ⟨hm, z, hz, hname⟩ := (hp.mem_iff b).mp hb
  exact ⟨hm, z, hpast hz, hname⟩

lemma Progress.builtFrom (hp : Progress config past acc used) (hk : KeysApart config)
    (hpast : past ⊆ config.zones) {b : BackendConfig} (hb : Used config b) {provider : Provider}
    (h : acc.1.get? (backendKey b) = some provider) : b ∈ used ∧ BuiltFrom b provider := by
  obtain ⟨l, l', he, -⟩ := List.lookup_eq_some_iff.mp h
  have hm : (backendKey b, provider) ∈ acc.1.entries := by rw [he]; simp
  obtain ⟨b', hb', hkey, hbuilt⟩ := exists_related hp.entries.flip hm
  obtain rfl := hk b b' hb (hp.isUsed hpast hb') hkey
  exact ⟨hb', hbuilt⟩

lemma Progress.get?_isSome (hp : Progress config past acc used) {b : BackendConfig}
    (hb : b ∈ used) : (acc.1.get? (backendKey b)).isSome := by
  obtain ⟨e, he, hkey, -⟩ := exists_related hp.entries hb
  exact List.lookup_isSome_iff.mpr ⟨e, he, by simp [hkey]⟩

lemma BuiltFrom.bindKey {b : BackendConfig} {provider : Provider} (h : BuiltFrom b provider)
    (z : ZoneConfig) : BuiltFrom b (bindKey E provider z) := by
  obtain ⟨p, fresh, hp, hf, hconfig⟩ := h
  exact ⟨p, fresh, hp, hf, by rw [bindKey_config, hconfig]⟩

lemma builtFrom_of_makeProvider (hc : FromRows config) {b : BackendConfig}
    (hb : b ∈ config.backends) {z : ZoneConfig} (hz : z.backend = some b.name) {provider : Provider}
    (h : makeProvider config.backendsByName z = .ok provider) : BuiltFrom b provider := by
  have hd : Dict.Distinct (config.backends.map (fun b => (b.name, b))) := by
    apply Dict.distinct_of_nodup
    rw [List.map_map]
    exact hc.names
  have hget := Dict.get?_ofList_of_distinct hd (List.mem_map_of_mem hb)
  unfold makeProvider at h
  simp only [hz, Option.bind_some, hget, Option.elim_some] at h
  split at h
  · simp at h
  · next p hp =>
    split at h
    · simp at h
    · next fresh hf =>
      obtain rfl := Except.ok.inj h
      exact ⟨p, fresh, hp, hf, rfl⟩

lemma mem_used_concat (hc : FromRows config) (hp : Progress config past acc used)
    {b : BackendConfig}
    (hb : b ∈ config.backends) {z : ZoneConfig} (hz : z.backend = some b.name) (c : BackendConfig) :
    c ∈ config.backends ∧ (∃ z' ∈ past ++ [z], z'.backend = some c.name) ↔ c ∈ used ∨ c = b := by
  rw [hp.mem_iff c]
  constructor
  · rintro ⟨hm, z', hz', hname⟩
    rcases List.mem_append.mp hz' with hz' | hz'
    · exact .inl ⟨hm, z', hz', hname⟩
    · obtain rfl := List.mem_singleton.mp hz'
      exact .inr (hc.eq_of_name hm hb (Option.some.inj (hname.symm.trans hz)))
  · rintro (⟨hm, z', hz', hname⟩ | rfl)
    · exact ⟨hm, z', List.mem_append_left _ hz', hname⟩
    · exact ⟨hb, z, by simp, hz⟩

lemma Progress.zone (hp : Progress config past acc used) (hc : FromRows config)
    (hk : KeysApart config) (hpast : past ⊆ config.zones) {z : ZoneConfig} (hz : z ∈ config.zones)
    (h : buildZone E config.backendsByName acc z = .ok acc') :
    ∃ new, Progress config (past ++ [z]) acc' (used ++ new) ∧ List.Forall₂ (fun b z =>
      z.backend = some b.name) new (if (acc.1.get? (providerKey z)).isNone then [z] else []) := by
  obtain ⟨b, hb, hname, hkey⟩ := hc.providerKey hz
  obtain ⟨provider, hprovider, h⟩ := bind_ok.mp h
  obtain ⟨zone, -, h⟩ := bind_ok.mp h
  obtain ⟨recordName, -, h⟩ := bind_ok.mp h
  obtain rfl := pure_ok.mp h
  unfold zoneProvider at hprovider
  rw [hkey] at hprovider ⊢
  cases hg : acc.1.get? (backendKey b) with
  | some found =>
    rw [hg] at hprovider
    obtain rfl := Except.ok.inj hprovider
    obtain ⟨hmem, hbuilt⟩ := hp.builtFrom hk hpast hb hg
    refine ⟨[], ⟨by simpa using hp.nodup, fun c => ?_, ?_⟩, .nil⟩
    · rw [List.append_nil, mem_used_concat hc hp hb.1 hname]
      exact ⟨.inl, fun hm => hm.elim id (fun he => he ▸ hmem)⟩
    · rw [List.append_nil]
      apply Dict.forall₂_setEntries hp.entries (Option.isSome_of_mem hg)
      rintro c hcm e ⟨he, -⟩ hek
      obtain rfl := hk b c hb (hp.isUsed hpast hcm) ((beq_iff_eq.mp hek).trans he)
      exact ⟨he, hbuilt.bindKey z⟩
  | none =>
    rw [hg] at hprovider
    have hbuilt := builtFrom_of_makeProvider hc hb.1 hname hprovider
    have hnew : b ∉ used := by
      intro hm
      have hsome := hp.get?_isSome hm
      rw [hg] at hsome
      simp at hsome
    refine ⟨[b], ⟨?_, fun c => ?_, ?_⟩, .cons hname .nil⟩
    · simpa [List.nodup_append, hp.nodup] using fun c hc (hcb : c = b) => hnew (hcb ▸ hc)
    · rw [mem_used_concat hc hp hb.1 hname, List.mem_append, List.mem_singleton]
    · change List.Forall₂ _ _ (Dict.setEntries _ _ _)
      rw [Dict.setEntries_of_none hg]
      exact List.rel_append hp.entries (.cons ⟨rfl, hbuilt.bindKey z⟩ .nil)

lemma Progress.zones (hp : Progress config past acc used) (hc : FromRows config)
    (hk : KeysApart config) {zs : List ZoneConfig} (hpast : past ++ zs ⊆ config.zones)
    (h : zs.foldlM (buildZone E config.backendsByName) acc = .ok acc') :
    ∃ new, Progress config (past ++ zs) acc' (used ++ new) ∧ List.Forall₂
      (fun b z => z.backend = some b.name) new (constructing E config.backendsByName acc zs) := by
  induction zs generalizing past acc used with
  | nil =>
    rw [List.foldlM_nil, pure_ok] at h
    subst h
    exact ⟨[], by simpa using hp, .nil⟩
  | cons z zs ih =>
    rw [List.foldlM_cons] at h
    obtain ⟨acc₁, h₁, h⟩ := bind_ok.mp h
    obtain ⟨new₁, hp₁, hnew₁⟩ :=
      hp.zone hc hk (fun _ hm => hpast (List.mem_append_left _ hm)) (hpast (by simp)) h₁
    obtain ⟨new₂, hp₂, hnew₂⟩ := ih hp₁ (by simpa using hpast) h
    refine ⟨new₁ ++ new₂, by simpa using hp₂, ?_⟩
    rw [constructing, h₁]
    exact List.rel_append hnew₁ hnew₂

lemma route_of_buildZone {z : ZoneConfig} {backendsByName : Dict String BackendConfig}
    (h : buildZone E backendsByName acc z = .ok acc') :
    ∃ r, acc'.2 = acc.2 ++ [r] ∧ r.provider.key = providerKey z ∧ RouteOf E z r := by
  obtain ⟨provider, -, h⟩ := bind_ok.mp h
  obtain ⟨zone, hzone, h⟩ := bind_ok.mp h
  obtain ⟨recordName, hrec, h⟩ := bind_ok.mp h
  obtain rfl := pure_ok.mp h
  rw [parseName_ok] at hzone hrec
  exact ⟨_, rfl, rfl, zone, recordName, hzone, hrec, rfl, rfl⟩

lemma routes_of_buildZones {zs : List ZoneConfig} {backendsByName : Dict String BackendConfig}
    (h : zs.foldlM (buildZone E backendsByName) acc = .ok acc') :
    ∃ routes, acc'.2 = acc.2 ++ routes ∧
      List.Forall₂ (fun z r => r.provider.key = providerKey z ∧ RouteOf E z r) zs routes := by
  induction zs generalizing acc with
  | nil =>
    rw [List.foldlM_nil, pure_ok] at h
    exact ⟨[], by rw [h, List.append_nil], .nil⟩
  | cons z zs ih =>
    rw [List.foldlM_cons] at h
    obtain ⟨acc₁, h₁, h⟩ := bind_ok.mp h
    obtain ⟨r, hr, hroute⟩ := route_of_buildZone h₁
    obtain ⟨routes, hroutes, hrest⟩ := ih h
    exact ⟨r :: routes, by rw [hroutes, hr, List.append_assoc]; rfl, .cons hroute hrest⟩

end Loop

section Result

variable {E : Platform} {config : BootstrapConfig} {providers : Dict String Provider}
  {routes : List (Route ProviderRef)}

lemma wired_of_keysApart (hc : FromRows config) (hk : KeysApart config)
    (h : config.zones.foldlM (buildZone E config.backendsByName) (∅, []) =
      .ok (providers, routes)) : Wired E config providers routes := by
  have hstart : Progress config [] (∅, []) [] := ⟨List.nodup_nil, by simp, .nil⟩
  obtain ⟨used, hp, hconstructed⟩ := hstart.zones hc hk (List.Subset.refl _) h
  obtain ⟨routes', hroutes', hkeys⟩ := routes_of_buildZones h
  obtain rfl : routes = routes' := hroutes'
  refine ⟨?_, fun p hpm q hqm => ?_, used, hp.nodup, hp.mem_iff, ?_, hconstructed⟩
  · have hused : ∀ z ∈ config.zones, ∃ b, Used config b ∧ z.backend = some b.name ∧
        providerKey z = backendKey b :=
      fun z => hc.providerKey
    refine ((List.forall₂_and_left _ _).mpr ⟨hused, hkeys⟩).imp ?_
    rintro z r ⟨⟨b, hb, hname, hkey⟩, hrkey, hr⟩
    obtain ⟨provider, hget⟩ := Option.isSome_iff_exists.mp (hp.get?_isSome ((hp.mem_iff b).mpr hb))
    rw [hrkey, hkey]
    exact ⟨hr, b, hb, hname, provider, hget, (hp.builtFrom hk (List.Subset.refl _) hb hget).2⟩
  · obtain ⟨-, hzip⟩ := List.forall₂_iff_zip.mp hkeys
    rw [(hzip hpm).1, (hzip hqm).1]
    obtain ⟨b, hb, hname, hkey⟩ := hc.providerKey (List.of_mem_zip hpm).1
    obtain ⟨b', hb', hname', hkey'⟩ := hc.providerKey (List.of_mem_zip hqm).1
    rw [hkey, hkey', hname, hname', Option.some.injEq]
    exact ⟨fun he => congrArg BackendConfig.name (hk b b' hb hb' he),
      fun he => congrArg backendKey (hc.eq_of_name hb.1 hb'.1 he)⟩
  · rw [Dict.values, List.forall₂_map_right_iff]
    exact hp.entries.imp fun _ _ he => he.2

lemma keysApart_of_wired (hc : FromRows config)
    (h : config.zones.foldlM (buildZone E config.backendsByName) (∅, []) = .ok (providers, routes))
    (hw : Wired E config providers routes) : KeysApart config := by
  obtain ⟨routes', hroutes', hkeys⟩ := routes_of_buildZones h
  obtain rfl : routes = routes' := hroutes'
  obtain ⟨hlength, hzip⟩ := List.forall₂_iff_zip.mp hkeys
  have hfst : (config.zones.zip routes).map Prod.fst = config.zones := List.map_fst_zip hlength.le
  have hroute : ∀ z ∈ config.zones, ∃ r, (z, r) ∈ config.zones.zip routes ∧
      r.provider.key = providerKey z := by
    intro z hz
    rw [← hfst] at hz
    obtain ⟨p, hp, rfl⟩ := List.mem_map.mp hz
    exact ⟨p.2, hp, (hzip hp).1⟩
  rintro b b' ⟨hb, z, hz, hname⟩ ⟨hb', z', hz', hname'⟩ hk
  obtain ⟨r, hr, hkey⟩ := hroute z hz
  obtain ⟨r', hr', hkey'⟩ := hroute z' hz'
  apply hc.eq_of_name hb hb'
  have hz_key : providerKey z = backendKey b := by
    obtain ⟨c, hc', hn, hp⟩ := hc.zones z hz
    obtain rfl := hc.eq_of_name hb hc' (Option.some.inj (hname.symm.trans hn))
    exact providerKey_eq hname hp
  have hz'_key : providerKey z' = backendKey b' := by
    obtain ⟨c, hc', hn, hp⟩ := hc.zones z' hz'
    obtain rfl := hc.eq_of_name hb' hc' (Option.some.inj (hname'.symm.trans hn))
    exact providerKey_eq hname' hp
  have hshared := (hw.shared _ hr _ hr').mp (by rw [hkey, hkey', hz_key, hz'_key, hk])
  rw [hname, hname'] at hshared
  exact Option.some.inj hshared

theorem wired_of_run {F : Fernet Key Token} {kek : Kek Key} {reqs : List Request}
    {db : Database Token} (h : (api F kek).Run reqs db) {rows : Selected Token}
    (hsel : Selects db.tables rows) {runtime : DataPlaneRuntime}
    (hl : loadConfigFromDb F kek rows = .ok config) (hb : buildDataPlane E config = .ok runtime) :
    ∃ routes, runtime.routing = RoutingTable.ofRoutes routes ∧
      Wired E config runtime.providers routes := by
  have hn : (rows.backends.map BackendRow.name).Nodup :=
    (hsel.backends.map _).nodup_iff.mpr db.consistent.backendNames
  have hc := fromRows_of_load hn hl
  obtain ⟨⟨providers, routes⟩, -, hfold, hrouting, hproviders⟩ := buildDataPlane_ok.mp hb
  rw [hproviders]
  refine ⟨routes, hrouting, wired_of_keysApart hc ((keysApart_iff hc).mpr ?_) hfold⟩
  rintro ⟨b, -, hused, -, he, -, -⟩
  obtain ⟨row, hrow, hr⟩ := exists_related (loadConfigFromDb_ok.mp hl).2.1.flip hused.1
  exact ((sound_of_run h).backends row (hsel.backends.subset hrow)).1
    ((backendConfig_ok hr).1.symm.trans he)

end Result

section Sample

def placeholderBackend (id : ℕ) (name placeholder : String) : BackendRow String :=
  ⟨id, name, "hurricane", dumps [("cleanup_placeholder", .str placeholder)]⟩

def twoBackends (name name' : String) : Selected String where
  tsigKeys := []
  backends := [placeholderBackend 1 name "one", placeholderBackend 2 name' "two"]
  domains := [⟨1, "a.example", 1, "_acme-challenge.a.example", none⟩,
    ⟨2, "b.example", 2, "_acme-challenge.b.example", none⟩]
  tsigKeyIds := []

def namesOf (config : BootstrapConfig) : List String × List (Option String) :=
  (config.backends.map BackendConfig.name, config.zones.map ZoneConfig.backend)

def instancesOf (runtime : DataPlaneRuntime) : List (String × ProviderConfig) × List String :=
  (runtime.providers.entries.map (fun e => (e.1, e.2.config)),
    runtime.routing.values.map (fun r => r.provider.key))

lemma loaded_built (name name' : String) {instances : List (String × ProviderConfig) × List String}
    (h : ((loadConfigFromDb plainFernet sampleKek (twoBackends name name')).toOption.bind
      fun config =>
      (buildDataPlane asciiPlatform config).toOption.map fun runtime => (namesOf config,
        instancesOf runtime)) = some (([name, name'], [some name, some name']), instances)) :
    ∃ config runtime, loadConfigFromDb plainFernet sampleKek (twoBackends name name') = .ok config ∧
      buildDataPlane asciiPlatform config = .ok runtime ∧ namesOf config =
      ([name, name'], [some name, some name']) ∧ instancesOf runtime = instances := by
  obtain ⟨config, hc, h⟩ := Option.bind_eq_some_iff.mp h
  obtain ⟨runtime, hr, h⟩ := Option.map_eq_some_iff.mp h
  obtain ⟨hnames, hinstances⟩ := Prod.mk.inj h
  obtain ⟨config', hl, hconfig⟩ := returns_of_map (f := id) (by simpa using hc)
  obtain rfl : config' = config := hconfig
  obtain ⟨runtime', hb, hruntime⟩ := returns_of_map (f := id) (by simpa using hr)
  obtain rfl : runtime' = runtime := hruntime
  exact ⟨config', runtime', hl, hb, hnames, hinstances⟩

end Sample

end AstropathRelay.Cache
