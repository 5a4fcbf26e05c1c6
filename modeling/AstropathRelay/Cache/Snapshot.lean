import AstropathRelay.Api.Reachable

/-! What a load builds from the rows of one sound database, in whatever order the SELECTs return
them. -/

namespace AstropathRelay.Cache

open Lib Lib.Results Dns DataPlane Providers Store Api

variable {Key Token : Type}

section Rows

variable (E : Platform) (F : Fernet Key Token) (kek : Kek Key)

def rowKey (k : TsigKeyRow Token) : Except LoadError (Name × Dns.Key) := do
  let spec ← tsigKeySpec F kek k
  liftBuild (keyOfSpec E.fromUnicode spec)

def IdEntry (row : ℕ × String) (e : Name × ℕ) : Prop :=
  ∃ name, Name.fromText E.fromUnicode row.2 = .ok name ∧ (name.canonicalize, row.1) = e

def RowRoute (t : Tables Token) (d : DomainRow Token) (r : Route ProviderRef) : Prop :=
  ∃ b ∈ t.backends, ∃ p zone recordName, b.id = d.backendId ∧ getProvider b.type = some p ∧
    Name.fromText E.fromUnicode d.zone = .ok zone ∧ Name.fromText E.fromUnicode d.recordName =
    .ok recordName ∧ r = ⟨zone.canonicalize, ⟨b.name, p⟩, recordName.canonicalize⟩

structure NamesParse (t : Tables Token) : Prop where
  zone : ∀ d ∈ t.domains, ∃ n, Name.fromText E.fromUnicode d.zone = .ok n
  recordName : ∀ d ∈ t.domains, ∃ n, Name.fromText E.fromUnicode d.recordName = .ok n
  tsigKey : ∀ k ∈ t.tsigKeys, ∃ n, Name.fromText E.fromUnicode k.name = .ok n

structure Built (t : Tables Token) (rows : Selected Token) (s : CacheSnapshot) : Prop where
  keys : ∃ keys, List.Forall₂ (fun k e => rowKey E F kek k = .ok e) rows.tsigKeys keys ∧
    Dict.ofList keys = s.runtime.keyring
  ids : ∃ ids, List.Forall₂ (IdEntry E) rows.tsigKeyIds ids ∧ Dict.ofList ids = s.tsigKeyIds
  routes : ∃ routes, List.Forall₂ (RowRoute E t) rows.domains routes ∧
    RoutingTable.ofRoutes routes = s.runtime.routing

end Rows

variable {E : Platform} {F : Fernet Key Token} {kek : Kek Key}

lemma liftBuild_ok {α : Type} {x : Except BuildError α} {a : α} : liftBuild x = .ok a ↔
    x = .ok a := by
  cases x <;> simp [liftBuild]

section Keys

lemma tsigKeySpec_ok {k : TsigKeyRow Token} {spec : TsigKeySpec}
    (h : tsigKeySpec F kek k = .ok spec) : spec.name = k.name ∧ spec.algorithm = k.algorithm := by
  obtain ⟨secret, -, h⟩ := bind_ok.mp h
  obtain rfl := pure_ok.mp h
  exact ⟨rfl, rfl⟩

lemma rowKey_ok {k : TsigKeyRow Token} {e : Name × Dns.Key} (h : rowKey E F kek k = .ok e) :
    Name.fromText E.fromUnicode k.name = .ok e.1 := by
  obtain ⟨spec, hs, hk⟩ := bind_ok.mp h
  obtain ⟨_, name, _, -, hn, -, rfl⟩ := keyOfSpec_ok.mp (liftBuild_ok.mp hk)
  rw [← (tsigKeySpec_ok hs).1]
  exact hn

lemma rowKey_returns {k : TsigKeyRow Token} (hk : TsigKeyOk F kek k) {name : Name}
    (hn : Name.fromText E.fromUnicode k.name = .ok name) : ∃ e, rowKey E F kek k = .ok e := by
  obtain ⟨spec, a, secret, hs, ha, hsec⟩ := hk
  obtain ⟨hname, halg⟩ := tsigKeySpec_ok hs
  refine ⟨(name, ⟨name, secret, a⟩), bind_ok.mpr ⟨spec, hs, liftBuild_ok.mpr (keyOfSpec_ok.mpr ?_)⟩⟩
  exact ⟨a, name, secret, by rw [halg]; exact ha, by rw [hname]; exact hn, hsec, rfl⟩

lemma buildKeyring_ok {fromUnicode : String → Except NameError Name} {specs : List TsigKeySpec}
    {keyring : Keyring} : buildKeyring fromUnicode specs = .ok keyring ↔
    ∃ keys, List.Forall₂ (fun spec e => keyOfSpec fromUnicode spec = .ok e) specs keys ∧
    Dict.ofList keys = keyring := by
  rw [buildKeyring]
  rw [bind_ok]
  simp only [mapM_ok, pure_ok]

lemma rowKeys_of_specs {ks : List (TsigKeyRow Token)} {specs : List TsigKeySpec}
    {keys : List (Name × Dns.Key)}
    (hs : List.Forall₂ (fun k spec => tsigKeySpec F kek k = .ok spec) ks specs)
    (hk : List.Forall₂ (fun spec e => keyOfSpec E.fromUnicode spec = .ok e) specs keys) :
    List.Forall₂ (fun k e => rowKey E F kek k = .ok e) ks keys := by
  induction hs generalizing keys with
  | nil =>
    cases hk
    exact .nil
  | cons h _ ih =>
    cases hk with
    | cons h' hk' => exact .cons (bind_ok.mpr ⟨_, h, liftBuild_ok.mpr h'⟩) (ih hk')

lemma idEntry_ok {row : ℕ × String} {e : Name × ℕ} :
    (do let name ← liftBuild (parseName E.fromUnicode row.2)
        return (name.canonicalize, row.1)) = (.ok e : Except LoadError _) ↔ IdEntry E row e := by
  rw [bind_ok]
  simp only [liftBuild_ok, parseName_ok, pure_ok, IdEntry]

lemma loadTsigKeyIds_ok {rows : List (ℕ × String)} {ids : Dict Name ℕ} : loadTsigKeyIds E rows =
    .ok ids ↔ ∃ es, List.Forall₂ (IdEntry E) rows es ∧ Dict.ofList es = ids := by
  rw [loadTsigKeyIds]
  rw [bind_ok]
  simp only [mapM_ok, idEntry_ok, pure_ok]

end Keys

section Routes

def ZoneOf (t : Tables Token) (d : DomainRow Token) (z : ZoneConfig) : Prop :=
  ∃ b ∈ t.backends, b.id = d.backendId ∧ z.zone = d.zone ∧ z.recordName = d.recordName ∧
    z.backend = some b.name

variable (F kek) in
def ByName (bs : List (BackendRow Token)) (backendsByName : Dict String BackendConfig) : Prop :=
  ∀ b ∈ bs, ∃ stored, backendConfig F kek b = .ok stored ∧ backendsByName.get? b.name = some stored

def Registered (t : Tables Token) (providers : Dict String Provider) : Prop :=
  ∀ key provider, providers.get? key = some provider →
    ∃ b ∈ t.backends, b.name = key ∧ getProvider b.type = some provider.config.type

variable {t : Tables Token} {backendsByName : Dict String BackendConfig}

lemma backendConfig_ok {b : BackendRow Token} {stored : BackendConfig}
    (h : backendConfig F kek b = .ok stored) : stored.name = b.name ∧ stored.provider = b.type := by
  obtain ⟨config, -, h⟩ := bind_ok.mp h
  obtain rfl := pure_ok.mp h
  exact ⟨rfl, rfl⟩

lemma type_of_fromConfig {p : ProviderType} {config : Config} {provider : Provider}
    (h : fromConfig p config = .ok provider) : provider.config.type = p := by
  obtain ⟨c, hc, rfl⟩ := map_ok.mp h
  exact type_of_modelValidate hc

lemma bindKey_config (provider : Provider)
    (z : ZoneConfig) : (bindKey E provider z).config = provider.config := by
  rw [bindKey]
  split
  · split <;> rfl
  · rfl

lemma providerKey_of_name {z : ZoneConfig} {name : String} (hz : z.backend = some name)
    (hn : name ≠ "") : providerKey z = name := by
  simp [providerKey, hz, hn]

lemma makeProvider_backend (hb : ByName F kek t.backends backendsByName) {b : BackendRow Token}
    (hm : b ∈ t.backends) (hok : BackendOk F kek b) {z : ZoneConfig}
    (hz : z.backend = some b.name) : ∃ provider, makeProvider backendsByName z = .ok provider ∧
    getProvider b.type = some provider.config.type := by
  obtain ⟨stored, hs, hget⟩ := hb b hm
  obtain ⟨-, p, stored', provider, hp, hs', hf⟩ := hok
  obtain rfl := Except.ok.inj (hs.symm.trans hs')
  refine ⟨provider, ?_, by rw [hp, type_of_fromConfig hf]⟩
  simp [makeProvider, hz, hget, (backendConfig_ok hs).2, hp, hf]

lemma zoneProvider_returns (hs : Sound F kek t) (hn : (t.backends.map BackendRow.name).Nodup)
    (hb : ByName F kek t.backends backendsByName) {providers : Dict String Provider}
    (hr : Registered t providers)
    {b : BackendRow Token} (hm : b ∈ t.backends) {z : ZoneConfig} (hz : z.backend = some b.name) :
    ∃ provider, zoneProvider backendsByName providers z = .ok provider ∧
      getProvider b.type = some provider.config.type := by
  have hok := hs.backends b hm
  rw [zoneProvider]
  rw [providerKey_of_name hz hok.1]
  cases hg : providers.get? b.name with
  | none => exact makeProvider_backend hb hm hok hz
  | some provider =>
    obtain ⟨b', hm', hname, htype⟩ := hr _ _ hg
    obtain rfl := List.inj_on_of_nodup_map hn hm' hm hname
    exact ⟨provider, rfl, htype⟩

lemma registered_empty : Registered t ∅ := by
  intro key provider hg
  simp at hg

lemma registered_set {providers : Dict String Provider} (hr : Registered t providers)
    {b : BackendRow Token} (hm : b ∈ t.backends) {provider : Provider}
    (hp : getProvider b.type = some provider.config.type) :
    Registered t (providers.set b.name provider) := by
  intro key provider' hg
  rw [Dict.get?_set] at hg
  split at hg
  · next hk =>
    obtain rfl := Option.some.inj hg
    exact ⟨b, hm, by simpa using hk, hp⟩
  · exact hr key provider' hg

lemma buildZone_ok (hs : Sound F kek t) (hn : (t.backends.map BackendRow.name).Nodup)
    (hb : ByName F kek t.backends backendsByName)
    {acc acc' : Dict String Provider × List (Route ProviderRef)}
    (hr : Registered t acc.1) {d : DomainRow Token} {z : ZoneConfig} (hz : ZoneOf t d z)
    (h : buildZone E backendsByName acc z = .ok acc') :
    Registered t acc'.1 ∧ ∃ r, RowRoute E t d r ∧ acc'.2 = acc.2 ++ [r] := by
  obtain ⟨b, hm, hid, hzone, hrec, hname⟩ := hz
  obtain ⟨provider, hp, htype⟩ := zoneProvider_returns hs hn hb hr hm hname
  have hkey := providerKey_of_name hname (hs.backends b hm).1
  unfold buildZone at h
  obtain ⟨provider', hp', h⟩ := bind_ok.mp h
  obtain rfl := Except.ok.inj (hp.symm.trans hp')
  obtain ⟨zone, hzp, h⟩ := bind_ok.mp h
  obtain ⟨recordName, hrp, h⟩ := bind_ok.mp h
  obtain rfl := pure_ok.mp h
  rw [parseName_ok] at hzp hrp
  refine ⟨?_, ⟨zone.canonicalize, ⟨b.name, provider.config.type⟩, recordName.canonicalize⟩, ?_, ?_⟩
  · rw [hkey]
    exact registered_set hr hm (by rw [bindKey_config]; exact htype)
  · exact ⟨b, hm, provider.config.type, zone, recordName, hid, htype, hzone ▸ hzp, hrec ▸ hrp, rfl⟩
  · rw [hkey]

lemma buildZone_returns (hs : Sound F kek t) (hn : (t.backends.map BackendRow.name).Nodup)
    (hb : ByName F kek t.backends backendsByName)
    {acc : Dict String Provider × List (Route ProviderRef)} (hr : Registered t acc.1)
    {d : DomainRow Token} {z : ZoneConfig} (hz : ZoneOf t d z) {zone recordName : Name}
    (hzp : Name.fromText E.fromUnicode d.zone = .ok zone)
    (hrp : Name.fromText E.fromUnicode d.recordName = .ok recordName) :
    ∃ acc', buildZone E backendsByName acc z = .ok acc' := by
  obtain ⟨b, hm, hid, hzone, hrec, hname⟩ := hz
  obtain ⟨provider, hp, -⟩ := zoneProvider_returns hs hn hb hr hm hname
  refine ⟨_, bind_ok.mpr ⟨provider, hp, bind_ok.mpr ⟨zone, ?_, bind_ok.mpr ⟨recordName, ?_, rfl⟩⟩⟩⟩
  · rw [parseName_ok, hzone, hzp]
  · rw [parseName_ok, hrec, hrp]

lemma buildZones_ok (hs : Sound F kek t) (hn : (t.backends.map BackendRow.name).Nodup)
    (hb : ByName F kek t.backends backendsByName) {ds : List (DomainRow Token)}
    {zones : List ZoneConfig} (hz : List.Forall₂ (ZoneOf t) ds zones)
    {acc acc' : Dict String Provider × List (Route ProviderRef)}
    (hr : Registered t acc.1) (h : zones.foldlM (buildZone E backendsByName) acc = .ok acc') :
    ∃ routes, List.Forall₂ (RowRoute E t) ds routes ∧ acc'.2 = acc.2 ++ routes := by
  induction hz generalizing acc with
  | nil =>
    rw [List.foldlM_nil, pure_ok] at h
    exact ⟨[], .nil, by rw [h, List.append_nil]⟩
  | cons hd _ ih =>
    rw [List.foldlM_cons] at h
    obtain ⟨acc₁, h₁, h⟩ := bind_ok.mp h
    obtain ⟨hr₁, r, hroute, hacc₁⟩ := buildZone_ok hs hn hb hr hd h₁
    obtain ⟨routes, hroutes, hacc'⟩ := ih hr₁ h
    exact ⟨r :: routes, .cons hroute hroutes, by rw [hacc', hacc₁, List.append_assoc]; rfl⟩

lemma buildZones_returns (hs : Sound F kek t) (hn : (t.backends.map BackendRow.name).Nodup)
    (hb : ByName F kek t.backends backendsByName) {ds : List (DomainRow Token)}
    {zones : List ZoneConfig}
    (hz : List.Forall₂ (ZoneOf t) ds zones) {acc : Dict String Provider × List (Route ProviderRef)}
    (hr : Registered t acc.1) (hp : ∀ d ∈ ds, (∃ n, Name.fromText E.fromUnicode d.zone = .ok n) ∧
      ∃ n, Name.fromText E.fromUnicode d.recordName = .ok n) :
    ∃ acc', zones.foldlM (buildZone E backendsByName) acc = .ok acc' := by
  induction hz generalizing acc with
  | nil => exact ⟨acc, rfl⟩
  | cons hd _ ih =>
    obtain ⟨⟨⟨zone, hzone⟩, recordName, hrec⟩, hp⟩ := List.forall_mem_cons.mp hp
    obtain ⟨acc₁, h₁⟩ := buildZone_returns hs hn hb hr hd hzone hrec
    obtain ⟨acc', h'⟩ := ih (buildZone_ok hs hn hb hr hd h₁).1 hp
    exact ⟨acc', by rw [List.foldlM_cons]; exact bind_ok.mpr ⟨acc₁, h₁, h'⟩⟩

end Routes

section Load

variable {t : Tables Token} {rows : Selected Token} {s : CacheSnapshot}

lemma load_eq_ok : load E F kek rows = .ok s ↔ loadRuntime E F kek rows = .ok s.runtime ∧
    loadTsigKeyIds E rows.tsigKeyIds = .ok s.tsigKeyIds := by
  constructor
  · intro h
    obtain ⟨config, hc, h⟩ := bind_ok.mp h
    obtain ⟨ids, hi, h⟩ := bind_ok.mp h
    obtain ⟨runtime, hr, h⟩ := bind_ok.mp h
    obtain rfl := pure_ok.mp h
    exact ⟨bind_ok.mpr ⟨config, hc, hr⟩, hi⟩
  · rintro ⟨hr, hi⟩
    obtain ⟨config, hc, hr⟩ := bind_ok.mp hr
    exact bind_ok.mpr ⟨config, hc, bind_ok.mpr ⟨_, hi, bind_ok.mpr ⟨_, hr, rfl⟩⟩⟩

lemma loadConfigFromDb_ok {config : BootstrapConfig} : loadConfigFromDb F kek rows = .ok config ↔
    List.Forall₂ (fun k spec => tsigKeySpec F kek k = .ok spec) rows.tsigKeys config.tsigKeys ∧
    List.Forall₂
    (fun b stored => backendConfig F kek b = .ok stored) rows.backends config.backends ∧
    List.Forall₂ (fun d z => zoneConfig F kek (Dict.ofList (rows.backends.map (fun r => (r.id, r))))
      d = .ok z) rows.domains config.zones := by
  constructor
  · intro h
    obtain ⟨specs, hk, h⟩ := bind_ok.mp h
    obtain ⟨backends, hb, h⟩ := bind_ok.mp h
    obtain ⟨zones, hz, h⟩ := bind_ok.mp h
    obtain rfl := pure_ok.mp h
    exact ⟨mapM_ok.mp hk, mapM_ok.mp hb, mapM_ok.mp hz⟩
  · rintro ⟨hk, hb, hz⟩
    exact bind_ok.mpr ⟨_, mapM_ok.mpr hk,
      bind_ok.mpr ⟨_, mapM_ok.mpr hb, bind_ok.mpr ⟨_, mapM_ok.mpr hz, rfl⟩⟩⟩

lemma buildDataPlane_ok {config : BootstrapConfig} {runtime : DataPlaneRuntime} :
    buildDataPlane E config = .ok runtime ↔
      ∃ acc, buildKeyring E.fromUnicode config.tsigKeys = .ok runtime.keyring ∧ config.zones.foldlM
      (buildZone E (Dict.ofList (config.backends.map (fun b => (b.name, b))))) (∅, []) = .ok acc ∧
      runtime.routing = RoutingTable.ofRoutes acc.2 ∧ runtime.providers = acc.1 := by
  constructor
  · intro h
    obtain ⟨keyring, hk, h⟩ := bind_ok.mp h
    obtain ⟨acc, hz, h⟩ := bind_ok.mp h
    obtain rfl := pure_ok.mp h
    exact ⟨acc, hk, hz, rfl, rfl⟩
  · rintro ⟨acc, hk, hz, hr, hp⟩
    refine bind_ok.mpr ⟨_, hk, bind_ok.mpr ⟨acc, hz, ?_⟩⟩
    rw [pure_ok, ← hr, ← hp]

lemma backendById_mem {bs : List (BackendRow Token)} {id : ℕ} {b : BackendRow Token}
    (h : (Dict.ofList (bs.map (fun r => (r.id, r)))).get? id = some b) : b ∈ bs ∧ b.id = id := by
  obtain ⟨k, hm, hk⟩ := Dict.get?_ofList_mem h
  obtain ⟨r, hr, he⟩ := List.mem_map.mp hm
  obtain ⟨rfl, rfl⟩ := Prod.mk.inj he
  exact ⟨hr, by simpa using hk⟩

lemma backendById_get {bs : List (BackendRow Token)} {id : ℕ} (h : id ∈ bs.map BackendRow.id) :
    ∃ b, (Dict.ofList (bs.map (fun r => (r.id, r)))).get? id = some b := by
  rw [← Option.isSome_iff_exists, Option.isSome_iff_ne_none, Ne, Dict.get?_ofList_none]
  obtain ⟨b, hb, rfl⟩ := List.mem_map.mp h
  intro hn
  simpa using hn (b.id, b) (List.mem_map_of_mem hb)

lemma zoneOf_of_zoneConfig (hb : rows.backends.Perm t.backends) {d : DomainRow Token}
    {z : ZoneConfig}
    (h : zoneConfig F kek (Dict.ofList (rows.backends.map (fun r => (r.id, r)))) d = .ok z) :
    ZoneOf t d z := by
  unfold zoneConfig at h
  split at h
  · simp at h
  · next b hg =>
    obtain ⟨hm, hid⟩ := backendById_mem hg
    obtain ⟨key, -, h⟩ := bind_ok.mp h
    obtain rfl := pure_ok.mp h
    exact ⟨b, hb.subset hm, hid, rfl, rfl, rfl⟩

lemma zoneConfig_returns {d : DomainRow Token} (hd : DomainOk F kek d)
    (hb : d.backendId ∈ rows.backends.map BackendRow.id) :
    ∃ z, zoneConfig F kek (Dict.ofList (rows.backends.map (fun r => (r.id, r)))) d = .ok z := by
  obtain ⟨b, hg⟩ := backendById_get hb
  obtain ⟨key, hk⟩ := hd
  rw [zoneConfig]
  rw [hg]
  exact ⟨_, bind_ok.mpr ⟨key, hk, rfl⟩⟩

lemma byName_of_backends {bs : List (BackendRow Token)} (hn : (bs.map BackendRow.name).Nodup)
    {stored : List BackendConfig}
    (h : List.Forall₂ (fun b stored => backendConfig F kek b = .ok stored) bs stored) :
    ByName F kek bs (Dict.ofList (stored.map (fun b => (b.name, b)))) := by
  have hnames : stored.map BackendConfig.name = bs.map BackendRow.name := by
    rw [← List.forall₂_eq_eq_eq, List.forall₂_map_left_iff, List.forall₂_map_right_iff]
    exact h.flip.imp (fun c b hc => (backendConfig_ok hc).1)
  have hd : Dict.Distinct (stored.map (fun b => (b.name, b))) := by
    apply Dict.distinct_of_nodup
    rw [List.map_map]
    change (stored.map BackendConfig.name).Nodup
    rw [hnames]
    exact hn
  intro b hm
  obtain ⟨c, hcm, hc⟩ := exists_related h hm
  refine ⟨c, hc, ?_⟩
  rw [← (backendConfig_ok hc).1]
  exact Dict.get?_ofList_of_distinct hd (List.mem_map_of_mem hcm)

lemma byName_of_selected (hn : (t.backends.map BackendRow.name).Nodup)
    (hb : rows.backends.Perm t.backends) {stored : List BackendConfig}
    (h : List.Forall₂ (fun b stored => backendConfig F kek b = .ok stored) rows.backends stored) :
    ByName F kek t.backends (Dict.ofList (stored.map (fun b => (b.name, b)))) := by
  intro b hm
  exact byName_of_backends ((hb.map _).nodup_iff.mpr hn) h b (hb.symm.subset hm)

lemma keyring_of_loadRuntime {runtime : DataPlaneRuntime}
    (h : loadRuntime E F kek rows = .ok runtime) :
    ∃ keys, List.Forall₂ (fun k e => rowKey E F kek k = .ok e) rows.tsigKeys keys ∧
      Dict.ofList keys = runtime.keyring := by
  obtain ⟨config, hconf, h⟩ := bind_ok.mp h
  obtain ⟨acc, hkeyring, -⟩ := buildDataPlane_ok.mp (liftBuild_ok.mp h)
  obtain ⟨keys, hkeys, hkeyring⟩ := buildKeyring_ok.mp hkeyring
  exact ⟨keys, rowKeys_of_specs (loadConfigFromDb_ok.mp hconf).1 hkeys, hkeyring⟩

section Selects

variable (hs : Sound F kek t) (hc : t.Consistent) (hsel : Selects t rows)

include hs hc hsel

lemma loadConfigFromDb_returns : ∃ config, loadConfigFromDb F kek rows = .ok config := by
  obtain ⟨specs, hk⟩ : ∃ specs, rows.tsigKeys.mapM (tsigKeySpec F kek) = .ok specs := by
    rw [mapM_returns]
    intro k hk
    obtain ⟨spec, _, _, hspec, -⟩ := hs.tsigKeys k (hsel.tsigKeys.subset hk)
    exact ⟨spec, hspec⟩
  obtain ⟨backends, hb⟩ : ∃ backends, rows.backends.mapM (backendConfig F kek) = .ok backends := by
    rw [mapM_returns]
    intro b hb
    obtain ⟨-, _, stored, _, -, hstored, -⟩ := hs.backends b (hsel.backends.subset hb)
    exact ⟨stored, hstored⟩
  obtain ⟨zones, hz⟩ : ∃ zones, rows.domains.mapM
      (zoneConfig F kek (Dict.ofList (rows.backends.map (fun r => (r.id, r))))) = .ok zones := by
    rw [mapM_returns]
    intro d hd
    have hd := hsel.domains.subset hd
    exact zoneConfig_returns (hs.domains d hd)
      ((hsel.backends.map _).mem_iff.mpr (hc.domainBackends d hd))
  exact ⟨⟨specs, zones, backends⟩,
    loadConfigFromDb_ok.mpr ⟨mapM_ok.mp hk, mapM_ok.mp hb, mapM_ok.mp hz⟩⟩

lemma loadRuntime_ok {runtime : DataPlaneRuntime} (h : loadRuntime E F kek rows = .ok runtime) :
    (∃ keys, List.Forall₂ (fun k e => rowKey E F kek k = .ok e) rows.tsigKeys keys ∧
      Dict.ofList keys = runtime.keyring) ∧
      ∃ routes, List.Forall₂ (RowRoute E t) rows.domains routes ∧
      RoutingTable.ofRoutes routes = runtime.routing := by
  refine ⟨keyring_of_loadRuntime h, ?_⟩
  obtain ⟨config, hconf, h⟩ := bind_ok.mp h
  obtain ⟨-, hb, hz⟩ := loadConfigFromDb_ok.mp hconf
  obtain ⟨acc, -, hfold, hrouting, -⟩ := buildDataPlane_ok.mp (liftBuild_ok.mp h)
  have hzones := hz.imp (fun d z => zoneOf_of_zoneConfig (t := t) hsel.backends)
  obtain ⟨routes, hroutes, hacc⟩ := buildZones_ok hs hc.backendNames
    (byName_of_selected hc.backendNames hsel.backends hb) hzones registered_empty hfold
  refine ⟨routes, hroutes, ?_⟩
  rw [hrouting, hacc, List.nil_append]

lemma built_of_load (h : load E F kek rows = .ok s) : Built E F kek t rows s := by
  obtain ⟨hr, hi⟩ := load_eq_ok.mp h
  obtain ⟨hk, hroutes⟩ := loadRuntime_ok hs hc hsel hr
  exact ⟨hk, loadTsigKeyIds_ok.mp hi, hroutes⟩

lemma loadRuntime_returns (hp : NamesParse E t) :
    ∃ runtime, loadRuntime E F kek rows = .ok runtime := by
  obtain ⟨config, hconf⟩ := loadConfigFromDb_returns hs hc hsel
  obtain ⟨hk, hb, hz⟩ := loadConfigFromDb_ok.mp hconf
  obtain ⟨keys, hkeys⟩ : ∃ keys, config.tsigKeys.mapM (keyOfSpec E.fromUnicode) = .ok keys := by
    rw [mapM_returns]
    intro spec hspec
    obtain ⟨k, hm, hks⟩ :=
      exists_related (R := fun spec k => tsigKeySpec F kek k = .ok spec) hk.flip hspec
    have hm := hsel.tsigKeys.subset hm
    obtain ⟨n, hn⟩ := hp.tsigKey k hm
    obtain ⟨e, he⟩ := rowKey_returns (hs.tsigKeys k hm) hn
    obtain ⟨spec', hks', he⟩ := bind_ok.mp he
    obtain rfl := Except.ok.inj (hks.symm.trans hks')
    exact ⟨e, liftBuild_ok.mp he⟩
  have hzones := hz.imp (fun d z => zoneOf_of_zoneConfig (t := t) hsel.backends)
  obtain ⟨acc, hfold⟩ : ∃ acc, config.zones.foldlM
      (buildZone E (Dict.ofList (config.backends.map (fun b => (b.name, b))))) (∅, []) = .ok acc :=
    buildZones_returns hs hc.backendNames (byName_of_selected hc.backendNames hsel.backends hb)
      hzones registered_empty
      (fun d hd => ⟨hp.zone d (hsel.domains.subset hd), hp.recordName d (hsel.domains.subset hd)⟩)
  refine ⟨⟨Dict.ofList keys, RoutingTable.ofRoutes acc.2, acc.1⟩,
    bind_ok.mpr ⟨config, hconf, liftBuild_ok.mpr ?_⟩⟩
  exact buildDataPlane_ok.mpr ⟨acc, buildKeyring_ok.mpr ⟨keys, mapM_ok.mp hkeys, rfl⟩,
    hfold, rfl, rfl⟩

lemma load_returns (hp : NamesParse E t) : ∃ s, load E F kek rows = .ok s := by
  obtain ⟨runtime, hr⟩ := loadRuntime_returns hs hc hsel hp
  obtain ⟨names, hn⟩ : ∃ names, rows.tsigKeyIds.mapM (fun row => do
      let name ← liftBuild (parseName E.fromUnicode row.2)
      return (name.canonicalize, row.1)) = (.ok names : Except LoadError _) := by
    rw [mapM_returns]
    intro row hrow
    obtain ⟨k, hk, rfl⟩ := List.mem_map.mp (hsel.tsigKeyIds.subset hrow)
    obtain ⟨n, hn⟩ := hp.tsigKey k hk
    exact ⟨(n.canonicalize, k.id), idEntry_ok.mpr ⟨n, hn, rfl⟩⟩
  have hi : loadTsigKeyIds E rows.tsigKeyIds = .ok (Dict.ofList names) :=
    bind_ok.mpr ⟨names, hn, rfl⟩
  exact ⟨⟨runtime, Dict.ofList names⟩, load_eq_ok.mpr ⟨hr, hi⟩⟩

lemma loadRuntime_returns_iff : (∃ runtime, loadRuntime E F kek rows = .ok runtime) ↔
    NamesParse E t := by
  constructor
  · rintro ⟨runtime, h⟩
    obtain ⟨⟨keys, hkeys, -⟩, routes, hroutes, -⟩ := loadRuntime_ok hs hc hsel h
    refine ⟨fun d hd => ?_, fun d hd => ?_, fun k hk => ?_⟩
    · obtain ⟨r, -, b, -, p, zone, _, -, -, hz, -⟩ :=
        exists_related hroutes (hsel.domains.symm.subset hd)
      exact ⟨zone, hz⟩
    · obtain ⟨r, -, b, -, p, _, recordName, -, -, -, hr, -⟩ :=
        exists_related hroutes (hsel.domains.symm.subset hd)
      exact ⟨recordName, hr⟩
    · obtain ⟨e, -, he⟩ := exists_related hkeys (hsel.tsigKeys.symm.subset hk)
      exact ⟨e.1, rowKey_ok he⟩
  · exact loadRuntime_returns hs hc hsel

end Selects

end Load

end AstropathRelay.Cache
