import AstropathRelay.Cache.Challenge
import AstropathRelay.DataPlane.ProviderCalls
import AstropathRelay.DataPlane.ZoneSection

/-! Which dynamic key a Hurricane provider posts with. -/

namespace AstropathRelay.Cache

open Lib Lib.Results Dns DataPlane Providers Store Api

variable {Key Token : Type} (E : Platform) (F : Fernet Key Token) (kek : Kek Key)

section Posted

def postedForm (keys : Dict String String) (config : HurricaneConfig)
    (c : ProviderCall ProviderRef) : Except Failure Form :=
  match c.action, c.values with
  | .present, [value] => formFor E keys c.recordName value
  | .present, values => .error (.provider (.valueCount values.length))
  | .cleanup, _ => formFor E keys c.recordName config.cleanupPlaceholder

def PostsWith (runtime : DataPlaneRuntime) (c : ProviderCall ProviderRef) (key : String) : Prop :=
  ∃ provider config form, runtime.providers.get? c.provider.key = some provider ∧ provider.config =
    .hurricane config ∧ postedForm E provider.recordKeys config c = .ok form ∧ form.password = key

end Posted

section Keys

def recordKey (d : DomainRow Token) : Option String :=
  ((domainKey F kek d).toOption.bind id).filter (fun key => key ≠ "")

def lastKey (ds : List (DomainRow Token)) (backendId : ℕ) (text : String) : Option String :=
  (ds.filterMap fun d =>
    if d.backendId = backendId ∧ normalizeRecord E d.recordName = text then recordKey F kek d
      else none).getLast?

variable {E F kek}

lemma lastKey_concat (ds : List (DomainRow Token)) (d : DomainRow Token) (backendId : ℕ)
    (text : String) : lastKey E F kek (ds ++ [d]) backendId text =
    (if d.backendId = backendId ∧ normalizeRecord E d.recordName = text then recordKey F kek d
      else none).or (lastKey E F kek ds backendId text) := by
  unfold lastKey
  rw [List.filterMap_append]
  split
  · next h =>
    cases hk : recordKey F kek d with
    | none => simp [h, hk]
    | some key => simp [h, hk]
  · next h => simp [h]

lemma lastKey_of_other {ds : List (DomainRow Token)} {d : DomainRow Token} {backendId : ℕ}
    (h : d.backendId ≠ backendId) (text : String) :
    lastKey E F kek (ds ++ [d]) backendId text = lastKey E F kek ds backendId text := by
  rw [lastKey_concat, if_neg fun hd => h hd.1, Option.none_or]

lemma lastKey_of_own {pre post : List (DomainRow Token)} {d : DomainRow Token} {key : String}
    (hk : recordKey F kek d = some key) (hpost : ∀ d' ∈ post, d'.backendId = d.backendId →
      normalizeRecord E d'.recordName = normalizeRecord E d.recordName →
        ∀ key' ∈ recordKey F kek d', key' = key) :
    lastKey E F kek (pre ++ d :: post) d.backendId (normalizeRecord E d.recordName) = some key := by
  induction post using List.reverseRecOn with
  | nil =>
    rw [lastKey_concat, if_pos ⟨rfl, rfl⟩, hk]
    rfl
  | append_singleton post d' ih =>
    rw [← List.cons_append, ← List.append_assoc, lastKey_concat,
      ih fun d'' hd => hpost d'' (by simp [hd])]
    split
    · next h =>
      cases hk' : recordKey F kek d' with
      | none => rfl
      | some key' => rw [hpost d' (by simp) h.1 h.2 key' hk', Option.some_or]
    · rfl

def keyUnder (providers : Dict String Provider) (name text : String) : Option String :=
  (providers.get? name).bind fun provider => provider.recordKeys.get? text

variable (E F kek) in
def Keyed (t : Tables Token) (past : List (DomainRow Token))
    (providers : Dict String Provider) : Prop :=
  ∀ b ∈ t.backends, b.type = "hurricane" →
    ∀ text, keyUnder providers b.name text = lastKey E F kek past b.id text

lemma recordKeys_of_zoneProvider {backendsByName : Dict String BackendConfig}
    {providers : Dict String Provider} {z : ZoneConfig} {provider : Provider}
    (h : zoneProvider backendsByName providers z = .ok provider)
    (text : String) : provider.recordKeys.get? text = keyUnder providers (providerKey z) text := by
  unfold zoneProvider at h
  split at h
  · next p hg =>
    obtain rfl := Except.ok.inj h
    rw [keyUnder, hg]
    rfl
  · next hg =>
    rw [keyUnder, hg]
    unfold makeProvider at h
    dsimp only at h
    split at h
    · simp at h
    · split at h
      · simp at h
      · next p _ provider' hf =>
        obtain rfl := Except.ok.inj h
        obtain ⟨c, -, rfl⟩ := map_ok.mp hf
        rfl

lemma recordKey_eq {d : DomainRow Token} {key : Option String} (h : domainKey F kek d = .ok key) :
    recordKey F kek d = key.filter (fun key => key ≠ "") := by
  simp [recordKey, h, Except.toOption]

lemma bindKey_recordKeys {provider : Provider} {z : ZoneConfig} {d : DomainRow Token}
    {config : HurricaneConfig}
    (hc : provider.config = .hurricane config) (hr : z.recordName = d.recordName)
    (hk : domainKey F kek d = .ok z.heDynamicKey) (text : String) :
    (bindKey E provider z).recordKeys.get? text = (if normalizeRecord E d.recordName = text then
      recordKey F kek d else none).or (provider.recordKeys.get? text) := by
  rw [recordKey_eq hk]
  rw [bindKey]
  rw [hc]
  cases hz : z.heDynamicKey with
  | none => simp
  | some key =>
    by_cases hkey : key = ""
    · subst hkey
      simp only [↓reduceIte]
      split <;> rfl
    · simp only [hkey, ↓reduceIte, Provider.registerRecordKey, Dict.get?_set, hr, beq_iff_eq,
        Option.filter_some, ne_eq, not_false_eq_true, decide_true]
      split <;> rfl

variable {t : Tables Token} {backendsByName : Dict String BackendConfig}

lemma keyed_empty : Keyed E F kek t [] ∅ := fun _ _ _ _ => rfl

lemma Keyed.zone (hs : Sound F kek t) (hc : t.Consistent)
    (hb : ByName F kek t.backends backendsByName)
    {acc acc' : Dict String Provider × List (Route ProviderRef)} {past : List (DomainRow Token)}
    (h : Keyed E F kek t past acc.1) (hr : Registered t acc.1) {d : DomainRow Token}
    {z : ZoneConfig} (hz : ZoneOf t d z) (hk : domainKey F kek d = .ok z.heDynamicKey)
    (hbuild : buildZone E backendsByName acc z = .ok acc') :
    Keyed E F kek t (past ++ [d]) acc'.1 := by
  obtain ⟨b₀, hm₀, hid, -, hrec, hname⟩ := hz
  obtain ⟨provider, hp, htype⟩ := zoneProvider_returns hs hc.backendNames hb hr hm₀ hname
  have hkey := providerKey_of_name hname (hs.backends b₀ hm₀).1
  obtain ⟨provider', hp', hbuild⟩ := bind_ok.mp hbuild
  obtain rfl := Except.ok.inj (hp.symm.trans hp')
  obtain ⟨zone, -, hbuild⟩ := bind_ok.mp hbuild
  obtain ⟨recordName, -, hbuild⟩ := bind_ok.mp hbuild
  obtain rfl := pure_ok.mp hbuild
  intro b hm ht text
  rw [hkey, keyUnder, Dict.get?_set]
  by_cases hbb : b = b₀
  · subst hbb
    obtain ⟨config, hconfig⟩ : ∃ config, provider.config = .hurricane config := by
      rw [ht, show getProvider "hurricane" = some .hurricane by decide] at htype
      cases hc : provider.config with
      | hurricane config => exact ⟨config, rfl⟩
      | route53 config => simp [hc, ProviderConfig.type] at htype
    rw [if_pos (by simp), Option.bind_some, bindKey_recordKeys hconfig hrec hk,
      recordKeys_of_zoneProvider hp, hkey, h b hm ht, lastKey_concat]
    simp [hid]
  · have hne : b₀.name ≠ b.name := fun hn =>
      hbb (List.inj_on_of_nodup_map hc.backendNames hm hm₀ hn.symm)
    have hnid : d.backendId ≠ b.id := by
      rw [← hid]
      exact fun hi => hbb (List.inj_on_of_nodup_map hc.backendIds hm hm₀ hi.symm)
    rw [if_neg (by simpa using hne), lastKey_of_other hnid]
    exact h b hm ht text

lemma Keyed.zones (hs : Sound F kek t) (hc : t.Consistent)
    (hb : ByName F kek t.backends backendsByName)
    {ds : List (DomainRow Token)} {zones : List ZoneConfig}
    (hz : List.Forall₂ (fun d z => ZoneOf t d z ∧ domainKey F kek d = .ok z.heDynamicKey) ds zones)
    {acc acc' : Dict String Provider × List (Route ProviderRef)} {past : List (DomainRow Token)}
    (h : Keyed E F kek t past acc.1) (hr : Registered t acc.1)
    (hbuild : zones.foldlM (buildZone E backendsByName) acc = .ok acc') :
    Keyed E F kek t (past ++ ds) acc'.1 ∧ Registered t acc'.1 := by
  induction hz generalizing acc past with
  | nil =>
    rw [List.foldlM_nil, pure_ok] at hbuild
    rw [List.append_nil, ← hbuild]
    exact ⟨h, hr⟩
  | @cons d z ds zones hd _ ih =>
    rw [List.foldlM_cons] at hbuild
    obtain ⟨acc₁, h₁, hbuild⟩ := bind_ok.mp hbuild
    have hnext :=
      ih (h.zone hs hc hb hr hd.1 hd.2 h₁) (buildZone_ok hs hc.backendNames hb hr hd.1 h₁).1 hbuild
    rwa [List.append_assoc] at hnext

end Keys

section Loaded

variable {E F kek} {t : Tables Token} {rows : Selected Token} {runtime : DataPlaneRuntime}

lemma domainKey_of_zoneConfig {backendById : Dict ℕ (BackendRow Token)} {d : DomainRow Token}
    {z : ZoneConfig}
    (h : zoneConfig F kek backendById d = .ok z) : domainKey F kek d = .ok z.heDynamicKey := by
  unfold zoneConfig at h
  split at h
  · simp at h
  · obtain ⟨key, hk, h⟩ := bind_ok.mp h
    obtain rfl := pure_ok.mp h
    exact hk

lemma keyed_of_loadRuntime (hs : Sound F kek t) (hc : t.Consistent) (hsel : Selects t rows)
    (h : loadRuntime E F kek rows = .ok runtime) :
    Keyed E F kek t rows.domains runtime.providers ∧ Registered t runtime.providers := by
  obtain ⟨config, hconf, h⟩ := bind_ok.mp h
  obtain ⟨-, hb, hz⟩ := loadConfigFromDb_ok.mp hconf
  obtain ⟨acc, -, hfold, -, hproviders⟩ := buildDataPlane_ok.mp (liftBuild_ok.mp h)
  have hzones := hz.imp fun d z hdz =>
    And.intro (zoneOf_of_zoneConfig (t := t) hsel.backends hdz) (domainKey_of_zoneConfig hdz)
  rw [hproviders]
  exact Keyed.zones hs hc (byName_of_selected hc.backendNames hsel.backends hb) hzones keyed_empty
    registered_empty hfold

lemma route_of_last {routes : List (Route ProviderRef)} {pre post : List (DomainRow Token)}
    {d : DomainRow Token} (hroutes : List.Forall₂ (RowRoute E t) (pre ++ d :: post) routes)
    {zone : Name} (hz : Name.fromText E.fromUnicode d.zone = .ok zone)
    (hpost : ∀ d' ∈ post, ∀ z', Name.fromText E.fromUnicode d'.zone = .ok z' → (z' == zone) = false)
    {name : Name} {route : Route ProviderRef}
    (hm : (RoutingTable.ofRoutes routes).match name = some route)
    (hzone : route.zone == zone) : RowRoute E t d route := by
  have hpre := List.forall₂_take pre.length hroutes
  have hdrop := List.forall₂_drop pre.length hroutes
  rw [List.take_left' rfl] at hpre
  rw [List.drop_left' rfl] at hdrop
  obtain ⟨r, rest, hr, hrest, hsplit⟩ := List.forall₂_cons_left_iff.mp hdrop
  have hroutes : routes = routes.take pre.length ++ r :: rest := by
    rw [← hsplit, List.take_append_drop]
  have hrzone : r.zone == zone := by
    obtain ⟨b, -, p, zone', recordName, -, -, hz', -, rfl⟩ := hr
    obtain rfl := Except.ok.inj (hz'.symm.trans hz)
    exact Name.canonicalize_beq _
  have hlast : ∀ e ∈ rest.map (fun r => (r.zone, r)), (e.1 == r.zone) = false := by
    rw [List.forall_mem_map]
    intro r' hr'
    obtain ⟨d', hd', b, -, p, zone', recordName, -, -, hz', -, rfl⟩ :=
      exists_related (R := fun r d => RowRoute E t d r) hrest.flip hr'
    rw [BEq.congr_left (Name.canonicalize_beq zone'), BEq.congr_right hrzone]
    exact hpost d' hd' zone' hz'
  have hget : (RoutingTable.ofRoutes routes).get? zone = some r := by
    rw [hroutes, RoutingTable.ofRoutes, List.map_append, List.map_cons,
      Dict.get?_congr _ (show zone == r.zone by rw [BEq.comm]; exact hrzone)]
    exact Dict.get?_ofList_last hlast
  obtain ⟨k, hk⟩ := get?_of_match hm
  obtain ⟨k', hmem, hkk⟩ := Dict.get?_ofList_mem hk
  obtain ⟨route', -, he⟩ := List.mem_map.mp hmem
  obtain ⟨rfl, rfl⟩ := Prod.mk.inj he
  have hkz : k == zone := (BEq.congr_left (BEq.symm hkk)).trans hzone
  obtain rfl := Option.some.inj (hk.symm.trans ((Dict.get?_congr _ hkz).trans hget))
  exact hr

lemma domainKey_domainSecret {d : DomainRow Token} {key : Option String} {r : ℕ}
    (h : d.secretEncrypted = domainSecret F kek key r) : domainKey F kek d ≠ .ok (some "") := by
  rw [domainKey]
  rw [h]
  unfold domainSecret
  cases key with
  | none => simp
  | some key =>
    by_cases hk : key = ""
    · simp [hk]
    · simp [hk, liftStore, Except.map]

lemma key_nonempty_of_run {reqs : List Request} {db : Database Token}
    (h : (api F kek).Run reqs db) : ∀ d ∈ db.tables.domains, domainKey F kek d ≠ .ok (some "") := by
  refine h.invariant (I := fun db => ∀ d ∈ db.tables.domains,
    domainKey F kek d ≠ .ok (some "")) ?_ ?_
  · rintro db rfl
    simp [Database.empty]
  · intro db req db' hi hs d hd
    rcases handle_cases hs with ⟨-, hds, -⟩ | ⟨w, hw, hc, -⟩
    · exact hi d (hds ▸ hd)
    · rw [(Database.commit_eq_some.mp hc).2] at hd
      have hok := writeOk_of_prepare hw
      cases w with
      | addDomain zone backendId recordName secret =>
        obtain ⟨key, r, rfl⟩ := hok
        rcases List.mem_append.mp hd with hd | hd
        · exact hi d hd
        · obtain rfl := List.mem_singleton.mp hd
          exact domainKey_domainSecret rfl
      | dropDomain id => exact hi d (List.mem_of_mem_filter hd)
      | addBackend | setBackend | dropBackend | addTsigKey | dropTsigKey => exact hi d hd

lemma formFor_ok {keys : Dict String String} {recordName value : String} {form : Form}
    (h : formFor E keys recordName value = .ok form) :
    keys.get? (normalizeRecord E recordName) = some form.password := by
  unfold formFor at h
  dsimp only at h
  split at h
  · simp at h
  · next password hg => rw [hg, ← Except.ok.inj h]

lemma formFor_of_get {keys : Dict String String} {recordName key : String}
    (h : keys.get? (normalizeRecord E recordName) = some key) (value : String) :
    formFor E keys recordName value = .ok ⟨normalizeRecord E recordName, key, value⟩ := by
  simp [formFor, h]

lemma postsWith_iff {c : ProviderCall ProviderRef} (hv : c.action = .present → c.values.length = 1)
    (hh : ∀ provider, runtime.providers.get? c.provider.key = some provider →
      provider.config.type = .hurricane) {key : String} : PostsWith E runtime c key ↔
    keyUnder runtime.providers c.provider.key (normalizeRecord E c.recordName) = some key := by
  rw [PostsWith, keyUnder]
  cases hg : runtime.providers.get? c.provider.key with
  | none => simp
  | some provider =>
    obtain ⟨config, hconfig⟩ : ∃ config, provider.config = .hurricane config := by
      have ht := hh provider hg
      cases hc : provider.config with
      | hurricane config => exact ⟨config, rfl⟩
      | route53 config => simp [hc, ProviderConfig.type] at ht
    obtain ⟨value, hform⟩ : ∃ value, postedForm E provider.recordKeys config c =
        formFor E provider.recordKeys c.recordName value := by
      rw [postedForm]
      cases ha : c.action with
      | cleanup => exact ⟨_, rfl⟩
      | present =>
        obtain ⟨v, hv⟩ := List.length_eq_one_iff.mp (hv ha)
        rw [hv]
        exact ⟨v, rfl⟩
    rw [Option.bind_some]
    constructor
    · rintro ⟨provider', config', form, hp, hc, hf, rfl⟩
      obtain rfl := Option.some.inj hp
      obtain rfl := ProviderConfig.hurricane.inj (hconfig.symm.trans hc)
      exact formFor_ok (hform.symm.trans hf)
    · intro hk
      exact ⟨provider, config, _, rfl, hconfig, hform.trans (formFor_of_get hk value), rfl⟩

end Loaded

variable {E F kek} in
/-- On the route of a row that a load makes last of its zone, a Hurricane provider posts with the
row's key exactly when that is the key of the last row of the backend whose record name is,
lower-cased and without its final dots, the text of the owner. It is where the row's own record name
is that text, unless a later row of the backend takes it over. -/
theorem posts_row_key_iff {reqs : List Request} {db : Database Token} (h : (api F kek).Run reqs db)
    {rows : Selected Token} {s : CacheSnapshot} (hsel : Selects db.tables rows)
    (hl : load E F kek rows = .ok s) {pre post : List (DomainRow Token)} {d : DomainRow Token}
    (hrows : rows.domains = pre ++ d :: post) {b : BackendRow Token} (hb : b ∈ db.tables.backends)
    (hid : b.id = d.backendId) (ht : b.type = "hurricane")
    {key : String} (hk : domainKey F kek d = .ok (some key)) {zone : Name}
    (hz : Name.fromText E.fromUnicode d.zone = .ok zone)
    (hpost : ∀ d' ∈ post, ∀ z', Name.fromText E.fromUnicode d'.zone = .ok z' → (z' == zone) = false)
    {msg : Message} {p : Plan ProviderRef}
    (hp : plan ProviderRef.type s.runtime.routing msg = some p) (hzone : p.route.zone == zone) :
    (PostsWith E s.runtime p.call key ↔
      lastKey E F kek rows.domains b.id (normalizeRecord E p.call.recordName) = some key) ∧
    (normalizeRecord E d.recordName = normalizeRecord E p.call.recordName →
      (∀ d' ∈ post, d'.backendId = d.backendId →
        normalizeRecord E d'.recordName = normalizeRecord E d.recordName →
          ∀ key' ∈ recordKey F kek d', key' = key) →
      PostsWith E s.runtime p.call key) := by
  have hs := sound_of_run h
  have hc := db.consistent
  have hruntime := (load_eq_ok.mp hl).1
  obtain ⟨hkeyed, hreg⟩ := keyed_of_loadRuntime hs hc hsel hruntime
  obtain ⟨-, routes, hroutes, hrouting⟩ := loadRuntime_ok hs hc hsel hruntime
  obtain ⟨route, rrset, hchecked, rfl⟩ := plan_eq_some.mp hp
  obtain ⟨zq, -, hmatch⟩ := hchecked.zone
  rw [hrows] at hroutes
  rw [← hrouting] at hmatch
  obtain ⟨b', hb', ptype, zone', recordName, hid', hptype, -, -, rfl⟩ :=
    route_of_last hroutes hz hpost hmatch hzone
  obtain rfl : b' = b := List.inj_on_of_nodup_map hc.backendIds hb' hb (hid'.trans hid.symm)
  have hty : ptype = .hurricane := by
    rw [ht, show getProvider "hurricane" = some .hurricane by decide] at hptype
    exact (Option.some.inj hptype).symm
  have hiff : PostsWith E s.runtime
      (callOf ⟨zone'.canonicalize, ⟨b'.name, ptype⟩, recordName.canonicalize⟩ rrset) key ↔
      lastKey E F kek rows.domains b'.id (normalizeRecord E rrset.name.toText) = some key := by
    rw [postsWith_iff]
    · exact (congrArg (· = some key) (hkeyed b' hb ht _)).to_iff
    · intro ha
      have hone : rrset.rdatas.length ≤ 1 := by
        refine hchecked.atMostOne.resolve_right ?_
        rw [hty]
        simp [ProviderType.supportsMultivalue]
      have hne : rrset.rdatas ≠ [] := by
        refine hchecked.atLeastOne.resolve_right ?_
        rw [show actionOf rrset = .present from ha]
        decide
      have hpos := List.length_pos_of_ne_nil hne
      change (rrset.rdatas.map joined).length = 1
      rw [List.length_map]
      omega
    · intro provider hg
      obtain ⟨b'', hb'', hname, htype⟩ := hreg _ _ hg
      obtain rfl := List.inj_on_of_nodup_map hc.backendNames hb'' hb hname
      rw [hptype] at htype
      exact (Option.some.inj htype).symm.trans hty
  refine ⟨hiff, fun hown hlater => hiff.mpr ?_⟩
  have hd : d ∈ db.tables.domains := hsel.domains.subset (hrows ▸ by simp)
  have hne : key ≠ "" := by
    rintro rfl
    exact key_nonempty_of_run h d hd hk
  rw [hrows, hid,
    show normalizeRecord E rrset.name.toText = normalizeRecord E d.recordName from hown.symm]
  exact lastKey_of_own (by rw [recordKey_eq hk]; simp [hne]) hlater

section Sample

def heDomain (recordName : String) : Request :=
  .createDomain ⟨"example.com", 1, recordName, some "key"⟩ 0

def heTables (recordName : String) : Tables String :=
  (afterTwo sampleBackend (heDomain recordName)).tables

def hePlan : Plan ProviderRef :=
  ⟨⟨exampleZone, ⟨"he", .hurricane⟩, exampleRecord⟩,
    ⟨⟨"he", .hurricane⟩, .present, "example.com.", "_acme-challenge.example.com.", ["x"]⟩,
    "_acme-challenge.example.com."⟩

structure Observed where
  planned : Option (Plan ProviderRef)
  keys : Option (Option (Dict String String))
deriving DecidableEq

def observed (s : CacheSnapshot) : Observed :=
  ⟨plan ProviderRef.type s.runtime.routing (updateIn exampleZone),
    some ((s.runtime.providers.get? "he").map Provider.recordKeys)⟩

theorem escapedRecord_unkeyed :
    (api plainFernet sampleKek).Run [sampleBackend, heDomain "_acme\\-challenge.example.com"]
      (afterTwo sampleBackend (heDomain "_acme\\-challenge.example.com")) ∧ ∃ s,
      load asciiPlatform plainFernet sampleKek (rowsOf (heTables "_acme\\-challenge.example.com")) =
      .ok s ∧ plan ProviderRef.type s.runtime.routing (updateIn exampleZone) = some hePlan ∧
      ∀ key, ¬ PostsWith asciiPlatform s.runtime hePlan.call key := by
  refine ⟨run_afterTwo _ _, ?_⟩
  have hload : (load asciiPlatform plainFernet sampleKek
      (rowsOf (heTables "_acme\\-challenge.example.com"))).toOption.map observed =
      some ⟨some hePlan, some (some (Dict.ofList [("_acme\\-challenge.example.com", "key")]))⟩ := by
    decide +kernel
  obtain ⟨s, hl, hobserved⟩ := returns_of_map hload
  simp only [observed, Observed.mk.injEq, Option.some.injEq] at hobserved
  refine ⟨s, hl, hobserved.1, ?_⟩
  rintro key ⟨provider, config, form, hg, -, hf, -⟩
  have hkeys := hobserved.2
  rw [show s.runtime.providers.get? "he" = some provider from hg, Option.map_some,
    Option.some.injEq] at hkeys
  rw [hkeys] at hf
  have hnone : formFor asciiPlatform (Dict.ofList [("_acme\\-challenge.example.com", "key")])
      "_acme-challenge.example.com." "x" =
      .error (.provider (.noDynamicKey "_acme-challenge.example.com.")) := by
    decide +kernel
  change formFor asciiPlatform (Dict.ofList [("_acme\\-challenge.example.com", "key")])
    "_acme-challenge.example.com." "x" = _ at hf
  rw [hnone] at hf
  simp at hf

theorem plainRecord_keyed : ∃ s,
    load asciiPlatform plainFernet sampleKek (rowsOf (heTables "_acme-challenge.example.com")) =
    .ok s ∧ PostsWith asciiPlatform s.runtime hePlan.call "key" := by
  have hload : (load asciiPlatform plainFernet sampleKek
      (rowsOf (heTables "_acme-challenge.example.com"))).toOption.map observed = some ⟨some hePlan,
      some (some (Dict.ofList [("_acme-challenge.example.com", "key")]))⟩ := by decide +kernel
  obtain ⟨s, hl, hobserved⟩ := returns_of_map hload
  simp only [observed, Observed.mk.injEq] at hobserved
  have hrows : (rowsOf (heTables "_acme-challenge.example.com")).domains = [] ++
      ⟨1, "example.com", 1, "_acme-challenge.example.com", some "key"⟩ :: [] := by decide +kernel
  obtain ⟨b, hb, hid, ht⟩ : ∃ b ∈ (heTables "_acme-challenge.example.com").backends,
      b.id = 1 ∧ b.type = "hurricane" := by decide +kernel
  have hz : Name.fromText asciiPlatform.fromUnicode "example.com" = .ok exampleZone := by
    decide +kernel
  have hzone : hePlan.route.zone == exampleZone := by decide +kernel
  refine ⟨s, hl, (posts_row_key_iff (run_afterTwo _ _) (selects_self _) hl hrows hb hid ht rfl hz
    (by simp) hobserved.1 hzone).2 (by decide +kernel) (by simp)⟩

end Sample

end AstropathRelay.Cache
