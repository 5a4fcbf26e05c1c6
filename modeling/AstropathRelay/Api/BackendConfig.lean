import AstropathRelay.Api.Management
import AstropathRelay.Cache.Loader

/-! Whether a backend's config comes back from the database as it was submitted. -/

namespace AstropathRelay.Api

open Lib Providers Store Cache

section Commits

variable {Token : Type} {t : Tables Token}

lemma consistent_addBackend (h : t.Consistent) {name : String}
    (hn : name ∉ t.backends.map BackendRow.name) (type : String)
    (config : Token) : ((Write.addBackend name type config).apply t).Consistent where
  backendIds := by
    have hnew : t.backendSeq + 1 ∉ t.backends.map BackendRow.id := by
      rintro hm
      obtain ⟨r, hr, he⟩ := List.mem_map.mp hm
      have := h.backendSeq r hr
      omega
    simpa [Write.apply, List.nodup_append] using ⟨h.backendIds, by simpa using hnew⟩
  backendNames := by
    simpa [Write.apply, List.nodup_append] using ⟨h.backendNames, by simpa using hn⟩
  backendSeq := by
    simp only [Write.apply, List.mem_append, List.mem_singleton]
    rintro r (hr | rfl)
    · exact (h.backendSeq r hr).trans (Nat.le_succ _)
    · exact le_rfl
  domainIds := h.domainIds
  domainZones := h.domainZones
  domainBackends := by
    intro d hd
    simp only [Write.apply, List.map_append]
    exact List.mem_append_left _ (h.domainBackends d hd)
  domainSeq := h.domainSeq
  tsigKeyIds := h.tsigKeyIds
  tsigKeyNames := h.tsigKeyNames
  tsigKeySeq := h.tsigKeySeq

lemma setRow_id (id : ℕ) (name : Option String) (config : Option Token) (r : BackendRow Token) :
    (Write.setRow id name config r).id = r.id := by
  rw [Write.setRow]
  split <;> rfl

lemma setRow_name (id : ℕ) (config : Option Token) (r : BackendRow Token) :
    (Write.setRow id none config r).name = r.name := by
  rw [Write.setRow]
  split <;> rfl

lemma consistent_setConfig (h : t.Consistent) (id : ℕ) (config : Option Token) :
    ((Write.setBackend id none config).apply t).Consistent where
  backendIds := by simpa [Write.apply, Function.comp_def, setRow_id] using h.backendIds
  backendNames := by simpa [Write.apply, Function.comp_def, setRow_name] using h.backendNames
  backendSeq := by
    simp only [Write.apply, List.mem_map]
    rintro _ ⟨r, hr, rfl⟩
    rw [setRow_id]
    exact h.backendSeq r hr
  domainIds := h.domainIds
  domainZones := h.domainZones
  domainBackends := by
    intro d hd
    simpa [Write.apply, Function.comp_def, setRow_id] using h.domainBackends d hd
  domainSeq := h.domainSeq
  tsigKeyIds := h.tsigKeyIds
  tsigKeyNames := h.tsigKeyNames
  tsigKeySeq := h.tsigKeySeq

end Commits

variable {Key Token : Type} (F : Fernet Key Token) (kek : Kek Key)

def RoundTrips (p : ProviderType) (config : Config) (row : BackendRow Token) : Prop :=
  ∃ stored, backendConfig F kek row = .ok stored ∧ fromConfig p stored.config = fromConfig p config

variable {F kek}

lemma encryptedConfig_ok {p : ProviderType} {config : Config} {r : ℕ} {token : Token}
    (h : encryptedConfig F kek p config r = .ok token) :
    ∃ placeholder, p = .hurricane ∧ modelValidate p config = .ok (.hurricane ⟨placeholder⟩) ∧
      token = kek.encrypt F r (JsonText.dumps [("cleanup_placeholder", .str placeholder)]) := by
  unfold encryptedConfig at h
  cases hv : modelValidate p config with
  | error e => simp [hv] at h
  | ok c =>
    have ht := type_of_modelValidate hv
    cases c with
    | hurricane c =>
      simp only [hv, encryptJson_modelDump, Except.ok.injEq] at h
      exact ⟨c.cleanupPlaceholder, ht.symm, rfl, h.symm⟩
    | route53 c => simp [hv, encryptJson_modelDump] at h

variable (F kek) in
lemma encryptedConfig_hurricane {config : Config} {c : ProviderConfig} (r : ℕ)
    (h : modelValidate .hurricane config = .ok c) :
    ∃ token, encryptedConfig F kek .hurricane config r = .ok token := by
  have ht := type_of_modelValidate h
  cases c with
  | hurricane c =>
    simp only [encryptedConfig, h, encryptJson_modelDump]
    exact ⟨_, rfl⟩
  | route53 c => simp [ProviderConfig.type] at ht

lemma encryptedConfig_error {p : ProviderType} {config : Config} {c : ProviderConfig} {r e : ℕ}
    (hc : modelValidate p config = .ok c) (h : encryptedConfig F kek p config r = .error e) :
    e = Status.serverError := by
  unfold encryptedConfig at h
  rw [hc] at h
  cases c with
  | hurricane c => simp [encryptJson_modelDump] at h
  | route53 c =>
    simp only [encryptJson_modelDump, Except.error.injEq] at h
    exact h.symm

lemma roundTrips_of_encryptedConfig {p : ProviderType} {config : Config} {r : ℕ}
    {row : BackendRow Token} (h : encryptedConfig F kek p config r = .ok row.configEncrypted) :
    RoundTrips F kek p config row := by
  obtain ⟨placeholder, rfl, hv, ht⟩ := encryptedConfig_ok h
  refine ⟨⟨row.name, row.type, Dict.ofList [("cleanup_placeholder", .str placeholder)]⟩, ?_, ?_⟩
  · rw [backendConfig, ht, decryptJson_hurricane]
    rfl
  · rw [fromConfig, fromConfig, hv]
    rfl

variable (F kek)

def CreateKeeps (db : Database Token) (name : String) (p : ProviderType) (config : Config)
    (r : ℕ) : Prop :=
  ∃ db' row, handle F kek db (.createBackend ⟨name, p.text, config⟩ r) = (Status.created, db') ∧
    row ∈ db'.tables.backends ∧ row.name = name ∧ RoundTrips F kek p config row

def UpdateKeeps (db : Database Token) (id : ℕ) (p : ProviderType) (config : Config)
    (r : ℕ) : Prop :=
  ∃ db' row, handle F kek db (.updateBackend id ⟨none, some config⟩ r) = (Status.ok, db') ∧
    row ∈ db'.tables.backends ∧ row.id = id ∧ RoundTrips F kek p config row

variable {F kek}

lemma text_ne_empty (p : ProviderType) : p.text ≠ "" := by
  cases p <;> decide

lemma createKeeps_iff (db : Database Token) {name : String} (hl : lengthOk name)
    (hs : storable name) (hn : name ∉ db.tables.backends.map BackendRow.name) {p : ProviderType}
    {config : Config} {c : ProviderConfig} (hc : modelValidate p config = .ok c)
    (r : ℕ) : CreateKeeps F kek db name p config r ↔ p = .hurricane := by
  constructor
  · rintro ⟨db', row, hh, -⟩
    cases he : encryptedConfig F kek p config r with
    | error e =>
      obtain rfl := encryptedConfig_error hc he
      have hp : prepare F kek db (.createBackend ⟨name, p.text, config⟩ r) =
          .error Status.serverError := by
        simp [prepare, createBackend, hl, text_ne_empty, getProvider_text, he, bind, Except.bind]
      simp [handle, hp, Status.serverError, Status.created] at hh
    | ok token =>
      obtain ⟨_, rfl, -⟩ := encryptedConfig_ok he
      rfl
  · rintro rfl
    obtain ⟨token, ht⟩ := encryptedConfig_hurricane F kek r hc
    have hp : prepare F kek db (.createBackend ⟨name, ProviderType.hurricane.text, config⟩ r) =
        .ok (.addBackend name ProviderType.hurricane.text token) := by
      simp [prepare, createBackend, hl, hs, text_ne_empty, getProvider_text, ht, bind, Except.bind,
        pure, Except.pure]
    have hcons := consistent_addBackend db.consistent hn ProviderType.hurricane.text token
    have hcommit : db.commit (.addBackend name ProviderType.hurricane.text token) =
        some ⟨_, hcons⟩ :=
      Database.commit_eq_some.mpr ⟨trivial, rfl⟩
    refine ⟨⟨_, hcons⟩, ⟨db.tables.backendSeq + 1, name, ProviderType.hurricane.text, token⟩, ?_,
      ?_, rfl, roundTrips_of_encryptedConfig ht⟩
    · simp only [handle, hp, hcommit]
      rfl
    · simp [Write.apply]

lemma backend?_of_mem (db : Database Token) {row : BackendRow Token}
    (h : row ∈ db.tables.backends) : db.backend? row.id = some row := by
  have hs : (db.backend? row.id).isSome := by
    rw [Database.backend?, List.find?_isSome]
    exact ⟨row, h, by simp⟩
  obtain ⟨row', hr⟩ := Option.isSome_iff_exists.mp hs
  have hid : row'.id = row.id := by simpa using List.find?_some hr
  have heq := List.inj_on_of_nodup_map db.consistent.backendIds (List.mem_of_find?_eq_some hr) h hid
  rw [hr, heq]

lemma updateKeeps_iff (db : Database Token) {row : BackendRow Token} (hr : row ∈ db.tables.backends)
    (hid : inInt32 row.id) {p : ProviderType} (ht : row.type = p.text) {config : Config}
    {c : ProviderConfig} (hc : modelValidate p config = .ok c)
    (r : ℕ) : UpdateKeeps F kek db row.id p config r ↔ p = .hurricane := by
  have hfind := backend?_of_mem db hr
  constructor
  · rintro ⟨db', row', hh, -⟩
    cases he : encryptedConfig F kek p config r with
    | error e =>
      obtain rfl := encryptedConfig_error hc he
      have hp : prepare F kek db (.updateBackend row.id ⟨none, some config⟩ r) =
          .error Status.serverError := by
        simp [prepare, updateBackend, hid, hfind, patchedConfig, ht, getProvider_text, he, bind,
          Except.bind, Except.map]
      simp [handle, hp, Status.serverError, Status.ok] at hh
    | ok token =>
      obtain ⟨_, rfl, -⟩ := encryptedConfig_ok he
      rfl
  · rintro rfl
    obtain ⟨token, htok⟩ := encryptedConfig_hurricane F kek r hc
    have hp : prepare F kek db (.updateBackend row.id ⟨none, some config⟩ r) =
        .ok (.setBackend row.id none (some token)) := by
      simp [prepare, updateBackend, hid, hfind, patchedConfig, ht, getProvider_text, htok, bind,
        Except.bind, Except.map, pure, Except.pure]
    have hcons := consistent_setConfig db.consistent row.id (some token)
    have hcommit : db.commit (.setBackend row.id none (some token)) = some ⟨_, hcons⟩ :=
      Database.commit_eq_some.mpr ⟨List.mem_map_of_mem hr, rfl⟩
    refine ⟨⟨_, hcons⟩, { row with configEncrypted := token }, ?_, ?_, rfl,
      roundTrips_of_encryptedConfig htok⟩
    · simp only [handle, hp, hcommit]
      rfl
    · exact List.mem_map.mpr ⟨row, hr, by simp [Write.setRow]⟩

/-- A config its schema accepts is stored so that it round-trips exactly when the provider is
Hurricane Electric, whose config has no secret field. -/
theorem backend_config_kept_iff (db : Database Token) (p : ProviderType) (config : Config) (r : ℕ)
    (hc : ∃ c, modelValidate p config = .ok c) :
    (∀ name, lengthOk name → storable name → name ∉ db.tables.backends.map BackendRow.name →
      (CreateKeeps F kek db name p config r ↔ p = .hurricane)) ∧
    ∀ row ∈ db.tables.backends, inInt32 row.id → row.type = p.text →
      (UpdateKeeps F kek db row.id p config r ↔ p = .hurricane) := by
  obtain ⟨c, hc⟩ := hc
  exact ⟨fun name hl hs hn => createKeeps_iff db hl hs hn hc r,
    fun row hr hid ht => updateKeeps_iff db hr hid ht hc r⟩

section Sample

def plainFernet : Fernet Unit String where
  encrypt _ _ text := text
  decrypt _ token := some token
  decrypt_encrypt _ _ _ := rfl

def sampleKek : Kek Unit := ⟨[()], by simp⟩

def route53Sample : Config :=
  Dict.ofList [("access_key_id", .str "id"), ("secret_access_key", .str "secret"),
    ("hosted_zone_id", .str "Z1")]

theorem route53_config_not_stored :
    (∃ c, modelValidate .route53 route53Sample = .ok c) ∧
      handle plainFernet sampleKek .empty (.createBackend ⟨"aws", "route53", route53Sample⟩ 0) =
        (Status.serverError, .empty) ∧
      ¬ CreateKeeps plainFernet sampleKek .empty "aws" .route53 route53Sample 0 := by
  have hh : handle plainFernet sampleKek .empty (.createBackend ⟨"aws", "route53",
      route53Sample⟩ 0) = (Status.serverError, .empty) := by decide +kernel
  refine ⟨⟨.route53 ⟨"id", "secret", "Z1", none, false⟩, by decide +kernel⟩, hh, ?_⟩
  rintro ⟨db', row, hc, -⟩
  have hs := congrArg Prod.fst (hh.symm.trans hc)
  simp [Status.serverError, Status.created] at hs

theorem hurricane_config_kept :
    (∃ c, modelValidate .hurricane ∅ = .ok c) ∧ lengthOk "he" ∧ storable "he" ∧
      CreateKeeps plainFernet sampleKek .empty "he" .hurricane ∅ 0 := by
  have hc : ∃ c, modelValidate .hurricane ∅ = .ok c :=
    ⟨.hurricane ⟨"acme-challenge-cleared"⟩, by decide +kernel⟩
  exact ⟨hc, by decide +kernel, by decide +kernel,
    ((backend_config_kept_iff .empty .hurricane ∅ 0 hc).1 "he" (by decide +kernel)
    (by decide +kernel)
      (by decide +kernel)).mpr rfl⟩

end Sample

end AstropathRelay.Api
