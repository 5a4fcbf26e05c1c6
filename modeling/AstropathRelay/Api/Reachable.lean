import AstropathRelay.Api.BackendConfig
import AstropathRelay.Lib.Results
import AstropathRelay.Lib.Runs

/-! The databases that sequences of requests reach, and what every row of them satisfies. -/

namespace AstropathRelay.Api

open Lib Lib.ByteStrings Lib.Results DataPlane Providers Store Cache

variable {Key Token : Type} (F : Fernet Key Token) (kek : Kek Key)

def api : System (Database Token) Request :=
  ⟨(· = .empty), fun db req db' => (handle F kek db req).2 = db'⟩

variable {F kek}

section Inversion

variable {db db' : Database Token} {req : Request}

lemma handle_cases (h : (handle F kek db req).2 = db') :
    (db'.tables.backends = db.tables.backends ∧ db'.tables.domains = db.tables.domains ∧
      db'.tables.tsigKeys = db.tables.tsigKeys) ∨ ∃ w, prepare F kek db req = .ok w ∧
      db.commit w = some db' ∧ (handle F kek db req).1 = req.success := by
  rw [handle] at h ⊢
  split at h
  · subst h
    exact Or.inl ⟨rfl, rfl, rfl⟩
  · next w hw =>
    split at h
    · next db₁ hc =>
      subst h
      exact Or.inr ⟨w, hw, hc, rfl⟩
    · subst h
      obtain ⟨hk, hb, hd⟩ := db.drawn_rows w
      exact Or.inl ⟨hb, hd, hk⟩

lemma createBackend_ok {payload : BackendCreate} {r : ℕ} {w : Write Token}
    (h : createBackend F kek payload r = .ok w) : ∃ p token, payload.name ≠ "" ∧
    getProvider payload.type = some p ∧ encryptedConfig F kek p payload.config r = .ok token ∧
    w = .addBackend payload.name payload.type token := by
  unfold createBackend at h
  split at h
  · simp at h
  · next hl =>
    split at h
    · simp at h
    · next p hp =>
      obtain ⟨token, ht, h⟩ := bind_ok.mp h
      split at h
      · simp at h
      · refine ⟨p, token, ?_, hp, ht, (pure_ok.mp h).symm⟩
        intro hn
        simp [hn, lengthOk] at hl

lemma updateBackend_ok {id : ℤ} {payload : BackendUpdate} {r : ℕ} {w : Write Token}
    (h : updateBackend F kek db id payload r = .ok w) : ∃ row token, row ∈ db.tables.backends ∧
    payload.name ≠ some "" ∧ patchedConfig F kek row.type payload.config r = .ok token ∧
    w = .setBackend row.id payload.name token := by
  unfold updateBackend at h
  split at h
  · simp at h
  · next hl =>
    split at h
    · simp at h
    · split at h
      · simp at h
      · next row hr =>
        obtain ⟨token, ht, h⟩ := bind_ok.mp h
        split at h
        · simp at h
        · refine ⟨row, token, List.mem_of_find?_eq_some hr, ?_, ht, (pure_ok.mp h).symm⟩
          intro hn
          simp [hn, lengthOk] at hl

lemma createDomain_ok {payload : DomainCreate} {r : ℕ} {w : Write Token}
    (h : createDomain F kek db payload r = .ok w) : ∃ row, row ∈ db.tables.backends ∧ w = .addDomain
    payload.zone row.id payload.recordName (domainSecret F kek payload.heDynamicKey r) := by
  unfold createDomain at h
  split at h
  · simp at h
  · split at h
    · simp at h
    · split at h
      · simp at h
      · next row hr =>
        split at h
        · simp at h
        · exact ⟨row, List.mem_of_find?_eq_some hr, (Except.ok.inj h).symm⟩

lemma createTsigKey_ok {payload : TsigKeyCreate} {drawn : Octets} {r : ℕ} {w : Write Token}
    (h : createTsigKey F kek payload drawn r = .ok w) :
    ∃ a, algorithmFromText payload.algorithm = some a ∧ w = .addTsigKey payload.name
      payload.algorithm (SecretCodec.encryptText F kek r (generateTsigSecret drawn)) := by
  unfold createTsigKey at h
  split at h
  · simp at h
  · split at h
    · simp at h
    · next a ha =>
      split at h
      · simp at h
      · exact ⟨a, ha, (Except.ok.inj h).symm⟩

lemma deleteBackend_ok {id : ℤ} {w : Write Token} (h : deleteBackend db id = .ok w) :
    ∃ n, w = .dropBackend n := by
  unfold deleteBackend at h
  split at h
  · simp at h
  · split at h
    · simp at h
    · split at h
      · simp at h
      · exact ⟨_, (Except.ok.inj h).symm⟩

lemma deleteDomain_ok {id : ℤ} {w : Write Token} (h : deleteDomain db id = .ok w) :
    ∃ n, w = .dropDomain n := by
  unfold deleteDomain at h
  split at h
  · simp at h
  · split at h
    · simp at h
    · exact ⟨_, (Except.ok.inj h).symm⟩

lemma revokeTsigKey_ok {id : ℤ} {w : Write Token} (h : revokeTsigKey db id = .ok w) :
    ∃ n, w = .dropTsigKey n := by
  unfold revokeTsigKey at h
  split at h
  · simp at h
  · split at h
    · simp at h
    · exact ⟨_, (Except.ok.inj h).symm⟩

inductive Prepared (F : Fernet Key Token) (kek : Kek Key) (db : Database Token) : Request →
    Write Token → Prop
  | addBackend {payload : BackendCreate} {r : ℕ} {p : ProviderType} {token : Token} : payload.name ≠
      "" →
      getProvider payload.type = some p → encryptedConfig F kek p payload.config r = .ok token →
      Prepared F kek db (.createBackend payload r) (.addBackend payload.name payload.type token)
  | setBackend {id : ℤ} {payload : BackendUpdate} {r : ℕ} {row : BackendRow Token}
      {token : Option Token} : row ∈ db.tables.backends → payload.name ≠ some "" →
      patchedConfig F kek row.type payload.config r = .ok token →
      Prepared F kek db (.updateBackend id payload r) (.setBackend row.id payload.name token)
  | dropBackend {id : ℤ} {n : ℕ} : Prepared F kek db (.deleteBackend id) (.dropBackend n)
  | addDomain {payload : DomainCreate} {r : ℕ} {row : BackendRow Token} : row ∈ db.tables.backends →
      Prepared F kek db (.createDomain payload r) (.addDomain payload.zone row.id payload.recordName
      (domainSecret F kek payload.heDynamicKey r))
  | dropDomain {id : ℤ} {n : ℕ} : Prepared F kek db (.deleteDomain id) (.dropDomain n)
  | addTsigKey {payload : TsigKeyCreate} {drawn : Octets} {r : ℕ}
      {a : Dns.Algorithm} : algorithmFromText payload.algorithm = some a →
      Prepared F kek db (.createTsigKey payload drawn r) (.addTsigKey payload.name payload.algorithm
      (SecretCodec.encryptText F kek r (generateTsigSecret drawn)))
  | dropTsigKey {id : ℤ} {n : ℕ} : Prepared F kek db (.revokeTsigKey id) (.dropTsigKey n)

lemma prepared_of_ok {w : Write Token} (h : prepare F kek db req = .ok w) :
    Prepared F kek db req w := by
  cases req with
  | createBackend payload r =>
    rw [prepare] at h
    obtain ⟨p, token, hn, hp, ht, rfl⟩ := createBackend_ok h
    exact .addBackend hn hp ht
  | updateBackend id payload r =>
    rw [prepare] at h
    obtain ⟨row, token, hr, hn, ht, rfl⟩ := updateBackend_ok h
    exact .setBackend hr hn ht
  | deleteBackend id =>
    rw [prepare] at h
    obtain ⟨n, rfl⟩ := deleteBackend_ok h
    exact .dropBackend
  | createDomain payload r =>
    rw [prepare] at h
    obtain ⟨row, hr, rfl⟩ := createDomain_ok h
    exact .addDomain hr
  | deleteDomain id =>
    rw [prepare] at h
    obtain ⟨n, rfl⟩ := deleteDomain_ok h
    exact .dropDomain
  | createTsigKey payload drawn r =>
    rw [prepare] at h
    obtain ⟨a, ha, rfl⟩ := createTsigKey_ok h
    exact .addTsigKey ha
  | revokeTsigKey id =>
    rw [prepare] at h
    obtain ⟨n, rfl⟩ := revokeTsigKey_ok h
    exact .dropTsigKey

lemma domain_of_handle (h : (handle F kek db req).2 = db') {d : DomainRow Token}
    (hd : d ∈ db'.tables.domains) : d ∈ db.tables.domains ∨
    ∃ payload r, req = .createDomain payload r ∧ (handle F kek db req).1 = req.success ∧
    d.zone = payload.zone ∧ d.recordName = payload.recordName := by
  rcases handle_cases h with ⟨-, hds, -⟩ | ⟨w, hw, hc, hs⟩
  · exact Or.inl (hds ▸ hd)
  · rw [(Database.commit_eq_some.mp hc).2] at hd
    cases prepared_of_ok hw with
    | @addDomain payload r _ _ =>
      rcases List.mem_append.mp hd with hd | hd
      · exact Or.inl hd
      · obtain rfl := List.mem_singleton.mp hd
        exact Or.inr ⟨payload, r, rfl, hs, rfl, rfl⟩
    | dropDomain => exact Or.inl (List.mem_of_mem_filter hd)
    | addBackend | setBackend | dropBackend | addTsigKey | dropTsigKey => exact Or.inl hd

lemma tsigKey_of_handle (h : (handle F kek db req).2 = db') {k : TsigKeyRow Token}
    (hk : k ∈ db'.tables.tsigKeys) :
    k ∈ db.tables.tsigKeys ∨ ∃ payload drawn r, req = .createTsigKey payload drawn r ∧
      (handle F kek db req).1 = req.success ∧ k.name = payload.name ∧
      k.secretEncrypted = SecretCodec.encryptText F kek r (generateTsigSecret drawn) := by
  rcases handle_cases h with ⟨-, -, hks⟩ | ⟨w, hw, hc, hs⟩
  · exact Or.inl (hks ▸ hk)
  · rw [(Database.commit_eq_some.mp hc).2] at hk
    cases prepared_of_ok hw with
    | @addTsigKey payload drawn r _ _ =>
      rcases List.mem_append.mp hk with hk | hk
      · exact Or.inl hk
      · obtain rfl := List.mem_singleton.mp hk
        exact Or.inr ⟨payload, drawn, r, rfl, hs, rfl, rfl⟩
    | dropTsigKey => exact Or.inl (List.mem_of_mem_filter hk)
    | addBackend | setBackend | dropBackend | addDomain | dropDomain => exact Or.inl hk

end Inversion

section Sound

variable (F kek)

def BackendOk (r : BackendRow Token) : Prop :=
  r.name ≠ "" ∧ ∃ p stored provider, getProvider r.type = some p ∧
    backendConfig F kek r = .ok stored ∧ fromConfig p stored.config = .ok provider

def DomainOk (d : DomainRow Token) : Prop := ∃ key, domainKey F kek d = .ok key

def TsigKeyOk (k : TsigKeyRow Token) : Prop :=
  ∃ spec a secret, tsigKeySpec F kek k = .ok spec ∧ algorithmFromText k.algorithm = some a ∧
    Base64.decode spec.secretB64 = some secret

structure Sound (t : Tables Token) : Prop where
  backends : ∀ r ∈ t.backends, BackendOk F kek r
  domains : ∀ d ∈ t.domains, DomainOk F kek d
  tsigKeys : ∀ k ∈ t.tsigKeys, TsigKeyOk F kek k

variable {F kek}

lemma backendOk_of_encryptedConfig {r : BackendRow Token} {p : ProviderType} {config : Config}
    {n : ℕ} (hn : r.name ≠ "") (hp : getProvider r.type = some p)
    (h : encryptedConfig F kek p config n = .ok r.configEncrypted) : BackendOk F kek r := by
  obtain ⟨stored, hs, hf⟩ := roundTrips_of_encryptedConfig h
  obtain ⟨placeholder, rfl, hv, -⟩ := encryptedConfig_ok h
  exact ⟨hn, .hurricane, stored, ⟨.hurricane ⟨placeholder⟩, ∅⟩, hp, hs,
    by rw [hf, fromConfig, hv]; rfl⟩

lemma backendOk_setRow {r : BackendRow Token} (h : BackendOk F kek r) {id : ℕ}
    {name : Option String} {token : Option Token} (hn : name ≠ some "")
    (ht : r.id = id → ∃ config n, patchedConfig F kek r.type config n = .ok token) :
    BackendOk F kek (Write.setRow id name token r) := by
  rw [Write.setRow]
  split
  · next hid =>
    obtain ⟨hne, p, stored, provider, hp, hs, hf⟩ := h
    have hname : name.getD r.name ≠ "" := by
      cases name with
      | none => exact hne
      | some s => exact fun hh => hn (congrArg some hh)
    obtain ⟨config, n, ht⟩ := ht hid
    unfold patchedConfig at ht
    split at ht
    · obtain rfl := Except.ok.inj ht
      obtain ⟨config, hc, hs⟩ := bind_ok.mp hs
      obtain rfl := pure_ok.mp hs
      exact ⟨hname, p, ⟨name.getD r.name, r.type, config⟩, provider, hp,
        bind_ok.mpr ⟨config, hc, rfl⟩, hf⟩
    · rw [hp] at ht
      obtain ⟨tok, htok, rfl⟩ := map_ok.mp ht
      exact backendOk_of_encryptedConfig (r := ⟨r.id, name.getD r.name, r.type, tok⟩) hname hp htok
  · exact h

lemma domainOk_domainSecret {d : DomainRow Token} {key : Option String} {r : ℕ}
    (h : d.secretEncrypted = domainSecret F kek key r) : DomainOk F kek d := by
  rw [DomainOk, domainKey]
  rw [h]
  unfold domainSecret
  cases key with
  | none => exact ⟨none, rfl⟩
  | some key =>
    by_cases hk : key = ""
    · exact ⟨none, by simp [hk]⟩
    · exact ⟨some key, by simp [hk, liftStore, Except.map]⟩

lemma tsigKeyOk_minted {k : TsigKeyRow Token} {drawn : Octets} {r : ℕ} {a : Dns.Algorithm}
    (ha : algorithmFromText k.algorithm = some a)
    (h : k.secretEncrypted = SecretCodec.encryptText F kek r (generateTsigSecret drawn)) :
    TsigKeyOk F kek k := by
  refine ⟨⟨k.name, k.algorithm, generateTsigSecret drawn⟩, a, drawn, ?_, ha,
    Base64.decode_encode drawn⟩
  rw [tsigKeySpec, h, SecretCodec.decryptText_encryptText]
  rfl

variable (F kek) in
def WriteOk (t : Tables Token) : Write Token → Prop
  | .addBackend name type token => name ≠ "" ∧
      ∃ p config r, getProvider type = some p ∧ encryptedConfig F kek p config r = .ok token
  | .setBackend id name token => name ≠ some "" ∧ id ≤ t.backendSeq ∧ ∀ row ∈ t.backends,
      row.id = id → ∃ config r, patchedConfig F kek row.type config r = .ok token
  | .addDomain _ _ _ secret => ∃ key r, secret = domainSecret F kek key r
  | .addTsigKey _ algorithm secret => ∃ a drawn r, algorithmFromText algorithm = some a ∧
      secret = SecretCodec.encryptText F kek r (generateTsigSecret drawn)
  | _ => True

lemma writeOk_of_prepare {db : Database Token} {req : Request} {w : Write Token}
    (h : prepare F kek db req = .ok w) : WriteOk F kek db.tables w := by
  cases prepared_of_ok h with
  | addBackend hn hp htok => exact ⟨hn, _, _, _, hp, htok⟩
  | setBackend hrow hn htok =>
    refine ⟨hn, db.consistent.backendSeq _ hrow, fun row hr hid => ?_⟩
    obtain rfl := List.inj_on_of_nodup_map db.consistent.backendIds hr hrow hid
    exact ⟨_, _, htok⟩
  | dropBackend | dropDomain | dropTsigKey => trivial
  | addDomain _ => exact ⟨_, _, rfl⟩
  | addTsigKey ha => exact ⟨_, _, _, ha, rfl⟩

lemma setRow_type (id : ℕ) (name : Option String) (config : Option Token) (r : BackendRow Token) :
    (Write.setRow id name config r).type = r.type := by
  rw [Write.setRow]
  split <;> rfl

lemma WriteOk.apply {t : Tables Token} {w : Write Token} (h : WriteOk F kek t w)
    (w' : Write Token) : WriteOk F kek (w'.apply t) w := by
  cases w with
  | setBackend id name token =>
    obtain ⟨hn, hid, hrow⟩ := h
    cases w' with
    | addBackend name' type' token' =>
      refine ⟨hn, hid.trans (Nat.le_succ _), fun row hr he => ?_⟩
      rcases List.mem_append.mp hr with hr | hr
      · exact hrow row hr he
      · obtain rfl := List.mem_singleton.mp hr
        exact absurd he (by simp only; omega)
    | setBackend id' name' token' =>
      refine ⟨hn, hid, fun row hr he => ?_⟩
      obtain ⟨r, hm, rfl⟩ := List.mem_map.mp hr
      rw [setRow_type]
      exact hrow r hm (by rw [← setRow_id]; exact he)
    | dropBackend id' => exact ⟨hn, hid, fun row hr he => hrow row (List.mem_of_mem_filter hr) he⟩
    | addDomain | dropDomain | addTsigKey | dropTsigKey => exact ⟨hn, hid, hrow⟩
  | addBackend | addDomain | addTsigKey => exact h
  | dropBackend | dropDomain | dropTsigKey => trivial

lemma WriteOk.drawn {db : Database Token} {w : Write Token} (h : WriteOk F kek db.tables w)
    (w' : Write Token) : WriteOk F kek (db.drawn w').tables w := by
  cases w with
  | setBackend id name token =>
    obtain ⟨hn, hid, hrow⟩ := h
    cases w' with
    | addBackend name' type' token' => exact ⟨hn, hid.trans (Nat.le_succ _), hrow⟩
    | setBackend | dropBackend | addDomain | dropDomain | addTsigKey | dropTsigKey =>
      exact ⟨hn, hid, hrow⟩
  | addBackend | addDomain | addTsigKey => exact h
  | dropBackend | dropDomain | dropTsigKey => trivial

lemma Sound.apply {t : Tables Token} (h : Sound F kek t) {w : Write Token}
    (hw : WriteOk F kek t w) : Sound F kek (w.apply t) := by
  cases w with
  | addBackend name type token =>
    obtain ⟨hn, p, config, r, hp, htok⟩ := hw
    refine ⟨fun row hr => ?_, h.domains, h.tsigKeys⟩
    rcases List.mem_append.mp hr with hr | hr
    · exact h.backends row hr
    · obtain rfl := List.mem_singleton.mp hr
      exact backendOk_of_encryptedConfig hn hp htok
  | setBackend id name token =>
    obtain ⟨hn, -, hrow⟩ := hw
    refine ⟨fun row hr => ?_, h.domains, h.tsigKeys⟩
    obtain ⟨r, hm, rfl⟩ := List.mem_map.mp hr
    exact backendOk_setRow (h.backends r hm) hn (hrow r hm)
  | dropBackend id =>
    exact ⟨fun r hr => h.backends r (List.mem_of_mem_filter hr), h.domains, h.tsigKeys⟩
  | addDomain zone backendId recordName secret =>
    obtain ⟨key, r, rfl⟩ := hw
    refine ⟨h.backends, fun d hd => ?_, h.tsigKeys⟩
    rcases List.mem_append.mp hd with hd | hd
    · exact h.domains d hd
    · obtain rfl := List.mem_singleton.mp hd
      exact domainOk_domainSecret rfl
  | dropDomain id =>
    exact ⟨h.backends, fun d hd => h.domains d (List.mem_of_mem_filter hd), h.tsigKeys⟩
  | addTsigKey name algorithm secret =>
    obtain ⟨a, drawn, r, ha, rfl⟩ := hw
    refine ⟨h.backends, h.domains, fun k hk => ?_⟩
    rcases List.mem_append.mp hk with hk | hk
    · exact h.tsigKeys k hk
    · obtain rfl := List.mem_singleton.mp hk
      exact tsigKeyOk_minted ha rfl
  | dropTsigKey id =>
    exact ⟨h.backends, h.domains, fun k hk => h.tsigKeys k (List.mem_of_mem_filter hk)⟩

lemma Sound.drawn {db : Database Token} (h : Sound F kek db.tables) (w : Write Token) :
    Sound F kek (db.drawn w).tables := by
  obtain ⟨hk, hb, hd⟩ := db.drawn_rows w
  exact ⟨by rw [hb]; exact h.backends, by rw [hd]; exact h.domains, by rw [hk]; exact h.tsigKeys⟩

lemma Sound.step {db db' : Database Token} {req : Request} (h : Sound F kek db.tables)
    (hs : (handle F kek db req).2 = db') : Sound F kek db'.tables := by
  rcases handle_cases hs with ⟨hb, hd, hk⟩ | ⟨w, hw, hc, -⟩
  · exact ⟨by rw [hb]; exact h.backends, by rw [hd]; exact h.domains, by rw [hk]; exact h.tsigKeys⟩
  · rw [(Database.commit_eq_some.mp hc).2]
    exact h.apply (writeOk_of_prepare hw)

theorem sound_of_run {reqs : List Request} {db : Database Token} (h : (api F kek).Run reqs db) :
    Sound F kek db.tables := by
  refine h.invariant (I := fun db => Sound F kek db.tables) ?_ (fun db req db' hi hs => hi.step hs)
  rintro db rfl
  exact ⟨by simp [Database.empty], by simp [Database.empty], by simp [Database.empty]⟩

end Sound

end AstropathRelay.Api
