import Mathlib.Tactic

/-! The tables behind the routing state, with the constraints the database enforces, and the writes
that commit. -/

namespace AstropathRelay.Store

structure BackendRow (Token : Type) where
  id : ℕ
  name : String
  type : String
  configEncrypted : Token
deriving DecidableEq

structure DomainRow (Token : Type) where
  id : ℕ
  zone : String
  backendId : ℕ
  recordName : String
  secretEncrypted : Option Token
deriving DecidableEq

structure TsigKeyRow (Token : Type) where
  id : ℕ
  name : String
  algorithm : String
  secretEncrypted : Token
deriving DecidableEq

structure Tables (Token : Type) where
  backends : List (BackendRow Token)
  domains : List (DomainRow Token)
  tsigKeys : List (TsigKeyRow Token)
  backendSeq : ℕ
  domainSeq : ℕ
  tsigKeySeq : ℕ
deriving DecidableEq

variable {Token : Type}

@[mk_iff]
structure Tables.Consistent (t : Tables Token) : Prop where
  backendIds : (t.backends.map BackendRow.id).Nodup
  backendNames : (t.backends.map BackendRow.name).Nodup
  backendSeq : ∀ r ∈ t.backends, r.id ≤ t.backendSeq
  domainIds : (t.domains.map DomainRow.id).Nodup
  domainZones : (t.domains.map DomainRow.zone).Nodup
  domainBackends : ∀ d ∈ t.domains, d.backendId ∈ t.backends.map BackendRow.id
  domainSeq : ∀ d ∈ t.domains, d.id ≤ t.domainSeq
  tsigKeyIds : (t.tsigKeys.map TsigKeyRow.id).Nodup
  tsigKeyNames : (t.tsigKeys.map TsigKeyRow.name).Nodup
  tsigKeySeq : ∀ k ∈ t.tsigKeys, k.id ≤ t.tsigKeySeq

instance (t : Tables Token) : Decidable t.Consistent := decidable_of_iff _ t.consistent_iff.symm

@[ext]
structure Database (Token : Type) where
  tables : Tables Token
  consistent : tables.Consistent
deriving DecidableEq

namespace Database

def empty : Database Token := ⟨⟨[], [], [], 0, 0, 0⟩, by constructor <;> simp⟩

def backend? (db : Database Token) (id : ℤ) : Option (BackendRow Token) :=
  db.tables.backends.find? (fun r => (r.id : ℤ) = id)

def domain? (db : Database Token) (id : ℤ) : Option (DomainRow Token) :=
  db.tables.domains.find? (fun r => (r.id : ℤ) = id)

def tsigKey? (db : Database Token) (id : ℤ) : Option (TsigKeyRow Token) :=
  db.tables.tsigKeys.find? (fun r => (r.id : ℤ) = id)

end Database

inductive Write (Token : Type)
  | addBackend (name type : String) (config : Token)
  | setBackend (id : ℕ) (name : Option String) (config : Option Token)
  | dropBackend (id : ℕ)
  | addDomain (zone : String) (backendId : ℕ) (recordName : String) (secret : Option Token)
  | dropDomain (id : ℕ)
  | addTsigKey (name algorithm : String) (secret : Token)
  | dropTsigKey (id : ℕ)
deriving DecidableEq

namespace Write

def setRow (id : ℕ) (name : Option String) (config : Option Token)
    (r : BackendRow Token) : BackendRow Token :=
  if r.id = id then
    { r with name := name.getD r.name, configEncrypted := config.getD r.configEncrypted } else r

def apply (t : Tables Token) : Write Token → Tables Token
  | addBackend name type config =>
    { t with
      backends := t.backends ++ [⟨t.backendSeq + 1, name, type, config⟩]
      backendSeq := t.backendSeq + 1 }
  | setBackend id name config => { t with backends := t.backends.map (setRow id name config) }
  | dropBackend id => { t with backends := t.backends.filter (fun r => r.id ≠ id) }
  | addDomain zone backendId recordName secret =>
    { t with
      domains := t.domains ++ [⟨t.domainSeq + 1, zone, backendId, recordName, secret⟩]
      domainSeq := t.domainSeq + 1 }
  | dropDomain id => { t with domains := t.domains.filter (fun r => r.id ≠ id) }
  | addTsigKey name algorithm secret =>
    { t with
      tsigKeys := t.tsigKeys ++ [⟨t.tsigKeySeq + 1, name, algorithm, secret⟩]
      tsigKeySeq := t.tsigKeySeq + 1 }
  | dropTsigKey id => { t with tsigKeys := t.tsigKeys.filter (fun r => r.id ≠ id) }

def Targets (t : Tables Token) : Write Token → Prop
  | setBackend id _ _ => id ∈ t.backends.map BackendRow.id
  | dropBackend id => id ∈ t.backends.map BackendRow.id
  | dropDomain id => id ∈ t.domains.map DomainRow.id
  | dropTsigKey id => id ∈ t.tsigKeys.map TsigKeyRow.id
  | _ => True

instance (t : Tables Token) (w : Write Token) : Decidable (w.Targets t) := by
  cases w <;> unfold Targets <;> infer_instance

end Write

namespace Database

def commit (db : Database Token) (w : Write Token) : Option (Database Token) :=
  if h : w.Targets db.tables ∧
    (w.apply db.tables).Consistent then some ⟨w.apply db.tables, h.2⟩ else none

def drawn (db : Database Token) (w : Write Token) : Database Token :=
  match w with
  | .addBackend _ _ _ => ⟨{ db.tables with backendSeq := db.tables.backendSeq + 1 },
      { db.consistent with
        backendSeq := fun r hr => (db.consistent.backendSeq r hr).trans (Nat.le_succ _) }⟩
  | .addDomain _ _ _ _ => ⟨{ db.tables with domainSeq := db.tables.domainSeq + 1 },
      { db.consistent with
        domainSeq := fun r hr => (db.consistent.domainSeq r hr).trans (Nat.le_succ _) }⟩
  | .addTsigKey _ _ _ => ⟨{ db.tables with tsigKeySeq := db.tables.tsigKeySeq + 1 },
      { db.consistent with
        tsigKeySeq := fun r hr => (db.consistent.tsigKeySeq r hr).trans (Nat.le_succ _) }⟩
  | _ => db

lemma drawn_rows (db : Database Token) (w : Write Token) : (db.drawn w).tables.tsigKeys =
    db.tables.tsigKeys ∧ (db.drawn w).tables.backends = db.tables.backends ∧
    (db.drawn w).tables.domains = db.tables.domains := by
  cases w <;> exact ⟨rfl, rfl, rfl⟩

lemma commit_eq_some {db db' : Database Token} {w : Write Token} :
    db.commit w = some db' ↔ w.Targets db.tables ∧ db'.tables = w.apply db.tables := by
  obtain ⟨t', h'⟩ := db'
  rw [commit]
  split
  · next h =>
    simp only [Option.some.injEq, Database.mk.injEq, h.1, true_and]
    exact eq_comm
  · next h =>
    simp only [reduceCtorEq, false_iff, not_and]
    rintro ht rfl
    exact h ⟨ht, h'⟩

end Database

section Secrets

inductive SecretTable
  | backends
  | domains
  | tsigKeys
deriving DecidableEq

variable {Token' Token'' : Type}

namespace Tables

def secrets (t : Tables Token) : SecretTable → List (ℕ × Token)
  | .backends => t.backends.map (fun r => (r.id, r.configEncrypted))
  | .domains => t.domains.filterMap (fun r => r.secretEncrypted.map (fun token => (r.id, token)))
  | .tsigKeys => t.tsigKeys.map (fun r => (r.id, r.secretEncrypted))

def ids (t : Tables Token) : SecretTable → List ℕ
  | .backends => t.backends.map BackendRow.id
  | .domains => t.domains.map DomainRow.id
  | .tsigKeys => t.tsigKeys.map TsigKeyRow.id

def seq (t : Tables Token) : SecretTable → ℕ
  | .backends => t.backendSeq
  | .domains => t.domainSeq
  | .tsigKeys => t.tsigKeySeq

def mapSecrets (f : SecretTable → ℕ → Token → Token') (t : Tables Token) : Tables Token' where
  backends := t.backends.map (fun r => ⟨r.id, r.name, r.type, f .backends r.id r.configEncrypted⟩)
  domains := t.domains.map
    (fun r => ⟨r.id, r.zone, r.backendId, r.recordName, r.secretEncrypted.map (f .domains r.id)⟩)
  tsigKeys :=
    t.tsigKeys.map (fun r => ⟨r.id, r.name, r.algorithm, f .tsigKeys r.id r.secretEncrypted⟩)
  backendSeq := t.backendSeq
  domainSeq := t.domainSeq
  tsigKeySeq := t.tsigKeySeq

lemma secrets_mapSecrets (f : SecretTable → ℕ → Token → Token') (t : Tables Token)
    (table : SecretTable) : (t.mapSecrets f).secrets table =
    (t.secrets table).map (fun row => (row.1, f table row.1 row.2)) := by
  cases table with
  | backends => simp [secrets, mapSecrets]
  | tsigKeys => simp [secrets, mapSecrets]
  | domains =>
    simp only [secrets, mapSecrets, List.filterMap_map, List.map_filterMap]
    refine congrArg (List.filterMap · t.domains) (funext fun r => ?_)
    cases hr : r.secretEncrypted <;> simp [hr]

lemma mem_secrets_of_subset {t t' : Tables Token} {table : SecretTable} {row : ℕ × Token}
    (h : row ∈ t'.secrets table) (hb : t'.backends ⊆ t.backends) (hd : t'.domains ⊆ t.domains)
    (hk : t'.tsigKeys ⊆ t.tsigKeys) : row ∈ t.secrets table := by
  cases table with
  | backends => exact List.map_subset _ hb h
  | domains => exact List.filterMap_subset _ hd h
  | tsigKeys => exact List.map_subset _ hk h

lemma mapSecrets_mapSecrets (f : SecretTable → ℕ → Token → Token')
    (g : SecretTable → ℕ → Token' → Token'') (t : Tables Token) : (t.mapSecrets f).mapSecrets g =
    t.mapSecrets (fun table id token => g table id (f table id token)) := by
  simp [mapSecrets, Function.comp_def]

lemma mapSecrets_congr {f g : SecretTable → ℕ → Token → Token'} {t : Tables Token}
    (h : ∀ table, ∀ row ∈ t.secrets table, f table row.1 row.2 = g table row.1 row.2) :
    t.mapSecrets f = t.mapSecrets g := by
  have hb : ∀ r ∈ t.backends,
      f .backends r.id r.configEncrypted = g .backends r.id r.configEncrypted :=
    fun r hr => h .backends _ (List.mem_map_of_mem hr)
  have hd : ∀ r ∈ t.domains,
      r.secretEncrypted.map (f .domains r.id) = r.secretEncrypted.map (g .domains r.id) := by
    intro r hr
    cases hs : r.secretEncrypted with
    | none => rfl
    | some token =>
      exact congrArg some (h .domains (r.id, token) (List.mem_filterMap.mpr ⟨r, hr, by simp [hs]⟩))
  have hk : ∀ r ∈ t.tsigKeys,
      f .tsigKeys r.id r.secretEncrypted = g .tsigKeys r.id r.secretEncrypted :=
    fun r hr => h .tsigKeys _ (List.mem_map_of_mem hr)
  rw [mapSecrets]
  congr 1
  · exact List.map_congr_left (fun r hr => by rw [hb r hr])
  · exact List.map_congr_left (fun r hr => by rw [hd r hr])
  · exact List.map_congr_left (fun r hr => by rw [hk r hr])

lemma consistent_mapSecrets {f : SecretTable → ℕ → Token → Token'} {t : Tables Token} :
    (t.mapSecrets f).Consistent ↔ t.Consistent := by
  simp [consistent_iff, mapSecrets, Function.comp_def]

lemma Consistent.id_le_seq {t : Tables Token} (h : t.Consistent) {table : SecretTable}
    {row : ℕ × Token} (hm : row ∈ t.secrets table) : row.1 ≤ t.seq table := by
  cases table with
  | backends =>
    obtain ⟨r, hr, rfl⟩ := List.mem_map.mp hm
    exact h.backendSeq r hr
  | domains =>
    obtain ⟨r, hr, hs⟩ := List.mem_filterMap.mp hm
    obtain ⟨token, -, rfl⟩ := Option.map_eq_some_iff.mp hs
    exact h.domainSeq r hr
  | tsigKeys =>
    obtain ⟨r, hr, rfl⟩ := List.mem_map.mp hm
    exact h.tsigKeySeq r hr

lemma Consistent.secret_unique {t : Tables Token} (h : t.Consistent) {table : SecretTable}
    {row row' : ℕ × Token} (hm : row ∈ t.secrets table) (hm' : row' ∈ t.secrets table)
    (hid : row.1 = row'.1) : row.2 = row'.2 := by
  cases table with
  | backends =>
    obtain ⟨r, hr, rfl⟩ := List.mem_map.mp hm
    obtain ⟨r', hr', rfl⟩ := List.mem_map.mp hm'
    rw [List.inj_on_of_nodup_map h.backendIds hr hr' hid]
  | domains =>
    obtain ⟨r, hr, hs⟩ := List.mem_filterMap.mp hm
    obtain ⟨r', hr', hs'⟩ := List.mem_filterMap.mp hm'
    obtain ⟨token, ht, rfl⟩ := Option.map_eq_some_iff.mp hs
    obtain ⟨token', ht', rfl⟩ := Option.map_eq_some_iff.mp hs'
    rw [List.inj_on_of_nodup_map h.domainIds hr hr' hid, ht'] at ht
    exact (Option.some.inj ht).symm
  | tsigKeys =>
    obtain ⟨r, hr, rfl⟩ := List.mem_map.mp hm
    obtain ⟨r', hr', rfl⟩ := List.mem_map.mp hm'
    rw [List.inj_on_of_nodup_map h.tsigKeyIds hr hr' hid]

lemma Consistent.ids_nodup {t : Tables Token} (h : t.Consistent) (table : SecretTable) :
    (t.ids table).Nodup := by
  cases table with
  | backends => exact h.backendIds
  | domains => exact h.domainIds
  | tsigKeys => exact h.tsigKeyIds

lemma secrets_ids_sublist (t : Tables Token) (table : SecretTable) :
    List.Sublist ((t.secrets table).map Prod.fst) (t.ids table) := by
  cases table with
  | backends => simp [secrets, ids, Function.comp_def]
  | tsigKeys => simp [secrets, ids, Function.comp_def]
  | domains =>
    rw [secrets, ids]
    induction t.domains with
    | nil => exact .slnil
    | cons d ds ih =>
      cases hs : d.secretEncrypted with
      | none =>
        simp only [List.filterMap_cons, hs, Option.map_none, List.map_cons]
        exact ih.cons d.id
      | some token =>
        simp only [List.filterMap_cons, hs, Option.map_some, List.map_cons]
        exact ih.cons_cons d.id

end Tables

namespace Write

def mapToken (f : Token → Token') : Write Token → Write Token'
  | addBackend name type config => addBackend name type (f config)
  | setBackend id name config => setBackend id name (config.map f)
  | dropBackend id => dropBackend id
  | addDomain zone backendId recordName secret => addDomain zone backendId recordName (secret.map f)
  | dropDomain id => dropDomain id
  | addTsigKey name algorithm secret => addTsigKey name algorithm (f secret)
  | dropTsigKey id => dropTsigKey id

def puts (t : Tables Token) : Write Token → Option ((SecretTable × ℕ) × Token)
  | addBackend _ _ config => some ((.backends, t.backendSeq + 1), config)
  | setBackend id _ config => config.map (fun token => ((.backends, id), token))
  | addDomain _ _ _ secret => secret.map (fun token => ((.domains, t.domainSeq + 1), token))
  | addTsigKey _ _ secret => some ((.tsigKeys, t.tsigKeySeq + 1), secret)
  | _ => none

lemma apply_mapToken (f : Token → Token') (t : Tables Token) (w : Write Token) :
    (w.mapToken f).apply (t.mapSecrets (fun _ _ => f)) = (w.apply t).mapSecrets (fun _ _ => f) := by
  cases w with
  | addBackend name type config => simp [mapToken, apply, Tables.mapSecrets]
  | setBackend id name config =>
    simp only [mapToken, apply, Tables.mapSecrets, List.map_map]
    congr 1
    refine congrArg (List.map · t.backends) (funext fun r => ?_)
    by_cases hr : r.id = id
    · cases config <;> simp [setRow, hr]
    · simp [setRow, hr]
  | dropBackend id => simp [mapToken, apply, Tables.mapSecrets, List.filter_map, Function.comp_def]
  | addDomain zone backendId recordName secret => simp [mapToken, apply, Tables.mapSecrets]
  | dropDomain id => simp [mapToken, apply, Tables.mapSecrets, List.filter_map, Function.comp_def]
  | addTsigKey name algorithm secret => simp [mapToken, apply, Tables.mapSecrets]
  | dropTsigKey id => simp [mapToken, apply, Tables.mapSecrets, List.filter_map, Function.comp_def]

lemma targets_mapToken {f : Token → Token'} {t : Tables Token} {w : Write Token} :
    (w.mapToken f).Targets (t.mapSecrets (fun _ _ => f)) ↔ w.Targets t := by
  cases w <;> simp [mapToken, Targets, Tables.mapSecrets, Function.comp_def]

lemma seq_le_apply (t : Tables Token) (w : Write Token) (table : SecretTable) :
    t.seq table ≤ (w.apply t).seq table := by
  cases w <;> cases table <;> simp [apply, Tables.seq]

lemma mem_secrets_apply {t : Tables Token} {w : Write Token} {table : SecretTable} {row : ℕ × Token}
    (h : row ∈ (w.apply t).secrets table) : row ∈ t.secrets table ∨
    w.puts t = some ((table, row.1), row.2) := by
  cases w with
  | addBackend name type config =>
    cases table with
    | backends =>
      obtain ⟨r, hr, rfl⟩ := List.mem_map.mp h
      rcases List.mem_append.mp hr with hr | hr
      · exact Or.inl (List.mem_map_of_mem hr)
      · obtain rfl := List.mem_singleton.mp hr
        exact Or.inr rfl
    | domains | tsigKeys => exact Or.inl h
  | setBackend id name config =>
    cases table with
    | backends =>
      obtain ⟨r', hr', rfl⟩ := List.mem_map.mp h
      obtain ⟨r, hr, rfl⟩ := List.mem_map.mp hr'
      by_cases hid : r.id = id
      · cases config with
        | none => exact Or.inl (List.mem_map.mpr ⟨r, hr, by simp [setRow, hid]⟩)
        | some token => exact Or.inr (by simp [puts, setRow, hid])
      · exact Or.inl (List.mem_map.mpr ⟨r, hr, by simp [setRow, hid]⟩)
    | domains | tsigKeys => exact Or.inl h
  | dropBackend id =>
    exact Or.inl (Tables.mem_secrets_of_subset h (List.filter_subset_self _) (List.Subset.refl _)
      (List.Subset.refl _))
  | addDomain zone backendId recordName secret =>
    cases table with
    | domains =>
      obtain ⟨r, hr, hs⟩ := List.mem_filterMap.mp h
      rcases List.mem_append.mp hr with hr | hr
      · exact Or.inl (List.mem_filterMap.mpr ⟨r, hr, hs⟩)
      · obtain rfl := List.mem_singleton.mp hr
        obtain ⟨token, rfl, rfl⟩ := Option.map_eq_some_iff.mp hs
        exact Or.inr rfl
    | backends | tsigKeys => exact Or.inl h
  | dropDomain id =>
    exact Or.inl (Tables.mem_secrets_of_subset h (List.Subset.refl _) (List.filter_subset_self _)
      (List.Subset.refl _))
  | addTsigKey name algorithm secret =>
    cases table with
    | tsigKeys =>
      obtain ⟨r, hr, rfl⟩ := List.mem_map.mp h
      rcases List.mem_append.mp hr with hr | hr
      · exact Or.inl (List.mem_map_of_mem hr)
      · obtain rfl := List.mem_singleton.mp hr
        exact Or.inr rfl
    | backends | domains => exact Or.inl h
  | dropTsigKey id =>
    exact Or.inl (Tables.mem_secrets_of_subset h (List.Subset.refl _) (List.Subset.refl _)
      (List.filter_subset_self _))

end Write

namespace Database

def mapSecrets (f : SecretTable → ℕ → Token → Token') (db : Database Token) : Database Token' :=
  ⟨db.tables.mapSecrets f, Tables.consistent_mapSecrets.mpr db.consistent⟩

lemma mapSecrets_mapSecrets (f : SecretTable → ℕ → Token → Token') (g : SecretTable → ℕ → Token' →
      Token'') (db : Database Token) : (db.mapSecrets f).mapSecrets g =
    db.mapSecrets (fun table id token => g table id (f table id token)) :=
  Database.ext (Tables.mapSecrets_mapSecrets f g db.tables)

lemma mapSecrets_congr {f g : SecretTable → ℕ → Token → Token'} {db : Database Token}
    (h : ∀ table, ∀ row ∈ db.tables.secrets table, f table row.1 row.2 = g table row.1 row.2) :
    db.mapSecrets f = db.mapSecrets g :=
  Database.ext (Tables.mapSecrets_congr h)

def settle (db : Database Token) (w : Write Token) : Database Token :=
  (db.commit w).getD (db.drawn w)

lemma commit_mapToken (f : Token → Token') (db : Database Token) (w : Write Token) :
    (db.mapSecrets (fun _ _ => f)).commit (w.mapToken f) =
      (db.commit w).map (mapSecrets (fun _ _ => f)) := by
  unfold commit mapSecrets
  simp only [Write.apply_mapToken, Write.targets_mapToken, Tables.consistent_mapSecrets]
  split <;> rfl

lemma settle_mapToken (f : Token → Token') (db : Database Token) (w : Write Token) :
    (db.mapSecrets (fun _ _ => f)).settle (w.mapToken f) =
      (db.settle w).mapSecrets (fun _ _ => f) := by
  unfold settle
  rw [commit_mapToken]
  cases db.commit w with
  | some db' => rfl
  | none => cases w <;> rfl

lemma settle_cases (db : Database Token) (w : Write Token) :
    (∃ db', db.commit w = some db' ∧ db.settle w = db') ∨ db.settle w = db.drawn w := by
  rw [settle]
  cases db.commit w with
  | some db' => exact Or.inl ⟨db', rfl, rfl⟩
  | none => exact Or.inr rfl

lemma secrets_drawn (db : Database Token) (w : Write Token) (table : SecretTable) :
    (db.drawn w).tables.secrets table = db.tables.secrets table := by
  cases w <;> cases table <;> rfl

lemma seq_le_settle (db : Database Token) (w : Write Token) (table : SecretTable) :
    db.tables.seq table ≤ (db.settle w).tables.seq table := by
  rcases db.settle_cases w with ⟨db', hc, hs⟩ | hs
  · rw [hs, (commit_eq_some.mp hc).2]
    exact Write.seq_le_apply _ _ _
  · rw [hs]
    cases w <;> cases table <;> simp [drawn, Tables.seq]

lemma mem_secrets_settle {db : Database Token} {w : Write Token} {table : SecretTable}
    {row : ℕ × Token} (h : row ∈ (db.settle w).tables.secrets table) :
    row ∈ db.tables.secrets table ∨ (db.commit w).isSome ∧
      w.puts db.tables = some ((table, row.1), row.2) := by
  rcases db.settle_cases w with ⟨db', hc, hs⟩ | hs
  · rw [hs, (commit_eq_some.mp hc).2] at h
    rcases Write.mem_secrets_apply h with h | h
    · exact Or.inl h
    · exact Or.inr ⟨by rw [hc]; rfl, h⟩
  · rw [hs, secrets_drawn] at h
    exact Or.inl h

end Database

end Secrets

end AstropathRelay.Store
