import AstropathRelay.Api.Rotation
import AstropathRelay.Api.Session

/-! `rotate_stored_secrets` in its session, with no other writer beside it. -/

namespace AstropathRelay.Api

open Lib Lib.Results Store

variable {Key Token : Type}

section Statements

variable (F : Fernet Key Token) (kek : Kek Key) (draw : SecretTable → ℕ → ℕ)

def liftSecret {α : Type} : Except StoreError α → EStateM Raised (Session Token) α
  | .ok a => pure a
  | .error _ => throw .other

def rotateBackend (backend : BackendRow Token) : Except StoreError (BackendRow Token) := do
  let token ← kek.rotate F (draw .backends backend.id) backend.configEncrypted
  return { backend with configEncrypted := token }

def rotateDomain (domain : DomainRow Token) : Except StoreError (DomainRow Token) :=
  match domain.secretEncrypted with
  | none => return domain
  | some secret => do
    let token ← kek.rotate F (draw .domains domain.id) secret
    return { domain with secretEncrypted := some token }

def rotateTsigKey (tsigKey : TsigKeyRow Token) : Except StoreError (TsigKeyRow Token) := do
  let token ← kek.rotate F (draw .tsigKeys tsigKey.id) tsigKey.secretEncrypted
  return { tsigKey with secretEncrypted := token }

def rotateStoredSecrets : EStateM Raised (Session Token) RotationCounts := do
  let backends ← liftSecret ((← get).work.backends.mapM (rotateBackend F kek draw))
  modify fun s => { s with work := { s.work with backends := backends } }
  let domains ← liftSecret ((← get).work.domains.mapM (rotateDomain F kek draw))
  modify fun s => { s with work := { s.work with domains := domains } }
  let rotatedDomains := (domains.filter (fun d => d.secretEncrypted.isSome)).length
  let tsigKeys ← liftSecret ((← get).work.tsigKeys.mapM (rotateTsigKey F kek draw))
  modify fun s => { s with work := { s.work with tsigKeys := tsigKeys } }
  Session.commit
  return ⟨backends.length, rotatedDomains, tsigKeys.length⟩

def AllDecrypt (t : Tables Token) : Prop :=
  ∀ table, ∀ row ∈ t.secrets table, (kek.decrypt F row.2).isSome

def ciphertexts (t : Tables Token) : RotationCounts :=
  ⟨(t.secrets .backends).length, (t.secrets .domains).length, (t.secrets .tsigKeys).length⟩

def reencrypted (table : SecretTable) (id : ℕ) (token : Token) : Token :=
  (kek.decrypt F token).elim token (kek.encrypt F (draw table id))

end Statements

section Passes

variable {F : Fernet Key Token} {kek : Kek Key} {draw : SecretTable → ℕ → ℕ} {db : Database Token}
  {t : Tables Token}

lemma rotate_eq {table : SecretTable} {id : ℕ} {token : Token} (h : (kek.decrypt F token).isSome) :
    kek.rotate F (draw table id) token = .ok (reencrypted F kek draw table id token) := by
  obtain ⟨text, ht⟩ := Option.isSome_iff_exists.mp h
  simp [Kek.rotate, reencrypted, ht]

lemma decrypts_of_rotate {r : ℕ} {token rotated : Token} (h : kek.rotate F r token = .ok rotated) :
    (kek.decrypt F token).isSome := by
  cases ht : kek.decrypt F token with
  | some text => rfl
  | none => simp [Kek.rotate, ht] at h

lemma primary_decrypt_reencrypted {table : SecretTable} {id : ℕ} {token : Token}
    (h : (kek.decrypt F token).isSome) :
    kek.primary.decrypt F (reencrypted F kek draw table id token) = kek.decrypt F token := by
  obtain ⟨text, ht⟩ := Option.isSome_iff_exists.mp h
  rw [reencrypted, ht, Option.elim, Kek.decrypt_primary_encrypt]

lemma mapM_eq {α β : Type} {g : α → Except StoreError β} {f : α → β} {rows : List α}
    (h : ∀ r ∈ rows, g r = .ok (f r)) : rows.mapM g = .ok (rows.map f) :=
  mapM_ok.mpr (List.forall₂_map_right_iff.mpr (List.forall₂_same.mpr h))

lemma rotateBackends_eq (h : AllDecrypt F kek t) : t.backends.mapM (rotateBackend F kek draw) =
    .ok (t.mapSecrets (reencrypted F kek draw)).backends := by
  refine mapM_eq fun r hr => ?_
  rw [rotateBackend, rotate_eq (h .backends (r.id, r.configEncrypted) (List.mem_map_of_mem hr))]
  rfl

lemma rotateDomains_eq (h : AllDecrypt F kek t) : t.domains.mapM (rotateDomain F kek draw) =
    .ok (t.mapSecrets (reencrypted F kek draw)).domains := by
  refine mapM_eq fun r hr => ?_
  rw [rotateDomain]
  cases hs : r.secretEncrypted with
  | none =>
    obtain ⟨id, zone, backendId, recordName, secret⟩ := r
    obtain rfl : secret = none := hs
    rfl
  | some token =>
    have hm : (r.id, token) ∈ t.secrets .domains := List.mem_filterMap.mpr ⟨r, hr, by simp [hs]⟩
    simp only [rotate_eq (h .domains (r.id, token) hm)]
    rfl

lemma rotateTsigKeys_eq (h : AllDecrypt F kek t) : t.tsigKeys.mapM (rotateTsigKey F kek draw) =
    .ok (t.mapSecrets (reencrypted F kek draw)).tsigKeys := by
  refine mapM_eq fun r hr => ?_
  rw [rotateTsigKey, rotate_eq (h .tsigKeys (r.id, r.secretEncrypted) (List.mem_map_of_mem hr))]
  rfl

@[simp] lemma run_liftSecret_ok {α : Type} (a : α) (s : Session Token) :
    (liftSecret (.ok a)).run s = .ok a s := rfl

@[simp] lemma run_liftSecret_error {α : Type} (e : StoreError) (s : Session Token) :
    (liftSecret (.error e) : EStateM Raised (Session Token) α).run s = .error .other s := rfl

lemma length_secrets_domains (t : Tables Token) :
    (t.domains.filter (fun d => d.secretEncrypted.isSome)).length =
      (t.secrets .domains).length := by
  rw [Tables.secrets]
  induction t.domains with
  | nil => rfl
  | cons d ds ih => cases hs : d.secretEncrypted <;> simp [hs, ih]

lemma ciphertexts_mapSecrets (f : SecretTable → ℕ → Token → Token) (t : Tables Token) :
    ciphertexts (t.mapSecrets f) = ciphertexts t := by
  simp [ciphertexts, Tables.secrets_mapSecrets]

lemma run_rotate (h : AllDecrypt F kek db.tables) :
    (rotateStoredSecrets F kek draw).run (.opened db) =
      .ok (ciphertexts db.tables) (.opened (db.mapSecrets (reencrypted F kek draw))) := by
  have hcommit : Session.commit.run ⟨db, ⟨(db.tables.mapSecrets (reencrypted F kek draw)).backends,
      (db.tables.mapSecrets (reencrypted F kek draw)).domains,
      (db.tables.mapSecrets (reencrypted F kek draw)).tsigKeys,
      db.tables.backendSeq, db.tables.domainSeq, db.tables.tsigKeySeq⟩, []⟩ =
      .ok () (.opened (db.mapSecrets (reencrypted F kek draw))) :=
    Session.commit_ok (s := ⟨db, db.tables.mapSecrets (reencrypted F kek draw), []⟩) rfl
      (Tables.consistent_mapSecrets.mpr db.consistent)
  have hcounts : (⟨(db.tables.mapSecrets (reencrypted F kek draw)).backends.length,
      ((db.tables.mapSecrets (reencrypted F kek draw)).domains.filter
      (fun d => d.secretEncrypted.isSome)).length,
      (db.tables.mapSecrets (reencrypted F kek draw)).tsigKeys.length⟩ : RotationCounts) =
      ciphertexts db.tables := by
    rw [length_secrets_domains, ← ciphertexts_mapSecrets (reencrypted F kek draw)]
    simp [ciphertexts, Tables.secrets]
  unfold rotateStoredSecrets
  simp only [EStateM.run_bind, EStateM.run_get, EStateM.run_modify, Session.opened,
    rotateBackends_eq h, rotateDomains_eq h, rotateTsigKeys_eq h, run_liftSecret_ok, hcommit]
  rw [← hcounts]
  rfl

lemma allDecrypt_of_mapM {backends : List (BackendRow Token)} {domains : List (DomainRow Token)}
    {tsigKeys : List (TsigKeyRow Token)}
    (hb : t.backends.mapM (rotateBackend F kek draw) = .ok backends)
    (hd : t.domains.mapM (rotateDomain F kek draw) = .ok domains)
    (hk : t.tsigKeys.mapM (rotateTsigKey F kek draw) = .ok tsigKeys) : AllDecrypt F kek t := by
  intro table row hrow
  cases table with
  | backends =>
    obtain ⟨r, hr, rfl⟩ := List.mem_map.mp hrow
    obtain ⟨r', -, hr'⟩ := exists_related (mapM_ok.mp hb) hr
    obtain ⟨token, ht, -⟩ := bind_ok.mp hr'
    exact decrypts_of_rotate ht
  | domains =>
    obtain ⟨r, hr, hm⟩ := List.mem_filterMap.mp hrow
    obtain ⟨secret, hs, rfl⟩ := Option.map_eq_some_iff.mp hm
    obtain ⟨r', -, hr'⟩ := exists_related (mapM_ok.mp hd) hr
    unfold rotateDomain at hr'
    split at hr'
    · next hn => exact absurd (hn.symm.trans hs) nofun
    · next secret' hs' =>
      obtain rfl := Option.some.inj (hs'.symm.trans hs)
      obtain ⟨token, ht, -⟩ := bind_ok.mp hr'
      exact decrypts_of_rotate ht
  | tsigKeys =>
    obtain ⟨r, hr, rfl⟩ := List.mem_map.mp hrow
    obtain ⟨r', -, hr'⟩ := exists_related (mapM_ok.mp hk) hr
    obtain ⟨token, ht, -⟩ := bind_ok.mp hr'
    exact decrypts_of_rotate ht

lemma run_rotate_raises (h : ¬ AllDecrypt F kek db.tables) :
    ∃ s, (rotateStoredSecrets F kek draw).run (.opened db) = .error .other s ∧ s.db = db := by
  rw [rotateStoredSecrets]
  cases hb : db.tables.backends.mapM (rotateBackend F kek draw) with
  | error e => exact ⟨.opened db, by simp [EStateM.run_bind, hb, Session.opened], rfl⟩
  | ok backends =>
    cases hd : db.tables.domains.mapM (rotateDomain F kek draw) with
    | error e => exact ⟨_, by simp [EStateM.run_bind, hb, hd, Session.opened]; rfl, rfl⟩
    | ok domains =>
      cases hk : db.tables.tsigKeys.mapM (rotateTsigKey F kek draw) with
      | error e => exact ⟨_, by simp [EStateM.run_bind, hb, hd, hk, Session.opened]; rfl, rfl⟩
      | ok tsigKeys => exact absurd (allDecrypt_of_mapM hb hd hk) h

lemma plain_reencrypted (h : AllDecrypt F kek db.tables) :
    (db.mapSecrets (reencrypted F kek draw)).mapSecrets (fun _ _ => kek.primary.decrypt F) =
      db.mapSecrets (fun _ _ => kek.decrypt F) := by
  rw [Database.mapSecrets_mapSecrets]
  exact Database.mapSecrets_congr fun table row hrow =>
    primary_decrypt_reencrypted (h table row hrow)

lemma allDecrypt_reencrypted (h : AllDecrypt F kek db.tables) :
    AllDecrypt F kek.primary (db.mapSecrets (reencrypted F kek draw)).tables := by
  intro table row hrow
  change row ∈ (db.tables.mapSecrets (reencrypted F kek draw)).secrets table at hrow
  rw [Tables.secrets_mapSecrets] at hrow
  obtain ⟨row, hm, rfl⟩ := List.mem_map.mp hrow
  rw [primary_decrypt_reencrypted (h table row hm)]
  exact h table row hm

lemma decrypt_of_primary {token : Token} {text : String}
    (h : kek.primary.decrypt F token = some text) : kek.decrypt F token = some text := by
  obtain ⟨keys, hk⟩ := kek
  cases keys with
  | nil => exact absurd rfl hk
  | cons key keys =>
    have hkey : F.decrypt key token = some text := by simpa [Kek.primary, Kek.decrypt] using h
    simp [Kek.decrypt, hkey]

variable (F kek) in
/-- After a migration every ciphertext decrypts under the primary key alone to what it decrypted to
before, and the NULLs and the other columns are what they were. -/
structure Migrated (db db' : Database Token) : Prop where
  decrypts : AllDecrypt F kek.primary db'.tables
  plain_eq : db'.mapSecrets (fun _ _ => kek.primary.decrypt F) =
    db.mapSecrets (fun _ _ => kek.decrypt F)

variable (draw) in
lemma migrated_reencrypted (h : AllDecrypt F kek db.tables) :
    Migrated F kek db (db.mapSecrets (reencrypted F kek draw)) :=
  ⟨allDecrypt_reencrypted h, plain_reencrypted h⟩

lemma Migrated.allDecrypt {db' : Database Token} (h : Migrated F kek db db') :
    AllDecrypt F kek db'.tables := by
  intro table row hrow
  obtain ⟨text, ht⟩ := Option.isSome_iff_exists.mp (h.decrypts table row hrow)
  rw [decrypt_of_primary ht]
  rfl

lemma Migrated.plain_db {db' : Database Token} (h : Migrated F kek db db') :
    db'.mapSecrets (fun _ _ => kek.decrypt F) = db.mapSecrets (fun _ _ => kek.decrypt F) := by
  refine Eq.trans ?_ h.plain_eq
  refine Database.mapSecrets_congr fun table row hrow => ?_
  obtain ⟨text, ht⟩ := Option.isSome_iff_exists.mp (h.decrypts table row hrow)
  exact (decrypt_of_primary ht).trans ht.symm

lemma Migrated.trans {db' db'' : Database Token} (h : Migrated F kek db db')
    (h' : Migrated F kek db' db'') : Migrated F kek db db'' :=
  ⟨h'.decrypts, h'.plain_eq.trans h.plain_db⟩

/-- A pass over secrets that all decrypt returns their counts and commits a migration, and so does a
second one; a pass over one that does not raises, with nothing committed. -/
theorem rotation_migrates (F : Fernet Key Token) (kek : Kek Key) (db : Database Token) :
    (AllDecrypt F kek db.tables → ∀ draw draw', ∃ s t,
      (rotateStoredSecrets F kek draw).run (.opened db) = .ok (ciphertexts db.tables) s ∧
      Migrated F kek db s.db ∧
      (rotateStoredSecrets F kek draw').run (.opened s.db) = .ok (ciphertexts db.tables) t ∧
      Migrated F kek db t.db) ∧
    (¬ AllDecrypt F kek db.tables → ∀ draw, ∃ s,
      (rotateStoredSecrets F kek draw).run (.opened db) = .error .other s ∧ s.db = db) := by
  refine ⟨fun h draw draw' => ?_, fun h draw => run_rotate_raises h⟩
  have hm := migrated_reencrypted draw h
  have hm' := migrated_reencrypted draw' hm.allDecrypt
  refine ⟨_, .opened _, run_rotate h, hm, ?_, hm.trans hm'⟩
  rw [← ciphertexts_mapSecrets (reencrypted F kek draw) db.tables]
  exact run_rotate hm.allDecrypt

section Sample

open Rotating

def mixedDb : Database Marked :=
  ⟨(Write.addTsigKey "acme" "hmac-sha256" ⟨true, 1, "c2VjcmV0"⟩).apply
    ((Write.addDomain "example.com" 1 "_acme-challenge.example.com" none).apply oldKeyDb.tables),
    by decide +kernel⟩

theorem mixedDb_migrates : (∃ s t, (rotateStoredSecrets markedFernet newAndOld (fun _ => id)).run
      (.opened mixedDb) = .ok ⟨1, 0, 1⟩ s ∧ Migrated markedFernet newAndOld mixedDb s.db ∧
      (rotateStoredSecrets markedFernet newAndOld (fun _ => id)).run (.opened s.db) =
      .ok ⟨1, 0, 1⟩ t ∧ Migrated markedFernet newAndOld mixedDb t.db) ∧
    ∃ s, (rotateStoredSecrets markedFernet newAndOld.primary (fun _ => id)).run (.opened mixedDb) =
    .error .other s ∧ s.db = mixedDb := by
  have hall : AllDecrypt markedFernet newAndOld mixedDb.tables := fun table => by
    cases table <;> decide +kernel
  have hnot : ¬ AllDecrypt markedFernet newAndOld.primary mixedDb.tables :=
    fun h => absurd (h .backends (1, ⟨false, 0, placeholderText "old"⟩) (by decide +kernel))
      (by decide +kernel)
  exact ⟨(rotation_migrates markedFernet newAndOld mixedDb).1 hall _ _,
    (rotation_migrates markedFernet newAndOld.primary mixedDb).2 hnot _⟩

end Sample

end Passes

section Steps

variable (F : Fernet Key Token) (kek : Kek Key) (draw : SecretTable → ℕ → ℕ) (t : Tables Token)

def rotatedRows (table : SecretTable) : List ((SecretTable × ℕ) × Token) :=
  (t.secrets table).map fun row => ((table, row.1), reencrypted F kek draw table row.1 row.2)

def tableEvents (table : SecretTable) : List (RotationEvent Token) :=
  .select (draw table) :: (rotatedRows F kek draw t table).map fun c => .update c.1.2

def passEvents : List (RotationEvent Token) :=
  .start :: [SecretTable.backends, .domains, .tsigKeys].flatMap (tableEvents F kek draw t) ++
    [.commit]

variable {F kek draw t} {db : Database Token} {managed : Database (Option String)}
  {returned : Option RotationCounts}
variable {unread : List SecretTable} {updated : List ((SecretTable × ℕ) × Token)}
  {counts : RotationCounts}

lemma select_step (h : AllDecrypt F kek db.tables) (table : SecretTable) : Rotating.next F kek ⟨db,
      managed, some ⟨table :: unread, [], updated, counts⟩, returned⟩ (.select (draw table)) =
    some ⟨db, managed, some ⟨unread, rotatedRows F kek draw db.tables table, updated,
      counts.count (db.tables.secrets table).length table⟩, returned⟩ := by
  have hrows : (db.tables.secrets table).mapM (fun row =>
      (kek.rotate F (draw table row.1) row.2).map (fun token => ((table, row.1), token))) =
      .ok (rotatedRows F kek draw db.tables table) := by
    refine mapM_eq fun row hrow => ?_
    rw [rotate_eq (h table row hrow)]
    rfl
  simp [Rotating.next, Pass.select, hrows, rotatedRows, Except.toOption, bind, Except.bind, pure,
    Except.pure]

lemma update_steps {changed : List ((SecretTable × ℕ) × Token)}
    (hn : (changed.map fun c => c.1.2).Nodup) (hm : ∀ c ∈ changed, c.1.2 ∈ db.tables.ids c.1.1) :
    (changed.map fun c => RotationEvent.update c.1.2).foldlM (Rotating.next F kek) ⟨db, managed,
      some ⟨unread, changed, updated, counts⟩, returned⟩ =
      some ⟨db, managed, some ⟨unread, [], updated ++ changed, counts⟩, returned⟩ := by
  induction changed generalizing updated with
  | nil => simp
  | cons c changed ih =>
    rw [List.map_cons, List.nodup_cons] at hn
    have hne : ∀ d ∈ changed, d.1.2 ≠ c.1.2 := fun d hd he => hn.1 (he ▸ List.mem_map_of_mem hd)
    have hrest : (c :: changed).filter (fun d => d.1.2 ≠ c.1.2) = changed := by
      rw [List.filter_cons_of_neg (by simp)]
      exact List.filter_eq_self.mpr fun d hd => by simpa using hne d hd
    have hsent : (c :: changed).filter (fun d => d.1.2 = c.1.2 ∧
        c.1.2 ∈ db.tables.ids d.1.1) = [c] := by
      rw [List.filter_cons_of_pos (by simpa using hm c (by simp)), List.filter_eq_nil_iff.mpr]
      intro d hd
      simp [hne d hd]
    have hstep : Rotating.next F kek ⟨db, managed, some ⟨unread, c :: changed, updated, counts⟩,
        returned⟩ (.update c.1.2) =
        some ⟨db, managed, some ⟨unread, changed, updated ++ [c], counts⟩, returned⟩ := by
      simp only [Rotating.next, Option.bind_some, Pass.update, hrest, hsent]
      simp
    rw [List.map_cons, List.foldlM_cons, hstep]
    refine (ih hn.2 fun d hd => hm d (by simp [hd])).trans ?_
    simp

variable (F kek draw t) in
def rotatedSecrets : List ((SecretTable × ℕ) × Token) :=
  [SecretTable.backends, .domains, .tsigKeys].flatMap (rotatedRows F kek draw t)

lemma mem_rotatedSecrets {c : (SecretTable × ℕ) × Token} :
    c ∈ rotatedSecrets F kek draw t ↔
      ∃ row ∈ t.secrets c.1.1, ((c.1.1, row.1), reencrypted F kek draw c.1.1 row.1 row.2) = c := by
  obtain ⟨⟨table, id⟩, token⟩ := c
  unfold rotatedSecrets rotatedRows
  cases table <;> simp

lemma overwrite_rotatedSecrets (db : Database Token) : db.mapSecrets
    (overwrite (rotatedSecrets F kek draw db.tables)) = db.mapSecrets (reencrypted F kek draw) := by
  refine Database.mapSecrets_congr fun table row hrow => ?_
  rw [overwrite]
  have hm : ((table, row.1), reencrypted F kek draw table row.1 row.2) ∈
      rotatedSecrets F kek draw db.tables :=
    mem_rotatedSecrets.mpr ⟨row, hrow, rfl⟩
  cases hl : (rotatedSecrets F kek draw db.tables).lookup (table, row.1) with
  | none => exact absurd (List.lookup_eq_none_iff.mp hl _ hm) (by simp)
  | some token =>
    obtain ⟨l, l', hu, -⟩ := List.lookup_eq_some_iff.mp hl
    obtain ⟨row', hrow', he⟩ :=
      mem_rotatedSecrets.mp (hu ▸ List.mem_append_right l (List.mem_cons_self ..))
    simp only [Prod.mk.injEq] at he
    rw [← he.2, ← he.1.2, db.consistent.secret_unique hrow' hrow he.1.2]
    rfl

lemma rotatedRows_nodup (db : Database Token) (table : SecretTable) :
    ((rotatedRows F kek draw db.tables table).map fun c => c.1.2).Nodup := by
  have hids : (rotatedRows F kek draw db.tables table).map (fun c => c.1.2) =
      (db.tables.secrets table).map Prod.fst := by
    simp [rotatedRows]
  rw [hids]
  exact db.tables.secrets_ids_sublist table |>.nodup (db.consistent.ids_nodup table)

lemma mem_ids_of_rotatedRows {table : SecretTable} {c : (SecretTable × ℕ) × Token}
    (h : c ∈ rotatedRows F kek draw t table) : c.1.2 ∈ t.ids c.1.1 := by
  obtain ⟨row, hrow, rfl⟩ := List.mem_map.mp h
  exact (t.secrets_ids_sublist table).subset (List.mem_map_of_mem hrow)

lemma table_steps (h : AllDecrypt F kek db.tables) (table : SecretTable) :
    (tableEvents F kek draw db.tables table).foldlM (Rotating.next F kek)
        ⟨db, managed, some ⟨table :: unread, [], updated, counts⟩, returned⟩ =
      some ⟨db, managed, some ⟨unread, [], updated ++ rotatedRows F kek draw db.tables table,
        counts.count (db.tables.secrets table).length table⟩, returned⟩ := by
  rw [tableEvents, List.foldlM_cons, select_step h]
  exact update_steps (rotatedRows_nodup db table) fun c hc => mem_ids_of_rotatedRows hc

lemma tables_steps (h : AllDecrypt F kek db.tables) (tables : List SecretTable) :
    (tables.flatMap (tableEvents F kek draw db.tables)).foldlM (Rotating.next F kek) ⟨db, managed,
      some ⟨tables, [], updated, counts⟩, returned⟩ = some ⟨db, managed, some ⟨[], [], updated ++
      tables.flatMap (rotatedRows F kek draw db.tables), tables.foldl (fun counts table =>
      counts.count (db.tables.secrets table).length table) counts⟩, returned⟩ := by
  induction tables generalizing updated counts with
  | nil => simp
  | cons table tables ih =>
    rw [List.flatMap_cons, List.foldlM_append, table_steps h]
    refine ih.trans ?_
    simp

theorem pass_run (h : AllDecrypt F kek db.tables) :
    (Rotating.system F kek).Run (passEvents F kek draw db.tables) ⟨db.mapSecrets
      (reencrypted F kek draw), Rotating.plain F kek db, none, some (ciphertexts db.tables)⟩ := by
  have hinit : Rotating.Initial F kek ⟨db, Rotating.plain F kek db, none, none⟩ := ⟨rfl, rfl, h⟩
  refine System.run_deterministic _ _ hinit ?_
  have hstart : Rotating.next F kek ⟨db, Rotating.plain F kek db, none, none⟩ .start =
      some ⟨db, Rotating.plain F kek db, some {}, none⟩ := rfl
  have hcommit (updated) (counts) : Rotating.next F kek ⟨db, Rotating.plain F kek db,
      some ⟨[], [], updated, counts⟩, none⟩ .commit = some ⟨db.mapSecrets (overwrite updated),
      Rotating.plain F kek db, none, some counts⟩ := rfl
  rw [passEvents, List.cons_append, List.foldlM_cons, hstart, Option.bind_eq_bind, Option.bind_some,
    List.foldlM_append, tables_steps h, Option.bind_eq_bind, Option.bind_some, List.foldlM_cons,
    hcommit, ← overwrite_rotatedSecrets]
  rfl

end Steps

end AstropathRelay.Api
