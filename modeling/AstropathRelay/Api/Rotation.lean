import AstropathRelay.Api.Reachable

/-! KEK rotation beside the management writes: `rotate_stored_secrets` as its session sends it to
the database. -/

namespace AstropathRelay.Api

open Lib Lib.Results Providers Store

structure RotationCounts where
  backends : ℕ
  domains : ℕ
  tsigKeys : ℕ
deriving DecidableEq

namespace RotationCounts

def total (c : RotationCounts) : ℕ := c.backends + c.domains + c.tsigKeys

def count (c : RotationCounts) (n : ℕ) : SecretTable → RotationCounts
  | .backends => { c with backends := n }
  | .domains => { c with domains := n }
  | .tsigKeys => { c with tsigKeys := n }

end RotationCounts

/-- The session of a rotation. The changed columns of one SELECT are sent by the autoflush of the
next, or by the commit; an UPDATE holds the lock of its row to the end of the transaction. -/
structure Pass (Token : Type) where
  unread : List SecretTable := [.backends, .domains, .tsigKeys]
  changed : List ((SecretTable × ℕ) × Token) := []
  updated : List ((SecretTable × ℕ) × Token) := []
  counts : RotationCounts := ⟨0, 0, 0⟩
deriving DecidableEq

structure Rotating (Token : Type) where
  db : Database Token
  managed : Database (Option String)
  pass : Option (Pass Token)
  returned : Option RotationCounts
deriving DecidableEq

inductive RotationEvent (Token : Type)
  | start
  | select (draw : ℕ → ℕ)
  | update (id : ℕ)
  | commit
  | fail
  | manage (seen : Database Token) (req : Request)

variable {Key Token : Type} (F : Fernet Key Token) (kek : Kek Key)

namespace Pass

def select (t : Tables Token) (draw : ℕ → ℕ) (p : Pass Token) : Except StoreError (Pass Token) :=
  match p.unread with
  | [] => .ok p
  | table :: unread => do
    let rotated ← (t.secrets table).mapM
      (fun row => (kek.rotate F (draw row.1) row.2).map (fun token => ((table, row.1), token)))
    return { p with
      unread := unread, changed := rotated, counts := p.counts.count rotated.length table }

def update (t : Tables Token) (id : ℕ) (p : Pass Token) : Pass Token :=
  { p with
    changed := p.changed.filter (fun c => c.1.2 ≠ id)
    updated := p.updated ++ p.changed.filter (fun c => c.1.2 = id ∧ id ∈ t.ids c.1.1) }

def holds (p : Pass Token) (table : SecretTable) (id : ℕ) : Bool :=
  (table, id) ∈ p.updated.map Prod.fst

end Pass

def overwrite (updated : List ((SecretTable × ℕ) × Token)) (table : SecretTable) (id : ℕ)
    (token : Token) : Token :=
  (updated.lookup (table, id)).getD token

-- Whether a write waits for a row lock. Assigning an unchanged name sends no UPDATE.
def Pass.blocks (t : Tables Token) (p : Pass Token) : Write Token → Bool
  | .setBackend id name config => p.holds .backends id &&
      (config.isSome || t.backends.any (fun r => r.id = id && name.any (fun n => n ≠ r.name)))
  | .dropBackend id => p.holds .backends id
  | .dropDomain id => p.holds .domains id
  | .dropTsigKey id => p.holds .tsigKeys id
  | _ => false

def reconfigured : Write Token → Option ℕ
  | .setBackend id _ config => config.map (fun _ => id)
  | _ => none

namespace Rotating

def plain (db : Database Token) : Database (Option String) :=
  db.mapSecrets (fun _ _ => kek.decrypt F)

def next (s : Rotating Token) : RotationEvent Token → Option (Rotating Token)
  | .start => if s.pass.isSome then none else some { s with pass := some {}, returned := none }
  | .select draw => s.pass.bind (fun p =>
      if p.changed.isEmpty && !p.unread.isEmpty then
        some { s with pass := (p.select F kek s.db.tables draw).toOption }
      else none)
  | .update id => s.pass.bind (fun p =>
      if id ∈ p.changed.map (fun c => c.1.2) then
        some { s with pass := some (p.update s.db.tables id) } else none)
  | .commit => s.pass.bind (fun p =>
      if p.changed.isEmpty && p.unread.isEmpty then
        some { s with
          db := s.db.mapSecrets (overwrite p.updated), pass := none, returned := some p.counts }
      else none)
  | .fail => s.pass.map (fun _ => { s with pass := none })
  | .manage seen req =>
    match prepare F kek seen req with
    | .error _ => some s
    | .ok w =>
      if s.pass.any (fun p => p.blocks s.db.tables w) then none
      else some { s with
        db := s.db.settle w, managed := s.managed.settle (w.mapToken (kek.decrypt F)) }

def Initial (s : Rotating Token) : Prop :=
  s.pass = none ∧ s.managed = plain F kek s.db ∧
    ∀ table, ∀ row ∈ s.db.tables.secrets table, (kek.decrypt F row.2).isSome

def system : System (Rotating Token) (RotationEvent Token) :=
  .deterministic (Initial F kek) (next F kek)

def KeepsWrites (s : Rotating Token) : Prop :=
  ∀ table id token, (id, token) ∈ s.db.tables.secrets table →
    ∃ text, kek.decrypt F token = some text ∧ (id, some text) ∈ s.managed.tables.secrets table

/-- No config is committed for a backend that the rotation has read and not yet updated. -/
def Timely (s : Rotating Token) : RotationEvent Token → Prop
  | .manage seen req => ∀ w ∈ (prepare F kek seen req).toOption, ∀ id ∈ reconfigured w,
      (s.db.commit w).isSome → ∀ p ∈ s.pass, (SecretTable.backends, id) ∉ p.changed.map Prod.fst
  | _ => True

instance (s : Rotating Token) (e : RotationEvent Token) : Decidable (Timely F kek s e) := by
  cases e <;> unfold Timely <;> infer_instance

end Rotating

section Writes

variable {F kek}

lemma decrypt_of_prepare {seen : Database Token} {req : Request} {w : Write Token}
    (h : prepare F kek seen req = .ok w) {t : Tables Token} {c : (SecretTable × ℕ) × Token}
    (hp : w.puts t = some c) : (kek.decrypt F c.2).isSome := by
  cases prepared_of_ok h with
  | addBackend _ _ htok =>
    obtain ⟨placeholder, -, -, rfl⟩ := encryptedConfig_ok htok
    obtain rfl := Option.some.inj hp
    simp
  | @setBackend id payload r row token hrow _ htok =>
    obtain ⟨tok, rfl, rfl⟩ := Option.map_eq_some_iff.mp hp
    unfold patchedConfig at htok
    split at htok
    · simp at htok
    · split at htok
      · simp at htok
      · obtain ⟨_, hc, he⟩ := map_ok.mp htok
        rw [Option.some.inj he] at hc
        obtain ⟨placeholder, -, -, rfl⟩ := encryptedConfig_ok hc
        simp
  | dropBackend | dropDomain | dropTsigKey => simp [Write.puts] at hp
  | @addDomain payload r row hrow =>
    obtain ⟨tok, htok, rfl⟩ := Option.map_eq_some_iff.mp hp
    unfold domainSecret at htok
    split at htok
    · simp at htok
    · split at htok
      · simp at htok
      · obtain rfl := Option.some.inj htok
        simp [SecretCodec.encryptText]
  | addTsigKey ha =>
    obtain rfl := Option.some.inj hp
    simp [SecretCodec.encryptText]

end Writes

section Invariant

structure Pass.Agrees (t : Tables Token) (p : Pass Token) : Prop where
  seq : ∀ c ∈ p.changed ++ p.updated, c.1.2 ≤ t.seq c.1.1
  same : ∀ c ∈ p.changed ++ p.updated, ∀ token, (c.1.2, token) ∈ t.secrets c.1.1 →
    kek.decrypt F token = kek.decrypt F c.2

structure Rotating.Invariant (s : Rotating Token) : Prop where
  decrypts : ∀ table, ∀ row ∈ s.db.tables.secrets table, (kek.decrypt F row.2).isSome
  managed : s.managed = plain F kek s.db
  agrees : ∀ p, s.pass = some p → p.Agrees F kek s.db.tables

variable {F kek}

lemma Pass.Agrees.none_read (t : Tables Token) : ({} : Pass Token).Agrees F kek t :=
  ⟨by simp, by simp⟩

lemma Pass.Agrees.select {db : Database Token} {draw : ℕ → ℕ} {p p' : Pass Token}
    (h : p.Agrees F kek db.tables)
    (hs : p.select F kek db.tables draw = .ok p') : p'.Agrees F kek db.tables := by
  unfold Pass.select at hs
  split at hs
  · obtain rfl := Except.ok.inj hs
    exact h
  · next table unread hu =>
    obtain ⟨rotated, hr, hs⟩ := bind_ok.mp hs
    obtain rfl := pure_ok.mp hs
    have hread : ∀ c ∈ rotated, ∃ token, c.1.1 = table ∧ (c.1.2, token) ∈ db.tables.secrets table ∧
        kek.decrypt F c.2 = kek.decrypt F token := by
      intro c hc
      obtain ⟨row, hrow, he⟩ :=
        exists_related (R := fun c row => _ = Except.ok c) (mapM_ok.mp hr).flip hc
      obtain ⟨rotated, ht, rfl⟩ := map_ok.mp he
      exact ⟨row.2, rfl, hrow, Kek.decrypt_of_rotate ht⟩
    refine ⟨fun c hc => ?_, fun c hc token ht => ?_⟩
    · rcases List.mem_append.mp hc with hc | hc
      · obtain ⟨token, rfl, hm, -⟩ := hread c hc
        exact db.consistent.id_le_seq hm
      · exact h.seq c (List.mem_append_right _ hc)
    · rcases List.mem_append.mp hc with hc | hc
      · obtain ⟨token', rfl, hm, he⟩ := hread c hc
        have hu : token = token' := db.consistent.secret_unique ht hm rfl
        rw [he, hu]
      · exact h.same c (List.mem_append_right _ hc) token ht

lemma Pass.Agrees.update {t : Tables Token} {p : Pass Token} (h : p.Agrees F kek t) (id : ℕ) :
    (p.update t id).Agrees F kek t := by
  have hsub : ∀ c ∈ (p.update t id).changed ++ (p.update t id).updated,
      c ∈ p.changed ++ p.updated := by
    intro c hc
    rcases List.mem_append.mp hc with hc | hc
    · exact List.mem_append_left _ (List.mem_of_mem_filter hc)
    · rcases List.mem_append.mp hc with hc | hc
      · exact List.mem_append_right _ hc
      · exact List.mem_append_left _ (List.mem_of_mem_filter hc)
  exact ⟨fun c hc => h.seq c (hsub c hc), fun c hc => h.same c (hsub c hc)⟩

lemma Pass.Agrees.plain_overwrite {db : Database Token} {p : Pass Token}
    (h : p.Agrees F kek db.tables) :
    Rotating.plain F kek (db.mapSecrets (overwrite p.updated)) = Rotating.plain F kek db := by
  refine (Database.mapSecrets_mapSecrets (overwrite p.updated) (fun _ _ => kek.decrypt F) db).trans
    ?_
  refine Database.mapSecrets_congr (fun table row hrow => ?_)
  unfold overwrite
  cases hl : p.updated.lookup (table, row.1) with
  | none => rfl
  | some token =>
    obtain ⟨l, l', hu, -⟩ := List.lookup_eq_some_iff.mp hl
    have hm : ((table, row.1), token) ∈ p.changed ++ p.updated := by simp [hu]
    exact (h.same _ hm row.2 hrow).symm

lemma Pass.Agrees.settle {db : Database Token} {p : Pass Token} (h : p.Agrees F kek db.tables)
    {w : Write Token} (hb : p.blocks db.tables w = false) (ht : ∀ id ∈ reconfigured w,
      (db.commit w).isSome → (SecretTable.backends, id) ∉ p.changed.map Prod.fst) :
    p.Agrees F kek (db.settle w).tables := by
  refine ⟨fun c hc => (h.seq c hc).trans (db.seq_le_settle w _), fun c hc token hm => ?_⟩
  rcases Database.mem_secrets_settle hm with hm | ⟨hcom, hput⟩
  · exact h.same c hc token hm
  · exfalso
    have hseq := h.seq c hc
    obtain ⟨⟨table, id⟩, new⟩ := c
    cases w with
    | addBackend | addTsigKey =>
      simp only [Write.puts, Option.some.injEq, Prod.mk.injEq] at hput
      obtain ⟨⟨rfl, rfl⟩, -⟩ := hput
      simp only [Tables.seq] at hseq
      omega
    | addDomain zone backendId recordName secret =>
      obtain ⟨tok, -, he⟩ := Option.map_eq_some_iff.mp hput
      simp only [Prod.mk.injEq] at he
      obtain ⟨⟨rfl, rfl⟩, -⟩ := he
      simp only [Tables.seq] at hseq
      omega
    | setBackend id' name config =>
      obtain ⟨tok, rfl, he⟩ := Option.map_eq_some_iff.mp hput
      simp only [Prod.mk.injEq] at he
      obtain ⟨⟨rfl, rfl⟩, -⟩ := he
      rcases List.mem_append.mp hc with hc | hc
      · exact ht id' rfl hcom (List.mem_map_of_mem hc)
      · have hheld : p.holds .backends id' = true := decide_eq_true (List.mem_map_of_mem hc)
        simp [Pass.blocks, hheld] at hb
    | dropBackend | dropDomain | dropTsigKey => simp [Write.puts] at hput

namespace Rotating

lemma decrypts_iff (db : Database Token) :
    (∀ table, ∀ row ∈ db.tables.secrets table, (kek.decrypt F row.2).isSome) ↔
      ∀ table, ∀ row ∈ (plain F kek db).tables.secrets table, row.2.isSome := by
  simp only [plain, Database.mapSecrets, Tables.secrets_mapSecrets, List.forall_mem_map]

lemma Invariant.pass {s : Rotating Token} (h : s.Invariant F kek) {pass : Option (Pass Token)}
    {returned : Option RotationCounts} (hp : ∀ p, pass = some p → p.Agrees F kek s.db.tables) :
    Invariant F kek { s with pass := pass, returned := returned } :=
  ⟨h.decrypts, h.managed, hp⟩

lemma Invariant.commit {s : Rotating Token} (h : s.Invariant F kek) {p : Pass Token}
    (hp : s.pass = some p) : Invariant F kek
      { s with
        db := s.db.mapSecrets (overwrite p.updated), pass := none, returned := some p.counts } := by
  have hplain := (h.agrees p hp).plain_overwrite
  refine ⟨?_, h.managed.trans hplain.symm, by simp⟩
  rw [decrypts_iff, hplain, ← decrypts_iff]
  exact h.decrypts

lemma Invariant.manage {s : Rotating Token} (h : s.Invariant F kek) {seen : Database Token}
    {req : Request}
    {w : Write Token} (ht : Timely F kek s (.manage seen req)) (hw : prepare F kek seen req = .ok w)
    (hb : ∀ p, s.pass = some p → p.blocks s.db.tables w = false) : Invariant F kek
      { s with db := s.db.settle w, managed := s.managed.settle (w.mapToken (kek.decrypt F)) } := by
  refine ⟨fun table row hrow => ?_, ?_, fun p hp => ?_⟩
  · rcases Database.mem_secrets_settle hrow with hrow | ⟨-, hput⟩
    · exact h.decrypts table row hrow
    · exact decrypt_of_prepare hw hput
  · exact (congrArg (Database.settle · _) h.managed).trans (Database.settle_mapToken _ _ _)
  · apply (h.agrees p hp).settle (hb p hp)
    intro id hid hcom
    exact ht w (by rw [hw]; rfl) id hid hcom p hp

lemma Invariant.step {s s' : Rotating Token} {e : RotationEvent Token} (h : s.Invariant F kek)
    (ht : Timely F kek s e) (hs : next F kek s e = some s') : s'.Invariant F kek := by
  cases e with
  | start =>
    rw [next] at hs
    split at hs
    · simp at hs
    · obtain rfl := Option.some.inj hs
      apply h.pass
      rintro p ⟨⟩
      exact .none_read _
  | select draw =>
    obtain ⟨p, hp, hs⟩ := Option.bind_eq_some_iff.mp hs
    split at hs
    · obtain rfl := Option.some.inj hs
      apply h.pass
      intro p' hp'
      cases hsel : p.select F kek s.db.tables draw with
      | error e => simp [hsel, Except.toOption] at hp'
      | ok p'' =>
        simp only [hsel, Except.toOption, Option.some.injEq] at hp'
        obtain rfl := hp'
        exact (h.agrees p hp).select hsel
    · simp at hs
  | update id =>
    obtain ⟨p, hp, hs⟩ := Option.bind_eq_some_iff.mp hs
    split at hs
    · obtain rfl := Option.some.inj hs
      apply h.pass
      rintro p' ⟨⟩
      exact (h.agrees p hp).update id
    · simp at hs
  | commit =>
    obtain ⟨p, hp, hs⟩ := Option.bind_eq_some_iff.mp hs
    split at hs
    · obtain rfl := Option.some.inj hs
      exact h.commit hp
    · simp at hs
  | fail =>
    obtain ⟨p, hp, rfl⟩ := Option.map_eq_some_iff.mp hs
    exact h.pass (by simp)
  | manage seen req =>
    rw [next] at hs
    cases hw : prepare F kek seen req with
    | error status =>
      simp only [hw, Option.some.injEq] at hs
      obtain rfl := hs
      exact h
    | ok w =>
      simp only [hw] at hs
      split at hs
      · simp at hs
      · next hblock =>
        obtain rfl := Option.some.inj hs
        exact h.manage ht hw (fun p hp => by simpa [hp] using hblock)

lemma invariant_of_run {es : List (RotationEvent Token)} {s : Rotating Token}
    (h : ((system F kek).restrict (Timely F kek)).Run es s) : s.Invariant F kek := by
  refine System.Run.invariant (I := fun s => s.Invariant F kek) ?_ ?_ h
  · rintro s ⟨hp, hm, hd⟩
    exact ⟨hd, hm, by simp [hp]⟩
  · intro s e s' hi hs
    exact hi.step hs.1 hs.2

lemma Invariant.keepsWrites {s : Rotating Token} (h : s.Invariant F kek) : KeepsWrites F kek s := by
  intro table id token hm
  obtain ⟨text, ht⟩ := Option.isSome_iff_exists.mp (h.decrypts table _ hm)
  refine ⟨text, ht, ?_⟩
  rw [h.managed, ← ht]
  simp only [plain, Database.mapSecrets, Tables.secrets_mapSecrets]
  exact List.mem_map_of_mem (f := fun row => (row.1, kek.decrypt F row.2)) hm

/-- A rotation among management writes loses none of them, as long as no new config is committed for
a backend between the rotation's SELECT of it and its UPDATE. -/
theorem rotation_keeps_writes {es : List (RotationEvent Token)} {s : Rotating Token}
    (h : ((system F kek).restrict (Timely F kek)).Run es s) : KeepsWrites F kek s :=
  (invariant_of_run h).keepsWrites

section Sample

structure Marked where
  key : Bool
  nonce : ℕ
  text : String
deriving DecidableEq

def markedFernet : Fernet Bool Marked where
  encrypt := Marked.mk
  decrypt key token := if token.key = key then some token.text else none
  decrypt_encrypt _ _ _ := by simp

def newAndOld : Kek Bool := ⟨[true, false], by simp⟩

def placeholderText (text : String) : String := JsonText.dumps [("cleanup_placeholder", .str text)]

def oldKeyDb : Database Marked :=
  ⟨(Write.addBackend "he" "hurricane" ⟨false, 0, placeholderText "old"⟩).apply
    Database.empty.tables, by decide +kernel⟩

def patchPlaceholder : Request :=
  .updateBackend 1 ⟨none, some (Dict.ofList [("cleanup_placeholder", .str "new")])⟩ 7

def beforeRotation : Rotating Marked :=
  ⟨oldKeyDb, plain markedFernet newAndOld oldKeyDb, none, none⟩

def patchBetween : List (RotationEvent Marked) :=
  [.start, .select (fun _ => 3), .manage oldKeyDb patchPlaceholder, .update 1, .select (fun _ => 4),
    .select (fun _ => 5), .commit]

def patchBefore : List (RotationEvent Marked) :=
  [.start, .manage oldKeyDb patchPlaceholder, .select (fun _ => 3), .update 1, .select (fun _ => 4),
    .select (fun _ => 5), .commit]

lemma beforeRotation_initial : Initial markedFernet newAndOld beforeRotation := by
  refine ⟨rfl, rfl, fun table => ?_⟩
  cases table <;> decide +kernel

structure Outcome where
  stored : List (ℕ × Marked)
  managed : List (ℕ × Option String)
  finished : Bool
  returned : Option RotationCounts
deriving DecidableEq

def outcome (s : Rotating Marked) : Outcome :=
  ⟨s.db.tables.secrets .backends, s.managed.tables.secrets .backends, s.pass.isNone, s.returned⟩

theorem patch_between_lost : ∃ s, (system markedFernet newAndOld).Run patchBetween s ∧
    s.pass = none ∧ s.returned = some ⟨1, 0, 0⟩ ∧ ¬ KeepsWrites markedFernet newAndOld s := by
  obtain ⟨s, hrun, ho⟩ : ∃ s, (system markedFernet newAndOld).Run patchBetween s ∧
      outcome s = ⟨[(1, ⟨true, 3, placeholderText "old"⟩)], [(1, some (placeholderText "new"))],
      true, some ⟨1, 0, 0⟩⟩ :=
    System.exists_run beforeRotation_initial (by decide +kernel)
  simp only [outcome, Outcome.mk.injEq, Option.isNone_iff_eq_none] at ho
  obtain ⟨hdb, hmanaged, hp, hr⟩ := ho
  refine ⟨s, hrun, hp, hr, fun hk => ?_⟩
  obtain ⟨text, ht, hm⟩ := hk .backends 1 ⟨true, 3, placeholderText "old"⟩
    (by rw [hdb]; exact List.mem_singleton_self _)
  rw [hmanaged, List.mem_singleton] at hm
  have hnew : text = placeholderText "new" := by simpa using hm
  have hold : newAndOld.decrypt markedFernet ⟨true, 3, placeholderText "old"⟩ =
      some (placeholderText "old") := by
    decide +kernel
  rw [hold, hnew] at ht
  exact absurd ht (by decide +kernel)

theorem patch_before_kept : ∃ s,
    ((system markedFernet newAndOld).restrict (Timely markedFernet newAndOld)).Run patchBefore s ∧
    s.pass = none ∧ s.returned = some ⟨1, 0, 0⟩ ∧
    s.db.tables.secrets .backends = [(1, ⟨true, 3, placeholderText "new"⟩)] ∧
    KeepsWrites markedFernet newAndOld s := by
  obtain ⟨s, hrun, ho⟩ : ∃ s,
      ((system markedFernet newAndOld).restrict (Timely markedFernet newAndOld)).Run patchBefore s ∧
      outcome s = ⟨[(1, ⟨true, 3, placeholderText "new"⟩)], [(1, some (placeholderText "new"))],
      true, some ⟨1, 0, 0⟩⟩ :=
    System.exists_run_restrict beforeRotation_initial (by decide +kernel)
  simp only [outcome, Outcome.mk.injEq, Option.isNone_iff_eq_none] at ho
  obtain ⟨hdb, -, hp, hr⟩ := ho
  exact ⟨s, hrun, hp, hr, hdb, rotation_keeps_writes hrun⟩

end Sample

end Rotating

end Invariant

end AstropathRelay.Api
