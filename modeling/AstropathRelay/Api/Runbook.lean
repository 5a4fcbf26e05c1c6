import AstropathRelay.Api.SoleRotation

/-! The life of the KEK: restarts with another keylist, and between them rotations beside the
management writes. -/

namespace AstropathRelay.Api.Runbook

open Lib Lib.Results Store

structure Deployed (Key Token : Type) where
  kek : Kek Key
  rotating : Rotating Token
  migrated : Bool

inductive Event (Key Token : Type)
  | serve (e : RotationEvent Token)
  | restart (kek : Kek Key)

variable {Key Token : Type} (F : Fernet Key Token)

/-- Fernet authenticates: under another key than its own a token is an `InvalidToken`. -/
def Authentic : Prop := ∀ key key' r text, key' ≠ key → F.decrypt key' (F.encrypt key r text) = none

def SealedBy (keys : List Key) (token : Token) : Prop :=
  ∃ key ∈ keys, ∃ r text, token = F.encrypt key r text

def first (kek : Kek Key) : Key := kek.keys.head kek.nonempty

namespace Deployed

def commits : RotationEvent Token → Bool
  | .commit => true
  | _ => false

/-- `migrated` says whether a rotation has been committed since the last restart. -/
def next (s : Deployed Key Token) : Event Key Token → Option (Deployed Key Token)
  | .serve e => (Rotating.next F s.kek s.rotating e).map
      (fun rotating => { s with rotating := rotating, migrated := s.migrated || commits e })
  | .restart kek =>
    if s.rotating.pass.isSome then none
    else some { s with
      kek := kek, rotating := { s.rotating with returned := none }, migrated := false }

def Orderly (s : Deployed Key Token) : Event Key Token → Prop
  | .serve e => Rotating.Timely F s.kek s.rotating e
  | .restart kek => s.kek.keys ⊆ kek.keys ∨ s.migrated = true ∧ first s.kek ∈ kek.keys

def AllSealed (keys : List Key) (s : Deployed Key Token) : Prop :=
  ∀ table, ∀ row ∈ s.rotating.db.tables.secrets table, SealedBy F keys row.2

end Deployed

def runbook : System (Deployed Key Token) (Event Key Token) :=
  .deterministic (fun s => ∃ kek, s = ⟨kek, ⟨.empty, .empty, none, none⟩, false⟩) (Deployed.next F)

section Sealed

variable {F} {kek kek' : Kek Key} {keys keys' : List Key} {token : Token}

lemma SealedBy.mono (h : SealedBy F keys token) (hk : keys ⊆ keys') : SealedBy F keys' token := by
  obtain ⟨key, hm, r, text, rfl⟩ := h
  exact ⟨key, hk hm, r, text, rfl⟩

lemma findSome_encrypt (hF : Authentic F) {key : Key} (r : ℕ) (text : String) (hk : key ∈ keys) :
    keys.findSome? (fun k => F.decrypt k (F.encrypt key r text)) = some text := by
  induction keys with
  | nil => cases hk
  | cons k keys ih =>
    rw [List.findSome?_cons]
    by_cases he : k = key
    · subst he
      rw [F.decrypt_encrypt]
    · rw [hF key k r text he]
      exact ih ((List.mem_cons.mp hk).resolve_left (Ne.symm he))

lemma decrypt_encrypt_of_mem (hF : Authentic F) {key : Key} (r : ℕ) (text : String)
    (hk : key ∈ kek.keys) :
    kek.decrypt F (F.encrypt key r text) = some text := findSome_encrypt hF r text hk

lemma text_of_encrypt_eq (hF : Authentic F) {key key' : Key} {r r' : ℕ} {text text' : String}
    (h : F.encrypt key r text = F.encrypt key' r' text') : text = text' := by
  have hd : F.decrypt key' (F.encrypt key r text) = some text' := by rw [h, F.decrypt_encrypt]
  by_cases he : key' = key
  · subst he
    rw [F.decrypt_encrypt] at hd
    exact Option.some.inj hd
  · rw [hF key key' r text he] at hd
    cases hd

lemma SealedBy.decrypt_eq (hF : Authentic F) (h : SealedBy F kek.keys token)
    (h' : SealedBy F kek'.keys token) : kek'.decrypt F token = kek.decrypt F token := by
  obtain ⟨key, hk, r, text, rfl⟩ := h
  obtain ⟨key', hk', r', text', he⟩ := h'
  obtain rfl := text_of_encrypt_eq hF he
  rw [decrypt_encrypt_of_mem hF r text hk, he, decrypt_encrypt_of_mem hF r' text hk']

lemma SealedBy.isSome (hF : Authentic F) (h : SealedBy F kek.keys token) :
    (kek.decrypt F token).isSome := by
  obtain ⟨key, hk, r, text, rfl⟩ := h
  rw [decrypt_encrypt_of_mem hF r text hk]
  rfl

lemma SealedBy.of_isSome (hF : Authentic F) (h : SealedBy F keys token)
    (hd : (kek.decrypt F token).isSome) : SealedBy F kek.keys token := by
  obtain ⟨key, -, r, text, rfl⟩ := h
  obtain ⟨text', ht⟩ := Option.isSome_iff_exists.mp hd
  obtain ⟨key', hk', hd'⟩ := List.exists_of_findSome?_eq_some ht
  by_cases he : key' = key
  · exact ⟨key, he ▸ hk', r, text, rfl⟩
  · rw [hF key key' r text he] at hd'
    cases hd'

lemma sealedBy_first (r : ℕ) (text : String) : SealedBy F [first kek] (kek.encrypt F r text) :=
  ⟨first kek, List.mem_singleton_self _, r, text, rfl⟩

lemma first_subset (kek : Kek Key) : [first kek] ⊆ kek.keys :=
  List.cons_subset.mpr ⟨List.head_mem kek.nonempty, List.nil_subset _⟩

lemma sealedBy_of_rotate {r : ℕ} {rotated : Token} (h : kek.rotate F r token = .ok rotated) :
    SealedBy F [first kek] rotated := by
  unfold Kek.rotate at h
  split at h
  · obtain rfl := Except.ok.inj h
    exact sealedBy_first r _
  · cases h

lemma sealedBy_of_prepare {seen : Database Token} {req : Api.Request} {w : Write Token}
    (h : prepare F kek seen req = .ok w) {t : Tables Token} {c : (SecretTable × ℕ) × Token}
    (hp : w.puts t = some c) : SealedBy F [first kek] c.2 := by
  cases prepared_of_ok h with
  | addBackend _ _ htok =>
    obtain ⟨placeholder, -, -, rfl⟩ := encryptedConfig_ok htok
    obtain rfl := Option.some.inj hp
    exact sealedBy_first _ _
  | @setBackend id payload r row token hrow _ htok =>
    obtain ⟨tok, rfl, rfl⟩ := Option.map_eq_some_iff.mp hp
    unfold patchedConfig at htok
    split at htok
    · cases htok
    · split at htok
      · cases htok
      · obtain ⟨_, hc, he⟩ := map_ok.mp htok
        rw [Option.some.inj he] at hc
        obtain ⟨placeholder, -, -, rfl⟩ := encryptedConfig_ok hc
        exact sealedBy_first _ _
  | dropBackend | dropDomain | dropTsigKey => cases hp
  | @addDomain payload r row hrow =>
    obtain ⟨tok, htok, rfl⟩ := Option.map_eq_some_iff.mp hp
    unfold domainSecret at htok
    split at htok
    · cases htok
    · split at htok
      · cases htok
      · obtain rfl := Option.some.inj htok
        exact sealedBy_first _ _
  | addTsigKey ha =>
    obtain rfl := Option.some.inj hp
    exact sealedBy_first _ _

end Sealed

section Passes

variable {F} {kek : Kek Key} {t : Tables Token} {p p' : Pass Token}

structure Covers (F : Fernet Key Token) (kek : Kek Key) (t : Tables Token)
    (p : Pass Token) : Prop where
  resealed : ∀ c ∈ p.changed ++ p.updated, SealedBy F [first kek] c.2
  rows : ∀ table, ∀ row ∈ t.secrets table, table ∈ p.unread ∨
    (table, row.1) ∈ (p.changed ++ p.updated).map Prod.fst ∨ SealedBy F [first kek] row.2

lemma covers_start (t : Tables Token) : Covers F kek t {} where
  resealed := by simp
  rows table _ _ := .inl (by cases table <;> simp)

lemma Covers.select {draw : ℕ → ℕ} (h : Covers F kek t p) (he : p.changed = [])
    (hs : p.select F kek t draw = .ok p') : Covers F kek t p' := by
  unfold Pass.select at hs
  split at hs
  · obtain rfl := Except.ok.inj hs
    exact h
  · next table unread hu =>
    obtain ⟨rotated, hr, hs⟩ := bind_ok.mp hs
    obtain rfl := pure_ok.mp hs
    refine ⟨fun c hc => ?_, fun table' row hrow => ?_⟩
    · rcases List.mem_append.mp hc with hc | hc
      · obtain ⟨row, -, he⟩ :=
          exists_related (R := fun c row => _ = Except.ok c) (mapM_ok.mp hr).flip hc
        obtain ⟨rotated, ht, rfl⟩ := map_ok.mp he
        exact sealedBy_of_rotate ht
      · exact h.resealed c (List.mem_append_right _ hc)
    · have hold := h.rows table' row hrow
      rw [hu, he, List.nil_append, List.mem_cons] at hold
      rcases hold with (rfl | hunread) | hup | hsealed
      · obtain ⟨c, hc, he⟩ := exists_related (mapM_ok.mp hr) hrow
        obtain ⟨rotated, -, rfl⟩ := map_ok.mp he
        exact .inr (.inl (List.mem_map_of_mem (f := Prod.fst) (List.mem_append_left _ hc)))
      · exact .inl hunread
      · refine .inr (.inl ?_)
        rw [List.map_append]
        exact List.mem_append_right _ hup
      · exact .inr (.inr hsealed)

lemma Covers.update (h : Covers F kek t p) (id : ℕ) : Covers F kek t (p.update t id) := by
  have hsub : ∀ c ∈ (p.update t id).changed ++ (p.update t id).updated,
      c ∈ p.changed ++ p.updated := by
    intro c hc
    rcases List.mem_append.mp hc with hc | hc
    · exact List.mem_append_left _ (List.mem_of_mem_filter hc)
    · rcases List.mem_append.mp hc with hc | hc
      · exact List.mem_append_right _ hc
      · exact List.mem_append_left _ (List.mem_of_mem_filter hc)
  refine ⟨fun c hc => h.resealed c (hsub c hc), fun table row hrow => ?_⟩
  refine (h.rows table row hrow).imp_right (Or.imp_left (fun hm => ?_))
  obtain ⟨c, hc, hfst⟩ := List.mem_map.mp hm
  refine List.mem_map.mpr ⟨c, ?_, hfst⟩
  rcases List.mem_append.mp hc with hc | hc
  · by_cases hid : c.1.2 = id
    · have hrowid : id ∈ t.ids c.1.1 := by
        rw [← hid, hfst]
        exact (t.secrets_ids_sublist table).subset (List.mem_map_of_mem hrow)
      exact List.mem_append_right _
        (List.mem_append_right _ (List.mem_filter.mpr ⟨hc, by simpa [hid] using hrowid⟩))
    · exact List.mem_append_left _ (List.mem_filter.mpr ⟨hc, by simpa using hid⟩)
  · exact List.mem_append_right _ (List.mem_append_left _ hc)

lemma Covers.settle {db : Database Token} {seen : Database Token} {req : Api.Request}
    {w : Write Token} (h : Covers F kek db.tables p) (hw : prepare F kek seen req = .ok w) :
    Covers F kek (db.settle w).tables p where
  resealed := h.resealed
  rows table row hrow := by
    rcases Database.mem_secrets_settle hrow with hrow | ⟨-, hput⟩
    · exact h.rows table row hrow
    · exact .inr (.inr (sealedBy_of_prepare hw hput))

lemma Covers.commit {db : Database Token} (h : Covers F kek db.tables p) (hc : p.changed = [])
    (hu : p.unread = []) : ∀ table, ∀ row ∈
    (db.mapSecrets (overwrite p.updated)).tables.secrets table, SealedBy F [first kek] row.2 := by
  intro table row hrow
  change row ∈ (db.tables.mapSecrets (overwrite p.updated)).secrets table at hrow
  rw [Tables.secrets_mapSecrets] at hrow
  obtain ⟨row, hm, rfl⟩ := List.mem_map.mp hrow
  change SealedBy F [first kek] (overwrite p.updated table row.1 row.2)
  unfold overwrite
  cases hl : p.updated.lookup (table, row.1) with
  | some token =>
    obtain ⟨l, l', he, -⟩ := List.lookup_eq_some_iff.mp hl
    exact h.resealed ((table, row.1), token) (List.mem_append_right _ (by rw [he]; simp))
  | none =>
    rcases h.rows table row hm with hun | hup | hsealed
    · rw [hu] at hun
      cases hun
    · rw [hc, List.nil_append] at hup
      obtain ⟨c, hcm, hfst⟩ := List.mem_map.mp hup
      have hne := List.lookup_eq_none_iff.mp hl c hcm
      rw [hfst] at hne
      simp at hne
    · exact hsealed

end Passes

section Runs

variable {F} {s s' : Deployed Key Token} {e : RotationEvent Token}

structure Inv (F : Fernet Key Token) (s : Deployed Key Token) : Prop where
  rotating : s.rotating.Invariant F s.kek
  sealed_rows : s.AllSealed F s.kek.keys
  covers : ∀ p, s.rotating.pass = some p → Covers F s.kek s.rotating.db.tables p
  migrated : s.migrated = true → s.AllSealed F [first s.kek]

lemma seals_next {r r' : Rotating Token} {kek : Kek Key} (hs : Rotating.next F kek r e = some r')
    (hc : ∀ p, r.pass = some p → Covers F kek r.db.tables p) :
    (∀ p, r'.pass = some p → Covers F kek r'.db.tables p) ∧
      (∀ table, ∀ row ∈ r'.db.tables.secrets table, row ∈ r.db.tables.secrets table ∨
      SealedBy F [first kek] row.2) ∧ (Deployed.commits e = true →
      ∀ table, ∀ row ∈ r'.db.tables.secrets table, SealedBy F [first kek] row.2) := by
  cases e with
  | start =>
    rw [Rotating.next] at hs
    split at hs
    · cases hs
    · obtain rfl := Option.some.inj hs
      refine ⟨?_, fun _ _ hrow => .inl hrow, by simp [Deployed.commits]⟩
      rintro p ⟨⟩
      exact covers_start _
  | select draw =>
    obtain ⟨p, hp, hs⟩ := Option.bind_eq_some_iff.mp hs
    split at hs
    · next hguard =>
      obtain rfl := Option.some.inj hs
      simp only [Bool.and_eq_true, List.isEmpty_iff] at hguard
      refine ⟨fun p' hp' => ?_, fun _ _ hrow => .inl hrow, by simp [Deployed.commits]⟩
      cases hsel : p.select F kek r.db.tables draw with
      | error e => simp [hsel, Except.toOption] at hp'
      | ok p'' =>
        simp only [hsel, Except.toOption, Option.some.injEq] at hp'
        obtain rfl := hp'
        exact (hc p hp).select hguard.1 hsel
    · cases hs
  | update id =>
    obtain ⟨p, hp, hs⟩ := Option.bind_eq_some_iff.mp hs
    split at hs
    · obtain rfl := Option.some.inj hs
      refine ⟨?_, fun _ _ hrow => .inl hrow, by simp [Deployed.commits]⟩
      rintro p' ⟨⟩
      exact (hc p hp).update id
    · cases hs
  | commit =>
    obtain ⟨p, hp, hs⟩ := Option.bind_eq_some_iff.mp hs
    split at hs
    · next hguard =>
      obtain rfl := Option.some.inj hs
      simp only [Bool.and_eq_true, List.isEmpty_iff] at hguard
      have hall := (hc p hp).commit hguard.1 hguard.2
      exact ⟨by simp, fun table row hrow => .inr (hall table row hrow), fun _ => hall⟩
    · cases hs
  | fail =>
    obtain ⟨p, hp, rfl⟩ := Option.map_eq_some_iff.mp hs
    exact ⟨by simp, fun _ _ hrow => .inl hrow, by simp [Deployed.commits]⟩
  | manage seen req =>
    rw [Rotating.next] at hs
    cases hw : prepare F kek seen req with
    | error status =>
      simp only [hw, Option.some.injEq] at hs
      obtain rfl := hs
      exact ⟨hc, fun _ _ hrow => .inl hrow, by simp [Deployed.commits]⟩
    | ok w =>
      simp only [hw] at hs
      split at hs
      · cases hs
      · obtain rfl := Option.some.inj hs
        refine ⟨fun p hp => (hc p hp).settle hw, fun table row hrow => ?_,
          by simp [Deployed.commits]⟩
        exact (Database.mem_secrets_settle hrow).imp_right
          (fun hput => sealedBy_of_prepare hw hput.2)

lemma Inv.serve (h : Inv F s) (ht : Rotating.Timely F s.kek s.rotating e) {r : Rotating Token}
    (hs : Rotating.next F s.kek s.rotating e = some r) :
    Inv F { s with rotating := r, migrated := s.migrated || Deployed.commits e } := by
  obtain ⟨hcovers, hrows, hcommits⟩ := seals_next hs h.covers
  refine ⟨h.rotating.step ht hs, fun table row hrow => ?_, hcovers, fun hm table row hrow => ?_⟩
  · rcases hrows table row hrow with hold | hnew
    · exact h.sealed_rows table row hold
    · exact hnew.mono (first_subset s.kek)
  · rcases Bool.or_eq_true_iff.mp hm with hm | hm
    · exact (hrows table row hrow).elim (h.migrated hm table row) id
    · exact hcommits hm table row hrow

lemma Inv.invariant_of_sealed (hF : Authentic F) (h : Inv F s) {kek : Kek Key}
    (hk : s.AllSealed F kek.keys) (returned : Option RotationCounts) :
    Rotating.Invariant F kek { s.rotating with pass := none, returned := returned } where
  decrypts table row hrow := (hk table row hrow).isSome hF
  managed := by
    refine h.rotating.managed.trans (Database.mapSecrets_congr (fun table row hrow => ?_))
    exact ((h.sealed_rows table row hrow).decrypt_eq hF (hk table row hrow)).symm
  agrees := by simp

lemma Inv.restart (hF : Authentic F) (h : Inv F s) {kek : Kek Key} (hk : s.AllSealed F kek.keys)
    (hp : s.rotating.pass = none) : Inv F { s with
      kek := kek, rotating := { s.rotating with returned := none }, migrated := false } := by
  have hi := h.invariant_of_sealed hF hk none
  rw [← hp] at hi
  exact ⟨hi, hk, by simp [hp], by simp⟩

lemma Inv.next (hF : Authentic F) (h : Inv F s) {e : Event Key Token} (ho : s.Orderly F e)
    (hs : s.next F e = some s') : Inv F s' := by
  cases e with
  | serve e =>
    obtain ⟨r, hr, rfl⟩ := Option.map_eq_some_iff.mp hs
    exact h.serve ho hr
  | restart kek =>
    rw [Deployed.next] at hs
    split_ifs at hs with hp
    obtain rfl := Option.some.inj hs
    refine h.restart hF (fun table row hrow => ?_) (by simpa using hp)
    rcases ho with hsub | ⟨hm, hmem⟩
    · exact (h.sealed_rows table row hrow).mono hsub
    · exact (h.migrated hm table row hrow).mono (List.cons_subset.mpr ⟨hmem, List.nil_subset _⟩)

lemma inv_of_run (hF : Authentic F) {es : List (Event Key Token)}
    (h : ((runbook F).restrict (Deployed.Orderly F)).Run es s) : Inv F s := by
  refine h.invariant ?_ (fun s e s' hi hs => hi.next hF hs.1 hs.2)
  rintro s ⟨kek, rfl⟩
  refine ⟨⟨fun table row hrow => ?_, rfl, by simp⟩, fun table row hrow => ?_, by simp, by simp⟩
  · cases table <;> cases hrow
  · cases table <;> cases hrow

end Runs

structure Survives (F : Fernet Key Token) (s : Deployed Key Token) : Prop where
  keeps : Rotating.KeepsWrites F s.kek s.rotating
  serves_iff : ∀ kek : Kek Key, Rotating.KeepsWrites F kek s.rotating ↔ s.AllSealed F kek.keys
  retires : s.migrated = true → Rotating.KeepsWrites F s.kek.primary s.rotating

theorem secrets_survive (hF : Authentic F) {es : List (Event Key Token)} {s : Deployed Key Token}
    (h : ((runbook F).restrict (Deployed.Orderly F)).Run es s) : Survives F s := by
  have hi := inv_of_run hF h
  have hkeeps : ∀ kek : Kek Key, s.AllSealed F kek.keys → Rotating.KeepsWrites F kek s.rotating :=
    fun kek hk => (hi.invariant_of_sealed hF hk none).keepsWrites
  refine ⟨hkeeps s.kek hi.sealed_rows, fun kek => ⟨fun hk table row hrow => ?_, hkeeps kek⟩,
    fun hm => hkeeps s.kek.primary (hi.migrated hm)⟩
  obtain ⟨text, ht, -⟩ := hk table row.1 row.2 hrow
  exact (hi.sealed_rows table row hrow).of_isSome hF (by rw [ht]; rfl)

section Sample

open Rotating

lemma markedFernet_authentic : Authentic markedFernet := by
  intro key key' r text hne
  simp [markedFernet, Ne.symm hne]

def oldAlone : Kek Bool := ⟨[false], by simp⟩

def createHe : Api.Request :=
  .createBackend ⟨"he", "hurricane", Dict.ofList [("cleanup_placeholder", .str "old")]⟩ 1

def retirement : List (Event Bool Marked) :=
  [.serve (.manage .empty createHe), .restart newAndOld, .serve .start,
    .serve (.select (fun _ => 3)), .serve (.update 1), .serve (.select (fun _ => 4)),
    .serve (.select (fun _ => 5)), .serve .commit,
    .serve (.manage oldKeyDb patchPlaceholder), .restart newAndOld.primary]

instance (s : Deployed Bool Marked)
    (e : Event Bool Marked) : Decidable (s.Orderly markedFernet e) := by
  cases e <;> unfold Deployed.Orderly <;> infer_instance

theorem retirement_survives :
    ∃ s, ((runbook markedFernet).restrict (Deployed.Orderly markedFernet)).Run retirement s ∧
      s.kek.keys = [true] ∧ s.rotating.db.tables.secrets .backends =
      [(1, ⟨true, 7, placeholderText "new"⟩)] ∧ Survives markedFernet s := by
  obtain ⟨s, hr, he⟩ : ∃ s,
      ((runbook markedFernet).restrict (Deployed.Orderly markedFernet)).Run retirement s ∧
      (s.kek.keys, s.rotating.db.tables.secrets .backends) =
      ([true], [(1, ⟨true, 7, placeholderText "new"⟩)]) :=
    System.exists_run_restrict ⟨oldAlone, rfl⟩ (by decide +kernel)
  obtain ⟨hk, hb⟩ := Prod.mk.inj he
  exact ⟨s, hr, hk, hb, secrets_survive markedFernet markedFernet_authentic hr⟩

end Sample

end AstropathRelay.Api.Runbook
