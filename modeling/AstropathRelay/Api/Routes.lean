import AstropathRelay.Api.Reachable
import AstropathRelay.Api.Session

/-! The seven write routes as the statements they run on their session, and what a rejected one
leaves behind. -/

namespace AstropathRelay.Api

open Lib Lib.ByteStrings DataPlane Providers Store Cache

variable {Key Token : Type}

namespace Routes

section Statements

variable (E : Platform) (F : Fernet Key Token) (kek : Kek Key) (select : Tables Token →
  Option (Selected Token))

/-- The cache keeps its snapshot when a SELECT of the load fails (`select` gives `none`) or the rows
do not load. -/
def refreshRoutingCache : Handler Token Unit :=
  modify fun w => { w with
    cache := w.cache.map fun snapshot =>
      match (select w.session.db.tables).map (load E F kek) with
      | some (.ok loaded) => some loaded
      | _ => snapshot }

def validatedConfig (type : String)
    (config : Config) : Handler Token (List (String × PyValue)) := do
  match getProvider type with
  | none => throw (.http Status.unprocessable)
  | some p =>
    match modelValidate p config with
    | .error _ => throw (.http Status.unprocessable)
    | .ok model => return modelDump model

def encryptJson (config : List (String × PyValue)) (r : ℕ) : Handler Token Token :=
  match SecretCodec.encryptJson F kek r config with
  | .error _ => throw .other
  | .ok token => return token

def createBackend (payload : BackendCreate) (r : ℕ) : Handler Token Unit := do
  Handler.raiseIf (!lengthOk payload.name || payload.type = "") (.http Status.unprocessable)
  let config ← validatedConfig payload.type payload.config
  let token ← encryptJson F kek config r
  Handler.stage (.addBackend payload.name payload.type token)
  Handler.commitOrConflict
  refreshRoutingCache E F kek select

def assignName (id : ℕ) (name : Option String) : Handler Token Unit :=
  match name with
  | none => return
  | some name => Handler.stage (.setBackend id (some name) none)

def assignConfig (row : BackendRow Token) (config : Option Config)
    (r : ℕ) : Handler Token Unit := do
  match config with
  | none => return
  | some config =>
    let config ← validatedConfig row.type config
    let token ← encryptJson F kek config r
    Handler.stage (.setBackend row.id none (some token))

def updateBackend (id : ℤ) (payload : BackendUpdate) (r : ℕ) : Handler Token Unit := do
  Handler.raiseIf (payload.name.any (fun n => !lengthOk n)) (.http Status.unprocessable)
  let row ← Handler.getOr Tables.backends BackendRow.id id Status.notFound
  assignName row.id payload.name
  assignConfig F kek row payload.config r
  Handler.commitOrConflict
  refreshRoutingCache E F kek select

def deleteBackend (id : ℤ) : Handler Token Unit := do
  let row ← Handler.getOr Tables.backends BackendRow.id id Status.notFound
  Handler.raiseIf ((← get).session.work.domains.any (fun d => d.backendId = row.id))
    (.http Status.conflict)
  Handler.stage (.dropBackend row.id)
  Handler.commit
  refreshRoutingCache E F kek select

def createDomain (payload : DomainCreate) (r : ℕ) : Handler Token Unit := do
  Handler.raiseIf (!lengthOk payload.zone ||
    !lengthOk payload.recordName) (.http Status.unprocessable)
  let row ← Handler.getOr Tables.backends BackendRow.id payload.backendId Status.unprocessable
  Handler.stage
    (.addDomain payload.zone row.id payload.recordName (domainSecret F kek payload.heDynamicKey r))
  Handler.commitOrConflict
  refreshRoutingCache E F kek select

def deleteDomain (id : ℤ) : Handler Token Unit := do
  let row ← Handler.getOr Tables.domains DomainRow.id id Status.notFound
  Handler.stage (.dropDomain row.id)
  Handler.commit
  refreshRoutingCache E F kek select

def createTsigKey (payload : TsigKeyCreate) (drawn : Octets) (r : ℕ) : Handler Token Unit := do
  Handler.raiseIf (!lengthOk payload.name) (.http Status.unprocessable)
  match algorithmFromText payload.algorithm with
  | none => throw (.http Status.unprocessable)
  | some _ =>
    let secret := generateTsigSecret drawn
    Handler.stage
      (.addTsigKey payload.name payload.algorithm (SecretCodec.encryptText F kek r secret))
    Handler.commitOrConflict
    refreshRoutingCache E F kek select

def revokeTsigKey (id : ℤ) : Handler Token Unit := do
  let row ← Handler.getOr Tables.tsigKeys TsigKeyRow.id id Status.notFound
  Handler.stage (.dropTsigKey row.id)
  Handler.commit
  refreshRoutingCache E F kek select

def route : Request → Handler Token Unit
  | .createBackend payload r => createBackend E F kek select payload r
  | .updateBackend id payload r => updateBackend E F kek select id payload r
  | .deleteBackend id => deleteBackend E F kek select id
  | .createDomain payload r => createDomain E F kek select payload r
  | .deleteDomain id => deleteDomain E F kek select id
  | .createTsigKey payload drawn r => createTsigKey E F kek select payload drawn r
  | .revokeTsigKey id => revokeTsigKey E F kek select id

/-- The session closes with the request, so what it has not committed is gone. -/
def answer (success : ℕ) : EStateM.Result Raised (World Token) Unit → ℕ × Site Token
  | .ok _ w => (success, ⟨w.session.db, w.cache⟩)
  | .error (.http status) w => (status, ⟨w.session.db, w.cache⟩)
  | .error _ w => (Status.serverError, ⟨w.session.db, w.cache⟩)

def serve (req : Request) (site : Site Token) : ℕ × Site Token :=
  answer req.success ((route E F kek select req).run ⟨.opened site.db, site.cache⟩)

end Statements

section Rejected

variable {E : Platform} {F : Fernet Key Token} {kek : Kek Key}
  {select : Tables Token → Option (Selected Token)}

structure SameRows (t u : Tables Token) : Prop where
  backends : u.backends = t.backends
  domains : u.domains = t.domains
  tsigKeys : u.tsigKeys = t.tsigKeys

def Unchanged (w v : World Token) : Prop := SameRows w.session.db.tables v.session.db.tables ∧
  v.cache = w.cache

lemma Unchanged.refl (w : World Token) : Unchanged w w := ⟨⟨rfl, rfl, rfl⟩, rfl⟩

lemma Unchanged.trans (w v u : World Token) (h : Unchanged w v) (h' : Unchanged v u) :
    Unchanged w u :=
  ⟨⟨h'.1.backends.trans h.1.backends, h'.1.domains.trans h.1.domains,
    h'.1.tsigKeys.trans h.1.tsigKeys⟩, h'.2.trans h.2⟩

lemma keeps_stage (w : Write Token) : Keeps Unchanged (Handler.stage w) :=
  .modify fun _ => ⟨⟨rfl, rfl, rfl⟩, rfl⟩

lemma keeps_throw {α : Type} (e : Raised) : Keeps Unchanged (throw e : Handler Token α) :=
  .throw .refl e

lemma keeps_return {α : Type} (a : α) : Keeps Unchanged (pure a : Handler Token α) := .pure .refl a

lemma keeps_bind {α β : Type} {x : Handler Token α} {f : α → Handler Token β}
    (hx : Keeps Unchanged x) (hf : ∀ a, Keeps Unchanged (f a)) : Keeps Unchanged (x >>= f) :=
  .bind Unchanged.trans hx hf

lemma keeps_raiseIf (c : Bool)
    (e : Raised) : Keeps Unchanged (Handler.raiseIf c e : Handler Token Unit) := by
  cases c with
  | true => exact keeps_throw e
  | false => exact keeps_return ()

lemma keeps_getOr {Row : Type} (rows : Tables Token → List Row) (idOf : Row → ℕ) (id : ℤ)
    (status : ℕ) : Keeps Unchanged (Handler.getOr rows idOf id status) := by
  refine keeps_bind (keeps_bind (keeps_raiseIf _ _) fun _ =>
    keeps_bind (.get .refl) fun _ => keeps_return _) fun row => ?_
  cases row with
  | none => exact keeps_throw _
  | some row => exact keeps_return row

lemma keeps_validatedConfig (type : String) (config : Config) :
    Keeps Unchanged (validatedConfig type config : Handler Token _) := by
  rw [validatedConfig]
  cases getProvider type with
  | none => exact keeps_throw _
  | some p =>
    cases hm : modelValidate p config with
    | error e => simpa only [hm] using keeps_throw _
    | ok model => simpa only [hm] using keeps_return _

lemma keeps_encryptJson (config : List (String × PyValue))
    (r : ℕ) : Keeps Unchanged (encryptJson F kek config r) := by
  rw [encryptJson]
  cases SecretCodec.encryptJson F kek r config with
  | error e => exact keeps_throw _
  | ok token => exact keeps_return _

lemma keeps_assignName (id : ℕ) (name : Option String) :
    Keeps Unchanged (assignName id name : Handler Token Unit) := by
  cases name with
  | none => exact keeps_return _
  | some name => exact keeps_stage _

lemma keeps_assignConfig (row : BackendRow Token) (config : Option Config) (r : ℕ) :
    Keeps Unchanged (assignConfig F kek row config r) := by
  cases config with
  | none => exact keeps_return _
  | some config =>
    exact keeps_bind (keeps_validatedConfig _ _) fun _ =>
      keeps_bind (keeps_encryptJson _ _) fun _ => keeps_stage _

lemma commit_raises : KeepsWhenRaising Unchanged (Handler.commit : Handler Token Unit) := by
  intro w e v h
  cases hs : w.session.texts.any (fun text => !storable text) with
  | true =>
    rw [Handler.run_commit_error (Session.commit_unstorable hs)] at h
    cases h
    exact .refl _
  | false =>
    by_cases hc : w.session.work.Consistent
    · rw [Handler.run_commit_ok (Session.commit_ok hs hc)] at h
      cases h
    · rw [Handler.run_commit_error (Session.commit_inconsistent hs hc)] at h
      cases h
      exact ⟨⟨rfl, rfl, rfl⟩, rfl⟩

lemma commitOrConflict_raises :
    KeepsWhenRaising Unchanged (Handler.commitOrConflict : Handler Token Unit) := by
  intro w e v h
  change EStateM.tryCatch Handler.commit _ w = _ at h
  unfold EStateM.tryCatch at h
  cases hc : Handler.commit w with
  | ok a u =>
    rw [hc] at h
    cases h
  | error e' u =>
    have hu := commit_raises w e' u hc
    rw [hc] at h
    cases e' with
    | integrityError =>
      cases h
      exact hu
    | http | other =>
      cases h
      exact hu

lemma refresh_returns (w : World Token) :
    ∃ a v, (refreshRoutingCache E F kek select).run w = .ok a v := ⟨_, _, rfl⟩

lemma after_keeping {α β : Type} {x : Handler Token α} {f : α → Handler Token β}
    (hx : Keeps Unchanged x)
    (hf : ∀ a, KeepsWhenRaising Unchanged (f a)) : KeepsWhenRaising Unchanged (x >>= f) :=
  hx.bind_whenRaising Unchanged.trans hf

lemma commitOrConflict_refresh_raises :
    KeepsWhenRaising Unchanged (do Handler.commitOrConflict; refreshRoutingCache E F kek select) :=
  commitOrConflict_raises.bind fun _ => refresh_returns

lemma commit_refresh_raises :
    KeepsWhenRaising Unchanged (do Handler.commit; refreshRoutingCache E F kek select) :=
  commit_raises.bind fun _ => refresh_returns

variable (E F kek select) in
lemma route_raises (req : Request) : KeepsWhenRaising Unchanged (route E F kek select req) := by
  cases req with
  | createBackend payload r =>
    exact after_keeping (keeps_raiseIf _ _) fun _ =>
      after_keeping (keeps_validatedConfig _ _) fun _ =>
      after_keeping (keeps_encryptJson _ _) fun _ => after_keeping (keeps_stage _) fun _ =>
        commitOrConflict_refresh_raises
  | updateBackend id payload r =>
    exact after_keeping (keeps_raiseIf _ _) fun _ => after_keeping (keeps_getOr _ _ _ _) fun row =>
      after_keeping (keeps_assignName _ _) fun _ =>
        after_keeping (keeps_assignConfig _ _ _) fun _ =>
        commitOrConflict_refresh_raises
  | deleteBackend id =>
    exact after_keeping (keeps_getOr _ _ _ _) fun row => after_keeping (.get .refl) fun w =>
      after_keeping (keeps_raiseIf _ _) fun _ => after_keeping (keeps_stage _) fun _ =>
        commit_refresh_raises
  | createDomain payload r =>
    exact after_keeping (keeps_raiseIf _ _) fun _ => after_keeping (keeps_getOr _ _ _ _) fun row =>
      after_keeping (keeps_stage _) fun _ => commitOrConflict_refresh_raises
  | deleteDomain id | revokeTsigKey id =>
    exact after_keeping (keeps_getOr _ _ _ _) fun row => after_keeping (keeps_stage _) fun _ =>
      commit_refresh_raises
  | createTsigKey payload drawn r =>
    refine after_keeping (keeps_raiseIf _ _) fun _ => ?_
    cases algorithmFromText payload.algorithm with
    | none => exact (keeps_throw _).whenRaising
    | some a => exact after_keeping (keeps_stage _) fun _ => commitOrConflict_refresh_raises

lemma success_lt (req : Request) : req.success < 400 := by
  cases req <;> norm_num [Request.success, Status.ok, Status.created, Status.noContent]

/-- An answer of a 4xx status leaves the rows of the three tables and the snapshot of the cache as
they were. -/
theorem rejected_changes_nothing (E : Platform) (F : Fernet Key Token) (kek : Kek Key)
    (select : Tables Token → Option (Selected Token)) (req : Request) (site : Site Token)
    (h : 400 ≤ (serve E F kek select req site).1 ∧ (serve E F kek select req site).1 < 500) :
    SameRows site.db.tables (serve E F kek select req site).2.db.tables ∧
      (serve E F kek select req site).2.cache = site.cache := by
  have hr := route_raises E F kek select req ⟨.opened site.db, site.cache⟩
  rw [serve] at h ⊢
  cases hrun : (route E F kek select req).run ⟨.opened site.db, site.cache⟩ with
  | ok a w =>
    rw [hrun] at h
    exact absurd h.1 (not_le.mpr (success_lt req))
  | error e w =>
    have hu := hr e w hrun
    cases e with
    | http status => exact hu
    | integrityError | other => exact hu

def renamedAndInvalid : Request :=
  .updateBackend 1 ⟨some "renamed", some (Dict.ofList [("cleanup_placeholder", .bool true)])⟩ 0

def oneBackend : Database String :=
  ⟨(Write.addBackend "he" "hurricane" "{}").apply Database.empty.tables, by decide +kernel⟩

theorem renamedAndInvalid_changes_nothing : SameRows oneBackend.tables (serve asciiPlatform
      plainFernet sampleKek (fun _ => none) renamedAndInvalid ⟨oneBackend, some none⟩).2.db.tables ∧
    (serve asciiPlatform plainFernet sampleKek (fun _ => none) renamedAndInvalid ⟨oneBackend,
      some none⟩).2.cache = some none :=
  rejected_changes_nothing asciiPlatform plainFernet sampleKek (fun _ => none) renamedAndInvalid
    ⟨oneBackend, some none⟩ (by decide +kernel)

end Rejected

end Routes

end AstropathRelay.Api
