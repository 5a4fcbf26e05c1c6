import AstropathRelay.Api.Routes

/-! The statements of a write route, run one after the other on their session, answer and commit
what `handle` says of the request as a whole. -/

namespace AstropathRelay.Api

open Lib Lib.ByteStrings DataPlane Providers Store Cache

variable {Key Token : Type}

def Raised.status : Raised → ℕ
  | .http status => status
  | .integrityError => Status.serverError
  | .other => Status.serverError

namespace Routes

section Refines

variable {E : Platform} {F : Fernet Key Token} {kek : Kek Key}
  {select : Tables Token → Option (Selected Token)}
variable {db : Database Token} {cache : Option (Option CacheSnapshot)} {success : ℕ}

lemma run_bind_error {α β : Type} {x : Handler Token α} {f : α → Handler Token β}
    {w v : World Token} {e : Raised} (h : x.run w = .error e v) : (x >>= f).run w = .error e v := by
  rw [EStateM.run_bind, h]

lemma run_bind_ok {α β : Type} {x : Handler Token α} {f : α → Handler Token β} {w v : World Token}
    {a : α} (h : x.run w = .ok a v) : (x >>= f).run w = (f a).run v := by
  rw [EStateM.run_bind, h]

lemma drawFrom_apply (w : Write Token) : drawFrom db (w.apply db.tables) = db.drawn w := by
  cases w <;> simp [drawFrom, Write.apply, Database.drawn]

def seen (success : ℕ) (r : EStateM.Result Raised (World Token) Unit) : ℕ × Database Token :=
  ((answer success r).1, (answer success r).2.db)

lemma seen_error (e : Raised) (w : World Token) :
    seen success (.error e w) = (e.status, w.session.db) := by
  cases e <;> rfl

def settled (success failure : ℕ) (db : Database Token) (w : Write Token) : ℕ × Database Token :=
  (db.commit w).elim (failure, db.drawn w) (fun db' => (success, db'))

def outcome (success failure : ℕ) (db : Database Token) : Except ℕ (Write Token) →
    ℕ × Database Token
  | .error status => (status, db)
  | .ok w => settled success failure db w

lemma handle_eq_outcome (req : Request) :
    handle F kek db req = outcome req.success req.failure db (prepare F kek db req) := by
  rw [handle]
  cases prepare F kek db req with
  | error status => rfl
  | ok w => cases hc : db.commit w <;> simp [outcome, settled, hc]

variable (cache) in
lemma run_commit {w : Write Token} {texts : List String} (ht : w.Targets db.tables)
    (hs : texts.any (fun text => !storable text) = false) :
    (∃ db', db.commit w = some db' ∧
      Handler.commit.run ⟨⟨db, w.apply db.tables, texts⟩, cache⟩ = .ok () ⟨.opened db', cache⟩) ∨
    db.commit w = none ∧ Handler.commit.run ⟨⟨db, w.apply db.tables, texts⟩, cache⟩ =
      .error .integrityError ⟨⟨db.drawn w, w.apply db.tables, texts⟩, cache⟩ := by
  by_cases hc : (w.apply db.tables).Consistent
  · exact .inl ⟨⟨w.apply db.tables, hc⟩, dif_pos ⟨ht, hc⟩,
      Handler.run_commit_ok (Session.commit_ok hs hc)⟩
  · refine .inr ⟨dif_neg fun h => hc h.2, ?_⟩
    rw [← drawFrom_apply]
    exact Handler.run_commit_error (Session.commit_inconsistent hs hc)

lemma run_commit_unstorable {work : Tables Token} {texts : List String}
    (hs : texts.any (fun text => !storable text) = true) :
    Handler.commit.run ⟨⟨db, work, texts⟩, cache⟩ = .error .other ⟨⟨db, work, texts⟩, cache⟩ :=
  Handler.run_commit_error (Session.commit_unstorable hs)

lemma run_commitOrConflict_ok {w v : World Token} (h : Handler.commit.run w = .ok () v) :
    Handler.commitOrConflict.run w = .ok () v := by
  change EStateM.tryCatch Handler.commit _ w = _
  unfold EStateM.tryCatch
  change Handler.commit w = _ at h
  rw [h]

lemma run_commitOrConflict_integrity {w v : World Token}
    (h : Handler.commit.run w = .error .integrityError v) : Handler.commitOrConflict.run w =
    .error (.http Status.conflict) { v with session := v.session.rollback } := by
  change EStateM.tryCatch Handler.commit _ w = _
  unfold EStateM.tryCatch
  change Handler.commit w = _ at h
  rw [h]
  rfl

lemma run_commitOrConflict_other {w v : World Token} (h : Handler.commit.run w = .error .other v) :
    Handler.commitOrConflict.run w = .error .other v := by
  change EStateM.tryCatch Handler.commit _ w = _
  unfold EStateM.tryCatch
  change Handler.commit w = _ at h
  rw [h]
  rfl

def Performs (success failure : ℕ) (db : Database Token) (w : World Token) (x : Handler Token Unit)
    (p : Except ℕ (Write Token)) : Prop :=
  seen success (x.run w) = outcome success failure db p

lemma run_raiseIf_true {c : Bool} (e : Raised) (w : World Token) (h : c = true) :
    (Handler.raiseIf c e).run w = .error e w := by
  subst h
  rfl

lemma run_raiseIf_false {c : Bool} (e : Raised) (w : World Token) (h : c = false) :
    (Handler.raiseIf c e).run w = .ok () w := by
  subst h
  rfl

section GetOr

variable {Row : Type} (rows : Tables Token → List Row) (idOf : Row → ℕ) {id : ℤ} {w : World Token}

lemma run_getOr_range (status : ℕ) (h : inInt32 id = false) :
    (Handler.getOr rows idOf id status).run w = .error .other w := by
  have hr : (Handler.get rows idOf id).run w = .error .other w :=
    run_bind_error (run_raiseIf_true .other w (by rw [h]; rfl))
  exact run_bind_error hr

lemma run_get (h : inInt32 id = true) : (Handler.get rows idOf id).run w =
    .ok ((rows w.session.work).find? (fun r => (idOf r : ℤ) = id)) w :=
  run_bind_ok (run_raiseIf_false (c := !inInt32 id) _ w (by rw [h]; rfl))

lemma run_getOr_none (status : ℕ) (h : inInt32 id = true)
    (hn : (rows w.session.work).find? (fun r => (idOf r : ℤ) = id) = none) :
    (Handler.getOr rows idOf id status).run w = .error (.http status) w := by
  unfold Handler.getOr
  rw [run_bind_ok (run_get rows idOf h), hn]
  rfl

lemma run_getOr_some {row : Row} (status : ℕ) (h : inInt32 id = true)
    (hs : (rows w.session.work).find? (fun r => (idOf r : ℤ) = id) = some row) :
    (Handler.getOr rows idOf id status).run w = .ok row w := by
  unfold Handler.getOr
  rw [run_bind_ok (run_get rows idOf h), hs]
  rfl

end GetOr

section Rules

variable {failure : ℕ} {w v : World Token} {x : Handler Token Unit} {p : Except ℕ (Write Token)}
  {e : Raised}
variable {α : Type} {y : Handler Token α} {f : α → Handler Token Unit}

lemma Performs.of_error (h : x.run w = .error e v) (hv : v.session.db = db)
    (hp : p = .error e.status) : Performs success failure db w x p := by
  unfold Performs
  rw [h, seen_error, hv, hp]
  rfl

lemma performs_bind_error (h : y.run w = .error e v) (hv : v.session.db = db)
    (hp : p = .error e.status) : Performs success failure db w (y >>= f) p :=
  .of_error (run_bind_error h) hv hp

lemma performs_bind_ok {a : α} (h : y.run w = .ok a v)
    (hf : Performs success failure db v (f a) p) : Performs success failure db w (y >>= f) p :=
  (congrArg (seen success) (run_bind_ok h)).trans hf

lemma performs_raiseIf {c : Bool} (hw : w.session.db = db) (ht : c = true → p = .error e.status)
    (hf : c = false → Performs success failure db w x p) :
    Performs success failure db w (Handler.raiseIf c e >>= fun _ => x) p := by
  cases c with
  | true => exact performs_bind_error rfl hw (ht rfl)
  | false => exact performs_bind_ok rfl (hf rfl)

lemma performs_getOr {Row : Type} {rows : Tables Token → List Row} {idOf : Row → ℕ} {id : ℤ}
    {status : ℕ} {f : Row → Handler Token Unit}
    (hrange : inInt32 id = false → p = .error Status.serverError) (hnone : inInt32 id = true →
      (rows db.tables).find? (fun r => (idOf r : ℤ) = id) = none → p = .error status)
    (hsome : ∀ row, inInt32 id = true → (rows db.tables).find? (fun r => (idOf r : ℤ) = id) =
      some row → Performs success failure db ⟨.opened db, cache⟩ (f row) p) : Performs success
    failure db ⟨.opened db, cache⟩ (Handler.getOr rows idOf id status >>= f) p := by
  cases hid : inInt32 id with
  | false => exact performs_bind_error (run_getOr_range rows idOf status hid) rfl (hrange hid)
  | true =>
    cases hrow : (rows db.tables).find? (fun r => (idOf r : ℤ) = id) with
    | none =>
      exact performs_bind_error (run_getOr_none rows idOf status hid hrow) rfl (hnone hid hrow)
    | some row =>
      exact performs_bind_ok (run_getOr_some rows idOf status hid hrow) (hsome row hid hrow)

lemma performs_commitOrConflict {write : Write Token} {texts : List String}
    (ht : write.Targets db.tables)
    (hs : texts.any (fun text => !storable text) = true → p = .error Status.serverError)
    (hp : texts.any (fun text => !storable text) = false → p = .ok write) :
    Performs success Status.conflict db ⟨⟨db, write.apply db.tables, texts⟩,
      cache⟩ (do Handler.commitOrConflict; refreshRoutingCache E F kek select) p := by
  cases hu : texts.any (fun text => !storable text) with
  | true =>
    exact performs_bind_error (run_commitOrConflict_other (run_commit_unstorable hu)) rfl (hs hu)
  | false =>
    rw [hp hu, Performs, outcome, settled]
    rcases run_commit cache ht hu with ⟨db', hc, hr⟩ | ⟨hc, hr⟩
    · rw [run_bind_ok (run_commitOrConflict_ok hr), hc]
      rfl
    · rw [run_bind_error (run_commitOrConflict_integrity hr), hc]
      rfl

lemma performs_commit {write : Write Token} {texts : List String} (ht : write.Targets db.tables)
    (hs : texts.any (fun text => !storable text) = false) (hp : p = .ok write) :
    Performs success Status.serverError db ⟨⟨db, write.apply db.tables, texts⟩, cache⟩
      (do Handler.commit; refreshRoutingCache E F kek select) p := by
  rw [hp, Performs, outcome, settled]
  rcases run_commit cache ht hs with ⟨db', hc, hr⟩ | ⟨hc, hr⟩
  · rw [run_bind_ok hr, hc]
    rfl
  · rw [run_bind_error hr, hc]
    rfl

end Rules

section Routes

variable (E F kek select db cache)

lemma performs_deleteDomain (id : ℤ) : Performs Status.noContent Status.serverError db ⟨.opened db,
      cache⟩ (deleteDomain E F kek select id) (Api.deleteDomain db id) := by
  unfold deleteDomain Api.deleteDomain
  refine performs_getOr (fun hid => if_pos (by simp [hid])) (fun hid hnone => ?_)
    (fun row hid hrow => ?_)
  · rw [if_neg (by simp [hid]), Database.domain?, hnone]
  · rw [if_neg (by simp [hid]), Database.domain?, hrow]
    exact performs_bind_ok
      rfl (performs_commit (List.mem_map_of_mem (List.mem_of_find?_eq_some hrow)) rfl rfl)

lemma performs_revokeTsigKey (id : ℤ) : Performs Status.noContent Status.serverError db ⟨.opened db,
      cache⟩ (revokeTsigKey E F kek select id) (Api.revokeTsigKey db id) := by
  unfold revokeTsigKey Api.revokeTsigKey
  refine performs_getOr (fun hid => if_pos (by simp [hid])) (fun hid hnone => ?_)
    (fun row hid hrow => ?_)
  · rw [if_neg (by simp [hid]), Database.tsigKey?, hnone]
  · rw [if_neg (by simp [hid]), Database.tsigKey?, hrow]
    exact performs_bind_ok
      rfl (performs_commit (List.mem_map_of_mem (List.mem_of_find?_eq_some hrow)) rfl rfl)

lemma performs_deleteBackend (id : ℤ) : Performs Status.noContent Status.serverError db ⟨.opened db,
      cache⟩ (deleteBackend E F kek select id) (Api.deleteBackend db id) := by
  unfold deleteBackend Api.deleteBackend
  refine performs_getOr (fun hid => if_pos (by simp [hid])) (fun hid hnone => ?_)
    (fun row hid hrow => ?_)
  · rw [if_neg (by simp [hid]), Database.backend?, hnone]
  · rw [if_neg (by simp [hid]), Database.backend?, hrow]
    refine performs_bind_ok (EStateM.run_get _) ?_
    refine performs_raiseIf rfl (fun href => if_pos href) (fun href => ?_)
    exact performs_bind_ok rfl (performs_commit (List.mem_map_of_mem
      (List.mem_of_find?_eq_some hrow)) rfl (if_neg (Bool.eq_false_iff.mp href)))

lemma performs_createDomain (payload : DomainCreate) (r : ℕ) :
    Performs Status.created Status.conflict db ⟨.opened db,
      cache⟩ (createDomain E F kek select payload r) (Api.createDomain F kek db payload r) := by
  unfold createDomain Api.createDomain
  refine performs_raiseIf rfl (fun hl => if_pos (by simpa using hl)) (fun hl => ?_)
  rw [if_neg (by simpa using hl)]
  refine performs_getOr (fun hid => if_pos (by simp [hid])) (fun hid hnone => ?_)
    (fun row hid hrow => ?_)
  · rw [if_neg (by simp [hid]), Database.backend?, hnone]
  · rw [if_neg (by simp [hid]), Database.backend?, hrow]
    exact performs_bind_ok rfl (performs_commitOrConflict trivial
      (fun hs => if_pos (by simpa [Session.opened, Session.textsOf] using hs)) fun hs =>
      if_neg (by simpa [Session.opened, Session.textsOf] using hs))

lemma performs_createTsigKey (payload : TsigKeyCreate) (drawn : Octets) (r : ℕ) :
    Performs Status.created Status.conflict db ⟨.opened db, cache⟩
      (createTsigKey E F kek select payload drawn r) (Api.createTsigKey F kek payload drawn r) := by
  unfold createTsigKey Api.createTsigKey
  refine performs_raiseIf rfl (fun hl => if_pos hl) (fun hl => ?_)
  rw [if_neg (by simp [hl])]
  cases algorithmFromText payload.algorithm with
  | none => exact .of_error rfl rfl rfl
  | some a =>
    exact performs_bind_ok rfl (performs_commitOrConflict trivial
      (fun hs => if_pos (by simpa [Session.opened, Session.textsOf] using hs)) fun hs =>
      if_neg (by simpa [Session.opened, Session.textsOf] using hs))

variable {E F kek select db cache}

variable (F kek) in
lemma run_config {α : Type} {type : String} {provider : ProviderType}
    (hp : getProvider type = some provider)
    (config : Config) (r : ℕ) (w : World Token) (f : Token → Handler Token α) :
    (∃ token, encryptedConfig F kek provider config r = .ok token ∧
      (do
        let config ← validatedConfig type config
        let token ← encryptJson F kek config r
        f token).run w =
        (f token).run w) ∨
    (∃ e : Raised, encryptedConfig F kek provider config r = .error e.status ∧
      (do
        let config ← validatedConfig type config
        let token ← encryptJson F kek config r
        f token).run w =
        .error e w) := by
  unfold validatedConfig encryptedConfig
  rw [hp]
  cases hm : modelValidate provider config with
  | error e =>
    refine .inr ⟨.http Status.unprocessable, rfl, ?_⟩
    simp only [hm]
    rfl
  | ok model =>
    simp only [hm]
    cases ht : SecretCodec.encryptJson F kek r (modelDump model) with
    | error e =>
      refine .inr ⟨.other, rfl, ?_⟩
      unfold encryptJson
      simp only [pure_bind, ht]
      rfl
    | ok token =>
      refine .inl ⟨token, rfl, ?_⟩
      unfold encryptJson
      simp only [pure_bind, ht]

variable (E F kek select db cache) in
lemma performs_createBackend (payload : BackendCreate) (r : ℕ) :
    Performs Status.created Status.conflict db ⟨.opened db,
      cache⟩ (createBackend E F kek select payload r) (Api.createBackend F kek payload r) := by
  unfold createBackend Api.createBackend
  refine performs_raiseIf rfl (fun hl => if_pos (by simpa using hl)) (fun hl => ?_)
  rw [if_neg (by simpa using hl)]
  cases hty : getProvider payload.type with
  | none =>
    refine .of_error (e := .http Status.unprocessable) (v := ⟨.opened db, cache⟩) ?_ rfl rfl
    unfold validatedConfig
    rw [hty]
    rfl
  | some provider =>
    rcases run_config F kek hty payload.config r ⟨.opened db, cache⟩ (fun token => do
      Handler.stage (.addBackend payload.name payload.type token)
      Handler.commitOrConflict
      refreshRoutingCache E F kek select) with ⟨token, htok, hrun⟩ | ⟨e, htok, hrun⟩
    · rw [Performs, hrun]
      refine performs_bind_ok rfl (performs_commitOrConflict trivial (fun hs => ?_) fun hs => ?_)
      · simp only [htok]
        exact if_pos (by simpa [Session.opened, Session.textsOf] using hs)
      · simp only [htok]
        exact if_neg (by simpa [Session.opened, Session.textsOf] using hs)
    · exact .of_error hrun rfl (by simp only [htok]; rfl)

lemma setRow_none (id : ℕ) (r : BackendRow Token) : Write.setRow id none none r = r := by
  unfold Write.setRow
  split <;> rfl

lemma setRow_setRow (id : ℕ) (name : Option String) (token : Option Token) (r : BackendRow Token) :
    Write.setRow id none token (Write.setRow id name none r) = Write.setRow id name token r := by
  unfold Write.setRow
  by_cases hid : r.id = id <;> simp [hid]

lemma apply_assignments (id : ℕ) (name : Option String) (token : Option Token) (t : Tables Token) :
    (Write.setBackend id none token).apply ((Write.setBackend id name none).apply t) =
      (Write.setBackend id name token).apply t := by
  simp only [Write.apply, List.map_map]
  congr 1
  exact List.map_congr_left fun r _ => setRow_setRow id name token r

lemma apply_nothing (id : ℕ) (t : Tables Token) : (Write.setBackend id none none).apply t = t := by
  have hrows : t.backends.map (Write.setRow id none none) = t.backends := by
    rw [funext (setRow_none id), List.map_id']
  simp only [Write.apply, hrows]

lemma run_assignName (id : ℕ) (name : Option String) :
    (assignName id name).run ⟨.opened db, cache⟩ =
      .ok () ⟨⟨db, (Write.setBackend id name none).apply db.tables, name.toList⟩, cache⟩ := by
  cases name with
  | none => rw [apply_nothing]; rfl
  | some name => rfl

variable (F kek db cache) in
lemma run_assignConfig (row : BackendRow Token) (config : Option Config) (r : ℕ)
    (work : Tables Token)
    (texts : List String) : (∃ token, patchedConfig F kek row.type config r = .ok token ∧
      (assignConfig F kek row config r).run ⟨⟨db, work, texts⟩, cache⟩ =
      .ok () ⟨⟨db, (Write.setBackend row.id none token).apply work, texts⟩, cache⟩) ∨
    (∃ e : Raised, patchedConfig F kek row.type config r = .error e.status ∧
      (assignConfig F kek row config r).run ⟨⟨db, work, texts⟩, cache⟩ =
      .error e ⟨⟨db, work, texts⟩, cache⟩) := by
  unfold patchedConfig
  cases config with
  | none => exact .inl ⟨none, rfl, by rw [apply_nothing]; rfl⟩
  | some config =>
    cases hty : getProvider row.type with
    | none =>
      refine .inr ⟨.http Status.unprocessable, rfl, ?_⟩
      unfold assignConfig validatedConfig
      simp only [hty]
      rfl
    | some p =>
      rcases run_config F kek hty config r ⟨⟨db, work, texts⟩, cache⟩ (fun token =>
        Handler.stage (.setBackend row.id none (some token))) with ⟨token, htok, hrun⟩ |
          ⟨e, htok, hrun⟩
      · refine .inl ⟨some token, by simp only [htok]; rfl, hrun.trans ?_⟩
        simp [Handler.stage, Session.stage, Session.textsOf]
      · exact .inr ⟨e, by simp only [htok]; rfl, hrun⟩

lemma performs_updateBackend (id : ℤ) (payload : BackendUpdate) (r : ℕ) :
    Performs Status.ok Status.conflict db ⟨.opened db, cache⟩
      (updateBackend E F kek select id payload r) (Api.updateBackend F kek db id payload r) := by
  unfold updateBackend Api.updateBackend
  refine performs_raiseIf rfl (fun hl => if_pos hl) (fun hl => ?_)
  rw [if_neg (by simp [hl])]
  refine performs_getOr (fun hid => if_pos (by simp [hid])) (fun hid hnone => ?_)
    (fun row hid hrow => ?_)
  · rw [if_neg (by simp [hid]), Database.backend?, hnone]
  · rw [if_neg (by simp [hid]), Database.backend?, hrow]
    refine performs_bind_ok (run_assignName row.id payload.name) ?_
    rcases run_assignConfig F kek db cache row payload.config r
      ((Write.setBackend row.id payload.name none).apply db.tables) payload.name.toList
      with ⟨token, htok, hrun⟩ | ⟨e, htok, hrun⟩
    · refine performs_bind_ok hrun ?_
      have htexts : payload.name.toList.any (fun text => !storable text) =
          payload.name.any (fun n => !storable n) := by
        cases payload.name <;> simp
      rw [apply_assignments]
      refine performs_commitOrConflict (List.mem_map_of_mem (List.mem_of_find?_eq_some hrow))
        (fun hs => ?_) fun hs => ?_
      · simp only [htok]
        exact if_pos (htexts.symm.trans hs)
      · simp only [htok]
        exact if_neg (Bool.eq_false_iff.mp (htexts.symm.trans hs))
    · exact performs_bind_error hrun rfl (by simp only [htok]; rfl)

lemma performs_route (req : Request) : Performs req.success req.failure db ⟨.opened db,
      cache⟩ (route E F kek select req) (prepare F kek db req) := by
  cases req with
  | createBackend payload r => exact performs_createBackend E F kek select db cache payload r
  | updateBackend id payload r => exact performs_updateBackend id payload r
  | deleteBackend id => exact performs_deleteBackend E F kek select db cache id
  | createDomain payload r => exact performs_createDomain E F kek select db cache payload r
  | deleteDomain id => exact performs_deleteDomain E F kek select db cache id
  | createTsigKey payload drawn r =>
    exact performs_createTsigKey E F kek select db cache payload drawn r
  | revokeTsigKey id => exact performs_revokeTsigKey E F kek select db cache id

/-- The statements of a route answer and commit what `handle` says of the request as a whole. -/
theorem serve_refines (E : Platform) (F : Fernet Key Token) (kek : Kek Key)
    (select : Tables Token → Option (Selected Token)) (req : Request) (site : Site Token) :
    ((serve E F kek select req site).1, (serve E F kek select req site).2.db) =
      handle F kek site.db req := by
  rw [handle_eq_outcome]
  exact performs_route req

end Routes

end Refines

end Routes

end AstropathRelay.Api
