import AstropathRelay.Api.Management
import AstropathRelay.Cache.Loader
import AstropathRelay.Lib.Actions

/-! One request and its database session: what the session has changed is seen by others from its
commit on, and dropped by a rollback or when it closes. -/

namespace AstropathRelay.Api

open Lib DataPlane Providers Store Cache

variable {Key Token : Type}

inductive Raised
  | http (status : ℕ)
  | integrityError
  | other
deriving DecidableEq

structure Session (Token : Type) where
  db : Database Token
  work : Tables Token
  texts : List String
deriving DecidableEq

-- The numbers that failed statements have drawn stay drawn.
def drawFrom (db : Database Token) (work : Tables Token) : Database Token :=
  ⟨{ db.tables with
      backendSeq := max db.tables.backendSeq work.backendSeq
      domainSeq := max db.tables.domainSeq work.domainSeq
      tsigKeySeq := max db.tables.tsigKeySeq work.tsigKeySeq },
    { db.consistent with
      backendSeq := fun r hr => (db.consistent.backendSeq r hr).trans (le_max_left _ _)
      domainSeq := fun d hd => (db.consistent.domainSeq d hd).trans (le_max_left _ _)
      tsigKeySeq := fun k hk => (db.consistent.tsigKeySeq k hk).trans (le_max_left _ _) }⟩

namespace Session

def opened (db : Database Token) : Session Token := ⟨db, db.tables, []⟩

def textsOf : Write Token → List String
  | .addBackend name _ _ => [name]
  | .setBackend _ name _ => name.toList
  | .addDomain zone _ recordName _ => [zone, recordName]
  | .addTsigKey name _ _ => [name]
  | .dropBackend _ | .dropDomain _ | .dropTsigKey _ => []

def stage (s : Session Token) (w : Write Token) : Session Token :=
  { s with work := w.apply s.work, texts := s.texts ++ textsOf w }

def rollback (s : Session Token) : Session Token := .opened s.db

def commit : EStateM Raised (Session Token) Unit := fun s =>
  if s.texts.any (fun text => !storable text) then .error .other s
  else if h : s.work.Consistent then .ok () (.opened ⟨s.work, h⟩)
  else .error .integrityError { s with db := drawFrom s.db s.work }

lemma commit_unstorable {s : Session Token} (hs : s.texts.any (fun text => !storable text) = true) :
    commit.run s = .error .other s :=
  if_pos hs

lemma commit_ok {s : Session Token} (hs : s.texts.any (fun text => !storable text) = false)
    (hc : s.work.Consistent) : commit.run s = .ok () (.opened ⟨s.work, hc⟩) := by
  change commit s = _
  rw [commit]
  rw [if_neg (by simp [hs]), dif_pos hc]

lemma commit_inconsistent {s : Session Token}
    (hs : s.texts.any (fun text => !storable text) = false) (hc : ¬ s.work.Consistent) :
    commit.run s = .error .integrityError { s with db := drawFrom s.db s.work } := by
  change commit s = _
  rw [commit]
  rw [if_neg (by simp [hs]), dif_neg hc]

end Session

structure Site (Token : Type) where
  db : Database Token
  cache : Option (Option CacheSnapshot)

structure World (Token : Type) where
  session : Session Token
  cache : Option (Option CacheSnapshot)

abbrev Handler (Token α : Type) := EStateM Raised (World Token) α

namespace Handler

def stage (w : Write Token) : Handler Token Unit :=
  modify fun s => { s with session := s.session.stage w }

def rollback : Handler Token Unit := modify fun s => { s with session := s.session.rollback }

def commit : Handler Token Unit := fun w =>
  match Session.commit.run w.session with
  | .ok () session => .ok () { w with session := session }
  | .error e session => .error e { w with session := session }

lemma run_commit_ok {w : World Token} {session : Session Token}
    (h : Session.commit.run w.session = .ok () session) :
    commit.run w = .ok () { w with session := session } := by
  change commit w = _
  rw [commit]
  rw [h]

lemma run_commit_error {w : World Token} {e : Raised} {session : Session Token}
    (h : Session.commit.run w.session = .error e session) :
    commit.run w = .error e { w with session := session } := by
  change commit w = _
  rw [commit]
  rw [h]

def raiseIf (c : Bool) (e : Raised) : Handler Token Unit := if c then throw e else pure ()

/-- `session.get` by primary key; the driver refuses an integer that is no `int4`. -/
def get {Row : Type} (rows : Tables Token → List Row) (idOf : Row → ℕ)
    (id : ℤ) : Handler Token (Option Row) := do
  raiseIf (!inInt32 id) .other
  return (rows (← MonadState.get).session.work).find? (fun r => (idOf r : ℤ) = id)

def getOr {Row : Type} (rows : Tables Token → List Row) (idOf : Row → ℕ) (id : ℤ)
    (status : ℕ) : Handler Token Row := do
  match ← get rows idOf id with
  | some row => return row
  | none => throw (.http status)

def commitOrConflict : Handler Token Unit :=
  tryCatch commit fun e =>
    match e with
    | .integrityError => do
      rollback
      throw (.http Status.conflict)
    | e => throw e

end Handler

end AstropathRelay.Api
