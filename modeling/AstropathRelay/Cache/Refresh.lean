import AstropathRelay.Cache.Loads
import Mathlib.Logic.Function.Basic

/-! Management writes and cache refreshes side by side: every commit, every lock acquisition and
every SELECT of a load is a step of its own. -/

namespace AstropathRelay.Cache

open Lib Lib.Results Dns DataPlane Providers Store Api

section State

inductive Loading (Token : Type)
  | start
  | keys (tsigKeys : List (TsigKeyRow Token))
  | backends (tsigKeys : List (TsigKeyRow Token)) (backends : List (BackendRow Token))
  | domains (tsigKeys : List (TsigKeyRow Token)) (backends : List (BackendRow Token))
      (domains : List (DomainRow Token))
  | read (rows : Selected Token)

inductive Loading.Next {Token : Type} (t : Tables Token) : Loading Token → Loading Token → Prop
  | keys {k : List (TsigKeyRow Token)} : k.Perm t.tsigKeys → Next t .start (.keys k)
  | backends {k : List (TsigKeyRow Token)} {b : List (BackendRow Token)} : b.Perm t.backends →
      Next t (.keys k) (.backends k b)
  | domains {k : List (TsigKeyRow Token)} {b : List (BackendRow Token)}
      {d : List (DomainRow Token)} : d.Perm t.domains → Next t (.backends k b) (.domains k b d)
  | read {k : List (TsigKeyRow Token)} {b : List (BackendRow Token)} {d : List (DomainRow Token)}
      {i : List (ℕ × String)} : i.Perm (t.tsigKeys.map (fun r => (r.id, r.name))) →
      Next t (.domains k b d) (.read ⟨k, b, d, i⟩)

inductive Task (Token : Type)
  | idle
  | prepared (req : Request) (w : Write Token)
  | refused
  | waiting (w : Option (Write Token))
  | loading (w : Option (Write Token)) (start : ℕ) (l : Loading Token)
  | done (w : Option (Write Token)) (refreshed : Bool)

structure Relay (Token : Type) where
  db : Database Token
  past : List (Database Token)
  tasks : ℕ → Task Token
  lock : Option ℕ
  last : Option ℕ
  snapshot : Option CacheSnapshot

variable {Token : Type}

namespace Relay

def initial (db : Database Token) : Relay Token := ⟨db, [], fun _ => .idle, none, none, none⟩

def states (σ : Relay Token) : List (Database Token) := σ.past ++ [σ.db]

def set (σ : Relay Token) (i : ℕ) (task : Task Token) : Relay Token :=
  { σ with tasks := Function.update σ.tasks i task }

def move (σ : Relay Token) (db : Database Token) : Relay Token :=
  { σ with db := db, past := σ.past ++ [σ.db] }

def keyring (σ : Relay Token) : Keyring := σ.snapshot.elim ∅ (fun s => s.runtime.keyring)

variable (σ : Relay Token) (i : ℕ) (task : Task Token) (db : Database Token)

@[grind =] lemma set_tasks (j : ℕ) : (σ.set i task).tasks j = if j = i then task else σ.tasks j :=
  Function.update_apply ..

@[simp] lemma set_self : (σ.set i task).tasks i = task := by simp [set_tasks]

@[simp, grind =] lemma set_db : (σ.set i task).db = σ.db := rfl
@[simp, grind =] lemma set_past : (σ.set i task).past = σ.past := rfl
@[simp, grind =] lemma set_lock : (σ.set i task).lock = σ.lock := rfl
@[simp, grind =] lemma set_last : (σ.set i task).last = σ.last := rfl
@[simp, grind =] lemma set_snapshot : (σ.set i task).snapshot = σ.snapshot := rfl
@[simp, grind =] lemma set_states : (σ.set i task).states = σ.states := rfl
@[simp, grind =] lemma move_db : (σ.move db).db = db := rfl
@[simp, grind =] lemma move_tasks : (σ.move db).tasks = σ.tasks := rfl
@[simp, grind =] lemma move_lock : (σ.move db).lock = σ.lock := rfl
@[simp, grind =] lemma move_last : (σ.move db).last = σ.last := rfl
@[simp, grind =] lemma move_snapshot : (σ.move db).snapshot = σ.snapshot := rfl
@[simp, grind =] lemma move_states : (σ.move db).states = σ.states ++ [db] := rfl

end Relay

inductive RelayEvent
  | prepare (i : ℕ) (req : Request)
  | commit (i : ℕ)
  | reject (i : ℕ)
  | startup (i : ℕ)
  | acquire (i : ℕ)
  | select (i : ℕ)
  | finish (i : ℕ)
  | fail (i : ℕ)

end State

section Steps

variable {Key Token : Type} (E : Platform) (F : Fernet Key Token) (kek : Kek Key)

/-- A load may fail at any SELECT; a refresh that fails releases the lock and is not seen by the
caller. -/
inductive RelayStep : Relay Token → RelayEvent → Relay Token → Prop
  | prepare {σ : Relay Token} {i : ℕ} {req : Request} {w : Write Token} : σ.tasks i = .idle →
      Api.prepare F kek σ.db req = .ok w → RelayStep σ (.prepare i req) (σ.set i (.prepared req w))
  | commit {σ : Relay Token} {i : ℕ} {req : Request} {w : Write Token} {db : Database Token} :
      σ.tasks i = .prepared req w → σ.db.commit w = some db →
      RelayStep σ (.commit i) ((σ.move db).set i (.waiting (some w)))
  | reject {σ : Relay Token} {i : ℕ} {req : Request} {w : Write Token} : σ.tasks i = .prepared req
      w → σ.db.commit w = none → RelayStep σ (.reject i) ((σ.move (σ.db.drawn w)).set i .refused)
  | startup {σ : Relay Token} {i : ℕ} : σ.tasks i = .idle →
      RelayStep σ (.startup i) (σ.set i (.waiting none))
  | acquire {σ : Relay Token} {i : ℕ} {w : Option (Write Token)} : σ.tasks i = .waiting w →
      σ.lock = none → RelayStep σ (.acquire i) { σ.set i (.loading w σ.past.length .start) with
      lock := some i, last := some i }
  | select {σ : Relay Token} {i n : ℕ} {w : Option (Write Token)} {l l' : Loading Token} : σ.tasks
      i = .loading w n l → l.Next σ.db.tables l' →
      RelayStep σ (.select i) (σ.set i (.loading w n l'))
  | swap {σ : Relay Token} {i n : ℕ} {w : Option (Write Token)} {rows : Selected Token}
      {s : CacheSnapshot} : σ.tasks i = .loading w n (.read rows) → load E F kek rows = .ok s →
      RelayStep σ (.finish i) { σ.set i (.done w true) with lock := none, snapshot := some s }
  | raise {σ : Relay Token} {i n : ℕ} {w : Option (Write Token)} {rows : Selected Token}
      {e : LoadError} : σ.tasks i = .loading w n (.read rows) → load E F kek rows = .error e →
      RelayStep σ (.finish i) { σ.set i (.done w false) with lock := none }
  | fail {σ : Relay Token} {i n : ℕ} {w : Option (Write Token)} {l : Loading Token} : σ.tasks i =
      .loading w n l → RelayStep σ (.fail i) { σ.set i (.done w false) with lock := none }

def relay : System (Relay Token) RelayEvent :=
  ⟨fun σ => ∃ reqs db, (api F kek).Run reqs db ∧ σ = Relay.initial db, RelayStep E F kek⟩

end Steps

end AstropathRelay.Cache
