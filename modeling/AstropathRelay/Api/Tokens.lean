import AstropathRelay.Api.Management
import AstropathRelay.Lib.Runs

/-! API tokens: minting, listing, revoking and checking them, each request from one await to the
next. -/

namespace AstropathRelay.Api.Tokens

open Lib

-- Times are microseconds.
structure ApiToken where
  id : ℕ
  name : String
  tokenHash : String
  createdAt : ℕ
  lastUsedAt : Option ℕ
deriving DecidableEq

structure ApiTokenRead where
  id : ℕ
  name : String
  createdAt : ℕ
  lastUsedAt : Option ℕ
deriving DecidableEq

def ApiToken.read (r : ApiToken) : ApiTokenRead := ⟨r.id, r.name, r.createdAt, r.lastUsedAt⟩

inductive Answer
  | created (token : ApiTokenRead) (plaintext : String)
  | listed (tokens : List ApiTokenRead)
  | revoked
  | valid (result : Bool)
  | status (code : ℕ)
  | raised
deriving DecidableEq

inductive Phase
  | idle
  | refreshing (id : ℕ) (plaintext : String)
  | deleting (id : ℕ)
  | stamping (key : String) (id : ℕ) (seen : Option ℕ)
  | answered (a : Answer)
deriving DecidableEq

def Answer.shows : Answer → Option (ℕ × String)
  | created token plaintext => some (token.id, plaintext)
  | _ => none

def Phase.holds : Phase → Option (ℕ × String)
  | refreshing id plaintext => some (id, plaintext)
  | answered a => a.shows
  | _ => none

/-- `minted` and `revoked` are history: the tokens whose INSERT has committed, and the ids whose
DELETE has. -/
structure Desk where
  now : ℕ := 0
  rows : List ApiToken := []
  seq : ℕ := 0
  phase : ℕ → Phase := fun _ => .idle
  minted : List (ℕ × String) := []
  revoked : List ℕ := []

inductive Event
  | tick (now : ℕ)
  | create (i : ℕ) (name drawn : String)
  | refresh (i : ℕ)
  | list (i : ℕ)
  | get (i : ℕ) (tokenId : ℤ)
  | delete (i : ℕ)
  | select (i : ℕ) (key : String)
  | stamp (i : ℕ)
deriving DecidableEq

section Requests

variable (hashToken : String → String)

namespace Desk

def goto (s : Desk) (i : ℕ) (p : Phase) : Desk := { s with phase := Function.update s.phase i p }

def answer (s : Desk) (i : ℕ) (a : Answer) : Desk := s.goto i (.answered a)

def buildApiToken (s : Desk) (name drawn : String) : ApiToken :=
  ⟨s.seq + 1, name, hashToken drawn, s.now, none⟩

def insert (s : Desk) (i : ℕ) (name drawn : String) : Desk :=
  { s.goto i (.refreshing (s.seq + 1) drawn) with
    rows := s.rows ++ [s.buildApiToken hashToken name drawn]
    seq := s.seq + 1
    minted := s.minted ++ [(s.seq + 1, drawn)] }

def create (s : Desk) (i : ℕ) (name drawn : String) : Desk :=
  if !lengthOk name then s.answer i (.status Status.unprocessable)
  else if !storable name then s.answer i .raised
  else if hashToken drawn ∈ s.rows.map ApiToken.tokenHash then
    { s.answer i .raised with seq := s.seq + 1 }
  else s.insert hashToken i name drawn

def row? (s : Desk) (id : ℕ) : Option ApiToken := s.rows.find? (fun r => r.id = id)

def refresh (s : Desk) (i id : ℕ) (plaintext : String) : Desk :=
  match s.row? id with
  | some row => s.answer i (.created row.read plaintext)
  | none => s.answer i .raised

def get (s : Desk) (i : ℕ) (tokenId : ℤ) : Desk :=
  if !inInt32 tokenId then s.answer i .raised
  else match s.rows.find? (fun r => (r.id : ℤ) = tokenId) with
    | some row => s.goto i (.deleting row.id)
    | none => s.answer i (.status Status.notFound)

-- A DELETE that matches no row any more is no error.
def delete (s : Desk) (i id : ℕ) : Desk :=
  { s.answer i .revoked with
    rows := s.rows.filter (fun r => r.id ≠ id), revoked := s.revoked ++ [id] }

def select (s : Desk) (i : ℕ) (key : String) : Desk :=
  match s.rows.find? (fun r => r.tokenHash = hashToken key) with
  | some row => s.goto i (.stamping key row.id row.lastUsedAt)
  | none => s.answer i (.valid false)

def setUsed (now id : ℕ) (r : ApiToken) : ApiToken :=
  if r.id = id then { r with lastUsedAt := some now } else r

/-- The commit sends no UPDATE for an unchanged value, and raises where its UPDATE matches no row.
-/
def stamp (s : Desk) (i id : ℕ) (seen : Option ℕ) : Desk :=
  if seen = some s.now then s.answer i (.valid true)
  else if id ∈ s.rows.map ApiToken.id then
    { s.answer i (.valid true) with rows := s.rows.map (setUsed s.now id) }
  else s.answer i .raised

def next (s : Desk) : Event → Option Desk
  | .tick now => if s.now ≤ now then some { s with now := now } else none
  | .create i name drawn =>
    if s.phase i = .idle then some (s.create hashToken i name drawn) else none
  | .refresh i =>
    match s.phase i with
    | .refreshing id plaintext => some (s.refresh i id plaintext)
    | _ => none
  | .list i => if s.phase i = .idle then some (s.answer i (.listed (s.rows.map ApiToken.read)))
      else none
  | .get i tokenId => if s.phase i = .idle then some (s.get i tokenId) else none
  | .delete i =>
    match s.phase i with
    | .deleting id => some (s.delete i id)
    | _ => none
  | .select i key => if s.phase i = .idle then some (s.select hashToken i key) else none
  | .stamp i =>
    match s.phase i with
    | .stamping _ id seen => some (s.stamp i id seen)
    | _ => none

end Desk

def desk : System Desk Event := .deterministic (· = {}) (Desk.next hashToken)

def Live (s : Desk) (key : String) : Prop :=
  ∃ id plaintext, (id, plaintext) ∈ s.minted ∧ hashToken plaintext = hashToken key ∧ id ∉ s.revoked

/-- What a check of a key answers, against the tokens of the moment: a SELECT that finds nothing
refuses a key that is not live, and a commit lets the key pass if its token has not been revoked by
then. A commit in the very microsecond of the last use sends nothing to the database and always
passes. -/
structure Linearized (s : Desk) : Prop where
  select : ∀ i key s', s.next hashToken (.select i key) = some s' →
    s'.phase i = .answered (.valid false) ∧ ¬ Live hashToken s key ∨
      Live hashToken s key ∧ ∃ id seen, s'.phase i = .stamping key id seen
  stamp : ∀ i key id seen s', s.phase i = .stamping key id seen → s.next hashToken (.stamp i) =
    some s' → if seen = some s.now then s'.phase i = .answered (.valid true)
    else s'.phase i = .answered (.valid true) ∧ id ∉ s.revoked ∧ Live hashToken s key ∨
      s'.phase i = .answered .raised ∧ id ∈ s.revoked
  final : ∀ (later : List Event) s', later.foldlM (Desk.next hashToken) s = some s' →
    s.revoked ⊆ s'.revoked

def Answer.digested : Answer → Answer
  | .created token plaintext => .created token (hashToken plaintext)
  | a => a

def Phase.digested : Phase → Phase
  | .refreshing id plaintext => .refreshing id (hashToken plaintext)
  | .stamping key id seen => .stamping (hashToken key) id seen
  | .answered a => .answered (a.digested hashToken)
  | p => p

def Event.digested : Event → Event
  | .create i name drawn => .create i name (hashToken drawn)
  | .select i key => .select i (hashToken key)
  | e => e

def Desk.digested (s : Desk) : Desk :=
  { s with
    phase := fun i => (s.phase i).digested hashToken
    minted := s.minted.map (fun m => (m.1, hashToken m.2)) }

/-- The plaintext of a token is shown to the request that minted it and to no other; all else that a
run leaves behind, rows and answers, is the same for other plaintexts of the same digests. -/
structure ShownOnce (es : List Event) (s : Desk) : Prop where
  own : ∀ i token plaintext, s.phase i = .answered (.created token plaintext) →
    (token.id, plaintext) ∈ s.minted ∧ ∃ name, Event.create i name plaintext ∈ es
  once : ∀ i j token token' plaintext plaintext', s.phase i = .answered (.created token plaintext) →
    s.phase j = .answered (.created token' plaintext') → token.id = token'.id → i = j
  stored : ∀ r ∈ s.rows, ∃ plaintext, (r.id, plaintext) ∈ s.minted ∧
    r.tokenHash = hashToken plaintext
  hidden : ∀ (hashToken' : String → String) es' s', (desk hashToken').Run es' s' →
    es'.map (Event.digested hashToken') = es.map (Event.digested hashToken) →
    s'.rows = s.rows ∧ ∀ i, (s'.phase i).digested hashToken' = (s.phase i).digested hashToken

end Requests

section Phases

variable (s : Desk) {i j : ℕ} (p : Phase)

@[simp] lemma phase_goto_self : (s.goto i p).phase i = p := by
  rw [Desk.goto]
  exact Function.update_self _ _ _

lemma phase_goto_of_ne (h : j ≠ i) : (s.goto i p).phase j = s.phase j := by
  rw [Desk.goto]
  exact Function.update_of_ne h _ _

end Phases

section Steps

variable (hashToken : String → String)

inductive Change (s : Desk) : Event → Desk → Prop
  | tick {now} : Change s (.tick now) { s with now := now }
  | answer {e i a} : a.shows = none → Change s e (s.answer i a)
  | duplicate {i name drawn} : Change s (.create i name drawn) { s.answer i .raised with
      seq := s.seq + 1 }
  | insert {i name drawn} : s.phase i = .idle → hashToken drawn ∉ s.rows.map ApiToken.tokenHash →
      Change s (.create i name drawn) (s.insert hashToken i name drawn)
  | shown {i : ℕ} {row : ApiToken} {plaintext : String} : s.phase i = .refreshing row.id plaintext →
      Change s (.refresh i) (s.answer i (.created row.read plaintext))
  | deleting {i : ℕ} {tokenId : ℤ} {row : ApiToken} : s.phase i = .idle → row ∈ s.rows →
      Change s (.get i tokenId) (s.goto i (.deleting row.id))
  | delete {i id} : s.phase i = .deleting id → Change s (.delete i) (s.delete i id)
  | stamping {i : ℕ} {key : String} {row : ApiToken} : s.phase i = .idle → row ∈ s.rows →
      row.tokenHash = hashToken key →
      Change s (.select i key) (s.goto i (.stamping key row.id row.lastUsedAt))
  | used {i id} : Change s (.stamp i) { s.answer i (.valid true) with
      rows := s.rows.map (Desk.setUsed s.now id) }

variable {hashToken} {s s' : Desk}

lemma change_of_create {i : ℕ} {name drawn : String} (hp : s.phase i = .idle) :
    Change hashToken s (.create i name drawn) (s.create hashToken i name drawn) := by
  rw [Desk.create]
  split_ifs with hl hs hd
  · exact .answer rfl
  · exact .answer rfl
  · exact .duplicate
  · exact .insert hp hd

lemma change_of_refresh {i id : ℕ} {plaintext : String}
    (hp : s.phase i = .refreshing id plaintext) :
    Change hashToken s (.refresh i) (s.refresh i id plaintext) := by
  rw [Desk.refresh]
  cases hf : s.row? id with
  | none => exact .answer rfl
  | some row =>
    rw [Desk.row?] at hf
    have hid := List.find?_some hf
    obtain rfl : row.id = id := of_decide_eq_true hid
    exact .shown hp

lemma change_of_get {i : ℕ} {tokenId : ℤ} (hp : s.phase i = .idle) :
    Change hashToken s (.get i tokenId) (s.get i tokenId) := by
  rw [Desk.get]
  split_ifs
  · exact .answer rfl
  · split
    · next row hf => exact .deleting hp (List.mem_of_find?_eq_some hf)
    · exact .answer rfl

lemma change_of_select {i : ℕ} {key : String} (hp : s.phase i = .idle) :
    Change hashToken s (.select i key) (s.select hashToken i key) := by
  rw [Desk.select]
  split
  · next row hf =>
    have hk := List.find?_some hf
    exact .stamping hp (List.mem_of_find?_eq_some hf) (of_decide_eq_true hk)
  · exact .answer rfl

lemma change_of_stamp {i id : ℕ} {seen : Option ℕ} :
    Change hashToken s (.stamp i) (s.stamp i id seen) := by
  rw [Desk.stamp]
  split_ifs
  · exact .answer rfl
  · exact .used
  · exact .answer rfl

lemma change_of_next {e : Event} (hs : s.next hashToken e = some s') : Change hashToken s e s' := by
  cases e with
  | tick now =>
    simp only [Desk.next] at hs
    split_ifs at hs
    obtain rfl := Option.some.inj hs
    exact .tick
  | create i name drawn =>
    simp only [Desk.next] at hs
    split_ifs at hs with hp
    obtain rfl := Option.some.inj hs
    exact change_of_create hp
  | refresh i =>
    simp only [Desk.next] at hs
    split at hs
    · next hp =>
      obtain rfl := Option.some.inj hs
      exact change_of_refresh hp
    · cases hs
  | list i =>
    simp only [Desk.next] at hs
    split_ifs at hs
    obtain rfl := Option.some.inj hs
    exact .answer rfl
  | get i tokenId =>
    simp only [Desk.next] at hs
    split_ifs at hs with hp
    obtain rfl := Option.some.inj hs
    exact change_of_get hp
  | delete i =>
    simp only [Desk.next] at hs
    split at hs
    · next hp =>
      obtain rfl := Option.some.inj hs
      exact .delete hp
    · cases hs
  | select i key =>
    simp only [Desk.next] at hs
    split_ifs at hs with hp
    obtain rfl := Option.some.inj hs
    exact change_of_select hp
  | stamp i =>
    simp only [Desk.next] at hs
    split at hs
    · obtain rfl := Option.some.inj hs
      exact change_of_stamp
    · cases hs

end Steps

section Rows

variable {rows : List ApiToken} {now id : ℕ}

@[simp] lemma setUsed_id (r : ApiToken) : (Desk.setUsed now id r).id = r.id := by
  rw [Desk.setUsed]
  split_ifs <;> rfl

@[simp] lemma setUsed_tokenHash (r : ApiToken) :
    (Desk.setUsed now id r).tokenHash = r.tokenHash := by
  rw [Desk.setUsed]
  split_ifs <;> rfl

lemma ids_setUsed : (rows.map (Desk.setUsed now id)).map ApiToken.id = rows.map ApiToken.id := by
  simp [Function.comp_def]

lemma hashes_setUsed :
    (rows.map (Desk.setUsed now id)).map ApiToken.tokenHash = rows.map ApiToken.tokenHash := by
  simp [Function.comp_def]

end Rows

section Invariant

variable (hashToken : String → String)

structure Inv (s : Desk) : Prop where
  ids : (s.rows.map ApiToken.id).Nodup
  hashes : (s.rows.map ApiToken.tokenHash).Nodup
  row_minted : ∀ r ∈ s.rows, ∃ plaintext, (r.id, plaintext) ∈ s.minted ∧
    hashToken plaintext = r.tokenHash
  row_live : ∀ r ∈ s.rows, r.id ∉ s.revoked
  minted_row : ∀ id plaintext, (id, plaintext) ∈ s.minted → id ∉ s.revoked →
    ∃ r ∈ s.rows, r.id = id ∧ r.tokenHash = hashToken plaintext
  minted_le : ∀ id plaintext, (id, plaintext) ∈ s.minted → id ≤ s.seq
  revoked_le : ∀ id ∈ s.revoked, id ≤ s.seq
  deleting_le : ∀ i id, s.phase i = .deleting id → id ≤ s.seq
  stamping : ∀ i key id seen, s.phase i = .stamping key id seen →
    ∃ plaintext, (id, plaintext) ∈ s.minted ∧ hashToken plaintext = hashToken key

variable {hashToken} {s s' : Desk}

lemma Inv.row_le (h : Inv hashToken s) {r : ApiToken} (hr : r ∈ s.rows) : r.id ≤ s.seq := by
  obtain ⟨plaintext, hm, -⟩ := h.row_minted r hr
  exact h.minted_le _ _ hm

lemma Inv.live_iff (h : Inv hashToken s) (key : String) :
    Live hashToken s key ↔ ∃ r ∈ s.rows, r.tokenHash = hashToken key := by
  constructor
  · rintro ⟨id, plaintext, hm, hk, hl⟩
    obtain ⟨r, hr, -, hh⟩ := h.minted_row id plaintext hm hl
    exact ⟨r, hr, hh.trans hk⟩
  · rintro ⟨r, hr, hk⟩
    obtain ⟨plaintext, hm, hh⟩ := h.row_minted r hr
    exact ⟨r.id, plaintext, hm, hh.trans hk, h.row_live r hr⟩

lemma Inv.mem_ids_iff (h : Inv hashToken s) {id : ℕ} {plaintext : String}
    (hm : (id, plaintext) ∈ s.minted) : id ∈ s.rows.map ApiToken.id ↔ id ∉ s.revoked := by
  constructor
  · intro hi
    obtain ⟨r, hr, rfl⟩ := List.mem_map.mp hi
    exact h.row_live r hr
  · intro hl
    obtain ⟨r, hr, hid, -⟩ := h.minted_row id plaintext hm hl
    exact List.mem_map.mpr ⟨r, hr, hid⟩

lemma Inv.goto (h : Inv hashToken s) (i : ℕ) {p : Phase} (hd : ∀ id, p = .deleting id → id ≤ s.seq)
    (hs : ∀ key id seen, p = .stamping key id seen → ∃ plaintext, (id, plaintext) ∈ s.minted ∧
      hashToken plaintext = hashToken key) : Inv hashToken (s.goto i p) := by
  refine { h with deleting_le := fun j id hj => ?_, stamping := fun j key id seen hj => ?_ }
  · by_cases hij : j = i
    · subst hij
      rw [phase_goto_self] at hj
      exact hd id hj
    · rw [phase_goto_of_ne s p hij] at hj
      exact h.deleting_le j id hj
  · by_cases hij : j = i
    · subst hij
      rw [phase_goto_self] at hj
      exact hs key id seen hj
    · rw [phase_goto_of_ne s p hij] at hj
      exact h.stamping j key id seen hj

lemma Inv.answer (h : Inv hashToken s) (i : ℕ) (a : Answer) : Inv hashToken (s.answer i a) :=
  h.goto i (by simp) (by simp)

lemma Inv.draw (h : Inv hashToken s) : Inv hashToken { s with seq := s.seq + 1 } :=
  { h with
    minted_le := fun id plaintext hm => (h.minted_le id plaintext hm).trans (Nat.le_succ _)
    revoked_le := fun id hr => (h.revoked_le id hr).trans (Nat.le_succ _)
    deleting_le := fun i id hp => (h.deleting_le i id hp).trans (Nat.le_succ _) }

lemma Inv.insert (h : Inv hashToken s) (i : ℕ) (name : String) {drawn : String}
    (hn : hashToken drawn ∉ s.rows.map ApiToken.tokenHash) :
    Inv hashToken (s.insert hashToken i name drawn) := by
  have hg : Inv hashToken (s.goto i (.refreshing (s.seq + 1) drawn)) := h.goto i (by simp) (by simp)
  have hid : s.seq + 1 ∉ s.rows.map ApiToken.id := by
    intro hm
    obtain ⟨r, hr, he⟩ := List.mem_map.mp hm
    exact absurd (h.row_le hr) (by omega)
  constructor
  · simp only [Desk.insert, List.map_append, List.map_cons, List.map_nil]
    rw [← List.concat_eq_append]
    exact h.ids.concat hid
  · simp only [Desk.insert, List.map_append, List.map_cons, List.map_nil]
    rw [← List.concat_eq_append]
    exact h.hashes.concat hn
  · intro r hr
    rcases List.mem_append.mp hr with hr | hr
    · obtain ⟨plaintext, hm, hh⟩ := h.row_minted r hr
      exact ⟨plaintext, List.mem_append_left _ hm, hh⟩
    · obtain rfl := List.mem_singleton.mp hr
      exact ⟨drawn, List.mem_append_right _ (List.mem_singleton.mpr rfl), rfl⟩
  · intro r hr hv
    rcases List.mem_append.mp hr with hr | hr
    · exact h.row_live r hr hv
    · obtain rfl := List.mem_singleton.mp hr
      exact absurd (h.revoked_le _ hv) (by simp [Desk.buildApiToken])
  · intro id plaintext hm hl
    rcases List.mem_append.mp hm with hm | hm
    · obtain ⟨r, hr, he⟩ := h.minted_row id plaintext hm hl
      exact ⟨r, List.mem_append_left _ hr, he⟩
    · obtain ⟨rfl, rfl⟩ := Prod.mk.inj (List.mem_singleton.mp hm)
      exact ⟨_, List.mem_append_right _ (List.mem_singleton.mpr rfl), rfl, rfl⟩
  · intro id plaintext hm
    rcases List.mem_append.mp hm with hm | hm
    · exact (h.minted_le id plaintext hm).trans (Nat.le_succ _)
    · obtain ⟨rfl, -⟩ := Prod.mk.inj (List.mem_singleton.mp hm)
      exact le_rfl
  · exact fun id hv => (h.revoked_le id hv).trans (Nat.le_succ _)
  · exact fun j id hp => (hg.deleting_le j id hp).trans (Nat.le_succ _)
  · intro j key id seen hp
    obtain ⟨plaintext, hm, hh⟩ := hg.stamping j key id seen hp
    exact ⟨plaintext, List.mem_append_left _ hm, hh⟩

lemma Inv.delete (h : Inv hashToken s) {i id : ℕ} (hi : id ≤ s.seq) :
    Inv hashToken (s.delete i id) := by
  have hg : Inv hashToken (s.answer i .revoked) := h.answer i .revoked
  have hsub : List.Sublist (s.rows.filter (fun r => r.id ≠ id)) s.rows := List.filter_sublist
  constructor
  · exact h.ids.sublist (hsub.map _)
  · exact h.hashes.sublist (hsub.map _)
  · exact fun r hr => h.row_minted r (List.mem_filter.mp hr).1
  · intro r hr hv
    obtain ⟨hr, hne⟩ := List.mem_filter.mp hr
    rcases List.mem_append.mp hv with hv | hv
    · exact h.row_live r hr hv
    · exact of_decide_eq_true hne (List.mem_singleton.mp hv)
  · intro id' plaintext hm hl
    obtain ⟨hl, hne⟩ := not_or.mp (fun hv => hl (List.mem_append.mpr hv))
    obtain ⟨r, hr, hid, hh⟩ := h.minted_row id' plaintext hm hl
    refine ⟨r, List.mem_filter.mpr ⟨hr, decide_eq_true ?_⟩, hid, hh⟩
    rw [hid]
    exact fun he => hne (List.mem_singleton.mpr he)
  · exact h.minted_le
  · intro id' hv
    rcases List.mem_append.mp hv with hv | hv
    · exact h.revoked_le id' hv
    · exact (List.mem_singleton.mp hv).trans_le hi
  · exact hg.deleting_le
  · exact hg.stamping

lemma Inv.used (h : Inv hashToken s) (now id : ℕ) :
    Inv hashToken { s with rows := s.rows.map (Desk.setUsed now id) } := by
  refine { h with
    ids := (congrArg List.Nodup ids_setUsed).mpr h.ids
    hashes := (congrArg List.Nodup hashes_setUsed).mpr h.hashes
    row_minted := fun r hr => ?_, row_live := fun r hr => ?_,
      minted_row := fun id' plaintext hm hl => ?_ }
  · obtain ⟨r₀, hr₀, rfl⟩ := List.mem_map.mp hr
    simpa using h.row_minted r₀ hr₀
  · obtain ⟨r₀, hr₀, rfl⟩ := List.mem_map.mp hr
    simpa using h.row_live r₀ hr₀
  · obtain ⟨r, hr, hid, hh⟩ := h.minted_row id' plaintext hm hl
    exact ⟨_, List.mem_map_of_mem hr, by simpa using hid, by simpa using hh⟩

lemma Inv.step (h : Inv hashToken s) {e : Event} (hs : s.next hashToken e = some s') :
    Inv hashToken s' := by
  cases change_of_next hs with
  | tick => exact { h with }
  | answer => exact h.answer _ _
  | duplicate => exact (h.answer _ .raised).draw
  | insert _ hn => exact h.insert _ _ hn
  | shown => exact h.answer _ _
  | deleting _ hr =>
    refine h.goto _ ?_ (by simp)
    rintro id ⟨⟩
    exact h.row_le hr
  | delete hp => exact h.delete (h.deleting_le _ _ hp)
  | stamping _ hr hk =>
    refine h.goto _ (by simp) ?_
    rintro key id seen ⟨⟩
    obtain ⟨plaintext, hm, hh⟩ := h.row_minted _ hr
    exact ⟨plaintext, hm, hh.trans hk⟩
  | used => exact (h.answer _ (.valid true)).used _ _

lemma inv_of_run {es : List Event} (h : (desk hashToken).Run es s) : Inv hashToken s := by
  refine System.Run.invariant (I := Inv hashToken) ?_ (fun _ _ _ hi hs => hi.step hs) h
  rintro s rfl
  constructor <;> simp

lemma revoked_next {e : Event} (hs : s.next hashToken e = some s') : s.revoked ⊆ s'.revoked := by
  cases change_of_next hs with
  | delete => exact List.subset_append_left _ _
  | tick | answer | duplicate | insert | shown | deleting | stamping | used =>
    exact List.Subset.refl _

lemma revoked_foldlM (later : List Event) (hs : later.foldlM (Desk.next hashToken) s = some s') :
    s.revoked ⊆ s'.revoked := by
  induction later generalizing s with
  | nil =>
    obtain rfl := Option.some.inj hs
    exact List.Subset.refl _
  | cons e later ih =>
    rw [List.foldlM_cons] at hs
    obtain ⟨t, ht, hs⟩ := Option.bind_eq_some_iff.mp hs
    exact List.Subset.trans (revoked_next ht) (ih hs)

end Invariant

section Checks

variable {hashToken : String → String} {s s' : Desk}

lemma Inv.linearized_select (h : Inv hashToken s) {i : ℕ} {key : String}
    (hs : s.next hashToken (.select i key) = some s') :
    s'.phase i = .answered (.valid false) ∧ ¬ Live hashToken s key ∨
      Live hashToken s key ∧ ∃ id seen, s'.phase i = .stamping key id seen := by
  simp only [Desk.next] at hs
  split_ifs at hs
  obtain rfl := Option.some.inj hs
  rw [Desk.select, h.live_iff]
  cases hf : s.rows.find? (fun r => r.tokenHash = hashToken key) with
  | none =>
    refine .inl ⟨phase_goto_self s _, ?_⟩
    rintro ⟨r, hr, hk⟩
    have hn := List.find?_eq_none.mp hf r hr
    exact hn (decide_eq_true hk)
  | some row =>
    have hk := List.find?_some hf
    exact .inr ⟨⟨row, List.mem_of_find?_eq_some hf, of_decide_eq_true hk⟩, row.id, row.lastUsedAt,
      phase_goto_self s _⟩

lemma Inv.linearized_stamp (h : Inv hashToken s) {i id : ℕ} {key : String} {seen : Option ℕ}
    (hp : s.phase i = .stamping key id seen) (hs : s.next hashToken (.stamp i) = some s') :
    if seen = some s.now then s'.phase i = .answered (.valid true)
    else s'.phase i = .answered (.valid true) ∧ id ∉ s.revoked ∧ Live hashToken s key ∨
      s'.phase i = .answered .raised ∧ id ∈ s.revoked := by
  simp only [Desk.next, hp] at hs
  obtain rfl := Option.some.inj hs
  obtain ⟨plaintext, hm, hk⟩ := h.stamping i key id seen hp
  rw [Desk.stamp]
  split_ifs with hseen hid
  · exact phase_goto_self s _
  · have hl := (h.mem_ids_iff hm).mp hid
    exact .inl ⟨phase_goto_self s _, hl, id, plaintext, hm, hk, hl⟩
  · exact .inr ⟨phase_goto_self s _, not_not.mp (mt (h.mem_ids_iff hm).mpr hid)⟩

/-- Checks of API tokens are linearizable: each answers as the tokens are that have been minted and
not revoked at one moment between its start and its end, so that a committed revocation stops the
checks that are under way as well. -/
theorem checks_linearize (hashToken : String → String) {es : List Event} {s : Desk}
    (h : (desk hashToken).Run es s) : Linearized hashToken s := by
  have hi := inv_of_run h
  exact ⟨fun _ _ _ hs => hi.linearized_select hs, fun _ _ _ _ _ hp hs => hi.linearized_stamp hp hs,
    fun later _ hs => revoked_foldlM later hs⟩

end Checks

section Shown

variable {hashToken : String → String} {es : List Event} {s s' : Desk}

structure Holding (es : List Event) (s : Desk) : Prop where
  own : ∀ i m, (s.phase i).holds = some m → m ∈ s.minted ∧ ∃ name, Event.create i name m.2 ∈ es
  once : ∀ i j m m', (s.phase i).holds = some m → (s.phase j).holds = some m' → m.1 = m'.1 → i = j

lemma Holding.later (h : Holding es s) (e : Event) : Holding (es ++ [e]) s := by
  refine ⟨fun i m hm => ?_, h.once⟩
  obtain ⟨hmem, name, he⟩ := h.own i m hm
  exact ⟨hmem, name, List.mem_append_left _ he⟩

lemma Holding.goto (h : Holding es s) (i : ℕ) {p : Phase}
    (hp : ∀ m, p.holds = some m → (s.phase i).holds = some m) : Holding es (s.goto i p) := by
  have hall : ∀ j m, ((s.goto i p).phase j).holds = some m → (s.phase j).holds = some m := by
    intro j m hm
    by_cases hij : j = i
    · subst hij
      rw [phase_goto_self] at hm
      exact hp m hm
    · rwa [phase_goto_of_ne s p hij] at hm
  exact ⟨fun j m hm => h.own j m (hall j m hm),
    fun j k m m' hm hm' he => h.once j k m m' (hall j m hm) (hall k m' hm') he⟩

lemma Holding.quiet (h : Holding es s) {a : Answer} (ha : a.shows = none)
    (i : ℕ) : Holding es (s.answer i a) :=
  h.goto i (by simp [Phase.holds, ha])

lemma Holding.insert (h : Holding es s) (hi : Inv hashToken s) (i : ℕ) (name drawn : String)
    (he : Event.create i name drawn ∈ es) : Holding es (s.insert hashToken i name drawn) := by
  have hcases : ∀ j m, ((s.insert hashToken i name drawn).phase j).holds = some m →
      j = i ∧ m = (s.seq + 1, drawn) ∨ (s.phase j).holds = some m ∧ m.1 ≤ s.seq := by
    intro j m hm
    change ((s.goto i (.refreshing (s.seq + 1) drawn)).phase j).holds = some m at hm
    by_cases hij : j = i
    · subst hij
      rw [phase_goto_self] at hm
      exact .inl ⟨rfl, (Option.some.inj hm).symm⟩
    · rw [phase_goto_of_ne s _ hij] at hm
      exact .inr ⟨hm, hi.minted_le m.1 m.2 (h.own j m hm).1⟩
  refine ⟨fun j m hm => ?_, fun j k m m' hm hm' hid => ?_⟩
  · rcases hcases j m hm with ⟨rfl, rfl⟩ | ⟨hold, -⟩
    · exact ⟨List.mem_append_right _ (List.mem_singleton.mpr rfl), name, he⟩
    · exact ⟨List.mem_append_left _ (h.own j m hold).1, (h.own j m hold).2⟩
  · rcases hcases j m hm with ⟨rfl, rfl⟩ | ⟨hold, hle⟩
    · rcases hcases k m' hm' with ⟨rfl, -⟩ | ⟨-, hle'⟩
      · rfl
      · exact absurd hid (by omega)
    · rcases hcases k m' hm' with ⟨rfl, rfl⟩ | ⟨hold', -⟩
      · exact absurd hid (by omega)
      · exact h.once j k m m' hold hold' hid

lemma Holding.step (h : Holding es s) (hi : Inv hashToken s) {e : Event}
    (hs : s.next hashToken e = some s') : Holding (es ++ [e]) s' := by
  have hl := h.later e
  cases change_of_next hs with
  | tick => exact ⟨hl.own, hl.once⟩
  | answer ha => exact hl.quiet ha _
  | @duplicate i =>
    have hg := hl.quiet (a := .raised) rfl i
    exact ⟨hg.own, hg.once⟩
  | insert => exact hl.insert hi _ _ _ (List.mem_append_right _ (List.mem_singleton.mpr rfl))
  | shown hp => exact hl.goto _ (by rw [hp]; exact fun m hm => hm)
  | deleting => exact hl.goto _ (by simp [Phase.holds])
  | @delete i =>
    have hg := hl.quiet (a := .revoked) rfl i
    exact ⟨hg.own, hg.once⟩
  | stamping => exact hl.goto _ (by simp [Phase.holds])
  | @used i =>
    have hg := hl.quiet (a := .valid true) rfl i
    exact ⟨hg.own, hg.once⟩

lemma holding_of_run (h : (desk hashToken).Run es s) : Holding es s := by
  induction h with
  | init h =>
    subst h
    exact ⟨by simp [Phase.holds], by simp [Phase.holds]⟩
  | step hr hs ih => exact ih.step (inv_of_run hr) hs

section Digests

variable (hashToken)

lemma rows_digested : (s.digested hashToken).rows = s.rows := rfl

lemma now_digested : (s.digested hashToken).now = s.now := rfl

lemma digested_goto (i : ℕ) (p : Phase) :
    (s.goto i p).digested hashToken = (s.digested hashToken).goto i (p.digested hashToken) := by
  simp only [Desk.goto, Desk.digested, Desk.mk.injEq, true_and, and_true]
  exact (Function.comp_update (Phase.digested hashToken) s.phase i p).trans rfl

lemma digested_answer (i : ℕ) (a : Answer) :
    (s.answer i a).digested hashToken = (s.digested hashToken).answer i (a.digested hashToken) :=
  digested_goto hashToken i (.answered a)

lemma digested_insert (i : ℕ) (name drawn : String) :
    (s.insert hashToken i name drawn).digested hashToken =
      (s.digested hashToken).insert id i name (hashToken drawn) := by
  have hgoto :=
    congrArg Desk.phase (digested_goto (s := s) hashToken i (.refreshing (s.seq + 1) drawn))
  simp only [Desk.insert, Desk.digested, List.map_append, List.map_singleton] at hgoto ⊢
  rw [hgoto]
  rfl

lemma digested_create (i : ℕ) (name drawn : String) :
    (s.create hashToken i name drawn).digested hashToken =
      (s.digested hashToken).create id i name (hashToken drawn) := by
  rw [Desk.create, Desk.create, rows_digested, id_eq]
  split_ifs with hl hs hd
  · exact digested_answer hashToken i _
  · exact digested_answer hashToken i _
  · exact congrArg
      (fun t : Desk => { t with seq := s.seq + 1 }) (digested_answer hashToken i .raised)
  · exact digested_insert hashToken i name drawn

lemma digested_refresh (i id : ℕ) (plaintext : String) : (s.refresh i id plaintext).digested
    hashToken = (s.digested hashToken).refresh i id (hashToken plaintext) := by
  rw [Desk.refresh, Desk.refresh]
  change _ = match s.row? id with
    | some row => _
    | none => _
  cases s.row? id with
  | none => exact digested_answer hashToken i _
  | some row => exact digested_answer hashToken i _

lemma digested_get (i : ℕ) (tokenId : ℤ) :
    (s.get i tokenId).digested hashToken = (s.digested hashToken).get i tokenId := by
  rw [Desk.get, Desk.get]
  split_ifs
  · exact digested_answer hashToken i _
  · change _ = match s.rows.find? (fun r => (r.id : ℤ) = tokenId) with
      | some row => _
      | none => _
    cases s.rows.find? (fun r => (r.id : ℤ) = tokenId) with
    | none => exact digested_answer hashToken i _
    | some row => exact digested_goto hashToken i _

lemma digested_select (i : ℕ) (key : String) : (s.select hashToken i key).digested hashToken =
    (s.digested hashToken).select id i (hashToken key) := by
  rw [Desk.select, Desk.select]
  change _ = match s.rows.find? (fun r => r.tokenHash = hashToken key) with
    | some row => _
    | none => _
  cases s.rows.find? (fun r => r.tokenHash = hashToken key) with
  | none => exact digested_answer hashToken i _
  | some row => exact digested_goto hashToken i _

lemma digested_stamp (i id : ℕ) (seen : Option ℕ) :
    (s.stamp i id seen).digested hashToken = (s.digested hashToken).stamp i id seen := by
  have hvalid := digested_answer (s := s) hashToken i (.valid true)
  rw [Desk.stamp, Desk.stamp, rows_digested, now_digested]
  split_ifs with hseen hid
  · exact hvalid
  · exact congrArg (fun t : Desk => { t with rows := s.rows.map (Desk.setUsed s.now id) }) hvalid
  · exact digested_answer hashToken i _

lemma digested_eq_idle {p : Phase} : p.digested hashToken = .idle ↔ p = .idle := by
  cases p <;> simp [Phase.digested]

lemma digested_delete (i token : ℕ) :
    (s.delete i token).digested hashToken = (s.digested hashToken).delete i token := by
  have hanswer := digested_answer (s := s) hashToken i .revoked
  rw [Desk.delete, Desk.delete, rows_digested]
  exact congrArg (fun t : Desk => { t with
    rows := s.rows.filter (fun r => r.id ≠ token), revoked := s.revoked ++ [token] }) hanswer

lemma next_digested (e : Event) : (s.digested hashToken).next id (e.digested hashToken) =
    (s.next hashToken e).map (Desk.digested hashToken) := by
  have hidle : ∀ i, (s.digested hashToken).phase i = .idle ↔
      s.phase i = .idle := fun i => digested_eq_idle hashToken
  cases e with
  | tick now =>
    by_cases hle : s.now ≤ now
    · have hle' : (s.digested hashToken).now ≤ now := hle
      simp only [Event.digested, Desk.next, if_pos hle, if_pos hle']
      rfl
    · have hle' : ¬ (s.digested hashToken).now ≤ now := hle
      simp only [Event.digested, Desk.next, if_neg hle, if_neg hle']
      rfl
  | create i name drawn =>
    simp only [Event.digested, Desk.next, hidle]
    split_ifs
    · exact congrArg some (digested_create hashToken i name drawn).symm
    · rfl
  | refresh i =>
    have hphase : (s.digested hashToken).phase i = (s.phase i).digested hashToken := rfl
    simp only [Event.digested, Desk.next, hphase]
    cases hp : s.phase i with
    | refreshing token plaintext =>
      exact congrArg some (digested_refresh hashToken i token plaintext).symm
    | idle | deleting | stamping | answered => rfl
  | list i =>
    simp only [Event.digested, Desk.next, hidle, rows_digested]
    split_ifs
    · exact congrArg some (digested_answer hashToken i (.listed (s.rows.map ApiToken.read))).symm
    · rfl
  | get i tokenId =>
    simp only [Event.digested, Desk.next, hidle]
    split_ifs
    · exact congrArg some (digested_get hashToken i tokenId).symm
    · rfl
  | delete i =>
    have hphase : (s.digested hashToken).phase i = (s.phase i).digested hashToken := rfl
    simp only [Event.digested, Desk.next, hphase]
    cases hp : s.phase i with
    | deleting token => exact congrArg some (digested_delete hashToken i token).symm
    | idle | refreshing | stamping | answered => rfl
  | select i key =>
    simp only [Event.digested, Desk.next, hidle]
    split_ifs
    · exact congrArg some (digested_select hashToken i key).symm
    · rfl
  | stamp i =>
    have hphase : (s.digested hashToken).phase i = (s.phase i).digested hashToken := rfl
    simp only [Event.digested, Desk.next, hphase]
    cases hp : s.phase i with
    | stamping key token seen => exact congrArg some (digested_stamp hashToken i token seen).symm
    | idle | refreshing | deleting | answered => rfl

lemma run_digested (h : (desk hashToken).Run es s) :
    (desk id).Run (es.map (Event.digested hashToken)) (s.digested hashToken) := by
  induction h with
  | init h =>
    subst h
    exact .init rfl
  | @step es s s' e _ hs ih =>
    have hnext := next_digested (s := s) hashToken e
    rw [show s.next hashToken e = some s' from hs] at hnext
    rw [List.map_append]
    exact ih.step hnext

lemma digested_unique {hashToken' : String → String} {es' : List Event}
    (h : (desk hashToken).Run es s) (h' : (desk hashToken').Run es' s')
    (he : es'.map (Event.digested hashToken') = es.map (Event.digested hashToken)) :
    s'.digested hashToken' = s.digested hashToken := by
  have hrun := run_digested hashToken' h'
  rw [he] at hrun
  exact System.run_unique (fun s t hs ht => hs.trans ht.symm) hrun (run_digested hashToken h)

end Digests

/-- No run shows the plaintext of a token twice, or anything of it but its digest elsewhere. -/
theorem plaintext_shown_once (hashToken : String → String) {es : List Event} {s : Desk}
    (h : (desk hashToken).Run es s) : ShownOnce hashToken es s := by
  have hh := holding_of_run h
  refine ⟨fun i token plaintext hp => ?_, fun i j token token' plaintext plaintext' hp hp' hid =>
    ?_, fun r hr => ?_, fun hashToken' es' s' h' he => ?_⟩
  · exact hh.own i (token.id, plaintext) (by rw [hp]; rfl)
  · exact hh.once i j (token.id, plaintext) (token'.id,
      plaintext') (by rw [hp]; rfl) (by rw [hp']; rfl) hid
  · obtain ⟨plaintext, hm, hd⟩ := (inv_of_run h).row_minted r hr
    exact ⟨plaintext, hm, hd.symm⟩
  · have hdesk := digested_unique hashToken h h' he
    have hrows : (s'.digested hashToken').rows = (s.digested hashToken).rows :=
      congrArg Desk.rows hdesk
    have hphase : (s'.digested hashToken').phase = (s.digested hashToken).phase :=
      congrArg Desk.phase hdesk
    exact ⟨hrows, fun i => congrFun hphase i⟩

end Shown

section Samples

def sampleHash : String → String := fun token =>
  if token = "tok" then "1a7674eb4ee78df7e1ac439a93c3fa8e3c945784d4dec9fd8e3011738b2f1d62" else ""

def revokedEvents : List Event :=
  [.create 0 "ci" "tok", .refresh 0, .select 1 "tok", .select 2 "tok", .tick 5, .stamp 1,
    .get 3 1, .delete 3]

lemma run_revokedEvents : ∃ s, (desk sampleHash).Run revokedEvents s ∧ (s.now, s.revoked, s.phase 0,
      s.phase 1, s.phase 2) = (5, [1], .answered (.created ⟨1, "ci", 0, none⟩ "tok"),
      .answered (.valid true), .stamping "tok" 1 none) :=
  System.exists_run rfl (by decide +kernel)

theorem revoked_check_raises :
    ∃ s s', (desk sampleHash).Run revokedEvents s ∧ s.phase 1 = .answered (.valid true) ∧
      s.next sampleHash (.stamp 2) = some s' ∧ s'.phase 2 = .answered .raised := by
  obtain ⟨s, hr, he⟩ := run_revokedEvents
  obtain ⟨hnow, hrev, -, h1, h2⟩ := by simpa only [Prod.mk.injEq] using he
  have hs : s.next sampleHash (.stamp 2) = some (s.stamp 2 1 none) := by simp [Desk.next, h2]
  refine ⟨s, _, hr, h1, hs, ?_⟩
  have hst := (checks_linearize sampleHash hr).stamp 2 "tok" 1 none _ h2 hs
  rw [if_neg (by simp)] at hst
  rcases hst with ⟨-, hn, -⟩ | ⟨hraised, -⟩
  · exact absurd (by simp [hrev]) hn
  · exact hraised

theorem sample_shown_once : ∃ s, (desk sampleHash).Run revokedEvents s ∧ s.phase 0 =
    .answered (.created ⟨1, "ci", 0, none⟩ "tok") ∧ ShownOnce sampleHash revokedEvents s := by
  obtain ⟨s, hr, he⟩ := run_revokedEvents
  obtain ⟨-, -, h0, -⟩ := by simpa only [Prod.mk.injEq] using he
  exact ⟨s, hr, h0, plaintext_shown_once sampleHash hr⟩

end Samples

end AstropathRelay.Api.Tokens
