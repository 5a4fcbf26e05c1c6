import AstropathRelay.Lib.Paging
import AstropathRelay.Lib.Runs
import AstropathRelay.DataPlane.Dispatcher

/-! The audit log and a client that reads it page by page while events are inserted between its
requests. -/

namespace AstropathRelay.Api

open Lib DataPlane

structure ChallengeEvent extends AuditRecord where
  id : ℕ
  ts : ℤ
deriving DecidableEq

def ChallengeEvent.order (e : ChallengeEvent) : ℤ ×ₗ ℕ := toLex (e.ts, e.id)

structure EventLog where
  events : List ChallengeEvent
  distinct : (events.map (·.id)).Nodup

def EventLog.record (log : EventLog) (record : AuditRecord) (id : ℕ) (ts : ℤ) : Option EventLog :=
  if h : id ∉ log.events.map (·.id) then
    some ⟨log.events ++ [⟨record, id, ts⟩], by simpa [List.nodup_append, log.distinct] using h⟩
  else none

structure ChallengeEventPage where
  items : List ChallengeEvent
  total : ℕ
  limit : ℤ
  offset : ℤ
deriving DecidableEq

def listEvents (log : EventLog) (limit offset : Option ℤ) : Option ChallengeEventPage :=
  let limit := limit.getD 50
  let offset := offset.getD 0
  if 1 ≤ limit ∧ limit ≤ 200 ∧ 0 ≤ offset then
    some ⟨page (descending ChallengeEvent.order log.events) limit.toNat offset.toNat,
      log.events.length, limit, offset⟩
  else none

structure Reading where
  log : EventLog
  pages : List ChallengeEventPage
  atFirst : List ChallengeEvent

inductive ReadingStep
  | insert (record : AuditRecord) (id : ℕ) (ts : ℤ)
  | fetch
deriving DecidableEq

section Reader

variable (limit : ℕ)

def Reading.offset (s : Reading) : ℕ := s.pages.length * limit

def Reading.finished (s : Reading) : Bool :=
  match s.pages.getLast? with
  | none => false
  | some p => p.total ≤ s.offset limit

def readingNext (s : Reading) : ReadingStep → Option Reading
  | .insert record id ts => (s.log.record record id ts).map (fun log => { s with log := log })
  | .fetch =>
    if s.finished limit then none
    else
      (listEvents s.log (some limit) (some (s.offset limit))).map (fun p =>
        { s with
          pages := s.pages ++ [p], atFirst := if s.pages = [] then s.log.events else s.atFirst })

def reading : System Reading ReadingStep :=
  .deterministic (fun s => s.pages = [] ∧ s.atFirst = []) (readingNext limit)

end Reader

def NothingInserted (s : Reading) (e : ReadingStep) : Prop := e = .fetch ∨ s.pages = []

instance (s : Reading) (e : ReadingStep) : Decidable (NothingInserted s e) :=
  inferInstanceAs (Decidable (_ ∨ _))

def Seen (s : Reading) (e : ChallengeEvent) : Prop := ∃ p ∈ s.pages, e ∈ p.items

structure Pending (limit : ℕ) (s : Reading) : Prop where
  logged : ∀ e ∈ s.atFirst, e ∈ s.log.events
  behind : ∀ e ∈ s.atFirst, Seen s e ∨ s.offset limit ≤ rank ChallengeEvent.order e s.log.events
  finished : s.finished limit → ∀ e ∈ s.atFirst, Seen s e

lemma EventLog.order_nodup (log : EventLog) : (log.events.map ChallengeEvent.order).Nodup := by
  have hid := log.distinct
  rw [show (fun e : ChallengeEvent => e.id) = (fun k : ℤ ×ₗ ℕ => (ofLex k).2) ∘
    ChallengeEvent.order from rfl, ← List.map_map] at hid
  exact hid.of_map _

section Steps

variable {limit : ℕ} {s s' : Reading}

lemma inserted {record : AuditRecord} {id : ℕ} {ts : ℤ}
    (h : readingNext limit s (.insert record id ts) = some s') :
    ∃ log, log.events = s.log.events ++ [⟨record, id, ts⟩] ∧ s' = { s with log := log } := by
  obtain ⟨log, hlog, rfl⟩ := Option.map_eq_some_iff.mp h
  rw [EventLog.record] at hlog
  split at hlog
  · obtain rfl := Option.some.inj hlog
    exact ⟨_, rfl, rfl⟩
  · exact absurd hlog (by simp)

lemma fetched (hl : 1 ≤ limit ∧ limit ≤ 200) (h : readingNext limit s .fetch = some s') :
    ∃ p : ChallengeEventPage,
      p.items = page (descending ChallengeEvent.order s.log.events) limit (s.offset limit) ∧
      p.total = s.log.events.length ∧ s' = { s with
      pages := s.pages ++ [p], atFirst := if s.pages = [] then s.log.events else s.atFirst } := by
  rw [readingNext] at h
  split at h
  · exact absurd h (by simp)
  · obtain ⟨p, hp, rfl⟩ := Option.map_eq_some_iff.mp h
    simp only [listEvents, Option.getD_some] at hp
    rw [if_pos (by omega)] at hp
    obtain rfl := Option.some.inj hp
    exact ⟨_, by simp, rfl, rfl⟩

lemma offset_append {p : ChallengeEventPage} {at' : List ChallengeEvent} : Reading.offset limit
    { s with pages := s.pages ++ [p], atFirst := at' } = s.offset limit + limit := by
  rw [Reading.offset, List.length_append, List.length_singleton, Nat.succ_mul]
  rfl

lemma seen_append {p : ChallengeEventPage} {at' : List ChallengeEvent} {e : ChallengeEvent}
    (h : Seen s e) : Seen { s with pages := s.pages ++ [p], atFirst := at' } e := by
  obtain ⟨q, hq, he⟩ := h
  exact ⟨q, List.mem_append_left _ hq, he⟩

lemma Pending.insert {record : AuditRecord} {id : ℕ} {ts : ℤ} (hp : Pending limit s)
    (h : readingNext limit s (.insert record id ts) = some s') : Pending limit s' := by
  obtain ⟨log, hlog, rfl⟩ := inserted h
  refine ⟨fun e he => ?_, fun e he => ?_, hp.finished⟩
  · rw [hlog]
    exact List.mem_append_left _ (hp.logged e he)
  · apply (hp.behind e he).imp_right
    intro hb
    rw [hlog]
    exact hb.trans (rank_le_append _ _ _)

lemma Pending.fetch (hl : 1 ≤ limit ∧ limit ≤ 200) (hp : Pending limit s)
    (h : readingNext limit s .fetch = some s') : Pending limit s' := by
  obtain ⟨p, hitems, htotal, rfl⟩ := fetched hl h
  have hlogged : ∀ e ∈ (if s.pages = [] then s.log.events else s.atFirst), e ∈ s.log.events := by
    intro e he
    split at he
    · exact he
    · exact hp.logged e he
  have hpast : ∀ e ∈ (if s.pages = [] then s.log.events else s.atFirst),
      Seen s e ∨ s.offset limit ≤ rank ChallengeEvent.order e s.log.events := by
    intro e he
    split at he
    · next hnil => simp [hnil, Reading.offset]
    · exact hp.behind e he
  have hbehind : ∀ e ∈ (if s.pages = [] then s.log.events else s.atFirst), Seen { s with
      pages := s.pages ++ [p], atFirst := if s.pages = [] then s.log.events else s.atFirst } e ∨
      s.offset limit + limit ≤ rank ChallengeEvent.order e s.log.events := by
    intro e he
    rcases hpast e he with hseen | hrank
    · exact .inl (seen_append hseen)
    · by_cases hnext : rank ChallengeEvent.order e s.log.events < s.pages.length * limit + limit
      · refine .inl ⟨p, by simp, ?_⟩
        rw [hitems]
        exact mem_page s.log.order_nodup (hlogged e he) hrank hnext
      · exact .inr (not_lt.mp hnext)
  refine ⟨hlogged, fun e he => ?_, fun hf e he => ?_⟩
  · rw [offset_append]
    exact hbehind e he
  · rcases hbehind e he with hseen | hrank
    · exact hseen
    · have hlt := rank_lt_length s.log.order_nodup (hlogged e he)
      simp only [Reading.finished, List.getLast?_concat, decide_eq_true_eq, htotal, offset_append]
        at hf
      omega

lemma pending_of_run (hl : 1 ≤ limit ∧ limit ≤ 200) {es : List ReadingStep}
    (h : (reading limit).Run es s) : Pending limit s := by
  refine h.invariant (fun s hs => ?_) (fun s e s' hp hstep => ?_)
  · obtain ⟨hpages, hfirst⟩ := hs
    constructor <;> simp [hfirst]
  · cases e with
    | insert record id ts => exact hp.insert hstep
    | fetch => exact hp.fetch hl hstep

structure Undisturbed (limit : ℕ) (s : Reading) : Prop where
  log : s.pages ≠ [] → s.atFirst = s.log.events
  pages : s.pages.flatMap (·.items) =
    (descending ChallengeEvent.order s.log.events).take (s.offset limit)
  total : ∀ p ∈ s.pages, p.total = s.log.events.length

lemma undisturbed_of_run (hl : 1 ≤ limit ∧ limit ≤ 200) {es : List ReadingStep}
    (h : ((reading limit).restrict NothingInserted).Run es s) : Undisturbed limit s := by
  refine h.invariant (fun s hs => ?_) (fun s e s' hp hstep => ?_)
  · obtain ⟨hpages, -⟩ := hs
    constructor <;> simp [hpages, Reading.offset]
  · obtain ⟨hquiet, hstep⟩ := hstep
    cases e with
    | insert record id ts =>
      obtain ⟨log, -, rfl⟩ := inserted hstep
      have hnil : s.pages = [] := hquiet.resolve_left (by simp)
      constructor <;> simp [hnil, Reading.offset]
    | fetch =>
      obtain ⟨p, hitems, htotal, rfl⟩ := fetched hl hstep
      refine ⟨fun _ => ?_, ?_, ?_⟩
      · split
        · rfl
        · next hne => exact hp.log hne
      · rw [List.flatMap_append, hp.pages, offset_append, List.take_add]
        simp [hitems, page]
      · simp only [List.mem_append, List.mem_singleton]
        rintro q (hq | rfl)
        · exact hp.total q hq
        · exact htotal

end Steps

/-- A client that reads page after page until its offset reaches the total it was sent has been sent
every event that was in the log at its first request, whatever was inserted meanwhile. When nothing
was, it has each event once, the newest first. -/
theorem paging_skips_nothing {limit : ℕ} (hl : 1 ≤ limit ∧ limit ≤ 200) {es : List ReadingStep}
    {s : Reading} (hf : s.finished limit) :
    ((reading limit).Run es s → ∀ e ∈ s.atFirst, Seen s e) ∧
    (((reading limit).restrict NothingInserted).Run es s →
      (s.pages.flatMap (·.items)).Perm s.atFirst ∧
      (s.pages.flatMap (·.items)).Pairwise
        (fun a b => b.ts < a.ts ∨ b.ts = a.ts ∧ b.id < a.id)) := by
  refine ⟨fun h => (pending_of_run hl h).finished hf, fun h => ?_⟩
  have hs := undisturbed_of_run hl h
  rw [Reading.finished] at hf
  split at hf
  · exact absurd hf (by simp)
  · next p hlast =>
    have hp : p ∈ s.pages := List.mem_of_getLast? hlast
    rw [decide_eq_true_eq, hs.total p hp, ← descending_length ChallengeEvent.order] at hf
    rw [hs.log (List.ne_nil_of_mem hp), hs.pages, List.take_of_length_le hf]
    refine ⟨descending_perm _, (descending_pairwise s.log.order_nodup).imp ?_⟩
    intro a b hab
    exact Prod.Lex.lt_iff.mp hab

section Sample

def presented : AuditRecord :=
  ⟨"example.com.", "_acme-challenge.example.com.", "present", "route53", "ok", 12, none, "", none⟩

def beforeFirst : Reading := ⟨⟨[], List.nodup_nil⟩, [], []⟩

def pushedBack : List ReadingStep :=
  [.insert presented 1 10, .insert presented 2 20, .fetch, .insert presented 3 15, .fetch, .fetch]

theorem pushedBack_skips_nothing :
    ∃ s, (reading 1).Run pushedBack s ∧ s.finished 1 = true ∧ ∀ e ∈ s.atFirst, Seen s e := by
  have hinit : (reading 1).init beforeFirst := ⟨rfl, rfl⟩
  have hrun : ∃ s, (reading 1).Run pushedBack s ∧ s.finished 1 = true :=
    System.exists_run hinit (by decide +kernel)
  obtain ⟨s, hs, hf⟩ := hrun
  exact ⟨s, hs, hf, (paging_skips_nothing (by decide) hf).1 hs⟩

end Sample

end AstropathRelay.Api
