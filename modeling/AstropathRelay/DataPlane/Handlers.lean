import AstropathRelay.DataPlane.Metrics
import AstropathRelay.DataPlane.WriteSurface

/-! The handlers of inbound messages: the script of each, which it performs from one await to the
next, and the locks that they wait for and give back. -/

namespace AstropathRelay.DataPlane

open Lib Lib.ByteStrings Dns Dns.Reader Providers

variable {P : Type} (typeOf : P → ProviderType)

section Scripts

inductive Closing (q : Request P) (record : AuditRecord)
    (observed last : List (Note P)) : List (List (Note P)) → Prop
  | unrecorded : q.world.auditSink = none → Closing q record observed last [observed ++ last]
  | stored : Closing q record observed last [observed ++ [.effect (.audit record)],
      [.inserted record], last]
  | lost : Closing q record observed last [observed ++ [.effect (.audit record)],
      .effect .auditFailure :: last]
  | landed : Closing q record observed last
      [observed ++ [.effect (.audit record)], [.inserted record], .effect .auditFailure :: last]

inductive Scripted (q : Request P) : List (List (Note P)) → Prop
  | dropped : Scripted q []
  | refused {r : Reply} : r.rcode = Rcode.refused → Scripted q [[.sent r]]
  | failed (reason : TsigFailure) {r : List (Note P)} : Answers Rcode.notauth r →
      Scripted q [.tsigFailure reason :: r]
  | raised (p : Plan P) : q.world.outcome = .raised → Scripted q
      [[.effect (.acquire p.lockKey), .effect (.call p.call)], [.effect (.release p.lockKey)]]
  | called (p : Plan P) (tsigKeyId : Option ℕ) {r : List (Note P)}
      {closing : List (List (Note P))} : q.world.outcome ≠ .raised →
      Answers (p.answer q.world.outcome.detail) r →
      (r = [] → ∃ e, (q.handled typeOf).reply = .error e) →
      Closing q (q.record typeOf p tsigKeyId) (q.observed typeOf p) (.effect (.release p.lockKey) ::
      r) closing → Scripted q ([.effect (.acquire p.lockKey), .effect (.call p.call)] :: closing)

variable {typeOf} {q : Request P}

lemma Answers.suspends {rcode : ℕ} {r : List (Note P)} (h : Answers rcode r) :
    ∀ a ∈ r, a.suspends = false := by
  obtain rfl | ⟨reply, rfl, -⟩ := h <;> simp [Note.suspends]

variable (typeOf q) in
lemma observed_suspends (p : Plan P) : ∀ a ∈ q.observed typeOf p, a.suspends = false := by
  rw [Request.observed]
  split <;> simp [Note.suspends]

lemma closing_segments (p : Plan P) {record : AuditRecord} {audit last : List (Note P)}
    (h : Recorded q record audit)
    (hl : last ≠ []) (hs : ∀ a ∈ last, a.suspends = false) : Closing q record (q.observed typeOf p)
    last (segments Note.suspends (q.observed typeOf p ++ (audit ++ last))) := by
  have ho := observed_suspends typeOf q p
  have hcut (b : List (Note P)) : segments Note.suspends (q.observed typeOf p ++
      .effect (.audit record) :: b) = (q.observed typeOf p ++ [.effect (.audit record)]) ::
      segments Note.suspends b := segments_cut ho rfl b
  have hrow (b : List (Note P)) : segments Note.suspends (.inserted record :: b) =
      [.inserted record] :: segments Note.suspends b := segments_cut (l := []) (by simp) rfl b
  have hfail : segments Note.suspends (.effect .auditFailure :: last) =
      [.effect .auditFailure :: last] :=
    segments_single (by simp) (by simpa [Note.suspends] using hs)
  cases h with
  | unrecorded hn =>
    rw [List.nil_append, segments_single (by simp [Request.observed])
      (fun a ha => (List.mem_append.mp ha).elim (ho a) (hs a))]
    exact .unrecorded hn
  | stored =>
    simp only [List.cons_append, List.nil_append]
    rw [hcut, hrow, segments_single hl hs]
    exact .stored
  | lost =>
    simp only [List.cons_append, List.nil_append]
    rw [hcut, hfail]
    exact .lost
  | landed =>
    simp only [List.cons_append, List.nil_append]
    rw [hcut, hrow, hfail]
    exact .landed

theorem scripted (typeOf : P → ProviderType)
    (q : Request P) : Scripted typeOf q (q.script typeOf) := by
  have h := handles_notes typeOf q
  rw [Request.script]
  generalize q.notes typeOf = l at h
  cases h with
  | failed reason hr =>
    rw [segments_single (by simp) (by simpa [Note.suspends] using hr.suspends)]
    exact .failed reason hr
  | refused hr =>
    obtain rfl | ⟨r, rfl, hc⟩ := hr
    · exact .dropped
    · rw [segments_single (by simp) (by simp [Note.suspends])]
      exact .refused hc
  | raised p ho => exact .raised p ho
  | called p tsigKeyId ho hrec hr he =>
    have hs (l : List (Note P)) :
        segments Note.suspends (.effect (.acquire p.lockKey) :: .effect (.call p.call) :: l) =
          [.effect (.acquire p.lockKey), .effect (.call p.call)] :: segments Note.suspends l :=
      segments_cut (l := [.effect (.acquire p.lockKey)]) (by simp [Note.suspends]) rfl l
    rw [hs]
    refine .called p tsigKeyId ho hr he (closing_segments p hrec (by simp) ?_)
    simpa [Note.suspends] using hr.suspends

end Scripts

section System

def acquiring (key : String) : Note P → ℕ
  | .effect (.acquire k) => if key = k then 1 else 0
  | _ => 0

def releasing (key : String) : Note P → ℕ
  | .effect (.release k) => if key = k then 1 else 0
  | _ => 0

def handlers (Q : Request P → Prop) : Interleaving (Note P) where
  admits script := ∃ q, Q q ∧ script = q.script typeOf
  ready log segment := ∀ key, segment.any (Note.acquires key) →
    tally (acquiring key) log = tally (releasing key) log
  unwind := Note.unwind

variable {typeOf} {q : Request P} {Q : Request P → Prop} {w : Note P → ℕ}

lemma everywhere_of_scripted {φ : List (Note P) → Prop} (h : ∀ q script, Q q →
      Scripted typeOf q script → Everywhere φ [] script) (script : List (List (Note P)))
    (ha : (handlers typeOf Q).admits script) : Everywhere φ [] script := by
  obtain ⟨q, hq, rfl⟩ := ha
  exact h q _ hq (scripted typeOf q)

lemma tally_observed (p : Plan P)
    (hw : ∀ zone clock, w (.effect (.markZoneSuccess zone clock)) = 0) :
    tally w (q.observed typeOf p) =
      w (.effect (.observeDuration (typeOf p.call.provider).text q.world.latencyMs)) +
      w (.effect (.recordChallenge (typeOf p.call.provider).text p.call.action.text
      (p.result q.world.outcome.detail))) := by
  rw [Request.observed]
  split <;> simp [hw]

lemma Answers.silent {rcode : ℕ} {r : List (Note P)} (h : Answers rcode r)
    (hw : ∀ reply, w (.sent reply) = 0) : tally w r = 0 := by
  obtain rfl | ⟨reply, rfl, -⟩ := h <;> simp [hw]

lemma tally_unwind (hw : ∀ key, w (.effect (.release key)) = 0) (l : List (Note P)) :
    tally w (Note.unwind l) = 0 := by
  rw [Note.unwind]
  split
  · rfl
  · split <;> simp [hw]

end System

section Locks

variable {typeOf} {q : Request P} {Q : Request P → Prop} {script : List (List (Note P))}
  {key : String}

lemma unwind_held (k : String) (l : List (Note P)) : Note.unwind (.effect (.acquire k) :: l) =
    if l.any (Note.releases k) then [] else [.effect (.release k)] := by
  have hf : List.findSome? Note.lock (.effect (.acquire k) :: l) = some k := rfl
  rw [Note.unwind, hf]
  simp [Note.releases]

lemma unwind_free {l : List (Note P)} (h : ∀ a ∈ l, a.lock = none) : Note.unwind l = [] := by
  rw [Note.unwind, List.findSome?_eq_none_iff.mpr h]

variable (typeOf q) in
lemma observed_releases (p : Plan P)
    (k : String) : (q.observed typeOf p).any (Note.releases k) = false := by
  rw [Request.observed]
  split <;> simp [Note.releases]

structure Unlocking (key : String) (l : List (Note P)) : Prop where
  acquires : tally (acquiring key) l = 0
  releases : tally (releasing key) l = 0

variable (typeOf q) in
lemma observed_unlocking (p : Plan P) (key : String) : Unlocking key (q.observed typeOf p) := by
  constructor
  · rw [tally_observed p (fun _ _ => rfl)]
    rfl
  · rw [tally_observed p (fun _ _ => rfl)]
    rfl

lemma Answers.unlocking {rcode : ℕ} {r : List (Note P)} (h : Answers rcode r)
    (key : String) : Unlocking key r :=
  ⟨h.silent (fun _ => rfl), h.silent (fun _ => rfl)⟩

lemma balanced_whole (h : Scripted typeOf q script) :
    tally (acquiring key) script.flatten = tally (releasing key) script.flatten := by
  cases h with
  | dropped => rfl
  | refused => rfl
  | failed reason hr =>
    obtain ⟨h₁, h₂⟩ := hr.unlocking key
    simp [h₁, h₂, acquiring, releasing]
  | raised p => simp [acquiring, releasing]
  | called p tsigKeyId ho hr he hcl =>
    obtain ⟨h₁, h₂⟩ := hr.unlocking key
    obtain ⟨h₃, h₄⟩ := observed_unlocking typeOf q p key
    cases hcl <;> simp [h₁, h₂, h₃, h₄, acquiring, releasing]

variable (key) in
lemma balanced_everywhere (h : Scripted typeOf q script) :
    Everywhere (fun l => tally (acquiring key) (l ++ Note.unwind l) =
      tally (releasing key) (l ++ Note.unwind l)) [] script := by
  cases h with
  | dropped => rfl
  | refused => exact ⟨rfl, rfl⟩
  | @failed reason r hr =>
    obtain ⟨h₁, h₂⟩ := hr.unlocking key
    have hu : Note.unwind (.tsigFailure reason :: r) = [] := unwind_free (by
      obtain rfl | ⟨reply, rfl, -⟩ := hr <;> simp [Note.lock])
    refine ⟨rfl, ?_⟩
    rw [List.nil_append, Everywhere, hu]
    simp [h₁, h₂, acquiring, releasing]
  | raised p => simp [Everywhere, unwind_held, unwind_free, Note.releases, acquiring, releasing]
  | called p tsigKeyId ho hr he hcl =>
    obtain ⟨h₁, h₂⟩ := hr.unlocking key
    obtain ⟨h₃, h₄⟩ := observed_unlocking typeOf q p key
    have h₅ := observed_releases typeOf q p p.lockKey
    cases hcl <;> simp [Everywhere, unwind_held, unwind_free, h₁, h₂, h₃, h₄, h₅, Note.releases,
      acquiring, releasing]

variable (typeOf q) in
lemma observed_acquires (p : Plan P)
    (k : String) : (q.observed typeOf p).any (Note.acquires k) = false := by
  rw [Request.observed]
  split <;> simp [Note.acquires]

lemma Answers.acquires {rcode : ℕ} {r : List (Note P)} (h : Answers rcode r) (k : String) :
    r.any (Note.acquires k) = false := by
  obtain rfl | ⟨reply, rfl, -⟩ := h <;> simp [Note.acquires]

variable (key) in
lemma acquires_first {first : List (Note P)} {others : List (List (Note P))}
    (h : Scripted typeOf q (first :: others)) : tally (acquiring key) first ≤ 1 ∧
    ∀ segment ∈ others, ∀ k, segment.any (Note.acquires k) = false := by
  cases h with
  | refused hr => simp [acquiring]
  | failed reason hr => simp [acquiring, (hr.unlocking key).acquires]
  | raised p =>
    refine ⟨?_, by simp [Note.acquires]⟩
    simp only [tally_cons, tally_nil, acquiring]
    split <;> simp
  | called p tsigKeyId ho hr he hcl =>
    constructor
    · simp only [tally_cons, tally_nil, acquiring]
      split <;> simp
    · intro segment hm k
      have h₁ := hr.acquires k
      have h₂ := observed_acquires typeOf q p k
      cases hcl with
      | unrecorded =>
        obtain rfl := List.mem_singleton.mp hm
        simp [List.any_append, h₁, h₂, Note.acquires]
      | stored =>
        simp only [List.mem_cons, List.not_mem_nil, or_false] at hm
        obtain rfl | rfl | rfl := hm <;> simp [List.any_append, h₁, h₂, Note.acquires]
      | lost =>
        simp only [List.mem_cons, List.not_mem_nil, or_false] at hm
        obtain rfl | rfl := hm <;> simp [List.any_append, h₁, h₂, Note.acquires]
      | landed =>
        simp only [List.mem_cons, List.not_mem_nil, or_false] at hm
        obtain rfl | rfl | rfl := hm <;> simp [List.any_append, h₁, h₂, Note.acquires]

lemma tally_acquiring {l : List (Note P)} (h : l.any (Note.acquires key) = false) :
    tally (acquiring key) l = 0 := by
  refine tally_eq_zero _ (fun a ha => ?_)
  have hn := List.any_eq_false.mp h a ha
  cases a with
  | effect e =>
    cases e with
    | acquire k => exact if_neg (fun he => hn (by simp [Note.acquires, he]))
    | _ => rfl
  | _ => rfl

variable {s s' : Interleaving.State (Note P)} {es : List (Interleaving.Event (Note P))}

lemma advance_of_begun (h : (handlers typeOf Q).system.Run es s) {t : Interleaving.Task (Note P)}
    (ht : t ∈ s.tasks) (hr : t.rest ≠ []) (hp : t.performed ≠ []) :
    ∃ i s', (handlers typeOf Q).Step s (.advance i) s' := by
  obtain ⟨i, hi⟩ := List.mem_iff_getElem?.mp ht
  obtain ⟨script, ⟨q, -, rfl⟩, hran⟩ := (Interleaving.inv_of_run h).ran t ht
  cases hran with
  | short => exact absurd rfl hr
  | @whole done rest hs =>
    obtain ⟨segment, rest, rfl⟩ := List.exists_cons_of_ne_nil hr
    cases done with
    | nil => exact absurd rfl hp
    | cons first done =>
      have hfirst := (acquires_first "" (hs ▸ scripted typeOf q)).2 segment (by simp)
      exact ⟨i, _, .advance hi rfl (fun key hk => absurd (hfirst key) (by simp [hk]))⟩

theorem exists_advance (h : (handlers typeOf Q).system.Run es s) (hi : ¬ s.Idle) :
    ∃ i s', (handlers typeOf Q).Step s (.advance i) s' := by
  obtain ⟨t, ht, hr⟩ : ∃ t ∈ s.tasks, t.rest ≠ [] := by simpa [Interleaving.State.Idle] using hi
  obtain ⟨segment, rest, hrest⟩ := List.exists_cons_of_ne_nil hr
  by_cases hready : (handlers typeOf Q).ready s.log segment
  · obtain ⟨i, hi⟩ := List.mem_iff_getElem?.mp ht
    exact ⟨i, _, .advance hi hrest hready⟩
  · -- somebody holds the lock, and whoever holds a lock can go on
    obtain ⟨key, -, hne⟩ : ∃ key, segment.any (Note.acquires key) = true ∧
        tally (acquiring key) s.log ≠ tally (releasing key) s.log := by
      by_contra hn
      exact hready (fun key hk => by_contra (fun hne => hn ⟨key, hk, hne⟩))
    have hinv := Interleaving.inv_of_run h
    rw [tally_perm _ hinv.log, tally_perm _ hinv.log, tally_flatMap, tally_flatMap] at hne
    obtain ⟨u, hu, hne⟩ := exists_of_tally_ne hne
    obtain ⟨script, ⟨q, -, rfl⟩, hran⟩ := hinv.ran u hu
    have hscripted := scripted typeOf q
    cases hran with
    | short hs => exact absurd ((balanced_everywhere key hscripted).before hs) hne
    | @whole done rest hs =>
      apply advance_of_begun h hu
      · rintro rfl
        rw [List.append_nil] at hs
        exact hne (hs ▸ balanced_whole hscripted)
      · intro hp
        rw [hp] at hne
        exact hne rfl

lemma acquires_once (h : (handlers typeOf Q).system.Run es s) {t : Interleaving.Task (Note P)}
    (ht : t ∈ s.tasks) {segment : List (Note P)} {rest : List (List (Note P))}
    (hr : t.rest = segment :: rest) : tally (acquiring key) segment ≤ 1 := by
  obtain ⟨script, ⟨q, -, rfl⟩, hran⟩ := (Interleaving.inv_of_run h).ran t ht
  cases hran with
  | short => cases hr
  | @whole done _ hs =>
    obtain rfl := hr
    cases done with
    | nil => exact (acquires_first key (hs ▸ scripted typeOf q)).1
    | cons first done =>
      have hlater := (acquires_first "" (hs ▸ scripted typeOf q)).2 segment (by simp)
      rw [tally_acquiring (hlater key)]
      exact Nat.zero_le 1

lemma held_once (h : (handlers typeOf Q).system.Run es s) (key : String) :
    tally (acquiring key) s.log ≤ tally (releasing key) s.log + 1 := by
  induction h with
  | init hs =>
    obtain rfl := hs
    exact Nat.zero_le 1
  | step h hs ih =>
    cases hs with
    | start => exact ih
    | @advance i t segment rest hi hr hready =>
      rw [tally_append, tally_append]
      have hone : tally (acquiring key) segment ≤ 1 := acquires_once h (List.mem_of_getElem? hi) hr
      cases ha : segment.any (Note.acquires key) with
      | false =>
        rw [tally_acquiring ha]
        omega
      | true =>
        have hfree := hready key ha
        omega
    | @abandon i t hi hr =>
      have hu : tally (acquiring key) ((handlers typeOf Q).unwind t.performed) = 0 :=
        tally_unwind (fun _ => rfl) t.performed
      rw [tally_append, tally_append, hu]
      omega

/-- No lock has two holders, and nothing that can happen to a handler leaves one taken: whatever the
handlers did and whichever of them were cancelled, the others can all go on to their ends, and then
every lock is free. -/
theorem locks_given_back (h : (handlers typeOf Q).system.Run es s) :
    (∀ key, tally (acquiring key) s.log ≤ tally (releasing key) s.log + 1) ∧
    (s.Idle → ∀ key, tally (acquiring key) s.log = tally (releasing key) s.log) ∧
    ∃ es' s', (handlers typeOf Q).system.Run (es ++ es') s' ∧ s'.Idle ∧
      ∀ e ∈ es', ∃ i, e = .advance i := by
  refine ⟨held_once h, fun hi key => ?_,
    Interleaving.exists_idle (fun _ _ hr hn => exists_advance hr hn) h⟩
  have hwhole (script : List (List (Note P))) (ha : (handlers typeOf Q).admits script) :
      tally (acquiring key) script.flatten = tally (releasing key) script.flatten := by
    obtain ⟨q, -, rfl⟩ := ha
    exact balanced_whole (scripted typeOf q)
  have hpart (script : List (List (Note P))) (ha : (handlers typeOf Q).admits script) :=
    everywhere_of_scripted (fun q script _ hs => balanced_everywhere key hs) script ha
  exact Nat.le_antisymm
    (Interleaving.tally_le_of_idle h hi (fun script ha => (hwhole script ha).le)
      (fun script ha => (hpart script ha).imp (fun _ hl => hl.le)))
    (Interleaving.tally_le_of_idle h hi (fun script ha => (hwhole script ha).ge)
      (fun script ha => (hpart script ha).imp (fun _ hl => hl.ge)))

lemma exists_run_alone (typeOf : P → ProviderType) (hq : Q q) :
    ∃ es s, (handlers typeOf Q).system.Run es s ∧ s.Settled ∧ s.log = q.notes typeOf := by
  have ha : (handlers typeOf Q).admits (q.script typeOf) := ⟨q, hq, rfl⟩
  obtain ⟨es, hr⟩ := Interleaving.exists_run_through ha (fun done segment rest hs key hk => by
    cases done with
    | nil => rfl
    | cons first done =>
      have hlater := (acquires_first key (hs ▸ scripted typeOf q)).2 segment (by simp) key
      rw [hlater] at hk
      cases hk)
  exact ⟨es, _, hr, by simp [Interleaving.State.Settled], flatten_segments _ _⟩

end Locks

section Sample

def sampleRequest : Request Unit where
  reader := Forgery.sampleServer.reader 1000
  render := Forgery.sampleServer.render
  routing := sampleRouting
  resolver := none
  world := ⟨.ok, 7, 1000, some true⟩
  landed := false
  source := "10.0.0.1"
  wire := Forgery.genuine

theorem sampleRequest_locks :
    ∃ es s, (handlers (fun _ : Unit => ProviderType.route53) (· = sampleRequest)).system.Run es s ∧
      tally (acquiring "_acme-challenge.z.") s.log = 1 ∧
      tally (releasing "_acme-challenge.z.") s.log = 1 := by
  obtain ⟨es, s, h, hs, hl⟩ := exists_run_alone (q := sampleRequest) (Q := (· = sampleRequest))
    (fun _ => ProviderType.route53) rfl
  have ha : tally (acquiring "_acme-challenge.z.") s.log = 1 := by
    rw [hl]
    decide +kernel
  exact ⟨es, s, h, ha, ((locks_given_back h).2.1 hs.idle _).symm.trans ha⟩

end Sample

end AstropathRelay.DataPlane
