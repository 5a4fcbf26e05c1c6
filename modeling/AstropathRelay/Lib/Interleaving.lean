import AstropathRelay.Lib.Runs

/-! Tasks that perform their scripts one segment at a time, in any order, where each may be cut
short between two of its segments. What all of them did is, up to order, what each of them did, so
what bounds a count in every single task bounds it in the whole. -/

namespace AstropathRelay.Lib

section Segments

variable {α : Type} (suspends : α → Bool)

def segments : List α → List (List α)
  | [] => []
  | a :: l =>
    if suspends a then [a] :: segments l
    else
      match segments l with
      | [] => [[a]]
      | segment :: rest => (a :: segment) :: rest

@[simp] lemma flatten_segments (l : List α) : (segments suspends l).flatten = l := by
  induction l with
  | nil => rfl
  | cons a l ih =>
    rw [segments]
    split
    · simp [ih]
    · split
      · next h => simpa [h] using ih
      · next h => simpa [h] using ih

variable {suspends}

lemma segments_single {l : List α} (hl : l ≠ []) (h : ∀ a ∈ l, suspends a = false) :
    segments suspends l = [l] := by
  induction l with
  | nil => exact absurd rfl hl
  | cons a l ih =>
    rw [segments, if_neg (by simp [h a List.mem_cons_self])]
    cases l with
    | nil => rfl
    | cons b l => rw [ih (by simp) (fun c hc => h c (List.mem_cons_of_mem a hc))]

lemma segments_cut {l : List α} (h : ∀ a ∈ l, suspends a = false) {a : α} (ha : suspends a = true)
    (l' : List α) : segments suspends (l ++ a :: l') = (l ++ [a]) :: segments suspends l' := by
  induction l with
  | nil => rw [List.nil_append, segments, if_pos ha, List.nil_append]
  | cons b l ih =>
    rw [List.cons_append, segments, if_neg (by simp [h b List.mem_cons_self]),
      ih (fun c hc => h c (List.mem_cons_of_mem b hc))]
    rfl

end Segments

section Prefixes

variable {α : Type}

def Everywhere (φ : List α → Prop) (performed : List α) : List (List α) → Prop
  | [] => φ performed
  | segment :: rest => φ performed ∧ Everywhere φ (performed ++ segment) rest

lemma Everywhere.here {φ : List α → Prop} {performed : List α} {script : List (List α)}
    (h : Everywhere φ performed script) : φ performed := by
  cases script with
  | nil => exact h
  | cons segment rest => exact h.1

lemma Everywhere.after {φ : List α → Prop} {done rest : List (List α)} {performed : List α}
    (h : Everywhere φ performed (done ++ rest)) : φ (performed ++ done.flatten) := by
  induction done generalizing performed with
  | nil => simpa using h.here
  | cons segment done ih =>
    have hd := ih h.2
    rwa [List.append_assoc] at hd

lemma Everywhere.before {φ : List α → Prop} {script done rest : List (List α)}
    (h : Everywhere φ [] script) (hs : script = done ++ rest) : φ done.flatten := by
  have hd := (hs ▸ h).after
  rwa [List.nil_append] at hd

lemma Everywhere.imp {φ ψ : List α → Prop} (hi : ∀ l, φ l → ψ l) {script : List (List α)}
    {performed : List α} (h : Everywhere φ performed script) : Everywhere ψ performed script := by
  induction script generalizing performed with
  | nil => exact hi _ h
  | cons segment script ih => exact ⟨hi _ h.1, ih h.2⟩

end Prefixes

section Tallies

variable {σ α : Type}

def tally (w : α → ℕ) (l : List α) : ℕ := (l.map w).sum

variable (v w : α → ℕ)

@[simp] lemma tally_nil : tally w [] = 0 := rfl

@[simp] lemma tally_cons (a : α) (l : List α) : tally w (a :: l) = w a + tally w l := by
  rw [tally, List.map_cons, List.sum_cons]
  rfl

@[simp] lemma tally_append (l l' : List α) : tally w (l ++ l') = tally w l + tally w l' := by
  rw [tally, List.map_append, List.sum_append]
  rfl

@[simp] lemma tally_add (l : List α) : tally (fun a => v a + w a) l = tally v l + tally w l :=
  List.sum_map_add

lemma tally_perm {l l' : List α} (h : l.Perm l') : tally w l = tally w l' := (h.map w).sum_eq

lemma tally_eq_zero {l : List α} (h : ∀ a ∈ l, w a = 0) : tally w l = 0 := by
  induction l with
  | nil => rfl
  | cons a l ih =>
    rw [tally_cons, h a List.mem_cons_self, ih (fun b hb => h b (List.mem_cons_of_mem a hb))]

variable {w} in
lemma eq_zero_of_tally {l : List α} (h : tally w l = 0) {a : α} (ha : a ∈ l) : w a = 0 := by
  induction l with
  | nil => cases ha
  | cons b l ih =>
    rw [tally_cons] at h
    rcases List.mem_cons.mp ha with rfl | ha
    · omega
    · exact ih (by omega) ha

lemma exists_of_tally_ne {v w : α → ℕ} {l : List α} (h : tally v l ≠ tally w l) :
    ∃ a ∈ l, v a ≠ w a := by
  by_contra hn
  apply h
  rw [tally, tally]
  congr 1
  exact List.map_congr_left (fun a ha => by_contra (fun hne => hn ⟨a, ha, hne⟩))

variable {w}

lemma tally_flatMap {β : Type} (f : β → List α) (l : List β) :
    tally w (l.flatMap f) = tally (fun b => tally w (f b)) l := by
  induction l with
  | nil => rfl
  | cons b l ih => rw [List.flatMap_cons, tally_append, tally_cons, ih]

lemma tally_mono {v w : α → ℕ} {l : List α} (h : ∀ a ∈ l, v a ≤ w a) : tally v l ≤ tally w l :=
  List.sum_le_sum h

lemma foldl_counter {note : σ → α → σ} (get : σ → ℕ) (h : ∀ s a, get (note s a) = get s + w a)
    (log : List α) (s : σ) : get (log.foldl note s) = get s + tally w log := by
  induction log generalizing s with
  | nil => rfl
  | cons a log ih =>
    rw [List.foldl_cons, ih, h, tally_cons]
    omega

end Tallies

/-- Which scripts may be started, what may be performed after what the log holds already, and what a
task that is cut short still does. -/
structure Interleaving (α : Type) where
  admits : List (List α) → Prop
  ready : List α → List α → Prop
  unwind : List α → List α

namespace Interleaving

variable {α : Type}

structure Task (α : Type) where
  performed : List α
  rest : List (List α)
  cut : Bool

structure State (α : Type) where
  tasks : List (Task α)
  log : List α

inductive Event (α : Type)
  | start (script : List (List α))
  | advance (i : ℕ)
  | abandon (i : ℕ)

variable (I : Interleaving α)

inductive Step : State α → Event α → State α → Prop
  | start {s : State α} {script : List (List α)} : I.admits script →
      Step s (.start script) { s with tasks := s.tasks ++ [⟨[], script, false⟩] }
  | advance {s : State α} {i : ℕ} {t : Task α} {segment : List α} {rest : List (List α)} :
      s.tasks[i]? = some t → t.rest = segment :: rest → I.ready s.log segment →
      Step s (.advance i) ⟨s.tasks.set i ⟨t.performed ++ segment, rest, t.cut⟩, s.log ++ segment⟩
  | abandon {s : State α} {i : ℕ} {t : Task α} : s.tasks[i]? = some t → t.rest ≠ [] →
      Step s (.abandon i) ⟨s.tasks.set i ⟨t.performed ++ I.unwind t.performed, [], true⟩,
        s.log ++ I.unwind t.performed⟩

def system : System (State α) (Event α) := ⟨(· = ⟨[], []⟩), I.Step⟩

inductive Ran (script : List (List α)) : Task α → Prop
  | whole {done rest : List (List α)} : script = done ++ rest →
      Ran script ⟨done.flatten, rest, false⟩
  | short {done rest : List (List α)} : script = done ++ rest → rest ≠ [] →
      Ran script ⟨done.flatten ++ I.unwind done.flatten, [], true⟩

def State.Idle (s : State α) : Prop := ∀ t ∈ s.tasks, t.rest = []

def State.Settled (s : State α) : Prop := ∀ t ∈ s.tasks, t.rest = [] ∧ t.cut = false

variable {I} {s s' : State α}

lemma State.Settled.idle (h : s.Settled) : s.Idle := fun t ht => (h t ht).1

lemma perm_set {β : Type} (f : β → List α) {extra : List α} {b' : β} {l : List β} {i : ℕ} {b : β}
    (h : l[i]? = some b)
    (hf : f b' = f b ++ extra) : ((l.set i b').flatMap f).Perm (l.flatMap f ++ extra) := by
  induction l generalizing i with
  | nil => simp at h
  | cons a l ih =>
    cases i with
    | zero =>
      obtain rfl := Option.some.inj h
      rw [List.set_cons_zero, List.flatMap_cons, List.flatMap_cons, hf, List.append_assoc,
        List.append_assoc]
      apply List.Perm.append_left
      exact List.perm_append_comm
    | succ i =>
      rw [List.set_cons_succ, List.flatMap_cons, List.flatMap_cons, List.append_assoc]
      apply List.Perm.append_left
      exact ih h

structure Inv (I : Interleaving α) (s : State α) : Prop where
  log : s.log.Perm (s.tasks.flatMap Task.performed)
  ran : ∀ t ∈ s.tasks, ∃ script, I.admits script ∧ I.Ran script t

lemma mem_set_cases {β : Type} {l : List β} {i : ℕ} {b c : β} (h : c ∈ l.set i b) : c ∈ l ∨ c = b :=
  List.mem_or_eq_of_mem_set h

lemma Ran.advance {script : List (List α)} {t : Task α} {segment : List α} {rest : List (List α)}
    (h : I.Ran script t) (ht : t.rest = segment :: rest) :
    I.Ran script ⟨t.performed ++ segment, rest, t.cut⟩ := by
  cases h with
  | @whole done rest' hs =>
    obtain rfl : rest' = segment :: rest := ht
    have hw : I.Ran script ⟨(done ++ [segment]).flatten, rest, false⟩ := .whole (by simp [hs])
    simpa using hw
  | short => simp at ht

lemma Ran.abandon {script : List (List α)} {t : Task α} (h : I.Ran script t) (ht : t.rest ≠ []) :
    I.Ran script ⟨t.performed ++ I.unwind t.performed, [], true⟩ := by
  cases h with
  | whole hs => exact .short hs ht
  | short => exact absurd rfl ht

theorem Inv.step (h : I.Inv s) {e : Event α} (hs : I.Step s e s') : I.Inv s' := by
  cases hs with
  | @start script ha =>
    refine ⟨by simpa using h.log, fun t ht => ?_⟩
    rcases List.mem_append.mp ht with ht | ht
    · exact h.ran t ht
    · obtain rfl := List.mem_singleton.mp ht
      exact ⟨script, ha, .whole (List.nil_append script).symm⟩
  | advance hi hr =>
    refine ⟨(h.log.append_right _).trans (perm_set _ hi rfl).symm, fun t ht => ?_⟩
    rcases mem_set_cases ht with ht | rfl
    · exact h.ran t ht
    · obtain ⟨script, ha, hran⟩ := h.ran _ (List.mem_of_getElem? hi)
      exact ⟨script, ha, hran.advance hr⟩
  | abandon hi hr =>
    refine ⟨(h.log.append_right _).trans (perm_set _ hi rfl).symm, fun t ht => ?_⟩
    rcases mem_set_cases ht with ht | rfl
    · exact h.ran t ht
    · obtain ⟨script, ha, hran⟩ := h.ran _ (List.mem_of_getElem? hi)
      exact ⟨script, ha, hran.abandon hr⟩

theorem inv_of_run {es : List (Event α)} (h : I.system.Run es s) : I.Inv s := by
  refine h.invariant ?_ (fun s e s' hi hs => hi.step hs)
  rintro s rfl
  exact ⟨.refl _, by simp⟩

section Progress

lemma exists_run_through {script : List (List α)} (ha : I.admits script)
    (hr : ∀ done segment rest, script = done ++ segment :: rest → I.ready done.flatten segment) :
    ∃ es, I.system.Run es ⟨[⟨script.flatten, [], false⟩], script.flatten⟩ := by
  have hrun : ∀ done rest, script = done ++ rest →
      ∃ es, I.system.Run es ⟨[⟨done.flatten, rest, false⟩], done.flatten⟩ := by
    intro done
    induction done using List.reverseRecOn with
    | nil =>
      intro rest hs
      obtain rfl : script = rest := hs
      exact ⟨[.start script], .step (.init rfl : I.system.Run [] _) (Step.start ha)⟩
    | append_singleton done segment ih =>
      intro rest hs
      rw [List.append_assoc, List.singleton_append] at hs
      obtain ⟨es, h⟩ := ih _ hs
      have hstep := h.step
        (Step.advance (i := 0) (t := ⟨done.flatten, segment :: rest, false⟩) rfl rfl (hr _ _ _ hs))
      exact ⟨_, by simpa using hstep⟩
  simpa using hrun script [] (by simp)

def State.pending (s : State α) : ℕ := tally (fun t => t.rest.length) s.tasks

lemma tally_set {β : Type} {w : β → ℕ} {l : List β} {i : ℕ} {b b' : β} (h : l[i]? = some b)
    (hlt : w b' < w b) : tally w (l.set i b') < tally w l := by
  induction l generalizing i with
  | nil => simp at h
  | cons a l ih =>
    cases i with
    | zero =>
      obtain rfl := Option.some.inj h
      simp [hlt]
    | succ i =>
      have hh := ih h
      rw [List.set_cons_succ, tally_cons, tally_cons]
      omega

lemma pending_advance {i : ℕ} (hs : I.Step s (.advance i) s') : s'.pending < s.pending := by
  cases hs with
  | advance hi hr _ => exact tally_set hi (by simp [hr])

theorem exists_idle (hp : ∀ es s, I.system.Run es s → ¬ s.Idle → ∃ i s', I.Step s (.advance i) s')
    {es : List (Event α)} (h : I.system.Run es s) :
    ∃ es' s', I.system.Run (es ++ es') s' ∧ s'.Idle ∧ ∀ e ∈ es', ∃ i, e = .advance i := by
  induction hn : s.pending using Nat.strong_induction_on generalizing s es with
  | _ n ih =>
    by_cases hi : s.Idle
    · exact ⟨[], s, by simpa using h, hi, by simp⟩
    · obtain ⟨i, t, hs⟩ := hp es s h hi
      obtain ⟨es', u, hu, hidle, hes⟩ := ih t.pending (hn ▸ pending_advance hs) (h.step hs) rfl
      refine ⟨.advance i :: es', u, by simpa using hu, hidle, fun e he => ?_⟩
      rcases List.mem_cons.mp he with rfl | he
      · exact ⟨i, rfl⟩
      · exact hes e he

end Progress

section Tally

variable {es : List (Event α)} {v w : α → ℕ}

lemma tally_of_tasks (h : I.system.Run es s) (hle : ∀ script t, t ∈ s.tasks → I.admits script →
      I.Ran script t → tally v t.performed ≤ tally w t.performed) :
    tally v s.log ≤ tally w s.log := by
  have hinv := inv_of_run h
  rw [tally_perm v hinv.log, tally_perm w hinv.log, tally_flatMap, tally_flatMap]
  refine tally_mono (fun t ht => ?_)
  obtain ⟨script, ha, hran⟩ := hinv.ran t ht
  exact hle script t ht ha hran

theorem tally_le (h : I.system.Run es s) (hu : ∀ l, tally v (I.unwind l) = 0)
    (hle : ∀ script, I.admits script → Everywhere (fun l => tally v l ≤ tally w l) [] script) :
    tally v s.log ≤ tally w s.log := by
  refine tally_of_tasks h (fun script t _ ha hran => ?_)
  have he := hle script ha
  cases hran with
  | whole hs => exact he.before hs
  | short hs =>
    have hd := he.before hs
    rw [tally_append, tally_append, hu]
    omega

theorem tally_eq (h : I.system.Run es s) (hv : ∀ l, tally v (I.unwind l) = 0)
    (hw : ∀ l, tally w (I.unwind l) = 0)
    (heq : ∀ script, I.admits script → Everywhere (fun l => tally v l = tally w l) [] script) :
    tally v s.log = tally w s.log :=
  Nat.le_antisymm (tally_le h hv (fun script ha => (heq script ha).imp (fun _ he => he.le)))
    (tally_le h hw (fun script ha => (heq script ha).imp (fun _ he => he.ge)))

theorem tally_le_of_idle (h : I.system.Run es s) (hs : s.Idle)
    (hwhole : ∀ script, I.admits script → tally v script.flatten ≤ tally w script.flatten)
    (hle : ∀ script, I.admits script →
      Everywhere (fun l => tally v (l ++ I.unwind l) ≤ tally w (l ++ I.unwind l)) [] script) :
    tally v s.log ≤ tally w s.log := by
  refine tally_of_tasks h (fun script t ht ha hran => ?_)
  have hrest := hs t ht
  have he := hle script ha
  cases hran with
  | whole hsc =>
    obtain rfl := hrest
    rw [List.append_nil] at hsc
    exact hsc ▸ hwhole script ha
  | short hsc => exact he.before hsc

theorem tally_le_of_settled (h : I.system.Run es s) (hs : s.Settled)
    (hwhole : ∀ script, I.admits script → tally v script.flatten ≤ tally w script.flatten) :
    tally v s.log ≤ tally w s.log := by
  refine tally_of_tasks h (fun script t ht ha hran => ?_)
  obtain ⟨hrest, hcut⟩ := hs t ht
  cases hran with
  | whole hsc =>
    obtain rfl := hrest
    rw [List.append_nil] at hsc
    exact hsc ▸ hwhole script ha
  | short => exact absurd hcut (by simp)

end Tally

end Interleaving

end AstropathRelay.Lib
