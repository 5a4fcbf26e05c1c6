import AstropathRelay.Lib.Runs

/-! Tasks that read and then change a cell while they hold the cell's lock. Whatever the
interleaving, a cell holds what the changes that went through give in the order of the lock
acquisitions. -/

namespace AstropathRelay.Lib

structure Locked (ι K C V D : Type) where
  key : ι → K
  cell : ι → C
  plan : ι → V → Option D
  submit : V → D → Option V
  guarded : ∀ i j, cell i = cell j → key i = key j

namespace Locked

variable {ι K C V D : Type}

inductive Phase (V : Type)
  | waiting
  | holding
  | seen (v : V)
  | leaving
  | done

def Phase.Active : Phase V → Prop
  | waiting => False
  | holding => True
  | seen _ => True
  | leaving => True
  | done => False

structure State (ι K C V : Type) where
  phase : ι → Phase V
  holder : K → Option ι
  store : C → V
  acquired : List ι
  written : List ι

inductive Event (ι : Type)
  | acquire (i : ι)
  | read (i : ι)
  | write (i : ι)
  | skip (i : ι)
  | abandon (i : ι)
  | release (i : ι)

def start (store : C → V) : State ι K C V := ⟨fun _ => .waiting, fun _ => none, store, [], []⟩

variable [DecidableEq ι] (L : Locked ι K C V D)

def moved (s : State ι K C V) (i : ι) (p : Phase V) : State ι K C V :=
  { s with phase := Function.update s.phase i p }

def perform (i : ι) (v : V) : Option V := (L.plan i v).bind (L.submit v)

variable [DecidableEq C]

def effective (s : State ι K C V) (c : C) : List ι :=
  s.acquired.filter (fun i => i ∈ s.written ∧ L.cell i = c)

def serial (store : C → V) (s : State ι K C V) (c : C) : V :=
  (L.effective s c).foldl (fun v i => (L.perform i v).getD v) (store c)

structure Inv (store : C → V) (s : State ι K C V) : Prop where
  holds : ∀ i, (s.phase i).Active → s.holder (L.key i) = some i
  held : ∀ k i, s.holder k = some i → (s.phase i).Active ∧ L.key i = k
  fresh : ∀ i ∈ s.acquired, s.phase i ≠ .waiting
  latest : ∀ i, (s.phase i).Active → ∃ pre post, s.acquired = pre ++ i :: post ∧ i ∉ pre ∧
    ∀ j ∈ post, L.key j ≠ L.key i
  seen : ∀ i v, s.phase i = .seen v → s.store (L.cell i) = v
  unwritten : ∀ i ∈ s.written, i ∈ s.acquired ∧ (s.phase i = .leaving ∨ s.phase i = .done)
  serial : ∀ c, s.store c = L.serial store s c

variable {L} {store : C → V} {s s' : State ι K C V}

lemma Inv.unique (h : Inv L store s) {i j : ι} (hi : (s.phase i).Active) (hj : (s.phase j).Active)
    (hk : L.key i = L.key j) : i = j := by
  have hh := h.holds i hi
  rw [hk, h.holds j hj] at hh
  exact (Option.some.inj hh).symm

omit [DecidableEq C] in
lemma phase_moved (s : State ι K C V) (i j : ι) (p : Phase V) :
    (moved s i p).phase j = if j = i then p else s.phase j := by
  simp [moved, Function.update_apply]

lemma Inv.stay (h : Inv L store s) {i : ι} {p : Phase V} (hi : (s.phase i).Active) (hp : p.Active)
    (hseen : ∀ v, p = .seen v → s.store (L.cell i) = v) (hw : i ∈ s.written → p = .leaving) :
    Inv L store (moved s i p) where
  holds j hj := by
    have hj' := h.holds j
    have hi' := h.holds i
    grind [phase_moved, moved]
  held k j hk := by
    have hh := h.held k j hk
    grind [phase_moved, moved]
  fresh j hj := by
    have hh := h.fresh j hj
    grind [phase_moved, moved, Phase.Active]
  latest j hj := by
    have hh := h.latest j
    grind [phase_moved, moved]
  seen j v hj := by
    have hh := h.seen j v
    grind [phase_moved, moved]
  unwritten j hj := by
    have hh := h.unwritten j hj
    grind [phase_moved, moved]
  serial := h.serial

lemma Inv.abandonWaiting (h : Inv L store s) {i : ι} (hi : s.phase i = .waiting) :
    Inv L store (moved s i .done) where
  holds j hj := by
    have hh := h.holds j
    grind [phase_moved, moved, Phase.Active]
  held k j hk := by
    have hh := h.held k j hk
    grind [phase_moved, moved, Phase.Active]
  fresh j hj := by
    have hh := h.fresh j hj
    grind [phase_moved, moved]
  latest j hj := by
    have hh := h.latest j
    grind [phase_moved, moved, Phase.Active]
  seen j v hj := by
    have hh := h.seen j v
    grind [phase_moved, moved]
  unwritten j hj := by
    have hh := h.unwritten j hj
    grind [phase_moved, moved]
  serial := h.serial

variable [DecidableEq K]

variable (L) in
inductive Step : State ι K C V → Event ι → State ι K C V → Prop
  | acquire {s : State ι K C V} {i : ι} : s.phase i = .waiting → s.holder (L.key i) = none →
      Step s (.acquire i) { moved s i .holding with
        holder := Function.update s.holder (L.key i) (some i), acquired := s.acquired ++ [i] }
  | read {s : State ι K C V} {i : ι} : s.phase i = .holding →
      Step s (.read i) (moved s i (.seen (s.store (L.cell i))))
  | write {s : State ι K C V} {i : ι} {v w : V} {d : D} : s.phase i = .seen v →
      L.plan i v = some d → L.submit (s.store (L.cell i)) d = some w →
      Step s (.write i) { moved s i .leaving with
        store := Function.update s.store (L.cell i) w, written := s.written ++ [i] }
  | skip {s : State ι K C V} {i : ι} {v : V} : s.phase i = .seen v → L.plan i v = none →
      Step s (.skip i) (moved s i .leaving)
  | abandonWaiting {s : State ι K C V} {i : ι} : s.phase i = .waiting →
      Step s (.abandon i) (moved s i .done)
  | abandonActive {s : State ι K C V} {i : ι} : (s.phase i).Active →
      Step s (.abandon i) (moved s i .leaving)
  | release {s : State ι K C V} {i : ι} : s.phase i = .leaving →
      Step s (.release i) { moved s i .done with holder := Function.update s.holder (L.key i) none }

variable (L) in
def system (store : C → V) : System (State ι K C V) (Event ι) := ⟨(· = start store), L.Step⟩

lemma Inv.acquire (h : Inv L store s) {i : ι} (hi : s.phase i = .waiting)
    (hk : s.holder (L.key i) = none) : Inv L store { moved s i .holding with
      holder := Function.update s.holder (L.key i) (some i), acquired := s.acquired ++ [i] } where
  holds j hj := by
    have hh := h.holds j
    grind [phase_moved, Function.update_apply]
  held k j hj := by
    have hh := h.held k j
    grind [phase_moved, Function.update_apply, Phase.Active]
  fresh j hj := by
    have hh := h.fresh j
    grind [phase_moved]
  latest j hj := by
    by_cases hji : j = i
    · subst hji
      exact ⟨s.acquired, [], rfl, fun hm => h.fresh j hm hi, by simp⟩
    · have hja : (s.phase j).Active := by simpa [phase_moved, hji] using hj
      obtain ⟨pre, post, ha, hpre, hpost⟩ := h.latest j hja
      refine ⟨pre, post ++ [i], by simp [ha], hpre, fun k hm => ?_⟩
      rcases List.mem_append.mp hm with hm | hm
      · exact hpost k hm
      · obtain rfl := List.mem_singleton.mp hm
        intro hkey
        rw [hkey, h.holds j hja] at hk
        simp at hk
  seen j v hj := by
    have hh := h.seen j v
    grind [phase_moved, moved]
  unwritten j hj := by
    have hh := h.unwritten j hj
    grind [phase_moved]
  serial c := by
    have hi' : i ∉ s.written := fun hm => h.fresh i (h.unwritten i hm).1 hi
    have he : L.effective { moved s i .holding with
        holder := Function.update s.holder (L.key i) (some i),
          acquired := s.acquired ++ [i] } c = L.effective s c := by
      simp only [effective, moved, List.filter_append, List.filter_cons, hi', false_and,
        decide_false, Bool.false_eq_true, ↓reduceIte, List.filter_nil, List.append_nil]
      rfl
    rw [Locked.serial, he]
    exact h.serial c

lemma Inv.release (h : Inv L store s) {i : ι} (hi : s.phase i = .leaving) :
    Inv L store { moved s i .done with holder := Function.update s.holder (L.key i) none } where
  holds j hj := by
    have hh := h.holds j
    have hu := h.unique (i := i) (j := j)
    grind [phase_moved, Function.update_apply, Phase.Active]
  held k j hj := by
    have hh := h.held k j
    grind [phase_moved, Function.update_apply, Phase.Active]
  fresh j hj := by
    have hh := h.fresh j hj
    grind [phase_moved]
  latest j hj := by
    have hh := h.latest j
    grind [phase_moved, moved, Phase.Active]
  seen j v hj := by
    have hh := h.seen j v
    grind [phase_moved, moved]
  unwritten j hj := by
    have hh := h.unwritten j hj
    grind [phase_moved, moved]
  serial := h.serial

omit [DecidableEq K] in
lemma Inv.effective_write (h : Inv L store s) {i : ι} {v w : V} (hi : s.phase i = .seen v) (c : C) :
    L.effective { moved s i .leaving with
      store := Function.update s.store (L.cell i) w, written := s.written ++ [i] } c =
      if L.cell i = c then L.effective s c ++ [i] else L.effective s c := by
  have hact : (s.phase i).Active := by rw [hi]; trivial
  have hnew : i ∉ s.written := fun hm => by
    have hh := (h.unwritten i hm).2
    simp [hi] at hh
  obtain ⟨pre, post, ha, hpre, hpost⟩ := h.latest i hact
  have hout (c : C) (hc : L.cell i = c) (w : List ι) : post.filter (fun j => j ∈ w ∧
      L.cell j = c) = [] := by
    rw [List.filter_eq_nil_iff]
    intro j hj
    have hne := hpost j hj
    simp only [decide_eq_true_eq, not_and]
    rintro - hcj
    exact hne (L.guarded j i (hcj.trans hc.symm))
  have hsame (l : List ι) (hl : i ∉ l) : l.filter (fun j => j ∈ s.written ++ [i] ∧
      L.cell j = c) = l.filter (fun j => j ∈ s.written ∧ L.cell j = c) := by
    refine List.filter_congr (fun j hj => ?_)
    have hji : j ≠ i := fun hh => hl (hh ▸ hj)
    simp [hji]
  by_cases hc : L.cell i = c
  · simp only [effective, moved, ha, List.filter_append, List.filter_cons, hout c hc,
      hsame pre hpre, hc, hnew]
    simp
  · rw [if_neg hc]
    refine List.filter_congr (fun j _ => ?_)
    by_cases hji : j = i
    · subst hji
      simp [hc]
    · simp [hji]

omit [DecidableEq K] in
lemma Inv.write (h : Inv L store s) {i : ι} {v w : V} {d : D} (hi : s.phase i = .seen v)
    (hp : L.plan i v = some d) (hs : L.submit (s.store (L.cell i)) d = some w) :
    Inv L store { moved s i .leaving with
      store := Function.update s.store (L.cell i) w, written := s.written ++ [i] } where
  holds j hj := by
    have hh := h.holds j
    grind [phase_moved, moved, Phase.Active]
  held k j hj := by
    have hh := h.held k j
    grind [phase_moved, moved, Phase.Active]
  fresh j hj := by
    have hh := h.fresh j hj
    grind [phase_moved]
  latest j hj := by
    have hh := h.latest j
    grind [phase_moved, moved, Phase.Active]
  seen j u hj := by
    by_cases hji : j = i
    · subst hji
      simp [phase_moved] at hj
    · have hj' : s.phase j = .seen u := by simpa [phase_moved, hji] using hj
      have hne : L.cell j ≠ L.cell i := fun hc =>
        hji (h.unique (by rw [hj']; trivial) (by rw [hi]; trivial) (L.guarded j i hc))
      simpa [hne] using h.seen j u hj'
  unwritten j hj := by
    obtain ⟨pre, post, ha, -, -⟩ := h.latest i (by rw [hi]; trivial)
    have hh := h.unwritten j
    grind [phase_moved, moved]
  serial c := by
    have hv := h.seen i v hi
    have hser := h.serial c
    rw [Locked.serial, h.effective_write hi]
    by_cases hc : L.cell i = c
    · subst hc
      have hperf : L.perform i v = some w := by rw [perform, hp, Option.bind_some, ← hv, hs]
      rw [if_pos rfl, List.foldl_append, ← Locked.serial, ← hser, hv]
      simp [hperf]
    · rw [if_neg hc]
      rw [← Locked.serial, ← hser]
      simp [Ne.symm hc]

theorem Inv.step (h : Inv L store s) {e : Event ι} (hs : L.Step s e s') : Inv L store s' := by
  cases hs with
  | acquire hi hk => exact h.acquire hi hk
  | read hi =>
    refine h.stay (by rw [hi]; trivial) trivial (fun v hv => (Phase.seen.inj hv)) (fun hw => ?_)
    have hh := (h.unwritten _ hw).2
    simp [hi] at hh
  | write hi hp hs => exact h.write hi hp hs
  | skip hi => exact h.stay (by rw [hi]; trivial) trivial (by simp) (fun _ => rfl)
  | abandonWaiting hi => exact h.abandonWaiting hi
  | abandonActive hi => exact h.stay hi trivial (by simp) (fun _ => rfl)
  | release hi => exact h.release hi

theorem inv_of_run {es : List (Event ι)} (h : (L.system store).Run es s) : Inv L store s := by
  refine h.invariant ?_ (fun s e s' hi hs => hi.step hs)
  rintro s rfl
  constructor <;> simp [start, Phase.Active, Locked.serial, effective]

end Locked

end AstropathRelay.Lib
