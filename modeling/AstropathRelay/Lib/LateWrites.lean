import AstropathRelay.Lib.Runs

/-! Tasks that hold a lock while they ask a store to take a value, again and again until an answer
satisfies them. The store may take a request at any time after it was sent, or never, and answers
without regard to the order; all that its answers are trusted for is that a request it vouches for
was taken. -/

namespace AstropathRelay.Lib

structure Sender (ι K C V R : Type) where
  key : ι → K
  cell : ι → C
  value : ι → V
  again : ι → List R → Bool
  vouches : R → Bool
  guarded : ∀ i j, cell i = cell j → key i = key j

namespace Sender

variable {ι K C V R : Type}

inductive Phase (R : Type)
  | waiting
  | holding (answers : List R) (asked : Bool)
  | done (answers : List R) (asked : Bool)

namespace Phase

def answers : Phase R → List R
  | waiting => []
  | holding answers _ => answers
  | done answers _ => answers

def asked : Phase R → Bool
  | waiting => false
  | holding _ asked => asked
  | done _ asked => asked

def sent (p : Phase R) : ℕ := p.answers.length + if p.asked then 1 else 0

def Active : Phase R → Prop
  | holding _ _ => True
  | _ => False

end Phase

inductive Mark (ι : Type)
  | acquired (i : ι)
  | landed (i : ι)
deriving DecidableEq

structure State (ι K C V R : Type) where
  phase : ι → Phase R
  holder : K → Option ι
  store : C → V
  landed : List (ι × ℕ)
  history : List (Mark ι)

inductive Event (ι R : Type)
  | acquire (i : ι)
  | ask (i : ι)
  | land (i : ι) (n : ℕ)
  | answer (i : ι) (r : R)
  | release (i : ι)

def State.after [DecidableEq ι] (s : State ι K C V R) (i : ι) : List (Mark ι) :=
  (s.history.dropWhile (fun m => m ≠ .acquired i)).tail

def start (store : C → V) : State ι K C V R := ⟨fun _ => .waiting, fun _ => none, store, [], []⟩

variable [DecidableEq ι] [DecidableEq K] [DecidableEq C] (S : Sender ι K C V R)

def moved (s : State ι K C V R) (i : ι) (p : Phase R) : State ι K C V R :=
  { s with phase := Function.update s.phase i p }

/-- A task may give its lock up at any time, be it done or cancelled. What it sent stays on its way.
-/
inductive Step : State ι K C V R → Event ι R → State ι K C V R → Prop
  | acquire {s : State ι K C V R} {i : ι} : s.phase i = .waiting → s.holder (S.key i) = none →
      Step s (.acquire i) { moved s i (.holding [] false) with
        holder := Function.update s.holder (S.key i) (some i),
          history := s.history ++ [.acquired i] }
  | ask {s : State ι K C V R} {i : ι} {answers : List R} : s.phase i = .holding answers false →
      S.again i answers = true → Step s (.ask i) (moved s i (.holding answers true))
  | land {s : State ι K C V R} {i : ι} {n : ℕ} : n < (s.phase i).sent → (i, n) ∉ s.landed →
      Step s (.land i n) { s with
        store := Function.update s.store (S.cell i) (S.value i), landed := s.landed ++ [(i, n)],
        history := s.history ++ [.landed i] }
  | answer {s : State ι K C V R} {i : ι} {answers : List R} {r : R} : s.phase i =
      .holding answers true → (S.vouches r = true → (i, answers.length) ∈ s.landed) →
      Step s (.answer i r) (moved s i (.holding (answers ++ [r]) false))
  | release {s : State ι K C V R} {i : ι} {answers : List R} {asked : Bool} : s.phase i =
      .holding answers asked → Step s (.release i) { moved s i (.done answers asked) with
        holder := Function.update s.holder (S.key i) none }

def system (store : C → V) : System (State ι K C V R) (Event ι R) := ⟨(· = start store), S.Step⟩

def Mark.landing (c : C) : Mark ι → Option ι
  | .acquired _ => none
  | .landed i => if S.cell i = c then some i else none

def content (store : C → V) (history : List (Mark ι)) (c : C) : V :=
  (history.filterMap (Mark.landing S c)).getLast?.elim (store c) S.value

structure Held (s : State ι K C V R) : Prop where
  holds : ∀ i, (s.phase i).Active → s.holder (S.key i) = some i
  held : ∀ k i, s.holder k = some i → (s.phase i).Active ∧ S.key i = k

structure Told (s : State ι K C V R) : Prop where
  vouched : ∀ i, ∀ r ∈ (s.phase i).answers, S.vouches r = true → ∃ n, (i, n) ∈ s.landed
  again : ∀ i l r rest, (s.phase i).answers = l ++ r :: rest → S.again i l = true
  asked : ∀ i, (s.phase i).asked = true → S.again i (s.phase i).answers = true

structure Ordered (s : State ι K C V R) : Prop where
  fresh : ∀ i, s.phase i = .waiting → .acquired i ∉ s.history ∧ .landed i ∉ s.history
  landed : ∀ i n, (i, n) ∈ s.landed → .landed i ∈ s.history
  begun : ∀ i, s.phase i ≠ .waiting → ∃ pre post, s.history = pre ++ .acquired i :: post ∧
    .acquired i ∉ pre ∧ .landed i ∉ pre ∧
    ((s.phase i).Active → ∀ j, .acquired j ∈ post → S.key j ≠ S.key i)

variable {S} {store : C → V} {s s' : State ι K C V R} {e : Event ι R}

omit [DecidableEq K] [DecidableEq C] in
lemma phase_moved (s : State ι K C V R) (i j : ι) (p : Phase R) :
    (moved s i p).phase j = if j = i then p else s.phase j := by
  simp [moved, Function.update_apply]

omit [DecidableEq C] [DecidableEq ι] [DecidableEq K] in
lemma Held.unique (h : S.Held s) {i j : ι} (hi : (s.phase i).Active) (hj : (s.phase j).Active)
    (hk : S.key i = S.key j) : i = j := by
  have hh := h.holds i hi
  rw [hk, h.holds j hj] at hh
  exact (Option.some.inj hh).symm

lemma Held.step (h : S.Held s) (hs : S.Step s e s') : S.Held s' := by
  have hu {i j : ι} := h.unique (i := i) (j := j)
  cases hs with
  | acquire hi hk =>
    refine ⟨fun j hj => ?_, fun k j hj => ?_⟩
    · have hh := h.holds j
      grind [phase_moved, Phase.Active]
    · have hh := h.held k j
      grind [phase_moved, Phase.Active]
  | ask hi _ =>
    refine ⟨fun j hj => ?_, fun k j hj => ?_⟩
    · have hh := h.holds j
      grind [phase_moved, moved, Phase.Active]
    · have hh := h.held k j
      grind [phase_moved, moved, Phase.Active]
  | land => exact ⟨h.holds, h.held⟩
  | answer hi _ =>
    refine ⟨fun j hj => ?_, fun k j hj => ?_⟩
    · have hh := h.holds j
      grind [phase_moved, moved, Phase.Active]
    · have hh := h.held k j
      grind [phase_moved, moved, Phase.Active]
  | @release i answers asked hi =>
    have hia : (s.phase i).Active := by rw [hi]; trivial
    refine ⟨fun j hj => ?_, fun k j hj => ?_⟩
    · have hh := h.holds j
      grind [phase_moved, Phase.Active]
    · have hh := h.held k j
      grind [phase_moved, Phase.Active]

omit [DecidableEq K] [DecidableEq C] in
lemma Told.of_same (h : S.Told s) {i : ι} {p : Phase R} (ha : p.answers = (s.phase i).answers)
    (hk : p.asked = true → S.again i p.answers = true) : S.Told (moved s i p) where
  vouched j r hr hv := by
    rw [phase_moved] at hr
    split at hr
    · next hji =>
      subst hji
      exact h.vouched j r (ha ▸ hr) hv
    · exact h.vouched j r hr hv
  again j l r rest hl := by
    rw [phase_moved] at hl
    split at hl
    · next hji =>
      subst hji
      exact h.again j l r rest (ha ▸ hl)
    · exact h.again j l r rest hl
  asked j hj := by
    rw [phase_moved] at hj ⊢
    split at hj
    · next hji =>
      subst hji
      rw [if_pos rfl]
      exact hk hj
    · next hji =>
      rw [if_neg hji]
      exact h.asked j hj

omit [DecidableEq K] [DecidableEq C] in
lemma Told.answered (h : S.Told s) {i : ι} {answers : List R} {r : R}
    (hi : s.phase i = .holding answers true)
    (hv : S.vouches r = true → (i, answers.length) ∈ s.landed) :
    S.Told (moved s i (.holding (answers ++ [r]) false)) where
  vouched j r' hr hv' := by
    rw [phase_moved] at hr
    split at hr
    · next hji =>
      subst hji
      rcases List.mem_append.mp hr with hr | hr
      · exact h.vouched j r' (by rw [hi]; exact hr) hv'
      · obtain rfl := List.mem_singleton.mp hr
        exact ⟨_, hv hv'⟩
    · exact h.vouched j r' hr hv'
  again j l r' rest hl := by
    rw [phase_moved] at hl
    split at hl
    · next hji =>
      subst hji
      change answers ++ [r] = l ++ r' :: rest at hl
      rcases List.eq_nil_or_concat' rest with rfl | ⟨rest, r'', rfl⟩
      · obtain ⟨rfl, -⟩ := List.append_inj' hl rfl
        have hasked := h.asked j (by rw [hi]; rfl)
        rwa [hi] at hasked
      · rw [← List.cons_append, ← List.append_assoc] at hl
        exact h.again j l r' rest (by rw [hi]; exact (List.append_inj' hl rfl).1)
    · exact h.again j l r' rest hl
  asked j hj := by
    rw [phase_moved] at hj ⊢
    split at hj
    · cases hj
    · next hji =>
      rw [if_neg hji]
      exact h.asked j hj

lemma Told.step (h : S.Told s) (hs : S.Step s e s') : S.Told s' := by
  cases hs with
  | @acquire i hi _ =>
    have ht : S.Told (moved s i (.holding [] false)) :=
      h.of_same (by rw [hi]; rfl) (fun hk => by cases hk)
    exact ⟨ht.vouched, ht.again, ht.asked⟩
  | ask hi ha => exact h.of_same (by rw [hi]; rfl) (fun _ => ha)
  | land =>
    refine ⟨fun j r hr hv => ?_, h.again, h.asked⟩
    obtain ⟨n, hn⟩ := h.vouched j r hr hv
    exact ⟨n, List.mem_append_left _ hn⟩
  | answer hi hv => exact h.answered hi hv
  | @release i answers asked hi =>
    have ht : S.Told (moved s i (.done answers asked)) := h.of_same (by rw [hi]; rfl) (fun hk => by
      have hasked := h.asked i (by rw [hi]; exact hk)
      rwa [hi] at hasked)
    exact ⟨ht.vouched, ht.again, ht.asked⟩

omit [DecidableEq K] [DecidableEq C] in
lemma Ordered.of_same (h : S.Ordered s) {i : ι} {p : Phase R} (hi : (s.phase i).Active)
    (hp : p ≠ .waiting)
    (holder : K → Option ι) : S.Ordered { moved s i p with holder := holder } where
  fresh j hj := by
    have hh := h.fresh j
    grind [phase_moved, moved]
  landed := h.landed
  begun j hj := by
    have hw : s.phase i ≠ .waiting := by
      intro he
      rw [he] at hi
      exact hi
    have hjw : s.phase j ≠ .waiting := by grind [phase_moved, moved]
    obtain ⟨pre, post, he, ha, hl, hk⟩ := h.begun j hjw
    refine ⟨pre, post, he, ha, hl, fun hj' => hk ?_⟩
    grind [phase_moved, moved]

omit [DecidableEq C] in
lemma Ordered.acquire (hh : S.Held s) (h : S.Ordered s) {i : ι} (hi : s.phase i = .waiting)
    (hk : s.holder (S.key i) = none) : S.Ordered { moved s i (.holding [] false) with
      holder := Function.update s.holder (S.key i) (some i),
        history := s.history ++ [.acquired i] } where
  fresh j hj := by
    by_cases hji : j = i
    · subst hji
      simp [phase_moved] at hj
    · have hf := h.fresh j (by simpa [phase_moved, hji] using hj)
      simpa [hji] using hf
  landed j n hn := List.mem_append_left _ (h.landed j n hn)
  begun j hj := by
    by_cases hji : j = i
    · subst hji
      exact ⟨s.history, [], rfl, (h.fresh j hi).1, (h.fresh j hi).2, fun _ k hm => by cases hm⟩
    · obtain ⟨pre, post, he, ha, hl, hp⟩ := h.begun j (by simpa [phase_moved, hji] using hj)
      refine ⟨pre, post ++ [.acquired i], by simp [he], ha, hl, fun hact k hm => ?_⟩
      have hja : (s.phase j).Active := by simpa [phase_moved, hji] using hact
      rcases List.mem_append.mp hm with hm | hm
      · exact hp hja k hm
      · obtain rfl : k = i := by simpa using hm
        intro hkey
        rw [hkey, hh.holds j hja] at hk
        cases hk

omit [DecidableEq ι] [DecidableEq K] [DecidableEq C] in
lemma Ordered.land (h : S.Ordered s) {i : ι} {n : ℕ} (hn : n < (s.phase i).sent) (store : C → V) :
    S.Ordered { s with
      store := store, landed := s.landed ++ [(i, n)], history := s.history ++ [.landed i] } where
  fresh j hj := by
    have hji : j ≠ i := by
      rintro rfl
      change s.phase j = .waiting at hj
      rw [hj] at hn
      exact absurd hn (by simp [Phase.sent, Phase.answers, Phase.asked])
    simpa [hji] using h.fresh j hj
  landed j m hm := by
    rcases List.mem_append.mp hm with hm | hm
    · exact List.mem_append_left _ (h.landed j m hm)
    · obtain ⟨rfl, -⟩ := Prod.mk.inj (List.mem_singleton.mp hm)
      simp
  begun j hj := by
    obtain ⟨pre, post, he, ha, hl, hp⟩ := h.begun j hj
    refine ⟨pre, post ++ [.landed i], by simp [he], ha, hl, fun hact k hm => hp hact k ?_⟩
    simpa using hm

lemma Ordered.step (hh : S.Held s) (h : S.Ordered s) (hs : S.Step s e s') : S.Ordered s' := by
  cases hs with
  | acquire hi hk => exact h.acquire hh hi hk
  | ask hi _ => exact h.of_same (by rw [hi]; trivial) (by simp) s.holder
  | land hn _ => exact h.land hn _
  | answer hi _ => exact h.of_same (by rw [hi]; trivial) (by simp) s.holder
  | release hi => exact h.of_same (by rw [hi]; trivial) (by simp) _

structure Inv (S : Sender ι K C V R) (store : C → V) (s : State ι K C V R) : Prop where
  held : S.Held s
  told : S.Told s
  ordered : S.Ordered s
  store : ∀ c, s.store c = S.content store s.history c

omit [DecidableEq ι] [DecidableEq K] in
lemma content_acquired (history : List (Mark ι)) (i : ι) (c : C) :
    S.content store (history ++ [.acquired i]) c = S.content store history c := by
  simp [content, Mark.landing]

omit [DecidableEq ι] [DecidableEq K] in
lemma content_landed (history : List (Mark ι)) (i : ι) : S.content store (history ++ [.landed i]) =
    Function.update (S.content store history) (S.cell i) (S.value i) := by
  funext c
  by_cases hc : S.cell i = c
  · subst hc
    simp [content, Mark.landing]
  · simp [content, Mark.landing, hc, Function.update_of_ne (Ne.symm hc)]

theorem Inv.step (h : S.Inv store s) (hs : S.Step s e s') : S.Inv store s' := by
  refine ⟨h.held.step hs, h.told.step hs, h.ordered.step h.held hs, fun c => ?_⟩
  have hc := h.store
  cases hs with
  | acquire => exact (hc c).trans (content_acquired _ _ c).symm
  | ask => exact hc c
  | land => rw [content_landed, ← funext hc]
  | answer => exact hc c
  | release => exact hc c

theorem inv_of_run {es : List (Event ι R)} (h : (S.system store).Run es s) : S.Inv store s := by
  refine h.invariant ?_ (fun s e s' hi hs => hi.step hs)
  rintro s rfl
  refine ⟨⟨fun i hi => ?_, by simp [start]⟩,
    ⟨by simp [start, Phase.answers], by simp [start, Phase.answers],
    by simp [start, Phase.asked]⟩, ⟨by simp [start], by simp [start], by simp [start]⟩,
      fun c => rfl⟩
  exact absurd hi (by simp [start, Phase.Active])

omit [DecidableEq K] [DecidableEq C] in
lemma after_eq {i : ι} {pre post : List (Mark ι)} (he : s.history = pre ++ .acquired i :: post)
    (hp : .acquired i ∉ pre) : s.after i = post := by
  have hpre : ∀ m ∈ pre, decide (m ≠ .acquired i) = true := by
    intro m hm
    rw [decide_eq_true_eq]
    rintro rfl
    exact hp hm
  rw [State.after, he, List.dropWhile_append_of_pos hpre, List.dropWhile_cons_of_neg (by simp),
    List.tail_cons]

omit [DecidableEq ι] [DecidableEq K] in
lemma Inv.carried (h : S.Inv store s) (c : C) :
    s.store c = store c ∨ ∃ i, S.cell i = c ∧ .landed i ∈ s.history ∧ s.store c = S.value i := by
  rw [h.store, content]
  cases hl : (s.history.filterMap (Mark.landing S c)).getLast? with
  | none => exact .inl rfl
  | some i =>
    obtain ⟨m, hm, hmi⟩ := List.mem_filterMap.mp (List.mem_of_getLast? hl)
    cases m with
    | acquired j => cases hmi
    | landed j =>
      rw [Mark.landing] at hmi
      split at hmi
      · next hc =>
        obtain rfl := Option.some.inj hmi
        exact .inr ⟨j, hc, hm, rfl⟩
      · cases hmi

theorem vouched_stands {es : List (Event ι R)} (h : (S.system store).Run es s) {i : ι} {r : R}
    (hr : r ∈ (s.phase i).answers) (hv : S.vouches r = true) :
    s.store (S.cell i) = S.value i ∨ ∃ j, j ≠ i ∧ S.cell j = S.cell i ∧ .landed j ∈ s.after i ∧
      (.acquired j ∉ s.after i ∨ ¬ (s.phase i).Active) := by
  have hinv := inv_of_run h
  have hw : s.phase i ≠ .waiting := by
    intro hi
    rw [hi] at hr
    cases hr
  obtain ⟨pre, post, he, ha, hl, hp⟩ := hinv.ordered.begun i hw
  rw [after_eq he ha]
  -- the task's own landing stands behind its acquisition
  obtain ⟨n, hn⟩ := hinv.told.vouched i r hr hv
  have hlanded := hinv.ordered.landed i n hn
  rw [he] at hlanded
  have hpost : .landed i ∈ post := by simpa [hl] using hlanded
  have hmem : i ∈ post.filterMap (Mark.landing S (S.cell i)) :=
    List.mem_filterMap.mpr ⟨_, hpost, if_pos rfl⟩
  obtain ⟨j, hj⟩ : ∃ j, (post.filterMap (Mark.landing S (S.cell i))).getLast? = some j :=
    ⟨_, List.getLast?_eq_some_getLast (List.ne_nil_of_mem hmem)⟩
  have hstore : s.store (S.cell i) = S.value j := by
    have hc : Mark.landing S (S.cell i) (.acquired i) = none := rfl
    rw [hinv.store, content, he, List.filterMap_append, List.filterMap_cons, hc,
      List.getLast?_append, hj]
    rfl
  by_cases hji : j = i
  · exact .inl (hji ▸ hstore)
  · obtain ⟨m, hm, hmj⟩ := List.mem_filterMap.mp (List.mem_of_getLast? hj)
    cases m with
    | acquired k => cases hmj
    | landed k =>
      rw [Mark.landing] at hmj
      split at hmj
      · next hc =>
        obtain rfl := Option.some.inj hmj
        refine .inr ⟨k, hji, hc, hm, ?_⟩
        by_cases hact : (s.phase i).Active
        · exact .inl (fun hk => hp hact k hk (S.guarded k i hc))
        · exact .inr hact
      · cases hmj

section Prompt

def Prompt (s : State ι K C V R) : Event ι R → Prop
  | .land i _ => (s.phase i).Active
  | _ => True

def Mark.acquisition : Mark ι → Option ι
  | .acquired i => some i
  | .landed _ => none

variable (S) in
def turns (s : State ι K C V R) (c : C) : List ι :=
  (s.history.filterMap Mark.acquisition).filter (fun i => S.cell i = c ∧ .landed i ∈ s.history)

omit [DecidableEq K] in
lemma no_turn_behind {i : ι} {post : List (Mark ι)}
    (h : ∀ j, .acquired j ∈ post → S.cell j ≠ S.cell i) (history : List (Mark ι)) :
    (post.filterMap Mark.acquisition).filter (fun j => S.cell j = S.cell i ∧
      .landed j ∈ history) = [] := by
  rw [List.filter_eq_nil_iff]
  intro j hj
  obtain ⟨m, hm, hmj⟩ := List.mem_filterMap.mp hj
  cases m with
  | landed k => cases hmj
  | acquired k =>
    obtain rfl := Option.some.inj hmj
    simp only [decide_eq_true_eq, not_and]
    intro hc
    exact absurd hc (h k hm)

omit [DecidableEq K] in
lemma turns_acquire (h : S.Ordered s) {i : ι} (hi : s.phase i = .waiting) (p : Phase R)
    (holder : K → Option ι) (c : C) : S.turns { moved s i p with
      holder := holder, history := s.history ++ [.acquired i] } c = S.turns s c := by
  have hf := (h.fresh i hi).2
  simp only [turns, List.filterMap_append, List.filter_append, Mark.acquisition,
    List.filterMap_cons,
    List.filterMap_nil, List.mem_append, List.mem_singleton, reduceCtorEq, or_false]
  simp [hf]

omit [DecidableEq K] in
lemma turns_land (h : S.Ordered s) {i : ι} (hi : (s.phase i).Active) (store : C → V)
    (landed : List (ι × ℕ)) : (∀ c, S.cell i ≠ c → S.turns { s with
      store := store, landed := landed, history := s.history ++ [.landed i] } c = S.turns s c) ∧
    (S.turns { s with store := store, landed := landed, history := s.history ++ [.landed i] }
      (S.cell i)).getLast? = some i := by
  have hacq : (s.history ++ [Mark.landed i]).filterMap Mark.acquisition =
      s.history.filterMap Mark.acquisition := by
    simp [Mark.acquisition]
  refine ⟨fun c hc => ?_, ?_⟩
  · rw [turns, turns, hacq]
    refine List.filter_congr (fun j _ => decide_eq_decide.mpr (and_congr_right (fun hj => ?_)))
    have hji : j ≠ i := fun hji => hc (hji ▸ hj)
    simp [hji]
  · have hw : s.phase i ≠ .waiting := by
      intro he
      rw [he] at hi
      exact hi
    obtain ⟨pre, post, he, -, -, hp⟩ := h.begun i hw
    -- nobody behind the task has its lock, so nobody behind it has its cell
    have hpost :=
      no_turn_behind (fun j hj hc => hp hi j hj (S.guarded j i hc)) (s.history ++ [.landed i])
    rw [turns, hacq]
    conv_lhs =>
      arg 1
      arg 2
      rw [he, List.filterMap_append, List.filterMap_cons]
    simp only [Mark.acquisition, List.filter_append, List.filter_cons]
    rw [hpost]
    simp

theorem prompt_serialized {es : List (Event ι R)} (h : ((S.system store).restrict Prompt).Run es s)
    (c : C) : s.store c = (S.turns s c).getLast?.elim (store c) S.value := by
  induction h with
  | init hs =>
    obtain rfl := hs
    rfl
  | step hr hs ih =>
    obtain ⟨hprompt, hs⟩ := hs
    have hord := (inv_of_run hr.of_restrict).ordered
    cases hs with
    | acquire hi _ =>
      rw [turns_acquire hord hi]
      exact ih
    | ask => exact ih
    | @land i n hn hl =>
      obtain ⟨hother, hown⟩ := turns_land hord hprompt (Function.update _ (S.cell i) (S.value i)) _
      by_cases hc : S.cell i = c
      · subst hc
        rw [hown]
        exact Function.update_self _ _ _
      · rw [hother c hc]
        exact (Function.update_of_ne (Ne.symm hc) _ _).trans ih
    | answer => exact ih
    | release => exact ih

theorem prompt_stands {es : List (Event ι R)} (h : ((S.system store).restrict Prompt).Run es s)
    {i : ι} {r : R} (hr : r ∈ (s.phase i).answers) (hv : S.vouches r = true)
    (hn : ∀ j, .acquired j ∈ s.after i → S.cell j ≠ S.cell i) : s.store (S.cell i) = S.value i := by
  have hinv := inv_of_run h.of_restrict
  have hw : s.phase i ≠ .waiting := by
    intro hi
    rw [hi] at hr
    cases hr
  obtain ⟨pre, post, he, ha, -, -⟩ := hinv.ordered.begun i hw
  rw [after_eq he ha] at hn
  obtain ⟨n, hl⟩ := hinv.told.vouched i r hr hv
  have hlanded := hinv.ordered.landed i n hl
  have hpost := no_turn_behind hn s.history
  have hlast : (S.turns s (S.cell i)).getLast? = some i := by
    rw [turns]
    conv_lhs =>
      arg 1
      arg 2
      rw [he, List.filterMap_append, List.filterMap_cons]
    simp only [Mark.acquisition, List.filter_append, List.filter_cons]
    rw [hpost]
    simp [hlanded]
  rw [prompt_serialized h, hlast]
  rfl

end Prompt

end Sender

end AstropathRelay.Lib
