import AstropathRelay.Lib.Projection
import AstropathRelay.Supervisor

/-! The process: the two planes under their supervisors, the shutdown event they share, and `serve`,
which starts them, winds them down and disposes of the resources. -/

namespace AstropathRelay.Composition

open Lib Supervisor

inductive PlaneName
  | dns
  | api
deriving DecidableEq

inductive Resource
  | database
  | client
  | sockets
deriving DecidableEq

inductive Ending
  | code (n : ℕ)
  | raised
deriving DecidableEq

inductive Cleanup
  | dispose (r : Resource)
  | dnsTask
deriving DecidableEq

/-- Where `serve` stands: making its resources, at its startup checks, at `asyncio.wait`, at the
drain of the DNS server, at the `gather` behind it, in its `finally`, or left. -/
inductive Stage
  | building
  | validating
  | waiting
  | draining (gaveUp : Bool)
  | joining (gaveUp : Bool)
  | disposing (ending : Ending) (left : List Cleanup)
  | ended (ending : Ending)
deriving DecidableEq

def Stage.isEnded : Stage → Bool
  | ended _ => true
  | _ => false

structure Process where
  stage : Stage := .building
  ownsClient : Bool := true
  serverMade : Bool := false
  launched : Bool := false
  planes : PlaneName → Supervised := fun _ => {}
  uvicorn : Bool := false
  disposed : List Resource := []

inductive Event
  | tick (now : ℚ)
  | signal
  | startFails
  | built (ownsClient : Bool)
  | invalid (serverMade : Bool)
  | launch
  | plane (p : PlaneName) (e : Supervisor.Event)
  | orphanEnds
  | resume
  | drained
  | joined
  | cleanup (raises : Bool)
  | cancelled
deriving DecidableEq

def isDone (s : Supervised) : Bool :=
  match s.phase with
  | .returned | .cancelled _ | .overflowError => true
  | .entering | .running | .sleeping => false

namespace Process

variable (L : RestartLimits) (s : Process)

def enter (stage : Stage) : Process := { s with stage := stage }

def anyDone : Bool := isDone (s.planes .dns) || isDone (s.planes .api)

def shutdownSet : Bool := (s.planes .dns).isSet || (s.planes .api).isSet

def finalizers (serverMade : Bool) : List Cleanup :=
  [.dispose .database] ++ (if s.ownsClient then [.dispose .client] else []) ++
    (if s.launched then [.dnsTask] else []) ++ if serverMade then [.dispose .sockets] else []

def proceed (ending : Ending) (left : List Cleanup) : Process :=
  s.enter (if left = [] then .ended ending else .disposing ending left)

/-- Only `serve` cancels a supervisor: that of the management plane behind the drain, that of the
DNS plane at the end. -/
def mayTake (p : PlaneName) : Supervisor.Event → Bool
  | .tick _ | .setShutdown => false
  | .cancel =>
    match p, s.stage with
    | .api, .joining _ => true
    | .dns, .disposing _ (.dnsTask :: _) => true
    | _, _ => false
  | _ => true

-- A supervisor that gives up sets the event that both planes share.
def move (p : PlaneName) (x : Supervised) : Process :=
  { s with planes := fun q =>
      if q = p then x
      else { s.planes q with
        shutdownByOthers := (s.planes q).shutdownByOthers || x.shutdownByItself } }

-- The factory of the management plane makes a task of uvicorn; it is cancelled without that task.
def uvicornAfter (p : PlaneName) (e : Supervisor.Event) (x : Supervised) : Bool :=
  match p, e with
  | .api, .enter => x.phase = .running
  | .api, .complete => false
  | .api, .crash _ => false
  | _, _ => s.uvicorn

def planeStep (p : PlaneName) (e : Supervisor.Event) : Option Process :=
  if s.launched && !s.stage.isEnded && s.mayTake p e then
    (Supervisor.next L (s.planes p) e).map
      (fun x => { s.move p x with uvicorn := s.uvicornAfter p e x })
  else none

/-- An exception takes `serve` out of any of its awaits, from inside its `try` to the `finally`. -/
def raise : Option Process :=
  match s.stage with
  | .waiting | .draining _ | .joining _ =>
    some (s.enter (.disposing .raised (s.finalizers s.serverMade)))
  | .disposing _ _ => some (s.enter (.ended .raised))
  | .building | .validating | .ended _ => none

def finalize (raises : Bool) : Option Process :=
  match s.stage with
  | .disposing _ [] => none
  | .disposing ending (.dispose r :: left) =>
    if raises then some (s.enter (.ended .raised))
    else some { s.proceed ending left with disposed := s.disposed ++ [r] }
  | .disposing ending (.dnsTask :: left) =>
    if isDone (s.planes .dns) && !raises then some (s.proceed ending left) else none
  | _ => none

def next : Event → Option Process
  | .tick now =>
    if ∀ p ∈ [PlaneName.dns, .api], (s.planes p).now ≤ now then
      some { s with planes := fun p => { s.planes p with now := now } }
    else none
  | .signal => some { s with planes := fun p => { s.planes p with shutdownByOthers := true } }
  | .startFails => if s.stage = .building then some (s.enter (.ended .raised)) else none
  | .built owns => if s.stage = .building then some { s.enter .validating with ownsClient := owns }
      else none
  | .invalid made =>
    if s.stage = .validating then
      some { s.enter (.disposing .raised (s.finalizers made)) with serverMade := made }
    else none
  | .launch => if s.stage = .validating then
      some { s.enter .waiting with serverMade := true, launched := true } else none
  | .plane p e => s.planeStep L p e
  | .orphanEnds =>
    if s.uvicorn ∧
      (s.planes .api).phase = .cancelled false then some { s with uvicorn := false } else none
  | .resume =>
    if s.stage = .waiting ∧
      (s.anyDone ∨ s.shutdownSet) then some (s.enter (.draining s.anyDone)) else none
  | .drained =>
    match s.stage with
    | .draining gaveUp => some (s.enter (.joining gaveUp))
    | _ => none
  | .joined =>
    match s.stage with
    | .joining gaveUp =>
      if isDone (s.planes .api) then
        some (s.enter (.disposing (.code (if gaveUp then 1 else 0)) (s.finalizers s.serverMade)))
      else none
    | _ => none
  | .cleanup raises => s.finalize raises
  | .cancelled => s.raise

end Process

def process (L : RestartLimits) : System Process Event := .deterministic (· = {}) (Process.next L)

section Planes

variable {L : RestartLimits} {s s' : Process} {es : List Event} {x y : Supervised}
  {e : Supervisor.Event}

def own : Supervisor.Event → Bool
  | .tick _ | .setShutdown => false
  | _ => true

def ownEvent (q : PlaneName) : Event → Option Supervisor.Event
  | .plane p e => if p = q ∧ own e then some e else none
  | _ => none

def seen (L : RestartLimits) (q : PlaneName) (s : Process) : Event → List Supervisor.Event
  | .tick now => [.tick now]
  | .signal => [.setShutdown]
  | .plane p e =>
    if p = q then [e]
    else if (Supervisor.next L (s.planes p) e).any (·.shutdownByItself) then [.setShutdown] else []
  | _ => []

lemma planeStep_some {p : PlaneName} (h : s.planeStep L p e = some s') :
    s.launched = true ∧ s.stage.isEnded = false ∧ s.mayTake p e = true ∧
      ∃ x, Supervisor.next L (s.planes p) e = some x ∧
      s' = { s.move p x with uvicorn := s.uvicornAfter p e x } := by
  rw [Process.planeStep] at h
  split_ifs at h with hc
  obtain ⟨x, hx, rfl⟩ := Option.map_eq_some_iff.mp h
  simp only [Bool.and_eq_true, Bool.not_eq_true'] at hc
  exact ⟨hc.1.1, hc.1.2, hc.2, x, hx, rfl⟩

lemma move_self (p : PlaneName) (x : Supervised) : (s.move p x).planes p = x := if_pos rfl

lemma move_other {p q : PlaneName} (h : q ≠ p) (x : Supervised) : (s.move p x).planes q =
    { s.planes q with shutdownByOthers := (s.planes q).shutdownByOthers || x.shutdownByItself } :=
      if_neg h

inductive Steps (L : RestartLimits) (s : Process) : Event → Process → Prop
  | tick {now : ℚ} : (∀ q, (s.planes q).now ≤ now) →
    Steps L s (.tick now) { s with planes := fun p => { s.planes p with now := now } }
  | signal : Steps L s .signal { s with
      planes := fun p => { s.planes p with shutdownByOthers := true } }
  | startFails : s.stage = .building → Steps L s .startFails (s.enter (.ended .raised))
  | built {owns : Bool} : s.stage = .building →
      Steps L s (.built owns) { s.enter .validating with ownsClient := owns }
  | invalid {made : Bool} : s.stage = .validating → Steps L s (.invalid made)
      { s.enter (.disposing .raised (s.finalizers made)) with serverMade := made }
  | launch : s.stage = .validating →
    Steps L s .launch { s.enter .waiting with serverMade := true, launched := true }
  | plane {p : PlaneName} {e : Supervisor.Event} {x : Supervised} : s.launched = true →
      s.stage.isEnded = false → s.mayTake p e = true → Supervisor.next L (s.planes p) e = some x →
      Steps L s (.plane p e) { s.move p x with uvicorn := s.uvicornAfter p e x }
  | orphanEnds : s.uvicorn = true → (s.planes .api).phase = .cancelled false →
    Steps L s .orphanEnds { s with uvicorn := false }
  | resume : s.stage = .waiting → (s.anyDone = true ∨ s.shutdownSet = true) →
    Steps L s .resume (s.enter (.draining s.anyDone))
  | drained {gaveUp : Bool} : s.stage = .draining gaveUp →
      Steps L s .drained (s.enter (.joining gaveUp))
  | joined {gaveUp : Bool} : s.stage = .joining gaveUp → isDone (s.planes .api) = true → Steps L s
      .joined (s.enter (.disposing (.code (if gaveUp then 1 else 0)) (s.finalizers s.serverMade)))
  | disposes {ending : Ending} {r : Resource} {left : List Cleanup} : s.stage =
      .disposing ending (.dispose r :: left) →
      Steps L s (.cleanup false) { s.proceed ending left with disposed := s.disposed ++ [r] }
  | fails {ending : Ending} {r : Resource} {left : List Cleanup} : s.stage =
      .disposing ending (.dispose r :: left) → Steps L s (.cleanup true) (s.enter (.ended .raised))
  | reaps {ending : Ending} {left : List Cleanup} : s.stage = .disposing ending (.dnsTask :: left) →
    isDone (s.planes .dns) = true → Steps L s (.cleanup false) (s.proceed ending left)
  | interrupted : (s.stage = .waiting ∨ ∃ gaveUp, s.stage = .draining gaveUp ∨
      s.stage = .joining gaveUp) →
      Steps L s .cancelled (s.enter (.disposing .raised (s.finalizers s.serverMade)))
  | aborted {ending : Ending} {left : List Cleanup} : s.stage = .disposing ending left →
    Steps L s .cancelled (s.enter (.ended .raised))

lemma steps_of_finalize {raises : Bool} (hs : s.finalize raises = some s') :
    Steps L s (.cleanup raises) s' := by
  rw [Process.finalize] at hs
  split at hs
  · cases hs
  · next hstage =>
    cases raises with
    | true =>
      obtain rfl := Option.some.inj hs
      exact .fails hstage
    | false =>
      obtain rfl := Option.some.inj hs
      exact .disposes hstage
  · next hstage =>
    split_ifs at hs with hd
    obtain rfl := Option.some.inj hs
    simp only [Bool.and_eq_true, Bool.not_eq_true'] at hd
    obtain ⟨hd, rfl⟩ := hd
    exact .reaps hstage hd
  · cases hs

lemma steps_of_raise (hs : s.raise = some s') : Steps L s .cancelled s' := by
  rw [Process.raise] at hs
  split at hs
  · next hstage =>
    obtain rfl := Option.some.inj hs
    exact .interrupted (.inl hstage)
  · next gaveUp hstage =>
    obtain rfl := Option.some.inj hs
    exact .interrupted (.inr ⟨gaveUp, .inl hstage⟩)
  · next gaveUp hstage =>
    obtain rfl := Option.some.inj hs
    exact .interrupted (.inr ⟨gaveUp, .inr hstage⟩)
  · next hstage =>
    obtain rfl := Option.some.inj hs
    exact .aborted hstage
  · cases hs
  · cases hs
  · cases hs

lemma steps_of_next {e : Event} (hs : s.next L e = some s') : Steps L s e s' := by
  cases e with
  | tick now =>
    simp only [Process.next] at hs
    split_ifs at hs with hn
    obtain rfl := Option.some.inj hs
    exact .tick (fun q => hn q (by cases q <;> simp))
  | signal =>
    obtain rfl := Option.some.inj hs
    exact .signal
  | startFails =>
    simp only [Process.next] at hs
    split_ifs at hs with hc
    obtain rfl := Option.some.inj hs
    exact .startFails hc
  | built owns =>
    simp only [Process.next] at hs
    split_ifs at hs with hc
    obtain rfl := Option.some.inj hs
    exact .built hc
  | invalid made =>
    simp only [Process.next] at hs
    split_ifs at hs with hc
    obtain rfl := Option.some.inj hs
    exact .invalid hc
  | launch =>
    simp only [Process.next] at hs
    split_ifs at hs with hc
    obtain rfl := Option.some.inj hs
    exact .launch hc
  | plane p e =>
    obtain ⟨hl, hn, hm, x, hx, rfl⟩ := planeStep_some hs
    exact .plane hl hn hm hx
  | orphanEnds =>
    simp only [Process.next] at hs
    split_ifs at hs with hc
    obtain rfl := Option.some.inj hs
    exact .orphanEnds hc.1 hc.2
  | resume =>
    simp only [Process.next] at hs
    split_ifs at hs with hc
    obtain rfl := Option.some.inj hs
    exact .resume hc.1 hc.2
  | drained =>
    simp only [Process.next] at hs
    split at hs
    · next hstage =>
      obtain rfl := Option.some.inj hs
      exact .drained hstage
    · cases hs
  | joined =>
    simp only [Process.next] at hs
    split at hs
    · next hstage =>
      by_cases hd : isDone (s.planes .api)
      · rw [if_pos hd] at hs
        obtain rfl := Option.some.inj hs
        exact .joined hstage hd
      · rw [if_neg hd] at hs
        cases hs
    · cases hs
  | cleanup raises => exact steps_of_finalize hs
  | cancelled => exact steps_of_raise hs

lemma others_next (hs : Supervisor.next L x e = some y) :
    y.shutdownByOthers = (x.shutdownByOthers || decide (e = .setShutdown)) := by
  cases e with
  | setShutdown =>
    obtain rfl := Option.some.inj hs
    simp
  | crash jitter =>
    obtain ⟨-, -, rfl⟩ := crash_of_next hs
    simp only [crashed]
    split_ifs
    · split
      · simp
      · simp
    · simp
  | tick | complete | wake =>
    simp only [Supervisor.next] at hs
    split_ifs at hs
    obtain rfl := Option.some.inj hs
    simp
  | enter | cancel =>
    simp only [Supervisor.next] at hs
    split_ifs at hs
    · obtain rfl := Option.some.inj hs
      simp
    · obtain rfl := Option.some.inj hs
      simp

lemma itself_next (hs : Supervisor.next L x e = some y) (hx : x.shutdownByItself = true) :
    y.shutdownByItself = true := by
  by_cases he : e.isCrash
  · cases e with
    | crash jitter =>
      obtain ⟨-, -, rfl⟩ := crash_of_next hs
      simp only [crashed]
      split_ifs
      · split
        · exact hx
        · exact hx
      · rfl
    | _ => cases he
  · cases moves_of_next hs (by simpa using he) with
    | tick | set | start | leave | stay => exact hx

lemma path_seen {e : Event} (q : PlaneName) (hs : s.next L e = some s') :
    (supervise L).Path (s.planes q) (seen L q s e) (s'.planes q) := by
  cases steps_of_next hs with
  | tick hn => exact .single (if_pos (hn q))
  | signal => exact .single rfl
  | @plane p e x _ _ _ hx =>
    simp only [seen, hx, Option.any_some]
    by_cases hp : p = q
    · subst hp
      rw [if_pos rfl, move_self]
      exact .single hx
    · rw [if_neg hp, move_other (Ne.symm hp)]
      cases x.shutdownByItself with
      | false =>
        rw [Bool.or_false]
        exact .nil
      | true =>
        rw [Bool.or_true]
        exact .single rfl
  | startFails | built | invalid | launch | orphanEnds | resume | drained | joined | disposes
  | fails | reaps | interrupted | aborted => exact .nil

lemma filter_seen (q : PlaneName) (s : Process) (e : Event) :
    (seen L q s e).filter own = (ownEvent q e).toList := by
  cases e with
  | plane p e =>
    simp only [seen, ownEvent]
    by_cases hp : p = q
    · cases ho : own e <;> simp [hp, ho]
    · simp only [hp, if_false, false_and, Option.toList_none]
      split_ifs <;> rfl
  | tick | signal | startFails | built | invalid | launch | resume | orphanEnds | drained | joined
  | cleanup | cancelled => rfl

lemma exists_run_plane (h : (process L).Run es s) (q : PlaneName) :
    ∃ ds, (supervise L).Run ds (s.planes q) ∧ ds.filter own = es.filterMap (ownEvent q) := by
  refine System.Run.project (fun s => s.planes q) (seen L q)
    (fun es ds => ds.filter own = es.filterMap (ownEvent q)) ?_ ?_ rfl ?_ h
  · rintro s rfl
    exact ⟨0, false, rfl⟩
  · exact fun s e s' hs => path_seen q hs
  · intro es ds s e hds
    rw [List.filter_append, List.filterMap_append, hds, filter_seen]
    cases ho : ownEvent q e <;> simp [ho]

lemma restrict_inRange (hm : L.maxRestarts ≤ 1024) {ds : List Supervisor.Event}
    (h : (supervise L).Run ds x) : ((supervise L).restrict (InRange L)).Run ds x := by
  induction h with
  | init h => exact .init h
  | step _ hs ih => exact ih.step ⟨inRange_of_maxRestarts_le hm _ _, hs⟩

lemma inv_plane (hm : L.maxRestarts ≤ 1024) (h : (process L).Run es s) (q : PlaneName) :
    ∃ ds, Inv L ds (s.planes q) :=
  (exists_run_plane h q).imp fun _ hd => inv_of_run (restrict_inRange hm hd.1)

lemma others_of_path {ds : List Supervisor.Event} (h : (supervise L).Path x ds y)
    (hy : y.shutdownByOthers = true) : x.shutdownByOthers = true ∨ .setShutdown ∈ ds := by
  induction h with
  | nil => exact .inl hy
  | snoc _ hs ih =>
    rw [others_next hs, Bool.or_eq_true, decide_eq_true_iff] at hy
    rcases hy with hy | rfl
    · exact (ih hy).imp_right (List.mem_append_left _)
    · exact .inr (List.mem_append_right _ (List.mem_singleton_self _))

lemma itself_of_path {ds : List Supervisor.Event} (h : (supervise L).Path x ds y)
    (hx : x.shutdownByItself = true) : y.shutdownByItself = true := by
  induction h with
  | nil => exact hx
  | snoc _ hs ih => exact itself_next hs ih

lemma told_of_seen {e : Event} (q : PlaneName) (hs : s.next L e = some s')
    (h : .setShutdown ∈ seen L q s e) :
    e = .signal ∨ ∃ p, p ≠ q ∧ (s'.planes p).shutdownByItself = true := by
  cases steps_of_next hs with
  | signal => exact .inl rfl
  | @plane p e x _ _ hm hx =>
    simp only [seen, hx, Option.any_some] at h
    split_ifs at h with hp hi
    · obtain rfl := List.mem_singleton.mp h
      cases hm
    · refine .inr ⟨p, hp, ?_⟩
      rwa [move_self]
    · cases h
  | tick =>
    cases h with
    | tail _ h => cases h
  | startFails | built | invalid | launch | orphanEnds | resume | drained | joined | disposes
  | fails | reaps | interrupted | aborted => cases h

lemma told_of_run (h : (process L).Run es s) (q : PlaneName)
    (hq : (s.planes q).shutdownByOthers = true) :
    .signal ∈ es ∨ ∃ p, p ≠ q ∧ (s.planes p).shutdownByItself = true := by
  induction h with
  | init h =>
    obtain rfl := h
    cases hq
  | step _ hs ih =>
    rcases others_of_path (path_seen q hs) hq with hq | hd
    · rcases ih hq with hsig | ⟨p, hp, hi⟩
      · exact .inl (List.mem_append_left _ hsig)
      · exact .inr ⟨p, hp, itself_of_path (path_seen p hs) hi⟩
    · rcases told_of_seen q hs hd with rfl | hp
      · exact .inl (List.mem_append_right _ (List.mem_singleton_self _))
      · exact .inr hp

lemma left_of_run (h : (process L).Run es s) (hl : s.launched = true) :
    s.stage = .waiting ∨ .resume ∈ es ∨ .cancelled ∈ es := by
  induction h with
  | init h =>
    obtain rfl := h
    cases hl
  | @step es s s' e hr hs ih =>
    have hlast : e ∈ es ++ [e] := List.mem_append_right _ (List.mem_singleton_self _)
    have hold : s.launched = true → s.stage ≠ .waiting →
        .resume ∈ es ++ [e] ∨ .cancelled ∈ es ++ [e] := by
      intro hl hw
      exact ((ih hl).resolve_left hw).imp (List.mem_append_left _) (List.mem_append_left _)
    cases steps_of_next hs with
    | tick | signal | plane | orphanEnds =>
      exact (ih hl).imp_right (Or.imp (List.mem_append_left _) (List.mem_append_left _))
    | launch => exact .inl rfl
    | resume => exact .inr (.inl hlast)
    | interrupted | aborted => exact .inr (.inr hlast)
    | startFails hstage | built hstage | invalid hstage | drained hstage | joined hstage
    | disposes hstage | fails hstage | reaps hstage => exact .inr (hold hl (by simp [hstage]))

lemma cancelled_of_run (h : (process L).Run es s) (q : PlaneName) (hq : .plane q .cancel ∈ es) :
    .resume ∈ es ∨ .cancelled ∈ es := by
  induction h with
  | init => cases hq
  | @step es s s' e hr hs ih =>
    rcases List.mem_append.mp hq with hq | hq
    · exact (ih hq).imp (List.mem_append_left _) (List.mem_append_left _)
    · obtain rfl := List.mem_singleton.mp hq
      cases steps_of_next hs with
      | plane hl _ hm _ =>
        refine ((left_of_run hr hl).resolve_left (fun hw => ?_)).imp (List.mem_append_left _)
          (List.mem_append_left _)
        cases q <;> simp [Process.mayTake, hw] at hm

structure Isolated (L : RestartLimits) (es : List Event) (s : Process) (q : PlaneName) : Prop where
  alone : ∃ ds, (supervise L).Run ds (s.planes q) ∧ ds.filter own = es.filterMap (ownEvent q) ∧
    WithinBudget L ds (s.planes q)
  told : (s.planes q).shutdownByOthers = true →
    .signal ∈ es ∨ ∃ p, p ≠ q ∧ (s.planes p).unhealthy = true
  cancelled : .plane q .cancel ∈ es → .resume ∈ es ∨ .cancelled ∈ es

lemma unhealthy_of_run (hm : L.maxRestarts ≤ 1024) (h : (process L).Run es s) (q : PlaneName) :
    (s.planes q).unhealthy = (s.planes q).shutdownByItself :=
  let ⟨_, hi⟩ := inv_plane hm h q
  hi.unhealthy_eq

end Planes

/-- In every interleaving of the two planes, each restarts, sleeps and gives up as its own budget
says: a crash of one neither stops nor restarts the other. -/
theorem planes_isolated {es : List Event} {s : Process} (h : (process {}).Run es s)
    (q : PlaneName) : Isolated {} es s q where
  alone := by
    obtain ⟨ds, hr, hd⟩ := exists_run_plane h q
    exact ⟨ds, hr, hd, withinBudget_of_inv (inv_of_run (restrict_inRange (by decide) hr))⟩
  told hq := by
    refine (told_of_run h q hq).imp_right (fun ⟨p, hp, hi⟩ => ⟨p, hp, ?_⟩)
    rwa [unhealthy_of_run (by decide) h]
  cancelled hq := cancelled_of_run h q hq

def failover : List Event :=
  let crashes : List Event :=
    (List.replicate 5 [.plane .api (.crash 0), .plane .api .wake, .plane .api .enter]).flatten
  [.built true, .launch, .plane .dns .enter, .plane .api .enter] ++ crashes ++
    [.plane .dns (.crash 0), .plane .api (.crash 0), .plane .dns .wake, .plane .dns .enter, .resume,
    .drained, .joined] ++ List.replicate 4 (.cleanup false)

theorem failover_isolated : ∃ s, (process {}).Run failover s ∧ (s.planes .dns).runs = 1 ∧
    (s.planes .api).runs = 6 ∧ (s.planes .api).unhealthy = true ∧ (s.planes .dns).unhealthy =
    false ∧ s.stage = .ended (.code 1) ∧ Isolated {} failover s .dns := by
  obtain ⟨s, hr, he⟩ : ∃ s, (process {}).Run failover s ∧
      ((s.planes .dns).runs, (s.planes .api).runs, (s.planes .api).unhealthy,
      (s.planes .dns).unhealthy, s.stage) = (1, 6, true, false, .ended (.code 1)) :=
    System.exists_run rfl (by decide +kernel)
  simp only [Prod.mk.injEq] at he
  obtain ⟨hdns, hapi, hun, hhealthy, hstage⟩ := he
  exact ⟨s, hr, hdns, hapi, hun, hhealthy, hstage, planes_isolated hr .dns⟩

section Exit

variable {L : RestartLimits} {s s' : Process} {es : List Event} {p : PlaneName} {x y : Supervised}

def Leaves (x : Supervised) (e : Supervisor.Event) : Prop :=
  e = .complete ∨ e = .enter ∧ x.isSet = true

def WindsDown (L : RestartLimits) (p : PlaneName) (es : List Event) : Prop :=
  ∃ before e later s, es = before ++ .plane p e :: later ∧ (process L).Run before s ∧
    Leaves (s.planes p) e

lemma windsDown_snoc (h : (process L).Run es s) (e : Event) : WindsDown L p (es ++ [e]) ↔
    WindsDown L p es ∨ ∃ e', e = .plane p e' ∧ Leaves (s.planes p) e' := by
  constructor
  · rintro ⟨before, e', later, s₀, hes, hr, hl⟩
    rcases List.eq_nil_or_concat later with rfl | ⟨later, last, rfl⟩
    · obtain ⟨rfl, he⟩ := List.append_inj' hes rfl
      obtain rfl := System.run_unique (fun s t hs ht => hs.trans ht.symm) h hr
      exact .inr ⟨e', List.singleton_inj.mp he, hl⟩
    · rw [List.concat_eq_append, ← List.cons_append, ← List.append_assoc] at hes
      exact .inl ⟨before, e', later, s₀, (List.append_inj' hes rfl).1, hr, hl⟩
  · rintro (⟨before, e', later, s₀, rfl, hr, hl⟩ | ⟨e', rfl, hl⟩)
    · exact ⟨before, e', later ++ [e], s₀, by simp, hr, hl⟩
    · exact ⟨es, e', [], s, rfl, h, hl⟩

lemma isDone_stays {e : Supervisor.Event} (hs : Supervisor.next L x e = some y)
    (hx : isDone x = true) : isDone y = true := by
  have hnot : x.phase ≠ .entering ∧ x.phase ≠ .running ∧ x.phase ≠ .sleeping := by
    refine ⟨?_, ?_, ?_⟩ <;> rintro h <;> simp [isDone, h] at hx
  cases e with
  | tick now =>
    simp only [Supervisor.next] at hs
    split_ifs at hs
    obtain rfl := Option.some.inj hs
    exact hx
  | setShutdown =>
    obtain rfl := Option.some.inj hs
    exact hx
  | crash jitter => exact absurd (crash_of_next hs).1 hnot.2.1
  | enter | complete | wake | cancel => simp [Supervisor.next, hnot] at hs

lemma done_of_unhealthy {ds : List Supervisor.Event} (hi : Inv L ds x) (hx : x.unhealthy = true) :
    isDone x = true := by
  rw [isDone, hi.gave_up (hi.unhealthy_eq ▸ hx)]

lemma unhealthy_stays {e : Supervisor.Event} (hs : Supervisor.next L x e = some y)
    (hx : x.unhealthy = true) : y.unhealthy = true := by
  by_cases he : e.isCrash
  · cases e with
    | crash jitter =>
      obtain ⟨-, -, rfl⟩ := crash_of_next hs
      simp only [crashed]
      split_ifs
      · split
        · exact hx
        · exact hx
      · rfl
    | _ => cases he
  · cases moves_of_next hs (by simpa using he) with
    | tick | set | start | leave | stay => exact hx

lemma isDone_next {ds : List Supervisor.Event} {e : Supervisor.Event} (hm : L.maxRestarts ≤ 1024)
    (hi : Inv L ds x) (hs : Supervisor.next L x e = some y) (hc : e ≠ .cancel) :
    isDone y = true ↔ isDone x = true ∨ y.unhealthy = true ∨ Leaves x e := by
  have hy : Inv L (ds ++ [e]) y := hi.next (inRange_of_maxRestarts_le hm _ _) hs
  refine ⟨fun hd => ?_, ?_⟩
  · cases e with
    | tick now =>
      simp only [Supervisor.next] at hs
      split_ifs at hs
      obtain rfl := Option.some.inj hs
      exact .inl hd
    | setShutdown =>
      obtain rfl := Option.some.inj hs
      exact .inl hd
    | enter =>
      simp only [Supervisor.next] at hs
      split_ifs at hs with hp hset
      · exact .inr (.inr (.inr ⟨rfl, hset⟩))
      · obtain rfl := Option.some.inj hs
        cases hd
    | complete => exact .inr (.inr (.inl rfl))
    | crash jitter =>
      obtain ⟨-, -, rfl⟩ := crash_of_next hs
      by_cases hg : L.maxRestarts ≤ grantedAt L x.now x.attempts
      · rw [crashed_denied hi.tracks jitter hg]
        exact .inr (.inl rfl)
      · have hlt := not_le.mp hg
        rw [crashed_granted hi.tracks jitter hlt (hlt.trans_le hm)] at hd
        cases hd
    | wake =>
      simp only [Supervisor.next] at hs
      split_ifs at hs
      obtain rfl := Option.some.inj hs
      cases hd
    | cancel => exact absurd rfl hc
  · rintro (hd | hu | rfl | ⟨rfl, hset⟩)
    · exact isDone_stays hs hd
    · exact done_of_unhealthy hy hu
    · simp only [Supervisor.next] at hs
      split_ifs at hs
      obtain rfl := Option.some.inj hs
      rfl
    · simp only [Supervisor.next] at hs
      split_ifs at hs
      obtain rfl := Option.some.inj hs
      rfl

def Stage.isEarly : Stage → Bool
  | .building | .validating | .waiting => true
  | .draining _ | .joining _ | .disposing _ _ | .ended _ => false

lemma early_next {e : Event} (hs : s.next L e = some s') (hw : s'.stage.isEarly = true) :
    s.stage.isEarly = true := by
  cases steps_of_next hs with
  | tick | signal | plane | orphanEnds => exact hw
  | startFails hstage | built hstage | invalid hstage | launch hstage | resume hstage =>
    rw [hstage]; rfl
  | drained | joined | fails | interrupted | aborted => cases hw
  | disposes | reaps =>
    simp only [Process.proceed, Process.enter] at hw
    split_ifs at hw <;> cases hw

lemma moved_next {e : Event} (hs : s.next L e = some s') (q : PlaneName)
    (hq : ∀ e', e ≠ .plane q e') : isDone (s'.planes q) = isDone (s.planes q) ∧
    (s'.planes q).unhealthy = (s.planes q).unhealthy := by
  cases steps_of_next hs with
  | @plane p e =>
    have hp : q ≠ p := by
      rintro rfl
      exact hq e rfl
    simp [move_other hp, isDone]
  | tick | signal | startFails | built | invalid | launch | orphanEnds | resume | drained | joined
  | disposes | fails | reaps | interrupted | aborted => exact ⟨rfl, rfl⟩

lemma done_while_waiting (hm : L.maxRestarts ≤ 1024) (h : (process L).Run es s)
    (hw : s.stage.isEarly = true) (q : PlaneName) : isDone (s.planes q) = true ↔
    (s.planes q).unhealthy = true ∨ WindsDown L q es := by
  induction h with
  | init h =>
    obtain rfl := h
    refine iff_of_false (by simp [isDone]) ?_
    rintro (hu | ⟨before, e, later, s, hes, -⟩)
    · cases hu
    · simp at hes
  | @step es s s' e hr hs ih =>
    have hold := ih (early_next hs hw)
    rw [windsDown_snoc hr]
    by_cases hq : ∃ e', e = .plane q e'
    · obtain ⟨e, rfl⟩ := hq
      obtain ⟨-, -, hmay, x, hx, rfl⟩ := planeStep_some hs
      obtain ⟨ds, hi⟩ := inv_plane hm hr q
      have hc : e ≠ .cancel := by
        rintro rfl
        cases q <;> simp only [Process.mayTake] at hmay <;> split at hmay <;>
          simp_all [Stage.isEarly, Process.move]
      have hstays := unhealthy_stays hx
      simp only [move_self, isDone_next hm hi hx hc, hold, Event.plane.injEq, true_and,
        exists_eq_left']
      tauto
    · obtain ⟨hd, hu⟩ := moved_next hs q (fun e' he => hq ⟨e', he⟩)
      have hno : ¬∃ e', e = .plane q e' ∧ Leaves (s.planes q) e' := fun ⟨e', he, _⟩ => hq ⟨e', he⟩
      rw [hd, hu, hold]
      tauto

def Stage.exitCode : Stage → Option ℕ
  | .draining gaveUp | .joining gaveUp => some (if gaveUp then 1 else 0)
  | .disposing (.code n) _ | .ended (.code n) => some n
  | _ => none

lemma exitCode_proceed {ending : Ending} (left left' : List Cleanup) :
    (s.proceed ending left).stage.exitCode = (Stage.disposing ending left').exitCode := by
  rw [Process.proceed]
  cases ending with
  | code n => by_cases hl : left = [] <;> simp [hl, Process.enter, Stage.exitCode]
  | raised => by_cases hl : left = [] <;> simp [hl, Process.enter, Stage.exitCode]

lemma decided_of_run (h : (process L).Run es s) {c : ℕ} (hc : s.stage.exitCode = some c) :
    ∃ before later s₀, es = before ++ .resume :: later ∧ (process L).Run before s₀ ∧ s₀.stage =
      .waiting ∧ (s₀.anyDone = true ∨ s₀.shutdownSet = true) ∧ c = if s₀.anyDone then 1 else 0 := by
  induction h with
  | init h =>
    obtain rfl := h
    cases hc
  | @step es s s' e hr hs ih =>
    have hold : s.stage.exitCode = some c → ∃ before later s₀,
        es ++ [e] = before ++ .resume :: later ∧ (process L).Run before s₀ ∧ s₀.stage = .waiting ∧
        (s₀.anyDone = true ∨ s₀.shutdownSet = true) ∧ c = if s₀.anyDone then 1 else 0 := by
      intro hc
      obtain ⟨before, later, s₀, rfl, hs₀⟩ := ih hc
      exact ⟨before, later ++ [e], s₀, by simp, hs₀⟩
    cases steps_of_next hs with
    | tick | signal | plane | orphanEnds => exact hold hc
    | resume hstage hset =>
      exact ⟨es, [], s, rfl, hr, hstage, hset, (Option.some.inj hc).symm⟩
    | drained hstage => exact hold (hstage ▸ hc)
    | joined hstage => exact hold (hstage ▸ hc)
    | disposes hstage | reaps hstage =>
      refine hold ?_
      rw [hstage, ← exitCode_proceed (s := s)]
      exact hc
    | startFails | built | invalid | launch | fails | interrupted | aborted => cases hc

/-- `serve` returns 1 if, when it comes back from its wait, a plane has spent its restart budget or
has wound down before it, and 0 if neither has: then a signal has come. -/
theorem exit_code {c : ℕ} (h : (process {}).Run es s) (hc : s.stage = .ended (.code c)) :
    ∃ before later s₀, es = before ++ .resume :: later ∧ (process {}).Run before s₀ ∧
      (c = 1 ∧ (∃ q, (s₀.planes q).unhealthy = true ∨ WindsDown {} q before) ∨
        c = 0 ∧ .signal ∈ before ∧
          ∀ q, (s₀.planes q).unhealthy = false ∧ ¬ WindsDown {} q before) := by
  obtain ⟨before, later, s₀, hes, hr, hw, hset, hcode⟩ :=
    decided_of_run h (c := c) (by rw [hc]; rfl)
  refine ⟨before, later, s₀, hes, hr, ?_⟩
  have hdone := done_while_waiting (by decide) hr (by rw [hw]; rfl)
  cases hany : s₀.anyDone with
  | true =>
    rw [hany, if_pos rfl] at hcode
    refine .inl ⟨hcode, ?_⟩
    rcases Bool.or_eq_true_iff.mp hany with hd | hd
    · exact ⟨_, (hdone _).mp hd⟩
    · exact ⟨_, (hdone _).mp hd⟩
  | false =>
    have hnone : ∀ q, isDone (s₀.planes q) ≠ true := by
      intro q hd
      cases q <;> simp [Process.anyDone, hd] at hany
    have hhealthy : ∀ q, (s₀.planes q).shutdownByItself ≠ true := by
      intro q hi
      rw [← unhealthy_of_run (by decide) hr] at hi
      exact hnone q ((hdone q).mpr (.inl hi))
    rw [hany, if_neg Bool.false_ne_true] at hcode
    refine .inr ⟨hcode, ?_, fun q => ?_⟩
    · obtain ⟨q, hq⟩ : ∃ q, (s₀.planes q).isSet = true := by
        rcases Bool.or_eq_true_iff.mp (hset.resolve_left (by simp [hany])) with hq | hq
        · exact ⟨_, hq⟩
        · exact ⟨_, hq⟩
      have hother := (Bool.or_eq_true_iff.mp hq).resolve_right (hhealthy q)
      exact (told_of_run hr q hother).resolve_right (fun ⟨p, _, hi⟩ => hhealthy p hi)
    · obtain ⟨hu, hn⟩ := not_or.mp ((hdone q).not.mp (hnone q))
      exact ⟨by simpa using hu, hn⟩

end Exit

theorem failover_exit_code :
    ∃ before later s₀, failover = before ++ .resume :: later ∧ (process {}).Run before s₀ ∧
      (1 = 1 ∧ (∃ q, (s₀.planes q).unhealthy = true ∨ WindsDown {} q before) ∨ 1 = 0 ∧
      .signal ∈ before ∧ ∀ q, (s₀.planes q).unhealthy = false ∧ ¬ WindsDown {} q before) := by
  obtain ⟨s, hr, hstage⟩ : ∃ s, (process {}).Run failover s ∧ s.stage = .ended (.code 1) :=
    System.exists_run rfl (by decide +kernel)
  exact exit_code hr hstage

section TearDown

variable {L : RestartLimits} {s s' : Process} {es : List Event}

def Cleanup.resource : Cleanup → Option Resource
  | .dispose r => some r
  | .dnsTask => none

def Process.owed (s : Process) : List Resource :=
  [.database] ++ (if s.ownsClient then [.client] else []) ++ if s.serverMade then [.sockets] else []

lemma filterMap_finalizers : (s.finalizers s.serverMade).filterMap Cleanup.resource = s.owed := by
  simp only [Process.finalizers, Process.owed]
  cases s.ownsClient <;> cases s.launched <;> cases s.serverMade <;> rfl

lemma owed_nodup (s : Process) : s.owed.Nodup := by
  rw [Process.owed]
  cases s.ownsClient <;> cases s.serverMade <;> decide

structure Undone (s : Process) (gone left : List Cleanup) : Prop where
  whole : gone ++ left = s.finalizers s.serverMade
  disposed : s.disposed = gone.filterMap Cleanup.resource
  reaped : .dnsTask ∈ gone → isDone (s.planes .dns) = true

def Stands (s : Process) : Prop :=
  match s.stage with
  | .building => s.disposed = [] ∧ s.launched = false ∧ s.serverMade = false
  | .validating => s.disposed = [] ∧ s.launched = false ∧ s.serverMade = false
  | .waiting | .draining _ | .joining _ => s.disposed = [] ∧ s.launched = true ∧ s.serverMade = true
  | .disposing _ left => left ≠ [] ∧ ∃ gone, Undone s gone left
  | .ended _ => s.disposed = [] ∨ ∃ gone left, Undone s gone left

lemma isDone_of_path {ds : List Supervisor.Event} {x y : Supervised} (h : (supervise L).Path x ds y)
    (hx : isDone x = true) : isDone y = true := by
  induction h with
  | nil => exact hx
  | snoc _ hs ih => exact isDone_stays hs ih

lemma Undone.frame {gone left : List Cleanup} (h : Undone s gone left)
    (howns : s'.ownsClient = s.ownsClient) (hmade : s'.serverMade = s.serverMade)
    (hlaunched : s'.launched = s.launched) (hdisposed : s'.disposed = s.disposed)
    (hdone : isDone (s.planes .dns) = true → isDone (s'.planes .dns) = true) :
    Undone s' gone left where
  whole := by rw [h.whole, Process.finalizers, Process.finalizers, howns, hmade, hlaunched]
  disposed := by rw [hdisposed, h.disposed]
  reaped hg := hdone (h.reaped hg)

lemma Undone.enter {gone left : List Cleanup} (h : Undone s gone left) (stage : Stage) :
    Undone (s.enter stage) gone left := h.frame rfl rfl rfl rfl id

lemma undone_start (hd : s.disposed = []) : Undone s [] (s.finalizers s.serverMade) where
  whole := rfl
  disposed := hd
  reaped hg := absurd hg List.not_mem_nil

lemma finalizers_ne_nil (s : Process) (made : Bool) : s.finalizers made ≠ [] := by
  simp [Process.finalizers]

lemma Stands.frame (h : Stands s) (hstage : s'.stage = s.stage)
    (howns : s'.ownsClient = s.ownsClient) (hmade : s'.serverMade = s.serverMade)
    (hlaunched : s'.launched = s.launched) (hdisposed : s'.disposed = s.disposed)
    (hdone : isDone (s.planes .dns) = true → isDone (s'.planes .dns) = true) : Stands s' := by
  have hu : ∀ gone left, Undone s gone left → Undone s' gone left :=
    fun _ _ hu => hu.frame howns hmade hlaunched hdisposed hdone
  simp only [Stands, hstage, hlaunched, hmade, hdisposed] at h ⊢
  cases hst : s.stage with
  | disposing ending left =>
    rw [hst] at h
    exact h.imp_right (fun ⟨gone, hg⟩ => ⟨gone, hu _ _ hg⟩)
  | ended ending =>
    rw [hst] at h
    exact h.imp_right (fun ⟨gone, left, hg⟩ => ⟨gone, left, hu _ _ hg⟩)
  | building | validating | waiting | draining | joining =>
    rw [hst] at h
    exact h

lemma stands_proceed {ending : Ending} {gone left : List Cleanup} {t : Process}
    (ht : Undone t gone left)
    (hstage : t.stage = if left = [] then .ended ending else .disposing ending left) :
    Stands t := by
  rw [Stands, hstage]
  by_cases hl : left = []
  · rw [if_pos hl]
    exact .inr ⟨gone, left, ht⟩
  · rw [if_neg hl]
    exact ⟨hl, gone, ht⟩

lemma stands_of_interrupted (h : Stands s) (hstage : s.stage = .waiting ∨
      ∃ gaveUp, s.stage = .draining gaveUp ∨ s.stage = .joining gaveUp) : s.disposed = [] := by
  rw [Stands] at h
  rcases hstage with hstage | ⟨gaveUp, hstage | hstage⟩ <;> rw [hstage] at h <;> exact h.1

lemma Stands.cleanup (h : Stands s) (hs : s.next L (.cleanup false) = some s') : ∃ ending gone left,
    Undone s' gone left ∧ s'.stage = if left = [] then .ended ending
    else .disposing ending left := by
  cases steps_of_next hs with
  | @disposes ending r left hstage =>
    rw [Stands, hstage] at h
    obtain ⟨-, gone, hu⟩ := h
    refine ⟨ending, gone ++ [.dispose r], left, ⟨?_, ?_, fun hg => ?_⟩, rfl⟩
    · rw [List.append_assoc]
      exact hu.whole
    · simp [hu.disposed, Cleanup.resource]
    · exact hu.reaped (by simpa using hg)
  | @reaps ending left hstage hd =>
    rw [Stands, hstage] at h
    obtain ⟨-, gone, hu⟩ := h
    refine ⟨ending, gone ++ [.dnsTask], left, ⟨?_, ?_, fun _ => hd⟩, rfl⟩
    · rw [List.append_assoc]
      exact hu.whole
    · rw [List.filterMap_append]
      exact hu.disposed.trans (List.append_nil _).symm

lemma Stands.next {e : Event} (h : Stands s) (hs : s.next L e = some s') : Stands s' := by
  have hdone := isDone_of_path (path_seen .dns hs)
  cases steps_of_next hs with
  | tick | signal | plane | orphanEnds => exact h.frame rfl rfl rfl rfl rfl hdone
  | startFails hstage =>
    rw [Stands, hstage] at h
    exact .inl h.1
  | built hstage =>
    rw [Stands, hstage] at h
    exact h
  | invalid hstage =>
    rw [Stands, hstage] at h
    exact ⟨finalizers_ne_nil _ _, [], rfl, h.1, fun hg => absurd hg List.not_mem_nil⟩
  | launch hstage =>
    rw [Stands, hstage] at h
    exact ⟨h.1, rfl, rfl⟩
  | resume hstage | drained hstage =>
    rw [Stands, hstage] at h
    exact h
  | joined hstage =>
    rw [Stands, hstage] at h
    exact ⟨finalizers_ne_nil _ _, [], (undone_start h.1).enter _⟩
  | disposes | reaps =>
    obtain ⟨ending, gone, left, hu, hstage⟩ := h.cleanup hs
    exact stands_proceed hu hstage
  | fails hstage =>
    rw [Stands, hstage] at h
    obtain ⟨-, gone, hu⟩ := h
    exact .inr ⟨gone, _, hu.enter _⟩
  | interrupted hstage =>
    exact ⟨finalizers_ne_nil _ _, [], (undone_start (stands_of_interrupted h hstage)).enter _⟩
  | aborted hstage =>
    rw [Stands, hstage] at h
    obtain ⟨-, gone, hu⟩ := h
    exact .inr ⟨gone, _, hu.enter _⟩

lemma stands_of_run (h : (process L).Run es s) : Stands s := by
  refine h.invariant ?_ (fun _ _ _ h hs => h.next hs)
  rintro s rfl
  exact ⟨rfl, rfl, rfl⟩

def Calm (s : Process) : Event → Prop
  | .cleanup raises => raises = false
  | .cancelled => ∀ ending left, s.stage ≠ .disposing ending left
  | _ => True

lemma undone_of_calm (h : ((process L).restrict Calm).Run es s) (he : s.stage.isEnded = true) :
    .startFails ∈ es ∨ Undone s (s.finalizers s.serverMade) [] := by
  induction h with
  | init h =>
    obtain rfl := h
    cases he
  | @step es s s' e hr hs ih =>
    have hstands := stands_of_run hr.of_restrict
    have hdone := isDone_of_path (path_seen .dns hs.2)
    have hold : s.stage.isEnded = true →
        .startFails ∈ es ++ [e] ∨ Undone s (s.finalizers s.serverMade) [] :=
      fun he => (ih he).imp_left (List.mem_append_left _)
    cases steps_of_next hs.2 with
    | tick | signal | orphanEnds =>
      exact (hold he).imp_right (fun hu => hu.frame rfl rfl rfl rfl hdone)
    | plane _ hn => exact absurd he (Bool.eq_false_iff.mp hn)
    | startFails => exact .inl (List.mem_append_right _ (List.mem_singleton_self _))
    | built | invalid | launch | resume | drained | joined | interrupted => cases he
    | fails => cases hs.1
    | aborted hstage => exact absurd hstage (hs.1 _ _)
    | disposes | reaps =>
      obtain ⟨ending, gone, left, hu, hstage⟩ := hstands.cleanup hs.2
      rw [hstage] at he
      split_ifs at he with hl
      · subst hl
        have hw := hu.whole
        rw [List.append_nil] at hw
        exact .inr (hw ▸ hu)
      · cases he

lemma phase_move {e : Event} (hs : s.next L e = some s') (he : ∀ e', e ≠ .plane .api e') :
    (s'.planes .api).phase = (s.planes .api).phase ∧ (s'.uvicorn = true → s.uvicorn = true) := by
  cases steps_of_next hs with
  | @plane p e =>
    cases p with
    | api => exact absurd rfl (he e)
    | dns => exact ⟨by rw [move_other (by decide)], id⟩
  | orphanEnds => exact ⟨rfl, fun hu => by cases hu⟩
  | tick | signal | startFails | built | invalid | launch | resume | drained | joined | disposes
  | fails | reaps | interrupted | aborted => exact ⟨rfl, id⟩

lemma uvicorn_of_run (h : (process L).Run es s) (hu : s.uvicorn = true) :
    (s.planes .api).phase = .running ∨ (s.planes .api).phase = .cancelled false := by
  induction h with
  | init h =>
    obtain rfl := h
    cases hu
  | @step es s s' e hr hs ih =>
    by_cases he : ∃ e', e = .plane .api e'
    · obtain ⟨e, rfl⟩ := he
      obtain ⟨-, -, hm, x, hx, rfl⟩ := planeStep_some hs
      have hself : (s.move .api x).planes .api = x := move_self .api x
      simp only [hself]
      cases e with
      | enter => exact .inl (by simpa [Process.uvicornAfter] using hu)
      | complete | crash => cases hu
      | tick | setShutdown => cases hm
      | wake =>
        have hp := ih hu
        simp only [Supervisor.next] at hx
        split_ifs at hx with hw
        simp [hw] at hp
      | cancel =>
        have hp := ih hu
        simp only [Supervisor.next] at hx
        split_ifs at hx with hr hw
        · obtain rfl := Option.some.inj hx
          exact .inr rfl
        · simp [hw] at hp
    · obtain ⟨hp, hold⟩ := phase_move hs (fun e' he' => he ⟨e', he'⟩)
      rw [hp]
      exact ih (hold hu)

def Stage.returns : Stage → Bool
  | .disposing (.code _) _ | .ended (.code _) => true
  | _ => false

lemma api_done_of_run (h : (process L).Run es s) (hc : s.stage.returns = true) :
    isDone (s.planes .api) = true := by
  induction h with
  | init h =>
    obtain rfl := h
    cases hc
  | @step es s s' e hr hs ih =>
    have hdone := isDone_of_path (path_seen .api hs)
    cases steps_of_next hs with
    | tick | signal | plane | orphanEnds => exact hdone (ih hc)
    | joined _ hd => exact hd
    | @disposes ending _ left hstage | @reaps ending left hstage =>
      refine hdone (ih ?_)
      rw [hstage]
      change (if left = [] then Stage.ended ending else .disposing ending left).returns = true at hc
      cases ending with
      | code => rfl
      | raised => split_ifs at hc <;> cases hc
    | startFails | built | invalid | launch | resume | drained | fails | interrupted
    | aborted => cases hc

lemma mem_of_append {α : Type} {A B gone left : List α} {d x : α} (h : gone ++ left = A ++ d :: B)
    (hx : x ∈ gone) (hA : x ∉ A) : d ∈ gone := by
  rcases List.append_eq_append_iff.mp h with ⟨as, rfl, -⟩ | ⟨cs, rfl, hcs⟩
  · exact absurd (List.mem_append_left _ hx) hA
  · cases cs with
    | nil => exact absurd (by simpa using hx) hA
    | cons c cs =>
      obtain ⟨rfl, -⟩ := List.cons.inj hcs
      simp

lemma stands_cases (h : Stands s) : s.disposed = [] ∨ ∃ gone left, Undone s gone left := by
  rw [Stands] at h
  split at h
  · exact .inl h.1
  · exact .inl h.1
  · exact .inl h.1
  · exact .inl h.1
  · exact .inl h.1
  · obtain ⟨-, gone, hu⟩ := h
    exact .inr ⟨gone, _, hu⟩
  · exact h

lemma Undone.prefix {gone left : List Cleanup} (h : Undone s gone left) :
    s.disposed <+: s.owed := by
  rw [h.disposed, ← filterMap_finalizers, ← h.whole]
  exact (List.prefix_append _ _).filterMap _

lemma Undone.sockets {gone left : List Cleanup} (h : Undone s gone left)
    (hs : .sockets ∈ s.disposed) (hl : s.launched = true) : isDone (s.planes .dns) = true := by
  rw [h.disposed] at hs
  obtain ⟨c, hc, hr⟩ := List.mem_filterMap.mp hs
  cases c with
  | dnsTask => cases hr
  | dispose r =>
    obtain rfl := Option.some.inj hr
    have hw := h.whole
    rw [Process.finalizers, if_pos hl, List.append_assoc, List.singleton_append] at hw
    refine h.reaped (mem_of_append hw hc ?_)
    cases s.ownsClient <;> decide

lemma disposed_in_order (h : (process L).Run es s) : s.disposed <+: s.owed := by
  rcases stands_cases (stands_of_run h) with hd | ⟨gone, left, hu⟩
  · rw [hd]
    exact List.nil_prefix
  · exact hu.prefix

structure TornDown (L : RestartLimits) (es : List Event) (s : Process) : Prop where
  in_order : s.disposed <+: s.owed
  once : s.disposed.Nodup
  sockets_last : .sockets ∈ s.disposed → s.launched = true → isDone (s.planes .dns) = true
  complete : ((process L).restrict Calm).Run es s → s.stage.isEnded = true → .startFails ∉ es →
    s.disposed = s.owed ∧ (s.launched = true → isDone (s.planes .dns) = true)
  joined : ∀ n, s.stage = .ended (.code n) → isDone (s.planes .api) = true ∧
    (s.uvicorn = true → (s.planes .api).phase = .cancelled false)

/-- However `serve` is left, it disposes of what it holds once and in order, and of the sockets of
the DNS server only behind its supervisor; left undisturbed, it disposes of everything. -/
theorem torn_down (h : (process L).Run es s) : TornDown L es s where
  in_order := disposed_in_order h
  once := (disposed_in_order h).sublist.nodup (owed_nodup s)
  sockets_last hs hl := by
    rcases stands_cases (stands_of_run h) with hd | ⟨gone, left, hu⟩
    · rw [hd] at hs
      cases hs
    · exact hu.sockets hs hl
  complete hr he hf := by
    have hu := (undone_of_calm hr he).resolve_left hf
    refine ⟨hu.disposed.trans filterMap_finalizers, fun hl => hu.reaped ?_⟩
    simp [Process.finalizers, hl]
  joined n he := by
    have hd := api_done_of_run h (by rw [he]; rfl)
    refine ⟨hd, fun hu => (uvicorn_of_run h hu).resolve_left (fun hr => ?_)⟩
    simp [isDone, hr] at hd

end TearDown

def graceful : List Event :=
  [.built true, .launch, .plane .dns .enter, .plane .api .enter, .signal, .resume, .drained,
    .plane .api .complete, .joined,
    .cleanup false, .cleanup false, .plane .dns .cancel, .cleanup false, .cleanup false]

theorem graceful_torn_down : ∃ s, (process {}).Run graceful s ∧ s.disposed =
    [.database, .client, .sockets] ∧ s.stage = .ended (.code 0) ∧ TornDown {} graceful s := by
  obtain ⟨s, hr, he⟩ : ∃ s, (process {}).Run graceful s ∧
      (s.disposed, s.stage) = ([.database, .client, .sockets], .ended (.code 0)) :=
    System.exists_run rfl (by decide +kernel)
  obtain ⟨hd, hstage⟩ := Prod.mk.inj he
  exact ⟨s, hr, hd, hstage, torn_down hr⟩

end AstropathRelay.Composition
