import AstropathRelay.DataPlane.WriteSurface
import AstropathRelay.Providers.Route53
import AstropathRelay.Lib.Locked

/-! Concurrent dispatches to Route 53 providers: the per-record locks make their reads and changes
one after another. -/

namespace AstropathRelay.DataPlane.Serialization

open Lib Dns Providers Route53

section Operations

def apply (action : Action) (values : List String) (current : Finset String) : Finset String :=
  match action with
  | .present => current ∪ (values.map quote).toFinset
  | .cleanup => if values = [] then ∅ else current \ (values.map quote).toFinset

def valueSet (r : Option ResourceRecordSet) : Finset String := (recordValues r).toFinset

def change (action : Action) (values : List String)
    (existing : Option ResourceRecordSet) : Option Change :=
  match action with
  | .present => presentChange values existing
  | .cleanup => cleanupChange values existing

lemma toFinset_merge (current : List String) (vs : List String) :
    (vs.foldl merge current).toFinset = current.toFinset ∪ vs.toFinset := by
  ext a
  simp [mem_foldl_merge]

lemma valueSet_present (values : List String) (existing : Option ResourceRecordSet) :
    valueSet (((presentChange values existing).bind (submit existing)).getD existing) =
      apply .present values (valueSet existing) := by
  have hm := toFinset_merge (recordValues existing) (values.map quote)
  unfold presentChange
  dsimp only
  split
  · next he =>
    rw [he] at hm
    exact hm
  · exact hm

lemma valueSet_cleanup (values : List String) (existing : Option ResourceRecordSet) :
    valueSet (((cleanupChange values existing).bind (submit existing)).getD existing) =
      apply .cleanup values (valueSet existing) := by
  cases existing with
  | none => simp [cleanupChange, valueSet, recordValues, apply]
  | some r =>
    have hf : (r.values.filter (fun v => v ∉ values.map quote)).toFinset =
        r.values.toFinset \ (values.map quote).toFinset := by
      ext a
      simp
    by_cases hv : values = []
    · simp [cleanupChange, hv, submit, valueSet, recordValues, apply]
    · have happ : apply .cleanup values (valueSet (some r)) =
          valueSet (some r) \ (values.map quote).toFinset :=
        if_neg hv
      rw [happ]
      change _ = r.values.toFinset \ _
      rw [← hf, cleanupChange_values hv rfl]
      split
      · next he => exact congrArg List.toFinset he.symm
      · split
        · rfl
        · next hr =>
          rw [not_not.mp hr]
          simp [submit, valueSet, recordValues]

end Operations

variable {P : Type} {typeOf : P → ProviderType}

structure Job (typeOf : P → ProviderType) where
  routing : RoutingTable P
  msg : Message
  plan : Plan P
  planned : DataPlane.plan typeOf routing msg = some plan
  route53 : typeOf plan.call.provider = .route53

namespace Job

def owner (j : Job typeOf) : Name :=
  match j.msg.update with
  | [rrset] => rrset.name
  | _ => .root

lemma plan_owner (j : Job typeOf) :
    j.plan.lockKey = j.owner.canonicalize.toText ∧ j.plan.call.recordName = j.owner.toText := by
  obtain ⟨route, rrset, hc, hp⟩ := plan_eq_some.mp j.planned
  have ho : j.owner = rrset.name := by simp [owner, hc.single]
  rw [hp, ho]
  exact ⟨rfl, rfl⟩

lemma lockKey_eq_iff (i j : Job typeOf) : i.plan.lockKey = j.plan.lockKey ↔ i.owner == j.owner := by
  rw [i.plan_owner.1, j.plan_owner.1, Name.beq_iff]
  constructor
  · intro h
    have hf := congrArg (Name.fromText (fun _ => .error .idna)) h
    rw [Name.fromText_toText, Name.fromText_toText] at hf
    exact Except.ok.inj hf
  · intro h
    rw [h]

end Job

variable (hostedZone : P → String) {ι : Type} (jobs : ι → Job typeOf)

def record (i : ι) : String × String :=
  (hostedZone (jobs i).plan.call.provider, normalizeName (jobs i).plan.call.recordName)

lemma lockKey_of_record {i j : ι} (h : record hostedZone jobs i = record hostedZone jobs j) :
    (jobs i).plan.lockKey = (jobs j).plan.lockKey := by
  have hn := (Prod.mk.inj h).2
  rw [(jobs i).plan_owner.2, (jobs j).plan_owner.2, normalizeName_toText_inj] at hn
  exact ((jobs i).lockKey_eq_iff (jobs j)).mpr hn

def tasks : Locked ι String (String × String) (Option ResourceRecordSet) Change where
  key i := (jobs i).plan.lockKey
  cell := record hostedZone jobs
  plan i := change (jobs i).plan.call.action (jobs i).plan.call.values
  submit := submit
  guarded _ _ h := lockKey_of_record hostedZone jobs h

lemma valueSet_perform (i : ι) (v : Option ResourceRecordSet) :
    valueSet (((tasks hostedZone jobs).perform i v).getD v) =
      apply (jobs i).plan.call.action (jobs i).plan.call.values (valueSet v) := by
  cases ha : (jobs i).plan.call.action with
  | present => simpa [Locked.perform, tasks, change, ha]
      using valueSet_present (jobs i).plan.call.values v
  | cleanup => simpa [Locked.perform, tasks, change, ha]
      using valueSet_cleanup (jobs i).plan.call.values v

lemma valueSet_foldl (is : List ι) (v : Option ResourceRecordSet) :
    valueSet (is.foldl (fun v i => ((tasks hostedZone jobs).perform i v).getD v) v) = is.foldl
      (fun S i => apply (jobs i).plan.call.action (jobs i).plan.call.values S) (valueSet v) := by
  induction is generalizing v with
  | nil => rfl
  | cons i is ih => rw [List.foldl_cons, List.foldl_cons, ih, valueSet_perform]

variable [DecidableEq ι]

/-- Every record holds what the calls whose change went through give in the order of their locks,
owners that differ in letter case share a lock, and no two calls for one owner are in progress at
once. -/
theorem records_serialized (store : String × String → Option ResourceRecordSet)
    {es : List (Locked.Event ι)}
    {s : Locked.State ι String (String × String) (Option ResourceRecordSet)}
    (h : ((tasks hostedZone jobs).system store).Run es s) :
    (∀ c, valueSet (s.store c) =
      ((tasks hostedZone jobs).effective s c).foldl
        (fun S i => apply (jobs i).plan.call.action (jobs i).plan.call.values S)
        (valueSet (store c))) ∧
    (∀ i j, (jobs i).plan.lockKey = (jobs j).plan.lockKey ↔ (jobs i).owner == (jobs j).owner) ∧
    ∀ i j, (s.phase i).Active → (s.phase j).Active → (jobs i).owner == (jobs j).owner → i = j := by
  have hinv := Locked.inv_of_run h
  refine ⟨fun c => ?_, fun i j => (jobs i).lockKey_eq_iff (jobs j), fun i j hi hj ho => ?_⟩
  · rw [hinv.serial c, Locked.serial, valueSet_foldl]
  · exact hinv.unique hi hj (((jobs i).lockKey_eq_iff (jobs j)).mpr ho)

section Sample

def sampleOwner : Bool → Name
  | false => sampleRecord
  | true => ⟨[Name.octetsOf "_ACME-challenge", [90]], by decide +kernel⟩

def sampleJob (b : Bool) : Job (fun _ : Unit => ProviderType.route53) where
  routing := sampleRouting
  msg := { chaosUpdate with
    authority :=
      [⟨sampleOwner b, RdClass.internet, RdType.txt, none, [.txt [[if b then 120 else 121]]]⟩] }
  plan := ⟨⟨sampleZone, (), sampleOwner false⟩,
    ⟨(), .present, "z.", (sampleOwner b).toText, [if b then "x" else "y"]⟩, "_acme-challenge.z."⟩
  planned := by cases b <;> decide +kernel
  route53 := rfl

def sampleTasks := tasks (fun _ => "Z1") sampleJob

def sampleEvents : List (Locked.Event Bool) :=
  [.acquire true, .read true, .write true, .release true, .acquire false, .read false, .write false]

theorem sampleJob_serialized :
    ∃ s, (sampleTasks.system (fun _ => none)).Run sampleEvents s ∧ s.written = [true, false] ∧
      valueSet (s.store ("Z1", "_acme-challenge.z.")) = {"\"x\"", "\"y\""} := by
  have hfirst : sampleTasks.plan true none = some (.upsert 60 ["\"x\""]) := by decide +kernel
  have hsecond : sampleTasks.plan false (some ⟨60, ["\"x\""]⟩) =
      some (.upsert 60 ["\"x\"", "\"y\""]) := by
    decide +kernel
  have hcell : sampleTasks.cell false = sampleTasks.cell true := by decide +kernel
  have h₁ := System.Run.step (.init rfl : (sampleTasks.system (fun _ => none)).Run [] _)
    (Locked.Step.acquire (i := true) rfl rfl)
  have h₂ := h₁.step (Locked.Step.read (i := true) (by simp [Locked.moved]))
  have h₃ := h₂.step
    (Locked.Step.write (i := true) (v := none) (by simp [Locked.moved, Locked.start]) hfirst rfl)
  have h₄ := h₃.step (Locked.Step.release (i := true) (by simp [Locked.moved]))
  have h₅ := h₄.step
    (Locked.Step.acquire (i := false) (by simp [Locked.moved, Locked.start]) (by decide +kernel))
  have h₆ := h₅.step (Locked.Step.read (i := false) (by simp [Locked.moved]))
  have h₇ := h₆.step (Locked.Step.write (i := false) (v := some ⟨60, ["\"x\""]⟩)
    (by simp [Locked.moved, hcell]) hsecond rfl)
  refine ⟨_, h₇, rfl, ?_⟩
  rw [(records_serialized _ _ _ h₇).1]
  decide +kernel

end Sample

end AstropathRelay.DataPlane.Serialization
