import AstropathRelay.DataPlane.Cleanup
import AstropathRelay.Lib.Actions
import Mathlib.Data.List.AList
import Mathlib.Data.List.MinMax

/-! The Route 53 provider against a hosted zone: what its calls leave in the record, and what they
submit. -/

namespace AstropathRelay.DataPlane

open Lib Lib.Results Providers Providers.Route53

structure RrsetKey where
  name : String
  type : String
  normal : normalizeName name = name
deriving DecidableEq

def txtKey (recordName : String) : RrsetKey :=
  ⟨normalizeName recordName, "TXT", normalizeName_normalizeName recordName⟩

structure HostedZone where
  rrsets : AList (fun _ : RrsetKey => ResourceRecordSet)
  distinct : ∀ key r, rrsets.lookup key = some r → r.values.Nodup

namespace HostedZone

def find (z : HostedZone) (key : RrsetKey) : Option ResourceRecordSet := z.rrsets.lookup key

section Listing

variable {γ : Type} [LinearOrder γ] (order : RrsetKey ↪ γ)

def firstFrom (z : HostedZone) (key : RrsetKey) : Option RrsetKey :=
  (z.rrsets.keys.filter (fun k => order key ≤ order k)).argmin order

def listed (key : RrsetKey) (r : ResourceRecordSet) : ListedSet :=
  ⟨some key.type, some key.name, some r.ttl, r.values.map some⟩

-- `ListResourceRecordSets` from a name and the type TXT, for one item, in the order of the
-- service.
def list (z : HostedZone) (name : String) : List ListedSet :=
  ((z.firstFrom order (txtKey name)).bind fun key => (z.find key).map (listed key)).toList

end Listing

def put (z : HostedZone) (key : RrsetKey) (r : ResourceRecordSet)
    (h : r.values.Nodup) : HostedZone where
  rrsets := z.rrsets.insert key r
  distinct k s hs := by
    by_cases hk : k = key
    · subst hk
      rw [AList.lookup_insert] at hs
      exact Option.some.inj hs ▸ h
    · rw [AList.lookup_insert_ne hk] at hs
      exact z.distinct k s hs

def drop (z : HostedZone) (key : RrsetKey) : HostedZone where
  rrsets := z.rrsets.erase key
  distinct k s hs := by
    by_cases hk : k = key
    · subst hk
      simp at hs
    · rw [AList.lookup_erase_ne hk] at hs
      exact z.distinct k s hs

/-- UPSERT replaces the rrset. DELETE is rejected unless it names the stored TTL and the stored
values. -/
def change (z : HostedZone) (key : RrsetKey) : Change → Option HostedZone
  | .upsert ttl values => if h : values.Nodup then some (z.put key ⟨ttl, values⟩ h) else none
  | .delete ttl values =>
    if (z.find key).any (fun r => r.ttl = ttl ∧ r.values.toFinset = values.toFinset) then
      some (z.drop key) else none

end HostedZone

/-- The service. No call reads `putBy`, the number of the change that put a value where it is
stored, or `reported`, the numbers of the changes that GetChange has called INSYNC. -/
structure Service where
  zone : HostedZone
  submitted : List (RrsetKey × Change)
  nextChange : ℕ
  putBy : RrsetKey → String → ℕ
  reported : Finset ℕ
  putBy_lt : ∀ key value, putBy key value < nextChange

namespace Service

def changeId (number : ℕ) : String := "/change/C" ++ toString number

def submits (s : Service) (key : RrsetKey) (change : Change) : Service :=
  { s with submitted := s.submitted ++ [(key, change)] }

def accept (s : Service) (key : RrsetKey) (zone : HostedZone) : Service where
  zone := zone
  submitted := s.submitted
  nextChange := s.nextChange + 1
  putBy k value := if k = key ∧ value ∉ recordValues (s.zone.find k) then s.nextChange
    else s.putBy k value
  reported := s.reported
  putBy_lt k value := by
    split
    · exact Nat.lt_succ_self _
    · exact (s.putBy_lt k value).trans (Nat.lt_succ_self _)

def report (s : Service) (number : ℕ) : Service := { s with reported := insert number s.reported }

end Service

abbrev Api := EStateM Failure Service

structure ZoneCall where
  action : Action
  recordName : String
  values : List String
  polls : ℕ → Answer (Option String)

namespace Api

def ofExcept {α : Type} : Except Failure α → Api α
  | .ok a => pure a
  | .error e => throw e

def changeResourceRecordSets (name : String) (change : Change) : Api ℕ := fun s =>
  match s.zone.change (txtKey name) change with
  | some zone => .ok s.nextChange ((s.submits (txtKey name) change).accept (txtKey name) zone)
  | none => .error (.provider (.changeFailed (changeAction change) name "InvalidChangeBatch"))
      (s.submits (txtKey name) change)

def isInsync : Answer (Option String) → Bool
  | .ok (some status) => status = "INSYNC"
  | _ => false

def getChange (number : ℕ) (answer : Answer (Option String)) : Api (Option String) := do
  if isInsync answer then modify fun s => s.report number
  ofExcept (answer.wrap .getChangeFailed)

def waitInsync (polls : ℕ → Answer (Option String)) (number : ℕ) : ℕ → Api Unit
  | 0 => throw (.provider (.notInSync (Service.changeId number) insyncMaxAttempts))
  | left + 1 => do
    let answer ← getChange number (polls (insyncMaxAttempts - (left + 1)))
    let status ← ofExcept (key answer)
    if status = "INSYNC" then return () else waitInsync polls number left

section Calls

variable {γ : Type} [LinearOrder γ] (order : RrsetKey ↪ γ) (config : Route53Config)

def readRrset (name : String) : Api (Option ResourceRecordSet) := do
  let rrset ← ofExcept (findRrset name ((← get).zone.list order name))
  ofExcept (rrsetOf rrset)

def change (name : String) (polls : ℕ → Answer (Option String)) (change : Change) : Api Unit := do
  let number ← changeResourceRecordSets name change
  if config.awaitInsync then waitInsync polls number insyncMaxAttempts

def call (c : ZoneCall) : Api Written := do
  let name := normalizeName c.recordName
  let existing ← readRrset order name
  match Serialization.change c.action c.values existing with
  | none => return .nothing
  | some change =>
    Api.change config name c.polls change
    return .change change

end Calls

end Api

section Tokens

def unescape : List Char → List Char
  | '\\' :: c :: cs => c :: unescape cs
  | c :: cs => c :: unescape cs
  | [] => []

def unquote (value : String) : Option String :=
  match value.toList with
  | '"' :: cs => if cs.getLast? = some '"' then some (String.ofList (unescape cs.dropLast))
      else none
  | _ => none

lemma unescape_escape_append (c : Char)
    (cs : List Char) : unescape (escape c ++ cs) = c :: unescape cs := by
  rw [escape]
  split
  · rfl
  · next h =>
    rw [List.singleton_append, unescape]
    rintro c' cs' rfl
    exact absurd (Or.inl rfl) h

lemma unescape_flatMap_escape (cs : List Char) : unescape (cs.flatMap escape) = cs := by
  induction cs with
  | nil => rfl
  | cons c cs ih => rw [List.flatMap_cons, unescape_escape_append, ih]

lemma unquote_quote (token : String) : unquote (quote token) = some token := by
  have hq : (quote token).toList = '"' :: (token.toList.flatMap escape ++ ['"']) := by
    simp only [quote, String.toList_ofList]
    rfl
  rw [unquote, hq]
  simp [unescape_flatMap_escape]

end Tokens

section Zone

variable {γ : Type} [LinearOrder γ] {order : RrsetKey ↪ γ} {z : HostedZone} {key : RrsetKey}

namespace HostedZone

lemma firstFrom_of_mem (h : key ∈ z.rrsets) : z.firstFrom order key = some key := by
  have hm : key ∈ z.rrsets.keys.filter (fun k => order key ≤ order k) :=
    List.mem_filter.mpr ⟨AList.mem_keys.mp h, by simp⟩
  obtain ⟨k, hk⟩ := Option.ne_none_iff_exists'.mp
    (mt List.argmin_eq_none.mp (List.ne_nil_of_mem hm) : z.firstFrom order key ≠ none)
  have hle : order key ≤ order k := by simpa using (List.mem_filter.mp (List.argmin_mem hk)).2
  rw [hk, order.injective (le_antisymm (List.le_of_mem_argmin hm hk) hle)]

lemma mem_of_firstFrom {k : RrsetKey} (h : z.firstFrom order key = some k) : k ∈ z.rrsets :=
  AList.mem_keys.mpr (List.mem_of_mem_filter (List.argmin_mem h))

@[simp] lemma find_put {r : ResourceRecordSet} (h : r.values.Nodup) :
    (z.put key r h).find key = some r :=
  AList.lookup_insert _

lemma find_put_ne {k : RrsetKey} {r : ResourceRecordSet} {h : r.values.Nodup} (hk : k ≠ key) :
    (z.put key r h).find k = z.find k :=
  AList.lookup_insert_ne hk

@[simp] lemma find_drop : (z.drop key).find key = none := AList.lookup_erase _ _

lemma find_drop_ne {k : RrsetKey} (hk : k ≠ key) : (z.drop key).find k = z.find k :=
  AList.lookup_erase_ne hk

end HostedZone

lemma txtKey_normalizeName (recordName : String) :
    txtKey (normalizeName recordName) = txtKey recordName := by
  simp [txtKey, normalizeName_normalizeName]

lemma eq_txtKey {recordName : String} : key = txtKey recordName ↔
    key.type = "TXT" ∧ normalizeName key.name = normalizeName recordName := by
  obtain ⟨name, type, hn⟩ := key
  simp [txtKey, hn, and_comm]

lemma findRrset_listed (recordName : String) (r : ResourceRecordSet) :
    findRrset (normalizeName recordName) [HostedZone.listed key r] =
      .ok (if key = txtKey recordName then some (HostedZone.listed key r) else none) := by
  simp only [findRrset, HostedZone.listed, DataPlane.key, eq_txtKey, Option.some.injEq]
  by_cases ht : key.type = "TXT"
  · by_cases hn : normalizeName key.name = normalizeName recordName
    · simp [ht, hn, bind, Except.bind, pure, Except.pure]
    · simp [ht, hn, bind, Except.bind]
  · simp [ht]

lemma rrsetOf_listed (r : ResourceRecordSet) :
    rrsetOf (some (HostedZone.listed key r)) = .ok (some r) := by
  have hm : (r.values.map some).mapM DataPlane.key = .ok r.values :=
    mapM_ok.mpr (List.forall₂_map_left_iff.mpr (List.forall₂_same.mpr fun v _ => rfl))
  simp [rrsetOf, HostedZone.listed, hm, bind, Except.bind, pure, Except.pure]

variable (order) in
lemma read_list (z : HostedZone) (recordName : String) :
    (findRrset (normalizeName recordName) (z.list order (normalizeName recordName)) >>= rrsetOf) =
      .ok (z.find (txtKey recordName)) := by
  rw [HostedZone.list, txtKey_normalizeName]
  cases hr : z.find (txtKey recordName) with
  | some r =>
    have hm : txtKey recordName ∈ z.rrsets := AList.lookup_isSome.mp (Option.isSome_of_eq_some hr)
    rw [HostedZone.firstFrom_of_mem hm, Option.bind_some, hr, Option.map_some, Option.toList_some,
      findRrset_listed, if_pos rfl]
    exact rrsetOf_listed r
  | none =>
    cases hf : z.firstFrom order (txtKey recordName) with
    | none => rfl
    | some k =>
      obtain ⟨r, hk⟩ :=
        Option.isSome_iff_exists.mp (AList.lookup_isSome.mpr (HostedZone.mem_of_firstFrom hf))
      have hne : k ≠ txtKey recordName := by
        rintro rfl
        exact absurd (hr.symm.trans hk) nofun
      rw [Option.bind_some, show z.find k = some r from hk, Option.map_some, Option.toList_some,
        findRrset_listed, if_neg hne]
      rfl

end Zone

section Changes

lemma fits_of_change {action : Action} {values : List String} {existing : Option ResourceRecordSet}
    {c : Change} (hd : (recordValues existing).Nodup)
    (h : Serialization.change action values existing = some c) : c.Fits existing := by
  cases action with
  | present => exact fits_presentChange hd h
  | cleanup => exact fits_cleanupChange hd h

lemma HostedZone.recordValues_nodup (z : HostedZone)
    (key : RrsetKey) : (recordValues (z.find key)).Nodup := by
  cases h : z.find key with
  | none => exact List.nodup_nil
  | some r => exact z.distinct key r h

lemma HostedZone.change_of_fits {z : HostedZone} {key : RrsetKey} {c : Change}
    (h : c.Fits (z.find key)) : ∃ zone, z.change key c = some zone ∧
    submit (z.find key) c = some (zone.find key) ∧ ∀ k, k ≠ key → zone.find k = z.find k := by
  cases c with
  | upsert ttl values =>
    have hn : values.Nodup := h
    exact ⟨z.put key ⟨ttl, values⟩ hn, dif_pos hn, congrArg some (HostedZone.find_put hn).symm,
      fun k hk => HostedZone.find_put_ne hk⟩
  | delete ttl values =>
    refine ⟨z.drop key, if_pos ?_, ?_, fun k hk => HostedZone.find_drop_ne hk⟩
    · rw [show z.find key = some ⟨ttl, values⟩ from h]
      simp
    · rw [HostedZone.find_drop]
      exact if_pos h

end Changes

section Effects

variable {γ : Type} [LinearOrder γ]

namespace Service

variable (order : RrsetKey ↪ γ) (s : Service)

def client (polls : ℕ → Answer (Option String)) : Client where
  opens := true
  closes := true
  list name := .ok (s.zone.list order name)
  changeId name change :=
    if (s.zone.change (txtKey name) change).isSome then .ok (some (changeId s.nextChange))
    else .sdkError "InvalidChangeBatch"
  status _ := polls

def sent (key : RrsetKey) (change : Change) (zone : HostedZone) : Service :=
  (s.submits key change).accept key zone

def polled (number : ℕ) : Except Failure Unit → EStateM.Result Failure Service Unit
  | .ok () => .ok () (s.report number)
  | .error e => .error e s

end Service

variable {order : RrsetKey ↪ γ} {config : Route53Config} {s : Service} {c : ZoneCall}
  {change : Change}
variable {polls : ℕ → Answer (Option String)} {zone : HostedZone} {recordName : String}

namespace Api

@[simp] lemma run_ofExcept_ok {α : Type} (a : α)
    (s : Service) : (ofExcept (.ok a)).run s = .ok a s := rfl

@[simp] lemma run_ofExcept_error {α : Type} (e : Failure) (s : Service) :
    (ofExcept (.error e) : Api α).run s = .error e s := rfl

lemma run_readRrset (recordName : String) (s : Service) :
    (readRrset order (normalizeName recordName)).run s =
      .ok (s.zone.find (txtKey recordName)) s := by
  obtain ⟨rrset, hf, hr⟩ := bind_ok.mp (read_list order s.zone recordName)
  simp [readRrset, EStateM.run_bind, hf, hr]

lemma run_getChange (number : ℕ) (answer : Answer (Option String)) (s : Service) :
    (getChange number answer).run s = (ofExcept (answer.wrap .getChangeFailed)).run
      (if isInsync answer then s.report number else s) := by
  rw [getChange]
  cases isInsync answer <;> rfl

lemma run_waitInsync {client : Client} (hc : ∀ id, client.status id = polls) (number left : ℕ)
    (s : Service) : (waitInsync polls number left).run s =
    s.polled number (pollInsync client (Service.changeId number) left) := by
  induction left with
  | zero => rfl
  | succ left ih =>
    rw [waitInsync, pollInsync, EStateM.run_bind, run_getChange, hc]
    cases polls (insyncMaxAttempts - (left + 1)) with
    | sdkError kind => rfl
    | raised => rfl
    | ok status =>
      cases status with
      | none => rfl
      | some status =>
        by_cases hi : status = "INSYNC"
        · simp [isInsync, hi]
          rfl
        · rw [if_neg (by simpa [isInsync] using hi), Answer.wrap, run_ofExcept_ok, ok_bind,
            DataPlane.key, ok_bind, if_neg hi, ← ih]
          simp only [EStateM.run_bind, DataPlane.key, run_ofExcept_ok, if_neg hi]

variable (order) in
lemma run_change (h : s.zone.change (txtKey recordName) change = some zone) :
    (Api.change config (normalizeName recordName) polls change).run s =
      if config.awaitInsync then
        (s.sent (txtKey recordName) change zone).polled s.nextChange
          (pollInsync (s.client order polls) (Service.changeId s.nextChange) insyncMaxAttempts)
      else .ok () (s.sent (txtKey recordName) change zone) := by
  have hsubmit : (changeResourceRecordSets (normalizeName recordName) change).run s =
      .ok s.nextChange (s.sent (txtKey recordName) change zone) := by
    change changeResourceRecordSets _ _ s = _
    rw [changeResourceRecordSets, txtKey_normalizeName, h]
    rfl
  rw [Api.change, EStateM.run_bind]
  simp only [hsubmit]
  split
  · exact run_waitInsync (fun _ => rfl) _ _ _
  · rfl

lemma run_call_none
    (h : Serialization.change c.action c.values (s.zone.find (txtKey c.recordName)) = none) :
    (call order config c).run s = .ok .nothing s := by
  simp [call, EStateM.run_bind, run_readRrset, h]

lemma run_call_some
    (h : Serialization.change c.action c.values (s.zone.find (txtKey c.recordName)) = some change) :
    (call order config c).run s =
      (do
        Api.change config (normalizeName c.recordName) c.polls change
        return Written.change change).run s := by
  simp [call, EStateM.run_bind, run_readRrset, h]

/-- The calls return and raise as `changeRrset` does on the answers of the service. -/
theorem answerOf_call (order : RrsetKey ↪ γ) (config : Route53Config) (s : Service) (c : ZoneCall) :
    answerOf ((call order config c).run s) =
      changeRrset config (s.client order c.polls) c.recordName
        (Serialization.change c.action c.values) := by
  have hread : DataPlane.readRrset (s.client order c.polls) (normalizeName c.recordName) =
      .ok (s.zone.find (txtKey c.recordName)) := read_list order s.zone c.recordName
  have hopen : (s.client order c.polls).opens = true ∧ (s.client order c.polls).closes = true :=
    ⟨rfl, rfl⟩
  rw [changeRrset, withClient, if_pos hopen]
  dsimp only
  rw [hread, ok_bind]
  cases hc : Serialization.change c.action c.values (s.zone.find (txtKey c.recordName)) with
  | none =>
    rw [run_call_none hc]
    rfl
  | some change =>
    obtain ⟨zone, hz, -, -⟩ :=
      HostedZone.change_of_fits (fits_of_change (s.zone.recordValues_nodup _) hc)
    have hid : (s.client order c.polls).changeId (normalizeName c.recordName) change =
        .ok (some (Service.changeId s.nextChange)) := by
      simp only [Service.client, txtKey_normalizeName, hz]
      rfl
    rw [run_call_some hc, EStateM.run_bind, run_change order hz]
    simp only [submitChange, hid, Answer.wrap, DataPlane.key, ok_bind]
    by_cases hw : config.awaitInsync = true
    · simp only [if_pos hw]
      cases pollInsync (s.client order c.polls) (Service.changeId s.nextChange)
        insyncMaxAttempts <;> rfl
    · simp only [if_neg hw]
      rfl

variable (order config) in
lemma after_cases (s : Service) (c : ZoneCall) :
    Serialization.change c.action c.values (s.zone.find (txtKey c.recordName)) = none ∧
      (call order config c).run s = .ok .nothing s ∨ ∃ change zone,
      Serialization.change c.action c.values (s.zone.find (txtKey c.recordName)) = some change ∧
      s.zone.change (txtKey c.recordName) change = some zone ∧
      submit (s.zone.find (txtKey c.recordName)) change = some (zone.find (txtKey c.recordName)) ∧
      (∀ key, key ≠ txtKey c.recordName → zone.find key = s.zone.find key) ∧
      ((call order config c).run s = .ok (.change change)
      (if config.awaitInsync then (s.sent (txtKey c.recordName) change zone).report s.nextChange
              else s.sent (txtKey c.recordName) change zone) ∨
          ∃ e,
            (call order config c).run s = .error e (s.sent (txtKey c.recordName) change zone)) := by
  cases hc : Serialization.change c.action c.values (s.zone.find (txtKey c.recordName)) with
  | none => exact .inl ⟨rfl, run_call_none hc⟩
  | some change =>
    obtain ⟨zone, hz, hsubmit, hothers⟩ :=
      HostedZone.change_of_fits (fits_of_change (s.zone.recordValues_nodup _) hc)
    refine .inr ⟨change, zone, rfl, hz, hsubmit, hothers, ?_⟩
    rw [run_call_some hc, EStateM.run_bind, run_change order hz]
    by_cases hw : config.awaitInsync = true
    · simp only [if_pos hw]
      cases pollInsync (s.client order c.polls) (Service.changeId s.nextChange)
        insyncMaxAttempts with
      | ok u => exact .inl rfl
      | error e => exact .inr ⟨e, rfl⟩
    · simp only [if_neg hw]
      exact .inl rfl

variable (order config) in
def after (s : Service) (c : ZoneCall) : Service := stateOf ((call order config c).run s)

end Api

end Effects

section Sets

open Serialization

variable {γ : Type} [LinearOrder γ] (order : RrsetKey ↪ γ) (config : Route53Config)

structure RefinesSet (c : ZoneCall) (s s' : Service) : Prop where
  values : valueSet (s'.zone.find (txtKey c.recordName)) =
    apply c.action c.values (valueSet (s.zone.find (txtKey c.recordName)))
  gone : c.action = .cleanup → c.values = [] → s'.zone.find (txtKey c.recordName) = none
  others : ∀ key, key ≠ txtKey c.recordName → s'.zone.find key = s.zone.find key
  accepted : s'.submitted = s.submitted ∨
    ∃ change, s'.submitted = s.submitted ++ [(txtKey c.recordName, change)] ∧
    (s.zone.change (txtKey c.recordName) change).isSome ∧ ∀ ttl values,
    change = .delete ttl values → s.zone.find (txtKey c.recordName) = some ⟨ttl, values⟩
  again : ∀ polls, Api.after order config s' { c with polls := polls } = s'

variable {order config} {s s' : Service} {c : ZoneCall}

lemma valueSet_change (action : Action) (values : List String)
    (existing : Option ResourceRecordSet) : valueSet
    (((Serialization.change action values existing).bind (submit existing)).getD existing) =
    apply action values (valueSet existing) := by
  cases action with
  | present => exact valueSet_present values existing
  | cleanup => exact valueSet_cleanup values existing

lemma change_nothing_left {action : Action} {values : List String}
    {existing left : Option ResourceRecordSet}
    (hset : valueSet left = apply action values (valueSet existing)) (hgone : action = .cleanup →
      values = [] → left = none) : Serialization.change action values left = none := by
  cases action with
  | present =>
    refine presentChange_eq_none.mpr fun v hv => ?_
    have hm : quote v ∈ valueSet left := by
      rw [hset]
      exact Finset.mem_union_right _ (List.mem_toFinset.mpr (List.mem_map_of_mem hv))
    exact List.mem_toFinset.mp hm
  | cleanup =>
    by_cases hn : values = []
    · exact cleanupChange_eq_none.mpr (.inl (hgone rfl hn))
    · refine cleanupChange_eq_none.mpr (.inr ⟨hn, fun v hv hm => ?_⟩)
      have hm : quote v ∈ valueSet left := List.mem_toFinset.mpr hm
      rw [hset, apply, if_neg hn, Finset.mem_sdiff] at hm
      exact hm.2 (List.mem_toFinset.mpr (List.mem_map_of_mem hv))

lemma RefinesSet.of_set (hset : valueSet (s'.zone.find (txtKey c.recordName)) =
      apply c.action c.values (valueSet (s.zone.find (txtKey c.recordName))))
    (hgone : c.action = .cleanup → c.values = [] → s'.zone.find (txtKey c.recordName) = none)
    (hothers : ∀ key, key ≠ txtKey c.recordName → s'.zone.find key = s.zone.find key)
    (haccepted : s'.submitted = s.submitted ∨ ∃ change, s'.submitted = s.submitted ++
      [(txtKey c.recordName, change)] ∧ (s.zone.change (txtKey c.recordName) change).isSome ∧
      ∀ ttl values, change = .delete ttl values →
      s.zone.find (txtKey c.recordName) = some ⟨ttl, values⟩) : RefinesSet order config c s s' :=
  ⟨hset, hgone, hothers, haccepted, fun polls =>
    congrArg stateOf
      (Api.run_call_none (c := { c with polls := polls }) (change_nothing_left hset hgone))⟩

variable (order config) in
lemma after_refines (s : Service)
    (c : ZoneCall) : RefinesSet order config c s (Api.after order config s c) := by
  have hset := valueSet_change c.action c.values (s.zone.find (txtKey c.recordName))
  rcases Api.after_cases order config s c with ⟨hc, hr⟩ |
    ⟨change, zone, hc, hz, hsubmit, hothers, hr⟩
  · have hafter : Api.after order config s c = s := congrArg stateOf hr
    rw [hc] at hset
    rw [hafter]
    refine .of_set hset (fun ha hv => ?_) (fun _ _ => rfl) (.inl rfl)
    rw [ha, hv] at hc
    exact (cleanupChange_eq_none.mp hc).resolve_right fun h => h.1 rfl
  · have hleft : (Api.after order config s c).zone = zone ∧ (Api.after order config s c).submitted =
        s.submitted ++ [(txtKey c.recordName, change)] := by
      rw [Api.after]
      rcases hr with hr | ⟨e, hr⟩
      · rw [hr]
        by_cases hw : config.awaitInsync = true <;> simp only [hw] <;> exact ⟨rfl, rfl⟩
      · rw [hr]
        exact ⟨rfl, rfl⟩
    rw [hc, Option.bind_some, hsubmit, Option.getD_some] at hset
    refine .of_set (by rw [hleft.1, hset]) (fun ha hv => ?_) (by rwa [hleft.1])
      (.inr ⟨change, hleft.2, Option.isSome_of_eq_some hz, fun ttl values hd => ?_⟩)
    · rw [hleft.1]
      rw [ha, hv] at hc
      cases hf : s.zone.find (txtKey c.recordName) with
      | none => simp [hf, Serialization.change, cleanupChange] at hc
      | some r =>
        rw [hf, Serialization.change, cleanupChange_nil] at hc
        obtain rfl := Option.some.inj hc
        rw [hf, submit, if_pos rfl] at hsubmit
        exact (Option.some.inj hsubmit).symm
    · have hfits := fits_of_change (s.zone.recordValues_nodup _) hc
      rwa [hd] at hfits

/-- After any run of calls, each further one is the set operation it stands for, its changes are
accepted and a repetition of it submits none; a record holds what the calls on it give in their
order. -/
theorem calls_refine_sets (order : RrsetKey ↪ γ) (config : Route53Config) (s₀ : Service)
    (es : List ZoneCall) :
    (∀ past c, past ++ [c] <+: es →
      RefinesSet order config c (past.foldl (Api.after order config) s₀)
        ((past ++ [c]).foldl (Api.after order config) s₀)) ∧
    (∀ recordName, valueSet ((es.foldl (Api.after order config) s₀).zone.find (txtKey recordName)) =
      (es.filter (fun c => txtKey c.recordName = txtKey recordName)).foldl
        (fun S c => apply c.action c.values S) (valueSet (s₀.zone.find (txtKey recordName)))) ∧
    (∀ key, (∀ c ∈ es, txtKey c.recordName ≠ key) →
      (es.foldl (Api.after order config) s₀).zone.find key = s₀.zone.find key) ∧
    ∀ token, unquote (quote token) = some token := by
  refine ⟨fun past c _ => ?_, fun recordName => ?_, fun key hkey => ?_, unquote_quote⟩
  · rw [List.foldl_concat]
    exact after_refines order config _ c
  · induction es using List.reverseRecOn with
    | nil => rfl
    | append_singleton es c ih =>
      have hr := after_refines order config (es.foldl (Api.after order config) s₀) c
      rw [List.foldl_concat, List.filter_append, List.foldl_append, ← ih]
      by_cases hk : txtKey c.recordName = txtKey recordName
      · rw [← hk, hr.values]
        simp
      · rw [hr.others _ (Ne.symm hk)]
        simp [hk]
  · induction es using List.reverseRecOn with
    | nil => rfl
    | append_singleton es c ih =>
      rw [List.foldl_concat,
        (after_refines order config _ c).others key (Ne.symm (hkey c (by simp)))]
      exact ih fun d hd => hkey d (by simp [hd])

end Sets

end AstropathRelay.DataPlane
