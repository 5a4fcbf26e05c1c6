import AstropathRelay.Cache.Assembly
import AstropathRelay.Providers.Route53
import AstropathRelay.Lib.Results

/-! The providers' `present` and `cleanup` against the answers of the outside: which of them return,
which raise a `ProviderError`, and which let another exception through. -/

namespace AstropathRelay.DataPlane

open Lib Providers Providers.Route53 Cache

inductive ProviderError
  | listFailed (kind : String)
  | changeFailed (action name kind : String)
  | getChangeFailed (kind : String)
  | notInSync (changeId : String) (polls : ℕ)
  | valueCount (got : ℕ)
  | noDynamicKey (recordName : String)
  | requestFailed (hostname kind : String)
  | httpStatus (hostname : String) (status : ℕ)
  | rejected (hostname status : String)
  | unexpected (hostname status : String)
deriving DecidableEq

def ProviderError.text (repr : String → String) : ProviderError → String
  | listFailed kind => "route53 ListResourceRecordSets failed: " ++ kind
  | changeFailed action name kind =>
    "route53 " ++ action ++ " failed for " ++ repr name ++ ": " ++ kind
  | getChangeFailed kind => "route53 GetChange failed: " ++ kind
  | notInSync changeId polls =>
    "route53 change " ++ repr changeId ++ " not INSYNC after " ++ toString polls ++ " polls"
  | valueCount got => "hurricane supports exactly one TXT value per record (got " ++ toString got ++
      "); supports_multivalue is False"
  | noDynamicKey recordName => "no HE dynamic key configured for record " ++ repr recordName
  | requestFailed hostname kind => "HE request failed for " ++ repr hostname ++ ": " ++ kind
  | httpStatus hostname status => "HE returned HTTP " ++ toString status ++ " for " ++ repr hostname
  | rejected hostname status => "HE rejected update for " ++ repr hostname ++ ": " ++ status
  | unexpected hostname status =>
    "HE unexpected response for " ++ repr hostname ++ ": " ++ repr status

inductive Failure
  | provider (e : ProviderError)
  | other
deriving DecidableEq

inductive Written
  | nothing
  | change (c : Change)
  | txt (value : String)
deriving DecidableEq

section Route53

inductive Answer (α : Type)
  | ok (a : α)
  | sdkError (kind : String)
  | raised

def Answer.wrap {α : Type} (e : String → ProviderError) : Answer α → Except Failure α
  | ok a => .ok a
  | sdkError kind => .error (.provider (e kind))
  | raised => .error .other

/-- One entry of a listing. A key that is absent raises where it is indexed. -/
structure ListedSet where
  type : Option String
  name : Option String
  ttl : Option ℕ
  records : List (Option String)
deriving DecidableEq

structure Client where
  opens : Bool
  closes : Bool
  list : String → Answer (List ListedSet)
  changeId : String → Change → Answer (Option String)
  status : String → ℕ → Answer (Option String)

def key (k : Option String) : Except Failure String :=
  match k with
  | some v => .ok v
  | none => .error .other

def findRrset (name : String) : List ListedSet → Except Failure (Option ListedSet)
  | [] => .ok none
  | rrset :: rest =>
    if rrset.type = some "TXT" then do
      let n ← key rrset.name
      if normalizeName n = name then return some rrset else findRrset name rest
    else findRrset name rest

def rrsetOf : Option ListedSet → Except Failure (Option ResourceRecordSet)
  | none => .ok none
  | some r => do
    let values ← r.records.mapM key
    return some ⟨r.ttl.getD txtTtl, values⟩

def readRrset (c : Client) (name : String) : Except Failure (Option ResourceRecordSet) := do
  let listed ← (c.list name).wrap .listFailed
  let rrset ← findRrset name listed
  rrsetOf rrset

def insyncMaxAttempts : ℕ := 30

def pollInsync (c : Client) (changeId : String) : ℕ → Except Failure Unit
  | 0 => .error (.provider (.notInSync changeId insyncMaxAttempts))
  | left + 1 => do
    let answer ← (c.status changeId (insyncMaxAttempts - (left + 1))).wrap .getChangeFailed
    let status ← key answer
    if status = "INSYNC" then return () else pollInsync c changeId left

def changeAction : Change → String
  | .upsert _ _ => "UPSERT"
  | .delete _ _ => "DELETE"

def submitChange (config : Route53Config) (c : Client) (name : String)
    (change : Change) : Except Failure Unit := do
  let answer ← (c.changeId name change).wrap (.changeFailed (changeAction change) name)
  if config.awaitInsync then
    let id ← key answer
    pollInsync c id insyncMaxAttempts

def withClient {α : Type} (c : Client) (body : Except Failure α) : Except Failure α :=
  if c.opens ∧ c.closes then body else .error .other

def changeRrset (config : Route53Config) (c : Client) (recordName : String)
    (decide : Option ResourceRecordSet → Option Change) : Except Failure Written :=
  withClient c do
    let name := normalizeName recordName
    let existing ← readRrset c name
    match decide existing with
    | none => return .nothing
    | some change =>
      submitChange config c name change
      return .change change

end Route53

section Hurricane

inductive Response
  | http (status : ℕ) (text : String)
  | httpError (kind : String)
  | raised

def retryableStatus : List ℕ := [429, 500, 502, 503, 504]

def postWithRetry (responses : ℕ → Response) (attempt : ℕ) : ℕ → Response
  | 0 => responses attempt
  | left + 1 =>
    match responses attempt with
    | .http status text =>
      if status ∈ retryableStatus then postWithRetry responses (attempt + 1) left
        else .http status text
    | r => r

def okResponses : List String := ["good", "nochg"]
def hardErrorResponses : List String := ["badauth", "nohost", "!yours", "notfqdn", "abuse"]
def cleanupBenignResponses : List String := ["noipv4", "noipv6"]

def statusOf (E : Platform) (text : String) : String :=
  E.lower (String.ofList ((text.toList.dropWhile isSpace).takeWhile (fun c => !isSpace c)))

def maxAttempts : ℕ := 3

structure Form where
  hostname : String
  password : String
  txt : String
deriving DecidableEq

def formFor (E : Platform) (keys : Dict String String)
    (recordName value : String) : Except Failure Form :=
  let hostname := normalizeRecord E recordName
  match keys.get? hostname with
  | none => .error (.provider (.noDynamicKey recordName))
  | some password => .ok ⟨hostname, password, value⟩

def readResponse (E : Platform) (form : Form) (cleanup : Bool) : Response → Except Failure Written
  | .httpError kind => .error (.provider (.requestFailed form.hostname kind))
  | .raised => .error .other
  | .http code text =>
    let status := statusOf E text
    if code ≠ 200 then .error (.provider (.httpStatus form.hostname code))
    else if status ∈ okResponses then .ok (.txt form.txt)
    else if cleanup ∧ status ∈ cleanupBenignResponses then .ok .nothing
    else if status ∈ hardErrorResponses then .error (.provider (.rejected form.hostname status))
    else .error (.provider (.unexpected form.hostname status))

def update (E : Platform) (keys : Dict String String) (responses : ℕ → Response)
    (recordName value : String) (cleanup : Bool) : Except Failure Written := do
  let form ← formFor E keys recordName value
  readResponse E form cleanup (postWithRetry responses 0 (maxAttempts - 1))

end Hurricane

structure Outside where
  client : Client
  responses : ℕ → Response

def callProvider (E : Platform) (provider : Provider) (o : Outside) (action : Action)
    (recordName : String) (values : List String) : Except Failure Written :=
  match provider.config, action with
  | .route53 config, .present => changeRrset config o.client recordName (presentChange values)
  | .route53 config, .cleanup => changeRrset config o.client recordName (cleanupChange values)
  | .hurricane _, .present =>
    match values with
    | [value] => update E provider.recordKeys o.responses recordName value false
    | _ => .error (.provider (.valueCount values.length))
  | .hurricane config, .cleanup =>
    update E provider.recordKeys o.responses recordName config.cleanupPlaceholder true

def outcomeOf {α : Type} (repr : String → String) : Except Failure α → Outcome
  | .ok _ => .ok
  | .error (.provider e) => .providerError (e.text repr)
  | .error .other => .raised

end AstropathRelay.DataPlane
