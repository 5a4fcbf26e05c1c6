import AstropathRelay.Api.BackendConfig
import AstropathRelay.Api.Csrf
import AstropathRelay.Api.LoginLimit
import AstropathRelay.Api.Password

/-! The management plane as a whole: the origin check, the signed session, `require_admin` and the
routes behind them, over any requests of any clients. What authorizes a request, and where that
comes from. -/

namespace AstropathRelay.Api.Authority

open Lib Store

structure Marker where
  iat : ℕ
deriving DecidableEq

structure Signing where
  request : ℕ
  answer : ℕ
deriving DecidableEq

structure SignedCookie where
  value : String
  marker : Marker
  signings : List Signing
deriving DecidableEq

structure LoadedSession where
  marker : Marker
  loaded : ℕ
  signings : List Signing
deriving DecidableEq

def sessionMaxAge : ℕ := 12 * 60 * 60

/-- The settings of a process and what its libraries do. `rolls` says whether the session middleware
signs a session again that the request has left as it was. -/
structure Deployment (Pw Hash Key Token : Type) where
  hasher : Hasher Pw Hash
  adminPasswordHash : Hash
  fernet : Fernet Key Token
  kek : Kek Key
  managementOrigin : Option String
  limits : Limits
  hashToken : String → String
  sessionCookie : List (String × String) → Option String
  bracketsOk : List Char → Bool
  sign : ℕ → Marker → String
  unsign : ℕ → String → Option Marker
  rolls : Bool

inductive Endpoint (Pw : Type)
  | sessionStatus
  | login (password : Pw)
  | logout
  | changePassword (current new : Pw)
  | createApiToken (name drawn : String)
  | listApiTokens
  | revokeApiToken (tokenId : ℤ)
  | manage (req : Request)
  | read (path : String)
  | probe (path : String)

section Endpoints

variable {Pw : Type}

def Endpoint.guarded : Endpoint Pw → Bool
  | login _ | logout | probe _ => false
  | _ => true

def requestLine : Request → String × String
  | .createBackend _ _ => ("POST", "/api/v1/backends")
  | .updateBackend id _ _ => ("PATCH", "/api/v1/backends/" ++ toString id)
  | .deleteBackend id => ("DELETE", "/api/v1/backends/" ++ toString id)
  | .createDomain _ _ => ("POST", "/api/v1/domains")
  | .deleteDomain id => ("DELETE", "/api/v1/domains/" ++ toString id)
  | .createTsigKey _ _ _ => ("POST", "/api/v1/tsig-keys")
  | .revokeTsigKey id => ("DELETE", "/api/v1/tsig-keys/" ++ toString id)

def Endpoint.line : Endpoint Pw → String × String
  | sessionStatus => ("GET", "/api/v1/auth/session")
  | login _ => ("POST", "/api/v1/auth/login")
  | logout => ("POST", "/api/v1/auth/logout")
  | changePassword _ _ => ("POST", "/api/v1/auth/password")
  | createApiToken _ _ => ("POST", "/api/v1/tokens")
  | listApiTokens => ("GET", "/api/v1/tokens")
  | revokeApiToken id => ("DELETE", "/api/v1/tokens/" ++ toString id)
  | manage req => requestLine req
  | read path => ("GET", path)
  | probe path => ("GET", path)

def Endpoint.request (endpoint : Endpoint Pw) (headers : List (String × String)) : HttpRequest :=
  ⟨endpoint.line.1, endpoint.line.2, headers⟩

end Endpoints

structure Job (Pw Hash : Type) where
  endpoint : Endpoint Pw
  source : String
  arrived : ℕ
  session : Option LoadedSession
  credential : Option Credential
  stored : Hash

inductive Progress (Pw Hash : Type)
  | idle
  | running (job : Job Pw Hash)
  | answered (status : ℕ)

/-- `verified` is history: when a login has verified which password against which stored hash. -/
structure Plane (Pw Hash Token : Type) where
  time : ℕ := 0
  clock : ℚ := 0
  db : Database Token
  adminRow : Option Hash := none
  tokens : List (ℕ × String) := []
  tokenSeq : ℕ := 0
  limiter : Limiter := {}
  issued : List SignedCookie := []
  progress : ℕ → Progress Pw Hash := fun _ => .idle
  verified : List (ℕ × Pw × Hash) := []

inductive Event (Pw : Type)
  | tick (time : ℕ) (clock : ℚ)
  | arrive (i : ℕ) (source : String) (endpoint : Endpoint Pw) (headers : List (String × String))
  | finish (i : ℕ) (salt : ℕ)

namespace Status
def unauthorized : ℕ := 401
def forbidden : ℕ := 403
def tooManyRequests : ℕ := 429
end Status

section Serve

variable {Pw Hash Key Token : Type} (D : Deployment Pw Hash Key Token)

namespace Plane

variable (s : Plane Pw Hash Token)

def framework : Framework where
  sessionCookie := D.sessionCookie
  sessionIsAdmin value := (D.unsign s.time value).isSome
  tokenValid key := D.hashToken key ∈ s.tokens.map Prod.snd
  bracketsOk := D.bracketsOk

def cookie? (value : String) (marker : Marker) : Option SignedCookie :=
  s.issued.find? (fun k => k.value = value ∧ k.marker = marker)

def loadSession (headers : List (String × String)) : Option LoadedSession :=
  (D.sessionCookie headers).bind (fun value => (D.unsign s.time value).map (fun marker =>
    ⟨marker, s.time, ((s.cookie? value marker).map SignedCookie.signings).getD []⟩))

def goto (i : ℕ) (p : Progress Pw Hash) : Plane Pw Hash Token :=
  { s with progress := Function.update s.progress i p }

def signed (session : LoadedSession) : SignedCookie :=
  ⟨D.sign s.time session.marker, session.marker, ⟨session.loaded, s.time⟩ :: session.signings⟩

def respond (i : ℕ) (status : ℕ) (session : Option LoadedSession)
    (modified : Bool) : Plane Pw Hash Token :=
  { s.goto i (.answered status) with
    issued := s.issued ++ if modified || D.rolls then (session.map (s.signed D)).toList else [] }

def start (i : ℕ) (source : String) (endpoint : Endpoint Pw) (headers : List (String × String))
    (credential : Option Credential) : Plane Pw Hash Token :=
  s.goto i (.running ⟨endpoint, source, s.time, s.loadSession D headers, credential,
    s.adminRow.getD D.adminPasswordHash⟩)

def mayStart (source : String) : Endpoint Pw → Bool
  | .login _ => s.limiter.isAllowed source s.clock
  | _ => true

def route (i : ℕ) (source : String) (endpoint : Endpoint Pw) (headers : List (String × String)) :
    Plane Pw Hash Token :=
  if endpoint.guarded then
    match requireAdmin (s.framework D) (endpoint.request headers) with
    | none => s.respond D i Status.unauthorized (s.loadSession D headers) false
    | some credential => s.start D i source endpoint headers (some credential)
  else if s.mayStart source endpoint then s.start D i source endpoint headers none
  else s.respond D i Status.tooManyRequests (s.loadSession D headers) false

def arrive (i : ℕ) (source : String) (endpoint : Endpoint Pw) (headers : List (String × String)) :
    Plane Pw Hash Token :=
  match csrf (s.framework D) D.managementOrigin (endpoint.request headers) with
  | .raised => s.goto i (.answered Status.serverError)
  | .refused => s.goto i (.answered Status.forbidden)
  | .passed => s.route D i source endpoint headers

def upgraded (job : Job Pw Hash) (password : Pw) (salt : ℕ) : Option Hash :=
  if D.hasher.needsRehash job.stored then some (D.hasher.hash salt password) else s.adminRow

def loggedIn (job : Job Pw Hash) (password : Pw) (salt : ℕ) : Plane Pw Hash Token :=
  { s with
    adminRow := s.upgraded D job password salt
    limiter := s.limiter.recordSuccess job.source
    verified := s.verified ++ [(s.time, password, job.stored)] }

def loginFailed (job : Job Pw Hash) : Plane Pw Hash Token :=
  { s with limiter := (s.limiter.recordFailure D.limits job.source s.clock).1 }

def login (i : ℕ) (job : Job Pw Hash) (password : Pw) (salt : ℕ) : Plane Pw Hash Token :=
  if D.hasher.verify job.stored password then
    (s.loggedIn D job password salt).respond D i Status.ok (some ⟨⟨s.time⟩, job.arrived, []⟩) true
  else (s.loginFailed D job).respond D i Status.unauthorized job.session false

def changePassword (i : ℕ) (job : Job Pw Hash) (current new : Pw)
    (salt : ℕ) : Plane Pw Hash Token :=
  if D.hasher.verify job.stored current then
    { s with adminRow := some (D.hasher.hash salt new) }.respond D i Status.ok job.session false
  else s.respond D i Status.forbidden job.session false

def createApiToken (i : ℕ) (job : Job Pw Hash) (name drawn : String) : Plane Pw Hash Token :=
  if !lengthOk name then s.respond D i Status.unprocessable job.session false
  else if !storable name then s.goto i (.answered Status.serverError)
  else if D.hashToken drawn ∈ s.tokens.map Prod.snd then
    { s.goto i (.answered Status.serverError) with tokenSeq := s.tokenSeq + 1 }
  else { s with
      tokens := s.tokens ++ [(s.tokenSeq + 1, D.hashToken drawn)]
      tokenSeq := s.tokenSeq + 1 }.respond D i Status.created job.session false

def revokeApiToken (i : ℕ) (job : Job Pw Hash) (tokenId : ℤ) : Plane Pw Hash Token :=
  if !inInt32 tokenId then s.goto i (.answered Status.serverError)
  else if s.tokens.any (fun t => (t.1 : ℤ) = tokenId) then
    { s with tokens := s.tokens.filter (fun t => (t.1 : ℤ) ≠ tokenId) }.respond D i Status.noContent
      job.session false
  else s.respond D i Status.notFound job.session false

def manage (i : ℕ) (job : Job Pw Hash) (req : Request) : Plane Pw Hash Token :=
  let answer := handle D.fernet D.kek s.db req
  if answer.1 = Status.serverError then { s.goto i (.answered answer.1) with db := answer.2 }
  else { s with db := answer.2 }.respond D i answer.1 job.session false

def finish (i : ℕ) (job : Job Pw Hash) (salt : ℕ) : Plane Pw Hash Token :=
  match job.endpoint with
  | .login password => s.login D i job password salt
  | .logout => s.respond D i Status.ok none true
  | .changePassword current new => s.changePassword D i job current new salt
  | .createApiToken name drawn => s.createApiToken D i job name drawn
  | .revokeApiToken tokenId => s.revokeApiToken D i job tokenId
  | .manage req => s.manage D i job req
  | .sessionStatus | .listApiTokens | .read _ | .probe _ =>
    s.respond D i Status.ok job.session false

def next : Event Pw → Option (Plane Pw Hash Token)
  | .tick time clock => if s.time ≤ time ∧
      s.clock ≤ clock then some { s with time := time, clock := clock } else none
  | .arrive i source endpoint headers =>
    match s.progress i with
    | .idle => some (s.arrive D i source endpoint headers)
    | _ => none
  | .finish i salt =>
    match s.progress i with
    | .running job => some (s.finish D i job salt)
    | _ => none

end Plane

def plane (db : Database Token) : System (Plane Pw Hash Token) (Event Pw) :=
  .deterministic (fun s => s = { db := db }) (Plane.next D)

/-- A session cookie that verifies is one the server has signed, no more than `max_age` seconds ago.
-/
def Genuine (s : Plane Pw Hash Token) : Event Pw → Prop
  | .arrive _ _ _ headers => ∀ value ∈ D.sessionCookie headers, ∀ marker ∈ D.unsign s.time value,
      ∃ k ∈ s.cookie? value marker, ∃ newest ∈ k.signings.head?,
        newest.answer ≤ s.time ∧ s.time ≤ newest.answer + sessionMaxAge
  | _ => True

structure Untouched (db : Database Token) (s : Plane Pw Hash Token) : Prop where
  db : s.db = db
  adminRow : s.adminRow = none
  tokens : s.tokens = []
  issued : s.issued = []
  refused : ∀ i job, s.progress i = .running job → job.credential = none

def KnowsSeed : Event Pw → Prop
  | .arrive _ _ (.login password) _ => D.hasher.verify D.adminPasswordHash password = true
  | _ => False

def Follows (later earlier : Signing) : Prop :=
  earlier.answer ≤ later.request ∧ later.request ≤ earlier.answer + sessionMaxAge

structure Descends (verified : List (ℕ × Pw × Hash)) (marker : Marker)
    (signings : List Signing) : Prop where
  chain : signings.IsChain Follows
  first : ∃ login ∈ signings.getLast?, login.answer = marker.iat
  login : ∃ password stored, (marker.iat, password, stored) ∈ verified ∧
    D.hasher.verify stored password = true
  single : D.rolls = false → signings.length = 1

structure SessionTraced (s : Plane Pw Hash Token) (job : Job Pw Hash)
    (session : LoadedSession) : Prop where
  descends : Descends D s.verified session.marker session.signings
  fresh : ∃ newest ∈ session.signings.head?, newest.answer ≤ job.arrived ∧
    job.arrived ≤ newest.answer + sessionMaxAge
  bounded : D.rolls = false → job.arrived ≤ session.marker.iat + sessionMaxAge

end Serve

section Gates

variable {Pw Hash Key Token : Type} {D : Deployment Pw Hash Key Token} {s : Plane Pw Hash Token}

lemma loadSession_of_session {r : HttpRequest}
    (h : requireAdmin (s.framework D) r = some .session) : ∃ value marker,
    D.sessionCookie r.headers = some value ∧ D.unsign s.time value = some marker := by
  rw [requireAdmin] at h
  split_ifs at h with hc
  · obtain ⟨-, hadmin⟩ := hc
    cases hv : D.sessionCookie r.headers with
    | none => simp [Plane.framework, hv] at hadmin
    | some value =>
      obtain ⟨marker, hm⟩ :=
        Option.isSome_iff_exists.mp (by simpa [Plane.framework, hv] using hadmin)
      exact ⟨value, marker, rfl, hm⟩
  · split at h
    · cases h
    · split_ifs at h
      cases h

lemma token_of_requireAdmin {r : HttpRequest} (h : requireAdmin (s.framework D) r = some .token) :
    ∃ hash, hash ∈ s.tokens.map Prod.snd := by
  rw [requireAdmin] at h
  split_ifs at h with hc
  · cases h
  · split at h
    · cases h
    · next key _ =>
      split_ifs at h with hv
      exact ⟨D.hashToken key, of_decide_eq_true hv⟩

end Gates

section Updates

variable {Pw Hash Key Token : Type} {D : Deployment Pw Hash Key Token} {s : Plane Pw Hash Token}
  {i j : ℕ} {p : Progress Pw Hash}

lemma progress_goto_self : (s.goto i p).progress i = p := by
  rw [Plane.goto]
  exact Function.update_self _ _ _

lemma progress_goto_of_ne (h : j ≠ i) : (s.goto i p).progress j = s.progress j := by
  rw [Plane.goto]
  exact Function.update_of_ne h _ _

lemma running_goto {job : Job Pw Hash} (h : (s.goto i p).progress j = .running job) :
    p = .running job ∨ s.progress j = .running job := by
  by_cases hij : j = i
  · subst hij
    rw [progress_goto_self] at h
    exact .inl h
  · rw [progress_goto_of_ne hij] at h
    exact .inr h

end Updates

section Root

variable {Pw Hash Key Token : Type} {D : Deployment Pw Hash Key Token} {db : Database Token}
  {s s' : Plane Pw Hash Token} {es : List (Event Pw)}

structure Quiet (D : Deployment Pw Hash Key Token) (db : Database Token) (es : List (Event Pw))
    (s : Plane Pw Hash Token) : Prop extends Untouched db s where
  unguarded : ∀ i job, s.progress i = .running job → job.endpoint.guarded = false
  stored : ∀ i job, s.progress i = .running job → job.stored = D.adminPasswordHash
  session : ∀ i job, s.progress i = .running job → job.session = none
  asked : ∀ i job password, s.progress i = .running job → job.endpoint = .login password →
    ∃ j source headers, Event.arrive j source (.login password) headers ∈ es

lemma Quiet.later (h : Quiet D db es s) (e : Event Pw) : Quiet D db (es ++ [e]) s := by
  refine { h with asked := fun i job password hp he => ?_ }
  obtain ⟨j, source, headers, hm⟩ := h.asked i job password hp he
  exact ⟨j, source, headers, List.mem_append_left _ hm⟩

lemma Quiet.answer (h : Quiet D db es s)
    (i status : ℕ) : Quiet D db es (s.goto i (.answered status)) := by
  have hrun : ∀ j job, (s.goto i (.answered status)).progress j = .running job →
      s.progress j = .running job := by
    intro j job hp
    rcases running_goto hp with hp | hp
    · cases hp
    · exact hp
  exact ⟨⟨h.db, h.adminRow, h.tokens, h.issued, fun j job hp => h.refused j job (hrun j job hp)⟩,
    fun j job hp => h.unguarded j job (hrun j job hp),
    fun j job hp => h.stored j job (hrun j job hp), fun j job hp => h.session j job (hrun j job hp),
    fun j job password hp he => h.asked j job password (hrun j job hp) he⟩

lemma Quiet.respond (h : Quiet D db es s) (i status : ℕ) (modified : Bool) :
    Quiet D db es (s.respond D i status none modified) := by
  have ha := h.answer i status
  refine { ha with issued := ?_ }
  rw [Plane.respond, Option.map_none, Option.toList_none, ite_self, List.append_nil]
  exact ha.issued

lemma Quiet.limiter (h : Quiet D db es s)
    (l : Limiter) : Quiet D db es { s with limiter := l } := { h with }

lemma Quiet.start (h : Quiet D db es s) {i : ℕ} {source : String} {endpoint : Endpoint Pw}
    {headers : List (String × String)} (hl : s.loadSession D headers = none)
    (hg : endpoint.guarded = false) (he : Event.arrive i source endpoint headers ∈ es) :
    Quiet D db es (s.start D i source endpoint headers none) := by
  have hrun : ∀ j job, (s.start D i source endpoint headers none).progress j = .running job →
      ⟨endpoint, source, s.time, none, none, D.adminPasswordHash⟩ = job ∨
      s.progress j = .running job := by
    intro j job hp
    rw [Plane.start, hl, h.adminRow, Option.getD_none] at hp
    rcases running_goto hp with hp | hp
    · exact .inl (by injection hp)
    · exact .inr hp
  refine ⟨⟨h.db, h.adminRow, h.tokens, h.issued, fun j job hp => ?_⟩, fun j job hp => ?_,
    fun j job hp => ?_, fun j job hp => ?_, fun j job password hp hlogin => ?_⟩
  · rcases hrun j job hp with rfl | hp
    · rfl
    · exact h.refused j job hp
  · rcases hrun j job hp with rfl | hp
    · exact hg
    · exact h.unguarded j job hp
  · rcases hrun j job hp with rfl | hp
    · rfl
    · exact h.stored j job hp
  · rcases hrun j job hp with rfl | hp
    · rfl
    · exact h.session j job hp
  · rcases hrun j job hp with rfl | hp
    · obtain rfl : endpoint = .login password := hlogin
      exact ⟨i, source, headers, he⟩
    · exact h.asked j job password hp hlogin

lemma Quiet.loadSession (h : Quiet D db es s) {i : ℕ} {source : String} {endpoint : Endpoint Pw}
    {headers : List (String × String)} (hg : Genuine D s (.arrive i source endpoint headers))
    {value : String} {marker : Marker} (hv : D.sessionCookie headers = some value) :
    D.unsign s.time value ≠ some marker := by
  intro hm
  obtain ⟨k, hk, -⟩ := hg value hv marker hm
  rw [Option.mem_def, Plane.cookie?, h.issued] at hk
  cases hk

lemma Quiet.noSession (h : Quiet D db es s) {i : ℕ} {source : String} {endpoint : Endpoint Pw}
    {headers : List (String × String)} (hg : Genuine D s (.arrive i source endpoint headers)) :
    s.loadSession D headers = none := by
  rw [Plane.loadSession, Option.bind_eq_none_iff]
  intro value hv
  rw [Option.map_eq_none_iff]
  cases hm : D.unsign s.time value with
  | none => rfl
  | some marker => exact absurd hm (h.loadSession hg hv)

lemma Quiet.unauthorized (h : Quiet D db es s) {i : ℕ} {source : String} {endpoint : Endpoint Pw}
    {headers : List (String × String)} (hg : Genuine D s (.arrive i source endpoint headers)) :
    requireAdmin (s.framework D) (endpoint.request headers) = none := by
  cases hr : requireAdmin (s.framework D) (endpoint.request headers) with
  | none => rfl
  | some credential =>
    cases credential with
    | session =>
      obtain ⟨value, marker, hv, hm⟩ := loadSession_of_session hr
      exact absurd hm (h.loadSession hg hv)
    | token =>
      obtain ⟨hash, hh⟩ := token_of_requireAdmin hr
      rw [h.tokens] at hh
      cases hh

lemma Quiet.arrive (h : Quiet D db es s) {i : ℕ} {source : String} {endpoint : Endpoint Pw}
    {headers : List (String × String)} (hg : Genuine D s (.arrive i source endpoint headers))
    (he : Event.arrive i source endpoint headers ∈ es) :
    Quiet D db es (s.arrive D i source endpoint headers) := by
  have hl := h.noSession hg
  rw [Plane.arrive]
  split
  · exact h.answer i _
  · exact h.answer i _
  · rw [Plane.route, h.unauthorized hg]
    by_cases hgd : endpoint.guarded = true
    · rw [if_pos hgd, hl]
      exact h.respond i _ _
    · rw [if_neg hgd]
      have hun : endpoint.guarded = false := by simpa using hgd
      split_ifs
      · exact h.start hl hun he
      · rw [hl]
        exact h.respond i _ _

lemma Quiet.login (h : Quiet D db es s) {i : ℕ} {job : Job Pw Hash} {password : Pw} (salt : ℕ)
    (hp : s.progress i = .running job) (he : job.endpoint = .login password) :
    (∃ e ∈ es, KnowsSeed D e) ∨ Quiet D db es (s.login D i job password salt) := by
  rw [Plane.login]
  split_ifs with hv
  · obtain ⟨j, source, headers, hm⟩ := h.asked i job password hp he
    rw [h.stored i job hp] at hv
    exact .inl ⟨_, hm, hv⟩
  · rw [h.session i job hp]
    exact .inr ((h.limiter _).respond i _ _)

lemma Quiet.finish (h : Quiet D db es s) {i : ℕ} {job : Job Pw Hash} (salt : ℕ)
    (hp : s.progress i = .running job) :
    (∃ e ∈ es, KnowsSeed D e) ∨ Quiet D db es (s.finish D i job salt) := by
  have hg := h.unguarded i job hp
  rw [Plane.finish]
  cases he : job.endpoint with
  | login password => exact h.login salt hp he
  | logout => exact .inr (h.respond i _ _)
  | probe path =>
    rw [h.session i job hp]
    exact .inr (h.respond i _ _)
  | sessionStatus | changePassword | createApiToken | listApiTokens | revokeApiToken
  | manage | read =>
    rw [he] at hg
    cases hg

lemma Quiet.step (h : Quiet D db es s) {e : Event Pw} (hg : Genuine D s e)
    (hs : s.next D e = some s') :
    (∃ e' ∈ es ++ [e], KnowsSeed D e') ∨ Quiet D db (es ++ [e]) s' := by
  have hl := h.later e
  cases e with
  | tick time clock =>
    simp only [Plane.next] at hs
    split_ifs at hs
    obtain rfl := Option.some.inj hs
    exact .inr { hl with }
  | arrive i source endpoint headers =>
    simp only [Plane.next] at hs
    split at hs
    · obtain rfl := Option.some.inj hs
      exact .inr (hl.arrive hg (List.mem_append_right _ (List.mem_singleton.mpr rfl)))
    · cases hs
  | finish i salt =>
    simp only [Plane.next] at hs
    split at hs
    · next job hp =>
      obtain rfl := Option.some.inj hs
      exact hl.finish salt hp
    · cases hs

lemma quiet_of_run (h : ((plane D db).restrict (Genuine D)).Run es s) :
    (∃ e ∈ es, KnowsSeed D e) ∨ Quiet D db es s := by
  induction h with
  | init h =>
    subst h
    exact .inr ⟨⟨rfl, rfl, rfl, rfl, by simp⟩, by simp, by simp, by simp, by simp⟩
  | step _ hs ih =>
    rcases ih with ⟨e, he, hk⟩ | hq
    · exact .inl ⟨e, List.mem_append_left _ he, hk⟩
    · exact hq.step hs.1 hs.2

/-- All authority over the management plane goes back to the seeded password: unless some login has
presented it, no request of any run has been let in, and nothing has been written. -/
theorem untouched_without_seed (D : Deployment Pw Hash Key Token) (db : Database Token)
    (h : ((plane D db).restrict (Genuine D)).Run es s) (hn : ∀ e ∈ es, ¬ KnowsSeed D e) :
    Untouched db s := by
  rcases quiet_of_run h with ⟨e, he, hk⟩ | hq
  · exact absurd hk (hn e he)
  · exact hq.toUntouched

end Root

section Sessions

variable {Pw Hash Key Token : Type} {D : Deployment Pw Hash Key Token} {db : Database Token}
  {s s' : Plane Pw Hash Token} {es : List (Event Pw)} {verified : List (ℕ × Pw × Hash)}

lemma Descends.mono {verified' : List (ℕ × Pw × Hash)} (hsub : verified ⊆ verified')
    {marker : Marker} {signings : List Signing} (h : Descends D verified marker signings) :
    Descends D verified' marker signings := by
  obtain ⟨password, stored, hm, hv⟩ := h.login
  exact { h with login := ⟨password, stored, hsub hm, hv⟩ }

structure SessionOk (D : Deployment Pw Hash Key Token) (verified : List (ℕ × Pw × Hash))
    (session : LoadedSession) : Prop where
  descends : Descends D verified session.marker session.signings
  fresh : ∃ newest ∈ session.signings.head?, newest.answer ≤ session.loaded ∧
    session.loaded ≤ newest.answer + sessionMaxAge

lemma SessionOk.mono {verified' : List (ℕ × Pw × Hash)} (hsub : verified ⊆ verified')
    {session : LoadedSession} (h : SessionOk D verified session) : SessionOk D verified' session :=
  ⟨h.descends.mono hsub, h.fresh⟩

lemma SessionOk.signed {session : LoadedSession} (h : SessionOk D s.verified session)
    (hr : D.rolls = true) :
    Descends D s.verified (s.signed D session).marker (s.signed D session).signings := by
  obtain ⟨newest, hn, hf⟩ := h.fresh
  refine ⟨?_, ?_, h.descends.login, fun hno => absurd hr (by simp [hno])⟩
  · refine List.isChain_cons.mpr ⟨fun earlier he => ?_, h.descends.chain⟩
    obtain rfl := Option.some.inj (he.symm.trans hn)
    exact hf
  · obtain ⟨login, hl, hi⟩ := h.descends.first
    exact ⟨login,
      by rw [Option.mem_def, Plane.signed, List.getLast?_cons, hl, Option.getD_some], hi⟩

structure Traced (D : Deployment Pw Hash Key Token) (s : Plane Pw Hash Token) : Prop where
  issued : ∀ k ∈ s.issued, Descends D s.verified k.marker k.signings
  running : ∀ i job session, s.progress i = .running job → job.session = some session →
    SessionOk D s.verified session ∧ session.loaded = job.arrived
  authorized : ∀ i job, s.progress i = .running job → job.credential = some .session →
    job.session.isSome

lemma Traced.goto (h : Traced D s) (i : ℕ) {p : Progress Pw Hash}
    (hr : ∀ job session, p = .running job → job.session = some session →
      SessionOk D s.verified session ∧ session.loaded = job.arrived) (ha : ∀ job, p = .running job →
      job.credential = some .session → job.session.isSome) : Traced D (s.goto i p) := by
  refine ⟨h.issued, fun j job session hp hs => ?_, fun j job hp hc => ?_⟩
  · rcases running_goto hp with hp | hp
    · exact hr job session hp hs
    · exact h.running j job session hp hs
  · rcases running_goto hp with hp | hp
    · exact ha job hp hc
    · exact h.authorized j job hp hc

lemma Traced.answer (h : Traced D s) (i status : ℕ) : Traced D (s.goto i (.answered status)) :=
  h.goto i (by simp) (by simp)

lemma Traced.sign (h : Traced D s) (i status : ℕ) {session : Option LoadedSession} {modified : Bool}
    (hs : ∀ k ∈ session, (modified || D.rolls) = true →
      Descends D s.verified (s.signed D k).marker (s.signed D k).signings) :
    Traced D (s.respond D i status session modified) := by
  have ha := h.answer i status
  refine ⟨fun k hk => ?_, ha.running, ha.authorized⟩
  rcases List.mem_append.mp hk with hk | hk
  · exact h.issued k hk
  · split_ifs at hk with hr
    · obtain ⟨loaded, hl, rfl⟩ := Option.mem_map.mp (Option.mem_toList.mp hk)
      exact hs loaded hl hr
    · cases hk

lemma Traced.respond (h : Traced D s) (i status : ℕ) {session : Option LoadedSession}
    (hs : ∀ k ∈ session, SessionOk D s.verified k) :
    Traced D (s.respond D i status session false) :=
  h.sign i status (fun k hk hr => (hs k hk).signed (by simpa using hr))

lemma Traced.ofJob (h : Traced D s) {i : ℕ} {job : Job Pw Hash} (hp : s.progress i = .running job) :
    ∀ k ∈ job.session, SessionOk D s.verified k :=
  fun k hk => (h.running i job k hp hk).1

lemma Traced.loadSession (h : Traced D s) {i : ℕ} {source : String} {endpoint : Endpoint Pw}
    {headers : List (String × String)} (hg : Genuine D s (.arrive i source endpoint headers)) :
    ∀ k ∈ s.loadSession D headers, SessionOk D s.verified k ∧ k.loaded = s.time := by
  intro session hs
  obtain ⟨value, hv, hm⟩ := Option.bind_eq_some_iff.mp hs
  obtain ⟨marker, hu, rfl⟩ := Option.map_eq_some_iff.mp hm
  obtain ⟨k, hk, hf⟩ := hg value hv marker hu
  have hmem : k ∈ s.issued := List.mem_of_find?_eq_some hk
  have hcond := List.find?_some hk
  obtain ⟨-, rfl⟩ := of_decide_eq_true hcond
  rw [Option.mem_def] at hk
  rw [hk, Option.map_some, Option.getD_some]
  exact ⟨⟨h.issued k hmem, hf⟩, rfl⟩

lemma Traced.start (h : Traced D s) {i : ℕ} {source : String} {endpoint : Endpoint Pw}
    {headers : List (String × String)} {credential : Option Credential}
    (hg : Genuine D s (.arrive i source endpoint headers))
    (hc : credential = some .session → (s.loadSession D headers).isSome) :
    Traced D (s.start D i source endpoint headers credential) := by
  refine h.goto i ?_ ?_
  · rintro job session ⟨⟩ hs
    exact h.loadSession hg session hs
  · rintro job ⟨⟩
    exact hc

lemma loadSession_isSome {r : HttpRequest} (h : requireAdmin (s.framework D) r = some .session) :
    (s.loadSession D r.headers).isSome := by
  obtain ⟨value, marker, hv, hm⟩ := loadSession_of_session h
  rw [Plane.loadSession, hv, Option.bind_some, hm]
  rfl

lemma Traced.arrive (h : Traced D s) {i : ℕ} {source : String} {endpoint : Endpoint Pw}
    {headers : List (String × String)} (hg : Genuine D s (.arrive i source endpoint headers)) :
    Traced D (s.arrive D i source endpoint headers) := by
  have hl := fun k hk => (h.loadSession hg k hk).1
  rw [Plane.arrive]
  split
  · exact h.answer i _
  · exact h.answer i _
  · rw [Plane.route]
    split_ifs
    · split
      · exact h.respond i _ hl
      · next credential hr =>
        refine h.start hg (fun hc => ?_)
        rw [Option.some.inj hc] at hr
        exact loadSession_isSome hr
    · exact h.start hg (by simp)
    · exact h.respond i _ hl

lemma Traced.loggedIn (h : Traced D s) (job : Job Pw Hash) (password : Pw) (salt : ℕ) :
    Traced D (s.loggedIn D job password salt) := by
  have hsub : s.verified ⊆ s.verified ++ [(s.time, password, job.stored)] :=
    List.subset_append_left _ _
  refine ⟨fun k hk => (h.issued k hk).mono hsub, fun j job' session hp hs => ?_, h.authorized⟩
  obtain ⟨hok, harr⟩ := h.running j job' session hp hs
  exact ⟨hok.mono hsub, harr⟩

lemma Traced.login (h : Traced D s) {i : ℕ} {job : Job Pw Hash} (hp : s.progress i = .running job)
    (password : Pw) (salt : ℕ) : Traced D (s.login D i job password salt) := by
  rw [Plane.login]
  split_ifs with hv
  · refine (h.loggedIn job password salt).sign i _ ?_
    rintro session hs -
    obtain rfl := Option.some.inj hs
    have hin : (s.time, password, job.stored) ∈ s.verified ++ [(s.time, password, job.stored)] :=
      List.mem_append_right _ (List.mem_singleton.mpr rfl)
    exact ⟨List.isChain_singleton _, ⟨_, rfl, rfl⟩, ⟨password, job.stored, hin, hv⟩, fun _ => rfl⟩
  · have hl : Traced D (s.loginFailed D job) := { h with }
    exact hl.respond i _ (h.ofJob hp)

lemma Traced.finish (h : Traced D s) {i : ℕ} {job : Job Pw Hash} (salt : ℕ)
    (hp : s.progress i = .running job) : Traced D (s.finish D i job salt) := by
  have hj := h.ofJob hp
  rw [Plane.finish]
  cases job.endpoint with
  | login password => exact h.login hp password salt
  | logout => exact h.sign i _ (by simp)
  | changePassword current new =>
    change Traced D (s.changePassword D i job current new salt)
    rw [Plane.changePassword]
    split_ifs
    · have hrow : Traced D { s with adminRow := some (D.hasher.hash salt new) } := { h with }
      exact hrow.respond i _ hj
    · exact h.respond i _ hj
  | createApiToken name drawn =>
    change Traced D (s.createApiToken D i job name drawn)
    rw [Plane.createApiToken]
    split_ifs
    · exact h.respond i _ hj
    · exact h.answer i _
    · have ha := h.answer i Status.serverError
      exact { ha with }
    · have ht : Traced D { s with
          tokens := s.tokens ++ [(s.tokenSeq + 1, D.hashToken drawn)],
            tokenSeq := s.tokenSeq + 1 } := { h with }
      exact ht.respond i _ hj
  | revokeApiToken tokenId =>
    change Traced D (s.revokeApiToken D i job tokenId)
    rw [Plane.revokeApiToken]
    split_ifs
    · exact h.answer i _
    · have ht : Traced D { s with tokens := s.tokens.filter (fun t => (t.1 : ℤ) ≠ tokenId) } :=
        { h with }
      exact ht.respond i _ hj
    · exact h.respond i _ hj
  | manage req =>
    change Traced D (s.manage D i job req)
    rw [Plane.manage]
    split_ifs
    · have ha := h.answer i (handle D.fernet D.kek s.db req).1
      exact { ha with }
    · have hd : Traced D { s with db := (handle D.fernet D.kek s.db req).2 } := { h with }
      exact hd.respond i _ hj
  | sessionStatus | listApiTokens | read | probe => exact h.respond i _ hj

lemma Traced.step (h : Traced D s) {e : Event Pw} (hg : Genuine D s e) (hs : s.next D e = some s') :
    Traced D s' := by
  cases e with
  | tick time clock =>
    simp only [Plane.next] at hs
    split_ifs at hs
    obtain rfl := Option.some.inj hs
    exact { h with }
  | arrive i source endpoint headers =>
    simp only [Plane.next] at hs
    split at hs
    · obtain rfl := Option.some.inj hs
      exact h.arrive hg
    · cases hs
  | finish i salt =>
    simp only [Plane.next] at hs
    split at hs
    · next job hp =>
      obtain rfl := Option.some.inj hs
      exact h.finish salt hp
    · cases hs

lemma traced_of_run (h : ((plane D db).restrict (Genuine D)).Run es s) : Traced D s := by
  refine System.Run.invariant (I := Traced D) ?_ ?_ h
  · rintro s rfl
    exact ⟨by simp, by simp, by simp⟩
  · rintro s e s' hi ⟨hg, hs⟩
    exact hi.step hg hs

/-- A request that the session cookie has let in goes back to a login with a verified password,
through answers none of which came more than twelve hours before the next request. Where the
middleware signs only changed sessions, the request itself came within twelve hours of the login. -/
theorem session_traced (D : Deployment Pw Hash Key Token) (db : Database Token)
    (h : ((plane D db).restrict (Genuine D)).Run es s) {i : ℕ} {job : Job Pw Hash}
    (hp : s.progress i = .running job) (hc : job.credential = some .session) :
    ∃ session, job.session = some session ∧ SessionTraced D s job session := by
  have ht := traced_of_run h
  obtain ⟨session, hs⟩ := Option.isSome_iff_exists.mp (ht.authorized i job hp hc)
  obtain ⟨⟨hd, newest, hn, hfresh⟩, harr⟩ := ht.running i job session hp hs
  rw [harr] at hfresh
  refine ⟨session, hs, hd, ⟨newest, hn, hfresh⟩, fun hr => ?_⟩
  obtain ⟨login, hl, hi⟩ := hd.first
  obtain ⟨only, ho⟩ := List.length_eq_one_iff.mp (hd.single hr)
  rw [ho] at hn hl
  obtain rfl := Option.some.inj hn
  obtain rfl := Option.some.inj hl
  rw [← hi]
  exact hfresh.2

end Sessions

section Samples

instance {Pw Hash Key Token : Type} (D : Deployment Pw Hash Key Token) (s : Plane Pw Hash Token)
    (e : Event Pw) : Decidable (Genuine D s e) := by
  cases e <;> unfold Genuine <;> infer_instance

def sampleSign (time : ℕ) (marker : Marker) : String :=
  "session." ++ toString marker.iat ++ "." ++ toString time

def sampleUnsign (time : ℕ) (value : String) : Option Marker :=
  let signings :=
    (List.range (time + 1)).flatMap (fun t => (List.range (t + 1)).map (fun iat => (t, iat)))
  (signings.find? (fun p => sampleSign p.1 ⟨p.2⟩ = value ∧ time ≤ p.1 + sessionMaxAge)).map
    (fun p => ⟨p.2⟩)

def sampleDeployment : Deployment String (ℕ × String) Unit String where
  hasher := plainHasher
  adminPasswordHash := (1, "seed")
  fernet := plainFernet
  kek := sampleKek
  managementOrigin := some "https://relay.test"
  limits := {}
  hashToken key := key
  sessionCookie headers := headers.lookup "cookie"
  bracketsOk _ := true
  sign := sampleSign
  unsign := sampleUnsign
  rolls := true

def origin : String × String := ("origin", "https://relay.test")

def guessEvents : List (Event String) :=
  [.arrive 0 "10.0.0.1" (.login "guess") [origin], .finish 0 2, .arrive 1 "10.0.0.1"
    (.createApiToken "ci" "tok") [origin, ("cookie", "forged"), ("x-api-key", "tok")]]

def statusOf (s : Plane String (ℕ × String) String) (i : ℕ) : Option ℕ :=
  match s.progress i with
  | .answered status => some status
  | _ => none

theorem guesses_untouched : ∃ s, ((plane sampleDeployment Database.empty).restrict
      (Genuine sampleDeployment)).Run guessEvents s ∧ statusOf s 0 = some Status.unauthorized ∧
    statusOf s 1 = some Status.unauthorized ∧ Untouched Database.empty s := by
  obtain ⟨s, hr, he⟩ : ∃ s,
      ((plane sampleDeployment Database.empty).restrict (Genuine sampleDeployment)).Run
      guessEvents s ∧ (statusOf s 0, statusOf s 1) = (some 401, some 401) :=
    System.exists_run_restrict rfl (by decide +kernel)
  obtain ⟨h0, h1⟩ := Prod.mk.inj he
  refine ⟨s, hr, h0, h1, untouched_without_seed sampleDeployment Database.empty hr ?_⟩
  intro e hm hk
  fin_cases hm
  · exact absurd hk (by simp [KnowsSeed, sampleDeployment, plainHasher])
  · exact hk
  · exact hk

def sessionEvents : List (Event String) :=
  [.tick 5 5, .arrive 0 "10.0.0.1" (.login "seed") [origin], .finish 0 2, .tick 6 6,
    .arrive 1 "10.0.0.1" .sessionStatus [("cookie", "session.5.5")], .finish 1 0, .tick 7 7,
    .arrive 2 "10.0.0.1" .listApiTokens [("cookie", "session.5.6")]]

def authorizedBy (s : Plane String (ℕ × String) String)
    (i : ℕ) : Option (Option Credential × Option LoadedSession) :=
  match s.progress i with
  | .running job => some (job.credential, job.session)
  | _ => none

theorem second_request_traced :
    ∃ s job session,
      ((plane sampleDeployment Database.empty).restrict (Genuine sampleDeployment)).Run
        sessionEvents s ∧
      s.progress 2 = .running job ∧ session.signings = [⟨6, 6⟩, ⟨5, 5⟩] ∧
      SessionTraced sampleDeployment s job session := by
  obtain ⟨s, hr, he⟩ : ∃ s,
      ((plane sampleDeployment Database.empty).restrict (Genuine sampleDeployment)).Run
      sessionEvents s ∧ authorizedBy s 2 = some (some .session, some ⟨⟨5⟩, 7, [⟨6, 6⟩, ⟨5, 5⟩]⟩) :=
    System.exists_run_restrict rfl (by decide +kernel)
  rw [authorizedBy] at he
  split at he
  · next job hp =>
    obtain ⟨hc, hs⟩ := Prod.mk.inj (Option.some.inj he)
    obtain ⟨session, hs', ht⟩ := session_traced sampleDeployment Database.empty hr hp hc
    obtain rfl := Option.some.inj (hs.symm.trans hs')
    exact ⟨s, job, _, hr, hp, rfl, ht⟩
  · cases he

end Samples

end AstropathRelay.Api.Authority
