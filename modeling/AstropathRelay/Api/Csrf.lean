import Mathlib.Tactic

/-! The origin check on mutating requests and the admin dependency behind it. -/

namespace AstropathRelay.Api

structure HttpRequest where
  method : String
  path : String
  headers : List (String × String)
deriving DecidableEq

def HttpRequest.header (r : HttpRequest) (name : String) : Option String := r.headers.lookup name

section Url

def isSchemeChar (c : Char) : Bool := c.isAlphanum ∨ c = '+' ∨ c = '-' ∨ c = '.'

/-- `urlsplit` up to the netloc; `bracketsOk` is its check of a bracketed host. Header values are
Latin-1, for which the NFKC check of a netloc never fails. -/
def urlsplit (bracketsOk : List Char → Bool) (url : String) : Option (String × String) :=
  let chars :=
    (url.toList.dropWhile (fun c => c.toNat ≤ 32)).filter (fun c => c ∉ ['\t', '\r', '\n'])
  let head := chars.takeWhile (· ≠ ':')
  let hasScheme := ':' ∈ chars ∧ (head.head?.map Char.isAlpha).getD false ∧ head.all isSchemeChar
  let scheme := if hasScheme then head.map Char.toLower else []
  let rest := if hasScheme then chars.drop (head.length + 1) else chars
  let netloc :=
    if rest.take 2 = ['/', '/'] then (rest.drop 2).takeWhile (fun c => c ∉ ['/', '?', '#']) else []
  if ('[' ∈ netloc) ≠ (']' ∈ netloc) then none
  else if '[' ∈ netloc ∧
    !bracketsOk (((netloc.dropWhile (· ≠ '[')).drop 1).takeWhile (· ≠ ']')) then none
  else some (String.ofList scheme, String.ofList netloc)

def originOf (bracketsOk : List Char → Bool) (url : String) : Option (Option String) :=
  (urlsplit bracketsOk url).map (fun parts =>
    if parts.1 = "" ∨ parts.2 = "" then none else some (parts.1 ++ "://" ++ parts.2))

end Url

/-- What the framework adds: the session cookie in a request's headers, whether a cookie's signed
session marks an admin, the tokens that storage knows, and the standard library's check of a
bracketed host. -/
structure Framework where
  sessionCookie : List (String × String) → Option String
  sessionIsAdmin : String → Bool
  tokenValid : String → Bool
  bracketsOk : List Char → Bool

inductive Credential
  | session
  | token
deriving DecidableEq

inductive Passage
  | passed
  | refused
  | raised
deriving DecidableEq

section Gates

variable (F : Framework)

def safeMethods : List String := ["GET", "HEAD", "OPTIONS", "TRACE"]

def protectedPath : String := "/api/v1"

def HttpRequest.isProtected (r : HttpRequest) : Bool :=
  protectedPath.toList.isPrefixOf r.path.toList

def needsCheck (allowed : Option String) (r : HttpRequest) : Bool :=
  match allowed with
  | none => false
  | some _ =>
    if r.method ∈ safeMethods then false
    else if !r.isProtected then false
    else (r.header "x-api-key").isNone

def refererOrigin (r : HttpRequest) : Option (Option String) :=
  match r.header "referer" with
  | none => some none
  | some referer => if referer = "" then some none else originOf F.bracketsOk referer

def requestOrigin (r : HttpRequest) : Option (Option String) :=
  match r.header "origin" with
  | some origin => some (some origin)
  | none => refererOrigin F r

def csrf (allowed : Option String) (r : HttpRequest) : Passage :=
  if needsCheck allowed r then
    match requestOrigin F r with
    | none => .raised
    | some origin => if origin.isSome ∧ origin = allowed then .passed else .refused
  else .passed

def nonempty : Option String → Option String
  | some "" => none
  | v => v

def requireAdmin (r : HttpRequest) : Option Credential :=
  let sessionCookie := F.sessionCookie r.headers
  if (nonempty sessionCookie).isSome ∧
    (sessionCookie.map F.sessionIsAdmin).getD false then some .session
  else
    match nonempty (r.header "x-api-key") with
    | none => none
    | some key => if F.tokenValid key then some .token else none

def SameOrigin (allowed : String) (r : HttpRequest) : Prop :=
  csrf F (some allowed) r = .passed → requireAdmin F r = some .session →
    requestOrigin F r = some (some allowed)

variable {F}

lemma csrf_checked {allowed : String} {r : HttpRequest} (hm : r.method ∉ safeMethods)
    (hp : r.isProtected) (hk : r.header "x-api-key" = none)
    (h : csrf F (some allowed) r = .passed) : requestOrigin F r = some (some allowed) := by
  have hn : needsCheck (some allowed) r = true := by simp [needsCheck, hm, hp, hk]
  rw [csrf, if_pos hn] at h
  cases ho : requestOrigin F r with
  | none => simp [ho] at h
  | some origin =>
    simp only [ho] at h
    split_ifs at h with hs
    rw [hs.2]

lemma csrf_exempt {allowed : Option String} {r : HttpRequest} (hk : r.header "x-api-key" ≠ none) :
    csrf F allowed r = .passed := by
  have hn : needsCheck allowed r = false := by
    obtain ⟨key, hkey⟩ := Option.ne_none_iff_exists'.mp hk
    cases allowed <;> simp [needsCheck, hkey]
  rw [csrf, if_neg (by simp [hn])]

/-- A mutation that the session cookie authorizes is of the configured origin, unless an `X-API-Key`
header switches the origin check off for it. -/
theorem cookie_mutation_sameOrigin_iff (F : Framework) (allowed : String) {r : HttpRequest}
    (hm : r.method ∉ safeMethods) (hp : r.isProtected) :
    SameOrigin F allowed r ↔
      r.header "x-api-key" = none ∨ requireAdmin F r ≠ some .session ∨
        requestOrigin F r = some (some allowed) := by
  constructor
  · intro h
    by_cases hk : r.header "x-api-key" = none
    · exact .inl hk
    · by_cases ha : requireAdmin F r = some .session
      · exact .inr (.inr (h (csrf_exempt hk) ha))
      · exact .inr (.inl ha)
  · rintro (hk | ha | ho) hc hs
    · exact csrf_checked hm hp hk hc
    · exact absurd hs ha
    · exact ho

end Gates

section Samples

def cookieFramework : Framework where
  sessionCookie headers := headers.lookup "cookie"
  sessionIsAdmin cookie := cookie = "admin"
  tokenValid _ := false
  bracketsOk _ := true

def plainMutation : HttpRequest :=
  ⟨"POST", "/api/v1/backends", [("cookie", "admin"), ("referer", "https://relay.test/backends/5")]⟩

theorem plainMutation_sameOrigin :
    csrf cookieFramework (some "https://relay.test") plainMutation = .passed ∧
      requireAdmin cookieFramework plainMutation = some .session ∧
      SameOrigin cookieFramework "https://relay.test" plainMutation :=
  ⟨by decide +kernel, by decide +kernel,
    (cookie_mutation_sameOrigin_iff cookieFramework "https://relay.test" (by decide)
    (by decide +kernel)).mpr
      (.inl (by decide))⟩

def keyedMutation : HttpRequest :=
  ⟨"POST", "/api/v1/backends",
    [("cookie", "admin"), ("origin", "https://evil.example"), ("x-api-key", "unknown")]⟩

theorem keyedMutation_crossOrigin :
    keyedMutation.method ∉ safeMethods ∧ keyedMutation.isProtected ∧
      ¬ SameOrigin cookieFramework "https://relay.test" keyedMutation := by
  refine ⟨by decide, by decide +kernel, fun h => ?_⟩
  have ho := h (by decide +kernel) (by decide +kernel)
  revert ho
  decide +kernel

end Samples

end AstropathRelay.Api
