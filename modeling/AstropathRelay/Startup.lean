import AstropathRelay.Cache.Loads

/-! What is checked before readiness is bound: the KEK keylist, and the database with what stands
around it. -/

namespace AstropathRelay.Startup

open Lib Lib.Results DataPlane Providers Store Cache

section Keylist

def isSeparator (c : Char) : Bool := isSpace c || c == ','

/-- A split at each separator differs from one at each run of them in empty entries only, and those
are dropped. -/
def entries (text : List Char) : List (List Char) :=
  (text.splitOnP isSeparator).filter (fun entry => !entry.isEmpty)

def parseKeylist (raw : String) : List String := (entries raw.toList).map String.ofList

inductive KekError
  | empty
  | position (index : ℕ)
deriving DecidableEq

def KekError.text : KekError → String
  | empty => "KEK keylist is empty; at least one Fernet key is required"
  | position index =>
    "KEK key at position " ++ toString index ++ " is not a valid 32-byte urlsafe-base64 Fernet key"

variable {Key : Type} (fernet : String → Option Key)

def fernetAt (index : ℕ) (key : String) : Except KekError Key :=
  match fernet key with
  | none => .error (.position index)
  | some k => .ok k

def buildFernets : ℕ → List String → Except KekError (List Key)
  | _, [] => .ok []
  | index, key :: keys => do
    let k ← fernetAt fernet index key
    let ks ← buildFernets (index + 1) keys
    return k :: ks

def kekOfKeys : List String → Except KekError (Kek Key)
  | [] => .error .empty
  | key :: keys => do
    let k ← fernetAt fernet 0 key
    let ks ← buildFernets fernet 1 keys
    return ⟨k :: ks, List.cons_ne_nil k ks⟩

def fromKeylist (raw : String) : Except KekError (Kek Key) := kekOfKeys fernet (parseKeylist raw)

end Keylist

inductive StartupError
  | kekUnset
  | invalidKek (e : KekError)
  | spaDir (dir : String)
  | unreachable (exception : String)
  | unresolvable (alembicIni detail : String)
  | notCurrent (current head : Option String)
  | unknownProvider (name type : String)
  | unsupportedAlgorithm (name algorithm : String)
deriving DecidableEq

def StartupError.text (repr : Option String → String) : StartupError → String
  | kekUnset => "credential KEK is not configured (set ASTROPATH_CREDENTIAL_KEK)"
  | invalidKek e => "invalid credential KEK: " ++ e.text
  | spaDir dir => "configured SPA directory does not exist: " ++ dir
  | unreachable exception =>
    "database is unreachable at startup (" ++ exception ++ "); check ASTROPATH_DATABASE_DSN"
  | unresolvable alembicIni detail =>
    "alembic migrations are not resolvable from " ++ repr (some alembicIni) ++ " (" ++
      detail ++ "); the runtime image must ship alembic.ini and the alembic/ directory"
  | notCurrent current head => "database schema is not current (at revision " ++ repr current ++
      ", expected " ++ repr head ++ "); run 'alembic upgrade head'"
  | unknownProvider name type =>
    "backend " ++ repr (some name) ++ " references unknown provider " ++ repr (some type)
  | unsupportedAlgorithm name algorithm =>
    "TSIG key " ++ repr (some name) ++ " uses unsupported algorithm " ++ repr (some algorithm)

/-- What startup finds outside the program: the exception of the ping, if one comes within the
timeout, the head of the migrations or why it is not resolved, and the revision that the database is
stamped with. -/
structure Site where
  spaDir : Option String
  isDir : String → Bool
  ping : Option String
  alembicIni : String
  head : Except String (Option String)
  current : Option String

section Checks

variable {Key Token : Type} (fernet : String → Option Key) (site : Site)

def validateKek (keylist : Option String) : Except StartupError (Kek Key) :=
  match keylist with
  | none => .error .kekUnset
  | some raw => if raw = "" then .error .kekUnset else (fromKeylist fernet raw).mapError .invalidKek

def validateSite : Except StartupError Unit :=
  if site.spaDir.any (fun dir => !site.isDir dir) then .error (.spaDir (site.spaDir.getD ""))
  else match site.ping with
    | some exception => .error (.unreachable exception)
    | none =>
      match site.head with
      | .error detail => .error (.unresolvable site.alembicIni detail)
      | .ok head => if site.current ≠ head then .error (.notCurrent site.current head) else .ok ()

def checkBackend (backend : BackendRow Token) : Except StartupError Unit :=
  match getProvider backend.type with
  | none => .error (.unknownProvider backend.name backend.type)
  | some _ => .ok ()

def checkTsigKey (key : TsigKeyRow Token) : Except StartupError Unit :=
  match algorithmFromText key.algorithm with
  | none => .error (.unsupportedAlgorithm key.name key.algorithm)
  | some _ => .ok ()

def validateDbStartup (backends : List (BackendRow Token)) (tsigKeys : List (TsigKeyRow Token)) :
    Except StartupError Unit := do
  validateSite site
  backends.forM checkBackend
  tsigKeys.forM checkTsigKey

def startUp (keylist : Option String) (rows : Selected Token) : Except StartupError (Kek Key) := do
  let kek ← validateKek fernet keylist
  validateDbStartup site rows.backends rows.tsigKeys
  return kek

end Checks

section Keylists

variable {c : Char} {l w : List Char} {keys keys' : List String}

def IsWord (w : List Char) : Prop := w ≠ [] ∧ ∀ c ∈ w, isSeparator c = false

inductive Written : List Char → List (List Char) → Prop
  | nil : Written [] []
  | last {w : List Char} : IsWord w → Written w [w]
  | separator {c : Char} {l : List Char} {words : List (List Char)} : isSeparator c = true →
      Written l words → Written (c :: l) words
  | word {w : List Char} {c : Char} {l : List Char} {words : List (List Char)} : IsWord w →
      isSeparator c = true → Written l words → Written (w ++ c :: l) (w :: words)

lemma entries_separator (hc : isSeparator c = true)
    (l : List Char) : entries (c :: l) = entries l := by
  have hs : (c :: l).splitOnP isSeparator = [] :: l.splitOnP isSeparator :=
    List.splitOnP_append_cons_of_forall_mem (List.forall_mem_nil _) c hc l
  rw [entries, hs, List.filter_cons_of_neg (by simp), entries]

lemma entries_word (hw : IsWord w) (hc : isSeparator c = true) (l : List Char) :
    entries (w ++ c :: l) = w :: entries l := by
  rw [entries, List.splitOnP_append_cons_of_forall_mem hw.2 c hc l,
    List.filter_cons_of_pos, entries]
  simpa using hw.1

lemma entries_last (hw : IsWord w) : entries w = [w] := by
  rw [entries, List.splitOnP_eq_singleton hw.2]
  exact List.filter_eq_self.mpr (by simpa using hw.1)

lemma entries_of_written {words : List (List Char)} (h : Written l words) : entries l = words := by
  induction h with
  | nil => rfl
  | last hw => exact entries_last hw
  | separator hc _ ih => rw [entries_separator hc, ih]
  | word hw hc _ ih => rw [entries_word hw hc, ih]

lemma exists_written (l w : List Char) (hw : ∀ c ∈ w, isSeparator c = false) :
    ∃ words, Written (w ++ l) words := by
  induction l generalizing w with
  | nil =>
    rw [List.append_nil]
    by_cases hne : w = []
    · exact ⟨[], hne ▸ .nil⟩
    · exact ⟨[w], .last ⟨hne, hw⟩⟩
  | cons c l ih =>
    by_cases hc : isSeparator c = true
    · obtain ⟨words, hl⟩ := ih [] (by simp)
      by_cases hne : w = []
      · exact ⟨words, hne ▸ .separator hc hl⟩
      · exact ⟨w :: words, .word ⟨hne, hw⟩ hc hl⟩
    · have hc' : isSeparator c = false := by simpa using hc
      obtain ⟨words, hl⟩ := ih (w ++ [c]) (by simpa [or_imp, forall_and] using ⟨hw, hc'⟩)
      exact ⟨words, by simpa using hl⟩

lemma written_iff {words : List (List Char)} : Written l words ↔ entries l = words := by
  refine ⟨entries_of_written, ?_⟩
  rintro rfl
  obtain ⟨words, h⟩ := exists_written l [] (by simp)
  exact (entries_of_written h).symm ▸ h

variable {Key : Type} {fernet : String → Option Key} {ks : List Key} {n : ℕ}

lemma fernetAt_ok {key : String} {k : Key} : fernetAt fernet n key = .ok k ↔
    fernet key = some k := by
  rw [fernetAt]
  cases fernet key <;> simp

lemma buildFernets_ok : buildFernets fernet n keys = .ok ks ↔
    List.Forall₂ (fun text k => fernet text = some k) keys ks := by
  induction keys generalizing n ks with
  | nil => simp [buildFernets, eq_comm]
  | cons key keys ih =>
    rw [buildFernets]
    constructor
    · intro h
      obtain ⟨k, hk, h⟩ := bind_ok.mp h
      obtain ⟨rest, hrest, h⟩ := bind_ok.mp h
      obtain rfl := pure_ok.mp h
      exact .cons (fernetAt_ok.mp hk) (ih.mp hrest)
    · rintro (_ | ⟨hk, hrest⟩)
      exact bind_ok.mpr ⟨_, fernetAt_ok.mpr hk, bind_ok.mpr ⟨_, ih.mpr hrest, rfl⟩⟩

lemma kekOfKeys_ok {kek : Kek Key} : kekOfKeys fernet keys = .ok kek ↔
    List.Forall₂ (fun text k => fernet text = some k) keys kek.keys := by
  obtain ⟨ks, hne⟩ := kek
  cases keys with
  | nil => simp [kekOfKeys, hne]
  | cons key keys =>
    rw [kekOfKeys]
    constructor
    · intro h
      obtain ⟨k, hk, h⟩ := bind_ok.mp h
      obtain ⟨rest, hrest, h⟩ := bind_ok.mp h
      obtain rfl : k :: rest = ks := congrArg Kek.keys (pure_ok.mp h)
      exact .cons (fernetAt_ok.mp hk) (buildFernets_ok.mp hrest)
    · rintro (_ | ⟨hk, hrest⟩)
      exact bind_ok.mpr ⟨_, fernetAt_ok.mpr hk, bind_ok.mpr ⟨_, buildFernets_ok.mpr hrest, rfl⟩⟩

lemma validateKek_ok {keylist : Option String}
    {kek : Kek Key} : validateKek fernet keylist = .ok kek ↔ ∃ raw, keylist = some raw ∧
    List.Forall₂ (fun text k => fernet text = some k) (parseKeylist raw) kek.keys := by
  cases keylist with
  | none => simp [validateKek]
  | some raw =>
    by_cases hraw : raw = ""
    · subst hraw
      have hnil : parseKeylist "" = [] := rfl
      simp [validateKek, hnil, kek.nonempty]
    · simp only [validateKek, if_neg hraw, fromKeylist, Option.some.injEq, exists_eq_left',
        ← kekOfKeys_ok]
      cases kekOfKeys fernet (parseKeylist raw) <;> simp [Except.mapError]

lemma fernetAt_error {key : String} {e : KekError} :
    fernetAt fernet n key = .error e ↔ fernet key = none ∧ e = .position n := by
  rw [fernetAt]
  cases fernet key <;> simp [eq_comm]

lemma buildFernets_error {e : KekError} : buildFernets fernet n keys = .error e ↔ ∃ pre key post,
    keys = pre ++ key :: post ∧ fernet key = none ∧ (∀ k ∈ pre, (fernet k).isSome) ∧
    e = .position (n + pre.length) := by
  induction keys generalizing n with
  | nil => simp [buildFernets]
  | cons key keys ih =>
    rw [buildFernets, bind_error, fernetAt_error]
    constructor
    · rintro (⟨hn, rfl⟩ | ⟨k, hk, h⟩)
      · exact ⟨[], key, keys, rfl, hn, by simp, rfl⟩
      · rcases bind_error.mp h with h | ⟨ks, -, h⟩
        · obtain ⟨pre, bad, post, rfl, hn, hpre, rfl⟩ := ih.mp h
          refine ⟨key :: pre, bad, post, rfl, hn, ?_, ?_⟩
          · exact List.forall_mem_cons.mpr ⟨by rw [fernetAt_ok.mp hk]; rfl, hpre⟩
          · rw [List.length_cons, Nat.add_assoc, Nat.add_comm 1]
        · cases h
    · rintro ⟨pre, bad, post, he, hn, hpre, rfl⟩
      cases pre with
      | nil =>
        obtain ⟨rfl, rfl⟩ := List.cons.inj he
        exact .inl ⟨hn, rfl⟩
      | cons first pre =>
        obtain ⟨rfl, rfl⟩ := List.cons.inj he
        obtain ⟨hfirst, hpre⟩ := List.forall_mem_cons.mp hpre
        obtain ⟨k, hk⟩ := Option.isSome_iff_exists.mp hfirst
        refine .inr ⟨k, fernetAt_ok.mpr hk,
          bind_error.mpr (.inl (ih.mpr ⟨pre, bad, post, rfl, hn, hpre, ?_⟩))⟩
        rw [List.length_cons, Nat.add_assoc, Nat.add_comm 1]

def shape (fernet : String → Option Key) (keys : List String) : List Bool :=
  keys.map (fun key => (fernet key).isSome)

def forget {ε α : Type} (x : Except ε α) : Except ε Unit := x.map (fun _ => ())

lemma forget_bind {ε α β : Type} (x : Except ε α) (f : α → Except ε β) (y : Except ε Unit)
    (h : ∀ a, x = .ok a → forget (f a) = y) : forget (x >>= f) = forget x >>= fun _ => y := by
  cases x with
  | error e => rfl
  | ok a => exact h a rfl

lemma fernetAt_shape {key key' : String} (h : (fernet key).isSome = (fernet key').isSome) :
    forget (fernetAt fernet n key) = forget (fernetAt fernet n key') := by
  rw [fernetAt, fernetAt]
  cases hk : fernet key with
  | none =>
    rw [hk, Option.isSome_none, eq_comm, Option.isSome_eq_false_iff, Option.isNone_iff_eq_none] at h
    rw [h]
  | some k =>
    rw [hk, Option.isSome_some, eq_comm, Option.isSome_iff_exists] at h
    obtain ⟨k', hk'⟩ := h
    rw [hk']
    rfl

lemma buildFernets_shape (h : shape fernet keys = shape fernet keys') :
    forget (buildFernets fernet n keys) = forget (buildFernets fernet n keys') := by
  induction keys generalizing n keys' with
  | nil =>
    obtain rfl := List.map_eq_nil_iff.mp h.symm
    rfl
  | cons key keys ih =>
    obtain ⟨key', rest, rfl, hkey, hrest⟩ := List.map_eq_cons_iff.mp h.symm
    have htail : ∀ m, forget (buildFernets fernet m keys) = forget (buildFernets fernet m rest) :=
      fun m => ih hrest.symm
    have hstep : ∀ (key : String) (keys : List String),
        forget (buildFernets fernet n (key :: keys)) = forget (fernetAt fernet n key) >>= fun _ =>
        forget (buildFernets fernet (n + 1) keys) := by
      intro key keys
      refine forget_bind _ _ _ (fun k _ => ?_)
      cases buildFernets fernet (n + 1) keys <;> rfl
    rw [hstep, hstep, fernetAt_shape hkey.symm, htail]

lemma kekOfKeys_cons (key : String) (keys : List String) :
    forget (kekOfKeys fernet (key :: keys)) = forget (buildFernets fernet 0 (key :: keys)) := by
  rw [kekOfKeys, buildFernets]
  cases fernetAt fernet 0 key with
  | error e => rfl
  | ok k => cases buildFernets fernet 1 keys <;> rfl

lemma kekOfKeys_shape (h : shape fernet keys = shape fernet keys') :
    forget (kekOfKeys fernet keys) = forget (kekOfKeys fernet keys') := by
  cases keys with
  | nil =>
    obtain rfl := List.map_eq_nil_iff.mp h.symm
    rfl
  | cons key keys =>
    cases keys' with
    | nil => cases h
    | cons key' keys' => rw [kekOfKeys_cons, kekOfKeys_cons, buildFernets_shape h]

lemma forget_error {ε α : Type} {x : Except ε α} {e : ε} : forget x = .error e ↔ x = .error e := by
  cases x <;> simp [forget, Except.map]

lemma mapError_error {ε ε' α : Type} {x : Except ε α} {f : ε → ε'} {e : ε'} :
    x.mapError f = .error e ↔ ∃ e', x = .error e' ∧ e = f e' := by
  cases x <;> simp [Except.mapError, eq_comm]

lemma kekOfKeys_error {e : KekError} : kekOfKeys fernet keys = .error e ↔ keys = [] ∧ e = .empty ∨
    ∃ pre key post, keys = pre ++ key :: post ∧ fernet key = none ∧ (∀ k ∈ pre, (fernet k).isSome) ∧
      e = .position pre.length := by
  cases keys with
  | nil =>
    constructor
    · intro h
      exact .inl ⟨rfl, (Except.error.inj h).symm⟩
    · rintro (⟨-, rfl⟩ | ⟨pre, key, post, he, -⟩)
      · rfl
      · simp at he
  | cons key keys =>
    rw [← forget_error, kekOfKeys_cons, forget_error, buildFernets_error]
    simp

/-- However its entries are set apart, a keylist is read as they stand; where one is no key, or
there is none, the error names the first such position and nothing else. -/
theorem keylist_read {raw : String} {words : List (List Char)} (h : Written raw.toList words)
    (fernet : String → Option Key) :
    validateKek fernet none = .error .kekUnset ∧
    (∀ kek, validateKek fernet (some raw) = .ok kek ↔
      List.Forall₂ (fun w k => fernet (String.ofList w) = some k) words kek.keys) ∧
    ∀ e, validateKek fernet (some raw) = .error e ↔
      raw = "" ∧ e = .kekUnset ∨
      raw ≠ "" ∧ words = [] ∧ e = .invalidKek .empty ∨
      ∃ pre w post, words = pre ++ w :: post ∧ fernet (String.ofList w) = none ∧
        (∀ v ∈ pre, (fernet (String.ofList v)).isSome) ∧
        e = .invalidKek (.position pre.length) := by
  have hwords : parseKeylist raw = words.map String.ofList := by
    rw [parseKeylist, entries_of_written h]
  refine ⟨rfl, fun kek => ?_, fun e => ?_⟩
  · rw [validateKek_ok]
    simp [hwords, List.forall₂_map_left_iff]
  · by_cases hraw : raw = ""
    · subst hraw
      have hnil : words = [] := (entries_of_written h).symm
      have hunset : validateKek fernet (some "") = .error .kekUnset := by
        rw [validateKek, if_pos rfl]
      rw [hunset, hnil]
      constructor
      · intro he
        exact .inl ⟨rfl, (Except.error.inj he).symm⟩
      · rintro (⟨-, rfl⟩ | ⟨hne, -⟩ | ⟨pre, w, post, he, -⟩)
        · rfl
        · exact absurd rfl hne
        · simp at he
    · have hset : validateKek fernet (some raw) =
          (kekOfKeys fernet (words.map String.ofList)).mapError .invalidKek := by
        rw [validateKek, if_neg hraw, fromKeylist, hwords]
      rw [hset, mapError_error]
      constructor
      · rintro ⟨e, he, rfl⟩
        rcases kekOfKeys_error.mp he with ⟨hnil, rfl⟩ | ⟨pre, key, post, hk, hn, hpre, rfl⟩
        · exact .inr (.inl ⟨hraw, List.map_eq_nil_iff.mp hnil, rfl⟩)
        · obtain ⟨pre, rest, rfl, rfl, hrest⟩ := List.map_eq_append_iff.mp hk
          obtain ⟨w, post, rfl, rfl, -⟩ := List.map_eq_cons_iff.mp hrest
          exact .inr
            (.inr ⟨pre, w, post, rfl, hn, List.forall_mem_map.mp hpre, by rw [List.length_map]⟩)
      · rintro (⟨hempty, -⟩ | ⟨-, rfl, rfl⟩ | ⟨pre, w, post, rfl, hn, hpre, rfl⟩)
        · exact absurd hempty hraw
        · exact ⟨.empty, rfl, rfl⟩
        · refine ⟨.position pre.length, kekOfKeys_error.mpr
            (.inr ⟨pre.map String.ofList, String.ofList w, post.map String.ofList,
            by simp, hn, List.forall_mem_map.mpr hpre, by rw [List.length_map]⟩), rfl⟩

end Keylists

section Database

variable {Key Token : Type} {F : Fernet Key Token} {fernet : String → Option Key} {site : Site}
  {t : Tables Token}
variable {rows : Selected Token}

lemma checkBackend_ok {backend : BackendRow Token} :
    checkBackend backend = .ok () ↔ ∃ p, getProvider backend.type = some p := by
  rw [checkBackend]
  cases getProvider backend.type <;> simp

lemma checkTsigKey_ok {key : TsigKeyRow Token} :
    checkTsigKey key = .ok () ↔ ∃ a, algorithmFromText key.algorithm = some a := by
  rw [checkTsigKey]
  cases algorithmFromText key.algorithm <;> simp

structure Known (rows : Selected Token) : Prop where
  provider : ∀ r ∈ rows.backends, ∃ p, getProvider r.type = some p
  algorithm : ∀ k ∈ rows.tsigKeys, ∃ a, algorithmFromText k.algorithm = some a

structure Site.Ready (site : Site) : Prop where
  spa : ∀ dir, site.spaDir = some dir → site.isDir dir = true
  ping : site.ping = none
  head : site.head = .ok site.current

lemma validateSite_ok : validateSite site = .ok () ↔ site.Ready := by
  obtain ⟨spaDir, isDir, ping, alembicIni, head, current⟩ := site
  rw [validateSite]
  have hspa : spaDir.any (fun dir => !isDir dir) = false ↔ ∀ dir, spaDir = some dir →
      isDir dir = true := by
    cases spaDir <;> simp
  split_ifs with hany
  · refine iff_of_false (by simp) (fun hr => ?_)
    rw [hspa.mpr hr.spa] at hany
    cases hany
  · have hdirs := hspa.mp (Bool.eq_false_iff.mpr hany)
    cases ping with
    | some exception => exact iff_of_false (by simp) (fun hr => by simpa using hr.ping)
    | none =>
      cases head with
      | error detail => exact iff_of_false (by simp) (fun hr => by simpa using hr.head)
      | ok head =>
        by_cases hc : current = head
        · exact iff_of_true (by simp [hc]) ⟨hdirs, rfl, by rw [hc]⟩
        · refine iff_of_false (by simp [hc]) (fun hr => hc ?_)
          exact (Except.ok.inj hr.head).symm

lemma validateDbStartup_ok : validateDbStartup site rows.backends rows.tsigKeys = .ok () ↔
    site.Ready ∧ Known rows := by
  rw [validateDbStartup, bind_ok]
  constructor
  · rintro ⟨_, hsite, h⟩
    obtain ⟨_, hb, hk⟩ := bind_ok.mp h
    exact ⟨validateSite_ok.mp hsite, fun r hr => checkBackend_ok.mp (forM_ok.mp hb r hr),
      fun k hm => checkTsigKey_ok.mp (forM_ok.mp hk k hm)⟩
  · rintro ⟨hsite, hknown⟩
    exact ⟨(), validateSite_ok.mpr hsite,
      bind_ok.mpr ⟨(), forM_ok.mpr (fun r hr => checkBackend_ok.mpr (hknown.provider r hr)),
      forM_ok.mpr (fun k hm => checkTsigKey_ok.mpr (hknown.algorithm k hm))⟩⟩

lemma startUp_ok {keylist : Option String} {kek : Kek Key} : startUp fernet site keylist rows =
    .ok kek ↔ validateKek fernet keylist = .ok kek ∧ site.Ready ∧ Known rows := by
  rw [startUp, bind_ok]
  constructor
  · rintro ⟨k, hk, h⟩
    obtain ⟨_, hd, h⟩ := bind_ok.mp h
    obtain rfl := pure_ok.mp h
    exact ⟨hk, validateDbStartup_ok.mp hd⟩
  · rintro ⟨hk, hd⟩
    exact ⟨kek, hk, bind_ok.mpr ⟨(), validateDbStartup_ok.mpr hd, rfl⟩⟩

lemma known_of_sound {kek : Kek Key} (hs : Api.Sound F kek t) (hsel : Selects t rows) :
    Known rows where
  provider r hr := by
    obtain ⟨-, p, -, -, hp, -⟩ := hs.backends r (hsel.backends.mem_iff.mp hr)
    exact ⟨p, hp⟩
  algorithm k hk := by
    obtain ⟨-, a, -, -, ha, -⟩ := hs.tsigKeys k (hsel.tsigKeys.mem_iff.mp hk)
    exact ⟨a, ha⟩

def Foreseen (e : LoadError) : Prop := e ≠ .build .unknownProvider ∧ e ≠ .build .unknownAlgorithm

lemma foreseen_liftStore {α : Type} {x : Except StoreError α} {e : LoadError}
    (h : liftStore x = .error e) : Foreseen e := by
  cases x with
  | ok a => cases h
  | error s =>
    obtain rfl := Except.error.inj h
    exact ⟨by simp, by simp⟩

lemma foreseen_config {kek : Kek Key} {e : LoadError} (h : loadConfigFromDb F kek rows = .error e) :
    Foreseen e := by
  rw [loadConfigFromDb] at h
  rcases bind_error.mp h with h | ⟨tsigKeys, -, h⟩
  · obtain ⟨row, -, h⟩ := mapM_error h
    rcases bind_error.mp h with h | ⟨secret, -, h⟩
    · exact foreseen_liftStore h
    · cases h
  · rcases bind_error.mp h with h | ⟨backends, -, h⟩
    · obtain ⟨row, -, h⟩ := mapM_error h
      rcases bind_error.mp h with h | ⟨config, -, h⟩
      · exact foreseen_liftStore h
      · cases h
    · rcases bind_error.mp h with h | ⟨zones, -, h⟩
      · obtain ⟨row, -, h⟩ := mapM_error h
        unfold zoneConfig at h
        split at h
        · obtain rfl := Except.error.inj h
          exact ⟨by simp, by simp⟩
        · rcases bind_error.mp h with h | ⟨key, -, h⟩
          · unfold domainKey at h
            split at h
            · cases h
            · next token _ =>
              cases hx : liftStore (SecretCodec.decryptText F kek token) with
              | ok key => simp [hx, Except.map] at h
              | error e' =>
                simp only [hx, Except.map, Except.error.injEq] at h
                exact h ▸ foreseen_liftStore hx
          · cases h
      · cases h

structure KnownConfig (config : BootstrapConfig) : Prop where
  algorithm : ∀ spec ∈ config.tsigKeys, ∃ a, algorithmFromText spec.algorithm = some a
  provider : ∀ b ∈ config.backends, ∃ p, getProvider b.provider = some p
  zone : ∀ z ∈ config.zones, ∃ p, getProvider z.provider = some p

lemma knownConfig_of_rows {kek : Kek Key} {config : BootstrapConfig} (hk : Known rows)
    (h : loadConfigFromDb F kek rows = .ok config) : KnownConfig config := by
  rw [loadConfigFromDb] at h
  obtain ⟨tsigKeys, ht, h⟩ := bind_ok.mp h
  obtain ⟨backends, hb, h⟩ := bind_ok.mp h
  obtain ⟨zones, hz, h⟩ := bind_ok.mp h
  obtain rfl := pure_ok.mp h
  refine ⟨fun spec hspec => ?_, fun b hbm => ?_, fun z hzm => ?_⟩
  · obtain ⟨row, hrow, he⟩ :=
      exists_related (R := fun spec row => _ = Except.ok spec) (mapM_ok.mp ht).flip hspec
    obtain ⟨secret, -, he⟩ := bind_ok.mp he
    obtain rfl := pure_ok.mp he
    exact hk.algorithm row hrow
  · obtain ⟨row, hrow, he⟩ :=
      exists_related (R := fun b row => _ = Except.ok b) (mapM_ok.mp hb).flip hbm
    obtain ⟨config, -, he⟩ := bind_ok.mp he
    obtain rfl := pure_ok.mp he
    exact hk.provider row hrow
  · obtain ⟨row, -, he⟩ :=
      exists_related (R := fun z row => _ = Except.ok z) (mapM_ok.mp hz).flip hzm
    unfold zoneConfig at he
    split at he
    · cases he
    · next backend hget =>
      obtain ⟨key, -, he⟩ := bind_ok.mp he
      obtain rfl := pure_ok.mp he
      obtain ⟨id, hm, -⟩ := Dict.get?_ofList_mem hget
      obtain ⟨r, hr, he⟩ := List.mem_map.mp hm
      obtain ⟨-, rfl⟩ := Prod.mk.inj he
      exact hk.provider r hr

variable {E : Platform}

lemma foreseen_parseName {text : String} {e : BuildError}
    (h : parseName E.fromUnicode text = .error e) : Foreseen (.build e) := by
  rw [parseName] at h
  split at h
  · cases h
  · obtain rfl := Except.error.inj h
    exact ⟨by simp, by simp⟩

lemma foreseen_keyOfSpec {spec : TsigKeySpec} {e : BuildError}
    (ha : ∃ a, algorithmFromText spec.algorithm = some a)
    (h : keyOfSpec E.fromUnicode spec = .error e) : Foreseen (.build e) := by
  obtain ⟨a, ha⟩ := ha
  simp only [keyOfSpec, ha] at h
  rcases bind_error.mp h with h | ⟨name, -, h⟩
  · exact foreseen_parseName h
  · split at h
    · obtain rfl := Except.error.inj h
      exact ⟨by simp, by simp⟩
    · cases h

lemma foreseen_makeProvider {config : BootstrapConfig} {z : ZoneConfig} {e : BuildError}
    (hk : KnownConfig config) (hz : z ∈ config.zones)
    (h : makeProvider (Dict.ofList (config.backends.map (fun b => (b.name, b)))) z = .error e) :
    Foreseen (.build e) := by
  unfold makeProvider at h
  set backend :=
    z.backend.bind (Dict.ofList (config.backends.map (fun b => (b.name, b)))).get? with hb
  have hp : ∃ p, getProvider (backend.elim z.provider BackendConfig.provider) = some p := by
    cases hbackend : backend with
    | none => exact hk.zone z hz
    | some b =>
      obtain ⟨name, -, hget⟩ := Option.bind_eq_some_iff.mp (hb.symm.trans hbackend)
      obtain ⟨key, hm, -⟩ := Dict.get?_ofList_mem hget
      obtain ⟨b', hb', he⟩ := List.mem_map.mp hm
      obtain ⟨-, rfl⟩ := Prod.mk.inj he
      exact hk.provider b' hb'
  obtain ⟨p, hp⟩ := hp
  simp only [hp] at h
  split at h
  · obtain rfl := Except.error.inj h
    exact ⟨by simp, by simp⟩
  · cases h

lemma foreseen_build {config : BootstrapConfig} {e : BuildError} (hk : KnownConfig config)
    (h : buildDataPlane E config = .error e) : Foreseen (.build e) := by
  rw [buildDataPlane] at h
  rcases bind_error.mp h with h | ⟨keyring, -, h⟩
  · rcases bind_error.mp h with h | ⟨keys, -, h⟩
    · obtain ⟨spec, hspec, h⟩ := mapM_error h
      exact foreseen_keyOfSpec (hk.algorithm spec hspec) h
    · cases h
  · rcases bind_error.mp h with h | ⟨acc, -, h⟩
    · obtain ⟨acc, z, hz, h⟩ := foldlM_error h
      rcases bind_error.mp h with h | ⟨provider, -, h⟩
      · unfold zoneProvider at h
        split at h
        · cases h
        · exact foreseen_makeProvider hk hz h
      · rcases bind_error.mp h with h | ⟨zone, -, h⟩
        · exact foreseen_parseName h
        · rcases bind_error.mp h with h | ⟨recordName, -, h⟩
          · exact foreseen_parseName h
          · cases h
    · cases h

lemma foreseen_load {kek : Kek Key} {e : LoadError} (hk : Known rows)
    (h : loadRuntime E F kek rows = .error e) : Foreseen e := by
  rw [loadRuntime] at h
  rcases bind_error.mp h with h | ⟨config, hc, h⟩
  · exact foreseen_config h
  · cases hb : buildDataPlane E config with
    | ok runtime => simp [hb, liftBuild] at h
    | error e' =>
      simp only [hb, liftBuild, Except.error.injEq] at h
      exact h ▸ foreseen_build (knownConfig_of_rows hk hc) hb

end Database

section Starts

variable {Key Token : Type} {F : Fernet Key Token} {kek : Kek Key}

/-- A database that requests have reached refuses no start: that takes a site which is not ready or
a keylist with an entry that is no Fernet key, or with no entry. -/
theorem reachable_starts_iff {reqs : List Api.Request} {db : Database Token}
    (h : (Api.api F kek).Run reqs db) {rows : Selected Token} (hsel : Selects db.tables rows)
    (fernet : String → Option Key) (site : Site) (keylist : Option String) (kek' : Kek Key) :
    startUp fernet site keylist rows = .ok kek' ↔ site.Ready ∧ ∃ raw, keylist = some raw ∧
      List.Forall₂ (fun text k => fernet text = some k) (parseKeylist raw) kek'.keys := by
  rw [startUp_ok, validateKek_ok]
  have hknown := known_of_sound (Api.sound_of_run h) hsel
  tauto

def servedFrom (F : Fernet Key Token) (kek : Kek Key)
    (db₀ : Database Token) : System (Database Token) Api.Request :=
  ⟨(· = db₀), fun db req db' => (Api.handle F kek db req).2 = db'⟩

def KnownTables (t : Tables Token) : Prop :=
  (∀ r ∈ t.backends, ∃ p, getProvider r.type = some p) ∧
    ∀ k ∈ t.tsigKeys, ∃ a, algorithmFromText k.algorithm = some a

lemma knownTables_step {db db' : Database Token} {req : Api.Request} (h : KnownTables db.tables)
    (hs : (Api.handle F kek db req).2 = db') : KnownTables db'.tables := by
  obtain ⟨hb, hk⟩ := h
  rcases Api.handle_cases hs with ⟨hbs, -, hks⟩ | ⟨w, hw, hc, -⟩
  · exact ⟨hbs ▸ hb, hks ▸ hk⟩
  · rw [(Database.commit_eq_some.mp hc).2]
    cases Api.prepared_of_ok hw with
    | @addBackend payload r p token _ hp _ =>
      refine ⟨fun row hrow => ?_, hk⟩
      rcases List.mem_append.mp hrow with hrow | hrow
      · exact hb row hrow
      · obtain rfl := List.mem_singleton.mp hrow
        exact ⟨p, hp⟩
    | setBackend =>
      refine ⟨fun row hrow => ?_, hk⟩
      obtain ⟨r, hr, rfl⟩ := List.mem_map.mp hrow
      rw [Api.setRow_type]
      exact hb r hr
    | dropBackend => exact ⟨fun r hr => hb r (List.mem_of_mem_filter hr), hk⟩
    | addDomain | dropDomain => exact ⟨hb, hk⟩
    | @addTsigKey payload drawn r a ha =>
      refine ⟨hb, fun row hrow => ?_⟩
      rcases List.mem_append.mp hrow with hrow | hrow
      · exact hk row hrow
      · obtain rfl := List.mem_singleton.mp hrow
        exact ⟨a, ha⟩
    | dropTsigKey => exact ⟨hb, fun k hm => hk k (List.mem_of_mem_filter hm)⟩

/-- Whatever the database held before it, a start that is not refused rules out for the life of the
process that a load meets an unknown provider or an unknown algorithm. -/
theorem started_loads_foreseen {E : Platform} {fernet : String → Option Key} {site : Site}
    {keylist : Option String} {db₀ db : Database Token} {rows₀ rows : Selected Token}
    (hsel₀ : Selects db₀.tables rows₀)
    (hstart : startUp fernet site keylist rows₀ = .ok kek) {reqs : List Api.Request}
    (hr : (servedFrom F kek db₀).Run reqs db) (hsel : Selects db.tables rows) {e : LoadError}
    (hload : loadRuntime E F kek rows = .error e) : Foreseen e := by
  obtain ⟨-, -, hknown⟩ := startUp_ok.mp hstart
  have hinit : KnownTables db₀.tables :=
    ⟨fun r hm => hknown.provider r (hsel₀.backends.mem_iff.mpr hm),
      fun k hm => hknown.algorithm k (hsel₀.tsigKeys.mem_iff.mpr hm)⟩
  obtain ⟨hb, hk⟩ : KnownTables db.tables := by
    refine hr.invariant (I := fun db => KnownTables db.tables) ?_
      (fun _ _ _ h hs => knownTables_step h hs)
    rintro db rfl
    exact hinit
  exact foreseen_load ⟨fun r hm => hb r (hsel.backends.mem_iff.mp hm),
    fun k hm => hk k (hsel.tsigKeys.mem_iff.mp hm)⟩ hload

def keylistShape (fernet : String → Option Key) (keylist : Option String) : Option (List Bool) :=
  match keylist with
  | none => none
  | some raw => if raw = "" then none else some (shape fernet (parseKeylist raw))

lemma validateKek_shape {fernet : String → Option Key} {keylist keylist' : Option String}
    (h : keylistShape fernet keylist = keylistShape fernet keylist') :
    forget (validateKek fernet keylist) = forget (validateKek fernet keylist') := by
  have hunset : ∀ keylist, keylistShape fernet keylist = none →
      validateKek fernet keylist = .error .kekUnset := by
    intro keylist hk
    cases keylist with
    | none => rfl
    | some raw =>
      rw [keylistShape] at hk
      split_ifs at hk with hraw
      rw [validateKek, if_pos hraw]
  have hset : ∀ keylist bits, keylistShape fernet keylist = some bits → ∃ raw,
      validateKek fernet keylist = (fromKeylist fernet raw).mapError .invalidKek ∧
        shape fernet (parseKeylist raw) = bits := by
    intro keylist bits hk
    cases keylist with
    | none => cases hk
    | some raw =>
      rw [keylistShape] at hk
      split_ifs at hk with hraw
      exact ⟨raw, by rw [validateKek, if_neg hraw], Option.some.inj hk⟩
  cases hk : keylistShape fernet keylist with
  | none => rw [hunset keylist hk, hunset keylist' (h ▸ hk)]
  | some bits =>
    obtain ⟨raw, hv, hs⟩ := hset keylist bits hk
    obtain ⟨raw', hv', hs'⟩ := hset keylist' bits (h ▸ hk)
    have hforget := kekOfKeys_shape (hs.trans hs'.symm)
    rw [hv, hv', fromKeylist, fromKeylist]
    cases hx : kekOfKeys fernet (parseKeylist raw) <;>
      cases hx' : kekOfKeys fernet (parseKeylist raw') <;>
      simp_all [forget, Except.map, Except.mapError]

structure SameButSecrets (fernet : String → Option Key) (keylist keylist' : Option String)
    (rows rows' : Selected Token) : Prop where
  keylist : keylistShape fernet keylist = keylistShape fernet keylist'
  backends : rows.backends.map (fun r => (r.name, r.type)) =
    rows'.backends.map (fun r => (r.name, r.type))
  tsigKeys : rows.tsigKeys.map (fun k => (k.name, k.algorithm)) =
    rows'.tsigKeys.map (fun k => (k.name, k.algorithm))

lemma forM_congr {α β ε : Type} {f : α → Except ε Unit} (g : α → β) {as bs : List α}
    (hf : ∀ a b, g a = g b → f a = f b) (h : as.map g = bs.map g) : as.forM f = bs.forM f := by
  induction as generalizing bs with
  | nil =>
    obtain rfl := List.map_eq_nil_iff.mp h.symm
    rfl
  | cons a as ih =>
    obtain ⟨b, rest, rfl, hb, hrest⟩ := List.map_eq_cons_iff.mp h.symm
    change (f a >>= fun _ => as.forM f) = (f b >>= fun _ => rest.forM f)
    rw [hf a b hb.symm, ih hrest.symm]

/-- A refusal says nothing of a secret: it is the same for every keylist with its keys in the same
places and for every ciphertext. -/
theorem refusal_shows_no_secret {fernet : String → Option Key} {site : Site}
    {keylist keylist' : Option String} {rows rows' : Selected Token}
    (h : SameButSecrets fernet keylist keylist' rows rows') (repr : Option String → String)
    {e : StartupError} (hr : startUp fernet site keylist rows = .error e) :
    ∃ e', startUp fernet site keylist' rows' = .error e' ∧ e' = e ∧ e'.text repr = e.text repr := by
  have hforget : ∀ keylist (rows : Selected Token),
      forget (startUp fernet site keylist rows) = forget (validateKek fernet keylist) >>= fun _ =>
      validateDbStartup site rows.backends rows.tsigKeys := by
    intro keylist rows
    refine forget_bind _ _ _ (fun k _ => ?_)
    cases validateDbStartup site rows.backends rows.tsigKeys <;> rfl
  have hdb : validateDbStartup site rows.backends rows.tsigKeys =
      validateDbStartup site rows'.backends rows'.tsigKeys := by
    have hb : rows.backends.forM checkBackend = rows'.backends.forM checkBackend := by
      refine forM_congr (fun r => (r.name, r.type)) (fun a b hab => ?_) h.backends
      obtain ⟨hn, ht⟩ := Prod.mk.inj hab
      rw [checkBackend, checkBackend, hn, ht]
    have hk : rows.tsigKeys.forM checkTsigKey = rows'.tsigKeys.forM checkTsigKey := by
      refine forM_congr (fun k => (k.name, k.algorithm)) (fun a b hab => ?_) h.tsigKeys
      obtain ⟨hn, ha⟩ := Prod.mk.inj hab
      rw [checkTsigKey, checkTsigKey, hn, ha]
    rw [validateDbStartup, validateDbStartup, hb, hk]
  have hsame : forget (startUp fernet site keylist rows) =
      forget (startUp fernet site keylist' rows') := by
    rw [hforget, hforget, validateKek_shape h.keylist, hdb]
  rw [hr] at hsame
  cases hx : startUp fernet site keylist' rows' with
  | ok kek =>
    rw [hx] at hsame
    cases hsame
  | error e' =>
    rw [hx] at hsame
    obtain rfl := Except.error.inj hsame
    exact ⟨e, rfl, rfl, rfl⟩

end Starts

section Sample

open Api

def twoLetters (text : String) : Option Unit := if text.length = 2 then some () else none

def upToDate : Site := ⟨some "/srv/spa", fun dir => dir = "/srv/spa", none, "alembic.ini",
  .ok (some "0007"), some "0007"⟩

theorem second_key_rejected :
    validateKek twoLetters (some "k1, bad k2") = .error (.invalidKek (.position 1)) := by
  have hw : Written "k1, bad k2".toList [['k', '1'], ['b', 'a', 'd'], ['k', '2']] :=
    written_iff.mpr (by decide +kernel)
  refine ((keylist_read hw twoLetters).2.2 _).mpr
    (.inr (.inr ⟨[['k', '1']], ['b', 'a', 'd'], [['k', '2']], rfl, ?_⟩))
  decide +kernel

theorem sample_starts : startUp twoLetters upToDate (some "k1,k2")
    (rowsOf (afterTwo sampleBackend sampleDomain).tables) = .ok ⟨[(), ()], by simp⟩ := by
  refine (reachable_starts_iff (run_afterTwo sampleBackend sampleDomain) (selects_self _) twoLetters
    upToDate _ _).mpr ?_
  have hkeys : parseKeylist "k1,k2" = ["k1", "k2"] := by decide +kernel
  refine ⟨⟨?_, rfl, rfl⟩, "k1,k2", rfl, ?_⟩
  · rintro dir ⟨⟩
    decide
  · rw [hkeys]
    exact .cons (by decide +kernel) (.cons (by decide +kernel) .nil)

def strayRows : Selected String :=
  ⟨[⟨1, "acme", "hmac-sha256", "c2VjcmV0"⟩], [⟨1, "he", "he.net", "ciphertext"⟩], [], [(1, "acme")]⟩

theorem stray_refused : ∃ e', startUp twoLetters upToDate (some "k1 k3")
    { strayRows with backends := [⟨1, "he", "he.net", "another"⟩] } = .error e' ∧
      e' = .unknownProvider "he" "he.net" ∧ e'.text (fun text => text.getD "None") =
      StartupError.text (fun text => text.getD "None") (.unknownProvider "he" "he.net") := by
  have hsame : SameButSecrets twoLetters (some "k1,k2") (some "k1 k3") strayRows
      { strayRows with backends := [⟨1, "he", "he.net", "another"⟩] } :=
        ⟨by decide +kernel, rfl, rfl⟩
  have hr : forget (startUp twoLetters upToDate (some "k1,k2") strayRows) =
      .error (.unknownProvider "he" "he.net") := by
    decide +kernel
  exact refusal_shows_no_secret hsame _ (forget_error.mp hr)

theorem emptyLabel_foreseen : Foreseen (.build (.name .emptyLabel)) := by
  have hkek : validateKek twoLetters (some "k1") = .ok sampleKek := by
    have hkeys : parseKeylist "k1" = ["k1"] := by decide +kernel
    exact validateKek_ok.mpr ⟨"k1", rfl, by rw [hkeys]; exact .cons (by decide +kernel) .nil⟩
  have hstart : startUp twoLetters upToDate (some "k1")
      (rowsOf (Database.empty : Database String).tables) = .ok sampleKek := by
    refine startUp_ok.mpr ⟨hkek, ⟨?_, rfl, rfl⟩,
      by simp [rowsOf, Database.empty], by simp [rowsOf, Database.empty]⟩
    rintro dir ⟨⟩
    decide
  have hrun : (servedFrom plainFernet sampleKek .empty).Run [sampleBackend, emptyLabelDomain]
      (afterTwo sampleBackend emptyLabelDomain) := .two rfl rfl rfl
  have hload : loadRuntime asciiPlatform plainFernet sampleKek
      (rowsOf (afterTwo sampleBackend emptyLabelDomain).tables) =
      .error (.build (.name .emptyLabel)) := by decide +kernel
  exact started_loads_foreseen (selects_self _) hstart hrun (selects_self _) hload

end Sample

end AstropathRelay.Startup
