import Mathlib.Tactic

/-! A POSIX file system: what the kernel finds under a path or refuses to look up, and the
resolution of a path by a program that keeps the links it has seen, which are one and the same
wherever no link leads back to itself. -/

namespace AstropathRelay.Lib

abbrev Path := List String

def isPlain (name : String) : Bool :=
  name ≠ "" ∧ name ≠ "." ∧ name ≠ ".." ∧ '/' ∉ name.toList ∧ Char.ofNat 0 ∉ name.toList

structure Reference where
  absolute : Bool
  names : List String
deriving DecidableEq

namespace Reference

def parse (text : String) : Reference where
  absolute := text.toList.head? = some '/'
  names := ((text.toList.splitOn '/').map String.ofList).filter (fun name => name ≠ "" ∧ name ≠ ".")

def base (r : Reference) (path : Path) : Path := if r.absolute then [] else path

def under (r : Reference) (names : List String) : List String :=
  if r.absolute then r.names else names ++ r.names

def write (names : List String) : String :=
  String.ofList (['/'].intercalate (names.map String.toList))

lemma parse_write {names : List String} (h : ∀ name ∈ names, isPlain name = true) :
    parse (write names) = ⟨false, names⟩ := by
  rcases eq_or_ne names [] with rfl | hne
  · rfl
  · have hplain (name : String) (hm : name ∈ names) : name ≠ "" ∧ name ≠ "." ∧
        '/' ∉ name.toList := by
      have hp := h name hm
      simp only [isPlain, decide_eq_true_eq] at hp
      exact ⟨hp.1, hp.2.1, hp.2.2.2.1⟩
    have hslash : ∀ l ∈ names.map String.toList, '/' ∉ l := by
      intro l hl
      obtain ⟨name, hm, rfl⟩ := List.mem_map.mp hl
      exact (hplain name hm).2.2
    have hsplit : (write names).toList.splitOn '/' = names.map String.toList := by
      rw [write, String.toList_ofList]
      exact List.splitOn_intercalate '/' hslash (by simpa using hne)
    have hhead : (write names).toList.head? ≠ some '/' := by
      obtain ⟨name, rest, rfl⟩ := List.exists_cons_of_ne_nil hne
      obtain ⟨hempty, -, hs⟩ := hplain name List.mem_cons_self
      obtain ⟨c, cs, hc⟩ := List.exists_cons_of_ne_nil (show name.toList ≠ [] by simpa using hempty)
      rw [hc, List.mem_cons, not_or] at hs
      rw [write, String.toList_ofList]
      cases rest <;> simpa [List.intercalate, hc] using Ne.symm hs.1
    rw [parse, hsplit]
    simp only [hhead, decide_false, mk.injEq, true_and]
    simpa using fun name hm => ⟨(hplain name hm).1, (hplain name hm).2.1⟩

end Reference

inductive Node (α : Type)
  | directory
  | file (content : Option α)
  | link (target : Reference)

namespace Node

variable {α : Type}

def content : Node α → Option α
  | .file content => content
  | _ => none

def isFile : Node α → Bool
  | .file _ => true
  | _ => false

def isDirectory : Node α → Bool
  | .directory => true
  | _ => false

lemma isDirectory_iff {n : Node α} : n.isDirectory = true ↔ n = .directory := by
  cases n <;> simp [isDirectory]

end Node

/-- The kernel refuses a name that is too long, and any name in a directory that may not be
searched. -/
structure FileSystem (α : Type) where
  node : Path → Option (Node α)
  denies : Path → String → Bool
  root : node [] = some .directory
  closed : ∀ path name, (node (path ++ [name])).isSome → node path = some .directory ∧ isPlain name

namespace FileSystem

variable {α : Type} (fs : FileSystem α)

-- `ENAMETOOLONG` for a whole path: from 4096 octets on, one for the zero at its end.
def tooLong (names : List String) : Bool :=
  4095 < (names.map (fun name => name.utf8ByteSize + 1)).sum

def allows : Path → List String → Bool
  | _, [] => true
  | path, name :: rest => !fs.denies path name && allows (path ++ [name]) rest

def linkAt (path : Path) : Option Reference :=
  if tooLong path || !fs.allows [] path then none
  else
    match fs.node path with
    | some (.link target) => some target
    | _ => none

section Kernel

inductive Lookup
  | found (path : Path)
  | missing
  | loops
  | denied
deriving DecidableEq

def walkNames (follow : Path → List String → Lookup) : List String → Path → Lookup
  | [], path => .found path
  | name :: rest, path =>
    if fs.denies path name then .denied
    else if name = ".." then walkNames follow rest path.dropLast
    else
      match fs.node (path ++ [name]) with
      | none => .missing
      | some .directory => walkNames follow rest (path ++ [name])
      | some (.file _) => if rest = [] then .found (path ++ [name]) else .missing
      | some (.link target) => follow (target.base path) (target.names ++ rest)

def lookup : ℕ → Path → List String → Lookup
  | 0, _, _ => .loops
  | links + 1, path, names => walkNames fs (lookup links) names path

def maxLinks : ℕ := 40

def stat (names : List String) : Lookup :=
  if tooLong names then .denied else fs.lookup (maxLinks + 1) [] names

def read (names : List String) : Option α :=
  match fs.stat names with
  | .found path => (fs.node path).bind Node.content
  | _ => none

end Kernel

section Realpath

inductive Outcome
  | resolved (path : Path)
  | loop (path : List String)
  | invalid
  | tooDeep

abbrev Seen := Path → Option (Option Path)

abbrev Follow := Path → Reference → Seen → Outcome × Seen

def joinNames (follow : Follow) : List String → Path → Seen → Outcome × Seen
  | [], path, seen => (.resolved path, seen)
  | name :: rest, path, seen =>
    if name = ".." then joinNames follow rest path.dropLast seen
    else if Char.ofNat 0 ∈ name.toList then (.invalid, seen)
    else
      let newpath := path ++ [name]
      match fs.linkAt newpath with
      | none => joinNames follow rest newpath seen
      | some target =>
        match seen newpath with
        | some (some resolved) => joinNames follow rest resolved seen
        | some none => (.loop (newpath ++ rest), seen)
        | none =>
          match follow path target (Function.update seen newpath (some none)) with
          | (.resolved resolved, seen) =>
            joinNames follow rest resolved (Function.update seen newpath (some (some resolved)))
          | (.loop path, seen) => (.loop (path ++ rest), seen)
          | (outcome, seen) => (outcome, seen)

/-- Each link that is followed takes one more call; the interpreter bounds their depth. -/
def joinRealpath : ℕ → Path → Reference → Seen → Outcome × Seen
  | 0, _, _, seen => (.tooDeep, seen)
  | depth + 1, path, reference,
      seen => joinNames fs (joinRealpath depth) reference.names (reference.base path) seen

def normalize (names : List String) : Path :=
  names.foldl (fun path name => if name = ".." then path.dropLast else path ++ [name]) []

inductive PathError
  | recursion
  | symlinkLoop
  | embeddedNull
  | osError
deriving DecidableEq

def resolve (depth : ℕ) (names : List String) : Except PathError Path :=
  match (fs.joinRealpath depth [] ⟨true, names⟩ (fun _ => none)).1 with
  | .resolved path => .ok path
  | .loop path =>
    if (normalize path).any (fun name => Char.ofNat 0 ∈ name.toList) then .error .embeddedNull
    else if fs.stat (normalize path) = .loops then .error .symlinkLoop
    else .ok (normalize path)
  | .invalid => .error .embeddedNull
  | .tooDeep => .error .recursion

def isFile (names : List String) : Except PathError Bool :=
  match fs.stat names with
  | .found path => .ok ((fs.node path).any Node.isFile)
  | .missing => .ok false
  | .loops => .ok false
  | .denied => .error .osError

end Realpath

inductive Leads : ℕ → Path → List String → Path → Prop
  | here {path : Path} : Leads 0 path [] path
  | up {k : ℕ} {path q : Path} {rest : List String} : Leads k path.dropLast rest q →
      Leads k path (".." :: rest) q
  | enter {k : ℕ} {path q : Path} {name : String} {rest : List String} : name ≠ ".." →
      Char.ofNat 0 ∉ name.toList → fs.linkAt (path ++ [name]) = none →
      Leads k (path ++ [name]) rest q → Leads k path (name :: rest) q
  | follow {j k : ℕ} {path m q : Path} {name : String} {rest : List String}
      {target : Reference} : name ≠ ".." → Char.ofNat 0 ∉ name.toList →
      fs.linkAt (path ++ [name]) = some target → Leads j (target.base path) target.names m →
      Leads k m rest q → Leads (j + k + 1) path (name :: rest) q

/-- What an absolute path means. A path that runs into a loop of links means nothing. -/
def Means (names : List String) (q : Path) : Prop := ∃ k, fs.Leads k [] names q

variable {fs} {path p q q' m : Path} {names rest : List String} {name : String} {j k : ℕ}

lemma Leads.unique (h : fs.Leads j p names q) (h' : fs.Leads k p names q') : j = k ∧ q = q' := by
  induction h generalizing k q' with
  | here =>
    cases h' with
    | here => exact ⟨rfl, rfl⟩
  | up _ ih =>
    cases h' with
    | up h' => exact ih h'
    | enter hn => exact absurd rfl hn
    | follow hn => exact absurd rfl hn
  | enter hn _ hl _ ih =>
    cases h' with
    | up => exact absurd rfl hn
    | enter _ _ _ h' => exact ih h'
    | follow _ _ hl' => exact absurd (hl.symm.trans hl') (by simp)
  | follow hn _ hl _ _ ih₁ ih₂ =>
    cases h' with
    | up => exact absurd rfl hn
    | enter _ _ hl' => exact absurd (hl.symm.trans hl') (by simp)
    | follow _ _ hl' h₁ h₂ =>
      obtain rfl := Option.some.inj (hl.symm.trans hl')
      obtain ⟨rfl, rfl⟩ := ih₁ h₁
      obtain ⟨rfl, rfl⟩ := ih₂ h₂
      exact ⟨rfl, rfl⟩

lemma Leads.append (h : fs.Leads j p names m) (h' : fs.Leads k m rest q) :
    fs.Leads (j + k) p (names ++ rest) q := by
  induction h with
  | here => rwa [Nat.zero_add]
  | up _ ih => exact .up (ih h')
  | enter hn hz hl _ ih => exact .enter hn hz hl (ih h')
  | @follow a b _ _ _ _ _ _ hn hz hl h₁ _ _ ih =>
    rw [show a + b + 1 + k = a + (b + k) + 1 by omega]
    exact .follow hn hz hl h₁ (ih h')

section Real

lemma linkAt_of_node (h : ∀ target, fs.node path ≠ some (.link target)) :
    fs.linkAt path = none := by
  rw [linkAt]
  split
  · rfl
  · split
    · next target hn => exact absurd hn (h target)
    · rfl

lemma node_of_linkAt {target : Reference} (h : fs.linkAt path = some target) :
    fs.node path = some (.link target) := by
  rw [linkAt] at h
  split at h
  · cases h
  · split at h
    · next hn => rw [hn, Option.some.inj h]
    · cases h

lemma linkAt_of_allows {target : Reference} (hlong : tooLong path = false)
    (ha : fs.allows [] path = true)
    (h : fs.node path = some (.link target)) : fs.linkAt path = some target := by
  simp [linkAt, hlong, ha, h]

lemma allows_append :
    fs.allows path (names ++ rest) = (fs.allows path names && fs.allows (path ++ names) rest) := by
  induction names generalizing path with
  | nil => simp [allows]
  | cons name names ih => simp [allows, ih, Bool.and_assoc]

lemma tooLong_append (h : tooLong (names ++ rest) = false) : tooLong names = false := by
  simp only [tooLong, List.map_append, List.sum_append, decide_eq_false_iff_not] at h ⊢
  omega

structure Real (fs : FileSystem α) (path : Path) : Prop where
  up : ".." ∉ path
  link : ∀ p, p <+: path → fs.linkAt p = none

lemma real_nil : fs.Real [] where
  up := by simp
  link p hp := by
    rw [List.prefix_nil.mp hp]
    exact linkAt_of_node (by rw [fs.root]; nofun)

lemma Real.dropLast (h : fs.Real path) : fs.Real path.dropLast where
  up hm := h.up (List.mem_of_mem_dropLast hm)
  link p hp := h.link p (hp.trans (List.dropLast_prefix path))

lemma Real.concat (h : fs.Real path) (hn : name ≠ "..") (hl : fs.linkAt (path ++ [name]) = none) :
    fs.Real (path ++ [name]) where
  up hm := by
    rcases List.mem_append.mp hm with hm | hm
    · exact h.up hm
    · exact hn (List.mem_singleton.mp hm).symm
  link p hp := by
    rcases List.prefix_concat_iff.mp hp with rfl | hp
    · exact hl
    · exact h.link p hp

lemma Real.base (h : fs.Real path) (target : Reference) : fs.Real (target.base path) := by
  rw [Reference.base]
  split
  · exact real_nil
  · exact h

lemma Leads.real (h : fs.Leads k p names q) (hp : fs.Real p) : fs.Real q := by
  induction h with
  | here => exact hp
  | up _ ih => exact ih hp.dropLast
  | enter hn _ hl _ ih => exact ih (hp.concat hn hl)
  | follow _ _ _ _ _ ih₁ ih₂ => exact ih₂ (ih₁ (hp.base _))

lemma Means.real (h : fs.Means names q) : fs.Real q := by
  obtain ⟨k, h⟩ := h
  exact h.real real_nil

lemma directory_above (h : (fs.node (path ++ rest)).isSome)
    (hr : rest ≠ []) : fs.node path = some .directory := by
  induction rest using List.reverseRecOn with
  | nil => exact absurd rfl hr
  | append_singleton rest name ih =>
    rw [← List.append_assoc] at h
    have hd := (fs.closed _ _ h).1
    rcases List.eq_nil_or_concat rest with rfl | ⟨_, _, rfl⟩
    · rwa [List.append_nil] at hd
    · exact ih (by rw [hd]; rfl) (by simp)

lemma isPlain_of_node (h : (fs.node (path ++ rest)).isSome) :
    ∀ name ∈ rest, isPlain name = true := by
  induction rest using List.reverseRecOn with
  | nil => simp
  | append_singleton rest name ih =>
    rw [← List.append_assoc] at h
    obtain ⟨hd, hp⟩ := fs.closed _ _ h
    intro n hn
    rcases List.mem_append.mp hn with hn | hn
    · exact ih (by rw [hd]; rfl) n hn
    · exact List.mem_singleton.mp hn ▸ hp

lemma leads_of_node (h : (fs.node (path ++ names)).isSome) (hl : fs.linkAt (path ++ names) = none) :
    fs.Leads 0 path names (path ++ names) := by
  induction names generalizing path with
  | nil => exact (List.append_nil path).symm ▸ .here
  | cons name names ih =>
    have happ : path ++ name :: names = path ++ [name] ++ names := by simp
    have hplain := isPlain_of_node h name List.mem_cons_self
    simp only [isPlain, decide_eq_true_eq] at hplain
    rw [happ] at h hl ⊢
    refine .enter hplain.2.2.1 hplain.2.2.2.2 ?_ (ih h hl)
    rcases eq_or_ne names [] with rfl | hne
    · rwa [List.append_nil] at hl
    · exact linkAt_of_node (by rw [directory_above h hne]; nofun)

lemma walkNames_real (follow : Path → List String → Lookup) (hr : fs.Real (path ++ names))
    (hlong : tooLong (path ++ names) = false) (ha : fs.allows [] path = true) (hn : names ≠ []) :
    walkNames fs follow names path = .denied ∨ walkNames fs follow names path =
      if (fs.node (path ++ names)).isSome then .found (path ++ names) else .missing := by
  induction names generalizing path with
  | nil => exact absurd rfl hn
  | cons name rest ih =>
    have happ : path ++ name :: rest = path ++ [name] ++ rest := by simp
    have hup : name ≠ ".." := by
      rintro rfl
      exact hr.up (by simp)
    have hlink := hr.link (path ++ [name]) ⟨rest, happ.symm⟩
    rw [walkNames, if_neg hup, happ]
    by_cases hdenies : fs.denies path name
    · exact .inl (if_pos hdenies)
    rw [if_neg hdenies]
    have hnext : fs.allows [] (path ++ [name]) = true := by
      rw [allows_append, ha]
      simpa [allows] using hdenies
    cases hnode : fs.node (path ++ [name]) with
    | none =>
      have hnone : ¬ (fs.node (path ++ [name] ++ rest)).isSome := by
        intro hs
        rcases eq_or_ne rest [] with rfl | hne
        · rw [List.append_nil, hnode] at hs
          cases hs
        · rw [directory_above hs hne] at hnode
          cases hnode
      exact .inr (if_neg hnone).symm
    | some n =>
      cases n with
      | directory =>
        rcases eq_or_ne rest [] with rfl | hne
        · simp [walkNames, hnode]
        · exact ih (happ ▸ hr) (happ ▸ hlong) hnext hne
      | file content =>
        rcases eq_or_ne rest [] with rfl | hne
        · simp [hnode]
        · have hnone : ¬ (fs.node (path ++ [name] ++ rest)).isSome := by
            intro hs
            rw [directory_above hs hne] at hnode
            cases hnode
          rw [if_neg hnone]
          exact .inr (if_neg hne)
      | link target =>
        rw [linkAt_of_allows (tooLong_append (happ ▸ hlong)) hnext hnode] at hlink
        cases hlink

lemma stat_real (hr : fs.Real path) : fs.stat path = .denied ∨
    fs.stat path = if (fs.node path).isSome then .found path else .missing := by
  rw [stat]
  by_cases hlong : tooLong path
  · exact .inl (if_pos hlong)
  rw [if_neg hlong, lookup]
  rcases eq_or_ne path [] with rfl | hne
  · rw [fs.root]
    exact .inr rfl
  · exact walkNames_real (lookup fs maxLinks) (show fs.Real ([] ++ path) from hr)
      (by simpa using hlong) rfl hne

lemma isFile_real (hr : fs.Real path) : fs.isFile path = if fs.stat path = .denied then
    .error .osError else .ok ((fs.node path).any Node.isFile) := by
  rw [isFile]
  rcases stat_real hr with hs | hs
  · rw [hs]
    rfl
  · rw [hs]
    cases hnode : fs.node path with
    | none => rfl
    | some n => simp [hnode]

lemma read_real (hr : fs.Real path) (hs : fs.stat path ≠ .denied) :
    fs.read path = (fs.node path).bind Node.content := by
  rw [read, (stat_real hr).resolve_left hs]
  cases hnode : fs.node path with
  | none => rfl
  | some n => simp [hnode]

end Real

section Realpath

def Sound (fs : FileSystem α) (seen : Seen) : Prop :=
  ∀ path name m, seen (path ++ [name]) = some (some m) → ∀ target,
    fs.linkAt (path ++ [name]) = some target → ∃ k, fs.Leads k (target.base path) target.names m

def Under (fs : FileSystem α) (k : ℕ) (seen : Seen) : Prop :=
  ∀ path name, seen (path ++ [name]) = some none →
    ∀ target, fs.linkAt (path ++ [name]) = some target →
    ∀ j m, fs.Leads j (target.base path) target.names m → k ≤ j

def Ends (fs : FileSystem α) (deep : Prop) (q : Path) (seen : Seen)
    (result : Outcome × Seen) : Prop :=
  (∃ seen', result = (.resolved q, seen') ∧ Sound fs seen' ∧
      ∀ path, seen' path = some none → seen path = some none) ∨
    ¬ deep ∧ result.1 = .tooDeep

lemma Under.mono {seen : Seen} (h : Under fs k seen) (hjk : j ≤ k) : Under fs j seen :=
  fun path name hs target hn i m hl => hjk.trans (h path name hs target hn i m hl)

lemma Sound.begin {seen : Seen} (h : Sound fs seen) (path : Path) :
    Sound fs (Function.update seen path (some none)) := by
  intro p name m hm target hn
  rw [Function.update_apply] at hm
  split at hm
  · cases hm
  · exact h p name m hm target hn

lemma Sound.finish {seen : Seen} (h : Sound fs seen) {path : Path} {name : String}
    {target : Reference} {k : ℕ} (hl : fs.linkAt (path ++ [name]) = some target)
    (h₁ : fs.Leads k (target.base path) target.names m) :
    Sound fs (Function.update seen (path ++ [name]) (some (some m))) := by
  intro p n r hr target' hn
  rw [Function.update_apply] at hr
  split at hr
  · next he =>
    obtain ⟨rfl, hname⟩ := List.append_inj' he rfl
    obtain rfl := List.singleton_inj.mp hname
    obtain rfl := Option.some.inj (hn.symm.trans hl)
    obtain rfl := Option.some.inj (Option.some.inj hr)
    exact ⟨k, h₁⟩
  · exact h p n r hr target' hn

lemma Under.begin {seen : Seen} (h : Under fs (j + k + 1) seen) {path : Path} {name : String}
    {target : Reference} (hl : fs.linkAt (path ++ [name]) = some target)
    (h₁ : fs.Leads j (target.base path) target.names m) :
    Under fs j (Function.update seen (path ++ [name]) (some none)) := by
  intro p n hp target' hn i r hi
  rw [Function.update_apply] at hp
  split at hp
  · next he =>
    obtain ⟨rfl, hname⟩ := List.append_inj' he rfl
    obtain rfl := List.singleton_inj.mp hname
    obtain rfl := Option.some.inj (hn.symm.trans hl)
    exact (h₁.unique hi).1.le
  · have hk := h p n hp target' hn i r hi
    omega

lemma joinNames_append {follow : Follow} {depth : ℕ}
    (hf : ∀ {j p reference m seen}, fs.Leads j (Reference.base reference p) reference.names m →
      Sound fs seen → Under fs j seen → Ends fs (j < depth) m seen (follow p reference seen))
    {seen : Seen} (h : fs.Leads k p names q) (hs : Sound fs seen) (hu : Under fs k seen)
    (rest : List String) :
    (∃ seen', joinNames fs follow (names ++ rest) p seen = joinNames fs follow rest q seen' ∧
      Sound fs seen' ∧ ∀ path, seen' path = some none → seen path = some none) ∨
      depth < k ∧ (joinNames fs follow (names ++ rest) p seen).1 = .tooDeep := by
  induction h generalizing seen with
  | here => exact .inl ⟨seen, rfl, hs, fun _ hp => hp⟩
  | up _ ih => exact ih hs hu
  | enter hn hz hl _ ih =>
    rw [List.cons_append, joinNames, if_neg hn, if_neg hz]
    simp only [hl]
    exact ih hs hu
  | @follow j k path m q name names target hn hz hl h₁ _ _ ih =>
    rw [List.cons_append, joinNames, if_neg hn, if_neg hz]
    simp only [hl]
    cases hseen : seen (path ++ [name]) with
    | none =>
      rcases hf h₁ (hs.begin _) (hu.begin hl h₁) with ⟨seen₁, hr, hsound, hpending⟩ | ⟨hdeep, hr⟩
      · have hback : ∀ l, Function.update seen₁ (path ++ [name]) (some (some m)) l = some none →
            seen l = some none := by
          intro l hlp
          rw [Function.update_apply] at hlp
          split at hlp
          · cases hlp
          · next hne =>
            have hp := hpending l hlp
            rwa [Function.update_of_ne hne] at hp
        rw [hr]
        rcases ih (hsound.finish hl h₁) (fun p n hp target' hn i r hi =>
          (hu.mono (by omega)) p n (hback _ hp) target' hn i r hi) with
          ⟨seen₂, he, hs₂, hp₂⟩ | ⟨hdeep, ht⟩
        · exact .inl ⟨seen₂, he, hs₂, fun l hlp => hback l (hp₂ l hlp)⟩
        · exact .inr ⟨by omega, ht⟩
      · generalize follow path target (Function.update seen (path ++ [name]) (some none)) = result
          at hr
        obtain ⟨outcome, seen₁⟩ := result
        obtain rfl : outcome = .tooDeep := hr
        exact .inr ⟨by omega, rfl⟩
    | some x =>
      cases x with
      | none =>
        have hk := hu path name hseen target hl j m h₁
        omega
      | some r =>
        obtain ⟨i, hi⟩ := hs path name r hseen target hl
        obtain ⟨-, rfl⟩ := h₁.unique hi
        rcases ih hs (hu.mono (by omega)) with he | ⟨hdeep, ht⟩
        · exact .inl he
        · exact .inr ⟨by omega, ht⟩

lemma joinRealpath_leads (depth : ℕ) {reference : Reference} {seen : Seen}
    (h : fs.Leads k (reference.base p) reference.names q) (hs : Sound fs seen)
    (hu : Under fs k seen) :
    Ends fs (k < depth) q seen (fs.joinRealpath depth p reference seen) := by
  induction depth generalizing k p reference q seen with
  | zero => exact .inr ⟨by omega, rfl⟩
  | succ depth ih =>
    have ha := joinNames_append ih h hs hu []
    rw [List.append_nil] at ha
    rcases ha with ⟨seen', he, hs', hp⟩ | ⟨hk, ht⟩
    · exact .inl ⟨seen', he, hs', hp⟩
    · exact .inr ⟨by omega, ht⟩

lemma sound_empty : Sound fs (fun _ => none) := fun _ _ _ hm => by cases hm

lemma under_empty : Under fs k (fun _ => none) := fun _ _ hm => by cases hm

lemma joinRealpath_root (depth : ℕ) (h : fs.Leads k [] names q) :
    (fs.joinRealpath depth [] ⟨true, names⟩ (fun _ => none)).1 = .resolved q ∨
      depth ≤ k ∧ (fs.joinRealpath depth [] ⟨true, names⟩ (fun _ => none)).1 = .tooDeep := by
  have hl : fs.Leads k (Reference.base ⟨true, names⟩ []) (Reference.mk true names).names q := h
  rcases joinRealpath_leads depth hl sound_empty under_empty with ⟨seen, hr, -, -⟩ | ⟨hk, ht⟩
  · exact .inl (congrArg Prod.fst hr)
  · exact .inr ⟨Nat.not_lt.mp hk, ht⟩

theorem resolve_leads (depth : ℕ) (h : fs.Leads k [] names q) :
    fs.resolve depth names = .ok q ∨ depth ≤ k ∧ fs.resolve depth names = .error .recursion := by
  rw [resolve]
  rcases joinRealpath_root depth h with hr | ⟨hk, ht⟩
  · rw [hr]
    exact .inl rfl
  · rw [ht]
    exact .inr ⟨hk, rfl⟩

lemma Means.resolve {depth : ℕ} {path : Path} (h : fs.Means names q)
    (hr : fs.resolve depth names = .ok path) : path = q := by
  obtain ⟨k, h⟩ := h
  rcases resolve_leads depth h with hq | ⟨-, he⟩
  · exact Except.ok.inj (hr.symm.trans hq)
  · rw [he] at hr
    cases hr

lemma joinRealpath_zero (depth : ℕ) (h : fs.Leads k [] names q) (hn : Char.ofNat 0 ∈ name.toList)
    (rest : List String) :
    (fs.joinRealpath depth [] ⟨true, names ++ name :: rest⟩ (fun _ => none)).1 = .invalid ∨
      (fs.joinRealpath depth [] ⟨true, names ++ name :: rest⟩ (fun _ => none)).1 = .tooDeep := by
  have hup : name ≠ ".." := by
    rintro rfl
    exact absurd hn (by decide)
  cases depth with
  | zero => exact .inr rfl
  | succ depth =>
    rcases joinNames_append (joinRealpath_leads depth) h sound_empty under_empty (name :: rest) with
      ⟨seen, hr, -, -⟩ | ⟨-, ht⟩
    · rw [joinNames, if_neg hup, if_pos hn] at hr
      exact .inl (congrArg Prod.fst hr)
    · exact .inr ht

end Realpath

section LoopFree

def ZeroFree (names : List String) : Prop := ∀ name ∈ names, Char.ofNat 0 ∉ name.toList

instance (names : List String) : Decidable (ZeroFree names) := List.decidableBAll _ _

def LoopFree (fs : FileSystem α) : Prop :=
  ∀ path name target, fs.Real path → fs.linkAt (path ++ [name]) = some target →
    ∃ k m, fs.Leads k (target.base path) target.names m

lemma LoopFree.leads (h : fs.LoopFree) (hp : fs.Real p) (hn : ZeroFree names) :
    ∃ k q, fs.Leads k p names q := by
  induction names generalizing p with
  | nil => exact ⟨0, p, .here⟩
  | cons name names ih =>
    have hrest : ZeroFree names := fun n hm => hn n (List.mem_cons_of_mem _ hm)
    have hz := hn name List.mem_cons_self
    by_cases hup : name = ".."
    · subst hup
      obtain ⟨k, q, hl⟩ := ih hp.dropLast hrest
      exact ⟨k, q, .up hl⟩
    · cases hlink : fs.linkAt (p ++ [name]) with
      | none =>
        obtain ⟨k, q, hl⟩ := ih (hp.concat hup hlink) hrest
        exact ⟨k, q, .enter hup hz hlink hl⟩
      | some target =>
        obtain ⟨j, m, hm⟩ := h p name target hp hlink
        obtain ⟨k, q, hl⟩ := ih (hm.real (hp.base target)) hrest
        exact ⟨_, q, .follow hup hz hlink hm hl⟩

lemma Leads.zeroFree (h : fs.Leads k p names q) : ZeroFree names := by
  induction h with
  | here => simp [ZeroFree]
  | up _ ih => exact List.forall_mem_cons.mpr ⟨by decide, ih⟩
  | enter _ hz _ _ ih => exact List.forall_mem_cons.mpr ⟨hz, ih⟩
  | follow _ hz _ _ _ _ ih => exact List.forall_mem_cons.mpr ⟨hz, ih⟩

lemma LoopFree.joinRealpath_zero (h : fs.LoopFree) (depth : ℕ) (hn : ¬ ZeroFree names) :
    (fs.joinRealpath depth [] ⟨true, names⟩ (fun _ => none)).1 = .invalid ∨
      (fs.joinRealpath depth [] ⟨true, names⟩ (fun _ => none)).1 = .tooDeep := by
  have hfind : (names.find? (fun name => Char.ofNat 0 ∈ name.toList)).isSome := by
    rw [List.find?_isSome]
    simpa [ZeroFree] using hn
  obtain ⟨name, hname⟩ := Option.isSome_iff_exists.mp hfind
  obtain ⟨hz, before, rest, rfl, hb⟩ := List.find?_eq_some_iff_append.mp hname
  obtain ⟨k, q, hl⟩ := h.leads real_nil (fun n hm => by simpa using hb n hm)
  exact FileSystem.joinRealpath_zero depth hl (by simpa using hz) rest

lemma LoopFree.resolve_zero (h : fs.LoopFree) (depth : ℕ) (hn : ¬ ZeroFree names) :
    ∃ e, fs.resolve depth names = .error e := by
  rw [resolve]
  rcases h.joinRealpath_zero depth hn with hz | hz
  · rw [hz]
    exact ⟨_, rfl⟩
  · rw [hz]
    exact ⟨_, rfl⟩

lemma LoopFree.ne_loop (h : fs.LoopFree) (depth : ℕ) (names path : List String) :
    (fs.joinRealpath depth [] ⟨true, names⟩ (fun _ => none)).1 ≠ .loop path := by
  by_cases hz : ZeroFree names
  · obtain ⟨k, q, hl⟩ := h.leads real_nil hz
    rcases joinRealpath_root depth hl with hr | ⟨-, hr⟩
    · rw [hr]
      simp
    · rw [hr]
      simp
  · rcases h.joinRealpath_zero depth hz with hr | hr
    · rw [hr]
      simp
    · rw [hr]
      simp

end LoopFree

section SameLinks

variable {fs' : FileSystem α}

lemma Leads.of_links (hl : fs.linkAt = fs'.linkAt) (h : fs.Leads k p names q) :
    fs'.Leads k p names q := by
  induction h with
  | here => exact .here
  | up _ ih => exact .up ih
  | enter hn hz hnode _ ih => exact .enter hn hz (hl ▸ hnode) ih
  | follow hn hz hnode _ _ ih₁ ih₂ => exact .follow hn hz (hl ▸ hnode) ih₁ ih₂

lemma joinNames_of_links (hl : fs.linkAt = fs'.linkAt) (follow : Follow) (p : Path)
    (seen : Seen) : joinNames fs follow names p seen = joinNames fs' follow names p seen := by
  induction names generalizing p seen with
  | nil => rfl
  | cons name names ih => simp only [joinNames, hl, ih]

lemma joinRealpath_of_links (hl : fs.linkAt = fs'.linkAt) (depth : ℕ) :
    fs.joinRealpath depth = fs'.joinRealpath depth := by
  induction depth with
  | zero => rfl
  | succ depth ih =>
    funext p reference seen
    rw [joinRealpath, joinRealpath, ih]
    exact joinNames_of_links hl _ _ _

lemma LoopFree.resolve_of_links (h : fs.LoopFree) (hl : fs.linkAt = fs'.linkAt) (depth : ℕ)
    (names : List String) : fs.resolve depth names = fs'.resolve depth names := by
  have hn := h.ne_loop depth names
  rw [resolve, resolve, ← joinRealpath_of_links hl]
  cases ho : (fs.joinRealpath depth [] ⟨true, names⟩ (fun _ => none)).1 with
  | loop path => exact absurd ho (hn path)
  | _ => rfl

end SameLinks

section Entries

def nodeOf (entries : List (Path × Node α)) (path : Path) : Option (Node α) :=
  if path = [] then some .directory else entries.lookup path

def ofEntries (entries : List (Path × Node α))
    (h : ∀ e ∈ entries, (nodeOf entries e.1.dropLast).any Node.isDirectory ∧
      e.1.getLast?.all isPlain) : FileSystem α where
  node := nodeOf entries
  denies _ name := 255 < name.utf8ByteSize
  root := if_pos rfl
  closed path name hs := by
    rw [nodeOf, if_neg (by simp)] at hs
    obtain ⟨n, hn⟩ := Option.isSome_iff_exists.mp hs
    obtain ⟨l₁, l₂, he, -⟩ := List.lookup_eq_some_iff.mp hn
    obtain ⟨hd, hp⟩ := h (path ++ [name], n) (by simp [he])
    rw [List.dropLast_concat] at hd
    rw [List.getLast?_concat] at hp
    obtain ⟨d, hd', hdir⟩ := (Option.any_eq_true _ _).mp hd
    exact ⟨hd'.trans (congrArg some (Node.isDirectory_iff.mp hdir)), hp⟩

lemma mem_of_linkAt {entries : List (Path × Node α)}
    {h : ∀ e ∈ entries,
      (nodeOf entries e.1.dropLast).any Node.isDirectory ∧ e.1.getLast?.all isPlain}
    {target : Reference} (hl : (ofEntries entries h).linkAt path = some target) : (path,
    .link target) ∈ entries := by
  have hn : nodeOf entries path = some (.link target) := node_of_linkAt hl
  rw [nodeOf] at hn
  split at hn
  · cases hn
  · obtain ⟨l₁, l₂, he, -⟩ := List.lookup_eq_some_iff.mp hn
    simp [he]

end Entries

end FileSystem

end AstropathRelay.Lib
