import AstropathRelay.Lib.FileSystem

/-! The pages of the management plane: the catch-all route that serves the built directory, and what
it can send. -/

namespace AstropathRelay.Api.Spa

open Lib Lib.FileSystem

def reservedPrefixes : List String :=
  ["api", "docs", "redoc", "openapi.json", "metrics", "healthz", "readyz", "assets"]

structure Mount where
  root : List String
  resolved : Path

inductive Answer (α : Type)
  | notFound
  | sent (content : α)
  | raised (e : PathError)
  | unsent
deriving DecidableEq

section Route

variable {α : Type} (fs : FileSystem α) (depth : ℕ)

def index (root : List String) : List String := root ++ ["index.html"]

-- `_configure_spa`: without a directory, or without its page, there is no route.
def configureSpa (cwd : Path) (source : Option String) : Except PathError (Option Mount) :=
  match source with
  | none => .ok none
  | some source =>
    let root := (Reference.parse source).under cwd
    match fs.isFile (index root) with
    | .error e => .error e
    | .ok false => .ok none
    | .ok true => (fs.resolve depth root).map (fun resolved => some ⟨root, resolved⟩)

def firstSegment (fullPath : String) : String := String.ofList (fullPath.toList.takeWhile (· ≠ '/'))

def fileResponse (names : List String) : Answer α :=
  match fs.read names with
  | some content => .sent content
  | none => .unsent

def page (mount : Mount) : Answer α := fileResponse fs (index mount.root)

def requested (mount : Mount) (fullPath : String) : List String :=
  (Reference.parse fullPath).under mount.root

def spa (mount : Mount) (fullPath : String) : Answer α :=
  if firstSegment fullPath ∈ reservedPrefixes then .notFound
  else if fullPath = "" then page fs mount
  else
    match fs.resolve depth (requested mount fullPath) with
    | .error e => .raised e
    | .ok candidate =>
      match fs.isFile candidate with
      | .error e => .raised e
      | .ok true => if mount.resolved <+: candidate then fileResponse fs candidate
          else page fs mount
      | .ok false => page fs mount

/-- `/{full_path:path}` as a pattern: its `.*` takes no line break, and its `$` stands before a last
one too. -/
def routed (path : String) : Option String :=
  let body := if path.toList.getLast? = some '\n' then path.toList.dropLast else path.toList
  if '\n' ∈ body then none else some (String.ofList body)

def get (mount : Mount) (path : String) : Answer α :=
  match routed path with
  | none => .notFound
  | some fullPath => spa fs depth mount fullPath

end Route

section Intended

variable {α : Type} (fs : FileSystem α)

/-- What is meant to be served where a path means `q`: a file of the directory, and the page for
everything else. What the kernel refuses to look up raises. -/
def intended (mount : Mount) (fullPath : String) (q : Path) : Answer α :=
  if firstSegment fullPath ∈ reservedPrefixes then .notFound
  else if fullPath = "" then page fs mount
  else if fs.stat q = .denied then .raised .osError
  else if mount.resolved <+: q then
    match fs.node q with
    | some (.file (some content)) => .sent content
    | some (.file none) => .unsent
    | _ => page fs mount
  else page fs mount

variable {fs} {depth : ℕ} {cwd q : Path} {source : Option String} {mount : Mount}
  {fullPath path : String} {k : ℕ}

lemma configureSpa_some {source : String} :
    configureSpa fs depth cwd (some source) = .ok (some mount) ↔
      mount.root = (Reference.parse source).under cwd ∧ fs.isFile (index mount.root) = .ok true ∧
      fs.resolve depth mount.root = .ok mount.resolved := by
  obtain ⟨root, resolved⟩ := mount
  rw [configureSpa]
  constructor
  · intro h
    split at h
    · cases h
    · cases h
    · next hfile =>
      cases hr : fs.resolve depth ((Reference.parse source).under cwd) with
      | error e =>
        rw [hr] at h
        cases h
      | ok path =>
        rw [hr] at h
        obtain ⟨rfl, rfl⟩ : (Reference.parse source).under cwd = root ∧ path = resolved := by
          simpa [Except.map] using h
        exact ⟨rfl, hfile, hr⟩
  · rintro ⟨rfl, hfile, hr⟩
    dsimp only at hfile hr ⊢
    rw [hfile, hr]
    rfl

lemma means_of_resolve (hfs : fs.LoopFree) {names : List String}
    (hr : fs.resolve depth names = .ok q) : fs.Means names q := by
  by_cases hz : ZeroFree names
  · obtain ⟨k, q', h⟩ := hfs.leads real_nil hz
    exact Means.resolve ⟨k, h⟩ hr ▸ ⟨k, h⟩
  · obtain ⟨e, he⟩ := hfs.resolve_zero depth hz
    rw [he] at hr
    cases hr

lemma configured (hfs : fs.LoopFree) (h : configureSpa fs depth cwd source = .ok (some mount)) :
    fs.isFile (index mount.root) = .ok true ∧ fs.Means mount.root mount.resolved := by
  cases source with
  | none => simp [configureSpa] at h
  | some source =>
    obtain ⟨-, hfile, hr⟩ := configureSpa_some.mp h
    exact ⟨hfile, means_of_resolve hfs hr⟩

lemma spa_of_leads (h : fs.Leads k [] (requested mount fullPath) q) :
    spa fs depth mount fullPath = intended fs mount fullPath q ∨
      depth ≤ k ∧ spa fs depth mount fullPath = .raised .recursion := by
  have hreal := Means.real ⟨k, h⟩
  rw [spa, intended]
  split
  · exact .inl rfl
  · split
    · exact .inl rfl
    · rcases resolve_leads depth h with hr | ⟨hk, hr⟩
      · rw [hr]
        dsimp only
        rw [isFile_real hreal]
        left
        by_cases hs : fs.stat q = .denied
        · simp only [hs, if_true]
        simp only [hs, if_false]
        by_cases hin : mount.resolved <+: q
        · simp only [if_pos hin, fileResponse, read_real hreal hs]
          cases hn : fs.node q with
          | none => rfl
          | some n =>
            cases n with
            | file content => cases content <;> rfl
            | directory | link => rfl
        · simp only [if_neg hin]
          cases (fs.node q).any Node.isFile <;> rfl
      · rw [hr]
        exact .inr ⟨hk, rfl⟩

section Oblivious

variable {fs' : FileSystem α}

lemma configureSpa_of_links (hfs : fs.LoopFree) (hl : fs.linkAt = fs'.linkAt)
    (hc : configureSpa fs depth cwd source = .ok (some mount))
    (hi : fs'.isFile (index mount.root) = fs.isFile (index mount.root)) :
    configureSpa fs' depth cwd source = .ok (some mount) := by
  cases source with
  | none => simp [configureSpa] at hc
  | some source =>
    obtain ⟨hroot, hfile, hr⟩ := configureSpa_some.mp hc
    exact configureSpa_some.mpr ⟨hroot, hi ▸ hfile, (hfs.resolve_of_links hl depth mount.root) ▸ hr⟩

lemma spa_of_means (hl : fs.linkAt = fs'.linkAt) (hp : page fs' mount = page fs mount)
    (hin : ∀ path, mount.resolved <+: path → fs'.node path = fs.node path)
    (hr : fs.resolve depth (requested mount fullPath) = .ok q)
    (hr' : fs'.resolve depth (requested mount fullPath) = .ok q)
    (hq : fs.Means (requested mount fullPath) q) (hs : fs.stat q = .denied ↔ fs'.stat q = .denied) :
    spa fs' depth mount fullPath = spa fs depth mount fullPath := by
  obtain ⟨k, h⟩ := hq
  have hreal := Means.real ⟨k, h⟩
  have hreal' := Means.real ⟨k, h.of_links hl⟩
  simp only [spa, hp, hr, hr', isFile_real hreal, isFile_real hreal', ← hs]
  by_cases hd : fs.stat q = .denied
  · simp only [hd, if_true]
  · simp only [hd, if_false]
    by_cases hdir : mount.resolved <+: q
    · simp only [fileResponse, read_real hreal hd,
        read_real hreal' (fun h' => hd (hs.mpr h')), hin q hdir]
    · simp only [if_neg hdir]
      cases (fs'.node q).any Node.isFile <;> cases (fs.node q).any Node.isFile <;> rfl

end Oblivious

lemma firstSegment_write {name : String} (rest : List String) (h : '/' ∉ name.toList) :
    firstSegment (Reference.write (name :: rest)) = name := by
  have hp : ∀ c ∈ name.toList, decide (c ≠ '/') = true := by
    intro c hc
    rw [decide_eq_true_eq]
    rintro rfl
    exact h hc
  obtain ⟨tail, ht, hstop⟩ : ∃ tail, ['/'].intercalate ((name :: rest).map String.toList) =
      name.toList ++ tail ∧ tail.takeWhile (fun c => decide (c ≠ '/')) = [] := by
    cases rest with
    | nil => exact ⟨[], by simp [List.intercalate], rfl⟩
    | cons next rest =>
      exact ⟨'/' :: ['/'].intercalate ((next :: rest).map String.toList),
        by simp [List.intercalate], rfl⟩
  rw [firstSegment, Reference.write, String.toList_ofList, ht, List.takeWhile_append_of_pos hp,
    hstop, List.append_nil, String.ofList_toList]

lemma mem_write {c : Char} {names : List String} (h : c ∈ (Reference.write names).toList) :
    c = '/' ∨ ∃ name ∈ names, c ∈ name.toList := by
  rw [Reference.write, String.toList_ofList] at h
  induction names with
  | nil => simp [List.intercalate] at h
  | cons name rest ih =>
    cases rest with
    | nil => exact .inr ⟨name, List.mem_cons_self, by simpa [List.intercalate] using h⟩
    | cons next rest =>
      have hcons : ['/'].intercalate ((name :: next :: rest).map String.toList) =
          name.toList ++ '/' :: ['/'].intercalate ((next :: rest).map String.toList) := by
        simp [List.intercalate]
      rw [hcons, List.mem_append, List.mem_cons] at h
      rcases h with h | h | h
      · exact .inr ⟨name, List.mem_cons_self, h⟩
      · exact .inl h
      · rcases ih h with h | ⟨n, hn, hc⟩
        · exact .inl h
        · exact .inr ⟨n, List.mem_cons_of_mem name hn, hc⟩

lemma routed_of_not_mem (h : '\n' ∉ path.toList) : routed path = some path := by
  have hlast : path.toList.getLast? ≠ some '\n' := fun hl => h (List.mem_of_getLast? hl)
  rw [routed]
  simp only [if_neg hlast, if_neg h, String.ofList_toList]

end Intended

section Sample

def bareEntries : List (Path × Node String) :=
  [(["srv"], .directory), (["srv", "dist"], .directory), (["srv", "dist", "index.html"],
    .file (some "page")), (["srv", "dist", "favicon.svg"], .file (some "icon")),
    (["srv", "dist", "out"], .link ⟨true, ["etc"]⟩), (["etc"], .directory)]

def bare : FileSystem String := ofEntries bareEntries (by decide)

def withSecret : FileSystem String :=
  ofEntries (bareEntries ++ [(["etc", "passwd"], .file (some "secret"))]) (by decide)

def sampleMount : Mount := ⟨["srv", "dist"], ["srv", "dist"]⟩

lemma withSecret_loopFree : withSecret.LoopFree := by
  intro path name target _ hl
  have hm := mem_of_linkAt hl
  obtain ⟨-, rfl⟩ : path ++ [name] = ["srv", "dist", "out"] ∧ target = ⟨true, ["etc"]⟩ := by
    simpa [bareEntries] using hm
  exact ⟨0, ["etc"], .enter (by decide) (by decide) rfl .here⟩

lemma withSecret_configured :
    configureSpa withSecret 100 [] (some "/srv/dist") = .ok (some sampleMount) :=
  configureSpa_some.mpr ⟨by decide +kernel, by decide +kernel, rfl⟩

lemma routed_out : routed "out/passwd" = some "out/passwd" := by decide +kernel

lemma leads_out : withSecret.Leads 1 [] (requested sampleMount "out/passwd") ["etc", "passwd"] := by
  have hreq : requested sampleMount "out/passwd" = ["srv", "dist", "out", "passwd"] := by
    decide +kernel
  have hlink : withSecret.linkAt ["srv", "dist", "out"] = some ⟨true, ["etc"]⟩ := by decide +kernel
  rw [hreq]
  refine .enter (by decide) (by decide) (by decide +kernel)
    (.enter (by decide) (by decide) (by decide +kernel)
    (.follow (j := 0) (k := 0) (m := ["etc"]) (by decide) (by decide) hlink ?_ ?_))
  · exact .enter (by decide) (by decide) (by decide +kernel) .here
  · exact .enter (by decide) (by decide) (by decide +kernel) .here

def locked : FileSystem String := { withSecret with denies := fun path _ => path = ["etc"] }

example : get locked 100 sampleMount "out/passwd" = .raised .osError ∧
    get locked 100 sampleMount "nosuch/passwd" = .sent "page" := by decide +kernel

def looping : FileSystem String :=
  ofEntries (bareEntries ++ [(["etc", "passwd"], .file (some "secret")),
    (["srv", "dist", "loop"], .link ⟨false, ["loop"]⟩)]) (by decide)

example : get looping 100 sampleMount "loop/../out/passwd" = .sent "secret" := by decide +kernel

end Sample

end AstropathRelay.Api.Spa
