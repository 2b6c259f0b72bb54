import BuildMeta.Pkg.Finding

/-!
# Queries

A query loads packages with all that they require, in the order in which a depth-first walk first
meets them, and answers with their flags.  Requirements may go in circles.  The walk ends all the same
(`remaining_load`): a name is loaded once, and the packages of a tree require finitely many names.
-/

namespace BuildMeta.Pkg

/-- The state of a query. -/
structure Query where
  search : Search
  /-- The packages loaded, under the names by which they were required. -/
  packages : List (String × Package) := []
  /-- The requirements asked for last. -/
  asked : List Requirement := []
deriving Inhabited

namespace Query

/-- The package loaded under a name. -/
def loaded? (packages : List (String × Package)) (name : String) : Option Package :=
  packages.lookup name

/-- Loads one package.  Conflicts cannot be looked up. -/
def loadOne (s : Search) (r : Requirement) : Logged Package := do
  let p ← s.find r
  match p.conflicts with
  | [] => pure ()
  | c :: _ =>
    s.site.settings.debug ("Searching for conflict " ++ c.name)
    .fail .conflictUnchecked
  s.site.settings.debug ("Adding " ++ p.path ++ " to list of packages as " ++ r.name)
  return p

variable {s : Search} {packages : List (String × Package)} {r : Requirement} {p : Package}
  {waiting : List Requirement}

/-- What is loaded is the best candidate, and it has no conflicts. -/
theorem best_of_loadOne (h : (loadOne s r).outcome = .ok p) : s.Best r p ∧ p.conflicts = [] := by
  unfold loadOne at h
  obtain ⟨q, hfind, h⟩ := Logged.outcome_bind_eq_ok_iff.mp h
  dsimp only at h
  cases hconflicts : q.conflicts with
  | nil =>
    rw [hconflicts] at h
    dsimp only at h
    rw [Settings.outcome_debug_bind] at h
    obtain rfl := Except.ok.inj h
    exact ⟨Search.best_of_find hfind, hconflicts⟩
  | cons c others =>
    rw [hconflicts] at h
    dsimp only at h
    rw [Settings.outcome_debug_bind] at h
    cases h

/-! ## What is left to load -/

/-- Names among which are all those that packages of the tree require. -/
noncomputable def requirable (s : Search) : List String :=
  Classical.choose (Package.exists_requiredNames s.site)

theorem mem_requirable (hp : (loadOne s r).outcome = .ok p) :
    ∀ q ∈ p.allRequires, q.name ∈ requirable s := by
  obtain ⟨_, path, _, _, _, hload, _⟩ := (best_of_loadOne hp).1
  exact Classical.choose_spec (Package.exists_requiredNames s.site) path p hload

/-- How many names can still be loaded: those that packages may require, and those that were asked for
beside them. -/
noncomputable def remaining (s : Search) (packages : List (String × Package))
    (waiting : List Requirement) : Nat :=
  (requirable s).countP (fun name => (loaded? packages name).isNone) +
    waiting.countP fun r => r.name ∉ requirable s

theorem remaining_again : remaining s packages waiting ≤ remaining s packages (r :: waiting) :=
  Nat.add_le_add_left ((List.sublist_cons_self r waiting).countP_le) _

/-- What is loaded stays loaded. -/
theorem countP_isNone_le (packages : List (String × Package)) (names : List String) (name : String)
    (p : Package) :
    names.countP (fun n => (loaded? (packages ++ [(name, p)]) n).isNone) ≤
      names.countP fun n => (loaded? packages n).isNone := by
  refine List.countP_mono_left fun n _ h => ?_
  rw [loaded?, List.lookup_append, Option.isNone_or, Bool.and_eq_true] at h
  exact h.1

/-- There are fewer names left among those that contain a name that is loaded now. -/
theorem countP_isNone_lt {names : List String} {name : String} (p : Package) (hin : name ∈ names)
    (hnew : (loaded? packages name).isNone = true) :
    names.countP (fun n => (loaded? (packages ++ [(name, p)]) n).isNone) <
      names.countP fun n => (loaded? packages n).isNone := by
  obtain ⟨before, after, rfl⟩ := List.append_of_mem hin
  have hself : ¬ (loaded? (packages ++ [(name, p)]) name).isNone = true := by
    simp [loaded?, List.lookup_append]
  have hbefore := countP_isNone_le packages before name p
  have hafter := countP_isNone_le packages after name p
  rw [List.countP_append, List.countP_append, List.countP_cons, List.countP_cons, if_neg hself,
    if_pos hnew]
  omega

/-- A name that is loaded is left no more, and what its package requires was counted before. -/
theorem remaining_load (hnew : ¬ (loaded? packages r.name).isSome) (hp : (loadOne s r).outcome = .ok p)
    (deep : Bool) :
    remaining s (packages ++ [(r.name, p)]) (if deep then p.allRequires ++ waiting else waiting) <
      remaining s packages (r :: waiting) := by
  have hnone : p.allRequires.countP (fun q => q.name ∉ requirable s) = 0 :=
    List.countP_eq_zero.mpr fun q hq => by simpa using mem_requirable hp q hq
  have hnext :
      (if deep then p.allRequires ++ waiting else waiting).countP (fun q => q.name ∉ requirable s) =
      waiting.countP fun q => q.name ∉ requirable s := by
    split
    · rw [List.countP_append, hnone, Nat.zero_add]
    · rfl
  unfold remaining
  rw [hnext]
  by_cases hin : r.name ∈ requirable s
  · have hfewer := countP_isNone_lt p hin (by simpa using hnew)
    rw [List.countP_cons_of_neg (by simpa using hin)]
    omega
  · have hkept := countP_isNone_le packages (requirable s) r.name p
    rw [List.countP_cons_of_pos (by simpa using hin)]
    omega

/-- Loads the required packages that are not loaded yet.  `waiting` holds the requirements still to
be looked at; those of a package just loaded come first.  A package is loaded before its
requirements are looked at, so requirements may go in circles.  What was loaded before a failure is
kept. -/
def loadFrom (s : Search) (deep : Bool) (packages : List (String × Package))
    (waiting : List Requirement) : List (String × Package) × Logged Unit :=
  match waiting with
  | [] => (packages, pure ())
  | r :: waiting =>
    if (loaded? packages r.name).isSome then loadFrom s deep packages waiting
    else
      let x := loadOne s r
      match _hp : x.outcome with
      | .error e => (packages, ⟨x.notices, .error e⟩)
      | .ok p =>
        let next := if deep then p.allRequires ++ waiting else waiting
        let (packages, y) := loadFrom s deep (packages ++ [(r.name, p)]) next
        (packages, ⟨x.notices ++ y.notices, y.outcome⟩)
termination_by (remaining s packages waiting, waiting.length)
decreasing_by
  · exact .right' _ remaining_again (Nat.lt_succ_self _)
  · exact .left _ _ (remaining_load ‹_› _hp deep)

/-- Loads the packages of a list of requirements, with what they require if `deep`. -/
def find (q : Query) (text : String) (deep : Bool) : Query × Logged Unit :=
  let read := q.search.site.settings.readRequirements text
  match read.outcome with
  | .error e => (q, ⟨read.notices, .error e⟩)
  | .ok [] => ({ q with asked := [] }, ⟨read.notices, .error .noPackages⟩)
  | .ok asked =>
    let (packages, y) := loadFrom q.search deep q.packages asked
    ({ q with packages, asked }, ⟨read.notices ++ y.notices, y.outcome⟩)

/-! ## Answers -/

/-- A list in which every member is kept only where it stands last. -/
def lastOnly (flags : List String) : List String := flags.reverse.eraseDups.reverse

/-- Whether libraries are named in the way of the Windows linker. -/
def windowsLinker (q : Query) : Bool :=
  q.search.site.windows && q.search.site.settings.isOn "use_msvc_syntax"

/-- The flags that packages give, in the order of the packages. -/
def stated (q : Query) (flags : Package → List String) : List String :=
  q.packages.flatMap fun (_, p) => flags p

/-- The flags that packages give, duplicates removed. -/
def collect (q : Query) (flags : Package → List String) : List String := lastOnly (q.stated flags)

/-- The text of the flags that packages give. -/
def gather (q : Query) (flags : Package → List String) : String := Text.join " " (q.collect flags)

/-- The flags for the directories of headers. -/
def includeDirFlags (p : Package) : List String := p.compile.includeDirs.map ("-I" ++ ·)

/-- The link flags of a package that count: its own, and the private ones if wanted. -/
def linkParts (q : Query) (p : Package) : List LinkFlags :=
  if q.search.site.settings.isOn "private_libs" then [p.link, p.privateLink] else [p.link]

/-- The flags for libraries. -/
def libFlags (q : Query) (p : Package) : List String :=
  (q.linkParts p).flatMap fun f =>
    f.libs.map ((if q.windowsLinker then "" else "-l") ++ ·)

/-- The flags for the directories of libraries. -/
def libPathFlags (q : Query) (p : Package) : List String :=
  (q.linkParts p).flatMap fun f =>
    f.paths.map ((if q.windowsLinker then "/libpath:" else "-L") ++ ·)

/-- The other flags for linking. -/
def otherLinkFlags (q : Query) (p : Package) : List String :=
  (q.linkParts p).flatMap (·.others)

/-- All flags of a package for compiling. -/
def allCompileFlags (p : Package) : List String := p.compile.others ++ includeDirFlags p

/-- All flags of a package for linking. -/
def allLinkFlags (q : Query) (p : Package) : List String :=
  q.otherLinkFlags p ++ q.libPathFlags p ++ q.libFlags p

/-- The flags for the directories of headers of all packages. -/
def includeDirs (q : Query) : String := q.gather includeDirFlags

/-- The other flags for compiling of all packages. -/
def otherCompile (q : Query) : String := q.gather (·.compile.others)

/-- All flags for compiling. -/
def compileFlags (q : Query) : String := q.gather allCompileFlags

/-- The flags for the libraries of all packages. -/
def libs (q : Query) : String := q.gather q.libFlags

/-- The flags for the directories of libraries of all packages. -/
def libPaths (q : Query) : String := q.gather q.libPathFlags

/-- The other flags for linking of all packages. -/
def otherLink (q : Query) : String := q.gather q.otherLinkFlags

/-- All flags for linking. -/
def linkFlags (q : Query) : String := q.gather q.allLinkFlags

/-- Whether a package that is not installed was loaded. -/
def hasUninstalled (q : Query) : Bool := q.packages.any (·.2.isUninstalled)

/-- The package loaded for a requirement. -/
def packageFor (q : Query) (r : Requirement) : Except Failure Package :=
  match loaded? q.packages r.name with
  | some p => .ok p
  | none => .error .absentAttribute

/-- The versions of the packages asked for. -/
def askedVersions (q : Query) : Except Failure (List Version) := do
  return (← q.asked.mapM q.packageFor).map (·.version)

/-- The version of the package loaded under a name. -/
def versionOf? (q : Query) (name : String) : Option Version :=
  (loaded? q.packages name).map (·.version)

/-- Prints the packages asked for. -/
def dump (q : Query) : Logged Unit :=
  q.asked.forM fun r => do
    match loaded? q.packages r.name with
    | some p => .tell (.out ((← p.render) ++ "\n"))
    | none => .tell (.out "None\n")

/-- The value of a variable cannot be asked for unless there are no packages. -/
def variableValue (q : Query) : Except Failure (Option String) :=
  if q.asked.isEmpty && q.packages.isEmpty then .ok none else .error .absentAttribute

/-- The loaded packages with their versions, as a list of texts. -/
def render (q : Query) : String :=
  (Datum.strs (q.packages.map fun (name, p) => name ++ "-" ++ p.version.raw)).repr

end Query

end BuildMeta.Pkg
