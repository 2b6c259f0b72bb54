import BuildMeta.Pkg.Finding
import BuildMeta.Proofs.Outcome
import BuildMeta.Proofs.Text.Sort

/-!
# `Proofs.Pkg.SearchOrder` — the files that a search path offers

A search goes through the directories of its path and notes the package files in them.  Here this is
a function of the tree: the files offered for a name are those of the directories that hold one, in
the order of the directories, none of them twice (`filesIn`); the files of a package that is not
installed can take the place of the others (`offered`).

* `Knows.addFile`, `Knows.addDir` — what a search knows after one more file or directory;
* `exists_start` — so a search can always be started off Windows, and its candidates are those that
  its path offers.
-/

namespace BuildMeta.Pkg

/-- The name of the file of a package. -/
def fileOf (name : String) : String := name ++ ".pc"

/-- The directories of a search path, in the order in which they are looked at. -/
def SearchPath.dirs (path : SearchPath) (site : Site) : List String :=
  Text.split ':' (path.environment.getD "PKG_CONFIG_PATH" "") ++
    Text.split ':' (path.environment.getD "PKG_CONFIG_LIBDIR" "") ++
    (path.configured.filter (· != "")).elim (Search.toolDirs { site } path.toolPrefix) (Text.split ':')

/-- The directory can be looked at, and holds the file. -/
def offers (tree : FileTree) (file dir : String) : Bool :=
  dir != "" && tree.isDir dir && (tree.list dir).contains file

/-- The files for a name in some directories. -/
def filesIn (tree : FileTree) (dirs : List String) (name : String) : List String :=
  ((dirs.filter (offers tree (fileOf name))).map (Path.join · (fileOf name))).eraseDups

/-- The files that a search path offers for a name.  The path of a package file stands for this file. -/
def offered (site : Site) (path : SearchPath) (name : String) : List String :=
  let found := filesIn site.tree (path.dirs site)
  let settings := site.settings
  if site.tree.isFile name && Path.extension name == ".pc" then [name]
  else if settings.isOn "prefer_uninstalled" && !(found (name ++ "-uninstalled")).isEmpty then
    found (name ++ "-uninstalled")
  else if settings.isOn "prefer_uninstalled" && settings.isOn "uninstalled_only" then []
  else found name

/-! ## Names of files -/

variable {site : Site} {s : Search} {places : List (String × String)} {dir file name : String}

theorem fileOf_injective {name name' : String} (h : fileOf name = fileOf name') : name = name' := by
  have hlists := congrArg String.toList h
  rw [fileOf, fileOf, String.toList_append, String.toList_append] at hlists
  exact String.toList_inj.mp (List.append_cancel_right hlists)

theorem endsWith_fileOf (name : String) : Text.endsWith (fileOf name) ".pc" = true := by
  rw [Text.endsWith, fileOf, String.toList_append, List.isSuffixOf_iff_suffix]
  exact List.suffix_append _ _

/-- The file of a package is told from others by its ending, and what stands before that is the name. -/
theorem fileOf_dropEnd (h : Text.endsWith file ".pc" = true) : fileOf (Text.dropEnd 3 file) = file := by
  rw [Text.endsWith, List.isSuffixOf_iff_suffix] at h
  obtain ⟨front, hfront⟩ := h
  have hlength : file.length = front.length + 3 := by
    rw [← String.length_toList, ← hfront, List.length_append]
    rfl
  apply String.toList_inj.mp
  rw [fileOf, Text.dropEnd, String.toList_append, String.toList_ofList, hlength, Nat.add_sub_cancel,
    ← hfront, List.take_left]

/-! ## What a search knows -/

/-- The files for a name among some places, each a directory and a file in it. -/
def filesAt (places : List (String × String)) (name : String) : List String :=
  ((places.filter (·.2 == fileOf name)).map fun e => Path.join e.1 e.2).eraseDups

/-- The search has noted the package files at some places, and no others. -/
structure Knows (s : Search) (site : Site) (places : List (String × String)) : Prop where
  site_eq : s.site = site
  known_eq : ∀ name, s.known.get? name
    = if filesAt places name = [] then none else some (filesAt places name)

theorem filesAt_concat_of_ne (h : file ≠ fileOf name) :
    filesAt (places ++ [(dir, file)]) name = filesAt places name := by
  unfold filesAt
  rw [List.filter_append, List.filter_cons_of_neg (by simpa using h), List.filter_nil, List.append_nil]

/-- A file that is noted once more changes nothing, and a new one comes behind the others. -/
theorem filesAt_concat_self (places : List (String × String)) (dir name : String) :
    filesAt (places ++ [(dir, fileOf name)]) name =
      if Path.join dir (fileOf name) ∈ filesAt places name then filesAt places name
      else filesAt places name ++ [Path.join dir (fileOf name)] := by
  unfold filesAt
  rw [List.filter_append, List.filter_cons_of_pos (by simp), List.filter_nil, List.map_append,
    List.eraseDups_append]
  simp only [List.mem_eraseDups, List.map_cons, List.map_nil]
  split
  · next hmem =>
    rw [List.removeAll, List.filter_cons_of_neg (by simpa using hmem)]
    exact List.append_nil _
  · next hmem =>
    rw [List.removeAll, List.filter_cons_of_pos (by simpa using hmem)]
    rfl

namespace Knows

/-- Setting the files for a name tells what is known after one more file of it. -/
theorem set (h : Knows s site places) {paths : List String}
    (hpaths : paths = filesAt (places ++ [(dir, fileOf name)]) name) (hne : paths ≠ []) :
    Knows { s with known := s.known.set name paths } site (places ++ [(dir, fileOf name)]) := by
  refine ⟨h.site_eq, fun other => ?_⟩
  by_cases hother : other = name
  · subst hother
    rw [Table.get?_set_self, ← hpaths, if_neg hne]
  · rw [Table.get?_set_of_ne _ _ hother,
      filesAt_concat_of_ne fun heq => hother (fileOf_injective heq).symm, h.known_eq]

/-- **One more file.** -/
theorem addFile (h : Knows s site places) (dir file : String) :
    ∃ s', (s.addFile dir file).outcome = .ok s' ∧ Knows s' site (places ++ [(dir, file)]) := by
  unfold Search.addFile
  cases hend : Text.endsWith file ".pc" with
  | false =>
    have hne : ∀ name, file ≠ fileOf name := by
      rintro name rfl
      rw [endsWith_fileOf] at hend
      cases hend
    refine ⟨s, rfl, h.site_eq, fun name => ?_⟩
    rw [filesAt_concat_of_ne (hne name), h.known_eq]
  | true =>
    obtain ⟨name, rfl⟩ : ∃ name, fileOf name = file := ⟨_, fileOf_dropEnd hend⟩
    have hname : Text.dropEnd 3 (fileOf name) = name := fileOf_injective (fileOf_dropEnd hend)
    have hfiles := filesAt_concat_self places dir name
    dsimp only
    rw [hname, h.known_eq]
    by_cases hnone : filesAt places name = []
    · -- The first file of its name.
      rw [hnone, if_neg List.not_mem_nil, List.nil_append] at hfiles
      rw [if_pos hnone]
      exact ⟨_, rfl, h.set hfiles.symm (by simp)⟩
    · rw [if_neg hnone]
      dsimp only
      by_cases hmem : Path.join dir (fileOf name) ∈ filesAt places name
      · -- The file is known already.
        rw [if_pos hmem] at hfiles
        rw [List.contains_iff_mem.mpr hmem]
        refine ⟨s, rfl, h.site_eq, fun other => ?_⟩
        by_cases hother : other = name
        · subst hother
          rw [hfiles, h.known_eq]
        · rw [filesAt_concat_of_ne fun heq => hother (fileOf_injective heq).symm, h.known_eq]
      · rw [if_neg hmem] at hfiles
        rw [Bool.eq_false_iff.mpr fun hc => hmem (List.contains_iff_mem.mp hc)]
        exact ⟨_, Settings.outcome_debug_bind _ _ _, h.set hfiles.symm (by simp)⟩

/-- What steps add one after the other. -/
theorem foldlM {step : Search → String → Logged Search} {add : String → List (String × String)}
    (hstep : ∀ (s : Search) places, Knows s site places → ∀ x,
      ∃ s', (step s x).outcome = .ok s' ∧ Knows s' site (places ++ add x))
    (h : Knows s site places) (xs : List String) :
    ∃ s', (xs.foldlM step s).outcome = .ok s' ∧ Knows s' site (places ++ xs.flatMap add) := by
  induction xs generalizing s places with
  | nil => exact ⟨s, rfl, by rwa [List.flatMap_nil, List.append_nil]⟩
  | cons x xs ih =>
    obtain ⟨s₁, hs₁, hknows₁⟩ := hstep s places h x
    obtain ⟨s₂, hs₂, hknows₂⟩ := ih hknows₁
    refine ⟨s₂, ?_, by rwa [List.flatMap_cons, ← List.append_assoc]⟩
    rw [List.foldlM_cons]
    exact Logged.outcome_bind_eq_ok_iff.mpr ⟨s₁, hs₁, hs₂⟩

end Knows

/-- The places of a directory. -/
def placesIn (tree : FileTree) (dir : String) : List (String × String) :=
  if dir == "" || !tree.isDir dir then [] else (tree.list dir).map (dir, ·)

namespace Knows

/-- **One more directory.** -/
theorem addDir (h : Knows s site places) (dir : String) :
    ∃ s', (s.addDir dir).outcome = .ok s' ∧ Knows s' site (places ++ placesIn site.tree dir) := by
  unfold Search.addDir placesIn
  rw [h.site_eq]
  split
  · exact ⟨s, rfl, by rwa [List.append_nil]⟩
  · rw [Settings.outcome_debug_bind]
    have hfiles := h.foldlM (fun s places h file => h.addFile dir file) (site.tree.list dir)
    rwa [← List.map_eq_flatMap] at hfiles

/-- Adding a path of directories notes their files, directory by directory. -/
theorem addPath (h : Knows s site places) (hwindows : site.windows = false) (path : String) :
    ∃ s', (s.addPath path).outcome = .ok s' ∧
      Knows s' site (places ++ (Text.split ':' path).flatMap (placesIn site.tree)) := by
  unfold Search.addPath
  rw [h.site_eq, hwindows]
  split
  · next hempty =>
    rw [eq_of_beq hempty]
    exact ⟨s, rfl,
      by rwa [show (Text.split ':' "").flatMap (placesIn site.tree) = [] from rfl, List.append_nil]⟩
  · exact h.foldlM (fun s places h dir => h.addDir dir) _

end Knows

/-! ## Files in the order of the directories -/

theorem nodup_list (tree : FileTree) (dir : String) : (tree.list dir).Nodup :=
  Text.nodup_sort.mpr (Text.nodup_eraseDups _)

/-- A directory holds one file for a name at most. -/
theorem filter_placesIn (tree : FileTree) (dir name : String) :
    ((placesIn tree dir).filter (·.2 == fileOf name)).map (fun e => Path.join e.1 e.2) =
      if offers tree (fileOf name) dir then [Path.join dir (fileOf name)] else [] := by
  have hfiles : (tree.list dir).filter (· == fileOf name) =
      if (tree.list dir).contains (fileOf name) then [fileOf name] else [] := by
    rw [List.filter_beq]
    split
    · next hmem =>
        rw [List.count_eq_one_of_mem (nodup_list tree dir) (List.contains_iff_mem.mp hmem),
          List.replicate_one]
    · next hmem =>
        rw [List.count_eq_zero.mpr fun hc => hmem (List.contains_iff_mem.mpr hc), List.replicate_zero]
  have hpairs : ((tree.list dir).map (dir, ·)).filter (·.2 == fileOf name) =
      ((tree.list dir).filter (· == fileOf name)).map (dir, ·) := List.filter_map
  unfold placesIn offers
  by_cases hdir : (dir == "" || !tree.isDir dir) = true
  · have hno : (dir != "" && tree.isDir dir) = false := by
      rcases Bool.or_eq_true_iff.mp hdir with hempty | hmissing
      · rw [eq_of_beq hempty]
        rfl
      · rw [(Bool.not_eq_true' _).mp hmissing, Bool.and_false]
    rw [if_pos hdir, hno]
    rfl
  · have hyes : (dir != "" && tree.isDir dir) = true := by
      rw [Bool.or_eq_true, not_or] at hdir
      simpa using hdir
    rw [if_neg hdir, hyes, Bool.true_and, hpairs, hfiles]
    split <;> rfl

/-- The files at all places of the directories are those that the directories hold. -/
theorem filesAt_flatMap (tree : FileTree) (dirs : List String) (name : String) :
    filesAt (dirs.flatMap (placesIn tree)) name = filesIn tree dirs name := by
  unfold filesAt filesIn
  congr 1
  induction dirs with
  | nil => rfl
  | cons dir dirs ih =>
    rw [List.flatMap_cons, List.filter_append, List.map_append, ih, filter_placesIn, List.filter_cons]
    split <;> rfl

/-! ## Starting a search -/

/-- **The candidates of a search are those that its path offers.** -/
theorem Knows.candidates_eq {path : SearchPath}
    (h : Knows s site ((path.dirs site).flatMap (placesIn site.tree))) (name : String) :
    s.candidates name = offered site path name := by
  have hknown : ∀ name, s.known.get? name = if filesIn site.tree (path.dirs site) name = [] then none
      else some (filesIn site.tree (path.dirs site) name) := by
    intro name
    rw [h.known_eq, filesAt_flatMap]
  have hgetD : ∀ name, (s.known.get? name).getD [] = filesIn site.tree (path.dirs site) name := by
    intro name
    rw [hknown]
    split
    · next hnil => exact hnil.symm
    · rfl
  unfold Search.candidates offered Search.knownFor
  dsimp only
  rw [h.site_eq, hgetD, hknown]
  by_cases hbuilt : filesIn site.tree (path.dirs site) (name ++ "-uninstalled") = [] <;>
    cases site.settings.isOn "prefer_uninstalled" <;> simp [hbuilt]

/-- **A search can be started, and its candidates are those that its path offers.** -/
theorem exists_start (path : SearchPath) (hwindows : site.windows = false) :
    ∃ s, (Search.start site path).outcome = .ok s ∧ s.site = site ∧
      ∀ name, s.candidates name = offered site path name := by
  have hnone : Knows { site } site [] := ⟨rfl, fun _ => rfl⟩
  obtain ⟨s₁, hs₁, hknows₁⟩ := hnone.addPath hwindows (path.environment.getD "PKG_CONFIG_PATH" "")
  obtain ⟨s₂, hs₂, hknows₂⟩ := hknows₁.addPath hwindows (path.environment.getD "PKG_CONFIG_LIBDIR" "")
  have hdirs : ∀ last, path.configured.filter (· != "") = last →
      (path.dirs site).flatMap (placesIn site.tree) =
      [] ++ (Text.split ':' (path.environment.getD "PKG_CONFIG_PATH" "")).flatMap (placesIn site.tree) ++
        (Text.split ':' (path.environment.getD "PKG_CONFIG_LIBDIR" "")).flatMap (placesIn site.tree) ++
        (last.elim (Search.toolDirs { site } path.toolPrefix) (Text.split ':')).flatMap
          (placesIn site.tree) := by
    rintro last rfl
    rw [SearchPath.dirs, List.flatMap_append, List.flatMap_append, List.nil_append]
  have hlast : ∃ s₃, (Search.start site path).outcome = .ok s₃ ∧
      Knows s₃ site ((path.dirs site).flatMap (placesIn site.tree)) := by
    unfold Search.start
    rw [Logged.outcome_bind, hs₁, Failure.ok_bind, Logged.outcome_bind, hs₂, Failure.ok_bind, hwindows]
    cases hconfigured : path.configured.filter (· != "") with
    | some configured =>
      rw [hdirs _ hconfigured]
      exact hknows₂.addPath hwindows configured
    | none =>
      have htools : s₂.toolDirs path.toolPrefix = Search.toolDirs { site } path.toolPrefix := by
        rw [Search.toolDirs, hknows₂.site_eq]
        rfl
      rw [hdirs _ hconfigured, ← htools]
      exact hknows₂.foldlM (fun s places h dir => h.addDir dir) _
  obtain ⟨s₃, hs₃, hknows₃⟩ := hlast
  exact ⟨s₃, hs₃, hknows₃.site_eq, hknows₃.candidates_eq⟩

end BuildMeta.Pkg
