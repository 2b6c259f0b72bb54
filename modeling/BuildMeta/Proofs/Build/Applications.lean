import BuildMeta.Build.Describe
import BuildMeta.Proofs.Build.Session
import BuildMeta.Proofs.BuildConfig.BuildOrder
import BuildMeta.Proofs.BuildConfig.Externals
import BuildMeta.Proofs.InstallConfig.Selection
import BuildMeta.Proofs.Repo.Loaded
import BuildMeta.Proofs.Text.Template
import Mathlib

/-!
# `Proofs.Build.Applications` — which executables are installed

The executable of an application package is described by one generator (`runFrom_addStandAlone`):
what is described before and after it adds no other one (`Adds`).  Where the executable is installed
is asked under the name of its main file, while units are selected under their own names.  The two
are the same for most packages (`Context.exists_main_of_load`), and `application_placed_iff` says
what happens otherwise.
-/

namespace BuildMeta.Build

/-! ## The applications that a build describes -/

/-- The executable of an application package, if an event hands one to the build tool. -/
def Event.application? : Event → Option Executable
  | .generator (.executable e) =>
    match e.role with
    | .application _ => some e
    | .testDriver => none
  | _ => none

/-- The executables of application packages that have been described so far. -/
def Session.applications (s : Session) : List Executable := s.events.filterMap Event.application?

/-- Only installations move in front of older events. -/
theorem Event.filterMap_application_push (e : Event) (es : List Event) :
    (push e es).reverse.filterMap application?
      = es.reverse.filterMap application? ++ (application? e).toList := by
  have hlast : ∀ (es : List Event) (e : Event), (e :: es).reverse.filterMap application?
      = es.reverse.filterMap application? ++ (application? e).toList := by
    intro es e
    rw [List.reverse_cons, List.filterMap_append]
    cases h : application? e <;> simp [h]
  induction es with
  | nil => exact hlast [] e
  | cons old rest ih =>
    unfold push
    split
    · split
      · exact hlast _ _
      · rw [hlast, hlast, ih]
        rfl
    · exact hlast _ _

namespace Describe

variable {x y : Step Unit} {s : Session} {es es' : List Executable} {p : Plan} {k : PackageConfig}

/-- A step that always succeeds, and describes the given applications. -/
def Adds (x : Step Unit) (es : List Executable) : Prop :=
  ∀ s, ∃ s', Step.runFrom s x = (.ok (), s') ∧ s'.applications = s.applications ++ es

theorem adds_pure : Adds (pure ()) [] := fun s => ⟨s, Step.runFrom_pure s (), (List.append_nil _).symm⟩

theorem Adds.bind (hx : Adds x es) (hy : Adds y es') : Adds (x >>= fun _ => y) (es ++ es') := by
  intro s
  obtain ⟨s₁, hrun, happs⟩ := hx s
  obtain ⟨s₂, hrun', happs'⟩ := hy s₁
  refine ⟨s₂, ?_, ?_⟩
  · rw [Step.runFrom_bind_of_ok hrun, hrun']
  · rw [happs', happs, List.append_assoc]

theorem adds_record (e : Event) : Adds (Step.record e) e.application?.toList := by
  intro s
  refine ⟨_, Step.runFrom_record s e, ?_⟩
  exact Event.filterMap_application_push e s.newest

theorem adds_forM {α : Type} {f : α → Step Unit} (h : ∀ a, Adds (f a) []) (as : List α) :
    Adds (as.forM f) [] := by
  induction as with
  | nil => exact adds_pure
  | cons a rest ih => exact (h a).bind ih

/-! ## Packages -/

theorem adds_addDums (p : Plan) (k : Package) : Adds (addDums p k) [] := by
  unfold addDums
  split
  · exact (adds_record _).bind (adds_record _)
  · exact adds_pure

/-- Test drivers are executables, but no applications. -/
theorem adds_addTests (p : Plan) (k : Package) : Adds (addTests p k) [] := by
  unfold addTests
  split
  · exact (adds_forM (fun c => adds_record _) _).bind (adds_record _)
  · exact adds_record _

theorem adds_addPackage (p : Plan) (k : Package) : Adds (addPackage p k) [] := by
  unfold addPackage
  refine (adds_addDums p k).bind ((adds_record _).bind ((adds_addTests p k).bind ?_))
  split
  · exact adds_record _
  · exact adds_pure

/-! ## pkg-config files -/

theorem exists_formatAll {template : Datum} (h : Text.TakesText template)
    (names : List (Option String)) :
    ∃ texts, PcFile.formatAll template names = .ok texts := by
  obtain ⟨front, back, rfl, hfront, hback⟩ := h
  exact Failure.exists_mapM fun name _ => ⟨_, Text.format_text hfront hback name⟩

/-- A pkg-config file can be written for a unit that has its documentation. -/
theorem exists_render_of_doc {f : PcFile} {doc : UnitDoc} (hdoc : f.doc = some doc) {lib inc : Datum}
    (hlib : Text.TakesText lib) (hinc : Text.TakesText inc) (place : String) :
    ∃ text, f.render place lib inc = .ok text := by
  obtain ⟨libs, hlibs⟩ := exists_formatAll hlib f.exportLibs
  obtain ⟨includes, hincludes⟩ := exists_formatAll hinc (f.extraIncludes.map some)
  unfold PcFile.render
  rw [hdoc]
  simp only [hlibs, hincludes, Failure.ok_bind]
  exact ⟨_, rfl⟩

/-- Placing a package file succeeds once its text can be written, and touches no application. -/
theorem runFrom_addPcFile {f : PcFile} {text : String}
    (h : f.render (s.vars.text "PREFIX") (s.vars.value "LIB_ST") (s.vars.value "CPPPATH_ST")
      = .ok text) :
    ∃ s', Step.runFrom s (addPcFile p f) = (.ok (), s') ∧ s'.applications = s.applications := by
  unfold addPcFile generate
  rw [Step.runFrom_bind_of_ok (Step.runFrom_record _ _), Step.runFrom_bind_of_ok (Step.runFrom_vars _),
    Step.runFrom_bind_of_ok ((Step.runFrom_liftM _ _).trans (by rw [h])), Step.runFrom_record]
  refine ⟨_, rfl, ?_⟩
  show (Event.push _ (Event.push _ s.newest)).reverse.filterMap Event.application? = _
  rw [Event.filterMap_application_push, Event.filterMap_application_push]
  simp [Event.application?, Session.applications, Session.events]

/-! ## Applications -/

/-- **An application package is described with one executable.** -/
theorem runFrom_addStandAlone (hkind : k.kind = .application) {text : String}
    (h : (pcFile p k.name k.doc k.version k.deps k.externalDeps k.flags).render (s.vars.text "PREFIX")
      (s.vars.value "LIB_ST") (s.vars.value "CPPPATH_ST") = .ok text) :
    ∃ s', Step.runFrom s (addStandAlone p k) = (.ok (), s') ∧
      s'.applications = s.applications ++ [application p k] := by
  obtain ⟨s₁, hpc, happs⟩ := runFrom_addPcFile (p := p) h
  unfold addStandAlone
  rw [Step.runFrom_bind_of_ok hpc, hkind, ← happs]
  exact (adds_addPackage _ _).bind ((adds_record _).bind (adds_record _)) s₁

theorem isSome_binPath {c : InstallConfig} {unit : String} :
    (c.binPath unit).isSome = true ↔ c.installsBins = true ∧ c.installs unit = true := by
  rw [← Bool.and_eq_true_iff]
  unfold InstallConfig.binPath InstallConfig.placed
  split
  · next h => simp [h]
  · next h => simp [h]

/-- **The executable of an application is installed with the unit that has the name of its main
    file.**  So it is installed with the application exactly if that unit is selected just when the
    application is, as with every main file that has the name of the package. -/
theorem application_placed_iff {tree : FileTree} {verbose withDeps : Bool}
    {root targets part name : String} {c : Context} {settings : BuildConfig.Plan}
    {defaults : List Rule} {before after : InstallConfig}
    (hload : (Context.load tree verbose root).outcome = .ok c)
    (hmake : (BuildConfig.make settings c defaults).outcome = .ok p.config)
    (hselect : (InstallConfig.select targets withDeps p.config.releaseGraph).on before
      = (.ok (), after)) (hinstall : p.install = withPart after part) (hk :
      p.config.standAlones.get? name = some k)
    (hkind : k.kind = .application) (hlib : Text.TakesText (s.vars.value "LIB_ST"))
    (hinc : Text.TakesText (s.vars.value "CPPPATH_ST")) :
    ∃ s' e main place, Step.runFrom s (addStandAlone p k) = (.ok (), s') ∧
      s'.applications = s.applications ++ [e] ∧ e.name = appTarget name ∧ e.role = .application place ∧
      Context.MainOf tree k.path name main ∧
      (place.isSome = true ↔ p.install.installsBins = true ∧ p.install.installs main = true) ∧
      ((place.isSome = true ↔ p.install.installsBins = true ∧ p.install.installs name = true) ↔
        (p.install.installsBins = true →
          (InstallConfig.Wanted targets withDeps p.config.releaseGraph main ↔
          InstallConfig.Wanted targets withDeps p.config.releaseGraph name))) := by
  have hapart := (Context.surveyed_of_load hload).membersApart
  obtain ⟨u, _, _, _, hu, rfl⟩ := BuildConfig.exists_packageEntry hapart hmake hk
  obtain rfl : u.name = name := Context.named_releases hu
  obtain ⟨doc, hdoc⟩ := Context.exists_doc_of_load hload hu
  obtain ⟨main, hmain, hnamed⟩ := Context.exists_main_of_load hload (Context.get?_releases.mp hu).1 hkind
  have hwanted : ∀ n, p.install.installs n = true ↔
      InstallConfig.Wanted targets withDeps p.config.releaseGraph n := by
    intro n
    rw [hinstall]
    exact InstallConfig.installs_iff_wanted hselect n
  obtain ⟨text, htext⟩ :=
    exists_render_of_doc (f := pcFile p _ _ _ _ _ _) hdoc hlib hinc (s.vars.text "PREFIX")
  obtain ⟨s', hrun, happs⟩ := runFrom_addStandAlone hkind htext
  have hplace : (p.install.binPath main).isSome = true ↔
      p.install.installsBins = true ∧ p.install.installs main = true := isSome_binPath
  refine ⟨s', _, main, p.install.binPath main, hrun, happs, rfl, ?_, hnamed, hplace, ?_⟩
  · show ExecutableRole.application (p.install.binPath (u.appMain.getD "")) = _
    rw [hmain, Option.getD_some]
  · rw [hplace, and_congr_right_iff, hwanted, hwanted]

/-! ## Two applications -/

open BuildConfig

/-- The files of a repository with two applications; one of them has a main file with the short name. -/
def deskTree : FileTree where
  files := .ofList [("/r/.bdelayoutconfig", "\x7b\"app_package_dirs\": [\"a\", \"b\"]\x7d"),
    ("/r/a/m_edit/package/m_edit.mem", ""), ("/r/a/m_edit/m_edit.m.cpp", ""),
    ("/r/b/m_draw/package/m_draw.mem", ""), ("/r/b/m_draw/draw.m.cpp", "")]
  dirs :=
    ["/", "/r", "/r/a", "/r/a/m_edit", "/r/a/m_edit/package", "/r/b", "/r/b/m_draw",
      "/r/b/m_draw/package"]

/-- The application with a main file of its own name. -/
def deskEdit : SourceUnit :=
  { name := "m_edit", path := "/r/a/m_edit", kind := .application, appMain := some "m_edit",
    doc := some ⟨"m_edit", "N/A"⟩ }

/-- The application with a main file of the short name. -/
def deskDraw : SourceUnit :=
  { name := "m_draw", path := "/r/b/m_draw", kind := .application, appMain := some "draw",
    doc := some ⟨"m_draw", "N/A"⟩ }

/-- The context of the two applications. -/
def desk : Context := ((Context.empty "/r").put deskEdit).put deskDraw

theorem load_desk : (Context.load deskTree false "/r").outcome = .ok desk :=
  Context.eq_ok_of_parts (by decide +kernel)

/-- The packages of the desk can be configured, so both of them have an entry to be placed. -/
theorem make_desk : ∃ config edit draw, (make plainPlan desk emptyFlagRules).outcome = .ok config ∧
    config.standAlones.get? "m_edit" = some edit ∧ config.standAlones.get? "m_draw" = some draw := by
  have hfree : WithoutCommands desk emptyFlagRules :=
    withoutCommands_of_entries (by decide +kernel) (by decide +kernel)
  obtain ⟨config₀, hstart⟩ := exists_start_plain hfree
  have hf₀ := faithful_start hstart
  have hedit : deskEdit ∈ configurable desk := List.mem_cons_self
  have hdraw : deskDraw ∈ configurable desk := List.mem_cons_of_mem _ List.mem_cons_self
  obtain ⟨config₁, hstep₁, _, halone₁⟩ := addRelease_plain hfree hf₀ hedit
    (show desk.releaseGraph.levelsFrom (desk.releaseGraph.children deskEdit.name) = .ok [] by cbv)
      rfl rfl rfl rfl
    [("M_EDIT_LOCN", "/r/a/m_edit")] (Table.ext (by decide +kernel)) (by cbv) (by decide +kernel)
      (by cbv)
  have hf₁ := hf₀.step (SameUnits.refl _) hedit hstep₁
  obtain ⟨config₂, hstep₂, _, halone₂⟩ := addRelease_plain hfree hf₁ hdraw
    (show desk.releaseGraph.levelsFrom (desk.releaseGraph.children deskDraw.name) = .ok [] by cbv)
      rfl rfl rfl rfl
    [("M_DRAW_LOCN", "/r/b/m_draw")] (Table.ext (by decide +kernel)) (by cbv) (by decide +kernel)
      (by cbv)
  obtain ⟨edit, hentry₁, _⟩ := halone₁ (by decide)
  obtain ⟨draw, hentry₂, _⟩ := halone₂ (by decide)
  have hrun :
      Run plainPlan desk.releaseGraph (optionsWith []) [deskEdit, deskDraw] desk.units config₀ desk.units
      config₂ := .step hstep₁ (.step hstep₂ (.done _ _))
  refine ⟨_, edit, draw, make_ok.mpr ⟨_, _, _, _, hstart, hrun, rfl⟩, ?_, ?_⟩
  · show config₂.standAlones.get? "m_edit" = some edit
    rw [hentry₂, hentry₁, Table.get?_set_of_ne _ _ (by decide)]
    exact Table.get?_set_self _ _ _
  · show config₂.standAlones.get? "m_draw" = some draw
    rw [hentry₂]
    exact Table.get?_set_self _ _ _

/-- An installation of one unit, with all its parts. -/
def deskInstall (target : String) : InstallConfig :=
  withPart { InstallConfig.make {} false false "lib" "bin" "" with selected := [target] } "all"

/-- The plan to install one of the applications. -/
def deskPlan (config : BuildConfig) (target : String) : Plan :=
  { config, install := deskInstall target, runsTests := false, buildsTests := false }

/-- A build that knows the flags of its compiler. -/
def deskSession : Session :=
  { vars := (Variables.put ∅ "LIB_ST" (.str "-l%s")).put "CPPPATH_ST" (.str "-I%s"), environment := ∅ }

theorem takesText_desk : Text.TakesText (deskSession.vars.value "LIB_ST") ∧
    Text.TakesText (deskSession.vars.value "CPPPATH_ST") :=
  ⟨⟨"-l", "", rfl, by decide, by decide⟩, ⟨"-I", "", rfl, by decide, by decide⟩⟩

/-- The application that has a main file of its own name is installed when it is selected. -/
theorem application_placed_edit : ∃ config k s' e place,
    (make plainPlan desk emptyFlagRules).outcome = .ok config ∧
    config.standAlones.get? "m_edit" = some k ∧
    Step.runFrom deskSession (addStandAlone (deskPlan config "m_edit") k) = (.ok (), s') ∧
    s'.applications = [e] ∧ e.name = "m_edit_app" ∧ e.role = .application place ∧
    place.isSome = true := by
  obtain ⟨config, k, _, hmake, hk, _⟩ := make_desk
  have hknown : ∀ t ∈ Text.split ',' "m_edit", t ∈ config.releaseGraph.keys := by
    intro t ht
    obtain rfl := List.mem_singleton.mp ht
    exact mem_keys_releaseGraph.mpr (Or.inl (Table.mem_keys_of_get? hk))
  have hselect :=
    InstallConfig.select_targets (InstallConfig.make {} false false "lib" "bin" "") (by decide) hknown
  obtain ⟨u, _, _, _, hu, hentry⟩ :=
    exists_packageEntry (Context.surveyed_of_load load_desk).membersApart hmake hk
  obtain rfl : deskEdit = u := Option.some.inj hu
  have hkind : k.kind = .application := by rw [hentry]; rfl
  obtain ⟨s', e, main, place, hrun, happs, hname, hrole, hmain, hplace, _⟩ :=
    application_placed_iff (p := deskPlan config "m_edit") load_desk hmake hselect rfl hk hkind
      takesText_desk.1
      takesText_desk.2
  refine ⟨config, k, s', e, place, hmake, hk, hrun, happs, hname, hrole, hplace.mpr ⟨rfl, ?_⟩⟩
  cases hmain with
  | whole => rfl
  | short _ _ hnone _ =>
    rw [hentry] at hnone
    have hfile : deskTree.isFile (Path.join deskEdit.path ("m_edit" ++ ".m.cpp")) = true := by
      decide +kernel
    cases hfile.symm.trans hnone

/-- The other application is selected, and its executable is not installed. -/
theorem application_left_out : ∃ config k s' e,
    (make plainPlan desk emptyFlagRules).outcome = .ok config ∧
    config.standAlones.get? "m_draw" = some k ∧
    Step.runFrom deskSession (addStandAlone (deskPlan config "m_draw") k) = (.ok (), s') ∧
    s'.applications = [e] ∧ e.name = "m_draw_app" ∧ e.role = .application none ∧
    (deskInstall "m_draw").installsBins = true ∧ (deskInstall "m_draw").installs "m_draw" = true := by
  obtain ⟨config, _, k, hmake, _, hk⟩ := make_desk
  obtain ⟨u, _, _, _, hu, rfl⟩ :=
    exists_packageEntry (Context.surveyed_of_load load_desk).membersApart hmake hk
  obtain rfl : deskDraw = u := Option.some.inj hu
  obtain ⟨text, htext⟩ := exists_render_of_doc (f := pcFile (deskPlan config "m_draw") _ _ _ _ _ _) rfl
    takesText_desk.1 takesText_desk.2 (deskSession.vars.text "PREFIX")
  obtain ⟨s', hrun, happs⟩ := runFrom_addStandAlone (k := packageEntry _ deskDraw _ _) rfl htext
  exact ⟨config, _, s', _, hmake, hk, hrun, happs, rfl, rfl, rfl, rfl⟩

end Describe

end BuildMeta.Build
