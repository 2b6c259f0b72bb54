import BuildMeta.Proofs.EnvCommand.Settings
import BuildMeta.Proofs.Host.InstallDir
import BuildMeta.Proofs.Outcome
import BuildMeta.Proofs.Path.Joining
import BuildMeta.Proofs.Text.Plain

/-!
# `Proofs.EnvCommand.KeptPrefix` — the installation directory across runs

A run with an installation directory prints where it installs, and a later run looks for the
directory in what the first one has printed.  It looks for a slash before the name of the platform.
So it depends on how the machine writes paths whether the directory is found again: with slashes it
always is, and with backslashes only if the directory itself ends with a slash behind its drive
(`Path.Style.Slashes`).

* `earlierDir?_join` — where a slash is written, the directory is found again, up to the slash at
  its end;
* `sameOut_run` — that slash makes no difference to what is printed;
* `slashes_of_exports` — where none is written, the later run does not print the place in the directory;
* `settings_kept_iff` — so a run without a directory prints the settings of a run with it exactly then.
-/

namespace BuildMeta

/-! ## Equal output -/

namespace Logged

variable {α β : Type} {x y : Logged α} {f g : α → Logged β}

/-- Two runs end alike, and print the same on the output stream. -/
structure SameOut (x y : Logged α) : Prop where
  outcome : x.outcome = y.outcome
  printed : x.notices.filter (·.channel == .out) = y.notices.filter (·.channel == .out)

theorem SameOut.refl (x : Logged α) : SameOut x x := ⟨rfl, rfl⟩

/-- Steps that print the same are followed by steps that do.  This carries the comparison through a
    whole run. -/
theorem SameOut.bind (h : SameOut x y) (hf : ∀ a, x.outcome = .ok a → SameOut (f a) (g a)) :
    SameOut (x >>= f) (y >>= g) := by
  have houtcome := h.outcome
  cases hx : x.outcome with
  | error e =>
    rw [bind_of_error hx, bind_of_error (houtcome ▸ hx)]
    exact ⟨rfl, h.printed⟩
  | ok a =>
    have hy : y.outcome = .ok a := houtcome ▸ hx
    have hrest := hf a hx
    refine ⟨?_, ?_⟩
    · rw [outcome_bind, outcome_bind, hx, hy]
      exact hrest.outcome
    · rw [notices_bind_of_ok hx, notices_bind_of_ok hy, List.filter_append, List.filter_append,
        h.printed, hrest.printed]

theorem SameOut.written (h : SameOut x y) :
    Notice.written .out x.notices = Notice.written .out y.notices := by
  rw [Notice.written, Notice.written, h.printed]

end Logged

namespace EnvCommand

open CommandLine

variable {h : Host} {environment : Table String} {tree : FileTree} {options options' : Table Datum}
  {p : String}

theorem prints_iff_of_sameOut {α : Type} {x y : Logged α} (hxy : x.SameOut y) (line : String) :
    Prints x line ↔ Prints y line := by
  have hmem (z : Logged α) : Prints z line ↔
      Notice.out (line ++ "\n") ∈ z.notices.filter (·.channel == .out) := by
    rw [List.mem_filter]
    exact ⟨fun hz => ⟨hz, rfl⟩, fun hz => hz.1⟩
  rw [hmem x, hmem y, hxy.printed]

/-! ## What the installation directory has no influence on -/

/-- Two tables of options differ in the installation directory only. -/
def SameButDir (options options' : Table Datum) : Prop :=
  ∀ key, key ≠ "install_dir" → options.get? key = options'.get? key

theorem SameButDir.getD (hsame : SameButDir options options') {key : String}
    (hkey : key ≠ "install_dir") (d : Datum) :
    options.getD key d = options'.getD key d := by
  rw [Table.getD, Table.getD, hsame key hkey]

theorem SameButDir.set (hsame : SameButDir options options') (key : String) (value : Datum) :
    SameButDir (options.set key value) (options'.set key value) := by
  intro other hother
  rw [Table.get?_set, Table.get?_set, hsame other hother]

/-- The flavour follows from other options. -/
theorem SameButDir.ofOptions (hsame : SameButDir options options') :
    Ufid.ofOptions options = Ufid.ofOptions options' := by
  have hchoices : (Ufid.choices.mapM fun e => Ufid.choice options e.1 e.2) =
      Ufid.choices.mapM fun e => Ufid.choice options' e.1 e.2 := by
    refine Failure.mapM_congr ?_
    intro e he
    have hkeys : ∀ e ∈ Ufid.choices, e.1 ≠ "install_dir" := by decide
    rw [Ufid.choice, Ufid.choice, hsame e.1 (hkeys e he)]
  unfold Ufid.ofOptions
  rw [hsame "ufid" (by decide), hchoices]

theorem getD_of_prefix_set {key : String} (hkey : key ≠ "PREFIX") (path d : String) :
    (environment.set "PREFIX" path).getD key d = environment.getD key d := by
  rw [Table.getD, Table.getD, Table.get?_set_of_ne _ _ hkey]

/-- The compilers of a machine do not depend on what was installed before. -/
theorem compilers_of_prefix_set (path : String) :
    compilers h (environment.set "PREFIX" path) tree = compilers h environment tree := by
  unfold compilers configPath home
  rw [getD_of_prefix_set (by decide), getD_of_prefix_set (by decide)]

variable {c : CompilerInfo} {dir path id : String} {line line' : Parsed}

/-! ## Names of platforms -/

/-- The name of a platform begins with that of the machine. -/
theorem toList_render_withCompiler (bare : Uplid) (c : CompilerInfo) :
    ∃ rest, (withCompiler bare c).render.toList = bare.machine.toList ++ '-' :: rest := by
  refine ⟨(Text.join "-" [c.kind.strD, c.version.strD]).toList, ?_⟩
  simp [Uplid.render, Uplid.machine, withCompiler, Uplid.parts, Text.toList_join_cons_cons,
    Text.toList_join_singleton]

variable {bare : Uplid}

/-- Under a shell for Windows the platform is one of Windows. -/
theorem osType_of_cygwinUplid (hbare : h.cygwinUplid = .ok bare) : bare.osType = "windows" := by
  unfold Host.cygwinUplid at hbare
  dsimp only at hbare
  split at hbare
  · obtain ⟨greeting, _, hbare⟩ := Failure.bind_eq_ok_iff.mp hbare
    split at hbare
    · cases hbare
    · cases hbare
      rfl
  · cases hbare

/-- There are two types of platforms that a host describes. -/
theorem osType_of_uplid (hbare : h.uplid = .ok bare) :
    bare.osType = "unix" ∨ bare.osType = "windows" := by
  unfold Host.uplid at hbare
  dsimp only at hbare
  split at hbare
  case h_2 | h_3 =>
    obtain ⟨_, _, hbare⟩ := Failure.bind_eq_ok_iff.mp hbare
    cases hbare
    exact Or.inl rfl
  case h_5 =>
    cases hbare
    exact Or.inr rfl
  case h_7 => cases hbare
  all_goals
    cases hbare
    exact Or.inl rfl

theorem osType_of_seenUplid (hbare : h.seenUplid = .ok bare) :
    bare.osType = "unix" ∨ bare.osType = "windows" := by
  unfold Host.seenUplid at hbare
  split at hbare
  · exact Or.inr (osType_of_cygwinUplid hbare)
  · exact osType_of_uplid hbare

/-- The name of a machine begins with two letters. -/
theorem exists_machine (hbare : h.seenUplid = .ok bare) :
    ∃ a b rest, bare.machine.toList = a :: b :: rest ∧ Path.Windows.isSeparator a = false ∧
      a ≠ '.' ∧ b ≠ ':' := by
  have hmachine : bare.machine.toList =
      bare.osType.toList
        ++ '-' :: (Text.join "-" [bare.osName, bare.cpuType, bare.osVersion]).toList := by
    simp [Uplid.machine, Uplid.parts, Text.toList_join_cons_cons, Text.toList_join_singleton]
  rcases osType_of_seenUplid hbare with hos | hos
  · rw [hos] at hmachine
    exact ⟨'u', 'n', _, hmachine, by decide, by decide, by decide⟩
  · rw [hos] at hmachine
    exact ⟨'w', 'i', _, hmachine, by decide, by decide, by decide⟩

theorem isName_of_seenUplid (hbare : h.seenUplid = .ok bare) (c : CompilerInfo) (ufid : String) :
    Path.IsName ((withCompiler bare c).render ++ "-" ++ ufid) := by
  obtain ⟨a, b, rest, hmachine, ha, _, hb⟩ := exists_machine hbare
  obtain ⟨more, hrender⟩ := toList_render_withCompiler bare c
  refine ⟨a, b, rest ++ '-' :: more ++ '-' :: ufid.toList, ?_, ha, hb⟩
  rw [String.toList_append, String.toList_append, hrender, hmachine]
  simp

/-! ## Equal settings -/

/-- On this machine the environment leads back to the directory, whatever the compiler is. -/
structure LeadsBack (h : Host) (environment : Table String) (dir : String) : Prop where
  dir_ne : dir ≠ ""
  slashes : h.paths.Slashes dir
  found : ∀ bare c, h.seenUplid = .ok bare →
    earlierDir? environment (withCompiler bare c) = .ok (some (h.paths.closed dir))

/-- A slash at the end of an installation directory is told to the user and makes no other difference. -/
theorem sameOut_exportInstallation (hback : LeadsBack h (environment.set "PREFIX" path) dir)
    (hid : Path.IsName id) :
    (exportInstallation h (environment.set "PREFIX" path) (h.paths.closed dir) id).SameOut
      (exportInstallation h environment dir id) := by
  have hpath : installPath h (h.paths.closed dir) id = installPath h dir id := by
    rw [installPath, installPath, Path.Style.join_of_isName _ _ hid, Path.Style.join_of_isName _ _ hid,
      hback.slashes.closed_closed hback.dir_ne]
  unfold exportInstallation
  rw [hpath, getD_of_prefix_set (by decide)]
  exact Logged.SameOut.bind ⟨rfl, rfl⟩ fun _ _ => Logged.SameOut.refl _

/-- The settings for one compiler: a run that finds its directory in the environment prints what a
    run prints that is given it. -/
theorem sameOut_exportAll (hback : LeadsBack h (environment.set "PREFIX" path) dir)
    (hsame : SameButDir options options') (hasked : askedDir? options = none)
    (hasked' : askedDir? options' = some dir) :
    (exportAll h (environment.set "PREFIX" path) options c).SameOut
      (exportAll h environment options' c) := by
  unfold exportAll usedDir?
  rw [hsame.ofOptions, hasked, hasked']
  refine Logged.SameOut.bind (.refl _) ?_
  intro ufid _
  refine Logged.SameOut.bind (.refl _) ?_
  intro bare hbare
  refine Logged.SameOut.bind (.refl _) ?_
  intro described _
  refine Logged.SameOut.bind (.refl _) ?_
  intro _ _
  refine Logged.SameOut.bind (.refl _) ?_
  intro _ _
  refine Logged.SameOut.bind (.refl _) ?_
  intro _ _
  -- So far the runs agree; now one finds the directory that the other is given.
  simp only [hback.found bare c hbare]
  exact sameOut_exportInstallation hback (isName_of_seenUplid hbare c _)

/-- The same for the compiler that the options choose, as both runs choose alike. -/
theorem sameOut_exportChosen (hback : LeadsBack h (environment.set "PREFIX" path) dir)
    (hsame : SameButDir options options') (hasked : askedDir? options = none)
    (hasked' : askedDir? options' = some dir) (all : List CompilerInfo) :
    (exportChosen h (environment.set "PREFIX" path) options all).SameOut
      (exportChosen h environment options' all) := by
  unfold exportChosen
  rw [hsame.getD (by decide)]
  refine Logged.SameOut.bind (.refl _) ?_
  intro c? _
  cases c? with
  | none => exact .refl _
  | some c =>
    unfold settingsFor
    rw [hsame.getD (by decide)]
    refine Logged.SameOut.bind (.refl _) ?_
    intro standard _
    refine Logged.SameOut.bind (sameOut_exportAll hback (hsame.set _ _) ?_ ?_) fun _ _ => .refl _
    · rwa [askedDir?_set_standard]
    · rwa [askedDir?_set_standard]

/-- The same for whichever command the words name. -/
theorem sameOut_perform (hback : LeadsBack h (environment.set "PREFIX" path) dir)
    (hwords : line'.words = line.words) (hsame : SameButDir line.values line'.values)
    (hasked : askedDir? line.values = none) (hasked' : askedDir? line'.values = some dir) :
    (perform h (environment.set "PREFIX" path) tree line).SameOut
      (perform h environment tree line') := by
  unfold perform
  rw [compilers_of_prefix_set, hwords]
  split
  · exact .refl _
  · dsimp only
    split
    · exact .refl _
    · split
      · refine Logged.SameOut.bind (.refl _) ?_
        intro all _
        split
        · exact .refl _
        · split
          · exact .refl _
          · exact sameOut_exportChosen hback hsame hasked hasked' all
      · exact .refl _

/-- **Two runs print the same** if the environment of the one leads back to the directory that the
    other is given. -/
theorem sameOut_run {words words' : List String}
    (hback : LeadsBack h (environment.set "PREFIX" path) dir)
    (hparse : (program h).parse words = pure line) (hparse' : (program h).parse words' = pure line')
    (hwords : line'.words = line.words) (hsame : SameButDir line.values line'.values)
    (hasked : askedDir? line.values = none) (hasked' : askedDir? line'.values = some dir) :
    (run h (environment.set "PREFIX" path) tree words).SameOut (run h environment tree words') := by
  have hstart :
      (start h (environment.set "PREFIX" path) tree words).SameOut
        (start h environment tree words') := by
    unfold start
    rw [hparse, hparse']
    split
    · exact .refl _
    · split
      · exact .refl _
      · exact sameOut_perform hback hwords hsame hasked hasked'
  unfold run concluded
  rw [hstart.outcome]
  split
  · split
    · refine ⟨rfl, ?_⟩
      rw [List.filter_append, List.filter_append, hstart.printed]
    · exact hstart
  · exact hstart

/-! ## Finding the directory again -/

/-- **The directory of an installation is found again** with any compiler, where it is closed by a
    slash. -/
theorem earlierDir?_join {style : Path.Style} (hslashes : style.Slashes dir) (hplain : bare.IsPlain)
    (hne : dir ≠ "") (hdir : '\n' ∉ dir.toList) {ufid : String}
    (hid : Path.IsName ((withCompiler bare c).render ++ "-" ++ ufid))
    (hname : '/' ∉ (withCompiler bare c).render.toList) (hflags : '/' ∉ ufid.toList)
    (later : Table String) (c' : CompilerInfo) :
    earlierDir? (later.set "PREFIX" (style.join dir ((withCompiler bare c).render ++ "-" ++ ufid)))
      (withCompiler bare c') = .ok (some (style.closed dir)) := by
  obtain ⟨front, hclosed, hfront⟩ := hslashes.exists_closed hne
  obtain ⟨rest, hrender⟩ := toList_render_withCompiler bare c
  have hpath : style.join dir ((withCompiler bare c).render ++ "-" ++ ufid)
      = String.ofList (front ++ '/' ::
      ((withCompiler bare c').machine.toList ++ ('-' :: rest ++ '-' :: ufid.toList))) := by
    have hmachine : (withCompiler bare c').machine = bare.machine := rfl
    rw [Path.Style.join_of_isName _ _ hid, ← String.toList_inj, String.toList_ofList,
      String.toList_append, String.toList_append, String.toList_append, hclosed, hrender, hmachine]
    simp
  have hback : '/' ∉ '-' :: rest ++ '-' :: ufid.toList := by
    rw [hrender] at hname
    simp only [List.mem_append, List.mem_cons, not_or] at hname ⊢
    exact ⟨hname.2, by decide, hflags⟩
  have hplain' : (withCompiler bare c').IsPlain := hplain
  have hfound := Host.installDir?_of_machine hplain' (fun hmem => hdir (hfront _ hmem)) hback
  have hdirText : String.ofList (front ++ ['/']) = style.closed dir := by
    rw [← hclosed, String.ofList_toList]
  have hclosed_ne : style.closed dir ≠ "" := by
    intro hempty
    rw [hempty] at hclosed
    simp at hclosed
  rw [earlierDir?, Table.get?_set_self, hpath]
  show (Host.installDir? _ _ >>= _) = _
  rw [hfound, hdirText]
  show Except.ok (Option.filter _ _) = _
  rw [Option.filter_some_pos (by simpa using hclosed_ne)]

section Runs

variable {x y : Logged Nat} {all : List CompilerInfo} {standard : Datum} (hcygwin : h.family ≠ "cygwin")
include hcygwin

/-- A run with an installation directory prints a place in it, and the names of which the place is
    made. -/
theorem place_of_exports (hasked : askedDir? options = some dir)
    (hexports : Exports x h environment all options c standard p) :
    ∃ bare ufid, h.seenUplid = .ok bare ∧ Ufid.ofOptions (options.set "cpp_std" standard) = .ok ufid ∧
      p = h.paths.join dir ((withCompiler bare c).render ++ "-" ++ ufid.render) ∧
      Prints x ("export BDE_WAF_UPLID=" ++ (withCompiler bare c).render) ∧
      Prints x ("export BDE_WAF_UFID=" ++ ufid.render) := by
  obtain ⟨ufid, bare, described, hufid, hbare, hdescribed, _⟩ := prints_exportAll_iff.mp hexports.place
  obtain ⟨ufid', bare', dir', hufid', hbare', hdir, hplace⟩ :=
    prefix_of_prints_exportAll hcygwin hexports.place
  obtain rfl : ufid' = ufid := Except.ok.inj (hufid'.symm.trans hufid)
  obtain rfl : bare' = bare := Except.ok.inj (hbare'.symm.trans hbare)
  obtain rfl : dir = dir' := by
    rw [usedDir?, askedDir?_set_standard, hasked] at hdir
    exact Option.some.inj (Except.ok.inj hdir)
  have hlines : ∀ text ∈ buildLines c (withCompiler bare' c) ufid'.render, Prints x text := by
    intro text hmem
    refine hexports.settings text (prints_exportAll_iff.mpr ?_)
    exact ⟨ufid', bare', described, hufid, hbare, hdescribed, Or.inl hmem⟩
  exact ⟨bare', ufid', hbare, hufid, hplace, hlines _ (by simp [buildLines]),
    hlines _ (by simp [buildLines])⟩

/-- **What a run has printed leads back to its installation directory**, if the directory is closed
    by a slash. -/
theorem leadsBack_of_exports (hplain : ∀ bare, h.uplid = .ok bare → bare.IsPlain)
    (hdir : '\n' ∉ dir.toList) (hslashes : h.paths.Slashes dir) (hasked : askedDir? options = some dir)
    (hexports : Exports x h environment all options c standard p)
    (huplid : ∀ text, Prints x ("export BDE_WAF_UPLID=" ++ text) → '/' ∉ text.toList)
    (hufid : ∀ text, Prints x ("export BDE_WAF_UFID=" ++ text) → '/' ∉ text.toList)
    (later : Table String) :
    LeadsBack h (later.set "PREFIX" p) dir := by
  obtain ⟨bare, ufid, hbare, _, hplace, hname, hflags⟩ := place_of_exports hcygwin hasked hexports
  have hseen : h.seenUplid = h.uplid := if_neg (by simpa using hcygwin)
  have hne : dir ≠ "" := by
    simpa using (Option.filter_eq_some_iff.mp hasked).2
  refine ⟨hne, hslashes, ?_⟩
  intro bare' c' hbare'
  obtain rfl : bare' = bare := Except.ok.inj (hbare'.symm.trans hbare)
  rw [hplace]
  exact earlierDir?_join hslashes (hplain bare' (hseen ▸ hbare)) hne hdir (isName_of_seenUplid hbare c _)
    (huplid _ hname) (hufid _ hflags) later c'

/-- **Only a slash leads back to the directory.**  If a run that has to find the directory prints
    the same place as one that is given it, the first run has printed a slash before the name of the
    platform. -/
theorem slashes_of_exports (hplain : ∀ bare, h.uplid = .ok bare → bare.IsPlain) {first : Logged Nat}
    {options₁ : Table Datum} {environment₁ : Table String} {all₁ : List CompilerInfo} {c₁ : CompilerInfo}
    {standard₁ : Datum} {q : String} (hasked₁ : askedDir? options₁ = some dir)
    (hfirst : Exports first h environment₁ all₁ options₁ c₁ standard₁ p)
    (hsame : SameButDir options options') (hasked : askedDir? options = none)
    (hasked' : askedDir? options' = some dir) {c' : CompilerInfo} {standard' : Datum}
    (hx : Exports x h (environment.set "PREFIX" p) all options c standard q)
    (hy : Exports y h environment all options' c' standard' q) : h.paths.Slashes dir := by
  obtain ⟨bare, ufid₁, hbare, _, hp, _, _⟩ := place_of_exports hcygwin hasked₁ hfirst
  -- Both later runs are for the same compiler, platform and flavour.
  obtain rfl : c = c' := by
    have hchosen := hx.isChosen
    rw [hsame.getD (by decide), hy.isChosen] at hchosen
    exact (Option.some.inj (Except.ok.inj hchosen)).symm
  obtain rfl : standard = standard' := by
    have hstandard := hx.isStandard
    rw [hsame.getD (by decide), hy.isStandard] at hstandard
    exact (Except.ok.inj hstandard).symm
  obtain ⟨bare', ufid, hbare', hufid, hq, _, _⟩ := place_of_exports hcygwin hasked' hy
  obtain ⟨ufid', bare'', dir', hufid', hbare'', hdir', hq'⟩ :=
    prefix_of_prints_exportAll hcygwin hx.place
  obtain rfl : bare' = bare := Except.ok.inj (hbare'.symm.trans hbare)
  obtain rfl : bare'' = bare' := Except.ok.inj (hbare''.symm.trans hbare)
  obtain rfl : ufid' = ufid := by
    rw [(hsame.set _ _).ofOptions, hufid] at hufid'
    exact (Except.ok.inj hufid').symm
  -- The directory that was found ends with a slash, and what follows it is the name of the machine.
  obtain ⟨found, hfound, hfilter⟩ : ∃ found, Host.installDir? p (withCompiler bare'' c) = .ok found ∧
      found.filter (· != "") = some dir' := by
    rw [usedDir?, askedDir?_set_standard, hasked, earlierDir?, Table.get?_set_self] at hdir'
    obtain ⟨found, hfound, hreturn⟩ := Failure.bind_eq_ok_iff.mp hdir'
    exact ⟨found, hfound, Except.ok.inj hreturn⟩
  obtain ⟨rfl, _⟩ := Option.filter_eq_some_iff.mp hfilter
  have hseen : h.seenUplid = h.uplid := if_neg (by simpa using hcygwin)
  have hplain' : (withCompiler bare'' c).IsPlain := hplain bare'' (hseen ▸ hbare)
  obtain ⟨a, b, rest, hmachine, hsep, hdot, _⟩ := exists_machine hbare
  obtain ⟨front, back, hslash, hnext⟩ := Host.of_installDir? hplain' hfound hmachine hdot
  have hback : a ≠ '\\' := by
    rintro rfl
    cases hsep
  rw [hp, Path.Style.join_of_isName _ _ (isName_of_seenUplid hbare c₁ _)] at hnext
  rw [hq, Path.Style.join_of_isName _ _ (isName_of_seenUplid hbare c _),
    Path.Style.join_of_isName _ _ (isName_of_seenUplid hbare c _)] at hq'
  exact Path.Style.slashes_of_closed_eq hslash ((String.append_left_inj _).mp hq') hnext hback

end Runs

/-- **When the installation directory is kept from one run to the next.**  A run with a directory
    prints where it installs.  A later run without a directory, in an environment that says this,
    prints the same settings as if the directory had been given again, whatever compiler and flavour
    it is for, if the machine writes a slash between the directory and the name of the platform.
    Where it writes none, the place in the directory is not printed. -/
theorem settings_kept_iff (h : Host) (hcygwin : h.family ≠ "cygwin")
    (hplain : ∀ bare, h.uplid = .ok bare → bare.IsPlain) {dir p : String} (hdir : '\n' ∉ dir.toList)
    -- The first run.
    {environment₁ : Table String} {tree₁ : FileTree} {words₁ : List String} {line₁ : Parsed}
    (hparse₁ : (program h).parse words₁ = pure line₁) (hasked₁ : askedDir? line₁.values = some dir)
    (huplid : ∀ text, Prints (run h environment₁ tree₁ words₁) ("export BDE_WAF_UPLID=" ++ text) →
      '/' ∉ text.toList)
    (hufid : ∀ text, Prints (run h environment₁ tree₁ words₁) ("export BDE_WAF_UFID=" ++ text) →
      '/' ∉ text.toList)
    (hprints : Prints (run h environment₁ tree₁ words₁) (prefixLine p))
    -- The second run, and one that differs from it in the installation directory only.
    (environment : Table String) (tree : FileTree) {words words' : List String} {line line' : Parsed}
    (hparse : (program h).parse words = pure line) (hparse' : (program h).parse words' = pure line')
    (hasked : askedDir? line.values = none) (hasked' : askedDir? line'.values = some dir)
    (hwords : line'.words = line.words) (hsame : SameButDir line.values line'.values) :
    (h.paths.Slashes dir →
      (run h (environment.set "PREFIX" p) tree words).outcome = (run h environment tree words').outcome ∧
      Notice.written .out (run h (environment.set "PREFIX" p) tree words).notices =
        Notice.written .out (run h environment tree words').notices) ∧
    ∀ q, Prints (run h environment tree words') (prefixLine q) →
      (Prints (run h (environment.set "PREFIX" p) tree words) (prefixLine q) ↔ h.paths.Slashes dir) := by
  obtain ⟨all₁, c₁, standard₁, _, hfirst⟩ := exports_run hparse₁ hprints
  have hrun : h.paths.Slashes dir →
      (run h (environment.set "PREFIX" p) tree words).SameOut (run h environment tree words') := by
    intro hslashes
    have hback : LeadsBack h (environment.set "PREFIX" p) dir :=
      leadsBack_of_exports hcygwin hplain hdir hslashes hasked₁ hfirst huplid hufid environment
    exact sameOut_run hback hparse hparse' hwords hsame hasked hasked'
  refine ⟨fun hslashes => ⟨(hrun hslashes).outcome, (hrun hslashes).written⟩, ?_⟩
  intro q hgiven
  refine ⟨?_, fun hslashes => (prints_iff_of_sameOut (hrun hslashes) _).mpr hgiven⟩
  intro hfound
  obtain ⟨all, c, standard, hall, hx⟩ := exports_run hparse hfound
  obtain ⟨all', c', standard', hall', hy⟩ := exports_run hparse' hgiven
  obtain rfl : all = all' := by
    rw [compilers_of_prefix_set] at hall
    exact Except.ok.inj (hall.symm.trans hall')
  exact slashes_of_exports hcygwin hplain hasked₁ hfirst hsame hasked hasked' hx hy

theorem sameButDir_set (options : Table Datum) (value : Datum) :
    SameButDir options (options.set "install_dir" value) := by
  intro key hkey
  exact (Table.get?_set_of_ne options value hkey).symm

/-- A machine on which paths are written with slashes. -/
def workstation : Host := { shell := fun _ => .ok "" }

/-- Two compilers are listed for the machine. -/
def workstationFiles : FileTree where
  files := Table.ofList [("/root/.bdecompilerconfig",
    "[\x7b\"uplid\":\"unix\",\"compilers\":[" ++
    "\x7b\"type\":\"gcc\",\"version\":\"5\",\"c_path\":\"\",\"cxx_path\":\"\"\x7d," ++
    "\x7b\"type\":\"xlc\",\"version\":\"8\",\"c_path\":\"\",\"cxx_path\":\"\"\x7d]\x7d]")]
  dirs := []

/-- A directory that is itself named for the platform. -/
def ownDir : String := "/opt//unix-linux-x86_64-3.2.0"

/-- The first run is for the default compiler, the second one for another compiler and another
    flavour. -/
theorem settings_kept_workstation :
    Prints (run workstation ∅ workstationFiles ["-i", ownDir, "-t", "dbg"])
      (prefixLine (ownDir ++ "/unix-linux-x86_64-3.2.0-gcc-5-dbg")) ∧
    workstation.paths.Slashes ownDir ∧
    Prints (run workstation (Table.set ∅ "PREFIX" (ownDir ++ "/unix-linux-x86_64-3.2.0-gcc-5-dbg"))
        workstationFiles ["-c", "xlc-8", "-t", "opt"])
      (prefixLine (ownDir ++ "/unix-linux-x86_64-3.2.0-xlc-8-opt")) := by
  have hnotices : (run workstation ∅ workstationFiles ["-i", ownDir, "-t", "dbg"]).notices =
      [.warn "Using configuration: /root/.bdecompilerconfig", .warn "Using compiler: gcc-5",
        .warn "Using ufid: dbg"] ++
      ["export BDE_WAF_UPLID=unix-linux-x86_64-3.2.0-gcc-5\n", "export BDE_WAF_UFID=dbg\n",
        "export BDE_WAF_BUILD_DIR=\"_build/unix-linux-x86_64-3.2.0-gcc-5-dbg\"\n",
        "export WAFLOCK=\".lock-waf-unix-linux-x86_64-3.2.0-gcc-5-dbg\"\n", "export CXX=\n",
        "export CC=\n", "unset BDE_WAF_COMP_FLAGS\n"].map .out ++
      [.warn ("Using install directory: " ++ ownDir),
        .out ("export PREFIX=\"" ++ ownDir ++ "/unix-linux-x86_64-3.2.0-gcc-5-dbg\"\n"),
        .out ("export PKG_CONFIG_PATH=\"" ++ ownDir
          ++ "/unix-linux-x86_64-3.2.0-gcc-5-dbg/lib/pkgconfig\"\n")] := by
    decide +kernel
  have hprints : Prints (run workstation ∅ workstationFiles ["-i", ownDir, "-t", "dbg"])
      (prefixLine (ownDir ++ "/unix-linux-x86_64-3.2.0-gcc-5-dbg")) := by
    unfold Prints
    rw [hnotices]
    refine List.mem_append_right _ (List.mem_cons_of_mem _ (List.mem_cons.mpr (Or.inl ?_)))
    exact congrArg Notice.out (by decide)
  have hgiven : Prints (run workstation ∅ workstationFiles ["-c", "xlc-8", "-t", "opt", "-i", ownDir])
      (prefixLine (ownDir ++ "/unix-linux-x86_64-3.2.0-xlc-8-opt")) := by
    decide +kernel
  have hnames : ∀ n ∈ (run workstation ∅ workstationFiles ["-i", ownDir, "-t", "dbg"]).notices,
      ∀ front ∈ ["export BDE_WAF_UPLID=", "export BDE_WAF_UFID="], front.toList <+: n.text.toList →
        '/' ∉ n.text.toList.drop front.toList.length := by
    rw [hnotices]
    decide +kernel
  have hplain : ∀ bare, workstation.uplid = .ok bare → bare.IsPlain := by
    intro bare hbare
    obtain rfl := Except.ok.inj hbare
    unfold Uplid.IsPlain
    decide
  let start : Table Datum := (program workstation).startValues
  let other : Table Datum := (start.set "compiler" (.str "xlc-8")).set "ufid" (.str "opt")
  let first : Table Datum := (start.set "install_dir" (.str ownDir)).set "ufid" (.str "dbg")
  have hparse₁ : (program workstation).parse ["-i", ownDir, "-t", "dbg"]
      = pure { values := first, words := [] } := rfl
  have hparse : (program workstation).parse ["-c", "xlc-8", "-t", "opt"]
      = pure { values := other, words := [] } := rfl
  have hparse' : (program workstation).parse ["-c", "xlc-8", "-t", "opt", "-i", ownDir]
      = pure { values := other.set "install_dir" (.str ownDir), words := [] } := rfl
  have hkept := settings_kept_iff workstation (by decide) hplain (by decide) hparse₁ rfl
    (not_mem_of_prints hnames (by decide)) (not_mem_of_prints hnames (by decide)) hprints
    ∅ workstationFiles hparse hparse' rfl rfl rfl (sameButDir_set _ _)
  exact ⟨hprints, trivial, (hkept.2 _ hgiven).mpr trivial⟩

/-- A machine with Windows and a shell of its own. -/
def mingw : Host :=
  { platform := "win32", version := "6.1.7601", paths := .windows,
    shell := fun _ => .ok "MINGW64_NT-6.1\n" }

/-- The environment after a run on it that was given a directory. -/
def mingwLater : Table String :=
  Table.set ∅ "PREFIX" "C:/opt\\windows-windows_nt-x86_64-6.1-cl-19.00-dbg"

/-- Behind a backslash the directory is not found again, and nothing is said about an installation. -/
theorem settings_lost_mingw :
    Prints (run mingw ∅ ⟨∅, []⟩ ["-i", "C:/opt", "-t", "dbg"])
      (prefixLine "C:/opt\\windows-windows_nt-x86_64-6.1-cl-19.00-dbg") ∧
    Prints (run mingw ∅ ⟨∅, []⟩ ["-c", "cl-18.00", "-t", "opt", "-i", "C:/opt"])
      (prefixLine "C:/opt\\windows-windows_nt-x86_64-6.1-cl-18.00-opt") ∧
    ∀ q, ¬ Prints (run mingw mingwLater ⟨∅, []⟩ ["-c", "cl-18.00", "-t", "opt"]) (prefixLine q) := by
  have hfirst : Prints (run mingw ∅ ⟨∅, []⟩ ["-i", "C:/opt", "-t", "dbg"])
      (prefixLine "C:/opt\\windows-windows_nt-x86_64-6.1-cl-19.00-dbg") := by
    decide +kernel
  have hgiven : Prints (run mingw ∅ ⟨∅, []⟩ ["-c", "cl-18.00", "-t", "opt", "-i", "C:/opt"])
      (prefixLine "C:/opt\\windows-windows_nt-x86_64-6.1-cl-18.00-opt") := by
    decide +kernel
  have hlater : ∀ n ∈ (run mingw mingwLater ⟨∅, []⟩ ["-c", "cl-18.00", "-t", "opt"]).notices,
      ¬ "export PREFIX=\"".toList <+: n.text.toList := by
    decide +kernel
  refine ⟨hfirst, hgiven, ?_⟩
  intro q hprints
  exact hlater _ hprints (front_append (front_prefixLine q) "\n")

end EnvCommand

end BuildMeta
