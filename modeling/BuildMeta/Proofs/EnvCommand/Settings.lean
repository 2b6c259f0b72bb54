import BuildMeta.EnvCommand
import Mathlib.Data.List.Infix

/-!
# `Proofs.EnvCommand.Settings` — the settings that a run prints

A run prints lines for a shell.  Only one step of it prints where a build is installed, and it
prints the names of which the place is made as well.

* `prints_exportAll_iff` — what is printed for a compiler;
* `prefix_of_prints_exportAll` — the place is that of the installation directory;
* `exports_run` — a run that prints a place prints all settings for the compiler that is chosen.
-/

namespace BuildMeta

namespace Logged

variable {α β : Type} {x : Logged α} {f : α → Logged β} {n : Notice}

/-- What two steps say is what the first says, and if it succeeds what the second says. -/
theorem mem_notices_bind_iff :
    n ∈ (x >>= f).notices ↔ n ∈ x.notices ∨ ∃ a, x.outcome = .ok a ∧ n ∈ (f a).notices := by
  cases h : x.outcome with
  | error e =>
    rw [bind_of_error h]
    simp
  | ok a =>
    rw [notices_bind_of_ok h, List.mem_append]
    simp

end Logged

namespace EnvCommand

open CommandLine

variable {α : Type} {x : Logged α} {h : Host} {environment : Table String} {tree : FileTree}
  {options : Table Datum} {c : CompilerInfo} {dir id text : String} {line : Parsed}

/-! ## Lines -/

/-- A run prints a line. -/
def Prints (x : Logged α) (line : String) : Prop := Notice.out (line ++ "\n") ∈ x.notices

instance (x : Logged α) (line : String) : Decidable (Prints x line) :=
  decidable_of_iff (∃ n ∈ x.notices, n = .out (line ++ "\n")) (by simp [Prints])

theorem prints_bind_iff {β : Type} {f : α → Logged β} :
    Prints (x >>= f) text ↔ Prints x text ∨ ∃ a, x.outcome = .ok a ∧ Prints (f a) text :=
  Logged.mem_notices_bind_iff

/-- Steps that do not print a line do not do so one after the other. -/
theorem not_prints_bind {β : Type} {f : α → Logged β} (hx : ¬ Prints x text)
    (hf : ∀ a, ¬ Prints (f a) text) : ¬ Prints (x >>= f) text := by
  intro hprints
  obtain ⟨a, _, hlater⟩ := (prints_bind_iff.mp hprints).resolve_left hx
  exact hf a hlater

theorem prints_say_iff {shown : String} : Prints (say shown) text ↔ text = shown := by
  unfold Prints say Logged.tell
  rw [List.mem_singleton, Notice.out.injEq]
  exact String.append_left_inj "\n"

theorem not_prints_pure (a : α) : ¬ Prints (pure a : Logged α) text := List.not_mem_nil

theorem not_prints_liftM (a : Except Failure α) : ¬ Prints (liftM a : Logged α) text := List.not_mem_nil

theorem not_prints_warn (shown : String) : ¬ Prints (Logged.tell (.warn shown)) text := by
  unfold Prints Logged.tell
  simp

/-- What a loop prints, one of its steps prints. -/
theorem prints_forM {β : Type} {f : β → Logged Unit} {xs : List β} (hprints : Prints (xs.forM f) text) :
    ∃ b ∈ xs, Prints (f b) text := by
  induction xs with
  | nil => exact absurd hprints (not_prints_pure ())
  | cons b xs ih =>
    have hsteps : (b :: xs).forM f = f b >>= fun _ => xs.forM f := rfl
    rw [hsteps, prints_bind_iff] at hprints
    rcases hprints with hfirst | ⟨_, _, hrest⟩
    · exact ⟨b, List.mem_cons_self, hfirst⟩
    · obtain ⟨b', hb', hprints⟩ := ih hrest
      exact ⟨b', List.mem_cons_of_mem _ hb', hprints⟩

theorem front_append {front : List Char} {s : String} (hfront : front <+: s.toList) (t : String) :
    front <+: (s ++ t).toList := by
  rw [String.toList_append]
  exact hfront.trans (List.prefix_append _ _)

/-- Lines with different beginnings are different. -/
theorem ne_of_fronts {a b : List Char} {s t : String} (hs : a <+: s.toList) (ht : b <+: t.toList)
    (hab : ¬ a <+: b) (hba : ¬ b <+: a) : s ≠ t := by
  rintro rfl
  rcases List.prefix_or_prefix_of_prefix hs ht with hprefix | hprefix
  · exact hab hprefix
  · exact hba hprefix

/-- Lines of an output that begin in certain ways go on without slashes. -/
theorem not_mem_of_prints {fronts : List String}
    (hnotices : ∀ n ∈ x.notices, ∀ front ∈ fronts, front.toList <+: n.text.toList →
      '/' ∉ n.text.toList.drop front.toList.length)
    {front : String} (hfront : front ∈ fronts) (rest : String) (hprints : Prints x (front ++ rest)) :
    '/' ∉ rest.toList := by
  have htext : (Notice.out (front ++ rest ++ "\n")).text.toList
      = front.toList ++ (rest.toList ++ ['\n']) := by
    show (front ++ rest ++ "\n").toList = _
    rw [String.toList_append, String.toList_append, List.append_assoc]
    rfl
  have hslash := hnotices _ hprints front hfront (htext ▸ List.prefix_append _ _)
  rw [htext, List.drop_left] at hslash
  exact fun hmem => hslash (List.mem_append_left _ hmem)

/-! ## Settings -/

/-- The line that sets the place of an installation. -/
def prefixLine (p : String) : String := "export PREFIX=\"" ++ p ++ "\""

theorem front_prefixLine (p : String) : "export PREFIX=\"".toList <+: (prefixLine p).toList :=
  front_append (front_append List.prefix_rfl p) "\""

/-- No line with another beginning sets the place of an installation. -/
theorem prefixLine_ne {front : String} (hfront : ¬ "export PREFIX=\"".toList <+: front.toList)
    (hfront' : ¬ front.toList <+: "export PREFIX=\"".toList) (p rest : String) :
    prefixLine p ≠ front ++ rest :=
  ne_of_fronts (front_prefixLine p) (front_append List.prefix_rfl rest) hfront hfront'

/-- The place of the installation is that of the directory, unless a tool of the machine rewrites it. -/
theorem prefix_of_prints_exportInstallation (hcygwin : h.family ≠ "cygwin") {p : String}
    (hprints : Prints (exportInstallation h environment dir id) (prefixLine p)) :
    p = h.paths.join dir id := by
  unfold exportInstallation at hprints
  simp only [prints_bind_iff, not_prints_warn, not_prints_liftM, prints_say_iff, false_or] at hprints
  obtain ⟨_, _, place, hplace, hline | ⟨_, _, hline⟩⟩ := hprints
  · have hjoin : installPath h dir id = .ok (h.paths.join dir id) := by
      rw [installPath, if_neg (by simpa using hcygwin)]
      rfl
    have heq : place = h.paths.join dir id := Except.ok.inj (hplace.symm.trans hjoin)
    rw [← heq]
    have hquoted := (String.append_left_inj "\"").mp hline
    exact (String.append_right_inj "export PREFIX=\"").mp hquoted
  · simp only [String.append_assoc] at hline
    exact absurd hline (prefixLine_ne (by decide) (by decide) _ _)

/-- The settings of a build do not say where it is installed. -/
theorem prefixLine_not_mem_buildLines (uplid : Uplid) (ufid p : String) :
    prefixLine p ∉ buildLines c uplid ufid := by
  intro hmem
  simp only [buildLines, List.cons_append, List.nil_append, List.mem_cons, List.mem_append,
    List.not_mem_nil, or_false, String.append_assoc] at hmem
  rcases hmem with heq | heq | heq | heq | hmem | heq
  · exact prefixLine_ne (by decide) (by decide) p _ heq
  · exact prefixLine_ne (by decide) (by decide) p _ heq
  · exact prefixLine_ne (by decide) (by decide) p _ heq
  · exact prefixLine_ne (by decide) (by decide) p _ heq
  · split at hmem
    · simp only [List.mem_cons, List.not_mem_nil, or_false] at hmem
      rcases hmem with heq | heq
      · exact prefixLine_ne (by decide) (by decide) p _ heq
      · exact prefixLine_ne (by decide) (by decide) p _ heq
    · cases hmem
  · split at heq
    · exact prefixLine_ne (by decide) (by decide) p _ heq
    · exact prefixLine_ne (by decide) (by decide) p _ (heq.trans String.append_empty.symm)

theorem outcome_forM_say (lines : List String) : (lines.forM say).outcome = .ok () := by
  induction lines with
  | nil => rfl
  | cons line lines ih =>
    have hsteps : (line :: lines).forM say = say line >>= fun _ => lines.forM say := rfl
    rw [hsteps, Logged.outcome_bind, ih]
    rfl

/-- Saying lines one after the other prints these lines. -/
theorem prints_forM_say_iff {lines : List String} : Prints (lines.forM say) text ↔ text ∈ lines := by
  induction lines with
  | nil =>
    exact ⟨fun hprints => absurd hprints (not_prints_pure ()), fun hmem => absurd hmem List.not_mem_nil⟩
  | cons line lines ih =>
    have hsteps : (line :: lines).forM say = say line >>= fun _ => lines.forM say := rfl
    rw [hsteps, prints_bind_iff, prints_say_iff, ih, List.mem_cons]
    refine or_congr_right ⟨?_, ?_⟩
    · rintro ⟨_, _, hmem⟩
      exact hmem
    · intro hmem
      exact ⟨(), rfl, hmem⟩

/-- **What the settings for a compiler print**: those of a build, and those of an installation if
    there is a directory for it. -/
theorem prints_exportAll_iff :
    Prints (exportAll h environment options c) text ↔
      ∃ ufid bare described, Ufid.ofOptions options = .ok ufid ∧ h.seenUplid = .ok bare ∧
        c.description = .ok described ∧
        (text ∈ buildLines c (withCompiler bare c) ufid.render ∨
          ∃ dir, usedDir? environment options (withCompiler bare c) = .ok (some dir) ∧
            Prints (exportInstallation h environment dir
              ((withCompiler bare c).render ++ "-" ++ ufid.render)) text) := by
  unfold exportAll
  simp only [prints_bind_iff, not_prints_warn, not_prints_liftM, prints_forM_say_iff, false_or]
  constructor
  · rintro ⟨ufid, hufid, bare, hbare, described, hdescribed, _, _, _, _,
      hlines | ⟨_, _, dir?, hdir, hprints⟩⟩
    · exact ⟨ufid, bare, described, hufid, hbare, hdescribed, Or.inl hlines⟩
    · cases dir? with
      | none => exact absurd hprints (not_prints_pure ())
      | some dir => exact ⟨ufid, bare, described, hufid, hbare, hdescribed, Or.inr ⟨dir, hdir, hprints⟩⟩
  · rintro ⟨ufid, bare, described, hufid, hbare, hdescribed, hlines | ⟨dir, hdir, hprints⟩⟩
    · exact ⟨ufid, hufid, bare, hbare, described, hdescribed, (), rfl, (), rfl, Or.inl hlines⟩
    · exact ⟨ufid, hufid, bare, hbare, described, hdescribed, (), rfl, (), rfl,
        Or.inr ⟨(), outcome_forM_say _, some dir, hdir, hprints⟩⟩

/-- The place that is printed for a compiler is in the installation directory. -/
theorem prefix_of_prints_exportAll (hcygwin : h.family ≠ "cygwin") {p : String}
    (hprints : Prints (exportAll h environment options c) (prefixLine p)) :
    ∃ ufid bare dir, Ufid.ofOptions options = .ok ufid ∧ h.seenUplid = .ok bare ∧
      usedDir? environment options (withCompiler bare c) = .ok (some dir) ∧
      p = h.paths.join dir ((withCompiler bare c).render ++ "-" ++ ufid.render) := by
  obtain ⟨ufid, bare, _, hufid, hbare, _, hmem | ⟨dir, hdir, hprints⟩⟩ := prints_exportAll_iff.mp hprints
  · exact absurd hmem (prefixLine_not_mem_buildLines _ _ p)
  · exact ⟨ufid, bare, dir, hufid, hbare, hdir, prefix_of_prints_exportInstallation hcygwin hprints⟩

/-! ## From a run to the settings that it prints -/

theorem not_prints_listCompilers (all : List CompilerInfo) : ¬ Prints (listCompilers all) text := by
  unfold listCompilers
  refine not_prints_bind (not_prints_warn _) fun _ hprints => ?_
  obtain ⟨e, _, hprints⟩ := prints_forM hprints
  simp only [prints_bind_iff, not_prints_warn, not_prints_liftM, false_or, and_false,
    exists_false] at hprints

theorem not_prints_configPath : ¬ Prints (configPath h environment tree) text := by
  unfold configPath
  dsimp only
  split
  · exact List.not_mem_nil
  · exact not_prints_bind (not_prints_warn _) fun _ => not_prints_pure _

/-- Looking for compilers prints nothing: it only warns. -/
theorem not_prints_compilers : ¬ Prints (compilers h environment tree) text := by
  unfold compilers
  refine not_prints_bind (not_prints_liftM _) fun _ => ?_
  split
  · exact not_prints_pure _
  · simp only [prints_bind_iff, not_prints_configPath, not_prints_liftM, not_prints_pure, false_or,
      and_false, exists_false, not_false_eq_true]

theorem askedDir?_set_standard (standard : Datum) :
    askedDir? (options.set "cpp_std" standard) = askedDir? options := by
  rw [askedDir?, askedDir?, Table.getD, Table.getD, Table.get?_set_of_ne _ _ (by decide)]

/-- A run prints the settings for the compiler that is asked for, and among them where the build is
    installed. -/
structure Exports (x : Logged Nat) (h : Host) (environment : Table String) (all : List CompilerInfo)
    (values : Table Datum) (c : CompilerInfo) (standard : Datum) (p : String) : Prop where
  isChosen : chosen all (values.getD "compiler" .null).str? = .ok (some c)
  isStandard : standardFor c (values.getD "cpp_std" .null) = .ok standard
  place : Prints (exportAll h environment (values.set "cpp_std" standard) c) (prefixLine p)
  settings : ∀ text, Prints (exportAll h environment (values.set "cpp_std" standard) c) text →
    Prints x text

variable {p : String}

theorem Exports.mono {x y : Logged Nat} {all : List CompilerInfo} {standard : Datum}
    (hexports : Exports x h environment all options c standard p)
    (hxy : ∀ text, Prints x text → Prints y text) :
    Exports y h environment all options c standard p :=
  { hexports with settings := fun text htext => hxy text (hexports.settings text htext) }

/-- A place of installation is printed among the settings of the compiler that was chosen. -/
theorem exports_exportChosen {all : List CompilerInfo}
    (hprints : Prints (exportChosen h environment options all) (prefixLine p)) :
    ∃ c standard,
      Exports (exportChosen h environment options all) h environment all options c standard p := by
  unfold exportChosen at hprints ⊢
  obtain ⟨c?, hc, hprints⟩ := (prints_bind_iff.mp hprints).resolve_left (not_prints_liftM _)
  cases c? with
  | none =>
    refine absurd hprints (not_prints_bind (not_prints_warn _) fun _ => ?_)
    exact not_prints_bind (not_prints_listCompilers _) fun _ => not_prints_pure _
  | some c =>
    unfold settingsFor at hprints
    obtain ⟨standard, hstandard, hprints⟩ :=
      (prints_bind_iff.mp hprints).resolve_left (not_prints_liftM _)
    have hplace := (prints_bind_iff.mp hprints).resolve_right fun ⟨_, _, hlater⟩ =>
      not_prints_pure _ hlater
    refine ⟨c, standard, hc, hstandard, hplace, ?_⟩
    intro text htext
    refine prints_bind_iff.mpr (Or.inr ⟨some c, hc, ?_⟩)
    refine prints_bind_iff.mpr (Or.inr ⟨standard, hstandard, ?_⟩)
    exact prints_bind_iff.mpr (Or.inl htext)

theorem front_help (program : Program) : "Usage: ".toList <+: program.help.toList := by
  have husage : "Usage: ".toList <+: program.usageLine.toList :=
    front_append (front_append List.prefix_rfl _) _
  exact front_append (front_append (front_append husage _) _) _

theorem not_prints_help (program : Program) (status : Nat) :
    ¬ Prints ⟨[.out program.help], .ok status⟩ (prefixLine p) := by
  intro hprints
  have heq : prefixLine p ++ "\n" = program.help := Notice.out.inj (List.mem_singleton.mp hprints)
  exact ne_of_fronts (front_append (front_prefixLine p) "\n") (front_help program) (by decide)
    (by decide) heq

/-- Help, the names of variables to unset and warnings are other lines, so it is the settings that
    were printed. -/
theorem exports_perform (hprints : Prints (perform h environment tree line) (prefixLine p)) :
    ∃ all c standard, (compilers h environment tree).outcome = .ok all ∧
      Exports (perform h environment tree line) h environment all line.values c standard p := by
  revert hprints
  unfold perform
  split
  · intro hprints
    exact absurd hprints (not_prints_help _ _)
  · dsimp only
    split
    · intro hprints
      refine absurd hprints (not_prints_bind (fun hunset => ?_) fun _ => not_prints_pure _)
      obtain ⟨name, _, hunset⟩ := prints_forM hunset
      exact prefixLine_ne (by decide) (by decide) p name (prints_say_iff.mp hunset)
    · split
      · intro hprints
        obtain ⟨all, hall, hprints⟩ := (prints_bind_iff.mp hprints).resolve_left not_prints_compilers
        refine ⟨all, ?_⟩
        revert hprints
        split
        · intro hprints
          exact absurd (List.mem_singleton.mp hprints) (by simp)
        · split
          · exact fun hprints => absurd hprints
              (not_prints_bind (not_prints_listCompilers all) fun _ => not_prints_pure _)
          · next hempty hlist =>
            intro hprints
            obtain ⟨c, standard, hexports⟩ := exports_exportChosen hprints
            refine ⟨c, standard, hall, hexports.mono ?_⟩
            intro text htext
            refine prints_bind_iff.mpr (Or.inr ⟨all, hall, ?_⟩)
            rwa [if_neg hempty]
      · exact fun hprints => absurd hprints
          (not_prints_bind (not_prints_warn _) fun _ => not_prints_help _ _)

/-- How a run ends adds nothing to what it prints. -/
theorem prints_run_iff {words : List String} :
    Prints (run h environment tree words) text ↔ Prints (start h environment tree words) text := by
  unfold run concluded
  split
  · split
    · unfold Prints
      simp
    · exact Iff.rfl
  · exact Iff.rfl

/-- **A run that prints where it installs prints all settings for the compiler that is asked for.** -/
theorem exports_run {words : List String} (hparse : (program h).parse words = pure line)
    (hprints : Prints (run h environment tree words) (prefixLine p)) :
    ∃ all c standard, (compilers h environment tree).outcome = .ok all ∧
      Exports (run h environment tree words) h environment all line.values c standard p := by
  have hstart : ∃ all c standard, (compilers h environment tree).outcome = .ok all ∧
      Exports (start h environment tree words) h environment all line.values c standard p := by
    rw [prints_run_iff] at hprints
    revert hprints
    unfold start
    split
    · intro hprints
      exact absurd (List.mem_singleton.mp hprints) (by simp)
    · split
      · intro hprints
        refine absurd hprints (not_prints_bind (fun hsaid => ?_) fun _ => not_prints_pure _)
        have heq := prints_say_iff.mp hsaid
        rw [String.append_assoc] at heq
        exact prefixLine_ne (by decide) (by decide) p _ heq
      · intro hprints
        rw [hparse] at hprints ⊢
        exact exports_perform hprints
  obtain ⟨all, c, standard, hall, hexports⟩ := hstart
  exact ⟨all, c, standard, hall, hexports.mono fun _ htext => prints_run_iff.mpr htext⟩

end EnvCommand

end BuildMeta
