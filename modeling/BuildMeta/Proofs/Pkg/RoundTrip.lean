import BuildMeta.Build.PcFile
import BuildMeta.InstallConfig
import BuildMeta.Proofs.Pkg.Reading
import BuildMeta.Proofs.Text.Template
import Mathlib.Data.List.Forall2

/-!
# `Proofs.Pkg.RoundTrip` — what is written of a unit is read back

The pkg-config file that a build writes for a unit of release is a package file.  Where its texts are
plain (`Readable`), loading it as a package gives back what was written (`load_render`), with the
directories below the place of installation.
-/

namespace BuildMeta.Build.PcFile

open Text Pkg

variable {f : PcFile} {place lib inc : String} {extras : List String} {doc : UnitDoc}
  {version : ReleaseVersion}

/-- The libraries that users of the unit need, as they are written; a missing name is written out as
    such. -/
def exportNames (f : PcFile) : List String := f.exportLibs.map fun name => (Datum.optStr name).text

/-- A file of which all parts can be read back, once it is written for a place of installation: its
    directories stand below the variables `prefix` and `includedir`, and its texts are plain. -/
structure Readable (f : PcFile) (place lib inc : String) (extras : List String) (doc : UnitDoc)
    (version : ReleaseVersion) : Prop where
  hasDoc : f.doc = some doc
  hasVersion : f.version = some version
  libDir : f.libDir = InstallConfig.pcPlaced lib
  includeDir : f.includeDir = InstallConfig.pcPlaced inc
  extraIncludes : f.extraIncludes = extras.map fun extra => reference "includedir" ++ "/" ++ extra
  texts : ∀ text ∈ [doc.mnemonic, doc.description, f.url], PlainText text
  words : ∀ word ∈ [place, lib, inc, f.libName, version.major, version.minor, version.patch] ++
    (extras ++ f.exportNames ++ f.deps ++ f.exportFlags), PlainWord word
  deps : ∀ dep ∈ f.deps, ∀ c ∈ dep.toList, c ∉ [',', '!', '=', '<', '>']
  exportFlags : ∀ flag ∈ f.exportFlags, startsWith flag "-I" = false

/-! ## Writing -/

/-- The words for linking against the libraries in a directory. -/
def linkWords (f : PcFile) (dir : String) : List String :=
  ("-L" ++ dir) :: (f.libName :: f.exportNames).map ("-l" ++ ·)

/-- The words for compiling with the headers in some directories. -/
def compileWords (f : PcFile) (dirs : List String) : List String := dirs.map ("-I" ++ ·) ++ f.exportFlags

/-- The lines of the file.  The words of a property may be written after others and a blank, which then
    stands at the end of the line if there are none. -/
def lines (f : PcFile) (place : String) (doc : UnitDoc) (version : ReleaseVersion) : List String :=
  ["prefix" ++ ("=" ++ place), "libdir" ++ ("=" ++ f.libDir), "includedir" ++ ("=" ++ f.includeDir), "",
    "Name" ++ (": " ++ doc.mnemonic), "Description" ++ (": " ++ doc.description),
    "URL" ++ (": " ++ f.url), "Version" ++ (": " ++ version.dotted), "Requires:",
    join " " ["Requires.private:"] ++ " " ++ join " " f.deps,
    join " " ["Libs:", "-L" ++ reference "libdir", "-l" ++ f.libName] ++ " " ++
      join " " (f.exportNames.map ("-l" ++ ·)),
    "Libs.private:",
    join " " ["Cflags:", "-I" ++ reference "includedir"] ++ " "
      ++ join " " (f.compileWords f.extraIncludes)]

/-- The lines without blanks at their ends. -/
def tidyLines (f : PcFile) (place : String) (doc : UnitDoc) (version : ReleaseVersion) : List String :=
  ["prefix" ++ ("=" ++ place), "libdir" ++ ("=" ++ f.libDir), "includedir" ++ ("=" ++ f.includeDir), "",
    "Name" ++ (": " ++ doc.mnemonic), "Description" ++ (": " ++ doc.description),
    "URL" ++ (": " ++ f.url), "Version" ++ (": " ++ version.dotted), join " " ["Requires:"],
    join " " ("Requires.private:" :: f.deps),
    join " " ("Libs:" :: f.linkWords (reference "libdir")), join " " ["Libs.private:"],
    join " " ("Cflags:" :: f.compileWords (reference "includedir" :: f.extraIncludes))]

/-- A template that puts a name after a flag does so with all names. -/
theorem formatAll_flag {flag : String} (hflag : '%' ∉ flag.toList) (names : List (Option String)) :
    formatAll (.str (flag ++ "%s" ++ "")) names
      = .ok (names.map fun name => flag ++ (Datum.optStr name).text) := by
  induction names with
  | nil => rfl
  | cons name rest ih =>
    have hfirst : (do Text.format (← (Datum.str (flag ++ "%s" ++ "")).needText) (.single (.optStr name)))
        = (.ok (flag ++ (Datum.optStr name).text ++ "") : Except Failure String) :=
      format_text hflag (by decide) name
    unfold formatAll at ih ⊢
    rw [List.mapM_cons, hfirst, Failure.ok_bind, ih, Failure.ok_bind, String.append_empty]
    rfl

/-- What is written is made up of the lines. -/
theorem exists_render (h : f.Readable place lib inc extras doc version) :
    ∃ text, f.render place (.str "-l%s") (.str "-I%s") = .ok text ∧
      text.toList = ((f.lines place doc version).map String.toList).flatMap (· ++ ['\n']) := by
  unfold render
  have hlibs : formatAll (.str "-l%s") f.exportLibs = .ok (f.exportNames.map ("-l" ++ ·)) := by
    rw [show "-l%s" = "-l" ++ "%s" ++ "" by decide, formatAll_flag (by decide), exportNames,
      List.map_map]
    rfl
  have hincludes :
      formatAll (.str "-I%s") (f.extraIncludes.map some) = .ok (f.extraIncludes.map ("-I" ++ ·)) := by
    rw [show "-I%s" = "-I" ++ "%s" ++ "" by decide, formatAll_flag (by decide), List.map_map]
    rfl
  rw [h.hasDoc, h.hasVersion, hlibs, hincludes]
  refine ⟨_, rfl, ?_⟩
  have htwo : ∀ a b : String, join " " [a, b] = a ++ " " ++ b := fun a b => by
    rw [join, String.intercalate_cons_cons, String.intercalate_singleton]
  have hthree : ∀ a b c : String, join " " [a, b, c] = a ++ " " ++ (b ++ " " ++ c) := fun a b c => by
    rw [join, String.intercalate_cons_cons, ← join, htwo]
  have hone : ∀ a : String, join " " [a] = a := fun a => String.intercalate_singleton
  simp only [lines, hone, htwo, hthree, compileWords, List.map_cons, List.map_nil, List.flatMap_cons,
    List.flatMap_nil, String.toList_append, List.append_assoc, List.append_nil, Option.map_some,
    Option.getD_some]
  simp

/-! ## The parts of what is written -/

namespace Readable

theorem dotted_word (h : f.Readable place lib inc extras doc version) : PlainWord version.dotted := by
  have hdot : PlainWord "." := by decide
  have hdotted : version.dotted = version.major ++ "." ++ (version.minor ++ "." ++ version.patch) := by
    rw [ReleaseVersion.dotted, join, String.intercalate_cons_cons, String.intercalate_cons_cons,
      String.intercalate_singleton]
  rw [hdotted]
  exact ((h.words _ (by simp)).append hdot).append
    (((h.words _ (by simp)).append hdot).append (h.words _ (by simp)))

theorem libDir_word (h : f.Readable place lib inc extras doc version) : LineWord f.libDir := by
  rw [h.libDir]
  exact (show LineWord "$\x7bprefix\x7d/" by decide).append (h.words lib (by simp)).lineWord

theorem includeDir_word (h : f.Readable place lib inc extras doc version) : LineWord f.includeDir := by
  rw [h.includeDir]
  exact (show LineWord "$\x7bprefix\x7d/" by decide).append (h.words inc (by simp)).lineWord

theorem dep_word (h : f.Readable place lib inc extras doc version) {dep : String} (hdep : dep ∈ f.deps) :
    LineWord dep :=
  (h.words dep (by simp [hdep])).lineWord

theorem lib_word (h : f.Readable place lib inc extras doc version) {name : String}
    (hname : name ∈ f.libName :: f.exportNames) : PlainWord name := by
  refine h.words name ?_
  rcases List.mem_cons.mp hname with rfl | hname <;> simp [*]

theorem linkWords_word (h : f.Readable place lib inc extras doc version) :
    ∀ word ∈ f.linkWords (reference "libdir"), LineWord word := by
  intro word hword
  rcases List.mem_cons.mp hword with rfl | hword
  · decide
  · obtain ⟨name, hname, rfl⟩ := List.mem_map.mp hword
    exact (show LineWord "-l" by decide).append (h.lib_word hname).lineWord

/-- The flags for compiling that are written hold no blanks, so they can be told apart again. -/
theorem compileWords_word (h : f.Readable place lib inc extras doc version) :
    ∀ word ∈ f.compileWords (reference "includedir" :: f.extraIncludes), LineWord word := by
  intro word hword
  rcases List.mem_append.mp hword with hword | hword
  · obtain ⟨dir, hdir, rfl⟩ := List.mem_map.mp hword
    refine (show LineWord "-I" by decide).append ?_
    rcases List.mem_cons.mp hdir with rfl | hdir
    · decide
    · rw [h.extraIncludes] at hdir
      obtain ⟨extra, hextra, rfl⟩ := List.mem_map.mp hdir
      exact (show LineWord (reference "includedir" ++ "/") by decide).append
        (h.words extra (by simp [hextra])).lineWord
  · exact (h.words word (by simp [hword])).lineWord

end Readable

/-! ## The lines that are read -/

/-- The lines lose only the blanks at their ends. -/
theorem trimEndWhile_lines (h : f.Readable place lib inc extras doc version) :
    ((f.lines place doc version).map String.toList).map (trimEndWhile isBlank)
      = (f.tidyLines place doc version).map String.toList := by
  have hvalue : ∀ key mark text, LineValue text →
      trimEndWhile isBlank (key ++ (mark ++ text)).toList = (key ++ (mark ++ text)).toList := by
    intro key mark text hval
    rw [← String.append_assoc]
    exact hval.trimEndWhile_append _
  -- A list that is empty leaves a blank behind the words before it, and only this blank is trimmed.
  have hlink :
      ∀ w ∈ ["-L" ++ reference "libdir", "-l" ++ f.libName] ++ f.exportNames.map ("-l" ++ ·), Solid w :=
    fun w hw => (h.linkWords_word w hw).toSolid
  have hcompile : ∀ w ∈ ["-I" ++ reference "includedir"] ++ f.compileWords f.extraIncludes, Solid w :=
    fun w hw => (h.compileWords_word w hw).toSolid
  have hlibs := trimEndWhile_spread ["Libs:", "-L" ++ reference "libdir", "-l" ++ f.libName]
    (f.exportNames.map ("-l" ++ ·)) (List.cons_ne_nil _ _)
    (List.forall_mem_cons.mpr ⟨by decide, fun w hw => hlink w (List.mem_append_left _ hw)⟩)
    fun w hw => hlink w (List.mem_append_right _ hw)
  have hflags := trimEndWhile_spread ["Cflags:", "-I" ++ reference "includedir"]
    (f.compileWords f.extraIncludes) (List.cons_ne_nil _ _)
    (List.forall_mem_cons.mpr ⟨by decide, fun w hw => hcompile w (List.mem_append_left _ hw)⟩)
    fun w hw => hcompile w (List.mem_append_right _ hw)
  have hdeps := trimEndWhile_spread ["Requires.private:"] f.deps (List.cons_ne_nil _ _)
    (by decide) fun w hw => (h.dep_word hw).toSolid
  have hrequires : trimEndWhile isBlank "Requires:".toList = (join " " ["Requires:"]).toList := by decide
  have hprivate :
      trimEndWhile isBlank "Libs.private:".toList = (join " " ["Libs.private:"]).toList := by decide
  simp only [lines, tidyLines, List.map_cons, List.map_nil,
    hvalue _ _ _ (h.words place (by simp)).plainText.lineValue, hvalue _ _ _ h.libDir_word.lineValue,
    hvalue _ _ _ h.includeDir_word.lineValue, hvalue _ _ _ h.dotted_word.plainText.lineValue,
    hvalue _ _ _ (h.texts doc.mnemonic (by simp)).lineValue,
    hvalue _ _ _ (h.texts doc.description (by simp)).lineValue,
    hvalue _ _ _ (h.texts f.url (by simp)).lineValue, hlibs, hflags, hdeps, hrequires, hprivate]
  rfl

/-- Every line of a package file can be read as one line: it holds no mark and no line end. -/
theorem lineText_lines (h : f.Readable place lib inc extras doc version) :
    ∀ line ∈ f.lines place doc version, LineText line := by
  have htext : ∀ text ∈ [doc.mnemonic, doc.description, f.url], LineText text :=
    fun text hin => (h.texts text hin).lineText
  have hlink : LineText (join " " (f.exportNames.map ("-l" ++ ·))) := by
    refine LineText.join fun w hw => (h.linkWords_word w ?_).line
    exact List.mem_cons_of_mem _ (List.mem_cons_of_mem _ hw)
  have hcompile : LineText (join " " (f.compileWords f.extraIncludes)) :=
    LineText.join fun w hw => (h.compileWords_word w (List.mem_cons_of_mem _ hw)).line
  have hfront : LineText (join " " ["Libs:", "-L" ++ reference "libdir", "-l" ++ f.libName]) := by
    refine LineText.join (List.forall_mem_cons.mpr ⟨by decide, fun w hw => (h.linkWords_word w ?_).line⟩)
    exact List.mem_append_left (f.exportNames.map ("-l" ++ ·)) hw
  have hdeps : LineText (join " " f.deps) := LineText.join fun w hw => (h.dep_word hw).line
  have hblank : LineText " " := by decide
  have hset : ∀ key word, LineText key → LineWord word → LineText (key ++ ("=" ++ word)) :=
    fun key word hkey hword => hkey.append ((show LineText "=" by decide).append hword.line)
  have hgive : ∀ key text, LineText key → LineText text → LineText (key ++ (": " ++ text)) :=
    fun key text hkey htext => hkey.append ((show LineText ": " by decide).append htext)
  simp only [lines, List.forall_mem_cons]
  exact ⟨hset _ _ (by decide) (h.words place (by simp)).lineWord, hset _ _ (by decide) h.libDir_word,
    hset _ _ (by decide) h.includeDir_word, by decide, hgive _ _ (by decide) (htext _ (by simp)),
    hgive _ _ (by decide) (htext _ (by simp)), hgive _ _ (by decide) (htext _ (by simp)),
    hgive _ _ (by decide) h.dotted_word.lineWord.line, by decide,
    ((show LineText (join " " ["Requires.private:"]) by decide).append hblank).append hdeps,
    (hfront.append hblank).append hlink, by decide,
    ((show LineText (join " " ["Cflags:", "-I" ++ reference "includedir"]) by decide).append
      hblank).append
      hcompile, fun _ hnil => absurd hnil List.not_mem_nil⟩

/-! ## What the lines say -/

/-- The variables with their values. -/
def readVars (place lib inc : String) : Table String :=
  (((∅ : Table String).set "prefix" place).set "libdir" (place ++ "/" ++ lib)).set "includedir"
    (place ++ "/" ++ inc)

/-- The properties, in the order in which the reader keeps them. -/
def readProperties (f : PcFile) (doc : UnitDoc) (version : ReleaseVersion) (libDir : String)
    (includeDirs : List String) : List (String × String) :=
  [("name", doc.mnemonic), ("description", doc.description), ("url", f.url), ("version", version.dotted),
    ("requires", ""), ("requires.private", join " " f.deps), ("conflicts", ""),
    ("cflags", join " " (f.compileWords includeDirs)), ("libs", join " " (f.linkWords libDir)),
    ("libs.private", "")]

/-- A place below the prefix is written as a reference, and replacing this gives the place. -/
theorem substitute_placed (hplace : PlainWord place) {dir : String} (hdir : PlainWord dir)
    {vars : Table String} (hget : vars.get? "prefix" = some place) :
    substitute (InstallConfig.pcPlaced dir) vars ∅ = .ok (place ++ "/" ++ dir) := by
  refine substitute_of_expands place (by decide) hget (hplace.plainText.not_mem (by decide))
    (hplace.plainText.not_mem (by decide)) ?_
  have hrest : '$' ∉ "/".toList ++ dir.toList := by
    rw [List.mem_append, not_or]
    exact ⟨by decide, hdir.plainText.not_mem (by decide)⟩
  rw [InstallConfig.pcPlaced, String.toList_append, String.toList_append, String.toList_append,
    List.append_assoc]
  exact Expands.reference (.of_not_mem hrest)

theorem exists_foldlM_cons {α : Type} {step : α → String → Logged α} {P : α → Prop} {a a' : α}
    {line : String} {rest : List String} (hstep : (step a line).outcome = .ok a')
    (hrest : ∃ b, (rest.foldlM step a').outcome = .ok b ∧ P b) :
    ∃ b, ((line :: rest).foldlM step a).outcome = .ok b ∧ P b := by
  rw [List.foldlM_cons]
  exact Logged.exists_bind hstep hrest

/-- The lines are entered one by one. -/
theorem exists_contents (h : f.Readable place lib inc extras doc version) (s : Settings)
    (file : Option String) :
    ∃ c, ((f.tidyLines place doc version).foldlM
        (fun c line => Contents.addLine s file ∅ c (bareLine line)) Contents.empty).outcome = .ok c ∧
      c.vars = readVars place lib inc ∧ c.properties.entries
        = f.readProperties doc version (reference "libdir")
          (reference "includedir" :: f.extraIncludes) := by
  have hplace : PlainWord place := h.words place (by simp)
  have hnone : ∀ w ∈ ([] : List String), LineWord w := fun w hw => absurd hw List.not_mem_nil
  unfold tidyLines
  -- The variables: each is new, and the directories refer to the one before them.
  refine exists_foldlM_cons (Contents.outcome_variable (by decide) hplace.plainText.lineValue (by rfl)
    (substitute_of_not_mem (hplace.plainText.not_mem (by decide)))) ?_
  rw [h.libDir, h.includeDir]
  refine exists_foldlM_cons (Contents.outcome_variable (by decide) (h.libDir ▸ h.libDir_word.lineValue)
    (by rfl) (substitute_placed hplace (h.words lib (by simp)) (by rfl))) ?_
  refine exists_foldlM_cons
    (Contents.outcome_variable (by decide) (h.includeDir ▸ h.includeDir_word.lineValue)
    (by rfl) (substitute_placed hplace (h.words inc (by simp)) (by rfl))) ?_
  -- An empty line, and the properties that have a text.
  refine exists_foldlM_cons rfl ?_
  refine exists_foldlM_cons
    (Contents.outcome_property (by decide) (h.texts doc.mnemonic (by simp)).lineValue
    (by rfl) (show lower "Name" = "name" by decide) (by decide)) ?_
  refine exists_foldlM_cons (Contents.outcome_property (by decide)
    (h.texts doc.description (by simp)).lineValue (by rfl)
    (show lower "Description" = "description" by decide) (by decide)) ?_
  refine exists_foldlM_cons (Contents.outcome_property (by decide) (h.texts f.url (by simp)).lineValue
    (by rfl) (show lower "URL" = "url" by decide) (by decide)) ?_
  refine exists_foldlM_cons
    (Contents.outcome_property (by decide) h.dotted_word.plainText.lineValue (by rfl)
    (show lower "Version" = "version" by decide) (by decide)) ?_
  -- The properties that have a list of words; two of these lists are always empty.
  refine exists_foldlM_cons
    (Contents.outcome_words (show Contents.IsKey "Requires" by decide) hnone (by rfl)
    (show lower "Requires" = "requires" by decide) (by decide)) ?_
  refine exists_foldlM_cons (Contents.outcome_words (show Contents.IsKey "Requires.private" by decide)
    (fun w hw => h.dep_word hw) (by rfl)
    (show lower "Requires.private" = "requires.private" by decide) (by decide)) ?_
  refine exists_foldlM_cons (Contents.outcome_words (show Contents.IsKey "Libs" by decide)
    h.linkWords_word (by rfl) (show lower "Libs" = "libs" by decide) (by decide)) ?_
  refine exists_foldlM_cons (Contents.outcome_words (show Contents.IsKey "Libs.private" by decide) hnone
    (by rfl) (show lower "Libs.private" = "libs.private" by decide) (by decide)) ?_
  refine exists_foldlM_cons (Contents.outcome_words (show Contents.IsKey "Cflags" by decide)
    h.compileWords_word (by rfl) (show lower "Cflags" = "cflags" by decide) (by decide)) ?_
  exact ⟨_, rfl, rfl, rfl⟩

/-- **The lines of the file are read as its variables and properties.** -/
theorem exists_ofLines (h : f.Readable place lib inc extras doc version) (s : Settings)
    (file : Option String) :
    ∃ c, (Contents.ofLines s file ∅
        ((((f.lines place doc version).map String.toList).map (· ++ ['\n'])).map String.ofList)).outcome
          = .ok c ∧
      c.vars = readVars place lib inc ∧ c.properties.entries
        = f.readProperties doc version (reference "libdir")
          (reference "includedir" :: f.extraIncludes) := by
  have hescape : ∀ l ∈ (f.lines place doc version).map String.toList, '\\' ∉ l := by
    intro l hl hin
    obtain ⟨line, hline, rfl⟩ := List.mem_map.mp hl
    exact (lineText_lines h line hline _ hin).2.2.2 rfl
  have hne : (f.lines place doc version).map String.toList ≠ [] := List.cons_ne_nil _ _
  unfold Contents.ofLines
  rw [joinLines_of_lines hne hescape, trimEndWhile_lines h, Logged.lift_ok, pure_bind,
    Contents.foldlM_addLine_filter]
  exact exists_contents h s file

/-! ## The package -/

/-- The directories of headers below the place of installation. -/
def headerDirs (place inc : String) (extras : List String) : List String :=
  (place ++ "/" ++ inc) :: extras.map fun extra => place ++ "/" ++ inc ++ "/" ++ extra

namespace Readable

theorem libPath_word (h : f.Readable place lib inc extras doc version) :
    PlainWord (place ++ "/" ++ lib) :=
  ((h.words place (by simp)).append (by decide)).append (h.words lib (by simp))

/-- The directories of headers are plain words, so that they are read as single flags. -/
theorem headerPath_word (h : f.Readable place lib inc extras doc version) :
    ∀ dir ∈ headerDirs place inc extras, PlainWord dir := by
  have hinc : PlainWord (place ++ "/" ++ inc) :=
    ((h.words place (by simp)).append (by decide)).append (h.words inc (by simp))
  intro dir hdir
  rcases List.mem_cons.mp hdir with rfl | hdir
  · exact hinc
  · obtain ⟨extra, hextra, rfl⟩ := List.mem_map.mp hdir
    exact (hinc.append (by decide)).append (h.words extra (by simp [hextra]))

end Readable

/-- A reference to a variable expands to its value. -/
theorem expands_reference (name value : String) :
    Expands name.toList value.toList (reference name).toList value.toList := by
  have href : (reference name).toList = referenceTo name.toList ++ [] := by
    rw [reference, String.toList_append, String.toList_append, List.append_nil]
    rfl
  have hone : Expands name.toList value.toList (referenceTo name.toList ++ []) (value.toList ++ []) :=
    .reference .nil
  rwa [← href, List.append_nil] at hone

theorem expands_append {name value : List Char} {a b c d : String}
    (h : Expands name value a.toList b.toList) (h' : Expands name value c.toList d.toList) :
    Expands name value (a ++ c).toList (b ++ d).toList := by
  rw [String.toList_append, String.toList_append]
  exact h.append h'

theorem expands_word {name value : List Char} {word : String} (h : PlainWord word) :
    Expands name value word.toList word.toList :=
  .of_not_mem (h.plainText.not_mem (by decide))

/-- The words for linking refer to the directory of libraries. -/
theorem substitute_linkWords (h : f.Readable place lib inc extras doc version) :
    substitute (join " " (f.linkWords (reference "libdir"))) (readVars place lib inc) ∅
      = .ok (join " " (f.linkWords (place ++ "/" ++ lib))) := by
  refine substitute_of_expands (place ++ "/" ++ lib) (show IsVariable "libdir".toList by decide) (by rfl)
    (h.libPath_word.plainText.not_mem (by decide)) (h.libPath_word.plainText.not_mem (by decide))
    (Expands.join (.cons ?_ (List.forall₂_same.mpr ?_)))
  · exact expands_append (expands_word (by decide)) (expands_reference _ _)
  · intro word hword
    obtain ⟨name, hname, rfl⟩ := List.mem_map.mp hword
    exact expands_word ((show PlainWord "-l" by decide).append (h.lib_word hname))

/-- The words for compiling refer to the directory of headers. -/
theorem substitute_compileWords (h : f.Readable place lib inc extras doc version) :
    substitute (join " " (f.compileWords (reference "includedir" :: f.extraIncludes)))
        (readVars place lib inc) ∅
      = .ok (join " " (f.compileWords (headerDirs place inc extras))) := by
  have hinc : PlainWord (place ++ "/" ++ inc) := h.headerPath_word _ List.mem_cons_self
  refine substitute_of_expands (place ++ "/" ++ inc) (show IsVariable "includedir".toList by decide)
    (by rfl)
    (hinc.plainText.not_mem (by decide)) (hinc.plainText.not_mem (by decide)) (Expands.join ?_)
  have hflag : ∀ {dir dir' : String}, Expands "includedir".toList (place ++ "/" ++ inc).toList dir.toList
      dir'.toList → Expands "includedir".toList (place ++ "/" ++ inc).toList ("-I" ++ dir).toList
      ("-I" ++ dir').toList := expands_append (expands_word (by decide))
  rw [h.extraIncludes, headerDirs, compileWords, compileWords, List.map_cons, List.map_cons]
  refine List.rel_append ?_ ?_
  · refine .cons (hflag (expands_reference _ _)) ?_
    simp only [List.forall₂_map_left_iff, List.forall₂_map_right_iff]
    refine List.forall₂_same.mpr fun extra hextra => hflag ?_
    have hword : PlainWord extra := h.words extra (by simp [hextra])
    exact expands_append (expands_append (expands_reference _ _) (expands_word (by decide)))
      (expands_word hword)
  · exact List.forall₂_same.mpr fun flag hin => expands_word (h.words flag (by simp [hin]))

/-- The properties with the references in them replaced. -/
theorem outcome_mapM_substitute (h : f.Readable place lib inc extras doc version) :
    ((f.readProperties doc version (reference "libdir") (reference "includedir" :: f.extraIncludes)).mapM
        fun entry : String × String => (liftM (do
          return (entry.1, ← substitute entry.2 (readVars place lib inc) ∅) :
            Except Failure (String × String)) : Logged (String × String))).outcome
      = .ok (f.readProperties doc version (place ++ "/" ++ lib) (headerDirs place inc extras)) := by
  have hplain : ∀ {text : String}, PlainText text →
      substitute text (readVars place lib inc) ∅ = .ok text :=
    fun htext => substitute_of_not_mem (htext.not_mem (by decide))
  have hdeps : substitute (join " " f.deps) (readVars place lib inc) ∅ = .ok (join " " f.deps) := by
    have hsame : Expands [] [] (join " " f.deps).toList (join " " f.deps).toList :=
      Expands.join (List.forall₂_same.mpr fun dep hdep => expands_word (h.words dep (by simp [hdep])))
    exact substitute_of_not_mem (hsame.not_mem_out List.not_mem_nil)
  have hnone : substitute "" (readVars place lib inc) ∅ = .ok "" := substitute_of_not_mem (by decide)
  rw [Logged.outcome_mapM]
  simp only [readProperties, List.mapM_cons, List.mapM_nil, Logged.outcome_lift,
    hplain (h.texts doc.mnemonic (by simp)), hplain (h.texts doc.description (by simp)),
    hplain (h.texts f.url (by simp)), hplain h.dotted_word.plainText, hdeps, hnone,
    substitute_linkWords h, substitute_compileWords h, Failure.ok_bind]
  rfl

/-- A package says what the file of a unit does, with the directories below the place of installation. -/
structure Describes (f : PcFile) (place lib inc : String) (extras : List String) (doc : UnitDoc)
    (version : ReleaseVersion) (p : Package) : Prop where
  name : p.name = doc.mnemonic
  description : p.description = doc.description
  version : p.version = Version.parse version.dotted
  requires : p.requires = []
  allRequires : p.allRequires = f.deps.map Requirement.unbounded
  conflicts : p.conflicts = []
  link : p.link = { libs := f.libName :: f.exportNames, paths := [place ++ "/" ++ lib] }
  privateLink : p.privateLink = {}
  compile : p.compile = { includeDirs := headerDirs place inc extras, others := f.exportFlags }

theorem Readable.isName (h : f.Readable place lib inc extras doc version) {dep : String}
    (hdep : dep ∈ f.deps) : Requirement.IsName dep := by
  refine ⟨(h.dep_word hdep).ne_empty, fun c hc => ?_⟩
  have hblank := (h.dep_word hdep).noBlank c hc
  have hsign := h.deps dep hdep c hc
  simp only [List.mem_cons, List.not_mem_nil, not_or, or_false] at hsign
  simp [Requirement.isNameChar, Requirement.isRelationChar, hblank, hsign]

/-- The contents of the file make up the package. -/
theorem exists_package (h : f.Readable place lib inc extras doc version) {site : Site}
    (hsite : site.Direct) (hglobals : site.globals = ∅)
    (hlib : (site.settings.value "forbidden_libdirs").holdsText (place ++ "/" ++ lib) = .ok false)
    (hinc : ∀ dir ∈ headerDirs place inc extras,
      (site.settings.value "forbidden_cflags").holdsText dir = .ok false)
    {c : Contents} (hvars : c.vars = readVars place lib inc) (hproperties : c.properties.entries
      = f.readProperties doc version (reference "libdir") (reference "includedir" :: f.extraIncludes))
    (path : String) :
    ∃ p, (Package.ofContents site path c).outcome = .ok p ∧
      f.Describes place lib inc extras doc version p := by
  have hplaced : (Package.placedVariables site path c.vars).outcome = .ok (readVars place lib inc) := by
    unfold Package.placedVariables
    rw [hsite.windows, hvars]
    rfl
  have hnone : (site.settings.readRequirements "").outcome = .ok [] :=
    site.settings.outcome_readRequirements_join fun name (hname : name ∈ []) =>
      absurd hname List.not_mem_nil
  have hversion :
      (site.settings.readVersion version.dotted).outcome = .ok (Version.parse version.dotted) := by
    unfold Settings.readVersion
    rw [Logged.outcome_bind, Settings.outcome_debug]
    rfl
  have hlinked : site.linkFlags (join " " (f.linkWords (place ++ "/" ++ lib)))
      = .ok { libs := f.libName :: f.exportNames, paths := [place ++ "/" ++ lib] } :=
    Site.linkFlags_join hsite h.libPath_word (fun name hname => h.lib_word hname) hlib
  have hcompiled : site.compileFlags (join " " (f.compileWords (headerDirs place inc extras)))
      = .ok { includeDirs := headerDirs place inc extras, others := f.exportFlags } :=
    Site.compileFlags_join hsite h.headerPath_word (fun flag hin => h.words flag (by simp [hin]))
      h.exportFlags hinc
  unfold Package.ofContents
  refine Logged.exists_bind hplaced ?_
  rw [hproperties, hglobals]
  refine Logged.exists_bind (outcome_mapM_substitute h) ?_
  dsimp only
  -- The two tests for missing properties are decided first, with the table under a name.
  generalize htable : Table.ofList (f.readProperties doc version (place ++ "/" ++ lib)
    (headerDirs place inc extras)) = table
  have hstated : ¬(table.getD "version" "" == "") = true := by
    rw [← htable]
    exact beq_iff_eq.not.mpr h.dotted_word.ne_empty
  have hdescribed : ¬(table.getD "description" "" == "") = true := by
    rw [← htable]
    exact beq_iff_eq.not.mpr (h.texts doc.description (by simp)).ne_empty
  rw [if_neg hstated, if_neg hdescribed, ← htable]
  refine Logged.exists_bind hversion ?_
  refine Logged.exists_bind hnone ?_
  refine Logged.exists_bind
    (site.settings.outcome_readRequirements_join fun dep hdep => h.isName hdep) ?_
  refine Logged.exists_bind hnone ?_
  refine Logged.exists_bind hcompiled ?_
  refine Logged.exists_bind hlinked ?_
  refine Logged.exists_bind (show (liftM (site.linkFlags "") : Logged _).outcome = .ok {} from rfl) ?_
  refine ⟨_, rfl, ?_⟩
  exact ⟨rfl, rfl, rfl, rfl, List.append_nil _, rfl, rfl, rfl, rfl⟩

theorem read_eq_of_get? {tree : FileTree} {path text : String} (hdir : tree.isDir path = false)
    (hfile : tree.isFile path = true) (hget : tree.files.get? (Path.normalize path) = some text)
    (htext : '\r' ∉ text.toList) : tree.read path = .ok text := by
  unfold FileTree.read
  rw [hdir, hfile, Table.getD, hget, Option.getD_some, unifyNewlines_eq_self htext, String.ofList_toList]
  rfl

/-- Loading is reading the lines and making a package of the contents. -/
theorem outcome_load {s : Site} {path text : String} (hread : s.tree.read path = .ok text)
    (hne : (fullLines text.toList).isEmpty = false) :
    (Package.load s path).outcome = (Contents.ofLines s.settings (some path) s.globals
      ((fullLines text.toList).map String.ofList) >>= Package.ofContents s path).outcome := by
  unfold Package.load
  rw [Logged.outcome_bind, Settings.outcome_debug, Failure.ok_bind, hread, Logged.lift_ok, pure_bind]
  simp only [hne, Bool.false_eq_true, if_false]

/-- **What is written of a unit is read back.**  The file of a unit can be written, and whatever
    site holds it, without global variables and with none of its directories forbidden, loads it as
    a package that says what the file does. -/
theorem load_render (h : f.Readable place lib inc extras doc version) :
    ∃ text, f.render place (.str "-l%s") (.str "-I%s") = .ok text ∧
      ∀ (site : Site) (path : String), site.Direct → site.globals = ∅ →
        (site.settings.value "forbidden_libdirs").holdsText (place ++ "/" ++ lib) = .ok false →
        (∀ dir ∈ headerDirs place inc extras,
          (site.settings.value "forbidden_cflags").holdsText dir = .ok false) →
        site.tree.isDir path = false → site.tree.isFile path = true →
        site.tree.files.get? (Path.normalize path) = some text →
        ∃ p, (Package.load site path).outcome = .ok p ∧
          f.Describes place lib inc extras doc version p := by
  obtain ⟨text, hrender, htext⟩ := exists_render h
  refine ⟨text, hrender, ?_⟩
  intro site path hsite hglobals hlib hinc hdir hfile hget
  have hline : ∀ l ∈ (f.lines place doc version).map String.toList, '\n' ∉ l ∧ '\r' ∉ l := by
    intro l hl
    obtain ⟨line, hline, rfl⟩ := List.mem_map.mp hl
    have hall := lineText_lines h line hline
    exact ⟨fun hin => (hall _ hin).1 rfl, fun hin => (hall _ hin).2.1 rfl⟩
  have hreturn : '\r' ∉ text.toList := by
    rw [htext]
    intro hin
    obtain ⟨l, hl, hin⟩ := List.mem_flatMap.mp hin
    rcases List.mem_append.mp hin with hin | hin
    · exact (hline l hl).2 hin
    · exact absurd hin (by decide)
  have hlines :
      fullLines text.toList = ((f.lines place doc version).map String.toList).map (· ++ ['\n']) := by
    rw [htext, fullLines_flatMap fun l hl => (hline l hl).1]
  obtain ⟨c, hcontents, hvars, hproperties⟩ := exists_ofLines h site.settings (some path)
  have hne : (fullLines text.toList).isEmpty = false := by
    rw [hlines]
    rfl
  rw [outcome_load (read_eq_of_get? hdir hfile hget hreturn) hne, hlines, hglobals]
  refine Logged.exists_bind hcontents ?_
  exact exists_package h hsite hglobals hlib hinc hvars hproperties path

/-- The file of a unit with dependencies, libraries, flags and a further directory of headers. -/
def bslFile : PcFile :=
  { unit := "bsl", doc := some ⟨"BSL", "Basic Standard Library"⟩, version := some ⟨"3", "0", "1"⟩
    libName := "bsl.dbg", deps := ["bdl", "inteldfp"], libDir := InstallConfig.pcPlaced "lib64/dbg"
    includeDir := InstallConfig.pcPlaced "include/bsl", exportLibs := ["pthread", "rt"]
    extraIncludes := InstallConfig.pcExtraIncludes "bsl", exportFlags := ["-D_REENTRANT", "-pthread"]
    installPath := none }

/-- The package file of one library is written, and loading it gives back what was written. -/
theorem load_render_bsl : ∃ text, bslFile.render "/opt/bb" (.str "-l%s") (.str "-I%s") = .ok text ∧
    ∃ p, (Package.load { tree := ⟨.ofList [("/opt/bb/bsl.pc", text)], ["/", "/opt", "/opt/bb"]⟩ }
        "/opt/bb/bsl.pc").outcome = .ok p ∧
      bslFile.Describes "/opt/bb" "lib64/dbg" "include/bsl" ["stlport"] ⟨"BSL", "Basic Standard Library"⟩
        ⟨"3", "0", "1"⟩ p := by
  have hreadable : bslFile.Readable "/opt/bb" "lib64/dbg" "include/bsl" ["stlport"]
      ⟨"BSL", "Basic Standard Library"⟩ ⟨"3", "0", "1"⟩ :=
    ⟨rfl, rfl, rfl, rfl, rfl, by decide, by decide, by decide, by decide⟩
  obtain ⟨text, hrender, hload⟩ := load_render hreadable
  have hpath : Path.normalize "/opt/bb/bsl.pc" = "/opt/bb/bsl.pc" := by decide +kernel
  refine ⟨text, hrender, hload _ _ ⟨rfl, rfl⟩ rfl rfl (fun _ _ => rfl) ?_ ?_ ?_⟩
  · unfold FileTree.isDir
    rw [hpath]
    rfl
  · unfold FileTree.isFile
    rw [hpath]
    rfl
  · rw [hpath]
    rfl

end BuildMeta.Build.PcFile
