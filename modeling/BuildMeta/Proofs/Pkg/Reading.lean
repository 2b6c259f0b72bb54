import BuildMeta.Pkg.Package
import BuildMeta.Proofs.Outcome
import BuildMeta.Proofs.Pkg.Substitution

/-!
# `Proofs.Pkg.Reading` — reading lines and lists of plain texts

What the reader of package files makes of lines without escapes and comments: the lines are kept without
the blanks at their ends (`joinLines_of_lines`), each says what stands before and after its separator
(`parse_variable`, `parse_property`), and what it says is entered (`addLine_variable`,
`addLine_property`).  A list of names is read as requirements without bounds
(`outcome_readRequirements_join`), and flags of plain words are sorted by kind (`linkFlags_join`,
`compileFlags_join`).
-/

namespace BuildMeta.Pkg

variable {key value gap : List Char}

/-! ## Lines -/

/-- Lines without escapes are not continued. -/
theorem joinFrom_of_lines {ls : List (List Char)} (h : ∀ l ∈ ls, '\\' ∉ l) :
    joinFrom none (ls.map (· ++ ['\n']))
      = .ok ((ls.map (Text.trimEndWhile Text.isBlank)).filter (!·.isEmpty)) := by
  induction ls with
  | nil => rfl
  | cons l rest ih =>
    have hrest := ih fun m hm => h m (List.mem_cons_of_mem _ hm)
    have htrim : Text.trimEndWhile Text.isBlank (l ++ ['\n']) = Text.trimEndWhile Text.isBlank l :=
      Text.trimEndWhile_append_of_pos (by decide)
    rw [List.map_cons, joinFrom, Option.getD_none, List.nil_append, htrim, List.map_cons]
    by_cases hempty : (Text.trimEndWhile Text.isBlank l).isEmpty = true
    · rw [if_pos hempty, hrest, List.filter_cons_of_neg (by simp [hempty])]
    · have hlast : ((Text.trimEndWhile Text.isBlank l).getLast? == some '\\') = false := by
        refine beq_false_of_ne fun e => h l List.mem_cons_self ?_
        exact (Text.trimEndWhile_isPrefix _ l).subset (List.mem_of_getLast? e)
      rw [if_neg hempty, hlast, List.filter_cons_of_pos (by simpa using hempty), hrest]
      rfl

/-- Lines that hold no mark are not joined: blank ones are dropped, and the others keep all but the
    white space at their end. -/
theorem joinLines_of_lines {ls : List (List Char)} (hne : ls ≠ []) (h : ∀ l ∈ ls, '\\' ∉ l) :
    joinLines ((ls.map (· ++ ['\n'])).map String.ofList)
      = .ok (((ls.map (Text.trimEndWhile Text.isBlank)).filter (!·.isEmpty)).map String.ofList) := by
  have hlast : (((ls.map (· ++ ['\n'])).map String.ofList).getLast?.bind (·.toList.getLast?))
      = some '\n' := by
    obtain ⟨front, l, rfl⟩ := List.eq_nil_or_concat ls |>.resolve_left hne
    simp
  unfold joinLines
  rw [hlast]
  have hlists : ((ls.map (· ++ ['\n'])).map String.ofList).map String.toList = ls.map (· ++ ['\n']) := by
    simp
  simp only [hlists, joinFrom_of_lines h]
  rfl

theorem bareLine_eq_self {line : String} (htrim : Text.trim line = line) (h : '#' ∉ line.toList) :
    bareLine line = line := by
  unfold bareLine Text.before
  rw [Text.takeWhile_ne_of_not_mem h, String.ofList_toList, htrim]

/-- A line with an equals sign behind a name defines a variable. -/
theorem parse_variable (hkey : IsVariable key) (hfront : value.dropWhile Text.isBlank = value)
    (hline : '\n' ∉ value) :
    Line.parse (String.ofList (key ++ '=' :: value))
      = .variable (String.ofList key) (String.ofList value) := by
  have htake : (key ++ '=' :: value).takeWhile isVariableChar = key := hkey.takeWhile_append (by decide)
  have hne : key.isEmpty = false := by simpa using hkey.ne_nil
  unfold Line.parse
  simp only [String.toList_ofList, htake, hne, List.drop_left, List.drop_succ_cons, List.drop_zero,
    hfront, Text.takeWhile_ne_of_not_mem hline, Bool.false_eq_true, if_false]

/-- A line with a colon behind a name states a property, perhaps an empty one. -/
theorem parse_property (hkey : IsVariable key) (hgap : ∀ c ∈ gap, Text.isBlank c = true)
    (hfront : value.dropWhile Text.isBlank = value) (hline : '\n' ∉ value) :
    Line.parse (String.ofList (key ++ ':' :: (gap ++ value)))
      = .property (String.ofList key) (if value.isEmpty then none else some (String.ofList value)) := by
  have htake : (key ++ ':' :: (gap ++ value)).takeWhile isVariableChar = key :=
    hkey.takeWhile_append (by decide)
  have hne : key.isEmpty = false := by simpa using hkey.ne_nil
  unfold Line.parse
  simp only [String.toList_ofList, htake, hne, List.drop_left, List.drop_succ_cons, List.drop_zero,
    List.dropWhile_append_of_pos hgap, hfront, Text.takeWhile_ne_of_not_mem hline,
    Bool.false_eq_true, if_false]

/-! ## Entering what a line says -/

namespace Contents

variable {s : Settings} {file : Option String} {c : Contents} {line key value : String}

/-- A new variable is kept twice, as it is written and with its references replaced. -/
theorem addLine_variable {replaced : String} (hparse : Line.parse line = .variable key value)
    (hnew : c.vars.has key = false) (htrim : Text.trim value = value)
    (hvalue : substitute value c.vars ∅ = .ok replaced) :
    (addLine s file ∅ c line).outcome
      = .ok
        { c with rawVariables := c.rawVariables.set key value, vars := c.vars.set key replaced } := by
  have hline : (line == "") = false := beq_false_of_ne fun hempty => by
    rw [hempty] at hparse
    cases hparse
  unfold addLine
  rw [hline, hparse]
  simp only [hnew, Table.get?_empty, htrim, Option.getD_none, Bool.false_eq_true, if_false,
    Logged.outcome_bind, Settings.outcome_debug, Failure.ok_bind, Logged.outcome_lift, hvalue]
  rfl

/-- A property that is known and new is kept under its name in lower case. -/
theorem addLine_property {value : Option String} {name : String}
    (hparse : Line.parse line = .property key value) (hnew : c.seen.contains key = false)
    (hname : Text.lower key = name) (hknown : propertyNames.contains name = true) :
    (addLine s file ∅ c line).outcome
      = .ok { c with properties := c.properties.set name (value.getD ""), seen := c.seen ++ [key] } := by
  have hline : (line == "") = false := beq_false_of_ne fun hempty => by
    rw [hempty] at hparse
    cases hparse
  unfold addLine
  rw [hline, hparse]
  simp only [hnew, hname, hknown, Bool.false_eq_true, if_false, if_true, Logged.outcome_bind,
    Settings.outcome_debug, Failure.ok_bind]
  rfl

/-- The key of a line. -/
def IsKey (key : String) : Prop := IsVariable key.toList ∧ Text.Solid key ∧ Text.LineText key

instance : DecidablePred IsKey := fun key =>
  inferInstanceAs (Decidable (IsVariable key.toList ∧ Text.Solid key ∧ Text.LineText key))

/-- A key with a value holds no comment and no blanks to trim. -/
theorem IsKey.bareLine_eq (hkey : IsKey key) {mark : String} (hmark : Text.LineText mark)
    (hval : Text.LineValue value) : bareLine (key ++ (mark ++ value)) = key ++ (mark ++ value) := by
  obtain ⟨_, hsolid, hline⟩ := hkey
  refine bareLine_eq_self (Text.trim_append hsolid ?_) ?_
  · rw [← String.append_assoc]
    exact hval.trimEndWhile_append _
  · have hall := hline.append (hmark.append hval.line)
    exact fun hin => (hall _ hin).2.2.1 rfl

/-- A line that sets a variable is entered, with the references of its value replaced. -/
theorem outcome_variable (hkey : IsKey key) (hval : Text.LineValue value) (hnew : c.vars.has key = false)
    {replaced : String} (hvalue : substitute value c.vars ∅ = .ok replaced) :
    (addLine s file ∅ c (bareLine (key ++ ("=" ++ value)))).outcome
      = .ok
        { c with rawVariables := c.rawVariables.set key value, vars := c.vars.set key replaced } := by
  have htext : (key ++ ("=" ++ value)).toList = key.toList ++ '=' :: value.toList := by
    rw [String.toList_append, String.toList_append]
    rfl
  rw [hkey.bareLine_eq (by decide) hval]
  refine addLine_variable ?_ hnew hval.trimmed hvalue
  rw [← String.ofList_toList (s := key ++ ("=" ++ value)), htext,
    parse_variable hkey.1 (Text.of_trim_eq_self hval.trimmed).1 fun hin => (hval.line _ hin).1 rfl,
    String.ofList_toList, String.ofList_toList]

/-- A line that gives a property a text is entered. -/
theorem outcome_property (hkey : IsKey key) (hval : Text.LineValue value)
    (hnew : c.seen.contains key = false) {name : String} (hname : Text.lower key = name)
    (hknown : propertyNames.contains name = true) :
    (addLine s file ∅ c (bareLine (key ++ (": " ++ value)))).outcome
      = .ok { c with properties := c.properties.set name value, seen := c.seen ++ [key] } := by
  have htext : (key ++ (": " ++ value)).toList = key.toList ++ ':' :: ([' '] ++ value.toList) := by
    rw [String.toList_append, String.toList_append]
    rfl
  have hparse : Line.parse (key ++ (": " ++ value)) = .property key (some value) := by
    rw [← String.ofList_toList (s := key ++ (": " ++ value)), htext,
      parse_property hkey.1 (by decide) (Text.of_trim_eq_self hval.trimmed).1
        fun hin => (hval.line _ hin).1 rfl, String.ofList_toList,
      String.ofList_toList, if_neg (by simpa using Text.toList_ne_nil hval.ne_empty)]
  rw [hkey.bareLine_eq (by decide) hval]
  exact addLine_property hparse hnew hname hknown

/-- A line that gives a property some words, or none, is entered. -/
theorem outcome_words {ws : List String} (hkey : IsKey key) (hwords : ∀ w ∈ ws, Text.LineWord w)
    (hnew : c.seen.contains key = false) {name : String} (hname : Text.lower key = name)
    (hknown : propertyNames.contains name = true) :
    (addLine s file ∅ c (bareLine (Text.join " " ((key ++ ":") :: ws)))).outcome
      = .ok
        { c with properties := c.properties.set name (Text.join " " ws), seen := c.seen ++ [key] } := by
  cases ws with
  | nil =>
    -- No blank follows the colon: the value is missing and not an empty text.
    obtain ⟨hvariable, hkeySolid, hkeyLine⟩ := hkey
    have hmark : Text.Solid (key ++ ":") := hkeySolid.append (by decide)
    have hbare : bareLine (key ++ ":") = key ++ ":" := by
      refine bareLine_eq_self hmark.trimmed fun hin => ?_
      exact ((hkeyLine.append (by decide)) _ hin).2.2.1 rfl
    have hparse : Line.parse (key ++ ":") = .property key none := by
      have htext : (key ++ ":").toList = key.toList ++ ':' :: ([] ++ []) := String.toList_append
      rw [← String.ofList_toList (s := key ++ ":"), htext,
        parse_property hvariable (by decide) rfl (by decide), String.ofList_toList]
      rfl
    rw [show Text.join " " [key ++ ":"] = key ++ ":" from String.intercalate_singleton, hbare]
    exact addLine_property hparse hnew hname hknown
  | cons w rest =>
    have hjoin : Text.join " " ((key ++ ":") :: w :: rest)
        = key ++ (": " ++ Text.join " " (w :: rest)) := by
      rw [Text.join, String.intercalate_cons_cons, String.append_assoc, String.append_assoc]
      exact congrArg (key ++ ·) String.append_assoc.symm
    have hval : Text.LineValue (Text.join " " (w :: rest)) :=
      ⟨Text.join_ne_empty (hwords w List.mem_cons_self).ne_empty,
        Text.trim_join (List.cons_ne_nil _ _) fun v hv => (hwords v hv).toSolid,
        Text.LineText.join fun v hv => (hwords v hv).line⟩
    rw [hjoin]
    exact outcome_property hkey hval hnew hname hknown

/-- Empty lines say nothing. -/
theorem foldlM_addLine_filter (texts : List String) (c : Contents) :
    (((texts.map String.toList).filter (!·.isEmpty)).map String.ofList).foldlM
        (fun c line => addLine s file ∅ c (bareLine line)) c
      = texts.foldlM (fun c line => addLine s file ∅ c (bareLine line)) c := by
  induction texts generalizing c with
  | nil => rfl
  | cons text rest ih =>
    rw [List.map_cons, List.foldlM_cons]
    by_cases hempty : text = ""
    · have hnothing : addLine s file ∅ c (bareLine text) = pure c := by
        rw [hempty]
        rfl
      rw [List.filter_cons_of_neg (by simp [hempty]), ih, hnothing, pure_bind]
    · rw [List.filter_cons_of_pos (by simpa using Text.toList_ne_nil hempty), List.map_cons,
        List.foldlM_cons, String.ofList_toList]
      simp only [ih]

end Contents

/-! ## Lists of names -/

namespace Requirement

/-- A name that a list of requirements can hold. -/
structure IsName (name : String) : Prop where
  ne_empty : name ≠ ""
  chars : ∀ c ∈ name.toList, isNameChar c = true

/-- A requirement of any version of a package. -/
def unbounded (name : String) : Requirement := ⟨name, .any, Version.none⟩

theorem specsFrom_eq_drop (skip : Nat) (s : List Char) :
    specsFrom skip s = specsFrom 0 (s.drop skip) := by
  induction skip generalizing s with
  | zero => rfl
  | succ skip ih =>
    cases s with
    | nil => rfl
    | cons c rest => exact ih rest

/-- A name is read as a whole, and with it the bound that follows. -/
theorem specsFrom_name_bound {name rest relation version : List Char} {length : Nat} (hne : name ≠ [])
    (hname : ∀ c ∈ name, isNameChar c = true) (hrest : ∀ c ∈ rest.head?, isNameChar c = false)
    (hbound : bound rest = (relation, version, length)) :
    specsFrom 0 (name ++ rest) = { name, relation, version } :: specsFrom 0 (rest.drop length) := by
  obtain ⟨c, tail, rfl⟩ := List.exists_cons_of_ne_nil hne
  have htail : (tail ++ rest).takeWhile isNameChar = tail :=
    Text.takeWhile_append_stop (fun d hd => hname d (List.mem_cons_of_mem _ hd)) hrest
  rw [List.cons_append, specsFrom, if_pos (hname c List.mem_cons_self)]
  simp only [htail, List.drop_left, hbound, specsFrom_eq_drop (tail.length + length), ← List.drop_drop]

theorem specsFrom_name {name : String} {rest : List Char} (h : IsName name)
    (hrest : ∀ c ∈ rest.head?, isNameChar c = false) (hbound : bound rest = ([], [], 0)) :
    specsFrom 0 (name.toList ++ rest) = { name := name.toList } :: specsFrom 0 rest :=
  specsFrom_name_bound (Text.toList_ne_nil h.ne_empty) h.chars hrest hbound

/-- No bound stands before another name. -/
theorem bound_before_name {name : String} {rest : List Char} (h : IsName name) :
    bound (' ' :: (name.toList ++ rest)) = ([], [], 0) := by
  cases hname : name.toList with
  | nil => exact absurd (String.toList_inj.mp hname) h.ne_empty
  | cons c tail =>
    have hc : isNameChar c = true := h.chars c (hname ▸ List.mem_cons_self)
    simp only [isNameChar, Bool.and_eq_true, Bool.not_eq_true'] at hc
    have hlead : (' ' :: (c :: tail ++ rest)).takeWhile Text.isBlank = [' '] := by
      rw [List.takeWhile_cons_of_pos (by decide), List.cons_append,
        List.takeWhile_cons_of_neg (by simp [hc.1.1])]
    have hrelation : (c :: tail ++ rest).takeWhile isRelationChar = [] := by
      rw [List.cons_append, List.takeWhile_cons_of_neg (by simp [hc.2])]
    unfold bound
    simp only [hlead, List.length_singleton, List.drop_succ_cons, List.drop_zero, hrelation]
    rfl

/-- **The names that blanks join are the names of the list.** -/
theorem specs_join {names : List String} (h : ∀ name ∈ names, IsName name) :
    specs (Text.join " " names) = names.map fun name => { name := name.toList } := by
  refine Text.join_induction (P := fun s names => specsFrom 0 s = names.map fun name =>
    { name := name.toList }) rfl ?_ ?_ h
  · intro name hname
    have hone : specsFrom 0 (name.toList ++ []) = [{ name := name.toList }] :=
      specsFrom_name hname (by simp) rfl
    rwa [List.append_nil] at hone
  · intro name next rest names hname hnext hrest
    have hblank : ∀ c ∈ (' ' :: (next.toList ++ rest)).head?, isNameChar c = false := by
      rintro c ⟨⟩
      decide
    rw [specsFrom_name hname hblank (bound_before_name hnext), List.map_cons, ← hrest]
    rfl

end Requirement

/-- A list of names without bounds is read as the requirements of these names. -/
theorem Settings.outcome_readRequirements_join (s : Settings) {names : List String}
    (h : ∀ name ∈ names, Requirement.IsName name) :
    (s.readRequirements (Text.join " " names)).outcome = .ok (names.map Requirement.unbounded) := by
  unfold Settings.readRequirements
  rw [Requirement.specs_join h]
  clear h
  induction names with
  | nil => rfl
  | cons name rest ih =>
    rw [List.map_cons, List.mapM_cons, Logged.outcome_bind]
    have hone : (Requirement.ofSpec { name := name.toList }) = .ok (Requirement.unbounded name) := by
      unfold Requirement.ofSpec Requirement.unbounded
      rw [String.ofList_toList]
      rfl
    rw [hone]
    show (Except.ok (Requirement.unbounded name) : Except Failure _) >>= _ = _
    rw [Failure.ok_bind, Logged.outcome_bind, ih, Failure.ok_bind]
    rfl

/-! ## Flags -/

theorem startsWith_append (front back : String) : Text.startsWith (front ++ back) front = true := by
  rw [Text.startsWith, String.toList_append, List.isPrefixOf_iff_prefix]
  exact List.prefix_append _ _

theorem drop_append {n : Nat} {front : String} (h : front.toList.length = n) (back : String) :
    Text.drop n (front ++ back) = back := by
  rw [Text.drop, String.toList_append, ← h, List.drop_left, String.ofList_toList]

namespace Site

variable {s : Site} {dir : String}

/-- A site where directories stay as they are written. -/
structure Direct (s : Site) : Prop where
  windows : s.windows = false
  unrooted : (s.settings.value "pc_sysrootdir").truthy = false

theorem Direct.libSuffix_eq (h : s.Direct) : s.libSuffix = "" := by
  rw [libSuffix, h.windows]
  rfl

/-- Where no root is set, a directory of one plain word stays as it is. -/
theorem Direct.dirOf_eq (h : s.Direct) (hdir : Text.PlainWord dir) (emptyAllowed : Bool) :
    s.dirOf dir emptyAllowed = .ok dir := by
  have hroot : s.rooted dir = .ok dir := by
    unfold rooted
    simp only [h.unrooted, hdir.trimmed]
    rfl
  have hword : firstWord dir = .ok dir := by
    unfold firstWord
    rw [Text.words_of_plainWord hdir]
  have hnative : s.nativeDir dir = dir := by
    rw [nativeDir, h.windows]
    rfl
  unfold dirOf
  rw [hroot, Failure.ok_bind, hword]
  split <;> exact congrArg Except.ok hnative

/-- Flags for libraries are read as the names that they were made of. -/
theorem linkFlagsFrom_libs (h : s.Direct) {names : List String} (hnames : ∀ n ∈ names, Text.PlainWord n)
    (flags : LinkFlags) :
    s.linkFlagsFrom flags (names.map ("-l" ++ ·)) = .ok { flags with libs := flags.libs ++ names } := by
  induction names generalizing flags with
  | nil =>
    rw [List.map_nil, linkFlagsFrom, List.append_nil]
  | cons name rest ih =>
    have hdrop : Text.drop 2 ("-l" ++ name) = name := drop_append (by decide) name
    have hname : Text.trim (Text.drop 2 ("-l" ++ name)) ++ s.libSuffix = name := by
      rw [hdrop, (hnames name List.mem_cons_self).trimmed, h.libSuffix_eq, String.append_empty]
    rw [List.map_cons, linkFlagsFrom.eq_def]
    simp only [startsWith_append, if_true, hname]
    rw [ih fun n hn => hnames n (List.mem_cons_of_mem _ hn), List.append_assoc, List.singleton_append]

/-- The flags for a directory of libraries and for libraries are sorted into these. -/
theorem linkFlags_join (h : s.Direct) {names : List String} (hdir : Text.PlainWord dir)
    (hnames : ∀ n ∈ names, Text.PlainWord n)
    (hallowed : (s.settings.value "forbidden_libdirs").holdsText dir = .ok false) :
    s.linkFlags (Text.join " " (("-L" ++ dir) :: names.map ("-l" ++ ·)))
      = .ok { libs := names, paths := [dir] } := by
  have hwords : ∀ w ∈ ("-L" ++ dir) :: names.map ("-l" ++ ·), Text.PlainWord w := by
    intro w hw
    rcases List.mem_cons.mp hw with rfl | hw
    · exact (show Text.PlainWord "-L" by decide).append hdir
    · obtain ⟨n, hn, rfl⟩ := List.mem_map.mp hw
      exact (show Text.PlainWord "-l" by decide).append (hnames n hn)
  have hother : Text.startsWith ("-L" ++ dir) "-l" = false := by
    rw [Text.startsWith, String.toList_append]
    rfl
  have hdrop : Text.drop 2 ("-L" ++ dir) = dir := drop_append (by decide) dir
  unfold linkFlags
  rw [Text.shellWords_join hwords, Failure.ok_bind, linkFlagsFrom.eq_def]
  simp only [hother, startsWith_append, if_true, hdrop, hallowed, Failure.ok_bind, h.dirOf_eq hdir,
    Bool.false_eq_true, if_false, linkFlagsFrom_libs h hnames, List.nil_append]

/-- A flag for a directory of headers is read as the directory, if that is not forbidden. -/
theorem addCompileFlag_include (h : s.Direct) (hdir : Text.PlainWord dir)
    (hallowed : (s.settings.value "forbidden_cflags").holdsText dir = .ok false) (flags : CompileFlags) :
    s.addCompileFlag flags ("-I" ++ dir)
      = .ok { flags with includeDirs := flags.includeDirs ++ [dir] } := by
  have hdrop : Text.drop 2 ("-I" ++ dir) = dir := drop_append (by decide) dir
  unfold addCompileFlag
  simp only [startsWith_append, if_true, hdrop, hallowed, Failure.ok_bind, h.dirOf_eq hdir,
    Bool.false_eq_true, if_false]
  rfl

theorem addCompileFlag_other {flag : String} (hflag : Text.PlainWord flag)
    (hother : Text.startsWith flag "-I" = false) (flags : CompileFlags) :
    s.addCompileFlag flags flag = .ok { flags with others := flags.others ++ [flag] } := by
  unfold addCompileFlag
  rw [hother, hflag.trimmed]
  rfl

/-- Several of them are read in their order. -/
theorem foldlM_addCompileFlag_include (h : s.Direct) {dirs : List String}
    (hdirs : ∀ d ∈ dirs, Text.PlainWord d)
    (hallowed : ∀ d ∈ dirs, (s.settings.value "forbidden_cflags").holdsText d = .ok false)
    (flags : CompileFlags) :
    (dirs.map ("-I" ++ ·)).foldlM s.addCompileFlag flags
      = .ok { flags with includeDirs := flags.includeDirs ++ dirs } := by
  induction dirs generalizing flags with
  | nil =>
    rw [List.append_nil]
    rfl
  | cons d rest ih =>
    rw [List.forall_mem_cons] at hdirs hallowed
    rw [List.map_cons, List.foldlM_cons, addCompileFlag_include h hdirs.1 hallowed.1, Failure.ok_bind,
      ih hdirs.2 hallowed.2, List.append_assoc, List.singleton_append]

/-- Other flags are kept as they are, in their order. -/
theorem foldlM_addCompileFlag_other {others : List String} (hflags : ∀ f ∈ others, Text.PlainWord f)
    (hothers : ∀ f ∈ others, Text.startsWith f "-I" = false) (flags : CompileFlags) :
    others.foldlM s.addCompileFlag flags = .ok { flags with others := flags.others ++ others } := by
  induction others generalizing flags with
  | nil =>
    rw [List.append_nil]
    rfl
  | cons f rest ih =>
    rw [List.forall_mem_cons] at hflags hothers
    rw [List.foldlM_cons, addCompileFlag_other hflags.1 hothers.1, Failure.ok_bind,
      ih hflags.2 hothers.2, List.append_assoc, List.singleton_append]

/-- The flags for directories of headers and others after them are sorted into these. -/
theorem compileFlags_join (h : s.Direct) {dirs others : List String}
    (hdirs : ∀ d ∈ dirs, Text.PlainWord d) (hflags : ∀ f ∈ others, Text.PlainWord f)
    (hothers : ∀ f ∈ others, Text.startsWith f "-I" = false)
    (hallowed : ∀ d ∈ dirs, (s.settings.value "forbidden_cflags").holdsText d = .ok false) :
    s.compileFlags (Text.join " " (dirs.map ("-I" ++ ·) ++ others))
      = .ok { includeDirs := dirs, others := others } := by
  have hwords : ∀ w ∈ dirs.map ("-I" ++ ·) ++ others, Text.PlainWord w := by
    intro w hw
    rcases List.mem_append.mp hw with hw | hw
    · obtain ⟨d, hd, rfl⟩ := List.mem_map.mp hw
      exact (show Text.PlainWord "-I" by decide).append (hdirs d hd)
    · exact hflags w hw
  unfold compileFlags
  rw [Text.plainWords_join hwords, Failure.ok_bind, List.foldlM_append,
    foldlM_addCompileFlag_include h hdirs hallowed, Failure.ok_bind,
    foldlM_addCompileFlag_other hflags hothers, List.nil_append, List.nil_append]

end Site

end BuildMeta.Pkg
