import BuildMeta.Flags.Partition
import BuildMeta.Proofs.Outcome
import BuildMeta.Proofs.Text.Matching

/-!
# `Proofs.Flags.LinkParts` — sorting flags for the linker

What a flag is for is decided by the first description that fits it: a marker, a directory, a library, a
warning, or anything else (`FlagStyle.Serves`).  Whether a library is shared or static depends on
the markers before it, of which the nearest one counts (`LinkFlag.sharedAfter`).

A form has a place for a name or it has none (`FlagForm.HasPlace`).  Only a form without the place
ends the sorting (`FlagStyle.Nameless`); where a match passes the place by, an empty one goes into
the part.

* `linkFlag_eq_ok_iff` — the description that is found is the first that fits;
* `sorted_ofFlags` — the parts of a list, said without going through the list;
* `ofFlags_append` — sorting can be stopped and taken up again where the markers have led to;
* `linkParts_partition` — so each flag is in one part, and where it belongs.
-/

namespace BuildMeta

/-! ## What a flag is for -/

namespace FlagForm

variable {form : FlagForm} {flag : String} {name : Option String}

/-- The form has a place for a name. -/
def HasPlace (form : FlagForm) : Prop := form.pattern.hasGroup 1 = true

/-- The form fits the front of a flag. -/
def Fits (form : FlagForm) (flag : String) : Prop := form.pattern.matchFront? flag ≠ none

/-- The form fits a flag and has a place for a name, in which this one stands, or nothing. -/
def Holds (form : FlagForm) (flag : String) (name : Option String) : Prop :=
  form.HasPlace ∧ ∃ m, form.pattern.matchFront? flag = some m ∧ m.group? 1 = name

theorem Holds.fits (h : form.Holds flag name) : form.Fits flag := by
  obtain ⟨_, m, hm, _⟩ := h
  simp [Fits, hm]

theorem exists_holds (hplace : form.HasPlace) (hfits : form.Fits flag) :
    ∃ name, form.Holds flag name := by
  obtain ⟨m, hm⟩ := Option.ne_none_iff_exists'.mp hfits
  exact ⟨m.group? 1, hplace, m, hm, rfl⟩

theorem name?_of_not_fits (h : ¬ form.Fits flag) : form.name? flag = .ok none := by
  have hnone : form.pattern.matchFront? flag = none := not_not.mp h
  rw [name?, hnone]

theorem name?_of_holds (h : form.Holds flag name) : form.name? flag = .ok (some name) := by
  obtain ⟨hplace, m, hm, rfl⟩ := h
  simp only [name?, hm]
  exact if_pos hplace

theorem name?_of_not_hasPlace (hfits : form.Fits flag) (h : ¬ form.HasPlace) :
    form.name? flag = .error .outOfRange := by
  obtain ⟨m, hm⟩ := Option.ne_none_iff_exists'.mp hfits
  simp only [name?, hm]
  exact if_neg h

/-- Where the form has to go through the place for the name, a name stands there. -/
theorem Holds.ne_none (h : form.Holds flag name) (hform : form.pattern.goesThrough 1 = true) :
    name ≠ none := by
  obtain ⟨_, m, hm, rfl⟩ := h
  obtain ⟨y, hy, rfl⟩ := Text.Pattern.exists_of_matchFront? hm
  have hsome := Text.Pattern.isSome_lookup_of_mem_ends hform (Nat.zero_le _) hy
  obtain ⟨place, hplace⟩ := Option.isSome_iff_exists.mp hsome
  simp only [Text.Pattern.Found.group?, hplace]
  exact Option.some_ne_none _

end FlagForm

namespace FlagStyle

variable {style : FlagStyle} {flag : String} {purpose : LinkFlag}

/-- The flag switches between shared and static libraries. -/
def IsMarker (style : FlagStyle) (flag : String) : Prop :=
  style.sharedMarker = some flag ∨ style.staticMarker = some flag

/-- The flag is for the compiler's warnings and not handed on to the linker. -/
def IsWarning (flag : String) : Prop := "-W".toList <+: flag.toList ∧ ¬ "-Wl,".toList <+: flag.toList

theorem isWarning_eq_true_iff : isWarning flag = true ↔ IsWarning flag := by
  simp only [isWarning, IsWarning, Text.startsWith, Bool.and_eq_true, Bool.not_eq_true',
    List.isPrefixOf_iff_prefix, ← Bool.not_eq_true]

/-- What a flag is for.  Every description counts only where no earlier one fits. -/
inductive Serves (style : FlagStyle) (flag : String) : LinkFlag → Prop
  | shared (h : style.sharedMarker = some flag) : Serves style flag (.marker true)
  | static (h : style.staticMarker = some flag) : Serves style flag (.marker false)
  | path {dir : Option String} (hmarker : ¬ style.IsMarker flag) (h : style.libraryPath.Holds flag dir) :
      Serves style flag (.path dir)
  | library {name : Option String} (hmarker : ¬ style.IsMarker flag)
      (hpath : ¬ style.libraryPath.Fits flag) (h : style.library.Holds flag name) :
      Serves style flag (.library name)
  | warning (hmarker : ¬ style.IsMarker flag) (hpath : ¬ style.libraryPath.Fits flag)
      (hlibrary : ¬ style.library.Fits flag) (h : IsWarning flag) : Serves style flag .warning
  | other (hmarker : ¬ style.IsMarker flag) (hpath : ¬ style.libraryPath.Fits flag)
      (hlibrary : ¬ style.library.Fits flag) (h : ¬ IsWarning flag) : Serves style flag .other

/-- The first form that fits the flag has no place for a name. -/
inductive Nameless (style : FlagStyle) (flag : String) : Prop
  | path (hmarker : ¬ style.IsMarker flag) (hfits : style.libraryPath.Fits flag)
      (h : ¬ style.libraryPath.HasPlace)
  | library (hmarker : ¬ style.IsMarker flag) (hpath : ¬ style.libraryPath.Fits flag)
      (hfits : style.library.Fits flag) (h : ¬ style.library.HasPlace)

/-- The two markers can be told apart, if there are two. -/
def Distinct (style : FlagStyle) : Prop :=
  style.sharedMarker = style.staticMarker → style.sharedMarker = none

/-- One of the descriptions fits, unless a form fits that has no place for a name. -/
theorem serves_or_nameless (style : FlagStyle) (flag : String) :
    (∃ purpose, style.Serves flag purpose) ∨ style.Nameless flag := by
  by_cases hshared : style.sharedMarker = some flag
  · exact Or.inl ⟨_, .shared hshared⟩
  by_cases hstatic : style.staticMarker = some flag
  · exact Or.inl ⟨_, .static hstatic⟩
  have hmarker : ¬ style.IsMarker flag := fun h => h.elim hshared hstatic
  by_cases hpath : style.libraryPath.Fits flag
  · by_cases hplace : style.libraryPath.HasPlace
    · obtain ⟨dir, hdir⟩ := FlagForm.exists_holds hplace hpath
      exact Or.inl ⟨_, .path hmarker hdir⟩
    · exact Or.inr (.path hmarker hpath hplace)
  by_cases hlibrary : style.library.Fits flag
  · by_cases hplace : style.library.HasPlace
    · obtain ⟨name, hname⟩ := FlagForm.exists_holds hplace hlibrary
      exact Or.inl ⟨_, .library hmarker hpath hname⟩
    · exact Or.inr (.library hmarker hpath hlibrary hplace)
  by_cases hwarning : IsWarning flag
  · exact Or.inl ⟨_, .warning hmarker hpath hlibrary hwarning⟩
  · exact Or.inl ⟨_, .other hmarker hpath hlibrary hwarning⟩

theorem not_beq_of_not_isMarker (h : ¬ style.IsMarker flag) :
    ¬ (some flag == style.sharedMarker) = true ∧ ¬ (some flag == style.staticMarker) = true := by
  refine ⟨?_, ?_⟩
  · intro e
    exact h (Or.inl (beq_iff_eq.mp e).symm)
  · intro e
    exact h (Or.inr (beq_iff_eq.mp e).symm)

/-- The description that fits first is found. -/
theorem linkFlag_of_serves (hdistinct : style.Distinct) (h : style.Serves flag purpose) :
    style.linkFlag flag = .ok purpose := by
  unfold linkFlag
  cases h with
  | shared h =>
    rw [h, if_pos (beq_self_eq_true _)]
    rfl
  | static h =>
    have hshared : ¬ (some flag == style.sharedMarker) = true := by
      intro e
      have hnone := hdistinct ((beq_iff_eq.mp e).symm.trans h.symm)
      rw [hnone] at e
      cases e
    rw [if_neg hshared, h, if_pos (beq_self_eq_true _)]
    rfl
  | path hmarker h =>
    obtain ⟨hshared, hstatic⟩ := not_beq_of_not_isMarker hmarker
    rw [if_neg hshared, if_neg hstatic, FlagForm.name?_of_holds h]
    rfl
  | library hmarker hpath h =>
    obtain ⟨hshared, hstatic⟩ := not_beq_of_not_isMarker hmarker
    rw [if_neg hshared, if_neg hstatic, FlagForm.name?_of_not_fits hpath, FlagForm.name?_of_holds h]
    rfl
  | warning hmarker hpath hlibrary h =>
    obtain ⟨hshared, hstatic⟩ := not_beq_of_not_isMarker hmarker
    rw [if_neg hshared, if_neg hstatic, FlagForm.name?_of_not_fits hpath,
      FlagForm.name?_of_not_fits hlibrary, isWarning_eq_true_iff.mpr h]
    rfl
  | other hmarker hpath hlibrary h =>
    obtain ⟨hshared, hstatic⟩ := not_beq_of_not_isMarker hmarker
    rw [if_neg hshared, if_neg hstatic, FlagForm.name?_of_not_fits hpath,
      FlagForm.name?_of_not_fits hlibrary, Bool.eq_false_iff.mpr fun e => h (isWarning_eq_true_iff.mp e)]
    rfl

/-- A flag of a form that has no place for a name cannot be taken apart. -/
theorem linkFlag_of_nameless (h : style.Nameless flag) : style.linkFlag flag = .error .outOfRange := by
  unfold linkFlag
  cases h with
  | path hmarker hfits h =>
    obtain ⟨hshared, hstatic⟩ := not_beq_of_not_isMarker hmarker
    rw [if_neg hshared, if_neg hstatic, FlagForm.name?_of_not_hasPlace hfits h]
    rfl
  | library hmarker hpath hfits h =>
    obtain ⟨hshared, hstatic⟩ := not_beq_of_not_isMarker hmarker
    rw [if_neg hshared, if_neg hstatic, FlagForm.name?_of_not_fits hpath,
      FlagForm.name?_of_not_hasPlace hfits h]
    rfl

/-- **What is found is the first description that fits.** -/
theorem linkFlag_eq_ok_iff (hdistinct : style.Distinct) :
    style.linkFlag flag = .ok purpose ↔ style.Serves flag purpose := by
  refine ⟨?_, linkFlag_of_serves hdistinct⟩
  intro h
  rcases style.serves_or_nameless flag with ⟨found, hfound⟩ | hnameless
  · rw [linkFlag_of_serves hdistinct hfound] at h
    exact Except.ok.inj h ▸ hfound
  · rw [linkFlag_of_nameless hnameless] at h
    cases h

theorem existsUnique_serves (hdistinct : style.Distinct) (h : ¬ style.Nameless flag) :
    ∃! purpose, style.Serves flag purpose := by
  obtain ⟨purpose, hpurpose⟩ := (style.serves_or_nameless flag).resolve_right h
  refine ⟨purpose, hpurpose, ?_⟩
  intro found hfound
  have heq :=
    ((linkFlag_eq_ok_iff hdistinct).mpr hfound).symm.trans ((linkFlag_eq_ok_iff hdistinct).mpr hpurpose)
  exact Except.ok.inj heq

/-- With forms that have a place for the name no flag is nameless. -/
theorem not_nameless (hpath : style.libraryPath.HasPlace) (hlibrary : style.library.HasPlace) :
    ¬ style.Nameless flag := by
  intro h
  cases h with
  | path _ _ h => exact h hpath
  | library _ _ _ h => exact h hlibrary

end FlagStyle

/-! ## The parts of a list -/

namespace LinkFlag

/-- The directory that a flag names; the place for it can be empty. -/
def dir? : LinkFlag → Option (Option String)
  | path dir => some dir
  | _ => none

/-- The library that a flag names; the place for it can be empty. -/
def name? : LinkFlag → Option (Option String)
  | library name => some name
  | _ => none

/-- What a marker switches to. -/
def marker? : LinkFlag → Option Bool
  | marker shared => some shared
  | _ => none

/-- Whether a flag goes into no part. -/
def isDropped : LinkFlag → Bool
  | marker _ | warning => true
  | _ => false

/-- Whether libraries are shared behind some flags: the nearest marker decides, and without one they
    are as at the beginning. -/
def sharedAfter (shared : Bool) (purposes : List LinkFlag) : Bool :=
  (purposes.filterMap marker?).getLast?.getD shared

/-- The libraries of a list that are shared, or those that are static. -/
def libraries (shared : Bool) (purposes : List LinkFlag) (wanted : Bool) :
    List (Option String) :=
  purposes.zipIdx.filterMap fun e =>
    if sharedAfter shared (purposes.take e.2) = wanted then e.1.name? else none

variable {shared : Bool} {purpose : LinkFlag} {purposes : List LinkFlag}

theorem eq_path_of_dir? {dir : Option String} (h : purpose.dir? = some dir) : purpose = .path dir := by
  cases purpose with
  | path _ => exact congrArg path (Option.some.inj h)
  | _ => cases h

theorem eq_library_of_name? {name : Option String} (h : purpose.name? = some name) :
    purpose = .library name := by
  cases purpose with
  | library _ => exact congrArg library (Option.some.inj h)
  | _ => cases h

theorem library_mem_of_mem_libraries {name : Option String} {wanted : Bool}
    (h : name ∈ libraries shared purposes wanted) : .library name ∈ purposes := by
  obtain ⟨e, he, hname⟩ := List.mem_filterMap.mp h
  rw [Option.ite_none_right_eq_some] at hname
  exact eq_library_of_name? hname.2 ▸ List.fst_mem_of_mem_zipIdx he

theorem sharedAfter_cons (shared : Bool) (purpose : LinkFlag) (purposes : List LinkFlag) :
    sharedAfter shared (purpose :: purposes) = sharedAfter (purpose.marker?.getD shared) purposes := by
  unfold sharedAfter
  cases h : purpose.marker? with
  | none => rw [List.filterMap_cons_none h, Option.getD_none]
  | some switched =>
    rw [List.filterMap_cons_some h, List.getLast?_cons]
    rfl

/-- The first flag stands behind no marker, and for the others it can be one. -/
theorem libraries_cons (shared : Bool) (purpose : LinkFlag) (purposes : List LinkFlag) (wanted : Bool) :
    libraries shared (purpose :: purposes) wanted =
      (if shared = wanted then purpose.name?.toList else []) ++
        libraries (purpose.marker?.getD shared) purposes wanted := by
  have hrest :
      (purposes.zipIdx 1).filterMap
        (fun e => if sharedAfter shared ((purpose :: purposes).take e.2) = wanted
      then e.1.name? else none) = libraries (purpose.marker?.getD shared) purposes wanted := by
    rw [List.zipIdx_succ, List.filterMap_map]
    unfold libraries
    refine List.filterMap_congr ?_
    intro e _
    simp only [Function.comp_apply, List.take_succ_cons, sharedAfter_cons]
  have hfirst : sharedAfter shared ((purpose :: purposes).take 0) = shared := rfl
  rw [← hrest]
  unfold libraries
  rw [List.zipIdx_cons, Nat.zero_add]
  by_cases hwanted : shared = wanted
  · cases hname : purpose.name? with
    | none =>
      rw [List.filterMap_cons_none (by rw [hfirst, if_pos hwanted, hname]), if_pos hwanted]
      rfl
    | some name =>
      rw [List.filterMap_cons_some (by rw [hfirst, if_pos hwanted, hname]), if_pos hwanted]
      rfl
  · rw [List.filterMap_cons_none (by rw [hfirst, if_neg hwanted]), if_neg hwanted]
    rfl

end LinkFlag

namespace LinkParts

open LinkFlag

/-- The parts of two lists one after the other. -/
def append (x y : LinkParts) : LinkParts where
  stlibs := x.stlibs ++ y.stlibs
  libs := x.libs ++ y.libs
  libpaths := x.libpaths ++ y.libpaths
  flags := x.flags ++ y.flags

/-- The parts of a list of flags, of which the purposes are known.  `shared` says whether libraries
    are shared before the first marker. -/
structure Sorted (parts : LinkParts) (shared : Bool) (flags : List String)
    (purposes : List LinkFlag) : Prop where
  /-- The directories in order. -/
  libpaths : parts.libpaths = purposes.filterMap dir?
  /-- The libraries behind no static marker, in order. -/
  libs : parts.libs = libraries shared purposes true
  /-- The libraries behind a static marker, in order. -/
  stlibs : parts.stlibs = libraries shared purposes false
  /-- The other flags as they are, in order. -/
  others : parts.flags = ((flags.zip purposes).filter (·.2 = .other)).map (·.1)
  /-- Nothing is left out but markers and warnings. -/
  whole : parts.stlibs.length + parts.libs.length + parts.libpaths.length + parts.flags.length +
    purposes.countP isDropped = flags.length

/-- The parts of one flag. -/
def single (shared : Bool) (flag : String) (purpose : LinkFlag) : LinkParts where
  stlibs := if shared = false then purpose.name?.toList else []
  libs := if shared = true then purpose.name?.toList else []
  libpaths := purpose.dir?.toList
  flags := if purpose = .other then [flag] else []

variable {shared : Bool} {flags : List String} {purposes : List LinkFlag}

/-- Sorting takes one flag at a time, and a marker says how to go on. -/
theorem ofFlags_cons (shared : Bool) (flag : String) (purpose : LinkFlag)
    (rest : List (String × LinkFlag)) :
    ofFlags shared ((flag, purpose) :: rest) =
      (single shared flag purpose).append (ofFlags (purpose.marker?.getD shared) rest) := by
  cases purpose <;> cases shared <;> rfl

theorem append_assoc (x y z : LinkParts) : (x.append y).append z = x.append (y.append z) := by
  simp only [append, List.append_assoc]

/-- A flag gives one member to one part, unless it is left out. -/
theorem length_single (shared : Bool) (flag : String) (purpose : LinkFlag) :
    (single shared flag purpose).stlibs.length + (single shared flag purpose).libs.length +
      (single shared flag purpose).libpaths.length + (single shared flag purpose).flags.length +
      (if purpose.isDropped then 1 else 0) = 1 := by
  cases purpose <;> cases shared <;> rfl

theorem filterMap_cons_toList {α β : Type} (f : α → Option β) (a : α) (as : List α) :
    (a :: as).filterMap f = (f a).toList ++ as.filterMap f := by
  cases h : f a with
  | none => rw [List.filterMap_cons_none h, Option.toList_none, List.nil_append]
  | some b => rw [List.filterMap_cons_some h, Option.toList_some, List.singleton_append]

/-- **What sorting gives, said without going through the list.** -/
theorem sorted_ofFlags (shared : Bool) (hlength : flags.length = purposes.length) :
    (ofFlags shared (flags.zip purposes)).Sorted shared flags purposes := by
  induction flags generalizing shared purposes with
  | nil =>
    obtain rfl : purposes = [] := List.length_eq_zero_iff.mp hlength.symm
    exact ⟨rfl, rfl, rfl, rfl, rfl⟩
  | cons flag flags ih =>
    obtain ⟨purpose, purposes, rfl⟩ := List.exists_cons_of_length_eq_add_one hlength.symm
    have hrest : flags.length = purposes.length := by simpa using hlength
    obtain ⟨hpaths, hlibs, hstlibs, hothers, hwhole⟩ := ih (purpose.marker?.getD shared) hrest
    rw [List.zip_cons_cons, ofFlags_cons]
    refine ⟨?_, ?_, ?_, ?_, ?_⟩
    · rw [filterMap_cons_toList, ← hpaths]
      rfl
    · rw [libraries_cons, ← hlibs]
      rfl
    · rw [libraries_cons, ← hstlibs]
      rfl
    · rw [List.zip_cons_cons, append, hothers]
      by_cases hother : purpose = .other
      · simp [single, hother]
      · simp [single, hother]
    · have hone := length_single shared flag purpose
      simp only [append, List.length_append, List.length_cons, List.countP_cons]
      omega

/-- **Sorting can be stopped and taken up again** in the mode that the markers have led to. -/
theorem ofFlags_append (shared : Bool) (xs ys : List (String × LinkFlag)) :
    ofFlags shared (xs ++ ys)
      = (ofFlags shared xs).append (ofFlags (sharedAfter shared (xs.map (·.2))) ys) := by
  induction xs generalizing shared with
  | nil => rfl
  | cons x xs ih =>
    show ofFlags shared ((x.1, x.2) :: (xs ++ ys)) = (ofFlags shared ((x.1, x.2) :: xs)).append _
    rw [ofFlags_cons, ofFlags_cons, ih, append_assoc, List.map_cons, sharedAfter_cons]

end LinkParts

/-! ## Lists of flags -/

namespace FlagStyle

variable {style : FlagStyle} {flags : List String} {purposes : List LinkFlag} {shared : Bool}

/-- Sorts linker flags, as at a place of a list where libraries are shared, or static. -/
def linkPartsFrom (style : FlagStyle) (shared : Bool) (flags : List String) :
    Except Failure LinkParts := do
  return .ofFlags shared (← flags.mapM fun flag => do return (flag, ← style.linkFlag flag))

theorem mapM_of_serves (hdistinct : style.Distinct) (h : List.Forall₂ style.Serves flags purposes) :
    (flags.mapM fun flag => do return (flag, ← style.linkFlag flag)) = .ok (flags.zip purposes) := by
  induction h with
  | nil => rfl
  | cons hfirst _ ih =>
    rw [List.mapM_cons, linkFlag_of_serves hdistinct hfirst, ih]
    rfl

theorem linkPartsFrom_of_serves (hdistinct : style.Distinct) (shared : Bool)
    (h : List.Forall₂ style.Serves flags purposes) :
    style.linkPartsFrom shared flags = .ok (.ofFlags shared (flags.zip purposes)) := by
  rw [linkPartsFrom, mapM_of_serves hdistinct h]
  rfl

/-- If there is no such flag, every flag serves some purpose. -/
theorem exists_serves (h : ∀ flag ∈ flags, ¬ style.Nameless flag) :
    ∃ purposes, List.Forall₂ style.Serves flags purposes := by
  induction flags with
  | nil => exact ⟨[], .nil⟩
  | cons flag flags ih =>
    obtain ⟨purposes, hpurposes⟩ := ih fun other hother => h other (List.mem_cons_of_mem _ hother)
    obtain ⟨purpose, hpurpose⟩ :=
      (style.serves_or_nameless flag).resolve_right (h flag List.mem_cons_self)
    exact ⟨purpose :: purposes, .cons hpurpose hpurposes⟩

/-- A nameless flag ends the sorting, whatever stands before it. -/
theorem linkParts_of_nameless (hdistinct : style.Distinct) {flag : String} (hmem : flag ∈ flags)
    (h : style.Nameless flag) : style.linkParts flags = .error .outOfRange := by
  have hmapM : (flags.mapM fun flag => do return (flag, ← style.linkFlag flag))
      = .error .outOfRange := by
    induction hmem with
    | head rest =>
      rw [List.mapM_cons, linkFlag_of_nameless h]
      rfl
    | tail first _ ih =>
      rw [List.mapM_cons]
      rcases style.serves_or_nameless first with ⟨purpose, hpurpose⟩ | hfirst
      · rw [linkFlag_of_serves hdistinct hpurpose, ih]
        rfl
      · rw [linkFlag_of_nameless hfirst]
        rfl
  rw [linkParts, hmapM]
  rfl

/-- A purpose comes from a flag that serves it. -/
theorem exists_of_mem_purposes (h : List.Forall₂ style.Serves flags purposes) {purpose : LinkFlag}
    (hmem : purpose ∈ purposes) : ∃ flag ∈ flags, style.Serves flag purpose := by
  induction h with
  | nil => cases hmem
  | cons hfirst _ ih =>
    rcases List.mem_cons.mp hmem with rfl | hmem
    · exact ⟨_, List.mem_cons_self, hfirst⟩
    · obtain ⟨flag, hflag, hserves⟩ := ih hmem
      exact ⟨flag, List.mem_cons_of_mem _ hflag, hserves⟩

/-- Forms that go through the place for the name leave no empty place in the parts. -/
theorem named_of_serves (h : List.Forall₂ style.Serves flags purposes) {parts : LinkParts}
    (hsorted : parts.Sorted shared flags purposes) :
    (style.libraryPath.pattern.goesThrough 1 = true → none ∉ parts.libpaths) ∧
    (style.library.pattern.goesThrough 1 = true → none ∉ parts.libs ∧ none ∉ parts.stlibs) := by
  refine ⟨?_, ?_⟩
  · intro hform hmem
    rw [hsorted.libpaths] at hmem
    obtain ⟨purpose, hpurpose, hdir⟩ := List.mem_filterMap.mp hmem
    obtain rfl := LinkFlag.eq_path_of_dir? hdir
    obtain ⟨flag, _, hserves⟩ := exists_of_mem_purposes h hpurpose
    cases hserves with
    | path _ hholds => exact hholds.ne_none hform rfl
  · intro hform
    have hnone : ∀ wanted, none ∉ LinkFlag.libraries shared purposes wanted := by
      intro wanted hmem
      obtain ⟨flag, _, hserves⟩ := exists_of_mem_purposes h (LinkFlag.library_mem_of_mem_libraries hmem)
      cases hserves with
      | library _ _ hholds => exact hholds.ne_none hform rfl
    rw [hsorted.libs, hsorted.stlibs]
    exact ⟨hnone true, hnone false⟩

/-- Where a list is cut in two, the second half is sorted in the mode that the first one leads to. -/
theorem linkPartsFrom_append (shared : Bool) (hdistinct : style.Distinct) {a b : List String}
    (h : List.Forall₂ style.Serves (a ++ b) purposes) :
    ∃ x y, style.linkPartsFrom shared a = .ok x ∧
      style.linkPartsFrom (LinkFlag.sharedAfter shared (purposes.take a.length)) b = .ok y ∧
      style.linkPartsFrom shared (a ++ b) = .ok (x.append y) := by
  have hfirst : List.Forall₂ style.Serves a (purposes.take a.length) := by
    simpa using List.forall₂_take a.length h
  have hsecond : List.Forall₂ style.Serves b (purposes.drop a.length) := by
    simpa using List.forall₂_drop a.length h
  refine ⟨_, _, linkPartsFrom_of_serves hdistinct _ hfirst,
    linkPartsFrom_of_serves hdistinct _ hsecond, ?_⟩
  have hzip :
      (a ++ b).zip purposes = a.zip (purposes.take a.length) ++ b.zip (purposes.drop a.length) := by
    rw [← List.zip_append hfirst.length_eq, List.take_append_drop]
  rw [linkPartsFrom_of_serves hdistinct _ h, hzip, LinkParts.ofFlags_append,
    List.map_snd_zip (Nat.le_of_eq hfirst.length_eq.symm)]

/-- **Sorting flags for the linker is a partition, in which the nearest marker decides.** -/
theorem linkParts_partition (style : FlagStyle) (hdistinct : style.Distinct) (flags : List String) :
    (∀ flag, ¬ style.Nameless flag → ∃! purpose, style.Serves flag purpose) ∧
    ((∃ flag ∈ flags, style.Nameless flag) → style.linkParts flags = .error .outOfRange) ∧
    ((∀ flag ∈ flags, ¬ style.Nameless flag) →
      ∃ purposes parts, List.Forall₂ style.Serves flags purposes ∧
      style.linkParts flags = .ok parts ∧ parts.Sorted true flags purposes ∧
      (style.libraryPath.pattern.goesThrough 1 = true → none ∉ parts.libpaths) ∧
      (style.library.pattern.goesThrough 1 = true → none ∉ parts.libs ∧ none ∉ parts.stlibs) ∧
      ∀ a b, flags = a ++ b → ∃ x y, style.linkParts a = .ok x ∧
        style.linkPartsFrom (LinkFlag.sharedAfter true (purposes.take a.length)) b = .ok y ∧
        parts = x.append y) := by
  refine ⟨?_, ?_, ?_⟩
  · intro flag h
    exact existsUnique_serves hdistinct h
  · rintro ⟨flag, hmem, h⟩
    exact linkParts_of_nameless hdistinct hmem h
  · intro h
    obtain ⟨purposes, hpurposes⟩ := exists_serves h
    have hparts := linkPartsFrom_of_serves hdistinct true hpurposes
    have hsorted := LinkParts.sorted_ofFlags true hpurposes.length_eq
    obtain ⟨hpaths, hlibraries⟩ := named_of_serves hpurposes hsorted
    refine ⟨purposes, _, hpurposes, hparts, hsorted, hpaths, hlibraries, ?_⟩
    rintro a b rfl
    obtain ⟨x, y, hx, hy, hxy⟩ := linkPartsFrom_append true hdistinct hpurposes
    exact ⟨x, y, hx, hy, Except.ok.inj (hparts.symm.trans hxy)⟩

/-- Flags of every kind, with libraries on both sides of the markers. -/
def mixed : List String :=
  ["-lm", "-L/opt/lib", "-Wl,-Bstatic", "-lz", "-Wall", "-Wl,-rpath", "-Wl,-Bdynamic", "-lc"]

/-- Flags of all kinds are parted by the purposes that they serve. -/
theorem linkParts_partition_mixed :
    gnu.Distinct ∧ (∀ flag ∈ mixed, ¬ gnu.Nameless flag) ∧
    ∃ purposes parts, List.Forall₂ gnu.Serves mixed purposes ∧ gnu.linkParts mixed = .ok parts ∧
      parts.Sorted true mixed purposes ∧
      parts = { stlibs := [some "z"], libs := [some "m", some "c"], libpaths := [some "/opt/lib"]
                flags := ["-Wl,-rpath"] } := by
  have hdistinct : gnu.Distinct := by
    intro e
    exact absurd e (by decide)
  have hnames : ∀ flag ∈ mixed, ¬ gnu.Nameless flag := by
    intro flag _
    exact not_nameless rfl rfl
  refine ⟨hdistinct, hnames, ?_⟩
  obtain ⟨_, _, h⟩ := linkParts_partition gnu hdistinct mixed
  obtain ⟨purposes, parts, hserves, hparts, hsorted, _⟩ := h hnames
  have hvalue : gnu.linkParts mixed = .ok
      { stlibs := [some "z"], libs := [some "m", some "c"], libpaths := [some "/opt/lib"]
        flags := ["-Wl,-rpath"] } := by
    decide +kernel
  exact ⟨purposes, parts, hserves, hparts, hsorted, Except.ok.inj (hparts.symm.trans hvalue)⟩

-- Where a match passes the place for the name by, an empty one is noted and sorting goes on.
example :
    { gnu with library := ⟨.seq (.literal "-l") (.loop 0 (some 1) .most FlagForm.namePattern)⟩
      }.linkParts
      ["-l", "-lm", "-v"] = .ok { libs := [none, some "m"], flags := ["-v"] } := by
  decide +kernel

end FlagStyle

end BuildMeta
