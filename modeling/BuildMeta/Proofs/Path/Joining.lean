import BuildMeta.Path.Style
import Mathlib.Data.List.Basic

/-!
# `Proofs.Path.Joining` — names in directories

A name that is put into a directory stands behind it, with a separator in between if one is missing.
Which one that is depends on how a machine writes paths (`Style.gap`).

* `join_of_isName` — what joining gives, for names that begin with no separator and no drive;
* `ends_closed_iff` — the directories of which a name is separated by a slash;
* `closed_closed` — a slash that is put behind a directory makes no difference to the names in it.
-/

namespace BuildMeta.Path

/-- A name begins with no separator and no drive. -/
def IsName (name : String) : Prop :=
  ∃ a b rest, name.toList = a :: b :: rest ∧ Windows.isSeparator a = false ∧ b ≠ ':'

/-! ## Drives -/

namespace Windows

theorem cutShare_append (s : List Char) : (cutShare s).1 ++ (cutShare s).2 = s := by
  unfold cutShare
  split
  · exact List.append_nil s
  · next c rest hrest =>
    rw [List.append_assoc, List.cons_append, List.takeWhile_append_dropWhile, ← hrest,
      List.takeWhile_append_dropWhile]

/-- What follows a shared directory begins with a separator. -/
theorem head?_cutShare (s : List Char) : (cutShare s).2.head?.any (!isSeparator ·) = false := by
  unfold cutShare
  split
  · rfl
  · next c rest _ =>
    have hhead := List.head?_dropWhile_not (!isSeparator ·) rest
    cases hfirst : (rest.dropWhile (!isSeparator ·)).head? with
    | none => rfl
    | some first =>
      rw [hfirst] at hhead
      exact hhead

theorem cutDrive_append (s : List Char) : (cutDrive s).1 ++ (cutDrive s).2 = s := by
  unfold cutDrive
  split
  · next a b rest =>
    split
    · rw [List.append_assoc, cutShare_append, List.take_append_drop]
    · split <;> rfl
  · rfl

/-- What follows a drive begins with a separator, unless the drive is a letter. -/
theorem head?_cutDrive (s : List Char) :
    ((cutDrive s).2.head?.any (!isSeparator ·) && (cutDrive s).1.getLast?.any (· != ':')) = false := by
  unfold cutDrive
  split
  · next a b rest =>
    split
    · rw [head?_cutShare, Bool.false_and]
    · split
      · next hcolon => simp_all
      · simp
  · simp

/-- What is put behind a path on a drive stands behind the path. -/
theorem onDrive_append {s : List Char} (hpath : (cutDrive s).2 ≠ []) (more : List Char) :
    onDrive (cutDrive s).1 ((cutDrive s).2 ++ more) = s ++ more := by
  have hsplit := cutDrive_append s
  have hhead := head?_cutDrive s
  unfold onDrive
  rw [List.head?_append_of_ne_nil _ hpath, hhead, if_neg Bool.false_ne_true, ← List.append_assoc, hsplit]

/-- A name is no drive and is on none. -/
theorem cutDrive_of_isName {name : String} (hname : IsName name) :
    cutDrive name.toList = ([], name.toList) := by
  obtain ⟨a, b, rest, htext, ha, hb⟩ := hname
  rw [htext, cutDrive, ha, Bool.false_and, if_neg Bool.false_ne_true, if_neg (by simpa using hb)]

/-- What is written between a directory and a name in it. -/
def gap (s : List Char) : List Char :=
  let (drive, path) := cutDrive s
  let isOpen := path.getLast?.any (!isSeparator ·) || path.isEmpty && drive.getLast?.any (· != ':')
  if isOpen then ['\\'] else []

theorem gap_eq_nil_or (s : List Char) : gap s = [] ∨ gap s = ['\\'] := by
  unfold gap
  dsimp only
  split
  · exact Or.inr rfl
  · exact Or.inl rfl

/-- On Windows a name is put behind a drive and a path as it is behind the text of both, with the
    gap between them. -/
theorem onDrive_name (s : List Char) {name : List Char} (hne : name ≠ [])
    (hname : name.head?.any isSeparator = false) :
    onDrive (cutDrive s).1 (append (cutDrive s).2 name) = s ++ gap s ++ name := by
  have hfirst : name.head?.any (!isSeparator ·) = true := by
    obtain ⟨c, rest, rfl⟩ := List.exists_cons_of_ne_nil hne
    simpa using hname
  by_cases hpath : (cutDrive s).2 = []
  · have hdrive : (cutDrive s).1 = s := by
      have hsplit := cutDrive_append s
      rwa [hpath, List.append_nil] at hsplit
    have happend : append [] name = name := by rw [append, List.getLast?_nil, Option.any_none]; rfl
    rw [hpath, happend, hdrive]
    simp only [gap, onDrive, hpath, hdrive, hfirst, List.getLast?_nil, Option.any_none, Bool.true_and,
      Bool.false_or, List.isEmpty_nil]
    split
    · rw [List.append_assoc]
      rfl
    · rw [List.append_nil]
  · have hempty : (cutDrive s).2.isEmpty = false := by simpa using hpath
    simp only [append, gap, hempty, Bool.false_and, Bool.or_false]
    split
    · rw [onDrive_append hpath, List.append_assoc]
      rfl
    · rw [onDrive_append hpath, List.append_nil]

end Windows

/-! ## What is written before a name -/

namespace Style

variable {style : Style} {dir name : String}

/-- What a machine writes between a directory and a name in it. -/
def gap : Style → String → String
  | posix, dir => if dir == "" || Text.endsWith dir "/" then "" else "/"
  | windows, dir => String.ofList (Windows.gap dir.toList)

/-- A directory with what stands before the names in it. -/
def closed (style : Style) (dir : String) : String := dir ++ style.gap dir

/-- **What joining a name to a directory gives.** -/
theorem join_of_isName (style : Style) (dir : String) (hname : IsName name) :
    style.join dir name = style.closed dir ++ name := by
  obtain ⟨a, b, rest, htext, ha, hb⟩ := id hname
  cases style with
  | posix =>
    have habsolute : isAbsolute name = false := by
      have hslash : ¬ '/' = a := by
        rintro rfl
        cases ha
      rw [isAbsolute, Text.startsWith, htext]
      simp [List.isPrefixOf, hslash]
    show Path.join dir name = dir ++ (if dir == "" || Text.endsWith dir "/" then "" else "/") ++ name
    unfold Path.join
    rw [habsolute, if_neg Bool.false_ne_true]
    split
    · rw [String.append_empty]
    · rfl
  | windows =>
    have hfirst : name.toList.head?.any Windows.isSeparator = false := by
      rw [htext]
      exact ha
    have hjoin : Windows.join dir name = String.ofList (Windows.onDrive (Windows.cutDrive dir.toList).1
        (Windows.append (Windows.cutDrive dir.toList).2 name.toList)) := by
      unfold Windows.join
      rw [Windows.cutDrive_of_isName hname]
      dsimp only
      rw [hfirst, if_neg Bool.false_ne_true]
      rfl
    show Windows.join dir name = dir ++ String.ofList (Windows.gap dir.toList) ++ name
    rw [hjoin, Windows.onDrive_name _ (by simp [htext]) hfirst, ← String.toList_inj]
    simp

/-- A name is separated from the directory by a slash.  Where backslashes are written, the directory
    has to end with one, which has to be behind the drive. -/
def Slashes : Style → String → Prop
  | posix, _ => True
  | windows, dir => Text.endsWith dir "/" = true ∧ (Windows.cutDrive dir.toList).2 ≠ []

theorem toList_of_endsWith (h : Text.endsWith dir "/" = true) :
    ∃ front, dir.toList = front ++ ['/'] := by
  obtain ⟨front, hfront⟩ := List.isSuffixOf_iff_suffix.mp h
  exact ⟨front, hfront.symm⟩

/-- Behind a slash nothing else is written, unless the drive ends with it. -/
theorem gap_of_slash_iff {s front : List Char} (hslash : s = front ++ ['/']) :
    Windows.gap s = [] ↔ (Windows.cutDrive s).2 ≠ [] := by
  have hsplit := Windows.cutDrive_append s
  have hlast : s.getLast? = some '/' := by rw [hslash, List.getLast?_concat]
  unfold Windows.gap
  dsimp only
  by_cases hpath : (Windows.cutDrive s).2 = []
  · have hdrive : (Windows.cutDrive s).1 = s := by rwa [hpath, List.append_nil] at hsplit
    simp [hpath, hdrive, hlast]
  · have hlast' : (Windows.cutDrive s).2.getLast? = some '/' := by
      rw [← hsplit, List.getLast?_append_of_ne_nil _ hpath] at hlast
      exact hlast
    simp [hpath, hlast', Windows.isSeparator]

theorem Slashes.closed_windows (h : windows.Slashes dir) : windows.closed dir = dir := by
  obtain ⟨front, hfront⟩ := toList_of_endsWith h.1
  have hgap := (gap_of_slash_iff hfront).mpr h.2
  show dir ++ String.ofList (Windows.gap dir.toList) = dir
  rw [hgap]
  exact String.append_empty

/-- Where a slash separates a directory from a name, the closed directory ends with a slash behind
    characters of its own. -/
theorem Slashes.exists_closed (h : style.Slashes dir) (hdir : dir ≠ "") :
    ∃ front, (style.closed dir).toList = front ++ ['/'] ∧ ∀ c ∈ front, c ∈ dir.toList := by
  have hkept : Text.endsWith dir "/" = true → ∃ front, dir.toList = front ++ ['/'] ∧
      ∀ c ∈ front, c ∈ dir.toList := by
    intro hend
    obtain ⟨front, hfront⟩ := toList_of_endsWith hend
    refine ⟨front, hfront, ?_⟩
    intro c hc
    rw [hfront]
    exact List.mem_append_left _ hc
  cases style with
  | posix =>
    show ∃ front, (dir ++ if dir == "" || Text.endsWith dir "/" then "" else "/").toList = _ ∧ _
    rw [beq_false_of_ne hdir, Bool.false_or]
    split
    · next hend =>
      rw [String.append_empty]
      exact hkept hend
    · exact ⟨dir.toList, String.toList_append, fun _ hc => hc⟩
  | windows =>
    rw [h.closed_windows]
    exact hkept h.1

/-- A slash that is put behind a directory makes no difference to the names in it. -/
theorem Slashes.closed_closed (h : style.Slashes dir) (hdir : dir ≠ "") :
    style.closed (style.closed dir) = style.closed dir := by
  cases style with
  | posix =>
    obtain ⟨front, hfront, _⟩ := h.exists_closed hdir
    have hend : Text.endsWith (posix.closed dir) "/" = true :=
      List.isSuffixOf_iff_suffix.mpr ⟨front, hfront.symm⟩
    show posix.closed dir
      ++ (if posix.closed dir == "" || Text.endsWith (posix.closed dir) "/" then "" else "/") = _
    rw [hend, Bool.or_true, if_pos rfl, String.append_empty]
  | windows => rw [h.closed_windows, h.closed_windows]

/-- **Only a slash lets a directory be found again before a name**: if what ends with one slash is
    closed as the directory is, and the name follows right behind that slash, then the directory is
    closed by the slash. -/
theorem slashes_of_closed_eq {dir' : String} {front back : List Char} {c : Char}
    (hslash : dir'.toList = front ++ ['/']) (heq : style.closed dir = style.closed dir')
    (hnext : (style.closed dir ++ name).toList = front ++ '/' :: c :: back) (hc : c ≠ '\\') :
    style.Slashes dir := by
  cases style with
  | posix => trivial
  | windows =>
    have hclosed : ∀ d : String, (windows.closed d).toList = d.toList ++ Windows.gap d.toList := by
      intro d
      show (d ++ String.ofList (Windows.gap d.toList)).toList = _
      rw [String.toList_append, String.toList_ofList]
    have heq' := congrArg String.toList heq
    rw [hclosed, hclosed, hslash] at heq'
    rw [String.toList_append, hclosed, heq'] at hnext
    rcases Windows.gap_eq_nil_or (front ++ ['/']) with hgap | hgap
    · rcases Windows.gap_eq_nil_or dir.toList with hgap' | hgap'
      · rw [hgap, hgap', List.append_nil, List.append_nil] at heq'
        refine ⟨List.isSuffixOf_iff_suffix.mpr ⟨front, heq'.symm⟩, ?_⟩
        exact (gap_of_slash_iff heq').mp hgap'
      · rw [hgap, hgap', List.append_nil] at heq'
        have hlast := congrArg List.getLast? heq'
        rw [List.getLast?_concat, List.getLast?_concat] at hlast
        cases hlast
    · rw [hgap] at hnext
      simp only [List.append_assoc, List.cons_append, List.nil_append, List.append_cancel_left_eq,
        List.cons.injEq, true_and] at hnext
      exact absurd hnext.1.symm hc

end Style

end BuildMeta.Path
