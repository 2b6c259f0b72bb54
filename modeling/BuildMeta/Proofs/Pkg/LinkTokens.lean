import BuildMeta.Proofs.Pkg.FlagQueries
import BuildMeta.Proofs.Pkg.Reading

/-!
# `Proofs.Pkg.LinkTokens` — which flags for linking survive sorting

The words of a text of flags for linking are sorted: libraries, directories of libraries that are
not forbidden, and all others, each kind in the order of the words (`sortTokens`).  Two kinds of
words go another way.  A word that starts like the flag for a framework is dropped, and the word
behind it is taken in its place, whatever it is; a directory without a name has no first word, which
full compatibility asks for.

* `linkFlagsFrom_eq` — without such words every word is sorted by its kind;
* `not_isFramework_of_others` — a word for a framework shows in what is left;
* `linkFlags_sorted_iff` — so sorting is lossless exactly if there are no such words, and then a
  query answers with all.
-/

namespace BuildMeta.Pkg

open Query (isLib isLibPath isOtherLink)

/-- The text has no white space. -/
def Unspaced (t : String) : Prop := ∀ c ∈ t.toList, Text.isBlank c = false

instance : DecidablePred Unspaced := fun t =>
  inferInstanceAs (Decidable (∀ c ∈ t.toList, Text.isBlank c = false))

/-- The word starts like the flag for a framework. -/
def isFramework (t : String) : Bool := Text.startsWith t "-framework"

/-- The words of a text sorted by kind. -/
def sortTokens (forbidden : List String) (root : String) (tokens : List String) : LinkFlags where
  libs := (tokens.filter isLib).map (Text.drop 2)
  paths := (((tokens.filter isLibPath).map (Text.drop 2)).filter (· ∉ forbidden)).map (Path.join root)
  others := tokens.filter isOtherLink

/-- How a word is answered: a directory below the root, anything else as it is. -/
def printed (root t : String) : String :=
  if isLibPath t then "-L" ++ Path.join root (Text.drop 2 t) else t

/-- Flags of each kind, and more of them. -/
def LinkFlags.append (flags more : LinkFlags) : LinkFlags :=
  ⟨flags.libs ++ more.libs, flags.paths ++ more.paths, flags.others ++ more.others⟩

/-! ## Texts without white space -/

variable {s : Site} {forbidden tokens rest : List String} {root dir t : String} {flags r : LinkFlags}

theorem Unspaced.eq_or_solid (h : Unspaced t) : t = "" ∨ Text.Solid t := by
  by_cases hempty : t = ""
  · exact Or.inl hempty
  · exact Or.inr ⟨hempty, h⟩

theorem Unspaced.trimmed (h : Unspaced t) : Text.trim t = t := by
  rcases h.eq_or_solid with rfl | hsolid
  · rfl
  · exact hsolid.trimmed

theorem Unspaced.drop (h : Unspaced t) (n : Nat) : Unspaced (Text.drop n t) := by
  intro c hc
  rw [Text.drop, String.toList_ofList] at hc
  exact h c (List.mem_of_mem_drop hc)

theorem Unspaced.append {u : String} (h : Unspaced t) (hu : Unspaced u) : Unspaced (t ++ u) := by
  intro c hc
  rw [String.toList_append] at hc
  exact (List.mem_append.mp hc).elim (h c) (hu c)

theorem Unspaced.join (hroot : Unspaced root) (hdir : Unspaced dir) : Unspaced (Path.join root dir) := by
  have hslash : Unspaced "/" := by decide
  unfold Path.join
  split
  · exact hdir
  · split
    · exact hroot.append hdir
    · exact (hroot.append hslash).append hdir

theorem join_empty (dir : String) : Path.join "" dir = dir := by
  unfold Path.join
  split
  · rfl
  · exact String.empty_append

/-- A joined path is empty only if both its parts are. -/
theorem join_eq_empty_iff : Path.join root dir = "" ↔ root = "" ∧ dir = "" := by
  unfold Path.join
  constructor
  · intro h
    split at h
    · next habs =>
      subst h
      exact absurd habs (by decide)
    · split at h
      · exact String.append_eq_empty_iff.mp h
      · obtain ⟨hfront, -⟩ := String.append_eq_empty_iff.mp h
        exact absurd (String.append_eq_empty_iff.mp hfront).2 (by decide)
  · rintro ⟨rfl, rfl⟩
    rfl

/-! ## Directories -/

/-- Looking for a word in a list of words succeeds, and finds the members. -/
theorem holdsText_strs (texts : List String) (word : String) :
    (Datum.strs texts).holdsText word = .ok (decide (word ∈ texts)) := by
  have hany : (texts.map Datum.str).any (·.sameAtom (.str word)) = decide (word ∈ texts) := by
    rw [List.any_map, Bool.eq_iff_iff, List.any_eq_true, decide_eq_true_iff]
    constructor
    · rintro ⟨text, htext, hsame⟩
      rwa [← (beq_iff_eq.mp hsame : text = word)]
    · intro h
      exact ⟨word, h, beq_self_eq_true word⟩
  exact congrArg Except.ok hany

/-- A site that is not on Windows, with its forbidden directories and the root for all others. -/
structure Site.Links (s : Site) (forbidden : List String) (root : String) : Prop where
  windows : s.windows = false
  forbidden_eq : s.settings.value "forbidden_libdirs" = Datum.strs forbidden
  root_eq : s.settings.value "pc_sysrootdir" = .str root
  unspaced : Unspaced root

/-- A directory without a name cannot be taken: it is not forbidden, there is no root for it, and
    full compatibility asks for its first word. -/
def Site.Nameless (s : Site) (forbidden : List String) (root : String) : Prop :=
  "" ∉ forbidden ∧ root = "" ∧ s.settings.isOn "full_compatibility" = true

/-- The words can all be sorted by kind. -/
structure Site.Sorts (s : Site) (forbidden : List String) (root : String) (tokens : List String) :
    Prop where
  noFramework : ∀ t ∈ tokens, isFramework t = false
  named : "-L" ∈ tokens → ¬ s.Nameless forbidden root

instance (s : Site) (forbidden : List String) (root : String) : Decidable (s.Nameless forbidden root) :=
  inferInstanceAs (Decidable (_ ∧ _ ∧ _))

namespace Site.Links

theorem libSuffix_eq (h : s.Links forbidden root) : s.libSuffix = "" := by
  rw [libSuffix, h.windows]
  rfl

/-- A directory without spaces is put below the root, if there is one. -/
theorem rooted_eq (h : s.Links forbidden root) (hdir : Unspaced dir) :
    s.rooted dir = .ok (Path.join root dir) := by
  unfold rooted
  rw [h.root_eq, hdir.trimmed]
  by_cases hroot : root = ""
  · subst hroot
    rw [join_empty]
    rfl
  · have htruthy : (!(Datum.str root).truthy) = false := by simpa [Datum.truthy] using hroot
    dsimp only
    rw [htruthy]
    rfl

/-- **A directory is put below the root**, unless it has no name and cannot be taken. -/
theorem dirOf_eq (h : s.Links forbidden root) (hdir : Unspaced dir) (hallowed : dir ∉ forbidden) :
    s.dirOf dir false =
      if dir = "" ∧ s.Nameless forbidden root then .error .outOfRange else .ok (Path.join root dir) := by
  have hnative : s.nativeDir (Path.join root dir) = Path.join root dir := by
    rw [nativeDir, h.windows]
    rfl
  unfold dirOf
  rw [h.rooted_eq hdir, Failure.ok_bind]
  cases hfull : s.settings.isOn "full_compatibility" with
  | false =>
    have htaken : ¬ (dir = "" ∧ s.Nameless forbidden root) := fun hc => absurd hc.2.2.2 (by simp [hfull])
    rw [if_neg htaken]
    exact congrArg Except.ok hnative
  | true =>
    by_cases hempty : Path.join root dir = ""
    · -- There is no first word.
      obtain ⟨rfl, rfl⟩ := join_eq_empty_iff.mp hempty
      have hnameless : "" = "" ∧ s.Nameless forbidden "" := ⟨rfl, hallowed, rfl, hfull⟩
      rw [if_pos hnameless, hempty]
      rfl
    · have htaken : ¬ (dir = "" ∧ s.Nameless forbidden root) :=
        fun hc => hempty (join_eq_empty_iff.mpr ⟨hc.2.2.1, hc.1⟩)
      have hword : firstWord (Path.join root dir) = .ok (Path.join root dir) := by
        unfold firstWord
        rw [Text.words_of_solid ⟨hempty, h.unspaced.join hdir⟩]
      rw [if_neg htaken, hword]
      exact congrArg Except.ok hnative

end Site.Links

/-! ## Sorting one word -/

theorem exists_append_of_startsWith {start : String} (h : Text.startsWith t start = true) :
    ∃ back, t = start ++ back := by
  rw [Text.startsWith, List.isPrefixOf_iff_prefix] at h
  obtain ⟨back, hback⟩ := h
  refine ⟨String.ofList back, String.toList_inj.mp ?_⟩
  rw [String.toList_append, String.toList_ofList, hback]

/-- The kinds differ in the second character. -/
theorem not_isLib_of_isLibPath (h : isLibPath t = true) : isLib t = false := by
  obtain ⟨back, rfl⟩ := exists_append_of_startsWith h
  rw [isLib, Text.startsWith, String.toList_append]
  rfl

theorem isOtherLink_of_isFramework (h : isFramework t = true) : isOtherLink t = true := by
  obtain ⟨back, rfl⟩ := exists_append_of_startsWith h
  rw [isOtherLink, isLib, isLibPath, Text.startsWith, Text.startsWith, String.toList_append]
  rfl

/-- Of the words for directories, one has no name: the bare flag. -/
theorem drop_two_eq_empty_iff (h : isLibPath t = true) : Text.drop 2 t = "" ↔ t = "-L" := by
  obtain ⟨back, rfl⟩ := exists_append_of_startsWith h
  rw [drop_append (by decide)]
  constructor
  · rintro rfl
    rfl
  · intro heq
    have hlists := congrArg String.toList heq
    rw [String.toList_append] at hlists
    exact String.toList_eq_nil_iff.mp (List.append_right_eq_self.mp hlists)

theorem linkFlagsFrom_framework_last (hframework : isFramework t = true) :
    s.linkFlagsFrom flags [t] = .error .outOfRange := by
  obtain ⟨hlib, hpath⟩ := Query.isOtherLink_iff.mp (isOtherLink_of_isFramework hframework)
  rw [Site.linkFlagsFrom.eq_def]
  exact (if_neg (Bool.eq_false_iff.mp hlib)).trans
    ((if_neg (Bool.eq_false_iff.mp hpath)).trans (if_pos hframework))

namespace Site.Links

variable (h : s.Links forbidden root)
include h

theorem linkFlagsFrom_lib (ht : Unspaced t) (hlib : isLib t = true) :
    s.linkFlagsFrom flags (t :: rest) =
      s.linkFlagsFrom { flags with libs := flags.libs ++ [Text.drop 2 t] } rest := by
  rw [linkFlagsFrom.eq_def]
  refine (if_pos hlib).trans ?_
  rw [(ht.drop 2).trimmed, h.libSuffix_eq, String.append_empty]

theorem linkFlagsFrom_forbidden (hpath : isLibPath t = true) (hdir : Text.drop 2 t ∈ forbidden) :
    s.linkFlagsFrom flags (t :: rest) = s.linkFlagsFrom flags rest := by
  rw [linkFlagsFrom.eq_def]
  refine (if_neg (Bool.eq_false_iff.mp (not_isLib_of_isLibPath hpath))).trans ((if_pos hpath).trans ?_)
  dsimp only
  rw [h.forbidden_eq, holdsText_strs, Failure.ok_bind, decide_eq_true hdir]
  rfl

theorem linkFlagsFrom_path (hpath : isLibPath t = true) (hdir : Text.drop 2 t ∉ forbidden) :
    s.linkFlagsFrom flags (t :: rest) = s.dirOf (Text.drop 2 t) false >>= fun dir =>
      s.linkFlagsFrom { flags with paths := flags.paths ++ [dir] } rest := by
  rw [linkFlagsFrom.eq_def]
  refine (if_neg (Bool.eq_false_iff.mp (not_isLib_of_isLibPath hpath))).trans ((if_pos hpath).trans ?_)
  dsimp only
  rw [h.forbidden_eq, holdsText_strs, Failure.ok_bind, decide_eq_false hdir]
  rfl

/-- A word for a framework is dropped for the word behind it. -/
theorem linkFlagsFrom_framework {name : String} (hname : Unspaced name)
    (hframework : isFramework t = true) :
    s.linkFlagsFrom flags (t :: name :: rest) =
      s.linkFlagsFrom { flags with others := flags.others ++ [name] } rest := by
  obtain ⟨hlib, hpath⟩ := Query.isOtherLink_iff.mp (isOtherLink_of_isFramework hframework)
  rw [linkFlagsFrom.eq_def]
  refine (if_neg (Bool.eq_false_iff.mp hlib)).trans
    ((if_neg (Bool.eq_false_iff.mp hpath)).trans ((if_pos hframework).trans ?_))
  dsimp only
  rw [hname.trimmed, h.libSuffix_eq, String.append_empty]

/-- A word that is neither for a library nor for a directory goes to the others as it is. -/
theorem linkFlagsFrom_other (ht : Unspaced t) (hother : isOtherLink t = true)
    (hframework : isFramework t = false) :
    s.linkFlagsFrom flags (t :: rest)
      = s.linkFlagsFrom { flags with others := flags.others ++ [t] } rest := by
  obtain ⟨hlib, hpath⟩ := Query.isOtherLink_iff.mp hother
  rw [linkFlagsFrom.eq_def]
  refine (if_neg (Bool.eq_false_iff.mp hlib)).trans ((if_neg (Bool.eq_false_iff.mp hpath)).trans ?_)
  refine (if_neg (Bool.eq_false_iff.mp hframework)).trans ?_
  rw [ht.trimmed, h.libSuffix_eq, String.append_empty]

end Site.Links

/-! ## Sorting all words -/

theorem LinkFlags.append_assoc (a b c : LinkFlags) : (a.append b).append c = a.append (b.append c) := by
  simp only [LinkFlags.append, List.append_assoc]

theorem sortTokens_cons (t : String) (rest : List String) :
    sortTokens forbidden root (t :: rest)
      = (sortTokens forbidden root [t]).append (sortTokens forbidden root rest) := by
  rw [← List.singleton_append]
  simp only [sortTokens, LinkFlags.append, List.filter_append, List.map_append]

theorem sortTokens_lib (h : isLib t = true) :
    sortTokens forbidden root [t] = { libs := [Text.drop 2 t] } := by
  have hpath : isLibPath t = false := by
    cases hpath : isLibPath t with
    | false => rfl
    | true => exact absurd h (by simp [not_isLib_of_isLibPath hpath])
  simp [sortTokens, isOtherLink, h, hpath]

theorem sortTokens_path (h : isLibPath t = true) : sortTokens forbidden root [t] =
    { paths := if Text.drop 2 t ∈ forbidden then [] else [Path.join root (Text.drop 2 t)] } := by
  have hlib := not_isLib_of_isLibPath h
  by_cases hdir : Text.drop 2 t ∈ forbidden <;> simp [sortTokens, isOtherLink, h, hlib, hdir]

theorem sortTokens_other (h : isOtherLink t = true) :
    sortTokens forbidden root [t] = { others := [t] } := by
  obtain ⟨hlib, hpath⟩ := Query.isOtherLink_iff.mp h
  simp [sortTokens, h, hlib, hpath]

namespace Site.Links

variable (h : s.Links forbidden root)
include h

/-- **One word.**  A word that is not for a framework is sorted by its kind, unless it is a
    directory without a name that cannot be taken. -/
theorem linkFlagsFrom_cons (ht : Unspaced t) (hframework : isFramework t = false) :
    s.linkFlagsFrom flags (t :: rest) = if t = "-L" ∧ s.Nameless forbidden root then .error .outOfRange
      else s.linkFlagsFrom (flags.append (sortTokens forbidden root [t])) rest := by
  cases hlib : isLib t with
  | true =>
    have hne : t ≠ "-L" := by
      rintro rfl
      cases hlib
    rw [if_neg fun hc => hne hc.1, h.linkFlagsFrom_lib ht hlib, sortTokens_lib hlib]
    simp only [LinkFlags.append, List.append_nil]
  | false =>
    cases hpath : isLibPath t with
    | false =>
      have hother := Query.isOtherLink_iff.mpr ⟨hlib, hpath⟩
      have hne : t ≠ "-L" := by
        rintro rfl
        cases hpath
      rw [if_neg fun hc => hne hc.1, h.linkFlagsFrom_other ht hother hframework, sortTokens_other hother]
      simp only [LinkFlags.append, List.append_nil]
    | true =>
      have hempty_iff := drop_two_eq_empty_iff hpath
      rw [sortTokens_path hpath]
      by_cases hdir : Text.drop 2 t ∈ forbidden
      · rw [if_neg fun hc => hc.2.1 (hempty_iff.mpr hc.1 ▸ hdir),
          h.linkFlagsFrom_forbidden hpath hdir, if_pos hdir]
        simp only [LinkFlags.append, List.append_nil]
      · rw [h.linkFlagsFrom_path hpath hdir, if_neg hdir, h.dirOf_eq (ht.drop 2) hdir]
        by_cases hnameless : t = "-L" ∧ s.Nameless forbidden root
        · rw [if_pos hnameless, if_pos ⟨hempty_iff.mpr hnameless.1, hnameless.2⟩]
          rfl
        · rw [if_neg hnameless, if_neg fun hc => hnameless ⟨hempty_iff.mp hc.1, hc.2⟩, Failure.ok_bind]
          simp only [LinkFlags.append, List.append_nil]

/-- **Without words for a framework every word is sorted by its kind**, unless a directory without a
    name cannot be taken. -/
theorem linkFlagsFrom_eq (hspace : ∀ t ∈ tokens, Unspaced t)
    (hsorts : s.Sorts forbidden root tokens) (flags : LinkFlags) :
    s.linkFlagsFrom flags tokens = .ok (flags.append (sortTokens forbidden root tokens)) := by
  induction tokens generalizing flags with
  | nil =>
    rw [linkFlagsFrom]
    simp [LinkFlags.append, sortTokens]
  | cons t rest ih =>
    obtain ⟨hframework, hnamed⟩ := hsorts
    rw [List.forall_mem_cons] at hspace hframework
    have hthis : ¬ (t = "-L" ∧ s.Nameless forbidden root) :=
      fun hc => hnamed (hc.1 ▸ List.mem_cons_self) hc.2
    have hrest : s.Sorts forbidden root rest :=
      ⟨hframework.2, fun hmem => hnamed (List.mem_cons_of_mem t hmem)⟩
    rw [h.linkFlagsFrom_cons hspace.1 hframework.1, if_neg hthis, ih hspace.2 hrest,
      LinkFlags.append_assoc, ← sortTokens_cons]

/-- A directory without a name makes the sorting fail if it cannot be taken, wherever it stands. -/
theorem linkFlagsFrom_nameless (hspace : ∀ t ∈ tokens, Unspaced t)
    (hframework : ∀ t ∈ tokens, isFramework t = false) (hmem : "-L" ∈ tokens)
    (hnameless : s.Nameless forbidden root) (flags : LinkFlags) :
    s.linkFlagsFrom flags tokens = .error .outOfRange := by
  induction tokens generalizing flags with
  | nil => cases hmem
  | cons t rest ih =>
    rw [List.forall_mem_cons] at hspace hframework
    rw [h.linkFlagsFrom_cons hspace.1 hframework.1]
    split
    · rfl
    · next hne =>
      have hrest : "-L" ∈ rest :=
        (List.mem_cons.mp hmem).resolve_left fun heq => hne ⟨heq.symm, hnameless⟩
      exact ih hspace.2 hframework.2 hrest _

end Site.Links

/-! ## Words for frameworks -/

/-- Every word adds one other flag at most, and only if it is one itself: a word taken for a
    framework stands in for it. -/
theorem others_of_linkFlagsFrom (hr : s.linkFlagsFrom flags tokens = .ok r) :
    ∃ more, r.others = flags.others ++ more ∧ more.length ≤ (tokens.filter isOtherLink).length := by
  fun_induction Site.linkFlagsFrom s flags tokens with
  | case1 flags =>
    obtain rfl := Except.ok.inj hr
    exact ⟨[], (List.append_nil _).symm, Nat.le_refl 0⟩
  | case2 flags t rest hlib ih =>
    obtain ⟨more, hmore, hlength⟩ := ih hr
    exact ⟨more, hmore, hlength.trans ((List.sublist_cons_self t rest).filter _).length_le⟩
  | case3 flags t rest hlib hpath dir ihForbidden ihTaken =>
    have hrest : ∃ more, r.others = flags.others ++ more ∧
        more.length ≤ (rest.filter isOtherLink).length := by
      obtain ⟨held, -, hr⟩ := Failure.bind_eq_ok_iff.mp hr
      split at hr
      · exact ihForbidden hr
      · obtain ⟨place, -, hr⟩ := Failure.bind_eq_ok_iff.mp hr
        exact ihTaken place hr
    obtain ⟨more, hmore, hlength⟩ := hrest
    exact ⟨more, hmore, hlength.trans ((List.sublist_cons_self t rest).filter _).length_le⟩
  | case4 => cases hr
  | case5 flags t hlib hpath hframework name rest ih =>
    obtain ⟨more, hmore, hlength⟩ := ih hr
    refine ⟨(Text.trim name ++ s.libSuffix) :: more,
      by rw [hmore, List.append_assoc, List.singleton_append], ?_⟩
    rw [List.filter_cons_of_pos (isOtherLink_of_isFramework hframework)]
    have hname := ((List.sublist_cons_self name rest).filter isOtherLink).length_le
    exact Nat.succ_le_succ (hlength.trans hname)
  | case6 flags t rest hlib hpath hframework ih =>
    obtain ⟨more, hmore, hlength⟩ := ih hr
    refine ⟨(Text.trim t ++ s.libSuffix) :: more,
      by rw [hmore, List.append_assoc, List.singleton_append], ?_⟩
    rw [List.filter_cons_of_pos
      (Query.isOtherLink_iff.mpr ⟨Bool.eq_false_iff.mpr hlib, Bool.eq_false_iff.mpr hpath⟩)]
    exact Nat.succ_le_succ hlength

/-- **A word for a framework shows in what is left.**  The first one is missing among the other
    flags, or the word behind it repeats it; then that one is missing. -/
theorem Site.Links.not_isFramework_of_others (h : s.Links forbidden root)
    (hspace : ∀ t ∈ tokens, Unspaced t) (hr : s.linkFlagsFrom flags tokens = .ok r)
    (hothers : r.others = flags.others ++ tokens.filter isOtherLink) :
    ∀ t ∈ tokens, isFramework t = false := by
  induction tokens generalizing flags with
  | nil =>
    intro t ht
    cases ht
  | cons t rest ih =>
    rw [List.forall_mem_cons] at hspace ⊢
    cases hframework : isFramework t with
    | false =>
      rw [h.linkFlagsFrom_cons hspace.1 hframework] at hr
      split at hr
      · cases hr
      · refine ⟨rfl, ih hspace.2 hr ?_⟩
        rw [hothers, ← List.singleton_append, List.filter_append, ← List.append_assoc]
        rfl
    | true =>
      cases rest with
      | nil =>
        rw [linkFlagsFrom_framework_last hframework] at hr
        cases hr
      | cons name rest =>
        rw [h.linkFlagsFrom_framework (hspace.2 name List.mem_cons_self) hframework] at hr
        obtain ⟨more, hmore, hlength⟩ := others_of_linkFlagsFrom hr
        have hother := isOtherLink_of_isFramework hframework
        rw [hothers, List.filter_cons_of_pos hother, List.append_assoc, List.append_cancel_left_eq,
          List.singleton_append, List.cons.injEq] at hmore
        obtain ⟨rfl, hmore⟩ := hmore
        rw [← hmore, List.filter_cons_of_pos hother, List.length_cons] at hlength
        omega

/-! ## Answers -/

theorem append_drop_two {start : String} (hstart : start.toList.length = 2)
    (h : Text.startsWith t start = true) :
    start ++ Text.drop 2 t = t := by
  obtain ⟨back, rfl⟩ := exists_append_of_startsWith h
  rw [drop_append hstart]

variable {q : Query} {p : Package}

theorem link_mem_linkParts (q : Query) (p : Package) : p.link ∈ q.linkParts p := by
  unfold Query.linkParts
  split <;> exact List.mem_cons_self

/-- What was sorted is answered: every word, but for forbidden directories. -/
theorem printed_mem_allLinkFlags (hwindows : q.search.site.windows = false)
    (hlink : p.link = sortTokens forbidden root tokens) (ht : t ∈ tokens)
    (hallowed : isLibPath t = true → Text.drop 2 t ∉ forbidden) : printed root t ∈ q.allLinkFlags p := by
  have hlinker : q.windowsLinker = false := Query.windowsLinker_eq_false hwindows
  have hpart := link_mem_linkParts q p
  rw [hlink] at hpart
  unfold printed Query.allLinkFlags
  rw [List.mem_append, List.mem_append]
  cases hpath : isLibPath t with
  | true =>
    refine Or.inl (Or.inr (List.mem_flatMap.mpr ⟨_, hpart, ?_⟩))
    rw [hlinker]
    apply List.mem_map_of_mem
    apply List.mem_map_of_mem
    apply List.mem_filter.mpr
    exact ⟨List.mem_map_of_mem (List.mem_filter.mpr ⟨ht, hpath⟩), decide_eq_true (hallowed hpath)⟩
  | false =>
    rw [if_neg Bool.false_ne_true]
    cases hlib : isLib t with
    | true =>
      refine Or.inr (List.mem_flatMap.mpr ⟨_, hpart, ?_⟩)
      rw [hlinker]
      refine List.mem_map.mpr ⟨Text.drop 2 t, List.mem_map_of_mem (List.mem_filter.mpr ⟨ht, hlib⟩), ?_⟩
      exact append_drop_two (by decide) hlib
    | false =>
      refine Or.inl (Or.inl (List.mem_flatMap.mpr ⟨_, hpart, ?_⟩))
      exact List.mem_filter.mpr ⟨ht, Query.isOtherLink_iff.mpr ⟨hlib, hpath⟩⟩

/-- **When sorting loses nothing.**  The words of a text are all sorted by kind exactly if none of
    them starts like the flag for a framework, and none is a directory without a name that cannot be
    taken.  A query for the flags of a package that has the text then answers with every word, but
    for forbidden directories; other directories stand below the root. -/
theorem linkFlags_sorted_iff {text : String} (hs : s.Links forbidden root)
    (htokens : Text.shellWords text = .ok tokens) (hspace : ∀ t ∈ tokens, Unspaced t) :
    (s.linkFlags text = .ok (sortTokens forbidden root tokens) ↔ s.Sorts forbidden root tokens) ∧
      (s.Sorts forbidden root tokens → ∀ (q : Query) (e : String × Package), q.search.site = s →
        e ∈ q.packages →
        s.linkFlags text = .ok e.2.link →
        ∀ t ∈ tokens, (isLibPath t = true → Text.drop 2 t ∉ forbidden) →
          printed root t ∈ q.collect q.allLinkFlags) := by
  have htext : s.linkFlags text = s.linkFlagsFrom {} tokens := by
    unfold Site.linkFlags
    rw [htokens, Failure.ok_bind]
  have hsorted : s.Sorts forbidden root tokens →
      s.linkFlags text = .ok (sortTokens forbidden root tokens) := by
    intro hsorts
    rw [htext]
    exact hs.linkFlagsFrom_eq hspace hsorts {}
  refine ⟨⟨fun h => ?_, hsorted⟩, fun hsorts q e hsite he hlink t ht hallowed => ?_⟩
  · rw [htext] at h
    have hframework : ∀ t ∈ tokens, isFramework t = false := hs.not_isFramework_of_others hspace h rfl
    refine ⟨hframework, fun hmem hnameless => ?_⟩
    rw [hs.linkFlagsFrom_nameless hspace hframework hmem hnameless] at h
    cases h
  · have hlink : e.2.link = sortTokens forbidden root tokens :=
      Except.ok.inj (hlink.symm.trans (hsorted hsorts))
    have hmem := printed_mem_allLinkFlags (hsite ▸ hs.windows) hlink ht hallowed
    exact ((Query.keepsLast_lastOnly _).mem_iff _).mpr (List.mem_flatMap.mpr ⟨e, he, hmem⟩)

/-- A site in full compatibility that forbids a directory. -/
def strictSite : Site where
  tree := { files := ∅, dirs := ["/"] }
  settings :=
    (Settings.initial.set "full_compatibility" (.bool true)).set "forbidden_libdirs" (.strs ["/usr/lib"])

/-- A query for a package with flags of every kind. -/
def strictQuery : Query where
  search := { site := strictSite }
  packages :=
    let link : LinkFlags := { libs := ["a", "b"], paths := ["/opt/lib"], others := ["-pthread"] }
    [("tool", Query.packageWith {} link {})]

/-- In full compatibility the words of a text are sorted, but for the forbidden directory. -/
theorem linkFlags_sorted_iff_strict :
    strictSite.Links ["/usr/lib"] "" ∧
      Text.shellWords "-la -L/usr/lib -pthread -L/opt/lib -lb"
        = .ok ["-la", "-L/usr/lib", "-pthread", "-L/opt/lib", "-lb"] ∧
      strictSite.linkFlags "-la -L/usr/lib -pthread -L/opt/lib -lb" =
        .ok { libs := ["a", "b"], paths := ["/opt/lib"], others := ["-pthread"] } ∧
      "-L/opt/lib" ∈ strictQuery.collect strictQuery.allLinkFlags := by
  have hs : strictSite.Links ["/usr/lib"] "" := ⟨rfl, rfl, rfl, by decide⟩
  have htokens : Text.shellWords "-la -L/usr/lib -pthread -L/opt/lib -lb" =
      .ok ["-la", "-L/usr/lib", "-pthread", "-L/opt/lib", "-lb"] := by decide +kernel
  have hsorts :
      strictSite.Sorts ["/usr/lib"] "" ["-la", "-L/usr/lib", "-pthread", "-L/opt/lib", "-lb"] :=
    ⟨by decide +kernel, fun h => absurd h (by decide)⟩
  obtain ⟨hiff, hall⟩ := linkFlags_sorted_iff hs htokens (by decide +kernel)
  have hlink := hiff.mpr hsorts
  refine ⟨hs, htokens, hlink.trans (by decide +kernel), ?_⟩
  exact hall hsorts strictQuery ("tool", _) rfl List.mem_cons_self (hlink.trans (by decide +kernel))
    "-L/opt/lib"
    (by decide) (by decide +kernel)

/-- The flag for a framework is lost, and nothing may be missing behind it; nor may a directory have
    no name in full compatibility. -/
theorem linkFlags_not_sorted :
    ({ tree := default } : Site).linkFlags "-framework Cocoa -la"
      = .ok { libs := ["a"], others := ["Cocoa"] } ∧
      ({ tree := default } : Site).linkFlags "-la -framework" = .error .outOfRange ∧
      strictSite.linkFlags "-L -la" = .error .outOfRange := by
  decide +kernel

end BuildMeta.Pkg
