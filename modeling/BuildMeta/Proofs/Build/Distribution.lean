import BuildMeta.Build.External
import BuildMeta.InstallConfig
import BuildMeta.Proofs.Build.Session
import BuildMeta.Proofs.Text.Plain
import BuildMeta.Proofs.Text.Template
import Mathlib.Data.List.Sort

/-!
# `Proofs.Build.Distribution` — where libraries are installed, and where they are looked for

A build into a distribution package installs its libraries in a directory that is named for the
flavour.  A build that takes libraries from a distribution hands the linker a directory that is
named for the flavour too (`runFrom_use`), but the two names are made by different rules.

* `linkDir_eq` — both directories lie in the same place, and only the names for the flavour can differ;
* `mergeSort_newest` — the flag `cpp11` is printed after all others, so leaving it out cuts the end
  of a name off;
* `linkDir_installed_iff` — hence the two directories are the same exactly for flavours without that
  flag.
-/

namespace BuildMeta

/-! ## Paths -/

namespace Path

variable {a b c d x y : String}

theorem isAbsolute_append (hb : b ≠ "") (c : String) : isAbsolute (b ++ c) = isAbsolute b := by
  unfold isAbsolute Text.startsWith
  rw [String.toList_append]
  cases hchars : b.toList with
  | nil => exact absurd (String.toList_eq_nil_iff.mp hchars) hb
  | cons first rest => rfl

theorem endsWith_append (hb : b ≠ "") (a : String) :
    Text.endsWith (a ++ b) "/" = Text.endsWith b "/" := by
  unfold Text.endsWith List.isSuffixOf
  rw [String.toList_append, List.reverse_append]
  cases hchars : b.toList.reverse with
  | nil => exact absurd (String.toList_eq_nil_iff.mp (List.reverse_eq_nil_iff.mp hchars)) hb
  | cons last rest => rfl

/-- Joining twice can be done from the right, if the path in the middle is a plain one. -/
theorem join_join (hb : b ≠ "") (hrelative : isAbsolute b = false)
    (hend : Text.endsWith b "/" = false) (a c : String) :
    join (join a b) c = join a (join b c) := by
  by_cases hc : isAbsolute c = true
  · simp [join, hc]
  · have hc' : isAbsolute c = false := by simpa using hc
    have hbc : join b c = b ++ "/" ++ c := by simp [join, hc', hb, hend]
    have hrelative' : isAbsolute (b ++ "/" ++ c) = false := by
      rw [String.append_assoc, isAbsolute_append hb, hrelative]
    -- Both sides are the directory, closed by a slash if need be, then the two paths.
    have hout : ∀ front, join (front ++ b) c = front ++ (b ++ "/" ++ c) := by
      intro front
      have hne : front ++ b ≠ "" := fun h => hb (String.append_eq_empty_iff.mp h).2
      simp [join, hc', hne, endsWith_append hb, hend, String.append_assoc]
    rw [hbc]
    by_cases ha : (a == "" || Text.endsWith a "/") = true
    · have hab : join a b = a ++ b := by rw [join, hrelative, if_neg Bool.false_ne_true, if_pos ha]
      rw [hab, hout, join, hrelative', if_neg Bool.false_ne_true, if_pos ha]
    · have hab : join a b = a ++ "/" ++ b := by
        rw [join, hrelative, if_neg Bool.false_ne_true, if_neg ha]
      rw [hab, hout, join, hrelative', if_neg Bool.false_ne_true, if_neg ha]

/-- Different paths lead to different places from a directory, if both are relative or both absolute. -/
theorem join_inj (hkind : isAbsolute x = isAbsolute y) (h : join d x = join d y) : x = y := by
  unfold join at h
  rw [hkind] at h
  split at h
  · exact h
  · split at h
    · exact (String.append_right_inj d).mp h
    · exact (String.append_right_inj (d ++ "/")).mp h

/-- A join is absolute if either part is: the later one replaces the earlier.  This is why a prefix
    does not hold back an absolute place. -/
theorem isAbsolute_join (hd : d ≠ "") (x : String) :
    isAbsolute (join d x) = (isAbsolute x || isAbsolute d) := by
  unfold join
  split
  · next hx => rw [hx, Bool.true_or]
  · next hx =>
    rw [Bool.eq_false_iff.mpr hx, Bool.false_or]
    split
    · exact isAbsolute_append hd x
    · rw [String.append_assoc]
      exact isAbsolute_append hd _

end Path

/-! ## The flag that is printed last -/

namespace Ufid

/-- The order in which flags are printed; flags of one rank stay as they are. -/
def notAfter (a b : String) : Bool := decide (rank a ≤ rank b)

theorem notAfter_trans (a b c : String) (hab : notAfter a b = true) (hbc : notAfter b c = true) :
    notAfter a c = true := by
  simp only [notAfter, decide_eq_true_eq] at hab hbc ⊢
  omega

theorem notAfter_total (a b : String) : (notAfter a b || notAfter b a) = true := by
  simp only [notAfter, Bool.or_eq_true, decide_eq_true_eq]
  omega

theorem render_of_ne_nil {u : Ufid} (h : u.flags ≠ []) :
    u.render = Text.join "_" (u.flags.mergeSort notAfter) := by
  unfold render
  rw [if_neg (by simpa using h)]
  rfl

/-- A flag is put before those of its rank and after those of smaller ranks. -/
theorem exists_mergeSort_cons (a : String) (flags : List String) :
    ∃ front back, (a :: flags).mergeSort notAfter = front ++ a :: back ∧
      flags.mergeSort notAfter = front ++ back ∧
      (∀ b ∈ front, rank b < rank a) ∧ ∀ b ∈ back, rank a ≤ rank b := by
  obtain ⟨front, back, hcons, hrest, hfront⟩ := List.mergeSort_cons notAfter_trans notAfter_total a flags
  refine ⟨front, back, hcons, hrest, ?_, ?_⟩
  · intro b hb
    simpa [notAfter] using hfront b hb
  · intro b hb
    have hsorted := List.pairwise_mergeSort notAfter_trans notAfter_total (a :: flags)
    rw [hcons] at hsorted
    have hab := List.rel_of_pairwise_cons (List.pairwise_append.mp hsorted).2.1 hb
    simpa [notAfter] using hab

/-- A list falls into a part with a property and a part without it in one way only. -/
theorem parts_unique {p : String → Prop} [DecidablePred p] {xs ys xs' ys' : List String}
    (h : xs ++ ys = xs' ++ ys') (hxs : ∀ x ∈ xs, p x) (hys : ∀ y ∈ ys, ¬ p y)
    (hxs' : ∀ x ∈ xs', p x) (hys' : ∀ y ∈ ys', ¬ p y) :
    xs = xs' ∧ ys = ys' := by
  have hfilter : ∀ {us vs : List String}, (∀ u ∈ us, p u) → (∀ v ∈ vs, ¬ p v) →
      (us ++ vs).filter (fun w => decide (p w)) = us := by
    intro us vs hus hvs
    rw [List.filter_append, List.filter_eq_self.mpr (by simpa using hus),
      List.filter_eq_nil_iff.mpr (by simpa using hvs), List.append_nil]
  have hfront : xs = xs' := by rw [← hfilter hxs hys, h, hfilter hxs' hys']
  subst hfront
  exact ⟨rfl, List.append_cancel_left h⟩

/-- The flag for the newer standard has the greatest rank. -/
theorem rank_lt_newest {flag : String} (h : flag ≠ "cpp11") : rank flag < rank "cpp11" := by
  have hranks : ∀ e ∈ ranks, e.1 ≠ "cpp11" → e.2 < 112 := by decide
  show (ranks.lookup flag).getD 0 < 112
  cases hrank : ranks.lookup flag with
  | none => decide
  | some n =>
    obtain ⟨front, back, heq, -⟩ := List.lookup_eq_some_iff.mp hrank
    exact hranks (flag, n) (heq ▸ List.mem_append_right _ List.mem_cons_self) h

/-- **The flag for the newer standard is printed last**, and has no influence on the order of the
    others. -/
theorem mergeSort_newest (flags : List String) :
    flags.mergeSort notAfter = (flags.filter (· != "cpp11")).mergeSort notAfter
      ++ List.replicate (flags.count "cpp11") "cpp11" := by
  have hothers : ∀ l : List String, ∀ f ∈ (l.filter (· != "cpp11")).mergeSort notAfter, f ≠ "cpp11" := by
    intro l f hf
    have hmem := (List.mem_filter.mp (List.mem_mergeSort.mp hf)).2
    simpa using hmem
  induction flags with
  | nil => simp
  | cons a flags ih =>
    obtain ⟨front, back, hcons, hrest, hfront, hback⟩ := exists_mergeSort_cons a flags
    rw [ih] at hrest
    by_cases ha : a = "cpp11"
    · -- The flag goes in front of its own kind, and behind all others.
      subst ha
      have hsplit := parts_unique (p := fun f => f ≠ "cpp11") hrest (hothers flags)
        (by simp) (fun f hf => by rintro rfl; exact lt_irrefl _ (hfront _ hf))
        (fun f hf hne => absurd (hback f hf) (not_le.mpr (rank_lt_newest hne)))
      rw [hcons, ← hsplit.1, ← hsplit.2]
      simp [List.replicate_succ]
    · -- Another flag finds the same place with and without those of that kind.
      obtain ⟨front', back', hcons', hrest', hfront', hback'⟩ :=
        exists_mergeSort_cons a (flags.filter (· != "cpp11"))
      rw [hrest', List.append_assoc] at hrest
      have hsplit := parts_unique (p := fun f => rank f < rank a) hrest hfront'
        (by
          intro f hf
          rcases List.mem_append.mp hf with hf | hf
          · exact not_lt.mpr (hback' f hf)
          · rw [List.eq_of_mem_replicate hf]
            exact not_lt.mpr (rank_lt_newest ha).le)
        hfront (fun f hf => not_lt.mpr (hback f hf))
      have hkeep : (a :: flags).filter (· != "cpp11") = a :: flags.filter (· != "cpp11") := by simp [ha]
      rw [hcons, ← hsplit.1, ← hsplit.2, hkeep, hcons', List.count_cons_of_ne ha]
      simp

/-- Erasing a flag that is not set changes nothing. -/
theorem erase_of_not_has {u : Ufid} {flag : String} (h : u.has flag = false) : u.erase flag = u := by
  have hkeep : u.flags.filter (· != flag) = u.flags := by
    apply List.filter_eq_self.mpr
    intro f hf
    have hne : f ≠ flag := by
      rintro rfl
      exact absurd (List.contains_iff_mem.mpr hf) (Bool.eq_false_iff.mp h)
    simpa using hne
  show { u with flags := u.flags.filter (· != flag) } = u
  rw [hkeep]

/-- Without the flag for the newer standard, the name of a flavour is another one; but it names a
    place inside a directory if and only if it did before. -/
theorem render_erase_newest {u : Ufid} (h : u.has "cpp11" = true) :
    (u.erase "cpp11").render ≠ u.render ∧
      Path.isAbsolute (u.erase "cpp11").render = Path.isAbsolute u.render := by
  have hmem : "cpp11" ∈ u.flags := List.contains_iff_mem.mp h
  have hrender : u.render = Text.join "_" ((u.erase "cpp11").flags.mergeSort notAfter
      ++ List.replicate (u.flags.count "cpp11") "cpp11") := by
    rw [render_of_ne_nil (List.ne_nil_of_mem hmem), mergeSort_newest]
    rfl
  obtain ⟨n, hn⟩ : ∃ n, u.flags.count "cpp11" = n + 1 :=
    Nat.exists_eq_add_one.mpr (List.count_pos_iff.mpr hmem)
  rw [hn, List.replicate_succ] at hrender
  by_cases hrest : (u.erase "cpp11").flags = []
  · -- No other flag: the name of the empty flavour is a sign of its own.
    have hempty : (u.erase "cpp11").render = "_" := by
      unfold render
      rw [hrest]
      rfl
    rw [hempty, hrender, hrest]
    have hfront : ∃ back, Text.join "_" ("cpp11" :: List.replicate n "cpp11") = "cpp11" ++ back := by
      refine ⟨Text.join "_" ("" :: List.replicate n "cpp11"), ?_⟩
      unfold Text.join
      rw [← String.intercalate_cons_append, String.append_empty]
    obtain ⟨back, hback⟩ := hfront
    rw [List.mergeSort_nil, List.nil_append, hback]
    constructor
    · intro heq
      have hchars := congrArg String.toList heq
      rw [String.toList_append] at hchars
      cases hchars
    · rw [Path.isAbsolute_append (by decide)]
      decide
  · have hne : (u.erase "cpp11").flags.mergeSort notAfter ≠ [] := by
      intro hnil
      apply hrest
      have hlength := congrArg List.length hnil
      rwa [List.length_mergeSort, List.length_nil, List.length_eq_zero_iff] at hlength
    rw [Text.join_append hne (List.cons_ne_nil _ _), ← render_of_ne_nil hrest,
      String.append_assoc] at hrender
    rw [hrender]
    constructor
    · intro heq
      have hback := String.append_eq_left_iff.mp heq.symm
      exact absurd (String.append_eq_empty_iff.mp hback).1 (by decide)
    · by_cases hname : (u.erase "cpp11").render = ""
      · rw [hname, String.empty_append, Path.isAbsolute_append (by decide)]
        decide
      · rw [Path.isAbsolute_append hname]

end Ufid

/-! ## The two directories -/

namespace Build.Distribution

variable {u : Ufid} {r : String}

theorem dpkgLibDir_cases (u : Ufid) :
    InstallConfig.dpkgLibDir u = "lib64" ∨ InstallConfig.dpkgLibDir u = "lib" := by
  unfold InstallConfig.dpkgLibDir
  split
  · exact Or.inl rfl
  · exact Or.inr rfl

theorem dpkgLibDir_ne_empty (u : Ufid) : InstallConfig.dpkgLibDir u ≠ "" := by
  rcases dpkgLibDir_cases u with h | h <;> rw [h] <;> decide

/-- The directory that is looked in lies where the libraries of a distribution are installed. -/
theorem linkDir_eq (r : String) (u : Ufid) :
    linkDir r u
      = Path.join (place r) (Path.join (InstallConfig.dpkgLibDir u) (u.erase "64").render) := by
  show Path.join (Path.join (place r) (InstallConfig.dpkgLibDir u)) _ = _
  apply Path.join_join (dpkgLibDir_ne_empty u)
  · rcases dpkgLibDir_cases u with h | h <;> rw [h] <;> decide
  · rcases dpkgLibDir_cases u with h | h <;> rw [h] <;> decide

theorem has_newest_erase (u : Ufid) : (u.erase "64").has "cpp11" = u.has "cpp11" := by
  rw [Bool.eq_iff_iff]
  simp [Ufid.has, Ufid.erase]

/-- **Libraries are looked for where they are installed, unless the flavour has the flag `cpp11`.** -/
theorem linkDir_installed_iff (r : String) (u : Ufid) (flat : Bool) (lib bin suffix : String) :
    linkDir r u = Path.join (place r) (InstallConfig.make u true flat lib bin suffix).libDir
      ↔ u.has "cpp11" = false := by
  have hinstalled : (InstallConfig.make u true flat lib bin suffix).libDir
      = Path.join (InstallConfig.dpkgLibDir u) ((u.erase "64").erase "cpp11").render := rfl
  rw [linkDir_eq, hinstalled]
  constructor
  · intro hsame
    by_contra hnewest
    have hhas : (u.erase "64").has "cpp11" = true := by
      rw [has_newest_erase]
      simpa using hnewest
    obtain ⟨hne, hkind⟩ := Ufid.render_erase_newest hhas
    have hinside : Path.isAbsolute (Path.join (InstallConfig.dpkgLibDir u) (u.erase "64").render)
        = Path.isAbsolute
          (Path.join (InstallConfig.dpkgLibDir u) ((u.erase "64").erase "cpp11").render) := by
      rw [Path.isAbsolute_join (dpkgLibDir_ne_empty u),
        Path.isAbsolute_join (dpkgLibDir_ne_empty u), hkind]
    exact hne (Path.join_inj hkind.symm (Path.join_inj hinside hsame)).symm
  · intro hnewest
    rw [Ufid.erase_of_not_has ((has_newest_erase u).trans hnewest)]

/-! ## Configuring a build -/

/-- A build that takes libraries from a distribution gets one more flag for the linker. -/
theorem runFrom_use {s : Session} {u : Ufid} {r flag : String} {flags : List Datum}
    (hsetting : s.environment.get? setting = some r)
    (hfill : s.vars.fill "LIBPATH_ST" (.str (linkDir r u)) = .ok flag)
    (hflags : s.vars.value "LINKFLAGS" = .list flags) :
    ∃ s', Step.runFrom s (use u) = (.ok (), s') ∧
      s'.vars.value "LINKFLAGS" = .list (flags ++ [.str flag]) := by
  have hextend : s.vars.extend "LINKFLAGS" [.str flag]
      = .ok (s.vars.put "LINKFLAGS" (.list (flags ++ [.str flag]))) := by
    unfold Variables.extend
    rw [hflags]
  unfold use
  rw [Step.runFrom_bind_of_ok (Step.runFrom_get s)]
  simp only [hsetting, Step.say]
  rw [Step.runFrom_bind_of_ok (Step.runFrom_record _ _), Step.runFrom_bind_of_ok (Step.runFrom_get _),
    Step.runFrom_bind_of_ok (Step.runFrom_modify _ _), Step.runFrom_bind_of_ok (Step.runFrom_vars _),
    Step.runFrom_bind_of_ok ((Step.runFrom_liftM _ _).trans (by rw [hfill])),
    Step.runFrom_bind_of_ok ((Step.runFrom_liftM _ _).trans (by rw [hextend])), Step.runFrom_change]
  refine ⟨_, rfl, ?_⟩
  -- The variable that is put last is another one.
  unfold Variables.value Variables.put
  rw [Table.get?_set_of_ne _ _ (by decide), Table.get?_set_self]

/-- **The directory of a distribution that the linker searches is the one that libraries are
    installed in, exactly for flavours without the flag `cpp11`.** -/
theorem searches_installed_iff {s : Session} {r front back : String} {flags : List Datum} (u : Ufid)
    (hsetting : s.environment.get? setting = some r)
    (htemplate : s.vars.value "LIBPATH_ST" = .str (front ++ "%s" ++ back))
    (hfront : '%' ∉ front.toList) (hback : '%' ∉ back.toList)
    (hflags : s.vars.value "LINKFLAGS" = .list flags) :
    ∃ s' dir, Step.runFrom s (use u) = (.ok (), s') ∧
      s'.vars.value "LINKFLAGS" = .list (flags ++ [.str (front ++ dir ++ back)]) ∧
      ∀ (flat : Bool) (lib bin suffix : String),
        dir = Path.join (place r) (InstallConfig.make u true flat lib bin suffix).libDir ↔
        u.has "cpp11" = false := by
  have hfill : s.vars.fill "LIBPATH_ST" (.str (linkDir r u)) = .ok (front ++ linkDir r u ++ back) := by
    unfold Variables.fill
    rw [htemplate]
    exact Text.format_text hfront hback (some _)
  obtain ⟨s', hrun, hvalue⟩ := runFrom_use hsetting hfill hflags
  exact ⟨s', linkDir r u, hrun, hvalue, linkDir_installed_iff r u⟩

/-- A build that knows how to hand a directory to the linker, beside a distribution. -/
def linking : Session :=
  { vars := (Variables.put ∅ "LIBPATH_ST" (.str "-L%s")).put "LINKFLAGS" (.list []),
    environment := Table.set ∅ setting "/ref" }

/-- Libraries of the plain flavour for 64 bits are looked for where they are installed. -/
theorem searches_installed_wide :
    ∃ s' dir, Step.runFrom linking (use ⟨["dbg", "exc", "mt", "64"]⟩) = (.ok (), s') ∧
    s'.vars.value "LINKFLAGS" = .list [.str ("-L" ++ dir ++ "")] ∧
    dir = Path.join "/ref/opt/bb"
      (InstallConfig.make ⟨["dbg", "exc", "mt", "64"]⟩ true false "" "" "").libDir := by
  have hsetting : linking.environment.get? setting = some "/ref" := rfl
  have htemplate : linking.vars.value "LIBPATH_ST" = .str ("-L" ++ "%s" ++ "") := rfl
  have hflags : linking.vars.value "LINKFLAGS" = .list [] := rfl
  obtain ⟨s', dir, hrun, hvalue, hdir⟩ :=
    searches_installed_iff ⟨["dbg", "exc", "mt", "64"]⟩ hsetting htemplate
    (by decide) (by decide) hflags
  exact ⟨s', dir, hrun, hvalue, (hdir false "" "" "").mpr (by decide)⟩

/-- With the newer standard they are looked for elsewhere: the name searched for has one more flag. -/
theorem searches_elsewhere : ∃ s',
    Step.runFrom linking (use ⟨["dbg", "exc", "mt", "64", "cpp11"]⟩) = (.ok (), s') ∧
    s'.vars.value "LINKFLAGS" = .list [.str "-L/ref/opt/bb/lib64/dbg_exc_mt_cpp11"] ∧
    Path.join "/ref/opt/bb"
      (InstallConfig.make ⟨["dbg", "exc", "mt", "64", "cpp11"]⟩ true false "" "" "").libDir
      = "/ref/opt/bb/lib64/dbg_exc_mt" := by
  have hsearched : Ufid.render ⟨["dbg", "exc", "mt", "cpp11"]⟩ = "dbg_exc_mt_cpp11" := by
    rw [Ufid.render_of_ne_nil (by decide), List.mergeSort_of_pairwise (by decide)]
    decide
  have hinstalled : Ufid.render ⟨["dbg", "exc", "mt"]⟩ = "dbg_exc_mt" := by
    rw [Ufid.render_of_ne_nil (by decide), List.mergeSort_of_pairwise (by decide)]
    decide
  have hdir : linkDir "/ref" ⟨["dbg", "exc", "mt", "64", "cpp11"]⟩
      = "/ref/opt/bb/lib64/dbg_exc_mt_cpp11" := by
    show Path.join "/ref/opt/bb/lib64" (Ufid.render ⟨["dbg", "exc", "mt", "cpp11"]⟩) = _
    rw [hsearched]
    decide
  have hsetting : linking.environment.get? setting = some "/ref" := rfl
  have hfill :
      linking.vars.fill "LIBPATH_ST" (.str (linkDir "/ref" ⟨["dbg", "exc", "mt", "64", "cpp11"]⟩))
      = .ok "-L/ref/opt/bb/lib64/dbg_exc_mt_cpp11" := by
    rw [hdir]
    rfl
  have hflags : linking.vars.value "LINKFLAGS" = .list [] := rfl
  obtain ⟨s', hrun, hvalue⟩ := runFrom_use hsetting hfill hflags
  refine ⟨s', hrun, hvalue, ?_⟩
  show Path.join "/ref/opt/bb" (Path.join "lib64" (Ufid.render ⟨["dbg", "exc", "mt"]⟩)) = _
  rw [hinstalled]
  decide

end Build.Distribution

end BuildMeta
