import BuildMeta.Proofs.Repo.Verified

/-!
# `Proofs.Repo.Versions` — whether versions depend on the order of the questions

The sources of a unit of release hold numbers, or the name of the unit whose version it shares, or they
cannot be read (`reading`).  A question for a version is answered from what is known; otherwise from the
sources of the unit, and at most from those of the one unit that they name.  What the named unit gives to
the other, `Reading.given`, is then remembered as its own version too.

This is right only if the named unit would have got the same when asked for first, so for all others the
order of the questions matters.  `answers_agree_iff` says exactly when it does not.  The invariant behind
it is `Fresh`: what is known of a unit is what the unit gets if it is asked for first.
-/

namespace BuildMeta.Release

variable {tree : FileTree} {units : Table SourceUnit} {u w : SourceUnit} {known : Known}
  {name : String} {v : Option ReleaseVersion} {e : Failure}

/-! ## What the sources say -/

/-- What the sources of a unit say of its version. -/
inductive Reading where
  | unreadable (cause : Failure)
  | numbers (version : ReleaseVersion)
  /-- The name of the unit that has the version. -/
  | shared (name : String)
deriving DecidableEq

/-- Reads the version of a unit from its sources. -/
def reading (tree : FileTree) (u : SourceUnit) : Reading :=
  match versionTag tree u with
  | .error e => .unreadable e
  | .ok tag =>
    match tag.release? with
    | .error e => .unreadable e
    | .ok (some v) => .numbers v
    | .ok none => .shared (referredName tag)

/-- The version, if the sources hold one. -/
def Reading.numbers? : Reading → Option ReleaseVersion
  | numbers v => some v
  | _ => none

/-- What the unit gives to one that names it. -/
def Reading.given : Reading → Except Failure (Option ReleaseVersion)
  | unreadable e => .error e
  | r => .ok r.numbers?

/-- The sources of a unit hold the name of another one in place of numbers. -/
def Names (tree : FileTree) (u : SourceUnit) (name : String) : Prop :=
  reading tree u = .shared name ∧ name ≠ u.name

/-- What becomes known of a unit that is named. -/
def learned (tree : FileTree) (units : Table SourceUnit) (known : Known) (name : String) :
    Except Failure (Option ReleaseVersion) :=
  match known.get? name with
  | some v => .ok v
  | none => (units.get? name).elim (.error .absentKey) fun w => (reading tree w).given

theorem learned_of_known (h : known.get? name = some v) : learned tree units known name = .ok v := by
  unfold learned
  rw [h]

theorem learned_of_new (h : known.get? name = none) (hw : units.get? name = some w) :
    learned tree units known name = (reading tree w).given := by
  unfold learned
  rw [h, hw]
  rfl

/-- A reference is followed to the numbers of the named unit, and no further. -/
theorem given_reading : (reading tree w).given = versionTag tree w >>= VersionTag.release? := by
  unfold reading
  cases htag : versionTag tree w with
  | error e => rfl
  | ok tag =>
    rw [Failure.ok_bind]
    cases hrelease : tag.release? with
    | error e => simp only [hrelease, Reading.given]
    | ok found =>
      simp only [hrelease]
      cases found <;> rfl

/-! ## One question -/

/-- What is known already is not read again. -/
theorem version_of_known (h : known.get? u.name = some v) :
    version tree units u known = (known, .ok v) := by
  unfold version
  rw [h]

/-- A unit that names no other one is answered from its own sources. -/
theorem version_of_alone (hnew : known.get? u.name = none) (h : ∀ name, ¬ Names tree u name) :
    version tree units u known
      = (known.set u.name (reading tree u).numbers?, .ok (reading tree u).numbers?) := by
  unfold version
  unfold Names reading at h
  unfold reading
  rw [hnew]
  cases htag : versionTag tree u with
  | error e => rfl
  | ok tag =>
    rw [htag] at h
    cases hrelease : tag.release? with
    | error e => simp only [Failure.ok_bind, hrelease, Failure.error_bind, Reading.numbers?]
    | ok found =>
      simp only [Failure.ok_bind, hrelease]
      cases found with
      | some v => rfl
      | none =>
        simp only [hrelease] at h
        have hself : referredName tag = u.name := by
          by_contra hne
          exact h _ ⟨rfl, hne⟩
        simp [hself, Reading.numbers?, pure, Except.pure]

/-- The sources of a unit that names another one are read like this. -/
theorem exists_tag_of_names (h : Names tree u name) :
    ∃ tag, versionTag tree u = .ok tag ∧ tag.release? = .ok none ∧ referredName tag = name := by
  obtain ⟨hshared, _⟩ := h
  unfold reading at hshared
  cases htag : versionTag tree u with
  | error e => rw [htag] at hshared; cases hshared
  | ok tag =>
    rw [htag] at hshared
    cases hrelease : tag.release? with
    | error e => simp only [hrelease] at hshared; cases hshared
    | ok found =>
      simp only [hrelease] at hshared
      cases found with
      | some v => cases hshared
      | none => exact ⟨tag, rfl, hrelease, Reading.shared.inj hshared⟩

/-- What becomes known of a named unit is remembered for both units; a failure leaves nothing behind. -/
def remember (known : Known) (name self : String) :
    Except Failure (Option ReleaseVersion) → Known × Except Failure (Option ReleaseVersion)
  | .error e => (known, .error e)
  | .ok v => ((known.set name v).set self v, .ok v)

theorem remember_snd (known : Known) (name self : String)
    (r : Except Failure (Option ReleaseVersion)) : (remember known name self r).2 = r := by
  cases r <;> rfl

/-- A unit that names another one gets what becomes known of that. -/
theorem version_of_names (hnew : known.get? u.name = none) (h : Names tree u name) :
    version tree units u known = remember known name u.name (learned tree units known name) := by
  obtain ⟨tag, htag, hrelease, rfl⟩ := exists_tag_of_names h
  unfold version
  simp only [hnew, htag, hrelease, Failure.ok_bind, pure, Except.pure, beq_iff_eq, if_neg h.2]
  cases hknown : known.get? (referredName tag) with
  | some found =>
    rw [learned_of_known hknown]
    simp only [remember, Table.set_eq_self hknown]
  | none =>
    unfold learned
    rw [hknown]
    cases hw : units.get? (referredName tag) with
    | none => rfl
    | some w =>
      simp only [Option.elim_some, given_reading, Failure.ok_bind]
      cases htag' : versionTag tree w with
      | error e => rfl
      | ok other =>
        simp only [Failure.ok_bind]
        cases other.release? <;> rfl

/-! ## What a unit gets if it is asked for first -/

/-- The version that a unit gets as long as nothing is known. -/
def first (tree : FileTree) (units : Table SourceUnit) (u : SourceUnit) :
    Except Failure (Option ReleaseVersion) :=
  (version tree units u ∅).2

theorem first_of_alone (h : ∀ name, ¬ Names tree u name) :
    first tree units u = .ok (reading tree u).numbers? := by
  unfold first
  rw [version_of_alone (Table.get?_empty _) h]

theorem first_of_names (h : Names tree u name) :
    first tree units u = learned tree units ∅ name := by
  unfold first
  rw [version_of_names (Table.get?_empty _) h, remember_snd]

/-- What is known of a unit is what the unit gets if it is asked for first. -/
def Fresh (tree : FileTree) (units : Table SourceUnit) (known : Known) : Prop :=
  ∀ ⦃name v⦄, known.get? name = some v →
    ∃ w, units.get? name = some w ∧ first tree units w = .ok v

theorem fresh_empty : Fresh tree units ∅ := by
  intro name v h
  rw [Table.get?_empty] at h
  cases h

/-- Noting the version of one more unit keeps what is noted right. -/
theorem Fresh.set (h : Fresh tree units known) (hw : units.get? name = some w)
    (hfirst : first tree units w = .ok v) : Fresh tree units (known.set name v) := by
  intro other v' hother
  by_cases hname : other = name
  · subst hname
    rw [Table.get?_set_self, Option.some.injEq] at hother
    subst hother
    exact ⟨w, hw, hfirst⟩
  · rw [Table.get?_set_of_ne _ _ hname] at hother
    exact h hother

/-- Every unit that another one names gives that what it gets itself. -/
def Steady (tree : FileTree) (units : Table SourceUnit) : Prop :=
  ∀ ⦃u name w⦄, units.get? u.name = some u → Names tree u name → units.get? name = some w →
    first tree units w = (reading tree w).given

/-- What is known does not change what becomes known of a named unit. -/
theorem Steady.learned_eq (hsteady : Steady tree units) (hknown : Fresh tree units known)
    (hu : units.get? u.name = some u) (h : Names tree u name) :
    learned tree units known name = learned tree units ∅ name := by
  cases hname : known.get? name with
  | none => simp only [learned, hname, Table.get?_empty]
  | some v =>
    obtain ⟨w, hw, hfirst⟩ := hknown hname
    rw [learned_of_known hname, learned_of_new (Table.get?_empty _) hw, ← hsteady hu h hw, hfirst]

/-- **One question**: the answer is the one to a first question, and what is known stays fresh. -/
theorem Fresh.version (hsteady : Steady tree units) (hknown : Fresh tree units known)
    (hu : units.get? u.name = some u) :
    (version tree units u known).2 = first tree units u ∧
      Fresh tree units (version tree units u known).1 := by
  cases hself : known.get? u.name with
  | some v =>
    rw [version_of_known hself]
    obtain ⟨w, hw, hfirst⟩ := hknown hself
    obtain rfl : u = w := Option.some.inj (hu.symm.trans hw)
    exact ⟨hfirst.symm, hknown⟩
  | none =>
    by_cases hnames : ∃ name, Names tree u name
    · obtain ⟨name, h⟩ := hnames
      have hfirst : first tree units u = learned tree units ∅ name := first_of_names h
      rw [version_of_names hself h, hsteady.learned_eq hknown hu h, remember_snd]
      refine ⟨hfirst.symm, ?_⟩
      cases hlearned : learned tree units ∅ name with
      | error e => exact hknown
      | ok v =>
        -- The named unit is there, and what it gives is what it gets.
        have hw : ∃ w, units.get? name = some w ∧ first tree units w = .ok v := by
          cases hget : units.get? name with
          | none => simp [learned, hget] at hlearned
          | some w =>
            refine ⟨w, rfl, ?_⟩
            rw [hsteady hu h hget, ← learned_of_new (Table.get?_empty _) hget, hlearned]
        obtain ⟨w, hget, hgiven⟩ := hw
        exact (hknown.set hget hgiven).set hu (hfirst.trans hlearned)
    · have halone : ∀ name, ¬ Names tree u name := fun name h => hnames ⟨name, h⟩
      have hfirst : first tree units u = .ok (reading tree u).numbers? := first_of_alone halone
      rw [version_of_alone hself halone]
      exact ⟨hfirst.symm, hknown.set hu hfirst⟩

/-! ## Questions asked in turn -/

/-- The answers to questions asked in turn, each beside the unit that was asked for. -/
def answers (tree : FileTree) (units : Table SourceUnit) :
    List SourceUnit → Known → List (SourceUnit × Except Failure (Option ReleaseVersion))
  | [], _ => []
  | u :: rest, known =>
    (u, (version tree units u known).2) :: answers tree units rest (version tree units u known).1

/-- **Questions in turn** are all answered like first questions. -/
theorem Fresh.answers (hsteady : Steady tree units) {us : List SourceUnit}
    (hus : ∀ u ∈ us, units.get? u.name = some u) (hknown : Fresh tree units known)
    {r : Except Failure (Option ReleaseVersion)} (h : (u, r) ∈ answers tree units us known) :
    r = first tree units u := by
  induction us generalizing known with
  | nil => cases h
  | cons q rest ih =>
    obtain ⟨hanswer, hknown'⟩ := hknown.version hsteady (hus q List.mem_cons_self)
    rcases List.mem_cons.mp h with heq | hrest
    · obtain ⟨rfl, rfl⟩ := Prod.mk.inj heq
      exact hanswer
    · exact ih (fun p hp => hus p (List.mem_cons_of_mem _ hp)) hknown' hrest

/-- A unit that is asked for in two sequences gets the same in both. -/
def Agreeing (tree : FileTree) (units : Table SourceUnit) : Prop :=
  ∀ us us' : List SourceUnit, (∀ u ∈ us, units.get? u.name = some u) →
    (∀ u ∈ us', units.get? u.name = some u) → ∀ u r r',
      (u, r) ∈ answers tree units us ∅ → (u, r') ∈ answers tree units us' ∅ → r = r'

theorem Steady.agreeing (hsteady : Steady tree units) : Agreeing tree units := by
  intro us us' hus hus' u r r' hr hr'
  rw [fresh_empty.answers hsteady hus hr, fresh_empty.answers hsteady hus' hr']

/-- Two questions tell a named unit apart that gives something else than it gets: the unit that names it
    is asked for before it or after it. -/
theorem Agreeing.steady (hnamed : ∀ ⦃name u⦄, units.get? name = some u → u.name = name)
    (hagree : Agreeing tree units) : Steady tree units := by
  intro u name w hu h hw
  obtain rfl := hnamed hw
  have hlearned : learned tree units ∅ w.name = (reading tree w).given :=
    learned_of_new (Table.get?_empty _) hw
  have hone : ∀ p ∈ [w], units.get? p.name = some p := by
    intro p hp
    rw [List.mem_singleton.mp hp]
    exact hw
  cases hgiven : (reading tree w).given with
  | ok v =>
    -- After the other unit, what it has been given is known of `w`.
    have hfirst : version tree units u ∅ = (((∅ : Known).set w.name v).set u.name v, .ok v) := by
      rw [version_of_names (Table.get?_empty _) h, hlearned, hgiven]
      rfl
    have hsecond : version tree units w (((∅ : Known).set w.name v).set u.name v)
        = (((∅ : Known).set w.name v).set u.name v, .ok v) := by
      refine version_of_known ?_
      rw [Table.get?_set_of_ne _ _ h.2, Table.get?_set_self]
    refine hagree [w] [u, w] hone ?_ w _ _ List.mem_cons_self ?_
    · intro p hp
      rcases List.mem_cons.mp hp with rfl | hp'
      · exact hu
      · exact hone p hp'
    · simp [answers, hfirst, hsecond]
  | error e =>
    -- The other unit fails if it is asked for first, but not after `w`, which then has no version.
    have hfail : version tree units u ∅ = (∅, .error e) := by
      rw [version_of_names (Table.get?_empty _) h, hlearned, hgiven]
      rfl
    have halone : ∀ other, ¬ Names tree w other := by
      rintro other ⟨hshared, _⟩
      rw [hshared] at hgiven
      cases hgiven
    have hknown : ((version tree units w ∅).1).get? w.name = some (reading tree w).numbers? := by
      rw [version_of_alone (Table.get?_empty _) halone, Table.get?_set_self]
    have hnew : ((version tree units w ∅).1).get? u.name = none := by
      rw [version_of_alone (Table.get?_empty _) halone, Table.get?_set_of_ne _ _ (Ne.symm h.2),
        Table.get?_empty]
    have hsecond : (version tree units u (version tree units w ∅).1).2
        = .ok (reading tree w).numbers? := by
      rw [version_of_names hnew h, remember_snd, learned_of_known hknown]
    have hsame := hagree [u] [w, u] ?_ ?_ u (.error e) (.ok (reading tree w).numbers?) ?_ ?_
    · cases hsame
    · intro p hp
      rw [List.mem_singleton.mp hp]
      exact hu
    · intro p hp
      rcases List.mem_cons.mp hp with rfl | hp'
      · exact hw
      · rw [List.mem_singleton.mp hp']
        exact hu
    · simp [answers, hfail]
    · simp [answers, hsecond]

/-! ## When the order does not matter -/

/-- A named unit gives what it gets if it can be read and leads to no numbers beyond its own: if it names
    a further unit, then one that holds a name as well. -/
theorem first_eq_given_iff : first tree units w = (reading tree w).given ↔
    (∀ e, reading tree w ≠ .unreadable e) ∧
    ∀ next, Names tree w next →
      ∃ x other, units.get? next = some x ∧ reading tree x = .shared other := by
  by_cases hnames : ∃ next, Names tree w next
  · obtain ⟨next, h⟩ := hnames
    have hgiven : (reading tree w).given = .ok none := by
      rw [h.1]
      rfl
    have honly : ∀ other, Names tree w other → other = next := by
      intro other hother
      have hsame := hother.1.symm.trans h.1
      cases hsame
      rfl
    have hreadable : ∀ e, reading tree w ≠ .unreadable e := by
      intro e he
      rw [h.1] at he
      cases he
    rw [hgiven, first_of_names h]
    constructor
    · intro hlearned
      refine ⟨hreadable, fun other hother => ?_⟩
      obtain rfl := honly other hother
      cases hx : units.get? other with
      | none => simp [learned, hx] at hlearned
      | some x =>
        rw [learned_of_new (Table.get?_empty _) hx] at hlearned
        cases hread : reading tree x with
        | unreadable e => rw [hread] at hlearned; cases hlearned
        | numbers v => rw [hread] at hlearned; cases hlearned
        | shared further => exact ⟨x, further, rfl, hread⟩
    · rintro ⟨_, hnext⟩
      obtain ⟨x, further, hx, hread⟩ := hnext next h
      rw [learned_of_new (Table.get?_empty _) hx, hread]
      rfl
  · have halone : ∀ next, ¬ Names tree w next := fun next h => hnames ⟨next, h⟩
    rw [first_of_alone halone]
    constructor
    · intro hfirst
      refine ⟨fun e he => ?_, fun next h => absurd h (halone next)⟩
      rw [he] at hfirst
      cases hfirst
    · rintro ⟨hreadable, _⟩
      cases hread : reading tree w with
      | unreadable e => exact absurd hread (hreadable e)
      | numbers v => rfl
      | shared next => rfl

/-- **When the order of the questions does not matter.**  Whatever sequences of questions are asked,
    a unit gets the same answer in all of them, if and only if every unit of release that another
    one names can be read, and names none itself but one that holds a name as well.  So a chain of
    two references to a unit with numbers is enough: asked for first, the unit in the middle gets
    the numbers; asked for after the unit that names it, it has no version. -/
theorem answers_agree_iff (tree : FileTree) (c : Context) :
    Agreeing tree c.releases ↔
      ∀ u name w, c.releases.get? u.name = some u → Names tree u name →
        c.releases.get? name = some w →
        (∀ e, reading tree w ≠ .unreadable e) ∧
        ∀ next, Names tree w next →
          ∃ x other, c.releases.get? next = some x ∧ reading tree x = .shared other := by
  constructor
  · intro hagree u name w hu h hw
    have hsteady := hagree.steady fun _ _ => Context.named_releases
    exact first_eq_given_iff.mp (hsteady hu h hw)
  · intro hcond
    have hsteady : Steady tree c.releases := fun u name w hu h hw =>
      first_eq_given_iff.mpr (hcond u name w hu h hw)
    exact hsteady.agreeing

/-! ## A chain of two references -/

/-- The package `name` at its place. -/
def linkOf (name : String) : SourceUnit :=
  { name, path := "/r/" ++ name, kind := .standAlone }

/-- The two version files of a package, given the three parts of its version. -/
def linkFiles (name major minor patch : String) : List (String × String) :=
  let define (part value : String) : String :=
    "#define " ++ Text.upper name ++ "_VERSION_" ++ part ++ " " ++ value ++ "\n"
  [("/r/" ++ name ++ "/" ++ name ++ "_versiontag.h", define "MAJOR" major ++ define "MINOR" minor),
    ("/r/" ++ name ++ "/" ++ name ++ "_version.cpp", define "PATCH" patch)]

/-- Version files of three packages: the first shares the version of the second, and that one the version
    of the third. -/
def chainFiles : FileTree where
  files := .ofList
    (linkFiles "top" "MID_VERSION_MAJOR" "MID_VERSION_MINOR" "MID_VERSION_PATCH" ++
      linkFiles "mid" "LOW_VERSION_MAJOR" "LOW_VERSION_MINOR" "LOW_VERSION_PATCH" ++
      linkFiles "low" "1" "2" "3")
  dirs := []

/-- The three packages. -/
def chain : Context :=
  (((Context.empty "/r").put (linkOf "top")).put (linkOf "mid")).put (linkOf "low")

theorem reading_top : reading chainFiles (linkOf "top") = .shared "mid" := by decide +kernel

theorem reading_mid : reading chainFiles (linkOf "mid") = .shared "low" := by decide +kernel

theorem reading_low : reading chainFiles (linkOf "low") = .numbers ⟨"1", "2", "3"⟩ := by
  decide +kernel

/-- Both version files of a unit can be read. -/
def HasVersionFiles (tree : FileTree) (u : SourceUnit) : Prop :=
  (tree.read (versionFiles u).1).isOk = true ∧ (tree.read (versionFiles u).2).isOk = true

/-- **The order of the questions may matter**, although every name in place of a version is that of
    a unit of release whose version files are there: the package in the middle of a chain gets the
    version at its end, and none once the package that names it has been asked for. -/
theorem chain_disagrees :
    (∀ u name, chain.releases.get? u.name = some u → Names chainFiles u name →
      ∃ w, chain.releases.get? name = some w ∧ HasVersionFiles chainFiles w) ∧
    (linkOf "mid", .ok (some ⟨"1", "2", "3"⟩)) ∈ answers chainFiles chain.releases [linkOf "mid"] ∅ ∧
    (linkOf "mid", .ok none) ∈ answers chainFiles chain.releases [linkOf "top", linkOf "mid"] ∅ ∧
    ¬ Agreeing chainFiles chain.releases := by
  have htop : Names chainFiles (linkOf "top") "mid" := ⟨reading_top, by decide⟩
  have hmid : Names chainFiles (linkOf "mid") "low" := ⟨reading_mid, by decide⟩
  have hunits : ∀ u, chain.releases.get? u.name = some u →
      u = linkOf "top" ∨ u = linkOf "mid" ∨ u = linkOf "low" := by
    intro u hu
    have hmem := Table.get?_eq_some_iff.mp hu
    rw [show chain.releases.entries = [("top", linkOf "top"), ("mid", linkOf "mid"),
      ("low", linkOf "low")] from rfl] at hmem
    simp only [List.mem_cons, Prod.mk.injEq, List.not_mem_nil, or_false] at hmem
    exact hmem.imp And.right (Or.imp And.right And.right)
  have hfirst : first chainFiles chain.releases (linkOf "mid") = .ok (some ⟨"1", "2", "3"⟩) := by
    rw [first_of_names hmid, learned_of_new (w := linkOf "low") (Table.get?_empty _) rfl, reading_low]
    rfl
  have hafter : version chainFiles chain.releases (linkOf "top") ∅
      = (((∅ : Known).set "mid" none).set "top" none, .ok none) := by
    rw [version_of_names (Table.get?_empty _) htop,
      learned_of_new (w := linkOf "mid") (Table.get?_empty _) rfl, reading_mid]
    rfl
  have hknown : version chainFiles chain.releases (linkOf "mid")
      (((∅ : Known).set "mid" none).set "top" none)
      = (((∅ : Known).set "mid" none).set "top" none, .ok none) := version_of_known rfl
  have hone : (linkOf "mid", .ok (some ⟨"1", "2", "3"⟩))
      ∈ answers chainFiles chain.releases [linkOf "mid"] ∅ := by
    rw [answers, ← first, hfirst]
    exact List.mem_cons_self
  have htwo : (linkOf "mid", .ok none)
      ∈ answers chainFiles chain.releases [linkOf "top", linkOf "mid"] ∅ := by
    rw [answers, hafter, answers, hknown]
    exact List.mem_cons_of_mem _ List.mem_cons_self
  refine ⟨?_, hone, htwo, fun hagree => ?_⟩
  · intro u name hu h
    rcases hunits u hu with rfl | rfl | rfl
    · obtain rfl : "mid" = name := Reading.shared.inj (reading_top.symm.trans h.1)
      exact ⟨linkOf "mid", rfl, by decide +kernel, by decide +kernel⟩
    · obtain rfl : "low" = name := Reading.shared.inj (reading_mid.symm.trans h.1)
      exact ⟨linkOf "low", rfl, by decide +kernel, by decide +kernel⟩
    · exact absurd (reading_low.symm.trans h.1) (by simp)
  · have hsame := hagree [linkOf "mid"] [linkOf "top", linkOf "mid"] (by decide +kernel)
      (by decide +kernel) _ _ _ hone htwo
    cases hsame

end BuildMeta.Release
