import BuildMeta.Proofs.Pkg.Comparison
import BuildMeta.Proofs.Pkg.Reading

/-!
# `Proofs.Pkg.SpecLists` — lists of requirements that are written and read again

A list of requirements is read spec by spec: a name, and behind it perhaps a relation with a
version.  Nothing separates the three when a requirement is written, so each has to end where the
next one begins: relation characters end a name, and a version that has parts does not begin with
one (`Spec.Apart`).

* `written_of_mem_specs` — what every spec that is read looks like;
* `specs_join_texts` — specs that commas join are read again one by one;
* `render_ofSpec` — the text of a requirement is that of its spec;
* `parseAll_join_render` — so requirements that are written as a list are read again.
-/

namespace BuildMeta.Pkg

namespace Relation

/-- A relation that is read is written as it was read, unless there is none. -/
theorem parse_cases {text : String} {r : Relation} (h : parse text = .ok r) :
    text = "" ∧ r = any ∨ text ≠ "" ∧ r ≠ any ∧ r.render = text := by
  unfold parse at h
  by_cases hempty : text = ""
  · simp only [hempty, beq_self_eq_true, if_true, Except.ok.injEq] at h
    exact Or.inl ⟨hempty, h.symm⟩
  · rw [if_neg (by simpa using hempty)] at h
    cases hfind : table.dropLast.find? (·.2 == text) with
    | none => simp [hfind] at h
    | some entry =>
      obtain ⟨r', text'⟩ := entry
      simp only [hfind, Except.ok.injEq] at h
      have htext : text' = text := by simpa using List.find?_some hfind
      have hall : ∀ e ∈ table.dropLast, e.1 ≠ any ∧ e.1.render = e.2 := by decide
      have hentry := hall _ (List.mem_of_find?_eq_some hfind)
      rw [h, htext] at hentry
      exact Or.inr ⟨hempty, hentry⟩

end Relation

namespace Version

variable {v : Version}

/-- The version begins with a number, and not all of its parts are zeros. -/
structure Leading (v : Version) : Prop where
  number : ∃ n ps, v.parts = .number n :: ps
  nonzero : ¬ v.parts.all Part.isZero

/-- Such a version counts. -/
theorem Leading.isEmpty_eq (h : v.Leading) : v.isEmpty = .ok false := by
  obtain ⟨⟨n, ps, hparts⟩, hnonzero⟩ := h
  rw [hparts, List.all_cons] at hnonzero
  have hne : ¬ (v.parts == none.parts) = true := by
    rw [hparts, beq_iff_eq]
    intro hzero
    obtain ⟨⟨rfl⟩, rfl⟩ := List.cons.inj hzero
    exact hnonzero rfl
  rw [isEmpty, compare, if_neg hne, hparts, none, Part.compareAll, Part.compare, Failure.ok_bind]
  rcases lt_trichotomy n 0 with hlt | rfl | hgt
  · rw [compare_lt_iff_lt.mpr hlt]
    rfl
  · -- The numbers agree, so the rest decides, which has a part that counts.
    have hrest : ps.all Part.isZero = false := by simpa [Part.isZero] using hnonzero
    rw [compare_eq_iff_eq.mpr rfl]
    cases ps with
    | nil => cases hrest
    | cons q qs =>
      show (· == Ordering.eq) <$>
        (Except.ok (if (q :: qs).all Part.isZero then .eq else .gt) : Except Failure _) = _
      rw [hrest]
      rfl
  · rw [compare_gt_iff_gt.mpr hgt]
    rfl

end Version

namespace Requirement

variable {s : Spec} {ss : List Spec} {r : Requirement} {rs : List Requirement} {c : Char}
  {chars rest : List Char}

/-! ## Characters -/

theorem isNameChar_of_isRelationChar (h : isRelationChar c = true) : isNameChar c = false := by
  simp [isNameChar, h]

theorem isBlank_of_isRelationChar (h : isRelationChar c = true) : Text.isBlank c = false := by
  simp only [isRelationChar, List.contains_eq_mem, List.mem_cons, List.not_mem_nil, or_false,
    decide_eq_true_eq] at h
  rcases h with rfl | rfl | rfl | rfl <;> decide

theorem isRelationChar_of_isPartChar (h : Part.isPartChar c = true) : isRelationChar c = false := by
  by_contra hrelation
  simp only [isRelationChar, List.contains_eq_mem, List.mem_cons, List.not_mem_nil, or_false,
    decide_eq_true_eq, Bool.not_eq_false] at hrelation
  rcases hrelation with rfl | rfl | rfl | rfl <;> revert h <;> decide

theorem isRelationChar_of_isSeparator (h : Part.isSeparator c = true) : isRelationChar c = false := by
  simp only [Part.isSeparator, List.contains_eq_mem, List.mem_cons, List.not_mem_nil, or_false,
    decide_eq_true_eq] at h
  rcases h with rfl | rfl | rfl | rfl | rfl | rfl <;> decide

/-! ## Specs that are read -/

/-- A name, and with it a relation and a version or none of both, each of characters of its kind. -/
structure Spec.Written (s : Spec) : Prop where
  name_ne_nil : s.name ≠ []
  name : ∀ c ∈ s.name, isNameChar c = true
  relation : ∀ c ∈ s.relation, isRelationChar c = true
  version : ∀ c ∈ s.version, isVersionChar c = true
  both : s.relation = [] ↔ s.version = []

theorem isVersionChar_of_isRelationChar (h : isRelationChar c = true) : isVersionChar c = true := by
  have hblank := isBlank_of_isRelationChar h
  have hcomma : c ≠ ',' := by
    rintro rfl
    revert h
    decide
  simp [isVersionChar, hblank, hcomma]

/-- The relation and the version after a name are of their characters, and there are both of them or
    none. -/
theorem bound_written (chars : List Char) :
    (∀ c ∈ (bound chars).1, isRelationChar c = true) ∧
    (∀ c ∈ (bound chars).2.1, isVersionChar c = true) ∧
      ((bound chars).1 = [] ↔ (bound chars).2.1 = []) := by
  unfold bound
  extract_lets lead relation after gap version
  have hrelation : ∀ c ∈ relation, isRelationChar c = true := fun c hc => List.mem_takeWhile_imp hc
  have hversion : ∀ c ∈ version, isVersionChar c = true := fun c hc => List.mem_takeWhile_imp hc
  by_cases hno : relation.isEmpty = true
  · simp [hno]
  by_cases hsome : version.isEmpty = true
  · by_cases hlong : relation.length > 1
    · simp only [hno, hsome, hlong, if_true, if_false, Bool.not_true, Bool.false_eq_true]
      -- The last relation character stands for the version here.
      refine ⟨?_, ?_, ?_⟩
      · intro c hc
        exact hrelation c (List.dropLast_subset _ hc)
      · intro c hc
        exact isVersionChar_of_isRelationChar (hrelation c (List.drop_subset _ _ hc))
      · have hfront : relation.dropLast ≠ [] := by
          intro hnil
          have hlength := congrArg List.length hnil
          simp at hlength
          omega
        have hback : relation.drop (relation.length - 1) ≠ [] := by
          simp
          omega
        exact iff_of_false hfront hback
    · simp [hno, hsome, hlong]
  · simp only [hno, hsome, Bool.not_false, if_true, if_false, Bool.false_eq_true]
    refine ⟨hrelation, hversion, iff_of_false ?_ ?_⟩
    · simpa using hno
    · simpa using hsome

/-- Specs are found where they are written, whatever was skipped before. -/
theorem written_of_mem_specsFrom {skip : Nat} (h : s ∈ specsFrom skip chars) : s.Written := by
  fun_induction specsFrom skip chars with
  | case1 => cases h
  | case2 skip c rest ih => exact ih h
  | case3 c rest hc tail relation version length hbound ih =>
    rcases List.mem_cons.mp h with rfl | hrest
    · have hwritten := bound_written (rest.drop tail.length)
      rw [hbound] at hwritten
      obtain ⟨hrelation, hversion, hboth⟩ := hwritten
      refine ⟨List.cons_ne_nil _ _, ?_, hrelation, hversion, hboth⟩
      intro d hd
      rcases List.mem_cons.mp hd with rfl | hd
      · exact hc
      · exact List.mem_takeWhile_imp hd
    · exact ih hrest
  | case4 c rest hc ih => exact ih h

/-- **What is read as a spec is written as one.** -/
theorem written_of_mem_specs {text : String} (h : s ∈ specs text) : s.Written :=
  written_of_mem_specsFrom h

/-! ## Specs that are written -/

/-- The version does not begin with a character that could belong to the relation before it. -/
def Spec.Apart (s : Spec) : Prop := ∀ c ∈ s.version.head?, isRelationChar c = false

/-- The text of a spec, with nothing between its parts. -/
def Spec.text (s : Spec) : String := String.ofList (s.name ++ (s.relation ++ s.version))

/-- Where a spec ends: at the end of the list, or before a comma. -/
def Ends (rest : List Char) : Prop := ∀ c ∈ rest.head?, c = ','

/-- Behind the name of a written spec its relation and version are found, whole. -/
theorem bound_text (h : s.Written) (hapart : s.Apart) (hends : Ends rest) :
    bound (s.relation ++ (s.version ++ rest)) =
      (s.relation, s.version, s.relation.length + s.version.length) := by
  have hcomma : ∀ {p : Char → Bool}, p ',' = false → ∀ c ∈ rest.head?, p c = false := by
    intro p hp c hc
    rw [hends c hc]
    exact hp
  have hafter : ∀ c ∈ (s.version ++ rest).head?, isRelationChar c = false :=
    Text.head?_append_stop hapart (hcomma (by decide))
  have hgap : ∀ c ∈ (s.version ++ rest).head?, Text.isBlank c = false := by
    apply Text.head?_append_stop _ (hcomma (by decide))
    intro c hc
    have hversion := h.version c (List.mem_of_mem_head? hc)
    simp only [isVersionChar, Bool.and_eq_true, Bool.not_eq_true'] at hversion
    exact hversion.1
  have hlead : ∀ c ∈ (s.relation ++ (s.version ++ rest)).head?, Text.isBlank c = false := by
    apply Text.head?_append_stop _ hgap
    intro c hc
    exact isBlank_of_isRelationChar (h.relation c (List.mem_of_mem_head? hc))
  unfold bound
  simp only [Text.takeWhile_eq_nil_of_stop hlead, List.length_nil, List.drop_zero, Nat.zero_add,
    Text.takeWhile_append_stop h.relation hafter, List.drop_left, Text.takeWhile_eq_nil_of_stop hgap,
    Text.takeWhile_append_stop h.version (hcomma (by decide))]
  by_cases hrelation : s.relation = []
  · simp [hrelation, h.both.mp hrelation]
  · have hversion : s.version ≠ [] := fun hnil => hrelation (h.both.mpr hnil)
    simp [hrelation, hversion]

/-- A written spec is read as a whole, and reading goes on behind it. -/
theorem specsFrom_text (h : s.Written) (hapart : s.Apart) (hends : Ends rest) :
    specsFrom 0 (s.text.toList ++ rest) = s :: specsFrom 0 rest := by
  have hstop : ∀ c ∈ (s.relation ++ (s.version ++ rest)).head?, isNameChar c = false := by
    intro c hc
    cases hrelation : s.relation with
    | nil =>
      rw [hrelation, h.both.mp hrelation] at hc
      rw [hends c hc]
      decide
    | cons d more =>
      rw [hrelation] at hc
      obtain rfl : d = c := by simpa using hc
      exact isNameChar_of_isRelationChar (h.relation d (hrelation ▸ List.mem_cons_self))
  have hread := specsFrom_name_bound h.name_ne_nil h.name hstop (bound_text h hapart hends)
  rw [← List.append_assoc s.relation, ← List.length_append, List.drop_left] at hread
  rw [Spec.text, String.toList_ofList, List.append_assoc]
  exact hread

/-- **Specs that commas join are read again one by one.** -/
theorem specs_join_texts (h : ∀ s ∈ ss, s.Written ∧ s.Apart) :
    specs (Text.join ", " (ss.map Spec.text)) = ss := by
  show specsFrom 0 (Text.join ", " (ss.map Spec.text)).toList = ss
  induction ss with
  | nil => rfl
  | cons s rest ih =>
    obtain ⟨hwritten, hapart⟩ := h s List.mem_cons_self
    have hrest := ih fun t ht => h t (List.mem_cons_of_mem _ ht)
    cases rest with
    | nil =>
      have hends : Ends [] := by simp [Ends]
      have hlast := specsFrom_text hwritten hapart hends
      rw [List.append_nil] at hlast
      rw [List.map_singleton, Text.toList_join_singleton]
      exact hlast
    | cons next more =>
      rw [List.map_cons, List.map_cons, Text.toList_join_cons_cons]
      have hends : Ends (", ".toList ++ (Text.join ", " (next.text :: more.map Spec.text)).toList) := by
        rintro c ⟨⟩
        rfl
      rw [specsFrom_text hwritten hapart hends]
      -- The comma and the blank behind it are passed over.
      exact congrArg (s :: ·) hrest

/-! ## Requirements -/

/-- What is read from a spec: a bound on the version, if and only if the spec has a relation. -/
theorem ofSpec_cases (hwritten : s.Written) (h : ofSpec s = .ok r) :
    r.name = String.ofList s.name ∧
      (s.relation = [] ∧ s.version = [] ∧ r.relation = .any ∧ r.version = Version.none ∨
        r.relation ≠ .any ∧ r.relation.render = String.ofList s.relation ∧
          r.version = Version.parse (String.ofList s.version)) := by
  unfold ofSpec at h
  obtain ⟨relation, hrelation, hout⟩ := Failure.bind_eq_ok_iff.mp h
  cases hout
  refine ⟨rfl, ?_⟩
  rcases Relation.parse_cases hrelation with ⟨hempty, hany⟩ | ⟨hsome, hany, hrender⟩
  · have hnil : s.relation = [] := by simpa using hempty
    have hversion : s.version = [] := hwritten.both.mp hnil
    exact Or.inl ⟨hnil, hversion, hany, by simp [hversion]⟩
  · have hversion : s.version ≠ [] := by
      intro hnil
      apply hsome
      rw [hwritten.both.mpr hnil, String.ofList_nil]
    exact Or.inr ⟨hany, hrender, by simp [hversion]⟩

/-- A requirement that can be written so that it is read again: it bounds no version, or it bounds
    the version by one that begins with a number and counts. -/
def Writable (r : Requirement) : Prop := r.relation = .any ∨ r.version.Leading

/-- A version in which parts were found does not begin with a relation character. -/
theorem head_of_readAll {p : Part} {ps : List Part} (h : Part.readAll chars = p :: ps) :
    ∀ c ∈ chars.head?, isRelationChar c = false := by
  obtain ⟨_, hpasses, _⟩ := Part.readAll_eq_iff.mp h
  cases hpasses with
  | pass hpass _ =>
    obtain @⟨gap, run, rest, hgap, hrun, _⟩ := hpass
    apply Text.head?_append_stop
    · intro c hc
      exact isRelationChar_of_isSeparator (hgap.separators c (List.mem_of_mem_head? hc))
    · intro c hc
      obtain ⟨d, run, rfl⟩ := List.exists_cons_of_ne_nil hrun.ne_nil
      obtain rfl : d = c := by simpa using hc
      exact isRelationChar_of_isPartChar (hrun.chars d List.mem_cons_self)

theorem apart_of_ofSpec (hwritten : s.Written) (h : ofSpec s = .ok r) (hr : r.Writable) : s.Apart := by
  rcases (ofSpec_cases hwritten h).2 with ⟨_, hnil, _⟩ | ⟨hany, _, hversion⟩
  · simp [Spec.Apart, hnil]
  · obtain ⟨⟨n, ps, hparts⟩, _⟩ := hr.resolve_left hany
    have hread : Part.readAll s.version = .number n :: ps := by
      rw [hversion] at hparts
      simpa [Version.parse] using hparts
    exact head_of_readAll hread

/-- **The text of a requirement is that of its spec.** -/
theorem render_ofSpec (hwritten : s.Written) (h : ofSpec s = .ok r) (hr : r.Writable) :
    r.render = .ok s.text := by
  obtain ⟨hname, ⟨hrelation, hnil, _, hversion⟩ | ⟨hany, hrelation, hversion⟩⟩ := ofSpec_cases hwritten h
  · have hempty : r.version.isEmpty = .ok true := by
      rw [hversion]
      decide
    rw [render, hempty, Failure.ok_bind, if_pos rfl, hname, Spec.text, hrelation, hnil, List.append_nil,
      List.append_nil]
    rfl
  · have hfull : r.version.isEmpty = .ok false := (hr.resolve_left hany).isEmpty_eq
    have htext :
        s.text = String.ofList s.name ++ String.ofList s.relation ++ String.ofList s.version := by
      rw [Spec.text, String.ofList_append, String.ofList_append, String.append_assoc]
    rw [render, hfull, Failure.ok_bind, hname, hrelation, hversion, htext]
    rfl

/-- A list of specs and the requirements that were read from them have the same texts. -/
theorem mapM_render (h : List.Forall₂ (fun s r => ofSpec s = .ok r) ss rs)
    (hwritten : ∀ s ∈ ss, s.Written) (hr : ∀ r ∈ rs, r.Writable) :
    rs.mapM render = .ok (ss.map Spec.text) ∧ ∀ s ∈ ss, s.Written ∧ s.Apart := by
  induction h with
  | nil => exact ⟨rfl, by simp⟩
  | @cons s r ss rs hsr _ ih =>
    obtain ⟨htexts, hapart⟩ := ih (fun t ht => hwritten t (List.mem_cons_of_mem _ ht))
      (fun t ht => hr t (List.mem_cons_of_mem _ ht))
    have hs : s.Written := hwritten s List.mem_cons_self
    have hwritable : r.Writable := hr r List.mem_cons_self
    refine ⟨?_, List.forall_mem_cons.mpr ⟨⟨hs, apart_of_ofSpec hs hsr hwritable⟩, hapart⟩⟩
    rw [List.mapM_cons, render_ofSpec hs hsr hwritable, Failure.ok_bind, htexts, Failure.ok_bind]
    rfl

/-- **Requirements that are written as a list are read again.**  Of a list that was read from some
    text, let each member bound no version, or bound it by a version that begins with a number and
    has a part other than zero. Then all of them can be written, and the list of their texts is read
    as the same list. -/
theorem parseAll_join_render (text : String) (rs : List Requirement) (hread : parseAll text = .ok rs)
    (hr : ∀ r ∈ rs, r.relation = .any ∨ r.version.Leading) :
    ∃ texts, rs.mapM render = .ok texts ∧ parseAll (Text.join ", " texts) = .ok rs := by
  have hspecs := Failure.mapM_eq_ok_iff.mp hread
  obtain ⟨htexts, hwritten⟩ := mapM_render hspecs (fun s hs => written_of_mem_specs hs) hr
  refine ⟨_, htexts, ?_⟩
  rw [parseAll, specs_join_texts hwritten]
  exact hread

/-- Requirements with and without bounds; one version holds a relation character, and one begins with a
    separator. -/
def supplies : List Requirement :=
  [unbounded "zlib", ⟨"gtk+-2.0", .greaterOrEqual, .parse "2.10>3"⟩,
    ⟨"c-d.e", .notEqual, .parse "-0.3~rc"⟩, unbounded "x"]

/-- Requirements read from a text with all kinds of separators are written as a list and read
    again. -/
theorem parseAll_join_render_supplies :
    parseAll " zlib,, gtk+-2.0>= 2.10>3  c-d.e\t!=-0.3~rc,x <" = .ok supplies ∧
    ∃ texts, supplies.mapM render = .ok texts ∧ parseAll (Text.join ", " texts) = .ok supplies := by
  have hread : parseAll " zlib,, gtk+-2.0>= 2.10>3  c-d.e\t!=-0.3~rc,x <" = .ok supplies := by
    decide +kernel
  have hbounds : ∀ r ∈ supplies, r.relation = .any ∨ r.version.Leading := by
    intro r hr
    simp only [supplies, List.mem_cons, List.not_mem_nil, or_false] at hr
    rcases hr with rfl | rfl | rfl | rfl
    · exact Or.inl rfl
    · exact Or.inr ⟨⟨2, [.number 10], by decide +kernel⟩, by decide +kernel⟩
    · exact Or.inr ⟨⟨0, [.number 3, .word "rc"], by decide +kernel⟩, by decide +kernel⟩
    · exact Or.inl rfl
  exact ⟨hread, parseAll_join_render _ _ hread hbounds⟩

end Requirement

end BuildMeta.Pkg
