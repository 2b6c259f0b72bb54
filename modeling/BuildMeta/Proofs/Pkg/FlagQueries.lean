import BuildMeta.Pkg.Query
import Mathlib.Data.List.Dedup

/-!
# `Proofs.Pkg.FlagQueries` — questions for all flags and for one kind of them

A query answers the question for all flags of the packages, and questions for the flags of one
kind.  Every answer is collected on its own: the flags of the packages in their order, each only
where it stands last.

* `keepsLast_lastOnly` — what is left is each flag once, in the order of the last occurrences;
* `filter_lastOnly` — picking the flags of one kind can be done before or after;
* `flags_by_kind` — so the answer for one kind is what the answer for all flags has of it.
-/

namespace BuildMeta.Pkg.Query

variable {flags : List String} {f g : String}

/-! ## Where flags stand last -/

/-- The last `f` of a list stands before the last `g`: behind a last `f` there is still a `g`. -/
def LastBefore (flags : List String) (f g : String) : Prop :=
  ∃ front back, flags = front ++ f :: back ∧ f ∉ back ∧ g ∈ back

/-- `kept` has every member of `flags` once, and the members stand as their last occurrences do. -/
structure KeepsLast (flags kept : List String) : Prop where
  nodup : kept.Nodup
  mem_iff : ∀ f, f ∈ kept ↔ f ∈ flags
  order : kept.Pairwise (LastBefore flags)

theorem LastBefore.cons (h : LastBefore flags f g) (first : String) :
    LastBefore (first :: flags) f g := by
  obtain ⟨front, back, rfl, hlast, hmem⟩ := h
  exact ⟨first :: front, back, rfl, hlast, hmem⟩

/-- Going through the list from its end is the same as dropping every member that comes again. -/
theorem lastOnly_eq_dedup (flags : List String) : lastOnly flags = flags.dedup := by
  induction flags with
  | nil => rfl
  | cons f rest ih =>
    unfold lastOnly at ih ⊢
    rw [List.reverse_cons, List.eraseDups_append, List.reverse_append, ih]
    by_cases hmem : f ∈ rest
    · have hnone : [f].removeAll rest.reverse = [] := by simp [List.removeAll, hmem]
      rw [hnone, List.dedup_cons_of_mem hmem]
      rfl
    · have hone : [f].removeAll rest.reverse = [f] := by simp [List.removeAll, hmem]
      rw [hone, List.dedup_cons_of_notMem hmem]
      rfl

/-- Going through the flags from behind keeps each where it stands last, in the order of these
    places. -/
theorem keepsLast_lastOnly (flags : List String) : KeepsLast flags (lastOnly flags) := by
  rw [lastOnly_eq_dedup]
  refine ⟨List.nodup_dedup flags, fun f => List.mem_dedup, ?_⟩
  induction flags with
  | nil => exact List.Pairwise.nil
  | cons f rest ih =>
    have hrest : rest.dedup.Pairwise (LastBefore (f :: rest)) := ih.imp fun h => h.cons f
    by_cases hmem : f ∈ rest
    · rw [List.dedup_cons_of_mem hmem]
      exact hrest
    · rw [List.dedup_cons_of_notMem hmem]
      -- Here `f` stands for the last time, and all that is kept of the rest comes behind it.
      refine List.Pairwise.cons ?_ hrest
      intro g hg
      exact ⟨[], rest, rfl, hmem, List.mem_dedup.mp hg⟩

/-- **Picking flags and dropping repetitions can be exchanged.** -/
theorem filter_lastOnly (p : String → Bool) (flags : List String) :
    (lastOnly flags).filter p = lastOnly (flags.filter p) := by
  rw [lastOnly_eq_dedup, lastOnly_eq_dedup]
  induction flags with
  | nil => rfl
  | cons f rest ih =>
    by_cases hmem : f ∈ rest
    · rw [List.dedup_cons_of_mem hmem, ih]
      by_cases hp : p f = true
      · rw [List.filter_cons_of_pos hp, List.dedup_cons_of_mem (List.mem_filter.mpr ⟨hmem, hp⟩)]
      · rw [List.filter_cons_of_neg hp]
    · rw [List.dedup_cons_of_notMem hmem]
      by_cases hp : p f = true
      · have hout : f ∉ rest.filter p := fun h => hmem (List.mem_of_mem_filter h)
        rw [List.filter_cons_of_pos hp, List.filter_cons_of_pos hp, List.dedup_cons_of_notMem hout, ih]
      · rw [List.filter_cons_of_neg hp, List.filter_cons_of_neg hp, ih]

/-! ## Kinds of flags -/

/-- The flag names a library. -/
def isLib (f : String) : Bool := Text.startsWith f "-l"

/-- The flag names a directory of libraries. -/
def isLibPath (f : String) : Bool := Text.startsWith f "-L"

/-- The flag names a directory of headers. -/
def isIncludeDir (f : String) : Bool := Text.startsWith f "-I"

/-- The flag is neither a library nor a directory of libraries. -/
def isOtherLink (f : String) : Bool := !isLib f && !isLibPath f

variable {q : Query} {p : Package} {all part : Package → List String} {kind : String → Bool}

/-- If the flags of one kind are a part of what each package states, they are collected as a part,
    too. -/
theorem filter_collect (h : ∀ e ∈ q.packages, (all e.2).filter kind = part e.2) :
    (q.collect all).filter kind = q.collect part := by
  have hstated : (q.stated all).filter kind = q.stated part := by
    show (q.packages.flatMap fun e => all e.2).filter kind = q.packages.flatMap fun e => part e.2
    rw [List.filter_flatMap]
    exact List.flatMap_congr h
  unfold collect
  rw [filter_lastOnly, hstated]

/-- Flags that are all of a kind, or all not, are picked together. -/
theorem filter_uniform {b : Bool} (h : ∀ f ∈ flags, kind f = b) :
    flags.filter kind = if b then flags else [] := by
  cases b with
  | true => exact List.filter_eq_self.mpr h
  | false =>
    apply List.filter_eq_nil_iff.mpr
    intro f hf
    simp [h f hf]

theorem isOtherLink_iff : isOtherLink f = true ↔ isLib f = false ∧ isLibPath f = false := by
  simp [isOtherLink]

/-! ## The flags of one package -/

theorem windowsLinker_eq_false (h : q.search.site.windows = false) : q.windowsLinker = false := by
  rw [windowsLinker, h, Bool.false_and]

theorem kinds_libFlags (hlinker : q.windowsLinker = false) (hf : f ∈ q.libFlags p) :
    isLib f = true ∧ isLibPath f = false ∧ isOtherLink f = false := by
  simp only [libFlags, hlinker, List.mem_flatMap, List.mem_map] at hf
  obtain ⟨_, _, lib, _, rfl⟩ := hf
  simp [isLib, isLibPath, isOtherLink, Text.startsWith, List.isPrefixOf]

theorem kinds_libPathFlags (hlinker : q.windowsLinker = false) (hf : f ∈ q.libPathFlags p) :
    isLib f = false ∧ isLibPath f = true ∧ isOtherLink f = false := by
  simp only [libPathFlags, hlinker, List.mem_flatMap, List.mem_map] at hf
  obtain ⟨_, _, path, _, rfl⟩ := hf
  simp [isLib, isLibPath, isOtherLink, Text.startsWith, List.isPrefixOf]

theorem isIncludeDir_of_mem (hf : f ∈ includeDirFlags p) : isIncludeDir f = true := by
  simp only [includeDirFlags, List.mem_map] at hf
  obtain ⟨dir, _, rfl⟩ := hf
  simp [isIncludeDir, Text.startsWith, List.isPrefixOf]

/-- The flags of a package for linking fall apart into the three kinds. -/
theorem filter_allLinkFlags (hlinker : q.windowsLinker = false)
    (hothers : ∀ f ∈ q.otherLinkFlags p, isOtherLink f = true) :
    (q.allLinkFlags p).filter isLib = q.libFlags p ∧
    (q.allLinkFlags p).filter isLibPath = q.libPathFlags p ∧
    (q.allLinkFlags p).filter isOtherLink = q.otherLinkFlags p := by
  have hparts : ∀ {kind : String → Bool} {a b c : Bool}, (∀ f ∈ q.otherLinkFlags p, kind f = a) →
      (∀ f ∈ q.libPathFlags p, kind f = b) → (∀ f ∈ q.libFlags p, kind f = c) →
      (q.allLinkFlags p).filter kind = (if a then q.otherLinkFlags p else []) ++
        (if b then q.libPathFlags p else []) ++ (if c then q.libFlags p else []) := by
    intro kind a b c hother hpath hlib
    rw [allLinkFlags, List.filter_append, List.filter_append, filter_uniform hother,
      filter_uniform hpath, filter_uniform hlib]
  refine ⟨?_, ?_, ?_⟩
  · rw [hparts (fun f hf => (isOtherLink_iff.mp (hothers f hf)).1)
      (fun f hf => (kinds_libPathFlags hlinker hf).1)
      (fun f hf => (kinds_libFlags hlinker hf).1)]
    rfl
  · rw [hparts (fun f hf => (isOtherLink_iff.mp (hothers f hf)).2)
      (fun f hf => (kinds_libPathFlags hlinker hf).2.1) (fun f hf => (kinds_libFlags hlinker hf).2.1)]
    simp
  · rw [hparts hothers (fun f hf => (kinds_libPathFlags hlinker hf).2.2)
      (fun f hf => (kinds_libFlags hlinker hf).2.2)]
    simp

/-- The flags of a package for compiling fall apart into two kinds. -/
theorem filter_allCompileFlags (hothers : ∀ f ∈ p.compile.others, isIncludeDir f = false) :
    (allCompileFlags p).filter isIncludeDir = includeDirFlags p ∧
    (allCompileFlags p).filter (!isIncludeDir ·) = p.compile.others := by
  have hdirs : ∀ f ∈ includeDirFlags p, isIncludeDir f = true := fun f hf => isIncludeDir_of_mem hf
  have hnot : ∀ f ∈ p.compile.others, (!isIncludeDir f) = true := by
    intro f hf
    simp [hothers f hf]
  have hnotDirs : ∀ f ∈ includeDirFlags p, (!isIncludeDir f) = false := by
    intro f hf
    simp [hdirs f hf]
  unfold allCompileFlags
  refine ⟨?_, ?_⟩
  · rw [List.filter_append, filter_uniform hothers, filter_uniform hdirs]
    rfl
  · rw [List.filter_append, filter_uniform hnot, filter_uniform hnotDirs]
    simp

/-! ## The answers -/

/-- **The answer for one kind of flags is what the answer for all flags has of it.**  Both answers
    for all flags have each flag once, where the packages state it last. -/
theorem flags_by_kind (q : Query) (hsystem : q.search.site.windows = false)
    (hlink : ∀ e ∈ q.packages, ∀ f ∈ q.otherLinkFlags e.2, ¬ isLib f ∧ ¬ isLibPath f)
    (hcompile : ∀ e ∈ q.packages, ∀ f ∈ e.2.compile.others, ¬ isIncludeDir f) :
    KeepsLast (q.stated q.allLinkFlags) (q.collect q.allLinkFlags) ∧
    (q.collect q.allLinkFlags).filter isLib = q.collect q.libFlags ∧
    (q.collect q.allLinkFlags).filter isLibPath = q.collect q.libPathFlags ∧
    (q.collect q.allLinkFlags).filter (fun f => !isLib f && !isLibPath f) = q.collect q.otherLinkFlags ∧
    KeepsLast (q.stated allCompileFlags) (q.collect allCompileFlags) ∧
    (q.collect allCompileFlags).filter isIncludeDir = q.collect includeDirFlags ∧
    (q.collect allCompileFlags).filter (!isIncludeDir ·) = q.collect (·.compile.others) := by
  have hlinker : q.windowsLinker = false := windowsLinker_eq_false hsystem
  have hothers : ∀ e ∈ q.packages, ∀ f ∈ q.otherLinkFlags e.2, isOtherLink f = true := by
    intro e he f hf
    simpa [isOtherLink] using hlink e he f hf
  have hnoDir : ∀ e ∈ q.packages, ∀ f ∈ e.2.compile.others, isIncludeDir f = false := by
    intro e he f hf
    simpa using hcompile e he f hf
  refine ⟨keepsLast_lastOnly _, ?_, ?_, ?_, keepsLast_lastOnly _, ?_, ?_⟩
  · exact filter_collect fun e he => (filter_allLinkFlags hlinker (hothers e he)).1
  · exact filter_collect fun e he => (filter_allLinkFlags hlinker (hothers e he)).2.1
  · exact filter_collect fun e he => (filter_allLinkFlags hlinker (hothers e he)).2.2
  · exact filter_collect fun e he => (filter_allCompileFlags (hnoDir e he)).1
  · exact filter_collect fun e he => (filter_allCompileFlags (hnoDir e he)).2

/-- A package with flags only. -/
def packageWith (compile : CompileFlags) (link privateLink : LinkFlags) : Package where
  path := "/pc/tool.pc"
  rawVariables := ∅
  vars := ∅
  rawProperties := ∅
  name := "tool"
  description := "No description"
  version := .none
  requires := []
  allRequires := []
  conflicts := []
  compile := compile
  link := link
  privateLink := privateLink

/-- Two packages that share libraries and directories, asked with their private libraries. -/
def toolbox : Query where
  search := { site := {
    tree := { files := ∅, dirs := ["/"] }
    settings := Settings.initial.set "private_libs" (.bool true) } }
  packages :=
    [("saw", packageWith { includeDirs := ["/a", "/b"], others := ["-DX", "-pthread"] }
        { libs := ["saw", "m"], paths := ["/a"], others := ["-pthread"] }
        { libs := ["z"], paths := ["/b"], others := ["-framework"] }),
      ("drill", packageWith { includeDirs := ["/a"], others := ["-pthread"] }
        { libs := ["drill", "z"], paths := ["/a"], others := ["-pthread"] } { libs := ["m"] })]

/-- The flags of the toolbox, with several that are stated twice: every kind is a part of the whole
    answer. -/
theorem flags_by_kind_toolbox :
    toolbox.collect toolbox.allLinkFlags =
      ["-framework", "-L/b", "-lsaw", "-pthread", "-L/a", "-ldrill", "-lz", "-lm"] ∧
    KeepsLast (toolbox.stated toolbox.allLinkFlags) (toolbox.collect toolbox.allLinkFlags) ∧
    (toolbox.collect toolbox.allLinkFlags).filter isLib = toolbox.collect toolbox.libFlags ∧
    (toolbox.collect toolbox.allLinkFlags).filter isLibPath = toolbox.collect toolbox.libPathFlags ∧
    (toolbox.collect allCompileFlags).filter isIncludeDir = toolbox.collect includeDirFlags := by
  have hlink : ∀ e ∈ toolbox.packages, ∀ f ∈ toolbox.otherLinkFlags e.2, ¬ isLib f ∧ ¬ isLibPath f := by
    decide +kernel
  have hcompile : ∀ e ∈ toolbox.packages, ∀ f ∈ e.2.compile.others, ¬ isIncludeDir f := by decide +kernel
  obtain ⟨hkept, hlibs, hpaths, -, -, hdirs, -⟩ := flags_by_kind toolbox rfl hlink hcompile
  exact ⟨by decide +kernel, hkept, hlibs, hpaths, hdirs⟩

end BuildMeta.Pkg.Query
