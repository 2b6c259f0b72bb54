import BuildMeta.Proofs.Rule.Groups
import BuildMeta.Proofs.Text.Cut
import BuildMeta.Proofs.Text.Lower

/-!
# `Proofs.Rule.RoundTrip` — printing rules and reading them back

A rule is printed in one line, with single blanks between its parts (`Rule.line`).  For a rule that
the format can express (`Printable`) the line is read back as the rule itself, whatever its parts
look like: a platform may look like a command and a value may hold equals signs.  What the readers
deliver can be expressed, so reading undoes printing on all of it.
-/

namespace BuildMeta

/-- A text without blanks. -/
def NoBlank (s : String) : Prop := ∀ c ∈ s.toList, Text.isBlank c = false

instance : DecidablePred NoBlank := fun s =>
  inferInstanceAs (Decidable (∀ c ∈ s.toList, Text.isBlank c = false))

/-! ## Platforms -/

namespace Uplid

/-- A part that is read as it is written. -/
structure PartText (p : String) : Prop where
  ne_empty : p ≠ ""
  noHyphen : '-' ∉ p.toList
  lower : Text.lower p = p

instance : DecidablePred PartText := fun p =>
  decidable_of_iff (p ≠ "" ∧ '-' ∉ p.toList ∧ Text.lower p = p)
    ⟨fun ⟨h₁, h₂, h₃⟩ => ⟨h₁, h₂, h₃⟩, fun ⟨h₁, h₂, h₃⟩ => ⟨h₁, h₂, h₃⟩⟩

/-- Reading undoes printing for platforms of such parts. -/
theorem parse_render {u : Uplid} (h : ∀ p ∈ u.parts, PartText p) : parse u.render = .ok u := by
  have hsplit : Text.split '-' u.render = u.parts :=
    Text.split_join (List.cons_ne_nil _ _) fun p hp => (h p hp).noHyphen
  have hpart : ∀ i p, u.parts[i]? = some p → partAt u.parts i = p := by
    intro i p hi
    have hp := h p (List.mem_of_getElem? hi)
    rw [partAt, List.getD_eq_getElem?_getD, hi]
    dsimp only [Option.getD_some]
    rw [if_neg (by simpa using hp.ne_empty), hp.lower]
  rw [parse, hsplit, if_neg (show ¬ u.parts.length > 6 from Nat.lt_irrefl 6), hpart 0 _ rfl,
    hpart 1 _ rfl, hpart 2 _ rfl, hpart 3 _ rfl, hpart 4 _ rfl, hpart 5 _ rfl]

/-- A part of a platform is the wild card, or made of characters of the text, so it holds no
    separator, and no blank if the text has none. -/
theorem partText_partAt (s : String) (i : Nat) :
    PartText (partAt (Text.split '-' s) i) ∧ (NoBlank s → NoBlank (partAt (Text.split '-' s) i)) := by
  -- Before it is put into lower case the part is the wild card, or made of characters of the text.
  have hpart : ∃ q, partAt (Text.split '-' s) i = Text.lower q ∧ q ≠ "" ∧
      ∀ c ∈ q.toList, c ≠ '-' ∧ (c ∈ s.toList ∨ c = '*') := by
    refine ⟨_, rfl, ?_⟩
    split
    · exact ⟨by decide, by simp⟩
    · next hne =>
      refine ⟨by simpa using hne, fun c hc => ?_⟩
      rw [List.getD_eq_getElem?_getD] at hc
      cases hget : (Text.split '-' s)[i]? with
      | none =>
        rw [hget] at hc
        cases hc
      | some part =>
        rw [hget] at hc
        obtain ⟨hin, hsep⟩ := Text.mem_split (List.mem_of_getElem? hget) hc
        exact ⟨hsep, Or.inl hin⟩
  obtain ⟨q, hq, hne, hchars⟩ := hpart
  rw [hq]
  refine ⟨⟨Text.lower_ne_empty hne, fun hin => ?_, Text.lower_lower q⟩, fun hblank c hc => ?_⟩
  · rcases Text.mem_lower hin with hin | hinner
    · exact (hchars _ hin).1 rfl
    · exact hinner.2 rfl
  · rcases Text.mem_lower hc with hc | hinner
    · rcases (hchars c hc).2 with hin | rfl
      · exact hblank c hin
      · rfl
    · exact hinner.1

/-- Platforms that are read consist of parts that are read as they are written. -/
theorem partText_of_parse {s : String} {u : Uplid} (h : parse s = .ok u) {p : String}
    (hp : p ∈ u.parts) :
    PartText p ∧ (NoBlank s → NoBlank p) := by
  unfold parse at h
  dsimp only at h
  split at h
  · cases h
  · obtain rfl := Except.ok.inj h
    simp only [parts, List.mem_cons, List.not_mem_nil, or_false] at hp
    rcases hp with rfl | rfl | rfl | rfl | rfl | rfl
    all_goals exact partText_partAt s _

end Uplid

/-! ## Flavours -/

namespace Ufid

/-- Two flavours have the same flags; their order does not matter. -/
def Same (u v : Ufid) : Prop := ∀ f, f ∈ u.flags ↔ f ∈ v.flags

/-- A flag that is read as it is written. -/
structure FlagText (f : String) : Prop where
  ne_empty : f ≠ ""
  noUnderscore : '_' ∉ f.toList

instance : DecidablePred FlagText := fun f =>
  decidable_of_iff (f ≠ "" ∧ '_' ∉ f.toList) ⟨fun ⟨h₁, h₂⟩ => ⟨h₁, h₂⟩, fun ⟨h₁, h₂⟩ => ⟨h₁, h₂⟩⟩

/-- Reading undoes printing for flavours of such flags. -/
theorem same_parse_render {u : Ufid} (h : ∀ f ∈ u.flags, FlagText f) : Same (parse u.render) u := by
  intro f
  unfold parse ofFlags
  rw [List.mem_eraseDups, List.mem_filter, bne_iff_ne]
  by_cases hempty : u.flags = []
  · -- The lone underscore splits into empty parts only.
    rw [show u.render = Text.join (String.singleton '_') ["", ""] by rw [render, hempty]; rfl,
      Text.split_join (List.cons_ne_nil _ _) (by simp), hempty]
    simp
  · have hsorted : (u.flags.mergeSort fun a b => decide (rank a ≤ rank b)).Perm u.flags :=
      List.mergeSort_perm _ _
    have hsplit : Text.split '_' u.render = u.flags.mergeSort fun a b => decide (rank a ≤ rank b) := by
      rw [render, if_neg (by simpa using hempty)]
      refine Text.split_join (fun hnil => hempty ?_) fun g hg =>
        (h g (hsorted.mem_iff.mp hg)).noUnderscore
      rw [hnil] at hsorted
      exact hsorted.nil_eq.symm
    rw [hsplit, hsorted.mem_iff]
    exact ⟨And.left, fun hf => ⟨hf, (h f hf).ne_empty⟩⟩

theorem flagText_of_parse {s f : String} (hf : f ∈ (parse s).flags) :
    FlagText f ∧ (NoBlank s → NoBlank f) := by
  unfold parse ofFlags at hf
  rw [List.mem_eraseDups, List.mem_filter, bne_iff_ne] at hf
  obtain ⟨hpart, hne⟩ := hf
  exact ⟨⟨hne, fun hin => (Text.mem_split hpart hin).2 rfl⟩,
    fun hblank c hc => hblank c (Text.mem_split hpart hc).1⟩

end Ufid

namespace Rule

/-- A rule in one line. -/
def line (r : Rule) : String :=
  Text.join " " [r.command.render, r.uplid.render, r.ufid.render, r.key, "=", r.value]

/-- Two rules are the same, up to the order of flags. -/
structure Same (r r' : Rule) : Prop where
  command : r.command = r'.command
  uplid : r.uplid = r'.uplid
  ufid : r.ufid.Same r'.ufid
  key : r.key = r'.key
  value : r.value = r'.value

/-- A rule that the format can express. -/
structure Printable (r : Rule) : Prop where
  uplid : ∀ p ∈ r.uplid.parts, Uplid.PartText p ∧ NoBlank p
  ufid : ∀ f ∈ r.ufid.flags, Ufid.FlagText f ∧ NoBlank f
  key : Text.Solid r.key
  trimmed : Text.trim r.value = r.value
  noNewline : '\n' ∉ r.value.toList
  closed : goesOn r.value = false

instance : DecidablePred Printable := fun r =>
  decidable_of_iff ((∀ p ∈ r.uplid.parts, Uplid.PartText p ∧ NoBlank p) ∧
      (∀ f ∈ r.ufid.flags, Ufid.FlagText f ∧ NoBlank f) ∧ Text.Solid r.key ∧
        Text.trim r.value = r.value ∧
      '\n' ∉ r.value.toList ∧ goesOn r.value = false)
    ⟨fun ⟨h₁, h₂, h₃, h₄, h₅, h₆⟩ => ⟨h₁, h₂, h₃, h₄, h₅, h₆⟩,
      fun ⟨h₁, h₂, h₃, h₄, h₅, h₆⟩ => ⟨h₁, h₂, h₃, h₄, h₅, h₆⟩⟩

/-! ### The line is split as it was put together -/

theorem solid_render_uplid {u : Uplid} (h : ∀ p ∈ u.parts, Uplid.PartText p ∧ NoBlank p) :
    Text.Solid u.render :=
  Text.solid_join '-' (by decide) (List.cons_ne_nil _ _) fun p hp => ⟨(h p hp).1.ne_empty, (h p hp).2⟩

/-- A flavour is written as one word, if its flags are. -/
theorem solid_render_ufid {u : Ufid} (h : ∀ f ∈ u.flags, Ufid.FlagText f ∧ NoBlank f) :
    Text.Solid u.render := by
  unfold Ufid.render
  split
  · exact ⟨by decide, by decide⟩
  · next hempty =>
    have hsorted := List.mergeSort_perm u.flags fun a b => decide (Ufid.rank a ≤ Ufid.rank b)
    refine Text.solid_join '_' (by decide) (fun hnil => hempty ?_) fun f hf => ?_
    · rw [hnil] at hsorted
      rw [← hsorted.nil_eq]
      rfl
    · obtain ⟨hflag, hblank⟩ := h f (hsorted.mem_iff.mp hf)
      exact ⟨hflag.ne_empty, hblank⟩

/-- A word stands after a single blank. -/
theorem wordAt_blank {w : String} (h : Text.Solid w) (rest : List Char) :
    WordAt (' ' :: (w.toList ++ rest)) w.toList rest :=
  ⟨isWord_of_solid h, [' '], by simp [IsGap, Text.isBlank], rfl⟩

theorem startsBlank_blank (rest : List Char) : StartsBlank (' ' :: rest) := ⟨' ', rest, rfl, by decide⟩

/-- The line of a rule, split into the parts of the rule. -/
def split (r : Rule) : Split :=
  ⟨some r.command, r.uplid.render.toList, r.ufid.render.toList, r.key.toList, ' ' :: r.value.toList⟩

theorem toList_line (r : Rule) :
    r.line.toList = r.command.render.toList ++ (' ' :: (r.uplid.render.toList ++
    (' ' ::
      (r.ufid.render.toList ++ (' ' :: (r.key.toList ++ (' ' :: '=' :: ' ' :: r.value.toList))))))) := by
  simp [line, Text.join]

/-- No key goes on beyond the word that it starts in. -/
theorem KeyAt.length_le {s w rest key value : List Char} (h : KeyAt s key value)
    (hword : WordAt s w rest) (hend : StartsBlank rest) : key.length ≤ w.length := by
  obtain ⟨gap, -, hkey⟩ := h
  obtain ⟨c, tail, rfl, hblank⟩ := hend
  have hsame := hkey.dropWhile_eq.symm.trans hword.dropWhile_eq
  by_contra hlt
  -- A longer key would hold the blank after the word.
  have hmem : c ∈ key := by
    have hget := congrArg (·[w.length]?) hsame
    simp only [List.getElem?_append_left (Nat.lt_of_not_le hlt),
      List.getElem?_append_right (Nat.le_refl _), Nat.sub_self, List.getElem?_cons_zero] at hget
    exact List.mem_of_getElem? hget
  rw [hkey.1.noBlank c hmem] at hblank
  cases hblank

/-- The printed line splits into the parts of the rule, and no other way to split it comes before. -/
theorem firstSplit_line {r : Rule} (h : Printable r) : FirstSplit r.line.toList r.split := by
  have hgap : IsGap [' '] := by simp [IsGap, Text.isBlank]
  have hkey := wordAt_blank h.key (' ' :: '=' :: ' ' :: r.value.toList)
  exact firstSplit_of_command (fun _ hc => absurd hc List.not_mem_nil) (toList_line r)
    (wordAt_blank (solid_render_uplid h.uplid) _) (startsBlank_blank _)
    (wordAt_blank (solid_render_ufid h.ufid) _) (startsBlank_blank _)
    ⟨⟨[' '], hgap, hkey⟩, fun _ _ hother => hother.length_le hkey (startsBlank_blank _)⟩

/-! ### What is read -/

/-- A text after any character but a backslash decides whether a line goes on. -/
theorem goesOn_after {c : Char} (hc : c ≠ '\\') (front : List Char) (s : String) :
    goesOn (String.ofList (front ++ c :: s.toList)) = goesOn s := by
  rw [Bool.eq_iff_iff, goesOn_iff, goesOn_iff, String.toList_ofList,
    List.getLast?_append_of_ne_nil _ (List.cons_ne_nil _ _)]
  cases s.toList with
  | nil => simp [hc]
  | cons d rest => rw [List.getLast?_cons_cons]

theorem goesOn_line (r : Rule) : goesOn r.line = goesOn r.value := by
  have hline : r.line = String.ofList ((r.command.render.toList ++ ' ' :: (r.uplid.render.toList ++
      ' ' ::
        (r.ufid.render.toList ++ ' ' :: (r.key.toList ++ [' ', '='])))) ++ ' ' :: r.value.toList) := by
    rw [← String.toList_inj, toList_line]
    simp
  rw [hline, goesOn_after (by decide)]

theorem line_ne_empty (r : Rule) : r.line ≠ "" := by
  intro hempty
  have hnil := congrArg String.toList hempty
  rw [toList_line, String.toList_empty, List.append_eq_nil_iff] at hnil
  exact List.cons_ne_nil _ _ hnil.2

theorem noNewline_line {r : Rule} (h : Printable r) : '\n' ∉ r.line.toList := by
  rw [toList_line]
  simp only [List.mem_append, List.mem_cons, noNewline_command, (solid_render_uplid h.uplid).noNewline,
    (solid_render_ufid h.ufid).noNewline, h.key.noNewline, h.noNewline, or_false]
  decide

theorem isCommentLine_line (r : Rule) : isCommentLine r.line.toList = false := by
  rw [toList_line]
  cases r.command <;> rfl

/-- The line of a rule states the rule. -/
theorem states_line {r : Rule} (h : Printable r) : ∃ r', States r.line [] r' ∧ r'.Same r := by
  have huplid : Uplid.parse (String.ofList r.split.uplid) = .ok r.uplid := by
    rw [split, String.ofList_toList]
    exact Uplid.parse_render fun p hp => (h.uplid p hp).1
  have hstates : States r.line [] _ := ⟨r.split, r.uplid, firstSplit_line h, huplid, rfl⟩
  refine ⟨_, hstates, rfl, rfl, ?_, String.ofList_toList, ?_⟩
  · dsimp only [split]
    rw [String.ofList_toList]
    exact Ufid.same_parse_render fun f hf => (h.ufid f hf).1
  · have hgap : IsGap [' '] := by simp [IsGap, Text.isBlank]
    have hopen : goesOn (String.ofList (' ' :: r.value.toList)) = false :=
      (goesOn_after (by decide) [] r.value).trans h.closed
    dsimp only [split]
    rw [List.map_singleton, withoutMark, if_neg (by rw [hopen]; exact Bool.false_ne_true),
      join_empty_cons]
    exact (trim_gap hgap r.value.toList "").trans (by simpa using h.trimmed)

/-- The lines of rules state the rules. -/
theorem yields_lines {rules : List Rule} (h : ∀ r ∈ rules, Printable r) (number : Nat) :
    ∃ rules', Yields (blocksFrom number (rules.map line)) rules' none ∧
      List.Forall₂ Same rules' rules := by
  induction rules generalizing number with
  | nil => exact ⟨[], by rw [List.map_nil, blocksFrom]; exact .nil, .nil⟩
  | cons r rules ih =>
    have hr := h r List.mem_cons_self
    obtain ⟨r', hstates, hsame⟩ := states_line hr
    have hnone : takenIn r.line (rules.map line) = [] := by
      cases hmap : rules.map line with
      | nil => rfl
      | cons next rest => exact if_neg (by rw [goesOn_line, hr.closed]; exact Bool.false_ne_true)
    obtain ⟨rules', hyields, hall⟩ := ih (fun q hq => h q (List.mem_cons_of_mem _ hq)) (number + 1)
    refine ⟨r' :: rules', ?_, .cons hsame hall⟩
    rw [List.map_cons, blocksFrom, if_neg (by rw [isCommentLine_line]; exact Bool.false_ne_true), hnone]
    exact .rule ((goesOn_line r).trans hr.closed) hstates hyields

/-! ### Rules that were read -/

/-- A rule takes lines from those behind it. -/
theorem mem_takenIn {line l : String} {rest : List String} (h : l ∈ takenIn line rest) : l ∈ rest := by
  induction rest generalizing line with
  | nil => cases h
  | cons next rest ih =>
    rw [takenIn] at h
    split at h
    · exact (List.mem_cons.mp h).elim (fun e => e ▸ List.mem_cons_self) fun h =>
        List.mem_cons_of_mem _ (ih h)
    · cases h

/-- The lines of a group are lines of the text. -/
theorem mem_of_group {start number : Nat} {lines more : List String} {first l : String}
    (h : .group number first more ∈ blocksFrom start lines) (hl : l ∈ first :: more) : l ∈ lines := by
  fun_induction blocksFrom start lines with
  | case1 => cases h
  | case2 start line rest _ ih => exact List.mem_cons_of_mem _ (ih (by simpa using h))
  | case3 start line rest _ ih =>
    rcases List.mem_cons.mp h with e | h
    · cases e
      exact (List.mem_cons.mp hl).elim (fun e => e ▸ List.mem_cons_self)
        fun hl => List.mem_cons_of_mem _ (mem_takenIn hl)
    · exact List.mem_cons_of_mem _ (List.mem_of_mem_drop (ih h))

/-- A rule is stated by a group. -/
theorem Yields.exists_group {bs : List Block} {rules : List Rule} {failure : Option Failure}
    (h : Yields bs rules failure) {r : Rule} (hr : r ∈ rules) :
    ∃ number first more, .group number first more ∈ bs ∧ States first more r := by
  induction h with
  | nil => cases hr
  | alone _ ih =>
    obtain ⟨number, first, more, hmem, hstates⟩ := ih hr
    exact ⟨number, first, more, List.mem_cons_of_mem _ hmem, hstates⟩
  | rule hclosed hrule hrest ih =>
    rcases List.mem_cons.mp hr with rfl | hr
    · exact ⟨_, _, _, List.mem_cons_self, hrule⟩
    · obtain ⟨number, first, more, hmem, hstates⟩ := ih hr
      exact ⟨number, first, more, List.mem_cons_of_mem _ hmem, hstates⟩
  | leftOpen => cases hr
  | unfit => cases hr

/-- The parts of a line that are words. -/
theorem Splits.isWord {l : List Char} {p : Split} (h : Splits l p) :
    IsWord p.uplid ∧ IsWord p.ufid ∧ IsWord p.key := by
  have hfields : ∀ {s uplid ufid key value}, FieldsAt s uplid ufid key value →
      IsWord uplid ∧ IsWord ufid ∧ IsWord key := by
    rintro s uplid ufid key value ⟨s₁, s₂, hat₁, -, hat₂, -, gap, -, hat₃⟩
    exact ⟨hat₁.1, hat₂.1, hat₃.1⟩
  obtain ⟨command, uplid, ufid, key, value⟩ := p
  cases command with
  | none => exact hfields h
  | some c =>
    obtain ⟨gap, rest, -, -, hrest⟩ := h
    exact hfields hrest

theorem mem_withoutMark {l : String} {c : Char} (h : c ∈ (withoutMark l).toList) : c ∈ l.toList := by
  unfold withoutMark at h
  split at h
  · rw [Text.dropEnd, String.toList_ofList] at h
    exact List.mem_of_mem_take h
  · exact h

/-- What lines state can be expressed, unless a backslash is left at the end of the value. -/
theorem printable_of_states {first : String} {more : List String} {r : Rule} (h : States first more r)
    (hlines : ∀ l ∈ first :: more, '\n' ∉ l.toList) (hclosed : goesOn r.value = false) :
    Printable r := by
  obtain ⟨p, uplid, hp, huplid, rfl⟩ := h
  obtain ⟨hword₁, hword₂, hword₃⟩ := hp.1.isWord
  obtain ⟨front, hfront⟩ := hp.1.exists_front
  refine ⟨fun q hq => ?_, fun f hf => ?_, ⟨?_, ?_⟩, Text.trim_trim _, fun hin => ?_, hclosed⟩
  · obtain ⟨hpart, hblank⟩ := Uplid.partText_of_parse huplid hq
    exact ⟨hpart, hblank (by rw [NoBlank, String.toList_ofList]; exact hword₁.noBlank)⟩
  · obtain ⟨hflag, hblank⟩ := Ufid.flagText_of_parse hf
    exact ⟨hflag, hblank (by rw [NoBlank, String.toList_ofList]; exact hword₂.noBlank)⟩
  · exact fun hempty => hword₃.ne_nil (by simpa using hempty)
  · rw [String.toList_ofList]
    exact hword₃.noBlank
  · rcases Text.mem_join (Text.mem_trim hin) with hin | ⟨w, hw, hin⟩
    · cases hin
    · obtain ⟨l, hl, rfl⟩ := List.mem_map.mp hw
      have hin := mem_withoutMark hin
      rcases List.mem_cons.mp hl with rfl | hl
      · refine hlines first List.mem_cons_self ?_
        rw [String.toList_ofList] at hin
        rw [hfront]
        exact List.mem_append_right _ (List.mem_cons_of_mem _ hin)
      · exact hlines l (List.mem_cons_of_mem _ hl) hin

/-- Rules that were read can be expressed, unless a backslash is left at the end of the value. -/
theorem printable_of_read {text : String} {r : Rule} (hr : r ∈ (read text).rules)
    (hclosed : goesOn r.value = false) : Printable r := by
  obtain ⟨rules, hyields, hrules⟩ := Reading.steps_yields (r := {}) ⟨rfl, rfl⟩ 1 (Text.lines text)
  rw [show (read text).rules = rules from hrules] at hr
  obtain ⟨number, first, more, hgroup, hstates⟩ := hyields.exists_group hr
  exact printable_of_states hstates (fun l hl => Text.not_mem_of_mem_lines (mem_of_group hgroup hl))
    hclosed

/-- The text that lists rules, one in a line. -/
def print (rules : List Rule) : String := Text.join "\n" (rules.map line)

/-- Rules that can be expressed are read back from their text. -/
theorem read_print {rules : List Rule} (h : ∀ r ∈ rules, Printable r) :
    (read (print rules)).failure = none ∧ List.Forall₂ Same (read (print rules)).rules rules := by
  have hlines : Text.lines (print rules) = rules.map line := by
    refine Text.lines_join ?_ ?_
    · intro l hl
      obtain ⟨r, -, rfl⟩ := List.mem_map.mp hl
      exact line_ne_empty r
    · intro l hl
      obtain ⟨r, hr, rfl⟩ := List.mem_map.mp hl
      exact noNewline_line (h r hr)
  obtain ⟨rules', hyields', hall⟩ := yields_lines h 1
  obtain ⟨found, hyields, hrules⟩ := Reading.steps_yields (r := {}) ⟨rfl, rfl⟩ 1 (rules.map line)
  obtain ⟨rfl, hfailure⟩ := hyields.unique hyields'
  unfold read
  rw [hlines]
  exact ⟨hfailure, by rw [hrules]; exact hall⟩

/-- **Rules print and read back.**  The line of a rule that the format can express is read as this
    rule alone. So are all rules that were read, printed one in a line, where no backslash is left
    at the end of a value. And reading undoes printing on all platforms and flavours that were
    read. -/
theorem read_back :
    (∀ r : Rule, Printable r →
      (read r.line).failure = none ∧ ∃ r', (read r.line).rules = [r'] ∧ r'.Same r) ∧
    (∀ text : String, (∀ r ∈ (read text).rules, goesOn r.value = false) →
      (read (print (read text).rules)).failure = none ∧
        List.Forall₂ Same (read (print (read text).rules)).rules (read text).rules) ∧
    (∀ (s : String) (u : Uplid), Uplid.parse s = .ok u → Uplid.parse u.render = .ok u) ∧
    ∀ s : String, (Ufid.parse (Ufid.parse s).render).Same (Ufid.parse s) := by
  refine ⟨fun r hr => ?_, fun text hclosed => ?_, fun s u hu => ?_, fun s => ?_⟩
  · have hone : ∀ q ∈ [r], Printable q := by simpa using hr
    have hprint : print [r] = r.line := by
      rw [print, List.map_singleton, Text.join, String.intercalate_singleton]
    obtain ⟨hfailure, hsame⟩ := read_print hone
    rw [hprint] at hfailure hsame
    refine ⟨hfailure, ?_⟩
    generalize (read r.line).rules = found at hsame
    cases hsame with
    | cons hr' hrest =>
      cases hrest
      exact ⟨_, rfl, hr'⟩
  · exact read_print fun r hr => printable_of_read hr (hclosed r hr)
  · exact Uplid.parse_render fun p hp => (Uplid.partText_of_parse hu hp).1
  · exact Ufid.same_parse_render fun f hf => (Ufid.flagText_of_parse hf).1

/-- A rule whose platform starts like a command, and whose key and value hold equals signs. -/
def ambiguous : Rule where
  command := .insert
  uplid := { osType := "++", osName := "linux" }
  ufid := ⟨["mt", "dbg"]⟩
  key := "A=B"
  value := "= ++ x = y\\ z"

theorem printable_ambiguous : Printable ambiguous := by decide +kernel

theorem read_back_ambiguous : Printable ambiguous ∧ (read ambiguous.line).failure = none ∧
    ∃ r, (read ambiguous.line).rules = [r] ∧ r.Same ambiguous :=
  ⟨printable_ambiguous, read_back.1 ambiguous printable_ambiguous⟩

end Rule

end BuildMeta
