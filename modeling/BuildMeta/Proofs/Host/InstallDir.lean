import BuildMeta.Host
import BuildMeta.Proofs.Text.Cut
import BuildMeta.Proofs.Text.Matching
import BuildMeta.Proofs.Text.PatternReading

/-!
# `Proofs.Host.InstallDir` — the directory of an installation path

The path of an installation is a directory and a name that begins with that of the machine.  The
directory is found with a pattern in which the name of the machine stands as it is.

* `read_installPattern` — what the pattern is read as, for every name of words and dots;
* `matchFront?_installPattern` — its first group is what stands before the name, also if a directory
  on the way has the same name;
* `installDir?_of_machine` — so the directory is found.
-/

namespace BuildMeta.Text.Pattern

/-- A directory at the front of a line, up to and with its last slash. -/
def dirPart : Pattern := seq (loop 0 none .most (one inLine)) (one (.single false 47))

/-- The characters of a part of a name. -/
def nameSet : CharSet := { spans := [.kind .word false true, .range 46 46] }

/-- A further part of a name, after a hyphen. -/
def namePart : Pattern := seq (one (.single false 45)) (loop 0 none .most (one nameSet))

/-- A path to a directory that is named for a platform, perhaps with further parts.  What is before
    the name is kept as the first group. -/
def installPattern (platform : List Char) : Pattern :=
  seq ((platform.map fun c => one (plainSet c)).foldl seq (group 1 dirPart)) (loop 0 none .most namePart)

namespace Reader

variable {top : Bool} {n : Nat} {done : List Piece} {s : Reading} {rest : List Char}

/-- The first group of the pattern is read as one group for the directory. -/
theorem pieces_dirPart :
    (pieces top {} (n + 7) done).run (s.facing ('(' :: '.' :: '*' :: '/' :: ')' :: rest)) =
      (pieces top {} (n + 6) ({ pattern := group s.next dirPart } :: done)).run
        ({ s with next := s.next + 1, closed := (s.next, 1, none) :: s.closed }.facing rest) := by
  have hpieces : (pieces false {} (n + 4) []).run
      ({ s with next := s.next + 1 }.facing ('.' :: '*' :: '/' :: ')' :: rest)) =
      .ok
        ([{ pattern := one (.single false 47) },
          { pattern := loop 0 none .most (one inLine), fixed := true }],
        { s with next := s.next + 1 }.facing (')' :: rest)) := by
    rw [pieces_dot, pieces_star (by simp) (by simp), pieces_char (by decide), pieces_stop]
    rfl
  exact pieces_numbered (by simp) (groupFrom_numbered (choices_of_pieces hpieces (by simp)))

theorem pieces_hyphen :
    (pieces top {} (n + 1) done).run (s.facing ('\\' :: '-' :: rest)) =
      (pieces top {} n ({ pattern := one (.single false 45) } :: done)).run (s.facing rest) := by
  rw [pieces]
  rfl

theorem pieces_nameSet :
    (pieces top {} (n + 1) done).run (s.facing ('[' :: '\\' :: 'w' :: '\\' :: '.' :: ']' :: rest)) =
      (pieces top {} n ({ pattern := one nameSet } :: done)).run (s.facing rest) := by
  rw [pieces]
  rfl

/-- What is left of the pattern is read as a loop over further parts of the name. -/
theorem pieces_namePart :
    (pieces top {} (n + 8) done).run
        (s.facing ['(', '?', ':', '\\', '-', '[', '\\', 'w', '\\', '.', ']', '*', ')', '*']) =
      .ok ({ pattern := loop 0 none .most namePart, fixed := true } :: done, s.facing []) := by
  have hpieces : (pieces false {} (n + 5) []).run
      (s.facing ['\\', '-', '[', '\\', 'w', '\\', '.', ']', '*', ')', '*']) =
      .ok
        ([{ pattern := loop 0 none .most (one nameSet), fixed := true },
          { pattern := one (.single false 45) }],
        s.facing [')', '*']) := by
    rw [pieces_hyphen, pieces_nameSet, pieces_star (by simp) (by simp), pieces_stop]
  rw [pieces_unnumbered (groupFrom_plain (choices_of_pieces hpieces (by simp))),
    pieces_star (by simp) (by simp), pieces_nil]
  rfl

end Reader

/-- **What the pattern of an installation path is read as.** -/
theorem read_installPattern {platform : String} (h : ∀ c ∈ platform.toList, IsPlain c) :
    read {} ("(.*/)" ++ platform ++ "(?:\\-[\\w\\.]*)*") = .ok (installPattern platform.toList) := by
  have htext : ("(.*/)" ++ platform ++ "(?:\\-[\\w\\.]*)*").toList = '(' :: '.' :: '*' :: '/' :: ')' ::
      (platform.toList
        ++ ['(', '?', ':', '\\', '-', '[', '\\', 'w', '\\', '.', ']', '*', ')', '*']) := by
    rw [String.toList_append, String.toList_append]
    rfl
  -- There is fuel for every character of the text, and the platform uses only a part of it.
  have hfuel : 4 * ("(.*/)" ++ platform ++ "(?:\\-[\\w\\.]*)*").length + 4
      = 4 * platform.toList.length + 72 + 7 + 1 := by
    rw [← String.length_toList, htext]
    simp only [List.length_cons, List.length_append, List.length_nil]
    omega
  have hsplit : 4 * platform.toList.length + 72 + 6
      = platform.toList.length + (3 * platform.toList.length + 70 + 8) := by
    omega
  let start : Reading := { rest := [], flags := {} }
  let after : Reading := { start with next := 2, closed := [(1, 1, none)] }
  have hpieces : (Reader.pieces true {} (4 * platform.toList.length + 72 + 7) []).run
      (start.facing ("(.*/)" ++ platform ++ "(?:\\-[\\w\\.]*)*").toList) =
      .ok ({ pattern := loop 0 none .most namePart, fixed := true } ::
        ((platform.toList.map fun c => { pattern := one (plainSet c) }).reverse
          ++ [{ pattern := group 1 dirPart }]),
        after.facing []) := by
    rw [htext, Reader.pieces_dirPart, hsplit, Reader.pieces_plain_run h, Reader.pieces_namePart]
  have hchoices := Reader.choices_of_pieces hpieces (by simp)
  rw [read, hfuel]
  show ((Reader.choices true {} (4 * platform.toList.length + 72 + 7 + 1)).run (start.facing _) >>=
    _) = _
  rw [hchoices, Failure.ok_bind]
  show Except.ok _ = _
  congr 1
  simp [sequence, installPattern, Function.comp_def]

/-! ## Matching -/

variable {text : Array Char} {exact : Bool} {p : Pattern} {x y : Place} {c : Char}
  {front back cs : List Char}

theorem holds_single_iff {d : Char} : (CharSet.single false d.toNat).holds c = true ↔ c = d := by
  have hcode : c.toNat = d.toNat ↔ c = d := Char.toNat_inj
  simp only [CharSet.holds, CharSet.single, List.any_cons, List.any_nil, CharSpan.holds,
    Bool.false_and, Bool.or_false, Bool.bne_false, Bool.and_eq_true, decide_eq_true_eq, ← hcode]
  omega

theorem holds_inLine_iff : inLine.holds c = true ↔ c ≠ '\n' := by
  have hcode : c.toNat = '\n'.toNat ↔ c = '\n' := Char.toNat_inj
  have hvalue : '\n'.toNat = 10 := rfl
  simp only [CharSet.holds, inLine, List.any_cons, List.any_nil, CharSpan.holds, Bool.false_and,
    Bool.or_false, Bool.bne_true, Bool.not_eq_true', Bool.and_eq_false_iff, decide_eq_false_iff_not,
    ne_eq, ← hcode]
  omega

/-- A plain character is in the set that it stands for. -/
theorem holds_plainSet (c : Char) : (plainSet c).holds c = true := by
  unfold plainSet
  split
  · next hdot =>
    rw [hdot]
    decide
  · exact holds_single_iff.mpr rfl

/-- Plain text is matched where it stands. -/
theorem Leads.plain (h : Leads text exact p x y) (htext : text = (front ++ cs ++ back).toArray)
    (hy : y.pos = front.length) :
    Leads text exact ((cs.map fun c => one (plainSet c)).foldl .seq p) x
      { y with pos := y.pos + cs.length } := by
  induction cs generalizing p y front with
  | nil => exact h
  | cons c cs ih =>
    have hget : text[y.pos]? = some c := by
      rw [htext, hy]
      simp
    have hle : y.pos + 1 ≤ text.size := by
      rw [htext, hy]
      simp only [List.size_toArray, List.length_append, List.length_cons]
      omega
    have hstep : Leads text exact (.seq p (one (plainSet c))) x { y with pos := y.pos + 1 } :=
      h.seq (leads_one hget (holds_plainSet c)) hle
    have hparts : text = ((front ++ [c]) ++ cs ++ back).toArray := by
      rw [htext]
      simp
    have hrest := ih hstep hparts (by simp [hy])
    have hpos : y.pos + 1 + cs.length = y.pos + (c :: cs).length := by
      rw [List.length_cons]
      omega
    rw [List.map_cons, List.foldl_cons, ← hpos]
    exact hrest

/-- The directory goes to the last slash, however many there are before it. -/
theorem leads_dirPart (htext : text = (front ++ '/' :: back).toArray) (hfront : '\n' ∉ front)
    (hback : '/' ∉ back) :
    Leads text exact dirPart { pos := 0 } { pos := front.length + 1 } := by
  have hslash : text[front.length]? = some '/' := by
    rw [htext]
    simp
  have hle : front.length + 1 ≤ text.size := by
    rw [htext]
    simp
  refine leads_greedy (k := front.length) (Nat.zero_le _) ?_ ?_ hle ?_
  · intro i hi
    have hget : text[0 + i]? = some front[i] := by
      rw [htext, Nat.zero_add, List.getElem?_toArray, List.getElem?_append_left hi,
        List.getElem?_eq_getElem hi]
    rw [hget, Option.any_some, holds_inLine_iff]
    intro hnewline
    exact hfront (hnewline ▸ List.getElem_mem hi)
  · rw [Nat.zero_add]
    exact leads_one hslash (holds_single_iff.mpr rfl)
  · -- Behind the last slash there is none to go on with.
    intro j hj _
    have hnone : ∀ c, text[0 + j]? = some c → c ≠ '/' := by
      rintro c hget rfl
      rw [htext, Nat.zero_add, List.getElem?_toArray, List.getElem?_append_right (by omega)] at hget
      obtain ⟨i, hi⟩ : ∃ i, j - front.length = i + 1 := ⟨j - front.length - 1, by omega⟩
      rw [hi, List.getElem?_cons_succ] at hget
      exact hback (List.mem_of_getElem? hget)
    have hany : text[0 + j]?.any (CharSet.single false 47).holds = false := by
      cases hget : text[0 + j]? with
      | none => rfl
      | some c =>
        refine Bool.eq_false_iff.mpr ?_
        intro hc
        exact hnone c hget ((holds_single_iff (d := '/')).mp hc)
    rw [ends, hany]
    rfl

/-- **A path to a directory that is named for a platform matches, and the first group is what is
    before the name.** -/
theorem matchFront?_installPattern (hfront : '\n' ∉ front) (hplatform : '/' ∉ cs) (hback : '/' ∉ back) :
    ((installPattern cs).matchFront? (String.ofList (front ++ '/' :: (cs ++ back)))).bind (·.group? 1) =
      some (String.ofList (front ++ ['/'])) := by
  generalize htext : (front ++ '/' :: (cs ++ back)).toArray = text
  have hdir : Leads text (installPattern cs).looksBack (group 1 dirPart) { pos := 0 }
      { pos := front.length + 1, groups := [(1, 0, front.length + 1)] } := by
    refine (leads_dirPart htext.symm hfront ?_).group 1
    rw [List.mem_append]
    exact not_or.mpr ⟨hplatform, hback⟩
  have hparts : text = ((front ++ ['/']) ++ cs ++ back).toArray := by
    rw [← htext]
    simp
  have hname := hdir.plain hparts (by simp)
  generalize
    hplace : ({ pos := front.length + 1 + cs.length, groups := [(1, 0, front.length + 1)] } : Place)
      = y at hname
  have hle : y.pos ≤ text.size := by
    rw [← htext, ← hplace]
    simp only [List.size_toArray, List.length_append, List.length_cons]
    omega
  obtain ⟨z, hz⟩ := exists_leads_loop namePart hle
  obtain ⟨hzle, hgroups⟩ := groups_of_mem_ends rfl hle hz.mem
  have hall : Leads text (installPattern cs).looksBack (installPattern cs) { pos := 0 } z :=
    hname.seq hz hzle
  have hfound : (installPattern cs).matchFront? (String.ofList (front ++ '/' :: (cs ++ back))) =
      some { text, start := 0, stop := z.pos, groups := z.groups } := by
    rw [matchFront?, String.toList_ofList, htext, matchAt?, hall]
    rfl
  have htake : (front ++ '/' :: (cs ++ back)).take (front.length + 1) = front ++ ['/'] :=
    List.take_length_add_append 1
  rw [hfound, Option.bind_some, Found.group?, hgroups, ← htext, ← hplace]
  simp [htake]

/-! ## What is found -/

variable {z : Place} {set : CharSet}

theorem exists_of_mem_ends_seq {q : Pattern} (hz : z ∈ ends text exact (seq p q) x) :
    ∃ y ∈ ends text exact p x, z ∈ ends text exact q y :=
  List.mem_flatMap.mp (mem_of_mem_settle hz)

/-- A set is passed by one character that it holds. -/
theorem of_mem_ends_one (hy : y ∈ ends text exact (one set) x) :
    ∃ c, text[x.pos]? = some c ∧ set.holds c = true ∧ y = { x with pos := x.pos + 1 } := by
  rw [ends] at hy
  split at hy
  · next hany =>
    cases hget : text[x.pos]? with
    | none =>
      rw [hget] at hany
      cases hany
    | some c =>
      rw [hget] at hany
      exact ⟨c, rfl, hany, List.mem_singleton.mp hy⟩
  · cases hy

/-- Characters behind a pattern leave its groups as they are. -/
theorem exists_of_mem_ends_chars {sets : List CharSet}
    (hz : z ∈ ends text exact ((sets.map one).foldl .seq p) x) :
    ∃ y ∈ ends text exact p x, z.groups = y.groups := by
  induction sets generalizing p with
  | nil => exact ⟨z, hz, rfl⟩
  | cons set sets ih =>
    obtain ⟨y, hy, hgroups⟩ := ih hz
    obtain ⟨w, hw, hy⟩ := exists_of_mem_ends_seq hy
    obtain ⟨_, _, _, rfl⟩ := of_mem_ends_one hy
    exact ⟨w, hw, hgroups⟩

/-- **The first group of the pattern ends with a slash, and the name of the platform begins behind
    it.** -/
theorem of_mem_ends_installPattern (hz : z ∈ ends text exact (installPattern (c :: cs)) { pos := 0 }) :
    ∃ k d, text[k]? = some '/' ∧ text[k + 1]? = some d ∧ (plainSet c).holds d = true ∧
      z.groups.lookup 1 = some (0, k + 1) := by
  obtain ⟨y, hy, hz⟩ := exists_of_mem_ends_seq hz
  have hyle : y.pos ≤ text.size := pos_le_of_mem_ends (Nat.zero_le _) hy
  obtain ⟨_, hgroups⟩ := groups_of_mem_ends rfl hyle hz
  have hsets : ((c :: cs).map fun c => one (plainSet c)).foldl .seq (group 1 dirPart) =
      ((cs.map plainSet).map one).foldl .seq (seq (group 1 dirPart) (one (plainSet c))) := by
    rw [List.map_map]
    rfl
  rw [hsets] at hy
  obtain ⟨w, hw, hgroups'⟩ := exists_of_mem_ends_chars hy
  obtain ⟨v, hv, hw⟩ := exists_of_mem_ends_seq hw
  obtain ⟨d, hget, hholds, rfl⟩ := of_mem_ends_one hw
  -- The directory is what the group notes, and its last character is a slash.
  rw [ends] at hv
  obtain ⟨u, hu, rfl⟩ := List.mem_map.mp hv
  obtain ⟨t, _, hu⟩ := exists_of_mem_ends_seq hu
  obtain ⟨slash, hslash, his, rfl⟩ := of_mem_ends_one hu
  obtain rfl : slash = '/' := (holds_single_iff (d := '/')).mp his
  refine ⟨t.pos, d, hslash, hget, hholds, ?_⟩
  rw [hgroups, hgroups', List.lookup_cons_self]

end BuildMeta.Text.Pattern

namespace BuildMeta

namespace Uplid

variable {uplid : Uplid}

/-- The machine is described in characters of words and dots. -/
def IsPlain (uplid : Uplid) : Prop :=
  ∀ part ∈ uplid.parts.take 4, ∀ c ∈ part.toList, Text.isWord c = true ∨ c = '.'

theorem IsPlain.of_mem_machine (hplain : uplid.IsPlain) {c : Char} (hc : c ∈ uplid.machine.toList) :
    Text.Pattern.IsPlain c := by
  rcases Text.mem_join hc with hsep | ⟨part, hpart, hc⟩
  · exact Or.inr (Or.inr (List.mem_singleton.mp hsep))
  · rcases hplain part hpart c hc with hword | hdot
    · exact Or.inl hword
    · exact Or.inr (Or.inl hdot)

theorem IsPlain.slash_not_mem (hplain : uplid.IsPlain) : '/' ∉ uplid.machine.toList := by
  intro hmem
  rcases hplain.of_mem_machine hmem with h | h | h
  · exact absurd h (by decide)
  · cases h
  · cases h

end Uplid

open Text.Pattern in
/-- **The directory before the name of a machine is found**, whatever the directory is and whatever
    else follows. -/
theorem Host.installDir?_of_machine {uplid : Uplid} (hplain : uplid.IsPlain)
    {front back : List Char} (hfront : '\n' ∉ front) (hback : '/' ∉ back) :
    installDir? (String.ofList (front ++ '/' :: (uplid.machine.toList ++ back))) uplid =
      .ok (some (String.ofList (front ++ ['/']))) := by
  rw [installDir?, read_installPattern fun _ hc => hplain.of_mem_machine hc, Failure.ok_bind,
    matchFront?_installPattern hfront hplain.slash_not_mem hback]
  rfl

open Text.Pattern in
/-- **A directory that is found ends with a slash and stands before the name of the machine.** -/
theorem Host.of_installDir? {uplid : Uplid} (hplain : uplid.IsPlain) {path dir : String}
    (hfound : installDir? path uplid = .ok (some dir)) {c : Char} {cs : List Char}
    (hmachine : uplid.machine.toList = c :: cs) (hdot : c ≠ '.') :
    ∃ front back, dir.toList = front ++ ['/'] ∧ path.toList = front ++ '/' :: c :: back := by
  rw [installDir?, read_installPattern fun _ hc => hplain.of_mem_machine hc, Failure.ok_bind,
    hmachine] at hfound
  obtain ⟨m, hm, hgroup⟩ := Option.bind_eq_some_iff.mp (Except.ok.inj hfound)
  obtain ⟨z, hz, rfl⟩ := exists_of_matchFront? hm
  obtain ⟨k, d, hslash, hnext, hholds, hlookup⟩ := of_mem_ends_installPattern hz
  obtain rfl : d = c := by
    rw [plainSet, if_neg hdot] at hholds
    exact holds_single_iff.mp hholds
  have hsplit : path.toList = path.toList.take k ++ '/' :: d :: path.toList.drop (k + 2) := by
    rw [List.getElem?_toArray] at hslash hnext
    obtain ⟨hk, hslash⟩ := List.getElem?_eq_some_iff.mp hslash
    obtain ⟨hk', hnext⟩ := List.getElem?_eq_some_iff.mp hnext
    rw [← hslash, ← hnext, List.getElem_cons_drop, List.getElem_cons_drop, List.take_append_drop]
  refine ⟨path.toList.take k, path.toList.drop (k + 2), ?_, hsplit⟩
  have hdir : String.ofList (path.toList.take (k + 1)) = dir := by
    rw [Found.group?, hlookup] at hgroup
    simpa using hgroup
  rw [← hdir, String.toList_ofList, List.take_add_one, ← List.getElem?_toArray, hslash]
  rfl

end BuildMeta
