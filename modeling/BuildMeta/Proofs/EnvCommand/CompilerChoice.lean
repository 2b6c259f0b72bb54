import BuildMeta.Proofs.EnvCommand.KeptPrefix
import BuildMeta.Proofs.Outcome

/-!
# `Proofs.EnvCommand.CompilerChoice` — which compiler a text selects

A compiler is asked for by its position in the list of compilers, or by its key (`Listed`).  Any
other text should be refused.  Positions are compared with the end of the list only, so a negative
one is not refused: it counts from the end of the list (`chosen_of_negative`), and if it leads past
the front, nothing is prepared for the failure.

`Asks.selects`, `Asks.refuses` and `Asks.fails` say what becomes of the choice in a whole run, and
`takesListed_iff` which texts are taken as they should be.
-/

namespace BuildMeta

theorem Logged.bind_congr_of_ok {α β : Type} {x : Logged α} {f g : α → Logged β} {a : α}
    (h : x.outcome = .ok a) (hfg : f a = g a) : x >>= f = x >>= g := by
  refine Logged.ext ?_ ?_
  · rw [notices_bind_of_ok h, notices_bind_of_ok h, hfg]
  · rw [outcome_bind, outcome_bind, h, Failure.ok_bind, Failure.ok_bind, hfg]

namespace EnvCommand

open CommandLine

variable {h : Host} {environment : Table String} {tree : FileTree} {words : List String} {line : Parsed}
  {options : Table Datum} {all : List CompilerInfo} {text : String} {c : CompilerInfo}

/-! ## Choosing -/

/-- A compiler is a listed choice for a text: the text writes its position, or is its key and writes
    no number. -/
inductive Listed (all : List CompilerInfo) (text : String) (c : CompilerInfo) : Prop
  | position {i : Nat} (hnumber : Text.integer? text = some (i : Int)) (hat : all[i]? = some c)
  | key (hnumber : Text.integer? text = none) (hmem : c ∈ all) (hkey : c.key = .ok text)

theorem chosen_of_position {i : Nat} (hnumber : Text.integer? text = some (i : Int)) :
    chosen all (some text) = .ok all[i]? := by
  unfold chosen
  simp only [hnumber]
  rfl

/-- A negative position counts from the end, and may lead past the front. -/
theorem chosen_of_negative {n : Nat} (hnumber : Text.integer? text = some (-((n : Int) + 1))) :
    chosen all (some text) = if n
      < all.length then .ok all[all.length - 1 - n]? else .error .outOfRange := by
  have hneg : -((n : Int) + 1) = Int.negSucc n := by omega
  unfold chosen
  simp only [hnumber, hneg]
  rfl

/-- A key selects a compiler that has it, if there is one. -/
theorem chosen_of_key (hnumber : Text.integer? text = none)
    (hnamed : ∀ c ∈ all, ∃ key, c.key = .ok key) :
    (∃ c ∈ all, c.key = .ok text ∧ chosen all (some text) = .ok (some c)) ∨
      (∀ c ∈ all, c.key ≠ .ok text) ∧ chosen all (some text) = .ok none := by
  obtain ⟨keys, hkeys⟩ := Failure.exists_mapM hnamed
  have hchosen : chosen all (some text)
      = .ok (((all.zip keys).reverse.find? (·.2 == text)).map Prod.fst) := by
    unfold chosen
    simp only [hnumber, hkeys, Failure.ok_bind]
    rfl
  have hzip := List.forall₂_iff_zip.mp (Failure.mapM_eq_ok_iff.mp hkeys)
  cases hfind : (all.zip keys).reverse.find? (·.2 == text) with
  | some entry =>
    left
    have hmem : (entry.1, entry.2) ∈ all.zip keys :=
      List.mem_reverse.mp (List.mem_of_find?_eq_some hfind)
    have hkey : entry.2 = text := by simpa using List.find?_some hfind
    refine ⟨entry.1, (List.of_mem_zip hmem).1, ?_, ?_⟩
    · rw [hzip.2 hmem, hkey]
    · rw [hchosen, hfind, Option.map_some]
  | none =>
    right
    refine ⟨fun c hc hkey => ?_, by rw [hchosen, hfind, Option.map_none]⟩
    -- The compiler would stand beside its key.
    obtain ⟨i, hi, hat⟩ := List.mem_iff_getElem.mp hc
    have hlt : i < keys.length := hzip.1 ▸ hi
    have hmem : (c, keys[i]) ∈ all.zip keys := by
      rw [← hat]
      exact List.mem_iff_getElem.mpr ⟨i, List.length_zip ▸ lt_min hi hlt, List.getElem_zip⟩
    have hsame : keys[i] = text := Except.ok.inj ((hzip.2 hmem).symm.trans hkey)
    have hnone := List.find?_eq_none.mp hfind _ (List.mem_reverse.mpr hmem)
    simp [hsame] at hnone

/-- **A text that writes no negative number selects a listed choice, and nothing if there is none.** -/
theorem chosen_of_nonneg (hnamed : ∀ c ∈ all, ∃ key, c.key = .ok key)
    (hnonneg : ∀ i, Text.integer? text = some i → 0 ≤ i) :
    (∃ c, Listed all text c ∧ chosen all (some text) = .ok (some c)) ∨
      (∀ c, ¬ Listed all text c) ∧ chosen all (some text) = .ok none := by
  cases hnumber : Text.integer? text with
  | none =>
    rcases chosen_of_key hnumber hnamed with ⟨c, hc, hkey, hchosen⟩ | ⟨hnone, hchosen⟩
    · exact Or.inl ⟨c, .key hnumber hc hkey, hchosen⟩
    · refine Or.inr ⟨fun c hlisted => ?_, hchosen⟩
      cases hlisted with
      | position hposition _ => cases hnumber.symm.trans hposition
      | key _ hc hkey => exact hnone c hc hkey
  | some position =>
    obtain ⟨i, rfl⟩ := Int.eq_ofNat_of_zero_le (hnonneg position hnumber)
    have hchosen : chosen all (some text) = .ok all[i]? := chosen_of_position hnumber
    cases hat : all[i]? with
    | some c => exact Or.inl ⟨c, .position hnumber hat, hat ▸ hchosen⟩
    | none =>
      refine Or.inr ⟨fun c hlisted => ?_, hat ▸ hchosen⟩
      cases hlisted with
      | @position j hposition hfound =>
        obtain rfl : i = j := by
          have hij := Option.some.inj (hnumber.symm.trans hposition)
          omega
        cases hat.symm.trans hfound
      | key hkey _ _ => cases hnumber.symm.trans hkey

/-! ## What becomes of a choice -/

/-- A run prints the settings for a compiler. -/
def Selects (h : Host) (environment : Table String) (tree : FileTree) (words : List String)
    (options : Table Datum) (c : CompilerInfo) : Prop :=
  run h environment tree words
    = concluded (compilers h environment tree >>= fun _ => settingsFor h environment options c)

/-- A run calls a text invalid, lists the compilers and ends with status one. -/
def Refuses (h : Host) (environment : Table String) (tree : FileTree) (words : List String)
    (all : List CompilerInfo) (text : String) : Prop :=
  run h environment tree words = ⟨(compilers h environment tree).notices ++
    .warn ("Invalid compiler: " ++ text) :: (listCompilers all).notices, .ok 1⟩

/-- A run takes a text as it should: it selects a listed choice, and refuses the text if there is
    none. -/
def TakesListed (h : Host) (environment : Table String) (tree : FileTree) (words : List String)
    (options : Table Datum) (all : List CompilerInfo) (text : String) : Prop :=
  (∃ c, Listed all text c ∧ Selects h environment tree words options c) ∨
    (∀ c, ¬ Listed all text c) ∧ Refuses h environment tree words all text

/-- The command sets the environment for one of some compilers, which a text asks for. -/
structure Asks (h : Host) (environment : Table String) (tree : FileTree) (words : List String)
    (line : Parsed) (all : List CompilerInfo) (text : String) : Prop where
  family : h.family ∈ families
  shell : h.family = "win32" → h.isMingw = true
  parsed : (program h).parse words = pure line
  command : line.words = [] ∨ line.words = ["set"]
  found : (compilers h environment tree).outcome = .ok all
  ne_nil : all ≠ []
  /-- Kinds and versions are texts. -/
  named : ∀ c ∈ all, ∃ key, c.key = .ok key
  asked : line.values.getD "compiler" .null = .str text

/-- A run that a text asks for a compiler comes down to looking for the compilers and exporting the
    chosen one. -/
theorem Asks.run_eq (hasks : Asks h environment tree words line all text) :
    run h environment tree words
      = concluded
        (compilers h environment tree >>= fun _ => exportChosen h environment line.values all) := by
  have hperform : perform h environment tree line
      = compilers h environment tree >>= fun _ => exportChosen h environment line.values all := by
    have hset : perform h environment tree line = compilers h environment tree >>= fun all =>
        if all.isEmpty then .die "No valid compilers on this machine."
        else exportChosen h environment line.values all := by
      unfold perform
      rcases hasks.command with hwords | hwords
      · rw [hwords]
        rfl
      · rw [hwords]
        rfl
    rw [hset]
    refine Logged.bind_congr_of_ok hasks.found ?_
    rw [if_neg (by simpa using hasks.ne_nil)]
  have hstart : start h environment tree words = perform h environment tree line := by
    unfold start
    rw [if_neg (by simpa using hasks.family), if_neg (by simpa using hasks.shell), hasks.parsed]
    rfl
  rw [← hperform, ← hstart]
  rfl

theorem exportChosen_of_some (hasked : options.getD "compiler" .null = .str text)
    (hchosen : chosen all (some text) = .ok (some c)) :
    exportChosen h environment options all = settingsFor h environment options c := by
  unfold exportChosen
  simp only [hasked]
  show (liftM (chosen all (some text)) >>= _ : Logged Nat) = _
  rw [hchosen]
  rfl

/-- The compilers can be listed if they have descriptions. -/
theorem outcome_listCompilers (hnamed : ∀ c ∈ all, ∃ key, c.key = .ok key) :
    (listCompilers all).outcome = .ok () := by
  have hforM : ∀ {α : Type} (f : α → Logged Unit) (xs : List α), (∀ a ∈ xs, (f a).outcome = .ok ()) →
      (xs.forM f).outcome = .ok () := by
    intro α f xs hall
    induction xs with
    | nil => rfl
    | cons a rest ih =>
      show (f a >>= fun _ => rest.forM f).outcome = _
      rw [Logged.outcome_bind, hall a List.mem_cons_self, Failure.ok_bind]
      exact ih fun b hb => hall b (List.mem_cons_of_mem _ hb)
  unfold listCompilers
  rw [Logged.outcome_bind, Logged.outcome_tell, Failure.ok_bind]
  refine hforM _ _ fun entry hentry => ?_
  obtain ⟨key, hkey⟩ := hnamed entry.1 (List.fst_mem_of_mem_zipIdx hentry)
  have hdescribed : ∃ d, entry.1.description = .ok d := by
    unfold CompilerInfo.description
    split
    · exact ⟨_, rfl⟩
    · exact ⟨key, hkey⟩
  obtain ⟨d, hd⟩ := hdescribed
  show (liftM entry.1.description >>= _ : Logged Unit).outcome = _
  rw [hd]
  rfl

/-- If the text chooses no compiler, the run says so, lists them all and has status one. -/
theorem exportChosen_of_none (hasked : options.getD "compiler" .null = .str text)
    (hnamed : ∀ c ∈ all, ∃ key, c.key = .ok key) (hchosen : chosen all (some text) = .ok none) :
    exportChosen h environment options all
      = ⟨.warn ("Invalid compiler: " ++ text) :: (listCompilers all).notices, .ok 1⟩ := by
  have hsteps : exportChosen h environment options all
      = (Logged.tell (.warn ("Invalid compiler: " ++ text)) >>= fun _ =>
        listCompilers all >>= fun _ => pure 1) := by
    unfold exportChosen
    simp only [hasked]
    show (liftM (chosen all (some text)) >>= _ : Logged Nat) = _
    rw [hchosen]
    rfl
  have hlist := outcome_listCompilers hnamed
  rw [hsteps]
  refine Logged.ext ?_ ?_
  · rw [Logged.notices_bind_of_ok rfl, Logged.notices_bind_of_ok hlist]
    simp [Logged.tell]
    rfl
  · rw [Logged.outcome_bind, Logged.outcome_tell, Failure.ok_bind, Logged.outcome_bind, hlist]
    rfl

theorem outcome_exportChosen_of_error {e : Failure} (hasked : options.getD "compiler" .null = .str text)
    (hchosen : chosen all (some text) = .error e) :
    (exportChosen h environment options all).outcome = .error e := by
  unfold exportChosen
  simp only [hasked]
  show (liftM (chosen all (some text)) >>= _ : Logged Nat).outcome = _
  rw [hchosen]
  rfl

section Run

variable (hasks : Asks h environment tree words line all text)
include hasks

theorem Asks.selects (hchosen : chosen all (some text) = .ok (some c)) :
    Selects h environment tree words line.values c := by
  unfold Selects
  rw [hasks.run_eq, exportChosen_of_some hasks.asked hchosen]

/-- So the run as a whole refuses the text. -/
theorem Asks.refuses (hchosen : chosen all (some text) = .ok none) :
    Refuses h environment tree words all text := by
  unfold Refuses
  rw [hasks.run_eq, exportChosen_of_none hasks.asked hasks.named hchosen]
  have hjoined : (compilers h environment tree >>= fun _ => (⟨.warn ("Invalid compiler: " ++ text) ::
      (listCompilers all).notices, .ok 1⟩ : Logged Nat)) = ⟨(compilers h environment tree).notices ++
        .warn ("Invalid compiler: " ++ text) :: (listCompilers all).notices, .ok 1⟩ := by
    refine Logged.ext ?_ ?_
    · rw [Logged.notices_bind_of_ok hasks.found]
    · rw [Logged.outcome_bind, hasks.found]
      rfl
  rw [hjoined]
  rfl

/-- A failure that nothing is prepared for ends the run. -/
theorem Asks.fails {e : Failure} (hchosen : chosen all (some text) = .error e)
    (he : e.isReported = false) :
    (run h environment tree words).outcome = .error e := by
  have houtcome :
      (compilers h environment tree >>= fun _ => exportChosen h environment line.values all).outcome
      = .error e := by
    rw [Logged.outcome_bind, hasks.found, Failure.ok_bind,
      outcome_exportChosen_of_error hasks.asked hchosen]
  rw [hasks.run_eq]
  unfold concluded
  rw [houtcome]
  simp only [he]
  exact houtcome

end Run

/-! ## A selection is no refusal -/

/-- A step fails without a word, or first names the compiler that is used. -/
def Opens {α : Type} (x : Logged α) : Prop :=
  (∃ e, x = ⟨[], .error e⟩) ∨ ∃ described rest,
    x.notices = .warn ("Using compiler: " ++ described) :: rest

/-- What follows a step that opens changes nothing about its first words. -/
theorem Opens.bind {α β : Type} {x : Logged α} (hx : Opens x) (f : α → Logged β) : Opens (x >>= f) := by
  rcases hx with ⟨e, rfl⟩ | ⟨described, rest, hnotices⟩
  · exact Or.inl ⟨e, rfl⟩
  · right
    cases houtcome : x.outcome with
    | error e =>
      rw [Logged.bind_of_error houtcome]
      exact ⟨described, rest, hnotices⟩
    | ok a =>
      rw [Logged.notices_bind_of_ok houtcome, hnotices]
      exact ⟨described, _, rfl⟩

theorem opens_liftM_bind {α β : Type} (r : Except Failure α) {f : α → Logged β} (hf : ∀ a, Opens (f a)) :
    Opens (liftM r >>= f) := by
  cases r with
  | error e => exact Or.inl ⟨e, rfl⟩
  | ok a => exact hf a

/-- Settings begin with the compiler that they are for, or fail at once. -/
theorem opens_settingsFor (h : Host) (environment : Table String) (options : Table Datum)
    (c : CompilerInfo) :
    Opens (settingsFor h environment options c) := by
  have hexport : ∀ options, Opens (exportAll h environment options c) := by
    intro options
    unfold exportAll
    refine opens_liftM_bind _ fun ufid => opens_liftM_bind _ fun bare =>
      opens_liftM_bind _ fun described => ?_
    refine Opens.bind ?_ _
    exact Or.inr ⟨described, [], rfl⟩
  unfold settingsFor
  exact opens_liftM_bind _ fun standard => (hexport _).bind _

/-- A failure is told in one line. -/
theorem exists_notices_concluded (x : Logged Nat) :
    ∃ more, (concluded x).notices = x.notices ++ more ∧ more.length ≤ 1 := by
  unfold concluded
  split
  · split
    · exact ⟨_, rfl, le_refl 1⟩
    · exact ⟨[], (List.append_nil _).symm, Nat.zero_le 1⟩
  · exact ⟨[], (List.append_nil _).symm, Nat.zero_le 1⟩

/-- **A selection cannot be taken for a refusal**, since the two differ in the first words after the
    search for compilers. -/
theorem not_refuses_of_selects (hfound : (compilers h environment tree).outcome = .ok all)
    (hselects : Selects h environment tree words options c) :
    ¬ Refuses h environment tree words all text := by
  intro hrefuses
  obtain ⟨more, hmore, hone⟩ :=
    exists_notices_concluded
      (compilers h environment tree >>= fun _ => settingsFor h environment options c)
  have hlines : (settingsFor h environment options c).notices ++ more
      = .warn ("Invalid compiler: " ++ text) :: (listCompilers all).notices := by
    have hsettings :
        (compilers h environment tree >>= fun _ => settingsFor h environment options c).notices
        = (compilers h environment tree).notices ++ (settingsFor h environment options c).notices :=
      Logged.notices_bind_of_ok hfound
    rw [hsettings, List.append_assoc, ← hselects, hrefuses] at hmore
    exact (List.append_cancel_left hmore).symm
  rcases opens_settingsFor h environment options c with ⟨e, hsettings⟩ | ⟨described, rest, hsettings⟩
  · -- A refusal takes more than one line.
    rw [hsettings, List.nil_append] at hlines
    obtain ⟨rest, hopening⟩ :
        ∃ rest, (listCompilers all).notices = .warn "Avaliable compilers:" :: rest :=
      ⟨_, Logged.notices_bind_of_ok (Logged.outcome_tell _)⟩
    rw [hlines, hopening, List.length_cons, List.length_cons] at hone
    omega
  · rw [hsettings] at hlines
    have htext := Notice.warn.inj (List.cons.inj hlines).1
    have hchars := congrArg String.toList htext
    rw [String.toList_append, String.toList_append] at hchars
    cases hchars

/-! ## Which texts are taken as they should be -/

/-- **A text is taken as it should be exactly if it writes no negative number.**  A negative number
    that is not less than minus the number of compilers selects a compiler all the same, counted
    from the end, and any other one ends the run with a failure that nothing is prepared for. -/
theorem takesListed_iff (hasks : Asks h environment tree words line all text) :
    (TakesListed h environment tree words line.values all text ↔ ∀ i, Text.integer? text = some i →
      0 ≤ i) ∧
    ∀ n : Nat, Text.integer? text = some (-((n : Int) + 1)) →
      (n < all.length → ∃ c, all[all.length - 1 - n]? = some c ∧
        Selects h environment tree words line.values c) ∧
      (all.length ≤ n → (run h environment tree words).outcome = .error .outOfRange) := by
  have hnegative : ∀ n : Nat, Text.integer? text = some (-((n : Int) + 1)) →
      (n < all.length → ∃ c, all[all.length - 1 - n]? = some c ∧
        Selects h environment tree words line.values c) ∧
      (all.length ≤ n → (run h environment tree words).outcome = .error .outOfRange) := by
    intro n hnumber
    have hchosen : chosen all (some text) = _ := chosen_of_negative hnumber
    constructor
    · intro hn
      have hat : all[all.length - 1 - n]? = some all[all.length - 1 - n] :=
        List.getElem?_eq_getElem (by omega)
      rw [if_pos hn, hat] at hchosen
      exact ⟨_, hat, hasks.selects hchosen⟩
    · intro hn
      rw [if_neg (not_lt.mpr hn)] at hchosen
      exact hasks.fails hchosen rfl
  refine ⟨⟨?_, ?_⟩, hnegative⟩
  · intro htakes i hnumber
    by_contra hi
    obtain ⟨n, rfl⟩ : ∃ n : Nat, i = -((n : Int) + 1) := ⟨(-i - 1).toNat, by omega⟩
    rcases htakes with ⟨c, hlisted, _⟩ | ⟨_, hrefuses⟩
    · cases hlisted with
      | position hposition _ =>
        have hsame := Option.some.inj (hnumber.symm.trans hposition)
        omega
      | key hkey _ _ => cases hnumber.symm.trans hkey
    · -- The text is not refused: a compiler is selected, or the run fails.
      rcases lt_or_ge n all.length with hn | hn
      · obtain ⟨c, _, hselects⟩ := (hnegative n hnumber).1 hn
        exact not_refuses_of_selects hasks.found hselects hrefuses
      · have hfails := (hnegative n hnumber).2 hn
        rw [hrefuses] at hfails
        cases hfails
  · intro hnonneg
    rcases chosen_of_nonneg hasks.named hnonneg with ⟨c, hlisted, hchosen⟩ | ⟨hnone, hchosen⟩
    · exact Or.inl ⟨c, hlisted, hasks.selects hchosen⟩
    · exact Or.inr ⟨hnone, hasks.refuses hchosen⟩

/-- The second compiler of Windows is selected by its position. -/
theorem takesListed_second : ∃ c, CompilerInfo.windowsCompilers[1]? = some c ∧
    Selects mingw ∅ ⟨∅, []⟩ ["-c", "1"] ((program mingw).startValues.set "compiler" (.str "1")) c := by
  let line : Parsed := { values := (program mingw).startValues.set "compiler" (.str "1"), words := [] }
  have hasks : Asks mingw ∅ ⟨∅, []⟩ ["-c", "1"] line CompilerInfo.windowsCompilers "1" :=
    { family := by decide, shell := by decide, parsed := rfl, command := Or.inl rfl, found := rfl
      ne_nil := by simp [CompilerInfo.windowsCompilers, CompilerInfo.windowsVersions]
      named := by simp [CompilerInfo.windowsCompilers, CompilerInfo.windowsVersions, CompilerInfo.key]
      asked := rfl }
  have hnumber : Text.integer? "1" = some ((1 : Nat) : Int) := by decide
  have hnonneg : ∀ i, Text.integer? "1" = some i → 0 ≤ i := by
    intro i hi
    have hsame := Option.some.inj (hnumber.symm.trans hi)
    omega
  rcases (takesListed_iff hasks).1.mpr hnonneg with ⟨c, hlisted, hselects⟩ | ⟨hnone, _⟩
  · cases hlisted with
    | position hposition hat =>
      have hsame := Option.some.inj (hnumber.symm.trans hposition)
      obtain rfl := Int.ofNat.inj hsame
      exact ⟨c, hat, hselects⟩
    | key hkey _ _ => cases hnumber.symm.trans hkey
  · exact absurd (.position hnumber rfl) (hnone _)

/-- Minus one selects the last of the five compilers of Windows, and minus six ends the run with a
    failure. -/
theorem takesListed_negative :
    Prints (run mingw ∅ ⟨∅, []⟩ ["--compiler=-1", "-t", "dbg"])
      "export BDE_WAF_UPLID=windows-windows_nt-x86_64-6.1-cl-15.00" ∧
    (run mingw ∅ ⟨∅, []⟩ ["--compiler=-6", "-t", "dbg"]).outcome = .error .outOfRange := by
  decide +kernel

end EnvCommand

end BuildMeta
