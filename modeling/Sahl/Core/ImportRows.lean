import Mathlib.Tactic
import Sahl.Core.Import

/-! # Which line of a file a problem points at

    A file that is read tells of each of its lines, in their order, a product or a problem. Lines
    are numbered after the blank ones are left out, so a problem points at its line exactly where
    no blank line stands above it (`fromDelimited_pointsAt_iff`). -/

namespace Sahl

/-! ## Section 1: Outcomes -/

/-- A line of a file, under the number it goes by. -/
abbrev NumberedLine := String × Nat

section Reading

variable (header : List String) (currency : Currency) (defaultVat : I32) (delimiter : Char)

/-- What a line reads as. -/
def readLine (line : NumberedLine) : Except ImportProblem ImportedProduct :=
  readRow header currency defaultVat line.2 (Text.cells line.1 delimiter)

/-- The price cell of a line, with nothing in it where there is none. -/
def priceCell (line : String) : String :=
  (cellAt (Text.cells line delimiter) (columnAt header .price)).getD ""

/-- A line with a name, and a unit and a treatment the till knows where it has them. -/
def Legible (line : String) : Prop :=
  let cell column := cellAt (Text.cells line delimiter) (columnAt header column)
  (cell .name).isSome ∧ (∀ raw ∈ cell .unit, (parseUnit raw).isSome) ∧
    ∀ raw ∈ cell .vat, (parseVat raw).isSome

/-- A legible line with a price. -/
def Readable (line : String) : Prop :=
  Legible header delimiter line ∧ (parseMoney (priceCell header delimiter line) currency).isOkay

end Reading

/-- The problem a line turned out to have. -/
def problem? : Except ImportProblem ImportedProduct → Option ImportProblem
  | .ok _ => none
  | .error problem => some problem

theorem problem?_eq_some {outcome : Except ImportProblem ImportedProduct}
    {problem : ImportProblem} : problem? outcome = some problem ↔ outcome = .error problem := by
  cases outcome <;> simp [problem?]

/-- The products and the problems of some lines, each in the order of the lines. -/
structure Import.Tells (contents : Import)
    (outcomes : List (Except ImportProblem ImportedProduct)) : Prop where
  products : contents.products = outcomes.filterMap Except.toOption
  problems : contents.problems = outcomes.filterMap problem?

section Row

variable {header : List String} {currency : Currency} {defaultVat : I32} {delimiter : Char}
  {line line' : Nat} {cells : List String} {raw : String}

theorem readUnit_renumber (entry : Option String) : readUnit line' entry =
    (readUnit line entry).mapError fun problem => { problem with line := line' } := by
  cases entry with
  | none => rfl
  | some raw =>
    simp only [readUnit]
    cases parseUnit raw <;> rfl

theorem readVat_renumber (entry : Option String) : readVat defaultVat line' entry =
    (readVat defaultVat line entry).mapError fun problem => { problem with line := line' } := by
  cases entry with
  | none => rfl
  | some raw =>
    simp only [readVat]
    cases parseVat raw <;> rfl

/-- A row reads the same under another number, and its problem goes by that. -/
theorem readRow_renumber (line line' : Nat) : readRow header currency defaultVat line' cells =
    (readRow header currency defaultVat line cells).mapError fun problem =>
      { problem with line := line' } := by
  unfold readRow
  simp only
  cases cellAt cells (columnAt header .name) with
  | none => rfl
  | some name =>
    cases parseMoney ((cellAt cells (columnAt header .price)).getD "") currency with
    | error because => rfl
    | ok price =>
      simp only [Except.okOr, Except.mapError, bind, Except.bind]
      rw [@readUnit_renumber line, @readVat_renumber _ line]
      cases readUnit line (cellAt cells (columnAt header .unit)) with
      | error problem => rfl
      | ok unit =>
        cases readVat defaultVat line (cellAt cells (columnAt header .vat)) <;> rfl

/-- A problem of a row goes by the number of the row. -/
theorem readRow_line {problem : ImportProblem}
    (h : readRow header currency defaultVat line cells = .error problem) : problem.line = line := by
  have hsame := @readRow_renumber header currency defaultVat cells line line
  rw [h] at hsame
  rw [Except.error.inj hsame]

theorem readUnit_isOkay {entry : Option String} :
    (readUnit line entry).isOkay ↔ ∀ raw ∈ entry, (parseUnit raw).isSome := by
  cases entry with
  | none => simp [readUnit, Except.isOkay]
  | some raw => cases hparse : parseUnit raw <;> simp [readUnit, hparse, Except.okOr, Except.isOkay]

theorem readVat_isOkay {entry : Option String} :
    (readVat defaultVat line entry).isOkay ↔ ∀ raw ∈ entry, (parseVat raw).isSome := by
  cases entry with
  | none => simp [readVat, Except.isOkay]
  | some raw => cases hparse : parseVat raw <;> simp [readVat, hparse, Except.okOr, Except.isOkay]

/-- A legible line reads as a product at the price of its price cell. -/
theorem readLine_price {numbered : NumberedLine} {price : Money} :
    (∃ product, readLine header currency defaultVat delimiter numbered = .ok product ∧
        product.price = price) ↔
      Legible header delimiter numbered.1 ∧
        parseMoney (priceCell header delimiter numbered.1) currency = .ok price := by
  simp only [Legible]
  rw [← @readUnit_isOkay numbered.2, ← @readVat_isOkay defaultVat numbered.2]
  simp only [readLine, readRow, Except.bind_eq_ok, Except.okOr_eq_ok, Except.mapError_eq_ok,
    Option.isSome_iff_exists, Except.isOkay_iff, priceCell]
  constructor
  · rintro ⟨product, ⟨name, hname, price, hprice, unit, hunit, taxClass, hvat, h⟩, rfl⟩
    cases h
    exact ⟨⟨⟨name, hname⟩, ⟨unit, hunit⟩, taxClass, hvat⟩, hprice⟩
  · rintro ⟨⟨⟨name, hname⟩, ⟨unit, hunit⟩, taxClass, hvat⟩, hprice⟩
    exact ⟨_, ⟨name, hname, price, hprice, unit, hunit, taxClass, hvat, rfl⟩, rfl⟩

theorem readLine_isOkay {numbered : NumberedLine} :
    (readLine header currency defaultVat delimiter numbered).isOkay ↔
      Readable header currency delimiter numbered.1 := by
  rw [Readable, Except.isOkay_iff, Except.isOkay_iff]
  constructor
  · intro h
    obtain ⟨product, hproduct⟩ := h
    obtain ⟨hlegible, hprice⟩ := readLine_price.mp ⟨product, hproduct, rfl⟩
    exact ⟨hlegible, _, hprice⟩
  · intro h
    obtain ⟨hlegible, price, hprice⟩ := h
    obtain ⟨product, hproduct, -⟩ := readLine_price.mpr ⟨hlegible, hprice⟩
    exact ⟨product, hproduct⟩

/-- Two numbers of a line agree about it exactly where it can be read or they are one. -/
theorem problem?_renumber {a b : Nat} :
    problem? (readLine header currency defaultVat delimiter (raw, a)) =
        problem? (readLine header currency defaultVat delimiter (raw, b)) ↔
      (¬ Readable header currency delimiter raw → a = b) := by
  rw [← @readLine_isOkay header currency defaultVat delimiter (raw, b)]
  simp only [readLine, readRow_renumber b a]
  cases hread : readRow header currency defaultVat b (Text.cells raw delimiter) with
  | ok product => simp [problem?, Except.mapError, Except.isOkay]
  | error problem =>
    have hline : problem.line = b := readRow_line hread
    constructor
    · intro h _
      have hproblem : { problem with line := a } = problem := Option.some.inj h
      rw [← hline, ← hproblem]
    · intro h
      have hsame : a = b := h (by simp [Except.isOkay])
      rw [hsame, ← hline]
      rfl

/-- A line reads as the same product under another number. -/
theorem toOption_renumber (a b : Nat) :
    (readLine header currency defaultVat delimiter (raw, a)).toOption =
      (readLine header currency defaultVat delimiter (raw, b)).toOption := by
  simp only [readLine, readRow_renumber b a]
  cases readRow header currency defaultVat b (Text.cells raw delimiter) <;> rfl

/-- A line has a problem under every number or under none. -/
theorem problem?_isSome (a b : Nat) :
    (problem? (readLine header currency defaultVat delimiter (raw, a))).isSome =
      (problem? (readLine header currency defaultVat delimiter (raw, b))).isSome := by
  simp only [readLine, readRow_renumber b a]
  cases readRow header currency defaultVat b (Text.cells raw delimiter) <;> rfl

/-! ## Section 2: What a file tells -/

theorem readRows_tells (rows : List (String × Nat)) :
    (readRows header currency defaultVat delimiter rows).Tells
      (rows.map fun row => readLine header currency defaultVat delimiter (row.1, row.2 + 2)) := by
  induction rows with
  | nil => exact ⟨rfl, rfl⟩
  | cons row rest ih =>
    obtain ⟨raw, offset⟩ := row
    rw [readRows, List.map_cons]
    cases hread : readRow header currency defaultVat (offset + 2) (Text.cells raw delimiter) with
    | ok product =>
      refine ⟨?_, ?_⟩
      · rw [List.filterMap_cons, readLine, hread, ih.products]
        rfl
      · rw [List.filterMap_cons, readLine, hread, ih.problems]
        rfl
    | error problem =>
      refine ⟨?_, ?_⟩
      · rw [List.filterMap_cons, readLine, hread, ih.products]
        rfl
      · rw [List.filterMap_cons, readLine, hread, ih.problems]
        rfl

end Row

/-- The header of a file: its first line with something in it. -/
def headerOf (text : String) (delimiter : Char) : List String :=
  Text.cells ((filledLines text).headD "") delimiter

/-- The data lines of a file, numbered as the reader counts them: without the blank ones. -/
def countedLines (text : String) : List NumberedLine := ((filledLines text).zipIdx 1).tail

/-- The data lines of a file under their own numbers. -/
def dataLines (text : String) : List NumberedLine :=
  (((Text.lines text).zipIdx 1).filter (! Text.isBlank ·.1)).tail

/-- The lines of a file above the one of a number. -/
def linesAbove (text : String) (line : Nat) : List String := (Text.lines text).take (line - 1)

/-- A line under the number the reader counts for it: how many above it hold something, and one. -/
def countedLine (text : String) (numbered : NumberedLine) : NumberedLine :=
  (numbered.1, 1 + (linesAbove text numbered.2).countP (! Text.isBlank ·))

theorem countedLines_eq (text : String) : countedLines text =
    (dataLines text).map (countedLine text) := by
  unfold countedLines dataLines filledLines
  rw [zipIdx_filter _ (Text.lines text) 1 1, List.map_tail]
  rfl

/-- A line is counted under its own number exactly where none above it is blank. -/
theorem countedLine_eq_iff {text : String} {numbered : NumberedLine}
    (h : numbered ∈ dataLines text) : (countedLine text numbered).2 = numbered.2 ↔
      ∀ line ∈ linesAbove text numbered.2, Text.isBlank line = false := by
  have hmem := List.mem_of_mem_filter (List.mem_of_mem_tail h)
  have hfirst : 1 ≤ numbered.2 := List.le_snd_of_mem_zipIdx hmem
  have hlast : numbered.2 < (Text.lines text).length + 1 := List.snd_lt_of_mem_zipIdx hmem
  have hlength : (linesAbove text numbered.2).length = numbered.2 - 1 := by
    rw [linesAbove, List.length_take]
    omega
  have hall : (linesAbove text numbered.2).countP (! Text.isBlank ·) = numbered.2 - 1 ↔
      ∀ line ∈ linesAbove text numbered.2, Text.isBlank line = false := by
    rw [← hlength, List.countP_eq_length]
    simp only [Bool.not_eq_true']
  rw [← hall, countedLine]
  omega

/-- A number is counted for one line alone. -/
theorem countedLines_unique {text : String} {a b : NumberedLine} (ha : a ∈ countedLines text)
    (hb : b ∈ countedLines text) (h : a.2 = b.2) : a = b := by
  have hfound : ∀ row ∈ countedLines text, (filledLines text)[row.2 - 1]? = some row.1 := by
    intro row hrow
    exact (List.mk_mem_zipIdx_iff_le_and_getElem?_sub.mp (List.mem_of_mem_tail hrow)).2
  have hsame : some a.1 = some b.1 := by rw [← hfound a ha, ← hfound b hb, h]
  exact Prod.ext (Option.some.inj hsame) h

section File

variable {text : String} {currency : Currency} {defaultVat : I32} {delimiter : Char}
  {contents : Import}

/-- A file that is read tells of its data lines, numbered as they come. -/
theorem fromDelimited_tells (h : fromDelimited text delimiter currency defaultVat = .ok contents) :
    contents.Tells ((countedLines text).map
      (readLine (headerOf text delimiter) currency defaultVat delimiter)) := by
  unfold fromDelimited at h
  unfold countedLines headerOf
  cases hlines : filledLines text with
  | nil =>
    rw [hlines] at h
    cases h
  | cons headerLine rows =>
    rw [hlines] at h
    simp only at h
    split at h
    · cases h
    split at h
    · cases h
    cases h
    have htells := @readRows_tells (Text.cells headerLine delimiter) currency defaultVat delimiter
      rows.zipIdx
    -- the source counts from the header line, which is the first
    have hnumbers : (rows.zipIdx.map fun row : String × Nat => (row.1, row.2 + 2)) =
        ((headerLine :: rows).zipIdx 1).tail := by
      rw [List.zipIdx_cons, List.tail_cons, List.zipIdx_eq_map_add (i := 1 + 1)]
      exact List.map_congr_left fun row _ => by rw [Nat.add_comm]
    rw [← hnumbers, List.map_map]
    exact htells

/-! ## Section 3: The line a problem goes by -/

/-- Each data line is one product or one problem, in the order of the file, and a problem goes by
    the number its line has in the file. -/
def Import.PointsAt (contents : Import) (text : String) (delimiter : Char) (currency : Currency)
    (defaultVat : I32) : Prop :=
  ∃ outcomes, List.Forall₂ (fun (numbered : NumberedLine) outcome =>
      (∃ line, outcome = readRow (headerOf text delimiter) currency defaultVat line
        (Text.cells numbered.1 delimiter)) ∧
      ∀ problem, outcome = .error problem → problem.line = numbered.2)
    (dataLines text) outcomes ∧ contents.Tells outcomes

theorem pointsAt_iff_tells : contents.PointsAt text delimiter currency defaultVat ↔
    contents.Tells ((dataLines text).map
      (readLine (headerOf text delimiter) currency defaultVat delimiter)) := by
  constructor
  · intro h
    obtain ⟨outcomes, hlines, htells⟩ := h
    have houtcomes := forall₂_eq_map hlines fun numbered outcome h => by
      show outcome = readLine (headerOf text delimiter) currency defaultVat delimiter numbered
      obtain ⟨⟨line, hread⟩, hline⟩ := h
      rw [readLine, readRow_renumber line, ← hread]
      cases outcome with
      | ok product => rfl
      | error problem =>
        have hproblem : problem.line = numbered.2 := hline problem rfl
        rw [Except.mapError, ← hproblem]
    rw [← houtcomes]
    exact htells
  · intro h
    refine ⟨_, ?_, h⟩
    rw [List.forall₂_map_right_iff, List.forall₂_same]
    intro numbered _
    exact ⟨⟨numbered.2, rfl⟩, fun problem hproblem => readRow_line hproblem⟩

/-- The problems of a file point at their lines exactly where no line that cannot be read stands
    below a blank one. -/
theorem fromDelimited_pointsAt_iff
    (h : fromDelimited text delimiter currency defaultVat = .ok contents) :
    contents.PointsAt text delimiter currency defaultVat ↔
      ∀ numbered ∈ dataLines text,
        ¬ Readable (headerOf text delimiter) currency delimiter numbered.1 →
        ∀ line ∈ linesAbove text numbered.2, Text.isBlank line = false := by
  -- the lines as the reader counts them, over the lines under their own numbers
  have htells := fromDelimited_tells h
  rw [countedLines_eq, List.map_map] at htells
  have hown : contents.PointsAt text delimiter currency defaultVat ↔
      contents.problems = (dataLines text).filterMap fun numbered =>
        problem? (readLine (headerOf text delimiter) currency defaultVat delimiter numbered) := by
    rw [pointsAt_iff_tells]
    constructor
    · intro h
      rw [h.problems, List.filterMap_map]
      rfl
    · intro h
      refine ⟨?_, ?_⟩
      · rw [htells.products, List.filterMap_map, List.filterMap_map]
        exact List.filterMap_congr fun numbered _ => toOption_renumber _ _
      · rw [h, List.filterMap_map]
        rfl
  rw [hown, htells.problems, List.filterMap_map]
  have hskips : ∀ numbered ∈ dataLines text, (problem? (readLine (headerOf text delimiter) currency
      defaultVat delimiter (countedLine text numbered))).isSome = (problem? (readLine
        (headerOf text delimiter) currency defaultVat delimiter numbered)).isSome :=
    fun numbered _ => problem?_isSome _ _
  refine (filterMap_eq_iff hskips).trans (forall₂_congr fun numbered hmem => ?_)
  rw [← countedLine_eq_iff hmem]
  exact problem?_renumber

end File

/-! ## Section 4: Two files -/

/-- A file with a price that is no number. -/
def plainFile : String := "Name,Price\nRice,12.50\nSalt,free"

/-- The same file with a blank line under its header. -/
def spacedFile : String := "Name,Price\n\nRice,12.50\nSalt,free"

/-- What is read of a file of a shop that sells in taka. -/
def readFile (text : String) : Except ImportError Import :=
  fromDelimited text ',' .bdt (I32.lit 1500)

/-- A blank line puts the problem on the row above its own: the salt stands on line 4. -/
theorem spacedFile_misnumbered : ∃ contents, readFile spacedFile = .ok contents ∧
    ("Salt,free", 4) ∈ dataLines spacedFile ∧ contents.problems.map (·.line) = [3] ∧
      ¬ contents.PointsAt spacedFile ',' .bdt (I32.lit 1500) := by
  have hread : (readFile spacedFile).toOption.any (fun contents =>
      contents.problems.map (·.line) = [3] ∧ contents.problems ≠ ((dataLines spacedFile).map
        (readLine (headerOf spacedFile ',') .bdt (I32.lit 1500) ',')).filterMap problem?) = true := by
    decide +kernel
  obtain ⟨contents, hcontents, hlines⟩ := (Option.any_eq_true _ _).mp hread
  obtain ⟨hlines, hproblems⟩ := of_decide_eq_true hlines
  refine ⟨contents, Except.toOption_eq_some.mp hcontents, by decide +kernel, hlines, ?_⟩
  intro h
  exact hproblems (pointsAt_iff_tells.mp h).problems

/-- Without the blank line the problem points at the salt. -/
theorem plainFile_points : ∃ contents, readFile plainFile = .ok contents ∧
    contents.PointsAt plainFile ',' .bdt (I32.lit 1500) := by
  have hread : (readFile plainFile).toOption.isSome = true := by decide +kernel
  obtain ⟨contents, hcontents⟩ := Option.isSome_iff_exists.mp hread
  have hcontents : readFile plainFile = .ok contents := Except.toOption_eq_some.mp hcontents
  have hfilled : ∀ line ∈ Text.lines plainFile, Text.isBlank line = false := by decide +kernel
  refine ⟨contents, hcontents, (fromDelimited_pointsAt_iff hcontents).mpr ?_⟩
  intro numbered _ _ line hline
  exact hfilled line (List.mem_of_mem_take hline)

end Sahl
