import DecoyEngine.Execution.TopCode

namespace DecoyEngine.Execution.TopCode

open DecoyEngine.Data

/-! Every cell is classed by the exact number it holds. -/

/-- The number a reading stands for. -/
def readingValue : Option DecimalReading → Option ℚ
  | some (.number value) => value.exact
  | _ => none

/-- The exact mathematical value of a cell. -/
def Cell.exactValue : Cell → Option ℚ
  | .int value => some value
  | .float (.number (.finite negative magnitude)) => some (signedValue negative magnitude.value)
  | .decimal value _ => value.exact
  | .text value => readingValue (readDecimal value)
  | .scalar shown => readingValue (readDecimal shown)
  | _ => none

def Cell.Fractional (cell : Cell) : Prop :=
  ∃ value, cell.exactValue = some value ∧ ¬ ∃ integer : Int, value = integer

def Cell.isNull : Cell → Bool
  | .missing => true
  | .float .nan => true
  | .decimalNan _ => true
  | _ => false

/-- The class of a cell, from its exact value alone. -/
def classOf (cap : Bound) (bottom : Option (Bound × String)) (cell : Cell) : Mark :=
  if cell.isNull then .null
  else
    match cell.exactValue with
    | none => .rowError
    | some value =>
        if cap.value < value then .overCap
        else if bottom.any (fun entry => value < entry.1.value) then .under
        else .inRange (intText value.num)

def Classified.ofMarks (column : String) (pos : Nat) : List Mark → Classified
  | [] => .empty
  | mark :: marks => (ofMarks column (pos + 1) marks).cons column pos mark

/-- Masks of two chunks, the row errors of the second counted on from the first. -/
def Classified.append (front back : Classified) : Classified where
  overMask := front.overMask ++ back.overMask
  underMask := front.underMask ++ back.underMask
  inRangeMask := front.inRangeMask ++ back.inRangeMask
  render := front.render ++ back.render
  rowErrors := front.rowErrors ++
    back.rowErrors.map (fun row => { row with rowIndex := front.overMask.length + row.rowIndex })

def Classified.concat (chunks : List Classified) : Classified :=
  chunks.foldr .append .empty

section Spec

variable (column : String) (cap : Bound) (overLabel : String) (bottom : Option (Bound × String))

/-- Top-coding as it should be: the column is refused exactly for a fractional value, else every
cell is in the class of its value; equal values are written alike and different ones in range
differently; and chunks are classed as the column is. -/
structure TopCodes (col : List Cell) : Prop where
  classed :
    match classifyObjectColumn column cap bottom col with
    | .error refusal => refusal = nonIntegralColumn column ∧ ∃ cell ∈ col, cell.Fractional
    | .ok masks => (∀ cell ∈ col, ¬ cell.Fractional) ∧
        masks = .ofMarks column 0 (col.map (classOf cap bottom))
  alike : ∀ masks, classifyObjectColumn column cap bottom col = .ok masks →
    ∀ (i j : Nat) cell other value, col[i]? = some cell → col[j]? = some other →
      cell.exactValue = some value → other.exactValue = some value →
      (writeColumn bottom overLabel col masks)[i]? = (writeColumn bottom overLabel col masks)[j]?
  apart : ∀ masks, classifyObjectColumn column cap bottom col = .ok masks →
    ∀ (i j : Nat) cell other value otherValue, col[i]? = some cell → col[j]? = some other →
      cell.exactValue = some value → other.exactValue = some otherValue →
      masks.inRangeMask[i]? = some true → masks.inRangeMask[j]? = some true → value ≠ otherValue →
      (writeColumn bottom overLabel col masks)[i]? ≠ (writeColumn bottom overLabel col masks)[j]?
  chunked : ∀ chunks outs, chunks.flatten = col →
    List.Forall₂ (fun chunk out => classifyObjectColumn column cap bottom chunk = .ok out)
      chunks outs →
    classifyObjectColumn column cap bottom col = .ok (Classified.concat outs)

end Spec

/-- The cells that raise what the loop does not expect: a signaling NaN, and without a floor a
number too small to be printed. -/
def Cell.Stops (bottom : Option (Bound × String)) (cell : Cell) : Prop :=
  cell = .decimalNan true ∨ bottom = none ∧
    ∃ value : Int, cell.exactValue = some (value : ℚ) ∧ value ≤ -10 ^ intMaxStrDigits

/-- What is read of a cell is its exact value. -/
def Parsed.Reads : Parsed → Option ℚ → Prop
  | .int integer, exact => exact = some (integer : ℚ)
  | .frac, exact => ∃ value, exact = some value ∧ ¬ ∃ integer : Int, value = integer
  | .bad, exact => exact = none

theorem parseReading_reads (reading : Option DecimalReading) :
    (parseReading reading).Reads (readingValue reading) := by
  cases reading with
  | none => rfl
  | some reading =>
      cases reading with
      | nan signaling => rfl
      | number value =>
          cases value with
          | infinity negative => rfl
          | finite negative coefficient exponent =>
              have exact := PyDecimal.exact_finite negative coefficient exponent
              rw [parseReading, readingValue]
              by_cases same : (PyDecimal.finite negative coefficient exponent).exact =
                  (PyDecimal.finite negative coefficient exponent).toIntegralValue.exact
              · obtain ⟨integer, whole⟩ := (PyDecimal.eq_toIntegralValue exact).mp same
                rw [whole] at exact
                rw [if_pos same, PyDecimal.truncated_eq exact]
                exact exact
              · rw [if_neg same]
                exact ⟨_, exact, mt (PyDecimal.eq_toIntegralValue exact).mpr same⟩
              · simp

theorem parseFloat_reads (negative : Bool) (magnitude : DoubleMagnitude) :
    (parseExact (.float (.number (.finite negative magnitude)))).Reads
      (some (signedValue negative magnitude.value)) := by
  rw [parseExact]
  split
  · rename_i whole
    rw [Parsed.Reads, signedValue, ← DoubleMagnitude.truncated_eq whole]
    cases negative <;> simp
  · rename_i fractional
    refine ⟨_, rfl, fun ⟨integer, same⟩ => fractional ?_⟩
    have nonneg : 0 ≤ magnitude.value :=
      mul_nonneg (Nat.cast_nonneg _) (zpow_nonneg (by norm_num) _)
    refine DoubleMagnitude.isInteger_iff.mpr ⟨integer.natAbs, ?_⟩
    rw [Nat.cast_natAbs, Int.cast_abs, ← same, signedValue]
    cases negative <;> simp [abs_of_nonneg nonneg]

theorem parseExact_reads (cell : Cell) : (parseExact cell).Reads cell.exactValue := by
  cases cell with
  | missing => rfl
  | bool value => rfl
  | int value => rfl
  | float value =>
      cases value with
      | nan => rfl
      | number value =>
          cases value with
          | infinity negative => rfl
          | finite negative magnitude => exact parseFloat_reads negative magnitude
  | decimal value limits =>
      have reads := parseReading_reads (readDecimal value.text)
      rw [readDecimal_text limits] at reads
      change (parseReading (readDecimal value.text)).Reads value.exact
      rw [readDecimal_text limits]
      exact reads
  | decimalNan signaling => cases signaling <;> rfl
  | text value => exact parseReading_reads (readDecimal value)
  | scalar shown => exact parseReading_reads (readDecimal shown)
  | container => rfl

section Cells

variable {column : String} {cap : Bound} {bottom : Option (Bound × String)} {cell : Cell}

theorem maxExactInt_le : maxExactInt ≤ 10 ^ intMaxStrDigits :=
  calc maxExactInt ≤ 10 ^ 16 := by decide
    _ ≤ 10 ^ intMaxStrDigits := Nat.pow_le_pow_right (by decide) (by decide)

theorem Bound.range (bound : Bound) :
    -(10 ^ intMaxStrDigits : Nat) < bound.value ∧ bound.value < (10 ^ intMaxStrDigits : Nat) := by
  have small : (maxExactInt : ℚ) ≤ (10 ^ intMaxStrDigits : Nat) := Nat.cast_le.mpr maxExactInt_le
  obtain ⟨below, above⟩ := abs_lt.mp bound.usable
  exact ⟨by linarith, by linarith⟩

/-- The class of a number, from its value. -/
def markOf (cap : Bound) (bottom : Option (Bound × String)) (exact : Int) : Mark :=
  if cap.value < exact then .overCap
  else if bottom.any (fun entry => (exact : ℚ) < entry.1.value) then .under
  else .inRange (intText exact)

theorem classifyExact_stops {exact : Int} (low : exact ≤ -10 ^ intMaxStrDigits) :
    classifyExact cap none exact = .error .intTooLong := by
  have bound := cap.range
  have lowValue : (exact : ℚ) ≤ -(10 ^ intMaxStrDigits : Nat) := by
    have cast : exact ≤ -((10 ^ intMaxStrDigits : Nat) : Int) := by
      rw [Nat.cast_pow]
      exact low
    exact_mod_cast cast
  have notOver : ¬ cap.value < exact := by
    intro above
    linarith
  have long : 10 ^ intMaxStrDigits ≤ exact.natAbs := by
    have cast : ((10 ^ intMaxStrDigits : Nat) : Int) ≤ -exact := by
      rw [Nat.cast_pow]
      exact Int.le_neg_of_le_neg low
    omega
  rw [classifyExact, if_neg notOver, if_neg (by simp), pyStr, if_pos long]
  rfl

theorem classifyExact_ok {exact : Int}
    (printable : ¬ (bottom = none ∧ exact ≤ -10 ^ intMaxStrDigits)) :
    classifyExact cap bottom exact = .ok (markOf cap bottom exact) := by
  rw [classifyExact, markOf]
  by_cases above : cap.value < exact
  · rw [if_pos above, if_pos above]
  rw [if_neg above, if_neg above]
  by_cases under : bottom.any (fun entry => (exact : ℚ) < entry.1.value) = true
  · rw [if_pos under, if_pos under]
  rw [if_neg under, if_neg under, pyStr, if_neg]
  · rfl
  intro long
  have high : (exact : ℚ) < (10 ^ intMaxStrDigits : Nat) :=
    lt_of_le_of_lt (not_lt.mp above) cap.range.2
  have highInt : exact < ((10 ^ intMaxStrDigits : Nat) : Int) := by exact_mod_cast high
  have low : exact ≤ -((10 ^ intMaxStrDigits : Nat) : Int) := by omega
  cases bottom with
  | none =>
      rw [Nat.cast_pow] at low
      exact printable ⟨rfl, low⟩
  | some entry =>
      have above : ¬ (exact : ℚ) < entry.1.value := by simpa using under
      have floor := entry.1.range.1
      have lowValue : (exact : ℚ) ≤ -((10 ^ intMaxStrDigits : Nat) : ℚ) := by exact_mod_cast low
      linarith

theorem isna_ok (notSignaling : cell ≠ .decimalNan true) : isna cell = .ok cell.isNull := by
  cases cell with
  | float value => cases value <;> rfl
  | decimalNan signaling =>
      cases signaling with
      | true => exact absurd rfl notSignaling
      | false => rfl
  | _ => rfl

theorem exactValue_null (null : cell.isNull = true) : cell.exactValue = none := by
  cases cell with
  | missing => rfl
  | float value =>
      cases value with
      | nan => rfl
      | number value => cases null
  | decimalNan signaling => rfl
  | _ => cases null

theorem classifyCell_eq {value : ℚ} (exact : cell.exactValue = some value) :
    classifyCell column cap bottom cell =
      match parseExact cell with
      | .bad => .ok .rowError
      | .frac => .error (nonIntegralColumn column)
      | .int exact => classifyExact cap bottom exact := by
  have notContainer : cell ≠ .container := by
    intro same
    rw [same] at exact
    cases exact
  have notSignaling : cell ≠ .decimalNan true := by
    intro same
    rw [same] at exact
    cases exact
  have notNull : cell.isNull = false := by
    by_contra null
    rw [Bool.not_eq_false] at null
    rw [exactValue_null null] at exact
    cases exact
  rw [classifyCell, if_neg notContainer, isna_ok notSignaling, notNull]
  rfl

theorem parseExact_int {integer : Int} (exact : cell.exactValue = some (integer : ℚ)) :
    parseExact cell = .int integer := by
  have reads := parseExact_reads cell
  cases parsed : parseExact cell with
  | bad =>
      rw [parsed, exact] at reads
      cases reads
  | frac =>
      rw [parsed, exact] at reads
      obtain ⟨value, same, notWhole⟩ := reads
      exact absurd ⟨integer, (Option.some.inj same).symm⟩ notWhole
  | int other =>
      rw [parsed, exact] at reads
      have same : (integer : ℚ) = other := Option.some.inj reads
      rw [Int.cast_injective same]

theorem parseExact_frac (fractional : cell.Fractional) : parseExact cell = .frac := by
  obtain ⟨value, exact, notWhole⟩ := fractional
  have reads := parseExact_reads cell
  cases parsed : parseExact cell with
  | bad =>
      rw [parsed, exact] at reads
      cases reads
  | frac => rfl
  | int integer =>
      rw [parsed, exact] at reads
      exact absurd ⟨integer, Option.some.inj reads⟩ notWhole

variable (column cap) in
theorem classifyCell_stops (stops : cell.Stops bottom) :
    ∃ refusal, classifyCell column cap bottom cell = .error refusal ∧
      refusal ≠ nonIntegralColumn column := by
  rcases stops with rfl | ⟨rfl, integer, exact, low⟩
  · exact ⟨.signalingNan, rfl, nofun⟩
  · refine ⟨.intTooLong, ?_, nofun⟩
    rw [classifyCell_eq exact, parseExact_int exact]
    exact classifyExact_stops low

theorem classifyCell_fractional (fractional : cell.Fractional) :
    classifyCell column cap bottom cell = .error (nonIntegralColumn column) := by
  have parsed := parseExact_frac fractional
  obtain ⟨value, exact, -⟩ := fractional
  rw [classifyCell_eq exact, parsed]

theorem classifyCell_ok (runs : ¬ cell.Stops bottom) (whole : ¬ cell.Fractional) :
    classifyCell column cap bottom cell = .ok (classOf cap bottom cell) := by
  by_cases container : cell = .container
  · subst container
    rfl
  have notSignaling : cell ≠ .decimalNan true := fun same => runs (.inl same)
  rw [classifyCell, if_neg container, isna_ok notSignaling, classOf]
  cases null : cell.isNull with
  | true => rfl
  | false =>
      have reads := parseExact_reads cell
      simp only [bind, Except.bind, Bool.false_eq_true, if_false]
      cases parsed : parseExact cell with
      | bad =>
          rw [parsed] at reads
          rw [reads]
          rfl
      | frac =>
          rw [parsed] at reads
          exact absurd reads whole
      | int integer =>
          rw [parsed] at reads
          have printable : ¬ (bottom = none ∧ integer ≤ -10 ^ intMaxStrDigits) :=
            fun stops => runs (.inr ⟨stops.1, integer, reads, stops.2⟩)
          rw [show cell.exactValue = some (integer : ℚ) from reads]
          refine (classifyExact_ok printable).trans ?_
          simp only [markOf, Rat.num_intCast]

end Cells

namespace Mark

def errorAt (column : String) (mark : Mark) (pos : Nat) : Option RowError :=
  if mark = rowError then some (formatError column pos) else none

/-- What a mark writes over a cell. -/
def write (overLabel : String) (underLabel : Option String) (value : Cell) : Mark → Cell
  | overCap => .text overLabel.toList
  | under => underLabel.elim .missing (fun label => .text label.toList)
  | inRange text => .text text
  | rowError => value
  | null => value

end Mark

namespace Classified

variable {column : String} {pos : Nat}

theorem ofMarks_eq (marks : List Mark) :
    ofMarks column pos marks =
      ⟨marks.map (· == .overCap), marks.map (· == .under), marks.map Mark.isInRange,
        marks.map Mark.text,
        (marks.zipIdx pos).filterMap (fun entry => entry.1.errorAt column entry.2)⟩ := by
  induction marks generalizing pos with
  | nil => rfl
  | cons mark marks ih =>
      rw [ofMarks, ih, cons, List.zipIdx_cons, List.filterMap_cons, Mark.errorAt]
      cases mark <;> rfl

theorem ofMarks_append (front back : List Mark) :
    ofMarks column 0 (front ++ back) = (ofMarks column 0 front).append (ofMarks column 0 back) := by
  have shifted : ((back.zipIdx front.length).filterMap
      (fun entry => entry.1.errorAt column entry.2)) =
        ((back.zipIdx 0).filterMap (fun entry => entry.1.errorAt column entry.2)).map
          (fun row => { row with rowIndex := front.length + row.rowIndex }) := by
    have moved : back.zipIdx front.length =
        (back.zipIdx 0).map (fun entry => (entry.1, front.length + entry.2)) := by
      rw [List.zipIdx_eq_map_add (i := front.length)]
    rw [moved, List.filterMap_map, List.map_filterMap]
    refine List.filterMap_congr fun entry _ => ?_
    simp only [Function.comp_apply, Mark.errorAt]
    split <;> rfl
  rw [ofMarks_eq, ofMarks_eq, ofMarks_eq, append]
  simp only [List.map_append, List.zipIdx_append, List.filterMap_append, List.length_map,
    Nat.zero_add, shifted]

theorem concat_ofMarks (chunks : List (List Mark)) :
    concat (chunks.map (ofMarks column 0)) = ofMarks column 0 chunks.flatten := by
  induction chunks with
  | nil => rfl
  | cons chunk chunks ih =>
      rw [List.flatten_cons, ofMarks_append, ← ih]
      rfl

end Classified

section Columns

variable {column : String} {cap : Bound} {bottom : Option (Bound × String)} {overLabel : String}
  {col : List Cell} {masks : Classified} {pos : Nat}

theorem classifyFrom_ok
    (all : ∀ cell ∈ col, ¬ cell.Stops bottom ∧ ¬ cell.Fractional) :
    classifyFrom column cap bottom pos col =
      .ok (.ofMarks column pos (col.map (classOf cap bottom))) := by
  induction col generalizing pos with
  | nil => rfl
  | cons cell col ih =>
      rw [List.forall_mem_cons] at all
      rw [classifyFrom, classifyCell_ok all.1.1 all.1.2]
      simp only [bind, Except.bind, pure, Except.pure, ih all.2]
      rfl

theorem classifyFrom_cons (cell : Cell) (cells : List Cell) :
    classifyFrom column cap bottom pos (cell :: cells) =
      (classifyCell column cap bottom cell).bind fun mark =>
        (classifyFrom column cap bottom (pos + 1) cells).map (.cons column pos mark) := by
  rw [classifyFrom]
  cases classifyCell column cap bottom cell with
  | error refusal => rfl
  | ok mark => cases classifyFrom column cap bottom (pos + 1) cells <;> rfl

theorem all_of_ok (classified : classifyFrom column cap bottom pos col = .ok masks) :
    ∀ cell ∈ col, ¬ cell.Stops bottom ∧ ¬ cell.Fractional := by
  induction col generalizing pos masks with
  | nil => simp
  | cons cell col ih =>
      rw [classifyFrom_cons] at classified
      have runs : ¬ cell.Stops bottom := by
        intro stops
        obtain ⟨refusal, refused, -⟩ := classifyCell_stops column cap stops
        rw [refused] at classified
        cases classified
      have whole : ¬ cell.Fractional := by
        intro fractional
        rw [classifyCell_fractional fractional] at classified
        cases classified
      rw [classifyCell_ok runs whole] at classified
      cases rest : classifyFrom column cap bottom (pos + 1) col with
      | error refusal =>
          rw [rest] at classified
          cases classified
      | ok others => exact List.forall_mem_cons.mpr ⟨⟨runs, whole⟩, ih rest⟩

theorem masks_of_ok (classified : classifyFrom column cap bottom pos col = .ok masks) :
    masks = .ofMarks column pos (col.map (classOf cap bottom)) :=
  Except.ok.inj (classified.symm.trans (classifyFrom_ok (all_of_ok classified)))

/-- Every cell that stops the loop comes after a fractional one. -/
def Refuses (bottom : Option (Bound × String)) (col : List Cell) : Prop :=
  ∀ before cell after, col = before ++ cell :: after → cell.Stops bottom →
    ∃ other ∈ before, other.Fractional

theorem refuses_cons {cell : Cell} {cells : List Cell} :
    Refuses bottom (cell :: cells) ↔
      ¬ cell.Stops bottom ∧ (cell.Fractional ∨ Refuses bottom cells) := by
  constructor
  · intro refuses
    constructor
    · intro stops
      obtain ⟨other, member, -⟩ := refuses [] cell cells rfl stops
      cases member
    · by_cases fractional : cell.Fractional
      · exact .inl fractional
      · refine .inr fun before other after split stops => ?_
        obtain ⟨witness, member, isFractional⟩ :=
          refuses (cell :: before) other after (by rw [split]; rfl) stops
        rcases List.mem_cons.mp member with rfl | later
        · exact absurd isFractional fractional
        · exact ⟨witness, later, isFractional⟩
  · intro ⟨runs, rest⟩ before other after split stops
    cases before with
    | nil =>
        obtain ⟨rfl, rfl⟩ := List.cons.inj split
        exact absurd stops runs
    | cons first before =>
        obtain ⟨rfl, tail⟩ := List.cons.inj split
        rcases rest with fractional | refuses
        · exact ⟨cell, List.mem_cons_self, fractional⟩
        · obtain ⟨witness, member, isFractional⟩ := refuses before other after tail stops
          exact ⟨witness, List.mem_cons_of_mem _ member, isFractional⟩

def Classed (column : String) (cap : Bound) (bottom : Option (Bound × String)) (pos : Nat)
    (col : List Cell) : Prop :=
  match classifyFrom column cap bottom pos col with
  | .error refusal => refusal = nonIntegralColumn column ∧ ∃ cell ∈ col, cell.Fractional
  | .ok masks => (∀ cell ∈ col, ¬ cell.Fractional) ∧
      masks = .ofMarks column pos (col.map (classOf cap bottom))

theorem classed_iff : Classed column cap bottom pos col ↔ Refuses bottom col := by
  induction col generalizing pos with
  | nil =>
      refine iff_of_true ⟨by simp, rfl⟩ fun before cell after split => ?_
      cases before <;> cases split
  | cons cell cells ih =>
      rw [refuses_cons, Classed, classifyFrom_cons]
      by_cases stops : cell.Stops bottom
      · obtain ⟨refusal, refused, other⟩ := classifyCell_stops column cap stops
        rw [refused]
        exact iff_of_false (fun classed => other classed.1) fun refuses => refuses.1 stops
      by_cases fractional : cell.Fractional
      · rw [classifyCell_fractional fractional]
        exact iff_of_true ⟨rfl, cell, List.mem_cons_self, fractional⟩ ⟨stops, .inl fractional⟩
      rw [classifyCell_ok stops fractional, ← @ih (pos + 1), Classed]
      cases result : classifyFrom column cap bottom (pos + 1) cells with
      | error refusal =>
          simp only [Except.bind, Except.map, List.mem_cons, exists_eq_or_imp, fractional, stops,
            false_or, not_false_eq_true, true_and]
      | ok masks =>
          have others : ∀ cell ∈ cells, ¬ cell.Fractional :=
            fun other member => (all_of_ok result other member).2
          have masksEq := masks_of_ok result
          exact iff_of_true
            ⟨List.forall_mem_cons.mpr ⟨fractional, others⟩, by rw [masksEq]; rfl⟩
            ⟨stops, .inr ⟨others, masksEq⟩⟩

theorem writeCell_mark (underLabel : Option String) (value : Cell) (mark : Mark) :
    writeCell overLabel underLabel value (mark == .overCap) (mark == .under) mark.isInRange mark.text =
      mark.write overLabel underLabel value := by
  cases mark <;> rfl

theorem writeColumn_eq (classified : classifyObjectColumn column cap bottom col = .ok masks) :
    writeColumn bottom overLabel col masks =
      col.map (fun cell =>
        (classOf cap bottom cell).write overLabel (bottom.map Prod.snd) cell) := by
  rw [masks_of_ok classified, Classified.ofMarks_eq, writeColumn]
  simp only [List.map_map]
  clear classified
  induction col with
  | nil => rfl
  | cons cell cells ih =>
      rw [List.map_cons, List.map_cons, List.map_cons, List.map_cons, List.zip_cons_cons,
        List.zip_cons_cons, List.zip_cons_cons, List.zip_cons_cons, List.map_cons, ih,
        List.map_cons]
      exact congrArg (· :: _) (writeCell_mark _ cell _)

theorem classOf_value {cell : Cell} {value : ℚ} (exact : cell.exactValue = some value) :
    classOf cap bottom cell =
      if cap.value < value then .overCap
      else if bottom.any (fun entry => value < entry.1.value) then .under
      else .inRange (intText value.num) := by
  have notNull : ¬ cell.isNull = true := by
    intro null
    rw [exactValue_null null] at exact
    cases exact
  rw [classOf, if_neg notNull, exact]

theorem alike_of_ok (classified : classifyObjectColumn column cap bottom col = .ok masks)
    {i j : Nat} {cell other : Cell} {value : ℚ} (here : col[i]? = some cell)
    (there : col[j]? = some other) (exact : cell.exactValue = some value)
    (otherExact : other.exactValue = some value) :
    (writeColumn bottom overLabel col masks)[i]? =
      (writeColumn bottom overLabel col masks)[j]? := by
  rw [writeColumn_eq classified, List.getElem?_map, List.getElem?_map, here, there, Option.map_some,
    Option.map_some, classOf_value exact, classOf_value otherExact]
  split
  · rfl
  · split <;> rfl

theorem inRange_of_ok (classified : classifyObjectColumn column cap bottom col = .ok masks)
    {i : Nat} {cell : Cell} {value : ℚ} (here : col[i]? = some cell)
    (exact : cell.exactValue = some value) (inRange : masks.inRangeMask[i]? = some true) :
    (writeColumn bottom overLabel col masks)[i]? = some (.text (intText value.num)) := by
  rw [masks_of_ok classified, Classified.ofMarks_eq] at inRange
  simp only [List.getElem?_map, here, Option.map_some, Option.some.injEq] at inRange
  rw [classOf_value exact] at inRange
  rw [writeColumn_eq classified, List.getElem?_map, here, Option.map_some, classOf_value exact]
  split at inRange
  · cases inRange
  · rename_i notOver
    rw [if_neg notOver]
    split at inRange
    · cases inRange
    · rename_i notUnder
      rw [if_neg notUnder]
      rfl

theorem apart_of_ok (classified : classifyObjectColumn column cap bottom col = .ok masks)
    {i j : Nat} {cell other : Cell} {value otherValue : ℚ} (here : col[i]? = some cell)
    (there : col[j]? = some other) (exact : cell.exactValue = some value)
    (otherExact : other.exactValue = some otherValue) (inRange : masks.inRangeMask[i]? = some true)
    (otherInRange : masks.inRangeMask[j]? = some true) (distinct : value ≠ otherValue) :
    (writeColumn bottom overLabel col masks)[i]? ≠
      (writeColumn bottom overLabel col masks)[j]? := by
  rw [inRange_of_ok classified here exact inRange,
    inRange_of_ok classified there otherExact otherInRange]
  intro same
  have texts : intText value.num = intText otherValue.num := Cell.text.inj (Option.some.inj same)
  -- a cell that was classed is whole, so it is its numerator
  have whole : ∀ {cell : Cell} {value : ℚ}, cell ∈ col → cell.exactValue = some value →
      value = value.num := by
    intro cell value member exact
    by_contra fractional
    refine (all_of_ok classified cell member).2 ⟨value, exact, fun ⟨integer, isWhole⟩ => ?_⟩
    rw [isWhole, Rat.num_intCast] at fractional
    exact fractional rfl
  apply distinct
  rw [whole (List.mem_of_getElem? here) exact, whole (List.mem_of_getElem? there) otherExact,
    intText_injective texts]

theorem chunked_of_ok {chunks : List (List Cell)} {outs : List Classified}
    (each : List.Forall₂ (fun chunk out => classifyObjectColumn column cap bottom chunk = .ok out)
      chunks outs) :
    classifyObjectColumn column cap bottom chunks.flatten = .ok (Classified.concat outs) := by
  have all : ∀ cell ∈ chunks.flatten, ¬ cell.Stops bottom ∧ ¬ cell.Fractional := by
    induction each with
    | nil => simp
    | cons first _ ih =>
        intro cell member
        rcases List.mem_append.mp (List.flatten_cons ▸ member) with front | back
        · exact all_of_ok first cell front
        · exact ih cell back
  have outsEq : outs = (chunks.map (·.map (classOf cap bottom))).map
      (Classified.ofMarks column 0) := by
    clear all
    induction each with
    | nil => rfl
    | cons first _ ih => rw [List.map_cons, List.map_cons, ← ih, masks_of_ok first]
  rw [outsEq, Classified.concat_ofMarks, ← List.map_flatten]
  exact classifyFrom_ok all

end Columns

/-- An object column is top-coded as it should be exactly when no cell that raises on its own is
met before a fractional one. -/
theorem column_top_coded_iff (column : String) (cap : Bound) (overLabel : String)
    (bottom : Option (Bound × String)) (col : List Cell) :
    TopCodes column cap overLabel bottom col ↔ Refuses bottom col := by
  constructor
  · intro codes
    exact classed_iff.mp codes.classed
  · intro refuses
    refine ⟨classed_iff.mpr refuses, ?_, ?_, ?_⟩
    · intro masks classified i j cell other value here there exact otherExact
      exact alike_of_ok classified here there exact otherExact
    · intro masks classified i j cell other value otherValue here there exact otherExact inRange
        otherInRange distinct
      exact apart_of_ok classified here there exact otherExact inRange otherInRange distinct
    · intro chunks outs split each
      exact split ▸ chunked_of_ok each

theorem small_integer_not_coded {exact : Int} (column : String) (cap : Bound) (overLabel : String)
    (low : exact ≤ -10 ^ intMaxStrDigits) :
    classifyObjectColumn column cap none [.int exact] = .error .intTooLong ∧
      ¬ TopCodes column cap overLabel none [.int exact] := by
  constructor
  · rw [classifyObjectColumn, classifyFrom_cons, classifyCell_eq rfl, parseExact]
    dsimp only
    rw [classifyExact_stops low]
    rfl
  · intro codes
    have refuses : Refuses none [Cell.int exact] := classed_iff.mp codes.classed
    exact (refuses_cons.mp refuses).1 (.inr ⟨rfl, exact, rfl, low⟩)

def hipaaCap : Bound := ⟨89, by norm_num [maxExactInt]⟩

def hipaaConfig : TopCodeConfig := { preset := some (.text "hipaa_age") }

theorem hipaaConfig_top : resolveTopBound hipaaConfig = some (hipaaCap, "90+") := by
  have usable : |((89 : Int) : ℚ)| < maxExactInt := by norm_num [maxExactInt]
  have bound : usableBound (.int 89) = some hipaaCap := by
    rw [usableBound, dif_pos usable]
    rfl
  change ((usableBound (.int 89)).bind fun cap => some (cap, "90+")) = _
  rw [bound]
  rfl

/-- Without a floor an integer of 4301 digits is in range and cannot be printed. -/
theorem long_integer_not_coded :
    run (fun _ => "") "age" hipaaConfig [.int (-10 ^ intMaxStrDigits)] = .error .intTooLong ∧
      classifyObjectColumn "age" hipaaCap none [.int (-10 ^ intMaxStrDigits)] =
        .error .intTooLong ∧
      ¬ TopCodes "age" hipaaCap "90+" none [.int (-10 ^ intMaxStrDigits)] := by
  have small := small_integer_not_coded "age" hipaaCap "90+" (le_refl _)
  refine ⟨?_, small⟩
  rw [run_eq "age" _ hipaaConfig_top rfl, small.1]
  rfl

end DecoyEngine.Execution.TopCode
