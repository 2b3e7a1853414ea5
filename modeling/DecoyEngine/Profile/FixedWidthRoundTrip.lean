import DecoyEngine.Data.Checked
import DecoyEngine.Profile.FixedWidth
import Mathlib.Algebra.Ring.Nat
import Mathlib.Data.List.Forall2

namespace DecoyEngine.Profile

open DecoyEngine.Data

/-! What the writer accepts, and that the reader gives it back. -/

variable {F R : Type}

/-- What `Renders` a cell of a column type, before any padding. -/
inductive Renders (floats : FloatText F R) : ColumnType → Value R → List CodePoint → Prop where
  | text {value : List CodePoint} : .scalar '\n' ∉ value → .scalar '\r' ∉ value →
      Renders floats .str (.text value) value
  | integer {value : Int} : (natText value.natAbs).length ≤ maxStrDigits →
      Renders floats .int (.integer value) (CodePoint.ofText (intText value))
  | number {value : R} {rounded : F} : floats.toFloat value = some rounded →
      floats.isNan rounded = false →
      Renders floats .float (.number value) (CodePoint.ofText (floats.repr rounded))

/-- What is read is what was written, a real up to `==` and with its sign. -/
inductive Same (floats : FloatText F R) : Value F → Value R → Prop where
  | text (value : List CodePoint) : Same floats (.text value) (.text value)
  | integer (value : Int) : Same floats (.integer value) (.integer value)
  | number {decoded rounded : F} {original : R} : floats.eq decoded original = true →
      floats.toFloat original = some rounded →
      floats.negative decoded = floats.negative rounded →
      Same floats (.number decoded) (.number original)

/-- The writable domain of a column. -/
def Writable (floats : FloatText F R) (column : FixedWidthColumn) (cell : Cell R) : Prop :=
  ∃ rendered, Renders floats column.type cell.value rendered ∧ rendered.length ≤ column.width ∧
    (∀ point ∈ rendered, point.char?.isSome = true) ∧
    ∃ decoded, castValue floats (stripPad (padField rendered column) column)
        (padField rendered column) column 0 = .ok decoded ∧ Same floats decoded cell.value

section Fields

variable {floats : FloatText F R} {cell : Cell R} {decoded : Value F} {original : Value R} {column : FixedWidthColumn}
  {rendered field : List CodePoint}

theorem equal_iff : equal floats decoded original = true ↔ Same floats decoded original := by
  constructor
  · intro same
    unfold equal at same
    split at same
    · rw [eq_of_beq same]
      exact .text _
    · rw [eq_of_beq same]
      exact .integer _
    · next original =>
        rw [Bool.and_eq_true] at same
        cases rounds : floats.toFloat original with
        | none =>
            rw [rounds] at same
            cases same.2
        | some rounded =>
            rw [rounds, Option.any_some] at same
            exact .number same.1 rounds (eq_of_beq same.2)
    · cases same
  · intro same
    cases same with
    | text => exact beq_self_eq_true _
    | integer => exact beq_self_eq_true _
    | number close rounds sign =>
        rw [equal, close, rounds, Option.any_some, sign, beq_self_eq_true, Bool.and_true]

theorem renderValue_ok_iff :
    renderValue floats cell column = .ok rendered ↔
      Renders floats column.type cell.value rendered := by
  constructor
  · intro ok
    unfold renderValue at ok
    split at ok
    · next isText value =>
        split at ok
        · cases ok
        · next plain =>
            cases ok
            rw [not_or] at plain
            rw [isText, value]
            exact .text plain.1 plain.2
    · next isInt value =>
        split at ok
        · cases ok
        · next short =>
            cases ok
            rw [isInt, value]
            exact .integer (Nat.le_of_not_lt short)
    · next isFloat value =>
        split at ok
        · cases ok
        · next rounds =>
            split at ok
            · cases ok
            · next number =>
                cases ok
                rw [isFloat, value]
                exact .number rounds (Bool.eq_false_iff.mpr number)
    · cases ok
  · intro renders
    generalize typed : column.type = type at renders
    generalize valued : cell.value = value at renders
    cases renders with
    | text noFeed noReturn => simp [renderValue, typed, valued, noFeed, noReturn]
    | integer short => simp [renderValue, typed, valued, Nat.not_lt.mpr short]
    | number rounds present => simp [renderValue, typed, valued, rounds, present]

theorem encode_isSome : (CodePoint.encode rendered).isSome = true ↔
    ∀ point ∈ rendered, point.char?.isSome = true := by
  rw [CodePoint.encode, Option.isSome_map]
  induction rendered with
  | nil => simp
  | cons point rendered ih =>
      rw [List.forall_mem_cons, ← ih, List.mapM_cons]
      cases point with
      | surrogate low => simp [CodePoint.char?]
      | scalar ch => cases rendered.mapM CodePoint.char? <;> simp [CodePoint.char?]

theorem renderField_ok_iff : renderField floats cell column = .ok field ↔
    ∃ rendered, Renders floats column.type cell.value rendered ∧ rendered.length ≤ column.width ∧
      (∀ point ∈ rendered, point.char?.isSome = true) ∧ field = padField rendered column ∧
      ∃ decoded, castValue floats (stripPad field column) field column 0 = .ok decoded ∧
        Same floats decoded cell.value := by
  unfold renderField
  constructor
  · intro ok
    split at ok
    · cases ok
    · next rendered renders =>
        simp only at ok
        split_ifs at ok with wide encodes
        rw [Option.isNone_iff_eq_none, ← ne_eq, ← Option.isSome_iff_ne_none, encode_isSome] at encodes
        split at ok
        · cases ok
        · next decoded casts =>
            split at ok
            · next same =>
                cases ok
                exact ⟨rendered, renderValue_ok_iff.mp renders, Nat.le_of_not_lt wide, encodes, rfl,
                  decoded, casts, equal_iff.mp same⟩
            · cases ok
  · rintro ⟨rendered, renders, fits, encodes, rfl, decoded, casts, same⟩
    rw [← encode_isSome] at encodes
    have encodable : (CodePoint.encode rendered).isNone = false := by
      rw [Option.isNone_eq_false_iff, encodes]
    simp only [renderValue_ok_iff.mpr renders, Nat.not_lt.mpr fits, if_false, encodable, casts,
      equal_iff.mpr same, if_true, Bool.false_eq_true]

theorem writable_iff : Writable floats column cell ↔
    ∃ field, renderField floats cell column = .ok field := by
  constructor
  · rintro ⟨rendered, renders, fits, encodes, readsBack⟩
    exact ⟨_, renderField_ok_iff.mpr ⟨rendered, renders, fits, encodes, rfl, readsBack⟩⟩
  · rintro ⟨field, ok⟩
    obtain ⟨rendered, renders, fits, encodes, rfl, readsBack⟩ := renderField_ok_iff.mp ok
    exact ⟨rendered, renders, fits, encodes, readsBack⟩

theorem length_padField (fits : rendered.length ≤ column.width) :
    (padField rendered column).length = column.width := by
  rw [padField]
  split
  · rw [List.length_append, List.length_replicate, Nat.add_sub_cancel' fits]
  · rw [List.length_append, List.length_replicate, Nat.sub_add_cancel fits]

theorem mem_padField {point : CodePoint} (member : point ∈ padField rendered column) :
    point ∈ rendered ∨ point = column.pad := by
  rw [padField] at member
  split at member
  · rcases List.mem_append.mp member with own | pads
    · exact .inl own
    · exact .inr (List.eq_of_mem_replicate pads)
  · rcases List.mem_append.mp member with pads | own
    · exact .inr (List.eq_of_mem_replicate pads)
    · exact .inl own

/-- A code point that does not end a line. -/
def Plain (point : CodePoint) : Prop := point ≠ .scalar '\n' ∧ point ≠ .scalar '\r'

theorem Renders.plain {type : ColumnType} {value : Value R}
    (renders : Renders floats type value rendered) :
    ∀ point ∈ rendered, Plain point := by
  have ofText : ∀ {text : List Char}, '\n' ∉ text → '\r' ∉ text →
      ∀ point ∈ CodePoint.ofText text, Plain point := by
    intro text noFeed noReturn point member
    obtain ⟨ch, inText, rfl⟩ := List.mem_map.mp member
    constructor
    · intro same
      cases same
      exact noFeed inText
    · intro same
      cases same
      exact noReturn inText
  cases renders with
  | text noFeed noReturn =>
      exact fun point member => ⟨fun same => noFeed (same ▸ member), fun same => noReturn (same ▸ member)⟩
  | @integer number _ =>
      have digits : ∀ magnitude : Nat, '\n' ∉ natText magnitude ∧ '\r' ∉ natText magnitude := by
        intro magnitude
        constructor <;> intro member <;>
          exact absurd (natText_mem_digits magnitude _ member) (by decide)
      apply ofText
      · cases number with
        | ofNat magnitude => exact (digits magnitude).1
        | negSucc magnitude =>
            intro member
            rcases List.mem_cons.mp member with same | inDigits
            · exact absurd same (by decide)
            · exact (digits _).1 inDigits
      · cases number with
        | ofNat magnitude => exact (digits magnitude).2
        | negSucc magnitude =>
            intro member
            rcases List.mem_cons.mp member with same | inDigits
            · exact absurd same (by decide)
            · exact (digits _).2 inDigits
  | @number _ rounded _ _ => exact ofText (floats.repr_plain rounded).1 (floats.repr_plain rounded).2

theorem castValue_line {stripped raw : List CodePoint} {lineNo : Nat}
    (casts : castValue floats stripped raw column lineNo = .ok decoded) (otherLine : Nat) :
    castValue floats stripped raw column otherLine = .ok decoded := by
  unfold castValue at casts ⊢
  simp only at casts ⊢
  split at casts
  · next found => simpa [found] using casts
  · cases casts

end Fields

section Records

variable {floats : FloatText F R} {row : String → Option (Cell R)} {buffer line field : List CodePoint}
  {column : FixedWidthColumn} {columns : List FixedWidthColumn} {prevEnd : Nat}

/-- The field of a column, as the writer asks for it. -/
def FieldOf (floats : FloatText F R) (row : String → Option (Cell R)) (column : FixedWidthColumn)
    (field : List CodePoint) : Prop :=
  renderField floats ((row column.name).getD ⟨.other, "KeyError"⟩) column = .ok field

theorem FieldOf.length (ok : FieldOf floats row column field) : field.length = column.width := by
  obtain ⟨rendered, _, fits, _, rfl, _⟩ := renderField_ok_iff.mp ok
  exact length_padField fits

theorem length_writeSlice (sized : field.length = column.width) (inside : column.stop ≤ buffer.length) :
    (writeSlice buffer field column).length = buffer.length := by
  rw [FixedWidthColumn.stop] at inside
  rw [writeSlice, FixedWidthColumn.stop, List.length_append, List.length_append, List.length_take,
    List.length_drop, sized]
  omega

theorem take_writeSlice (sized : field.length = column.width) (inside : column.stop ≤ buffer.length) :
    (writeSlice buffer field column).take column.stop = buffer.take column.start ++ field := by
  rw [FixedWidthColumn.stop] at inside
  rw [writeSlice, List.take_left']
  rw [List.length_append, List.length_take, sized, FixedWidthColumn.stop]
  omega

theorem slice_eq : slice line column = (line.take column.stop).drop column.start := by
  rw [slice, FixedWidthColumn.stop, List.drop_take, Nat.add_sub_cancel_left]

/-- The columns of a record stand where they were written: a later one never reaches back. -/
theorem fillRecord_ok (filled : fillRecord floats row buffer columns = .ok line)
    (ordered : inOrder prevEnd columns) (inside : ∀ column ∈ columns, column.stop ≤ buffer.length) :
    line.length = buffer.length ∧ line.take prevEnd = buffer.take prevEnd ∧
      (∀ column ∈ columns, FieldOf floats row column (slice line column)) ∧
      ∀ point ∈ line, point ∈ buffer ∨
        ∃ column ∈ columns, ∃ field, FieldOf floats row column field ∧ point ∈ field := by
  induction columns generalizing buffer prevEnd with
  | nil =>
      cases filled
      exact ⟨rfl, rfl, List.forall_mem_nil _, fun point member => .inl member⟩
  | cons column columns ih =>
      obtain ⟨field, ok, rest⟩ := bind_eq_ok filled
      have sized : field.length = column.width := FieldOf.length ok
      have here := inside column (by simp)
      have same := length_writeSlice sized here
      obtain ⟨length, kept, others, points⟩ := ih rest ordered.2 (fun other member => by
        rw [same]
        exact inside other (by simp [member]))
      rw [take_writeSlice sized here] at kept
      have reach : column.start ≤ buffer.length := by
        rw [FixedWidthColumn.stop] at here
        omega
      have front : (buffer.take column.start).length = column.start := by
        rw [List.length_take, Nat.min_eq_left reach]
      refine ⟨length.trans same, ?_, ?_, ?_⟩
      · have earlier : prevEnd ≤ column.stop := by
          rw [FixedWidthColumn.stop]
          exact Nat.le_trans ordered.1 (Nat.le_add_right _ _)
        calc line.take prevEnd
            = (line.take column.stop).take prevEnd := by rw [List.take_take, Nat.min_eq_left earlier]
          _ = buffer.take prevEnd := by
              rw [kept, List.take_append_of_le_length (by rw [front]; exact ordered.1),
                List.take_take, Nat.min_eq_left ordered.1]
      · intro other member
        rcases List.mem_cons.mp member with same | later
        · have own : slice line column = field := by
            rw [slice_eq, kept, List.drop_left' front]
          rw [same, own]
          exact ok
        · exact others other later
      · intro point member
        rcases points point member with inSlice | ⟨other, later, fieldOf⟩
        · rw [writeSlice] at inSlice
          rcases List.mem_append.mp inSlice with ahead | behind
          · rcases List.mem_append.mp ahead with before | inField
            · exact .inl (List.mem_of_mem_take before)
            · exact .inr ⟨column, by simp, field, ok, inField⟩
          · exact .inl (List.mem_of_mem_drop behind)
        · exact .inr ⟨other, by simp [later], fieldOf⟩

variable {spec : FixedWidthLayout}

theorem stop_le_recordWidth (member : column ∈ spec.columns) : column.stop ≤ spec.recordWidth := by
  rw [FixedWidthLayout.recordWidth]
  generalize spec.columns = columns at member
  induction columns with
  | nil => cases member
  | cons first columns ih =>
      rw [List.map_cons, List.foldr_cons]
      rcases List.mem_cons.mp member with same | later
      · rw [same]
        exact Nat.le_max_left _ _
      · exact Nat.le_trans (ih later) (Nat.le_max_right _ _)

theorem recordWidth_pos (spec : FixedWidthLayout) : 0 < spec.recordWidth := by
  obtain ⟨column, member⟩ := List.exists_mem_of_ne_nil _ spec.nonempty
  have reach := stop_le_recordWidth member
  have wide := column.positive
  rw [FixedWidthColumn.stop] at reach
  omega

theorem buildRecord_ok (plain : ∀ column ∈ spec.columns, Plain column.pad)
    (built : buildRecord floats row spec = .ok line) :
    line.length = spec.recordWidth ∧ (∀ point ∈ line, Plain point) ∧
      ∀ column ∈ spec.columns, FieldOf floats row column (slice line column) := by
  have wide : (List.replicate spec.recordWidth (CodePoint.scalar ' ')).length = spec.recordWidth :=
    List.length_replicate
  obtain ⟨length, -, fields, points⟩ := fillRecord_ok built spec.ordered
    (fun column member => by rw [wide]; exact stop_le_recordWidth member)
  refine ⟨length.trans wide, ?_, fields⟩
  intro point member
  rcases points point member with gap | ⟨column, inColumns, field, ok, inField⟩
  · rw [List.eq_of_mem_replicate gap]
    exact ⟨by decide, by decide⟩
  · obtain ⟨rendered, renders, _, _, rfl, _⟩ := renderField_ok_iff.mp ok
    rcases mem_padField inField with own | pad
    · exact renders.plain point own
    · exact pad ▸ plain column inColumns

/-- The reader's row: one cell for each column, the same as the written one. -/
def ReadsRow (floats : FloatText F R) (row : String → Option (Cell R))
    (columns : List FixedWidthColumn) (cells : List (Value F)) : Prop :=
  List.Forall₂ (fun column cell => ∃ written, row column.name = some written ∧
    Same floats cell written.value) columns cells

theorem parseRow_ok (lineNo : Nat)
    (present : ∀ column ∈ spec.columns, (row column.name).isSome = true)
    (fields : ∀ column ∈ spec.columns, FieldOf floats row column (slice line column)) :
    ∃ cells, parseRow floats spec lineNo line = .ok cells ∧
      ReadsRow floats row spec.columns cells := by
  simp only [parseRow, ReadsRow, mapM_eq_ok]
  revert present fields
  generalize spec.columns = columns
  intro present fields
  induction columns with
  | nil => exact ⟨[], .nil, .nil⟩
  | cons column columns ih =>
      obtain ⟨cells, reads, same⟩ := ih (fun other member => present other (by simp [member]))
        (fun other member => fields other (by simp [member]))
      obtain ⟨_, _, _, _, _, decoded, casts, equal⟩ :=
        renderField_ok_iff.mp (fields column (by simp))
      obtain ⟨written, found⟩ := Option.isSome_iff_exists.mp (present column (by simp))
      rw [found, Option.getD_some] at equal
      exact ⟨decoded :: cells, .cons (castValue_line casts lineNo) reads,
        .cons ⟨written, found, equal⟩ same⟩

end Records

section Files

variable {floats : FloatText F R} {frame : Frame R} {spec : FixedWidthLayout}

theorem encode_some {line : List CodePoint} {bytes : List UInt8}
    (encoded : CodePoint.encode line = some bytes) :
    ∃ chars, line = CodePoint.ofText chars ∧ bytes = utf8Encode chars := by
  obtain ⟨chars, scalars, rfl⟩ := Option.map_eq_some_iff.mp encoded
  refine ⟨chars, ?_, rfl⟩
  clear encoded
  rw [mapM_eq_some] at scalars
  induction scalars with
  | nil => rfl
  | @cons point ch line chars scalar _ ih =>
      cases point with
      | surrogate low => cases scalar
      | scalar ch' =>
          cases scalar
          rw [ih]
          rfl

theorem utf8Encode_line (chars : List Char) :
    utf8Encode chars ++ [10] = utf8Encode (chars ++ ['\n']) := by
  rw [utf8Encode, utf8Encode, List.flatMap_append]
  rfl

theorem stripLineEnd_line {chars : List Char}
    (plain : ∀ point ∈ CodePoint.ofText chars, Plain point) :
    stripLineEnd (chars ++ ['\n']) = chars := by
  rw [stripLineEnd, List.reverse_append, List.reverse_singleton, List.singleton_append,
    List.dropWhile_cons_of_pos (by rfl)]
  cases reversed : chars.reverse with
  | nil => rw [List.reverse_eq_nil_iff.mp reversed]; rfl
  | cons last front =>
      have inChars : last ∈ chars := by
        rw [← List.mem_reverse, reversed]
        exact List.mem_cons_self
      obtain ⟨notFeed, notReturn⟩ := plain (.scalar last) (List.mem_map_of_mem inChars)
      have kept : (last == '\r' || last == '\n') = false := by
        rw [Bool.or_eq_false_iff, beq_eq_false_iff_ne, beq_eq_false_iff_ne]
        exact ⟨fun same => notReturn (same ▸ rfl), fun same => notFeed (same ▸ rfl)⟩
      rw [List.dropWhile_cons_of_neg (by rw [kept]; exact Bool.false_ne_true), ← reversed,
        List.reverse_reverse]

theorem lookup_zip_isSome {labels : List String} {row : List (Cell R)} {name : String}
    (sized : row.length = labels.length) (labelled : name ∈ labels) :
    ((labels.zip row).lookup name).isSome = true := by
  induction labels generalizing row with
  | nil => cases labelled
  | cons label labels ih =>
      cases row with
      | nil => cases sized
      | cons cell row =>
          rw [List.zip_cons_cons, List.lookup_cons]
          by_cases same : name = label
          · rw [beq_iff_eq.mpr same]
            rfl
          · rw [beq_eq_false_iff_ne.mpr same]
            exact ih (Nat.succ_inj.mp sized) ((List.mem_cons.mp labelled).resolve_left same)

theorem cell_isSome {row : List (Cell R)} {name : String} (member : row ∈ frame.rows)
    (labelled : name ∈ frame.labels) : (frame.cell row name).isSome = true :=
  lookup_zip_isSome (frame.rectangular row member) labelled

theorem parseLines_line {row : List (Cell R)} {line : List CodePoint} {bytes : List UInt8}
    (lines : List (List UInt8)) (plain : ∀ column ∈ spec.columns, Plain column.pad)
    (present : ∀ column ∈ spec.columns, (frame.cell row column.name).isSome = true)
    (built : buildRecord floats (frame.cell row) spec = .ok line)
    (encoded : CodePoint.encode line = some bytes) (exact : Bool) (lineNo count : Nat) :
    ∃ cells, ReadsRow floats (frame.cell row) spec.columns cells ∧
      parseLines floats { spec with exactRecordWidth := exact } none lineNo count
          ((bytes ++ [10]) :: lines) =
        (parseLines floats { spec with exactRecordWidth := exact } none (lineNo + 1) (count + 1)
          lines).map (cells :: ·) := by
  obtain ⟨length, points, fields⟩ := buildRecord_ok plain built
  obtain ⟨chars, rfl, rfl⟩ := encode_some encoded
  obtain ⟨cells, reads, same⟩ := parseRow_ok lineNo present fields
  refine ⟨cells, same, ?_⟩
  have width : ({ spec with exactRecordWidth := exact } : FixedWidthLayout).recordWidth =
      (CodePoint.ofText chars).length := length.symm
  have nonblank : CodePoint.ofText chars ≠ [] := by
    intro blank
    rw [blank] at length
    exact absurd length (Nat.ne_of_lt (recordWidth_pos spec))
  have row' : parseRow floats { spec with exactRecordWidth := exact } lineNo
      (CodePoint.ofText chars) = .ok cells := reads
  rw [parseLines, utf8Encode_line, utf8Decode_utf8Encode]
  simp only [Option.any_none, Bool.false_eq_true, if_false, stripLineEnd_line points, nonblank,
    width, Nat.lt_irrefl, decide_false, Bool.and_false, row']
  cases parseLines floats { spec with exactRecordWidth := exact } none (lineNo + 1) (count + 1)
    lines <;> rfl

theorem read_written {rows : List (List (Cell R))} {bytes : List UInt8} {rowIndex : Nat}
    (plain : ∀ column ∈ spec.columns, Plain column.pad)
    (present : ∀ row ∈ rows, ∀ column ∈ spec.columns, (frame.cell row column.name).isSome = true)
    (written : writeRows floats frame spec rowIndex rows = .ok bytes) (exact : Bool)
    (lineNo count : Nat) :
    ∃ read, parseLines floats { spec with exactRecordWidth := exact } none lineNo count
        (physicalLines bytes) = .ok read ∧
      List.Forall₂ (fun row cells => ReadsRow floats (frame.cell row) spec.columns cells) rows read := by
  induction rows generalizing bytes rowIndex lineNo count with
  | nil =>
      cases written
      exact ⟨[], rfl, .nil⟩
  | cons row rows ih =>
      rw [writeRows] at written
      split at written
      · cases written
      · next line built =>
          split at written
          · cases written
          · next encoded encodes =>
              obtain ⟨rest, later, whole⟩ := bind_eq_ok written
              cases whole
              obtain ⟨read, reads, same⟩ := ih (fun other member => present other (by simp [member]))
                later (lineNo + 1) (count + 1)
              obtain ⟨cells, sameRow, step⟩ := parseLines_line (physicalLines rest) plain
                (present row (by simp)) built encodes exact lineNo count
              have noFeed : 10 ∉ encoded := by
                obtain ⟨chars, rfl, rfl⟩ := encode_some encodes
                refine lineFeed_not_mem fun member => ?_
                exact ((buildRecord_ok plain built).2.1 _ (List.mem_map_of_mem member)).1 rfl
              refine ⟨cells :: read, ?_, .cons sameRow same⟩
              rw [physicalLines_cons noFeed, step, reads]
              rfl

theorem checkLayout_ok_iff : checkLayout spec = .ok () ↔
    ∀ column ∈ spec.columns, Plain column.pad := by
  have clear : checkLayout spec = .ok () ↔ spec.columns.find?
      (fun column => column.pad = .scalar '\n' ∨ column.pad = .scalar '\r') = none := by
    rw [checkLayout]
    split
    · next found => rw [found]; simp
    · next none => rw [none]; simp
  rw [clear, List.find?_eq_none]
  refine forall₂_congr fun column _ => ?_
  rw [decide_eq_true_iff, not_or]
  rfl

theorem checkColumns_ok_iff : checkColumns frame spec = .ok () ↔
    frame.labels.Nodup ∧ (∀ column ∈ spec.columns, column.name ∈ frame.labels) ∧
      ∀ label ∈ frame.labels, label ∈ spec.columns.map (·.name) := by
  have once : frame.labels.filter (fun label => 1 < frame.labels.count label) = [] ↔
      frame.labels.Nodup := by
    rw [List.filter_eq_nil_iff, List.nodup_iff_count_le_one]
    constructor
    · intro single label
      by_cases member : label ∈ frame.labels
      · exact Nat.le_of_not_lt fun more => single label member (decide_eq_true more)
      · rw [List.count_eq_zero_of_not_mem member]
        exact Nat.zero_le 1
    · intro single label _ more
      exact Nat.not_lt.mpr (single label) (of_decide_eq_true more)
  have found : (spec.columns.map (·.name)).filter (· ∉ frame.labels) = [] ↔
      ∀ column ∈ spec.columns, column.name ∈ frame.labels := by
    simp [List.filter_eq_nil_iff]
  have named : frame.labels.filter (· ∉ spec.columns.map (·.name)) = [] ↔
      ∀ label ∈ frame.labels, label ∈ spec.columns.map (·.name) := by
    simp [List.filter_eq_nil_iff]
  rw [← once, ← found, ← named, checkColumns]
  split_ifs with duplicates missing extra
  · exact iff_of_false not_false fun all => duplicates all.1
  · exact iff_of_false not_false fun all => missing all.2.1
  · exact iff_of_false not_false fun all => extra all.2.2
  · exact iff_of_true rfl ⟨not_not.mp duplicates, not_not.mp missing, not_not.mp extra⟩

theorem render_ok_iff {records : List UInt8} : render floats frame spec = .ok records ↔
    checkLayout spec = .ok () ∧ checkColumns frame spec = .ok () ∧
      writeRows floats frame spec 0 frame.rows = .ok records := by
  rw [render]
  constructor
  · intro ok
    obtain ⟨⟨⟩, layout, ok⟩ := bind_eq_ok ok
    obtain ⟨⟨⟩, columns, ok⟩ := bind_eq_ok ok
    exact ⟨layout, columns, ok⟩
  · rintro ⟨layout, columns, rows⟩
    rw [layout, columns]
    exact rows

theorem writeRows_writable {rows : List (List (Cell R))} {bytes : List UInt8} {rowIndex : Nat}
    (plain : ∀ column ∈ spec.columns, Plain column.pad)
    (written : writeRows floats frame spec rowIndex rows = .ok bytes) :
    ∀ row ∈ rows, ∀ column ∈ spec.columns, ∀ cell, frame.cell row column.name = some cell →
      Writable floats column cell := by
  induction rows generalizing bytes rowIndex with
  | nil => exact List.forall_mem_nil _
  | cons row rows ih =>
      rw [writeRows] at written
      split at written
      · cases written
      · next line built =>
          split at written
          · cases written
          · obtain ⟨rest, later, -⟩ := bind_eq_ok written
            refine List.forall_mem_cons.mpr ⟨?_, ih later⟩
            intro column member cell found
            have field := (buildRecord_ok plain built).2.2 column member
            rw [FieldOf, found, Option.getD_some] at field
            exact writable_iff.mpr ⟨_, field⟩

theorem fillRecord_total {row : String → Option (Cell R)} {columns : List FixedWidthColumn}
    (fields : ∀ column ∈ columns, ∃ field, FieldOf floats row column field)
    (buffer : List CodePoint) : ∃ line, fillRecord floats row buffer columns = .ok line := by
  induction columns generalizing buffer with
  | nil => exact ⟨buffer, rfl⟩
  | cons column columns ih =>
      obtain ⟨field, ok⟩ := fields column (by simp)
      obtain ⟨line, filled⟩ := ih (fun other member => fields other (by simp [member]))
        (writeSlice buffer field column)
      refine ⟨line, ?_⟩
      rw [fillRecord, show renderField floats _ column = .ok field from ok]
      exact filled

theorem encode_total {row : String → Option (Cell R)} {line : List CodePoint}
    (pads : ∀ column ∈ spec.columns, column.pad.char?.isSome = true)
    (built : buildRecord floats row spec = .ok line) : (CodePoint.encode line).isSome = true := by
  rw [encode_isSome]
  obtain ⟨-, -, -, points⟩ := fillRecord_ok built spec.ordered (fun column member => by
    rw [List.length_replicate]
    exact stop_le_recordWidth member)
  intro point member
  rcases points point member with gap | ⟨column, inColumns, field, ok, inField⟩
  · rw [List.eq_of_mem_replicate gap]
    rfl
  · obtain ⟨rendered, _, _, scalars, rfl, _⟩ := renderField_ok_iff.mp ok
    rcases mem_padField inField with own | pad
    · exact scalars point own
    · exact pad ▸ pads column inColumns

theorem writeRows_total {rows : List (List (Cell R))}
    (pads : ∀ column ∈ spec.columns, column.pad.char?.isSome = true)
    (writable : ∀ row ∈ rows, ∀ column ∈ spec.columns, ∃ cell,
      frame.cell row column.name = some cell ∧ Writable floats column cell) (rowIndex : Nat) :
    ∃ bytes, writeRows floats frame spec rowIndex rows = .ok bytes := by
  induction rows generalizing rowIndex with
  | nil => exact ⟨[], rfl⟩
  | cons row rows ih =>
      obtain ⟨rest, later⟩ := ih (fun other member => writable other (by simp [member]))
        (rowIndex + 1)
      have fields : ∀ column ∈ spec.columns, ∃ field, FieldOf floats (frame.cell row) column field := by
        intro column member
        obtain ⟨cell, found, domain⟩ := writable row (by simp) column member
        obtain ⟨field, ok⟩ := writable_iff.mp domain
        refine ⟨field, ?_⟩
        rw [FieldOf, found]
        exact ok
      obtain ⟨line, built⟩ := fillRecord_total fields
        (List.replicate spec.recordWidth (.scalar ' '))
      obtain ⟨encoded, encodes⟩ := Option.isSome_iff_exists.mp (encode_total pads built)
      refine ⟨encoded ++ 10 :: rest, ?_⟩
      rw [writeRows, show buildRecord floats (frame.cell row) spec = .ok line from built]
      simp only [encodes, later]
      rfl

end Files

/-- A write that succeeds is read back row by row and cell by cell, under either width rule; a write
that fails leaves the target as it was, and fails on every cell outside the domain. A frame of the
layout's columns whose cells are all in the domain is written. -/
theorem fixed_width_inverts (floats : FloatText F R) (frame : Frame R) (spec : FixedWidthLayout)
    (target : Option (List UInt8)) :
    (∀ file, writeFixedWidth floats frame spec target = (.ok (), file) →
      ∃ records, file = some records ∧ ∀ exact, ∃ read,
        readFixedWidth floats { spec with exactRecordWidth := exact } none records = .ok read ∧
          List.Forall₂ (fun row cells => ReadsRow floats (frame.cell row) spec.columns cells)
            frame.rows read) ∧
    (∀ failure file, writeFixedWidth floats frame spec target = (.error failure, file) →
      file = target) ∧
    (∀ row ∈ frame.rows, ∀ column ∈ spec.columns, ∀ cell,
      frame.cell row column.name = some cell → ¬ Writable floats column cell →
      ∃ failure, writeFixedWidth floats frame spec target = (.error failure, target)) ∧
    (frame.labels.Nodup → (∀ label, label ∈ frame.labels ↔ label ∈ spec.columns.map (·.name)) →
      (∀ column ∈ spec.columns, Plain column.pad ∧ column.pad.char?.isSome = true) →
      (∀ row ∈ frame.rows, ∀ column ∈ spec.columns, ∀ cell,
        frame.cell row column.name = some cell → Writable floats column cell) →
      ∃ records, writeFixedWidth floats frame spec target = (.ok (), some records)) := by
  have cases : (∃ failure, writeFixedWidth floats frame spec target = (.error failure, target)) ∨
      ∃ records, render floats frame spec = .ok records ∧
        writeFixedWidth floats frame spec target = (.ok (), some records) := by
    rw [writeFixedWidth]
    cases rendered : render floats frame spec with
    | error failure => exact .inl ⟨failure, rfl⟩
    | ok records => exact .inr ⟨records, rfl, rfl⟩
  have present : (∀ column ∈ spec.columns, column.name ∈ frame.labels) → ∀ row ∈ frame.rows,
      ∀ column ∈ spec.columns, (frame.cell row column.name).isSome = true :=
    fun labelled row member column inColumns => cell_isSome member (labelled column inColumns)
  refine ⟨?_, ?_, ?_, ?_⟩
  · intro file written
    rcases cases with ⟨failure, failed⟩ | ⟨records, rendered, published⟩
    · rw [failed] at written
      cases written
    · rw [published] at written
      cases written
      obtain ⟨layout, columns, rows⟩ := render_ok_iff.mp rendered
      refine ⟨records, rfl, fun exact => ?_⟩
      exact read_written (checkLayout_ok_iff.mp layout)
        (present (checkColumns_ok_iff.mp columns).2.1) rows exact 1 0
  · intro failure file failed
    rcases cases with ⟨_, same⟩ | ⟨_, _, published⟩
    · rw [same] at failed
      cases failed
      rfl
    · rw [published] at failed
      cases failed
  · intro row inRows column inColumns cell found outside
    refine cases.resolve_right ?_
    rintro ⟨records, rendered, -⟩
    obtain ⟨layout, -, rows⟩ := render_ok_iff.mp rendered
    exact outside (writeRows_writable (checkLayout_ok_iff.mp layout) rows row inRows column
      inColumns cell found)
  · intro distinct labels pads writable
    have labelled : ∀ column ∈ spec.columns, column.name ∈ frame.labels :=
      fun column member => (labels column.name).mpr (List.mem_map_of_mem member)
    obtain ⟨records, rows⟩ := writeRows_total
      (fun column member => (pads column member).2)
      (fun row inRows column inColumns => by
        obtain ⟨cell, found⟩ := Option.isSome_iff_exists.mp
          (present labelled row inRows column inColumns)
        exact ⟨cell, found, writable row inRows column inColumns cell found⟩) 0
    have rendered : render floats frame spec = .ok records := render_ok_iff.mpr
      ⟨checkLayout_ok_iff.mpr fun column member => (pads column member).1,
        checkColumns_ok_iff.mpr ⟨distinct, labelled, fun label => (labels label).mp⟩, rows⟩
    exact ⟨records, by rw [writeFixedWidth, rendered]⟩

section Orders

/-- Floats with one decimal place: the sign, and the tenths. -/
abbrev Tenths : Type := Bool × Nat

/-- `float(text)` of a sign, digits, a point and one more digit. -/
def Tenths.parse (text : List CodePoint) : Option Tenths :=
  match text.mapM CodePoint.char? with
  | none => none
  | some chars =>
      let body := if chars.head? = some '-' then chars.tail else chars
      let whole := body.takeWhile (· ≠ '.')
      match body.drop (whole.length + 1) with
      | [tenth] =>
          if whole ≠ [] ∧ (whole ++ [tenth]).all (· ∈ asciiDigits) then
            some (chars.head? = some '-', textNat (whole ++ [tenth]))
          else none
      | _ => none

def Tenths.repr (value : Tenths) : List Char :=
  (if value.1 then ['-'] else []) ++ natText (value.2 / 10) ++ ['.', digitChar (value.2 % 10)]

theorem Tenths.mem_repr {value : Tenths} {ch : Char} (member : ch ∈ value.repr) :
    ch ∈ '-' :: '.' :: asciiDigits := by
  rcases List.mem_append.mp member with front | last
  · rcases List.mem_append.mp front with sign | whole
    · split at sign
      · rw [List.mem_singleton.mp sign]
        exact List.mem_cons_self
      · cases sign
    · exact .tail _ (.tail _ (natText_mem_digits _ _ whole))
  · rcases List.mem_cons.mp last with rfl | tenth
    · exact .tail _ List.mem_cons_self
    · rw [List.mem_singleton.mp tenth]
      exact .tail _ (.tail _ (digitChar_mem (Nat.mod_lt _ (by decide))))

def tenths : FloatText Tenths Tenths where
  toFloat := some
  isNan _ := false
  repr := Tenths.repr
  parse := Tenths.parse
  eq decoded original := decoded.2 == original.2 && (decoded.1 == original.1 || decoded.2 == 0)
  negative := Prod.fst
  repr_plain _ :=
    ⟨fun member => absurd (Tenths.mem_repr member) (by decide),
      fun member => absurd (Tenths.mem_repr member) (by decide)⟩

def orderLayout : FixedWidthLayout where
  columns :=
    [{ name := "code", start := 0, width := 3 },
     { name := "count", start := 4, width := 3, type := .int, pad := .scalar '0', align := .right },
     { name := "price", start := 7, width := 5, type := .float, align := .right }]

/-- Integers of an `object` column may be numpy's. -/
def orders : Frame Tenths where
  labels := ["price", "code", "count"]
  rows :=
    [[⟨.number (true, 0), "float"⟩, ⟨.text (CodePoint.ofText ['A', 'B']), "str"⟩,
        ⟨.integer 40, "int64"⟩],
      [⟨.number (false, 125), "float64"⟩, ⟨.text [], "str"⟩, ⟨.integer 0, "int"⟩]]
  rectangular := by decide

/-- A negative zero, an empty text and a zero that is all padding are read back. -/
theorem orders_read_back :
    ∃ records, writeFixedWidth tenths orders orderLayout none = (.ok (), some records) ∧
      ∀ exact, ∃ read,
        readFixedWidth tenths { orderLayout with exactRecordWidth := exact } none records =
          .ok read ∧
        List.Forall₂ (fun row cells => ReadsRow tenths (orders.cell row) orderLayout.columns cells)
          orders.rows read := by
  have written : writeFixedWidth tenths orders orderLayout none =
      (.ok (), some (utf8Encode "AB  040 -0.0\n    000 12.5\n".toList)) := by decide +kernel
  obtain ⟨records, same, reads⟩ :=
    (fixed_width_inverts tenths orders orderLayout none).1 _ written
  cases same
  exact ⟨_, written, reads⟩

end Orders

end DecoyEngine.Profile
