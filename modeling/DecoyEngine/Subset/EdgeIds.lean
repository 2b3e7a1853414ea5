import DecoyEngine.Data.TextSplit

namespace DecoyEngine.Subset

open DecoyEngine.Data

/-! Edge identifiers (`subset/_edges.py`) and what is read back from them (`subset/_policy.py`). -/

/-- The ends of an edge; a column tuple is never empty. -/
structure EdgeEnds where
  parentTable : List Char
  parentColumns : List (List Char)
  childTable : List Char
  childColumns : List (List Char)
  parent_nonempty : parentColumns ≠ []
  child_nonempty : childColumns ≠ []
deriving DecidableEq

def arrow : List Char := [' ', '-', '>', ' ']

/-- `f"{table}.{','.join(columns)}"` -/
def endText (table : List Char) (columns : List (List Char)) : List Char :=
  table ++ '.' :: [','].intercalate columns

def edgeId (edge : EdgeEnds) : List Char :=
  endText edge.parentTable edge.parentColumns ++ arrow ++
    endText edge.childTable edge.childColumns

/-- `text.split(".", 1)[0]` -/
def beforeDot (text : List Char) : List Char := text.takeWhile (· ≠ '.')

/-- `none` where the unpacking of the split fails. -/
def edgeEndpoints (edgeId : List Char) : Option (List Char × List Char) :=
  match splitText arrow edgeId with
  | [left, right] => some (beforeDot left, beforeDot right)
  | _ => none

/-- What `_rows_added_into` reads of one `EdgeStats`. -/
structure EdgeAdditions where
  edgeId : List Char
  rowsAddedDownward : Nat
  rowsAddedUpward : Nat

def charge (stat : EdgeAdditions) (parentTable childTable table : List Char) : Nat :=
  (if childTable = table then stat.rowsAddedDownward else 0) +
    if parentTable = table then stat.rowsAddedUpward else 0

def rowsAddedInto (stat : EdgeAdditions) (table : List Char) : Option Nat :=
  (edgeEndpoints stat.edgeId).map fun ends => charge stat ends.1 ends.2 table

/-- The identifiers of two edges tell them apart, and each gives its tables back. -/
structure EdgeIdsUnambiguous (edge other : EdgeEnds) : Prop where
  injective : edgeId edge = edgeId other → edge = other
  endpoints : edgeEndpoints (edgeId edge) = some (edge.parentTable, edge.childTable)
  otherEndpoints : edgeEndpoints (edgeId other) = some (other.parentTable, other.childTable)
  charged : ∀ stat table, stat.edgeId = edgeId edge →
    rowsAddedInto stat table = some (charge stat edge.parentTable edge.childTable table)

/-- No table has a dot, no name has an arrow, and no arrow begins in the last parent column. -/
structure PlainNames (edge : EdgeEnds) : Prop where
  parentTable : '.' ∉ edge.parentTable
  childTable : '.' ∉ edge.childTable
  names : ∀ name ∈ edge.parentTable :: edge.childTable :: edge.parentColumns ++ edge.childColumns,
    ¬ arrow <:+: name
  last : ∀ column ∈ edge.parentColumns.getLast?, ¬ arrow.dropLast <:+ column

/-- The parts of the columns between their commas. -/
def pieces (columns : List (List Char)) : List (List Char) :=
  columns.flatMap fun column => column.splitOn ','

/-- The same tables, and the same parts grouped to other columns. -/
structure Regrouped (edge other : EdgeEnds) : Prop where
  parentTable : edge.parentTable = other.parentTable
  childTable : edge.childTable = other.childTable
  parentPieces : pieces edge.parentColumns = pieces other.parentColumns
  childPieces : pieces edge.childColumns = pieces other.childColumns
  differ : edge.parentColumns ≠ other.parentColumns ∨ edge.childColumns ≠ other.childColumns

theorem arrow_ne_nil : arrow ≠ [] := nofun

theorem arrow_infix_concat {text : List Char} :
    arrow <:+: text ++ arrow.dropLast ↔ arrow <:+: text ∨ arrow.dropLast <:+ text := by
  have parts : text ++ arrow.dropLast = text ++ [' '] ++ ['-'] ++ ['>'] := by
    simp [arrow, List.append_assoc]
  have last : ∀ ch before, ch ≠ ' ' → ¬ arrow <:+ before ++ [ch] := by
    intro ch before different suffix
    rcases List.suffix_concat_iff.mp suffix with empty | ⟨rest, isArrow, -⟩
    · exact arrow_ne_nil empty
    · have ends := congrArg List.getLast? isArrow
      rw [List.getLast?_concat] at ends
      exact different (Option.some.inj ends).symm
  rw [parts, List.infix_concat_iff, or_iff_right (last _ _ (by decide)), List.infix_concat_iff,
    or_iff_right (last _ _ (by decide)), List.infix_concat_iff, or_comm]
  apply or_congr_right
  constructor
  · intro suffix
    rcases List.suffix_concat_iff.mp suffix with empty | ⟨rest, isArrow, inText⟩
    · exact absurd empty arrow_ne_nil
    · have isRest : rest = arrow.dropLast := by
        rw [isArrow, List.dropLast_concat]
      exact isRest ▸ inText
  · intro suffix
    exact List.suffix_concat_iff.mpr (.inr ⟨arrow.dropLast, rfl, suffix⟩)

theorem intercalate_cons_cons (column next : List Char) (rest : List (List Char)) :
    [','].intercalate (column :: next :: rest) =
      column ++ ',' :: [','].intercalate (next :: rest) := by
  simp [List.intercalate]

variable {columns : List (List Char)}

theorem arrow_infix_columns (nonempty : columns ≠ []) :
    arrow <:+: [','].intercalate columns ↔ ∃ column ∈ columns, arrow <:+: column := by
  induction columns with
  | nil => exact absurd rfl nonempty
  | cons column rest ih =>
      cases rest with
      | nil => simp [List.intercalate]
      | cons next rest =>
          rw [intercalate_cons_cons, infix_append_cons_iff (by decide), ih (List.cons_ne_nil _ _)]
          simp

variable {table : List Char}

theorem arrow_infix_endText (nonempty : columns ≠ []) :
    arrow <:+: endText table columns ↔
      arrow <:+: table ∨ ∃ column ∈ columns, arrow <:+: column := by
  rw [endText, infix_append_cons_iff (by decide), arrow_infix_columns nonempty]

theorem arrow_infix_columns_concat (nonempty : columns ≠ []) :
    arrow <:+: [','].intercalate columns ++ arrow.dropLast ↔
      (∃ column ∈ columns, arrow <:+: column) ∨
        ∃ column ∈ columns.getLast?, arrow.dropLast <:+ column := by
  induction columns with
  | nil => exact absurd rfl nonempty
  | cons column rest ih =>
      cases rest with
      | nil =>
          have single : [','].intercalate [column] = column := by simp [List.intercalate]
          rw [single, arrow_infix_concat]
          simp
      | cons next rest =>
          rw [intercalate_cons_cons, List.append_assoc, List.cons_append,
            infix_append_cons_iff (by decide), ih (List.cons_ne_nil _ _)]
          simp [or_assoc, List.getLast?_cons_cons]

theorem arrow_infix_endText_concat (nonempty : columns ≠ []) :
    arrow <:+: endText table columns ++ arrow.dropLast ↔
      arrow <:+: table ∨ (∃ column ∈ columns, arrow <:+: column) ∨
        ∃ column ∈ columns.getLast?, arrow.dropLast <:+ column := by
  rw [endText, List.append_assoc, List.cons_append, infix_append_cons_iff (by decide),
    arrow_infix_columns_concat nonempty]

variable {edge : EdgeEnds}

theorem plainNames_iff :
    PlainNames edge ↔ '.' ∉ edge.parentTable ∧ '.' ∉ edge.childTable ∧
      ¬ arrow <:+: endText edge.parentTable edge.parentColumns ++ arrow.dropLast ∧
        ¬ arrow <:+: endText edge.childTable edge.childColumns := by
  rw [arrow_infix_endText_concat edge.parent_nonempty, arrow_infix_endText edge.child_nonempty]
  constructor
  · intro plain
    refine ⟨plain.parentTable, plain.childTable, ?_, ?_⟩
    · intro found
      rcases found with inTable | ⟨column, member, inColumn⟩ | ⟨column, isLast, begins⟩
      · exact plain.names _ (by simp) inTable
      · exact plain.names column (by simp [member]) inColumn
      · exact plain.last column isLast begins
    · intro found
      rcases found with inTable | ⟨column, member, inColumn⟩
      · exact plain.names _ (by simp) inTable
      · exact plain.names column (by simp [member]) inColumn
  · intro ⟨parentTable, childTable, parent, child⟩
    rw [not_or, not_or] at parent
    rw [not_or] at child
    refine ⟨parentTable, childTable, fun name member => ?_, fun column isLast begins => ?_⟩
    · simp only [List.cons_append, List.mem_cons, List.mem_append] at member
      rcases member with isParent | isChild | inParent | inChild
      · exact isParent ▸ parent.1
      · exact isChild ▸ child.1
      · exact fun inColumn => parent.2.1 ⟨name, inParent, inColumn⟩
      · exact fun inColumn => child.2 ⟨name, inChild, inColumn⟩
    · exact parent.2.2 ⟨column, isLast, begins⟩

theorem beforeDot_endText (plain : '.' ∉ table) (columns : List (List Char)) :
    beforeDot (endText table columns) = table := by
  have kept : ∀ ch ∈ table, decide (ch ≠ '.') = true := by
    intro ch member
    exact decide_eq_true fun isDot => plain (isDot ▸ member)
  rw [beforeDot, endText, List.takeWhile_append_of_pos kept, List.takeWhile_cons_of_neg (by simp),
    List.append_nil]

theorem dot_not_mem_beforeDot (text : List Char) : '.' ∉ beforeDot text := by
  intro member
  have kept : (text.takeWhile fun ch => decide (ch ≠ '.')).all (fun ch => decide (ch ≠ '.')) :=
    List.all_takeWhile
  exact of_decide_eq_true (List.all_eq_true.mp kept '.' member) rfl

theorem splitText_edgeId (plain : PlainNames edge) :
    splitText arrow (edgeId edge) = [endText edge.parentTable edge.parentColumns,
      endText edge.childTable edge.childColumns] := by
  obtain ⟨-, -, before, after⟩ := plainNames_iff.mp plain
  exact (splitText_eq_pair arrow_ne_nil).mpr ⟨rfl, before, after⟩

theorem endpoints_of_plain (plain : PlainNames edge) :
    edgeEndpoints (edgeId edge) = some (edge.parentTable, edge.childTable) := by
  rw [edgeEndpoints, splitText_edgeId plain]
  dsimp only
  rw [beforeDot_endText plain.parentTable, beforeDot_endText plain.childTable]

/-- Two splits of one identifier: the first arrow cannot come later than the one of the edge, and
where it comes earlier the child table is not read back. -/
theorem split_at_edge {left right after : List Char} (isAfter : after = endText table columns)
    {before : List Char} (same : left ++ arrow ++ right = before ++ arrow ++ after)
    (first : ¬ arrow <:+: left ++ arrow.dropLast) (last : ¬ arrow <:+: right)
    (isTable : beforeDot right = table) : left = before ∧ right = after := by
  rw [List.append_assoc, List.append_assoc] at same
  rcases List.append_eq_append_iff.mp same with ⟨more, isBefore, rest⟩ | ⟨more, isLeft, rest⟩
  · -- the first arrow ends before, in or at the arrow of the edge
    match more with
    | [] =>
        have isRight : right = after := List.append_cancel_left rest
        exact ⟨by rw [isBefore, List.append_nil], isRight⟩
    | [_] => simp [arrow] at rest
    | [_, _] => simp [arrow] at rest
    | [_, _, _] =>
        have shifted : right = '-' :: '>' :: ' ' :: after := by
          simp only [arrow, List.cons_append, List.nil_append, List.cons.injEq] at rest
          exact rest.2.2.2.2
        have plain : '.' ∉ table := isTable ▸ dot_not_mem_beforeDot right
        have restored : beforeDot after = table := isAfter ▸ beforeDot_endText plain columns
        have longer : beforeDot right = '-' :: '>' :: ' ' :: beforeDot after := by
          rw [shifted]
          simp [beforeDot]
        rw [isTable, restored] at longer
        have lengths := congrArg List.length longer
        simp only [List.length_cons] at lengths
        omega
    | _ :: _ :: _ :: _ :: more =>
        simp only [arrow, List.cons_append, List.nil_append, List.cons.injEq] at rest
        obtain ⟨rfl, rfl, rfl, rfl, isRight⟩ := rest
        refine absurd ?_ last
        rw [isRight]
        exact ⟨more, after, by simp [arrow]⟩
  · cases more with
    | nil =>
        rw [List.append_nil] at isLeft
        exact ⟨isLeft, (List.append_cancel_left rest).symm⟩
    | cons head more =>
        refine absurd ?_ first
        have isPrefix : arrow <+: head :: more ++ arrow.dropLast := by
          have other : head :: more ++ arrow.dropLast <+: arrow ++ after := by
            refine ⟨' ' :: right, ?_⟩
            rw [rest]
            simp [arrow]
          apply List.prefix_of_prefix_length_le (List.prefix_append arrow after) other
          simp [arrow]
        rw [isLeft, List.append_assoc]
        exact isPrefix.isInfix.trans (List.suffix_append _ _).isInfix

theorem endpoints_iff :
    edgeEndpoints (edgeId edge) = some (edge.parentTable, edge.childTable) ↔ PlainNames edge := by
  refine ⟨fun endpoints => ?_, endpoints_of_plain⟩
  rw [edgeEndpoints] at endpoints
  split at endpoints
  · rename_i left right split
    obtain ⟨isParent, isChild⟩ := Prod.mk.inj (Option.some.inj endpoints)
    obtain ⟨same, first, last⟩ := (splitText_eq_pair arrow_ne_nil).mp split
    obtain ⟨isLeft, isRight⟩ := split_at_edge rfl same.symm first last isChild
    rw [isLeft] at first
    rw [isRight] at last
    rw [plainNames_iff]
    exact ⟨isParent ▸ dot_not_mem_beforeDot left, isChild ▸ dot_not_mem_beforeDot right, first,
      last⟩
  · cases endpoints

theorem splitOn_intercalate_pieces (nonempty : columns ≠ []) :
    ([','].intercalate columns).splitOn ',' = pieces columns := by
  induction columns with
  | nil => exact absurd rfl nonempty
  | cons column rest ih =>
      cases rest with
      | nil => simp [List.intercalate, pieces]
      | cons next rest =>
          rw [intercalate_cons_cons, List.splitOn_append_cons_self, ih (List.cons_ne_nil _ _)]
          rfl

theorem intercalate_eq_iff {others : List (List Char)} (nonempty : columns ≠ [])
    (otherNonempty : others ≠ []) :
    [','].intercalate columns = [','].intercalate others ↔ pieces columns = pieces others := by
  rw [← splitOn_intercalate_pieces nonempty, ← splitOn_intercalate_pieces otherNonempty]
  constructor
  · exact congrArg _
  · intro same
    have back := congrArg ([','].intercalate) same
    rwa [List.intercalate_splitOn, List.intercalate_splitOn] at back

theorem endText_eq_iff {others : List (List Char)} (nonempty : columns ≠ [])
    (otherNonempty : others ≠ []) :
    endText table columns = endText table others ↔ pieces columns = pieces others := by
  rw [endText, endText, List.append_cancel_left_eq, List.cons.injEq, and_iff_right rfl,
    intercalate_eq_iff nonempty otherNonempty]

theorem edgeId_eq_iff {other : EdgeEnds} (plain : PlainNames edge) (otherPlain : PlainNames other) :
    edgeId edge = edgeId other ↔
      edge.parentTable = other.parentTable ∧ edge.childTable = other.childTable ∧
        pieces edge.parentColumns = pieces other.parentColumns ∧
        pieces edge.childColumns = pieces other.childColumns := by
  constructor
  · intro same
    have ends := endpoints_of_plain plain
    rw [same, endpoints_of_plain otherPlain] at ends
    obtain ⟨parent, child⟩ := Prod.mk.inj (Option.some.inj ends)
    have texts := splitText_edgeId plain
    rw [same, splitText_edgeId otherPlain] at texts
    obtain ⟨parentText, rest⟩ := List.cons.inj texts
    obtain ⟨childText, -⟩ := List.cons.inj rest
    rw [parent, eq_comm, endText_eq_iff edge.parent_nonempty other.parent_nonempty] at parentText
    rw [child, eq_comm, endText_eq_iff edge.child_nonempty other.child_nonempty] at childText
    exact ⟨parent.symm, child.symm, parentText, childText⟩
  · intro ⟨parent, child, parentPieces, childPieces⟩
    rw [edgeId, edgeId, parent, child,
      (endText_eq_iff edge.parent_nonempty other.parent_nonempty).mpr parentPieces,
      (endText_eq_iff edge.child_nonempty other.child_nonempty).mpr childPieces]

/-- The identifiers of two edges are unambiguous exactly where their names are plain and they are
not one edge grouped in two ways. -/
theorem edge_ids_unambiguous_iff (edge other : EdgeEnds) :
    EdgeIdsUnambiguous edge other ↔
      PlainNames edge ∧ PlainNames other ∧ ¬ Regrouped edge other := by
  constructor
  · intro unambiguous
    have plain := endpoints_iff.mp unambiguous.endpoints
    have otherPlain := endpoints_iff.mp unambiguous.otherEndpoints
    refine ⟨plain, otherPlain, fun regrouped => ?_⟩
    have same := unambiguous.injective ((edgeId_eq_iff plain otherPlain).mpr
      ⟨regrouped.parentTable, regrouped.childTable, regrouped.parentPieces, regrouped.childPieces⟩)
    subst same
    exact regrouped.differ.elim (fun differ => differ rfl) fun differ => differ rfl
  · intro ⟨plain, otherPlain, notRegrouped⟩
    refine ⟨fun same => ?_, endpoints_of_plain plain, endpoints_of_plain otherPlain, ?_⟩
    · obtain ⟨parent, child, parentPieces, childPieces⟩ :=
        (edgeId_eq_iff plain otherPlain).mp same
      by_contra different
      refine notRegrouped ⟨parent, child, parentPieces, childPieces, ?_⟩
      by_contra agreed
      rw [not_or, not_not, not_not] at agreed
      obtain ⟨parentTable, parentColumns, childTable, childColumns, _, _⟩ := edge
      obtain ⟨otherTable, otherColumns, otherChild, otherChildColumns, _, _⟩ := other
      dsimp only at parent child agreed
      obtain ⟨rfl, rfl⟩ := agreed
      subst parent child
      exact different rfl
    · intro stat table isEdge
      rw [rowsAddedInto, isEdge, endpoints_of_plain plain]
      rfl

/-- An edge from a table that is named with its schema. -/
def schemaEdge : EdgeEnds where
  parentTable := ['c', 'r', 'm', '.', 'u', 's', 'e', 'r', 's']
  parentColumns := [['i', 'd']]
  childTable := ['o', 'r', 'd', 'e', 'r', 's']
  childColumns := [['u', 's', 'e', 'r']]
  parent_nonempty := nofun
  child_nonempty := nofun

/-- Its parent table is read back as the schema. -/
theorem schema_table_lost :
    edgeEndpoints (edgeId schemaEdge) = some (['c', 'r', 'm'], schemaEdge.childTable) ∧
      ¬ EdgeIdsUnambiguous schemaEdge schemaEdge := by
  have parts : splitText arrow (edgeId schemaEdge) =
      [endText schemaEdge.parentTable schemaEdge.parentColumns,
        endText schemaEdge.childTable schemaEdge.childColumns] :=
    (splitText_eq_pair arrow_ne_nil).mpr ⟨rfl, by decide, by decide⟩
  have endpoints : edgeEndpoints (edgeId schemaEdge) =
      some (['c', 'r', 'm'], schemaEdge.childTable) := by
    rw [edgeEndpoints, parts]
    decide
  refine ⟨endpoints, fun unambiguous => ?_⟩
  have other := unambiguous.endpoints
  rw [endpoints] at other
  exact absurd other (by decide)

end DecoyEngine.Subset
