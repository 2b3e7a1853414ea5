import DecoyEngine.Execution.FkJoinTokens
import DecoyEngine.Execution.FkResolve

namespace DecoyEngine.Execution

open DecoyEngine.Data

/-! The in-memory route: the parent map of the pandas adapter
(`_pandas_adapter.py::_parent_map`) and the child keys it is asked about. -/

/-- What `to_pylist` gives for an Arrow cell: a null is `None`, never NaT, and an int fits a
signed or an unsigned 64-bit column. -/
def FkComponent.isArrowCell : FkComponent → Bool
  | .notATime => false
  | .int value => -2 ^ 63 ≤ value && value < 2 ^ 64
  | _ => true

abbrev ArrowCell := { cell : FkComponent // cell.isArrowCell = true }

structure ParentRow where
  source : List ArrowCell
  masked : List FkComponent

/-- `pd.isna`. -/
def pdIsna (cell : ArrowCell) : Bool := cell.val.isNullLike

/-- A normalized key as the object it is. -/
def KeyValue.toObject : KeyValue → FkComponent
  | .nullFkKey => .null
  | .int value => .int value
  | .float value => .float (.number value)
  | .decimal value => .decimal value
  | .str text => .str text
  | .bytes value => .bytes value
  | .date ordinal => .date ordinal
  | .timestamp value => .timestamp value
  | .notATime => .notATime

def normalizedKey (source : List ArrowCell) : List FkComponent :=
  source.map fun cell => (fkKeyValue cell.val).toObject

/-- The class of equal objects an object belongs to: numbers by value, others by themselves. -/
inductive PyIdentity where
  | number (value : PyNumber)
  | object (value : FkComponent)
deriving DecidableEq

def pyIdentity (value : FkComponent) : PyIdentity :=
  match value.number with
  | some number => .number number
  | none => .object value

def tupleIdentity (key : List FkComponent) : List PyIdentity := key.map pyIdentity

/-- `out[src_t] = masked`, row by row; a key with a null component cannot be referenced. -/
def parentMap (rows : List ParentRow) : Dict (List PyIdentity) (List FkComponent) :=
  Dict.empty.sets (rows.filterMap fun row =>
    if row.source.any pdIsna then none
    else some (tupleIdentity (normalizedKey row.source), row.masked))

def childKey (row : List ArrowCell) : Option (List FkComponent) :=
  if row.any pdIsna then none else some (normalizedKey row)

/-- The child column of one edge, resolved in memory. -/
def resolveInMemory (parents : List ParentRow) (children : List (List ArrowCell))
    (edge : Relationships.RelationshipEdge) (remap : List FkComponent → List FkComponent) :
    Except ExecutionError (Resolved (List FkComponent)) :=
  resolveFkKeys tupleIdentity (children.map childKey) (parentMap parents) edge (List.map remap)
    Dict.empty

theorem ArrowCell.ne_notATime (cell : ArrowCell) : cell.val ≠ .notATime := by
  intro isTime
  have held := cell.property
  rw [isTime] at held
  cases held

theorem pdIsna_eq (cell : ArrowCell) : pdIsna cell = cell.val.isNull := by
  rw [pdIsna, FkComponent.isNullLike, decide_eq_false (ArrowCell.ne_notATime cell), Bool.or_false]

/-- An int of an Arrow column always prints, so every key of such cells has a token. -/
theorem fkJoinKeyTuple_arrow (key : List ArrowCell) :
    fkJoinKeyTuple (key.map Subtype.val) = .ok (joinTextTuple (key.map Subtype.val)) := by
  have short : ∀ cell : ArrowCell, cell.val.isLongInt = false := by
    intro cell
    obtain ⟨component, held⟩ := cell
    cases component with
    | int value =>
        simp only [FkComponent.isArrowCell, Bool.and_eq_true, decide_eq_true_eq] at held
        have bound : value.natAbs < 10 ^ 20 := by omega
        have limit : 10 ^ 20 ≤ 10 ^ intMaxStrDigits :=
          Nat.pow_le_pow_right (by decide) (by decide)
        simp only [FkComponent.isLongInt, Nat.not_le.mpr (bound.trans_le limit), decide_false]
    | _ => rfl
  have none' : (key.map Subtype.val).any FkComponent.isLongInt = false := by
    rw [List.any_eq_false]
    intro component member
    obtain ⟨cell, _, rfl⟩ := List.mem_map.mp member
    simp [short cell]
  rw [fkJoinKeyTuple_eq, none']
  rfl

theorem number_toObject (value : KeyValue) : value.toObject.number = value.number := by
  cases value with
  | float value => cases value <;> rfl
  | _ => rfl

theorem toObject_injective {left right : KeyValue} (leftValue : left ≠ .nullFkKey)
    (same : left.toObject = right.toObject) : left = right := by
  cases left <;> cases right <;> simp_all [KeyValue.toObject]

theorem pyIdentity_toObject_iff {left right : KeyValue} (leftValue : left ≠ .nullFkKey) :
    pyIdentity left.toObject = pyIdentity right.toObject ↔ sameKey left right := by
  rw [pyIdentity, pyIdentity, number_toObject, number_toObject]
  cases leftIs : left.number with
  | none =>
      cases rightIs : right.number with
      | none =>
          rw [pyEq_of_not_number leftIs rightIs]
          simp only [PyIdentity.object.injEq]
          exact ⟨toObject_injective leftValue, fun same => by rw [same]⟩
      | some number =>
          simp only [reduceCtorEq, false_iff, sameKey, pyEq, leftIs, rightIs, Bool.false_eq_true,
            false_or, not_and]
          intro _ isTime
          rw [isTime] at rightIs
          cases rightIs
  | some number =>
      cases rightIs : right.number with
      | none =>
          simp only [reduceCtorEq, false_iff, sameKey, pyEq, leftIs, rightIs, Bool.false_eq_true,
            false_or, not_and]
          intro isTime
          rw [isTime] at leftIs
          cases leftIs
      | some number' =>
          rw [sameKey_of_number leftIs rightIs, leftIs, rightIs]
          simp

theorem tupleIdentity_eq_iff {left right : List ArrowCell} (leftKeys : left.any pdIsna = false)
    (rightKeys : right.any pdIsna = false) :
    tupleIdentity (normalizedKey left) = tupleIdentity (normalizedKey right) ↔
      joinTextTuple (left.map Subtype.val) = joinTextTuple (right.map Subtype.val) := by
  rw [joinTextTuple_eq_iff]
  induction left generalizing right with
  | nil => cases right <;> simp [tupleIdentity, normalizedKey]
  | cons cell left ih =>
      cases right with
      | nil => simp [tupleIdentity, normalizedKey]
      | cons other right =>
          simp only [List.any_cons, Bool.or_eq_false_iff, pdIsna_eq] at leftKeys rightKeys
          have value : fkKeyValue cell.val ≠ .nullFkKey := by
            rw [Ne, fkKeyValue_null_iff, leftKeys.1]
            exact Bool.false_ne_true
          have rest := ih (by simpa [pdIsna_eq] using leftKeys.2)
            (by simpa [pdIsna_eq] using rightKeys.2)
          have first := (pyIdentity_toObject_iff value).trans
            (sameKey_fkKeyValue_iff cell.val other.val)
          simp only [tupleIdentity, normalizedKey, List.map_cons, List.cons.injEq,
            List.forall₂_cons] at rest ⊢
          rw [first, rest]

end DecoyEngine.Execution
