import DecoyEngine.Data.PyRepr
import DecoyEngine.Execution.FkJoinTokens

namespace DecoyEngine.Execution.OutOfCore

open DecoyEngine.Data

/-! The Arrow column of the resolved keys (`_join.py`): each result batch becomes an array of its
own type, and the chunks of a column are brought to one type before they are concatenated. -/

/-- An Arrow array: its type, and what `to_pylist` gives. -/
structure FkArray (T : Type) where
  type : T
  values : List FkComponent
deriving DecidableEq

/-- What the join asks of pyarrow, over the types it infers.  `none` stands for an
`ArrowException`. -/
structure FkArrow (T : Type) where
  typeName : T → String
  isNull : T → Bool
  isDecimal : T → Bool
  isInteger : T → Bool
  isFloating : T → Bool
  -- `pa.array(values, from_pandas=True)`; `none` for an `OverflowError` too
  infer : List FkComponent → Option (FkArray T)
  -- `pa.unify_schemas` with permissive promotion
  unify : List T → Option T
  cast : FkArray T → T → Option (FkArray T)
  castUnsafe : FkArray T → T → FkArray T

inductive FkChunkError where
  -- `fk_output_array`: no one array holds the values of a batch
  | unrepresentable
  -- `cast_fk_chunk`: an int that no double holds
  | intOutsideFloat (source target : String)
  -- `_unified_chunk_type`
  | mixedDecimal (types : List String)
  -- an uncoded Arrow error
  | arrowException
deriving Repr, DecidableEq

def FkChunkError.code : FkChunkError → Option String
  | .arrowException => none
  | _ => some "out_of_core_fk_key_dtype_unsupported"

/-- The message of a coded refusal; Arrow's own texts are not modelled. -/
def FkChunkError.message : FkChunkError → Option String
  | .unrepresentable =>
      some ("out-of-core FK output batch mixes key values Arrow cannot " ++
        "reconcile into one array (e.g. a matched float parent value " ++
        "with an orphan integer child key beyond exactly-representable " ++
        "float precision, > 2**53, or a matched unsigned key beyond " ++
        "int64's range sharing a batch with a signed-range value); " ++
        "rejected rather than crashing with a raw ArrowInvalid/" ++
        "OverflowError.")
  | .intOutsideFloat source target =>
      some ("out-of-core FK output has an integer key outside the " ++
        s!"exactly-representable float range casting {source} -> " ++
        s!"{target}; the whole-column type is float only because a " ++
        "fractional value was possible, and rounding the key would " ++
        "drift from the pandas oracle's exact integer, so it is " ++
        "rejected rather than published rounded.")
  | .mixedDecimal types =>
      some ("out-of-core FK output mixes decimal and non-decimal key " ++
        "values (" ++ ", ".intercalate types ++ "); this " ++
        "combination has no promotion byte-identical to whole-column " ++
        "inference and is rejected rather than allowed to drift.")
  | .arrowException => none

section Columns

variable {T : Type} [DecidableEq T] (arrow : FkArrow T)

/-- `fk_output_array` without a target type. -/
def fkOutputArray (values : List FkComponent) : Except FkChunkError (FkArray T) :=
  match arrow.infer values with
  | some array => .ok array
  | none => .error .unrepresentable

def castFkChunk (target : T) (chunk : FkArray T) : Except FkChunkError (FkArray T) :=
  if chunk.type = target then .ok chunk
  else if arrow.isInteger chunk.type && arrow.isFloating target then
    let widened := arrow.castUnsafe chunk target
    if arrow.castUnsafe widened chunk.type ≠ chunk then
      .error (.intOutsideFloat (arrow.typeName chunk.type) (arrow.typeName target))
    else .ok widened
  else
    match arrow.cast chunk target with
    | some cast => .ok cast
    | none => .error .arrowException

def sortedByName (types : List T) : List T :=
  types.insertionSort fun left right => arrow.typeName left ≤ arrow.typeName right

/-- The type mixed chunks are promoted to; `none` leaves the refusal to `concat_arrays`. -/
def unifiedChunkType (types : List T) : Except FkChunkError (Option T) :=
  let nonNull := types.filter fun type => !arrow.isNull type
  if nonNull.length ≤ 1 then .ok nonNull.head?
  else
    let decimals := nonNull.countP arrow.isDecimal
    if 0 < decimals ∧ decimals < nonNull.length then
      .error (.mixedDecimal ((sortedByName arrow nonNull).map arrow.typeName))
    else .ok (arrow.unify (sortedByName arrow nonNull))

/-- `pa.concat_arrays`: arrays of one type only. -/
def concatArrays (chunks : List (FkArray T)) : Except FkChunkError (FkArray T) :=
  match chunks with
  | [] => .error .arrowException
  | first :: rest =>
      if rest.all fun chunk => chunk.type = first.type then
        .ok ⟨first.type, (first :: rest).flatMap FkArray.values⟩
      else .error .arrowException

/-- `_concat_fk_chunks`: the arrays of the batches of one column as one array. Equal types are
concatenated; decimals that mix with other types and integers that a cast would round are refused;
the rest is left to Arrow. -/
def concatFkChunks (chunks : List (FkArray T)) : Except FkChunkError (FkArray T) :=
  if chunks = [] then
    match arrow.infer [] with
    | some array => .ok array
    | none => .error .arrowException
  else
    let types := (chunks.map FkArray.type).dedup
    if 1 < types.length then
      match unifiedChunkType arrow types with
      | .error refusal => .error refusal
      | .ok none => concatArrays chunks
      | .ok (some target) =>
          match chunks.mapM (castFkChunk arrow target) with
          | .error refusal => .error refusal
          | .ok chunks => concatArrays chunks
    else concatArrays chunks

/-- The values of component `idx` over some rows. -/
def componentColumn (keys : List (Option (List FkComponent))) (idx : Nat) : List FkComponent :=
  keys.map fun key => (key.getD []).getD idx .null

/-- One array per component, all of them built before any is kept. -/
def batchArrays (count : Nat) (keys : List (Option (List FkComponent))) :
    Except FkChunkError (List (FkArray T)) :=
  (List.range count).mapM fun idx => fkOutputArray arrow (componentColumn keys idx)

/-- The chunks of each component over all result batches, as one array. -/
def concatColumns (count : Nat) (outputs : List (List (FkArray T))) :
    Except FkChunkError (List (FkArray T)) :=
  (List.range count).mapM fun idx =>
    concatFkChunks arrow (outputs.filterMap fun output => output[idx]?)

/-- What Arrow makes of the keys of a child, given the result batches they come in. -/
def publishColumns (count : Nat) (batches : List (List (Option (List FkComponent)))) :
    Except FkChunkError (List (FkArray T)) :=
  batches.mapM (batchArrays arrow count) >>= concatColumns arrow count

end Columns

end DecoyEngine.Execution.OutOfCore
