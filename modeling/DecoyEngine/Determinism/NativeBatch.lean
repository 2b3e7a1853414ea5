import DecoyEngine.Data.BytesText
import DecoyEngine.Data.RowLoop
import DecoyEngine.Determinism.Derive
import DecoyEngine.Generation.Canonicalize

namespace DecoyEngine.Determinism.Native

open DecoyEngine.Data DecoyEngine.Generation

/-! The batch kernels over one Arrow array (`decoy-engine-native/src/batch.rs`): the keyed hash,
the raw hash of a string column, and the pool index. -/

/-- The type of a column; `other` is any type that no kernel reads. -/
inductive DataType where
  | boolean
  | integer (type : IntType)
  | utf8
  | largeUtf8
  | timestamp (unit : TimeUnit) (timezone : Option String)
  | other (debug : String)
deriving Repr, DecidableEq

def DataType.Holds : DataType → Cell → Prop
  | .boolean, .boolean _ => True
  | .integer type, .integer value => value.type = type
  | .utf8, .text _ => True
  | .largeUtf8, .text _ => True
  | .timestamp unit timezone, .timestamp unit' timezone' _ => unit' = unit ∧ timezone' = timezone
  | .other _, _ => True
  | _, _ => False

def IntType.debug : IntType → String
  | .int8 => "Int8"
  | .int16 => "Int16"
  | .int32 => "Int32"
  | .int64 => "Int64"
  | .uint8 => "UInt8"
  | .uint16 => "UInt16"
  | .uint32 => "UInt32"
  | .uint64 => "UInt64"

def TimeUnit.debug : TimeUnit → String
  | .second => "Second"
  | .millisecond => "Millisecond"
  | .microsecond => "Microsecond"
  | .nanosecond => "Nanosecond"

/-- The type's `Debug` text. -/
def DataType.debug : DataType → String
  | .boolean => "Boolean"
  | .integer type => IntType.debug type
  | .utf8 => "Utf8"
  | .largeUtf8 => "LargeUtf8"
  | .timestamp unit none => s!"Timestamp({TimeUnit.debug unit}, None)"
  | .timestamp unit (some timezone) => s!"Timestamp({TimeUnit.debug unit}, Some(\"{timezone}\"))"
  | .other debug => debug

/-- `is_admitted_type`. -/
def DataType.isAdmittedType : DataType → Bool
  | .boolean | .integer _ | .utf8 | .largeUtf8 | .timestamp _ (some _) => true
  | .timestamp _ none | .other _ => false

/-- A column: a value of its type or a null in every slot. -/
structure ArrowArray where
  dataType : DataType
  slots : List (Option Cell)
  typed : ∀ cell, some cell ∈ slots → dataType.Holds cell

/-- `downcast_ref::<StringArray>()`. -/
def ArrowArray.asStrings (array : ArrowArray) : Option (List (Option String)) :=
  match array.dataType with
  | .utf8 => some (array.slots.map fun slot =>
      match slot with
      | some (.text value) => some value
      | _ => none)
  | _ => none

/-- What a batch kernel raises, each with the code and the detail of the crate. -/
inductive BatchError where
  | canon (error : Generation.Native.CanonError)
  | derive (error : DeriveError)
  -- the `DeriveError` of building the shared thread pool
  | pool (code detail : String)
  | maskKeyRequired
  | offsetOverflow
  | poolSizeInvalid
  | poolSizeOverflow
  | poolSizeType
  | rawInputNotString
  | rawHexCharsInvalid
deriving Repr, DecidableEq

def BatchError.code : BatchError → String
  | .canon error => error.code
  | .derive error => error.code
  | .pool code _ => code
  | .maskKeyRequired => "mask_key_required"
  | .offsetOverflow => "native_offset_overflow"
  | .poolSizeInvalid => "pool_size_invalid"
  | .poolSizeOverflow => "pool_size_overflow"
  | .poolSizeType => "pool_size_type"
  | .rawInputNotString => "group_key_input_not_string"
  | .rawHexCharsInvalid => "group_key_hex_chars_invalid"

def BatchError.detail : BatchError → String
  | .canon error => error.detail
  | .derive error => error.detail
  | .pool _ detail => detail
  | .maskKeyRequired =>
      "mask_key is required and must be non-empty; refusing to emit unkeyed output"
  | .offsetOverflow =>
      "batch output exceeds the i32 StringArray offset limit (~2GB); split the batch"
  | .poolSizeInvalid => "pool_size must be >= 1"
  | .poolSizeOverflow => "pool_size exceeds the maximum of 2**56"
  | .poolSizeType => "pool_size must be an int"
  | .rawInputNotString =>
      "derive_hex_raw_batch accepts only a pa.string() array; got another Arrow type"
  | .rawHexCharsInvalid => "hex_chars must be an even count in [2, 64]"

/-- How a batch ends without a result. -/
inductive BatchFailure where
  | error (error : BatchError)
  | panic
deriving Repr, DecidableEq

def hexLen : Nat := 64

def pythonSliceStop (totalLen : Nat) : Option Int → Nat
  | none => totalLen
  | some stop => if 0 ≤ stop then min stop.toNat totalLen else (max (totalLen + stop) 0).toNat

def hexTokenInto (digest : Bytes) (truncate : Option Int) : String :=
  String.ofList ((hexText digest).take (pythonSliceStop hexLen truncate))

def hexPrefixInto (digest : Bytes) (outputBytes : Nat) : String :=
  String.ofList (hexText (digest.take outputBytes))

/-- The width of the token of 32 zero bytes. -/
def constantOutputWidth (truncate : Option Int) : Nat :=
  (utf8 (hexTokenInto (List.replicate 32 0) truncate)).length

section Ranges

variable {α β γ : Type}

def nonNull (slots : List (Option γ)) : Nat := slots.countP Option.isSome

/-- The loop of `balanced_row_ranges` from row `i`: `closed` ranges are done, the open one starts
at `rowLo`.  The last range takes what is left. -/
def closeRanges (nranges perRange : Nat) :
    (i rowLo seenNonNull quota closed : Nat) → List (Option γ) → List (Nat × Nat)
  | i, rowLo, _, _, _, [] => [(rowLo, i)]
  | i, rowLo, seenNonNull, quota, closed, slot :: slots =>
      let seenNonNull := if slot.isSome then seenNonNull + 1 else seenNonNull
      let isLastRange := closed = nranges - 1
      if ¬ isLastRange ∧ quota ≤ seenNonNull then
        (rowLo, i + 1) ::
          closeRanges nranges perRange (i + 1) (i + 1) seenNonNull (quota + perRange) (closed + 1)
            slots
      else closeRanges nranges perRange (i + 1) rowLo seenNonNull quota closed slots

/-- The row ranges of the threads. `clamp` panics without a valid row, where no kernel calls it. -/
def balancedRowRanges (slots : List (Option γ)) (threads : Nat) : List (Nat × Nat) :=
  let nranges := min (max threads 1) (nonNull slots)
  let perRange := (nonNull slots + nranges - 1) / nranges
  closeRanges nranges perRange 0 0 0 perRange 0 slots

def i32Max : Nat := 2 ^ 31 - 1

/-- The offsets after `acc`, and the last of them; `checked_add` fails past `i32::MAX`. -/
def offsetsFrom (width : Nat) : (acc : Nat) → List (Option γ) → Except BatchError (List Nat × Nat)
  | acc, [] => .ok ([], acc)
  | acc, slot :: slots =>
      let next := if slot.isSome then acc + width else acc
      if i32Max < next then .error .offsetOverflow
      else (offsetsFrom width next slots).map fun (offsets, total) => (next :: offsets, total)

/-- A range with the window of the output it fills. -/
structure RangeTask (α : Type) where
  rowLo : Nat
  rowHi : Nat
  out : List α

/-- `split_at_mut`; `none` is its panic. -/
def splitAtMut (count : Nat) (values : List α) : Option (List α × List α) :=
  if count ≤ values.length then some (values.take count, values.drop count) else none

/-- One window after the other off the buffer, `size` elements for a range; and what remains. -/
def carve (size : Nat × Nat → Option Nat) :
    List α → List (Nat × Nat) → Option (List (RangeTask α) × List α)
  | values, [] => some ([], values)
  | values, range :: ranges => do
      let count ← size range
      let (head, tail) ← splitAtMut count values
      let (tasks, remaining) ← carve size tail ranges
      some (⟨range.1, range.2, head⟩ :: tasks, remaining)

def partitionIntoTasks (offsets : List Nat) (values : List α) (ranges : List (Nat × Nat)) :
    Option (List (RangeTask α) × List α) :=
  carve (fun range => do
    let hi ← offsets[range.2]?
    let lo ← offsets[range.1]?
    some (hi - lo)) values ranges

def partitionIndexTasks (values : List α) (ranges : List (Nat × Nat)) :
    Option (List (RangeTask α) × List α) :=
  carve (fun range => some (range.2 - range.1)) values ranges

/-- `out[cursor..cursor + piece.len()].copy_from_slice(piece)`; `none` is its panic. -/
def copyFromSlice (out : List α) (cursor : Nat) (piece : List α) : Option (List α) :=
  if cursor + piece.length ≤ out.length then
    some (out.take cursor ++ piece ++ out.drop (cursor + piece.length))
  else none

/-- The loop of `fill_range` and `fill_raw_range` from row `i`: the filled window, or the first
failing row; `none` is a panic.  A null row writes nothing. -/
def fillRows (row : γ → Except BatchError (Option (List α))) :
    (i cursor : Nat) → (out : List α) → List γ → Option (Except (Nat × BatchError) (List α))
  | _, _, out, [] => some (.ok out)
  | i, cursor, out, slot :: slots =>
      match row slot with
      | .error error => some (.error (i, error))
      | .ok none => fillRows row (i + 1) cursor out slots
      | .ok (some token) =>
          match copyFromSlice out cursor token with
          | none => none
          | some out => fillRows row (i + 1) (cursor + token.length) out slots

/-- The loop of `fill_index_range`: row `i` writes its own slot, a null row leaves it. -/
def fillIndexRows (row : γ → Except BatchError (Option α)) (rowLo : Nat) :
    (i : Nat) → (out : List α) → List γ → Option (Except (Nat × BatchError) (List α))
  | _, out, [] => some (.ok out)
  | i, out, slot :: slots =>
      match row slot with
      | .error error => some (.error (i, error))
      | .ok none => fillIndexRows row rowLo (i + 1) out slots
      | .ok (some index) =>
          match copyFromSlice out (i - rowLo) [index] with
          | none => none
          | some out => fillIndexRows row rowLo (i + 1) out slots

/-- `run_range_tasks`: one range runs here, more of them on the shared pool, which may be an
error to build; a panic in any worker is the call's. -/
def runRangeTasks (pool : Except (String × String) Unit) (tasks : List (RangeTask α))
    (run : RangeTask α → Option (Except (Nat × BatchError) (List α))) :
    Except BatchFailure (List (Except (Nat × BatchError) (List α))) :=
  let collected :=
    match tasks.mapM run with
    | none => .error .panic
    | some results => .ok results
  if tasks.length ≤ 1 then collected
  else
    match pool with
    | .error (code, detail) => .error (.error (.pool code detail))
    | .ok () => collected

/-- The `min_by_key` on the row. -/
def firstErrorByRowIndex (results : List (Except (Nat × BatchError) β)) : Option BatchError :=
  (firstFailure results).map Prod.snd

/-- The buffer the tasks have filled, or the arbitrated error. -/
def joinTasks (pool : Except (String × String) Unit)
    (parted : Option (List (RangeTask α) × List α)) (run : RangeTask α → Option (Except (Nat × BatchError) (List α))) :
    Except BatchFailure (List α) :=
  match parted with
  | none => .error .panic
  | some (tasks, remaining) =>
      match runRangeTasks pool tasks run with
      | .error failure => .error failure
      | .ok results =>
          match firstErrorByRowIndex results with
          | some error => .error (.error error)
          | none => .ok (successes results ++ remaining)

end Ranges

/-- `Err` of `try_new`, with arrow's own reason. -/
def assemblyError (reason : String) : BatchError :=
  .canon (.unsupported
    s!"failed to assemble the derived StringArray from raw buffers: {reason}")

def isUtf8 (bytes : Bytes) : Prop := (ByteArray.mk bytes.toArray).IsValidUTF8

instance (bytes : Bytes) : Decidable (isUtf8 bytes) :=
  inferInstanceAs (Decidable (ByteArray.IsValidUTF8 _))

/-- What `StringArray::try_new` asks of its buffers. -/
structure StringLayout (offsets : List Nat) (values : Bytes) (validity : List Bool) : Prop where
  slots : offsets.length = validity.length + 1
  within : ∀ offset ∈ offsets, offset ≤ values.length
  text : ∀ range ∈ offsets.zip offsets.tail, isUtf8 (rowSlice values range)

instance (offsets : List Nat) (values : Bytes) (validity : List Bool) :
    Decidable (StringLayout offsets values validity) :=
  decidable_of_iff
    (offsets.length = validity.length + 1 ∧ (∀ offset ∈ offsets, offset ≤ values.length) ∧
      ∀ range ∈ offsets.zip offsets.tail, isUtf8 (rowSlice values range))
    ⟨fun parts => ⟨parts.1, parts.2.1, parts.2.2⟩, fun layout => ⟨layout.1, layout.2, layout.3⟩⟩

structure StringArray where
  offsets : List Nat
  values : Bytes
  validity : List Bool
  monotone : offsets.Pairwise (· ≤ ·)
  layout : StringLayout offsets values validity

/-- `OffsetBuffer::new`, which panics on offsets out of order, and `StringArray::try_new`;
`reason` is arrow's text for a refused layout. -/
def StringArray.tryNew (reason : String) (offsets : List Nat) (values : Bytes)
    (validity : List Bool) : Except BatchFailure StringArray :=
  if monotone : offsets.Pairwise (· ≤ ·) then
    if layout : StringLayout offsets values validity then
      .ok ⟨offsets, values, validity, monotone, layout⟩
    else .error (.error (assemblyError reason))
  else .error .panic

/-- Slot `i` is null, or the bytes from `offsets[i]` to `offsets[i + 1]`. -/
def StringArray.rows (array : StringArray) : List (Option Bytes) :=
  List.zipWith (fun range valid => if valid then some (rowSlice array.values range) else none)
    (array.offsets.zip array.offsets.tail) array.validity

structure UInt64Array where
  values : List UInt64
  validity : List Bool
  slots : values.length = validity.length

def UInt64Array.tryNew (reason : String) (values : List UInt64) (validity : List Bool) :
    Except BatchFailure UInt64Array :=
  if slots : values.length = validity.length then .ok ⟨values, validity, slots⟩
  else .error (.error (assemblyError reason))

def UInt64Array.rows (array : UInt64Array) : List (Option UInt64) :=
  List.zipWith (fun value valid => if valid then some value else none) array.values array.validity

inductive PoolSize where
  | int (size : Int64)
  | notAnInteger
deriving Repr, DecidableEq

def maxPoolSize : Int := 2 ^ 56

/-- The pool guards. -/
def PoolSize.check : PoolSize → Except BatchError UInt64
  | .notAnInteger => .error .poolSizeType
  | .int size =>
      if size.toInt < 1 then .error .poolSizeInvalid
      else if maxPoolSize < size.toInt then .error .poolSizeOverflow
      else .ok size.toUInt64

/-- `u64::from_be_bytes(digest[..8])`. -/
def headIndex (digest : Bytes) : UInt64 :=
  (digest.take 8).foldl (fun acc byte => acc * 256 + byte.toUInt64) 0

section Kernels

variable (nfc : String → String) {mac : Bytes → Bytes → Bytes} (hkdf : HkdfCrate mac)
  (reason : String) (pool : Except (String × String) Unit)

/-- The check every kernel starts with: a key that is not empty. -/
def requireMaskKey : Option Bytes → Except BatchError Bytes
  | none | some [] => .error .maskKeyRequired
  | some maskKey => .ok maskKey

/-- `canonicalize_row`. -/
def canonicalizeRow (dataType : DataType) :
    Option Cell → Except Generation.Native.CanonError (Option Bytes)
  | none => .ok none
  | some cell =>
      match dataType with
      | .other debug => .error (.unsupported s!"Arrow type {debug} is not native-admitted")
      | _ => (Generation.Native.canonicalizeRow nfc cell).map some

/-- What `fill_range` does with row `i`, up to the digest. -/
def digestRow (mac : Bytes → Bytes → Bytes) (ctx : DeriveContext) (dataType : DataType)
    (slot : Option Cell) : Except BatchError (Option Bytes) :=
  match canonicalizeRow nfc dataType slot with
  | .error error => .error (.canon error)
  | .ok none => .ok none
  | .ok (some canonical) =>
      match ctx.deriveRow canonical with
      | .error error => .error (.derive error)
      | .ok state => .ok (some (state.digest mac))

def hashRow (mac : Bytes → Bytes → Bytes) (ctx : DeriveContext) (dataType : DataType)
    (truncate : Option Int) (slot : Option Cell) : Except BatchError (Option Bytes) :=
  (digestRow nfc mac ctx dataType slot).map
    (Option.map fun digest => utf8 (hexTokenInto digest truncate))

/-- What `fill_raw_range` does with row `i`. -/
def rawRow (mac : Bytes → Bytes → Bytes) (ctx : DeriveContext) (outputBytes : Nat) :
    Option String → Except BatchError (Option Bytes)
  | none => .ok none
  | some value =>
      match ctx.deriveRow (utf8 value) with
      | .error error => .error (.derive error)
      | .ok state => .ok (some (utf8 (hexPrefixInto (state.digest mac) outputBytes)))

def indexRow (mac : Bytes → Bytes → Bytes) (ctx : DeriveContext) (dataType : DataType)
    (poolSize : UInt64) (slot : Option Cell) : Except BatchError (Option UInt64) :=
  (digestRow nfc mac ctx dataType slot).map (Option.map fun digest => headIndex digest % poolSize)

/-- The part the string kernels share: the offsets, the windows, the ranges and the assembly. -/
def fillStrings {γ : Type} (width : Nat) (row : Option γ → Except BatchError (Option Bytes))
    (slots : List (Option γ)) (threads : Nat) : Except BatchFailure StringArray :=
  match offsetsFrom width 0 slots with
  | .error error => .error (.error error)
  | .ok (offsets, totalBytes) =>
      let values := List.replicate totalBytes 0
      let tasks := partitionIntoTasks (0 :: offsets) values (balancedRowRanges slots threads)
      match joinTasks pool tasks fun task =>
          fillRows row task.rowLo 0 task.out (rowSlice slots (task.rowLo, task.rowHi)) with
      | .error failure => .error failure
      | .ok values => StringArray.tryNew reason (0 :: offsets) values (slots.map Option.isSome)

/-- The array of a batch without a valid row. -/
def allNullStrings {γ : Type} (slots : List (Option γ)) : Except BatchFailure StringArray :=
  StringArray.tryNew reason (List.replicate (slots.length + 1) 0) [] (slots.map Option.isSome)

def notAdmitted (dataType : DataType) : BatchError :=
  .canon (.unsupported
    s!"Arrow type {dataType.debug} is not in the native keyed-hash admitted set")

/-- `derive_array`: the tokens of a column. The key and the type are checked, a batch of nulls needs
no seed, and the tokens are written into one buffer by as many threads as there are ranges. -/
def deriveArray (array : ArrowArray) (maskKey : Option Bytes) (namespaceName : String)
    (truncate : Option Int) (threads : Nat) : Except BatchFailure StringArray :=
  match requireMaskKey maskKey with
  | .error error => .error (.error error)
  | .ok maskKey =>
      if !array.dataType.isAdmittedType then .error (.error (notAdmitted array.dataType))
      else if nonNull array.slots = 0 then allNullStrings reason array.slots
      else
        match DeriveContext.new hkdf maskKey namespaceName with
        | .error seedError =>
            -- a row that cannot be canonicalized outranks the seed
            match array.slots.mapM (canonicalizeRow nfc array.dataType) with
            | .error error => .error (.error (.canon error))
            | .ok _ => .error (.error (.derive seedError))
        | .ok ctx =>
            fillStrings reason pool (constantOutputWidth truncate)
              (hashRow nfc mac ctx array.dataType truncate) array.slots threads

/-- `derive_hex_raw_array`: the same over the raw bytes of a string column, with a checked number of
hex characters. -/
def deriveHexRawArray (array : ArrowArray) (maskKey : Option Bytes) (namespaceName : String)
    (hexChars threads : Nat) : Except BatchFailure StringArray :=
  match requireMaskKey maskKey with
  | .error error => .error (.error error)
  | .ok maskKey =>
      if hexChars = 0 ∨ hexChars % 2 ≠ 0 ∨ hexLen < hexChars then
        .error (.error .rawHexCharsInvalid)
      else
        match array.asStrings with
        | none => .error (.error .rawInputNotString)
        | some strings =>
            if nonNull strings = 0 then allNullStrings reason strings
            else
              match DeriveContext.new hkdf maskKey namespaceName with
              | .error error => .error (.error (.derive error))
              | .ok ctx =>
                  fillStrings reason pool hexChars (rawRow mac ctx (hexChars / 2)) strings threads

/-- `fill_index_range` over the ranges, and the assembly. -/
def fillIndices {γ : Type} (row : Option γ → Except BatchError (Option UInt64))
    (slots : List (Option γ)) (threads : Nat) : Except BatchFailure UInt64Array :=
  let values := List.replicate slots.length 0
  let tasks := partitionIndexTasks values (balancedRowRanges slots threads)
  match joinTasks pool tasks fun task =>
      fillIndexRows row task.rowLo task.rowLo task.out
        (rowSlice slots (task.rowLo, task.rowHi)) with
  | .error failure => .error failure
  | .ok values => UInt64Array.tryNew reason values (slots.map Option.isSome)

/-- `derive_index_array_typed`: an index into the pool for every row. The first non-null cell is
canonicalized before pool size and seed are looked at; `derive_index_array` is this at
`PoolSize::Int`. -/
def deriveIndexArray (array : ArrowArray) (maskKey : Option Bytes) (namespaceName : String)
    (poolSize : PoolSize) (threads : Nat) : Except BatchFailure UInt64Array :=
  match requireMaskKey maskKey with
  | .error error => .error (.error error)
  | .ok maskKey =>
      if !array.dataType.isAdmittedType then .error (.error (notAdmitted array.dataType))
      else
        match array.slots.find? Option.isSome with
        | none => UInt64Array.tryNew reason (List.replicate array.slots.length 0)
            (array.slots.map Option.isSome)
        | some firstNonNull =>
            match canonicalizeRow nfc array.dataType firstNonNull with
            | .error error => .error (.error (.canon error))
            | .ok _ =>
                match poolSize.check with
                | .error error => .error (.error error)
                | .ok poolSize =>
                    match DeriveContext.new hkdf maskKey namespaceName with
                    | .error error => .error (.error (.derive error))
                    | .ok ctx =>
                        fillIndices reason pool (indexRow nfc mac ctx array.dataType poolSize)
                          array.slots threads

/-- One row derived on its own, seed and namespace checked there. -/
def deriveSource (maskKey : Bytes) (namespaceName : String) :
    Option Bytes → Except BatchError (Option Bytes)
  | none => .ok none
  | some source =>
      match deriveMac hkdf maskKey namespaceName source with
      | .error error => .error (.derive error)
      | .ok state => .ok (some (state.digest mac))

def deriveToken (maskKey : Bytes) (namespaceName : String) (token : Bytes → String)
    (source : Option Bytes) : Except BatchError (Option Bytes) :=
  (deriveSource hkdf maskKey namespaceName source).map (Option.map fun digest => utf8 (token digest))

/-- The loop of `derive_batch`: the key, the type, the whole column converted, then every row. -/
def deriveBatch (array : ArrowArray) (maskKey : Option Bytes) (namespaceName : String)
    (truncate : Option Int) : Except BatchError (List (Option Bytes)) :=
  match requireMaskKey maskKey with
  | .error error => .error error
  | .ok maskKey =>
      if !array.dataType.isAdmittedType then .error (notAdmitted array.dataType)
      else
        match array.slots.mapM (canonicalizeRow nfc array.dataType) with
        | .error error => .error (.canon error)
        | .ok sources =>
            sources.mapM (deriveToken hkdf maskKey namespaceName (hexTokenInto · truncate))

/-- One row of a string column, its bytes as they are. -/
def deriveHexRawRow (maskKey : Bytes) (namespaceName : String) (hexChars : Nat)
    (value : Option String) : Except BatchError (Option Bytes) :=
  deriveToken hkdf maskKey namespaceName (hexPrefixInto · (hexChars / 2)) (value.map utf8)

def deriveHexRawBatch (array : ArrowArray) (maskKey : Option Bytes) (namespaceName : String)
    (hexChars : Nat) : Except BatchError (List (Option Bytes)) :=
  match requireMaskKey maskKey with
  | .error error => .error error
  | .ok maskKey =>
      if hexChars = 0 ∨ hexChars % 2 ≠ 0 ∨ hexLen < hexChars then .error .rawHexCharsInvalid
      else
        match array.asStrings with
        | none => .error .rawInputNotString
        | some strings => strings.mapM (deriveHexRawRow hkdf maskKey namespaceName hexChars)

/-- One row of the pool sampler: canonicalization, the pool size, the derivation. -/
def deriveIndexRow (dataType : DataType) (maskKey : Bytes) (namespaceName : String)
    (poolSize : PoolSize) (slot : Option Cell) : Except BatchError (Option UInt64) :=
  match canonicalizeRow nfc dataType slot with
  | .error error => .error (.canon error)
  | .ok none => .ok none
  | .ok (some source) =>
      match poolSize.check with
      | .error error => .error error
      | .ok size => (deriveSource hkdf maskKey namespaceName (some source)).map
          (Option.map fun digest => headIndex digest % size)

def deriveIndexBatch (array : ArrowArray) (maskKey : Option Bytes) (namespaceName : String)
    (poolSize : PoolSize) : Except BatchError (List (Option UInt64)) :=
  match requireMaskKey maskKey with
  | .error error => .error error
  | .ok maskKey =>
      if !array.dataType.isAdmittedType then .error (notAdmitted array.dataType)
      else array.slots.mapM (deriveIndexRow nfc hkdf array.dataType maskKey namespaceName poolSize)

end Kernels

end DecoyEngine.Determinism.Native
