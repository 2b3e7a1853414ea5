import DecoyEngine.Data.Checked
import DecoyEngine.Generation.Canonicalize
import Mathlib.Data.Finset.Card
import Mathlib.Data.List.Lex
import Mathlib.Data.List.Sort
import Mathlib.Data.Prod.Lex
import Mathlib.Order.Defs.LinearOrder

namespace DecoyEngine.Subset

open DecoyEngine.Data DecoyEngine.Generation

/-! Seed sampling by the smallest keyed hashes (`subset/_seed.py`).

A key frame is the list of the key tuples of a table; the row index is the position.  Digests are
values of any linear order, as byte strings are. -/

abbrev KeyTuple := List PyValue

/-- `spec.count`, or `floor(spec.fraction * n)` of a row count `n`. -/
inductive SampleSize where
  | count (requested : Nat) (positive : 1 ≤ requested)
  | fraction (floored : Nat → Nat)

def SampleSize.rows : SampleSize → Nat → Nat
  | .count requested _, _ => requested
  | .fraction floored, n => max 1 (floored n)

inductive SampleError where
  | keyUncanonicalizable
  -- `int.to_bytes` of a length that needs more than four bytes
  | overflowError
deriving Repr, DecidableEq

def SampleError.code : SampleError → String
  | .keyUncanonicalizable => "subset_seed_key_uncanonicalizable"
  | .overflowError => "OverflowError"

def SampleError.message (table : String) : SampleError → String
  | .keyUncanonicalizable =>
      "table '" ++ table ++ "': a seed key column value could not " ++
        "be canonicalized for sampling"
  | .overflowError => "int too big to convert"

def isNull : PyValue → Bool
  | .none => true
  | _ => false

section Sample

variable {δ : Type} [LinearOrder δ] (nfc : String → String) (deriveSource : List UInt8 → δ)

/-- A key component behind its length. -/
def componentSource (component : PyValue) : Except SampleError (List UInt8) :=
  match canonicalizeSource nfc component with
  | .error .overflow => .error .overflowError
  | .error _ => .error .keyUncanonicalizable
  | .ok part =>
      match frame part with
      | none => .error .overflowError
      | some block => .ok block

def keyDigest (key : KeyTuple) : Except SampleError δ :=
  (key.mapM (componentSource nfc)).map fun parts => deriveSource parts.flatten

/-- `drop_nulls`, each row with its index. -/
def nonNullRows (rows : List KeyTuple) : List (KeyTuple × Nat) :=
  rows.zipIdx.filter fun row => !row.1.any isNull

/-- Entries of the list that is sorted: a digest, then the row index. -/
def digestEntry (row : KeyTuple × Nat) : Except SampleError (δ ×ₗ Nat) :=
  (keyDigest nfc deriveSource row.1).map fun digest => toLex (digest, row.2)

/-- The selected row indices, and how many rows were left out for a null. -/
def selectSample (size : SampleSize) (rows : List KeyTuple) :
    Except SampleError (Finset Nat × Nat) :=
  let nonNull := nonNullRows rows
  let seedNullExcluded := rows.length - nonNull.length
  let n := nonNull.length
  if n = 0 then .ok (∅, seedNullExcluded)
  else
    let k := min (size.rows n) n
    (nonNull.mapM (digestEntry nfc deriveSource)).map fun digests =>
      let sorted := digests.insertionSort (· ≤ ·)
      (((sorted.take k).map fun entry => (ofLex entry).2).toFinset, seedNullExcluded)

/-- The keys that have no null. -/
def sampledKeys (rows : List KeyTuple) : List KeyTuple := rows.filter fun key => !key.any isNull

/-- The key tuples of the selected rows. -/
def selectedKeys (rows : List KeyTuple) (selected : Finset Nat) : Multiset KeyTuple :=
  selected.val.map fun row => rows.getD row []

/-- No two different keys share a hash value. -/
def DistinctDigests (rows : List KeyTuple) : Prop :=
  ∀ key ∈ sampledKeys rows, ∀ other ∈ sampledKeys rows,
    keyDigest nfc deriveSource key = keyDigest nfc deriveSource other → key = other

/-- What the sample of a table promises: its size, that a larger one contains it, and that the order
of the rows does not choose the keys. -/
structure SampleExact (rows : List KeyTuple) : Prop where
  exact : ∀ size selected excluded,
    selectSample nfc deriveSource size rows = .ok (selected, excluded) →
      selected.card = min (size.rows (sampledKeys rows).length) (sampledKeys rows).length ∧
        ∀ row ∈ selected, ∃ key ∈ sampledKeys rows, rows[row]? = some key
  nested : ∀ size larger selected more excluded others,
    size.rows (sampledKeys rows).length ≤ larger.rows (sampledKeys rows).length →
      selectSample nfc deriveSource size rows = .ok (selected, excluded) →
        selectSample nfc deriveSource larger rows = .ok (more, others) → selected ⊆ more
  permuted : ∀ size selected excluded permuted, permuted.Perm rows →
    selectSample nfc deriveSource size rows = .ok (selected, excluded) →
      ∃ other, selectSample nfc deriveSource size permuted = .ok (other, excluded) ∧
        (selectedKeys permuted other).map (keyDigest nfc deriveSource) =
          (selectedKeys rows selected).map (keyDigest nfc deriveSource) ∧
        (DistinctDigests nfc deriveSource rows →
          selectedKeys permuted other = selectedKeys rows selected)

section Entries

variable {nfc deriveSource} {rows : List KeyTuple}

theorem map_fst_nonNullRows (rows : List KeyTuple) :
    (nonNullRows rows).map Prod.fst = sampledKeys rows := by
  have whole : rows.zipIdx.map Prod.fst = rows := List.zipIdx_map_fst 0 rows
  have split : (rows.zipIdx.map Prod.fst).filter (fun key => !key.any isNull) =
      (rows.zipIdx.filter ((fun key => !key.any isNull) ∘ Prod.fst)).map Prod.fst :=
    List.filter_map
  rw [whole] at split
  rw [nonNullRows, sampledKeys, split]
  rfl

theorem length_nonNullRows (rows : List KeyTuple) :
    (nonNullRows rows).length = (sampledKeys rows).length := by
  rw [← map_fst_nonNullRows, List.length_map]

theorem nodup_snd_nonNullRows (rows : List KeyTuple) :
    ((nonNullRows rows).map Prod.snd).Nodup := by
  have indices : rows.zipIdx.map Prod.snd = List.range' 0 rows.length := List.zipIdx_map_snd 0 rows
  have all : (rows.zipIdx.map Prod.snd).Nodup := indices ▸ List.nodup_range'
  exact all.sublist (List.filter_sublist.map _)

theorem mem_nonNullRows {row : KeyTuple × Nat} (member : row ∈ nonNullRows rows) :
    rows[row.2]? = some row.1 ∧ row.1 ∈ sampledKeys rows := by
  obtain ⟨inRows, complete⟩ := List.mem_filter.mp member
  have found := List.mem_zipIdx_iff_getElem?.mp inRows
  exact ⟨found, List.mem_filter.mpr ⟨List.mem_of_getElem? found, complete⟩⟩

/-- The list that is sorted, when every key has a digest. -/
structure EntriesOf (nfc : String → String) (deriveSource : List UInt8 → δ)
    (rows : List KeyTuple) (entries : List (δ ×ₗ Nat)) : Prop where
  length : entries.length = (sampledKeys rows).length
  distinct : (entries.map fun entry => (ofLex entry).2).Nodup
  digests : entries.map (fun entry => (.ok (ofLex entry).1 : Except SampleError δ)) =
    (sampledKeys rows).map (keyDigest nfc deriveSource)
  key : ∀ entry ∈ entries, ∃ key ∈ sampledKeys rows, rows[(ofLex entry).2]? = some key ∧
    keyDigest nfc deriveSource key = .ok (ofLex entry).1

omit [LinearOrder δ] in
theorem digestEntry_ok {row : KeyTuple × Nat} {entry : δ ×ₗ Nat}
    (priced : digestEntry nfc deriveSource row = .ok entry) :
    keyDigest nfc deriveSource row.1 = .ok (ofLex entry).1 ∧ (ofLex entry).2 = row.2 := by
  rw [digestEntry] at priced
  cases digest : keyDigest nfc deriveSource row.1 with
  | error error =>
      rw [digest] at priced
      cases priced
  | ok value =>
      rw [digest] at priced
      cases priced
      exact ⟨rfl, rfl⟩

variable {entries : List (δ ×ₗ Nat)}

omit [LinearOrder δ] in
theorem entriesOf_mapM
    (priced : (nonNullRows rows).mapM (digestEntry nfc deriveSource) = .ok entries) :
    EntriesOf nfc deriveSource rows entries := by
  have related := mapM_eq_ok.mp priced
  refine ⟨?_, ?_, ?_, fun entry member => ?_⟩
  · rw [← related.length_eq, length_nonNullRows]
  · have indices :
        (entries.map fun entry => (ofLex entry).2) = (nonNullRows rows).map Prod.snd := by
      symm
      rw [← List.forall₂_eq_eq_eq, List.forall₂_map_left_iff, List.forall₂_map_right_iff]
      exact related.imp fun row entry step => (digestEntry_ok step).2.symm
    rw [indices]
    exact nodup_snd_nonNullRows rows
  · rw [← map_fst_nonNullRows, List.map_map, eq_comm, ← List.forall₂_eq_eq_eq,
      List.forall₂_map_left_iff, List.forall₂_map_right_iff]
    exact related.imp fun row entry step => (digestEntry_ok step).1
  · obtain ⟨row, inRows, step⟩ := exists_source_of_mapM priced member
    obtain ⟨digest, index⟩ := digestEntry_ok step
    obtain ⟨found, sampled⟩ := mem_nonNullRows inRows
    exact ⟨row.1, sampled, index ▸ found, digest⟩

omit [LinearOrder δ] in
theorem priced_iff :
    (∃ entries, (nonNullRows rows).mapM (digestEntry nfc deriveSource) = .ok entries) ↔
      ∀ key ∈ sampledKeys rows, ∃ digest, keyDigest nfc deriveSource key = .ok digest := by
  constructor
  · intro ⟨entries, priced⟩ key member
    rw [← map_fst_nonNullRows] at member
    obtain ⟨row, inRows, rfl⟩ := List.mem_map.mp member
    obtain ⟨entry, -, step⟩ := exists_result_of_mapM priced inRows
    exact ⟨_, (digestEntry_ok step).1⟩
  · intro digested
    apply exists_mapM
    intro row member
    obtain ⟨digest, isDigest⟩ := digested row.1 (mem_nonNullRows member).2
    exact ⟨toLex (digest, row.2), by rw [digestEntry, isDigest]; rfl⟩

/-- The smallest entries, in order. -/
abbrev smallest (entries : List (δ ×ₗ Nat)) (k : Nat) : List (δ ×ₗ Nat) :=
  (entries.insertionSort (· ≤ ·)).take k

theorem mem_smallest {k : Nat} {entry : δ ×ₗ Nat} (member : entry ∈ smallest entries k) :
    entry ∈ entries :=
  (List.perm_insertionSort (· ≤ ·) entries).mem_iff.mp (List.mem_of_mem_take member)

theorem map_fst_smallest {others : List (δ ×ₗ Nat)} (k : Nat)
    (same : (entries.map fun entry => (ofLex entry).1).Perm
      (others.map fun entry => (ofLex entry).1)) :
    (smallest entries k).map (fun entry => (ofLex entry).1) =
      (smallest others k).map fun entry => (ofLex entry).1 := by
  have sorted : ∀ list : List (δ ×ₗ Nat),
      ((list.insertionSort (· ≤ ·)).map fun entry => (ofLex entry).1).Pairwise (· ≤ ·) := by
    intro list
    apply List.pairwise_map.mpr
    apply (List.pairwise_insertionSort (· ≤ ·) list).imp
    intro first second before
    exact Prod.Lex.monotone_fst _ _ before
  have permuted : ((entries.insertionSort (· ≤ ·)).map fun entry => (ofLex entry).1).Perm
      ((others.insertionSort (· ≤ ·)).map fun entry => (ofLex entry).1) :=
    ((List.perm_insertionSort (· ≤ ·) entries).map _).trans
      (same.trans ((List.perm_insertionSort (· ≤ ·) others).map _).symm)
  have equal := permuted.eq_of_pairwise' (sorted entries) (sorted others)
  rw [List.map_take, List.map_take, equal]

theorem nodup_smallest (k : Nat) (distinct : (entries.map fun entry => (ofLex entry).2).Nodup) :
    ((smallest entries k).map fun entry => (ofLex entry).2).Nodup := by
  have sorted : ((entries.insertionSort (· ≤ ·)).map fun entry => (ofLex entry).2).Nodup :=
    (((List.perm_insertionSort (· ≤ ·) entries).map _).nodup_iff).mpr distinct
  exact sorted.sublist ((List.take_sublist _ _).map _)

theorem selectSample_ok {size : SampleSize} {selected : Finset Nat} {excluded : Nat} :
    selectSample nfc deriveSource size rows = .ok (selected, excluded) ↔
      ∃ entries, (nonNullRows rows).mapM (digestEntry nfc deriveSource) = .ok entries ∧
        selected = ((smallest entries
          (min (size.rows (sampledKeys rows).length) (sampledKeys rows).length)).map
            fun entry => (ofLex entry).2).toFinset ∧
        excluded = rows.length - (sampledKeys rows).length := by
  rw [← length_nonNullRows, selectSample]
  by_cases empty : (nonNullRows rows).length = 0
  · have isNil := List.eq_nil_of_length_eq_zero empty
    simp [isNil, pure, Except.pure, eq_comm]
  · simp only [if_neg empty]
    cases priced : (nonNullRows rows).mapM (digestEntry nfc deriveSource) with
    | error error =>
        constructor
        · intro run
          cases run
        · intro ⟨_, run, _⟩
          cases run
    | ok entries =>
        constructor
        · intro run
          cases run
          exact ⟨entries, rfl, rfl, rfl⟩
        · intro ⟨_, run, isSelected, isExcluded⟩
          cases run
          rw [isSelected, isExcluded]
          rfl

/-- The keys the entries stand for. -/
def keysAt (rows : List KeyTuple) (entries : List (δ ×ₗ Nat)) : List KeyTuple :=
  entries.map fun entry => rows.getD (ofLex entry).2 []

theorem selectedKeys_smallest (k : Nat) (of : EntriesOf nfc deriveSource rows entries) :
    selectedKeys rows ((smallest entries k).map fun entry => (ofLex entry).2).toFinset =
      ↑(keysAt rows (smallest entries k)) := by
  rw [selectedKeys, List.toFinset_val, (nodup_smallest k of.distinct).dedup, Multiset.map_coe,
    List.map_map, keysAt]
  rfl

theorem mem_keysAt {k : Nat} (of : EntriesOf nfc deriveSource rows entries) :
    ∀ key ∈ keysAt rows (smallest entries k), key ∈ sampledKeys rows := by
  intro key member
  obtain ⟨entry, taken, rfl⟩ := List.mem_map.mp member
  obtain ⟨key, sampled, found, -⟩ := of.key entry (mem_smallest taken)
  rw [List.getD_eq_getElem?_getD, found]
  exact sampled

theorem map_keyDigest_keysAt {k : Nat} (of : EntriesOf nfc deriveSource rows entries) :
    (keysAt rows (smallest entries k)).map (keyDigest nfc deriveSource) =
      ((smallest entries k).map fun entry => (ofLex entry).1).map .ok := by
  rw [keysAt, List.map_map, List.map_map]
  apply List.map_congr_left
  intro entry taken
  obtain ⟨key, -, found, digest⟩ := of.key entry (mem_smallest taken)
  simp only [Function.comp_apply, List.getD_eq_getElem?_getD, found, Option.getD_some, digest]

theorem eq_of_map_eq {α β : Type} {f : α → β} {xs ys : List α}
    (injective : ∀ x ∈ xs, ∀ y ∈ ys, f x = f y → x = y) (same : xs.map f = ys.map f) : xs = ys := by
  induction xs generalizing ys with
  | nil =>
      rw [List.map_nil, eq_comm, List.map_eq_nil_iff] at same
      exact same.symm
  | cons x xs ih =>
      cases ys with
      | nil => cases same
      | cons y ys =>
          have heads := injective x List.mem_cons_self y List.mem_cons_self (List.cons.inj same).1
          have tails : xs = ys := by
            apply ih _ (List.cons.inj same).2
            intro x' inXs y' inYs
            exact injective x' (List.mem_cons_of_mem _ inXs) y' (List.mem_cons_of_mem _ inYs)
          rw [heads, tails]

omit [LinearOrder δ] in
theorem ok_map_perm {xs ys : List δ}
    (same : (xs.map (.ok : δ → Except SampleError δ)).Perm (ys.map .ok)) : xs.Perm ys :=
  (List.map_perm_map_iff fun _ _ => Except.ok.inj).mp same

omit [LinearOrder δ] in
theorem digests_perm {permuted : List KeyTuple} {others : List (δ ×ₗ Nat)}
    (perm : permuted.Perm rows) (of : EntriesOf nfc deriveSource rows entries)
    (ofPermuted : EntriesOf nfc deriveSource permuted others) :
    (others.map fun entry => (ofLex entry).1).Perm (entries.map fun entry => (ofLex entry).1) := by
  apply ok_map_perm
  rw [List.map_map, List.map_map]
  have here := of.digests
  have there := ofPermuted.digests
  have keys := (perm.filter fun key => !key.any isNull).map (keyDigest nfc deriveSource)
  exact there ▸ here ▸ keys

end Entries

theorem sample_card {rows : List KeyTuple} {size : SampleSize} {selected : Finset Nat}
    {excluded : Nat} (run : selectSample nfc deriveSource size rows = .ok (selected, excluded)) :
    selected.card = min (size.rows (sampledKeys rows).length) (sampledKeys rows).length ∧
      ∀ row ∈ selected, ∃ key ∈ sampledKeys rows, rows[row]? = some key := by
  obtain ⟨entries, priced, isSelected, -⟩ := selectSample_ok.mp run
  have of := entriesOf_mapM priced
  rw [isSelected]
  refine ⟨?_, fun row member => ?_⟩
  · rw [List.toFinset_card_of_nodup (nodup_smallest _ of.distinct), List.length_map,
      List.length_take, List.length_insertionSort, of.length]
    omega
  · obtain ⟨entry, taken, rfl⟩ := List.mem_map.mp (List.mem_toFinset.mp member)
    obtain ⟨key, sampled, found, -⟩ := of.key entry (mem_smallest taken)
    exact ⟨key, sampled, found⟩

theorem sample_nested {rows : List KeyTuple} {size larger : SampleSize}
    {selected more : Finset Nat} {excluded others : Nat}
    (ordered : size.rows (sampledKeys rows).length ≤ larger.rows (sampledKeys rows).length)
    (run : selectSample nfc deriveSource size rows = .ok (selected, excluded))
    (runLarger : selectSample nfc deriveSource larger rows = .ok (more, others)) :
    selected ⊆ more := by
  obtain ⟨entries, priced, isSelected, -⟩ := selectSample_ok.mp run
  obtain ⟨same, pricedAgain, isMore, -⟩ := selectSample_ok.mp runLarger
  have equal : entries = same := Except.ok.inj (priced.symm.trans pricedAgain)
  subst equal
  rw [isSelected, isMore]
  intro row member
  rw [List.mem_toFinset] at member ⊢
  have prefixed : smallest entries
      (min (size.rows (sampledKeys rows).length) (sampledKeys rows).length) ⊆ smallest entries
        (min (larger.rows (sampledKeys rows).length) (sampledKeys rows).length) :=
    List.take_subset_take_left _ (min_le_min_right _ ordered)
  exact List.map_subset _ prefixed member

theorem sample_permuted {rows permuted : List KeyTuple} {size : SampleSize}
    {selected : Finset Nat} {excluded : Nat} (perm : permuted.Perm rows)
    (run : selectSample nfc deriveSource size rows = .ok (selected, excluded)) :
    ∃ other, selectSample nfc deriveSource size permuted = .ok (other, excluded) ∧
      (selectedKeys permuted other).map (keyDigest nfc deriveSource) =
        (selectedKeys rows selected).map (keyDigest nfc deriveSource) ∧
      (DistinctDigests nfc deriveSource rows →
        selectedKeys permuted other = selectedKeys rows selected) := by
  obtain ⟨entries, priced, isSelected, isExcluded⟩ := selectSample_ok.mp run
  have keys : (sampledKeys permuted).Perm (sampledKeys rows) := perm.filter _
  have digested : ∀ key ∈ sampledKeys permuted, ∃ digest,
      keyDigest nfc deriveSource key = .ok digest := by
    intro key member
    exact priced_iff.mp ⟨entries, priced⟩ key (keys.mem_iff.mp member)
  obtain ⟨others, pricedPermuted⟩ := priced_iff.mpr digested
  have of := entriesOf_mapM priced
  have ofPermuted := entriesOf_mapM pricedPermuted
  have chosen := (selectSample_ok.mpr ⟨others, pricedPermuted, rfl, rfl⟩ :
    selectSample nfc deriveSource size permuted = .ok _)
  rw [keys.length_eq, perm.length_eq, ← isExcluded] at chosen
  refine ⟨_, chosen, ?_⟩
  -- the two samples list the same digests in the same order
  have digests := map_fst_smallest
    (min (size.rows (sampledKeys rows).length) (sampledKeys rows).length)
    (digests_perm perm of ofPermuted)
  have mapped := congrArg (List.map (.ok : δ → Except SampleError δ)) digests
  rw [← map_keyDigest_keysAt of, ← map_keyDigest_keysAt ofPermuted] at mapped
  rw [isSelected, selectedKeys_smallest _ of, selectedKeys_smallest _ ofPermuted]
  refine ⟨?_, fun distinct => ?_⟩
  · rw [Multiset.map_coe, Multiset.map_coe, mapped]
  · apply congrArg
    apply eq_of_map_eq _ mapped
    intro key inPermuted other inRows
    exact distinct key (keys.mem_iff.mp (mem_keysAt ofPermuted key inPermuted)) other
      (mem_keysAt of other inRows)

/-- The sample has as many keys as the size asks for, each one of the keys that are sampled; a
larger size only adds rows; and a table in another order gives the same keys, up to equal digests.
-/
theorem select_sample_exact (rows : List KeyTuple) : SampleExact nfc deriveSource rows where
  exact := fun _ _ _ run => sample_card nfc deriveSource run
  nested := fun _ _ _ _ _ _ ordered run runLarger =>
    sample_nested nfc deriveSource ordered run runLarger
  permuted := fun _ _ _ _ perm run => sample_permuted nfc deriveSource perm run

end Sample

/-- `unicodedata.normalize` of an accent behind its letter. -/
def composeAcute (text : String) : String := if text = "e\u0301" then "\u00e9" else text

/-- A hash without collisions on blocks of one length. -/
def bigEndian (source : List UInt8) : Nat :=
  source.foldl (fun value byte => value * 256 + byte.toNat) 0

/-- The first row of two spellings of one text is the one sampled. -/
theorem spelling_depends_on_row_order :
    ∃ rows permuted : List KeyTuple, permuted.Perm rows ∧ ∃ selected other : Finset Nat,
      selectSample composeAcute bigEndian (.count 1 le_rfl) rows = .ok (selected, 0) ∧
        selectSample composeAcute bigEndian (.count 1 le_rfl) permuted = .ok (other, 0) ∧
        selectedKeys permuted other ≠ selectedKeys rows selected := by
  refine ⟨[[.text "\u00e9"], [.text "e\u0301"]], [[.text "e\u0301"], [.text "\u00e9"]],
    List.Perm.swap _ _ _, {0}, {0}, ?_, ?_, ?_⟩
  · rfl
  · rfl
  · intro same
    have keys : [PyValue.text "e\u0301"] = [PyValue.text "\u00e9"] := Multiset.singleton_inj.mp same
    injection keys with head
    injection head with text
    exact absurd text (by decide)

end DecoyEngine.Subset
