import DecoyEngine.Data.Dict
import DecoyEngine.Data.Splice
import DecoyEngine.Relationships.Graph

namespace DecoyEngine.Execution

open DecoyEngine.Data DecoyEngine.Relationships

/-! FK orphan-policy resolution (`execution/_fk_resolve.py`).

A key tuple is looked up by its identity, the class of Python-equal tuples it belongs
to; the parent map and the errored keys are dictionaries over identities. -/

structure QualityWarning where
  code : String
  provider : String
  column : String
  parentTable : String
  parentColumns : List String
  childTable : String
  childColumns : List String
  orphanRows : Nat
deriving Repr, DecidableEq

inductive ExecutionError where
  | orphanFkViolation (edge : RelationshipEdge) (orphanCount : Nat)
  -- `zip(..., strict=True)` over a remap of the wrong length
  | remapLength
deriving Repr, DecidableEq

def ExecutionError.code : ExecutionError → String
  | .orphanFkViolation _ _ => "orphan_fk_violation"
  | .remapLength => "ValueError"

def ExecutionError.message : ExecutionError → String
  | .orphanFkViolation edge orphanCount =>
      s!"{orphanCount} orphan row(s) in " ++
      s!"{edge.childTable}.{tupleText edge.childColumns} reference no parent key in " ++
      s!"{edge.parentTable}.{tupleText edge.parentColumns} (orphan_policy=fail)."
  | .remapLength => "zip() argument 2 has a different length than argument 1"

section Resolve

variable {κ : Type u} {ι : Type v} [DecidableEq ι] (ident : κ → ι)

/-- The branch the row loop takes for one child key. -/
inductive RowFate (κ : Type u) where
  | null
  | mapped (value : κ)
  | cascaded (trigger : String)
  | orphan (key : κ)

def rowFate (parentMap : Dict ι κ) (erroredParentKeys : Dict ι String) : Option κ → RowFate κ
  | none => .null
  | some key =>
      match parentMap.find (ident key) with
      | some mapped => .mapped mapped
      | none =>
          match erroredParentKeys.find (ident key) with
          | some trigger => .cascaded trigger
          | none => .orphan key

/-- What the row loop has collected after the rows seen so far. -/
structure RowScan (κ : Type u) where
  masked : List (Option κ)
  orphanPositions : List Nat
  orphanKeys : List κ
  cascade : List (Nat × String)

def RowScan.start : RowScan κ := ⟨[], [], [], []⟩

def RowScan.record (scan : RowScan κ) : RowFate κ → RowScan κ
  | .null => { scan with masked := scan.masked ++ [none] }
  | .mapped value => { scan with masked := scan.masked ++ [some value] }
  | .cascaded trigger =>
      { scan with
        masked := scan.masked ++ [none]
        cascade := scan.cascade ++ [(scan.masked.length, trigger)] }
  | .orphan key =>
      { scan with
        masked := scan.masked ++ [none]
        orphanPositions := scan.orphanPositions ++ [scan.masked.length]
        orphanKeys := scan.orphanKeys ++ [key] }

def scanRows (parentMap : Dict ι κ) (erroredParentKeys : Dict ι String)
    (childKeys : List (Option κ)) : RowScan κ :=
  (childKeys.map (rowFate ident parentMap erroredParentKeys)).foldl RowScan.record RowScan.start

def orphanWarning (edge : RelationshipEdge) (orphanRows : Nat) : QualityWarning where
  code := "orphan_fk"
  provider := edge.namespaceName
  column := ",".intercalate edge.childColumns
  parentTable := edge.parentTable
  parentColumns := edge.parentColumns
  childTable := edge.childTable
  childColumns := edge.childColumns
  orphanRows := orphanRows

structure Resolved (κ : Type u) where
  masked : List (Option κ)
  warnings : List QualityWarning
  cascade : List (Nat × String)

/-- `resolve_fk_keys`: each child key takes the masked value of the parent that holds it, keys of
errored parents are cut off, and what no parent holds is an orphan, which the policy of the edge
refuses, remaps or keeps. -/
def resolveFkKeys (childKeys : List (Option κ)) (parentMap : Dict ι κ) (edge : RelationshipEdge)
    (remapFn : List κ → List κ) (erroredParentKeys : Dict ι String) :
    Except ExecutionError (Resolved κ) :=
  let scan := scanRows ident parentMap erroredParentKeys childKeys
  if scan.orphanPositions = [] then .ok ⟨scan.masked, [], scan.cascade⟩
  else
    match edge.orphanPolicy with
    | .fail => .error (.orphanFkViolation edge scan.orphanPositions.length)
    | .remap =>
        let remapped := remapFn scan.orphanKeys
        if remapped.length ≠ scan.orphanPositions.length then .error .remapLength
        else .ok ⟨writeAt scan.masked scan.orphanPositions (remapped.map some), [], scan.cascade⟩
    | .preserve =>
        .ok ⟨writeAt scan.masked scan.orphanPositions (scan.orphanKeys.map some), [], scan.cascade⟩
    | .warn =>
        .ok ⟨writeAt scan.masked scan.orphanPositions (scan.orphanKeys.map some),
          [orphanWarning edge scan.orphanPositions.length], scan.cascade⟩

def RowFate.cell : RowFate κ → Option κ
  | .mapped value => some value
  | _ => none

def RowFate.orphanKey : RowFate κ → Option κ
  | .orphan key => some key
  | _ => none

def RowFate.isOrphan (fate : RowFate κ) : Bool := fate.orphanKey.isSome

namespace RowFate

@[simp] theorem cell_null : (null : RowFate κ).cell = none := rfl

@[simp] theorem cell_mapped (value : κ) : (mapped value).cell = some value := rfl

@[simp] theorem cell_cascaded (trigger : String) : (cascaded trigger : RowFate κ).cell = none := rfl

@[simp] theorem cell_orphan (key : κ) : (orphan key).cell = none := rfl

@[simp] theorem orphanKey_null : (null : RowFate κ).orphanKey = none := rfl

@[simp] theorem orphanKey_mapped (value : κ) : (mapped value).orphanKey = none := rfl

@[simp] theorem orphanKey_cascaded (trigger : String) :
    (cascaded trigger : RowFate κ).orphanKey = none := rfl

@[simp] theorem orphanKey_orphan (key : κ) : (orphan key).orphanKey = some key := rfl

@[simp] theorem isOrphan_eq (fate : RowFate κ) : fate.isOrphan = fate.orphanKey.isSome := rfl

end RowFate

theorem record_masked (fates : List (RowFate κ)) (scan : RowScan κ) :
    (fates.foldl RowScan.record scan).masked = scan.masked ++ fates.map RowFate.cell := by
  induction fates generalizing scan with
  | nil => simp
  | cons fate fates ih =>
      rw [List.foldl_cons, ih]
      cases fate <;> simp [RowScan.record]

theorem record_orphanKeys (fates : List (RowFate κ)) (scan : RowScan κ) :
    (fates.foldl RowScan.record scan).orphanKeys =
      scan.orphanKeys ++ fates.filterMap RowFate.orphanKey := by
  induction fates generalizing scan with
  | nil => simp
  | cons fate fates ih =>
      rw [List.foldl_cons, ih, List.filterMap_cons]
      cases fate <;> simp [RowScan.record]

theorem record_orphanPositions (fates : List (RowFate κ)) (scan : RowScan κ) :
    (fates.foldl RowScan.record scan).orphanPositions =
      scan.orphanPositions ++
        ((fates.zipIdx scan.masked.length).filter (fun entry => entry.1.isOrphan)).map Prod.snd := by
  induction fates generalizing scan with
  | nil => simp
  | cons fate fates ih =>
      rw [List.foldl_cons, ih]
      cases fate <;> simp [RowScan.record, List.filter_cons]

/-- The column with its orphan rows filled from a list of replacements, in order. -/
def fillOrphans : List (RowFate κ) → List κ → List (Option κ)
  | [], _ => []
  | .orphan _ :: fates, value :: values => some value :: fillOrphans fates values
  | fate :: fates, values => fate.cell :: fillOrphans fates values

theorem writeAt_orphans (fates : List (RowFate κ)) (values : List κ)
    (length : values.length = (fates.filterMap RowFate.orphanKey).length) :
    writeAt (fates.map RowFate.cell)
      ((fates.zipIdx.filter (fun entry => entry.1.isOrphan)).map Prod.snd) (values.map some) =
      fillOrphans fates values := by
  suffices general : ∀ done : List (Option κ),
      ((((fates.zipIdx done.length).filter (fun entry => entry.1.isOrphan)).map Prod.snd).zip
        (values.map some)).foldl (fun result entry => result.set entry.1 entry.2)
          (done ++ fates.map RowFate.cell) = done ++ fillOrphans fates values by
    simpa [writeAt] using general []
  induction fates generalizing values with
  | nil => intro done; simp [fillOrphans]
  | cons fate fates ih =>
      intro done
      rw [List.filterMap_cons] at length
      cases fate with
      | null =>
          have rest := ih values length (done ++ [none])
          simpa [fillOrphans, List.zipIdx_cons, List.filter_cons] using rest
      | mapped value =>
          have rest := ih values length (done ++ [some value])
          simpa [fillOrphans, List.zipIdx_cons, List.filter_cons] using rest
      | cascaded trigger =>
          have rest := ih values length (done ++ [none])
          simpa [fillOrphans, List.zipIdx_cons, List.filter_cons] using rest
      | orphan key =>
          cases values with
          | nil => simp at length
          | cons value values =>
              have rest := ih values (by simpa using length)
                (done ++ [some value])
              simpa [fillOrphans, List.zipIdx_cons, List.filter_cons] using rest

theorem fillOrphans_map (fates : List (RowFate κ)) (replace : κ → κ) :
    fillOrphans fates ((fates.filterMap RowFate.orphanKey).map replace) =
      fates.map (fun fate => match fate with
        | .orphan key => some (replace key)
        | other => other.cell) := by
  induction fates with
  | nil => rfl
  | cons fate fates ih =>
      rw [List.filterMap_cons]
      cases fate <;> simp [fillOrphans, ih]

theorem fillOrphans_mapped {fates : List (RowFate κ)} (values : List κ) {i : Nat} {value : κ}
    (found : fates[i]? = some (.mapped value)) :
    (fillOrphans fates values)[i]? = some (some value) := by
  induction fates generalizing values i with
  | nil => simp at found
  | cons fate fates ih =>
      cases i with
      | zero =>
          obtain rfl : fate = .mapped value := by simpa using found
          simp [fillOrphans]
      | succ i =>
          have tail : fates[i]? = some (.mapped value) := by simpa using found
          cases fate with
          | orphan key =>
              cases values with
              | nil => simpa [fillOrphans] using ih [] tail
              | cons first values => simpa [fillOrphans] using ih values tail
          | null => simpa [fillOrphans] using ih values tail
          | mapped other => simpa [fillOrphans] using ih values tail
          | cascaded trigger => simpa [fillOrphans] using ih values tail

/-- The fates of the rows, and the orphans among them. -/
structure RowScan.Describes (scan : RowScan κ) (fates : List (RowFate κ)) : Prop where
  masked : scan.masked = fates.map RowFate.cell
  orphanKeys : scan.orphanKeys = fates.filterMap RowFate.orphanKey
  orphanPositions : scan.orphanPositions =
    (fates.zipIdx.filter (fun entry => entry.1.isOrphan)).map Prod.snd

theorem scanRows_describes (parentMap : Dict ι κ) (erroredParentKeys : Dict ι String)
    (childKeys : List (Option κ)) :
    (scanRows ident parentMap erroredParentKeys childKeys).Describes
      (childKeys.map (rowFate ident parentMap erroredParentKeys)) where
  masked := record_masked _ RowScan.start
  orphanKeys := record_orphanKeys _ RowScan.start
  orphanPositions := record_orphanPositions _ RowScan.start

theorem orphanPositions_length (fates : List (RowFate κ)) :
    ((fates.zipIdx.filter (fun entry => entry.1.isOrphan)).map Prod.snd).length =
      (fates.filterMap RowFate.orphanKey).length := by
  suffices general : ∀ start : Nat,
      ((fates.zipIdx start).filter (fun entry => entry.1.isOrphan)).length =
        (fates.filterMap RowFate.orphanKey).length by
    simpa using general 0
  induction fates with
  | nil => intro start; rfl
  | cons fate fates ih =>
      intro start
      rw [List.filterMap_cons, List.zipIdx_cons]
      cases fate <;> simpa [List.filter_cons] using ih (start + 1)

theorem resolveFkKeys_ok {childKeys : List (Option κ)} {parentMap : Dict ι κ}
    {edge : RelationshipEdge} {remapFn : List κ → List κ} {erroredParentKeys : Dict ι String}
    {resolved : Resolved κ}
    (ran : resolveFkKeys ident childKeys parentMap edge remapFn erroredParentKeys = .ok resolved) :
    ∃ values, resolved.masked =
      fillOrphans (childKeys.map (rowFate ident parentMap erroredParentKeys)) values := by
  have described := scanRows_describes ident parentMap erroredParentKeys childKeys
  unfold resolveFkKeys at ran
  generalize scanRows ident parentMap erroredParentKeys childKeys = scan at described ran
  generalize childKeys.map (rowFate ident parentMap erroredParentKeys) = fates at described ⊢
  have filled : ∀ values : List κ, values.length = scan.orphanPositions.length →
      writeAt scan.masked scan.orphanPositions (values.map some) = fillOrphans fates values := by
    intro values length
    rw [described.orphanPositions, orphanPositions_length] at length
    rw [described.masked, described.orphanPositions]
    exact writeAt_orphans fates values length
  have keysLength : scan.orphanKeys.length = scan.orphanPositions.length := by
    rw [described.orphanKeys, described.orphanPositions, orphanPositions_length]
  dsimp only at ran
  by_cases covered : scan.orphanPositions = []
  · rw [if_pos covered] at ran
    obtain rfl := Except.ok.inj ran
    refine ⟨[], ?_⟩
    rw [← filled [] (by simp [covered])]
    simp [writeAt]
  · rw [if_neg covered] at ran
    cases policy : edge.orphanPolicy with
    | fail => simp [policy] at ran
    | remap =>
        simp only [policy] at ran
        by_cases length : (remapFn scan.orphanKeys).length = scan.orphanPositions.length
        · rw [if_neg (not_not.mpr length)] at ran
          obtain rfl := Except.ok.inj ran
          exact ⟨_, filled _ length⟩
        · rw [if_pos length] at ran
          cases ran
    | preserve =>
        simp only [policy] at ran
        obtain rfl := Except.ok.inj ran
        exact ⟨_, filled _ keysLength⟩
    | warn =>
        simp only [policy] at ran
        obtain rfl := Except.ok.inj ran
        exact ⟨_, filled _ keysLength⟩

theorem resolveFkKeys_covered {childKeys : List (Option κ)} {parentMap : Dict ι κ}
    {erroredParentKeys : Dict ι String} (edge : RelationshipEdge) (remapFn : List κ → List κ)
    (covered : (childKeys.map (rowFate ident parentMap erroredParentKeys)).filterMap
      RowFate.orphanKey = []) :
    ∃ resolved, resolveFkKeys ident childKeys parentMap edge remapFn erroredParentKeys =
      .ok resolved ∧
      resolved.masked = childKeys.map
        (fun key => (rowFate ident parentMap erroredParentKeys key).cell) := by
  have described := scanRows_describes ident parentMap erroredParentKeys childKeys
  have none : (scanRows ident parentMap erroredParentKeys childKeys).orphanPositions = [] := by
    rw [described.orphanPositions, ← List.length_eq_zero_iff, orphanPositions_length, covered,
      List.length_nil]
  refine ⟨⟨(scanRows ident parentMap erroredParentKeys childKeys).masked, [],
    (scanRows ident parentMap erroredParentKeys childKeys).cascade⟩, ?_, ?_⟩
  · unfold resolveFkKeys
    dsimp only
    rw [if_pos none]
  · rw [described.masked, List.map_map]
    rfl

end Resolve

end DecoyEngine.Execution
