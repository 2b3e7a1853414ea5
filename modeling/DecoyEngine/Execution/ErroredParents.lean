import DecoyEngine.Execution.ParentMap

namespace DecoyEngine.Execution

open DecoyEngine.Data DecoyEngine.Relationships

/-! Parents with row errors: the keys `_parent_map` keeps out of the map, and what
`resolve_fk_keys` makes of their children. -/

/-- The trigger of each row that some key column excludes, the first column's first. -/
def excludedRows (parentColumns : List String) (columnErrors : String → Dict Nat String) :
    Dict Nat String :=
  parentColumns.foldl (fun excluded column => excluded.setdefaults (columnErrors column).entries)
    Dict.empty

structure ParentMaps where
  map : Dict (List PyIdentity) (List FkComponent)
  errored : Dict (List PyIdentity) String

/-- One pass of `_parent_map`'s loop. -/
def ParentMaps.add (maps : ParentMaps) (row : ParentRow) (excluded : Option String) : ParentMaps :=
  let key := tupleIdentity (normalizedKey row.source)
  if row.source.any pdIsna then maps
  else
    match excluded with
    | some trigger => ⟨maps.map, maps.errored.setdefault key trigger⟩
    | none => ⟨maps.map.set key row.masked, maps.errored⟩

/-- `_parent_map`, its rows with their triggers. -/
def parentMaps (rows : List (ParentRow × Option String)) : ParentMaps :=
  rows.foldl (fun maps row => maps.add row.1 row.2) ⟨Dict.empty, Dict.empty⟩

/-- `_parent_map` under the row errors of the parent table. -/
def parentMapsOf (parentColumns : List String) (columnErrors : String → Dict Nat String)
    (rows : List ParentRow) : ParentMaps :=
  parentMaps (rows.zipIdx.map fun row =>
    (row.1, (excludedRows parentColumns columnErrors).find row.2))

/-- A row of the parent that can be referenced by the key. -/
def Carries (key : List PyIdentity) (row : ParentRow) : Prop :=
  row.source.any pdIsna = false ∧ tupleIdentity (normalizedKey row.source) = key

theorem add_map_find {maps : ParentMaps} {row : ParentRow} {excluded : Option String}
    {key : List PyIdentity} {value : List FkComponent}
    (found : (maps.add row excluded).map.find key = some value) :
    maps.map.find key = some value ∨ excluded = none ∧ Carries key row ∧ row.masked = value := by
  simp only [ParentMaps.add] at found
  split at found
  · exact .inl found
  · rename_i present
    split at found
    · exact .inl found
    · simp only [Dict.find_set] at found
      split at found
      · rename_i same
        exact .inr ⟨rfl, ⟨by simpa using present, same.symm⟩, Option.some.inj found⟩
      · exact .inl found

/-- Every value of the map is the masked key of a row of that key that has no error. -/
theorem parentMaps_map_find {rows : List (ParentRow × Option String)} {key : List PyIdentity}
    {value : List FkComponent} (found : (parentMaps rows).map.find key = some value) :
    ∃ row, (row, none) ∈ rows ∧ Carries key row ∧ row.masked = value := by
  induction rows using List.reverseRecOn with
  | nil => cases found
  | append_singleton rows row ih =>
      rw [parentMaps, List.foldl_append] at found
      rcases add_map_find found with earlier | ⟨clean, carries, masked⟩
      · obtain ⟨row', member, facts⟩ := ih earlier
        exact ⟨row', List.mem_append_left _ member, facts⟩
      · refine ⟨row.1, List.mem_append_right _ ?_, carries, masked⟩
        rw [List.mem_singleton, ← clean]

section Rows

variable {κ : Type u} {ι : Type v} [DecidableEq ι] {ident : κ → ι}

/-- The row and trigger of a cascaded row. -/
def RowFate.cascadeAt (fate : RowFate κ) (row : Nat) : Option (Nat × String) :=
  match fate with
  | .cascaded trigger => some (row, trigger)
  | _ => none

theorem record_cascade (fates : List (RowFate κ)) (scan : RowScan κ) :
    (fates.foldl RowScan.record scan).cascade = scan.cascade ++
      (fates.zipIdx scan.masked.length).filterMap fun entry => entry.1.cascadeAt entry.2 := by
  induction fates generalizing scan with
  | nil => simp
  | cons fate fates ih =>
      rw [List.foldl_cons, ih]
      cases fate <;> simp [RowScan.record, RowFate.cascadeAt]

/-- The orphan rows: a key that is neither in the map nor errored. -/
def orphanRows (ident : κ → ι) (parentMap : Dict ι κ) (errored : Dict ι String)
    (childKeys : List (Option κ)) : List κ :=
  childKeys.filterMap fun key => key.filter fun key =>
    (parentMap.find (ident key)).isNone && (errored.find (ident key)).isNone

theorem orphanKeys_eq (parentMap : Dict ι κ) (errored : Dict ι String)
    (childKeys : List (Option κ)) :
    (childKeys.map (rowFate ident parentMap errored)).filterMap RowFate.orphanKey =
      orphanRows ident parentMap errored childKeys := by
  rw [List.filterMap_map, orphanRows]
  refine List.filterMap_congr fun key _ => ?_
  cases key with
  | none => rfl
  | some key =>
      rw [Function.comp_apply, rowFate, Option.filter_some]
      cases parentMap.find (ident key) with
      | some value => rfl
      | none =>
          cases errored.find (ident key) with
          | some trigger => rfl
          | none => rfl

theorem fillOrphans_orphan {fates : List (RowFate κ)} {values : List κ}
    (length : values.length = (fates.filterMap RowFate.orphanKey).length) {i : Nat} {key : κ}
    (found : fates[i]? = some (.orphan key)) :
    (fillOrphans fates values)[i]? =
      some (values[((fates.take i).filterMap RowFate.orphanKey).length]?) := by
  induction fates generalizing values i with
  | nil => simp at found
  | cons fate fates ih =>
      cases i with
      | zero =>
          obtain rfl : fate = .orphan key := by simpa using found
          cases values with
          | nil => simp at length
          | cons value values => simp [fillOrphans]
      | succ i =>
          have tail : fates[i]? = some (.orphan key) := by simpa using found
          rw [List.filterMap_cons] at length
          cases fate with
          | orphan first =>
              cases values with
              | nil => simp at length
              | cons value values =>
                  have rest := ih (by simpa using length) tail
                  simpa [fillOrphans, List.filterMap_cons] using rest
          | null => simpa [fillOrphans, List.filterMap_cons] using ih length tail
          | mapped value => simpa [fillOrphans, List.filterMap_cons] using ih length tail
          | cascaded trigger => simpa [fillOrphans, List.filterMap_cons] using ih length tail

theorem orphan_number_lt {fates : List (RowFate κ)} {i : Nat} {key : κ}
    (found : fates[i]? = some (.orphan key)) :
    ((fates.take i).filterMap RowFate.orphanKey).length <
      (fates.filterMap RowFate.orphanKey).length := by
  have upTo : fates.take (i + 1) = fates.take i ++ [.orphan key] := by
    rw [List.take_add_one, found, Option.toList_some]
  have le := ((List.take_sublist (i + 1) fates).filterMap RowFate.orphanKey).length_le
  rw [upTo, List.filterMap_append, List.length_append] at le
  exact le

theorem fillOrphans_other {fates : List (RowFate κ)} (values : List κ) {i : Nat}
    {fate : RowFate κ} (found : fates[i]? = some fate) (known : fate.orphanKey = none) :
    (fillOrphans fates values)[i]? = some fate.cell := by
  induction fates generalizing values i with
  | nil => simp at found
  | cons first fates ih =>
      cases i with
      | zero =>
          obtain rfl : first = fate := by simpa using found
          cases first with
          | orphan key => cases known
          | null => simp [fillOrphans]
          | mapped value => simp [fillOrphans]
          | cascaded trigger => simp [fillOrphans]
      | succ i =>
          have tail : fates[i]? = some fate := by simpa using found
          cases first with
          | orphan key =>
              cases values with
              | nil => simpa [fillOrphans] using ih [] tail
              | cons value values => simpa [fillOrphans] using ih values tail
          | null => simpa [fillOrphans] using ih values tail
          | mapped other => simpa [fillOrphans] using ih values tail
          | cascaded trigger => simpa [fillOrphans] using ih values tail

theorem length_fillOrphans (fates : List (RowFate κ)) (values : List κ) :
    (fillOrphans fates values).length = fates.length := by
  induction fates generalizing values with
  | nil => rfl
  | cons fate fates ih =>
      cases fate with
      | orphan key =>
          cases values with
          | nil => simp [fillOrphans, ih]
          | cons value values => simp [fillOrphans, ih]
      | null => simp [fillOrphans, ih]
      | mapped other => simp [fillOrphans, ih]
      | cascaded trigger => simp [fillOrphans, ih]

/-- The cascaded rows, each with its trigger, in order. -/
def cascadedRows (ident : κ → ι) (parentMap : Dict ι κ) (errored : Dict ι String)
    (childKeys : List (Option κ)) : List (Nat × String) :=
  childKeys.zipIdx.filterMap fun row => (rowFate ident parentMap errored row.1).cascadeAt row.2

/-- What a run that succeeds leaves in every row: each of the four kinds of row by itself. -/
structure RowsResolved (ident : κ → ι) (parentMap : Dict ι κ) (errored : Dict ι String)
    (childKeys : List (Option κ)) (edge : RelationshipEdge) (remapFn : List κ → List κ)
    (resolved : Resolved κ) : Prop where
  length : resolved.masked.length = childKeys.length
  null : ∀ i : Nat, childKeys[i]? = some none → resolved.masked[i]? = some none
  mapped : ∀ (i : Nat) (key value : κ), childKeys[i]? = some (some key) →
    parentMap.find (ident key) = some value → resolved.masked[i]? = some (some value)
  cascaded : ∀ (i : Nat) (key : κ) (trigger : String), childKeys[i]? = some (some key) →
    parentMap.find (ident key) = none → errored.find (ident key) = some trigger →
    resolved.masked[i]? = some none
  orphan : ∀ (i : Nat) (key : κ), childKeys[i]? = some (some key) →
    parentMap.find (ident key) = none → errored.find (ident key) = none →
    ∃ value, resolved.masked[i]? = some (some value) ∧
      match edge.orphanPolicy with
      | .fail => False
      | .remap =>
          (remapFn (orphanRows ident parentMap errored childKeys))[
            (orphanRows ident parentMap errored (childKeys.take i)).length]? = some value
      | .preserve | .warn => value = key
  cascade : resolved.cascade = cascadedRows ident parentMap errored childKeys
  warnings : resolved.warnings =
    if edge.orphanPolicy = .warn ∧ orphanRows ident parentMap errored childKeys ≠ [] then
      [orphanWarning edge (orphanRows ident parentMap errored childKeys).length]
    else []

/-- The errors of `resolve_fk_keys`. -/
def Raises (orphans : List κ) (edge : RelationshipEdge) (remapFn : List κ → List κ)
    (error : ExecutionError) : Prop :=
  orphans ≠ [] ∧
    (edge.orphanPolicy = .fail ∧ error = .orphanFkViolation edge orphans.length ∨
      edge.orphanPolicy = .remap ∧ (remapFn orphans).length ≠ orphans.length ∧
        error = .remapLength)

section Law

variable {parentMap : Dict ι κ} {errored : Dict ι String} {childKeys : List (Option κ)}
  {edge : RelationshipEdge} {remapFn : List κ → List κ}

variable (ident parentMap errored) in
theorem rowFate_at {key : Option κ} {i : Nat} (found : childKeys[i]? = some key) :
    (childKeys.map (rowFate ident parentMap errored))[i]? =
      some (rowFate ident parentMap errored key) := by
  rw [List.getElem?_map, found, Option.map_some]

theorem rowFate_mapped {key value : κ} (found : parentMap.find (ident key) = some value) :
    rowFate ident parentMap errored (some key) = .mapped value := by
  rw [rowFate, found]

theorem rowFate_cascaded {key : κ} {trigger : String}
    (absent : parentMap.find (ident key) = none) (known : errored.find (ident key) = some trigger) :
    rowFate ident parentMap errored (some key) = .cascaded trigger := by
  rw [rowFate, absent, known]

theorem rowFate_orphan {key : κ} (absent : parentMap.find (ident key) = none)
    (clean : errored.find (ident key) = none) :
    rowFate ident parentMap errored (some key) = .orphan key := by
  rw [rowFate, absent, clean]

theorem cascadedRows_eq :
    (scanRows ident parentMap errored childKeys).cascade =
      cascadedRows ident parentMap errored childKeys := by
  rw [scanRows, record_cascade, cascadedRows]
  have start : (RowScan.start : RowScan κ) = ⟨[], [], [], []⟩ := rfl
  rw [start, List.length_nil, List.nil_append, List.zipIdx_map, List.filterMap_map]
  rfl

theorem fillOrphans_resolved {values : List κ} {warnings : List QualityWarning}
    (length : values.length = (orphanRows ident parentMap errored childKeys).length)
    (replaced : ∀ (i : Nat) (key value : κ), childKeys[i]? = some (some key) →
      parentMap.find (ident key) = none → errored.find (ident key) = none →
      values[(orphanRows ident parentMap errored (childKeys.take i)).length]? = some value →
      match edge.orphanPolicy with
      | .fail => False
      | .remap =>
          (remapFn (orphanRows ident parentMap errored childKeys))[
            (orphanRows ident parentMap errored (childKeys.take i)).length]? = some value
      | .preserve | .warn => value = key)
    (warned : warnings =
      if edge.orphanPolicy = .warn ∧ orphanRows ident parentMap errored childKeys ≠ [] then
        [orphanWarning edge (orphanRows ident parentMap errored childKeys).length]
      else []) :
    RowsResolved ident parentMap errored childKeys edge remapFn
      ⟨fillOrphans (childKeys.map (rowFate ident parentMap errored)) values, warnings,
        cascadedRows ident parentMap errored childKeys⟩ where
  length := by rw [length_fillOrphans, List.length_map]
  null i found := fillOrphans_other values (rowFate_at _ _ _ found) rfl
  mapped i key value found hit := by
    have fate := rowFate_at ident parentMap errored found
    rw [rowFate_mapped hit] at fate
    exact fillOrphans_other values fate rfl
  cascaded i key trigger found absent known := by
    have fate := rowFate_at ident parentMap errored found
    rw [rowFate_cascaded absent known] at fate
    exact fillOrphans_other values fate rfl
  orphan i key found absent clean := by
    have fate := rowFate_at ident parentMap errored found
    rw [rowFate_orphan absent clean] at fate
    rw [← orphanKeys_eq] at length
    have filled := fillOrphans_orphan length fate
    have number : (((childKeys.map (rowFate ident parentMap errored)).take i).filterMap
        RowFate.orphanKey).length =
          (orphanRows ident parentMap errored (childKeys.take i)).length := by
      rw [← List.map_take, orphanKeys_eq]
    have within := orphan_number_lt fate
    rw [number] at filled within
    rw [← length] at within
    rw [List.getElem?_eq_getElem within] at filled
    exact ⟨_, filled, replaced i key _ found absent clean (List.getElem?_eq_getElem within)⟩
  cascade := rfl
  warnings := warned

theorem orphanRows_number {i : Nat} {key : κ} (found : childKeys[i]? = some (some key))
    (absent : parentMap.find (ident key) = none) (clean : errored.find (ident key) = none) :
    (orphanRows ident parentMap errored childKeys)[
      (orphanRows ident parentMap errored (childKeys.take i)).length]? = some key := by
  have split : childKeys = childKeys.take i ++ some key :: childKeys.drop (i + 1) := by
    obtain ⟨within, is⟩ := List.getElem?_eq_some_iff.mp found
    rw [← is, List.getElem_cons_drop, List.take_append_drop]
  have kept : (some key).filter (fun key =>
      (parentMap.find (ident key)).isNone && (errored.find (ident key)).isNone) = some key := by
    rw [Option.filter_some, absent, clean]
    rfl
  have whole : orphanRows ident parentMap errored childKeys =
      orphanRows ident parentMap errored (childKeys.take i) ++
        key :: orphanRows ident parentMap errored (childKeys.drop (i + 1)) := by
    conv_lhs => rw [split]
    rw [orphanRows, List.filterMap_append, List.filterMap_cons_some kept]
    rfl
  rw [whole, List.getElem?_append_right (Nat.le_refl _), Nat.sub_self, List.getElem?_cons_zero]

theorem resolveFkKeys_eq (ident : κ → ι) (childKeys : List (Option κ)) (parentMap : Dict ι κ)
    (edge : RelationshipEdge) (remapFn : List κ → List κ) (errored : Dict ι String) :
    resolveFkKeys ident childKeys parentMap edge remapFn errored =
      let fates := childKeys.map (rowFate ident parentMap errored)
      let orphans := orphanRows ident parentMap errored childKeys
      let cascade := cascadedRows ident parentMap errored childKeys
      if orphans = [] then .ok ⟨fillOrphans fates [], [], cascade⟩
      else
        match edge.orphanPolicy with
        | .fail => .error (.orphanFkViolation edge orphans.length)
        | .remap =>
            if (remapFn orphans).length ≠ orphans.length then .error .remapLength
            else .ok ⟨fillOrphans fates (remapFn orphans), [], cascade⟩
        | .preserve => .ok ⟨fillOrphans fates orphans, [], cascade⟩
        | .warn =>
            .ok ⟨fillOrphans fates orphans, [orphanWarning edge orphans.length], cascade⟩ := by
  have described := scanRows_describes ident parentMap errored childKeys
  have cascaded : (scanRows ident parentMap errored childKeys).cascade =
    cascadedRows ident parentMap errored childKeys := cascadedRows_eq
  unfold resolveFkKeys
  generalize scanRows ident parentMap errored childKeys = scan at described cascaded ⊢
  have keys : scan.orphanKeys = orphanRows ident parentMap errored childKeys := by
    rw [described.orphanKeys, orphanKeys_eq]
  have count : scan.orphanPositions.length =
      (orphanRows ident parentMap errored childKeys).length := by
    rw [described.orphanPositions, orphanPositions_length, orphanKeys_eq]
  have filled : ∀ values : List κ,
      values.length = (orphanRows ident parentMap errored childKeys).length →
      writeAt scan.masked scan.orphanPositions (values.map some) =
        fillOrphans (childKeys.map (rowFate ident parentMap errored)) values := by
    intro values length
    rw [described.masked, described.orphanPositions]
    exact writeAt_orphans _ values (by rw [length, orphanKeys_eq])
  have covered : scan.orphanPositions = [] ↔
      orphanRows ident parentMap errored childKeys = [] := by
    rw [← List.length_eq_zero_iff, count, List.length_eq_zero_iff]
  dsimp only
  rw [cascaded, keys, count]
  by_cases none : orphanRows ident parentMap errored childKeys = []
  · rw [if_pos (covered.mpr none), if_pos none, ← filled [] (by rw [none])]
    rw [covered.mpr none]
    rfl
  · rw [if_neg (fun empty => none (covered.mp empty)), if_neg none]
    cases edge.orphanPolicy with
    | fail => rfl
    | remap =>
        by_cases length : (remapFn (orphanRows ident parentMap errored childKeys)).length =
            (orphanRows ident parentMap errored childKeys).length
        · simp only [length, ne_eq, not_true, if_false, filled _ length]
        · simp only [ne_eq, length, not_false_eq_true, if_true]
    | preserve => simp only [filled _ rfl]
    | warn => simp only [filled _ rfl]

theorem resolveFkKeys_error_iff (error : ExecutionError) :
    resolveFkKeys ident childKeys parentMap edge remapFn errored = .error error ↔
      Raises (orphanRows ident parentMap errored childKeys) edge remapFn error := by
  rw [resolveFkKeys_eq]
  dsimp only
  by_cases none : orphanRows ident parentMap errored childKeys = []
  · simp [Raises, none]
  · rw [if_neg none]
    cases policy : edge.orphanPolicy with
    | fail => simp [Raises, none, policy, eq_comm]
    | remap =>
        by_cases length : (remapFn (orphanRows ident parentMap errored childKeys)).length =
            (orphanRows ident parentMap errored childKeys).length
        · simp [Raises, length, policy]
        · simp [Raises, none, length, policy, eq_comm]
    | preserve => simp [Raises, policy]
    | warn => simp [Raises, policy]

theorem resolveFkKeys_resolved {resolved : Resolved κ}
    (ran : resolveFkKeys ident childKeys parentMap edge remapFn errored = .ok resolved) :
    RowsResolved ident parentMap errored childKeys edge remapFn resolved := by
  rw [resolveFkKeys_eq] at ran
  dsimp only at ran
  by_cases none : orphanRows ident parentMap errored childKeys = []
  · rw [if_pos none] at ran
    obtain rfl := Except.ok.inj ran
    refine fillOrphans_resolved (by rw [none]) ?_ (by simp [none])
    intro i key value found absent clean nothing
    cases nothing
  · rw [if_neg none] at ran
    cases policy : edge.orphanPolicy with
    | fail =>
        simp only [policy] at ran
        cases ran
    | remap =>
        simp only [policy] at ran
        split at ran
        · cases ran
        · rename_i length
          obtain rfl := Except.ok.inj ran
          refine fillOrphans_resolved (not_not.mp length) ?_ (by simp [policy])
          intro i key value found absent clean replacement
          rw [policy]
          exact replacement
    | preserve =>
        simp only [policy] at ran
        obtain rfl := Except.ok.inj ran
        refine fillOrphans_resolved rfl ?_ (by simp [policy])
        intro i key value found absent clean own
        rw [policy]
        exact (Option.some.inj ((orphanRows_number found absent clean).symm.trans own)).symm
    | warn =>
        simp only [policy] at ran
        obtain rfl := Except.ok.inj ran
        refine fillOrphans_resolved rfl ?_ (by simp [policy, none])
        intro i key value found absent clean own
        rw [policy]
        exact (Option.some.inj ((orphanRows_number found absent clean).symm.trans own)).symm

end Law

end Rows

/-- A row of the parent table that `_parent_map` does not exclude. -/
def CleanRow (parentColumns : List String) (columnErrors : String → Dict Nat String)
    (rows : List ParentRow) (row : ParentRow) : Prop :=
  ∃ index, rows[index]? = some row ∧ (excludedRows parentColumns columnErrors).find index = none

theorem parentMapsOf_map_find {parentColumns : List String}
    {columnErrors : String → Dict Nat String} {rows : List ParentRow} {key : List PyIdentity}
    {value : List FkComponent}
    (found : (parentMapsOf parentColumns columnErrors rows).map.find key = some value) :
    ∃ row, CleanRow parentColumns columnErrors rows row ∧ Carries key row ∧ row.masked = value := by
  obtain ⟨row, member, carries, masked⟩ := parentMaps_map_find found
  obtain ⟨entry, known, same⟩ := List.mem_map.mp member
  obtain ⟨rfl, clean⟩ := Prod.mk.inj same
  exact ⟨entry.1, ⟨entry.2, List.mem_zipIdx_iff_getElem?.mp known, clean⟩, carries, masked⟩

/-- The children of errored parents and the orphans, under every policy. A key of an errored
parent becomes null, or what another row of that key, which has no error, was masked to. -/
theorem resolve_errored_parents (childKeys : List (Option (List FkComponent)))
    (parentMap : Dict (List PyIdentity) (List FkComponent))
    (errored : Dict (List PyIdentity) String) (edge : RelationshipEdge)
    (remapFn : List (List FkComponent) → List (List FkComponent)) :
    (∀ error, resolveFkKeys tupleIdentity childKeys parentMap edge remapFn errored = .error error ↔
      Raises (orphanRows tupleIdentity parentMap errored childKeys) edge remapFn error) ∧
    ∀ resolved, resolveFkKeys tupleIdentity childKeys parentMap edge remapFn errored =
        .ok resolved →
      RowsResolved tupleIdentity parentMap errored childKeys edge remapFn resolved ∧
      ∀ parentColumns columnErrors rows,
        (⟨parentMap, errored⟩ : ParentMaps) = parentMapsOf parentColumns columnErrors rows →
        ∀ (i : Nat) (key : List FkComponent) (trigger : String), childKeys[i]? = some (some key) →
          errored.find (tupleIdentity key) = some trigger →
          resolved.masked[i]? = some none ∨
            ∃ row, CleanRow parentColumns columnErrors rows row ∧
              Carries (tupleIdentity key) row ∧ resolved.masked[i]? = some (some row.masked) := by
  refine ⟨fun error => resolveFkKeys_error_iff error, fun resolved ran => ?_⟩
  have law := resolveFkKeys_resolved ran
  refine ⟨law, fun parentColumns columnErrors rows built i key trigger found known => ?_⟩
  cases hit : parentMap.find (tupleIdentity key) with
  | none => exact .inl (law.cascaded i key trigger found hit known)
  | some value =>
      have mapHit : (parentMapsOf parentColumns columnErrors rows).map.find (tupleIdentity key) =
          some value := by rw [← built, hit]
      obtain ⟨row, clean, carries, masked⟩ := parentMapsOf_map_find mapHit
      refine .inr ⟨row, clean, carries, ?_⟩
      rw [masked]
      exact law.mapped i key value found hit

/-- A key 5 with two parent rows: the `when` gate left the first as it is, the second failed. -/
def gatedAndErrored : List ParentRow :=
  [⟨[⟨.int 5, by decide⟩], [.int 5]⟩, ⟨[⟨.int 5, by decide⟩], [.null]⟩]

def secondRowErrors : String → Dict Nat String :=
  fun _ => Dict.empty.set 1 "format_error"

def ordersEdge : RelationshipEdge where
  parentTable := "customers"
  parentColumns := ["id"]
  childTable := "orders"
  childColumns := ["customer_id"]
  namespaceName := "customers"
  orphanPolicy := .fail

theorem errored_key_can_stay_raw :
    ¬ ∀ (parentColumns : List String) (columnErrors : String → Dict Nat String)
      (rows : List ParentRow) (childKeys : List (Option (List FkComponent)))
      (edge : RelationshipEdge)
      (remapFn : List (List FkComponent) → List (List FkComponent))
      (resolved : Resolved (List FkComponent)) (i : Nat) (key : List FkComponent)
      (trigger : String),
      let maps := parentMapsOf parentColumns columnErrors rows
      resolveFkKeys tupleIdentity childKeys maps.map edge remapFn maps.errored = .ok resolved →
      childKeys[i]? = some (some key) → maps.errored.find (tupleIdentity key) = some trigger →
      resolved.masked[i]? ≠ some (some key) := by
  intro never
  exact never ["id"] secondRowErrors gatedAndErrored [some [.int 5]] ordersEdge id
    ⟨[some [.int 5]], [], []⟩ 0 [.int 5] "format_error" rfl rfl rfl rfl

theorem resolve_errored_parents_gated :
    let maps := parentMapsOf ["id"] secondRowErrors gatedAndErrored
    (∃ row, CleanRow ["id"] secondRowErrors gatedAndErrored row ∧
      Carries (tupleIdentity [.int 5]) row ∧ row.masked = [.int 5]) ∧
    RowsResolved tupleIdentity maps.map maps.errored [some [.int 5], none] ordersEdge id
      ⟨[some [.int 5], none], [], []⟩ := by
  have law := (resolve_errored_parents [some [.int 5], none]
    (parentMapsOf ["id"] secondRowErrors gatedAndErrored).map
    (parentMapsOf ["id"] secondRowErrors gatedAndErrored).errored ordersEdge id).2
    ⟨[some [.int 5], none], [], []⟩ rfl
  refine ⟨?_, law.1⟩
  rcases law.2 ["id"] secondRowErrors gatedAndErrored rfl 0 [.int 5] "format_error" rfl rfl with
    null | ⟨row, clean, carries, masked⟩
  · cases null
  · exact ⟨row, clean, carries, by simpa using masked.symm⟩

end DecoyEngine.Execution
