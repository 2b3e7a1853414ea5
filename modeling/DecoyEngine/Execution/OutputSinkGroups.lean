import DecoyEngine.Execution.OutputSink

namespace DecoyEngine.Execution.OutputSink

/-! The row groups of a stream: what has been handed out and what the buffer still holds. -/

section Groups

variable {T M V B : Type} {memory : Memory T M B} {caps : Caps} {schema : List (Field T M)}
  {fed : List (List (Option V))} {stream : Stream T M V B}

/-- The rows of a group, by what ended it. -/
def Sized (caps : Caps) (rows : Nat) : Cut → Prop
  | .full => rows = caps.rowGroupRows
  | .bytes nbytes => caps.rowGroupBytes ≤ nbytes ∧ 0 < rows ∧ rows < caps.rowGroupRows
  | .last => 0 < rows ∧ rows < caps.rowGroupRows

def Cut.isBytes : Cut → Bool
  | .bytes _ => true
  | _ => false

def groupRows (groups : List (Table T M V B × Cut)) : List (List (Option V)) :=
  groups.flatMap fun group => group.1.rows

/-- A stream that some rows have been fed to. -/
structure Fed (caps : Caps) (schema : List (Field T M)) (fed : List (List (Option V)))
    (stream : Stream T M V B) : Prop where
  rows : groupRows stream.groups ++ stream.buffer.tables.flatMap Table.rows = fed
  count : stream.buffer.rows = (stream.buffer.tables.flatMap Table.rows).length
  fields : ∀ table ∈ stream.buffer.tables, table.fields = schema
  schema : ∀ group ∈ stream.groups, group.1.fields = schema ∧ group.1.metadata = none
  sized : ∀ group ∈ stream.groups, Sized caps group.1.numRows group.2
  rowGroups : stream.stats.rowGroups = stream.groups.length
  byteCut : stream.stats.byteCutRowGroups = stream.groups.countP fun group => group.2.isBytes
  left : ∀ rows ∈ stream.left, rows < caps.rowGroupRows

theorem takeRows_fields (memory : Memory T M B) (need : Nat) {queue : List (Table T M V B)}
    (fields : ∀ table ∈ queue, table.fields = schema) :
    (∀ table ∈ ((Table.pieces memory).takeRows need queue).1, table.fields = schema) ∧
      ∀ table ∈ ((Table.pieces memory).takeRows need queue).2, table.fields = schema := by
  induction queue generalizing need with
  | nil => exact ⟨fields, fields⟩
  | cons head rest ih =>
      have first := fields head List.mem_cons_self
      have later : ∀ table ∈ rest, table.fields = schema :=
        fun table member => fields table (.tail _ member)
      unfold Sliceable.takeRows
      split
      · exact ⟨fun _ member => (List.not_mem_nil member).elim, fields⟩
      · split
        · obtain ⟨taken, left⟩ := ih (need - (Table.pieces memory).length head) later
          exact ⟨List.forall_mem_cons.mpr ⟨first, taken⟩, left⟩
        · exact ⟨List.forall_mem_singleton.mpr first, List.forall_mem_cons.mpr ⟨first, later⟩⟩

theorem Fed.emit (inv : Fed caps schema fed stream) {count : Nat} {cut : Cut}
    (positive : 0 < count) (enough : count ≤ stream.buffer.rows)
    (sized : Sized caps count cut) :
    Fed caps schema fed (stream.emit memory count cut) := by
  have counted := inv.count
  obtain ⟨taken, left⟩ := (Table.pieces memory).takeRows_rows count stream.buffer.tables
  obtain ⟨takenFields, leftFields⟩ := takeRows_fields memory count inv.fields
  have some' := (Table.pieces memory).takeRows_ne_nil positive (counted ▸ enough)
  have group : (combine memory
      ((Table.pieces memory).takeRows count stream.buffer.tables).1).fields = schema := by
    obtain ⟨head, rest, split⟩ := List.exists_cons_of_ne_nil some'
    rw [split] at takenFields ⊢
    exact takenFields head List.mem_cons_self
  have size : (combine memory
      ((Table.pieces memory).takeRows count stream.buffer.tables).1).numRows = count := by
    rw [Table.numRows]
    refine (congrArg List.length taken).trans ?_
    rw [List.length_take]
    exact Nat.min_eq_left (counted ▸ enough)
  constructor
  · rw [← inv.rows]
    simp only [Stream.emit, Buffer.takeRows, groupRows, List.flatMap_append, List.flatMap_cons,
      List.flatMap_nil, List.append_nil, List.append_assoc, List.append_cancel_left_eq]
    refine (congrArg₂ (· ++ ·) taken left).trans ?_
    exact List.take_append_drop count _
  · refine Eq.trans ?_ (congrArg List.length left).symm
    rw [List.length_drop]
    exact congrArg (· - count) counted
  · exact leftFields
  · intro other member
    rcases List.mem_append.mp member with before | new
    · exact inv.schema other before
    · rw [List.mem_singleton.mp new]
      exact ⟨group, rfl⟩
  · intro other member
    rcases List.mem_append.mp member with before | new
    · exact inv.sized other before
    · rw [List.mem_singleton.mp new]
      exact size.symm ▸ sized
  · refine Eq.trans ?_ List.length_append.symm
    exact congrArg (· + 1) inv.rowGroups
  · refine Eq.trans ?_ List.countP_append.symm
    rw [← inv.byteCut]
    cases cut <;> rfl
  · exact inv.left

theorem Fed.drain (memory : Memory T M B) (inv : Fed caps schema fed stream) :
    Fed caps schema fed (stream.drain memory caps) ∧
      (stream.drain memory caps).buffer.rows < caps.rowGroupRows := by
  induction stream using Stream.drain.induct memory caps with
  | case1 stream full ih =>
      have positive := caps.rows_pos
      rw [Stream.drain, dif_pos full]
      exact ih (inv.emit positive full rfl)
  | case2 stream under =>
      rw [Stream.drain, dif_neg under]
      exact ⟨inv, Nat.lt_of_not_le under⟩

theorem Fed.feed (memory : Memory T M B) (inv : Fed caps schema fed stream) {chunk : Table T M V B}
    (fields : chunk.fields = schema) :
    Fed caps schema (fed ++ chunk.rows) (stream.feed memory caps chunk) ∧
      (stream.feed memory caps chunk).buffer.rows < caps.rowGroupRows := by
  have added : Fed caps schema (fed ++ chunk.rows)
      { stream with
        buffer := ⟨stream.buffer.tables ++ [chunk], stream.buffer.rows + chunk.numRows,
          stream.buffer.nbytes + chunk.nbytes memory⟩ } := by
    refine ⟨?_, ?_, ?_, inv.schema, inv.sized, inv.rowGroups, inv.byteCut, inv.left⟩
    · rw [← inv.rows, List.append_assoc]
      simp only [List.flatMap_append, List.flatMap_cons, List.flatMap_nil, List.append_nil]
    · simp only [List.flatMap_append, List.flatMap_cons, List.flatMap_nil, List.append_nil,
        List.length_append, ← inv.count]
      rfl
    · exact List.forall_mem_append.mpr ⟨inv.fields, List.forall_mem_singleton.mpr fields⟩
  obtain ⟨drained, under⟩ := added.drain memory
  unfold Stream.feed
  extract_lets start drainedStream cut
  have closed : Fed caps schema (fed ++ chunk.rows) cut ∧
      cut.buffer.rows < caps.rowGroupRows := by
    by_cases heavy : (0 < drainedStream.buffer.rows &&
        decide (caps.rowGroupBytes ≤ drainedStream.buffer.nbytes)) = true
    · have both := Bool.and_eq_true_iff.mp heavy
      have positive := of_decide_eq_true both.1
      have size := of_decide_eq_true both.2
      have result : cut = drainedStream.emit memory drainedStream.buffer.rows
          (.bytes drainedStream.buffer.nbytes) := if_pos heavy
      rw [result]
      refine ⟨drained.emit positive (Nat.le_refl _) ⟨size, positive, under⟩, ?_⟩
      have none : (drainedStream.emit memory drainedStream.buffer.rows
          (.bytes drainedStream.buffer.nbytes)).buffer.rows = 0 := Nat.sub_self _
      rw [none]
      exact caps.rows_pos
    · have result : cut = drainedStream := if_neg heavy
      rw [result]
      exact ⟨drained, under⟩
  refine ⟨⟨closed.1.rows, closed.1.count, closed.1.fields, closed.1.schema, closed.1.sized,
    closed.1.rowGroups, closed.1.byteCut, ?_⟩, closed.2⟩
  exact List.forall_mem_append.mpr ⟨closed.1.left, List.forall_mem_singleton.mpr closed.2⟩

/-- No group is the last one yet. -/
def Running (stream : Stream T M V B) : Prop := ∀ group ∈ stream.groups, group.2 ≠ .last

theorem Running.emit (running : Running stream) {count : Nat} {cut : Cut} (more : cut ≠ .last) :
    Running (stream.emit memory count cut) :=
  List.forall_mem_append.mpr ⟨running, List.forall_mem_singleton.mpr more⟩

theorem Running.drain (memory : Memory T M B) (caps : Caps) (running : Running stream) :
    Running (stream.drain memory caps) ∧
    (stream.drain memory caps).left = stream.left := by
  induction stream using Stream.drain.induct memory caps with
  | case1 stream full ih =>
      rw [Stream.drain, dif_pos full]
      exact ih (running.emit (fun same => by cases same))
  | case2 stream under =>
      rw [Stream.drain, dif_neg under]
      exact ⟨running, rfl⟩

theorem Running.feed (memory : Memory T M B) (caps : Caps) (running : Running stream)
    (chunk : Table T M V B) :
    Running (stream.feed memory caps chunk) ∧
      (stream.feed memory caps chunk).left.length = stream.left.length + 1 := by
  have added : Running { stream with
      buffer := ⟨stream.buffer.tables ++ [chunk], stream.buffer.rows + chunk.numRows,
        stream.buffer.nbytes + chunk.nbytes memory⟩ } := running
  obtain ⟨drained, same⟩ := added.drain memory caps
  unfold Stream.feed
  extract_lets start drainedStream cut
  rw [List.length_append]
  by_cases heavy : (0 < drainedStream.buffer.rows &&
      decide (caps.rowGroupBytes ≤ drainedStream.buffer.nbytes)) = true
  · have result : cut = drainedStream.emit memory drainedStream.buffer.rows
        (.bytes drainedStream.buffer.nbytes) := if_pos heavy
    rw [result]
    exact ⟨drained.emit (fun same => by cases same),
      congrArg (fun left : List Nat => left.length + 1) same⟩
  · have result : cut = drainedStream := if_neg heavy
    rw [result]
    exact ⟨drained, congrArg (fun left : List Nat => left.length + 1) same⟩

/-- What the sink has got at the end. -/
structure Delivered (caps : Caps) (schema : List (Field T M)) (rows : List (List (Option V)))
    (chunks : Nat) (stream : Stream T M V B) : Prop where
  rows : groupRows stream.groups = rows
  schema : ∀ group ∈ stream.groups, group.1.fields = schema ∧ group.1.metadata = none
  sized : ∀ group ∈ stream.groups, Sized caps group.1.numRows group.2
  lastOnly : ∀ group ∈ stream.groups.dropLast, group.2 ≠ .last
  rowGroups : stream.stats.rowGroups = stream.groups.length
  byteCut : stream.stats.byteCutRowGroups = stream.groups.countP fun group => group.2.isBytes
  /-- After each feed the buffer is under the row cap. -/
  feeds : stream.left.length = chunks
  left : ∀ rows ∈ stream.left, rows < caps.rowGroupRows

theorem Fed.flush {chunks : Nat} (inv : Fed caps schema fed stream) (running : Running stream)
    (under : stream.buffer.rows < caps.rowGroupRows) (feeds : stream.left.length = chunks) :
    Delivered caps schema fed chunks (stream.flush memory) := by
  by_cases more : 0 < stream.buffer.rows
  · have last : Fed caps schema fed (stream.emit memory stream.buffer.rows .last) :=
      inv.emit more (Nat.le_refl _) ⟨more, under⟩
    have result : stream.flush memory = stream.emit memory stream.buffer.rows .last :=
      if_pos more
    have empty : (stream.emit memory stream.buffer.rows .last).buffer.tables.flatMap Table.rows =
        [] := List.length_eq_zero_iff.mp (last.count.symm.trans (Nat.sub_self _))
    have rows := last.rows
    rw [empty, List.append_nil] at rows
    rw [result]
    refine ⟨rows, last.schema, last.sized, ?_, last.rowGroups, last.byteCut, feeds, last.left⟩
    have before : (stream.emit memory stream.buffer.rows .last).groups.dropLast =
        stream.groups := List.dropLast_concat
    rw [before]
    exact running
  · have result : stream.flush memory = stream := if_neg more
    have empty : stream.buffer.tables.flatMap Table.rows = [] := by
      rw [← List.length_eq_zero_iff, ← inv.count]
      omega
    have rows := inv.rows
    rw [empty, List.append_nil] at rows
    rw [result]
    exact ⟨rows, inv.schema, inv.sized, fun group member =>
      running group (List.dropLast_subset _ member), inv.rowGroups, inv.byteCut, feeds, inv.left⟩

end Groups

end DecoyEngine.Execution.OutputSink
