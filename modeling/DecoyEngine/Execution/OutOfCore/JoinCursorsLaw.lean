import DecoyEngine.Execution.OutOfCore.JoinCursorsGuard

namespace DecoyEngine.Execution.OutOfCore

/-! What the two cursors return over whole sequences of `take` calls. -/

variable {α σ : Type}

structure TakeCall where
  n : Int
  expectedRowNrStart : Int
deriving Repr, DecidableEq

abbrev TakeResult (α : Type) := Except CursorError (JoinBatch α)

/-- Each call with its result; a call that raises leaves the cursor to the calls after it. -/
def takes (take : σ → Int → Int → TakeResult α × σ) :
    σ → List TakeCall → List (TakeCall × TakeResult α)
  | _, [] => []
  | cursor, call :: calls =>
      (call, (take cursor call.n call.expectedRowNrStart).1) ::
        takes take (take cursor call.n call.expectedRowNrStart).2 calls

/-- The calls before the first one that raises. -/
def beforeRaise (trace : List (TakeCall × TakeResult α)) : List (TakeCall × TakeResult α) :=
  trace.takeWhile fun entry => entry.2.isOk

/-- The slice is the rows `[start, start + n)`. -/
def IsSlice (rows : JoinBatch α) (call : TakeCall) (slice : JoinBatch α) : Prop :=
  slice = (rows.drop call.expectedRowNrStart.toNat).take call.n.toNat ∧
    (slice.length : Int) = call.n

def ExactSlices (rows : JoinBatch α) (trace : List (TakeCall × TakeResult α)) : Prop :=
  ∀ call slice, (call, .ok slice) ∈ trace → IsSlice rows call slice

def NumberedSlices (trace : List (TakeCall × TakeResult α)) : Prop :=
  ∀ call slice, (call, .ok slice) ∈ trace → Numbered call.expectedRowNrStart slice

section Runs

variable {take : σ → Int → Int → TakeResult α × σ} {Holds : σ → Prop}
  {Good : TakeCall → JoinBatch α → Prop}

theorem takes_forall
    (step : ∀ cursor call outcome next, Holds cursor →
      take cursor call.n call.expectedRowNrStart = (outcome, next) →
      Holds next ∧ ∀ slice, outcome = .ok slice → Good call slice)
    {cursor : σ} {calls : List TakeCall} (holds : Holds cursor) {call : TakeCall}
    {slice : JoinBatch α} (member : (call, .ok slice) ∈ takes take cursor calls) :
    Good call slice := by
  induction calls generalizing cursor with
  | nil => cases member
  | cons first calls ih =>
      obtain ⟨kept, returned⟩ := step cursor first _ _ holds rfl
      rw [takes, List.mem_cons, Prod.mk.injEq] at member
      obtain ⟨rfl, result⟩ | later := member
      · exact returned slice result.symm
      · exact ih kept later

theorem beforeRaise_forall
    (step : ∀ cursor call slice next, Holds cursor →
      take cursor call.n call.expectedRowNrStart = (.ok slice, next) →
      Holds next ∧ Good call slice)
    {cursor : σ} {calls : List TakeCall} (holds : Holds cursor) {call : TakeCall}
    {slice : JoinBatch α} (member : (call, .ok slice) ∈ beforeRaise (takes take cursor calls)) :
    Good call slice := by
  induction calls generalizing cursor with
  | nil => cases member
  | cons first calls ih =>
      unfold beforeRaise at member ih
      rw [takes, List.takeWhile_cons] at member
      cases outcome : (take cursor first.n first.expectedRowNrStart).1 with
      | error reason => simp [outcome, Except.isOk, Except.toBool] at member
      | ok returned =>
          have ran : take cursor first.n first.expectedRowNrStart =
              (.ok returned, (take cursor first.n first.expectedRowNrStart).2) := by
            rw [← outcome]
          obtain ⟨kept, good⟩ := step cursor first returned _ holds ran
          simp only [outcome, Except.isOk, Except.toBool, if_true, List.mem_cons, Prod.mk.injEq,
            Except.ok.injEq] at member
          obtain ⟨rfl, rfl⟩ | later := member
          · exact good
          · exact ih kept later

end Runs

theorem Numbered.slice {rows slice left : JoinBatch α} {consumed : JoinBatch α}
    (numbered : Numbered 0 rows) (split : rows = consumed ++ (slice ++ left)) :
    Numbered consumed.length slice := by
  rw [split, numbered_append, numbered_append] at numbered
  simpa using numbered.2.1

theorem isSlice_of_split {rows consumed slice left : JoinBatch α} {call : TakeCall}
    (split : rows = consumed ++ (slice ++ left))
    (starts : call.expectedRowNrStart = consumed.length) (size : (slice.length : Int) = call.n) :
    IsSlice rows call slice := by
  refine ⟨?_, size⟩
  have count : call.n.toNat = slice.length := by omega
  rw [split, starts, Int.toNat_natCast, List.drop_left, count, List.take_left]

theorem IsSlice.of_front {front rows slice : JoinBatch α} {call : TakeCall}
    (sliced : IsSlice front call slice) (begins : front <+: rows) :
    IsSlice rows call slice := by
  obtain ⟨taken, size⟩ := sliced
  refine ⟨?_, size⟩
  obtain ⟨rest, rfl⟩ := begins
  have within : call.n.toNat ≤ (front.drop call.expectedRowNrStart.toNat).length := by
    have count := congrArg List.length taken
    rw [List.length_take] at count
    omega
  rw [taken, List.drop_append, List.take_append_of_le_length within]

theorem assembleBatches_ok {batches : List (JoinBatch α)} {result : JoinBatch α}
    (assembled : assembleBatches batches = .ok result) : result = batches.flatten := by
  cases batches with
  | nil => cases assembled
  | cons batch batches =>
      cases assembled
      rfl

namespace JoinRowCursor

/-- The rows the cursor has not handed out: the rest of its batch, then the reader's. -/
def left (cursor : JoinRowCursor α) : JoinBatch α :=
  (cursor.batch.getD []).drop cursor.offset ++ cursor.reader.rows

theorem checkEnds_numbered {emitted : Nat} {row : JoinRow α} {rows : JoinBatch α}
    (numbered : Numbered emitted (row :: rows)) : checkEnds emitted (row :: rows) = .ok () := by
  have first := (numbered_cons.mp numbered).1
  simp only [checkEnds, first, numbered.last]
  simp

/-- What a pull may do: it keeps the rows in hand unless it raises on a misnumbered batch. -/
structure Keeps (cursor next : JoinRowCursor α) : Prop where
  left : next.left = cursor.left
  emitted : next.emitted = cursor.emitted

theorem refill_keeps {cursor next : JoinRowCursor α} {outcome : TakeResult α}
    (found : cursor.refill = (outcome, next))
    (done : (cursor.batch.getD []).drop cursor.offset = [])
    (sound : outcome.isOk = true ∨ Numbered cursor.emitted cursor.left) :
    cursor.Keeps next ∧ ∀ batch, outcome = .ok batch → next.batch = some batch := by
  have remaining : cursor.left = cursor.reader.rows := by rw [JoinRowCursor.left, done]; rfl
  unfold refill advance at found
  cases events : cursor.reader with
  | nil =>
      simp only [events, Prod.mk.injEq] at found
      obtain ⟨rfl, rfl⟩ := found
      exact ⟨⟨rfl, rfl⟩, nofun⟩
  | cons event rest =>
      rw [events] at remaining
      cases event with
      | error reason =>
          simp only [events, Prod.mk.injEq] at found
          obtain ⟨rfl, rfl⟩ := found
          refine ⟨⟨?_, rfl⟩, nofun⟩
          rw [remaining]
          simp [JoinRowCursor.left, done]
      | ok batch =>
          cases checked : checkEnds cursor.emitted batch with
          | ok _ =>
              simp only [events, checked, Prod.mk.injEq] at found
              obtain ⟨rfl, rfl⟩ := found
              refine ⟨⟨?_, rfl⟩, fun other same => congrArg some (Except.ok.inj same)⟩
              rw [remaining]
              simp [JoinRowCursor.left]
          | error reason =>
              simp only [events, checked, Prod.mk.injEq] at found
              obtain ⟨rfl, rfl⟩ := found
              refine ⟨⟨?_, rfl⟩, nofun⟩
              cases batch with
              | nil =>
                  rw [remaining]
                  simp [JoinRowCursor.left, done]
              | cons row rows =>
                  obtain returned | numbered := sound
                  · cases returned
                  · rw [remaining, RowReader.rows_ok, numbered_append] at numbered
                    rw [checkEnds_numbered numbered.1] at checked
                    cases checked

theorem current_keeps {cursor next : JoinRowCursor α} {outcome : TakeResult α}
    (found : cursor.current = (outcome, next))
    (sound : outcome.isOk = true ∨ Numbered cursor.emitted cursor.left) :
    cursor.Keeps next ∧ ∀ batch, outcome = .ok batch → next.batch = some batch := by
  unfold current at found
  split at found
  · rename_i none
    exact refill_keeps found (by rw [none, Option.getD_none, List.drop_nil]) sound
  · rename_i batch held
    split at found
    · rename_i read
      exact refill_keeps found (by rw [held]; exact List.drop_eq_nil_of_le read) sound
    · cases found
      refine ⟨⟨rfl, rfl⟩, ?_⟩
      intro other same
      rw [held, Except.ok.inj same]

/-- The cursor has handed out `slice` and moved past it. -/
structure Reads (cursor next : JoinRowCursor α) (slice : JoinBatch α) : Prop where
  left : cursor.left = slice ++ next.left
  emitted : next.emitted = cursor.emitted + slice.length

theorem Keeps.reads {cursor next : JoinRowCursor α} (keeps : cursor.Keeps next) :
    cursor.Reads next [] where
  left := keeps.left.symm
  emitted := keeps.emitted

theorem Keeps.turn {cursor next : JoinRowCursor α} {batch : JoinBatch α} (keeps : cursor.Keeps next)
    (held : next.batch = some batch) {takeK : Nat} (within : takeK ≤ batch.length - next.offset) :
    cursor.Reads { next with offset := next.offset + takeK, emitted := next.emitted + takeK }
      ((batch.drop next.offset).take takeK) where
  left := by
    rw [← keeps.left]
    simp only [JoinRowCursor.left, held, Option.getD_some]
    rw [← List.append_assoc, ← List.drop_drop, List.take_append_drop]
  emitted := by
    rw [← keeps.emitted, List.length_take, List.length_drop, Nat.min_eq_left within]

theorem Reads.trans {first second third : JoinRowCursor α} {slice later : JoinBatch α}
    (reads : first.Reads second slice) (more : second.Reads third later) :
    first.Reads third (slice ++ later) where
  left := by rw [reads.left, more.left, List.append_assoc]
  emitted := by rw [more.emitted, reads.emitted, List.length_append, Nat.add_assoc]

theorem Reads.numbered {cursor next : JoinRowCursor α} {slice : JoinBatch α}
    (reads : cursor.Reads next slice) (numbered : Numbered cursor.emitted cursor.left) :
    Numbered next.emitted next.left := by
  rw [reads.left, numbered_append] at numbered
  rw [reads.emitted, Int.natCast_add]
  exact numbered.2

/-- The loop of `take`, by strong induction on what remains: what it collects is the front of
the rows left, of exactly the length asked for. -/
theorem collect_reads {cursor next : JoinRowCursor α} {remaining : Nat}
    {collected : List (JoinBatch α)} {outcome : Except CursorError (List (JoinBatch α))}
    (found : cursor.collect remaining collected = (outcome, next))
    (sound : outcome.isOk = true ∨ Numbered cursor.emitted cursor.left) :
    ∃ slice, cursor.Reads next slice ∧ ∀ batches, outcome = .ok batches →
      slice.length = remaining ∧ batches.flatten = collected.flatten ++ slice := by
  induction remaining using Nat.strongRecOn generalizing cursor collected with
  | _ remaining ih =>
      rw [collect] at found
      split at found
      · rename_i finished
        cases found
        refine ⟨[], ⟨rfl, rfl⟩, ?_⟩
        intro batches same
        cases same
        exact ⟨finished.symm, (List.append_nil _).symm⟩
      · rename_i more
        split at found
        · rename_i reason pulled current
          cases found
          obtain ⟨keeps, _⟩ := current_keeps current (Or.inr (sound.resolve_left Bool.false_ne_true))
          refine ⟨[], keeps.reads, ?_⟩
          intro batches same
          cases same
        · rename_i batch pulled current
          obtain ⟨keeps, held⟩ := current_keeps current (Or.inl rfl)
          have unread := current_unread current
          have turn := keeps.turn (held batch rfl)
            (Nat.min_le_left (batch.length - pulled.offset) remaining)
          obtain ⟨slice, reads, returned⟩ := ih _ (by omega) found
            (sound.imp_right fun numbered => turn.numbered numbered)
          refine ⟨_, turn.trans reads, ?_⟩
          intro batches same
          obtain ⟨size, flat⟩ := returned batches same
          constructor
          · rw [List.length_append, size, List.length_take, List.length_drop]
            omega
          · rw [flat, List.flatten_append, List.flatten_singleton, List.append_assoc]

theorem take_reads {cursor next : JoinRowCursor α} {n start : Int} {outcome : TakeResult α}
    (found : cursor.take n start = (outcome, next))
    (sound : outcome.isOk = true ∨ Numbered cursor.emitted cursor.left) :
    ∃ slice, cursor.Reads next slice ∧ ∀ result, outcome = .ok result →
      result = slice ∧ (slice.length : Int) = n ∧ start = cursor.emitted := by
  unfold take at found
  split at found
  · cases found
    exact ⟨[], ⟨rfl, rfl⟩, nofun⟩
  · rename_i positioned
    have starts : start = cursor.emitted := by omega
    split at found
    · rename_i zero
      refine ⟨[], ?_, ?_⟩
      · unfold schemaProbe at found
        split at found
        · cases found
          exact ⟨rfl, rfl⟩
        · split at found
          · rename_i reason pulled current
            cases found
            exact (current_keeps current (sound.imp_left nofun)).1.reads
          · rename_i batch pulled current
            cases found
            exact (current_keeps current (Or.inl rfl)).1.reads
      · intro result same
        unfold schemaProbe at found
        split at found
        · cases found
          exact ⟨(Except.ok.inj same).symm, zero.symm, starts⟩
        · split at found
          · cases found
            cases same
          · cases found
            exact ⟨(Except.ok.inj same).symm, zero.symm, starts⟩
    · split at found
      · rename_i reason pulled collected
        cases found
        obtain ⟨slice, reads, _⟩ := collect_reads collected (sound.imp_left nofun)
        exact ⟨slice, reads, nofun⟩
      · rename_i batches pulled collected
        cases found
        obtain ⟨slice, reads, returned⟩ := collect_reads collected (Or.inl rfl)
        obtain ⟨size, flat⟩ := returned batches rfl
        refine ⟨slice, reads, ?_⟩
        intro result same
        have whole := assembleBatches_ok same
        rw [List.flatten_nil, List.nil_append] at flat
        refine ⟨whole.trans flat, ?_, starts⟩
        by_cases negative : n < 0
        · -- nothing is collected, and there is nothing to concatenate
          rw [Int.toNat_of_nonpos (by omega), collect, if_pos rfl] at collected
          cases collected
          cases same
        · omega

/-- The cursor stands behind the rows it has handed out. -/
def At (rows : JoinBatch α) (cursor : JoinRowCursor α) : Prop :=
  ∃ consumed, rows = consumed ++ cursor.left ∧ consumed.length = cursor.emitted

theorem create_at (reader : RowReader α) : At reader.rows (create reader) :=
  ⟨[], rfl, rfl⟩

theorem Reads.at {rows slice : JoinBatch α} {cursor next : JoinRowCursor α}
    (reads : cursor.Reads next slice) (before : At rows cursor) : At rows next := by
  obtain ⟨consumed, split, position⟩ := before
  refine ⟨consumed ++ slice, ?_, ?_⟩
  · rw [split, reads.left, List.append_assoc]
  · rw [List.length_append, position, reads.emitted]

theorem take_slice {rows slice : JoinBatch α} {cursor next : JoinRowCursor α} {call : TakeCall}
    (before : At rows cursor)
    (found : cursor.take call.n call.expectedRowNrStart = (.ok slice, next)) :
    At rows next ∧ IsSlice rows call slice := by
  obtain ⟨read, reads, returned⟩ := take_reads found (Or.inl rfl)
  obtain ⟨rfl, size, starts⟩ := returned slice rfl
  refine ⟨reads.at before, ?_⟩
  obtain ⟨consumed, split, position⟩ := before
  rw [reads.left] at split
  exact isSlice_of_split split (by rw [starts, position]) size

theorem take_numbered {rows : JoinBatch α} (numbered : Numbered 0 rows)
    {cursor next : JoinRowCursor α} {call : TakeCall} {outcome : TakeResult α}
    (before : At rows cursor)
    (found : cursor.take call.n call.expectedRowNrStart = (outcome, next)) :
    At rows next ∧ ∀ slice, outcome = .ok slice →
      IsSlice rows call slice ∧ Numbered call.expectedRowNrStart slice := by
  obtain ⟨consumed, split, position⟩ := id before
  have ahead : Numbered cursor.emitted cursor.left := by
    rw [split, numbered_append, position] at numbered
    simpa using numbered.2
  obtain ⟨read, reads, returned⟩ := take_reads found (Or.inr ahead)
  refine ⟨reads.at before, ?_⟩
  intro slice same
  obtain ⟨rfl, size, starts⟩ := returned slice same
  rw [reads.left] at split
  refine ⟨isSlice_of_split split (by rw [starts, position]) size, ?_⟩
  rw [starts, ← position]
  exact numbered.slice split

end JoinRowCursor

namespace ChildKeyLockstepCursor

/-- What the loop has gathered when it returns: the slice, whole, from a row numbered as
expected. -/
structure Gathers (emitted n : Int) (got : Nat) (collected : List (JoinBatch α))
    (slice : JoinBatch α) (batches : List (JoinBatch α)) : Prop where
  flat : batches.flatten = collected.flatten ++ slice
  size : (got : Int) ≤ n → (got : Int) + slice.length = n
  first : (got : Int) < n → ∃ row rows, slice = row :: rows ∧ row.rowNr = some (emitted + got)

theorem Gathers.stop {emitted n : Int} {got : Nat} (collected : List (JoinBatch α))
    (enough : ¬ (got : Int) < n) : Gathers emitted n got collected [] collected where
  flat := (List.append_nil _).symm
  size := by
    intro most
    rw [List.length_nil]
    omega
  first := fun more => absurd more enough

theorem Gathers.whole {emitted n : Int} {got : Nat} {collected batches : List (JoinBatch α)}
    {row : JoinRow α} {rows slice : JoinBatch α}
    (gathers :
      Gathers emitted n (got + (rows.length + 1)) (collected ++ [row :: rows]) slice batches)
    (starts : row.rowNr = some (emitted + got)) (fits : (got : Int) + (rows.length + 1) ≤ n) :
    Gathers emitted n got collected (row :: rows ++ slice) batches where
  flat := by
    rw [gathers.flat, List.flatten_append, List.flatten_singleton, List.append_assoc]
  size := by
    intro _
    have size := gathers.size (by push_cast; omega)
    rw [List.length_append, List.length_cons]
    push_cast at size ⊢
    omega
  first := fun _ => ⟨row, rows ++ slice, rfl, starts⟩

theorem collect_stop {emitted n : Int} {got : Nat} (enough : ¬ (got : Int) < n)
    (reader : RowReader α) (collected : List (JoinBatch α)) :
    collect emitted n reader got collected = (.ok collected, reader) := by
  cases reader with
  | nil => rw [collect, if_neg enough]
  | cons event reader =>
      cases event with
      | error reason => rw [collect, if_neg enough]
      | ok batch =>
          cases batch with
          | nil => rw [collect, if_neg enough]
          | cons row rows => rw [collect, if_neg enough]

theorem collect_stopped {emitted n : Int} {reader rest : RowReader α} {got : Nat}
    {collected : List (JoinBatch α)} {outcome : Except CursorError (List (JoinBatch α))}
    (enough : ¬ (got : Int) < n)
    (found : collect emitted n reader got collected = (outcome, rest)) :
    ∃ slice, reader.rows = slice ++ rest.rows ∧
      ∀ batches, outcome = .ok batches → Gathers emitted n got collected slice batches := by
  rw [collect_stop enough] at found
  cases found
  refine ⟨[], rfl, ?_⟩
  intro batches same
  cases same
  exact Gathers.stop collected enough

/-- The loop of `take`, by induction on the reader: what it reads has left the reader, and
where it returns that is the slice. -/
theorem collect_reads {emitted n : Int} {reader rest : RowReader α} {got : Nat}
    {collected : List (JoinBatch α)} {outcome : Except CursorError (List (JoinBatch α))}
    (found : collect emitted n reader got collected = (outcome, rest)) :
    ∃ slice, RowReader.rows reader = slice ++ rest.rows ∧
      ∀ batches, outcome = .ok batches → Gathers emitted n got collected slice batches := by
  induction reader generalizing got collected with
  | nil =>
      by_cases more : (got : Int) < n
      · rw [collect, if_pos more] at found
        cases found
        exact ⟨[], rfl, nofun⟩
      · exact collect_stopped more found
  | cons event reader ih =>
      by_cases more : (got : Int) < n
      · cases event with
        | error reason =>
            rw [collect, if_pos more] at found
            cases found
            exact ⟨[], rfl, nofun⟩
        | ok batch =>
            cases batch with
            | nil =>
                rw [collect, if_pos more] at found
                exact ih found
            | cons row rows =>
                rw [collect, if_pos more] at found
                split at found
                · cases found
                  exact ⟨row :: rows, rfl, nofun⟩
                · rename_i starts
                  split at found
                  · cases found
                    exact ⟨row :: rows, rfl, nofun⟩
                  · rename_i fits
                    obtain ⟨slice, split, returned⟩ := ih found
                    refine ⟨row :: rows ++ slice, ?_, ?_⟩
                    · rw [RowReader.rows_ok, split, List.append_assoc]
                    · intro batches same
                      exact (returned batches same).whole (not_not.mp starts) (by omega)
      · exact collect_stopped more found

/-- A call that returns: the slice has left the reader, and it starts at a row numbered with
the cursor's position. -/
structure Returns (cursor next : ChildKeyLockstepCursor α) (n start : Int) (slice : JoinBatch α) :
    Prop where
  starts : start = cursor.emitted
  rows : cursor.reader.rows = slice ++ next.reader.rows
  size : (slice.length : Int) = n
  emitted : next.emitted = cursor.emitted + n
  first : 0 < n → ∃ row rows, slice = row :: rows ∧ row.rowNr = some cursor.emitted

theorem take_returns {cursor next : ChildKeyLockstepCursor α} {n start : Int} {slice : JoinBatch α}
    (found : cursor.take n start = (.ok slice, next)) : cursor.Returns next n start slice := by
  unfold take at found
  split at found
  · cases found
  · rename_i positioned
    have starts : start = cursor.emitted := by omega
    split at found
    · rename_i zero
      cases found
      exact ⟨starts, rfl, zero.symm, by omega, fun positive => by omega⟩
    · split at found
      · cases found
      · rename_i batches rest collected
        obtain ⟨assembled, rfl⟩ := Prod.mk.inj found
        have whole := assembleBatches_ok assembled
        by_cases positive : 0 < n
        · obtain ⟨read, split, returned⟩ := collect_reads collected
          have gathers := returned batches rfl
          rw [gathers.flat, List.flatten_nil, List.nil_append] at whole
          have size := gathers.size (Int.le_of_lt positive)
          obtain ⟨row, rows, shape, number⟩ := gathers.first positive
          rw [whole]
          refine ⟨starts, split, by omega, rfl, fun _ => ⟨row, rows, shape, ?_⟩⟩
          simpa using number
        · -- nothing is collected, and there is nothing to concatenate
          rw [collect_stop (by simpa using positive)] at collected
          cases collected
          cases assembled

theorem take_raises {cursor next : ChildKeyLockstepCursor α} {n start : Int} {reason : CursorError}
    (found : cursor.take n start = (.error reason, next)) :
    (∃ lost, cursor.reader.rows = lost ++ next.reader.rows) ∧ next.emitted ≤ cursor.emitted := by
  unfold take at found
  split at found
  · cases found
    exact ⟨⟨[], rfl⟩, Int.le_refl _⟩
  · split at found
    · cases found
    · split at found
      · rename_i refused rest collected
        obtain ⟨_, rfl⟩ := Prod.mk.inj found
        obtain ⟨read, split, _⟩ := collect_reads collected
        exact ⟨⟨read, split⟩, Int.le_refl _⟩
      · rename_i batches rest collected
        obtain ⟨assembled, rfl⟩ := Prod.mk.inj found
        obtain ⟨read, split, returned⟩ := collect_reads collected
        refine ⟨⟨read, split⟩, ?_⟩
        by_cases positive : 0 < n
        · -- a batch is there to hand out, so the concatenation does not raise
          have gathers := returned batches rfl
          obtain ⟨row, rows, shape, _⟩ := gathers.first positive
          have flat := gathers.flat
          cases batches with
          | nil =>
              rw [shape] at flat
              cases flat
          | cons batch batches => cases assembled
        · show cursor.emitted + n ≤ cursor.emitted
          omega

/-- The cursor stands exactly behind the rows that have left the reader. -/
def At (rows : JoinBatch α) (cursor : ChildKeyLockstepCursor α) : Prop :=
  ∃ consumed, rows = consumed ++ cursor.reader.rows ∧ cursor.emitted = consumed.length

/-- After calls that raised, it may stand before them. -/
def Behind (rows : JoinBatch α) (cursor : ChildKeyLockstepCursor α) : Prop :=
  ∃ consumed, rows = consumed ++ cursor.reader.rows ∧ cursor.emitted ≤ consumed.length

theorem create_at (reader : RowReader α) : At reader.rows (create reader) :=
  ⟨[], rfl, rfl⟩

theorem At.behind {rows : JoinBatch α} {cursor : ChildKeyLockstepCursor α}
    (before : At rows cursor) : Behind rows cursor := by
  obtain ⟨consumed, split, position⟩ := before
  exact ⟨consumed, split, Int.le_of_eq position⟩

theorem Returns.slice {rows slice : JoinBatch α} {cursor next : ChildKeyLockstepCursor α}
    {call : TakeCall} (returns : cursor.Returns next call.n call.expectedRowNrStart slice)
    (before : At rows cursor) :
    At rows next ∧ IsSlice rows call slice := by
  obtain ⟨consumed, split, position⟩ := before
  rw [returns.rows] at split
  constructor
  · refine ⟨consumed ++ slice, by rw [split, List.append_assoc], ?_⟩
    rw [returns.emitted, position, List.length_append, ← returns.size, Int.natCast_add]
  · exact isSlice_of_split split (by rw [returns.starts, position]) returns.size

theorem take_slice {rows slice : JoinBatch α} {cursor next : ChildKeyLockstepCursor α}
    {call : TakeCall} (before : At rows cursor)
    (found : cursor.take call.n call.expectedRowNrStart = (.ok slice, next)) :
    At rows next ∧ IsSlice rows call slice :=
  (take_returns found).slice before

/-- Over numbered rows a cursor left behind returns no row at all: the next row is numbered
past its position. -/
theorem Returns.caught_up {rows slice : JoinBatch α} (numbered : Numbered 0 rows)
    {cursor next : ChildKeyLockstepCursor α} {n start : Int}
    (returns : cursor.Returns next n start slice) (positive : 0 < n) (before : Behind rows cursor) :
    At rows cursor := by
  obtain ⟨consumed, split, _⟩ := before
  refine ⟨consumed, split, ?_⟩
  rw [returns.rows] at split
  obtain ⟨row, others, shape, number⟩ := returns.first positive
  have ahead := numbered.slice split
  rw [shape, numbered_cons, number] at ahead
  exact Option.some.inj ahead.1

theorem take_numbered {rows : JoinBatch α} (numbered : Numbered 0 rows)
    {cursor next : ChildKeyLockstepCursor α} {call : TakeCall} {outcome : TakeResult α}
    (before : Behind rows cursor)
    (found : cursor.take call.n call.expectedRowNrStart = (outcome, next)) :
    Behind rows next ∧ ∀ slice, outcome = .ok slice →
      IsSlice rows call slice ∧ Numbered call.expectedRowNrStart slice := by
  cases outcome with
  | error reason =>
      obtain ⟨⟨lost, rest⟩, back⟩ := take_raises found
      obtain ⟨consumed, split, position⟩ := before
      refine ⟨⟨consumed ++ lost, by rw [split, rest, List.append_assoc], ?_⟩, nofun⟩
      rw [List.length_append, Int.natCast_add]
      omega
  | ok slice =>
      have returns := take_returns found
      by_cases positive : 0 < call.n
      · have caught := returns.caught_up numbered positive before
        obtain ⟨after, sliced⟩ := returns.slice caught
        refine ⟨after.behind, ?_⟩
        intro other same
        cases same
        refine ⟨sliced, ?_⟩
        obtain ⟨consumed, split, position⟩ := caught
        rw [returns.rows] at split
        rw [returns.starts, position]
        exact numbered.slice split
      · -- an empty slice, wherever the cursor stands
        have size := returns.size
        have empty : slice = [] := List.length_eq_zero_iff.mp (by omega)
        have zero : call.n = 0 := by omega
        obtain ⟨consumed, split, position⟩ := before
        refine ⟨⟨consumed, ?_, ?_⟩, ?_⟩
        · rw [split, returns.rows, empty, List.nil_append]
        · rw [returns.emitted]
          omega
        · intro other same
          cases same
          rw [empty]
          exact ⟨⟨by simp [zero], zero.symm⟩, Numbered.nil _⟩

end ChildKeyLockstepCursor

variable {κ : Type} {componentCount : Nat}

theorem combinedRows_rowNr (slim : JoinBatch (SlimCells κ componentCount))
    (raw : JoinBatch (RawCells κ componentCount)) (same : slim.length = raw.length) :
    (List.zipWith combinedRow slim raw).map JoinRow.rowNr = raw.map JoinRow.rowNr := by
  induction slim generalizing raw with
  | nil => rw [List.length_eq_zero_iff.mp same.symm]; rfl
  | cons row slim ih =>
      cases raw with
      | nil => cases same
      | cons other raw =>
          rw [List.zipWith_cons_cons, List.map_cons, List.map_cons, ih raw (Nat.succ.inj same)]
          rfl

theorem combineJoinSlices_ok {slim : JoinBatch (SlimCells κ componentCount)}
    {raw : JoinBatch (RawCells κ componentCount)}
    {combined : JoinBatch (CombinedCells κ componentCount)}
    (run : combineJoinSlices slim raw = .ok combined) :
    slim.map JoinRow.rowNr = raw.map JoinRow.rowNr ∧ combined = List.zipWith combinedRow slim raw ∧
      combined.map JoinRow.rowNr = raw.map JoinRow.rowNr := by
  unfold combineJoinSlices at run
  split at run
  · cases run
  · rename_i sameLength
    split at run
    · cases run
    · rename_i sameNumbers
      cases run
      exact ⟨not_not.mp sameNumbers, rfl, combinedRows_rowNr slim raw (not_not.mp sameLength)⟩

/-- The guard lets exactly the row numbers `0..N-1` through, in any partition into batches, and
raises otherwise.  Over rows so numbered every call of every sequence, also after one that
raised, returns exactly the rows it was asked for; over any other reader the calls up to the
first that raises do.  Whatever the raw slice is, it combines with a slim slice only row number
by row number. -/
theorem cursors_keep_alignment :
    (∀ (batches : List (JoinBatch α)) (expectedRowCount : Nat),
      ((∃ yielded, (guardedReorderIter (batches.map .ok) expectedRowCount).YieldsAll yielded) ↔
        batches.flatten.map JoinRow.rowNr = rowNumbers 0 expectedRowCount) ∧
      (batches.flatten.map JoinRow.rowNr = rowNumbers 0 expectedRowCount →
        (guardedReorderIter (batches.map .ok) expectedRowCount).YieldsAll
          (batches.filter fun batch => !batch.isEmpty)) ∧
      (¬ batches.flatten.map JoinRow.rowNr = rowNumbers 0 expectedRowCount →
        (guardedReorderIter (batches.map .ok) expectedRowCount).RaisesContiguity)) ∧
    (∀ (ordered : RowReader α) (expectedRowCount : Nat),
      Numbered 0 (guardedReorderIter ordered expectedRowCount).rows ∧
        (guardedReorderIter ordered expectedRowCount).rows <+: ordered.rows) ∧
    (∀ (reader : RowReader α) (calls : List TakeCall), Numbered 0 reader.rows →
      ExactSlices reader.rows (takes JoinRowCursor.take (.create reader) calls) ∧
      NumberedSlices (takes JoinRowCursor.take (.create reader) calls) ∧
      ExactSlices reader.rows (takes ChildKeyLockstepCursor.take (.create reader) calls) ∧
      NumberedSlices (takes ChildKeyLockstepCursor.take (.create reader) calls)) ∧
    (∀ (reader : RowReader α) (calls : List TakeCall),
      ExactSlices reader.rows (beforeRaise (takes JoinRowCursor.take (.create reader) calls)) ∧
      ExactSlices reader.rows
        (beforeRaise (takes ChildKeyLockstepCursor.take (.create reader) calls))) ∧
    (∀ (ordered : RowReader (SlimCells κ componentCount)) (expectedRowCount : Nat)
      (calls : List TakeCall) (call : TakeCall) (slim : JoinBatch (SlimCells κ componentCount))
      (raw : JoinBatch (RawCells κ componentCount))
      (combined : JoinBatch (CombinedCells κ componentCount)),
      (call, .ok slim) ∈ takes JoinRowCursor.take
        (.create (guardedReorderIter ordered expectedRowCount)) calls →
      combineJoinSlices slim raw = .ok combined →
      IsSlice ordered.rows call slim ∧
      slim.map JoinRow.rowNr = rowNumbers call.expectedRowNrStart call.n.toNat ∧
      raw.map JoinRow.rowNr = rowNumbers call.expectedRowNrStart call.n.toNat ∧
      combined.map JoinRow.rowNr = rowNumbers call.expectedRowNrStart call.n.toNat ∧
      combined = List.zipWith combinedRow slim raw) := by
  refine ⟨?_, ?_, ?_, ?_, ?_⟩
  · intro batches expectedRowCount
    have domain : batches.flatten.map JoinRow.rowNr = rowNumbers 0 expectedRowCount ↔
        Numbered 0 batches.flatten ∧ 0 + batches.flatten.length = expectedRowCount := by
      rw [Nat.zero_add]
      exact numbered_of_count
    rw [domain]
    obtain ⟨numbered, total, yields⟩ | ⟨fails, raises⟩ :=
      guardFrom_outcome expectedRowCount batches 0
    · exact ⟨⟨fun _ => ⟨numbered, total⟩, fun _ => ⟨_, yields⟩⟩, fun _ => yields,
        fun fails => absurd ⟨numbered, total⟩ fails⟩
    · exact ⟨⟨fun ⟨_, yields⟩ => absurd raises yields.not_raises, fun holds => absurd holds fails⟩,
        fun holds => absurd holds fails, fun _ => raises⟩
  · intro ordered expectedRowCount
    exact ⟨guarded_numbered ordered expectedRowCount, guarded_begins ordered expectedRowCount⟩
  · intro reader calls numbered
    have joined (call : TakeCall) (slice : JoinBatch α)
        (member : (call, .ok slice) ∈ takes JoinRowCursor.take (.create reader) calls) :=
      takes_forall (fun _ _ _ _ => JoinRowCursor.take_numbered numbered)
        (JoinRowCursor.create_at reader) member
    have keyed (call : TakeCall) (slice : JoinBatch α)
        (member : (call, .ok slice) ∈ takes ChildKeyLockstepCursor.take (.create reader) calls) :=
      takes_forall (fun _ _ _ _ => ChildKeyLockstepCursor.take_numbered numbered)
        (ChildKeyLockstepCursor.create_at reader).behind member
    refine ⟨?_, ?_, ?_, ?_⟩
    · exact fun call slice member => (joined call slice member).1
    · exact fun call slice member => (joined call slice member).2
    · exact fun call slice member => (keyed call slice member).1
    · exact fun call slice member => (keyed call slice member).2
  · intro reader calls
    constructor
    · intro call slice member
      exact beforeRaise_forall (fun _ _ _ _ => JoinRowCursor.take_slice)
        (JoinRowCursor.create_at reader) member
    · intro call slice member
      exact beforeRaise_forall (fun _ _ _ _ => ChildKeyLockstepCursor.take_slice)
        (ChildKeyLockstepCursor.create_at reader) member
  · intro ordered expectedRowCount calls call slim raw combined member run
    obtain ⟨sliced, numbered⟩ := takes_forall
      (fun _ _ _ _ => JoinRowCursor.take_numbered (guarded_numbered ordered expectedRowCount))
      (JoinRowCursor.create_at _) member
    obtain ⟨agree, whole, numbers⟩ := combineJoinSlices_ok run
    have count : slim.length = call.n.toNat := by
      have size := sliced.2
      omega
    have slimNumbers : slim.map JoinRow.rowNr =
        rowNumbers call.expectedRowNrStart call.n.toNat := by
      rw [← count]
      exact numbered
    rw [numbers, ← agree]
    exact ⟨sliced.of_front (guarded_begins ordered expectedRowCount), slimNumbers, slimNumbers,
      slimNumbers, whole⟩

def misnumberedRows (numbers : List Int) : JoinBatch Unit :=
  numbers.map fun number => ⟨some number, ()⟩

def misnumberedReader : RowReader Unit :=
  [.ok (misnumberedRows [5, 6]), .ok (misnumberedRows [0, 9, 2])]

/-- A cursor that raised on a misnumbered batch has dropped it: the next call returns rows that
stand elsewhere in the stream. -/
theorem misnumbered_batch_dropped :
    ¬ (∀ (reader : RowReader Unit) (calls : List TakeCall),
      ExactSlices reader.rows (takes JoinRowCursor.take (.create reader) calls)) ∧
    ¬ (∀ (reader : RowReader Unit) (calls : List TakeCall),
      ExactSlices reader.rows (takes ChildKeyLockstepCursor.take (.create reader) calls)) := by
  constructor
  · intro all
    have kept := all misnumberedReader [⟨2, 0⟩, ⟨3, 0⟩] ⟨3, 0⟩ (misnumberedRows [0, 9, 2]) (by
      simp [takes, misnumberedReader, misnumberedRows, JoinRowCursor.take, JoinRowCursor.create,
        JoinRowCursor.collect, JoinRowCursor.current, JoinRowCursor.refill, JoinRowCursor.advance,
        JoinRowCursor.checkEnds, assembleBatches])
    exact absurd kept.1 (by decide)
  · intro all
    have kept := all misnumberedReader [⟨2, 0⟩, ⟨3, 0⟩] ⟨3, 0⟩ (misnumberedRows [0, 9, 2])
      (List.mem_cons_of_mem _ List.mem_cons_self)
    exact absurd kept.1 (by decide)

end DecoyEngine.Execution.OutOfCore
