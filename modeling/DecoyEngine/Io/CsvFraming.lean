import DecoyEngine.Io.CsvFramer

namespace DecoyEngine.Io

open Machine

/-! The framer of `io/csv_framer.py` follows the byte machine: `current` is the part
of the record in progress that is still in the block. -/

/-- The framer and the byte machine at one place of the stream: the same records behind them, the
same phase, and the record in progress cut into the pieces of earlier blocks and its part of this
one. -/
structure Tracks (cap : Int) (framer : Framer) (current : Bytes) (phase : Phase)
    (machine : Machine) : Prop where
  yielded : framer.yielded = machine.records.map joinRecord
  index : framer.index = machine.records.length
  body : machine.body = framer.pieces.flatten ++ current
  recLen : framer.recLen = framer.pieces.flatten.length
  pieces : ∀ piece ∈ framer.pieces, piece ≠ []
  phase : machine.phase = phase
  within : ∀ record ∈ machine.records, fits cap record = true

/-! Slices of a block. -/

theorem slice_self (block : Bytes) (start : Nat) : slice block start start = [] := by
  rw [slice, List.drop_eq_nil_iff, List.length_take]
  omega

theorem length_slice {block : Bytes} {start stop : Nat} (inside : stop ≤ block.length) :
    (slice block start stop).length = stop - start := by
  rw [slice, List.length_drop, List.length_take, Nat.min_eq_left inside]

theorem slice_append {block : Bytes} {first second third : Nat} (lower : first ≤ second)
    (upper : second ≤ third) :
    slice block first third = slice block first second ++ slice block second third := by
  have lengths : third - first = (second - first) + (third - second) := by omega
  have dropped : first + (second - first) = second := by omega
  rw [slice, slice, slice, List.drop_take, List.drop_take, List.drop_take, lengths, List.take_add,
    List.drop_drop, dropped]

theorem slice_of_drop {block region rest : Bytes} {pos : Nat}
    (here : block.drop pos = region ++ rest) :
    slice block pos (pos + region.length) = region := by
  rw [slice, List.drop_take, here, Nat.add_sub_cancel_left, List.take_left]

theorem length_of_drop {block region rest : Bytes} {pos : Nat}
    (here : block.drop pos = region ++ rest) (inside : pos ≤ block.length) :
    pos + region.length ≤ block.length := by
  have lengths := congrArg List.length here
  rw [List.length_drop, List.length_append] at lengths
  omega

variable {byte : UInt8}

theorem slice_succ {block rest : Bytes} {start pos : Nat} (lower : start ≤ pos)
    (here : block.drop pos = byte :: rest) :
    slice block start (pos + 1) = slice block start pos ++ [byte] := by
  rw [slice_append lower (Nat.le_succ pos)]
  have one : slice block pos (pos + [byte].length) = [byte] := slice_of_drop here
  congr 1

theorem drop_succ {block rest : Bytes} {pos : Nat} (here : block.drop pos = byte :: rest) :
    block.drop (pos + 1) = rest := by
  rw [← List.drop_drop, here]
  rfl

/-! The machine outside quotes. -/

theorem step_settle (machine : Machine) (other : byte ≠ lfByte) :
    machine.step byte = machine.settle.step byte := by
  by_cases waiting : machine.phase = .pendingCr
  · have settled : machine.settle = machine.close [crByte] := if_pos waiting
    rw [settled, step, waiting]
    simp only [other, if_false]
    rfl
  · rw [settle_of_ne waiting]

/-- In an unquoted field or at the start of one. -/
def Clean (phase : Phase) : Prop := phase = .fieldStart ∨ phase = .unquoted

variable {machine : Machine}

theorem Clean.settled (clean : Clean machine.phase) :
    machine.settle = machine := by
  apply settle_of_ne
  rcases clean with start | inside
  · rw [start]
    exact Phase.noConfusion
  · rw [inside]
    exact Phase.noConfusion

theorem step_clean (clean : Clean machine.phase) (plain : byte ≠ quoteByte) :
    machine.step byte = machine.stepOutside .quoted byte := by
  rcases clean with start | inside
  · simp [step, start]
  · simp [step, inside, stepOutside, plain]

theorem step_cr (clean : Clean machine.phase) :
    machine.step crByte = { machine with phase := .pendingCr } := by
  rw [step_clean clean (by decide), stepOutside, if_pos rfl]

theorem step_lf (clean : Clean machine.phase) :
    machine.step lfByte = machine.close [lfByte] := by
  rw [step_clean clean (by decide), stepOutside, if_neg (by decide), if_pos rfl]

/-- Where a byte that is no quote and no terminator leads. -/
def fieldPhase (byte : UInt8) : Phase := if byte = commaByte then .fieldStart else .unquoted

theorem fieldPhase_clean (byte : UInt8) : Clean (fieldPhase byte) := by
  rw [fieldPhase]
  by_cases comma : byte = commaByte
  · exact Or.inl (if_pos comma)
  · exact Or.inr (if_neg comma)

theorem step_plain (clean : Clean machine.phase) (cr : byte ≠ crByte) (lf : byte ≠ lfByte)
    (plain : byte ≠ quoteByte) :
    machine.step byte = machine.push byte (fieldPhase byte) := by
  rw [step_clean clean plain, stepOutside, if_neg cr, if_neg lf, if_neg plain, fieldPhase]
  by_cases comma : byte = commaByte
  · rw [if_pos comma, if_pos comma]
  · rw [if_neg comma, if_neg comma]

/-- The phase after a stretch of field bytes, from a state that is at field start or not. -/
def phaseAfter (atStart : Bool) (gap : Bytes) : Phase :=
  match gap.getLast? with
  | none => if atStart then .fieldStart else .unquoted
  | some byte => fieldPhase byte

theorem phaseAfter_clean (atStart : Bool) (gap : Bytes) : Clean (phaseAfter atStart gap) := by
  rw [phaseAfter]
  cases gap.getLast? with
  | none =>
      cases atStart with
      | true => exact Or.inl rfl
      | false => exact Or.inr rfl
  | some byte => exact fieldPhase_clean byte

theorem phaseAfter_snoc (atStart : Bool) (gap : Bytes) (byte : UInt8) :
    phaseAfter atStart (gap ++ [byte]) = fieldPhase byte := by
  rw [phaseAfter, List.getLast?_append, List.getLast?_singleton, Option.some_or]

section Region

variable {cap : Int} {block : Bytes}

variable {scan : RegionScan} {machine : Machine}

theorem matchRound_tracks {pos stop : Nat} {terminator : Bytes} {phase : Phase}
    (inside : pos ≤ block.length)
    (ends : slice block scan.recStart stop = slice block scan.recStart pos ++ terminator)
    (tracks : Tracks cap scan.framer (slice block scan.recStart pos) phase machine) :
    (cap < machine.body.length → matchRound cap block scan (pos, stop) =
      .error (machine.records.map joinRecord, .recordTooLarge machine.records.length)) ∧
    (¬ cap < machine.body.length → ∃ framer,
      matchRound cap block scan (pos, stop) = .ok ⟨framer, stop, stop⟩ ∧
      framer.state = scan.framer.state ∧ framer.pendingCr = scan.framer.pendingCr ∧
      framer.atStart = true ∧
      Tracks cap framer [] .fieldStart (machine.close terminator)) := by
  have length : (scan.framer.recLen : Int) + (pos - scan.recStart : Nat) = machine.body.length := by
    rw [tracks.body, List.length_append, length_slice inside, tracks.recLen]
    exact (Int.natCast_add _ _).symm
  have record : (if scan.framer.pieces ≠ [] then
        (scan.framer.pieces ++ [slice block scan.recStart stop]).flatten
      else slice block scan.recStart stop) = machine.body ++ terminator := by
    rw [tracks.body, ends]
    by_cases empty : scan.framer.pieces = []
    · simp [empty]
    · simp [empty]
  constructor
  · intro beyond
    rw [← length] at beyond
    rw [matchRound, if_pos beyond, tracks.yielded, tracks.index]
  · intro short
    have bounded : ¬ cap < (scan.framer.recLen : Int) + (pos - scan.recStart : Nat) := by
      rwa [length]
    rw [matchRound, if_neg bounded]
    refine ⟨_, rfl, rfl, rfl, rfl, ?_⟩
    refine ⟨?_, ?_, rfl, ?_, by simp, rfl, ?_⟩
    · simp only [record]
      rw [tracks.yielded, close, List.map_append]
      rfl
    · simp only [close, List.length_append, tracks.index]
      rfl
    · by_cases empty : scan.framer.pieces = []
      · simp [empty, tracks.recLen]
      · simp [empty]
    · intro entry member
      rcases List.mem_append.mp member with earlier | last
      · exact tracks.within entry earlier
      · rw [List.mem_singleton.mp last]
        exact decide_eq_true (Int.not_lt.mp short)

/-- A scan of a region keeps up with the machine, which may be left waiting on a CR. -/
structure RegionTracks (cap : Int) (block : Bytes) (pos : Nat) (scan : RegionScan)
    (machine : Machine) : Prop where
  start : scan.recStart ≤ pos
  cursor : scan.cursor ≤ pos
  clean : scan.framer.state = .clean
  tracks : Tracks cap scan.framer (slice block scan.recStart pos)
    (phaseAfter scan.framer.atStart (slice block scan.cursor pos)) machine

theorem RegionTracks.phase {pos : Nat} (tracks : RegionTracks cap block pos scan machine) :
    Clean machine.phase := by
  rw [tracks.tracks.phase]
  exact phaseAfter_clean _ _

theorem regionTracks_fresh {framer : Framer} {stop : Nat} (clean : framer.state = .clean)
    (atStart : framer.atStart = true) (tracks : Tracks cap framer [] .fieldStart machine) :
    RegionTracks cap block stop ⟨framer, stop, stop⟩ machine := by
  refine ⟨Nat.le_refl _, Nat.le_refl _, clean, ?_⟩
  simp only [slice_self, atStart]
  exact tracks

/-- The scan of a region stops at a record the machine finds too long, or reaches the end
of the region with the machine. -/
def RegionOutcome (cap : Int) (block : Bytes) (stop : Nat) (waiting : Bool) (final : Machine)
    (result : Except Framed RegionScan) : Prop :=
  (∃ before, result = .error (before.map joinRecord, .recordTooLarge before.length) ∧
    final.Overlong cap before) ∨
  ∃ next, result = .ok next ∧ next.framer.pendingCr = waiting ∧
    RegionTracks cap block stop next final.settle

theorem match_then {pos stop last : Nat} {terminator : Bytes} {spans : List (Nat × Nat)}
    {final : Machine} (inside : pos ≤ block.length)
    (tracks : RegionTracks cap block pos scan machine)
    (ends : slice block scan.recStart stop = slice block scan.recStart pos ++ terminator)
    (overlong : cap < machine.body.length → final.Overlong cap machine.records)
    (later : ∀ {framer : Framer}, framer.pendingCr = scan.framer.pendingCr →
      RegionTracks cap block stop ⟨framer, stop, stop⟩ (machine.close terminator) →
      RegionOutcome cap block last framer.pendingCr final
      (spans.foldlM (matchRound cap block) ⟨framer, stop, stop⟩)) :
    RegionOutcome cap block last scan.framer.pendingCr final
      (((pos, stop) :: spans).foldlM (matchRound cap block) scan) := by
  obtain ⟨raises, passes⟩ := matchRound_tracks inside ends tracks.tracks
  rw [List.foldlM_cons]
  by_cases beyond : cap < machine.body.length
  · rw [raises beyond]
    exact Or.inl ⟨machine.records, rfl, overlong beyond⟩
  · obtain ⟨framer, matched, state, waiting, atStart, tracks'⟩ := passes beyond
    rw [matched]
    have clean : framer.state = .clean := state.trans tracks.clean
    have outcome := later waiting (regionTracks_fresh clean atStart tracks')
    rw [waiting] at outcome
    exact outcome

theorem region_tracks {region rest : Bytes} {pos : Nat} (here : block.drop pos = region ++ rest)
    (inside : pos ≤ block.length) (plain : quoteByte ∉ region)
    (tracks : RegionTracks cap block pos scan machine) :
    RegionOutcome cap block (pos + region.length) scan.framer.pendingCr (machine.feed region)
      ((terminators pos region).foldlM (matchRound cap block) scan) := by
  have bound := length_of_drop here inside
  fun_induction terminators pos region generalizing scan machine with
  | case1 pos =>
      refine Or.inr ⟨scan, rfl, rfl, ?_⟩
      rw [feed, List.foldl_nil, tracks.phase.settled]
      exact tracks
  | case2 pos =>
      refine match_then inside tracks (slice_succ tracks.start here) ?_ ?_
      · intro beyond
        exact overlong_of_body tracks.tracks.within beyond crByte
      · intro framer waiting fresh
        refine Or.inr ⟨_, rfl, rfl, ?_⟩
        have settled : (machine.feed [crByte]).settle = machine.close [crByte] := by
          rw [feed_cons, step_cr tracks.phase]
          rfl
        rw [settled]
        exact fresh
  | case3 pos later ih =>
      have second := drop_succ here
      have ends : slice block scan.recStart (pos + 2) =
          slice block scan.recStart pos ++ [crByte, lfByte] := by
        rw [slice_succ (Nat.le_succ_of_le tracks.start) second, slice_succ tracks.start here,
          List.append_assoc]
        rfl
      have closed : machine.feed (crByte :: lfByte :: later) =
          (machine.close [crByte, lfByte]).feed later := by
        rw [feed_cons, step_cr tracks.phase]
        rfl
      have stop : pos + (crByte :: lfByte :: later).length = pos + 2 + later.length := by
        rw [List.length_cons, List.length_cons]
        omega
      refine match_then inside tracks ends ?_ ?_
      · intro beyond
        rw [feed_cons]
        exact overlong_feed (overlong_of_body tracks.tracks.within beyond crByte) _
      · intro framer waiting fresh
        rw [closed, stop]
        rw [stop] at bound
        exact ih (drop_succ second) (by omega)
          (fun member => plain (List.mem_cons_of_mem _ (List.mem_cons_of_mem _ member))) fresh bound
  | case4 pos second later other ih =>
      have stop : pos + (crByte :: second :: later).length =
          pos + 1 + (second :: later).length := by
        rw [List.length_cons (a := crByte)]
        omega
      -- The byte after the CR is no LF, so the machine ends the record here too.
      have closed : machine.feed (crByte :: second :: later) =
          (machine.close [crByte]).feed (second :: later) := by
        rw [feed_cons, step_cr tracks.phase, feed_cons, feed_cons, step_settle _ other]
        rfl
      refine match_then inside tracks (slice_succ tracks.start here) ?_ ?_
      · intro beyond
        rw [feed_cons]
        exact overlong_feed (overlong_of_body tracks.tracks.within beyond crByte) _
      · intro framer waiting fresh
        rw [closed, stop]
        rw [stop] at bound
        exact ih (drop_succ here) (by omega) (fun member => plain (List.mem_cons_of_mem _ member))
          fresh bound
  | case5 pos later cr ih =>
      have stop : pos + (lfByte :: later).length = pos + 1 + later.length := by
        rw [List.length_cons]
        omega
      have closed : machine.feed (lfByte :: later) = (machine.close [lfByte]).feed later := by
        rw [feed_cons, step_lf tracks.phase]
      refine match_then inside tracks (slice_succ tracks.start here) ?_ ?_
      · intro beyond
        rw [feed_cons]
        exact overlong_feed (overlong_of_body tracks.tracks.within beyond lfByte) _
      · intro framer waiting fresh
        rw [closed, stop]
        rw [stop] at bound
        exact ih (drop_succ here) (by omega) (fun member => plain (List.mem_cons_of_mem _ member))
          fresh bound
  | case6 pos first later cr lf ih =>
      have stop : pos + (first :: later).length = pos + 1 + later.length := by
        rw [List.length_cons]
        omega
      have unquoted : first ≠ quoteByte := fun same => plain (same ▸ List.mem_cons_self)
      rw [feed_cons, step_plain tracks.phase cr lf unquoted, stop]
      rw [stop] at bound
      refine ih (drop_succ here) (by omega) (fun member => plain (List.mem_cons_of_mem _ member)) ?_
        bound
      refine ⟨Nat.le_succ_of_le tracks.start, Nat.le_succ_of_le tracks.cursor, tracks.clean, ?_⟩
      rw [slice_succ tracks.start here, slice_succ tracks.cursor here, phaseAfter_snoc]
      refine ⟨tracks.tracks.yielded, tracks.tracks.index, ?_, tracks.tracks.recLen,
        tracks.tracks.pieces, rfl, tracks.tracks.within⟩
      rw [push, tracks.tracks.body, List.append_assoc]

end Region

/-! Rounds of the scan of one block. -/

section Block

variable {cap : Int} {block : Bytes}

def phaseOf (state : QuoteState) (atStart : Bool) : Phase :=
  match state with
  | .clean => if atStart then .fieldStart else .unquoted
  | .quoted => .quoted
  | .afterQuote => .afterQuote

/-- The same inside a block, between two steps of its scan. -/
structure ScanTracks (cap : Int) (block : Bytes) (scan : BlockScan) (machine : Machine) : Prop where
  inside : scan.pos ≤ block.length
  start : scan.recStart ≤ scan.pos
  free : scan.heldCr = false
  running : scan.framer.pendingCr = false
  tracks : Tracks cap scan.framer (slice block scan.recStart scan.pos)
    (phaseOf scan.framer.state scan.framer.atStart) machine

/-- The end of a block whose last CR is held back. -/
structure HeldTracks (cap : Int) (block : Bytes) (scan : BlockScan) (final : Machine) : Prop where
  pos : scan.pos = block.length
  start : scan.recStart ≤ block.length - 1
  held : scan.heldCr = true
  running : scan.framer.pendingCr = false
  tracks : Tracks cap scan.framer (slice block scan.recStart (block.length - 1)) .pendingCr final

def roundsLeft (block : Bytes) (scan : BlockScan) : Nat :=
  2 * (block.length - scan.pos) + if scan.framer.state = .afterQuote then 1 else 0

/-- A round raises where the machine has a record too long, goes on with the machine, or
holds back the CR that ends the block. -/
def RoundOutcome (cap : Int) (block : Bytes) (scan : BlockScan) (final : Machine)
    (result : Except Framed BlockScan) : Prop :=
  (∃ before, result = .error (before.map joinRecord, .recordTooLarge before.length) ∧
    final.Overlong cap before) ∨
  (∃ next machine, result = .ok next ∧ ScanTracks cap block next machine ∧
    machine.feed (block.drop next.pos) = final ∧
    roundsLeft block next < roundsLeft block scan) ∨
  ∃ next, result = .ok next ∧ HeldTracks cap block next final

theorem idxOf_split (byte : UInt8) (bytes : Bytes) :
    match bytes.idxOf? byte with
    | none => byte ∉ bytes
    | some offset => ∃ before rest, bytes = before ++ byte :: rest ∧ byte ∉ before ∧
        before.length = offset := by
  induction bytes with
  | nil => simp
  | cons first bytes ih =>
      rw [List.idxOf?_cons]
      by_cases here : first = byte
      · subst here
        simp only [beq_self_eq_true, if_true]
        exact ⟨[], bytes, rfl, by simp, rfl⟩
      · have different : ¬ byte = first := fun same => here same.symm
        simp only [beq_iff_eq, here, if_false]
        cases found : bytes.idxOf? byte with
        | none =>
            rw [found] at ih
            simpa [different] using ih
        | some offset =>
            rw [found] at ih
            obtain ⟨before, rest, split, absent, length⟩ := ih
            refine ⟨first :: before, rest, by rw [split]; rfl, by simp [different, absent], ?_⟩
            rw [List.length_cons, length]

theorem findQuote_none {pos : Nat} (absent : findQuote block pos = none) :
    quoteByte ∉ block.drop pos := by
  have split := idxOf_split quoteByte (block.drop pos)
  rw [findQuote, Option.map_eq_none_iff] at absent
  rwa [absent] at split

theorem findQuote_some {pos quote : Nat} (found : findQuote block pos = some quote) :
    ∃ before rest, block.drop pos = before ++ quoteByte :: rest ∧ quoteByte ∉ before ∧
      quote = pos + before.length := by
  have split := idxOf_split quoteByte (block.drop pos)
  rw [findQuote, Option.map_eq_some_iff] at found
  obtain ⟨offset, index, same⟩ := found
  rw [index] at split
  obtain ⟨before, rest, shape, absent, length⟩ := split
  exact ⟨before, rest, shape, absent, by omega⟩

variable {machine : Machine}

theorem feed_quoted (quoted : machine.phase = .quoted) {bytes : Bytes} (plain : quoteByte ∉ bytes) :
    machine.feed bytes = { machine with body := machine.body ++ bytes } := by
  induction bytes generalizing machine with
  | nil => simp [feed]
  | cons byte bytes ih =>
      rw [List.mem_cons, not_or] at plain
      have data : ¬ byte = quoteByte := fun same => plain.1 same.symm
      have step : machine.step byte = machine.push byte .quoted := by
        simp [Machine.step, quoted, data]
      rw [feed_cons, step, ih rfl plain.2]
      simp [push, quoted]

variable {scan : BlockScan}

theorem quotedRound (tracks : ScanTracks cap block scan machine) (unread : scan.pos < block.length)
    (quoted : scan.framer.state = .quoted) :
    RoundOutcome cap block scan (machine.feed (block.drop scan.pos))
      (scanRound cap block scan) := by
  have phase : machine.phase = .quoted := by
    rw [tracks.tracks.phase, quoted]
    rfl
  have fuel : roundsLeft block scan = 2 * (block.length - scan.pos) := by
    simp [roundsLeft, quoted]
  refine Or.inr (Or.inl ?_)
  cases found : findQuote block scan.pos with
  | none =>
      have plain := findQuote_none found
      have all : slice block scan.recStart block.length =
          slice block scan.recStart scan.pos ++ block.drop scan.pos := by
        rw [slice_append tracks.start tracks.inside]
        congr 1
        rw [slice, List.take_length]
      have result : scanRound cap block scan = .ok { scan with pos := block.length } := by
        simp only [scanRound, quoted, found]
      refine ⟨_, machine.feed (block.drop scan.pos), result, ?_, ?_, ?_⟩
      · refine ⟨Nat.le_refl _, Nat.le_trans tracks.start tracks.inside, tracks.free,
          tracks.running, ?_⟩
        rw [feed_quoted phase plain]
        refine ⟨tracks.tracks.yielded, tracks.tracks.index, ?_, tracks.tracks.recLen,
          tracks.tracks.pieces, tracks.tracks.phase, tracks.tracks.within⟩
        simp only [all, tracks.tracks.body, List.append_assoc]
      · simp only [List.drop_length]
        rfl
      · rw [fuel]
        simp only [roundsLeft, quoted, Nat.sub_self]
        simp
        omega
  | some quote =>
      obtain ⟨before, rest, shape, plain, place⟩ := findQuote_some found
      have bound := length_of_drop shape tracks.inside
      have ends : block.drop quote = quoteByte :: rest := by
        rw [place, ← List.drop_drop, shape, List.drop_left]
      have region : slice block scan.recStart (quote + 1) =
          slice block scan.recStart scan.pos ++ before ++ [quoteByte] := by
        rw [slice_succ (by have := tracks.start; omega) ends, place,
          slice_append tracks.start (Nat.le_add_right _ _), slice_of_drop shape]
      have room : quote + 1 ≤ block.length := by
        have lengths := congrArg List.length ends
        rw [List.length_drop, List.length_cons] at lengths
        omega
      have result : scanRound cap block scan = .ok { scan with
          pos := quote + 1, framer := { scan.framer with state := .afterQuote } } := by
        simp only [scanRound, quoted, found]
      have moved : (machine.feed before).step quoteByte =
          { machine with body := machine.body ++ before ++ [quoteByte], phase := .afterQuote } := by
        rw [feed_quoted phase plain]
        simp [Machine.step, push, phase]
      refine ⟨_, (machine.feed before).step quoteByte, result, ?_, ?_, ?_⟩
      · have start := tracks.start
        refine ⟨room, by simp only; omega, tracks.free, tracks.running, ?_⟩
        rw [moved]
        refine ⟨tracks.tracks.yielded, tracks.tracks.index, ?_, tracks.tracks.recLen,
          tracks.tracks.pieces, rfl, tracks.tracks.within⟩
        simp only [region, tracks.tracks.body, List.append_assoc]
      · simp only [drop_succ ends]
        rw [shape, feed_append, feed_cons]
      · rw [fuel]
        simp only [roundsLeft]
        simp
        omega

theorem afterQuoteRound (tracks : ScanTracks cap block scan machine)
    (unread : scan.pos < block.length) (closing : scan.framer.state = .afterQuote) :
    RoundOutcome cap block scan (machine.feed (block.drop scan.pos))
      (scanRound cap block scan) := by
  have phase : machine.phase = .afterQuote := by
    rw [tracks.tracks.phase, closing]
    rfl
  have fuel : roundsLeft block scan = 2 * (block.length - scan.pos) + 1 := by
    simp [roundsLeft, closing]
  obtain ⟨byte, rest, shape⟩ : ∃ byte rest, block.drop scan.pos = byte :: rest := by
    rw [List.drop_eq_getElem_cons unread]
    exact ⟨_, _, rfl⟩
  have next : block[scan.pos]? = some byte := by
    rw [← List.head?_drop, shape]
    rfl
  refine Or.inr (Or.inl ?_)
  by_cases doubled : byte = quoteByte
  · subst doubled
    have result : scanRound cap block scan = .ok { scan with
        pos := scan.pos + 1, framer := { scan.framer with state := .quoted } } := by
      simp only [scanRound, closing, next, if_true]
    have moved : machine.step quoteByte = machine.push quoteByte .quoted := by
      simp only [Machine.step, phase, stepOutside]
      rfl
    refine ⟨_, machine.step quoteByte, result, ?_, ?_, ?_⟩
    · refine ⟨unread, Nat.le_succ_of_le tracks.start, tracks.free, tracks.running, ?_⟩
      rw [moved]
      refine ⟨tracks.tracks.yielded, tracks.tracks.index, ?_, tracks.tracks.recLen,
        tracks.tracks.pieces, rfl, tracks.tracks.within⟩
      simp only [push, slice_succ tracks.start shape, tracks.tracks.body, List.append_assoc]
    · simp only [drop_succ shape]
      rw [shape, feed_cons]
    · rw [fuel]
      simp only [roundsLeft]
      simp
      omega
  · have result : scanRound cap block scan = .ok { scan with
        framer := { scan.framer with state := .clean, atStart := false } } := by
      simp [scanRound, closing, next, doubled]
    -- After the closing quote the machine treats the byte as inside an unquoted field.
    refine ⟨_, { machine with phase := .unquoted }, result, ?_, ?_, ?_⟩
    · exact ⟨tracks.inside, tracks.start, tracks.free, tracks.running, tracks.tracks.yielded,
        tracks.tracks.index, tracks.tracks.body, tracks.tracks.recLen, tracks.tracks.pieces, rfl,
        tracks.tracks.within⟩
    · simp only [shape]
      rw [feed_cons, feed_cons]
      congr 1
      simp [Machine.step, phase, stepOutside, doubled, push, close]
    · rw [fuel]
      simp [roundsLeft]

theorem feed_waiting {bytes : Bytes} (nonempty : bytes ≠ [])
    (waiting : (machine.feed bytes).phase = .pendingCr) : bytes.getLast? = some crByte := by
  have taken := content_feed machine bytes
  rw [content, waiting, if_pos rfl] at taken
  have last := congrArg List.getLast? taken
  rw [List.getLast?_concat, List.getLast?_append_of_ne_nil _ nonempty] at last
  exact last.symm

theorem phaseOf_region {atStart : Bool} {cursor stop : Nat} (lower : cursor ≤ stop)
    (inside : stop ≤ block.length) :
    phaseOf .clean (if cursor < stop then decide (block[stop - 1]? = some commaByte) else atStart) =
      phaseAfter atStart (slice block cursor stop) := by
  by_cases moved : cursor < stop
  · have before : stop - 1 < block.length := by omega
    have shape : block.drop (stop - 1) = block[stop - 1] :: block.drop (stop - 1 + 1) :=
      List.drop_eq_getElem_cons before
    have last := slice_succ (Nat.le_sub_one_of_lt moved) shape
    rw [Nat.sub_add_cancel (by omega : 1 ≤ stop)] at last
    rw [last, phaseAfter_snoc, if_pos moved, List.getElem?_eq_getElem before, fieldPhase, phaseOf]
    simp
  · have same : cursor = stop := by omega
    rw [if_neg moved, same, slice_self]
    rfl

theorem ScanTracks.region (tracks : ScanTracks cap block scan machine)
    (clean : scan.framer.state = .clean) :
    RegionTracks cap block scan.pos ⟨scan.framer, scan.recStart, scan.pos⟩ machine := by
  refine ⟨tracks.start, Nat.le_refl _, clean, ?_⟩
  have phase := tracks.tracks
  rw [clean] at phase
  simp only [slice_self]
  exact phase

theorem cleanRound_quote (tracks : ScanTracks cap block scan machine)
    (clean : scan.framer.state = .clean) {quote : Nat}
    (found : findQuote block scan.pos = some quote) :
    RoundOutcome cap block scan (machine.feed (block.drop scan.pos))
      (cleanRound cap block scan) := by
  obtain ⟨before, rest, shape, plain, place⟩ := findQuote_some found
  have bound := length_of_drop shape tracks.inside
  have ends : block.drop quote = quoteByte :: rest := by
    rw [place, ← List.drop_drop, shape, List.drop_left]
  have room : quote + 1 ≤ block.length := by
    have lengths := congrArg List.length ends
    rw [List.length_drop, List.length_cons] at lengths
    omega
  have region : slice block scan.pos quote = before := by
    rw [place]
    exact slice_of_drop shape
  have outcome := region_tracks shape tracks.inside plain (tracks.region clean)
  rw [← place] at outcome
  simp only [cleanRound, found, Option.getD_some, reduceCtorEq, false_and, if_false, region]
  rcases outcome with ⟨records, raised, overlong⟩ | ⟨next, passed, waiting, reached⟩
  · rw [raised]
    refine Or.inl ⟨records, rfl, ?_⟩
    rw [shape, feed_append]
    exact overlong_feed overlong _
  · rw [passed]
    refine Or.inr (Or.inl ?_)
    have phase := reached.tracks.phase
    rw [← phaseOf_region reached.cursor (by omega)] at phase
    -- The quote byte is no LF: it settles a CR the machine may wait on.
    have through : machine.feed (block.drop scan.pos) =
        ((machine.feed before).settle.step quoteByte).feed rest := by
      rw [shape, feed_append, feed_cons, step_settle _ (by decide)]
    have current : slice block next.recStart (quote + 1) =
        slice block next.recStart quote ++ [quoteByte] := slice_succ reached.start ends
    have running : next.framer.pendingCr = false := waiting.trans tracks.running
    have fuel : 2 * (block.length - (quote + 1)) < roundsLeft block scan := by
      have lower : scan.pos ≤ quote := by omega
      simp only [roundsLeft, clean]
      omega
    simp only [bind, Except.bind]
    by_cases atStart : (if next.cursor < quote then
        decide (block[quote - 1]? = some commaByte) else next.framer.atStart) = true
    · rw [atStart] at phase
      rw [if_pos atStart]
      have moved : (machine.feed before).settle.step quoteByte =
          (machine.feed before).settle.push quoteByte .quoted := by
        simp only [Machine.step, phase, phaseOf, stepOutside]
        rfl
      refine ⟨_, (machine.feed before).settle.step quoteByte, rfl, ?_, ?_, ?_⟩
      · refine ⟨room, Nat.le_succ_of_le reached.start, tracks.free, running, ?_⟩
        rw [moved]
        refine ⟨reached.tracks.yielded, reached.tracks.index, ?_, reached.tracks.recLen,
          reached.tracks.pieces, rfl, reached.tracks.within⟩
        simp only [push, current, reached.tracks.body, List.append_assoc]
      · simp only [drop_succ ends]
        exact through.symm
      · simpa [roundsLeft] using fuel
    · have inside := Bool.eq_false_iff.mpr atStart
      rw [inside] at phase
      rw [if_neg atStart]
      have moved : (machine.feed before).settle.step quoteByte =
          (machine.feed before).settle.push quoteByte .unquoted := by
        simp only [Machine.step, phase, phaseOf, stepOutside]
        rfl
      refine ⟨_, (machine.feed before).settle.step quoteByte, rfl, ?_, ?_, ?_⟩
      · refine ⟨room, Nat.le_succ_of_le reached.start, tracks.free, running, ?_⟩
        rw [moved]
        refine ⟨reached.tracks.yielded, reached.tracks.index, ?_, reached.tracks.recLen,
          reached.tracks.pieces, ?_, reached.tracks.within⟩
        · simp only [push, current, reached.tracks.body, List.append_assoc]
        · simp only [push, reached.clean, phaseOf]
          rfl
      · simp only [drop_succ ends]
        exact through.symm
      · simpa [roundsLeft, reached.clean] using fuel

theorem cleanRound_end (tracks : ScanTracks cap block scan machine)
    (unread : scan.pos < block.length) (clean : scan.framer.state = .clean)
    (found : findQuote block scan.pos = none) :
    RoundOutcome cap block scan (machine.feed (block.drop scan.pos))
      (cleanRound cap block scan) := by
  have plain := findQuote_none found
  have nonempty : block.drop scan.pos ≠ [] := by
    intro empty
    rw [List.drop_eq_nil_iff] at empty
    omega
  have last : (block.drop scan.pos).getLast? = block.getLast? := by
    rw [List.getLast?_drop, if_neg (by omega)]
  by_cases held : block.getLast? = some crByte
  · -- The CR that ends the block is left out of the scan.
    obtain ⟨before, shape⟩ : ∃ before, block.drop scan.pos = before ++ [crByte] := by
      rw [← last] at held
      exact ⟨_, (List.dropLast_append_getLast? crByte held).symm⟩
    have length : scan.pos + before.length = block.length - 1 := by
      have lengths := congrArg List.length shape
      rw [List.length_drop, List.length_append, List.length_singleton] at lengths
      omega
    have region : slice block scan.pos (block.length - 1) = before := by
      rw [← length]
      exact slice_of_drop shape
    have noQuote : quoteByte ∉ before := fun member =>
      plain (shape ▸ List.mem_append_left _ member)
    have outcome := region_tracks shape tracks.inside noQuote (tracks.region clean)
    rw [length] at outcome
    simp only [cleanRound, found, held, and_self, if_true, region]
    rcases outcome with ⟨records, raised, overlong⟩ | ⟨next, passed, waiting, reached⟩
    · rw [raised]
      refine Or.inl ⟨records, rfl, ?_⟩
      rw [shape, feed_append]
      exact overlong_feed overlong _
    · rw [passed]
      refine Or.inr (Or.inr ⟨_, rfl, ?_⟩)
      have through : machine.feed (block.drop scan.pos) =
          { (machine.feed before).settle with phase := .pendingCr } := by
        rw [shape, feed_append, feed_cons, step_settle _ (by decide), step_cr reached.phase]
        rfl
      refine ⟨rfl, reached.start, decide_eq_true trivial, waiting.trans tracks.running, ?_⟩
      rw [through]
      exact ⟨reached.tracks.yielded, reached.tracks.index, reached.tracks.body,
        reached.tracks.recLen, reached.tracks.pieces, rfl, reached.tracks.within⟩
  · have region : slice block scan.pos block.length = block.drop scan.pos := by
      rw [slice, List.take_length]
    have shape : block.drop scan.pos = block.drop scan.pos ++ [] := (List.append_nil _).symm
    have length : scan.pos + (block.drop scan.pos).length = block.length := by
      rw [List.length_drop]
      omega
    have settled : (machine.feed (block.drop scan.pos)).settle =
        machine.feed (block.drop scan.pos) := by
      apply settle_of_ne
      intro waiting
      exact held (last ▸ feed_waiting nonempty waiting)
    have outcome := region_tracks shape tracks.inside plain (tracks.region clean)
    rw [length] at outcome
    simp only [cleanRound, found, held, and_false, if_false, Option.getD_none, region]
    rcases outcome with ⟨records, raised, overlong⟩ | ⟨next, passed, waiting, reached⟩
    · rw [raised]
      exact Or.inl ⟨records, rfl, overlong⟩
    · rw [passed]
      rw [settled] at reached
      have phase := reached.tracks.phase
      rw [← phaseOf_region reached.cursor (Nat.le_refl _)] at phase
      refine Or.inr (Or.inl ⟨_, machine.feed (block.drop scan.pos), rfl, ?_, ?_, ?_⟩)
      · refine ⟨Nat.le_refl _, reached.start, by simp, waiting.trans tracks.running, ?_⟩
        refine ⟨reached.tracks.yielded, reached.tracks.index, reached.tracks.body,
          reached.tracks.recLen, reached.tracks.pieces, ?_, reached.tracks.within⟩
        simp only [reached.clean]
        exact phase
      · simp only [List.drop_length]
        rfl
      · simp only [roundsLeft, clean, reached.clean, Nat.sub_self]
        simp
        omega

theorem scanRound_outcome (tracks : ScanTracks cap block scan machine)
    (unread : scan.pos < block.length) :
    RoundOutcome cap block scan (machine.feed (block.drop scan.pos))
      (scanRound cap block scan) := by
  cases state : scan.framer.state with
  | quoted => exact quotedRound tracks unread state
  | afterQuote => exact afterQuoteRound tracks unread state
  | clean =>
      have round : scanRound cap block scan = cleanRound cap block scan := by
        simp only [scanRound, state]
      rw [round]
      cases found : findQuote block scan.pos with
      | none => exact cleanRound_end tracks unread state found
      | some quote => exact cleanRound_quote tracks state found

end Block

end DecoyEngine.Io
