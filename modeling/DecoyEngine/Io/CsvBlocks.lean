import DecoyEngine.Io.CsvFraming
import Mathlib.Data.List.TakeWhile

namespace DecoyEngine.Io

open Machine

/-! Blocks and whole streams -/

section Loop

variable {cap : Int} {block : Bytes}

theorem scanLoop_outcome {fuel : Nat} {scan : BlockScan} {machine : Machine}
    (tracks : ScanTracks cap block scan machine) (enough : roundsLeft block scan ≤ fuel) :
    (∃ before, scanLoop cap block fuel scan =
        .error (before.map joinRecord, .recordTooLarge before.length) ∧
      (machine.feed (block.drop scan.pos)).Overlong cap before) ∨
    ∃ next, scanLoop cap block fuel scan = .ok next ∧
      (next.pos = block.length ∧
          ScanTracks cap block next (machine.feed (block.drop scan.pos)) ∨
        HeldTracks cap block next (machine.feed (block.drop scan.pos))) := by
  induction fuel generalizing scan machine with
  | zero =>
      have done : scan.pos = block.length := by
        have inside := tracks.inside
        rw [roundsLeft] at enough
        omega
      refine Or.inr ⟨scan, rfl, Or.inl ⟨done, ?_⟩⟩
      rw [done, List.drop_length]
      exact tracks
  | succ fuel ih =>
      by_cases unread : scan.pos < block.length
      · have unfold : scanLoop cap block (fuel + 1) scan =
            (scanRound cap block scan >>= scanLoop cap block fuel) := by
          rw [scanLoop, if_pos unread]
        rw [unfold]
        rcases scanRound_outcome tracks unread with ⟨before, raised, overlong⟩ |
          ⟨next, machine', passed, tracks', through, less⟩ | ⟨next, passed, held⟩
        · rw [raised]
          exact Or.inl ⟨before, rfl, overlong⟩
        · rw [passed, ← through]
          exact ih tracks' (by omega)
        · rw [passed]
          refine Or.inr ⟨next, ?_, Or.inr held⟩
          have stopped : ¬ next.pos < block.length := by
            rw [held.pos]
            exact Nat.lt_irrefl _
          cases fuel with
          | zero => rfl
          | succ fuel =>
              simp only [bind, Except.bind]
              rw [scanLoop, if_neg stopped]
      · have done : scan.pos = block.length := by
          have inside := tracks.inside
          omega
        rw [scanLoop, if_neg unread]
        refine Or.inr ⟨scan, rfl, Or.inl ⟨done, ?_⟩⟩
        rw [done, List.drop_length]
        exact tracks

/-- The framer between two blocks. -/
structure BlockTracks (cap : Int) (framer : Framer) (machine : Machine) : Prop where
  tracks : Tracks cap framer [] (if framer.pendingCr then .pendingCr
    else phaseOf framer.state framer.atStart) machine
  within : ∀ record ∈ machine.allRecords, fits cap record = true

theorem overlong_of_tail {machine : Machine}
    (within : ∀ record ∈ machine.records, fits cap record = true)
    (beyond : cap < machine.body.length) (taken : machine.content ≠ []) :
    machine.Overlong cap machine.records := by
  rcases machine.tail_cases with none | ⟨terminator, one⟩
  · -- Only a negative cap could be passed by an empty body.
    exfalso
    have waiting : machine.phase ≠ .pendingCr := by
      intro waiting
      rw [tail, if_pos waiting] at none
      cases none
    have body : machine.body = [] := by
      by_contra nonempty
      rw [tail, if_neg waiting, if_neg nonempty] at none
      cases none
    have records : machine.records = [] := by
      apply List.eq_nil_iff_forall_not_mem.mpr
      intro record member
      have short := of_decide_eq_true (within record member)
      rw [body, List.length_nil] at beyond
      omega
    apply taken
    simp [content, records, body, waiting]
  · exact ⟨within, (machine.body, terminator), [], by rw [allRecords, one], beyond⟩

theorem within_of_body {machine : Machine}
    (within : ∀ record ∈ machine.records, fits cap record = true)
    (short : ¬ cap < machine.body.length) :
    ∀ record ∈ machine.allRecords, fits cap record = true := by
  intro record member
  rcases List.mem_append.mp member with finished | last
  · exact within record finished
  · rcases machine.tail_cases with none | ⟨terminator, one⟩
    · rw [none] at last
      cases last
    · rw [one] at last
      rw [List.mem_singleton.mp last]
      exact decide_eq_true (Int.not_lt.mp short)

theorem collect_tracks {framer : Framer} {recStart stop : Nat} {phase : Phase} {machine : Machine}
    (lower : recStart ≤ stop) (inside : stop ≤ block.length)
    (tracks : Tracks cap framer (slice block recStart stop) phase machine) :
    let collected := if recStart < stop then
        { framer with
          pieces := framer.pieces ++ [slice block recStart stop]
          recLen := framer.recLen + (stop - recStart) }
      else framer
    Tracks cap collected [] phase machine ∧ (collected.recLen : Int) = machine.body.length ∧
      collected.yielded = framer.yielded ∧ collected.index = framer.index ∧
      collected.state = framer.state ∧ collected.atStart = framer.atStart := by
  by_cases more : recStart < stop
  · have length : (slice block recStart stop).length = stop - recStart := length_slice inside
    simp only [more, if_true]
    refine ⟨⟨tracks.yielded, tracks.index, ?_, ?_, ?_, tracks.phase, tracks.within⟩, ?_,
      trivial, trivial, trivial, trivial⟩
    · simp [tracks.body]
    · simp [tracks.recLen, length]
    · intro piece member
      rcases List.mem_append.mp member with old | new
      · exact tracks.pieces piece old
      · rw [List.mem_singleton.mp new]
        intro empty
        rw [empty] at length
        simp at length
        omega
    · rw [tracks.body, List.length_append, length, ← tracks.recLen]
  · have empty : slice block recStart stop = [] := by
      have same : recStart = stop := by omega
      rw [same, slice_self]
    rw [empty] at tracks
    simp only [more, if_false]
    refine ⟨tracks, ?_, trivial, trivial, trivial, trivial⟩
    rw [tracks.body, List.append_nil, tracks.recLen]

theorem endBlock_outcome {scan : BlockScan} {final : Machine} (taken : final.content ≠ [])
    (reached : scan.pos = block.length ∧ ScanTracks cap block scan final ∨
      HeldTracks cap block scan final) :
    (∃ before, endBlock cap block scan =
        .error (before.map joinRecord, .recordTooLarge before.length) ∧
      final.Overlong cap before) ∨
    ∃ framer, endBlock cap block scan = .ok framer ∧ BlockTracks cap framer final := by
  obtain ⟨phase, lower, tracks, meaning⟩ : ∃ phase,
      scan.recStart ≤ (if scan.heldCr then block.length - 1 else block.length) ∧
      Tracks cap scan.framer (slice block scan.recStart
        (if scan.heldCr then block.length - 1 else block.length)) phase final ∧
      phase = if scan.heldCr then .pendingCr
        else phaseOf scan.framer.state scan.framer.atStart := by
    rcases reached with ⟨done, tracks⟩ | held
    · have free := tracks.free
      have start := tracks.start
      have same := tracks.tracks
      rw [done] at start same
      rw [free]
      exact ⟨_, start, same, rfl⟩
    · have start := held.start
      have same := held.tracks
      rw [held.held]
      exact ⟨_, start, same, rfl⟩
  have inside : (if scan.heldCr then block.length - 1 else block.length) ≤ block.length := by
    split
    · omega
    · exact Nat.le_refl _
  have collected := collect_tracks lower inside tracks
  simp only [endBlock]
  obtain ⟨tracks', length, yielded, index, state, atStart⟩ := collected
  by_cases beyond : cap < final.body.length
  · rw [if_pos (by rw [length]; exact beyond), yielded, index, tracks.yielded, tracks.index]
    exact Or.inl ⟨final.records, rfl, overlong_of_tail tracks.within beyond taken⟩
  · rw [if_neg (by rw [length]; exact beyond)]
    refine Or.inr ⟨_, rfl, ?_, within_of_body tracks.within beyond⟩
    refine ⟨tracks'.yielded, tracks'.index, tracks'.body, tracks'.recLen, tracks'.pieces, ?_,
      tracks'.within⟩
    rw [tracks'.phase, meaning, state, atStart]

theorem roundsLeft_le (scan : BlockScan) : roundsLeft block scan ≤ 2 * block.length + 1 := by
  rw [roundsLeft]
  split <;> omega

theorem block_outcome {scan : BlockScan} {machine final : Machine}
    (tracks : ScanTracks cap block scan machine)
    (through : machine.feed (block.drop scan.pos) = final) (taken : final.content ≠ []) :
    (∃ before, (scanLoop cap block (2 * block.length + 1) scan >>= endBlock cap block) =
        .error (before.map joinRecord, .recordTooLarge before.length) ∧
      final.Overlong cap before) ∨
    ∃ framer, (scanLoop cap block (2 * block.length + 1) scan >>= endBlock cap block) =
        .ok framer ∧ BlockTracks cap framer final := by
  subst through
  rcases scanLoop_outcome tracks (roundsLeft_le scan) with ⟨before, raised, overlong⟩ |
    ⟨next, passed, reached⟩
  · rw [raised]
    exact Or.inl ⟨before, rfl, overlong⟩
  · rw [passed]
    exact endBlock_outcome taken reached

theorem resumeBlock_tracks {framer : Framer} {machine : Machine}
    (tracks : BlockTracks cap framer machine) (nonempty : block ≠ []) :
    ∃ start, ScanTracks cap block (resumeBlock framer block 0) start ∧
      start.feed (block.drop (resumeBlock framer block 0).pos) = machine.feed block := by
  obtain ⟨byte, rest, shape⟩ := List.exists_cons_of_ne_nil nonempty
  cases waiting : framer.pendingCr with
  | false =>
      have scan : resumeBlock framer block 0 = ⟨framer, 0, 0, false⟩ := by
        rw [resumeBlock, if_neg (by simp [waiting])]
      have same := tracks.tracks
      rw [waiting] at same
      rw [scan]
      refine ⟨machine, ⟨Nat.zero_le _, Nat.le_refl _, rfl, waiting, ?_⟩, rfl⟩
      rw [slice_self]
      exact same
  | true =>
      have phase : machine.phase = .pendingCr := by
        rw [tracks.tracks.phase, waiting]
        rfl
      have body : machine.body = framer.pieces.flatten := by
        rw [tracks.tracks.body, List.append_nil]
      have finished : ∀ terminator, ∀ record ∈ (machine.close terminator).records,
          fits cap record = true := by
        intro terminator record member
        rcases List.mem_append.mp member with old | new
        · exact tracks.tracks.within record old
        · rw [List.mem_singleton.mp new]
          apply tracks.within (machine.body, [crByte])
          rw [allRecords, Machine.tail, if_pos phase]
          exact List.mem_append_right _ List.mem_cons_self
      have yielded : ∀ terminator : Bytes, framer.yielded ++ [framer.pieces.flatten ++ terminator] =
          (machine.close terminator).records.map joinRecord := by
        intro terminator
        rw [tracks.tracks.yielded, ← body, close, List.map_append]
        rfl
      have index : ∀ terminator, framer.index + 1 = (machine.close terminator).records.length := by
        intro terminator
        simp only [close, List.length_append, tracks.tracks.index]
        rfl
      by_cases joined : byte = lfByte
      · have head : block.head? = some lfByte := by
          rw [shape, joined]
          rfl
        have moved : machine.step byte = machine.close [crByte, lfByte] := by
          simp [Machine.step, phase, joined]
        refine ⟨machine.close [crByte, lfByte], ?_, ?_⟩
        · simp only [resumeBlock, waiting, if_true, head]
          refine ⟨?_, ?_, rfl, rfl, ?_⟩
          · simp [shape]
          · simp
          · simp only [Nat.zero_le, Nat.max_eq_right, slice_self]
            exact ⟨yielded _, index _, rfl, rfl, by simp, rfl, finished _⟩
        · simp only [resumeBlock, waiting, if_true, head]
          rw [← moved, shape, feed_cons]
          rfl
      · have head : ¬ block.head? = some lfByte := by
          rw [shape]
          simpa using joined
        have settled : machine.settle = machine.close [crByte] := if_pos phase
        refine ⟨machine.close [crByte], ?_, ?_⟩
        · simp only [resumeBlock, waiting, if_true, head, if_false]
          refine ⟨Nat.zero_le _, Nat.le_refl _, rfl, rfl, ?_⟩
          simp only [slice_self]
          exact ⟨yielded _, index _, rfl, rfl, by simp, rfl, finished _⟩
        · simp only [resumeBlock, waiting, if_true, head, if_false]
          rw [List.drop_zero, shape, feed_cons, feed_cons, step_settle machine joined, settled]

theorem content_feed_ne_nil (machine : Machine) (nonempty : block ≠ []) :
    (machine.feed block).content ≠ [] := by
  rw [content_feed]
  exact List.append_ne_nil_of_right_ne_nil _ nonempty

theorem blockLoop_outcome {blocks : List Bytes} (nonempty : ∀ block ∈ blocks, block ≠ [])
    {framer : Framer} {machine : Machine} (tracks : BlockTracks cap framer machine) :
    (∃ before, blockLoop cap framer false blocks =
        .error (before.map joinRecord, .recordTooLarge before.length) ∧
      (machine.feed blocks.flatten).Overlong cap before) ∨
    ∃ last, blockLoop cap framer false blocks = .ok last ∧
      BlockTracks cap last (machine.feed blocks.flatten) := by
  induction blocks generalizing framer machine with
  | nil => exact Or.inr ⟨framer, rfl, tracks⟩
  | cons block blocks ih =>
      have filled : block ≠ [] := nonempty block List.mem_cons_self
      obtain ⟨start, tracks', through⟩ := resumeBlock_tracks tracks filled
      rw [List.flatten_cons, feed_append]
      have round : blockRound cap framer false block =
          (scanLoop cap block (2 * block.length + 1) (resumeBlock framer block 0) >>=
            endBlock cap block) := by
        simp only [blockRound, Bool.false_eq_true, false_and, if_false]
      rw [blockLoop, round]
      rcases block_outcome tracks' through (content_feed_ne_nil machine filled) with
        ⟨before, raised, overlong⟩ | ⟨next, passed, reached⟩
      · rw [raised]
        exact Or.inl ⟨before, rfl, overlong_feed overlong _⟩
      · rw [passed]
        exact ih (fun other member => nonempty other (List.mem_cons_of_mem _ member)) reached

end Loop

section Stream

variable {cap : Int}

theorem readBlocks_nonempty {blockSize : Nat} (accepted : 4 ≤ blockSize) (fuel : Nat)
    (stream : Bytes) : ∀ block ∈ readBlocks blockSize fuel stream, block ≠ [] := by
  induction fuel generalizing stream with
  | zero => simp [readBlocks]
  | succ fuel ih =>
      rw [readBlocks]
      by_cases empty : stream = []
      · simp [empty]
      · rw [if_neg empty]
        intro block member
        rcases List.mem_cons.mp member with first | later
        · rw [first]
          intro none
          rcases List.take_eq_nil_iff.mp none with zero | nil
          · omega
          · exact empty nil
        · exact ih (stream.drop blockSize) block later

theorem readBlocks_flatten {blockSize : Nat} (accepted : 4 ≤ blockSize) {fuel : Nat}
    {stream : Bytes} (enough : stream.length ≤ fuel) :
    (readBlocks blockSize fuel stream).flatten = stream := by
  induction fuel generalizing stream with
  | zero =>
      have empty : stream = [] := List.eq_nil_of_length_eq_zero (by omega)
      rw [empty]
      rfl
  | succ fuel ih =>
      rw [readBlocks]
      by_cases empty : stream = []
      · simp [empty]
      · rw [if_neg empty, List.flatten_cons, ih (by rw [List.length_drop]; omega),
          List.take_append_drop]

theorem start_tracks : Tracks cap Framer.start [] .fieldStart Machine.start :=
  ⟨rfl, rfl, rfl, rfl, by simp [Framer.start], rfl, by simp [Machine.start]⟩

theorem firstBlock_tracks {block rest : Bytes} (long : bom <+: block ++ rest → bom <+: block) :
    let scan := resumeBlock Framer.start block (if bom <+: block then bom.length else 0)
    ∃ start, ScanTracks cap block scan start ∧
      (start.feed (block.drop scan.pos)).feed rest = machineRun (block ++ rest) := by
  have scan : ∀ pos, resumeBlock Framer.start block pos = ⟨Framer.start, pos, 0, false⟩ :=
    fun _ => rfl
  simp only [scan]
  by_cases marked : bom <+: block
  · obtain ⟨after, shape⟩ := marked
    have whole : bom <+: block ++ rest := ⟨after ++ rest, by rw [← shape, List.append_assoc]⟩
    rw [if_pos ⟨after, shape⟩]
    refine ⟨⟨[], bom, .fieldStart⟩, ⟨?_, Nat.zero_le _, rfl, rfl, ?_⟩, ?_⟩
    · simp only [← shape, List.length_append]
      omega
    · have front : slice block 0 bom.length = bom := by
        rw [slice, List.drop_zero, ← shape, List.take_left]
      simp only [front]
      exact ⟨rfl, rfl, rfl, rfl, by simp [Framer.start], rfl, by simp⟩
    · rw [machineRun, if_pos whole, ← feed_append, List.drop_append_of_le_length]
      rw [← shape, List.length_append]
      omega
  · have whole : ¬ bom <+: block ++ rest := fun prefixed => marked (long prefixed)
    rw [if_neg marked]
    refine ⟨Machine.start, ⟨Nat.zero_le _, Nat.le_refl _, rfl, rfl, ?_⟩, ?_⟩
    · rw [slice_self]
      exact start_tracks
    · rw [machineRun, if_neg whole, List.drop_zero, feed_append]

theorem stream_outcome {blockSize : Nat} (accepted : 4 ≤ blockSize) (stream : Bytes) :
    (∃ before, blockLoop cap Framer.start true (readBlocks blockSize stream.length stream) =
        .error (before.map joinRecord, .recordTooLarge before.length) ∧
      (machineRun stream).Overlong cap before) ∨
    ∃ framer, blockLoop cap Framer.start true (readBlocks blockSize stream.length stream) =
        .ok framer ∧ BlockTracks cap framer (machineRun stream) := by
  have whole := readBlocks_flatten accepted (Nat.le_refl stream.length)
  have nonempty := readBlocks_nonempty accepted stream.length stream
  cases blocks : readBlocks blockSize stream.length stream with
  | nil =>
      rw [blocks, List.flatten_nil] at whole
      rw [← whole]
      exact Or.inr ⟨Framer.start, rfl, start_tracks, by simp [machineRun, bom, feed, Machine.start,
        allRecords, Machine.tail]⟩
  | cons block rest =>
      rw [blocks, List.flatten_cons] at whole
      rw [blocks] at nonempty
      have filled : block ≠ [] := nonempty block List.mem_cons_self
      have length : stream.length ≠ 0 := by
        intro zero
        rw [zero, readBlocks] at blocks
        cases blocks
      have first : block = stream.take blockSize := by
        obtain ⟨fuel, size⟩ := Nat.exists_eq_succ_of_ne_zero length
        rw [size, readBlocks] at blocks
        split at blocks
        · cases blocks
        · exact (List.cons.inj blocks).1.symm
      have long : bom <+: block ++ rest.flatten → bom <+: block := by
        intro prefixed
        rw [whole] at prefixed
        rw [first]
        have size : bom.length ≤ blockSize := Nat.le_trans (by decide) accepted
        exact List.prefix_take_iff.mpr ⟨prefixed, size⟩
      have round : blockRound cap Framer.start true block =
          (scanLoop cap block (2 * block.length + 1) (resumeBlock Framer.start block
            (if bom <+: block then bom.length else 0)) >>= endBlock cap block) := by
        simp only [blockRound, true_and]
      obtain ⟨start, tracks, through⟩ : ∃ start, ScanTracks cap block (resumeBlock Framer.start
          block (if bom <+: block then bom.length else 0)) start ∧
          (start.feed (block.drop (resumeBlock Framer.start block
            (if bom <+: block then bom.length else 0)).pos)).feed rest.flatten =
              machineRun (block ++ rest.flatten) := firstBlock_tracks long
      rw [whole] at through
      have taken : (start.feed (block.drop (resumeBlock Framer.start block
          (if bom <+: block then bom.length else 0)).pos)).content ≠ [] := by
        have content := content_machineRun stream
        rw [← through, content_feed, ← whole] at content
        rw [List.append_cancel_right content]
        exact filled
      rw [blockLoop, round, ← through]
      rcases block_outcome tracks rfl taken with ⟨before, raised, overlong⟩ |
        ⟨next, passed, reached⟩
      · rw [raised]
        exact Or.inl ⟨before, rfl, overlong_feed overlong _⟩
      · rw [passed]
        exact blockLoop_outcome (fun other member => nonempty other (List.mem_cons_of_mem _ member))
          reached

theorem phaseOf_settled (state : QuoteState) (atStart : Bool) :
    phaseOf state atStart ≠ .pendingCr := by
  cases state with
  | clean => cases atStart <;> exact Phase.noConfusion
  | quoted => exact Phase.noConfusion
  | afterQuote => exact Phase.noConfusion

theorem phaseOf_quoted (state : QuoteState) (atStart : Bool) :
    phaseOf state atStart = .quoted ↔ state = .quoted := by
  cases state with
  | clean => cases atStart <;> simp [phaseOf]
  | quoted => simp [phaseOf]
  | afterQuote => simp [phaseOf]

theorem endStream_eq {framer : Framer} {stream : Bytes}
    (tracks : BlockTracks cap framer (machineRun stream)) :
    endStream framer = referenceFraming cap stream := by
  have all : (streamRecords stream).takeWhile (fits cap) = streamRecords stream :=
    List.takeWhile_eq_self_iff.mpr tracks.within
  have body : (machineRun stream).body = framer.pieces.flatten := by
    rw [tracks.tracks.body, List.append_nil]
  have yielded := tracks.tracks.yielded
  have phase := tracks.tracks.phase
  rw [referenceFraming, all, if_neg (Nat.lt_irrefl _), endStream, endsInQuotes, streamRecords,
    allRecords, Machine.tail]
  cases waiting : framer.pendingCr with
  | true =>
      rw [waiting] at phase
      simp only [if_true] at phase
      simp [phase, yielded, body, joinRecord]
  | false =>
      rw [waiting] at phase
      simp only [Bool.false_eq_true, if_false] at phase
      have settled : (machineRun stream).phase ≠ .pendingCr := by
        rw [phase]
        exact phaseOf_settled _ _
      have quotes : (machineRun stream).phase = .quoted ↔ framer.state = .quoted := by
        rw [phase]
        exact phaseOf_quoted _ _
      simp only [Bool.false_eq_true, if_false, decide_eq_true_eq, quotes, settled]
      by_cases quoted : framer.state = .quoted
      · rw [if_pos quoted, if_pos quoted, yielded, tracks.tracks.index]
      · rw [if_neg quoted, if_neg quoted, body]
        by_cases empty : framer.pieces = []
        · simp [empty, yielded]
        · have filled : framer.pieces.flatten ≠ [] := by
            intro none
            obtain ⟨piece, pieces, shape⟩ := List.exists_cons_of_ne_nil empty
            rw [shape, List.flatten_cons, List.append_eq_nil_iff] at none
            exact tracks.tracks.pieces piece (by rw [shape]; exact List.mem_cons_self) none.1
          simp only [empty, ne_eq, not_false_eq_true, if_true, filled, if_false, yielded,
            List.map_append]
          simp [joinRecord]

theorem iterCsvRecords_eq {blockSize : Nat} (accepted : 4 ≤ blockSize) (stream : Bytes) :
    iterCsvRecords cap blockSize stream = some (referenceFraming cap stream) := by
  rw [iterCsvRecords, if_neg (by omega)]
  rcases stream_outcome accepted stream with ⟨before, raised, overlong⟩ | ⟨framer, passed, tracks⟩
  · rw [raised]
    obtain ⟨kept, less⟩ := takeWhile_of_overlong overlong
    have beyond : before.length < (streamRecords stream).length := less
    have taken : (streamRecords stream).takeWhile (fits cap) = before := kept
    simp only [referenceFraming, taken, beyond, if_true]
  · rw [passed]
    simp only [endStream_eq tracks]

theorem referenceFraming_cases (cap : Int) (stream : Bytes) :
    (∃ before, (machineRun stream).Overlong cap before ∧
      referenceFraming cap stream = (before.map joinRecord, .recordTooLarge before.length)) ∨
    ((∀ record ∈ streamRecords stream, fits cap record = true) ∧
      referenceFraming cap stream =
        if endsInQuotes stream then
          ((machineRun stream).records.map joinRecord,
            .unterminatedQuote (machineRun stream).records.length)
        else ((streamRecords stream).map joinRecord, .finished)) := by
  have split := List.takeWhile_append_dropWhile (p := fits cap) (l := streamRecords stream)
  cases remaining : (streamRecords stream).dropWhile (fits cap) with
  | nil =>
      rw [remaining, List.append_nil] at split
      refine Or.inr ⟨List.takeWhile_eq_self_iff.mp split, ?_⟩
      rw [referenceFraming, split, if_neg (Nat.lt_irrefl _)]
  | cons record rest =>
      have refused := List.head?_dropWhile_not (fits cap) (streamRecords stream)
      rw [remaining] at refused split
      have beyond : cap < record.1.length := Int.not_le.mp (of_decide_eq_false refused)
      have overlong : (machineRun stream).Overlong cap
          ((streamRecords stream).takeWhile (fits cap)) :=
        ⟨fun earlier member => List.mem_takeWhile_imp member, record, rest, split.symm, beyond⟩
      refine Or.inl ⟨_, overlong, ?_⟩
      have less : ((streamRecords stream).takeWhile (fits cap)).length <
          (streamRecords stream).length := (takeWhile_of_overlong overlong).2
      rw [referenceFraming, if_pos less]

/-- Framing does not depend on the block size: every accepted one yields the records of the
byte-at-a-time machine and ends as it does.  At a normal end the records are the stream; the
first record over the cap is the one refused; and an unterminated quote is reported when the
stream ends inside quotes and no record is over the cap. -/
theorem csv_framing_is_block_independent (cap : Int) (blockSize : Nat) (accepted : 4 ≤ blockSize)
    (stream : Bytes) :
    ∃ yielded ending, iterCsvRecords cap blockSize stream = some (yielded, ending) ∧
      (yielded, ending) = referenceFraming cap stream ∧
      (ending = .finished → yielded.flatten = stream) ∧
      (∀ index, ending = .recordTooLarge index ↔ ∃ before record rest,
        streamRecords stream = before ++ record :: rest ∧ before.length = index ∧
        (∀ earlier ∈ before, (earlier.1.length : Int) ≤ cap) ∧ cap < record.1.length) ∧
      ((∃ index, ending = .unterminatedQuote index) ↔ endsInQuotes stream = true ∧
        ∀ record ∈ streamRecords stream, (record.1.length : Int) ≤ cap) := by
  have same : iterCsvRecords cap blockSize stream = some (referenceFraming cap stream) :=
    iterCsvRecords_eq accepted stream
  rcases referenceFraming_cases cap stream with ⟨before, overlong, refused⟩ | ⟨within, outcome⟩
  · rw [refused] at same ⊢
    refine ⟨_, _, same, rfl, fun ended => CsvEnding.noConfusion ended, fun index => ?_, ?_⟩
    · constructor
      · intro ended
        cases ended
        obtain ⟨short, record, rest, shape, beyond⟩ := overlong
        exact ⟨before, record, rest, shape, rfl,
          fun earlier member => of_decide_eq_true (short earlier member), beyond⟩
      · rintro ⟨others, record, rest, shape, length, short, beyond⟩
        have again : (machineRun stream).Overlong cap others :=
          ⟨fun earlier member => decide_eq_true (short earlier member), record, rest, shape, beyond⟩
        have equal := (takeWhile_of_overlong overlong).1.symm.trans (takeWhile_of_overlong again).1
        rw [equal, length]
    · constructor
      · rintro ⟨index, ended⟩
        cases ended
      · rintro ⟨_, short⟩
        obtain ⟨_, record, rest, shape, beyond⟩ := overlong
        have member : record ∈ streamRecords stream := by
          rw [streamRecords, shape]
          exact List.mem_append_right _ List.mem_cons_self
        have fitting := short record member
        omega
  · have noLarge : ∀ index, ¬ ∃ before record rest,
        streamRecords stream = before ++ record :: rest ∧ before.length = index ∧
        (∀ earlier ∈ before, (earlier.1.length : Int) ≤ cap) ∧ cap < record.1.length := by
      rintro index ⟨before, record, rest, shape, _, _, beyond⟩
      have member : record ∈ streamRecords stream := by
        rw [shape]
        exact List.mem_append_right _ List.mem_cons_self
      have fitting := of_decide_eq_true (within record member)
      omega
    have short : ∀ record ∈ streamRecords stream, (record.1.length : Int) ≤ cap :=
      fun record member => of_decide_eq_true (within record member)
    rw [outcome] at same ⊢
    by_cases quoted : endsInQuotes stream = true
    · rw [if_pos quoted] at same ⊢
      refine ⟨_, _, same, rfl, fun ended => CsvEnding.noConfusion ended, fun index => ?_, ?_⟩
      · exact ⟨fun ended => CsvEnding.noConfusion ended, fun large => absurd large (noLarge index)⟩
      · exact ⟨fun _ => ⟨quoted, short⟩, fun _ => ⟨_, rfl⟩⟩
    · rw [if_neg quoted] at same ⊢
      refine ⟨_, _, same, rfl, fun _ => flatten_streamRecords stream, fun index => ?_, ?_⟩
      · exact ⟨fun ended => CsvEnding.noConfusion ended, fun large => absurd large (noLarge index)⟩
      · constructor
        · rintro ⟨index, ended⟩
          cases ended
        · intro both
          exact absurd both.1 quoted

/-- Blocks of four bytes: the quoted CRLF, the run of quotes and the last CRLF are each cut by
a block edge. -/
theorem csv_framing_of_cut_blocks :
    ∃ yielded, iterCsvRecords 9 4
        [0x61, 0x2C, 0x22, 0x0D, 0x0A, 0x62, 0x22, 0x22, 0x22, 0x0D, 0x63, 0x0D, 0x0A] =
          some (yielded, .finished) ∧
      yielded = [[0x61, 0x2C, 0x22, 0x0D, 0x0A, 0x62, 0x22, 0x22, 0x22, 0x0D],
        [0x63, 0x0D, 0x0A]] ∧
      yielded.flatten =
        [0x61, 0x2C, 0x22, 0x0D, 0x0A, 0x62, 0x22, 0x22, 0x22, 0x0D, 0x63, 0x0D, 0x0A] := by
  obtain ⟨yielded, ending, framed, _, whole, _⟩ := csv_framing_is_block_independent 9 4 (by decide)
    [0x61, 0x2C, 0x22, 0x0D, 0x0A, 0x62, 0x22, 0x22, 0x22, 0x0D, 0x63, 0x0D, 0x0A]
  have run : iterCsvRecords 9 4
      [0x61, 0x2C, 0x22, 0x0D, 0x0A, 0x62, 0x22, 0x22, 0x22, 0x0D, 0x63, 0x0D, 0x0A] =
      some ([[0x61, 0x2C, 0x22, 0x0D, 0x0A, 0x62, 0x22, 0x22, 0x22, 0x0D],
        [0x63, 0x0D, 0x0A]], .finished) := by
    decide +kernel
  rw [run] at framed
  cases framed
  exact ⟨_, run, rfl, whole rfl⟩

/-- A lone quote under a cap of zero ends inside quotes, but the record is over the cap and
that is what is raised. -/
theorem unterminated_quote_over_cap :
    endsInQuotes [quoteByte] = true ∧
      iterCsvRecords 0 4 [quoteByte] = some ([], .recordTooLarge 0) := by
  decide +kernel

end Stream

end DecoyEngine.Io
