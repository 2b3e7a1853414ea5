import DecoyEngine.DeclaredCasting.QuarantineCleanup
import DecoyEngine.DeclaredCasting.QuarantineReader

namespace DecoyEngine.DeclaredCasting.Quarantine

open DecoyEngine.Data DecoyEngine.Determinism DecoyEngine.Reasons

/-! The layout of a sealed artifact: what a session writes, and how a reader walks it. -/

section Writing

variable {store : Store} {json : JsonCodec} {registry : Registry} {policy : Policy}

/-- The token of a chunk of lines. -/
def Encrypts (store : Store) (lines : List Bytes) (token : Bytes) : Prop :=
  lines ≠ [] ∧ ∃ draw, token = store.encrypt draw (joinLines lines)

def Frames (token bytes : Bytes) : Prop := frame token = some bytes

/-- The lines stand in the file, chunk after chunk, but for those still in the buffer. -/
structure Written (store : Store) (start : Bytes) (lines : List Bytes) (session : Session) :
    Prop where
  chunks : ∃ groups tokens frames,
    List.Forall₂ (Encrypts store) groups tokens ∧ List.Forall₂ Frames tokens frames ∧
    session.partialFile = some (start ++ frames.flatten) ∧
    session.hashed = start ++ frames.flatten ∧ groups.flatten ++ session.buffer = lines

variable {session after : Session}

theorem writeAll_done {data : Bytes} {stops : Option Nat}
    (done : writeAll session data stops = (after, true)) :
    after = { session with partialFile := session.partialFile.map (· ++ data) } := by
  rw [writeAll.eq_def] at done
  split at done
  · cases stops with
    | none => exact (Prod.mk.inj done).1.symm
    | some landed => cases (Prod.mk.inj done).2
  · cases (Prod.mk.inj done).2

variable {faults : Faults}

theorem flush_done (done : flush store session faults = (after, .done)) :
    (session.buffer = [] ∧ after = session) ∨
    (session.buffer ≠ [] ∧ ∃ bytes,
      Frames (store.encrypt faults.draw (joinLines session.buffer)) bytes ∧
      after = { session with
        buffer := []
        bufferBytes := 0
        partialFile := session.partialFile.map (· ++ bytes)
        hashed := session.hashed ++ bytes }) := by
  rw [flush] at done
  split at done
  · rename_i empty
    exact Or.inl ⟨empty, (Prod.mk.inj done).1.symm⟩
  · rename_i filled
    refine Or.inr ⟨filled, ?_⟩
    dsimp only at done
    split at done
    · cases (Prod.mk.inj done).2
    · rename_i bytes framed
      split at framed
      · refine ⟨bytes, framed, ?_⟩
        split at done
        · rename_i next wrote
          rw [← (Prod.mk.inj done).1, writeAll_done wrote]
        · cases (Prod.mk.inj done).2
      · cases framed

variable {lines : List Bytes}

theorem Written.flush {start : Bytes} (written : Written store start lines session)
    (done : flush store session faults = (after, .done)) :
    Written store start lines after ∧ after.buffer = [] := by
  obtain ⟨groups, tokens, frames, encrypted, framed, file, hashed, all⟩ := written.chunks
  rcases flush_done done with ⟨empty, rfl⟩ | ⟨filled, bytes, framing, rfl⟩
  · exact ⟨written, empty⟩
  · refine ⟨⟨groups ++ [session.buffer], tokens ++ [store.encrypt faults.draw (joinLines session.buffer)],
      frames ++ [bytes], ?_, ?_, ?_, ?_, ?_⟩, rfl⟩
    · exact List.rel_append encrypted (.cons ⟨filled, _, rfl⟩ .nil)
    · exact List.rel_append framed (.cons framing .nil)
    · simp [file]
    · simp [hashed]
    · simpa using all

theorem Written.writeRow {start : Bytes} {line : Bytes}
    (written : Written store start lines session)
    (done : writeRow store policy session line faults = (after, .done)) :
    line ≠ [] ∧ Written store start (lines ++ [line]) after := by
  obtain ⟨groups, tokens, frames, encrypted, framed, file, hashed, all⟩ := written.chunks
  rw [Quarantine.writeRow] at done
  split at done
  · cases (Prod.mk.inj done).2
  · rename_i nonempty
    refine ⟨nonempty, ?_⟩
    split at done
    · cases (Prod.mk.inj done).2
    · have buffered : Written store start (lines ++ [line])
          { session with
            rows := session.rows + 1
            plainBytes := session.plainBytes + line.length
            buffer := session.buffer ++ [line]
            bufferBytes := session.bufferBytes + line.length } :=
        ⟨groups, tokens, frames, encrypted, framed, file, hashed, by simp [← all]⟩
      dsimp only at done
      split at done
      · exact (buffered.flush done).1
      · rw [← (Prod.mk.inj done).1]
        exact buffered

theorem Written.writeRows {start : Bytes} {rows : List (Envelope × Faults)}
    (written : Written store start lines session)
    (done : writeRows store json registry policy session rows = some after) :
    (∀ row ∈ rows, row.1.line json registry ≠ []) ∧
      Written store start (lines ++ rows.map fun row => row.1.line json registry) after := by
  induction rows generalizing lines session with
  | nil =>
      obtain rfl : session = after := Option.some.inj done
      exact ⟨List.forall_mem_nil _, by simpa using written⟩
  | cons row rows ih =>
      obtain ⟨envelope, faults⟩ := row
      rw [Quarantine.writeRows] at done
      split at done
      · rename_i next accepted
        obtain ⟨nonempty, wrote⟩ := written.writeRow accepted
        obtain ⟨others, final⟩ := ih wrote done
        refine ⟨?_, by simpa using final⟩
        intro row member
        rcases List.mem_cons.mp member with rfl | later
        · exact nonempty
        · exact others row later
      · cases done

theorem opened_written (start : Bytes) : Written store start [] (opened start) :=
  ⟨[], [], [], .nil, .nil, by simp [opened], by simp [opened], rfl⟩

/-- What a sealed file is made of. -/
structure SealedFile (store : Store) (start : Bytes) (lines : List Bytes) (receipt : Receipt)
    (file : Bytes) : Prop where
  layout : ∃ groups tokens frames trailer,
    List.Forall₂ (Encrypts store) groups tokens ∧ List.Forall₂ Frames tokens frames ∧
    groups.flatten = lines ∧ Frames (trailerBytes receipt) trailer ∧
    receipt.digest = store.sha256 (start ++ frames.flatten) ∧
    file = start ++ frames.flatten ++ ([0, 0, 0, 0] ++ trailer)

theorem writeTrailer_done {receipt : Receipt} {content : Bytes}
    (file : session.partialFile = some content)
    (done : writeTrailer session receipt faults = (after, true)) :
    ∃ trailer, Frames (trailerBytes receipt) trailer ∧
      after.finalFile = some (content ++ ([0, 0, 0, 0] ++ trailer)) := by
  rw [writeTrailer] at done
  split at done
  · cases (Prod.mk.inj done).2
  · rename_i trailer framed
    refine ⟨trailer, framed, ?_⟩
    split at done
    · cases (Prod.mk.inj done).2
    · rename_i next wrote
      rw [writeAll_done wrote] at done
      split at done
      · simp only [publishAtomic, file, Option.map_some] at done
        split at done
        · rw [← (Prod.mk.inj done).1]
        · cases (Prod.mk.inj done).2
      · cases (Prod.mk.inj done).2

theorem Written.sealSession {start : Bytes} {receipt : Receipt}
    (written : Written store start lines session)
    (done : sealSession store session faults = (after, .sealed receipt)) :
    ∃ file, after.finalFile = some file ∧ SealedFile store start lines receipt file := by
  rw [Quarantine.sealSession] at done
  split at done
  · rename_i flushed flushes
    obtain ⟨wrote, empty⟩ := written.flush flushes
    obtain ⟨groups, tokens, frames, encrypted, framed, file, hashed, all⟩ := wrote.chunks
    rw [empty, List.append_nil] at all
    dsimp only at done
    split at done
    · rename_i last trailed
      obtain ⟨trailer, trailing, final⟩ := writeTrailer_done file trailed
      obtain ⟨rfl, same⟩ := Prod.mk.inj done
      have isReceipt := Outcome.sealed.inj same
      rw [isReceipt] at trailing
      refine ⟨_, final, groups, tokens, frames, trailer, encrypted, framed, all, trailing, ?_, rfl⟩
      rw [← isReceipt, ← hashed]
    · cases (Prod.mk.inj done).2
  · -- A flush never answers with a receipt.
    rcases flush_outcome store session faults with isDone | ⟨state, isFailed⟩
    · rw [done] at isDone
      cases isDone
    · rw [done] at isFailed
      cases isFailed

end Writing

section Walking

variable {json : JsonCodec} {blob before : Bytes} {position : Nat}

theorem framesWithin_enough {fuel : Nat} (enough : blob.length - position < fuel) :
    framesWithin json blob (fuel + 1) position = framesWithin json blob fuel position := by
  induction fuel generalizing position with
  | zero => omega
  | succ fuel ih =>
      rw [framesWithin.eq_def _ _ (fuel + 1 + 1), framesWithin.eq_def _ _ (fuel + 1)]
      dsimp only
      split
      · rfl
      · rfl
      · rename_i read
        have inside := unpackLength_inside read
        rw [ih (by omega)]

theorem framesFrom_none (stopped : unpackLength (slice blob position 4) = none) :
    framesFrom json blob position = none := by
  rw [framesFrom, framesWithin, stopped]

theorem framesFrom_trailer (zero : unpackLength (slice blob position 4) = some 0) :
    framesFrom json blob position = (do
      let size ← unpackLength (slice blob (position + 4) 4)
      let trailer ← json.loads (slice blob (position + 8) size)
      some ([], trailer, position)) := by
  rw [framesFrom, framesWithin, zero]
  rfl

theorem framesFrom_token {size : Nat} (positive : size ≠ 0)
    (read : unpackLength (slice blob position 4) = some size) :
    framesFrom json blob position = (do
      let (tokens, trailer, bodyEnd) ← framesFrom json blob (position + 4 + size)
      some (slice blob (position + 4) size :: tokens, trailer, bodyEnd)) := by
  have inside := unpackLength_inside read
  obtain ⟨size, rfl⟩ := Nat.exists_eq_succ_of_ne_zero positive
  rw [framesFrom, framesWithin, read, framesFrom, framesWithin_enough (by omega)]
  rfl

theorem framesWithin_bodyEnd {fuel : Nat} {tokens : List Bytes} {trailer : Json} {bodyEnd : Nat}
    (read : framesWithin json blob fuel position = some (tokens, trailer, bodyEnd)) :
    position ≤ bodyEnd ∧ bodyEnd ≤ blob.length ∧ (tokens ≠ [] → position < bodyEnd) := by
  induction fuel generalizing position tokens with
  | zero => cases read
  | succ fuel ih =>
      rw [framesWithin] at read
      split at read
      · cases read
      · rename_i zero
        have inside := unpackLength_inside zero
        simp only [Option.bind_eq_bind, Option.bind_eq_some_iff] at read
        obtain ⟨size, -, trailer', -, same⟩ := read
        simp only [Option.some.injEq, Prod.mk.injEq] at same
        obtain ⟨rfl, -, rfl⟩ := same
        exact ⟨le_rfl, by omega, fun nonempty => absurd rfl nonempty⟩
      · simp only [Option.bind_eq_bind, Option.bind_eq_some_iff] at read
        obtain ⟨⟨later, trailer', bodyEnd'⟩, rest, same⟩ := read
        simp only [Option.some.injEq, Prod.mk.injEq] at same
        obtain ⟨-, rfl, rfl⟩ := same
        obtain ⟨lower, upper, -⟩ := ih rest
        exact ⟨by omega, upper, fun _ => by omega⟩

theorem framesFrom_frames {tokens frames : List Bytes} (framed : List.Forall₂ Frames tokens frames)
    (nonempty : ∀ token ∈ tokens, token ≠ []) (before rest : Bytes) :
    framesFrom json (before ++ frames.flatten ++ rest) before.length =
      (framesFrom json (before ++ frames.flatten ++ rest) (before ++ frames.flatten).length).map
        fun found => (tokens ++ found.1, found.2) := by
  induction framed generalizing before with
  | nil => simp
  | cons framing framed ih =>
      rename_i token bytes tokens frames
      have later := ih (fun token member => nonempty token (List.mem_cons_of_mem _ member))
        (before ++ bytes)
      have assoc : before ++ (bytes :: frames).flatten ++ rest =
          before ++ bytes ++ (frames.flatten ++ rest) := by
        simp only [List.flatten_cons, List.append_assoc]
      have read := unpackLength_framed framing before (frames.flatten ++ rest)
      have body := slice_framed framing before (frames.flatten ++ rest)
      have width := length_framed framing
      have positive : token.length ≠ 0 := fun empty =>
        nonempty token List.mem_cons_self (List.length_eq_zero_iff.mp empty)
      have next : before.length + 4 + token.length = (before ++ bytes).length := by
        rw [List.length_append, width, Nat.add_assoc]
      have moved : before ++ bytes ++ (frames.flatten ++ rest) =
          before ++ bytes ++ frames.flatten ++ rest := by
        simp only [List.append_assoc]
      have ends : (before ++ (bytes :: frames).flatten).length =
          (before ++ bytes ++ frames.flatten).length := by
        simp only [List.flatten_cons, List.append_assoc]
      rw [assoc, framesFrom_token positive read, body, next, ends, moved, later]
      cases framesFrom json (before ++ bytes ++ frames.flatten ++ rest)
        (before ++ bytes ++ frames.flatten).length with
      | none => rfl
      | some found => rfl

end Walking

/-- The text is read as the document; cut short it is not read at all. -/
structure JsonCodec.Reads (json : JsonCodec) (text : Bytes) (document : Json) : Prop where
  whole : json.loads text = some document
  cut : ∀ count < text.length, json.loads (text.take count) = none

def Receipt.document (receipt : Receipt) : Json :=
  .object [("bytes", .int receipt.bytes), ("rows", .int receipt.rows),
    ("sha256", .text (String.ofList receipt.digest))]

section Ends

variable {json : JsonCodec} {receipt : Receipt} {trailer : Bytes}

theorem frame_empty : Frames [] [0, 0, 0, 0] := by
  rw [Frames]
  decide

theorem framesFrom_ending (framing : Frames (trailerBytes receipt) trailer)
    (reads : json.Reads (trailerBytes receipt) receipt.document) (before : Bytes) :
    framesFrom json (before ++ ([0, 0, 0, 0] ++ trailer)) before.length =
      some ([], receipt.document, before.length) := by
  have zero := unpackLength_framed frame_empty before trailer
  have size := unpackLength_framed framing (before ++ [0, 0, 0, 0]) []
  have text := slice_framed framing (before ++ [0, 0, 0, 0]) []
  have width : (before ++ [0, 0, 0, 0]).length = before.length + 4 := List.length_append
  rw [List.append_nil, width] at size text
  rw [← List.append_assoc, framesFrom_trailer zero, size]
  simp only [Option.bind_eq_bind, Option.bind_some, text, reads.whole]

theorem framesFrom_ending_cut (framing : Frames (trailerBytes receipt) trailer)
    (reads : json.Reads (trailerBytes receipt) receipt.document) (before : Bytes) {count : Nat}
    (short : count < ([0, 0, 0, 0] ++ trailer).length) :
    framesFrom json (before ++ ([0, 0, 0, 0] ++ trailer).take count) before.length = none := by
  have trailerWidth := length_framed framing
  have marker : ([0, 0, 0, 0] : Bytes).length = 4 := rfl
  rw [List.length_append, marker] at short
  have size : (before ++ ([0, 0, 0, 0] ++ trailer).take count).length = before.length + count := by
    rw [List.length_append, List.length_take, List.length_append, marker]
    omega
  by_cases tiny : count < 4
  · exact framesFrom_none (unpackLength_short (by omega))
  · have cut : ([0, 0, 0, 0] ++ trailer).take count = [0, 0, 0, 0] ++ trailer.take (count - 4) := by
      rw [List.take_append, marker, List.take_of_length_le (by rw [marker]; omega)]
    rw [cut, ← List.append_assoc] at size ⊢
    have zero := unpackLength_framed frame_empty before (trailer.take (count - 4))
    have width : (before ++ [0, 0, 0, 0]).length = before.length + 4 := List.length_append
    rw [framesFrom_trailer zero]
    by_cases small : count < 8
    · rw [unpackLength_short (by omega)]
      rfl
    · obtain ⟨length, text⟩ := framed_cut framing (before ++ [0, 0, 0, 0])
        (show 4 ≤ count - 4 by omega)
      rw [width] at length text
      have lost := reads.cut (count - 4 - 4) (by omega)
      rw [length]
      simp only [Option.bind_eq_bind, Option.bind_some, text, lost, Option.bind_none]

theorem framesFrom_cut {tokens frames : List Bytes} (framed : List.Forall₂ Frames tokens frames)
    (nonempty : ∀ token ∈ tokens, token ≠ []) (framing : Frames (trailerBytes receipt) trailer)
    (reads : json.Reads (trailerBytes receipt) receipt.document) (before : Bytes) {count : Nat}
    (short : count < (frames.flatten ++ ([0, 0, 0, 0] ++ trailer)).length) :
    framesFrom json (before ++ (frames.flatten ++ ([0, 0, 0, 0] ++ trailer)).take count)
      before.length = none := by
  induction framed generalizing before count with
  | nil => exact framesFrom_ending_cut framing reads before short
  | cons head framed ih =>
      rename_i token bytes tokens frames
      have width := length_framed head
      have positive : token.length ≠ 0 := fun empty =>
        nonempty token List.mem_cons_self (List.length_eq_zero_iff.mp empty)
      rw [List.flatten_cons, List.append_assoc] at short ⊢
      generalize ending : frames.flatten ++ ([0, 0, 0, 0] ++ trailer) = rest at short ih ⊢
      rw [List.length_append] at short
      have size : (before ++ (bytes ++ rest).take count).length = before.length + count := by
        rw [List.length_append, List.length_take, List.length_append]
        omega
      by_cases tiny : count < 4
      · exact framesFrom_none (unpackLength_short (by omega))
      · by_cases inside : count < bytes.length
        · -- The cut is in this token: the walk takes what is there and finds no next length.
          have cut : (bytes ++ rest).take count = bytes.take count :=
            List.take_append_of_le_length (by omega)
          rw [cut] at size ⊢
          obtain ⟨length, -⟩ := framed_cut head before (show 4 ≤ count by omega)
          rw [framesFrom_token positive length, framesFrom_none (unpackLength_short (by omega))]
          rfl
        · have cut : (bytes ++ rest).take count = bytes ++ rest.take (count - bytes.length) := by
            rw [List.take_append, List.take_of_length_le (by omega)]
          rw [cut, ← List.append_assoc]
          have length := unpackLength_framed head before (rest.take (count - bytes.length))
          have next : before.length + 4 + token.length = (before ++ bytes).length := by
            rw [List.length_append, width, Nat.add_assoc]
          have left : count - bytes.length < rest.length := by omega
          have later := ih (fun token member => nonempty token (List.mem_cons_of_mem _ member))
            (before ++ bytes) left
          rw [framesFrom_token positive length, next, later]
          rfl

end Ends

section Head

variable {json : JsonCodec} {header : Header} {headFrame : Bytes}

theorem length_magic : magic.length = 5 := by decide

theorem length_start (framing : Frames (json.dumps header.document) headFrame) :
    (magic ++ headFrame).length = 9 + (json.dumps header.document).length := by
  rw [List.length_append, length_magic, length_framed framing]
  omega

theorem headerSize_start (framing : Frames (json.dumps header.document) headFrame) (rest : Bytes) :
    unpackLength (slice (magic ++ headFrame ++ rest) 5 4) =
      some (json.dumps header.document).length := by
  have size := unpackLength_framed framing magic rest
  rwa [length_magic] at size

theorem readHeader_start (framing : Frames (json.dumps header.document) headFrame)
    (reads : json.Reads (json.dumps header.document) header.document) (rest : Bytes) :
    readHeader json (magic ++ headFrame ++ rest) = some header.document := by
  have text := slice_framed framing magic rest
  rw [length_magic] at text
  have opens : magic <+: magic ++ headFrame ++ rest := by
    rw [List.append_assoc]
    exact List.prefix_append _ _
  rw [readHeader, if_pos opens, headerSize_start framing]
  simp only [Option.bind_eq_bind, Option.bind_some, text, reads.whole]

theorem sections_start (framing : Frames (json.dumps header.document) headFrame) (rest : Bytes) :
    sections json (magic ++ headFrame ++ rest) =
      framesFrom json (magic ++ headFrame ++ rest) (magic ++ headFrame).length := by
  rw [sections, headerSize_start framing, length_start framing]
  rfl

theorem readHeader_cut (framing : Frames (json.dumps header.document) headFrame)
    (reads : json.Reads (json.dumps header.document) header.document) {count : Nat}
    (short : count < (magic ++ headFrame).length) :
    readHeader json ((magic ++ headFrame).take count) = none := by
  have width := length_start framing
  have size : ((magic ++ headFrame).take count).length = count := by
    rw [List.length_take]
    omega
  rw [readHeader]
  split
  · rename_i opens
    have magicFits := opens.length_le
    rw [length_magic, size] at magicFits
    by_cases tiny : count < 9
    · rw [unpackLength_short (by omega)]
      rfl
    · have cut : (magic ++ headFrame).take count = magic ++ headFrame.take (count - 5) := by
        rw [List.take_append, length_magic,
          List.take_of_length_le (by rw [length_magic]; omega)]
      obtain ⟨length, text⟩ := framed_cut framing magic (show 4 ≤ count - 5 by omega)
      rw [length_magic] at length text
      have lost := reads.cut (count - 5 - 4) (by omega)
      rw [cut, length]
      simp only [Option.bind_eq_bind, Option.bind_some, text, lost]
  · rfl

end Head

end DecoyEngine.DeclaredCasting.Quarantine
