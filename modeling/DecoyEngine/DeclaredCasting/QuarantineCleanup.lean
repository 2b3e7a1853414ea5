import DecoyEngine.DeclaredCasting.Quarantine

namespace DecoyEngine.DeclaredCasting.Quarantine

open DecoyEngine.Data DecoyEngine.Determinism

/-! What a session's operations leave alone, and what holds of its files and counts after any
sequence of them. -/

variable (store : Store) {policy : Policy}

/-- Neither name of the artifact is there. -/
def Session.Gone (session : Session) : Prop :=
  session.partialFile = none ∧ session.finalFile = none

instance (session : Session) : Decidable session.Gone :=
  inferInstanceAs (Decidable (_ ∧ _))

/-- The rows a policy lets into a session. -/
def Policy.admits (policy : Policy) (session : Session) (line : Bytes) : Prop :=
  line ≠ [] ∧ session.rows + 1 ≤ policy.maxRows ∧
    session.plainBytes + line.length ≤ policy.maxBytes

instance (policy : Policy) (session : Session) (line : Bytes) :
    Decidable (policy.admits session line) :=
  inferInstanceAs (Decidable (_ ∧ _ ∧ _))

/-- The line an operation accepts, if it is a write that the policy admits. -/
def Operation.taken (policy : Policy) (session : Session) : Operation → List Bytes
  | .writeRow line => if policy.admits session line then [line] else []
  | _ => []

/-- The lines accepted over a run, in order. -/
def accepted (store : Store) (policy : Policy) (session : Session) :
    List (Operation × Faults) → List Bytes
  | [] => []
  | event :: events =>
      event.1.taken policy session
        ++ accepted store policy (step store policy session event).1 events

/-- An operation that accepts no row and brings no removed file back. -/
structure Frame (before after : Session) : Prop where
  rows : after.rows = before.rows
  plainBytes : after.plainBytes = before.plainBytes
  gone : before.Gone → after.Gone

theorem Frame.refl (session : Session) : Frame session session :=
  ⟨rfl, rfl, id⟩

theorem Frame.trans {first second third : Session} (before : Frame first second)
    (after : Frame second third) : Frame first third :=
  ⟨after.rows.trans before.rows, after.plainBytes.trans before.plainBytes,
    fun gone => after.gone (before.gone gone)⟩

theorem writeAll_frame (session : Session) (data : Bytes) (stops : Option Nat) :
    Frame session (writeAll session data stops).1 := by
  unfold writeAll
  split
  case isFalse => exact Frame.refl session
  case isTrue =>
      split <;> exact ⟨rfl, rfl, fun gone => ⟨by simp [gone.1], gone.2⟩⟩

theorem cleanup_frame (session : Session) (faults : Faults) :
    Frame session (cleanup session faults).1 := by
  unfold cleanup
  cases faults.partialUnlinked with
  | false => exact ⟨rfl, rfl, id⟩
  | true =>
      cases faults.finalUnlinked with
      | false => exact ⟨rfl, rfl, fun gone => ⟨rfl, gone.2⟩⟩
      | true => exact ⟨rfl, rfl, fun _ => ⟨rfl, rfl⟩⟩

theorem cleanup_cases (session : Session) (faults : Faults) :
    (cleanup session faults).2 = .confirmed ∧ (cleanup session faults).1.Gone ∨
      (cleanup session faults).2 = .failed := by
  unfold cleanup
  cases faults.partialUnlinked with
  | false => exact .inr rfl
  | true =>
      cases faults.finalUnlinked with
      | false => exact .inr rfl
      | true => exact .inl ⟨rfl, rfl, rfl⟩

variable {session : Session} {faults : Faults}

theorem cleanup_gone (confirmed : (cleanup session faults).2 = .confirmed) :
    (cleanup session faults).1.Gone := by
  rcases cleanup_cases session faults with ⟨-, gone⟩ | failed
  · exact gone
  · rw [failed] at confirmed
    contradiction

theorem cleanup_confirmed (first : faults.partialUnlinked = true)
    (second : faults.finalUnlinked = true) :
    (cleanup session faults).2 = .confirmed := by
  simp [cleanup, first, second]

theorem flush_frame (session : Session) (faults : Faults) :
    Frame session (flush store session faults).1 := by
  unfold flush
  split
  case isTrue => exact Frame.refl session
  case isFalse =>
      have emptied : Frame session { session with buffer := [], bufferBytes := 0 } :=
        ⟨rfl, rfl, id⟩
      dsimp only
      generalize (if faults.encrypted = true then
        frame (store.encrypt faults.draw (joinLines session.buffer)) else none) = sealedChunk
      cases sealedChunk with
      | none => exact emptied.trans (cleanup_frame _ faults)
      | some bytes =>
          have landed := emptied.trans (writeAll_frame _ bytes faults.appendStops)
          rcases outcome : writeAll { session with buffer := [], bufferBytes := 0 } bytes
            faults.appendStops with ⟨written, whole⟩
          rw [outcome] at landed
          cases whole with
          | true =>
              have hashed : Frame written { written with hashed := written.hashed ++ bytes } :=
                ⟨rfl, rfl, id⟩
              simpa only [outcome] using landed.trans hashed
          | false =>
              have removed : Frame written (failWrite written false faults).1 :=
                cleanup_frame written faults
              simpa only [outcome] using landed.trans removed

theorem publishAtomic_frame (session : Session) (faults : Faults) :
    Frame session (publishAtomic session faults).1 := by
  unfold publishAtomic
  split
  case h_1 => exact Frame.refl session
  case h_2 content present =>
      split
      · exact ⟨rfl, rfl, fun gone => by simp [gone.1] at present⟩
      · exact Frame.refl session

theorem writeTrailer_frame (session : Session) (receipt : Receipt) (faults : Faults) :
    Frame session (writeTrailer session receipt faults).1 := by
  unfold writeTrailer
  split
  case h_1 => exact Frame.refl session
  case h_2 bytes _ =>
      have landed := writeAll_frame session ([0, 0, 0, 0] ++ bytes) faults.trailerStops
      split
      case h_1 written outcome =>
          rw [outcome] at landed
          exact landed
      case h_2 written outcome =>
          rw [outcome] at landed
          split
          · have closed : Frame written { written with fdOpen := false } := ⟨rfl, rfl, id⟩
            exact landed.trans (closed.trans (publishAtomic_frame _ faults))
          · exact landed

theorem sealSession_frame (session : Session) (faults : Faults) :
    Frame session (sealSession store session faults).1 := by
  have flushed : Frame session (flush store session faults).1 :=
    flush_frame store session faults
  unfold sealSession
  split
  case h_1 next outcome =>
      rw [outcome] at flushed
      have trailer := writeTrailer_frame next
        ⟨next.rows, next.plainBytes, store.sha256 next.hashed⟩ faults
      rcases written : writeTrailer next
        ⟨next.rows, next.plainBytes, store.sha256 next.hashed⟩ faults with ⟨published, whole⟩
      rw [written] at trailer
      cases whole with
      | true => simpa only [written] using flushed.trans trailer
      | false =>
          simpa only [written] using flushed.trans (trailer.trans (cleanup_frame _ faults))
  case h_2 => exact flushed

variable {line : Bytes}

theorem writeRow_admitted (faults : Faults) (admitted : policy.admits session line) :
    (writeRow store policy session line faults).1.rows = session.rows + 1 ∧
      (writeRow store policy session line faults).1.plainBytes
        = session.plainBytes + line.length := by
  obtain ⟨nonempty, rows, bytes⟩ := admitted
  unfold writeRow
  rw [if_neg nonempty, if_neg (by omega)]
  dsimp only
  split
  · have flushed := flush_frame store
      { session with
        rows := session.rows + 1
        plainBytes := session.plainBytes + line.length
        buffer := session.buffer ++ [line]
        bufferBytes := session.bufferBytes + line.length } faults
    exact ⟨flushed.rows, flushed.plainBytes⟩
  · exact ⟨rfl, rfl⟩

theorem over_cap (nonempty : line ≠ []) (refused : ¬ policy.admits session line) :
    policy.maxRows < session.rows + 1 ∨ policy.maxBytes < session.plainBytes + line.length := by
  by_contra within
  exact refused ⟨nonempty, by omega, by omega⟩

/-- A row over a cap is refused with the budget error, and the session is torn down. -/
theorem writeRow_over_cap (faults : Faults) (nonempty : line ≠ [])
    (refused : ¬ policy.admits session line) :
    writeRow store policy session line faults
      = ((cleanup session faults).1, .writeFailed true (cleanup session faults).2) := by
  unfold writeRow
  rw [if_neg nonempty, if_pos (over_cap nonempty refused)]
  rfl

theorem writeRow_refused (faults : Faults) (refused : ¬ policy.admits session line) :
    Frame session (writeRow store policy session line faults).1 := by
  by_cases nonempty : line = []
  · simp only [writeRow, if_pos nonempty]
    exact cleanup_frame session faults
  · rw [writeRow_over_cap store faults nonempty refused]
    exact cleanup_frame session faults

theorem writeRow_gone (faults : Faults) (gone : session.Gone) :
    (writeRow store policy session line faults).1.Gone := by
  by_cases admitted : policy.admits session line
  · obtain ⟨nonempty, rows, bytes⟩ := admitted
    unfold writeRow
    rw [if_neg nonempty, if_neg (by omega)]
    dsimp only
    split
    · exact (flush_frame store _ faults).gone gone
    · exact gone
  · exact (writeRow_refused store faults admitted).gone gone

theorem step_gone (event : Operation × Faults) (gone : session.Gone) :
    (step store policy session event).1.Gone := by
  obtain ⟨operation, faults⟩ := event
  cases operation with
  | writeRow line => exact writeRow_gone store faults gone
  | flush => exact (flush_frame store session faults).gone gone
  | sealSession => exact (sealSession_frame store session faults).gone gone
  | abort => exact (cleanup_frame session faults).gone gone

theorem run_gone (events : List (Operation × Faults)) (gone : session.Gone) :
    (run store policy session events).Gone := by
  induction events generalizing session with
  | nil => exact gone
  | cons event events ih => exact ih (step_gone store event gone)

theorem step_counts (policy : Policy) (session : Session) (event : Operation × Faults) :
    (step store policy session event).1.rows
        = session.rows + (event.1.taken policy session).length ∧
      (step store policy session event).1.plainBytes
        = session.plainBytes + ((event.1.taken policy session).map List.length).sum := by
  obtain ⟨operation, faults⟩ := event
  cases operation with
  | writeRow line =>
      by_cases admitted : policy.admits session line
      · simpa [step, Operation.taken, admitted] using writeRow_admitted store faults admitted
      · have framed := writeRow_refused store faults admitted
        simpa [step, Operation.taken, admitted] using And.intro framed.rows framed.plainBytes
  | flush =>
      have framed := flush_frame store session faults
      exact ⟨framed.rows, framed.plainBytes⟩
  | sealSession =>
      have framed := sealSession_frame store session faults
      exact ⟨framed.rows, framed.plainBytes⟩
  | abort =>
      have framed := cleanup_frame session faults
      exact ⟨framed.rows, framed.plainBytes⟩

theorem run_counts (policy : Policy) (session : Session) (events : List (Operation × Faults)) :
    (run store policy session events).rows
        = session.rows + (accepted store policy session events).length ∧
      (run store policy session events).plainBytes
        = session.plainBytes + ((accepted store policy session events).map List.length).sum := by
  induction events generalizing session with
  | nil => exact ⟨rfl, rfl⟩
  | cons event events ih =>
      obtain ⟨rows, bytes⟩ := ih (step store policy session event).1
      obtain ⟨stepRows, stepBytes⟩ := step_counts store policy session event
      simp only [accepted, List.length_append, List.map_append, List.sum_append]
      exact ⟨rows.trans (by omega), bytes.trans (by omega)⟩

def Session.Within (policy : Policy) (session : Session) : Prop :=
  session.rows ≤ policy.maxRows ∧ session.plainBytes ≤ policy.maxBytes

theorem step_within (event : Operation × Faults) (within : session.Within policy) :
    (step store policy session event).1.Within policy := by
  obtain ⟨rows, bytes⟩ := step_counts store policy session event
  obtain ⟨operation, faults⟩ := event
  unfold Session.Within at within ⊢
  rw [rows, bytes]
  cases operation with
  | writeRow line =>
      by_cases admitted : policy.admits session line
      · simpa [Operation.taken, admitted] using admitted.2
      · simpa [Operation.taken, admitted] using within
  | flush => exact within
  | sealSession => exact within
  | abort => exact within

theorem run_within (events : List (Operation × Faults)) (within : session.Within policy) :
    (run store policy session events).Within policy := by
  induction events generalizing session with
  | nil => exact within
  | cons event events ih => exact ih (step_within store event within)

theorem publishAtomic_partial {after : Session}
    (published : publishAtomic session faults = (after, true)) : after.partialFile = none := by
  unfold publishAtomic at published
  split at published
  case h_1 => cases published
  case h_2 =>
      split at published
      · rw [Prod.mk.injEq] at published
        rw [← published.1]
      · cases published

theorem writeTrailer_partial {after : Session} {receipt : Receipt}
    (written : writeTrailer session receipt faults = (after, true)) :
    after.partialFile = none := by
  unfold writeTrailer at written
  split at written
  case h_1 => cases written
  case h_2 =>
      split at written
      case h_1 => cases written
      case h_2 =>
          split at written
          · exact publishAtomic_partial written
          · cases written

theorem flush_outcome (session : Session) (faults : Faults) :
    (flush store session faults).2 = .done ∨
      ∃ state, (flush store session faults).2 = .writeFailed false state := by
  unfold flush
  split
  case isTrue => exact .inl rfl
  case isFalse =>
      dsimp only
      generalize (if faults.encrypted = true then
        frame (store.encrypt faults.draw (joinLines session.buffer)) else none) = sealedChunk
      cases sealedChunk with
      | none => exact .inr ⟨_, rfl⟩
      | some bytes =>
          rcases outcome : writeAll { session with buffer := [], bufferBytes := 0 } bytes
            faults.appendStops with ⟨written, whole⟩
          cases whole with
          | true => exact .inl (by simp only [outcome])
          | false => exact .inr ⟨(cleanup written faults).2, by simp only [outcome, failWrite]⟩

theorem sealSession_partial {after : Session} {receipt : Receipt}
    (sealedAs : sealSession store session faults = (after, .sealed receipt)) :
    after.partialFile = none := by
  unfold sealSession at sealedAs
  split at sealedAs
  case h_1 next outcome =>
      dsimp only at sealedAs
      split at sealedAs
      case h_1 published written =>
          cases sealedAs
          exact writeTrailer_partial written
      case h_2 => cases sealedAs
  case h_2 =>
      have outcome := flush_outcome store session faults
      rw [sealedAs] at outcome
      rcases outcome with done | ⟨state, failed⟩
      · contradiction
      · contradiction

namespace Boundary

/-- What the handles of a run say about its files. -/
structure Held (boundary : Boundary) : Prop where
  single : boundary.holdsSession = true → boundary.holdsReceipt = false
  published : boundary.holdsReceipt = true → boundary.session.partialFile = none
  removed : boundary.holdsSession = false → boundary.holdsReceipt = false →
    boundary.session.Gone ∧ boundary.lastCleanup = .confirmed

theorem start_held (head : Bytes) : (start head).Held :=
  ⟨fun _ => rfl, nofun, nofun⟩

variable {boundary : Boundary}

theorem writeRow_held (line : Bytes) (faults : Faults) (held : boundary.Held) :
    (boundary.writeRow store policy line faults).Held := by
  unfold writeRow
  split
  case isFalse => exact held
  case isTrue holds =>
      have noReceipt := held.single holds
      exact ⟨fun _ => noReceipt, fun receipt => by simp [noReceipt] at receipt,
        fun session => by simp [holds] at session⟩

theorem finish_held (faults : Faults) (held : boundary.Held) :
    (boundary.finish store faults).Held := by
  unfold finish
  split
  case isFalse => exact held
  case isTrue holds =>
      split
      case h_1 session receipt sealedAs =>
          exact ⟨nofun, fun _ => sealSession_partial store sealedAs, nofun⟩
      case h_2 session =>
          have noReceipt := held.single holds
          exact ⟨fun _ => noReceipt, fun receipt => by simp [noReceipt] at receipt,
            fun session => by simp [holds] at session⟩

theorem discard_cases (session : Session) (faults : Faults) :
    discard session faults = ({ session with finalFile := none }, .confirmed) ∨
      discard session faults = (session, .failed) := by
  unfold discard
  split
  · exact .inl rfl
  · exact .inr rfl

/-- An abort that ends without a handle, over removed files. -/
structure Confirmed (result : Boundary × CleanupState) : Prop where
  state : result.2 = .confirmed
  gone : result.1.session.Gone
  session : result.1.holdsSession = false
  receipt : result.1.holdsReceipt = false
  recorded : result.1.lastCleanup = .confirmed

/-- An abort that keeps the handle it had. -/
structure Kept (boundary : Boundary) (result : Boundary × CleanupState) : Prop where
  state : result.2 = .failed
  session : result.1.holdsSession = boundary.holdsSession
  receipt : result.1.holdsReceipt = boundary.holdsReceipt
  handle : boundary.holdsSession = true ∨ boundary.holdsReceipt = true
  published : boundary.holdsReceipt = true → result.1.session.partialFile = none

theorem abort_cases (faults : Faults) (held : boundary.Held) :
    Confirmed (boundary.abort faults) ∨ Kept boundary (boundary.abort faults) := by
  cases session : boundary.holdsSession with
  | true =>
      have receipt := held.single session
      rcases cleaned : cleanup boundary.session faults with ⟨after, state⟩
      have outcome := cleanup_cases boundary.session faults
      rw [cleaned] at outcome
      rcases outcome with ⟨confirmed, gone⟩ | failed
      · cases confirmed
        left
        constructor <;> simp [abort, abortSession, abortReceipt, session, receipt, cleaned, gone]
      · cases failed
        right
        constructor <;> simp [abort, abortSession, abortReceipt, session, receipt, cleaned]
  | false =>
      cases receipt : boundary.holdsReceipt with
      | true =>
          have noPartial := held.published receipt
          rcases discard_cases boundary.session faults with removed | failed
          · left
            constructor <;>
              simp [abort, abortSession, abortReceipt, session, receipt, removed, Session.Gone,
                noPartial]
          · right
            constructor <;>
              simp [abort, abortSession, abortReceipt, session, receipt, failed, noPartial]
      | false =>
          obtain ⟨gone, confirmed⟩ := held.removed session receipt
          left
          constructor <;> simp [abort, session, receipt, gone, confirmed]

theorem abort_held (faults : Faults) (held : boundary.Held) :
    (boundary.abort faults).1.Held := by
  rcases abort_cases faults held with confirmed | kept
  · exact ⟨fun session => by simp [confirmed.session] at session,
      fun receipt => by simp [confirmed.receipt] at receipt,
      fun _ _ => ⟨confirmed.gone, confirmed.recorded⟩⟩
  · refine ⟨fun session => ?_, fun receipt => ?_, fun session receipt => ?_⟩
    · rw [kept.session] at session
      exact kept.receipt.trans (held.single session)
    · rw [kept.receipt] at receipt
      exact kept.published receipt
    · rw [kept.session] at session
      rw [kept.receipt] at receipt
      exact absurd kept.handle (by simp [session, receipt])

theorem step_held (event : Call × Faults) (held : boundary.Held) :
    (step store policy boundary event).Held := by
  obtain ⟨call, faults⟩ := event
  cases call with
  | writeRow line => exact writeRow_held store line faults held
  | finish => exact finish_held store faults held
  | abort => exact abort_held faults held

theorem run_held (events : List (Call × Faults)) (held : boundary.Held) :
    (run store policy boundary events).Held := by
  induction events generalizing boundary with
  | nil => exact held
  | cons event events ih => exact ih (step_held store event held)

/-- The system calls of a removal all succeed. -/
def Removes (faults : Faults) : Prop :=
  faults.partialUnlinked = true ∧ faults.finalUnlinked = true ∧ faults.located = true

theorem abort_removes {faults : Faults} (held : boundary.Held) (removes : Removes faults) :
    (boundary.abort faults).2 = .confirmed := by
  obtain ⟨first, second, located⟩ := removes
  cases session : boundary.holdsSession with
  | true =>
      have receipt := held.single session
      simp [abort, abortSession, abortReceipt, session, receipt, cleanup, first, second]
  | false =>
      cases receipt : boundary.holdsReceipt with
      | true =>
          simp [abort, abortSession, abortReceipt, session, receipt, discard, second, located]
      | false => simp [abort, session, receipt, (held.removed session receipt).2]

end Boundary

/-- Over every run of a session: the counts are those of the rows accepted and stay within the
caps; an abort is confirmed only over removed files, and one whose removals succeed is
confirmed; a row over a cap is refused with nothing counted, and tears the session down for good.
Over every run of the boundary: an abort is confirmed over removed files or keeps a handle, and a
later one whose removals succeed is confirmed. -/
theorem quarantine_cleanup_is_truthful (policy : Policy) (head : Bytes) :
    (∀ events : List (Operation × Faults),
      let session := run store policy (opened head) events
      let lines := accepted store policy (opened head) events
      (session.rows = lines.length ∧ session.rows ≤ policy.maxRows ∧
        session.plainBytes = (lines.map List.length).sum ∧
        session.plainBytes ≤ policy.maxBytes) ∧
      (∀ faults, (abort session faults).2 = .aborted .confirmed →
        (abort session faults).1.Gone) ∧
      (∀ faults, Boundary.Removes faults → (abort session faults).2 = .aborted .confirmed) ∧
      (∀ line faults, line ≠ [] →
        (policy.maxRows < session.rows + 1 ∨
          policy.maxBytes < session.plainBytes + line.length) →
        ∃ after state,
          writeRow store policy session line faults = (after, .writeFailed true state) ∧
          after.rows = session.rows ∧ after.plainBytes = session.plainBytes ∧
          (state = .confirmed → ∀ later, (run store policy after later).Gone))) ∧
    (∀ (calls : List (Boundary.Call × Faults)) (faults : Faults),
      let boundary := Boundary.run store policy (Boundary.start head) calls
      let result := boundary.abort faults
      (result.2 = .confirmed → result.1.session.Gone) ∧
      (result.2 ≠ .confirmed →
        result.1.holdsSession = true ∨ result.1.holdsReceipt = true) ∧
      (Boundary.Removes faults → result.2 = .confirmed)) := by
  refine ⟨fun events => ?_, fun calls faults => ?_⟩
  · obtain ⟨rows, bytes⟩ := run_counts store policy (opened head) events
    have within : (run store policy (opened head) events).Within policy :=
      run_within store events ⟨Nat.zero_le _, Nat.zero_le _⟩
    refine ⟨⟨rows.trans (Nat.zero_add _), within.1, bytes.trans (Nat.zero_add _), within.2⟩,
      fun faults confirmed => ?_, fun faults removes => ?_, fun line faults nonempty beyond => ?_⟩
    · exact cleanup_gone (Outcome.aborted.inj confirmed)
    · exact congrArg Outcome.aborted (cleanup_confirmed removes.1 removes.2.1)
    · have refused : ¬ policy.admits (run store policy (opened head) events) line := by
        rintro ⟨-, inRows, inBytes⟩
        omega
      have framed := writeRow_refused store faults refused
      rw [writeRow_over_cap store faults nonempty refused] at framed
      exact ⟨_, _, writeRow_over_cap store faults nonempty refused, framed.rows,
        framed.plainBytes, fun confirmed later => run_gone store later (cleanup_gone confirmed)⟩
  · have held : (Boundary.run store policy (Boundary.start head) calls).Held :=
      Boundary.run_held store calls (Boundary.start_held head)
    refine ⟨fun confirmed => ?_, fun failed => ?_, Boundary.abort_removes held⟩
    · rcases Boundary.abort_cases faults held with done | kept
      · exact done.gone
      · rw [kept.state] at confirmed
        contradiction
    · rcases Boundary.abort_cases faults held with done | kept
      · exact absurd done.state failed
      · rw [kept.session, kept.receipt]
        exact kept.handle

/-- Every system call succeeds. -/
def Faults.clear (draw : Nat) : Faults :=
  { draw, encrypted := true, appendStops := none, trailerStops := none, synced := true
    closed := true, renamed := true, directorySynced := true, cleanupClosed := true
    partialUnlinked := true, finalUnlinked := true, located := true }

/-- A store whose tokens are a version byte and the payload. -/
def plainStore : Store :=
  { encrypt := fun _ payload => 128 :: payload, decrypt := List.tail?, sha256 := fun _ => ['0']
    chunkRows := 256, chunkBytes := 1048576 }

/-- A refused second row takes the first one with it: sealed before it the first row would be
there to read, sealed after it there is no artifact. -/
theorem refused_row_removes_the_accepted :
    let policy : Policy := ⟨1, 100⟩
    let session := run plainStore policy (opened [68, 81, 65, 49, 10])
      [(.writeRow [65], Faults.clear 0)]
    let refused := writeRow plainStore policy session [66] (Faults.clear 1)
    refused.2 = .writeFailed true .confirmed ∧
      (run plainStore policy session [(.sealSession, Faults.clear 2)]).finalFile.isSome = true ∧
      (run plainStore policy refused.1 [(.sealSession, Faults.clear 2)]).finalFile = none := by
  decide +kernel

end DecoyEngine.DeclaredCasting.Quarantine
