import DecoyEngine.Execution.OutputSinkCasts
import DecoyEngine.Execution.OutputSinkGroups

namespace DecoyEngine.Execution.OutputSink

/-! The stream of a table against the join of its chunks. -/

section Feeding

variable {T M V B : Type} [DecidableEq T] [DecidableEq M] {memory : Memory T M B} {caps : Caps}
  {typeName : DataType T → String} {schema : List (Field T M)} {stream : Stream T M V B}
  {chunks : List (Table T M V B)}

/-- A stream between two feeds. -/
structure Feeding (caps : Caps) (schema : List (Field T M)) (chunks : List (Table T M V B))
    (stream : Stream T M V B) : Prop where
  fed : Fed caps schema (chunks.flatMap Table.rows) stream
  running : Running stream
  under : stream.buffer.rows < caps.rowGroupRows
  feeds : stream.left.length = chunks.length

omit [DecidableEq T] [DecidableEq M] in
theorem Feeding.feed (memory : Memory T M B) (feeding : Feeding caps schema chunks stream)
    {chunk part : Table T M V B}
    (fields : part.fields = schema) (rows : part.rows = chunk.rows) :
    Feeding caps schema (chunks ++ [chunk]) (stream.feed memory caps part) := by
  obtain ⟨fed, under⟩ := feeding.fed.feed memory fields
  obtain ⟨running, feeds⟩ := feeding.running.feed memory caps part
  refine ⟨?_, running, under, ?_⟩
  · rw [List.flatMap_append, List.flatMap_cons, List.flatMap_nil, List.append_nil, ← rows]
    exact fed
  · rw [feeds, feeding.feeds, List.length_append]
    rfl

theorem feedHeld_spec (memory : Memory T M B) {copies held : List (Table T M V B)}
    (same : List.Forall₂ SameContent copies held)
    (fits : ∀ chunk ∈ held, Fits chunk schema) (feeding : Feeding caps schema chunks stream) :
    (∃ next, feedHeld memory caps schema stream copies = .ok next ∧
        Feeding caps schema (chunks ++ held) next ∧
        ∀ chunk ∈ held, ∃ part, chunk.cast memory schema = .ok part) ∨
      ∃ message, feedHeld memory caps schema stream copies = .error (.castNull message) ∧
        ∃ chunk ∈ held, NullRefused chunk schema := by
  induction same generalizing chunks stream with
  | nil =>
      refine .inl ⟨stream, rfl, ?_, fun _ member => (List.not_mem_nil member).elim⟩
      rwa [List.append_nil]
  | @cons copy chunk copies held content same ih =>
      have copyFits : Fits copy schema := by
        intro index source target sourceAt
        rw [content.1] at sourceAt
        exact fits chunk List.mem_cons_self index source target sourceAt
      rcases cast_fits memory copyFits with ⟨part, cast⟩ | ⟨message, refused, nulls⟩
      · obtain ⟨fields, -, rows⟩ := cast_ok cast
        have step : feedHeld memory caps schema stream (copy :: copies) =
            feedHeld memory caps schema (stream.feed memory caps part) copies := by
          rw [feedHeld]
          simp only [cast]
        rw [step]
        rcases ih (fun other member => fits other (.tail _ member))
            (feeding.feed memory fields (rows.trans content.2.2)) with
          ⟨next, result, fed, casts⟩ | ⟨message, result, other, member, nulls⟩
        · refine .inl ⟨next, result, ?_, ?_⟩
          · rwa [List.append_assoc] at fed
          · exact List.forall_mem_cons.mpr ⟨cast_content content cast, casts⟩
        · exact .inr ⟨message, result, other, .tail _ member, nulls⟩
      · exact .inr ⟨message, by rw [feedHeld, refused], chunk, List.mem_cons_self,
          nulls.content content⟩

variable {table : String} {fixed : List String} {first : Table T M V B}
  {later live : List (Table T M V B)} {resolver : Resolver T M}

/-- The live chunks are fed, or the first that is not compatible with those before it, or whose
nulls are refused, ends the stream. -/
theorem feedLive_spec (memory : Memory T M B) (typeName : DataType T → String)
    (observed : Observed table fixed first later resolver)
    (types : FixedTypes fixed (first :: (later ++ live)))
    (stable : ∀ more rest, live = more ++ rest → SameNames first (later ++ more) →
      schema = joinedSchema first (later ++ more))
    (feeding : Feeding caps schema (first :: later) stream) :
    (∃ next, feedLive memory caps typeName schema resolver stream live = .ok next ∧
        Feeding caps schema (first :: (later ++ live)) next ∧
        Compatible first (later ++ live) ∧
        ∀ chunk ∈ live, ∃ part, chunk.cast memory schema = .ok part) ∨
      (∃ message, feedLive memory caps typeName schema resolver stream live =
          .error (.schemaMismatch message) ∧
        ∃ before chunk after, live = before ++ chunk :: after ∧
          Compatible first (later ++ before) ∧ ¬Compatible first (later ++ (before ++ [chunk])) ∧
          ∀ chunk ∈ before, ∃ part, chunk.cast memory schema = .ok part) ∨
      ∃ message, feedLive memory caps typeName schema resolver stream live =
          .error (.castNull message) ∧
        ∃ before chunk after, live = before ++ chunk :: after ∧
          Compatible first (later ++ (before ++ [chunk])) ∧
          schema = joinedSchema first (later ++ (before ++ [chunk])) ∧
          NullRefused chunk schema := by
  induction live generalizing later resolver stream with
  | nil =>
      refine .inl ⟨stream, rfl, ?_, ?_, fun _ member => (List.not_mem_nil member).elim⟩
      · rwa [List.append_nil]
      · rw [List.append_nil]
        exact observed.compatible
  | cons chunk live ih =>
      have known : FixedTypes fixed (first :: (later ++ [chunk])) := by
        have all := types
        rw [List.append_cons, ← List.cons_append] at all
        exact all.left
      obtain ⟨good, bad⟩ := observed.observe typeName known
      by_cases compatible : Compatible first (later ++ [chunk])
      · obtain ⟨next, seen, grown⟩ := good compatible
        have same := stable [chunk] live rfl compatible.1
        have fits : Fits chunk schema := by
          intro index source target sourceAt targetAt typed
          rw [same] at targetAt
          exact compatible.fits (.tail _ (List.mem_append_right _ (List.mem_singleton_self _)))
            sourceAt targetAt typed
        rcases cast_fits memory fits with ⟨part, cast⟩ | ⟨message, refused, nulls⟩
        · obtain ⟨fields, -, rows⟩ := cast_ok cast
          have more : later ++ [chunk] ++ live = later ++ chunk :: live := by
            rw [List.append_assoc, List.singleton_append]
          have result : feedLive memory caps typeName schema resolver stream (chunk :: live) =
              feedLive memory caps typeName schema next (stream.feed memory caps part) live := by
            rw [feedLive, seen]
            simp only [cast]
          have fedNext := feeding.feed memory fields rows
          rw [List.cons_append] at fedNext
          have step := ih grown (by rwa [more])
            (fun between rest split names => by
              rw [List.append_assoc, List.singleton_append] at names ⊢
              exact stable (chunk :: between) rest (congrArg (chunk :: ·) split) names)
            fedNext
          rw [more] at step
          rw [result]
          rcases step with ⟨last, done, fed, all, casts⟩ |
            ⟨message, done, before, other, after, split, taken, clash, casts⟩ |
              ⟨message, done, before, other, after, split, taken, sameNext, nulls⟩
          · exact .inl ⟨last, done, fed, all, List.forall_mem_cons.mpr ⟨⟨part, cast⟩, casts⟩⟩
          · rw [List.append_assoc, List.singleton_append] at taken clash
            exact .inr (.inl ⟨message, done, chunk :: before, other, after,
              congrArg (chunk :: ·) split, taken, clash,
              List.forall_mem_cons.mpr ⟨⟨part, cast⟩, casts⟩⟩)
          · rw [List.append_assoc, List.singleton_append] at taken sameNext
            exact .inr (.inr ⟨message, done, chunk :: before, other, after,
              congrArg (chunk :: ·) split, taken, sameNext, nulls⟩)
        · refine .inr (.inr ⟨message, ?_, [], chunk, live, rfl, compatible, same, nulls⟩)
          rw [feedLive, seen]
          simp only [refused]
      · obtain ⟨message, refused⟩ := bad compatible
        have taken : Compatible first (later ++ []) := by
          rw [List.append_nil]
          exact observed.compatible
        exact .inr (.inl ⟨message, by rw [feedLive, refused], [], chunk, live, rfl, taken, compatible,
          fun _ member => (List.not_mem_nil member).elim⟩)

end Feeding

section Hold

variable {T M V B : Type} {memory : Memory T M B} {caps : Caps} {spillParent : Option String}
  {hold : Hold T M V B} {seen : List (Table T M V B)} {chunk : Table T M V B}

/-- The chunks of a hold-back fill a row group. -/
def Overfull (memory : Memory T M B) (caps : Caps) (chunks : List (Table T M V B)) : Prop :=
  caps.rowGroupRows ≤ (chunks.map Table.numRows).sum ∨
    caps.rowGroupBytes ≤ (chunks.map (Table.nbytes memory)).sum

/-- A hold-back keeps the content of the chunks it has read. -/
structure Kept (seen : List (Table T M V B)) (hold : Hold T M V B) : Prop where
  content : List.Forall₂ SameContent (hold.spilled ++ hold.pending) seen
  rowGroups : hold.stats.rowGroups = 0
  byteCut : hold.stats.byteCutRowGroups = 0

/-- A hold-back before the schema is settled. -/
structure Held (memory : Memory T M B) (spillParent : Option String)
    (seen : List (Table T M V B)) (hold : Hold T M V B) : Prop extends Kept seen hold where
  /-- Nothing is spilled yet, and the sizes are those of what was read. -/
  sizes : hold.spilled = [] → hold.pending = seen ∧
    hold.rows = (seen.map Table.numRows).sum ∧
      hold.nbytes = (seen.map (Table.nbytes memory)).sum
  apart : hold.spilled ≠ [] → hold.pending = []
  nowhere : spillParent = none → hold.spilled = []

theorem reload_content (memory : Memory T M B) (chunks : List (Table T M V B)) :
    List.Forall₂ SameContent
      (chunks.map fun chunk => { chunk with buffers := memory.reload chunk.buffers }) chunks := by
  induction chunks with
  | nil => exact .nil
  | cons chunk rest ih => exact .cons ⟨rfl, rfl, rfl⟩ ih

theorem same_content (chunks : List (Table T M V B)) :
    List.Forall₂ SameContent chunks chunks :=
  List.forall₂_same.mpr fun _ _ => ⟨rfl, rfl, rfl⟩

/-- A chunk is kept, unless it has to be spilled and there is no place for it. -/
theorem Held.keep (caps : Caps) (held : Held memory spillParent seen hold)
    (chunk : Table T M V B) :
    (∃ next, hold.keep memory caps spillParent chunk = .ok next ∧
        Held memory spillParent (seen ++ [chunk]) next ∧ next.resolver = hold.resolver ∧
        (spillParent = none → ¬Overfull memory caps (seen ++ [chunk]))) ∨
      ∃ message, hold.keep memory caps spillParent chunk = .error (.spillUnavailable message) ∧
        spillParent = none ∧ Overfull memory caps (seen ++ [chunk]) := by
  unfold Hold.keep
  extract_lets stats counted kept
  by_cases fresh : hold.spilled = []
  · obtain ⟨pending, rows, nbytes⟩ := held.sizes fresh
    have keptPending : kept.pending = seen ++ [chunk] := congrArg (· ++ [chunk]) pending
    have keptRows : kept.rows = ((seen ++ [chunk]).map Table.numRows).sum := by
      rw [List.map_append, List.sum_append_nat, ← rows]
      rfl
    have keptBytes : kept.nbytes = ((seen ++ [chunk]).map (Table.nbytes memory)).sum := by
      rw [List.map_append, List.sum_append_nat, ← nbytes]
      rfl
    rw [if_neg (by simp [fresh])]
    by_cases full : (decide (caps.rowGroupRows ≤ kept.rows) ||
        decide (caps.rowGroupBytes ≤ kept.nbytes)) = true
    · rw [if_pos full]
      cases spillParent with
      | none =>
          refine .inr ⟨_, rfl, rfl, ?_⟩
          rw [Overfull, ← keptRows, ← keptBytes]
          exact (Bool.or_eq_true_iff.mp full).imp of_decide_eq_true of_decide_eq_true
      | some parent =>
          refine .inl ⟨_, rfl, ⟨⟨?_, held.rowGroups, held.byteCut⟩, ?_, fun _ => rfl, ?_⟩, rfl,
            nofun⟩
          · have none : kept.spilled = [] := fresh
            refine (congrArg (List.Forall₂ SameContent · (seen ++ [chunk])) ?_).mpr
              (reload_content memory (seen ++ [chunk]))
            rw [← keptPending, List.append_nil, none, List.nil_append]
          · intro none
            have empty := (List.append_eq_nil_iff.mp none).2
            rw [List.map_eq_nil_iff, keptPending] at empty
            exact absurd empty (List.concat_ne_nil _ _)
          · exact fun none => by cases none
    · rw [if_neg full]
      refine .inl ⟨kept, rfl, ⟨⟨?_, held.rowGroups, held.byteCut⟩, ?_, ?_, ?_⟩, rfl, fun _ => ?_⟩
      · have none : kept.spilled = [] := fresh
        rw [none, List.nil_append, keptPending]
        exact same_content _
      · exact fun _ => ⟨keptPending, keptRows, keptBytes⟩
      · exact fun some' => absurd fresh some'
      · exact fun _ => fresh
      · rw [Overfull, ← keptRows, ← keptBytes]
        exact fun many => full (Bool.or_eq_true_iff.mpr (many.imp decide_eq_true decide_eq_true))
  · rw [if_pos (by simpa using fresh)]
    cases spillParent with
    | none => exact absurd (held.nowhere rfl) fresh
    | some parent =>
        refine .inl ⟨_, rfl, ⟨⟨?_, held.rowGroups, held.byteCut⟩, ?_, ?_, ?_⟩, rfl, nofun⟩
        · have content := held.content
          rw [held.apart fresh, List.append_nil] at content
          have grown := List.rel_append content (reload_content memory [chunk])
          refine (congrArg (List.Forall₂ SameContent · (seen ++ [chunk])) ?_).mpr grown
          exact (congrArg (_ ++ ·) (held.apart fresh)).trans (List.append_nil _)
        · exact fun none => absurd (List.append_eq_nil_iff.mp none).2 (List.cons_ne_nil _ _)
        · exact fun _ => held.apart fresh
        · exact fun none => by cases none

/-- The chunks before the schema is settled do not fit in a row group. -/
def MustSpill (memory : Memory T M B) (caps : Caps) (fixed : List String)
    (chunks : List (Table T M V B)) : Prop :=
  ∃ first more rest, chunks = first :: (more ++ rest) ∧ Compatible first more ∧
    Unsettled fixed (first :: more) ∧ Overfull memory caps (first :: more)

/-- One of the chunks that are cast has nulls that its cast refuses.  What is read by then is
compatible, and settles the schema or is all there is. -/
def NullStopped (fixed : List String) (chunks : List (Table T M V B)) : Prop :=
  ∃ first more rest, chunks = first :: (more ++ rest) ∧ Compatible first more ∧
    (Unsettled fixed (first :: more) → rest = []) ∧
    ∃ chunk ∈ first :: more, NullRefused chunk (joinedSchema first more)

theorem Overfull.more {later more : List (Table T M V B)} {first : Table T M V B}
    (full : Overfull memory caps (first :: later)) :
    Overfull memory caps (first :: (later ++ more)) := by
  simp only [Overfull, List.map_cons, List.map_append, List.sum_cons, List.sum_append] at full ⊢
  omega

/-- Chunks that fit in a row group, until one that settles the schema or cannot join them. -/
theorem not_mustSpill {first : Table T M V B} {later rest : List (Table T M V B)}
    {fixed : List String} (room : ¬Overfull memory caps (first :: later))
    (stop : ∀ chunk live, rest = chunk :: live → ¬Compatible first (later ++ [chunk]) ∨
      ¬Unsettled fixed (first :: (later ++ [chunk]))) :
    ¬MustSpill memory caps fixed (first :: (later ++ rest)) := by
  rintro ⟨_, more, others, split, compatible, unsettled, full⟩
  obtain ⟨rfl, tail⟩ := List.cons.inj split
  rcases List.append_eq_append_iff.mp tail with ⟨between, rfl, parts⟩ | ⟨between, rfl, -⟩
  · cases between with
    | nil =>
        rw [List.append_nil] at full
        exact room full
    | cons chunk between =>
        rw [List.append_cons] at compatible unsettled
        rcases stop chunk (between ++ others) parts with clash | known
        · exact clash compatible.left
        · exact known (unsettled.left compatible.1)
  · exact room full.more

variable [DecidableEq T] [DecidableEq M] {typeName : DataType T → String} {table : String}
  {fixed : List String} {first : Table T M V B} {later live : List (Table T M V B)}
  {resolver : Resolver T M}

/-- The rest of the loop, after a chunk was kept or refused. -/
def holdNext (memory : Memory T M B) (caps : Caps) (typeName : DataType T → String)
    (spillParent : Option String) (live : List (Table T M V B)) :
    Except Failure (Hold T M V B) → Except Failure (Hold T M V B × List (Table T M V B))
  | .error failure => .error failure
  | .ok next => holdBack memory caps typeName spillParent next live

omit [DecidableEq M] in
theorem holdBack_spec (observed : Observed table fixed first later hold.resolver)
    (held : Held memory spillParent (first :: later) hold)
    (room : spillParent = none → ¬Overfull memory caps (first :: later))
    (unresolved : hold.resolver.resolved = false)
    (types : FixedTypes fixed (first :: (later ++ live))) :
    (∃ next rest more, holdBack memory caps typeName spillParent hold live = .ok (next, rest) ∧
        live = more ++ rest ∧ Observed table fixed first (later ++ more) next.resolver ∧
        Kept (first :: (later ++ more)) next ∧ (next.resolver.resolved = true ∨ rest = []) ∧
        (spillParent = none → ¬MustSpill memory caps fixed (first :: (later ++ live)))) ∨
      (∃ message, holdBack memory caps typeName spillParent hold live =
          .error (.schemaMismatch message) ∧
        (∃ more chunk rest, live = more ++ chunk :: rest ∧
          ¬Compatible first (later ++ (more ++ [chunk])) ∧ Compatible first (later ++ more) ∧
          Unsettled fixed (first :: (later ++ more))) ∧
        (spillParent = none → ¬MustSpill memory caps fixed (first :: (later ++ live)))) ∨
      ∃ message, holdBack memory caps typeName spillParent hold live =
          .error (.spillUnavailable message) ∧ spillParent = none ∧
        MustSpill memory caps fixed (first :: (later ++ live)) := by
  induction live generalizing later hold with
  | nil =>
      refine .inl ⟨hold, [], [], rfl, rfl, ?_, ?_, .inr rfl, fun nowhere => ?_⟩
      · rwa [List.append_nil]
      · rw [List.append_nil]
        exact held.toKept
      · exact not_mustSpill (room nowhere) nofun
  | cons chunk live ih =>
      have more : later ++ [chunk] ++ live = later ++ chunk :: live := by
        rw [List.append_assoc, List.singleton_append]
      have known : FixedTypes fixed (first :: (later ++ [chunk])) := by
        have all := types
        rw [List.append_cons, ← List.cons_append] at all
        exact all.left
      obtain ⟨good, bad⟩ := observed.observe typeName known
      by_cases compatible : Compatible first (later ++ [chunk])
      · obtain ⟨resolver, seen, grown⟩ := good compatible
        cases resolved : resolver.resolved with
        | true =>
            refine .inl ⟨{ hold with resolver := resolver, pending := hold.pending ++ [chunk] },
              live, [chunk], ?_, rfl, grown, ⟨?_, held.rowGroups, held.byteCut⟩, .inl resolved,
              fun nowhere => ?_⟩
            · rw [holdBack, seen]
              simp only [resolved, if_true]
            · rw [← List.append_assoc, ← List.cons_append]
              exact List.rel_append held.content (same_content [chunk])
            · refine not_mustSpill (room nowhere) fun other rest same => .inr ?_
              cases same
              exact grown.not_unsettled resolved
        | false =>
            have seenHeld : Held memory spillParent (first :: later)
                { hold with resolver := resolver } :=
              ⟨⟨held.content, held.rowGroups, held.byteCut⟩, held.sizes, held.apart, held.nowhere⟩
            have step : holdBack memory caps typeName spillParent hold (chunk :: live) =
                holdNext memory caps typeName spillParent live
                  (Hold.keep memory caps { hold with resolver := resolver } spillParent chunk) := by
              rw [holdBack, seen]
              simp only [resolved]
              rfl
            rw [step]
            rcases seenHeld.keep caps chunk with
              ⟨next, kept, heldNext, same, roomNext⟩ | ⟨message, refused, nowhere, full⟩
            · rw [kept]
              have observedNext : Observed table fixed first (later ++ [chunk]) next.resolver := by
                rw [same]
                exact grown
              have last := ih observedNext heldNext roomNext (by rw [same]; exact resolved)
                (by rwa [more])
              rw [more] at last
              rcases last with ⟨final, rest, between, done, split, ends⟩ |
                ⟨message, done, ⟨between, other, rest, split, clash, taken, unsettled⟩, quiet⟩ | spill
              · refine .inl ⟨final, rest, chunk :: between, done, congrArg (chunk :: ·) split, ?_⟩
                rwa [List.append_assoc, List.singleton_append] at ends
              · rw [List.append_assoc, List.singleton_append] at clash taken unsettled
                exact .inr (.inl ⟨message, done, ⟨chunk :: between, other, rest,
                  congrArg (chunk :: ·) split, clash, taken, unsettled⟩, quiet⟩)
              · exact .inr (.inr spill)
            · rw [refused]
              refine .inr (.inr ⟨message, rfl, nowhere, first, later ++ [chunk], live, ?_,
                compatible, grown.unsettled resolved, full⟩)
              rw [more]
      · obtain ⟨message, refused⟩ := bad compatible
        refine .inr (.inl ⟨message, by rw [holdBack, refused],
          ⟨[], chunk, live, rfl, compatible, ?_, ?_⟩, fun nowhere => ?_⟩)
        · rw [List.append_nil]
          exact observed.compatible
        · rw [List.append_nil]
          exact observed.unsettled unresolved
        · refine not_mustSpill (room nowhere) fun other rest same => .inl ?_
          cases same
          exact compatible

end Hold

section Law

variable {T M V B : Type} [DecidableEq T] [DecidableEq M] {memory : Memory T M B} {caps : Caps}
  {typeName : DataType T → String} {spillParent : Option String} {table : String}
  {fixed : List String} {first : Table T M V B} {later : List (Table T M V B)}
  {chunks : List (Table T M V B)}

/-- What is written for the chunks is their join. -/
structure Refines (caps : Caps) (chunks : Nat) (joined : Table T M V B)
    (written : Written T M V B) : Prop where
  schema : written.schema = joined.fields
  metadata : joined.metadata = none
  delivered : Delivered caps joined.fields joined.rows chunks written.stream

omit [DecidableEq M] in
theorem holdBack_start (memory : Memory T M B) (caps : Caps) (typeName : DataType T → String)
    (spillParent : Option String) (table : String) (types : FixedTypes fixed (first :: later)) :
    (∃ next rest more, holdBack memory caps typeName spillParent
          (.start ⟨table, fixed, none, [], []⟩) (first :: later) =
            .ok (next, rest) ∧
        later = more ++ rest ∧ Observed table fixed first more next.resolver ∧
        Kept (first :: more) next ∧ (next.resolver.resolved = true ∨ rest = []) ∧
        (spillParent = none → ¬MustSpill memory caps fixed (first :: later))) ∨
      (∃ message, holdBack memory caps typeName spillParent
          (.start ⟨table, fixed, none, [], []⟩) (first :: later) =
            .error (.schemaMismatch message) ∧
        (∃ more chunk rest, later = more ++ chunk :: rest ∧
          ¬Compatible first (more ++ [chunk]) ∧ Compatible first more ∧
          Unsettled fixed (first :: more)) ∧
        (spillParent = none → ¬MustSpill memory caps fixed (first :: later))) ∨
      ∃ message, holdBack memory caps typeName spillParent
          (.start ⟨table, fixed, none, [], []⟩) (first :: later) =
            .error (.spillUnavailable message) ∧ spillParent = none ∧
        MustSpill memory caps fixed (first :: later) := by
  obtain ⟨resolver, seen, observed⟩ := observe_first typeName table fixed first
  cases resolved : resolver.resolved with
  | true =>
      refine .inl ⟨{ Hold.start resolver with pending := [first] }, later, [], ?_, rfl, observed,
        ⟨same_content [first], rfl, rfl⟩, .inl resolved, fun _ => ?_⟩
      · simp only [holdBack, Hold.start, seen, resolved, if_true]
        rfl
      · rintro ⟨_, more, rest, split, compatible, unsettled, -⟩
        obtain ⟨rfl, -⟩ := List.cons.inj split
        have alone : Unsettled fixed (first :: []) := Unsettled.left compatible.1 unsettled
        exact observed.not_unsettled resolved alone
  | false =>
      have empty : Held memory spillParent [] (Hold.start resolver : Hold T M V B) :=
        ⟨⟨.nil, rfl, rfl⟩, fun _ => ⟨rfl, rfl, rfl⟩, fun _ => rfl, fun _ => rfl⟩
      have step : holdBack memory caps typeName spillParent
          (.start ⟨table, fixed, none, [], []⟩) (first :: later) =
          holdNext memory caps typeName spillParent later
            ((Hold.start resolver).keep memory caps spillParent first) := by
        simp only [holdBack, Hold.start, seen, resolved]
        rfl
      rw [step]
      rcases empty.keep caps first with
        ⟨next, kept, held, same, room⟩ | ⟨message, refused, nowhere, full⟩
      · rw [kept]
        have observedNext : Observed table fixed first [] next.resolver := by
          rw [same]
          exact observed
        exact holdBack_spec observedNext held room (by rw [same]; exact resolved) types
      · rw [refused]
        exact .inr (.inr ⟨message, rfl, nowhere, first, [], later, rfl,
          observed.compatible, observed.unsettled resolved, full⟩)

theorem join_ok (compatible : Compatible first later)
    (casts : ∀ chunk ∈ first :: later,
      ∃ part, chunk.cast memory (joinedSchema first later) = .ok part) :
    ∃ joined, joinDispatcherChunks memory typeName table (first :: later) = .ok joined ∧
      joined.fields = joinedSchema first later ∧ joined.metadata = none ∧
      joined.rows = (first :: later).flatMap Table.rows := by
  obtain ⟨parts, all, rows, count, fields⟩ := castAll_ok casts
  refine ⟨combine memory parts, by rw [join_compatible memory compatible, all], ?_, rfl, rows⟩
  cases parts with
  | nil => cases count
  | cons part rest => exact fields part List.mem_cons_self

theorem not_nullStopped (types : FixedTypes fixed (first :: later)) (names : SameNames first later)
    (casts : ∀ chunk ∈ first :: later,
      ∃ part, chunk.cast memory (joinedSchema first later) = .ok part) :
    ¬NullStopped fixed (first :: later) := by
  rintro ⟨_, more, rest, split, -, settles, chunk, member, refused⟩
  obtain ⟨rfl, rfl⟩ := List.cons.inj split
  have same : joinedSchema first (more ++ rest) = joinedSchema first more := by
    by_cases unsettled : Unsettled fixed (first :: more)
    · rw [settles unsettled, List.append_nil]
    · exact joinedSchema_stable names types unsettled
  have among : chunk ∈ first :: (more ++ rest) := by
    rw [← List.cons_append]
    exact List.mem_append_left _ member
  obtain ⟨part, cast⟩ := casts chunk among
  rw [same] at cast
  exact refused.not_cast cast

/-- Chunks up to one that cannot join them are not stopped for a null, when they are all cast or
do not settle the schema. -/
theorem not_nullStopped_clash (memory : Memory T M B) {more rest : List (Table T M V B)} {chunk : Table T M V B}
    (types : FixedTypes fixed (first :: later)) (split : later = more ++ chunk :: rest)
    (compatible : Compatible first more) (clash : ¬Compatible first (more ++ [chunk]))
    (before : Unsettled fixed (first :: more) ∨ ∀ chunk ∈ first :: more,
      ∃ part, chunk.cast memory (joinedSchema first more) = .ok part) :
    ¬NullStopped fixed (first :: later) := by
  subst split
  rintro ⟨_, taken, others, parts, joins, settles, refused⟩
  obtain ⟨rfl, tail⟩ := List.cons.inj parts
  have typesMore : FixedTypes fixed (first :: more) := by
    rw [← List.cons_append] at types
    exact types.left
  rcases List.append_eq_append_iff.mp tail with ⟨between, rfl, same⟩ | ⟨between, rfl, same⟩
  · cases between with
    | nil =>
        rw [List.append_nil] at settles refused
        rcases before with unsettled | casts
        · rw [settles unsettled] at same
          cases same
        · refine not_nullStopped typesMore compatible.1 casts ⟨first, more, [], ?_, compatible,
            fun _ => rfl, refused⟩
          rw [List.append_nil]
    | cons head between =>
        obtain ⟨rfl, -⟩ := List.cons.inj same
        rw [List.append_cons] at joins
        exact clash joins.left
  · have unfinished : ¬Unsettled fixed (first :: taken) := fun unsettled => by
      rw [settles unsettled] at same
      exact List.append_ne_nil_of_right_ne_nil _ (List.cons_ne_nil _ _) same.symm
    rcases before with unsettled | casts
    · exact unfinished (unsettled.left compatible.1)
    · exact not_nullStopped typesMore compatible.1 casts ⟨first, taken, between, rfl, joins,
        fun unsettled => absurd unsettled unfinished, refused⟩

theorem streamTable_outcome (types : FixedTypes fixed (first :: later)) :
    (((∃ written joined, streamTable memory caps typeName spillParent table fixed
            (first :: later) = .ok written ∧
          joinDispatcherChunks memory typeName table (first :: later) = .ok joined ∧
          Refines caps (first :: later).length joined written) ∨
        (∃ message, streamTable memory caps typeName spillParent table fixed
            (first :: later) = .error (.schemaMismatch message)) ∧
          ∃ message, joinDispatcherChunks memory typeName table (first :: later) =
            .error (.schemaMismatch message)) ∧
      ¬NullStopped fixed (first :: later) ∧
      (spillParent = none → ¬MustSpill memory caps fixed (first :: later))) ∨
      ((∃ message, streamTable memory caps typeName spillParent table fixed
          (first :: later) = .error (.castNull message)) ∧
        NullStopped fixed (first :: later) ∧
        (spillParent = none → ¬MustSpill memory caps fixed (first :: later))) ∨
      (∃ message, streamTable memory caps typeName spillParent table fixed
          (first :: later) = .error (.spillUnavailable message)) ∧ spillParent = none ∧
        MustSpill memory caps fixed (first :: later) := by
  unfold streamTable
  rcases holdBack_start memory caps typeName spillParent table types with
    ⟨hold, live, more, done, split, observed, kept, ends, room⟩ |
      ⟨message, failed, ⟨more, chunk, rest, split, clash, compatible, unsettled⟩, room⟩ |
        ⟨message, failed, nowhere, must⟩
  · subst split
    rw [done]
    simp only [observed.names, Option.isNone_some, rowGroupBatches]
    have prefixTypes : FixedTypes fixed (first :: more) := by
      rw [← List.cons_append] at types
      exact types.left
    have same : hold.resolver.schema = joinedSchema first more := by
      have names := observed.compatible.1
      rw [← List.append_nil more] at names prefixTypes
      have here := observed.schema names prefixTypes (.inr rfl)
      rwa [List.append_nil] at here
    have stable : ∀ between rest, live = between ++ rest → SameNames first (more ++ between) →
        hold.resolver.schema = joinedSchema first (more ++ between) := by
      intro between rest parts names
      refine observed.schema names ?_ (ends.imp_right fun none => ?_)
      · rw [parts, ← List.append_assoc, ← List.cons_append] at types
        exact types.left
      · exact (List.append_eq_nil_iff.mp (parts.symm.trans none)).1
    have settles : Unsettled fixed (first :: more) → live = [] := fun unsettled =>
      ends.resolve_left fun resolved => observed.not_unsettled resolved unsettled
    have begun : Feeding caps hold.resolver.schema [] (.start hold.stats : Stream T M V B) :=
      ⟨⟨rfl, rfl, fun _ among => (List.not_mem_nil among).elim,
        fun _ among => (List.not_mem_nil among).elim, fun _ among => (List.not_mem_nil among).elim,
        kept.rowGroups, kept.byteCut, fun _ among => (List.not_mem_nil among).elim⟩,
        fun _ among => (List.not_mem_nil among).elim, caps.rows_pos, rfl⟩
    have fits : ∀ chunk ∈ first :: more, Fits chunk hold.resolver.schema := by
      intro chunk member index source target sourceAt targetAt typed
      rw [same] at targetAt
      exact observed.compatible.fits member sourceAt targetAt typed
    rcases feedHeld_spec memory kept.content fits begun with
      ⟨middle, fedHeld, feeding, heldCasts⟩ | ⟨message, refused, chunk, member, nulls⟩
    · rw [fedHeld]
      rcases feedLive_spec memory typeName observed types stable feeding with
        ⟨last, fedLive, ended, compatible, liveCasts⟩ |
          ⟨message, refused, before, chunk, after, parts, compatible, clash, liveCasts⟩ |
            ⟨message, refused, before, chunk, after, parts, compatible, schema, nulls⟩
      · have whole := stable live [] (List.append_nil live).symm compatible.1
        have casts : ∀ chunk ∈ first :: (more ++ live),
            ∃ part, chunk.cast memory (joinedSchema first (more ++ live)) = .ok part := by
          rw [← whole, ← List.cons_append]
          exact List.forall_mem_append.mpr ⟨heldCasts, liveCasts⟩
        obtain ⟨joined, join, fields, metadata, rows⟩ := join_ok compatible casts
        simp only [fedLive]
        refine .inl ⟨.inl ⟨_, joined, rfl, join, ⟨whole.trans fields.symm, metadata, ?_⟩⟩,
          not_nullStopped types compatible.1 casts, room⟩
        rw [fields, rows, ← whole]
        exact ended.fed.flush ended.running ended.under ended.feeds
      · simp only [refused]
        subst parts
        have whole := stable before (chunk :: after) rfl compatible.1
        have casts : ∀ chunk ∈ first :: (more ++ before),
            ∃ part, chunk.cast memory (joinedSchema first (more ++ before)) = .ok part := by
          rw [← whole, ← List.cons_append]
          exact List.forall_mem_append.mpr ⟨heldCasts, liveCasts⟩
        rw [← List.append_assoc] at clash
        have incompatible : ¬Compatible first (more ++ (before ++ chunk :: after)) := fun all => by
          rw [← List.append_assoc, List.append_cons] at all
          exact clash all.left
        exact .inl ⟨.inr ⟨⟨message, rfl⟩, join_incompatible memory incompatible⟩,
          not_nullStopped_clash memory types (List.append_assoc _ _ _).symm compatible clash (.inr casts),
          room⟩
      · simp only [refused]
        subst parts
        rw [schema] at nulls
        refine .inr (.inl ⟨⟨message, rfl⟩, ⟨first, more ++ (before ++ [chunk]), after, ?_, compatible,
          fun unsettled => ?_, chunk, ?_, nulls⟩, room⟩)
        · rw [List.append_assoc, List.append_assoc, List.singleton_append]
        · exact absurd (settles (unsettled.left compatible.1))
            (List.append_ne_nil_of_right_ne_nil _ (List.cons_ne_nil _ _))
        · exact .tail _ (List.mem_append_right _ (List.mem_append_right _ List.mem_cons_self))
    · rw [refused]
      rw [same] at nulls
      exact .inr (.inl ⟨⟨message, rfl⟩, ⟨first, more, live, rfl, observed.compatible, settles, chunk,
        member, nulls⟩, room⟩)
  · rw [failed]
    have incompatible : ¬Compatible first later := fun all => by
      rw [split, List.append_cons] at all
      exact clash all.left
    exact .inl ⟨.inr ⟨⟨message, rfl⟩, join_incompatible memory incompatible⟩,
      not_nullStopped_clash memory types split compatible clash (.inl unsettled), room⟩
  · rw [failed]
    exact .inr (.inr ⟨⟨message, rfl⟩, nowhere, must⟩)

/-- The stream of a table is the join of its chunks.  There are two exceptions, both exact: a spill
that has no place, and a chunk whose nulls the cast to the settled schema refuses. -/
theorem streamTable_refines (memory : Memory T M B) (caps : Caps) (typeName : DataType T → String)
    (spillParent : Option String) (table : String) (fixed : List String)
    (chunks : List (Table T M V B)) (types : FixedTypes fixed chunks) :
    ((∃ message, streamTable memory caps typeName spillParent table fixed chunks =
          .error (.spillUnavailable message)) ↔
        spillParent = none ∧ MustSpill memory caps fixed chunks) ∧
      ((∃ message, streamTable memory caps typeName spillParent table fixed chunks =
          .error (.castNull message)) ↔
        NullStopped fixed chunks ∧ (spillParent = none → ¬MustSpill memory caps fixed chunks)) ∧
      (¬NullStopped fixed chunks → (spillParent = none → ¬MustSpill memory caps fixed chunks) →
        ((∃ message, streamTable memory caps typeName spillParent table fixed chunks =
            .error (.schemaMismatch message)) ↔
          ∃ message, joinDispatcherChunks memory typeName table chunks =
            .error (.schemaMismatch message)) ∧
        ((∀ message, joinDispatcherChunks memory typeName table chunks ≠
            .error (.schemaMismatch message)) →
          ∃ written joined, streamTable memory caps typeName spillParent table fixed chunks =
              .ok written ∧
            joinDispatcherChunks memory typeName table chunks = .ok joined ∧
            Refines caps chunks.length joined written)) := by
  cases chunks with
  | nil =>
      refine ⟨⟨nofun, fun must => ?_⟩, ⟨nofun, fun stopped => ?_⟩, fun _ _ =>
        ⟨⟨fun _ => ⟨_, rfl⟩, fun _ => ⟨_, rfl⟩⟩, fun none => absurd rfl (none _)⟩⟩
      · obtain ⟨-, _, _, _, split, -⟩ := must
        cases split
      · obtain ⟨⟨_, _, _, split, -⟩, -⟩ := stopped
        cases split
  | cons first later =>
      rcases streamTable_outcome types with
        ⟨⟨written, joined, stream, join, refines⟩ | ⟨⟨message, stream⟩, other, join⟩, whole, room⟩ |
          ⟨⟨message, stream⟩, stopped, room⟩ | ⟨⟨message, stream⟩, nowhere, must⟩
      · rw [stream, join]
        exact ⟨⟨nofun, fun must => absurd must.2 (room must.1)⟩,
          ⟨nofun, fun stopped => absurd stopped.1 whole⟩,
          fun _ _ => ⟨⟨nofun, nofun⟩, fun _ => ⟨written, joined, rfl, rfl, refines⟩⟩⟩
      · rw [stream, join]
        exact ⟨⟨nofun, fun must => absurd must.2 (room must.1)⟩,
          ⟨nofun, fun stopped => absurd stopped.1 whole⟩,
          fun _ _ => ⟨⟨fun _ => ⟨other, rfl⟩, fun _ => ⟨message, rfl⟩⟩,
            fun none => absurd rfl (none other)⟩⟩
      · rw [stream]
        exact ⟨⟨nofun, fun must => absurd must.2 (room must.1)⟩,
          ⟨fun _ => ⟨stopped, room⟩, fun _ => ⟨message, rfl⟩⟩,
          fun whole => absurd stopped whole⟩
      · rw [stream]
        exact ⟨⟨fun _ => ⟨nowhere, must⟩, fun _ => ⟨message, rfl⟩⟩,
          ⟨nofun, fun stopped => absurd must (stopped.2 nowhere)⟩,
          fun _ room => absurd must (room nowhere)⟩

end Law

/-- Buffers that are not looked at. -/
def plainMemory : Memory String Unit Unit where
  slice := fun _ _ _ => ()
  cast := fun _ _ => ()
  combine := fun _ => ()
  reload := fun _ => ()
  nbytes := fun _ => 0

/-- Row groups of one row. -/
def singleRows : Caps := ⟨1, 1, Nat.zero_lt_one, Nat.zero_lt_one⟩

def typeText : DataType String → String
  | .null => "null"
  | .typed type => type

/-- A chunk of one column and one row. -/
def oneCell (type : DataType String) (nullable : Bool) (cell : Option Nat) :
    Table String Unit Nat Unit :=
  ⟨[⟨"a", type, nullable, ()⟩], none, [[cell]], ()⟩

theorem oneCell_refines :
    ∃ written joined, streamTable plainMemory singleRows typeText (some "/out") "t" []
          [oneCell .null true none, oneCell (.typed "int64") true (some 7)] = .ok written ∧
        joinDispatcherChunks plainMemory typeText "t"
          [oneCell .null true none, oneCell (.typed "int64") true (some 7)] = .ok joined ∧
        Refines singleRows 2 joined written := by
  have types : FixedTypes []
      [oneCell .null true none, oneCell (.typed "int64") true (some 7)] := by
    intro left _ right _ index leftField rightField _ _ isFixed
    cases isFixed
  have law := streamTable_refines plainMemory singleRows typeText (some "/out") "t" []
    [oneCell .null true none, oneCell (.typed "int64") true (some 7)] types
  refine (law.2.2 (fun stopped => ?_) nofun).2 nofun
  obtain ⟨message, failed⟩ := law.2.1.mpr ⟨stopped, nofun⟩
  cases failed

/-- A sink without a place for a spill refuses what the join takes, and a cast to a field without
nulls is refused before a later chunk's type is seen. -/
theorem stream_refused :
    (∃ message, streamTable plainMemory singleRows typeText none "t" []
        [oneCell .null true none, oneCell (.typed "int64") true (some 7)] =
          .error (.spillUnavailable message)) ∧
      (∃ joined, joinDispatcherChunks plainMemory typeText "t"
        [oneCell .null true none, oneCell (.typed "int64") true (some 7)] = .ok joined) ∧
      (∃ message, streamTable plainMemory singleRows typeText (some "/out") "t" []
        [oneCell (.typed "int64") false (some 7), oneCell .null true none,
          oneCell (.typed "string") true (some 8)] = .error (.castNull message)) ∧
      ∃ message, joinDispatcherChunks plainMemory typeText "t"
        [oneCell (.typed "int64") false (some 7), oneCell .null true none,
          oneCell (.typed "string") true (some 8)] = .error (.schemaMismatch message) :=
  ⟨⟨_, rfl⟩, ⟨_, rfl⟩, ⟨_, rfl⟩, ⟨_, rfl⟩⟩

end DecoyEngine.Execution.OutputSink
