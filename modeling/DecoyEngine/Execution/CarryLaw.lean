import DecoyEngine.Execution.CarryReads

namespace DecoyEngine.Execution.Carry

open DecoyEngine.Data DecoyEngine.Relationships

/-! When masking with carried columns is masking the whole chunk. -/

/-- What the first run returns the second returns up to `related`; a failure of the first is the
second's as well, provided that `takes` holds. -/
def Alike {α β : Type} (takes : Prop) (related : α → β → Prop) :
    Except Failure α → Except Failure β → Prop
  | .ok left, right => ∃ value, right = .ok value ∧ related left value
  | .error failure, right => takes → right = .error failure

theorem Alike.same {α : Type} (takes : Prop) (result : Except Failure α) :
    Alike takes (· = ·) result result := by
  cases result with
  | error failure => exact fun _ => rfl
  | ok value => exact ⟨value, rfl, rfl⟩

theorem Alike.bind {α β γ δ : Type} {takes : Prop} {related : α → β → Prop}
    {later : γ → δ → Prop} {left : Except Failure α} {right : Except Failure β}
    {first : α → Except Failure γ} {second : β → Except Failure δ}
    (alike : Alike takes related left right)
    (continued : ∀ value other, related value other →
      Alike takes later (first value) (second other)) :
    Alike takes later (left.bind first) (right.bind second) := by
  cases left with
  | error failure =>
      intro holds
      rw [alike holds]
      rfl
  | ok value =>
      obtain ⟨other, rfl, same⟩ := alike
      exact continued value other same

theorem Alike.map {α β γ δ : Type} {takes : Prop} {related : α → β → Prop}
    {later : γ → δ → Prop} {left : Except Failure α} {right : Except Failure β}
    {first : α → γ} {second : β → δ} (alike : Alike takes related left right)
    (continued : ∀ value other, related value other → later (first value) (second other)) :
    Alike takes later (left.map first) (right.map second) := by
  cases left with
  | error failure =>
      intro holds
      rw [alike holds]
      rfl
  | ok value =>
      obtain ⟨other, rfl, same⟩ := alike
      exact ⟨second other, rfl, continued value other same⟩

section Conversions

variable {V : Type} {carried : List String} {takes : Prop}

/-- Two converted frames: the same outside the carried columns, each made from its own table. -/
structure Converted (carried : List String) (change : String → Column V → Except Failure (Column V))
    (left right : String → Option (Column V)) (full masked : Frame V) : Prop where
  keys : full.keys = masked.keys
  outside : ∀ name, name ∉ carried → full.find name = masked.find name
  fullFrom : ∀ name held, full.find name = some held →
    ∃ column, left name = some column ∧ change name column = .ok held
  maskedFrom : ∀ name held, masked.find name = some held →
    ∃ column, right name = some column ∧ change name column = .ok held

variable {name : String}

theorem keys_set_absent {frame : Frame V} (absent : name ∉ frame.keys) (column : Column V) :
    (frame.set name column).keys = frame.keys ++ [name] := by
  rw [Dict.set, dif_neg absent, Dict.keys, Dict.append, List.map_append]
  rfl

theorem keys_set_congr {full masked : Frame V} (same : full.keys = masked.keys) (name : String)
    (column other : Column V) : (full.set name column).keys = (masked.set name other).keys := by
  by_cases present : name ∈ full.keys
  · rw [keys_set present, keys_set (same ▸ present), same]
  · rw [keys_set_absent present, keys_set_absent (same ▸ present), same]

variable {change : String → Column V → Except Failure (Column V)}

theorem Converted.set {left right : String → Option (Column V)} {full masked : Frame V}
    (converted : Converted carried change left right full masked)
    {column other held kept : Column V} (leftAt : left name = some column)
    (rightAt : right name = some other) (leftTo : change name column = .ok held)
    (rightTo : change name other = .ok kept) (agree : name ∉ carried → held = kept) :
    Converted carried change left right (full.set name held) (masked.set name kept) where
  keys := keys_set_congr converted.keys name held kept
  outside := by
    intro other outside
    rw [Dict.find_set, Dict.find_set]
    split
    · rename_i here
      subst here
      rw [agree outside]
    · exact converted.outside other outside
  fullFrom := by
    intro other value found
    rw [Dict.find_set] at found
    split at found
    · rename_i here
      subst here
      cases found
      exact ⟨column, leftAt, leftTo⟩
    · exact converted.fullFrom other value found
  maskedFrom := by
    intro name' value found
    rw [Dict.find_set] at found
    split at found
    · rename_i here
      subst here
      cases found
      exact ⟨other, rightAt, rightTo⟩
    · exact converted.maskedFrom name' value found

variable {columns : String → Option (Column V)}

theorem convert_cons_none (names : List String) (frame : Frame V) (missing : columns name = none) :
    convert change columns (name :: names) frame = convert change columns names frame := by
  rw [convert, missing]

theorem convert_cons_ok {column held : Column V} (names : List String) (frame : Frame V)
    (known : columns name = some column) (changed : change name column = .ok held) :
    convert change columns (name :: names) frame =
      convert change columns names (frame.set name held) := by
  rw [convert, known]
  exact congrArg (fun result => result.bind fun changed =>
    convert change columns names (frame.set name changed)) changed

theorem convert_cons_error {column : Column V} {failure : Failure} (names : List String)
    (frame : Frame V) (known : columns name = some column)
    (changed : change name column = .error failure) :
    convert change columns (name :: names) frame = .error failure := by
  rw [convert, known]
  exact congrArg (fun result => result.bind fun changed =>
    convert change columns names (frame.set name changed)) changed

theorem convert_alike (change : String → Column V → Except Failure (Column V))
    {left right : String → Option (Column V)}
    (outside : ∀ name, name ∉ carried → left name = right name)
    (present : ∀ name, name ∈ carried → (left name).isSome = (right name).isSome)
    (fine : ∀ name, name ∈ carried → ∀ column, right name = some column →
      ∃ held, change name column = .ok held)
    (names : List String)
    (taken : takes → ∀ name ∈ names, name ∈ carried → ∀ column, left name = some column →
      ∃ held, change name column = .ok held)
    {full masked : Frame V}
    (converted : Converted carried change left right full masked) :
    Alike takes (Converted carried change left right) (convert change left names full)
      (convert change right names masked) := by
  induction names generalizing full masked with
  | nil => exact ⟨masked, rfl, converted⟩
  | cons name names ih =>
      have ih := fun {full masked} => @ih (fun holds other later =>
        taken holds other (List.mem_cons_of_mem _ later)) full masked
      by_cases inside : name ∈ carried
      · have both := present name inside
        cases leftAt : left name with
        | none =>
            rw [leftAt] at both
            have rightAt : right name = none := by
              rw [← Option.not_isSome_iff_eq_none, ← both]
              simp
            rw [convert_cons_none names full leftAt, convert_cons_none names masked rightAt]
            exact ih converted
        | some column =>
            rw [leftAt] at both
            obtain ⟨other, rightAt⟩ := Option.isSome_iff_exists.mp both.symm
            obtain ⟨kept, rightTo⟩ := fine name inside other rightAt
            rw [convert_cons_ok names masked rightAt rightTo]
            cases leftTo : change name column with
            | error failure =>
                rw [convert_cons_error names full leftAt leftTo]
                intro holds
                obtain ⟨held, done⟩ := taken holds name List.mem_cons_self inside column leftAt
                rw [leftTo] at done
                cases done
            | ok held =>
                rw [convert_cons_ok names full leftAt leftTo]
                exact ih (converted.set leftAt rightAt leftTo rightTo fun absent =>
                  absurd inside absent)
      · have rightIs := (outside name inside).symm
        cases leftAt : left name with
        | none =>
            rw [convert_cons_none names full leftAt,
              convert_cons_none names masked (rightIs.trans leftAt)]
            exact ih converted
        | some column =>
            have rightAt := rightIs.trans leftAt
            cases changed : change name column with
            | error failure =>
                rw [convert_cons_error names full leftAt changed]
                exact fun _ => convert_cons_error names masked rightAt changed
            | ok held =>
                rw [convert_cons_ok names full leftAt changed,
                  convert_cons_ok names masked rightAt changed]
                exact ih (converted.set leftAt rightAt changed changed fun _ => rfl)

theorem keys_convert {names : List String} {start done : Frame V}
    (distinct : (start.keys ++ names).Nodup) (present : ∀ name ∈ names, (columns name).isSome)
    (ok : convert change columns names start = .ok done) : done.keys = start.keys ++ names := by
  induction names generalizing start with
  | nil =>
      cases ok
      exact (List.append_nil _).symm
  | cons name names ih =>
      obtain ⟨column, known⟩ := Option.isSome_iff_exists.mp (present name List.mem_cons_self)
      cases changed : change name column with
      | error failure =>
          rw [convert_cons_error names start known changed] at ok
          cases ok
      | ok held =>
          rw [convert_cons_ok names start known changed] at ok
          have absent : name ∉ start.keys := fun member =>
            (List.nodup_append.mp distinct).2.2 name member name List.mem_cons_self rfl
          have keys := keys_set_absent absent held
          rw [← List.singleton_append, ← List.append_assoc] at distinct ⊢
          rw [← keys] at distinct ⊢
          exact ih distinct (fun other later => present other (List.mem_cons_of_mem _ later)) ok

end Conversions

section Nodes

variable {V Ctx : Type} {engine : Engine V Ctx} {run : TableRun} {carried : List String}
  {takes : Prop}

/-- Two frames on the way: the same outside the carried columns, which can be given back. -/
structure Coupled (engine : Engine V Ctx) (carried : List String) (takes : Prop)
    (full masked : Frame V) : Prop where
  keys : full.keys = masked.keys
  outside : ∀ name, name ∉ carried → full.find name = masked.find name
  emitted : ∀ name, name ∈ carried → ∀ held, masked.find name = some held →
    ∃ column, engine.emit name held = .ok column
  taken : takes → ∀ name, name ∈ carried → ∀ held, full.find name = some held →
    ∃ column, engine.emit name held = .ok column

structure CoupledState (engine : Engine V Ctx) (carried : List String) (takes : Prop)
    (full masked : State V Ctx) : Prop where
  frame : Coupled engine carried takes full.frame masked.frame
  context : full.context = masked.context
  rowErrors : full.rowErrors = masked.rowErrors

/-- Two setups of one chunk that differ in carried columns alone: what a node can reach of the
others by any name is the same in both. -/
structure SameSetup (carried : List String) (left right : Setup V) : Prop where
  rows : left.rows = right.rows
  source : ∀ name, name ∉ carried → left.source name = right.source name
  snapshots : ∀ name, name ∉ carried → left.snapshots name = right.snapshots name
  index : left.index = right.index
  labels : ∀ name, name ∉ carried → left.labels name = right.labels name

theorem Coupled.set {full masked : Frame V} (coupled : Coupled engine carried takes full masked)
    {name : String} (outside : name ∉ carried) (column : Column V) :
    Coupled engine carried takes (full.set name column) (masked.set name column) where
  keys := keys_set_congr coupled.keys name column column
  outside := by
    intro other different
    rw [Dict.find_set, Dict.find_set]
    split
    · rfl
    · exact coupled.outside other different
  emitted := by
    intro other inside held found
    have different : other ≠ name := fun same => outside (same ▸ inside)
    rw [Dict.find_set, if_neg different] at found
    exact coupled.emitted other inside held found
  taken := by
    intro holds other inside held found
    have different : other ≠ name := fun same => outside (same ▸ inside)
    rw [Dict.find_set, if_neg different] at found
    exact coupled.taken holds other inside held found

variable {left right : Setup V} {full masked : State V Ctx} {entry : Entry}

theorem sibling_same (setup : SameSetup carried left right)
    (coupled : Coupled engine carried takes full.frame masked.frame)
    (unread : ∀ column ∈ readsOf run left.index full.frame.keys entry, column ∉ carried) :
    sibling left full.frame entry = sibling right masked.frame entry := by
  rw [sibling, sibling]
  cases read : TableRun.siblingRead entry with
  | nothing => rfl
  | snapshot column =>
      exact setup.snapshots column (unread column (mem_readsOf.mpr (.inr (.inl read))))
  | live column =>
      by_cases present : column ∈ full.frame.keys
      · exact coupled.outside column
          (unread column (mem_readsOf.mpr (.inr (.inr ⟨read, present⟩))))
      · exact (Dict.find_eq_none.mpr present).trans
          (Dict.find_eq_none.mpr (coupled.keys ▸ present)).symm

theorem operand_same (setup : SameSetup carried left right)
    (coupled : Coupled engine carried takes full.frame masked.frame)
    {referent : TableRun.Referent} (unread : ∀ name, referent.shows = some name → name ∉ carried) :
    operand left full.frame referent = operand right masked.frame referent := by
  cases referent with
  | column name => rw [operand, operand, coupled.outside name (unread name rfl)]
  | level name => rw [operand, operand, setup.labels name (unread name rfl)]
  | range start step => rfl
  | tuples => rfl
  | columnNames => rw [operand, operand, coupled.keys]
  | nothing => rfl

theorem runHandler_alike (setup : SameSetup carried left right)
    (coupled : CoupledState engine carried takes full masked)
    (own : entry.strategy ≠ .passthrough → entry.name ∉ carried)
    (unread : ∀ column ∈ readsOf run left.index full.frame.keys entry, column ∉ carried) :
    Alike takes (CoupledState engine carried takes) (runHandler engine left full entry)
      (runHandler engine right masked entry) := by
  by_cases passes : entry.strategy = .passthrough
  · rw [runHandler, runHandler, if_pos passes, if_pos passes]
    exact ⟨masked, rfl, coupled⟩
  · have outside := own passes
    rw [runHandler, runHandler, if_neg passes, if_neg passes,
      coupled.frame.outside _ outside, setup.source _ outside, setup.rows, coupled.context,
      sibling_same setup coupled.frame unread]
    split
    · exact fun _ => rfl
    · refine (Alike.same takes _).map ?_
      rintro output _ rfl
      exact ⟨coupled.frame.set outside _, rfl, by rw [coupled.rowErrors]⟩

theorem runSelected_alike (setup : SameSetup carried left right)
    (coupled : CoupledState engine carried takes full masked)
    (own : entry.strategy ≠ .passthrough → entry.name ∉ carried)
    (unread : ∀ column ∈ readsOf run left.index full.frame.keys entry, column ∉ carried)
    (context : Ctx) (mask : List Bool) :
    Alike takes (CoupledState engine carried takes)
      (runSelected engine left full context entry mask)
      (runSelected engine right masked context entry mask) := by
  by_cases passes : entry.strategy = .passthrough
  · rw [runSelected, runSelected, if_pos passes, if_pos passes]
    exact ⟨_, rfl, coupled.frame, rfl, coupled.rowErrors⟩
  · have outside := own passes
    have base : ∀ column, stitchBase engine left full entry column mask =
        stitchBase engine right masked entry column mask := by
      intro column
      rw [stitchBase, stitchBase, coupled.frame.outside _ outside, setup.rows]
    rw [runSelected, runSelected, if_neg passes, if_neg passes,
      coupled.frame.outside _ outside, setup.source _ outside,
      sibling_same setup coupled.frame unread]
    split
    · exact fun _ => rfl
    · refine (Alike.same takes _).bind ?_
      rintro output _ rfl
      refine (Alike.same takes _).bind ?_
      rintro rowErrors _ rfl
      rw [base]
      refine (Alike.same takes _).map ?_
      rintro column _ rfl
      exact ⟨coupled.frame.set outside _, rfl, by rw [coupled.rowErrors]⟩

theorem runWithWhenGate_alike (setup : SameSetup carried left right)
    (coupled : CoupledState engine carried takes full masked)
    (own : entry.strategy ≠ .passthrough → entry.name ∉ carried)
    (unread : ∀ column ∈ readsOf run left.index full.frame.keys entry, column ∉ carried) :
    Alike takes (CoupledState engine carried takes) (runWithWhenGate engine run left full entry)
      (runWithWhenGate engine run right masked entry) := by
  rw [runWithWhenGate, runWithWhenGate]
  cases gate : entry.when with
  | none => exact runHandler_alike setup coupled own unread
  | some predicate =>
      have operands : (run.resolved left.index full.frame.keys predicate).map
            (operand left full.frame) =
          (run.resolved right.index masked.frame.keys predicate).map
            (operand right masked.frame) := by
        rw [← coupled.frame.keys, ← setup.index]
        refine List.map_congr_left fun referent resolves => ?_
        exact operand_same setup coupled.frame fun name shows' => unread name
          (mem_readsOf.mpr (.inl ⟨predicate, gate, referent, resolves, shows'⟩))
      simp only [operands, coupled.context, setup.rows]
      refine (Alike.same takes _).bind ?_
      rintro context _ rfl
      refine (Alike.same takes _).bind ?_
      rintro mask _ rfl
      split
      · exact runSelected_alike setup coupled own unread context mask
      · exact ⟨_, rfl, coupled.frame, rfl, coupled.rowErrors⟩

/-- The frame's columns after a node. -/
def keysAfter (keys : List String) (entry : Entry) : List String :=
  if entry.when.isNone ∧ TableRun.creates entry ∧ entry.name ∉ keys then keys ++ [entry.name]
  else keys

/-- A node that does not stop at a missing column of its own. -/
def Continues (keys : List String) (entry : Entry) : Prop :=
  entry.when.isSome ∨ entry.strategy = .passthrough ∨ TableRun.creates entry ∨ entry.name ∈ keys

theorem keys_written {frame : Frame V} {entry : Entry} (column : Column V)
    (present : ¬ ((frame.find entry.name).isNone && !TableRun.creates entry)) :
    entry.name ∈ frame.keys ∧ (frame.set entry.name column).keys = frame.keys ∨
      entry.name ∉ frame.keys ∧ TableRun.creates entry = true ∧
        (frame.set entry.name column).keys = frame.keys ++ [entry.name] := by
  by_cases known : entry.name ∈ frame.keys
  · exact .inl ⟨known, keys_set known column⟩
  · refine .inr ⟨known, ?_, keys_set_absent known column⟩
    rw [← Dict.find_eq_none] at known
    simpa [known] using present

theorem exceptMap_eq_ok {α β : Type} {result : Except Failure α} {f : α → β} {value : β}
    (ok : result.map f = .ok value) : ∃ found, result = .ok found ∧ f found = value := by
  cases result with
  | error failure => cases ok
  | ok found =>
      cases ok
      exact ⟨found, rfl, rfl⟩

theorem exceptBind_eq_ok {α β : Type} {result : Except Failure α} {f : α → Except Failure β}
    {value : β} (ok : result.bind f = .ok value) :
    ∃ found, result = .ok found ∧ f found = .ok value := by
  cases result with
  | error failure => cases ok
  | ok found => exact ⟨found, rfl, ok⟩

theorem keys_runHandler {setup : Setup V} {state done : State V Ctx} (gate : entry.when = none)
    (ok : runHandler engine setup state entry = .ok done) :
    done.frame.keys = keysAfter state.frame.keys entry ∧ Continues state.frame.keys entry := by
  rw [runHandler] at ok
  split at ok
  · rename_i passes
    cases ok
    refine ⟨?_, .inr (.inl passes)⟩
    rw [keysAfter, if_neg]
    rintro ⟨_, creates, _⟩
    rw [TableRun.creates, passes] at creates
    cases creates
  · split at ok
    · cases ok
    · rename_i present
      obtain ⟨output, _, rfl⟩ := exceptMap_eq_ok ok
      rcases keys_written output.column present with ⟨known, keys⟩ | ⟨absent, creates, keys⟩
      · refine ⟨?_, .inr (.inr (.inr known))⟩
        rw [keysAfter, if_neg (fun all => all.2.2 known)]
        exact keys
      · refine ⟨?_, .inr (.inr (.inl creates))⟩
        rw [keysAfter, if_pos ⟨by rw [gate]; rfl, creates, absent⟩]
        exact keys

theorem keys_runWithWhenGate {setup : Setup V} {state done : State V Ctx}
    (ungated : TableRun.creates entry → entry.when = none)
    (ok : runWithWhenGate engine run setup state entry = .ok done) :
    done.frame.keys = keysAfter state.frame.keys entry ∧ Continues state.frame.keys entry := by
  rw [runWithWhenGate] at ok
  cases gate : entry.when with
  | none =>
      rw [gate] at ok
      exact keys_runHandler gate ok
  | some predicate =>
      rw [gate] at ok
      have keysSame : keysAfter state.frame.keys entry = state.frame.keys := by
        rw [keysAfter, gate]
        exact if_neg fun all => nomatch all.1
      have held : ¬ TableRun.creates entry = true := fun creates => by
        rw [ungated creates] at gate
        cases gate
      rw [keysSame]
      refine ⟨?_, .inl (by rw [gate]; rfl)⟩
      obtain ⟨context, _, ok⟩ := exceptBind_eq_ok ok
      obtain ⟨mask, _, ok⟩ := exceptBind_eq_ok ok
      split at ok
      · rw [runSelected] at ok
        split at ok
        · cases ok
          rfl
        · split at ok
          · cases ok
          · rename_i present
            obtain ⟨output, _, ok⟩ := exceptBind_eq_ok ok
            obtain ⟨rowErrors, _, ok⟩ := exceptBind_eq_ok ok
            obtain ⟨base, _, rfl⟩ := exceptMap_eq_ok ok
            rcases keys_written (stitch mask base output.column) present with
              ⟨_, keys⟩ | ⟨_, creates, _⟩
            · exact keys
            · exact absurd creates held
      · cases ok
        rfl

/-- Some node in reach reads a carried column under an alias. -/
def HiddenRead (run : TableRun) (index : FrameIndex) (carried : List String) :
    List String → List Entry → Prop
  | _, [] => False
  | keys, entry :: entries =>
      ReadsUnderAlias run index carried keys entry ∨
        Continues keys entry ∧ HiddenRead run index carried (keysAfter keys entry) entries

/-- By induction on the nodes: both runs stay coupled as long as no carried column is read. -/
theorem runNodes_alike {nodes : List Entry} (setup : SameSetup carried left right)
    (coupled : CoupledState engine carried takes full masked)
    (own : ∀ entry ∈ nodes, entry.strategy ≠ .passthrough → entry.name ∉ carried)
    (ungated : ∀ entry ∈ nodes, TableRun.creates entry → entry.when = none)
    (reads : ∀ entry ∈ nodes, ∀ keys,
      (∃ column ∈ readsOf run left.index keys entry, column ∈ carried) →
        ReadsUnderAlias run left.index carried keys entry)
    (unhidden : ¬ HiddenRead run left.index carried full.frame.keys nodes) :
    Alike takes (CoupledState engine carried takes) (runNodes engine run left nodes full)
      (runNodes engine run right nodes masked) := by
  induction nodes generalizing full masked with
  | nil => exact ⟨masked, rfl, coupled⟩
  | cons entry entries ih =>
      rw [HiddenRead, not_or] at unhidden
      have unread : ∀ column ∈ readsOf run left.index full.frame.keys entry, column ∉ carried :=
        fun column read inside =>
          unhidden.1 (reads entry List.mem_cons_self _ ⟨column, read, inside⟩)
      have step := runWithWhenGate_alike setup coupled (own entry List.mem_cons_self) unread
      rw [runNodes, runNodes]
      cases done : runWithWhenGate engine run left full entry with
      | error failure =>
          rw [done] at step
          intro holds
          rw [step holds]
          rfl
      | ok state =>
          rw [done] at step
          obtain ⟨other, otherDone, next⟩ := step
          obtain ⟨keys, continues⟩ :=
            keys_runWithWhenGate (ungated entry List.mem_cons_self) done
          rw [otherDone]
          refine ih next (fun entry member => own entry (List.mem_cons_of_mem _ member))
            (fun entry member => ungated entry (List.mem_cons_of_mem _ member))
            (fun entry member => reads entry (List.mem_cons_of_mem _ member)) ?_
          rw [keys]
          exact fun hidden => unhidden.2 ⟨continues, hidden⟩

theorem mem_keys_runNodes {setup : Setup V} {nodes : List Entry} {state done : State V Ctx}
    (ungated : ∀ entry ∈ nodes, TableRun.creates entry → entry.when = none)
    (ok : runNodes engine run setup nodes state = .ok done) {name : String}
    (member : name ∈ state.frame.keys) : name ∈ done.frame.keys := by
  induction nodes generalizing state with
  | nil =>
      cases ok
      exact member
  | cons entry entries ih =>
      rw [runNodes] at ok
      obtain ⟨next, here, ok⟩ := exceptBind_eq_ok ok
      refine ih (fun entry later => ungated entry (List.mem_cons_of_mem _ later)) ok ?_
      rw [(keys_runWithWhenGate (ungated entry List.mem_cons_self) here).1, keysAfter]
      split
      · exact List.mem_append_left _ member
      · exact member

end Nodes

section FrameColumns

variable {run : TableRun} {keys : List String} {index : FrameIndex}

theorem exactColumns_within (exact : List String) {names : List String} (distinct : names.Nodup)
    (within : ∀ name ∈ names, name ∈ keys) :
    (exact.foldl (fun names column =>
        if column ∈ keys ∧ column ∉ names then names ++ [column] else names) names).Nodup ∧
      ∀ name ∈ exact.foldl (fun names column =>
        if column ∈ keys ∧ column ∉ names then names ++ [column] else names) names,
        name ∈ keys := by
  induction exact generalizing names with
  | nil => exact ⟨distinct, within⟩
  | cons column exact ih =>
      rw [List.foldl_cons]
      split
      · rename_i new
        refine ih ?_ ?_
        · refine List.nodup_append.mpr ⟨distinct, List.nodup_singleton _, ?_⟩
          intro name member last lastIs equal
          exact new.2 (List.mem_singleton.mp lastIs ▸ equal ▸ member)
        · intro name member
          rcases List.mem_append.mp member with before | last
          · exact within name before
          · exact List.mem_singleton.mp last ▸ new.1
      · exact ih distinct within

variable (run index) in
theorem frameColumns_within (distinct : keys.Nodup) :
    (run.frameColumns keys index).Nodup ∧ ∀ name ∈ run.frameColumns keys index, name ∈ keys :=
  exactColumns_within run.exactIntegers (distinct.filter _) fun _ member =>
    (List.mem_filter.mp member).1

end FrameColumns

section Law

variable {V Ctx : Type}

/-- What the chunks of a table have in common: the columns, and the index that pandas makes of
them. -/
structure Schema where
  names : List String
  index : FrameIndex
deriving Repr, DecidableEq

/-- Two chunks of a schema that agree outside the carried columns. -/
structure AgreeOutside (schema : Schema) (carried : List String) (chunk other : Chunk V) :
    Prop where
  chunkNames : chunk.columns.keys = schema.names
  otherNames : other.columns.keys = schema.names
  chunkIndex : chunk.index = schema.index
  otherIndex : other.index = schema.index
  rows : chunk.rows = other.rows
  columns : ∀ name, name ∉ carried → chunk.columns.find name = other.columns.find name

/-- pandas takes the carried columns of the chunk, as labels where they are a level of the index,
and gives those of the frame back. -/
structure Takes (engine : Engine V Ctx) (run : TableRun) (carried : List String)
    (chunk : Chunk V) : Prop where
  labels : ∀ name ∈ chunk.index.columns, name ∈ carried → ∀ column,
    chunk.columns.find name = some column → ∃ held, engine.label name column = .ok held
  columns : ∀ name ∈ run.frameColumns chunk.columns.keys chunk.index, name ∈ carried → ∀ column,
    chunk.columns.find name = some column →
      ∃ held emitted, engine.ingest name column = .ok held ∧ engine.emit name held = .ok emitted

/-- The output with carried columns, beside the output of masking the whole chunk. -/
structure SameMasked (run : TableRun) (carried : List String) (source : Chunk V)
    (full masked : Masked V) : Prop where
  keys : masked.outputs.keys = full.outputs.keys
  outside : ∀ name, name ∉ carried → masked.outputs.find name = full.outputs.find name
  rowErrors : masked.rowErrors = full.rowErrors
  present : ∀ name ∈ run.frameColumns source.columns.keys source.index,
    name ∈ masked.outputs.keys
  restored : ∀ name ∈ carried, name ∈ masked.outputs.keys →
    masked.outputs.find name = source.columns.find name

/-- Carrying changes nothing of one chunk's masking: an output is the same outside the carried
columns, with the same row errors and the source's carried columns, and a failure that is not
pandas refusing a carried column is the same failure. -/
structure Undisturbed (engine : Engine V Ctx) (run : TableRun) (plan : CarryPlan) (context : Ctx)
    (chunk other : Chunk V) : Prop where
  masked : ∀ full, maskChunk engine run context chunk = .ok full →
    ∃ masked, maskCarried engine run plan context other = .ok masked ∧
      SameMasked run plan.carried other full masked
  failed : ∀ failure, maskChunk engine run context chunk = .error failure →
    Takes engine run plan.carried chunk →
      maskCarried engine run plan context other = .error failure

/-- No handler writes a column that is put back. -/
def NoneOverwritten (run : TableRun) (carried : List String) : Prop :=
  ∀ nodes, run.nodes = .ok nodes → ∀ entry ∈ nodes, entry.strategy ≠ .passthrough →
    entry.name ∉ carried

/-- Carried columns never interfere with masking the chunks of a schema: whatever pandas and the
handlers compute, two chunks that agree outside the carried columns are masked alike, the one
whole and the other with placeholders, and no handler's column is put back. -/
def CarryIsSafe (run : TableRun) (schema : Schema) : Prop :=
  (∀ (V Ctx : Type) (engine : Engine V Ctx) (context : Ctx) (chunk other : Chunk V),
    AgreeOutside schema (run.plan schema.names).carried chunk other →
      Undisturbed engine run (run.plan schema.names) context chunk other) ∧
    NoneOverwritten run (run.plan schema.names).carried

/-- Some node of the table reads a carried column under an alias. -/
def HasHiddenRead (run : TableRun) (schema : Schema) : Prop :=
  ∃ nodes, run.nodes = .ok nodes ∧
    HiddenRead run schema.index (run.plan schema.names).carried
      (run.frameColumns schema.names schema.index) nodes

theorem none_overwritten (run : TableRun) (names : List String) :
    NoneOverwritten run (run.plan names).carried :=
  fun _ ordered _ member masks carried =>
    masks (passthrough_of_carried ordered member carried).1

theorem Admitted.creates_ungated {run : TableRun} (admitted : Admitted run) {entry : Entry}
    (member : entry ∈ run.entries) (creates : TableRun.creates entry) : entry.when = none := by
  refine admitted.ungated entry member ?_
  rw [TableRun.creates, Bool.or_eq_true, decide_eq_true_eq, decide_eq_true_eq] at creates
  rcases creates with strategy | strategy <;> rw [strategy] <;> decide

variable {engine : Engine V Ctx} {run : TableRun} {schema : Schema} {context : Ctx}
  {chunk other : Chunk V}

theorem adapterInput_carried {name : String} (inside : name ∈ (run.plan schema.names).carried)
    {column : Column V}
    (found : ((run.plan schema.names).adapterInput other).columns.find name = some column) :
    column = nulls V other.rows := by
  rw [((run.plan schema.names).adapterInput_spec other).2.2.2, if_pos inside] at found
  obtain ⟨_, _, rfl⟩ := Option.map_eq_some_iff.mp found
  rfl

theorem columns_alike (takes : Prop) (change : String → Column V → Except Failure (Column V))
    (agree : AgreeOutside schema (run.plan schema.names).carried chunk other)
    (blank : ∀ name rows, ∃ held, change name (nulls V rows) = .ok held) (names : List String)
    (taken : takes → ∀ name ∈ names, name ∈ (run.plan schema.names).carried → ∀ column,
      chunk.columns.find name = some column → ∃ held, change name column = .ok held) :
    Alike takes
      (Converted (run.plan schema.names).carried change chunk.columns.find
        ((run.plan schema.names).adapterInput other).columns.find)
      (convert change chunk.columns.find names Dict.empty)
      (convert change ((run.plan schema.names).adapterInput other).columns.find names
        Dict.empty) := by
  obtain ⟨_, _, _, find⟩ := (run.plan schema.names).adapterInput_spec other
  refine convert_alike change ?_ ?_ ?_ names taken ⟨rfl, fun _ _ => rfl, nofun, nofun⟩
  · intro name outside
    rw [find, if_neg outside]
    exact agree.columns name outside
  · intro name inside
    have named := mem_names_of_carried inside
    have left := mem_keys.mp (agree.chunkNames.symm ▸ named)
    have right := mem_keys.mp (agree.otherNames.symm ▸ named)
    rw [find, if_pos inside, Option.isSome_map, left, right]
  · intro name inside column found
    obtain ⟨held, ok⟩ := blank name other.rows
    exact ⟨held, adapterInput_carried inside found ▸ ok⟩

theorem ingest_alike (agree : AgreeOutside schema (run.plan schema.names).carried chunk other) :
    Alike (Takes engine run (run.plan schema.names).carried chunk)
      (fun full masked => Coupled engine (run.plan schema.names).carried
          (Takes engine run (run.plan schema.names).carried chunk) full masked ∧
        full.keys = run.frameColumns schema.names schema.index)
      (convert engine.ingest chunk.columns.find
        (run.frameColumns schema.names schema.index) Dict.empty)
      (convert engine.ingest ((run.plan schema.names).adapterInput other).columns.find
        (run.frameColumns schema.names schema.index) Dict.empty) := by
  have distinct : schema.names.Nodup := agree.chunkNames ▸ chunk.columns.distinct
  obtain ⟨once, within⟩ := frameColumns_within run schema.index distinct
  have converted := columns_alike (Takes engine run (run.plan schema.names).carried chunk)
    engine.ingest agree
    (fun name rows => (engine.placeholders name rows).imp fun held done => done.choose_spec.1)
    (run.frameColumns schema.names schema.index) (by
      intro takes name member inside column found
      rw [← agree.chunkNames, ← agree.chunkIndex] at member
      obtain ⟨held, _, ok, _⟩ := takes.columns name member inside column found
      exact ⟨held, ok⟩)
  cases done : convert engine.ingest chunk.columns.find
      (run.frameColumns schema.names schema.index) Dict.empty with
  | error failure =>
      rw [done] at converted
      exact converted
  | ok full =>
      rw [done] at converted
      obtain ⟨masked, ok, same⟩ := converted
      have keys : full.keys = run.frameColumns schema.names schema.index :=
        keys_convert
          (show ((Dict.empty : Frame V).keys ++ run.frameColumns schema.names schema.index).Nodup
            from once)
          (fun name member => mem_keys.mp (agree.chunkNames.symm ▸ within name member)) done
      refine ⟨masked, ok, ⟨same.keys, same.outside, ?_, ?_⟩, keys⟩
      · intro name inside held found
        obtain ⟨column, source, ingested⟩ := same.maskedFrom name held found
        obtain ⟨held', emitted, ok, emits⟩ := engine.placeholders name other.rows
        rw [adapterInput_carried inside source, ok] at ingested
        cases ingested
        exact ⟨emitted, emits⟩
      · intro takes name inside held found
        have member : name ∈ run.frameColumns chunk.columns.keys chunk.index := by
          rw [agree.chunkNames, agree.chunkIndex, ← keys, mem_keys, found]
          rfl
        obtain ⟨column, source, ingested⟩ := same.fullFrom name held found
        obtain ⟨held', emitted, ok, emits⟩ := takes.columns name member inside column source
        rw [ok] at ingested
        cases ingested
        exact ⟨emitted, emits⟩

theorem label_alike (agree : AgreeOutside schema (run.plan schema.names).carried chunk other) :
    Alike (Takes engine run (run.plan schema.names).carried chunk)
      (Converted (run.plan schema.names).carried engine.label chunk.columns.find
        ((run.plan schema.names).adapterInput other).columns.find)
      (convert engine.label chunk.columns.find schema.index.columns Dict.empty)
      (convert engine.label ((run.plan schema.names).adapterInput other).columns.find
        schema.index.columns Dict.empty) :=
  columns_alike _ engine.label agree engine.blankLabels schema.index.columns
    fun takes name member inside column found =>
      takes.labels name (agree.chunkIndex.symm ▸ member) inside column found

theorem emit_alike {carried : List String} {takes : Prop} {full masked : Frame V}
    (coupled : Coupled engine carried takes full masked) :
    Alike takes
      (fun outputs others => outputs.keys = others.keys ∧ outputs.keys = full.keys ∧
        ∀ name, name ∉ carried → outputs.find name = others.find name)
      (convert engine.emit full.find full.keys Dict.empty)
      (convert engine.emit masked.find masked.keys Dict.empty) := by
  have present : ∀ name, (full.find name).isSome = (masked.find name).isSome := by
    intro name
    rw [Bool.eq_iff_iff, ← mem_keys, ← mem_keys, coupled.keys]
  have converted : Alike takes (Converted carried engine.emit full.find masked.find)
      (convert engine.emit full.find full.keys Dict.empty)
      (convert engine.emit masked.find full.keys Dict.empty) :=
    convert_alike engine.emit coupled.outside (fun name _ => present name) coupled.emitted
      full.keys (fun holds name _ => coupled.taken holds name) ⟨rfl, fun _ _ => rfl, nofun, nofun⟩
  rw [← coupled.keys]
  cases done : convert engine.emit full.find full.keys Dict.empty with
  | error failure =>
      rw [done] at converted
      exact converted
  | ok outputs =>
      rw [done] at converted
      obtain ⟨others, ok, same⟩ := converted
      have keys := keys_convert
        (show ((Dict.empty : Frame V).keys ++ full.keys).Nodup from full.distinct)
        (fun name member => mem_keys.mp member) done
      exact ⟨others, ok, same.keys, keys, same.outside⟩

theorem setup_alike (agree : AgreeOutside schema (run.plan schema.names).carried chunk other)
    {labels otherLabels frame masked : Frame V}
    (labelled : Converted (run.plan schema.names).carried engine.label chunk.columns.find
      ((run.plan schema.names).adapterInput other).columns.find labels otherLabels)
    {takes : Prop}
    (coupled : Coupled engine (run.plan schema.names).carried takes frame masked) :
    SameSetup (run.plan schema.names).carried (setupOf run chunk labels frame)
      (setupOf run ((run.plan schema.names).adapterInput other) otherLabels masked) := by
  obtain ⟨rows, index, _, find⟩ := (run.plan schema.names).adapterInput_spec other
  refine ⟨agree.rows.trans rows.symm, ?_, ?_, ?_, fun name => labelled.outside name⟩
  · intro name outside
    exact (agree.columns name outside).trans ((find name).trans (if_neg outside)).symm
  · intro name outside
    simp only [setupOf, coupled.outside name outside]
  · exact agree.chunkIndex.trans (index.trans agree.otherIndex).symm

variable (engine context) in
theorem maskChunk_alike (admitted : Admitted run) (unhidden : ¬ HasHiddenRead run schema)
    (agree : AgreeOutside schema (run.plan schema.names).carried chunk other) :
    Alike (Takes engine run (run.plan schema.names).carried chunk)
      (fun full masked => full.outputs.keys = masked.outputs.keys ∧
        (∀ name ∈ run.frameColumns schema.names schema.index, name ∈ masked.outputs.keys) ∧
        full.rowErrors = masked.rowErrors ∧
        ∀ name, name ∉ (run.plan schema.names).carried →
          full.outputs.find name = masked.outputs.find name)
      (maskChunk engine run context chunk)
      (maskChunk engine run context ((run.plan schema.names).adapterInput other)) := by
  obtain ⟨_, index, keys, _⟩ := (run.plan schema.names).adapterInput_spec other
  rw [maskChunk, maskChunk, agree.chunkIndex, index, agree.otherIndex, agree.chunkNames, keys,
    agree.otherNames]
  refine (label_alike agree).bind ?_
  intro labels otherLabels labelled
  refine (ingest_alike agree).bind ?_
  rintro frame masked ⟨coupled, keys⟩
  cases ordered : run.nodes with
  | error failure => exact fun _ => rfl
  | ok nodes =>
      have setup := setup_alike agree labelled coupled
      have indexed : (setupOf run chunk labels frame).index = schema.index := agree.chunkIndex
      have ungated : ∀ entry ∈ nodes, TableRun.creates entry → entry.when = none :=
        fun entry member creates =>
          admitted.creates_ungated (mem_entries_of_mem_nodes ordered member) creates
      have alike : Alike (Takes engine run (run.plan schema.names).carried chunk)
          (CoupledState engine (run.plan schema.names).carried
            (Takes engine run (run.plan schema.names).carried chunk))
          (runNodes engine run (setupOf run chunk labels frame) nodes ⟨frame, context, []⟩)
          (runNodes engine run
            (setupOf run ((run.plan schema.names).adapterInput other) otherLabels masked) nodes
            ⟨masked, context, []⟩) :=
        runNodes_alike setup ⟨coupled, rfl, rfl⟩ (none_overwritten run schema.names nodes ordered)
          ungated
          (fun entry member keys => (reads_carried_iff admitted ordered member _ keys).mp)
          (fun hidden => unhidden ⟨nodes, ordered, keys ▸ indexed ▸ hidden⟩)
      change Alike _ _ (Except.bind (runNodes engine run _ nodes _) _)
        (Except.bind (runNodes engine run _ nodes _) _)
      cases done : runNodes engine run (setupOf run chunk labels frame) nodes
          ⟨frame, context, []⟩ with
      | error failure =>
          rw [done] at alike
          intro takes
          rw [alike takes]
          rfl
      | ok state =>
          rw [done] at alike
          obtain ⟨other', otherDone, same⟩ := alike
          have kept : ∀ name ∈ run.frameColumns schema.names schema.index,
              name ∈ state.frame.keys := fun name member =>
            mem_keys_runNodes ungated done (keys.symm ▸ member)
          rw [otherDone]
          change Alike _ _ (Except.bind (engine.projection state.frame.keys) _)
            (Except.bind (engine.projection other'.frame.keys) _)
          rw [← same.frame.keys]
          refine (Alike.same _ (engine.projection state.frame.keys)).bind ?_
          rintro _ _ rfl
          have emitted := emit_alike same.frame
          rw [← same.frame.keys] at emitted
          refine emitted.map ?_
          rintro outputs others ⟨keysSame, keysFull, outside⟩
          refine ⟨keysSame, fun name member => ?_, same.rowErrors, outside⟩
          rw [← keysSame, keysFull]
          exact kept name member

theorem carryIsSafe_of_unhidden (admitted : Admitted run)
    (unhidden : ¬ HasHiddenRead run schema) : CarryIsSafe run schema := by
  refine ⟨?_, none_overwritten run schema.names⟩
  intro V Ctx engine context chunk other agree
  have alike := maskChunk_alike engine context admitted unhidden agree
  cases full : maskChunk engine run context chunk with
  | error failure =>
      rw [full] at alike
      constructor
      · intro masked ok
        rw [full] at ok
        cases ok
      · intro failure' same takes
        rw [full] at same
        cases same
        rw [maskCarried, alike takes]
        rfl
  | ok masked =>
      rw [full] at alike
      obtain ⟨produced, ok, keys, present, rowErrors, outside⟩ := alike
      constructor
      · intro masked' same
        rw [full] at same
        cases same
        obtain ⟨keysBack, find⟩ := (run.plan schema.names).reattach_spec produced.outputs other
        have carried : maskCarried engine run (run.plan schema.names) context other =
            .ok { produced with
              outputs := (run.plan schema.names).reattach produced.outputs other } := by
          rw [maskCarried, ok]
          rfl
        refine ⟨_, carried, keysBack.trans keys.symm, ?_, rowErrors.symm, ?_, ?_⟩
        · intro name absent
          exact (find name).trans
            ((if_neg fun all => absent all.1).trans (outside name absent).symm)
        · intro name member
          rw [agree.otherNames, agree.otherIndex] at member
          exact keysBack.symm ▸ present name member
        · intro name inside shown
          exact (find name).trans (if_pos ⟨inside, keysBack ▸ shown,
            mem_keys.mp (agree.otherNames.symm ▸ mem_names_of_carried inside)⟩)
      · intro failure same
        rw [full] at same
        cases same

end Law

end DecoyEngine.Execution.Carry
