import DecoyEngine.Execution.Nested

namespace DecoyEngine.Execution.Nested

open DecoyEngine.Data
open scoped List

/-! The order of the matches of one cell, and what their writes come to. -/

theorem length_splitDots (text : List Char) :
    (splitDots text).length = text.count '.' + 1 := by
  induction text with
  | nil => rfl
  | cons ch rest ih =>
      by_cases dot : ch = '.'
      · subst dot
        simp only [splitDots, List.length_cons, ih, List.count_cons_self]
      · rw [List.count_cons_of_ne dot, ← ih]
        cases parts : splitDots rest with
        | nil => rw [parts] at ih; cases ih
        | cons part others => simp [splitDots, parts]

theorem count_dropWhile_space (text : List Char) :
    (text.dropWhile isSpace).count '.' = text.count '.' := by
  induction text with
  | nil => rfl
  | cons ch rest ih =>
      rw [List.dropWhile_cons]
      split
      · rename_i space
        have apart : ch ≠ '.' := by
          rintro rfl
          revert space
          decide
        rw [ih, List.count_cons_of_ne apart]
      · rfl

theorem count_strip (text : List Char) : (strip text).count '.' = text.count '.' := by
  rw [strip, List.count_reverse, count_dropWhile_space, List.count_reverse,
    count_dropWhile_space]

theorem count_unwrapped {text : List Char} (opens : text.head? = some '(')
    (closes : text.getLast? = some ')') : ((text.drop 1).dropLast).count '.' = text.count '.' := by
  cases text with
  | nil => cases opens
  | cons first rest =>
      cases opens
      rcases List.eq_nil_or_concat rest with rfl | ⟨inner, last, rfl⟩
      · cases closes
      · have ends : last = ')' := by
          rw [List.concat_eq_append, ← List.cons_append, List.getLast?_concat] at closes
          exact Option.some.inj closes
        subst ends
        simp

variable (target : Target)

theorem depth_eq (path : Path) : depth target path = (target.printed path).count '.' + 1 := by
  rw [depth, pathSegments]
  split
  · rename_i wrapped
    rw [length_splitDots, count_unwrapped wrapped.1 wrapped.2, count_strip]
  · rw [length_splitDots, count_strip]

theorem depth_root : depth target [] = 1 := by rw [depth_eq, target.printed_root]

theorem depth_lt {outer path : Path} (nonroot : outer ≠ []) (inside : outer <+: path)
    (proper : outer ≠ path) : depth target outer < depth target path := by
  obtain ⟨rest, rfl⟩ := inside
  rw [depth_eq, depth_eq]
  induction rest using List.reverseRecOn with
  | nil => exact absurd (List.append_nil _).symm proper
  | append_singleton rest segment ih =>
      have longer : outer ++ rest ≠ [] := fun empty => nonroot (List.append_eq_nil_iff.mp empty).1
      have step := target.printed_child (outer ++ rest) segment longer
      rw [← List.append_assoc]
      by_cases last : rest = []
      · subst last
        rw [List.append_nil] at step ⊢
        omega
      · have before := ih fun same => last (List.append_right_eq_self.mp same.symm)
        omega

section Pairs

variable {α : Type} {first second : α} {items : List α}

theorem pair_sublist_or (firstIn : first ∈ items) (secondIn : second ∈ items)
    (differ : first ≠ second) : [first, second] <+ items ∨ [second, first] <+ items := by
  induction items with
  | nil => cases firstIn
  | cons item rest ih =>
      rcases List.mem_cons.mp firstIn with rfl | firstRest
      · have secondRest := List.mem_of_ne_of_mem (Ne.symm differ) secondIn
        exact .inl ((List.singleton_sublist.mpr secondRest).cons_cons _)
      · rcases List.mem_cons.mp secondIn with rfl | secondRest
        · exact .inr ((List.singleton_sublist.mpr firstRest).cons_cons _)
        · exact (ih firstRest secondRest).imp (·.cons _) (·.cons _)

theorem not_both_orders (distinct : items.Nodup) (forward : [first, second] <+ items)
    (backward : [second, first] <+ items) : False := by
  induction items with
  | nil => cases forward
  | cons item rest ih =>
      obtain ⟨fresh, restDistinct⟩ := List.nodup_cons.mp distinct
      cases forward with
      | cons _ forward =>
          cases backward with
          | cons _ backward => exact ih restDistinct forward backward
          | cons_cons _ backward => exact fresh (forward.subset (by simp))
      | cons_cons _ forward =>
          cases backward with
          | cons _ backward => exact fresh (backward.subset (by simp))
          | cons_cons _ backward => exact fresh (forward.subset (by simp))

end Pairs

theorem mem_orderDeepestFirst {path : Path} {paths : List Path} :
    path ∈ orderDeepestFirst target paths ↔ path ∈ paths := List.mem_insertionSort _

theorem orderDeepestFirst_nodup {paths : List Path} (distinct : paths.Nodup) :
    (orderDeepestFirst target paths).Nodup :=
  (List.perm_insertionSort _ paths).nodup_iff.mpr distinct

theorem orderDeepestFirst_sorted (paths : List Path) :
    (orderDeepestFirst target paths).Pairwise
      fun left right => depth target right ≤ depth target left := by
  have total : Std.Total fun left right : Path => depth target right ≤ depth target left :=
    ⟨fun left right => Nat.le_total _ _⟩
  have transitive : IsTrans Path fun left right => depth target right ≤ depth target left :=
    ⟨fun _ _ _ first second => Nat.le_trans second first⟩
  exact List.pairwise_insertionSort _ paths

/-- No match is written after one that contains it, but for a top-level one after the root. -/
theorem orderDeepestFirst_inner_first {paths : List Path} (distinct : paths.Nodup)
    (rootLast : ∀ path, [[], path] <+ paths → depth target path ≠ 1) :
    (orderDeepestFirst target paths).Pairwise fun left right => ¬left <+: right := by
  rw [List.pairwise_iff_forall_sublist]
  intro left right both inside
  have ordered := orderDeepestFirst_nodup target distinct
  have differ : left ≠ right := by
    rintro rfl
    exact (List.pairwise_iff_forall_sublist.mp ordered) both rfl
  have shallower : depth target right ≤ depth target left :=
    List.pairwise_iff_forall_sublist.mp (orderDeepestFirst_sorted target paths) both
  by_cases root : left = []
  · subst root
    rw [depth_root] at shallower
    have top : depth target right = 1 := by
      rw [depth_eq] at shallower ⊢
      omega
    have leftIn : ([] : Path) ∈ paths :=
      (mem_orderDeepestFirst target).mp (both.subset (by simp))
    have rightIn : right ∈ paths := (mem_orderDeepestFirst target).mp (both.subset (by simp))
    rcases pair_sublist_or leftIn rightIn differ with forward | backward
    · exact rootLast right forward top
    · have kept : [right, []] <+ orderDeepestFirst target paths :=
        List.pair_sublist_insertionSort (by rw [depth_root, top]) backward
      exact not_both_orders ordered both kept
  · have deeper := depth_lt target root inside differ
    omega

/-- The value that stands at a leaf's position after its write. -/
def New.given (leaf : Json) : New → Json
  | .same => leaf
  | .value replacement => replacement

section Writes

variable {value object : Json} {document : Document} {path other : Path} {new : New}
  {column : String}

theorem write_apart (apart : Json.Apart path other) :
    (document.write path new).parsed.get other = document.parsed.get other := by
  obtain ⟨object, rebound⟩ := document
  cases path with
  | nil => exact absurd List.nil_prefix apart.1
  | cons segment rest =>
      cases new <;> cases rebound
      · rfl
      · exact Json.get_set_apart apart
      · exact Json.get_set_apart apart
      · exact Json.get_set_apart apart

theorem not_corrupt {root : Json} (present : (root.get path).isSome) :
    writebackWouldCorrupt path root = false := by
  rcases List.eq_nil_or_concat path with rfl | ⟨outer, segment, rfl⟩
  · rfl
  · rw [List.concat_eq_append] at present ⊢
    rw [Json.get_append] at present
    rw [writebackWouldCorrupt, List.getLast?_concat, List.dropLast_concat]
    cases parent : root.get outer with
    | none => rw [parent] at present; cases present
    | some held =>
        rw [parent] at present
        cases segment <;> cases held <;> first | rfl | cases present

theorem writeBack_append (document : Document) (first second : List (Path × New)) :
    writeBack column document (first ++ second) =
      (writeBack column document first).bind fun document =>
        writeBack column document second := by
  induction first generalizing document with
  | nil => rfl
  | cons entry first ih =>
      obtain ⟨path, new⟩ := entry
      simp only [List.cons_append, writeBack]
      split
      · rfl
      · exact ih _

/-- A null that stays one. -/
def Silent (value : Json) (entry : Path × New) : Prop :=
  value.get entry.1 = some .null ∧ entry.2.given .null = .null

/-- Writes in an order in which each still finds its leaf. -/
structure Writable (value : Json) (entries : List (Path × New)) : Prop where
  present : ∀ entry ∈ entries, (value.get entry.1).isSome
  ordered : entries.Pairwise fun left right => ¬left.1 <+: right.1
  inner : ∀ outer ∈ entries, ∀ entry ∈ entries, outer.1 <+: entry.1 → outer.1 ≠ entry.1 →
    Silent value entry

/-- What the writes make of a document. -/
structure Written (value : Json) (entries : List (Path × New)) (result : Json) : Prop where
  outermost : ∀ entry ∈ entries,
    (∀ outer ∈ entries, outer.1 <+: entry.1 → outer.1 = entry.1) →
    result.get entry.1 = some (entry.2.given (leafAt value entry.1))
  outlines : ∀ path, (∀ entry ∈ entries, ¬entry.1 <+: path) →
    (result.get path).map Json.outline = (value.get path).map Json.outline

/-- Between two writes also: only what is near a write has changed. -/
structure Progress (value : Json) (entries : List (Path × New)) (object : Json) : Prop
    extends Written value entries object where
  untouched : ∀ path, (∀ entry ∈ entries, ¬Silent value entry → Json.Apart entry.1 path) →
    object.get path = value.get path

theorem leafAt_eq {leaf : Json} (here : value.get path = some leaf) :
    leafAt value path = leaf := by
  rw [leafAt, here]
  rfl

variable {entries written rest : List (Path × New)}

theorem write_object (nonroot : path ≠ []) (here : object.get path = value.get path)
    (present : (value.get path).isSome) :
    (⟨object, none⟩ : Document).write path new =
      ⟨object.set path (new.given (leafAt value path)), none⟩ := by
  obtain ⟨leaf, found⟩ := Option.isSome_iff_exists.mp present
  rw [leafAt_eq found]
  rw [found] at here
  cases path with
  | nil => exact absurd rfl nonroot
  | cons segment rest =>
      cases new with
      | same =>
          change (⟨object, none⟩ : Document) = ⟨object.set (segment :: rest) leaf, none⟩
          rw [Json.set_get here]
      | value replacement => rfl

variable (new) in
theorem Progress.set (progress : Progress value written object)
    (present : (object.get path).isSome) (here : object.get path = value.get path)
    (outside : ∀ entry ∈ written, ¬entry.1 <+: path) :
    Progress value (written ++ [(path, new)])
      (object.set path (new.given (leafAt value path))) where
  outermost := by
    intro entry member topmost
    rcases List.mem_append.mp member with earlier | last
    · have above := topmost (path, new) (by simp)
      have apart : Json.Apart path entry.1 := by
        refine ⟨fun inside => outside entry earlier ?_, outside entry earlier⟩
        rw [← above inside]
      rw [Json.get_set_apart apart]
      exact progress.outermost entry earlier fun outer among =>
        topmost outer (List.mem_append_left _ among)
    · rw [List.mem_singleton.mp last]
      exact Json.get_set_self present
  outlines := by
    intro place clear
    have here : ¬path <+: place := clear (path, new) (by simp)
    have before := progress.outlines place fun entry member =>
      clear entry (List.mem_append_left _ member)
    by_cases above : place <+: path
    · have proper : place ≠ path := by
        rintro rfl
        exact here above
      rw [Json.outline_set_inside above proper, before]
    · rw [Json.get_set_apart ⟨here, above⟩, before]
  untouched := by
    intro place apart
    have before := progress.untouched place fun entry member =>
      apart entry (List.mem_append_left _ member)
    by_cases silent : Silent value (path, new)
    · rw [leafAt_eq silent.1, silent.2, Json.set_get (here.trans silent.1)]
      exact before
    · rw [Json.get_set_apart (apart (path, new) (by simp) silent), before]

variable (column) in
theorem writeBack_progress (progress : Progress value written object)
    (writable : Writable value (written ++ rest)) (nonroot : ∀ entry ∈ rest, entry.1 ≠ []) :
    ∃ result, writeBack column ⟨object, none⟩ rest = .ok ⟨result, none⟩ ∧
      Progress value (written ++ rest) result := by
  induction rest generalizing written object with
  | nil => exact ⟨object, rfl, by rwa [List.append_nil]⟩
  | cons entry rest ih =>
      obtain ⟨path, new⟩ := entry
      have member : (path, new) ∈ written ++ (path, new) :: rest := by simp
      have outside : ∀ entry ∈ written, ¬entry.1 <+: path := fun entry earlier =>
        (List.pairwise_append.mp writable.ordered).2.2 entry earlier (path, new) (by simp)
      have here : object.get path = value.get path := by
        refine progress.untouched path fun entry earlier loud => ⟨outside entry earlier, ?_⟩
        intro inside
        have among := List.mem_append_left ((path, new) :: rest) earlier
        by_cases same : path = entry.1
        · exact outside entry earlier (by rw [← same])
        · exact loud (writable.inner (path, new) member entry among inside same)
      have present := writable.present (path, new) member
      have held : (object.get path).isSome := by rw [here]; exact present
      have next := progress.set new held here outside
      rw [← List.singleton_append, ← List.append_assoc] at writable
      obtain ⟨result, written', after⟩ := ih next writable fun entry later =>
        nonroot entry (List.mem_cons_of_mem _ later)
      rw [List.append_assoc, List.singleton_append] at after
      refine ⟨result, ?_, after⟩
      rw [writeBack, if_neg, write_object (nonroot (path, new) (by simp)) here present]
      · exact written'
      · rw [Bool.not_eq_true]
        exact not_corrupt held

variable (column) in
theorem writeBack_spec (writable : Writable value entries) :
    ∃ document, writeBack column ⟨value, none⟩ entries = .ok document ∧
      Written value entries document.parsed := by
  have start : Progress value [] value :=
    ⟨⟨fun _ member => (List.not_mem_nil member).elim, fun _ _ => rfl⟩, fun _ _ => rfl⟩
  by_cases root : ∃ new, (([] : Path), new) ∈ entries
  · obtain ⟨new, member⟩ := root
    obtain ⟨front, back, rfl⟩ := List.append_of_mem member
    obtain ⟨-, tail, cross⟩ := List.pairwise_append.mp writable.ordered
    cases back with
    | cons entry back =>
        exact absurd List.nil_prefix ((List.pairwise_cons.mp tail).1 entry (by simp))
    | nil =>
        have nonroot : ∀ entry ∈ front, entry.1 ≠ [] := by
          intro entry earlier empty
          exact cross entry earlier ([], new) (by simp) (by rw [empty])
        have among : ∀ entry ∈ front, entry ∈ front ++ [(([] : Path), new)] :=
          fun entry => List.mem_append_left _
        have frontWritable : Writable value ([] ++ front) :=
          ⟨fun entry earlier => writable.present entry (among entry earlier),
            (List.pairwise_append.mp writable.ordered).1,
            fun outer outerIn entry entryIn =>
              writable.inner outer (among outer outerIn) entry (among entry entryIn)⟩
        obtain ⟨object, done, progress⟩ :=
          writeBack_progress column start frontWritable nonroot
        have unchanged : object = value := by
          refine Option.some.inj (progress.untouched [] fun entry earlier loud => ?_)
          exact absurd (writable.inner _ member entry (among entry earlier) List.nil_prefix
            (Ne.symm (nonroot entry earlier))) loud
        refine ⟨(⟨object, none⟩ : Document).write [] new, ?_, ?_, ?_⟩
        · rw [writeBack_append, done]
          rfl
        · intro entry entryIn topmost
          have empty := topmost _ member List.nil_prefix
          have last : entry = ([], new) := by
            rcases List.mem_append.mp entryIn with earlier | last
            · exact absurd empty.symm (nonroot entry earlier)
            · exact List.mem_singleton.mp last
          subst last
          subst unchanged
          cases new <;> rfl
        · intro path clear
          exact absurd List.nil_prefix (clear _ member)
  · have nonroot : ∀ entry ∈ entries, entry.1 ≠ [] := by
      rintro ⟨path, new⟩ member rfl
      exact root ⟨new, member⟩
    obtain ⟨object, done, progress⟩ :=
      writeBack_progress column start writable nonroot
    exact ⟨_, done, progress.toWritten⟩

end Writes

end DecoyEngine.Execution.Nested
