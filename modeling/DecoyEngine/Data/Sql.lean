import Mathlib.Data.List.Sort
import Mathlib.Data.List.Dedup
import Mathlib.Data.List.Induction
import Mathlib.Order.Nat

namespace DecoyEngine.Data.Sql

/-! The standard meaning of the queries over keyed rows.  A result is a bag: the order in which
an engine returns it is a `RowOrder`, and `ORDER BY` fixes it. -/

structure RowOrder where
  arrange : {α : Type} → List α → List α
  perm : ∀ {α : Type} (rows : List α), (arrange rows).Perm rows

variable {α β κ : Type} [DecidableEq κ]

/-- `SELECT key, aggregate(number) ... GROUP BY key`. -/
def groupBy (aggregate : List Nat → Nat) (key : α → κ) (number : α → Nat) (rows : List α) :
    List (κ × Nat) :=
  (rows.map key).dedup.map fun group =>
    (group, aggregate ((rows.filter fun row => key row = group).map number))

def maximum (numbers : List Nat) : Nat := numbers.max?.getD 0

def minimum (numbers : List Nat) : Nat := numbers.min?.getD 0

/-- `left JOIN right ON ...`. -/
def innerJoin (on : α → β → Bool) (left : List α) (right : List β) : List (α × β) :=
  left.flatMap fun row => (right.filter (on row)).map fun other => (row, other)

/-- `left LEFT JOIN right ON left.key = right.key`; a null key matches nothing. -/
def leftJoin (leftKey : α → Option κ) (rightKey : β → κ) (left : List α) (right : List β) :
    List (α × Option β) :=
  left.flatMap fun row =>
    let matching := right.filter fun other => leftKey row = some (rightKey other)
    if matching.isEmpty then [(row, none)] else matching.map fun other => (row, some other)

/-- `ORDER BY number`. -/
def orderBy (number : α → Nat) (rows : List α) : List α :=
  rows.insertionSort fun left right => number left ≤ number right

section Groups

variable {aggregate : List Nat → Nat} {key : α → κ} {number : α → Nat} {rows : List α}

theorem length_filter_groupBy {row : α} (member : row ∈ rows) {winners : List (κ × Nat)}
    (perm : winners.Perm (groupBy aggregate key number rows)) :
    (winners.filter fun winner => key row = winner.1 && number row = winner.2).length =
      if number row = aggregate ((rows.filter fun other => key other = key row).map number)
        then 1 else 0 := by
  have inKeys : key row ∈ (rows.map key).dedup := List.mem_dedup.mpr (List.mem_map_of_mem member)
  have once : ((rows.map key).dedup.filter fun group => key row = group).length = 1 := by
    rw [← List.countP_eq_length_filter]
    have counted := List.count_eq_one_of_mem (List.nodup_dedup (rows.map key)) inKeys
    rw [List.count_eq_countP] at counted
    rw [← counted]
    apply List.countP_congr
    intro group _
    rw [decide_eq_true_eq, beq_iff_eq]
    exact eq_comm
  rw [(perm.filter _).length_eq, groupBy, List.filter_map, List.length_map]
  split
  · rename_i own
    rw [← once]
    congr 1
    apply List.filter_congr
    intro group _
    by_cases isGroup : key row = group
    · simp only [Function.comp_apply, ← isGroup, own, decide_true, Bool.and_self]
    · simp [isGroup]
  · rename_i other
    rw [List.length_eq_zero_iff, List.filter_eq_nil_iff]
    intro group _
    by_cases isGroup : key row = group
    · rw [← isGroup]
      simpa using other
    · simp [isGroup]

theorem innerJoin_groupBy {winners : List (κ × Nat)}
    (perm : winners.Perm (groupBy aggregate key number rows)) :
    (innerJoin (fun row winner => key row = winner.1 && number row = winner.2) rows
      winners).map Prod.fst = rows.filter fun row =>
        number row = aggregate ((rows.filter fun other => key other = key row).map number) := by
  have each : ∀ part : List α, (∀ row ∈ part, row ∈ rows) →
      (innerJoin (fun row winner => key row = winner.1 && number row = winner.2) part
        winners).map Prod.fst = part.filter fun row =>
          number row = aggregate ((rows.filter fun other => key other = key row).map number) := by
    intro part inside
    induction part with
    | nil => rfl
    | cons row part ih =>
        have rest := ih fun other member => inside other (List.mem_cons_of_mem _ member)
        have single := length_filter_groupBy (inside row List.mem_cons_self) perm
        rw [innerJoin, List.flatMap_cons, List.map_append, List.map_map]
        rw [innerJoin] at rest
        rw [rest, List.filter_cons]
        have constant : (winners.filter fun winner =>
            key row = winner.1 && number row = winner.2).map
            (Prod.fst ∘ fun other => (row, other)) =
            List.replicate (winners.filter fun winner =>
              key row = winner.1 && number row = winner.2).length row := by
          rw [← List.map_const']
          rfl
        rw [constant, single]
        split <;> simp_all
  exact each rows fun _ member => member

/-- The rows of one key that are left: those with the number of the key's group. -/
theorem filter_innerJoin_groupBy {winners : List (κ × Nat)}
    (perm : winners.Perm (groupBy aggregate key number rows)) (group : κ) :
    (((innerJoin (fun row winner => key row = winner.1 && number row = winner.2) rows
        winners).map Prod.fst).filter fun row => key row = group) =
      (rows.filter fun row => key row = group).filter fun row =>
        number row = aggregate ((rows.filter fun row => key row = group).map number) := by
  rw [innerJoin_groupBy perm, List.filter_filter, List.filter_filter]
  apply List.filter_congr
  intro row _
  by_cases isGroup : key row = group
  · rw [← isGroup]
    simp [Bool.and_comm]
  · simp [isGroup]

theorem groupBy_perm (invariant : ∀ {left right : List Nat}, left.Perm right →
      aggregate left = aggregate right) {shuffled : List α} (perm : shuffled.Perm rows) :
    (groupBy aggregate key number shuffled).Perm (groupBy aggregate key number rows) := by
  have same : ∀ group,
      aggregate ((shuffled.filter fun row => key row = group).map number) =
        aggregate ((rows.filter fun row => key row = group).map number) := fun group =>
    invariant ((perm.filter _).map number)
  simp only [groupBy, same]
  exact ((perm.map key).dedup).map _

theorem innerJoin_perm {on : α → β → Bool} {left shuffled : List α} (perm : shuffled.Perm left)
    (right : List β) : (innerJoin on shuffled right).Perm (innerJoin on left right) :=
  perm.flatMap_right _

/-- Stage, group, join back, project: the rows of one key, whatever order the engine works in. -/
theorem perm_filter_groupBy (order : RowOrder) (key : α → κ) (number : α → Nat)
    (invariant : ∀ {left right : List Nat}, left.Perm right → aggregate left = aggregate right)
    {staged : List α} (perm : staged.Perm rows) {γ : Type} (project : α → γ) (keyOf : γ → κ)
    (keyed : ∀ row, keyOf (project row) = key row) (group : κ) :
    ((order.arrange ((innerJoin (fun row winner => key row = winner.1 && number row = winner.2)
        staged (order.arrange (groupBy aggregate key number staged))).map
          fun pair => project pair.1)).filter fun row => keyOf row = group).Perm
      (((rows.filter fun row => key row = group).filter fun row =>
        number row = aggregate ((rows.filter fun row => key row = group).map number)).map
          project) := by
  have winnersPerm := (order.perm (groupBy aggregate key number staged)).trans
    (groupBy_perm invariant perm)
  have projected : ∀ pairs : List (α × (κ × Nat)),
      (pairs.map fun pair => project pair.1).filter (fun row => keyOf row = group) =
        ((pairs.map Prod.fst).filter fun row => key row = group).map project := by
    intro pairs
    rw [List.filter_map, List.filter_map, List.map_map]
    simp only [Function.comp_def, keyed]
  apply ((order.perm _).filter _).trans
  apply (((innerJoin_perm perm _).map _).filter _).trans
  rw [projected, filter_innerJoin_groupBy winnersPerm]

end Groups

theorem eq_toList_of_perm {rows : List α} {row : Option α} (perm : rows.Perm row.toList) :
    rows = row.toList := by
  cases row with
  | none => exact perm.eq_nil
  | some row => exact perm.eq_singleton

section Latest

variable {key : α → κ} {number : α → Nat} {rows : List α}

theorem find_reverse_eq_getLast (p : α → Bool) (rows : List α) :
    rows.reverse.find? p = (rows.filter p).getLast? := by
  rw [← List.head?_filter, List.filter_reverse, List.head?_reverse]

theorem maximum_perm {left right : List Nat} (perm : left.Perm right) :
    maximum left = maximum right := by
  rw [maximum, maximum]
  congr 1
  cases isMax : right.max? with
  | none =>
      rw [List.max?_eq_none_iff] at isMax ⊢
      rw [isMax] at perm
      exact perm.eq_nil
  | some greatest =>
      rw [List.max?_eq_some_iff] at isMax ⊢
      exact ⟨perm.mem_iff.mpr isMax.1, fun other member => isMax.2 other (perm.mem_iff.mp member)⟩

theorem minimum_perm {left right : List Nat} (perm : left.Perm right) :
    minimum left = minimum right := by
  rw [minimum, minimum]
  congr 1
  cases isMin : right.min? with
  | none =>
      rw [List.min?_eq_none_iff] at isMin ⊢
      rw [isMin] at perm
      exact perm.eq_nil
  | some least =>
      rw [List.min?_eq_some_iff] at isMin ⊢
      exact ⟨perm.mem_iff.mpr isMin.1, fun other member => isMin.2 other (perm.mem_iff.mp member)⟩

theorem filter_maximum_eq_last
    (ascending : rows.Pairwise fun left right => number left < number right) :
    rows.filter (fun row => number row = maximum (rows.map number)) = rows.getLast?.toList := by
  induction rows using List.reverseRecOn with
  | nil => rfl
  | append_singleton earlier last _ =>
      have below : ∀ row ∈ earlier, number row < number last := by
        intro row member
        exact (List.pairwise_append.mp ascending).2.2 row member last List.mem_cons_self
      have greatest : ((earlier ++ [last]).map number).max? = some (number last) := by
        rw [List.max?_eq_some_iff]
        constructor
        · simp
        · intro other member
          obtain ⟨row, inRows, isNumber⟩ := List.mem_map.mp member
          rw [← isNumber]
          cases List.mem_append.mp inRows with
          | inl earlier' => exact Nat.le_of_lt (below row earlier')
          | inr isLast => rw [List.mem_singleton.mp isLast]
      have none' : earlier.filter (fun row => number row = number last) = [] := by
        apply List.filter_eq_nil_iff.mpr
        intro row member
        simpa using Nat.ne_of_lt (below row member)
      rw [maximum, greatest, Option.getD_some, List.filter_append, none', List.getLast?_concat]
      simp

theorem filter_minimum_eq_first
    (ascending : rows.Pairwise fun left right => number left < number right) :
    rows.filter (fun row => number row = minimum (rows.map number)) = rows.head?.toList := by
  cases rows with
  | nil => rfl
  | cons first later =>
      have above := (List.pairwise_cons.mp ascending).1
      have least : ((first :: later).map number).min? = some (number first) := by
        rw [List.min?_eq_some_iff]
        constructor
        · simp
        · intro other member
          obtain ⟨row, inRows, isNumber⟩ := List.mem_map.mp member
          rw [← isNumber]
          cases List.mem_cons.mp inRows with
          | inl isFirst => rw [isFirst]
          | inr inLater => exact Nat.le_of_lt (above row inLater)
      have none' : later.filter (fun row => number row = number first) = [] := by
        apply List.filter_eq_nil_iff.mpr
        intro row member
        simpa using Nat.ne_of_gt (above row member)
      rw [minimum, least, Option.getD_some, List.filter_cons, none']
      simp

end Latest

/-- Against a right side with at most one row for each key, a left join is a lookup. -/
theorem leftJoin_eq_map {leftKey : α → Option κ} {rightKey : β → κ} {right : List β}
    {lookup : κ → Option β}
    (unique : ∀ key, (right.filter fun other => rightKey other = key) = (lookup key).toList)
    (left : List α) :
    leftJoin leftKey rightKey left right =
      left.map fun row => (row, (leftKey row).bind lookup) := by
  induction left with
  | nil => rfl
  | cons row left ih =>
      rw [leftJoin] at ih ⊢
      rw [List.flatMap_cons, ih, List.map_cons]
      cases isKey : leftKey row with
      | none => simp
      | some key =>
          have matching : (right.filter fun other => some key = some (rightKey other)) =
              (lookup key).toList := by
            rw [← unique key]
            apply List.filter_congr
            intro other _
            simp only [Option.some.injEq, decide_eq_decide]
            exact eq_comm
          simp only [matching, Option.bind_some]
          cases lookup key <;> rfl

theorem orderBy_perm (number : α → Nat) (rows : List α) : (orderBy number rows).Perm rows :=
  List.perm_insertionSort _ rows

theorem orderBy_eq_of_perm {number : α → Nat} {rows shuffled : List α}
    (perm : shuffled.Perm rows)
    (ascending : rows.Pairwise fun left right => number left < number right) :
    orderBy number shuffled = rows := by
  have total : Std.Total fun left right : α => number left ≤ number right :=
    ⟨fun left right => Nat.le_total (number left) (number right)⟩
  have transitive : IsTrans α fun left right => number left ≤ number right :=
    ⟨fun _ _ _ first second => Nat.le_trans first second⟩
  have sorted : (orderBy number shuffled).Pairwise fun left right => number left ≤ number right :=
    List.pairwise_insertionSort _ shuffled
  have ordered : rows.Pairwise fun left right => number left ≤ number right :=
    ascending.imp fun less => Nat.le_of_lt less
  have distinct : (rows.map number).Nodup := by
    rw [List.Nodup, List.pairwise_map]
    exact ascending.imp fun less => Nat.ne_of_lt less
  have arranged := (orderBy_perm number shuffled).trans perm
  apply List.Perm.eq_of_pairwise _ sorted ordered arranged
  intro left right leftMember rightMember below above
  exact List.inj_on_of_nodup_map distinct (arranged.subset leftMember) rightMember
    (Nat.le_antisymm below above)

end DecoyEngine.Data.Sql
