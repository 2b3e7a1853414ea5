import Mathlib.Data.List.Infix

namespace DecoyEngine.Data

/-! Splitting a text at a separator. -/

variable {α : Type u} [DecidableEq α]

/-- `text.partition(needle)`: what stands before and after the first occurrence. -/
def partitionText (needle : List α) : List α → Option (List α × List α)
  | [] => if needle = [] then some ([], []) else none
  | first :: rest =>
      if needle <+: first :: rest then some ([], (first :: rest).drop needle.length)
      else (partitionText needle rest).map fun parts => (first :: parts.1, parts.2)

variable {needle : List α}

theorem partitionText_eq_none {text : List α} (nonempty : needle ≠ []) :
    partitionText needle text = none ↔ ¬ needle <:+: text := by
  induction text with
  | nil =>
      rw [partitionText, if_neg nonempty, List.infix_nil]
      exact iff_of_true rfl nonempty
  | cons first rest ih =>
      rw [partitionText, List.infix_cons_iff, not_or]
      by_cases here : needle <+: first :: rest
      · rw [if_pos here]
        exact iff_of_false nofun fun both => both.1 here
      · rw [if_neg here, Option.map_eq_none_iff, ih]
        exact (and_iff_right here).symm

theorem partitionText_eq_some {text before after : List α} (nonempty : needle ≠ []) :
    partitionText needle text = some (before, after) ↔
      text = before ++ needle ++ after ∧ ¬ needle <:+: before ++ needle.dropLast := by
  have shorter : needle.dropLast.length + 1 = needle.length := by
    rw [List.length_dropLast]
    exact Nat.sub_add_cancel (List.length_pos_of_ne_nil nonempty)
  have joined : ∀ left right : List α, left ++ needle ++ right =
      left ++ needle.dropLast ++ needle.getLast nonempty :: right := by
    intro left right
    rw [List.append_cons, List.append_assoc left needle.dropLast,
      List.dropLast_append_getLast nonempty]
  induction text generalizing before with
  | nil =>
      rw [partitionText, if_neg nonempty]
      refine iff_of_false nofun fun ⟨text, _⟩ => nonempty ?_
      exact (List.append_eq_nil_iff.mp (List.append_eq_nil_iff.mp text.symm).1).2
  | cons first rest ih =>
      rw [partitionText]
      by_cases here : needle <+: first :: rest
      · rw [if_pos here, Option.some.injEq, Prod.mk.injEq]
        obtain ⟨tail, text⟩ := here
        constructor
        · intro ⟨isBefore, isAfter⟩
          subst isBefore
          refine ⟨?_, fun inside => absurd inside.length_le (by simp; omega)⟩
          rw [← isAfter, ← text, List.drop_left, List.nil_append]
        · intro ⟨split, absent⟩
          cases before with
          | nil =>
              rw [split, List.nil_append, List.drop_left]
              exact ⟨rfl, rfl⟩
          | cons head before =>
              have other : head :: before ++ needle.dropLast <+: first :: rest :=
                ⟨needle.getLast nonempty :: after, by rw [split, joined]⟩
              have isPrefix : needle <+: head :: before ++ needle.dropLast := by
                apply List.prefix_of_prefix_length_le ⟨tail, text⟩ other
                rw [List.length_append, List.length_cons]
                omega
              exact absurd isPrefix.isInfix absent
      · rw [if_neg here, Option.map_eq_some_iff]
        constructor
        · intro ⟨⟨left, right⟩, found, same⟩
          obtain ⟨isBefore, isAfter⟩ := Prod.mk.inj same
          subst isBefore isAfter
          obtain ⟨split, absent⟩ := ih.mp found
          refine ⟨by rw [split]; rfl, fun inside => ?_⟩
          rcases List.infix_cons_iff.mp inside with start | later
          · apply here
            refine start.trans ⟨needle.getLast nonempty :: right, ?_⟩
            rw [split]
            exact (joined (first :: left) right).symm
          · exact absent later
        · intro ⟨split, absent⟩
          cases before with
          | nil => exact absurd ⟨after, split.symm⟩ here
          | cons head before =>
              obtain ⟨sameHead, sameRest⟩ := List.cons.inj split
              subst sameHead
              refine ⟨(before, after), ih.mpr ⟨sameRest, fun inside => absent ?_⟩, rfl⟩
              exact List.infix_cons_iff.mpr (.inr inside)

/-- `text.split(needle)`, of a separator that is not empty. -/
def splitText (needle text : List α) : List (List α) :=
  if needle = [] then [text]
  else
    match _found : partitionText needle text with
    | none => [text]
    | some (before, after) => before :: splitText needle after
termination_by text.length
decreasing_by
  rename_i nonempty
  rw [((partitionText_eq_some nonempty).mp _found).1, List.length_append, List.length_append]
  have positive := List.length_pos_of_ne_nil nonempty
  omega

theorem splitText_none {text : List α} (nonempty : needle ≠ [])
    (absent : ¬ needle <:+: text) : splitText needle text = [text] := by
  have missing := (partitionText_eq_none nonempty).mpr absent
  rw [splitText, if_neg nonempty]
  split
  · rfl
  · rename_i before after found
    rw [missing] at found
    cases found

theorem splitText_some {text before after : List α} (nonempty : needle ≠ [])
    (found : partitionText needle text = some (before, after)) :
    splitText needle text = before :: splitText needle after := by
  rw [splitText, if_neg nonempty]
  split
  · rename_i missing
    rw [found] at missing
    cases missing
  · rename_i left right other
    rw [found] at other
    obtain ⟨isLeft, isRight⟩ := Prod.mk.inj (Option.some.inj other)
    rw [isLeft, isRight]

theorem splitText_eq_pair {text before after : List α} (nonempty : needle ≠ []) :
    splitText needle text = [before, after] ↔
      text = before ++ needle ++ after ∧ ¬ needle <:+: before ++ needle.dropLast ∧
        ¬ needle <:+: after := by
  cases found : partitionText needle text with
  | none =>
      have absent := (partitionText_eq_none nonempty).mp found
      rw [splitText_none nonempty absent]
      refine iff_of_false nofun fun ⟨split, _⟩ => absent ?_
      exact ⟨before, after, split.symm⟩
  | some parts =>
      obtain ⟨left, right⟩ := parts
      rw [splitText_some nonempty found]
      constructor
      · intro same
        obtain ⟨isLeft, isRest⟩ := List.cons.inj same
        have last : ¬ needle <:+: right := by
          rw [← partitionText_eq_none nonempty]
          cases more : partitionText needle right with
          | none => rfl
          | some rest =>
              rw [splitText_some nonempty more] at isRest
              obtain ⟨-, empty⟩ := List.cons.inj isRest
              rw [splitText] at empty
              split at empty
              · cases empty
              · split at empty <;> cases empty
        rw [splitText_none nonempty last] at isRest
        obtain ⟨isRight, -⟩ := List.cons.inj isRest
        subst isLeft isRight
        obtain ⟨split, absent⟩ := (partitionText_eq_some nonempty).mp found
        exact ⟨split, absent, last⟩
      · intro ⟨split, absent, last⟩
        have again := (partitionText_eq_some nonempty).mpr ⟨split, absent⟩
        rw [found] at again
        obtain ⟨isLeft, isRight⟩ := Prod.mk.inj (Option.some.inj again)
        rw [isLeft, isRight, splitText_none nonempty last]

omit [DecidableEq α] in
/-- What a text without the letter has no part of, it occurs on one side of the letter only. -/
theorem infix_append_cons_iff {before after : List α} {letter : α} (absent : letter ∉ needle) :
    needle <:+: before ++ letter :: after ↔ needle <:+: before ∨ needle <:+: after := by
  constructor
  · intro ⟨left, right, text⟩
    rw [List.append_assoc] at text
    rcases List.append_eq_append_iff.mp text with ⟨more, isBefore, isRest⟩ | ⟨more, isLeft, isAfter⟩
    · rcases List.append_eq_append_iff.mp isRest with
        ⟨rest, isMore, isRight⟩ | ⟨rest, isNeedle, isTail⟩
      · left
        rw [isBefore, isMore, ← List.append_assoc]
        exact ⟨left, rest, rfl⟩
      · cases rest with
        | nil =>
            rw [List.append_nil] at isNeedle
            left
            rw [isBefore, isNeedle]
            exact List.suffix_append _ _ |>.isInfix
        | cons head rest =>
            obtain ⟨isLetter, -⟩ := List.cons.inj isTail
            rw [isNeedle, ← isLetter] at absent
            exact absurd (List.mem_append_right _ List.mem_cons_self) absent
    · cases more with
      | nil =>
          cases needle with
          | nil => exact .inl (List.nil_infix)
          | cons head needle =>
              obtain ⟨isLetter, -⟩ := List.cons.inj isAfter
              exact absurd (isLetter ▸ List.mem_cons_self) absent
      | cons head more =>
          obtain ⟨-, isAfter⟩ := List.cons.inj isAfter
          right
          rw [isAfter]
          exact ⟨more, right, List.append_assoc _ _ _⟩
  · intro either
    rcases either with inBefore | inAfter
    · exact inBefore.trans (List.prefix_append _ _).isInfix
    · exact inAfter.trans ⟨before ++ [letter], [], by simp⟩

theorem splitText_ne_nil (needle text : List α) : splitText needle text ≠ [] := by
  rw [splitText]
  split
  · exact List.cons_ne_nil _ _
  · split <;> exact List.cons_ne_nil _ _

/-- Parts between which a separator can be told: none begins in a part before the last one. -/
def Separated (needle : List α) : List (List α) → Prop
  | [] => False
  | [last] => ¬ needle <:+: last
  | part :: next :: rest =>
      ¬ needle <:+: part ++ needle.dropLast ∧ Separated needle (next :: rest)

theorem splitText_intercalate_iff (nonempty : needle ≠ []) (parts : List (List α)) :
    splitText needle (needle.intercalate parts) = parts ↔ Separated needle parts := by
  induction parts with
  | nil => exact iff_of_false (splitText_ne_nil _ _) id
  | cons part rest ih =>
      cases rest with
      | nil =>
          rw [List.intercalate_singleton, Separated]
          constructor
          · intro same inside
            cases found : partitionText needle part with
            | none => exact (partitionText_eq_none nonempty).mp found inside
            | some parts =>
                rw [splitText_some nonempty found] at same
                exact splitText_ne_nil _ _ (List.cons.inj same).2
          · exact splitText_none nonempty
      | cons next rest =>
          rw [List.intercalate_cons_cons, Separated]
          generalize joined : part ++ needle ++ needle.intercalate (next :: rest) = text
          constructor
          · intro same
            cases found : partitionText needle text with
            | none =>
                rw [splitText_none nonempty ((partitionText_eq_none nonempty).mp found)] at same
                cases (List.cons.inj same).2
            | some parts =>
                obtain ⟨before, after⟩ := parts
                rw [splitText_some nonempty found] at same
                obtain ⟨isPart, isRest⟩ := List.cons.inj same
                subst isPart
                obtain ⟨split, absent⟩ := (partitionText_eq_some nonempty).mp found
                rw [← List.append_cancel_left (joined.trans split)] at isRest
                exact ⟨absent, ih.mp isRest⟩
          · intro ⟨absent, apart⟩
            have found := (partitionText_eq_some nonempty).mpr ⟨joined.symm, absent⟩
            rw [splitText_some nonempty found, ih.mpr apart]

end DecoyEngine.Data
