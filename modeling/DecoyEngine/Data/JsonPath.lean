import DecoyEngine.Data.Json

namespace DecoyEngine.Data

/-! Positions in a JSON document: reading the value there, and replacing it. -/

inductive Segment where
  | field (name : String)
  | index (position : Nat)
deriving Repr, DecidableEq

/-- A position, from the root down. -/
abbrev Path := List Segment

/-- Assignment to a key that is there. -/
def setMember (name : String) (new : Json) : List (String × Json) → List (String × Json)
  | [] => []
  | entry :: rest =>
      if name == entry.1 then (entry.1, new) :: rest else entry :: setMember name new rest

namespace Json

def child : Segment → Json → Option Json
  | .field name, .object members => members.lookup name
  | .index position, .array items => items[position]?
  | _, _ => none

def get : Path → Json → Option Json
  | [], value => some value
  | segment :: path, value => (value.child segment).bind (get path)

def setChild : Segment → Json → Json → Json
  | .field name, .object members, new => .object (setMember name new members)
  | .index position, .array items, new => .array (items.set position new)
  | _, value, _ => value

/-- The document with another value at a position; nothing where there is none. -/
def set : Path → Json → Json → Json
  | [], _, new => new
  | segment :: path, value, new =>
      match value.child segment with
      | some inner => value.setChild segment (set path inner new)
      | none => value

/-- What a value is by itself: its items are left out, not their keys and number. -/
def outline : Json → Json
  | .array items => .array (items.map fun _ => .null)
  | .object members => .object (members.map fun entry => (entry.1, .null))
  | value => value

def isContainer : Json → Bool
  | .array _ => true
  | .object _ => true
  | _ => false

end Json

section Members

variable {name other : String} {new : Json} {members : List (String × Json)}

theorem setMember_cons (entry : String × Json) (rest : List (String × Json)) :
    setMember name new (entry :: rest) =
      if name == entry.1 then (entry.1, new) :: rest else entry :: setMember name new rest := rfl

theorem lookup_setMember_self {value : Json} (present : members.lookup name = some value) :
    (setMember name new members).lookup name = some new := by
  induction members with
  | nil => cases present
  | cons entry rest ih =>
      obtain ⟨key, held⟩ := entry
      cases same : name == key with
      | true => simp only [setMember_cons, same, if_true, List.lookup_cons]
      | false =>
          simp only [List.lookup_cons, same] at present
          simp only [setMember_cons, same, Bool.false_eq_true, if_false, List.lookup_cons]
          exact ih present

theorem lookup_setMember_other (differ : other ≠ name) :
    (setMember name new members).lookup other = members.lookup other := by
  induction members with
  | nil => rfl
  | cons entry rest ih =>
      obtain ⟨key, held⟩ := entry
      cases same : name == key with
      | true =>
          have apart : (other == key) = false := by
            rw [beq_iff_eq] at same
            rw [← same]
            exact beq_false_of_ne differ
          simp only [setMember_cons, same, if_true, List.lookup_cons, apart]
      | false => simp only [setMember_cons, same, Bool.false_eq_true, if_false, List.lookup_cons, ih]

theorem setMember_lookup {value : Json} (present : members.lookup name = some value) :
    setMember name value members = members := by
  induction members with
  | nil => cases present
  | cons entry rest ih =>
      obtain ⟨key, held⟩ := entry
      cases same : name == key with
      | true =>
          simp only [List.lookup_cons, same, Option.some.injEq] at present
          simp only [setMember_cons, same, if_true, ← present]
      | false =>
          simp only [List.lookup_cons, same] at present
          simp only [setMember_cons, same, Bool.false_eq_true, if_false, ih present]

variable (name new members) in
theorem map_fst_setMember :
    (setMember name new members).map Prod.fst = members.map Prod.fst := by
  induction members with
  | nil => rfl
  | cons entry rest ih =>
      simp only [setMember_cons]
      split
      · rfl
      · rw [List.map_cons, List.map_cons, ih]

theorem sizeOf_lookup_lt {value : Json} (present : members.lookup name = some value) :
    sizeOf value < sizeOf members := by
  induction members with
  | nil => cases present
  | cons entry rest ih =>
      obtain ⟨key, held⟩ := entry
      rw [List.cons.sizeOf_spec, Prod.mk.sizeOf_spec]
      cases same : name == key with
      | true =>
          simp only [List.lookup_cons, same, Option.some.injEq] at present
          rw [present]
          omega
      | false =>
          simp only [List.lookup_cons, same] at present
          have smaller := ih present
          omega

end Members

namespace Json

variable {segment other : Segment} {value inner new : Json} {path below : Path}

theorem get_cons : value.get (segment :: path) = (value.child segment).bind (get path) := rfl

theorem set_cons : value.set (segment :: path) new =
    match value.child segment with
    | some inner => value.setChild segment (inner.set path new)
    | none => value := rfl

theorem child_setChild_self (present : value.child segment = some inner) :
    (value.setChild segment new).child segment = some new := by
  cases segment <;> cases value <;> simp only [child, reduceCtorEq] at present
  case field.object name members => exact lookup_setMember_self present
  case index.array position items =>
      obtain ⟨bound, -⟩ := List.getElem?_eq_some_iff.mp present
      exact List.getElem?_set_self bound

theorem child_setChild_other (differ : other ≠ segment) :
    (value.setChild segment new).child other = value.child other := by
  cases segment <;> cases value <;> try rfl
  case field.object name members =>
      cases other with
      | field key => exact lookup_setMember_other fun same => differ (congrArg Segment.field same)
      | index position => rfl
  case index.array position items =>
      cases other with
      | field key => rfl
      | index elsewhere =>
          exact List.getElem?_set_ne fun same => differ (congrArg Segment.index same.symm)

theorem setChild_child (present : value.child segment = some inner) :
    value.setChild segment inner = value := by
  cases segment <;> cases value <;> simp only [child, reduceCtorEq] at present
  case field.object name members =>
      exact congrArg Json.object (setMember_lookup present)
  case index.array position items =>
      obtain ⟨bound, held⟩ := List.getElem?_eq_some_iff.mp present
      rw [← held]
      exact congrArg Json.array (List.set_getElem_self bound)

theorem outline_setChild : (value.setChild segment new).outline = value.outline := by
  cases segment <;> cases value <;> try rfl
  case field.object name members =>
      have keys := congrArg (List.map fun key => (key, Json.null))
        (map_fst_setMember name new members)
      rw [List.map_map, List.map_map] at keys
      exact congrArg Json.object keys
  case index.array position items =>
      simp only [setChild, outline, List.map_const', List.length_set]

theorem sizeOf_child_lt (present : value.child segment = some inner) :
    sizeOf inner < sizeOf value := by
  cases segment <;> cases value <;> simp only [child, reduceCtorEq] at present
  case field.object name members =>
      have smaller := sizeOf_lookup_lt present
      simp only [Json.object.sizeOf_spec]
      omega
  case index.array position items =>
      have smaller := List.sizeOf_lt_of_mem (List.mem_of_getElem? present)
      simp only [Json.array.sizeOf_spec]
      omega

theorem get_append (path below : Path) (value : Json) :
    value.get (path ++ below) = (value.get path).bind (get below) := by
  induction path generalizing value with
  | nil => rfl
  | cons segment path ih =>
      rw [List.cons_append, get_cons, get_cons]
      cases value.child segment with
      | none => rfl
      | some inner => exact ih inner

theorem sizeOf_get_lt (deeper : below ≠ []) (present : value.get below = some inner) :
    sizeOf inner < sizeOf value := by
  induction below generalizing value with
  | nil => exact absurd rfl deeper
  | cons segment below ih =>
      rw [get_cons, Option.bind_eq_some_iff] at present
      obtain ⟨middle, step, rest⟩ := present
      have first := sizeOf_child_lt step
      by_cases last : below = []
      · subst last
        cases rest
        exact first
      · exact Nat.lt_trans (ih last rest) first

theorem get_set_self (present : (value.get path).isSome) :
    (value.set path new).get path = some new := by
  induction path generalizing value with
  | nil => rfl
  | cons segment path ih =>
      rw [get_cons] at present
      cases step : value.child segment with
      | none => rw [step] at present; cases present
      | some inner =>
          rw [step] at present
          rw [set_cons, step, get_cons, child_setChild_self step]
          exact ih present

theorem set_get (present : value.get path = some inner) : value.set path inner = value := by
  induction path generalizing value with
  | nil => exact (Option.some.inj present).symm
  | cons segment path ih =>
      rw [get_cons, Option.bind_eq_some_iff] at present
      obtain ⟨middle, step, rest⟩ := present
      rw [set_cons, step]
      dsimp only
      rw [ih rest, setChild_child step]

theorem set_of_get_none (absent : value.get path = none) : value.set path new = value := by
  induction path generalizing value with
  | nil => cases absent
  | cons segment path ih =>
      rw [get_cons] at absent
      rw [set_cons]
      cases step : value.child segment with
      | none => rfl
      | some inner =>
          rw [step] at absent
          dsimp only
          rw [ih absent, setChild_child step]

/-- Neither position is inside the other. -/
def Apart (path other : Path) : Prop := ¬path <+: other ∧ ¬other <+: path

theorem get_set_apart {other : Path} (apart : Apart path other) :
    (value.set path new).get other = value.get other := by
  induction path generalizing value other with
  | nil => exact absurd (List.nil_prefix) apart.1
  | cons segment path ih =>
      cases other with
      | nil => exact absurd (List.nil_prefix) apart.2
      | cons head other =>
          rw [set_cons]
          cases step : value.child segment with
          | none => rfl
          | some inner =>
              dsimp only
              rw [get_cons, get_cons]
              by_cases same : head = segment
              · subst same
                rw [child_setChild_self step, step]
                refine ih ⟨fun inside => apart.1 ?_, fun inside => apart.2 ?_⟩
                · exact List.prefix_cons_inj head |>.mpr inside
                · exact List.prefix_cons_inj head |>.mpr inside
              · rw [child_setChild_other same]

theorem outline_set_inside {outer : Path} (inside : outer <+: path) (proper : outer ≠ path) :
    ((value.set path new).get outer).map outline = (value.get outer).map outline := by
  induction outer generalizing value path with
  | nil =>
      cases path with
      | nil => exact absurd rfl proper
      | cons segment path =>
          rw [set_cons]
          cases value.child segment with
          | none => rfl
          | some inner => exact congrArg some outline_setChild
  | cons head outer ih =>
      cases path with
      | nil => exact absurd (List.eq_nil_of_prefix_nil inside) (List.cons_ne_nil _ _)
      | cons segment path =>
          obtain ⟨rfl, rest⟩ := List.cons_prefix_cons.mp inside
          rw [set_cons]
          cases step : value.child head with
          | none => rfl
          | some inner =>
              dsimp only
              rw [get_cons, get_cons, child_setChild_self step, step]
              exact ih rest fun same => proper (same ▸ rfl)

end Json

end DecoyEngine.Data
