import DecoyEngine.Data.DecimalText

namespace DecoyEngine.Data

/-! Flat JSON objects: members that are counts or plain text.

`dumps` writes what `json.dumps` writes for such an object; `loads` reads such objects
back, whatever the white space, and refuses every other document. -/

namespace FlatJson

inductive Value where
  | number (value : Nat)
  | text (chars : List Char)
deriving DecidableEq

abbrev Member := List Char × Value

/-- Characters that `json.dumps` writes as they are. -/
def isPlain (ch : Char) : Bool :=
  32 ≤ ch.toNat && ch.toNat ≤ 126 && ch ≠ '"' && ch ≠ '\\'

def dumpText (chars : List Char) : List Char := '"' :: chars ++ ['"']

def dumpValue : Value → List Char
  | .number value => natText value
  | .text chars => dumpText chars

def dumpMember (member : Member) : List Char :=
  dumpText member.1 ++ ':' :: ' ' :: dumpValue member.2

def dumpMembers : List Member → List Char
  | [] => ['}']
  | [last] => dumpMember last ++ ['}']
  | member :: next :: rest => dumpMember member ++ ',' :: ' ' :: dumpMembers (next :: rest)

def dumps (object : List Member) : List Char := '{' :: dumpMembers object

def skipSpace (chars : List Char) : List Char :=
  chars.dropWhile fun ch => ch = ' ' ∨ ch = '\t' ∨ ch = '\n' ∨ ch = '\r'

/-- The text up to the closing quote. -/
def loadText : List Char → Option (List Char × List Char)
  | [] => none
  | ch :: rest =>
      if ch = '"' then some ([], rest)
      else if ch = '\\' ∨ ch.toNat < 32 then none
      else (loadText rest).map fun found => (ch :: found.1, found.2)

def loadNumber (chars : List Char) : Option (Nat × List Char) :=
  let digits := chars.takeWhile (· ∈ asciiDigits)
  if digits = [] ∨ (digits.head? = some '0' ∧ digits ≠ ['0']) then none
  else some (textNat digits, chars.dropWhile (· ∈ asciiDigits))

def loadValue : List Char → Option (Value × List Char)
  | '"' :: rest => (loadText rest).map fun found => (.text found.1, found.2)
  | chars => (loadNumber chars).map fun found => (.number found.1, found.2)

def loadMember : List Char → Option (Member × List Char)
  | '"' :: rest => do
      let (key, rest) ← loadText rest
      match skipSpace rest with
      | ':' :: rest =>
          let (value, rest) ← loadValue (skipSpace rest)
          some ((key, value), rest)
      | _ => none
  | _ => none

/-- One member per unit of fuel. -/
def loadMembers : Nat → List Char → Option (List Member)
  | 0, _ => none
  | fuel + 1, chars => do
      let (member, rest) ← loadMember chars
      match skipSpace rest with
      | ',' :: rest => (loadMembers fuel (skipSpace rest)).map (member :: ·)
      | '}' :: rest => if skipSpace rest = [] then some [member] else none
      | _ => none

def loads (chars : List Char) : Option (List Member) :=
  match skipSpace chars with
  | '{' :: rest =>
      match skipSpace rest with
      | '}' :: rest => if skipSpace rest = [] then some [] else none
      | rest => loadMembers rest.length rest
  | _ => none

def Value.Plain : Value → Prop
  | .number _ => True
  | .text chars => ∀ ch ∈ chars, isPlain ch

structure Member.Plain (member : Member) : Prop where
  key : ∀ ch ∈ member.1, isPlain ch
  value : member.2.Plain

theorem isPlain_spec {ch : Char} (plain : isPlain ch) :
    ch ≠ '"' ∧ ¬ (ch = '\\' ∨ ch.toNat < 32) := by
  simp only [isPlain, Bool.and_eq_true, decide_eq_true_eq] at plain
  obtain ⟨⟨⟨lower, _⟩, quote⟩, backslash⟩ := plain
  refine ⟨quote, ?_⟩
  rintro (escape | control)
  · exact backslash escape
  · omega

theorem loadText_dumpText {chars : List Char} (plain : ∀ ch ∈ chars, isPlain ch)
    (rest : List Char) : loadText (chars ++ '"' :: rest) = some (chars, rest) := by
  induction chars with
  | nil => simp [loadText]
  | cons ch chars ih =>
      obtain ⟨quote, escape⟩ := isPlain_spec (plain ch List.mem_cons_self)
      rw [List.cons_append, loadText, if_neg quote, if_neg escape,
        ih fun other member => plain other (List.mem_cons_of_mem _ member)]
      rfl

theorem natText_head (value : Nat) :
    ¬ ((natText value).head? = some '0' ∧ natText value ≠ ['0']) := by
  rintro ⟨zero, long⟩
  rw [natText] at zero long
  split at long
  · exact long rfl
  · rename_i positive
    rw [if_neg positive, List.head?_map, List.head?_reverse,
      List.getLast?_eq_some_getLast (Nat.digits_ne_nil_iff_ne_zero.mpr positive),
      Option.map_some, Option.some.injEq] at zero
    have small := Nat.digits_lt_base (by decide : 1 < 10)
      (List.getLast_mem (Nat.digits_ne_nil_iff_ne_zero.mpr positive))
    exact Nat.getLast_digit_ne_zero 10 positive
      (digitChar_injective small (by decide) zero)

theorem loadNumber_natText (value : Nat) {rest : List Char}
    (stop : ∀ ch ∈ rest.head?, ch ∉ asciiDigits) :
    loadNumber (natText value ++ rest) = some (value, rest) := by
  have digits : ∀ ch ∈ natText value, decide (ch ∈ asciiDigits) = true := fun ch member =>
    decide_eq_true (natText_mem_digits value ch member)
  have none : rest.takeWhile (fun ch => decide (ch ∈ asciiDigits)) = [] ∧
      rest.dropWhile (fun ch => decide (ch ∈ asciiDigits)) = rest := by
    cases rest with
    | nil => exact ⟨rfl, rfl⟩
    | cons ch rest =>
        have other : ¬ decide (ch ∈ asciiDigits) = true := by
          simpa using stop ch rfl
        exact ⟨List.takeWhile_cons_of_neg other, List.dropWhile_cons_of_neg other⟩
  rw [loadNumber, List.takeWhile_append_of_pos digits, none.1, List.append_nil,
    List.dropWhile_append_of_pos digits, none.2, textNat_natText, if_neg]
  rintro (empty | zero)
  · exact natText_ne_nil value empty
  · exact natText_head value zero

theorem loadValue_dumpValue {value : Value} (plain : value.Plain) {rest : List Char}
    (stop : ∀ ch ∈ rest.head?, ch ∉ asciiDigits) :
    loadValue (dumpValue value ++ rest) = some (value, rest) := by
  cases value with
  | text chars =>
      rw [dumpValue, dumpText, List.cons_append, List.cons_append, List.append_assoc,
        List.singleton_append, loadValue, loadText_dumpText plain]
      rfl
  | number value =>
      have loaded := loadNumber_natText value stop
      cases shown : natText value with
      | nil => exact absurd shown (natText_ne_nil value)
      | cons first digits =>
          have digit : first ∈ asciiDigits := natText_mem_digits value first
            (by rw [shown]; exact List.mem_cons_self)
          have unquoted : first ≠ '"' := by
            rintro rfl
            exact absurd digit (by decide)
          rw [shown, List.cons_append] at loaded
          rw [dumpValue, shown, List.cons_append, loadValue, loaded]
          · rfl
          · intro other same
            exact unquoted (List.cons.inj same).1

theorem skipSpace_dumpValue (value : Value) (rest : List Char) :
    skipSpace (dumpValue value ++ rest) = dumpValue value ++ rest := by
  cases value with
  | text chars => rfl
  | number value =>
      cases shown : natText value with
      | nil => exact absurd shown (natText_ne_nil value)
      | cons first digits =>
          have digit : first ∈ asciiDigits := natText_mem_digits value first
            (by rw [shown]; exact List.mem_cons_self)
          rw [dumpValue, shown, List.cons_append, skipSpace]
          apply List.dropWhile_cons_of_neg
          clear shown
          revert digit first
          decide

theorem loadMember_dumpMember {member : Member} (plain : member.Plain) {rest : List Char}
    (stop : ∀ ch ∈ rest.head?, ch ∉ asciiDigits) :
    loadMember (dumpMember member ++ rest) = some (member, rest) := by
  have opened : dumpMember member ++ rest =
      '"' :: (member.1 ++ '"' :: ':' :: ' ' :: (dumpValue member.2 ++ rest)) := by
    simp [dumpMember, dumpText]
  have space : skipSpace (' ' :: (dumpValue member.2 ++ rest)) = dumpValue member.2 ++ rest :=
    skipSpace_dumpValue member.2 rest
  rw [opened, loadMember, loadText_dumpText plain.key]
  change (loadValue (skipSpace (' ' :: (dumpValue member.2 ++ rest)))).bind _ = _
  rw [space, loadValue_dumpValue plain.value stop]
  rfl

theorem dumpMembers_head (member : Member) (rest : List Member) :
    ∃ inner, dumpMembers (member :: rest) = '"' :: inner := by
  cases rest with
  | nil => exact ⟨_, rfl⟩
  | cons next rest => exact ⟨_, rfl⟩

theorem loadMembers_dumpMembers {member : Member} {rest : List Member}
    (plain : ∀ other ∈ member :: rest, Member.Plain other) {fuel : Nat} (enough : rest.length < fuel) :
    loadMembers fuel (dumpMembers (member :: rest)) = some (member :: rest) := by
  induction rest generalizing member fuel with
  | nil =>
      obtain ⟨fuel, rfl⟩ := Nat.exists_eq_succ_of_ne_zero (Nat.ne_of_gt enough)
      have stop : ∀ ch ∈ ['}'].head?, ch ∉ asciiDigits := by
        intro ch head
        rw [← Option.some.inj head]
        decide
      rw [dumpMembers, loadMembers, loadMember_dumpMember (plain member List.mem_cons_self) stop]
      rfl
  | cons next rest ih =>
      obtain ⟨fuel, rfl⟩ := Nat.exists_eq_succ_of_ne_zero (Nat.ne_of_gt (Nat.zero_lt_of_lt enough))
      have stop : ∀ ch ∈ (',' :: ' ' :: dumpMembers (next :: rest)).head?, ch ∉ asciiDigits := by
        intro ch head
        rw [← Option.some.inj head]
        decide
      have later := ih (fun other othersIn => plain other (List.mem_cons_of_mem _ othersIn))
        (Nat.lt_of_succ_lt_succ enough)
      have space : skipSpace (' ' :: dumpMembers (next :: rest)) = dumpMembers (next :: rest) := by
        obtain ⟨inner, opened⟩ := dumpMembers_head next rest
        rw [opened]
        rfl
      rw [dumpMembers, loadMembers, loadMember_dumpMember (plain member List.mem_cons_self) stop]
      change (loadMembers fuel (skipSpace (' ' :: dumpMembers (next :: rest)))).map _ = _
      rw [space, later]
      rfl

theorem length_le_dumpMembers (members : List Member) : members.length < (dumpMembers members).length := by
  induction members with
  | nil => decide
  | cons member rest ih =>
      cases rest with
      | nil => simp [dumpMembers, dumpMember, dumpText]
      | cons next rest =>
          simp only [dumpMembers, List.length_append, List.length_cons] at ih ⊢
          omega

theorem loads_dumps {object : List Member} (plain : ∀ member ∈ object, Member.Plain member) :
    loads (dumps object) = some object := by
  cases object with
  | nil => rfl
  | cons member rest =>
      obtain ⟨inner, opened⟩ := dumpMembers_head member rest
      have loaded : loadMembers (dumpMembers (member :: rest)).length
          (dumpMembers (member :: rest)) = some (member :: rest) :=
        loadMembers_dumpMembers plain
          (Nat.lt_of_succ_lt (length_le_dumpMembers (member :: rest)))
      rw [dumps]
      rw [opened] at loaded ⊢
      exact loaded

theorem skipSpace_suffix (chars : List Char) : skipSpace chars <:+ chars :=
  List.dropWhile_suffix _

theorem loadText_suffix {chars text rest : List Char} (loaded : loadText chars = some (text, rest)) :
    rest <:+ chars := by
  induction chars generalizing text with
  | nil => cases loaded
  | cons ch chars ih =>
      rw [loadText] at loaded
      split at loaded
      · cases loaded
        exact List.suffix_cons ch rest
      · split at loaded
        · cases loaded
        · obtain ⟨found, inner, same⟩ := Option.map_eq_some_iff.mp loaded
          cases same
          exact List.suffix_cons_iff.mpr (Or.inr (ih inner))

theorem loadNumber_suffix {chars rest : List Char} {value : Nat}
    (loaded : loadNumber chars = some (value, rest)) : rest <:+ chars := by
  simp only [loadNumber] at loaded
  split at loaded
  · cases loaded
  · cases loaded
    exact List.dropWhile_suffix _

theorem loadValue_suffix {chars rest : List Char} {value : Value}
    (loaded : loadValue chars = some (value, rest)) : rest <:+ chars := by
  unfold loadValue at loaded
  split at loaded
  · obtain ⟨found, inner, same⟩ := Option.map_eq_some_iff.mp loaded
    cases same
    exact List.suffix_cons_iff.mpr (Or.inr (loadText_suffix inner))
  · obtain ⟨found, inner, same⟩ := Option.map_eq_some_iff.mp loaded
    cases same
    exact loadNumber_suffix inner

theorem loadMember_suffix {chars rest : List Char} {member : Member}
    (loaded : loadMember chars = some (member, rest)) : rest <:+ chars := by
  unfold loadMember at loaded
  split at loaded
  · obtain ⟨⟨key, afterKey⟩, keyed, loaded⟩ := Option.bind_eq_some_iff.mp loaded
    dsimp only at loaded
    split at loaded
    · rename_i afterColon spaced
      obtain ⟨⟨value, afterValue⟩, valued, same⟩ := Option.bind_eq_some_iff.mp loaded
      cases same
      have colon : afterColon <:+ afterKey :=
        (spaced ▸ List.suffix_cons _ _ : afterColon <:+ skipSpace afterKey).trans
          (skipSpace_suffix afterKey)
      exact List.suffix_cons_iff.mpr (Or.inr ((loadValue_suffix valued).trans
        ((skipSpace_suffix _).trans (colon.trans (loadText_suffix keyed)))))
    · cases loaded
  · cases loaded

theorem loadMembers_closes {fuel : Nat} {chars : List Char} {members : List Member}
    (loaded : loadMembers fuel chars = some members) : '}' ∈ chars := by
  induction fuel generalizing chars members with
  | zero => cases loaded
  | succ fuel ih =>
      obtain ⟨⟨member, rest⟩, first, loaded⟩ := Option.bind_eq_some_iff.mp loaded
      have within := (skipSpace_suffix rest).trans (loadMember_suffix first)
      dsimp only at loaded
      split at loaded
      · rename_i afterComma spaced
        obtain ⟨later, inner, -⟩ := Option.map_eq_some_iff.mp loaded
        exact within.mem (spaced ▸ List.mem_cons_of_mem _ ((skipSpace_suffix _).mem (ih inner)))
      · rename_i afterBrace spaced
        exact within.mem (spaced ▸ List.mem_cons_self)
      · cases loaded

theorem loads_closes {chars : List Char} {object : List Member}
    (loaded : loads chars = some object) : '}' ∈ chars := by
  unfold loads at loaded
  split at loaded
  · rename_i afterOpen spaced
    refine (skipSpace_suffix chars).mem (spaced ▸ List.mem_cons_of_mem _
      ((skipSpace_suffix afterOpen).mem ?_))
    split at loaded
    · rename_i afterBrace closed
      exact closed ▸ List.mem_cons_self
    · exact loadMembers_closes loaded
  · cases loaded

end FlatJson

end DecoyEngine.Data
