import Mathlib.Algebra.Ring.Nat
import Mathlib.Data.List.Find
import Mathlib.Data.List.Nodup

namespace DecoyEngine.Data

/-! Insertion-ordered dictionaries.

A dictionary is its list of entries in insertion order, one per key.  `set` is
item assignment and `setdefault` its first-write-wins sibling. -/

structure Dict (κ : Type u) (ν : Type v) where
  entries : List (κ × ν)
  distinct : (entries.map Prod.fst).Nodup

namespace Dict

variable {κ : Type u} {ν : Type v} [DecidableEq κ]

def empty : Dict κ ν := ⟨[], List.nodup_nil⟩

def find (dict : Dict κ ν) (key : κ) : Option ν :=
  (dict.entries.find? (fun entry => entry.1 = key)).map Prod.snd

def keys (dict : Dict κ ν) : List κ := dict.entries.map Prod.fst

/-- Replace the value in place; the key keeps its position. -/
def replace (dict : Dict κ ν) (key : κ) (value : ν) : Dict κ ν where
  entries := dict.entries.map (fun entry => if entry.1 = key then (entry.1, value) else entry)
  distinct := by
    have same : (dict.entries.map (fun entry => if entry.1 = key then (entry.1, value) else entry)).map
        Prod.fst = dict.entries.map Prod.fst := by
      rw [List.map_map]
      refine List.map_congr_left fun entry _ => ?_
      simp only [Function.comp_apply]
      split <;> rfl
    rw [same]
    exact dict.distinct

def append (dict : Dict κ ν) (key : κ) (value : ν) (fresh : key ∉ dict.keys) : Dict κ ν where
  entries := dict.entries ++ [(key, value)]
  distinct := by
    rw [List.map_append, List.nodup_append]
    refine ⟨dict.distinct, by simp, ?_⟩
    intro left leftIn right rightIn same
    simp only [List.map_cons, List.map_nil, List.mem_singleton] at rightIn
    rw [same, rightIn] at leftIn
    exact fresh leftIn

def set (dict : Dict κ ν) (key : κ) (value : ν) : Dict κ ν :=
  if present : key ∈ dict.keys then dict.replace key value else dict.append key value present

def setdefault (dict : Dict κ ν) (key : κ) (value : ν) : Dict κ ν :=
  if present : key ∈ dict.keys then dict else dict.append key value present

/-- `for key, value in other.items(): dict.setdefault(key, value)`. -/
def setdefaults (dict : Dict κ ν) (entries : List (κ × ν)) : Dict κ ν :=
  entries.foldl (fun dict entry => dict.setdefault entry.1 entry.2) dict

/-- `for key, value in entries: dict[key] = value`. -/
def sets (dict : Dict κ ν) (entries : List (κ × ν)) : Dict κ ν :=
  entries.foldl (fun dict entry => dict.set entry.1 entry.2) dict

@[simp] theorem find_empty (key : κ) : (empty : Dict κ ν).find key = none := rfl

theorem find_eq_none {dict : Dict κ ν} {key : κ} : dict.find key = none ↔ key ∉ dict.keys := by
  rw [find, Option.map_eq_none_iff, List.find?_eq_none]
  simp only [keys, List.mem_map, decide_eq_true_eq]
  constructor
  · intro absent present
    obtain ⟨entry, member, same⟩ := present
    exact absent entry member same
  · intro absent entry member same
    exact absent ⟨entry, member, same⟩

theorem find_append {dict : Dict κ ν} {key : κ} {value : ν} (fresh : key ∉ dict.keys) (other : κ) :
    (dict.append key value fresh).find other =
      if other = key then some value else dict.find other := by
  simp only [find, append, List.find?_append]
  by_cases same : other = key
  · subst same
    have absent : dict.entries.find? (fun entry => decide (entry.1 = other)) = none :=
      Option.map_eq_none_iff.mp (find_eq_none.mpr fresh)
    simp [absent]
  · have different : ¬ key = other := fun equal => same equal.symm
    simp [same, different]

theorem find_replace {dict : Dict κ ν} {key : κ} {value : ν} (present : key ∈ dict.keys)
    (other : κ) :
    (dict.replace key value).find other = if other = key then some value else dict.find other := by
  obtain ⟨entries, distinct⟩ := dict
  simp only [find, replace, keys] at present ⊢
  clear distinct
  induction entries with
  | nil => simp at present
  | cons entry entries ih =>
      by_cases first : entry.1 = key
      · by_cases same : other = key
        · simp [first, same]
        · have miss : ¬ key = other := fun equal => same equal.symm
          simp only [List.map_cons, first, if_true, same, if_false, List.find?_cons, miss,
            decide_false]
          by_cases later : key ∈ entries.map Prod.fst
          · rw [ih later, if_neg same]
          · have untouched : entries.map
                (fun entry => if entry.1 = key then (entry.1, value) else entry) = entries := by
              refine (List.map_congr_left fun entry member => ?_).trans (List.map_id entries)
              have other : ¬ entry.1 = key := fun equal =>
                later (List.mem_map.mpr ⟨entry, member, equal⟩)
              simp [other]
            rw [untouched]
      · have later : key ∈ entries.map Prod.fst := by
          rcases List.mem_cons.mp present with equal | later
          · exact absurd equal.symm first
          · exact later
        simp only [List.map_cons, first, if_false, List.find?_cons]
        by_cases here : entry.1 = other
        · have different : ¬ other = key := fun equal => first (here.trans equal)
          simp [here, different]
        · simp only [here, decide_false]
          exact ih later

theorem find_set (dict : Dict κ ν) (key : κ) (value : ν) (other : κ) :
    (dict.set key value).find other = if other = key then some value else dict.find other := by
  rw [set]
  split
  · rename_i present
    exact find_replace present other
  · rename_i fresh
    exact find_append fresh other

theorem find_setdefault (dict : Dict κ ν) (key : κ) (value : ν) (other : κ) :
    (dict.setdefault key value).find other =
      (dict.find other).or (if other = key then some value else none) := by
  rw [setdefault]
  split
  · rename_i present
    by_cases same : other = key
    · subst same
      have found : dict.find other ≠ none := fun missing => find_eq_none.mp missing present
      obtain ⟨value, known⟩ := Option.ne_none_iff_exists'.mp found
      simp [known]
    · simp [same]
  · rename_i fresh
    rw [find_append fresh]
    by_cases same : other = key
    · subst same
      simp [find_eq_none.mpr fresh]
    · simp [same]

theorem find_setdefaults (dict : Dict κ ν) (entries : List (κ × ν)) (key : κ) :
    (dict.setdefaults entries).find key =
      (dict.find key).or ((entries.find? (fun entry => entry.1 = key)).map Prod.snd) := by
  induction entries generalizing dict with
  | nil => simp [setdefaults]
  | cons entry entries ih =>
      have step : dict.setdefaults (entry :: entries) =
          (dict.setdefault entry.1 entry.2).setdefaults entries := rfl
      rw [step, ih, find_setdefault, Option.or_assoc, List.find?_cons]
      by_cases same : entry.1 = key
      · simp [same]
      · have different : ¬ key = entry.1 := fun equal => same equal.symm
        simp [same, different]

theorem find_sets (dict : Dict κ ν) (entries : List (κ × ν)) (key : κ) :
    (dict.sets entries).find key =
      ((entries.reverse.find? (fun entry => entry.1 = key)).map Prod.snd).or (dict.find key) := by
  induction entries generalizing dict with
  | nil => simp [sets]
  | cons entry entries ih =>
      have step : dict.sets (entry :: entries) = (dict.set entry.1 entry.2).sets entries := rfl
      rw [step, ih, find_set, List.reverse_cons, List.find?_append]
      cases later : entries.reverse.find? (fun entry => decide (entry.1 = key)) with
      | some found => simp
      | none =>
          by_cases same : entry.1 = key
          · simp [same]
          · have different : ¬ key = entry.1 := fun equal => same equal.symm
            simp [same, different]

theorem find_reverse_of_nodup {entries : List (κ × ν)} (distinct : (entries.map Prod.fst).Nodup)
    (key : κ) :
    entries.reverse.find? (fun entry => entry.1 = key) =
      entries.find? (fun entry => entry.1 = key) := by
  induction entries with
  | nil => rfl
  | cons entry entries ih =>
      rw [List.map_cons, List.nodup_cons] at distinct
      rw [List.reverse_cons, List.find?_append, ih distinct.2, List.find?_cons]
      by_cases here : entry.1 = key
      · have absent : entries.find? (fun entry => decide (entry.1 = key)) = none := by
          rw [List.find?_eq_none]
          intro other member same
          refine distinct.1 (List.mem_map.mpr ⟨other, member, ?_⟩)
          rw [here]
          exact of_decide_eq_true same
        simp [absent, here]
      · simp [here]

theorem find_sets_empty {entries : List (κ × ν)} (distinct : (entries.map Prod.fst).Nodup)
    (key : κ) :
    ((empty : Dict κ ν).sets entries).find key =
      (entries.find? (fun entry => entry.1 = key)).map Prod.snd := by
  rw [find_sets, find_reverse_of_nodup distinct, find_empty, Option.or_none]

theorem entries_sets {dict : Dict κ ν} {entries : List (κ × ν)}
    (distinct : ((dict.entries ++ entries).map Prod.fst).Nodup) :
    (dict.sets entries).entries = dict.entries ++ entries := by
  induction entries generalizing dict with
  | nil => simp [sets]
  | cons entry entries ih =>
      have fresh : entry.1 ∉ dict.keys := by
        rw [List.map_append, List.map_cons, List.nodup_append] at distinct
        intro present
        exact distinct.2.2 _ present _ List.mem_cons_self rfl
      have set : (dict.set entry.1 entry.2).entries = dict.entries ++ [entry] := by
        rw [Dict.set, dif_neg fresh]
        rfl
      have step : dict.sets (entry :: entries) = (dict.set entry.1 entry.2).sets entries := rfl
      rw [step, ih (by rwa [set, List.append_assoc]), set, List.append_assoc]
      rfl

theorem entries_sets_empty_iff {entries : List (κ × ν)} :
    ((empty : Dict κ ν).sets entries).entries = entries ↔ (entries.map Prod.fst).Nodup := by
  constructor
  · intro same
    rw [← same]
    exact ((empty : Dict κ ν).sets entries).distinct
  · intro distinct
    exact entries_sets distinct

theorem mem_entries {dict : Dict κ ν} {key : κ} {value : ν} :
    (key, value) ∈ dict.entries ↔ dict.find key = some value := by
  obtain ⟨entries, distinct⟩ := dict
  simp only [find]
  induction entries with
  | nil => simp
  | cons entry entries ih =>
      rw [List.map_cons, List.nodup_cons] at distinct
      rw [List.mem_cons, ih distinct.2, List.find?_cons]
      by_cases here : entry.1 = key
      · have later : ¬ (entries.find? (fun entry => decide (entry.1 = key))).map Prod.snd =
            some value := by
          intro found
          obtain ⟨entry', found, _⟩ := Option.map_eq_some_iff.mp found
          refine distinct.1 (List.mem_map.mpr ⟨entry', List.mem_of_find?_eq_some found, ?_⟩)
          have matching := List.find?_some found
          rw [here]
          exact of_decide_eq_true matching
        simp only [here, decide_true, Option.map_some, later, or_false, Option.some.injEq]
        constructor
        · intro same
          rw [← same]
        · intro same
          rw [← here, ← same]
      · have other : ¬ (key, value) = entry := fun same => here (by rw [← same])
        simp only [here, decide_false, other, false_or]

/-- `{key: f(key, value) for key, value in dict.items()}`. -/
def mapValues (dict : Dict κ ν) (f : κ → ν → μ) : Dict κ μ where
  entries := dict.entries.map fun entry => (entry.1, f entry.1 entry.2)
  distinct := by
    rw [List.map_map]
    exact dict.distinct

theorem find_mapValues (dict : Dict κ ν) (f : κ → ν → μ) (key : κ) :
    (dict.mapValues f).find key = (dict.find key).map (f key) := by
  simp only [find, mapValues, List.find?_map, Option.map_map]
  have same : ((fun entry : κ × μ => decide (entry.1 = key)) ∘
      fun entry : κ × ν => (entry.1, f entry.1 entry.2)) = fun entry => decide (entry.1 = key) := rfl
  rw [same]
  cases found : dict.entries.find? fun entry => decide (entry.1 = key) with
  | none => rfl
  | some entry =>
      have matching := List.find?_some found
      have here : entry.1 = key := of_decide_eq_true matching
      simp [here]

omit [DecidableEq κ] in
theorem keys_mapValues (dict : Dict κ ν) (f : κ → ν → μ) :
    (dict.mapValues f).keys = dict.keys := by
  rw [keys, mapValues, List.map_map]
  rfl

/-- `dict[key] = dict.get(key, 0) + count`. -/
def add (dict : Dict κ Nat) (key : κ) (count : Nat) : Dict κ Nat :=
  dict.set key ((dict.find key).getD 0 + count)

/-- `sum(dict.values())`. -/
def total (dict : Dict κ Nat) : Nat := (dict.entries.map Prod.snd).sum

theorem sum_replace {entries : List (κ × Nat)} (distinct : (entries.map Prod.fst).Nodup) {key : κ}
    {old : Nat} (value : Nat)
    (found : (entries.find? fun entry => entry.1 = key).map Prod.snd = some old) :
    ((entries.map fun entry => if entry.1 = key then (entry.1, value) else entry).map
        Prod.snd).sum + old = (entries.map Prod.snd).sum + value := by
  induction entries with
  | nil => cases found
  | cons entry entries ih =>
      rw [List.map_cons, List.nodup_cons] at distinct
      rw [List.find?_cons] at found
      by_cases here : entry.1 = key
      · have rest : (entries.map fun entry => if entry.1 = key then (entry.1, value) else entry) =
            entries := by
          have other : ∀ entry' ∈ entries, (if entry'.1 = key then (entry'.1, value) else entry') =
              id entry' := by
            intro entry' member
            rw [if_neg]
            · rfl
            · intro same
              exact distinct.1 (List.mem_map.mpr ⟨entry', member, same.trans here.symm⟩)
          rw [List.map_congr_left other, List.map_id]
        simp only [here, decide_true, Option.map_some, Option.some.injEq] at found
        simp only [List.map_cons, rest, here, if_true, List.sum_cons]
        omega
      · simp only [here, decide_false] at found
        have tail := ih distinct.2 found
        simp only [List.map_cons, here, if_false, List.sum_cons]
        omega

theorem total_add (dict : Dict κ Nat) (key : κ) (count : Nat) :
    (dict.add key count).total = dict.total + count := by
  rw [add, set]
  split
  · rename_i present
    cases found : dict.find key with
    | none => exact absurd present (find_eq_none.mp found)
    | some old =>
        have replaced := sum_replace dict.distinct (old + count) found
        simp only [Option.getD_some, total, replace]
        omega
  · rename_i absent
    rw [find_eq_none.mpr absent]
    simp [total, append]

theorem perm_of_find_eq {left right : Dict κ ν} (agree : ∀ key, left.find key = right.find key) :
    left.entries.Perm right.entries := by
  rw [List.perm_ext_iff_of_nodup left.distinct.of_map right.distinct.of_map]
  intro (key, value)
  rw [mem_entries, mem_entries, agree]

end Dict

end DecoyEngine.Data
