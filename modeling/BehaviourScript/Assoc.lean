/-
This file holds association lists that keep the order in which their keys came:
a key that is set again keeps its place and changes its value, and a key that is
taken out leaves the others in their order. A list in which no key stands twice
is a map.
-/

namespace BehaviourScript

namespace Assoc

variable {κ α : Type} [DecidableEq κ]

/-- Sets the value of a key. -/
def set (key : κ) (value : α) : List (κ × α) → List (κ × α)
  | [] => [(key, value)]
  | (other, old) :: rest =>
    if other = key then (key, value) :: rest else (other, old) :: set key value rest

/-- The value of a key. -/
def get? (key : κ) : List (κ × α) → Option α
  | [] => none
  | (other, value) :: rest => if other = key then some value else get? key rest

/-- Takes a key out. -/
def erase (key : κ) : List (κ × α) → List (κ × α)
  | [] => []
  | (other, value) :: rest => if other = key then rest else (other, value) :: erase key rest

/-- Whether a key has a value. -/
def contains (key : κ) (entries : List (κ × α)) : Bool := (get? key entries).isSome

@[simp] theorem get?_nil (key : κ) : get? key ([] : List (κ × α)) = none := rfl

theorem get?_set_self (key : κ) (value : α) (entries : List (κ × α)) :
    get? key (set key value entries) = some value := by
  induction entries with
  | nil => simp [set, get?]
  | cons entry rest inductionHypothesis =>
    unfold set
    split
    · simp [get?]
    · next different => simp [get?, different, inductionHypothesis]

theorem get?_set_other {key other : κ} (different : other ≠ key) (value : α)
    (entries : List (κ × α)) : get? other (set key value entries) = get? other entries := by
  induction entries with
  | nil => simp [set, get?, different.symm]
  | cons entry rest inductionHypothesis =>
    unfold set
    split
    · next same => simp [get?, same, different.symm]
    · simp [get?, inductionHypothesis]

theorem mem_of_get? {key : κ} {value : α} {entries : List (κ × α)}
    (found : get? key entries = some value) : (key, value) ∈ entries := by
  induction entries with
  | nil => exact nomatch found
  | cons entry rest inductionHypothesis =>
    unfold get? at found
    split at found
    · next same =>
      cases found
      exact same ▸ List.mem_cons_self
    · exact List.mem_cons_of_mem _ (inductionHypothesis found)

theorem get?_eq_none_iff {key : κ} {entries : List (κ × α)} :
    get? key entries = none ↔ key ∉ entries.map Prod.fst := by
  induction entries with
  | nil => exact iff_of_true rfl List.not_mem_nil
  | cons entry rest inductionHypothesis =>
    unfold get?
    rw [List.map_cons, List.mem_cons, not_or, ← inductionHypothesis]
    split
    · next same => exact iff_of_false nofun fun both => both.1 same.symm
    · next different => exact (and_iff_right fun same => different same.symm).symm

theorem get?_of_mem {key : κ} {value : α} {entries : List (κ × α)}
    (distinct : (entries.map Prod.fst).Nodup) (member : (key, value) ∈ entries) :
    get? key entries = some value := by
  induction entries with
  | nil => exact absurd member List.not_mem_nil
  | cons entry rest inductionHypothesis =>
    rw [List.map_cons, List.nodup_cons] at distinct
    unfold get?
    rcases List.mem_cons.mp member with equal | behind
    · rw [← equal, if_pos rfl]
    · rw [if_neg fun same : entry.1 = key => distinct.1 (same ▸ List.mem_map_of_mem behind)]
      exact inductionHypothesis distinct.2 behind

/-- Setting a key adds it to the keys, unless it is among them. -/
theorem keys_set (key : κ) (value : α) (entries : List (κ × α)) :
    (set key value entries).map Prod.fst =
      if key ∈ entries.map Prod.fst then entries.map Prod.fst
      else entries.map Prod.fst ++ [key] := by
  induction entries with
  | nil => simp [set]
  | cons entry rest inductionHypothesis =>
    unfold set
    by_cases same : entry.1 = key
    · simp [same]
    · have different : ¬key = entry.1 := fun equal => same equal.symm
      simp only [same, if_false, List.map_cons, List.mem_cons, different, false_or,
        inductionHypothesis]
      split <;> simp

/-- Keys stay distinct. -/
theorem keys_set_nodup {entries : List (κ × α)} (distinct : (entries.map Prod.fst).Nodup)
    (key : κ) (value : α) : ((set key value entries).map Prod.fst).Nodup := by
  rw [keys_set]
  split
  · exact distinct
  · next fresh =>
    rw [List.nodup_append]
    refine ⟨distinct, by simp, ?_⟩
    intro first inKeys second inSingle equal
    rw [List.mem_singleton] at inSingle
    exact fresh (inSingle ▸ equal ▸ inKeys)

theorem erase_sublist (key : κ) (entries : List (κ × α)) :
    (erase key entries).Sublist entries := by
  induction entries with
  | nil => exact .slnil
  | cons entry rest inductionHypothesis =>
    unfold erase
    split
    · exact .cons _ (.refl _)
    · exact .cons_cons _ inductionHypothesis

/-- A key that stood once is gone. -/
theorem get?_erase_self {entries : List (κ × α)} (distinct : (entries.map Prod.fst).Nodup)
    (key : κ) : get? key (erase key entries) = none := by
  induction entries with
  | nil => rfl
  | cons entry rest inductionHypothesis =>
    rw [List.map_cons, List.nodup_cons] at distinct
    unfold erase
    split
    · next same => exact get?_eq_none_iff.mpr (same ▸ distinct.1)
    · next different => rw [get?, if_neg different, inductionHypothesis distinct.2]

/-- Other keys keep their values. -/
theorem get?_erase_other {key other : κ} (different : other ≠ key) (entries : List (κ × α)) :
    get? other (erase key entries) = get? other entries := by
  induction entries with
  | nil => rfl
  | cons entry rest inductionHypothesis =>
    unfold erase
    split
    · next same => rw [get?, if_neg fun equal => different (equal.symm.trans same)]
    · rw [get?, get?, inductionHypothesis]

end Assoc

/-- A map that keeps the order in which its keys came. -/
structure IndexMap (κ α : Type) where
  entries : List (κ × α)
  distinct : (entries.map Prod.fst).Nodup
  deriving DecidableEq

namespace IndexMap

variable {κ α : Type} [DecidableEq κ]

/-- A map without entries. -/
def empty : IndexMap κ α := ⟨[], .nil⟩

/-- The value of a key. -/
def get? (map : IndexMap κ α) (key : κ) : Option α := Assoc.get? key map.entries

/-- Sets the value of a key, and tells the value that it had. -/
def insert (map : IndexMap κ α) (key : κ) (value : α) : Option α × IndexMap κ α :=
  (map.get? key,
    ⟨Assoc.set key value map.entries, Assoc.keys_set_nodup map.distinct key value⟩)

/-- Takes a key out. The others keep their order. -/
def remove (map : IndexMap κ α) (key : κ) : IndexMap κ α :=
  ⟨Assoc.erase key map.entries,
    map.distinct.sublist ((Assoc.erase_sublist key map.entries).map Prod.fst)⟩

/-- Takes a key out, if there is one. -/
def discard (map : IndexMap κ α) : Option κ → IndexMap κ α
  | some key => map.remove key
  | none => map

/-- How many entries there are. -/
def size (map : IndexMap κ α) : Nat := map.entries.length

/-- Whether there are no entries. -/
def isEmpty (map : IndexMap κ α) : Bool := map.entries.isEmpty

theorem fst_insert (map : IndexMap κ α) (key : κ) (value : α) :
    (map.insert key value).1 = map.get? key := rfl

theorem get?_insert (map : IndexMap κ α) (key other : κ) (value : α) :
    (map.insert key value).2.get? other = if other = key then some value else map.get? other := by
  split
  · next same => exact same ▸ Assoc.get?_set_self key value map.entries
  · next different => exact Assoc.get?_set_other different value map.entries

theorem get?_discard (map : IndexMap κ α) (key? : Option κ) (other : κ) :
    (map.discard key?).get? other = if key? = some other then none else map.get? other := by
  cases key? with
  | none => rfl
  | some key =>
    split
    · next same =>
      cases same
      exact Assoc.get?_erase_self map.distinct _
    · next different =>
      exact Assoc.get?_erase_other (fun same => different (congrArg some same.symm)) map.entries

end IndexMap

end BehaviourScript
