/-
This file says what the two tables of names and IDs hold after any row of
insertions. An insertion can take two entries away at once, the one that had the
name and the one that had the ID, and it changes one table after the other. What
is left of a row of insertions is still easy to say: an entry is there if it was
added and no later one claims its name for another ID or its ID for another
name. The two tables are therefore inverse to each other, and they can be rebuilt
from the entries of one of them.
-/

import BehaviourScript.SymbolMap
import Mathlib.Data.Set.Card

namespace BehaviourScript

/-- A new key comes last. -/
theorem Assoc.set_of_notMem {κ α : Type} [DecidableEq κ] {key : κ} {value : α}
    {entries : List (κ × α)} (fresh : key ∉ entries.map Prod.fst) :
    set key value entries = entries ++ [(key, value)] := by
  induction entries with
  | nil => rfl
  | cons entry rest inductionHypothesis =>
    rw [List.map_cons, List.mem_cons, not_or] at fresh
    rw [set, if_neg fun same => fresh.1 same.symm, inductionHypothesis fresh.2]
    rfl

namespace IndexMap

variable {κ α : Type} [DecidableEq κ] {map : IndexMap κ α} {key : κ} {value : α}

/-- A key has the value that its entry gives it. -/
theorem get?_eq_some_iff : map.get? key = some value ↔ (key, value) ∈ map.entries :=
  ⟨Assoc.mem_of_get?, Assoc.get?_of_mem map.distinct⟩

theorem entries_insert_of_fresh (fresh : map.get? key = none) :
    (map.insert key value).2.entries = map.entries ++ [(key, value)] :=
  Assoc.set_of_notMem (Assoc.get?_eq_none_iff.mp fresh)

/-- A map has as many entries as keys. -/
theorem size_eq_ncard (map : IndexMap κ α) :
    map.size = {key | ∃ value, map.get? key = some value}.ncard := by
  have keys : {key | ∃ value, map.get? key = some value} =
      ((map.entries.map Prod.fst).toFinset : Set κ) := by
    ext key
    simp [get?_eq_some_iff]
  rw [keys, Set.ncard_coe_finset, List.toFinset_card_of_nodup map.distinct, List.length_map]
  rfl

end IndexMap

/-- A table is built by the same insertions, which keep it one to one. -/
theorem SymbolMap.toTables_ofList (inserts : List (String × Int)) :
    (ofList inserts).toTables = Tables.ofList inserts :=
  (List.foldl_hom toTables fun _ _ => rfl).symm

namespace SymbolMap.Tables

variable {tables : Tables} {name : String} {id : Int} {inserts : List (String × Int)}

theorem id?_eq_some_iff : tables.id? name = some id ↔ (name, id) ∈ tables.entries :=
  IndexMap.get?_eq_some_iff

/-! ### Both directions -/

theorem ofList_concat (inserts : List (String × Int)) (last : String × Int) :
    ofList (inserts ++ [last]) = (ofList inserts).insert last.1 last.2 := by
  rw [ofList, List.foldl_append]
  rfl

/-- The tables are inverse to each other after any row of insertions. -/
theorem mirrored_ofList (inserts : List (String × Int)) : (ofList inserts).Mirrored := by
  induction inserts using List.reverseRecOn with
  | nil => exact SymbolMap.empty.mirrored
  | append_singleton inserts last inductionHypothesis =>
    rw [ofList_concat]
    exact inductionHypothesis.insert last.1 last.2

namespace Mirrored

theorem name?_eq_some_iff (mirrored : tables.Mirrored) :
    tables.name? id = some name ↔ (name, id) ∈ tables.entries := by
  rw [← mirrored, id?_eq_some_iff]

/-- What a name resolves to goes back to the name. -/
theorem resolve_eq_some_iff (mirrored : tables.Mirrored) {capability : Capability} :
    tables.resolve capability name = some id ↔
      capability.format.holds id = true ∧ tables.name? id = some name := by
  rw [resolve, Option.filter_eq_some_iff, mirrored, and_comm]

/-- No ID stands at two names. -/
theorem ids_nodup (mirrored : tables.Mirrored) : (tables.entries.map Prod.snd).Nodup := by
  refine (tables.byName.distinct.of_map _).map_on ?_
  intro first firstEntry second secondEntry same
  have firstName := mirrored.name?_eq_some_iff.mpr firstEntry
  have secondName := mirrored.name?_eq_some_iff.mpr secondEntry
  rw [same, secondName] at firstName
  exact Prod.ext (Option.some.inj firstName).symm same

end Mirrored

/-! ### Contents -/

/-- An entry was added, and every later one that has its name or its ID has both. -/
def Survives (inserts : List (String × Int)) (name : String) (id : Int) : Prop :=
  ∃ before after, inserts = before ++ (name, id) :: after ∧
    ∀ later ∈ after, (later.1 = name → later.2 = id) ∧ (later.2 = id → later.1 = name)

/-- What survives one insertion more. -/
theorem survives_concat {last : String × Int} :
    Survives (inserts ++ [last]) name id ↔
      name = last.1 ∧ id = last.2 ∨ name ≠ last.1 ∧ id ≠ last.2 ∧ Survives inserts name id := by
  constructor
  · rintro ⟨before, after, split, later⟩
    rcases List.eq_nil_or_concat after with rfl | ⟨front, final, rfl⟩
    · exact .inl (Prod.ext_iff.mp (List.singleton_inj.mp (List.append_inj_right' split rfl)).symm)
    · rw [List.concat_eq_append] at split later
      rw [← List.cons_append, ← List.append_assoc] at split
      obtain ⟨rfl, same⟩ := List.append_inj' split rfl
      cases same
      rw [List.forall_mem_append, List.forall_mem_singleton] at later
      by_cases both : last.1 = name
      · exact .inl ⟨both.symm, (later.2.1 both).symm⟩
      · refine .inr ⟨fun same => both same.symm, fun same => both (later.2.2 same.symm), ?_⟩
        exact ⟨before, front, rfl, later.1⟩
  · rintro (⟨rfl, rfl⟩ | ⟨otherName, otherId, before, after, rfl, later⟩)
    · exact ⟨inserts, [], rfl, List.forall_mem_nil _⟩
    · refine ⟨before, after ++ [last], by rw [List.append_assoc, List.cons_append], ?_⟩
      rw [List.forall_mem_append, List.forall_mem_singleton]
      exact ⟨later, fun same => absurd same.symm otherName, fun same => absurd same.symm otherId⟩

/-- What a row of insertions leaves behind. -/
theorem id?_ofList_eq_some_iff : (ofList inserts).id? name = some id ↔ Survives inserts name id := by
  induction inserts using List.reverseRecOn with
  | nil =>
    refine iff_of_false (Option.some_ne_none _ ·.symm) ?_
    rintro ⟨before, after, split, _⟩
    exact List.append_ne_nil_of_right_ne_nil before (List.cons_ne_nil _ after) split.symm
  | append_singleton inserts last inductionHypothesis =>
    rw [ofList_concat, (mirrored_ofList inserts).id?_insert_iff, survives_concat,
      inductionHypothesis]

/-! ### Rebuilding -/

/-- A new name with a new ID comes last, and nothing else changes. -/
theorem entries_insert_of_fresh (newName : tables.id? name = none) (newId : tables.name? id = none) :
    (tables.insert name id).entries = tables.entries ++ [(name, id)] := by
  have noId : (tables.byName.insert name id).1 = none := newName
  have noName : (tables.byId.insert id name).1 = none := newId
  unfold insert entries
  rw [← IndexMap.entries_insert_of_fresh newName]
  simp only [noId, IndexMap.discard, noName, Option.filter_none]

/-- Entries with new names and new IDs come behind those that are there. -/
theorem entries_foldl_insert {start : Tables} (mirrored : start.Mirrored)
    {more : List (String × Int)} (names : ((start.entries ++ more).map Prod.fst).Nodup)
    (ids : ((start.entries ++ more).map Prod.snd).Nodup) :
    (more.foldl (fun tables entry => tables.insert entry.1 entry.2) start).entries =
      start.entries ++ more := by
  induction more generalizing start with
  | nil => exact (List.append_nil _).symm
  | cons entry rest inductionHypothesis =>
    have first : (start.insert entry.1 entry.2).entries = start.entries ++ [entry] := by
      rw [List.map_append, List.map_cons] at names ids
      refine entries_insert_of_fresh (Option.eq_none_iff_forall_ne_some.mpr ?_)
        (Option.eq_none_iff_forall_ne_some.mpr ?_)
      · intro id known
        exact (List.disjoint_of_nodup_append names)
          (List.mem_map_of_mem (id?_eq_some_iff.mp known)) List.mem_cons_self
      · intro name known
        exact (List.disjoint_of_nodup_append ids)
          (List.mem_map_of_mem (mirrored.name?_eq_some_iff.mp known)) List.mem_cons_self
    have same : start.entries ++ entry :: rest = (start.insert entry.1 entry.2).entries ++ rest := by
      rw [first, List.append_assoc, List.singleton_append]
    rw [same] at names ids ⊢
    exact inductionHypothesis (mirrored.insert entry.1 entry.2) names ids

/-- The entries by name, added one after the other, make the table by name. -/
theorem Mirrored.byName_ofList_entries (mirrored : tables.Mirrored) :
    (ofList tables.entries).byName = tables.byName := by
  have same : (ofList tables.entries).entries = tables.entries :=
    entries_foldl_insert SymbolMap.empty.mirrored tables.byName.distinct mirrored.ids_nodup
  exact IndexMap.mk.injEq .. ▸ same

/-- They also make the table by ID, though its keys may have come in another order. -/
theorem Mirrored.name?_ofList_entries (mirrored : tables.Mirrored) (id : Int) :
    (ofList tables.entries).name? id = tables.name? id := by
  refine Option.ext fun name => ?_
  rw [← mirrored_ofList, ← mirrored, id?, id?, mirrored.byName_ofList_entries]

/-! ### Sizes -/

theorem Mirrored.size_eq_ncard_ids (mirrored : tables.Mirrored) :
    tables.size = {id | ∃ name, tables.name? id = some name}.ncard := by
  have ids : {id | ∃ name, tables.name? id = some name} =
      ((tables.entries.map Prod.snd).toFinset : Set Int) := by
    ext id
    simp [mirrored.name?_eq_some_iff]
  rw [ids, Set.ncard_coe_finset, List.toFinset_card_of_nodup mirrored.ids_nodup, List.length_map]
  rfl

/-- After any row of insertions the tables are inverse to each other and count the names and the
IDs, hold what the last insertions say, resolve the IDs of each kind of asset both ways and can be
rebuilt from the entries by name: the table by name even in its order, and the table by ID up to
its order. They are the tables of the map that the same insertions build. -/
theorem ofList_oneToOne (inserts : List (String × Int)) :
    (SymbolMap.ofList inserts).toTables = ofList inserts ∧
      (∀ name id, (ofList inserts).id? name = some id ↔ (ofList inserts).name? id = some name) ∧
      (ofList inserts).size = {name | ∃ id, (ofList inserts).id? name = some id}.ncard ∧
      (ofList inserts).size = {id | ∃ name, (ofList inserts).name? id = some name}.ncard ∧
      (ofList inserts).size = (ofList inserts).byId.size ∧
      (∀ name id, (ofList inserts).id? name = some id ↔ Survives inserts name id) ∧
      (∀ capability name id, (ofList inserts).resolve capability name = some id ↔
        capability.format.holds id = true ∧ (ofList inserts).name? id = some name) ∧
      (ofList (ofList inserts).entries).byName = (ofList inserts).byName ∧
      ∀ id, (ofList (ofList inserts).entries).name? id = (ofList inserts).name? id := by
  have mirrored := mirrored_ofList inserts
  have ids := mirrored.size_eq_ncard_ids
  exact ⟨toTables_ofList inserts, mirrored, IndexMap.size_eq_ncard _, ids,
    ids.trans (IndexMap.size_eq_ncard _).symm,
    fun _ _ => id?_ofList_eq_some_iff, fun _ _ _ => mirrored.resolve_eq_some_iff,
    mirrored.byName_ofList_entries, mirrored.name?_ofList_entries⟩

-- The last insertion takes the place of both entries before it.
example : ofList [("Door", 1), ("Gate", 2), ("Door", 2)] =
    ⟨⟨[("Door", 2)], by decide⟩, ⟨[(2, "Door")], by decide⟩⟩ := by decide

-- A new ID puts a name last by ID, where rebuilding puts it first.
example : (ofList [("Door", 1), ("Gate", 2), ("Door", 3)]).byId.entries = [(2, "Gate"), (3, "Door")] ∧
    (ofList [("Door", 3), ("Gate", 2)]).byId.entries = [(3, "Door"), (2, "Gate")] := by decide

end SymbolMap.Tables

end BehaviourScript
