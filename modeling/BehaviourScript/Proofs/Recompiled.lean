/-
This file compares what the decoder and the compiler take for a valid library.
The decoder looks at one behaviour after the other, and two of them may have the
same graph ID. They are then printed under the same name, and the compiler
refuses the text. That is the only disagreement: a library whose IDs are distinct
compiles to the bytes it was decoded from.
-/

import BehaviourScript.Proofs.Decompilation

namespace BehaviourScript

open Outcome

/-! ### Libraries that use a name twice -/

theorem SymbolTable.checkLibrary_repeated {table : SymbolTable} {library : Library}
    (attributes : table.rootEnv.checkAttributes .library library.attributes = .ok ())
    (each : ∀ behaviour ∈ library.behaviours,
      (table.behaviourEnv behaviour.name).checkBehaviour .libraryBehaviour behaviour = .ok ())
    (repeated : ¬(library.behaviours.map Behaviour.name).Nodup) :
    ∃ behaviour ∈ library.behaviours, table.checkLibrary library =
      .error (.duplicateBehaviour behaviour.name behaviour.span.start) := by
  unfold checkLibrary
  rw [attributes]
  refine checkNamed_repeated (fun _ => rfl) each fun ⟨distinct, _⟩ => repeated distinct

namespace Restored

variable {names : DecompileResolvers} {bytes : Bytes} {name : String} {content : Library}
  (formatted : Format.library names name bytes content)

include formatted

/-- Behaviours of the same ID get the same name, so distinct names come from distinct IDs. -/
theorem libraryIds_nodup (distinct : (content.behaviours.map Behaviour.name).Nodup) :
    (libraryIds bytes).Nodup := by
  obtain ⟨entries, _, behaviours, rows, same⟩ := library_entries formatted
  rw [behaviours, List.map_map] at distinct
  rw [same]
  refine List.pairwise_map.mpr ((List.pairwise_map.mp distinct).imp_of_mem ?_)
  intro first second inEntries alsoInEntries different equal
  obtain ⟨_, firstFormatted⟩ := rows_forall rows first inEntries
  obtain ⟨_, secondFormatted⟩ := rows_forall rows second alsoInEntries
  obtain ⟨_, _, firstNamed⟩ := entry_named firstFormatted
  obtain ⟨_, _, secondNamed⟩ := entry_named secondFormatted
  rw [equal] at firstNamed
  exact different (congrArg Prod.fst (Except.ok.inj (firstNamed.symm.trans secondNamed)))

/-- Whatever reads as a decoded library, with whatever places, is built to such a library. -/
theorem buildTable_library {script : Script}
    (same : script.erase = (Script.library content).reread) :
    ∃ library table other, buildTable script = .ok (.library library, table) ∧
      library.Like Eq (content.mapExpr Expr.reread) ∧ table.Like Eq other := by
  have whole : Format.script names name .library bytes (.library content) := .library formatted
  obtain ⟨other, built⟩ := buildTable_constless (script_consts whole) (script_inner whole)
  have like : script.Like Eq (Script.library content).reread :=
    Script.like_of_erase (same.trans (Script.erase_reread _).symm)
  have back := (buildTable_like biUnique_eq like).exists_ok_iff.mpr ⟨_, built⟩
  obtain ⟨⟨ordered, table⟩, run⟩ := back
  obtain ⟨again, rerun, shape, tables⟩ :=
    (buildTable_like biUnique_eq like).exists_ok run
  cases built.symm.trans rerun
  cases shape with
  | library shape => exact ⟨_, table, other, run, shape, tables⟩

/-- The attributes of a decoded library and each of its behaviours pass the checks, with whatever
places. -/
theorem library_parts_checked {library : Library} {table other : SymbolTable}
    (shape : library.Like Eq (content.mapExpr Expr.reread)) (tables : table.Like Eq other) :
    table.rootEnv.checkAttributes .library library.attributes = .ok () ∧
      ∀ behaviour ∈ library.behaviours,
        (table.behaviourEnv behaviour.name).checkBehaviour .libraryBehaviour behaviour =
          .ok () := by
  constructor
  · have passes := (library_listed formatted).checked (by decide) other.rootEnv
    exact (attributes_check_iff tables.rootEnv .library shape.attributes).mpr passes
  · exact (shape.behaviours_check_iff tables).mpr (library_behaviours_checked formatted other)

/-- Whatever reads as a decoded library in which a name is used twice is refused for it. -/
theorem library_refused (repeated : ¬(content.behaviours.map Behaviour.name).Nodup)
    {script : Script}
    (same : script.erase = (Script.library content).reread) (resolvers : CompileResolvers) :
    ∃ behaviour ∈ content.behaviours, ∃ position, assemble resolvers script =
      .error (.semantic (.duplicateBehaviour behaviour.name position)) := by
  obtain ⟨library, table, other, built, shape, tables⟩ := buildTable_library formatted same
  obtain ⟨attributes, each⟩ := library_parts_checked formatted shape tables
  have named : library.behaviours.map Behaviour.name = content.behaviours.map Behaviour.name := by
    rw [shape.names_eq]
    exact List.map_map
  obtain ⟨behaviour, member, failed⟩ :=
    SymbolTable.checkLibrary_repeated attributes each (named ▸ repeated)
  have inContent := List.mem_map_of_mem (f := Behaviour.name) member
  rw [named] at inContent
  obtain ⟨original, given, sameName⟩ := List.mem_map.mp inContent
  refine ⟨original, given, behaviour.span.start, ?_⟩
  unfold assemble analyze
  rw [built, sameName]
  show ofSemantic (table.checkLibrary library >>= _) >>= _ = _
  rw [failed]
  rfl

end Restored

/-! ### Decompiled libraries -/

/-- Without names from the host, a behaviour is called after its ID. -/
theorem Restored.library_named {bytes : Bytes} {name : String} {content : Library}
    (formatted : Format.library .numbersOnly name bytes content) {behaviour : Behaviour}
    (member : behaviour ∈ content.behaviours) :
    ∃ id ∈ libraryIds bytes, behaviour.name = ItemKind.behaviour.fallbackName id := by
  obtain ⟨entries, _, behaviours, rows, ids⟩ := library_entries formatted
  rw [behaviours] at member
  obtain ⟨entry, given, rfl⟩ := List.mem_map.mp member
  obtain ⟨_, entryFormatted⟩ := rows_forall rows entry given
  obtain ⟨_, attributes, found⟩ := entry_named entryFormatted
  have named : (ItemKind.behaviour.fallbackName entry.1, _) = (entry.2.name, attributes) :=
    Except.ok.inj found
  exact ⟨entry.1, ids ▸ List.mem_map_of_mem given, (congrArg Prod.fst named).symm⟩

/-- A library that is decoded without names from the host compiles to its bytes if its graph IDs
are distinct. If they are not, the compiler refuses it for a behaviour that is there twice. -/
theorem compileSource_decompile_library {bytes : Bytes} {name : String} {options : PrintOptions}
    {text : String} (done : decompile .library bytes name .numbersOnly options = .ok text) :
    ((libraryIds bytes).Nodup → compileSource .numbersOnly text = .ok bytes) ∧
      (¬(libraryIds bytes).Nodup → ∃ id ∈ libraryIds bytes, ∃ position,
        compileSource .numbersOnly text = .error (.semantic
          (.duplicateBehaviour (ItemKind.behaviour.fallbackName id) position))) := by
  obtain ⟨script, decoded, rfl⟩ := decompile_eq_ok.mp done
  obtain ⟨identifier, formatted⟩ := decode_eq_ok_iff.mp decoded
  have named : ResolverSet.Named {} := by
    rintro (_ | _ | _) map ⟨⟩
  have inverse : Inverse .numbersOnly .numbersOnly := ResolverSet.inverse named
  have spellable := Restored.script_spellable formatted inverse identifier
  have shallow := Script.shallow_of_words (Restored.script_words formatted)
  constructor
  · intro distinct
    exact compileSource_print spellable shallow options
      (Restored.script_assembled formatted inverse fun _ => distinct)
  · intro repeated
    obtain ⟨result, read, same⟩ := parseSource_print spellable shallow options
    cases formatted with
    | library formatted =>
      obtain ⟨behaviour, member, position, refused⟩ := Restored.library_refused formatted
        (fun distinct => repeated (Restored.libraryIds_nodup formatted distinct)) same .numbersOnly
      obtain ⟨id, given, called⟩ := Restored.library_named formatted member
      refine ⟨id, given, position, ?_⟩
      rw [compileSource_eq, read, ← called]
      exact refused

/-- A library of two behaviours with an empty state each. -/
def posts (first second : UInt8) : Bytes :=
  [2, 0, 0, 0, first, 0, 0, 0, 8, 0, 0, 0, 0, 0, 0, 0, 0, 0, 255, 255, second, 0, 0, 0, 8, 0, 0, 0,
    0, 0, 0, 0, 0, 0, 255, 255]

def postText (id : String) : String :=
  "\t[GlobalIndex(" ++ id ++ ")]\n\t[Priority(0)]\n\t[StartFrom(State_0)]\n" ++
    "\tbehaviour Behaviour_" ++ id ++ " \x7b\n\t\tstate State_0() \x7b\n\t\t\x7d\n\t\x7d\n"

def postsText (first second : String) : String :=
  "library Posts \x7b\n" ++ postText first ++ "\n" ++ postText second ++ "\x7d\n"

theorem compileSource_decompile_library_posts :
    decompile .library (posts 1 2) "Posts" .numbersOnly {} = .ok (postsText "1" "2") ∧
      (libraryIds (posts 1 2)).Nodup ∧
      compileSource .numbersOnly (postsText "1" "2") = .ok (posts 1 2) := by
  have done : decompile .library (posts 1 2) "Posts" .numbersOnly {} = .ok (postsText "1" "2") := by
    decide +kernel
  have distinct : (libraryIds (posts 1 2)).Nodup := by decide +kernel
  exact ⟨done, distinct, (compileSource_decompile_library done).1 distinct⟩

/-- A library with the ID 1 twice is decoded and printed, and the text does not compile. -/
theorem not_compileSource_decompile_posts :
    decompile .library (posts 1 1) "Posts" .numbersOnly {} = .ok (postsText "1" "1") ∧
      compileSource .numbersOnly (postsText "1" "1") =
        .error (.semantic (.duplicateBehaviour "Behaviour_1" ⟨10, 2, 125⟩)) := by
  decide +kernel

end BehaviourScript
