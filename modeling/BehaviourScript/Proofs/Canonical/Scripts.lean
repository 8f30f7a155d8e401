/-
This file ends the comparison of the encoder with the canonical form, at
libraries, sequences and whole scripts. A script that was read from a text and
analysed keeps its kind, its name and its states, so whatever it is compiled to
is the binary format of its canonical form.
-/

import BehaviourScript.Proofs.Canonical.Graphs

namespace BehaviourScript

open Outcome

namespace Encode

variable {env : Env} {resolvers : CompileResolvers} {table : SymbolTable}

/-! ### Libraries -/

theorem graphId_value {content : Behaviour} {id : Int}
    (found : graphId resolvers env content = .ok id) :
    ∃ index < IntFormat.u32.modulus, id = index ∧
      Canonical.graphId env resolvers content = index := by
  rw [graphId_eq, bind_eq_ok] at found
  obtain ⟨given, named, fitted⟩ := found
  obtain ⟨fits, rfl⟩ := Quantity.fit_eq_ok.mp fitted
  have bounds : 0 ≤ given ∧ given ≤ IntFormat.u32.max := Quantity.holds_iff.mp fits
  obtain ⟨index, rfl⟩ := Int.eq_ofNat_of_zero_le bounds.1
  refine ⟨index, (IntFormat.le_max_iff rfl).mp bounds.2, rfl, ?_⟩
  unfold namedId at named
  unfold Canonical.graphId
  rw [globalIndex?_eq] at named
  cases picked : Canonical.pick Attribute.Kind.globalIndex? content.attributes with
  | some expr =>
    rw [picked] at named
    exact env.value_eq (ofSemantic_eq_ok.mp named)
  | none =>
    rw [picked] at named
    exact CompileResolvers.idOf_eq (ofResolution_eq_ok.mp named)

/-- The canonical form of a library's behaviour with the ID of its graph. -/
def canonicalEntry (resolvers : CompileResolvers) (table : SymbolTable) (content : Behaviour) :
    Nat × Behaviour :=
  ((Canonical.graphId (table.behaviourEnv content.name) resolvers content).toNat,
    Canonical.entry (table.behaviourEnv content.name) resolvers content)

/-- What is written for the behaviours of a library is a row of the format. -/
theorem entries_formatted {row : List Behaviour} (nonempty : ∀ content ∈ row, content.states ≠ [])
    (passes : ∀ content ∈ row,
      (table.behaviourEnv content.name).checkBehaviour .libraryBehaviour content = .ok ())
    {taken : List (Int × String)} {bytes : Bytes}
    (emitted : entries resolvers table taken row = .ok bytes) :
    (Format.entry .numbersOnly).Rows bytes (row.map (canonicalEntry resolvers table)) := by
  induction row generalizing taken bytes with
  | nil =>
    cases emitted
    exact .nil
  | cons first rest inductionHypothesis =>
    rw [List.forall_mem_cons] at nonempty passes
    obtain ⟨id, graph, others, found, graphEmitted, short, othersEmitted, rfl⟩ :=
      entries_cons_eq_ok emitted
    obtain ⟨index, small, rfl, same⟩ := graphId_value found
    refine .cons ?_ (inductionHypothesis nonempty.2 passes.2 othersEmitted)
    unfold canonicalEntry Canonical.entry
    rw [same]
    exact .intro small ((IntFormat.le_max_iff rfl).mp (IntFormat.holds_iff.mp short).2) rfl
      (behaviour_formatted nonempty.1 passes.1 graphEmitted _ _)

theorem libraryUnknown_value {content : Library} {value : Int}
    (measured : libraryUnknown table content = .ok value) :
    ∃ unknown < IntFormat.u16.modulus, value = unknown ∧
      Canonical.pickValue table.rootEnv Attribute.Kind.unknown? content.attributes = unknown := by
  unfold libraryUnknown at measured
  unfold Canonical.pickValue
  rw [unknown?_eq] at measured
  cases picked : Canonical.pick Attribute.Kind.unknown? content.attributes with
  | some expr =>
    rw [picked] at measured
    obtain ⟨same, fits⟩ := Quantity.measure_value measured
    have bounds : 0 ≤ value ∧ value ≤ IntFormat.u16.max := Quantity.holds_iff.mp fits
    obtain ⟨unknown, rfl⟩ := Int.eq_ofNat_of_zero_le bounds.1
    exact ⟨unknown, (IntFormat.le_max_iff rfl).mp bounds.2, rfl, same⟩
  | none =>
    rw [picked] at measured
    cases measured
    exact ⟨0, by decide, rfl, rfl⟩

/-- What is written for a library is of the format. -/
theorem library_formatted {content : Library}
    (nonempty : ∀ behaviour ∈ content.behaviours, behaviour.states ≠ [])
    (passes : table.checkLibrary content = .ok ()) {bytes : Bytes}
    (emitted : library resolvers table content = .ok bytes) :
    Format.library .numbersOnly content.name bytes (Canonical.library resolvers table content) := by
  obtain ⟨_, _, behavioursPass⟩ := SymbolTable.checkLibrary_eq_ok.mp passes
  rw [library_eq] at emitted
  simp only [bind_eq_ok, pure_eq_ok] at emitted
  obtain ⟨count, fitted, unknown, measured, rowBytes, rowEmitted, rfl⟩ := emitted
  obtain ⟨few, rfl⟩ := Quantity.fit_eq_ok.mp fitted
  obtain ⟨unknown, small, rfl, same⟩ := libraryUnknown_value measured
  have rows := entries_formatted nonempty behavioursPass rowEmitted
  have short : (content.behaviours.map (canonicalEntry resolvers table)).length <
      IntFormat.u16.modulus := by
    rw [List.length_map]
    exact (IntFormat.le_max_iff rfl).mp (Quantity.holds_iff.mp few).2
  have written : Format.library .numbersOnly content.name _ _ := .intro short small rows
  rw [List.length_map, List.map_map, unknownAttribute_eq same] at written
  exact written

/-! ### Sequences -/

theorem pack_formatted {content : CommandPack} {bytes : Bytes}
    (emitted : pack resolvers env content = .ok bytes) :
    Format.pack .numbersOnly bytes (Canonical.pack env resolvers content) := by
  unfold pack at emitted
  simp only [bind_eq_ok, pure_eq_ok, ofResolution_eq_ok] at emitted
  obtain ⟨row, rowEmitted, id, found, script, fitted, rfl⟩ := emitted
  obtain ⟨fits, rfl⟩ := Quantity.fit_eq_ok.mp fitted
  unfold Canonical.pack
  rw [CompileResolvers.idOf_eq found]
  exact .intro (commandPack_formatted rowEmitted) fits rfl

/-- What is written for a sequence is of the format. -/
theorem sequence_formatted {content : Sequence} (passes : env.checkSequence content = .ok ())
    {bytes : Bytes} (emitted : sequence resolvers env content = .ok bytes) :
    Format.sequence .numbersOnly content.name bytes (Canonical.sequence env resolvers content) := by
  unfold sequence at emitted
  simp only [bind_eq_ok, pure_eq_ok] at emitted
  obtain ⟨settings, run, count, fitted, parts, packsEmitted, rowBytes, rowEmitted, rfl⟩ := emitted
  obtain ⟨few, rfl⟩ := Quantity.fit_eq_ok.mp fitted
  have distinct := (Env.checkAttributes_eq_ok.mp (Env.checkSequence_eq_ok.mp passes).1).1
  obtain ⟨⟨instanceType, lowType⟩, ⟨globalIndex, lowIndex⟩, unknown, lowUnknown⟩ :=
    sequenceSettings_picked distinct run
  have packs := rows_formatted (fun _ _ _ => pack_formatted) (mapM_eq_ok.mp packsEmitted)
  have short : (content.packs.map (Canonical.pack env resolvers)).length ≤
      Layout.Sequence.packCount.max := by
    rw [List.length_map]
    exact Int.ofNat_le.mp (Quantity.holds_iff.mp few).2
  have written : Format.sequence .numbersOnly content.name _ _ :=
    .intro lowType lowIndex lowUnknown short packs (commandPack_formatted rowEmitted)
  rw [List.length_map, unknownAttribute_eq unknown] at written
  unfold Canonical.sequence
  rw [instanceType, globalIndex]
  exact written

end Encode

/-! ### Scripts -/

namespace Script

/-- Every behaviour of a script has a state. -/
def HasStates : Script → Prop
  | library content => ∀ behaviour ∈ content.behaviours, behaviour.states ≠ []
  | behaviour content => content.states ≠ []
  | sequence _ => True

end Script

/-- What is written for a script is of the format, for the script in canonical form. -/
theorem emit_formatted {resolvers : CompileResolvers} {table : SymbolTable} {script : Script}
    (nonempty : script.HasStates) (passes : table.check script = .ok ()) {bytes : Bytes}
    (emitted : emit resolvers table script = .ok bytes) :
    Format.script .numbersOnly script.name script.kind bytes (canonical resolvers table script) := by
  cases script with
  | library content => exact .library (Encode.library_formatted nonempty passes emitted)
  | behaviour content => exact .behaviour (Encode.behaviour_formatted nonempty passes emitted _ _)
  | sequence content => exact .sequence (Encode.sequence_formatted passes emitted)

/-- Whatever does not look at the consts of behaviours is the same before and after. -/
theorem buildChildren_map {α : Type} {view : Behaviour → α}
    (unseen : ∀ behaviour consts, view { behaviour with consts := consts } = view behaviour)
    {table final : SymbolTable} {behaviours ordered : List Behaviour}
    (built : buildChildren table behaviours = .ok (ordered, final)) :
    ordered.map view = behaviours.map view := by
  induction behaviours generalizing table ordered with
  | nil =>
    cases built
    rfl
  | cons behaviour rest inductionHypothesis =>
    unfold buildChildren at built
    simp only [bind_eq_ok] at built
    obtain ⟨⟨consts, scope⟩, _, ⟨others, last⟩, behind, same⟩ := built
    cases same
    rw [List.map_cons, List.map_cons, unseen, inductionHypothesis behind]

/-- What the const lists of a script come to: the script with its lists in order, and its table. -/
inductive BuildsTo : Script → Script → SymbolTable → Prop
  | library {content : Library} {consts : List ConstDecl} {root : Scope}
      {behaviours : List Behaviour} {table : SymbolTable} :
      buildScope content.consts none = .ok (consts, root) →
      buildChildren (.ofScope root) content.behaviours = .ok (behaviours, table) →
      BuildsTo (.library content) (.library { content with consts, behaviours }) table
  | behaviour {content : Behaviour} {consts : List ConstDecl} {root : Scope} :
      buildScope content.consts none = .ok (consts, root) →
      BuildsTo (.behaviour content) (.behaviour { content with consts }) (.ofScope root)
  | sequence {content : Sequence} {consts : List ConstDecl} {root : Scope} :
      buildScope content.consts none = .ok (consts, root) →
      BuildsTo (.sequence content) (.sequence { content with consts }) (.ofScope root)

/-- A table is built from the scopes of the script and of its behaviours. -/
theorem buildTable_eq_ok {script ordered : Script} {table : SymbolTable} :
    buildTable script = .ok (ordered, table) ↔ BuildsTo script ordered table := by
  constructor
  · intro built
    cases script with
    | library content =>
      simp only [buildTable, bind_eq_ok] at built
      obtain ⟨_, first, _, children, same⟩ := built
      cases same
      exact .library first children
    | behaviour content =>
      simp only [buildTable, bind_eq_ok] at built
      obtain ⟨_, first, same⟩ := built
      cases same
      exact .behaviour first
    | sequence content =>
      simp only [buildTable, bind_eq_ok] at built
      obtain ⟨_, first, same⟩ := built
      cases same
      exact .sequence first
  · intro builds
    cases builds with
    | library first children => exact bind_eq_ok.mpr ⟨_, first, bind_eq_ok.mpr ⟨_, children, rfl⟩⟩
    | behaviour first => exact bind_eq_ok.mpr ⟨_, first, rfl⟩
    | sequence first => exact bind_eq_ok.mpr ⟨_, first, rfl⟩

/-- The analysis puts consts in order and leaves the rest of a script as it is. -/
theorem buildTable_keeps {script ordered : Script} {table : SymbolTable}
    (built : buildTable script = .ok (ordered, table)) :
    ordered.kind = script.kind ∧ ordered.name = script.name ∧
      (script.HasStates → ordered.HasStates) := by
  cases buildTable_eq_ok.mp built with
  | @library content _ _ behaviours _ _ children =>
    refine ⟨rfl, rfl, fun nonempty behaviour member => ?_⟩
    have kept : behaviours.map Behaviour.states = content.behaviours.map Behaviour.states :=
      buildChildren_map (fun _ _ => rfl) children
    have shape := List.mem_map_of_mem (f := Behaviour.states) member
    rw [kept] at shape
    obtain ⟨original, inContent, states⟩ := List.mem_map.mp shape
    exact states ▸ nonempty original inContent
  | behaviour _ => exact ⟨rfl, rfl, id⟩
  | sequence _ => exact ⟨rfl, rfl, id⟩

/-- An analysis succeeds if the tables are built and the checks pass. -/
theorem analyze_eq_ok {script ordered : Script} {table : SymbolTable} :
    analyze script = .ok (ordered, table) ↔
      buildTable script = .ok (ordered, table) ∧ table.check ordered = .ok () := by
  unfold analyze
  simp only [bind_eq_ok, pure_eq_ok]
  constructor
  · rintro ⟨⟨ordered, table⟩, built, _, passes, same⟩
    cases same
    exact ⟨built, passes⟩
  · rintro ⟨built, passes⟩
    exact ⟨_, built, (), passes, rfl⟩

end BehaviourScript
