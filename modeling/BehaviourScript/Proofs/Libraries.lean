/-
This file proves that a library's binary is put together from its behaviours
compiled one by one. A behaviour of a library means what it means alone, once it
has lost its index and got the consts of the library that it does not declare
itself. And it makes no difference that a writer fills the length of a graph in
only after the graph: what stands before and behind the length stays as it is.
-/

import BehaviourScript.Proofs.Binary.Sessions
import BehaviourScript.Proofs.Consts.Inherited
import BehaviourScript.Proofs.Limits.Scripts
import BehaviourScript.Proofs.Unplaced

namespace BehaviourScript

open Outcome

/-! ### Behaviours by themselves -/

/-- A behaviour without the attribute that only a library's behaviour has. -/
def Behaviour.unindexed (behaviour : Behaviour) : Behaviour :=
  { behaviour with
    attributes := behaviour.attributes.filter fun attr => attr.kind.globalIndex?.isNone }

/-- A behaviour of a library as a script of its own: it has no index, and declares the consts that
it sees in the library with the values they have there. -/
def Library.standalone (library : Library) (scope : Scope) (behaviour : Behaviour) : Behaviour :=
  { behaviour.unindexed with
    consts := inherited scope library.consts behaviour.consts ++ behaviour.consts }

theorem Placement.behaviour_allows {kind : Attribute.Kind}
    (allowed : libraryBehaviour.allows kind = true) (other : kind.globalIndex?.isNone = true) :
    behaviour.allows kind = true := by
  cases kind with
  | globalIndex value => exact nomatch other
  | priority value => rfl
  | startFrom state => rfl
  | unknown value => rfl
  | _ => exact nomatch allowed

theorem Env.checkBehaviour_unindexed {env : Env} {behaviour : Behaviour}
    (passes : env.checkBehaviour .libraryBehaviour behaviour = .ok ()) :
    env.checkBehaviour .behaviour behaviour.unindexed = .ok () := by
  rw [checkBehaviour_eq_ok, checkAttributes_eq_ok] at passes ⊢
  obtain ⟨⟨distinct, each⟩, states, start, starter, bodies⟩ := passes
  have kept : behaviour.unindexed.attributes.Sublist behaviour.attributes := List.filter_sublist
  refine ⟨⟨distinct.sublist (kept.map _), fun attr member => ?_⟩, states, fun attr member => ?_,
    starter, bodies⟩
  · obtain ⟨inside, other⟩ := List.mem_filter.mp member
    exact ⟨Placement.behaviour_allows (each attr inside).1 other, (each attr inside).2⟩
  · exact start attr (kept.subset member)

theorem Encode.behaviour_unindexed (resolvers : CompileResolvers) (env : Env)
    (content : Behaviour) :
    behaviour resolvers env content.unindexed = behaviour resolvers env content := by
  have settings : content.unindexed.attributes.foldlM (graphSetting env content.unindexed) {} =
      content.attributes.foldlM (graphSetting env content) {} := by
    unfold Behaviour.unindexed
    rw [List.foldlM_filter]
    refine congrArg (List.foldlM · _ content.attributes) (funext fun settings => ?_)
    funext attr
    unfold graphSetting
    cases attr.kind <;> rfl
  rw [behaviour_eq, behaviour_eq, settings]
  rfl

section Alone

variable {resolvers : CompileResolvers} {first second : Env} (same : first.Same second)

include same

theorem Env.Same.checkBehaviour_eq_ok {placement : Placement} {content : Behaviour}
    (passes : first.checkBehaviour placement content = .ok ()) :
    second.checkBehaviour placement content = .ok () :=
  ((Behaviour.like_of_erase rfl).check_iff same.like placement).mp passes

theorem Encode.behaviour_eq_ok_of_same {placement : Placement} {content : Behaviour}
    (passes : first.checkBehaviour placement content = .ok ()) {bytes : Bytes}
    (emitted : behaviour resolvers first content = .ok bytes) :
    behaviour resolvers second content = .ok bytes :=
  (behaviour_like_of_checked same.like biUnique_eq resolvers
    (Behaviour.likeBy_of_erase rfl) passes).eq_ok emitted

end Alone

/-- What is written for a behaviour of a library is what it compiles to by itself. -/
theorem assemble_standalone {resolvers : CompileResolvers} {library : Library}
    {outerConsts consts : List ConstDecl} {outer inner : Scope} {behaviour : Behaviour}
    {graph : Bytes} (outerBuilt : buildScope library.consts none = .ok (outerConsts, outer))
    (built : buildScope behaviour.consts (some outer) = .ok (consts, inner))
    (passes : Env.checkBehaviour ⟨inner, some outer⟩ .libraryBehaviour behaviour = .ok ())
    (emitted : Encode.behaviour resolvers ⟨inner, some outer⟩ behaviour = .ok graph) :
    assemble resolvers (.behaviour (library.standalone outer behaviour)) = .ok graph := by
  obtain ⟨joined, scope, joinedBuilt, same⟩ := exists_buildScope_joined outerBuilt built
  have back : Env.Same ⟨inner, some outer⟩ ⟨scope, none⟩ := fun name => (same name).symm
  have unindexed := Env.checkBehaviour_unindexed passes
  have alone : analyze (.behaviour (library.standalone outer behaviour)) =
      .ok (.behaviour { behaviour.unindexed with consts := joined }, .ofScope scope) := by
    rw [analyze_eq_ok]
    refine ⟨?_, back.checkBehaviour_eq_ok unindexed⟩
    exact buildTable_eq_ok.mpr (.behaviour joinedBuilt)
  unfold assemble
  rw [alone]
  rw [← Encode.behaviour_unindexed] at emitted
  exact Encode.behaviour_eq_ok_of_same back unindexed emitted

/-! ### The scopes of a library -/

section Children

variable {table final : SymbolTable} {behaviours ordered : List Behaviour}

/-- The scopes of other behaviours and of the library stay as they are. -/
theorem buildChildren_frame (built : buildChildren table behaviours = .ok (ordered, final)) :
    final.root = table.root ∧
      ∀ name ∉ behaviours.map Behaviour.name, final.child? name = table.child? name := by
  induction behaviours generalizing table ordered with
  | nil =>
    cases built
    exact ⟨rfl, fun _ _ => rfl⟩
  | cons behaviour rest inductionHypothesis =>
    simp only [buildChildren, bind_eq_ok] at built
    obtain ⟨⟨consts, scope⟩, _, ⟨others, last⟩, behind, done⟩ := built
    cases done
    obtain ⟨root, children⟩ := inductionHypothesis behind
    refine ⟨root, fun name absent => ?_⟩
    rw [List.map_cons, List.mem_cons, not_or] at absent
    rw [children name absent.2]
    exact Assoc.get?_set_other absent.1 scope table.children

/-- A behaviour's list has been built over the library's scope, to the scope that the behaviour
sees first. -/
def SymbolTable.Settles (table : SymbolTable) (behaviour placed : Behaviour) : Prop :=
  ∃ consts scope, buildScope behaviour.consts (some table.root) = .ok (consts, scope) ∧
    placed = { behaviour with consts := consts } ∧
    table.behaviourEnv behaviour.name = ⟨scope, some table.root⟩

/-- If no name is used twice, each behaviour sees the scope of its own list. -/
theorem buildChildren_settles (distinct : (behaviours.map Behaviour.name).Nodup)
    (built : buildChildren table behaviours = .ok (ordered, final)) :
    List.Forall₂ final.Settles behaviours ordered := by
  induction behaviours generalizing table ordered with
  | nil =>
    cases built
    exact .nil
  | cons behaviour rest inductionHypothesis =>
    simp only [buildChildren, bind_eq_ok] at built
    obtain ⟨⟨consts, scope⟩, scopeBuilt, ⟨others, last⟩, behind, done⟩ := built
    cases done
    rw [List.map_cons, List.nodup_cons] at distinct
    obtain ⟨root, children⟩ := buildChildren_frame behind
    -- the behaviours behind have other names and do not touch this one's scope
    have child : last.child? behaviour.name = some scope := by
      rw [children _ distinct.1]
      exact Assoc.get?_set_self behaviour.name scope table.children
    refine .cons ⟨consts, scope, ?_, rfl, ?_⟩ (inductionHypothesis distinct.2 behind)
    · rw [root]
      exact scopeBuilt
    · unfold SymbolTable.behaviourEnv
      rw [child]

end Children

theorem analyze_library {library : Library} {ordered : Script} {table : SymbolTable}
    (analysed : analyze (.library library) = .ok (ordered, table)) :
    ∃ consts behaviours, ordered = .library { library with consts, behaviours } ∧
      buildScope library.consts none = .ok (consts, table.root) ∧
      List.Forall₂ table.Settles library.behaviours behaviours ∧
      ∀ placed ∈ behaviours,
        (table.behaviourEnv placed.name).checkBehaviour .libraryBehaviour placed = .ok () := by
  obtain ⟨built, checked⟩ := analyze_eq_ok.mp analysed
  cases buildTable_eq_ok.mp built with
  | @library _ consts _ behaviours _ scopeBuilt children =>
    obtain ⟨_, distinct, passes⟩ := SymbolTable.checkLibrary_eq_ok.mp checked
    refine ⟨consts, behaviours, rfl, ?_, ?_, passes⟩
    · rw [scopeBuilt, (buildChildren_frame children).1]
      rfl
    · have named : behaviours.map Behaviour.name = library.behaviours.map Behaviour.name :=
        buildChildren_map (fun _ _ => rfl) children
      exact buildChildren_settles (named ▸ distinct) children

/-! ### Entries -/

/-- What a library's binary holds of a behaviour: the ID of its graph, and the graph. -/
structure GraphEntry where
  id : Int
  graph : Bytes
  deriving DecidableEq

namespace GraphEntry

/-- The graph of an entry, behind its ID and its length. -/
def bytes (entry : GraphEntry) : Bytes :=
  IntFormat.u32.encode entry.id ++ IntFormat.u32.encode entry.graph.length ++ entry.graph

end GraphEntry

/-- The number that stands before a library's behaviours: zero if no attribute gives one. -/
def Library.HasUnknown (library : Library) (env : Env) (value : Int) : Prop :=
  match Canonical.pick Attribute.Kind.unknown? library.attributes with
  | some expr => env.eval expr = .ok value
  | none => value = 0

/-- An entry holds a behaviour of a library: the behaviour's ID, and what the behaviour compiles
to by itself. -/
structure Library.Holds (resolvers : CompileResolvers) (table : SymbolTable) (library : Library)
    (behaviour : Behaviour) (entry : GraphEntry) : Prop where
  id : behaviour.HasGraphId resolvers (table.behaviourEnv behaviour.name) entry.id
  idFits : IntFormat.u32.holds entry.id = true
  lengthFits : IntFormat.u32.holds entry.graph.length = true
  alone : assemble resolvers (.behaviour (library.standalone table.root behaviour)) =
    .ok entry.graph

namespace Encode

theorem entries_eq_ok {resolvers : CompileResolvers} {table : SymbolTable}
    {taken : List (Int × String)} {row : List Behaviour} {bytes : Bytes}
    (emitted : entries resolvers table taken row = .ok bytes) :
    ∃ parts : List GraphEntry, bytes = parts.flatMap GraphEntry.bytes ∧
      List.Forall₂ (fun content part =>
        graphId resolvers (table.behaviourEnv content.name) content = .ok part.id ∧
        behaviour resolvers (table.behaviourEnv content.name) content = .ok part.graph ∧
        IntFormat.u32.holds part.graph.length = true) row parts := by
  induction row generalizing taken bytes with
  | nil =>
    cases emitted
    exact ⟨[], rfl, .nil⟩
  | cons first rest inductionHypothesis =>
    obtain ⟨id, graph, others, found, graphEmitted, short, othersEmitted, rfl⟩ :=
      entries_cons_eq_ok emitted
    obtain ⟨parts, rfl, each⟩ := inductionHypothesis othersEmitted
    exact ⟨⟨id, graph⟩ :: parts, rfl, .cons ⟨found, graphEmitted, short⟩ each⟩

theorem libraryUnknown_eq_ok {table : SymbolTable} {content : Library} {value : Int}
    (measured : libraryUnknown table content = .ok value) :
    content.HasUnknown table.rootEnv value ∧ IntFormat.u16.holds value = true := by
  unfold libraryUnknown at measured
  unfold Library.HasUnknown
  rw [unknown?_eq] at measured
  cases picked : Canonical.pick Attribute.Kind.unknown? content.attributes with
  | some expr =>
    rw [picked] at measured
    exact Quantity.measure_eq_ok.mp measured
  | none =>
    rw [picked] at measured
    cases measured
    exact ⟨rfl, by decide⟩

theorem library_eq_ok {resolvers : CompileResolvers} {table : SymbolTable} {content : Library}
    {bytes : Bytes} (emitted : library resolvers table content = .ok bytes) :
    IntFormat.u16.holds content.behaviours.length = true ∧
      ∃ unknown, (content.HasUnknown table.rootEnv unknown ∧ IntFormat.u16.holds unknown = true) ∧
        ∃ row, entries resolvers table [] content.behaviours = .ok row ∧
          bytes = IntFormat.u16.encode content.behaviours.length ++ IntFormat.u16.encode unknown ++
            row := by
  rw [library_eq] at emitted
  simp only [bind_eq_ok, pure_eq_ok] at emitted
  obtain ⟨count, fitted, unknown, measured, row, rowEmitted, same⟩ := emitted
  obtain ⟨few, rfl⟩ := Quantity.fit_eq_ok.mp fitted
  exact ⟨few, unknown, libraryUnknown_eq_ok measured, row, rowEmitted, same.symm⟩

end Encode

/-! ### Lengths that are filled in afterwards -/

namespace Writer

theorem length_append_sub (writer : Writer) (bytes : Bytes) :
    (writer.append bytes).length - writer.length = bytes.length := by
  unfold append length
  rw [List.length_append, Nat.add_sub_cancel_left]

end Writer

namespace Encode

/-- Writes the behaviours of a library behind what is written already. The length of a graph is
zero at first, and filled in when the graph is there. -/
def writeEntries (resolvers : CompileResolvers) (table : SymbolTable) :
    (taken : List (Int × String)) → Writer → List Behaviour → Outcome Writer
  | _, writer, [] => .ok writer
  | taken, writer, first :: rest => do
    let env := table.behaviourEnv first.name
    let id ← graphId resolvers env first
    match Assoc.get? id taken with
    | some holder =>
      throw (.semantic (.duplicateGraphId id first.name holder first.span.start))
    | none =>
      let header := writer.write .u32 id
      let start := header.write .u32 0
      let written := start.append (← behaviour resolvers env first)
      let length ← (Quantity.graphLength first.name).fit (written.length - start.length : Nat)
      writeEntries resolvers table ((id, first.name) :: taken)
        (written.patch header.length length) rest

/-- Writes a library. -/
def writeLibrary (resolvers : CompileResolvers) (table : SymbolTable) (content : Library) :
    Outcome Writer := do
  let count ← (Quantity.behaviourCount content.name).fit content.behaviours.length
  let unknown ← libraryUnknown table content
  let header := (Writer.empty.write .u16 count).write .u16 unknown
  writeEntries resolvers table [] header content.behaviours

/-- A writer that fills lengths in ends with what it began with, and then the entries. -/
theorem writeEntries_eq (resolvers : CompileResolvers) (table : SymbolTable)
    (taken : List (Int × String)) (writer : Writer) (row : List Behaviour) :
    writeEntries resolvers table taken writer row =
      writer.append <$> entries resolvers table taken row := by
  -- the writer is general: each step hands on all that was written before, lengths filled in
  induction row generalizing taken writer with
  | nil => exact congrArg Except.ok (congrArg Writer.mk (List.append_nil _).symm)
  | cons first rest inductionHypothesis =>
    rw [writeEntries, entries, map_bind]
    refine congrArg (bind _) (funext fun id => ?_)
    cases Assoc.get? id taken with
    | some holder => rfl
    | none =>
      simp only [map_bind, map_pure, Writer.length_append_sub, inductionHypothesis]
      refine congrArg (bind _) (funext fun graph => congrArg (bind _) (funext fun length => ?_))
      rw [Writer.patch_written, map_eq_pure_bind]
      refine congrArg (bind _) (funext fun others => congrArg pure ?_)
      simp only [Writer.append, Writer.write, List.append_assoc]

theorem writeLibrary_eq (resolvers : CompileResolvers) (table : SymbolTable) (content : Library) :
    writeLibrary resolvers table content = Writer.mk <$> library resolvers table content := by
  rw [library_eq, writeLibrary]
  simp only [writeEntries_eq, map_eq_pure_bind, bind_assoc, pure_bind]
  rfl

end Encode

/-! ### Libraries -/

theorem forall₂_comp {α β γ : Type} {First : α → β → Prop} {Second : β → γ → Prop}
    {Both : α → γ → Prop} (join : ∀ front middle back, First front middle → Second middle back →
      Both front back) {fronts : List α} {middles : List β} {backs : List γ}
    (first : List.Forall₂ First fronts middles) (second : List.Forall₂ Second middles backs) :
    List.Forall₂ Both fronts backs := by
  induction first generalizing backs with
  | nil =>
    cases second
    exact .nil
  | cons here _ inductionHypothesis =>
    cases second with
    | cons there behind => exact .cons (join _ _ _ here there) (inductionHypothesis behind)

theorem Library.holds_of_settles {resolvers : CompileResolvers} {library : Library}
    {consts : List ConstDecl} {table : SymbolTable}
    (outer : buildScope library.consts none = .ok (consts, table.root))
    {behaviour placed : Behaviour} {entry : GraphEntry} (settled : table.Settles behaviour placed)
    (passes : (table.behaviourEnv placed.name).checkBehaviour .libraryBehaviour placed = .ok ())
    (found : Encode.graphId resolvers (table.behaviourEnv placed.name) placed = .ok entry.id)
    (emitted : Encode.behaviour resolvers (table.behaviourEnv placed.name) placed =
      .ok entry.graph)
    (short : IntFormat.u32.holds entry.graph.length = true) :
    library.Holds resolvers table behaviour entry := by
  have attributesPass := (Env.checkBehaviour_eq_ok.mp passes).1
  obtain ⟨named, inRange⟩ := (Encode.graphId_decides resolvers attributesPass).known found
  obtain ⟨consts, scope, built, rfl, sees⟩ := settled
  refine ⟨named, IntFormat.holds_iff.mpr inRange, short, ?_⟩
  simp only [sees] at passes emitted
  exact assemble_standalone outer built passes emitted

/-- The binary of a library is the number of its behaviours, its `Unknown`, and then for each
behaviour in order its ID, its length and what it compiles to by itself, where the library's
consts have the values that they have in the library. A writer that fills the lengths in comes to
the same bytes. -/
theorem library_bytes {resolvers : CompileResolvers} {library : Library} {ordered : Script}
    {table : SymbolTable} {bytes : Bytes}
    (analysed : analyze (.library library) = .ok (ordered, table))
    (emitted : emit resolvers table ordered = .ok bytes) :
    (∃ consts, buildScope library.consts none = .ok (consts, table.root)) ∧
    (∀ decl ∈ library.consts, ∃ value, table.rootEnv.value? decl.name = some value) ∧
    (∃ unknown entries, library.HasUnknown table.rootEnv unknown ∧
      IntFormat.u16.holds unknown = true ∧ IntFormat.u16.holds library.behaviours.length = true ∧
      List.Forall₂ (library.Holds resolvers table) library.behaviours entries ∧
      bytes = IntFormat.u16.encode library.behaviours.length ++ IntFormat.u16.encode unknown ++
        entries.flatMap GraphEntry.bytes) ∧
    ∃ sorted, ordered = .library sorted ∧
      Encode.writeLibrary resolvers table sorted = .ok ⟨bytes⟩ := by
  obtain ⟨consts, behaviours, rfl, outer, settled, passes⟩ := analyze_library analysed
  obtain ⟨_, _, solved⟩ := buildScope_solves outer
  have written := Encode.writeLibrary_eq resolvers table { library with consts, behaviours }
  simp only [emit] at emitted
  rw [emitted] at written
  obtain ⟨few, unknown, ⟨hasUnknown, fits⟩, row, rowEmitted, rfl⟩ :=
    Encode.library_eq_ok emitted
  obtain ⟨entries, rfl, each⟩ := Encode.entries_eq_ok rowEmitted
  have number : behaviours.length = library.behaviours.length := settled.length_eq.symm
  refine ⟨⟨consts, outer⟩, fun decl member => ?_, ⟨unknown, entries, hasUnknown, fits,
    number ▸ few, ?_, by rw [number]⟩, _, rfl, written⟩
  · obtain ⟨value, found, _⟩ := solved.settles decl member
    exact ⟨value, Env.value?_of_values found none⟩
  · refine forall₂_comp ?_ settled ((List.forall₂_and_left _ _).mpr ⟨passes, each⟩)
    rintro behaviour placed entry settles ⟨pass, found, graph, short⟩
    exact Library.holds_of_settles outer settles pass found graph short

def yardBehaviour (name : String) (consts : List ConstDecl) : Behaviour where
  attributes := [⟨.globalIndex (.const "Base" .dummy), .dummy⟩]
  name := name
  consts := consts
  starter := none
  states := [⟨[], "Lift", none, [⟨none, [⟨3, [.const "Step" .dummy], .dummy⟩], none, .dummy⟩],
    .dummy⟩]
  span := .dummy

/-- A library whose first behaviour hides a const that another const of the library is computed
from. -/
def yard : Library where
  attributes := [⟨.unknown (.const "Step" .dummy), .dummy⟩]
  name := "Yard"
  consts := [⟨"Base", .literal 4, .dummy⟩,
    ⟨"Step", .binary .add (.const "Base" .dummy) (.literal 1) .dummy, .dummy⟩]
  behaviours := [yardBehaviour "Crane" [⟨"Base", .literal 9, .dummy⟩], yardBehaviour "Hoist" []]
  span := .dummy

def yardTable : SymbolTable :=
  ⟨⟨[("Base", .of 4 0 .dummy), ("Step", .of 5 1 .dummy)]⟩,
    [("Crane", ⟨[("Base", .of 9 0 .dummy)]⟩), ("Hoist", ⟨[]⟩)]⟩

def yardBinary : Bytes :=
  [2, 0, 5, 0, 9, 0, 0, 0, 20, 0, 0, 0, 0, 0, 0, 0, 1, 0, 255, 255, 2, 0, 255, 255, 3, 0, 1, 0, 5,
    0, 0, 0, 4, 0, 0, 0, 20, 0, 0, 0, 0, 0, 0, 0, 1, 0, 255, 255, 2, 0, 255, 255, 3, 0, 1, 0, 5, 0,
    0, 0]

theorem library_bytes_yard :
    analyze (.library yard) = .ok (.library yard, yardTable) ∧
    emit .numbersOnly yardTable (.library yard) = .ok yardBinary ∧
    (∃ consts, buildScope yard.consts none = .ok (consts, yardTable.root)) ∧
    (∀ decl ∈ yard.consts, ∃ value, yardTable.rootEnv.value? decl.name = some value) ∧
    (∃ unknown entries, yard.HasUnknown yardTable.rootEnv unknown ∧
      IntFormat.u16.holds unknown = true ∧ IntFormat.u16.holds yard.behaviours.length = true ∧
      List.Forall₂ (yard.Holds .numbersOnly yardTable) yard.behaviours entries ∧
      yardBinary = IntFormat.u16.encode yard.behaviours.length ++ IntFormat.u16.encode unknown ++
        entries.flatMap GraphEntry.bytes) ∧
    ∃ sorted, Script.library yard = .library sorted ∧
      Encode.writeLibrary .numbersOnly yardTable sorted = .ok ⟨yardBinary⟩ := by
  have analysed : analyze (.library yard) = .ok (.library yard, yardTable) := by decide +kernel
  have emitted : emit .numbersOnly yardTable (.library yard) = .ok yardBinary := by decide +kernel
  exact ⟨analysed, emitted, library_bytes analysed emitted⟩

end BehaviourScript
