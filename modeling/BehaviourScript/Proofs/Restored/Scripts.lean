/-
This file ends at whole scripts: what was read from a binary passes the analysis
as its text reads, and is written as the same bytes. The behaviours of a library
need distinct IDs for that, since the analysis refuses an ID that is taken.
-/

import BehaviourScript.Proofs.Canonical.Scripts
import BehaviourScript.Proofs.Restored.Graphs
import BehaviourScript.Proofs.Unplaced

namespace BehaviourScript

open Outcome
open Decode (attr number)

theorem IntFormat.u32_holds_of_u16 {value : Int} (fits : IntFormat.u16.holds value = true) :
    IntFormat.u32.holds value = true := by
  have bounds := holds_iff.mp fits
  exact holds_iff.mpr ⟨bounds.1, Int.le_trans bounds.2 (by decide)⟩

/-- The IDs of some number of graphs, each of which stands behind its ID and its length. -/
def graphIds : Nat → Bytes → List Nat
  | 0, _ => []
  | count + 1, bytes =>
    (IntFormat.u32.decode (bytes.take 4)).toNat ::
      graphIds count ((bytes.drop 8).drop (IntFormat.u32.decode ((bytes.drop 4).take 4)).toNat)

/-- The IDs of the graphs in the binary of a library, behind their count and a word. -/
def libraryIds (bytes : Bytes) : List Nat :=
  graphIds (IntFormat.u16.decode (bytes.take 2)).toNat (bytes.drop 4)

namespace Restored

variable {env : Env} {bytes : Bytes} {names : DecompileResolvers} {ids : CompileResolvers}

/-! ### Sequences -/

section Pack

variable {content : CommandPack} (formatted : Format.pack names bytes content)

include formatted

/-- A pack is written as it was read. -/
theorem pack_encoded (inverse : Inverse names ids) :
    Encode.pack ids env (content.mapExpr Expr.reread) = .ok bytes := by
  cases formatted with
  | @intro ident script commands rowBytes row fits found =>
    have wide := IntFormat.u32_holds_of_u16 fits
    unfold Encode.pack
    simp only [bind_eq_ok, pure_eq_ok, ofResolution_eq_ok]
    exact ⟨rowBytes, commandPack_encoded row, ident, (inverse.reference .graph wide found).1, ident,
      Quantity.fit_eq_ok.mpr ⟨fits, rfl⟩, rfl⟩

theorem pack_words : ∀ command ∈ content.commands, ∀ arg ∈ command.args, arg.IsWord := by
  cases formatted with
  | intro row _ _ => exact commandPack_words row

theorem pack_written : names.Writes content.script := by
  cases formatted with
  | intro _ fits found => exact ⟨.graph, _, IntFormat.u32_holds_of_u16 fits, found⟩

theorem pack_spellable (spellable : content.script.Spellable) : content.Spellable :=
  ⟨spellable, fun command member arg inArgs =>
    (pack_words formatted command member arg inArgs).spellable⟩

end Pack

/-- The word of a sequence is set from its attributes. -/
theorem sequenceSettings_encoded (name : String) {instanceType globalIndex unknown : Nat}
    (lowType : instanceType ≤ Layout.Sequence.instanceType.max)
    (lowIndex : globalIndex ≤ Layout.Sequence.globalIndex.max)
    (lowUnknown : unknown ≤ Layout.Sequence.unknown.max) :
    (([attr (.globalIndex (number globalIndex)), attr (.instanceType (number instanceType))] ++
        Decode.unknownAttribute unknown).map (Attribute.mapExpr Expr.reread)).foldlM
          (Encode.sequenceSetting env name) {} =
      .ok { instanceType := instanceType, globalIndex := globalIndex, unknown := unknown } := by
  have fitsType : (Quantity.instanceType name).holds instanceType = true :=
    Quantity.holds_iff.mpr ⟨Int.natCast_nonneg _, Int.ofNat_le.mpr lowType⟩
  have fitsIndex : (Quantity.globalIndex name).holds globalIndex = true :=
    Quantity.holds_iff.mpr ⟨Int.natCast_nonneg _, Int.ofNat_le.mpr lowIndex⟩
  have fitsUnknown : (Quantity.sequenceUnknown name).holds unknown = true :=
    Quantity.holds_iff.mpr ⟨Int.natCast_nonneg _, Int.ofNat_le.mpr lowUnknown⟩
  refine foldlM_attributes { globalIndex := globalIndex }
    { instanceType := instanceType, globalIndex := globalIndex } ?_ ?_ ?_ ?_
  · show (Quantity.measure _ env _ >>= _) = _
    rw [Quantity.measure_reread _ fitsIndex]
    rfl
  · show (Quantity.measure _ env _ >>= _) = _
    rw [Quantity.measure_reread _ fitsType]
    rfl
  · intro zero
    rw [zero]
  · show (Quantity.measure _ env _ >>= _) = _
    rw [Quantity.measure_reread _ fitsUnknown]
    rfl

section Sequence

variable {name : String} {content : Sequence} (formatted : Format.sequence names name bytes content)

include formatted

theorem sequence_listed :
    Attribute.Listed .sequence ["GlobalIndex", "InstanceType", "Unknown"] content.attributes := by
  cases formatted with
  | @intro instanceType globalIndex unknown _ _ _ _ lowType lowIndex lowUnknown _ _ _ =>
    have index := (Quantity.globalIndex "").isWord (Quantity.holds_iff.mpr
      ⟨Int.natCast_nonneg globalIndex, Int.ofNat_le.mpr lowIndex⟩)
    have type := (Quantity.instanceType "").isWord (Quantity.holds_iff.mpr
      ⟨Int.natCast_nonneg instanceType, Int.ofNat_le.mpr lowType⟩)
    have first : Attribute.Listed .sequence ["GlobalIndex"]
        [attr (.globalIndex (number globalIndex))] :=
      .single (.globalIndex _) ⟨List.forall_mem_singleton.mpr index, nofun, nofun⟩ rfl
    have second : Attribute.Listed .sequence ["InstanceType"]
        [attr (.instanceType (number instanceType))] :=
      .single (.instanceType _) ⟨List.forall_mem_singleton.mpr type, nofun, nofun⟩ rfl
    have fits : IntFormat.u32.holds unknown = true :=
      IntFormat.holds_iff.mpr ⟨Int.natCast_nonneg _,
        Int.le_trans (Int.ofNat_le.mpr lowUnknown) (by decide)⟩
    exact (first.append second).append (unknown_listed fits rfl)

/-- A sequence is written as it was read. -/
theorem sequence_encoded (inverse : Inverse names ids) :
    Encode.sequence ids env (content.mapExpr Expr.reread) = .ok bytes := by
  cases formatted with
  | @intro instanceType globalIndex unknown packs commands packBytes rowBytes lowType lowIndex
      lowUnknown few rows row =>
    have each : ∀ pack ∈ packs, ∀ {bytes}, Format.pack names bytes pack →
        Encode.pack ids env (pack.mapExpr Expr.reread) = .ok bytes :=
      fun _ _ _ formatted => pack_encoded formatted inverse
    obtain ⟨parts, emitted, rfl⟩ := rows_encoded rows each
    unfold Encode.sequence
    simp only [bind_eq_ok, pure_eq_ok]
    refine ⟨_, sequenceSettings_encoded _ lowType lowIndex lowUnknown, packs.length, ?_, parts,
      emitted, rowBytes, commandPack_encoded row, rfl⟩
    unfold Sequence.mapExpr
    rw [List.length_map]
    exact Quantity.fit_count rfl (Int.ofNat_le.mpr few)

theorem sequence_packs : ∀ pack ∈ content.packs, ∃ bytes, Format.pack names bytes pack := by
  cases formatted with
  | intro _ _ _ _ rows _ => exact rows_forall rows

theorem sequence_words : ∀ command ∈ content.commands, ∀ arg ∈ command.args, arg.IsWord := by
  cases formatted with
  | intro _ _ _ _ _ row => exact commandPack_words row

theorem sequence_consts : content.consts = [] ∧ content.name = name := by
  cases formatted with
  | intro => exact ⟨rfl, rfl⟩

theorem sequence_exprs : ∀ expr ∈ content.exprs, expr.IsWord := by
  have listed := sequence_listed formatted
  unfold Sequence.exprs
  rw [List.forall_mem_append, List.forall_mem_append, List.forall_mem_append,
    (sequence_consts formatted).1]
  refine ⟨?_, nofun, ?_, ?_⟩
  · intro expr member
    obtain ⟨attr, inAttributes, inAttr⟩ := List.mem_flatMap.mp member
    exact (listed.plain attr inAttributes).words expr inAttr
  · intro expr member
    obtain ⟨pack, inPacks, inPack⟩ := List.mem_flatMap.mp member
    obtain ⟨command, given, inArgs⟩ := List.mem_flatMap.mp inPack
    obtain ⟨_, formatted⟩ := sequence_packs formatted pack inPacks
    exact pack_words formatted command given expr inArgs
  · intro expr member
    obtain ⟨command, given, inArgs⟩ := List.mem_flatMap.mp member
    exact sequence_words formatted command given expr inArgs

theorem sequence_written : ∀ reference ∈ content.references, names.Writes reference := by
  intro reference member
  obtain ⟨pack, inPacks, rfl⟩ := List.mem_map.mp member
  obtain ⟨_, formatted⟩ := sequence_packs formatted pack inPacks
  exact pack_written formatted

/-- A sequence that was read can be spelled if what the host wrote can. -/
theorem sequence_spellable
    (spellable : ∀ reference ∈ content.references, reference.Spellable)
    (identifier : isIdentifier name = true) : content.Spellable := by
  have listed := sequence_listed formatted
  obtain ⟨consts, named⟩ := sequence_consts formatted
  refine ⟨fun attr member => (listed.plain attr member).spellable, named ▸ identifier, ?_, ?_, ?_⟩
  · rw [consts]
    exact nofun
  · intro pack member
    obtain ⟨_, formatted⟩ := sequence_packs formatted pack member
    exact pack_spellable formatted (spellable _ (List.mem_map_of_mem member))
  · exact fun command member arg inArgs =>
      (sequence_words formatted command member arg inArgs).spellable

/-- A sequence that was read passes the checks. -/
theorem sequence_checked : env.checkSequence (content.mapExpr Expr.reread) = .ok () := by
  have listed := sequence_listed formatted
  refine Env.checkSequence_eq_ok.mpr ⟨listed.checked (by decide) env, ?_,
    commands_checked (sequence_words formatted)⟩
  intro pack member
  obtain ⟨original, inPacks, rfl⟩ := List.mem_map.mp member
  obtain ⟨_, formatted⟩ := sequence_packs formatted original inPacks
  exact commands_checked (pack_words formatted)

end Sequence

/-! ### Libraries -/

section Front

variable {id : Nat} {attributes : List Attribute}
  (front : attributes = [] ∨ attributes = [attr (.globalIndex (number id))])

include front

theorem front_listed (fits : IntFormat.u32.holds id = true) :
    Attribute.Listed .libraryBehaviour ["GlobalIndex"] attributes := by
  rcases front with rfl | rfl
  · exact .nil
  · have word := (Quantity.graphId "").isWord fits
    exact .single (.globalIndex _) ⟨List.forall_mem_singleton.mpr word, nofun, nofun⟩ rfl

/-- The attribute with the ID of a behaviour sets nothing in its graph. -/
theorem front_encoded (content : Behaviour) :
    (attributes.map (Attribute.mapExpr Expr.reread)).foldlM (Encode.graphSetting env content) {} =
      .ok {} := by
  rcases front with rfl | rfl <;> rfl

end Front

/-- Only the attributes in front of a behaviour's own can hold an ID. -/
theorem globalIndex?_behaviour {name : String} {attributes : List Attribute} {content : Behaviour}
    (formatted : Format.behaviour names name attributes bytes content) :
    Encode.globalIndex? (content.mapExpr Expr.reread).attributes =
      Encode.globalIndex? (attributes.map (Attribute.mapExpr Expr.reread)) := by
  cases formatted with
  | @intro start priority unknown _ _ _ _ _ _ _ _ _ _ _ =>
    have absent : ((Decode.unknownAttribute unknown).map (Attribute.mapExpr Expr.reread)).findSome?
        (fun attr => attr.kind.globalIndex?) = none := by
      unfold Decode.unknownAttribute
      split <;> rfl
    rw [Encode.globalIndex?_eq, Encode.globalIndex?_eq]
    unfold Behaviour.mapExpr Canonical.pick
    rw [List.map_append, List.map_append, List.findSome?_append, List.findSome?_append, absent,
      Option.or_none]
    exact Option.or_none

section Entry

variable {id : Nat} {content : Behaviour} (formatted : Format.entry names bytes (id, content))

include formatted

/-- The behaviour of an entry goes by the name that the host has for its ID. -/
theorem entry_named : IntFormat.u32.holds id = true ∧
    ∃ attributes, Decode.entryName names id = .ok (content.name, attributes) := by
  cases formatted with
  | @intro _ name attributes _ graph small short found formatted =>
    refine ⟨IntFormat.holds_iff.mpr ⟨Int.natCast_nonneg _, (IntFormat.le_max_iff rfl).mpr small⟩, ?_⟩
    rw [(behaviour_consts formatted).2]
    exact ⟨attributes, found⟩

theorem entry_parts : ∃ name attributes graph,
    Format.behaviour names name attributes graph content ∧ isIdentifier name = true ∧
    Attribute.Listed .libraryBehaviour ["GlobalIndex"] attributes := by
  have fits := (entry_named formatted).1
  cases formatted with
  | @intro _ name attributes _ graph _ _ found formatted =>
    obtain ⟨identifier, front⟩ := Decode.entryName_shape found
    exact ⟨name, attributes, graph, formatted, identifier, front_listed front fits⟩

/-- The behaviour of an entry is written as it was read, and its ID is found again by its name or
its attribute. -/
theorem entry_encoded (inverse : Inverse names ids) : ∃ graph,
    Encode.graphId ids env (content.mapExpr Expr.reread) = .ok (id : Int) ∧
    Encode.behaviour ids env (content.mapExpr Expr.reread) = .ok graph ∧
    graph.length < IntFormat.u32.modulus ∧
    bytes = IntFormat.u32.encode id ++ IntFormat.u32.encode graph.length ++ graph := by
  have fits := (entry_named formatted).1
  cases formatted with
  | @intro _ name attributes _ graph small short found formatted =>
    obtain ⟨_, front⟩ := inverse.entryName fits found
    refine ⟨graph, ?_, behaviour_encoded formatted inverse
      (front_encoded (front.imp_left And.left)), short, rfl⟩
    rw [Encode.graphId_eq, bind_eq_ok]
    refine ⟨id, ?_, Quantity.fit_eq_ok.mpr ⟨fits, rfl⟩⟩
    unfold Encode.namedId
    rw [globalIndex?_behaviour formatted]
    rcases front with ⟨rfl, resolved⟩ | rfl
    · refine ofResolution_eq_ok.mpr ?_
      show ids.id .graph content.name = _
      rw [(behaviour_consts formatted).2]
      exact resolved
    · exact ofSemantic_eq_ok.mpr (Expr.eval_reread_number env ((Quantity.graphId "").natAbs_lt fits))

end Entry

section Entries

variable {entries : List (Nat × Behaviour)} (rows : (Format.entry names).Rows bytes entries)
  (inverse : Inverse names ids) (distinct : (entries.map Prod.fst).Nodup)

include rows inverse distinct

/-- Entries with distinct IDs are written as they were read. The induction goes along the entries,
and the IDs before them are taken. -/
theorem entries_encoded {table : SymbolTable} {taken : List (Int × String)}
    (free : ∀ entry ∈ entries, Assoc.get? (entry.1 : Int) taken = none) :
    Encode.entries ids table taken (entries.map fun entry => entry.2.mapExpr Expr.reread) =
      .ok bytes := by
  induction rows generalizing taken with
  | nil => rfl
  | @cons front behind entry entries formatted _ inductionHypothesis =>
    rw [List.map_cons, List.nodup_cons] at distinct
    rw [List.forall_mem_cons] at free
    obtain ⟨graph, found, emitted, short, rfl⟩ := @entry_encoded
      (table.behaviourEnv (entry.2.mapExpr Expr.reread).name) _ _ _ _ _ formatted inverse
    have apart : ∀ other ∈ entries, Assoc.get? (other.1 : Int)
        (((entry.1 : Int), (entry.2.mapExpr Expr.reread).name) :: taken) = none := by
      intro other member
      have different : (entry.1 : Int) ≠ other.1 := fun same =>
        distinct.1 (List.mem_map.mpr ⟨other, member, (Int.ofNat_inj.mp same).symm⟩)
      unfold Assoc.get?
      rw [if_neg different]
      exact free.2 other member
    have others := inductionHypothesis distinct.2 apart
    rw [List.map_cons, Encode.entries, found]
    simp only [bind_eq_ok]
    refine ⟨entry.1, rfl, ?_⟩
    rw [free.1]
    simp only [bind_eq_ok, pure_eq_ok]
    exact ⟨graph, emitted, graph.length, Quantity.fit_count rfl ((IntFormat.le_max_iff rfl).mpr short),
      behind, others, rfl⟩

/-- Entries with distinct IDs have distinct names, since a name leads back to its ID. -/
theorem entries_names : (entries.map fun entry => entry.2.name).Nodup := by
  refine List.pairwise_map.mpr ((List.pairwise_map.mp distinct).imp_of_mem ?_)
  intro first second inEntries alsoIn different same
  obtain ⟨_, formatted⟩ := rows_forall rows first inEntries
  obtain ⟨_, otherFormatted⟩ := rows_forall rows second alsoIn
  obtain ⟨fits, attributes, found⟩ := entry_named formatted
  obtain ⟨otherFits, otherAttributes, otherFound⟩ := entry_named otherFormatted
  rw [← same] at otherFound
  exact different (inverse.entryName_injective fits otherFits found otherFound)

end Entries

/-- The IDs that are found by going from length to length are those of the entries. -/
theorem graphIds_eq {entries : List (Nat × Behaviour)}
    (rows : (Format.entry names).Rows bytes entries) :
    graphIds entries.length bytes = entries.map Prod.fst := by
  induction rows with
  | nil => rfl
  | @cons front behind entry entries formatted _ inductionHypothesis =>
    cases formatted with
    | @intro id name attributes content graph small short found formatted =>
      have holds {value : Nat} (small : value < IntFormat.u32.modulus) :
          IntFormat.u32.holds value = true :=
        IntFormat.holds_iff.mpr ⟨Int.natCast_nonneg _, (IntFormat.le_max_iff rfl).mpr small⟩
      have width (value : Int) : (IntFormat.u32.encode value).length = 4 :=
        IntFormat.u32.length_encode value
      have first : (IntFormat.u32.encode id ++ IntFormat.u32.encode graph.length ++ graph ++
          behind).take 4 = IntFormat.u32.encode id := by
        rw [List.append_assoc, List.append_assoc, List.take_left' (width id)]
      have second : ((IntFormat.u32.encode id ++ IntFormat.u32.encode graph.length ++ graph ++
          behind).drop 4).take 4 = IntFormat.u32.encode graph.length := by
        rw [List.append_assoc, List.append_assoc, List.drop_left' (width id), List.take_left' (width _)]
      have third : ((IntFormat.u32.encode id ++ IntFormat.u32.encode graph.length ++ graph ++
          behind).drop 8).drop graph.length = behind := by
        rw [List.append_assoc, List.drop_left' (by rw [List.length_append, width, width]),
          List.drop_left]
      rw [List.length_cons, graphIds, first, second, IntFormat.decode_encode (holds small),
        IntFormat.decode_encode (holds short), Int.toNat_natCast, Int.toNat_natCast, third,
        inductionHypothesis]
      rfl

theorem libraryIds_eq {entries : List (Nat × Behaviour)}
    (few : entries.length < IntFormat.u16.modulus) (unknown : Nat)
    (rows : (Format.entry names).Rows bytes entries) :
    libraryIds (IntFormat.u16.encode entries.length ++ IntFormat.u16.encode unknown ++ bytes) =
      entries.map Prod.fst := by
  have width (value : Int) : (IntFormat.u16.encode value).length = 2 :=
    IntFormat.u16.length_encode value
  have holds : IntFormat.u16.holds entries.length = true :=
    IntFormat.holds_iff.mpr ⟨Int.natCast_nonneg _, (IntFormat.le_max_iff rfl).mpr few⟩
  unfold libraryIds
  rw [List.drop_left' (by rw [List.length_append, width, width]), List.append_assoc,
    List.take_left' (width _), IntFormat.decode_encode holds, Int.toNat_natCast]
  exact graphIds_eq rows

theorem libraryUnknown_encoded {table : SymbolTable} {content : Library} {unknown : Nat}
    (small : unknown < IntFormat.u16.modulus)
    (shape : content.attributes = (Decode.unknownAttribute unknown).map
      (Attribute.mapExpr Expr.reread)) :
    Encode.libraryUnknown table content = .ok (unknown : Int) := by
  have fits : (Quantity.libraryUnknown content.name).holds unknown = true :=
    Quantity.holds_iff.mpr ⟨Int.natCast_nonneg _, (IntFormat.le_max_iff rfl).mpr small⟩
  have held : Encode.unknown? content.attributes =
      if unknown = 0 then none else some (number unknown).reread := by
    rw [shape]
    unfold Decode.unknownAttribute
    split <;> rfl
  unfold Encode.libraryUnknown
  rw [held]
  by_cases zero : unknown = 0
  · rw [if_pos zero, zero]
    rfl
  · rw [if_neg zero]
    exact (Quantity.libraryUnknown content.name).measure_reread fits table.rootEnv

section Library

variable {name : String} {content : Library} (formatted : Format.library names name bytes content)

include formatted

theorem library_entries : ∃ entries rowBytes, content.behaviours = entries.map Prod.snd ∧
    (Format.entry names).Rows rowBytes entries ∧ libraryIds bytes = entries.map Prod.fst := by
  cases formatted with
  | @intro unknown entries rowBytes few small rows =>
    exact ⟨entries, rowBytes, rfl, rows, libraryIds_eq few unknown rows⟩

theorem library_consts : content.consts = [] ∧ content.name = name := by
  cases formatted with
  | intro => exact ⟨rfl, rfl⟩

theorem library_listed : Attribute.Listed .library ["Unknown"] content.attributes := by
  cases formatted with
  | @intro unknown _ _ _ small _ =>
    have fits : IntFormat.u16.holds unknown = true :=
      IntFormat.holds_iff.mpr ⟨Int.natCast_nonneg _, (IntFormat.le_max_iff rfl).mpr small⟩
    exact unknown_listed (IntFormat.u32_holds_of_u16 fits) rfl

theorem library_exprs : ∀ expr ∈ content.exprs, expr.IsWord := by
  have listed := library_listed formatted
  obtain ⟨entries, _, behaviours, rows, _⟩ := library_entries formatted
  unfold Library.exprs
  rw [List.forall_mem_append, List.forall_mem_append, (library_consts formatted).1]
  refine ⟨?_, nofun, ?_⟩
  · intro expr member
    obtain ⟨attr, inAttributes, inAttr⟩ := List.mem_flatMap.mp member
    exact (listed.plain attr inAttributes).words expr inAttr
  · intro expr member
    obtain ⟨behaviour, inBehaviours, inBehaviour⟩ := List.mem_flatMap.mp member
    rw [behaviours] at inBehaviours
    obtain ⟨entry, given, rfl⟩ := List.mem_map.mp inBehaviours
    obtain ⟨_, formatted⟩ := rows_forall rows entry given
    obtain ⟨_, _, _, formatted, _, front⟩ := entry_parts formatted
    exact behaviour_exprs formatted front (.inr rfl) expr inBehaviour

theorem library_written : ∀ reference ∈ content.references, names.Writes reference := by
  obtain ⟨entries, _, behaviours, rows, _⟩ := library_entries formatted
  intro reference member
  obtain ⟨behaviour, inBehaviours, inBehaviour⟩ := List.mem_flatMap.mp member
  rw [behaviours] at inBehaviours
  obtain ⟨entry, given, rfl⟩ := List.mem_map.mp inBehaviours
  obtain ⟨_, formatted⟩ := rows_forall rows entry given
  obtain ⟨_, _, _, formatted, _⟩ := entry_parts formatted
  exact behaviour_written formatted reference inBehaviour

/-- A library that was read can be spelled if what the host wrote can. -/
theorem library_spellable (spellable : ∀ reference ∈ content.references, reference.Spellable)
    (identifier : isIdentifier name = true) : content.Spellable := by
  have listed := library_listed formatted
  obtain ⟨entries, _, behaviours, rows, _⟩ := library_entries formatted
  obtain ⟨consts, named⟩ := library_consts formatted
  refine ⟨fun attr member => (listed.plain attr member).spellable, named ▸ identifier, ?_, ?_⟩
  · rw [consts]
    exact nofun
  · intro behaviour member
    have inBehaviour (reference : Reference) (used : reference ∈ behaviour.references) :
        reference.Spellable :=
      spellable reference (List.mem_flatMap.mpr ⟨behaviour, member, used⟩)
    rw [behaviours] at member
    obtain ⟨entry, given, rfl⟩ := List.mem_map.mp member
    obtain ⟨_, formatted⟩ := rows_forall rows entry given
    obtain ⟨_, _, _, formatted, identifier, front⟩ := entry_parts formatted
    exact behaviour_spellable formatted front (.inr rfl) inBehaviour identifier

theorem library_behaviours_checked (table : SymbolTable) :
    ∀ behaviour ∈ (content.mapExpr Expr.reread).behaviours,
      (table.behaviourEnv behaviour.name).checkBehaviour .libraryBehaviour behaviour = .ok () := by
  obtain ⟨entries, _, behaviours, rows, _⟩ := library_entries formatted
  intro behaviour member
  obtain ⟨original, inBehaviours, rfl⟩ := List.mem_map.mp member
  rw [behaviours] at inBehaviours
  obtain ⟨entry, given, rfl⟩ := List.mem_map.mp inBehaviours
  obtain ⟨_, formatted⟩ := rows_forall rows entry given
  obtain ⟨_, _, _, formatted, _, front⟩ := entry_parts formatted
  exact behaviour_checked formatted front (.inr rfl)

variable (inverse : Inverse names ids) (distinct : (libraryIds bytes).Nodup)

include inverse distinct

/-- A library that was read passes the checks if the IDs of its graphs are distinct. -/
theorem library_checked (table : SymbolTable) :
    table.checkLibrary (content.mapExpr Expr.reread) = .ok () := by
  have listed := library_listed formatted
  obtain ⟨entries, _, behaviours, rows, same⟩ := library_entries formatted
  refine SymbolTable.checkLibrary_eq_ok.mpr ⟨listed.checked (by decide) table.rootEnv, ?_,
    library_behaviours_checked formatted table⟩
  unfold Library.mapExpr
  rw [List.map_map, behaviours, List.map_map]
  exact entries_names rows inverse (same ▸ distinct)

/-- A library is written as it was read if the IDs of its graphs are distinct. -/
theorem library_encoded (table : SymbolTable) :
    Encode.library ids table (content.mapExpr Expr.reread) = .ok bytes := by
  cases formatted with
  | @intro unknown entries rowBytes few small rows =>
    rw [libraryIds_eq few unknown rows] at distinct
    rw [Encode.library_eq]
    simp only [bind_eq_ok, pure_eq_ok]
    refine ⟨entries.length, ?_, unknown, libraryUnknown_encoded small rfl, rowBytes, ?_, rfl⟩
    · unfold Library.mapExpr
      rw [List.length_map, List.length_map]
      exact Quantity.fit_count rfl ((IntFormat.le_max_iff rfl).mpr few)
    · unfold Library.mapExpr
      rw [List.map_map]
      exact entries_encoded rows inverse distinct fun _ _ => rfl

end Library

/-! ### Scripts -/

/-- Without declarations there are no consts. -/
theorem buildScope_nil (outer : Option Scope) : buildScope [] outer = .ok ([], .empty) := by
  have sorted : sortConsts [] outer = .ok [] := by
    have settled : ConstOrder.settle [] = ([], []) := by
      rw [ConstOrder.settle]
      rfl
    rw [sortConsts_eq_settled, ConstOrder.settled, List.zipIdx_nil, settled]
    rfl
  unfold buildScope
  rw [sorted]
  rfl

/-- Behaviours without declarations are taken over as they are. -/
theorem buildChildren_constless {behaviours : List Behaviour}
    (constless : ∀ behaviour ∈ behaviours, behaviour.consts = []) (table : SymbolTable) :
    ∃ final, buildChildren table behaviours = .ok (behaviours, final) := by
  induction behaviours generalizing table with
  | nil => exact ⟨table, rfl⟩
  | cons behaviour rest inductionHypothesis =>
    rw [List.forall_mem_cons] at constless
    obtain ⟨final, built⟩ := inductionHypothesis constless.2 (table.addChild behaviour.name .empty)
    refine ⟨final, ?_⟩
    unfold buildChildren
    rw [constless.1, buildScope_nil]
    show (buildChildren (table.addChild behaviour.name .empty) rest >>= _) = _
    rw [built]
    show Except.ok (_ :: rest, final) = _
    rw [← constless.1]

/-- A script without consts is in order as it is. -/
theorem buildTable_constless {script : Script}
    (constless : script.consts = [])
    (inner : ∀ content, script = .library content →
      ∀ behaviour ∈ content.behaviours, behaviour.consts = []) :
    ∃ table, buildTable script = .ok (script, table) := by
  cases script with
  | library content =>
    have outer : content.consts = [] := constless
    obtain ⟨table, children⟩ := buildChildren_constless (inner content rfl) (.ofScope .empty)
    refine ⟨table, ?_⟩
    show (buildScope content.consts none >>= _) = _
    rw [outer, buildScope_nil]
    show (buildChildren (.ofScope .empty) content.behaviours >>= _) = _
    rw [children]
    show Except.ok (Script.library _, table) = _
    rw [← outer]
  | behaviour content =>
    have outer : content.consts = [] := constless
    refine ⟨.ofScope .empty, ?_⟩
    show (buildScope content.consts none >>= _) = _
    rw [outer, buildScope_nil]
    show Except.ok (Script.behaviour _, SymbolTable.ofScope .empty) = _
    rw [← outer]
  | sequence content =>
    have outer : content.consts = [] := constless
    refine ⟨.ofScope .empty, ?_⟩
    show (buildScope content.consts none >>= _) = _
    rw [outer, buildScope_nil]
    show Except.ok (Script.sequence _, SymbolTable.ofScope .empty) = _
    rw [← outer]

section Script

variable {name : String} {kind : ItemKind} {script : Script}
  (formatted : Format.script names name kind bytes script)

include formatted

/-- A script that was read declares no consts. -/
theorem script_consts : script.reread.consts = [] := by
  cases formatted with
  | library formatted => exact List.map_eq_nil_iff.mpr (library_consts formatted).1
  | behaviour formatted => exact List.map_eq_nil_iff.mpr (behaviour_consts formatted).1
  | sequence formatted => exact List.map_eq_nil_iff.mpr (sequence_consts formatted).1

theorem script_inner : ∀ content, script.reread = .library content →
    ∀ behaviour ∈ content.behaviours, behaviour.consts = [] := by
  cases formatted with
  | library formatted =>
    rintro _ ⟨⟩ behaviour member
    obtain ⟨original, inBehaviours, rfl⟩ := List.mem_map.mp member
    obtain ⟨entries, _, behaviours, rows, _⟩ := library_entries formatted
    rw [behaviours] at inBehaviours
    obtain ⟨entry, given, rfl⟩ := List.mem_map.mp inBehaviours
    obtain ⟨_, formatted⟩ := rows_forall rows entry given
    cases formatted with
    | intro _ _ _ formatted => exact List.map_eq_nil_iff.mpr (behaviour_consts formatted).1
  | behaviour => exact nofun
  | sequence => exact nofun

/-- Every expression of a script that was read is a number. -/
theorem script_words : ∀ expr ∈ script.exprs, expr.IsWord := by
  cases formatted with
  | library formatted => exact library_exprs formatted
  | behaviour formatted => exact behaviour_exprs formatted .nil (.inl rfl)
  | sequence formatted => exact sequence_exprs formatted

theorem script_written : ∀ reference ∈ script.references, names.Writes reference := by
  cases formatted with
  | library formatted => exact library_written formatted
  | behaviour formatted => exact behaviour_written formatted
  | sequence formatted => exact sequence_written formatted

/-- A script that was read can be spelled if what the host wrote for its IDs can. -/
theorem script_spellable_of_references
    (spellable : ∀ reference ∈ script.references, reference.Spellable)
    (identifier : isIdentifier name = true) : script.Spellable := by
  cases formatted with
  | library formatted => exact library_spellable formatted spellable identifier
  | behaviour formatted => exact behaviour_spellable formatted .nil (.inl rfl) spellable identifier
  | sequence formatted => exact sequence_spellable formatted spellable identifier

variable (inverse : Inverse names ids)

include inverse

/-- A script that was read can be spelled, since a host's name that leads back to its ID can. -/
theorem script_spellable (identifier : isIdentifier name = true) : script.Spellable :=
  script_spellable_of_references formatted
    (fun reference member => inverse.spellable (script_written formatted reference member)) identifier

/-- A script that was read is analysed without an error and written as its bytes. -/
theorem script_assembled (distinct : kind = .library → (libraryIds bytes).Nodup) :
    assemble ids script.reread = .ok bytes := by
  obtain ⟨table, built⟩ := buildTable_constless (script_consts formatted) (script_inner formatted)
  unfold assemble
  have passes : table.check script.reread = .ok () := by
    cases formatted with
    | library formatted => exact library_checked formatted inverse (distinct rfl) table
    | behaviour formatted => exact behaviour_checked formatted .nil (.inl rfl)
    | sequence formatted => exact sequence_checked formatted
  rw [analyze_eq_ok.mpr ⟨built, passes⟩]
  cases formatted with
  | library formatted => exact library_encoded formatted inverse (distinct rfl) table
  | behaviour formatted => exact behaviour_encoded formatted inverse fun _ => rfl
  | sequence formatted => exact sequence_encoded formatted inverse

end Script

end Restored

end BehaviourScript
