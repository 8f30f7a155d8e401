/-
This file goes on to states, starters and behaviours. The states of a behaviour
that was read are called by their places, so that a name of a state leads back
to its place, and the host gives back the IDs of the names it wrote.
-/

import BehaviourScript.Proofs.Canonical.Graphs
import BehaviourScript.Proofs.Resolvers
import BehaviourScript.Proofs.Restored.Attributes

namespace BehaviourScript

open Outcome
open Decode (attr number stateName)

namespace Restored

variable {env : Env} {bytes : Bytes} {names : DecompileResolvers} {ids : CompileResolvers}

/-! ### The attributes and the target of a state -/

section Target

variable {slot : Bool} {word : Int} {slotAttributes : List Attribute} {reference : Option Reference}
  (formatted : Format.target names slot word slotAttributes reference)

include formatted

/-- A state that was read has one attribute at most for what it runs. -/
theorem target_listed : Attribute.Listed .state ["UseObjectSlot"] slotAttributes := by
  cases formatted with
  | slot natural high =>
    have fits : (Quantity.stateTarget "").holds word = true :=
      Quantity.holds_iff.mpr ⟨natural, high⟩
    have given := (Quantity.stateTarget "").isWord fits
    exact .single (.useObjectSlot _) ⟨List.forall_mem_singleton.mpr given, nofun, nofun⟩ rfl
  | nothing => exact .nil
  | graph => exact .nil

/-- What a state runs is written as the word it was read from. -/
theorem target_encoded (inverse : Inverse names ids) :
    ∃ given : Option Int, given.isSome = slot ∧
      (slotAttributes.map (Attribute.mapExpr Expr.reread)).foldlM (Encode.stateSetting env) {} =
        .ok { slot := given } ∧
      ∀ content : State, content.target = reference →
        Encode.stateTarget ids given content = .ok word := by
  cases formatted with
  | slot natural high =>
    have fits (name : String) : (Quantity.stateTarget name).holds word = true :=
      Quantity.holds_iff.mpr ⟨natural, high⟩
    refine ⟨some word, rfl, ?_, fun content _ => Quantity.fit_eq_ok.mpr ⟨fits _, rfl⟩⟩
    have evaluated := Expr.eval_reread_number env ((Quantity.stateTarget "").natAbs_lt (fits ""))
    show (Encode.stateSetting env {} (attr (.useObjectSlot (number word).reread)) >>= pure) = _
    unfold Encode.stateSetting attr
    dsimp only
    rw [evaluated]
    rfl
  | nothing =>
    refine ⟨none, rfl, rfl, fun content same => ?_⟩
    unfold Encode.stateTarget
    rw [same]
  | @graph _ reference natural high found =>
    refine ⟨none, rfl, rfl, fun content same => ?_⟩
    have fits (name : String) : (Quantity.stateTarget name).holds word = true :=
      Quantity.holds_iff.mpr ⟨natural, high⟩
    have low : IntFormat.i16.min ≤ word := Int.le_trans (by decide) natural
    have resolved := (inverse.reference .stateGraph (IntFormat.holds_iff.mpr ⟨low, high⟩) found).1
    unfold Encode.stateTarget
    rw [same]
    simp only [bind_eq_ok, ofResolution_eq_ok]
    exact ⟨word, resolved, Quantity.fit_eq_ok.mpr ⟨fits _, rfl⟩⟩

theorem target_written : ∀ target ∈ reference, names.Writes target := by
  cases formatted with
  | slot => exact nofun
  | nothing => exact nofun
  | graph natural high found =>
    rintro target ⟨⟩
    have low : IntFormat.i16.min ≤ word := Int.le_trans (by decide) natural
    exact ⟨.stateGraph, word, IntFormat.holds_iff.mpr ⟨low, high⟩, found⟩

/-- A state runs an object slot or a graph, but never both. -/
theorem target_apart : slotAttributes = [] ∨ reference = none := by
  cases formatted with
  | slot => exact .inr rfl
  | nothing => exact .inl rfl
  | graph => exact .inl rfl

end Target

theorem stateAttributes_listed {packet : Option ControlPacket}
    (formatted : Format.controlPacket.Optional bytes packet) (nonBlocking skipFirst : Bool) :
    Attribute.Listed .state ["ControlPacket", "NonBlocking", "SkipFirstBody"]
      (Format.stateAttributes packet nonBlocking skipFirst) := by
  have flag (kind : Attribute.Kind) (set : Bool) (plain : (attr kind).Plain)
      (allowed : Placement.state.allows kind = true) :
      Attribute.Listed .state [kind.name] (if set then [attr kind] else []) := by
    cases set with
    | true => exact .single kind plain allowed
    | false => exact .nil
  have packets : Attribute.Listed .state ["ControlPacket"]
      (packet.toList.map fun packet => attr (.controlPacket packet)) := by
    cases formatted with
    | absent => exact .nil
    | @present _ packet formatted =>
      have words := controlPacket_words formatted
      refine .single (.controlPacket _) ⟨List.forall_mem_append.mpr ⟨?_, words.2⟩, nofun, ?_⟩ rfl
      · intro expr member
        obtain ⟨setting, inSettings, rfl⟩ := List.mem_map.mp member
        exact words.1 setting inSettings
      · rintro _ ⟨⟩
        exact controlPacket_known formatted
  exact (packets.append (flag .nonBlocking nonBlocking ⟨nofun, nofun, nofun⟩ rfl)).append
    (flag .skipFirstBody skipFirst ⟨nofun, nofun, nofun⟩ rfl)

/-- The flags and the packet of a state are set from its attributes. -/
theorem stateAttributes_encoded (slot : Option Int) (packet : Option ControlPacket)
    (nonBlocking skipFirst : Bool) :
    ((Format.stateAttributes packet nonBlocking skipFirst).map
        (Attribute.mapExpr Expr.reread)).foldlM (Encode.stateSetting env) { slot := slot } =
      .ok { skipFirstBody := skipFirst, nonBlocking := nonBlocking, slot := slot,
            packet := packet.map (ControlPacket.mapExpr Expr.reread) } := by
  cases packet <;> cases nonBlocking <;> cases skipFirst <;> rfl

/-! ### States -/

section State

variable {index : Nat} {content : State} {targets : List Nat} {hasNext : Bool}
  (formatted : Format.state names index bytes ((content, targets), hasNext))

include formatted

theorem state_listed : Attribute.Listed .state
    ["UseObjectSlot", "ControlPacket", "NonBlocking", "SkipFirstBody"] content.attributes := by
  cases formatted with
  | intro _ target packet _ _ => exact (target_listed target).append (stateAttributes_listed packet _ _)

/-- A state is written as it was read, if the states that it jumps to are found at their places. -/
theorem state_encoded (inverse : Inverse names ids) {states : List State}
    (placed : ∀ target ∈ targets, ∀ position,
      Encode.stateIndex states (stateName target) position = .ok target) :
    Encode.state ids env states hasNext (content.mapExpr Expr.reread) = .ok bytes := by
  cases formatted with
  | @intro slot skipFirst nonBlocking _ word slotAttributes reference packet bodies packetBytes
      bodyBytes below target packetFormatted rows few =>
    obtain ⟨given, same, slotted, targeted⟩ := @target_encoded env _ _ _ _ _ _ target inverse
    have each : ∀ entry ∈ bodies, ∀ {bytes}, Format.body bytes entry →
        Encode.body env states (entry.1.mapExpr Expr.reread) = .ok bytes :=
      fun entry member _ formatted => body_encoded formatted fun index jumped =>
        placed index (List.mem_filterMap.mpr ⟨entry, member, jumped⟩)
    obtain ⟨parts, emitted, rfl⟩ := rows_encoded rows each
    have settled : ((slotAttributes ++ Format.stateAttributes packet nonBlocking skipFirst).map
        (Attribute.mapExpr Expr.reread)).foldlM (Encode.stateSetting env) {} = .ok
          { skipFirstBody := skipFirst, nonBlocking := nonBlocking, slot := given,
            packet := packet.map (ControlPacket.mapExpr Expr.reread) } := by
      rw [List.map_append, List.foldlM_append, slotted]
      exact stateAttributes_encoded given packet nonBlocking skipFirst
    rw [Encode.state_eq]
    simp only [bind_eq_ok, pure_eq_ok]
    refine ⟨bodies.length, ?_, _, settled, word, targeted _ rfl, packetBytes,
      optional_encoded packetFormatted controlPacket_encoded, parts, ?_, ?_⟩
    · unfold State.mapExpr
      rw [List.length_map, List.length_map]
      exact Quantity.fit_count rfl (Int.ofNat_le.mpr few)
    · unfold State.mapExpr
      rw [List.map_map]
      exact emitted
    · rw [Option.isSome_map, same]
      rfl

theorem state_exprs : ∀ expr ∈ content.exprs, expr.IsWord := by
  have listed := state_listed formatted
  cases formatted with
  | intro _ _ _ rows _ =>
    refine List.forall_mem_append.mpr ⟨?_, ?_⟩
    · intro expr member
      obtain ⟨attr, inAttributes, inAttr⟩ := List.mem_flatMap.mp member
      exact (listed.plain attr inAttributes).words expr inAttr
    · intro expr member
      obtain ⟨body, inBodies, inBody⟩ := List.mem_flatMap.mp member
      obtain ⟨entry, given, rfl⟩ := List.mem_map.mp inBodies
      obtain ⟨_, formatted⟩ := rows_forall rows entry given
      exact body_exprs formatted expr inBody

theorem state_written : ∀ target ∈ content.target, names.Writes target := by
  cases formatted with
  | intro _ target _ _ _ => exact target_written target

/-- A state that was read can be spelled if what the host wrote for its target can. -/
theorem state_spellable (spellable : ∀ target ∈ content.target, target.Spellable) :
    content.Spellable := by
  have listed := state_listed formatted
  cases formatted with
  | intro _ _ _ rows _ =>
    refine ⟨fun attr member => (listed.plain attr member).spellable,
      Decode.isIdentifier_stateName index, spellable, ?_⟩
    intro body member
    obtain ⟨entry, given, rfl⟩ := List.mem_map.mp member
    obtain ⟨_, formatted⟩ := rows_forall rows entry given
    exact body_spellable formatted

/-- A state that was read passes the checks, if the states that it jumps to exist. -/
theorem state_checked {states : List String} (known : ∀ target ∈ targets, stateName target ∈ states) :
    env.checkState states (content.mapExpr Expr.reread) = .ok () := by
  have listed := state_listed formatted
  cases formatted with
  | @intro slot skipFirst nonBlocking _ word slotAttributes reference packet bodies packetBytes
      bodyBytes below target packetFormatted rows few =>
    refine Env.checkState_eq_ok.mpr ⟨listed.checked (by decide) env, ?_, ?_⟩
    · rintro ⟨uses, named⟩
      rcases target_apart target with rfl | rfl
      · cases packet <;> cases nonBlocking <;> cases skipFirst <;> exact nomatch uses
      · exact nomatch named
    · intro body member
      obtain ⟨original, inBodies, rfl⟩ := List.mem_map.mp member
      obtain ⟨entry, given, rfl⟩ := List.mem_map.mp inBodies
      obtain ⟨_, formatted⟩ := rows_forall rows entry given
      exact body_checked formatted fun index jumped =>
        known index (List.mem_filterMap.mpr ⟨entry, given, jumped⟩)

end State

/-! ### Rows of states -/

/-- States that are called by their places. -/
def Numbered (states : List State) : Prop :=
  states.map State.name = (List.range states.length).map stateName

theorem Numbered.mapExpr {states : List State} (numbered : Numbered states)
    (change : Expr → Expr) : Numbered (states.map (State.mapExpr change)) := by
  unfold Numbered at numbered ⊢
  rw [List.map_map, List.length_map]
  exact numbered

theorem Numbered.name_eq {states : List State} (numbered : Numbered states) {index : Nat}
    {state : State} (found : states[index]? = some state) : state.name = stateName index := by
  have same := congrArg (·[index]?) numbered
  obtain ⟨inside, _⟩ := List.getElem?_eq_some_iff.mp found
  rw [List.getElem?_map, List.getElem?_map, found, List.getElem?_range inside] at same
  exact Option.some.inj same

/-- States that are named after their places have distinct names. -/
theorem Numbered.nodup {states : List State} (numbered : Numbered states) :
    (states.map State.name).Nodup := by
  rw [show states.map State.name = _ from numbered]
  refine List.pairwise_map.mpr (List.nodup_range.imp fun different same => different ?_)
  exact Decode.stateName_injective same

theorem Numbered.mem_names {states : List State} (numbered : Numbered states) {index : Nat}
    (inside : index < states.length) : stateName index ∈ states.map State.name := by
  rw [show states.map State.name = _ from numbered]
  exact List.mem_map_of_mem (List.mem_range.mpr inside)

/-- A state that is named after its place is found there. -/
theorem Numbered.stateIndex_eq {states : List State} (numbered : Numbered states) {index : Nat}
    (inside : index < states.length) (position : Position) :
    Encode.stateIndex states (stateName index) position = .ok index := by
  have found : states.findIdx? (·.name == stateName index) = some index := by
    refine List.findIdx?_eq_some_iff_getElem.mpr ⟨inside, ?_, ?_⟩
    · exact beq_iff_eq.mpr (numbered.name_eq (List.getElem?_eq_getElem inside))
    · intro other below same
      have named := numbered.name_eq (List.getElem?_eq_getElem (Nat.lt_trans below inside))
      rw [beq_iff_eq, named] at same
      exact Nat.ne_of_lt below (Decode.stateName_injective same)
  unfold Encode.stateIndex
  rw [found]

section States

variable {index : Nat} {entries : List (State × List Nat)}
  (formatted : Format.Links (Format.state names) index bytes entries)

include formatted

/-- States are named after their places as they are read. -/
theorem states_names :
    entries.map (fun entry => entry.1.name) = (List.range' index entries.length).map stateName := by
  induction formatted with
  | nil => rfl
  | cons first _ inductionHypothesis =>
    rw [List.map_cons, List.length_cons, List.range'_succ, List.map_cons, inductionHypothesis]
    cases first with
    | intro => rfl

theorem states_numbered (first : index = 0) : Numbered (entries.map Prod.fst) := by
  have same := states_names formatted
  unfold Numbered
  rw [List.map_map, List.length_map, List.range_eq_range', ← first]
  exact same

/-- There are no more states than the limit. -/
theorem states_length (below : index ≤ Decode.stateLimit) :
    index + entries.length ≤ Decode.stateLimit := by
  induction formatted with
  | nil => exact below
  | cons first _ inductionHypothesis =>
    cases first with
    | intro other =>
      have behind := inductionHypothesis (by omega)
      rw [List.length_cons]
      omega

theorem states_forall : ∀ entry ∈ entries, ∃ index bytes hasNext,
    Format.state names index bytes ((entry.1, entry.2), hasNext) := by
  induction formatted with
  | nil => exact nofun
  | cons first _ inductionHypothesis =>
    exact List.forall_mem_cons.mpr ⟨⟨_, _, _, first⟩, inductionHypothesis⟩

/-- A chain of states is written as it was read. -/
theorem states_encoded (inverse : Inverse names ids) {all : List State}
    (placed : ∀ entry ∈ entries, ∀ target ∈ entry.2, ∀ position,
      Encode.stateIndex all (stateName target) position = .ok target) :
    Encode.states ids env all (entries.map fun entry => entry.1.mapExpr Expr.reread) =
      .ok bytes := by
  induction formatted with
  | nil => rfl
  | cons first _ inductionHypothesis =>
    rw [List.forall_mem_cons] at placed
    rw [List.map_cons, Encode.states, List.isEmpty_map, state_encoded first inverse placed.1,
      inductionHypothesis placed.2]
    rfl

end States

/-! ### Starters -/

/-- The fields of an assigner that are not zero, out of fields with their nibbles. -/
def fieldsOf (word : Nat) (row : List (String × Layout.Field)) : List Assign :=
  row.filterMap fun entry =>
    if entry.2.get word = 0 then none else some ⟨entry.1, number (entry.2.get word), .dummy⟩

section Fields

variable {word : Nat}

theorem fieldsOf_cons_zero {entry : String × Layout.Field} (zero : entry.2.get word = 0)
    (rest : List (String × Layout.Field)) : fieldsOf word (entry :: rest) = fieldsOf word rest := by
  unfold fieldsOf
  rw [List.filterMap_cons, if_pos zero]

theorem fieldsOf_cons {entry : String × Layout.Field} (set : entry.2.get word ≠ 0)
    (rest : List (String × Layout.Field)) :
    fieldsOf word (entry :: rest) =
      ⟨entry.1, number (entry.2.get word), .dummy⟩ :: fieldsOf word rest := by
  unfold fieldsOf
  rw [List.filterMap_cons, if_neg set]

/-- The fields of an assigner are some of the known ones, in their order. -/
theorem fieldsOf_names (row : List (String × Layout.Field)) :
    ((fieldsOf word row).map Assign.name).Sublist (row.map Prod.fst) := by
  induction row with
  | nil => exact .slnil
  | cons entry rest inductionHypothesis =>
    by_cases zero : entry.2.get word = 0
    · rw [fieldsOf_cons_zero zero]
      exact inductionHypothesis.cons _
    · rw [fieldsOf_cons zero]
      exact inductionHypothesis.cons_cons _

/-- What a nibble holds is in the range of its field. -/
theorem nibble_fits {entry : String × Layout.Field} (known : entry ∈ Encode.fieldNibbles)
    (name : String) : (Quantity.assignerField name).holds (entry.2.get word) = true := by
  have small := entry.2.get_le_max word
  rw [(Encode.nibble_max _ known).1] at small
  exact Quantity.holds_iff.mpr ⟨Int.natCast_nonneg _, Int.ofNat_le.mpr small⟩

variable {row : List (String × Layout.Field)} (known : ∀ entry ∈ row, entry ∈ Encode.fieldNibbles)

include known

theorem fieldsOf_values : ∀ field ∈ fieldsOf word row, field.value.IsWord := by
  intro field member
  obtain ⟨entry, inRow, given⟩ := List.mem_filterMap.mp member
  cases (Option.ite_none_left_eq_some.mp given).2
  exact (Quantity.assignerField entry.1).isWord (nibble_fits (known entry inRow) entry.1)

/-- Fields that are left out are zero, so the others bring the word back. -/
theorem fieldsOf_encoded :
    ∃ entries, ((fieldsOf word row).map (Assign.mapExpr Expr.reread)).mapM
        (Encode.assignerField env) = .ok entries ∧
      Layout.pack entries = Layout.pack (row.map fun entry => (entry.2, entry.2.get word)) := by
  induction row with
  | nil => exact ⟨[], rfl, rfl⟩
  | cons entry rest inductionHypothesis =>
    rw [List.forall_mem_cons] at known
    obtain ⟨entries, emitted, packed⟩ := inductionHypothesis known.2
    by_cases zero : entry.2.get word = 0
    · rw [fieldsOf_cons_zero zero]
      refine ⟨entries, emitted, packed.trans ?_⟩
      rw [List.map_cons, zero]
      show _ = entry.2.put 0 ||| _
      rw [Layout.Field.put_zero, Nat.zero_or]
      rfl
    · rw [fieldsOf_cons zero]
      refine ⟨(entry.2, entry.2.get word) :: entries,
        mapM_eq_ok.mpr (.cons ?_ (mapM_eq_ok.mp emitted)), ?_⟩
      · unfold Encode.assignerField Assign.mapExpr
        dsimp only
        rw [Encode.nibble_of_mem _ known.1]
        simp only [bind_eq_ok, pure_eq_ok]
        exact ⟨_, (Quantity.assignerField entry.1).measure_reread (nibble_fits known.1 _) env, rfl⟩
      · exact congrArg (entry.2.put (entry.2.get word) ||| ·) packed

end Fields

section Assigner

variable {content : Assigner} (formatted : Format.assigner names bytes content)

include formatted

/-- An assigner is written as it was read. A field that is left out is zero. -/
theorem assigner_encoded (inverse : Inverse names ids) :
    Encode.assigner ids env (content.mapExpr Expr.reread) = .ok bytes := by
  cases formatted with
  | @intro ident object word fits found small =>
    obtain ⟨entries, emitted, packed⟩ := @fieldsOf_encoded env word Encode.fieldNibbles fun _ => id
    have whole : Layout.pack entries = word := by
      rw [packed]
      exact Layout.Assigner.shape.pack_get small (Nat.and_zero _)
    unfold Encode.assigner
    simp only [bind_eq_ok, pure_eq_ok, ofResolution_eq_ok]
    refine ⟨ident, (inverse.reference .globalObject fits found).1, ident,
      Quantity.fit_eq_ok.mpr ⟨fits, rfl⟩, entries, emitted, ?_⟩
    rw [whole]

theorem assigner_exprs : ∀ expr ∈ content.exprs, expr.IsWord := by
  cases formatted with
  | intro =>
    intro expr member
    obtain ⟨field, inFields, rfl⟩ := List.mem_map.mp member
    exact fieldsOf_values (fun _ => id) field inFields

theorem assigner_names :
    (content.fields.map Assign.name).Sublist Catalogue.assignerFields := by
  cases formatted with
  | intro => exact fieldsOf_names Encode.fieldNibbles

theorem assigner_written : names.Writes content.object := by
  cases formatted with
  | intro fits found _ => exact ⟨.globalObject, _, fits, found⟩

theorem assigner_spellable (spellable : content.object.Spellable) : content.Spellable := by
  have named := assigner_names formatted
  have words := assigner_exprs formatted
  refine ⟨spellable, fun field member => ⟨?_, ?_⟩⟩
  · have identifiers : ∀ name ∈ Catalogue.assignerFields, isIdentifier name = true := by
      decide +kernel
    exact identifiers _ (named.subset (List.mem_map_of_mem member))
  · exact (words _ (List.mem_map_of_mem member)).spellable

/-- An assigner that was read passes the checks. -/
theorem assigner_checked : env.checkAssigner (content.mapExpr Expr.reread) = .ok () := by
  have named := assigner_names formatted
  refine Env.checkAssigner_eq_ok.mpr ⟨?_, ?_⟩
  · unfold Assigner.mapExpr
    rw [List.map_map]
    exact named.nodup (by decide)
  · intro field member
    obtain ⟨original, inFields, rfl⟩ := List.mem_map.mp member
    have given : original.name ∈ content.fields.map Assign.name := List.mem_map_of_mem inFields
    exact ⟨named.subset given,
      (assigner_exprs formatted _ (List.mem_map_of_mem inFields)).hasValue env⟩

end Assigner

section Starter

variable {content : Starter} (formatted : Format.starter names bytes content)

include formatted

/-- A starter is written as it was read. -/
theorem starter_encoded (inverse : Inverse names ids) :
    Encode.starter ids env (content.mapExpr Expr.reread) = .ok bytes := by
  cases formatted with
  | @intro assigners rowBytes few rows =>
    have each : ∀ assigner ∈ assigners, ∀ {bytes}, Format.assigner names bytes assigner →
        Encode.assigner ids env (assigner.mapExpr Expr.reread) = .ok bytes :=
      fun _ _ _ formatted => assigner_encoded formatted inverse
    obtain ⟨parts, emitted, rfl⟩ := rows_encoded rows each
    unfold Encode.starter
    simp only [bind_eq_ok, pure_eq_ok]
    refine ⟨assigners.length, ?_, parts, emitted, rfl⟩
    unfold Starter.mapExpr
    rw [List.length_map]
    exact Quantity.fit_count rfl ((IntFormat.le_max_iff rfl).mpr few)

theorem starter_forall :
    ∀ assigner ∈ content.assigners, ∃ bytes, Format.assigner names bytes assigner := by
  cases formatted with
  | intro _ rows => exact rows_forall rows

theorem starter_exprs : ∀ expr ∈ content.exprs, expr.IsWord := by
  intro expr member
  obtain ⟨assigner, inStarter, inAssigner⟩ := List.mem_flatMap.mp member
  obtain ⟨_, formatted⟩ := starter_forall formatted assigner inStarter
  exact assigner_exprs formatted expr inAssigner

theorem starter_spellable
    (spellable : ∀ assigner ∈ content.assigners, assigner.object.Spellable) :
    content.Spellable := by
  intro assigner member
  obtain ⟨_, formatted⟩ := starter_forall formatted assigner member
  exact assigner_spellable formatted (spellable assigner member)

theorem starter_checked :
    ∀ assigner ∈ (content.mapExpr Expr.reread).assigners, env.checkAssigner assigner = .ok () := by
  intro assigner member
  obtain ⟨original, inStarter, rfl⟩ := List.mem_map.mp member
  obtain ⟨_, formatted⟩ := starter_forall formatted original inStarter
  exact assigner_checked formatted

end Starter

/-! ### Behaviours -/

theorem unknown_listed {placement : Placement} {value : Nat}
    (small : IntFormat.u32.holds value = true)
    (allowed : placement.allows (.unknown (number value)) = true) :
    Attribute.Listed placement ["Unknown"] (Decode.unknownAttribute value) := by
  unfold Decode.unknownAttribute
  split
  · exact .nil
  · have word := (Quantity.graphId "").isWord small
    exact .single (.unknown _) ⟨List.forall_mem_singleton.mpr word, nofun, nofun⟩ allowed

/-- The word of a graph is set from the attributes of its behaviour. -/
theorem graphSettings_encoded {content : Behaviour} (numbered : Numbered content.states)
    {start priority unknown : Nat} (inside : start < content.states.length)
    (lowPriority : priority ≤ Layout.Graph.priority.max)
    (lowUnknown : unknown ≤ Layout.Graph.unknown.max) :
    (([attr (.priority (number priority)), attr (.startFrom (stateName start))] ++
        Decode.unknownAttribute unknown).map (Attribute.mapExpr Expr.reread)).foldlM
          (Encode.graphSetting env content) {} =
      .ok { startState := start, priority := priority, unknown := unknown } := by
  have fitsPriority : (Quantity.priority content.name).holds priority = true :=
    Quantity.holds_iff.mpr ⟨Int.natCast_nonneg _, Int.ofNat_le.mpr lowPriority⟩
  have fitsUnknown : (Quantity.behaviourUnknown content.name).holds unknown = true :=
    Quantity.holds_iff.mpr ⟨Int.natCast_nonneg _, Int.ofNat_le.mpr lowUnknown⟩
  refine foldlM_attributes { priority := priority }
    { startState := start, priority := priority } ?_ ?_ ?_ ?_
  · show (Quantity.measure _ env _ >>= _) = _
    rw [Quantity.measure_reread _ fitsPriority]
    rfl
  · show (Encode.stateIndex _ _ _ >>= _) = _
    rw [numbered.stateIndex_eq inside]
    rfl
  · intro zero
    rw [zero]
  · show (Quantity.measure _ env _ >>= _) = _
    rw [Quantity.measure_reread _ fitsUnknown]
    rfl

section Behaviour

variable {name : String} {attributes : List Attribute} {content : Behaviour}
  (formatted : Format.behaviour names name attributes bytes content)

include formatted

/-- A behaviour that was read has each of its attributes once. -/
theorem behaviour_listed {placement : Placement}
    (allowed : placement = .behaviour ∨ placement = .libraryBehaviour)
    (front : Attribute.Listed placement ["GlobalIndex"] attributes) :
    Attribute.Listed placement ["GlobalIndex", "Priority", "StartFrom", "Unknown"]
      content.attributes := by
  cases formatted with
  | @intro start priority unknown setup states setupBytes stateBytes inside low lowPriority
      lowUnknown _ _ _ =>
    have word := (Quantity.priority "").isWord (Quantity.holds_iff.mpr
      ⟨Int.natCast_nonneg priority, Int.ofNat_le.mpr lowPriority⟩)
    have places (kind : Attribute.Kind) (everywhere : Placement.behaviour.allows kind = true ∧
        Placement.libraryBehaviour.allows kind = true) : placement.allows kind = true := by
      rcases allowed with rfl | rfl
      · exact everywhere.1
      · exact everywhere.2
    have first : Attribute.Listed placement ["Priority"] [attr (.priority (number priority))] :=
      .single (.priority _) ⟨List.forall_mem_singleton.mpr word, nofun, nofun⟩
        (places _ ⟨rfl, rfl⟩)
    have second : Attribute.Listed placement ["StartFrom"] [attr (.startFrom (stateName start))] := by
      refine .single (.startFrom _) ⟨nofun, ?_, nofun⟩ (places _ ⟨rfl, rfl⟩)
      rintro _ ⟨⟩
      exact Decode.isIdentifier_stateName start
    have fits : IntFormat.u32.holds unknown = true :=
      IntFormat.holds_iff.mpr ⟨Int.natCast_nonneg _,
        Int.le_trans (Int.ofNat_le.mpr lowUnknown) (by decide)⟩
    exact (front.append (first.append second)).append (unknown_listed fits (places _ ⟨rfl, rfl⟩))

/-- A behaviour is written as it was read, with attributes in front that its graph does not
hold. -/
theorem behaviour_encoded (inverse : Inverse names ids)
    (front : ∀ content, (attributes.map (Attribute.mapExpr Expr.reread)).foldlM
      (Encode.graphSetting env content) {} = .ok {}) :
    Encode.behaviour ids env (content.mapExpr Expr.reread) = .ok bytes := by
  cases formatted with
  | @intro start priority unknown setup states setupBytes stateBytes inside low lowPriority
      lowUnknown starter rows near =>
    have numbered := (states_numbered rows rfl).mapExpr Expr.reread
    have length : ((states.map Prod.fst).map (State.mapExpr Expr.reread)).length = states.length := by
      rw [List.length_map, List.length_map]
    have few := states_length rows (Nat.zero_le _)
    rw [Nat.zero_add, ← length] at few
    rw [← length] at inside near
    have emitted := @states_encoded env _ _ _ _ _ rows inverse _ fun entry member target jumped =>
      numbered.stateIndex_eq (near entry member target jumped)
    rw [Encode.behaviour_eq]
    simp only [bind_eq_ok, pure_eq_ok]
    refine ⟨_, Quantity.fit_count rfl (Int.ofNat_le.mpr few),
      { startState := start, priority := priority, unknown := unknown }, ?_, setupBytes,
      optional_encoded starter fun formatted => starter_encoded formatted inverse,
      stateBytes, ?_, ?_⟩
    · unfold Behaviour.mapExpr
      rw [List.append_assoc, List.map_append, List.foldlM_append, bind_eq_ok]
      exact ⟨{}, front _, graphSettings_encoded numbered inside lowPriority lowUnknown⟩
    · unfold Behaviour.mapExpr
      rw [List.map_map] at emitted ⊢
      exact emitted
    · unfold Behaviour.mapExpr
      rw [Option.isSome_map]

/-- The states of a behaviour that was read are a chain, and no jump leaves it. -/
theorem behaviour_states : ∃ entries stateBytes, content.states = entries.map Prod.fst ∧
    content.states ≠ [] ∧ Format.Links (Format.state names) 0 stateBytes entries ∧
    ∀ entry ∈ entries, ∀ target ∈ entry.2, target < content.states.length := by
  cases formatted with
  | @intro start _ _ _ states _ stateBytes inside _ _ _ _ rows near =>
    refine ⟨states, stateBytes, rfl, ?_, rows, ?_⟩
    · exact List.ne_nil_of_length_pos (by rw [List.length_map]; exact Nat.zero_lt_of_lt inside)
    · rw [List.length_map]
      exact near

theorem behaviour_starter : ∀ setup ∈ content.starter, ∃ bytes, Format.starter names bytes setup := by
  cases formatted with
  | intro _ _ _ _ setup _ _ => exact optional_forall setup

theorem behaviour_consts : content.consts = [] ∧ content.name = name := by
  cases formatted with
  | intro => exact ⟨rfl, rfl⟩

theorem behaviour_written : ∀ reference ∈ content.references, names.Writes reference := by
  obtain ⟨entries, stateBytes, states, _, rows, _⟩ := behaviour_states formatted
  refine List.forall_mem_append.mpr ⟨?_, ?_⟩
  · intro reference member
    obtain ⟨setup, given, inSetup⟩ := List.mem_flatMap.mp member
    obtain ⟨assigner, inAssigners, rfl⟩ := List.mem_map.mp inSetup
    obtain ⟨_, formatted⟩ := behaviour_starter formatted setup (Option.mem_toList.mp given)
    obtain ⟨_, formatted⟩ := starter_forall formatted assigner inAssigners
    exact assigner_written formatted
  · intro reference member
    obtain ⟨state, inStates, target⟩ := List.mem_filterMap.mp member
    rw [states] at inStates
    obtain ⟨entry, given, rfl⟩ := List.mem_map.mp inStates
    obtain ⟨_, _, _, formatted⟩ := states_forall rows entry given
    exact state_written formatted reference target

section Listed

variable {placement : Placement} (front : Attribute.Listed placement ["GlobalIndex"] attributes)

include front

/-- A behaviour that was read starts with one of its states. -/
theorem behaviour_start : ∀ attr ∈ content.attributes, ∀ state, attr.kind = .startFrom state →
    state ∈ content.states.map State.name := by
  obtain ⟨_, _, states, _, rows, _⟩ := behaviour_states formatted
  have numbered : Numbered content.states := states ▸ states_numbered rows rfl
  cases formatted with
  | @intro start _ unknown _ entries _ _ inside _ _ _ _ _ _ =>
    rw [List.forall_mem_append, List.forall_mem_append, List.forall_mem_cons,
      List.forall_mem_singleton]
    refine ⟨⟨fun attr member state starts => ?_, nofun, ?_⟩, ?_⟩
    · have name := front.order.subset (List.mem_map_of_mem member)
      rw [starts] at name
      exact absurd (show "StartFrom" ∈ ["GlobalIndex"] from name) (by decide)
    · rintro _ ⟨⟩
      exact numbered.mem_names (by rw [List.length_map]; exact inside)
    · unfold Decode.unknownAttribute
      split
      · exact nofun
      · exact List.forall_mem_singleton.mpr nofun

variable (allowed : placement = .behaviour ∨ placement = .libraryBehaviour)

include allowed

/-- Every expression of a behaviour that was read is a number. -/
theorem behaviour_exprs : ∀ expr ∈ content.exprs, expr.IsWord := by
  have listed := behaviour_listed formatted allowed front
  obtain ⟨entries, stateBytes, states, _, rows, _⟩ := behaviour_states formatted
  unfold Behaviour.exprs
  rw [List.forall_mem_append, List.forall_mem_append, List.forall_mem_append,
    (behaviour_consts formatted).1]
  refine ⟨?_, nofun, ?_, ?_⟩
  · intro expr member
    obtain ⟨attr, inAttributes, inAttr⟩ := List.mem_flatMap.mp member
    exact (listed.plain attr inAttributes).words expr inAttr
  · intro expr member
    obtain ⟨setup, given, inSetup⟩ := List.mem_flatMap.mp member
    obtain ⟨_, formatted⟩ := behaviour_starter formatted setup (Option.mem_toList.mp given)
    exact starter_exprs formatted expr inSetup
  · intro expr member
    obtain ⟨state, inStates, inState⟩ := List.mem_flatMap.mp member
    rw [states] at inStates
    obtain ⟨entry, given, rfl⟩ := List.mem_map.mp inStates
    obtain ⟨_, _, _, formatted⟩ := states_forall rows entry given
    exact state_exprs formatted expr inState

/-- A behaviour that was read can be spelled if what the host wrote can. -/
theorem behaviour_spellable
    (spellable : ∀ reference ∈ content.references, reference.Spellable)
    (identifier : isIdentifier name = true) : content.Spellable := by
  unfold Behaviour.references at spellable
  rw [List.forall_mem_append] at spellable
  have listed := behaviour_listed formatted allowed front
  obtain ⟨entries, stateBytes, states, nonempty, rows, _⟩ := behaviour_states formatted
  obtain ⟨consts, named⟩ := behaviour_consts formatted
  refine ⟨fun attr member => (listed.plain attr member).spellable, named ▸ identifier, ?_, ?_, ?_,
    nonempty⟩
  · rw [consts]
    exact nofun
  · intro setup given
    obtain ⟨_, formatted⟩ := behaviour_starter formatted setup given
    exact starter_spellable formatted fun assigner member => spellable.1 _
      (List.mem_flatMap.mpr ⟨setup, Option.mem_toList.mpr given, List.mem_map_of_mem member⟩)
  · intro state member
    have targets (target : Reference) (found : target ∈ state.target) : target.Spellable :=
      spellable.2 target (List.mem_filterMap.mpr ⟨state, member, found⟩)
    rw [states] at member
    obtain ⟨entry, given, rfl⟩ := List.mem_map.mp member
    obtain ⟨_, _, _, formatted⟩ := states_forall rows entry given
    exact state_spellable formatted targets

/-- A behaviour that was read passes the checks. -/
theorem behaviour_checked :
    env.checkBehaviour placement (content.mapExpr Expr.reread) = .ok () := by
  have listed := behaviour_listed formatted allowed front
  obtain ⟨entries, stateBytes, states, _, rows, near⟩ := behaviour_states formatted
  have numbered : Numbered content.states := states ▸ states_numbered rows rfl
  have same : (content.mapExpr Expr.reread).states.map State.name = content.states.map State.name := by
    unfold Behaviour.mapExpr
    rw [List.map_map]
    rfl
  refine Env.checkBehaviour_eq_ok.mpr ⟨listed.checked (by decide) env, ?_, ?_, ?_, ?_⟩
  · rw [same]
    exact numbered.nodup
  · rw [same]
    intro attr member name starts
    obtain ⟨original, inAttributes, rfl⟩ := List.mem_map.mp member
    refine behaviour_start formatted front original inAttributes name ?_
    exact original.kind.startFrom_of_mapExpr starts
  · intro setup given
    obtain ⟨original, present, rfl⟩ := Option.map_eq_some_iff.mp given
    obtain ⟨_, formatted⟩ := behaviour_starter formatted original present
    exact starter_checked formatted
  · rw [same]
    intro state member
    obtain ⟨original, inStates, rfl⟩ := List.mem_map.mp member
    rw [states] at inStates
    obtain ⟨entry, given, rfl⟩ := List.mem_map.mp inStates
    obtain ⟨_, _, _, formatted⟩ := states_forall rows entry given
    exact state_checked formatted fun target jumped =>
      numbered.mem_names (near entry given target jumped)

end Listed

end Behaviour

end Restored

end BehaviourScript
