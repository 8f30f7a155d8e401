/-
This file ends the account of the limits at libraries, sequences and whole
scripts: a script that passes the analysis is written exactly if it fits, and if
it is not written the error names a number out of range, a name that the host
does not know or a graph ID that is taken.
-/

import BehaviourScript.Proofs.Limits.Records

namespace BehaviourScript

open Outcome

namespace Encode

variable {env : Env} (resolvers : CompileResolvers) {table : SymbolTable}

/-! ### Graph IDs -/

/-- A behaviour has an ID that 32 bits hold. -/
def GraphIdFits (env : Env) (content : Behaviour) (id : Int) : Prop :=
  content.HasGraphId resolvers env id ∧ 0 ≤ id ∧ id ≤ 4294967295

/-- A behaviour has one graph ID at most. -/
theorem hasGraphId_unique {content : Behaviour} {first second : Int}
    (found : content.HasGraphId resolvers env first)
    (again : content.HasGraphId resolvers env second) : first = second := by
  unfold Behaviour.HasGraphId at found again
  cases picked : Canonical.pick Attribute.Kind.globalIndex? content.attributes with
  | some expr =>
    rw [picked] at found again
    exact Except.ok.inj (found.symm.trans again)
  | none =>
    rw [picked] at found again
    exact Except.ok.inj (found.symm.trans again)

theorem namedId_decides {placement : Placement} {content : Behaviour}
    (passes : env.checkAttributes placement content.attributes = .ok ()) :
    Decides (∃ id, content.HasGraphId resolvers env id) (content.HasGraphId resolvers env)
      (namedId resolvers env content) := by
  have hasValue (expr : Expr)
      (picked : expr ∈ Canonical.pick Attribute.Kind.globalIndex? content.attributes) :
      env.HasValue expr :=
    hasValue_of_pick Attribute.Kind.globalIndex?
      (fun | .globalIndex _, _, rfl, passed => Env.checkExpr_eq_ok.mp passed) passes picked
  unfold namedId Behaviour.HasGraphId
  rw [globalIndex?_eq]
  cases picked : Canonical.pick Attribute.Kind.globalIndex? content.attributes with
  | some expr =>
    exact (Env.eval_decides (hasValue expr picked)).congr
      (iff_of_true trivial (hasValue expr picked))
  | none => exact resolvers.id_decides .graph content.name

/-- The graph ID of a behaviour is found if its attribute or the host has one in range. -/
theorem graphId_decides {placement : Placement} {content : Behaviour}
    (passes : env.checkAttributes placement content.attributes = .ok ()) :
    Decides (∃ id, GraphIdFits resolvers env content id) (GraphIdFits resolvers env content)
      (graphId resolvers env content) := by
  rw [graphId_eq]
  refine (namedId_decides resolvers passes).bindWith (fun id named =>
    ((Quantity.graphId content.name).fit_decides 0 4294967295 rfl rfl id).mono ?_) ?_ ?_
  · rintro _ fitted rfl
    exact ⟨named, Quantity.holds_iff.mp (Quantity.fit_eq_ok.mp fitted).1⟩
  · exact fun ⟨id, named, _⟩ => ⟨id, named⟩
  · intro id named
    constructor
    · exact fun inside => ⟨id, named, inside⟩
    · rintro ⟨other, again, inside⟩
      cases hasGraphId_unique resolvers named again
      exact inside

/-! ### Libraries -/

/-- The behaviours of a row fit, and their IDs are neither taken nor given twice. -/
def EntriesFit (table : SymbolTable) (taken : List Int) (row : List Behaviour) : Prop :=
  (∃ ids : List Int, ids.Nodup ∧ (∀ id ∈ ids, id ∉ taken) ∧
    List.Forall₂ (fun content id =>
      GraphIdFits resolvers (table.behaviourEnv content.name) content id) row ids) ∧
  ∀ content ∈ row, content.Fits resolvers (table.behaviourEnv content.name) ∧
    content.byteLength < 2 ^ 32

theorem entriesFit_nil (table : SymbolTable) (taken : List Int) :
    EntriesFit resolvers table taken [] :=
  ⟨⟨[], .nil, nofun, .nil⟩, nofun⟩

/-- Behaviours fit if the first does, with an ID that is free, and the others do with that ID
taken. -/
theorem entriesFit_cons_iff {taken : List Int} {first : Behaviour} {rest : List Behaviour}
    {id : Int} (known : GraphIdFits resolvers (table.behaviourEnv first.name) first id) :
    EntriesFit resolvers table taken (first :: rest) ↔
      id ∉ taken ∧ first.Fits resolvers (table.behaviourEnv first.name) ∧
        first.byteLength < 2 ^ 32 ∧ EntriesFit resolvers table (id :: taken) rest := by
  unfold EntriesFit
  constructor
  · rintro ⟨⟨_, distinct, fresh, _ | ⟨here, behind⟩⟩, fits⟩
    cases hasGraphId_unique resolvers known.1 here.1
    rw [List.nodup_cons] at distinct
    rw [List.forall_mem_cons] at fresh fits
    refine ⟨fresh.1, fits.1.1, fits.1.2, ⟨_, distinct.2, fun other member => ?_, behind⟩, fits.2⟩
    rw [List.mem_cons, not_or]
    exact ⟨fun same => distinct.1 (same ▸ member), fresh.2 other member⟩
  · rintro ⟨free, fits, short, ⟨ids, distinct, fresh, behind⟩, others⟩
    refine ⟨⟨id :: ids, List.nodup_cons.mpr ⟨fun member => ?_, distinct⟩,
      List.forall_mem_cons.mpr ⟨free, fun other member => ?_⟩, .cons known behind⟩,
      List.forall_mem_cons.mpr ⟨⟨fits, short⟩, others⟩⟩
    · exact fresh id member List.mem_cons_self
    · exact fun old => fresh other member (List.mem_cons_of_mem _ old)

/-- The behaviours of a library are written if they fit. The induction goes along them, with the
IDs that are taken. -/
theorem entries_decides {row : List Behaviour}
    (passes : ∀ content ∈ row,
      (table.behaviourEnv content.name).checkBehaviour .libraryBehaviour content = .ok ())
    (taken : List (Int × String)) :
    Decides (EntriesFit resolvers table (taken.map Prod.fst) row)
      (·.length = (row.map (8 + Behaviour.byteLength ·)).sum)
      (entries resolvers table taken row) := by
  induction row generalizing taken with
  | nil => exact .passes (entriesFit_nil resolvers table _) rfl
  | cons first rest inductionHypothesis =>
    rw [List.forall_mem_cons] at passes
    have attributesPass := (Env.checkBehaviour_eq_ok.mp passes.1).1
    have small : first.byteLength ≤ 4294967295 ↔ first.byteLength < 2 ^ 32 := by omega
    unfold entries
    refine Decides.bindWith (graphId_decides resolvers attributesPass) (fun id known => ?_) ?_
      fun id known => (entriesFit_cons_iff resolvers known).symm
    · cases clash : Assoc.get? id taken with
      | some holder =>
        have held : id ∈ taken.map Prod.fst := List.mem_map_of_mem (Assoc.mem_of_get? clash)
        exact .fails (fun free => free.1 held) trivial
      | none =>
        refine Decides.congr ((behaviour_decides resolvers passes.1).bind fun graph length => ?_)
          (and_iff_right (Assoc.get?_eq_none_iff.mp clash)).symm
        have short := (Quantity.graphLength first.name).count_decides 4294967295 rfl rfl
          graph.length
        rw [length] at short ⊢
        refine Decides.congr (short.bind fun _ _ => (inductionHypothesis passes.2 _).map
          fun others othersLength => ?_) (and_congr_left' small)
        simp only [List.length_append, IntFormat.length_encode, length, othersLength, List.map_cons,
          List.sum_cons]
        rfl
    · rintro ⟨⟨_, _, _, _ | ⟨known, _⟩⟩, _⟩
      exact ⟨_, known⟩

theorem libraryUnknown_decides {content : Library}
    (passes : table.rootEnv.checkAttributes .library content.attributes = .ok ()) :
    Decides (∀ expr ∈ Canonical.pick Attribute.Kind.unknown? content.attributes,
        table.rootEnv.Between 0 65535 expr) (fun _ => True) (libraryUnknown table content) := by
  unfold libraryUnknown
  rw [unknown?_eq]
  cases picked : Canonical.pick Attribute.Kind.unknown? content.attributes with
  | some expr =>
    have hasValue := hasValue_of_pick Attribute.Kind.unknown?
      (fun | .unknown _, _, rfl, passed => Env.checkExpr_eq_ok.mp passed) passes picked
    have measured := (Quantity.libraryUnknown content.name).measure_decides 0 65535 rfl rfl hasValue
    refine (measured.mono fun _ _ _ => trivial).congr ?_
    simp only [Option.mem_some_iff, forall_eq']
  | none => exact .passes nofun trivial

/-- A library that passes the checks is written if its parts fit. -/
theorem library_decides {content : Library} (passes : table.checkLibrary content = .ok ()) :
    Decides (content.Fits resolvers table) (·.length = content.byteLength)
      (library resolvers table content) := by
  obtain ⟨attributesPass, _, behavioursPass⟩ := SymbolTable.checkLibrary_eq_ok.mp passes
  have count := (Quantity.behaviourCount content.name).count_decides 65535 rfl rfl
    content.behaviours.length
  have graphs := entries_decides resolvers behavioursPass []
  rw [library_eq]
  refine Decides.congr (count.bind fun _ _ => (libraryUnknown_decides attributesPass).bind
    fun _ _ => graphs.map fun bytes length => ?_) ?_
  · simp only [List.length_append, IntFormat.length_encode, length]
    rfl
  · rw [content.fits_iff resolvers table]
    refine and_congr_right fun _ => and_congr_right fun _ => and_congr_left fun _ => ?_
    exact exists_congr fun ids => and_congr_right fun _ => and_iff_right fun _ _ => List.not_mem_nil

/-! ### Sequences -/

theorem sequenceSetting_decides (name : String) {attr : Attribute}
    (checked : env.checkAttributeKind attr.kind = .ok ()) (settings : SequenceSettings) :
    Decides ((∀ expr ∈ attr.kind.instanceType?, env.Between 0 255 expr) ∧
        (∀ expr ∈ attr.kind.globalIndex?, env.Between 0 255 expr) ∧
        ∀ expr ∈ attr.kind.unknown?, env.Between 0 255 expr) (fun _ => True)
      (sequenceSetting env name settings attr) := by
  unfold sequenceSetting
  cases shape : attr.kind with
  | instanceType expr =>
    rw [shape] at checked
    have measured := (Quantity.instanceType name).measure_decides 0 255 rfl rfl
      (Env.checkExpr_eq_ok.mp checked)
    refine (measured.map fun _ _ => trivial).congr ?_
    simp [Attribute.Kind.instanceType?, Attribute.Kind.globalIndex?, Attribute.Kind.unknown?]
  | globalIndex expr =>
    rw [shape] at checked
    have measured := (Quantity.globalIndex name).measure_decides 0 255 rfl rfl
      (Env.checkExpr_eq_ok.mp checked)
    refine (measured.map fun _ _ => trivial).congr ?_
    simp [Attribute.Kind.instanceType?, Attribute.Kind.globalIndex?, Attribute.Kind.unknown?]
  | unknown expr =>
    rw [shape] at checked
    have measured := (Quantity.sequenceUnknown name).measure_decides 0 255 rfl rfl
      (Env.checkExpr_eq_ok.mp checked)
    refine (measured.map fun _ _ => trivial).congr ?_
    simp [Attribute.Kind.instanceType?, Attribute.Kind.globalIndex?, Attribute.Kind.unknown?]
  | _ =>
    refine .passes ?_ trivial
    simp [Attribute.Kind.instanceType?, Attribute.Kind.globalIndex?, Attribute.Kind.unknown?]

theorem sequenceSettings_decides (name : String) {attributes : List Attribute}
    (passes : env.checkAttributes .sequence attributes = .ok ()) :
    Decides ((∀ expr ∈ Canonical.pick Attribute.Kind.instanceType? attributes,
          env.Between 0 255 expr) ∧
        (∀ expr ∈ Canonical.pick Attribute.Kind.globalIndex? attributes, env.Between 0 255 expr) ∧
        ∀ expr ∈ Canonical.pick Attribute.Kind.unknown? attributes, env.Between 0 255 expr)
      (fun _ => True) (attributes.foldlM (sequenceSetting env name) {}) := by
  obtain ⟨distinct, checked⟩ := Env.checkAttributes_eq_ok.mp passes
  rw [← forall_pick_iff "InstanceType" (fun | .instanceType _, _ => rfl) distinct,
    ← forall_pick_iff "GlobalIndex" (fun | .globalIndex _, _ => rfl) distinct,
    ← forall_pick_iff "Unknown" (fun | .unknown _, _ => rfl) distinct, ← forall₂_and,
    ← forall₂_and]
  have whole := Decides.foldlM {} fun attr member settings =>
    sequenceSetting_decides name (checked attr member).2 settings
  exact whole.mono fun _ _ _ => trivial

theorem pack_decides {content : CommandPack}
    (values : ∀ command ∈ content.commands, ∀ arg ∈ command.args, env.HasValue arg) :
    Decides (content.Fits resolvers env) (·.length = content.byteLength)
      (pack resolvers env content) := by
  have script := (Quantity.script content.script).reference_decides 0 65535 rfl rfl resolvers
    .graph content.script
  unfold pack
  refine Decides.congr ((commandPack_decides values).bind fun row length => ?_)
    (content.fits_iff resolvers env).symm
  rw [← bind_assoc]
  refine script.map fun word _ => ?_
  rw [List.length_append, length, IntFormat.length_encode]
  exact Nat.add_right_comm 2 _ 2

/-- A sequence that passes the checks is written if its parts fit. -/
theorem sequence_decides {content : Sequence} (passes : env.checkSequence content = .ok ()) :
    Decides (content.Fits resolvers env) (·.length = content.byteLength)
      (sequence resolvers env content) := by
  obtain ⟨attributesPass, packValues, values⟩ := Env.checkSequence_eq_ok.mp passes
  have count := (Quantity.packCount content.name).count_decides 255 rfl rfl content.packs.length
  have packs := Decides.mapM fun pack member => pack_decides resolvers (packValues pack member)
  unfold sequence
  refine Decides.congr ((sequenceSettings_decides content.name attributesPass).bind fun _ _ =>
    count.bind fun _ _ => packs.bind fun parts written =>
      (commandPack_decides values).map fun row length => ?_) ?_
  · simp only [List.length_append, IntFormat.length_encode, length,
      length_flatten_of_forall₂ written, Sequence.byteLength, IntFormat.width]
    omega
  · rw [content.fits_iff resolvers env, and_assoc, and_assoc]

end Encode

/-! ### Scripts -/

/-- A script that passes the checks is written if it fits, and its length is known. -/
theorem emit_decides (resolvers : CompileResolvers) {table : SymbolTable} {script : Script}
    (passes : table.check script = .ok ()) :
    Decides (script.Fits resolvers table) (·.length = script.byteLength)
      (emit resolvers table script) := by
  cases script with
  | library content => exact Encode.library_decides resolvers passes
  | behaviour content => exact Encode.behaviour_decides resolvers passes
  | sequence content => exact Encode.sequence_decides resolvers passes

/-- An analysed script is written exactly if it fits, and then in as many bytes as its tree says.
Otherwise a number is out of range, a name has no ID or a graph ID is taken; no other error is
left. -/
theorem emit_fits {script ordered : Script} {table : SymbolTable}
    (analyzed : analyze script = .ok (ordered, table)) (resolvers : CompileResolvers) :
    ((∃ bytes, emit resolvers table ordered = .ok bytes) ↔ ordered.Fits resolvers table) ∧
      (∀ bytes, emit resolvers table ordered = .ok bytes → bytes.length = ordered.byteLength) ∧
      ∀ error, emit resolvers table ordered = .error error → error.IsLimit := by
  have decided := emit_decides resolvers (analyze_eq_ok.mp analyzed).2
  exact ⟨decided.exists_ok_iff, fun _ => decided.known, fun _ => decided.isLimit⟩

/-- A library whose consts need another order than they are declared in. -/
def watch (second first : ConstDecl) : Script :=
  .library ⟨[], "Watch", [second, first], [{
    attributes := [⟨.globalIndex (.const "Second" .dummy), .dummy⟩]
    name := "Round"
    consts := []
    starter := some ⟨[⟨.symbol "Lamp", [], .dummy⟩], .dummy⟩
    states := [⟨[⟨.useObjectSlot (.const "First" .dummy), .dummy⟩], "Walk", none,
      [⟨none, [⟨3, [.const "Second" .dummy], .dummy⟩], some "Walk", .dummy⟩], .dummy⟩]
    span := .dummy }], .dummy⟩

def watchSecond : ConstDecl :=
  ⟨"Second", .binary .add (.const "First" .dummy) (.literal 1) .dummy, .dummy⟩

def watchFirst : ConstDecl := ⟨"First", .literal 7, .dummy⟩

def watchTable : SymbolTable :=
  ⟨⟨[("First", .of 7 1 .dummy), ("Second", .of 8 0 .dummy)]⟩, [("Round", ⟨[]⟩)]⟩

def watchNames : CompileResolvers := { objects := some fun _ => some 4 }

theorem emit_fits_watch :
    analyze (watch watchSecond watchFirst) = .ok (watch watchFirst watchSecond, watchTable) ∧
      ((∃ bytes, emit watchNames watchTable (watch watchFirst watchSecond) = .ok bytes) ↔
        (watch watchFirst watchSecond).Fits watchNames watchTable) ∧
      (∀ bytes, emit watchNames watchTable (watch watchFirst watchSecond) = .ok bytes →
        bytes.length = (watch watchFirst watchSecond).byteLength) ∧
      ∀ error, emit watchNames watchTable (watch watchFirst watchSecond) = .error error →
        error.IsLimit := by
  have analyzed : analyze (watch watchSecond watchFirst) =
      .ok (watch watchFirst watchSecond, watchTable) := by decide +kernel
  exact ⟨analyzed, emit_fits analyzed watchNames⟩

end BehaviourScript
