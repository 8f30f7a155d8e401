/-
This file says where a const may be missing when the analysis reports it as
undefined. A name in an expression means a const of the list that belongs to the
surroundings of the expression, or of the library around them. If the behaviours
of a library have different names, a const that is reported is in neither list.
A behaviour that shares its name with a later one is checked with the consts of
that one, so there the analysis may miss a const that the behaviour declares.
-/

import BehaviourScript.Proofs.Consts.Equations
import BehaviourScript.Proofs.Consts.Least
import BehaviourScript.Proofs.Consts.Reordered
import BehaviourScript.Proofs.Printed.Kinds

namespace BehaviourScript

open Outcome

/-! ### Where consts are named -/

/-- A const named in an expression, with the consts declared in the surroundings of the expression
and in the library around them. -/
structure Mention where
  name : String
  span : Span
  own : List ConstDecl
  around : List ConstDecl
  deriving DecidableEq

/-- The name is declared where it may be. -/
def Mention.Declared (mention : Mention) : Prop :=
  mention.name ∈ mention.own.map ConstDecl.name ∨ mention.name ∈ mention.around.map ConstDecl.name

instance (mention : Mention) : Decidable mention.Declared :=
  inferInstanceAs (Decidable (_ ∨ _))

def Expr.mentions (own around : List ConstDecl) (expr : Expr) : List Mention :=
  expr.references.map fun reference => ⟨reference.1, reference.2, own, around⟩

def Behaviour.mentions (around : List ConstDecl) (behaviour : Behaviour) : List Mention :=
  behaviour.exprs.flatMap (Expr.mentions behaviour.consts around)

/-- Every const named in a script. -/
def Script.mentions : Script → List Mention
  | library content =>
    (content.attributes.flatMap Attribute.exprs ++ content.consts.map ConstDecl.value).flatMap
      (Expr.mentions content.consts []) ++ content.behaviours.flatMap
        (Behaviour.mentions content.consts)
  | behaviour content => content.mentions []
  | sequence content => content.exprs.flatMap (Expr.mentions content.consts [])

/-- A const that a behaviour of a library names outside of its const list, and that is missing from
the library and from the last behaviour of the same name. -/
def Script.Loses : Script → Mention → Prop
  | library content, mention =>
    ∃ before last after, content.behaviours = before ++ last :: after ∧
      (∃ behaviour ∈ before, behaviour.name = last.name ∧
        mention ∈ behaviour.bare.exprs.flatMap (Expr.mentions behaviour.consts content.consts)) ∧
      last.name ∉ after.map Behaviour.name ∧
      mention.name ∉ last.consts.map ConstDecl.name ∧
      mention.name ∉ content.consts.map ConstDecl.name
  | behaviour _, _ => False
  | sequence _, _ => False

/-- The names of a library's behaviours. -/
def Script.behaviourNames : Script → List String
  | library content => content.behaviours.map Behaviour.name
  | behaviour _ => []
  | sequence _ => []

theorem mem_mentions {own around : List ConstDecl} {exprs : List Expr} {expr : Expr}
    (inside : expr ∈ exprs) {reference : String × Span} (used : reference ∈ expr.references) :
    ⟨reference.1, reference.2, own, around⟩ ∈ exprs.flatMap (Expr.mentions own around) :=
  List.mem_flatMap.mpr ⟨expr, inside, List.mem_map_of_mem used⟩

/-- A scope is lost only where two behaviours share a name. -/
theorem Script.Loses.not_nodup {script : Script} {mention : Mention}
    (loses : script.Loses mention) : ¬script.behaviourNames.Nodup := by
  cases script with
  | library content =>
    obtain ⟨before, last, after, split, ⟨behaviour, inBefore, same, _⟩, _⟩ := loses
    intro distinct
    rw [behaviourNames, split, List.map_append, List.map_cons] at distinct
    exact (List.nodup_append.mp distinct).2.2 behaviour.name (List.mem_map_of_mem inBefore)
      last.name List.mem_cons_self same
  | behaviour content => exact loses.elim
  | sequence content => exact loses.elim

/-! ### Reasons -/

/-- If the outcome is that a const is undefined, there is a reason for it. -/
def Justified {α : Type} (reason : String → Position → Prop) (outcome : Except SemanticError α) :
    Prop :=
  ∀ name position, outcome = .error (.undefinedConst name position) → reason name position

namespace Justified

variable {α β : Type} {reason : String → Position → Prop}

theorem ok (value : α) : Justified reason (.ok value) := fun _ _ failed => by cases failed

/-- What fails first gives the reason. -/
theorem bind {first : Except SemanticError α} {next : α → Except SemanticError β}
    (before : Justified reason first)
    (after : ∀ value, first = .ok value → Justified reason (next value)) :
    Justified reason (first >>= next) := by
  intro name position failed
  rcases bind_eq_error.mp failed with here | ⟨value, done, later⟩
  · exact before name position here
  · exact after value done name position later

theorem andThen {first second : Check} (before : Justified reason first)
    (after : Justified reason second) : Justified reason (first >>= fun _ => second) :=
  before.bind fun _ _ => after

/-- A requirement that fails with another error. -/
theorem require {condition : Bool} {error : SemanticError}
    (other : ∀ name position, error ≠ .undefinedConst name position) :
    Justified reason (BehaviourScript.require condition error) := by
  intro name position failed
  unfold BehaviourScript.require at failed
  split at failed
  · cases failed
  · exact absurd (Except.error.inj failed) (other name position)

/-- The reason of a row of checks is that of one of them. -/
theorem forM {check : α → Check} {items : List α}
    (each : ∀ item ∈ items, Justified reason (check item)) :
    Justified reason (items.forM check) := by
  induction items with
  | nil => exact ok _
  | cons item rest inductionHypothesis =>
    rw [List.forall_mem_cons] at each
    exact each.1.andThen (inductionHypothesis each.2)

theorem forMOption {check : α → Check} {item : Option α}
    (each : ∀ value ∈ item, Justified reason (check value)) :
    Justified reason (item.forM check) := by
  cases item with
  | none => exact ok _
  | some value => exact each value rfl

/-- The reason of a row of named checks is that of one of them. -/
theorem checkNamed {name : α → String} {check : Bool → α → Check} {seen : List String}
    {items : List α} (each : ∀ repeated, ∀ item ∈ items, Justified reason (check repeated item)) :
    Justified reason (BehaviourScript.checkNamed name check seen items) := by
  induction items generalizing seen with
  | nil => exact ok _
  | cons item rest inductionHypothesis =>
    have behind := @inductionHypothesis (name item :: seen) fun repeated other member =>
      each repeated other (List.mem_cons_of_mem _ member)
    exact (each _ item List.mem_cons_self).andThen behind

end Justified

/-! ### Checks -/

namespace Env

variable {env : Env} {reason : String → Position → Prop}

/-- There is a reason for every name in some expressions that has no value. -/
def Explains (env : Env) (reason : String → Position → Prop) (exprs : List Expr) : Prop :=
  ∀ expr ∈ exprs, ∀ reference ∈ expr.references, env.value? reference.1 = none →
    reason reference.1 reference.2.start

theorem explains_append {front back : List Expr} :
    env.Explains reason (front ++ back) ↔ env.Explains reason front ∧ env.Explains reason back :=
  List.forall_mem_append

theorem explains_flatMap {α : Type} {exprs : α → List Expr} {items : List α} :
    env.Explains reason (items.flatMap exprs) ↔
      ∀ item ∈ items, env.Explains reason (exprs item) :=
  List.forall_mem_flatMap

/-- An expression is refused for a const that it names. -/
theorem checkExpr_justified {exprs : List Expr} (explains : env.Explains reason exprs) {expr : Expr}
    (member : expr ∈ exprs) : Justified reason (env.checkExpr expr) := by
  refine .bind (fun name position failed => ?_) fun _ _ => .ok _
  rcases eval_eq_error failed with ⟨_, wide⟩ | ⟨reference, used, missing, same⟩
  · cases wide
  · cases same
    exact explains expr member reference used missing

theorem checkExprs_justified {exprs : List Expr} (explains : env.Explains reason exprs) :
    Justified reason (exprs.forM env.checkExpr) :=
  .forM fun _ member => checkExpr_justified explains member

theorem checkCommands_justified {commands : List Command}
    (explains : env.Explains reason (commands.flatMap Command.args)) :
    Justified reason (env.checkCommands commands) :=
  .forM fun command member => checkExprs_justified (explains_flatMap.mp explains command member)

theorem checkControlPacket_justified {packet : ControlPacket}
    (explains : env.Explains reason (packet.settings.map Assign.value ++ packet.data)) :
    Justified reason (env.checkControlPacket packet) := by
  obtain ⟨settings, data⟩ := explains_append.mp explains
  refine .andThen (.checkNamed fun _ setting member => ?_) (checkExprs_justified data)
  refine .andThen (.require fun _ _ same => by cases same) ?_
  refine .andThen (.require fun _ _ same => by cases same) ?_
  exact checkExpr_justified settings (List.mem_map_of_mem member)

theorem checkAttributeKind_justified {kind : Attribute.Kind}
    (explains : env.Explains reason kind.exprs) :
    Justified reason (env.checkAttributeKind kind) := by
  cases kind with
  | controlPacket packet => exact checkControlPacket_justified explains
  | startFrom state => exact .ok _
  | nonBlocking => exact .ok _
  | skipFirstBody => exact .ok _
  | globalIndex value => exact checkExpr_justified explains List.mem_cons_self
  | priority value => exact checkExpr_justified explains List.mem_cons_self
  | instanceType value => exact checkExpr_justified explains List.mem_cons_self
  | useObjectSlot value => exact checkExpr_justified explains List.mem_cons_self
  | unknown value => exact checkExpr_justified explains List.mem_cons_self

/-- Attributes are refused for a const that one of them names, or for another reason. -/
theorem checkAttributes_justified {placement : Placement} {attributes : List Attribute}
    (explains : env.Explains reason (attributes.flatMap Attribute.exprs)) :
    Justified reason (env.checkAttributes placement attributes) := by
  refine .checkNamed fun _ attr member => ?_
  refine .andThen (.require fun _ _ same => by cases same) ?_
  refine .andThen (.require fun _ _ same => by cases same) ?_
  exact checkAttributeKind_justified (explains_flatMap.mp explains attr member)

theorem checkAssigner_justified {assigner : Assigner}
    (explains : env.Explains reason assigner.exprs) :
    Justified reason (env.checkAssigner assigner) := by
  refine .checkNamed fun _ field member => ?_
  refine .andThen (.require fun _ _ same => by cases same) ?_
  exact checkExpr_justified explains (List.mem_map_of_mem member)

theorem checkBody_justified {states : List String} {body : StateBody}
    (explains : env.Explains reason body.exprs) :
    Justified reason (env.checkBody states body) := by
  obtain ⟨conditions, commands⟩ := explains_append.mp explains
  refine .andThen (.forMOption fun parameter found => ?_) (.andThen
    (checkCommands_justified commands) (.forMOption fun _ _ => .require fun _ _ same => by
      cases same))
  obtain ⟨condition, given, holds⟩ := Option.bind_eq_some_iff.mp found
  refine checkExpr_justified conditions ?_
  exact List.mem_flatMap.mpr ⟨condition, Option.mem_toList.mpr given, Option.mem_toList.mpr holds⟩

/-- A state is refused for a const that it names, or for another reason. -/
theorem checkState_justified {states : List String} {state : State}
    (explains : env.Explains reason state.exprs) :
    Justified reason (env.checkState states state) := by
  obtain ⟨attributes, bodies⟩ := explains_append.mp explains
  refine .andThen (checkAttributes_justified attributes) ?_
  refine .andThen (.require fun _ _ same => by cases same) (.forM fun body member => ?_)
  exact checkBody_justified (explains_flatMap.mp bodies body member)

theorem checkStart_justified (states : List String) (attr : Attribute) :
    Justified reason (checkStart states attr) := by
  unfold checkStart
  split
  · exact .require fun _ _ same => by cases same
  · exact .ok _

/-- A behaviour is refused for a const that it names, or for another reason. -/
theorem checkBehaviour_justified {placement : Placement} {behaviour : Behaviour}
    (explains : env.Explains reason behaviour.bare.exprs) :
    Justified reason (env.checkBehaviour placement behaviour) := by
  obtain ⟨attributes, others⟩ := explains_append.mp explains
  obtain ⟨starter, states⟩ := explains_append.mp (explains_append.mp others).2
  refine .andThen (checkAttributes_justified attributes) ?_
  refine .andThen (.checkNamed fun _ _ _ => .require fun _ _ same => by cases same) ?_
  refine .andThen (.forM fun attr _ => checkStart_justified _ attr) ?_
  refine .andThen (.forMOption fun given found => .forM fun assigner member => ?_)
    (.forM fun state member => checkState_justified (explains_flatMap.mp states state member))
  exact checkAssigner_justified (explains_flatMap.mp
    (explains_flatMap.mp starter given (Option.mem_toList.mpr found)) assigner member)

theorem checkSequence_justified {sequence : Sequence}
    (explains : env.Explains reason sequence.exprs) :
    Justified reason (env.checkSequence sequence) := by
  obtain ⟨attributes, others⟩ := explains_append.mp explains
  obtain ⟨packs, commands⟩ := explains_append.mp (explains_append.mp others).2
  refine .andThen (checkAttributes_justified attributes)
    (.andThen (.forM fun pack member => ?_) (checkCommands_justified commands))
  exact checkCommands_justified (explains_flatMap.mp packs pack member)

end Env

/-- A library is refused for a const that it or one of its behaviours names, or for another
reason. -/
theorem SymbolTable.checkLibrary_justified {table : SymbolTable} {library : Library}
    {reason : String → Position → Prop}
    (top : table.rootEnv.Explains reason (library.attributes.flatMap Attribute.exprs))
    (each : ∀ behaviour ∈ library.behaviours,
      (table.behaviourEnv behaviour.name).Explains reason behaviour.bare.exprs) :
    Justified reason (table.checkLibrary library) := by
  refine .andThen (Env.checkAttributes_justified top) (.checkNamed fun _ behaviour member => ?_)
  refine .andThen (.require fun _ _ same => by cases same) ?_
  exact Env.checkBehaviour_justified (each behaviour member)

/-! ### Const lists -/

section Scopes

variable {decls ordered : List ConstDecl} {outer : Option Scope} {scope : Scope}
  {reason : String → Position → Prop}

/-- The sorting of a list misses names that are declared nowhere, and the evaluation misses none. -/
theorem buildScope_justified (evaluated : ∀ scope ∈ outer, scope.Evaluated)
    (explains : ∀ expr ∈ decls.map ConstDecl.value, ∀ reference ∈ expr.references,
      ¬Declared decls outer reference.1 → reason reference.1 reference.2.start) :
    Justified reason (buildScope decls outer) := by
  refine .bind (fun name position failed => ?_) fun placed sorted =>
    .bind (fun name position failed => ?_) fun _ _ => .ok _
  · rw [sortConsts_eq_settled, ConstOrder.settled] at failed
    split at failed
    · cases failed
    split at failed
    · next missing =>
      cases failed
      obtain ⟨before, after, split, _, undeclared⟩ :=
        ConstOrder.firstUndefined?_eq_some.mp missing
      obtain ⟨decl, member, used⟩ :=
        List.mem_flatMap.mp (split ▸ List.mem_append_right before List.mem_cons_self)
      exact explains decl.value (List.mem_map_of_mem member) _ used undeclared
    · split at failed <;> cases failed
  · obtain ⟨_, wide⟩ := extend_overflows sorted evaluated failed
    cases wide

/-- A scope that is built has the names that were declared, and no others. -/
theorem buildScope_contains (built : buildScope decls outer = .ok (ordered, scope))
    {name : String} : scope.contains name = true ↔ name ∈ decls.map ConstDecl.name := by
  obtain ⟨_, _, solves⟩ := buildScope_solves built
  rw [contains_eq_values]
  constructor
  · intro found
    by_contra absent
    rw [solves.only name absent] at found
    cases found
  · intro declared
    obtain ⟨decl, member, rfl⟩ := List.mem_map.mp declared
    obtain ⟨value, found, _⟩ := solves.settles decl member
    rw [found]
    rfl

/-- What has no value in a scope that has been built is declared nowhere. -/
theorem not_declared_of_value? (evaluated : ∀ scope ∈ outer, scope.Evaluated)
    (built : buildScope decls outer = .ok (ordered, scope)) {name : String}
    (missing : Env.value? ⟨scope, outer⟩ name = none) : ¬Declared decls outer name := by
  intro declared
  refine Env.value?_ne_none (buildScope_evaluated built) evaluated ?_ missing
  exact declared.imp_left (buildScope_contains built).mpr

end Scopes

section Children

variable {table final : SymbolTable} {behaviours ordered : List Behaviour}

/-- Under a name the last behaviour of that name has its scope. -/
theorem buildChildren_last (built : buildChildren table behaviours = .ok (ordered, final))
    {name : String} (member : name ∈ behaviours.map Behaviour.name) :
    ∃ before last after consts scope, behaviours = before ++ last :: after ∧ last.name = name ∧
      name ∉ after.map Behaviour.name ∧
      buildScope last.consts (some table.root) = .ok (consts, scope) ∧
      final.behaviourEnv name = ⟨scope, some table.root⟩ := by
  induction behaviours generalizing table ordered with
  | nil => cases member
  | cons behaviour rest inductionHypothesis =>
    simp only [buildChildren, bind_eq_ok] at built
    obtain ⟨⟨consts, scope⟩, scopeBuilt, ⟨others, final⟩, behind, done⟩ := built
    cases done
    by_cases later : name ∈ rest.map Behaviour.name
    · obtain ⟨before, last, after, consts, scope, rfl, same⟩ := inductionHypothesis behind later
      exact ⟨behaviour :: before, last, after, consts, scope, rfl, same⟩
    · obtain ⟨root, children⟩ := buildChildren_frame behind
      have here : name = behaviour.name := (List.mem_cons.mp member).resolve_right later
      refine ⟨[], behaviour, rest, consts, scope, rfl, here.symm, later, scopeBuilt, ?_⟩
      have child : final.child? name = some scope := by
        rw [children _ later, here]
        exact Assoc.get?_set_self behaviour.name scope table.children
      unfold SymbolTable.behaviourEnv
      rw [child, root]
      rfl

/-- The scopes of behaviours are refused for a const that their declarations name. -/
theorem buildChildren_justified {reason : String → Position → Prop}
    (evaluated : table.root.Evaluated)
    (each : ∀ behaviour ∈ behaviours, ∀ expr ∈ behaviour.consts.map ConstDecl.value,
      ∀ reference ∈ expr.references, ¬Declared behaviour.consts (some table.root) reference.1 →
        reason reference.1 reference.2.start) :
    Justified reason (buildChildren table behaviours) := by
  induction behaviours generalizing table with
  | nil => exact .ok _
  | cons behaviour rest inductionHypothesis =>
    rw [List.forall_mem_cons] at each
    have around : ∀ scope ∈ some table.root, scope.Evaluated := by
      rintro _ ⟨⟩
      exact evaluated
    refine .bind (buildScope_justified around each.1) fun built _ => ?_
    exact .bind (inductionHypothesis evaluated each.2) fun _ _ => .ok _

end Children

/-! ### Scripts -/

/-- Ordering the declarations changes nothing else of a script. -/
theorem buildTable_bare {script ordered : Script} {table : SymbolTable}
    (built : buildTable script = .ok (ordered, table)) : ordered.bare = script.bare := by
  cases buildTable_eq_ok.mp built with
  | @library content _ _ behaviours _ _ children =>
    have kept : behaviours.map Behaviour.bare = content.behaviours.map Behaviour.bare :=
      buildChildren_map (fun _ _ => rfl) children
    simp only [Script.bare, kept]
  | behaviour _ => rfl
  | sequence _ => rfl

theorem analyze_justified_of {script : Script} {reason : String → Position → Prop}
    (tables : Justified reason (buildTable script))
    (checks : ∀ ordered table, BuildsTo script ordered table →
      Justified reason (table.check script)) : Justified reason (analyze script) := by
  refine tables.bind fun ⟨ordered, table⟩ built => .bind ?_ fun _ _ => .ok _
  have checked := checks ordered table (buildTable_eq_ok.mp built)
  rw [← table.check_bare, ← buildTable_bare built, table.check_bare] at checked
  exact checked

/-- The reasons that the analysis has to call a const undefined: it is declared nowhere, or it is
lost. -/
def Script.Misses (script : Script) (name : String) (position : Position) : Prop :=
  ∃ mention ∈ script.mentions, mention.name = name ∧ mention.span.start = position ∧
    (¬mention.Declared ∨ script.Loses mention)

section Undeclared

variable {script : Script} {own around : List ConstDecl} {outer : Option Scope}
  (sees : ∀ name ∈ around.map ConstDecl.name, outer.any (·.contains name) = true)
  {exprs : List Expr} (inside : exprs.flatMap (Expr.mentions own around) ⊆ script.mentions)

include sees inside

theorem Script.misses_of_undeclared : ∀ expr ∈ exprs, ∀ reference ∈ expr.references,
    ¬BehaviourScript.Declared own outer reference.1 →
      script.Misses reference.1 reference.2.start := by
  intro expr member reference used undeclared
  refine ⟨_, inside (mem_mentions member used), rfl, rfl, .inl fun declared => undeclared ?_⟩
  exact declared.imp_right (sees reference.1)

/-- A const that a built scope does not have is declared nowhere around it. -/
theorem Script.explains_of_built (evaluated : ∀ scope ∈ outer, scope.Evaluated) {scope : Scope}
    {ordered : List ConstDecl} (built : buildScope own outer = .ok (ordered, scope)) :
    Env.Explains ⟨scope, outer⟩ script.Misses exprs := by
  intro expr member reference used missing
  exact misses_of_undeclared sees inside expr member reference used
    (not_declared_of_value? evaluated built missing)

end Undeclared

theorem Behaviour.bare_exprs_subset (behaviour : Behaviour) :
    behaviour.bare.exprs ⊆ behaviour.exprs :=
  ((List.sublist_append_right _ _).append_left _).subset

theorem Behaviour.consts_subset (behaviour : Behaviour) :
    behaviour.consts.map ConstDecl.value ⊆ behaviour.exprs :=
  ((List.sublist_append_left _ _).trans (List.sublist_append_right _ _)).subset

section Lone

variable {script : Script} {own : List ConstDecl} {exprs : List Expr}
  (inside : exprs.flatMap (Expr.mentions own []) ⊆ script.mentions)

include inside

/-- The const list of a script, with nothing around it. -/
theorem Script.buildScope_justified (consts : own.map ConstDecl.value ⊆ exprs) :
    Justified script.Misses (buildScope own none) := by
  refine BehaviourScript.buildScope_justified (fun _ none => by cases none) ?_
  intro expr member
  exact misses_of_undeclared (List.forall_mem_nil _) inside expr (consts member)

theorem Script.explains_of_lone {scope : Scope} {ordered : List ConstDecl}
    (built : buildScope own none = .ok (ordered, scope)) :
    Env.Explains ⟨scope, none⟩ script.Misses exprs :=
  explains_of_built (List.forall_mem_nil _) inside (fun _ none => by cases none) built

end Lone

section Library

variable {library : Library} {consts : List ConstDecl} {root : Scope}
  (built : buildScope library.consts none = .ok (consts, root))

include built

/-- In a behaviour of a library the names of both const lists are known. -/
theorem Library.misses_of_undeclared {behaviour : Behaviour}
    (member : behaviour ∈ library.behaviours) :
    ∀ expr ∈ behaviour.exprs, ∀ reference ∈ expr.references,
      ¬BehaviourScript.Declared behaviour.consts (some root) reference.1 →
        (Script.library library).Misses reference.1 reference.2.start := by
  refine Script.misses_of_undeclared (fun _ => (buildScope_contains built).mpr) ?_
  intro mention named
  exact List.mem_append_right _ (List.mem_flatMap.mpr ⟨behaviour, member, named⟩)

/-- What is missing in the checks of a behaviour is missing in the last behaviour of its name. If
that is another one, the behaviour may declare it nevertheless. -/
theorem Library.explains_behaviour {ordered : List Behaviour} {final : SymbolTable}
    (children : buildChildren (.ofScope root) library.behaviours = .ok (ordered, final))
    {behaviour : Behaviour} (member : behaviour ∈ library.behaviours) :
    (final.behaviourEnv behaviour.name).Explains (Script.library library).Misses
      behaviour.bare.exprs := by
  intro expr inside reference used missing
  obtain ⟨before, last, after, _, scope, split, same, absent, lastBuilt, sees⟩ :=
    buildChildren_last children (List.mem_map_of_mem member)
  rw [sees] at missing
  have around : ∀ outer ∈ some root, outer.Evaluated := by
    rintro _ ⟨⟩
    exact buildScope_evaluated built
  have undeclared := not_declared_of_value? around lastBuilt missing
  by_cases own : BehaviourScript.Declared behaviour.consts (some root) reference.1
  -- the behaviour declares what the last of its name does not, so that is another one behind it
  · obtain ⟨notLast, notAround⟩ := not_or.mp undeclared
    refine ⟨⟨reference.1, reference.2, behaviour.consts, library.consts⟩, ?_, rfl, rfl, .inr ?_⟩
    · exact List.mem_append_right _ (List.mem_flatMap.mpr ⟨behaviour, member,
        mem_mentions (behaviour.bare_exprs_subset inside) used⟩)
    have earlier : behaviour ∈ before := by
      rw [split, List.mem_append, List.mem_cons] at member
      rcases member with earlier | rfl | later
      · exact earlier
      · exact absurd own undeclared
      · exact absurd (List.mem_map_of_mem later) absent
    refine ⟨before, last, after, split, ⟨behaviour, earlier, same.symm, mem_mentions inside used⟩,
      same ▸ absent, notLast, fun declared => notAround ?_⟩
    exact (buildScope_contains built).mpr declared
  · exact misses_of_undeclared built member expr (behaviour.bare_exprs_subset inside) reference used
      own

end Library

/-- Whatever is reported as undefined is named in the script and declared nowhere that it can be
seen from. -/
theorem analyze_justified (script : Script) : Justified script.Misses (analyze script) := by
  cases script with
  | library content =>
    have inside : (content.attributes.flatMap Attribute.exprs ++
        content.consts.map ConstDecl.value).flatMap (Expr.mentions content.consts []) ⊆
        (Script.library content).mentions := List.subset_append_left _ _
    refine analyze_justified_of ?_ ?_
    · refine .bind (Script.buildScope_justified inside (List.subset_append_right _ _))
        fun ⟨consts, root⟩ built => ?_
      refine .bind (buildChildren_justified (buildScope_evaluated built) ?_) fun _ _ => .ok _
      intro behaviour member expr decl
      exact Library.misses_of_undeclared built member expr (behaviour.consts_subset decl)
    · intro _ table builds
      cases builds with
      | @library _ _ root _ _ built children =>
        refine SymbolTable.checkLibrary_justified ?_ fun behaviour member =>
          Library.explains_behaviour built children member
        have top : table.rootEnv = ⟨root, none⟩ :=
          congrArg (Env.mk · none) (buildChildren_frame children).1
        rw [top]
        exact (Env.explains_append.mp (Script.explains_of_lone inside built)).1
  | behaviour content =>
    have inside : content.exprs.flatMap (Expr.mentions content.consts []) ⊆
        (Script.behaviour content).mentions := List.Subset.refl _
    refine analyze_justified_of ?_ ?_
    · exact .bind (Script.buildScope_justified inside content.consts_subset) fun _ _ => .ok _
    · intro _ _ builds
      cases builds with
      | behaviour built =>
        refine Env.checkBehaviour_justified fun expr member => ?_
        exact Script.explains_of_lone inside built expr (content.bare_exprs_subset member)
  | sequence content =>
    have inside : content.exprs.flatMap (Expr.mentions content.consts []) ⊆
        (Script.sequence content).mentions := List.Subset.refl _
    have consts : content.consts.map ConstDecl.value ⊆ content.exprs :=
      ((List.sublist_append_left _ _).trans (List.sublist_append_right _ _)).subset
    refine analyze_justified_of ?_ ?_
    · exact .bind (Script.buildScope_justified inside consts) fun _ _ => .ok _
    · intro _ _ builds
      cases builds with
      | sequence built =>
        exact Env.checkSequence_justified (Script.explains_of_lone inside built)

/-- A const that the analysis calls undefined is named at the place it tells, and there it is
declared nowhere or lost to a later behaviour of the same name. If all behaviours have different
names, it is declared nowhere. -/
theorem undefinedConst_of_analyze {script : Script} {name : String} {position : Position}
    (failed : analyze script = .error (.undefinedConst name position)) :
    ∃ mention ∈ script.mentions, mention.name = name ∧ mention.span.start = position ∧
      (¬mention.Declared ∨ script.Loses mention) ∧
      (script.behaviourNames.Nodup → ¬mention.Declared) := by
  obtain ⟨mention, member, named, place, reason⟩ := analyze_justified script name position failed
  refine ⟨mention, member, named, place, reason, fun distinct => ?_⟩
  exact reason.resolve_right fun loses => loses.not_nodup distinct

/-- A place in a text of one line. -/
def Span.inLine (start stop : Nat) : Span := ⟨⟨1, start + 1, start⟩, ⟨1, stop + 1, stop⟩⟩

def hooksText (second : String) : String :=
  "library Hooks \x7b [Unknown(Far)] behaviour Lift \x7b const Far = 1; " ++
    "state Start() \x7b \x7d \x7d [Unknown(Far)] behaviour " ++ second ++
    " \x7b state Start() \x7b \x7d \x7d \x7d"

/-- A library of two behaviours that name a const. The first declares it. -/
def hooks (second : String) : Script :=
  .library ⟨[], "Hooks", [],
    [⟨[⟨.unknown (.const "Far" (.inLine 25 28)), .inLine 16 30⟩], "Lift",
      [⟨"Far", .number 1 (.inLine 60 61), .inLine 48 62⟩], none,
      [⟨[], "Start", none, [], .inLine 63 80⟩], .inLine 16 82⟩,
    ⟨[⟨.unknown (.const "Far" (.inLine 92 95)), .inLine 83 97⟩], second, [], none,
      [⟨[], "Start", none, [], .inLine 115 132⟩], .inLine 83 134⟩], .inLine 0 136⟩

theorem undefinedConst_of_analyze_hooks :
    parseSource (hooksText "Hook") = .ok (hooks "Hook") ∧
    analyze (hooks "Hook") = .error (.undefinedConst "Far" ⟨1, 93, 92⟩) ∧
    ∃ mention ∈ (hooks "Hook").mentions, mention.name = "Far" ∧
      mention.span.start = ⟨1, 93, 92⟩ ∧ ¬mention.Declared := by
  have failed : analyze (hooks "Hook") = .error (.undefinedConst "Far" ⟨1, 93, 92⟩) := by
    decide +kernel
  have distinct : (hooks "Hook").behaviourNames.Nodup := by decide +kernel
  obtain ⟨mention, member, named, place, _, undeclared⟩ := undefinedConst_of_analyze failed
  exact ⟨by decide +kernel, failed, mention, member, named, place, undeclared distinct⟩

/-- If both behaviours have one name, the analysis misses the const that the first declares. -/
theorem declared_undefinedConst_hooks :
    parseSource (hooksText "Lift") = .ok (hooks "Lift") ∧
    analyze (hooks "Lift") = .error (.undefinedConst "Far" ⟨1, 26, 25⟩) ∧
    ∃ mention ∈ (hooks "Lift").mentions, mention.name = "Far" ∧
      mention.span.start = ⟨1, 26, 25⟩ ∧ mention.Declared ∧
      ∀ other ∈ (hooks "Lift").mentions, other.span.start = ⟨1, 26, 25⟩ → other = mention := by
  decide +kernel

end BehaviourScript
