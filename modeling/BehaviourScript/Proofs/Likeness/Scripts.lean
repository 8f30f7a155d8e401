/-
This file concludes that scripts that are alike compile alike: both to the same
bytes, or neither. The order of the attributes and settings comes out only because
no attribute and no setting is given twice, so what is written is compared after
the checks have passed.
-/

import BehaviourScript.Compiler
import BehaviourScript.Proofs.Likeness.Emission

namespace BehaviourScript

/-- The binary of a script that is not analysed yet. -/
def assemble (resolvers : CompileResolvers) (script : Script) : Outcome Bytes := do
  let (ordered, table) ← Outcome.ofSemantic (analyze script)
  emit resolvers table ordered

theorem compileSource_eq (resolvers : CompileResolvers) (source : String) :
    compileSource resolvers source = parseSource source >>= assemble resolvers := by
  unfold compileSource compile checkSource assemble
  simp only [bind_assoc, pure_bind, bind_pure]

/-- Two scripts that are alike and have passed the checks, with their tables. -/
structure AnalysedLike (Consts : String → String → Prop) (first second : Script × SymbolTable) :
    Prop where
  script : first.1.Like Consts second.1
  table : first.2.Like Consts second.2
  checked : first.2.check first.1 = .ok ()

namespace Script.Like

variable {Consts : String → String → Prop} (unique : Relator.BiUnique Consts)
  {script image : Script} (like : script.Like Consts image)

include unique like

theorem analyze_alike : Alike (AnalysedLike Consts) (analyze script) (analyze image) := by
  refine (buildTable_like unique like).bind fun (ordered, table) (other, again) built => ?_
  obtain ⟨same, tables⟩ := built
  have passes := same.check_iff tables
  refine (Alike.of_ok_iff passes).bindRun fun _ _ checked _ _ => ?_
  exact .ok ⟨same, tables, checked⟩

theorem assemble_alike (resolvers : CompileResolvers) :
    Alike Eq (assemble resolvers script) (assemble resolvers image) :=
  (analyze_alike unique like).ofSemantic.bind fun _ _ analysed =>
    analysed.script.emit_alike analysed.table analysed.checked resolvers

end Script.Like

end BehaviourScript
