/-
This file proves that a decompiled text compiles to the bytes it came from. What
was decoded is printed and read back with its numbers and names, the host gives
the names back their IDs, and what the encoder then writes is what the decoder
has read.
-/

import BehaviourScript.Proofs.Binary.Scripts
import BehaviourScript.Proofs.Formatting
import BehaviourScript.Proofs.Restored.Scripts

namespace BehaviourScript

open Outcome

theorem Script.erase_reread (script : Script) : script.reread.erase = script.reread := by
  rw [erase, reread, mapExpr_mapExpr]
  exact congrArg script.mapExpr (funext Expr.erase_reread)

theorem Script.shallow_of_words {script : Script} (words : ∀ expr ∈ script.exprs, expr.IsWord) :
    script.Shallow :=
  fun expr member => Nat.le_trans (words expr member).nesting_le (by decide)

theorem parseSource_print {script : Script} (spellable : script.Spellable)
    (shallow : script.Shallow) (options : PrintOptions) :
    ∃ result, parseSource (script.print options) = .ok result ∧ result.erase = script.reread := by
  obtain ⟨tokens, split, shape, proper⟩ := Script.tokenize_print spellable options
  have spelled := Script.spelled spellable shallow
  obtain ⟨result, run, same⟩ := (parse_eq_ok_iff shape proper.eof_notMem _).mpr spelled
  exact ⟨result, parseSource_eq_ok.mpr ⟨tokens, split, run⟩, same⟩

/-- A printed script compiles to what the script itself is assembled to. -/
theorem compileSource_print {script : Script} (spellable : script.Spellable)
    (shallow : script.Shallow) (options : PrintOptions) {resolvers : CompileResolvers}
    {bytes : Bytes} (assembled : assemble resolvers script.reread = .ok bytes) :
    compileSource resolvers (script.print options) = .ok bytes := by
  obtain ⟨result, read, same⟩ := parseSource_print spellable shallow options
  rw [compileSource_eq, read]
  exact (assemble_alike resolvers (same.trans script.erase_reread.symm)).symm.eq_ok assembled

theorem decompile_eq_ok {kind : ItemKind} {bytes : Bytes} {name : String}
    {resolvers : DecompileResolvers} {options : PrintOptions} {text : String} :
    decompile kind bytes name resolvers options = .ok text ↔
      ∃ script, decode kind bytes name resolvers = .ok script ∧ script.print options = text := by
  unfold decompile
  simp only [bind_eq_ok, pure_eq_ok]

/-- A text that was decompiled compiles to the bytes it came from. -/
theorem compileSource_decompile {set : ResolverSet} (named : set.Named) {kind : ItemKind}
    {bytes : Bytes} (distinct : kind = .library → (libraryIds bytes).Nodup) {name : String}
    {options : PrintOptions} {text : String}
    (done : decompile kind bytes name set.decompileResolvers options = .ok text) :
    compileSource set.compileResolvers text = .ok bytes := by
  obtain ⟨script, decoded, rfl⟩ := decompile_eq_ok.mp done
  obtain ⟨identifier, formatted⟩ := decode_eq_ok_iff.mp decoded
  have inverse := ResolverSet.inverse named
  exact compileSource_print (Restored.script_spellable formatted inverse identifier)
    (Script.shallow_of_words (Restored.script_words formatted)) options
    (Restored.script_assembled formatted inverse distinct)

/-- A host that names a graph and an object, but no state graphs. -/
def campNames : ResolverSet where
  graphs := some (.ofList [("Guard", 2)])
  objects := some (.ofList [("Lamp", 4)])

/-- A library with a starter, a condition, a control packet and negative numbers. -/
def campLibrary : Bytes :=
  [1, 0, 5, 0, 2, 0, 0, 0, 47, 0, 0, 0, 0, 0, 1, 0, 1, 0, 4, 0, 0, 2, 1, 2, 7, 0, 3, 0, 1, 0, 6,
    0, 1, 0, 249, 255, 255, 255, 0, 0, 1, 0, 255, 255, 255, 255, 0, 1, 255, 255, 0, 4, 1, 0, 2, 249,
    255, 255, 255]

def campText : String :=
  "[Unknown(5)]\nlibrary Camp \x7b\n\t[Priority(0)]\n\t[StartFrom(State_0)]\n" ++
    "\tbehaviour Guard \x7b\n\t\tstarter \x7b\n\t\t\tassign Lamp(status = 2);\n\t\t\x7d\n\n" ++
    "\t\tstate State_0(7) \x7b\n\t\t\tif not FlagSet(-7) \x7b\n" ++
    "\t\t\t\tWait(-1);\n\t\t\t\tgoto State_1;\n\t\t\t\x7d\n\t\t\x7d\n\n" ++
    "\t\t[ControlPacket(gravity = 2, -7)]\n\t\tstate State_1() \x7b\n\t\t\x7d\n\t\x7d\n\x7d\n"

theorem compileSource_decompile_camp :
    campNames.Named ∧ (libraryIds campLibrary).Nodup ∧
      decompile .library campLibrary "Camp" campNames.decompileResolvers {} = .ok campText ∧
      compileSource campNames.compileResolvers campText = .ok campLibrary := by
  have named : campNames.Named := by
    rintro (_ | _ | _) map ⟨⟩ <;> decide +kernel
  have distinct : (libraryIds campLibrary).Nodup := by decide +kernel
  have done : decompile .library campLibrary "Camp" campNames.decompileResolvers {} =
      .ok campText := by decide +kernel
  exact ⟨named, distinct, done, compileSource_decompile named (fun _ => distinct) done⟩

end BehaviourScript
