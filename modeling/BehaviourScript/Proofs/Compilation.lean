/-
This file proves that nothing but form is lost when a script is compiled: its
binary is decoded, without any names from the host, to the canonical form of the
script that was analysed.
-/

import BehaviourScript.Proofs.Binary.Scripts
import BehaviourScript.Proofs.Canonical.Scripts
import BehaviourScript.Proofs.Formatting

namespace BehaviourScript

open Outcome

/-! ### The states of a script that was read -/

namespace Grammar

theorem behaviour_states {room : Nat} {attributes : List Attribute} {kinds : List Token.Kind}
    {value : Behaviour} (spelled : behaviour room attributes kinds value) : value.states ≠ [] := by
  cases spelled with
  | intro _ _ _ peopled => exact peopled

theorem behaviours_states {room : Nat} {kinds : List Token.Kind} {row : List Behaviour}
    (spelled : many (libraryBehaviour room) kinds row) : ∀ value ∈ row, value.states ≠ [] := by
  induction spelled with
  | nil => exact List.forall_mem_nil _
  | cons first _ inductionHypothesis =>
    cases first with
    | intro _ here => exact List.forall_mem_cons.mpr ⟨behaviour_states here, inductionHypothesis⟩

theorem script_hasStates {room : Nat} {kinds : List Token.Kind} {value : Script}
    (spelled : script room kinds value) : value.HasStates := by
  cases spelled with
  | intro _ unit =>
    cases unit with
    | library spelled =>
      cases spelled with
      | intro _ row => exact behaviours_states row
    | behaviour spelled => exact behaviour_states spelled
    | sequence spelled => trivial

end Grammar

theorem Script.hasStates_of_erase {script : Script} (erased : script.erase.HasStates) :
    script.HasStates := by
  cases script with
  | library content =>
    exact fun behaviour member empty =>
      erased _ (List.mem_map_of_mem member) (List.map_eq_nil_iff.mpr empty)
  | behaviour content => exact fun empty => erased (List.map_eq_nil_iff.mpr empty)
  | sequence content => trivial

theorem parse_hasStates {tokens : List Token} {script : Script} (run : parse tokens = .ok script) :
    script.HasStates := by
  unfold parse at run
  split at run
  · next outcome =>
    cases run
    obtain ⟨_, _, _, spelled⟩ := Parser.script_sound (Nat.zero_add nestingLimit) outcome
    exact Script.hasStates_of_erase (Grammar.script_hasStates spelled)
  · cases run

/-! ### Compiling and decoding -/

theorem Script.isIdentifier_name {script : Script} (spellable : script.erase.Spellable) :
    isIdentifier script.name = true := by
  cases script with
  | library content => exact spellable.2.1
  | behaviour content => exact spellable.2.1
  | sequence content => exact spellable.2.1

theorem compile_eq_ok {resolvers : CompileResolvers} {source : String} {compiled : CompiledScript} :
    compile resolvers source = .ok compiled ↔
      ∃ script table, checkSource source = .ok (script, table) ∧
        emit resolvers table script = .ok compiled.bytes ∧
        script.kind = compiled.kind ∧ script.name = compiled.name := by
  unfold compile
  simp only [bind_eq_ok, pure_eq_ok]
  constructor
  · rintro ⟨⟨script, table⟩, checked, bytes, emitted, rfl⟩
    exact ⟨script, table, checked, emitted, rfl, rfl⟩
  · rintro ⟨script, table, checked, emitted, kind, name⟩
    refine ⟨(script, table), checked, compiled.bytes, emitted, ?_⟩
    rw [kind, name]

/-- A checked script was read from a text that has its name and its states. -/
theorem checkSource_keeps {source : String} {script : Script} {table : SymbolTable}
    (checked : checkSource source = .ok (script, table)) :
    isIdentifier script.name = true ∧ script.HasStates ∧ table.check script = .ok () := by
  unfold checkSource at checked
  simp only [bind_eq_ok, ofSemantic_eq_ok] at checked
  obtain ⟨parsed, read, analysed⟩ := checked
  obtain ⟨built, passes⟩ := analyze_eq_ok.mp analysed
  obtain ⟨_, name, states⟩ := buildTable_keeps built
  obtain ⟨_, _, run⟩ := parseSource_eq_ok.mp read
  exact ⟨name ▸ Script.isIdentifier_name (parseSource_spellable read),
    states (parse_hasStates run), passes⟩

/-- A compiled script is decoded, without names from the host, to its canonical form. -/
theorem decode_compile {resolvers : CompileResolvers} {source : String} {compiled : CompiledScript}
    (done : compile resolvers source = .ok compiled) :
    ∃ script table, checkSource source = .ok (script, table) ∧
      script.kind = compiled.kind ∧ script.name = compiled.name ∧
      decode compiled.kind compiled.bytes compiled.name .numbersOnly =
        .ok (canonical resolvers table script) := by
  obtain ⟨script, table, checked, emitted, kind, name⟩ := compile_eq_ok.mp done
  obtain ⟨identifier, nonempty, passes⟩ := checkSource_keeps checked
  refine ⟨script, table, checked, kind, name, ?_⟩
  rw [← kind, ← name]
  exact decode_eq_ok_iff.mpr ⟨identifier, emit_formatted nonempty passes emitted⟩

/-- A library with consts in two scopes, an assigner, a control packet and a jump. -/
def lampLibrary : String :=
  "library L\x7b const A=2; [GlobalIndex(A)] behaviour B\x7b const D=A-9; " ++
    "starter\x7b assign Lamp(status=A, type=0); \x7d " ++
    "state R(7)\x7b if not FlagSet(0)\x7b goto E; \x7d \x7d " ++
    "[ControlPacket(gravity=A, D)] state E()\x7b\x7d \x7d \x7d"

def lampBinary : Bytes :=
  [1, 0, 0, 0, 2, 0, 0, 0, 39, 0, 0, 0, 0, 0, 1, 0, 1, 0, 4, 0, 0, 2, 1, 2, 7, 0, 1, 0, 1, 0, 6,
    0, 1, 0, 0, 0, 0, 0, 0, 1, 255, 255, 0, 4, 1, 0, 2, 249, 255, 255, 255]

theorem decode_compile_lamp :
    compile { objects := some fun _ => some 4 } lampLibrary = .ok ⟨.library, "L", lampBinary⟩ ∧
      ∃ script table, checkSource lampLibrary = .ok (script, table) ∧ script.kind = .library ∧
        script.name = "L" ∧ decode .library lampBinary "L" .numbersOnly =
          .ok (canonical { objects := some fun _ => some 4 } table script) := by
  have done : compile { objects := some fun _ => some 4 } lampLibrary =
      .ok ⟨.library, "L", lampBinary⟩ := by decide +kernel
  exact ⟨done, decode_compile done⟩

end BehaviourScript
