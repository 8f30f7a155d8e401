/-
This file proves that layout, comments and the spelling of numbers have no
influence on what becomes of a source. The parser reads a tree from the kinds of
the tokens and takes nothing but places from the rest; and neither the printer
nor the compiler looks at places.
-/

import BehaviourScript.Proofs.Formatting

namespace BehaviourScript

open Outcome Token

/-- Tokens of the same kinds are read as trees that differ in places only, or neither are read. -/
theorem parse_respelled {tokens others : List Token} {kinds : List Kind}
    (shape : tokens.map Token.kind = kinds ++ [.eof])
    (again : others.map Token.kind = kinds ++ [.eof]) (proper : .eof ∉ kinds) :
    Alike (fun script other => script.erase = other.erase) (parse tokens) (parse others) := by
  have carry {tokens others : List Token} (shape : tokens.map Token.kind = kinds ++ [.eof])
      (again : others.map Token.kind = kinds ++ [.eof]) (script : Script)
      (read : parse tokens = .ok script) :
      ∃ other, parse others = .ok other ∧ script.erase = other.erase := by
    have spelled := (parse_eq_ok_iff shape proper script.erase).mp ⟨script, read, rfl⟩
    obtain ⟨other, run, same⟩ := (parse_eq_ok_iff again proper script.erase).mpr spelled
    exact ⟨other, run, same.symm⟩
  refine .of_exists (carry shape again) fun other run => ?_
  obtain ⟨script, read, _⟩ := carry again shape other run
  exact ⟨script, read⟩

theorem print_eq_of_erase {script other : Script} (same : script.erase = other.erase)
    (options : PrintOptions) : script.print options = other.print options := by
  rw [← script.print_erase, same, other.print_erase]

/-- Sources whose tokens have the same kinds are read alike, as trees that differ in places only;
they are formatted to the same text and compiled to the same bytes, or neither is. -/
theorem compileSource_respelled {source other : String} {tokens others : List Token}
    (split : tokenize source = .ok tokens) (again : tokenize other = .ok others)
    (kinds : tokens.map Token.kind = others.map Token.kind) :
    Alike (fun script image => script.erase = image.erase) (parse tokens) (parse others) ∧
      (∀ options, Alike Eq (formatSource source options) (formatSource other options)) ∧
      ∀ resolvers, Alike Eq (compileSource resolvers source) (compileSource resolvers other) := by
  obtain ⟨row, shape, proper⟩ := listFrom_kinds split
  have parsed := parse_respelled shape (kinds.symm.trans shape) (Proper.eof_notMem proper)
  have read : Alike (fun script image => script.erase = image.erase) (parseSource source)
      (parseSource other) := by
    unfold parseSource
    rw [split, again]
    exact parsed.mapError _ _
  refine ⟨parsed, fun options => ?_, fun resolvers => ?_⟩
  · exact read.bind fun _ _ same => .ofEq (congrArg pure (print_eq_of_erase same options))
  · rw [compileSource_eq, compileSource_eq]
    exact read.bind fun _ _ same => assemble_alike resolvers same

def plainWait : String := "sequence S \x7b\n\tWait(16);\n\x7d\n"

def denseWait : String := "/* sixteen */sequence S\x7bWait ( 0x0010 ) ;\x7d// frames"

def waitKinds : List Kind :=
  [.keyword .sequence, .identifier "S", .punct .leftBrace, .identifier "Wait", .punct .leftParen,
    .number 16, .punct .rightParen, .punct .semicolon, .punct .rightBrace, .eof]

theorem compileSource_respelled_wait :
    ∃ tokens others, tokenize plainWait = .ok tokens ∧ tokenize denseWait = .ok others ∧
      tokens.map Token.kind = others.map Token.kind ∧
      compileSource .numbersOnly plainWait = .ok [0, 0, 0, 0, 1, 0, 0, 0, 1, 0, 16, 0, 0, 0] ∧
      Alike (fun script image => script.erase = image.erase) (parse tokens) (parse others) ∧
      (∀ options, Alike Eq (formatSource plainWait options) (formatSource denseWait options)) ∧
      ∀ resolvers, Alike Eq (compileSource resolvers plainWait)
        (compileSource resolvers denseWait) := by
  have first : (tokenize plainWait >>= fun tokens => pure (tokens.map Token.kind)) =
      .ok waitKinds := by decide +kernel
  have second : (tokenize denseWait >>= fun tokens => pure (tokens.map Token.kind)) =
      .ok waitKinds := by decide +kernel
  simp only [bind_eq_ok, pure_eq_ok] at first second
  obtain ⟨tokens, split, shape⟩ := first
  obtain ⟨others, again, same⟩ := second
  have kinds := shape.trans same.symm
  exact ⟨tokens, others, split, again, kinds, by decide +kernel,
    compileSource_respelled split again kinds⟩

end BehaviourScript
