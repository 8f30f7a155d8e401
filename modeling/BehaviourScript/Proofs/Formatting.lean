/-
This file relates printing and reading. A printed script reads back as the same
script as long as no printed expression nests deeper than the parser goes. The
printer leaves out parentheses that are not needed, which can only lengthen a
sum; a text that was read may print to one that nests too deep, and exactly
those texts are not stable under formatting.
-/

import BehaviourScript.Proofs.Parsing.Script
import BehaviourScript.Proofs.Printed.Faithful
import BehaviourScript.Proofs.Printed.Places
import BehaviourScript.Proofs.Printed.Text
import BehaviourScript.Proofs.Unplaced

namespace BehaviourScript

open Outcome Token

namespace Script

/-- No printed expression nests deeper than the parser goes. -/
def Shallow (script : Script) : Prop := ∀ expr ∈ script.exprs, expr.nesting ≤ nestingLimit

instance : DecidablePred Shallow := fun script =>
  inferInstanceAs (Decidable (∀ expr ∈ script.exprs, expr.nesting ≤ nestingLimit))

theorem shallow_erase (script : Script) : script.erase.Shallow ↔ script.Shallow :=
  script.nesting_erase nestingLimit

/-! ### Printed text -/

/-- A print is split into the kinds of the script, whatever the options. -/
theorem tokenize_print {script : Script} (spellable : script.Spellable) (options : PrintOptions) :
    ∃ tokens, tokenize (script.print options) = .ok tokens ∧
      tokens.map Token.kind = script.kinds ++ [.eof] ∧ Proper script.kinds := by
  obtain ⟨tokens, split, shape⟩ := (script.closedText spellable options).tokenize
  obtain ⟨kinds, kindsShape, proper⟩ := listFrom_kinds split
  cases List.append_cancel_right (shape.symm.trans kindsShape)
  exact ⟨tokens, split, shape, proper⟩

end Script

theorem Proper.eof_notMem {row : List Kind} (proper : Proper row) : .eof ∉ row :=
  fun member => proper .eof member

/-- A printed script reads back as the script, up to places and the spelling of negative
numbers. -/
theorem parse_print (script : Script) (options : PrintOptions) (spellable : script.Spellable)
    (shallow : script.Shallow) :
    ∃ tokens result, tokenize (script.print options) = .ok tokens ∧
      parse tokens = .ok result ∧ result.erase = script.reread := by
  obtain ⟨tokens, split, shape, proper⟩ := Script.tokenize_print spellable options
  have spelled := Script.spelled spellable shallow
  obtain ⟨result, run, same⟩ := (parse_eq_ok_iff shape proper.eof_notMem _).mpr spelled
  exact ⟨tokens, result, split, run, same⟩

/-- A behaviour with negative numbers, a sum in a difference, and a control packet that has
settings as well as data. -/
def sentry : Script :=
  .behaviour {
    attributes := [⟨.priority (.literal (-3)), .dummy⟩, ⟨.startFrom "Idle", .dummy⟩]
    name := "Sentry"
    consts := [⟨"Far", .binary .sub (.literal 9) (.binary .add (.const "Near" .dummy)
      (.literal (-1)) .dummy) .dummy, .dummy⟩]
    starter := some ⟨[⟨.symbol "Lamp", [⟨"status", .neg (.neg (.literal 2) .dummy) .dummy, .dummy⟩],
      .dummy⟩], .dummy⟩
    states := [⟨[⟨.controlPacket ⟨[⟨"gravity", .const "Far" .dummy, .dummy⟩], [.literal (-7)]⟩, .dummy⟩,
      ⟨.nonBlocking, .dummy⟩], "Idle", some (.literal (-4)), [⟨some ⟨7, true, some (.literal 1), .dummy⟩,
        [⟨700, [], .dummy⟩], some "Idle", .dummy⟩], .dummy⟩]
    span := .dummy }

theorem parse_print_sentry :
    sentry.Spellable ∧ sentry.Shallow ∧
      ∃ tokens result, tokenize (sentry.print ⟨false, 3⟩) = .ok tokens ∧
        parse tokens = .ok result ∧ result.erase = sentry.reread :=
  ⟨by decide, by decide, parse_print sentry ⟨false, 3⟩ (by decide) (by decide)⟩

/-! ### Formatted text -/

theorem parseSource_eq_ok {source : String} {script : Script} :
    parseSource source = .ok script ↔
      ∃ tokens, tokenize source = .ok tokens ∧ parse tokens = .ok script := by
  unfold parseSource
  simp only [bind_eq_ok, ofLex_eq_ok, ofParse_eq_ok]

/-- The kinds of a source spell the script that is read from it. -/
theorem parseSource_spelled {source : String} {script : Script}
    (read : parseSource source = .ok script) :
    ∃ kinds, Proper kinds ∧ Grammar.script nestingLimit kinds script.erase := by
  obtain ⟨tokens, split, run⟩ := parseSource_eq_ok.mp read
  obtain ⟨kinds, shape, proper⟩ := listFrom_kinds split
  exact ⟨kinds, proper, (parse_eq_ok_iff shape (Proper.eof_notMem proper) _).mp ⟨script, run, rfl⟩⟩

/-- What was read from a source can be spelled. -/
theorem parseSource_spellable {source : String} {script : Script}
    (read : parseSource source = .ok script) : script.erase.Spellable := by
  obtain ⟨kinds, proper, spelled⟩ := parseSource_spelled read
  exact (script_keeps _ _ spelled proper).spellable

/-- A script that was read has no negative numbers, so its text reads as itself. -/
theorem parseSource_reread {source : String} {script : Script}
    (read : parseSource source = .ok script) : script.erase.reread = script.erase := by
  obtain ⟨kinds, proper, spelled⟩ := parseSource_spelled read
  have natural := (script_keeps _ _ spelled proper).natural
  calc script.erase.reread
      = script.erase.erase :=
        Script.mapExpr_congr fun expr member => (natural expr member).reread_eq
    _ = script.erase := script.erase_erase

theorem formatSource_eq_ok {source text : String} {options : PrintOptions} :
    formatSource source options = .ok text ↔
      ∃ script, parseSource source = .ok script ∧ script.print options = text := by
  unfold formatSource
  simp only [bind_eq_ok, pure_eq_ok]

/-- A formatted text keeps its source: it reads as the same tree, formatting leaves it alone, and
it compiles to what the source compiles to. -/
structure Settled (source text : String) (options : PrintOptions) : Prop where
  tree : ∃ script again, parseSource source = .ok script ∧ parseSource text = .ok again ∧
    again.erase = script.erase
  fixed : formatSource text options = .ok text
  binary : ∀ resolvers bytes, compileSource resolvers source = .ok bytes →
    compileSource resolvers text = .ok bytes

section Stability

variable {source : String} {script : Script} {options : PrintOptions}

/-- If the printed script reads as the script, then it is shallow: the printed text is the
shortest there is, so no levels are gained by reading it. -/
theorem Settled.shallow (read : parseSource source = .ok script)
    (settled : Settled source (script.print options) options) : script.Shallow := by
  obtain ⟨first, again, firstRead, againRead, same⟩ := settled.tree
  cases read.symm.trans firstRead
  obtain ⟨tokens, split, run⟩ := parseSource_eq_ok.mp againRead
  rw [← script.print_erase] at split
  obtain ⟨printed, printedSplit, shape, proper⟩ :=
    Script.tokenize_print (parseSource_spellable read) options
  cases split.symm.trans printedSplit
  have spelled := (parse_eq_ok_iff shape proper.eof_notMem _).mp ⟨again, run, same⟩
  have kept := script_keeps _ _ spelled proper
  exact script.shallow_erase.mp (kept.fits (Script.polite _) rfl)

/-- The print of a shallow script is read back as the script and printed as itself. -/
theorem settled_of_shallow (read : parseSource source = .ok script) (shallow : script.Shallow) :
    Settled source (script.print options) options := by
  obtain ⟨tokens, split, shape, proper⟩ :=
    Script.tokenize_print (parseSource_spellable read) options
  have spelled := Script.spelled (parseSource_spellable read) (script.shallow_erase.mpr shallow)
  rw [parseSource_reread read] at spelled
  obtain ⟨again, run, same⟩ := (parse_eq_ok_iff shape proper.eof_notMem _).mpr spelled
  rw [script.print_erase] at split
  have againRead : parseSource (script.print options) = .ok again :=
    parseSource_eq_ok.mpr ⟨tokens, split, run⟩
  refine ⟨⟨script, again, read, againRead, same⟩, ?_, ?_⟩
  · refine formatSource_eq_ok.mpr ⟨again, againRead, ?_⟩
    rw [← again.print_erase, same, script.print_erase]
  · intro resolvers bytes compiled
    rw [compileSource_eq, bind_eq_ok] at compiled ⊢
    obtain ⟨other, otherRead, assembled⟩ := compiled
    cases read.symm.trans otherRead
    exact ⟨again, againRead, (assemble_alike resolvers same).symm.eq_ok assembled⟩

end Stability

/-! ### Sums that lose their parentheses

The first operands of a sum may stand in parentheses. The parser counts them and the operands
behind them apart, but the printed sum is one row. -/

/-- A sum of ones with a number of operators. -/
def ones : Nat → Expr
  | 0 => .number 1 .dummy
  | count + 1 => .binary .add (ones count) (.number 1 .dummy) .dummy

/-- An expression with a number of ones added to it. -/
def addOnes (left : Expr) : Nat → Expr
  | 0 => left
  | count + 1 => .binary .add (addOnes left count) (.number 1 .dummy) .dummy

/-- A sequence that declares a sum of ones. -/
def onesScript (count : Nat) : Script :=
  .sequence ⟨[], "S", [⟨"A", ones count, .dummy⟩], [], [], .dummy⟩

/-- The further operands of a sum of ones. -/
def plusOnes : Nat → String
  | 0 => ""
  | count + 1 => plusOnes count ++ " + 1"

def plusOnesKinds : Nat → List Kind
  | 0 => []
  | count + 1 => plusOnesKinds count ++ [.punct .plus, .number 1]

/-- The source of a sum of ones whose first operands stand in parentheses. -/
def groupedOnes (inner outer : Nat) : String :=
  "sequence S \x7b const A = (1" ++ plusOnes inner ++ ")" ++ plusOnes outer ++ "; \x7d"

def groupedOnesKinds (inner outer : Nat) : List Kind :=
  [.keyword .sequence, .identifier "S", .punct .leftBrace, .keyword .const, .identifier "A",
    .punct .equals, .punct .leftParen, .number 1] ++ plusOnesKinds inner ++ [.punct .rightParen] ++
    plusOnesKinds outer ++ [.punct .semicolon, .punct .rightBrace]

theorem spine_ones (count : Nat) : (ones count).spine = count := by
  induction count with
  | zero => rfl
  | succ count inductionHypothesis => exact congrArg (· + 1) inductionHypothesis

theorem nesting_ones (count : Nat) : (ones count).nesting = count := by
  induction count with
  | zero => rfl
  | succ count inductionHypothesis =>
    show max (ones count).nesting ((ones count).spine + 1 + 0) = count + 1
    rw [inductionHypothesis, spine_ones]
    omega

theorem one_openText : OpenText "1" [.number 1] := by
  have one := OpenText.number (show 1 < numberBound by unfold numberBound; omega)
  rwa [show (1 : Nat).repr = "1" by decide] at one

theorem plusOnes_openText {text : String} {kinds : List Kind} (front : OpenText text kinds)
    (count : Nat) : OpenText (text ++ plusOnes count) (kinds ++ plusOnesKinds count) := by
  induction count with
  | zero => rwa [plusOnes, plusOnesKinds, String.append_empty, List.append_nil]
  | succ count inductionHypothesis =>
    have plus : ClosedText " + " [.punct .plus] := .marks (by decide)
    rw [plusOnes, plusOnesKinds, ← String.append_assoc, ← List.append_assoc]
    exact inductionHypothesis.appendOpen (plus.appendOpen one_openText) (by decide)

theorem groupedOnes_closedText (inner outer : Nat) :
    ClosedText (groupedOnes inner outer) (groupedOnesKinds inner outer) := by
  have word : ClosedText "sequence " [.keyword .sequence] := .keywordBlank .sequence
  have const : ClosedText "const " [.keyword .const] := .keywordBlank .const
  have brace : ClosedText " \x7b " [.punct .leftBrace] := .marks (by decide)
  have opening : ClosedText " = (" [.punct .equals, .punct .leftParen] := .marks (by decide)
  have close : ClosedText ")" [.punct .rightParen] := .marks (by decide)
  have stop : ClosedText "; \x7d" [.punct .semicolon, .punct .rightBrace] := .marks (by decide)
  have unit : OpenText "S" [.identifier "S"] := .identifier (by decide)
  have name : OpenText "A" [.identifier "A"] := .identifier (by decide)
  have header := (word.appendOpen unit).append brace (by decide)
  have front := header.append ((const.appendOpen name).append opening (by decide))
  have grouped := (plusOnes_openText (front.appendOpen one_openText) inner).append close (by decide)
  exact (plusOnes_openText grouped.toOpen outer).append stop (by decide)

theorem spine_addOnes (left : Expr) (count : Nat) :
    (addOnes left count).spine = left.spine + count := by
  induction count with
  | zero => rfl
  | succ count inductionHypothesis => exact congrArg (· + 1) inductionHypothesis

/-- Sums of ones are one sum without their parentheses. -/
theorem addOnes_ones (inner outer : Nat) : addOnes (ones inner) outer = ones (inner + outer) := by
  induction outer with
  | zero => rfl
  | succ outer inductionHypothesis => rw [addOnes, inductionHypothesis, ← Nat.add_assoc, ones]

theorem chain_plusOnes (left : Expr) {count room : Nat} (fits : count ≤ room) :
    Grammar.chain room left (plusOnesKinds count) (addOnes left count) := by
  induction count with
  | zero => exact .done
  | succ count inductionHypothesis =>
    have one : Grammar.operand (room - count - 1) [.number 1] (.number 1 .dummy) := .number
    have levels : left.spine + room =
        (addOnes left count).spine + (room - count - 1) + 1 := by
      rw [spine_addOnes]
      omega
    have longer : Grammar.chain room left
        (plusOnesKinds count ++ .punct BinOp.add.mark :: [.number 1])
        (.binary .add (addOnes left count) (.number 1 .dummy) .dummy) :=
      Expr.chain_snoc one (inductionHypothesis (by omega)) levels
    exact longer

/-- A grouped sum of ones spells the plain one. -/
theorem groupedOnes_spelled {inner outer : Nat} (innerFits : inner < nestingLimit)
    (outerFits : outer ≤ nestingLimit) :
    Grammar.script nestingLimit (groupedOnesKinds inner outer) (onesScript (inner + outer)) := by
  have innerChain := chain_plusOnes (ones 0) (show inner ≤ 255 from Nat.le_of_lt_succ innerFits)
  have outerChain := chain_plusOnes (ones inner) outerFits
  rw [addOnes_ones, Nat.zero_add] at innerChain
  rw [addOnes_ones] at outerChain
  have grouped : Grammar.operand nestingLimit
      (.punct .leftParen :: ([.number 1] ++ plusOnesKinds inner ++ [.punct .rightParen]))
      (ones inner) := .parens (.intro .number innerChain)
  have sum : Grammar.expr nestingLimit _ (ones (inner + outer)) :=
    .intro grouped outerChain
  have script : Grammar.script nestingLimit _ (onesScript (inner + outer)) :=
    .intro .nil (.sequence (.intro (.cons (.intro sum) .nil) .nil .nil))
  simpa only [groupedOnesKinds, List.cons_append, List.nil_append, List.append_assoc,
    List.append_nil] using script

/-- A grouped sum of ones is read as the plain one. -/
theorem parseSource_groupedOnes {inner outer : Nat} (innerFits : inner < nestingLimit)
    (outerFits : outer ≤ nestingLimit) :
    ∃ script, parseSource (groupedOnes inner outer) = .ok script ∧
      script.erase = onesScript (inner + outer) := by
  obtain ⟨tokens, split, shape⟩ := (groupedOnes_closedText inner outer).tokenize
  obtain ⟨kinds, kindsShape, proper⟩ := listFrom_kinds split
  cases List.append_cancel_right (shape.symm.trans kindsShape)
  obtain ⟨script, run, same⟩ := (parse_eq_ok_iff shape (Proper.eof_notMem proper) _).mpr
    (groupedOnes_spelled innerFits outerFits)
  exact ⟨script, parseSource_eq_ok.mpr ⟨tokens, split, run⟩, same⟩

/-- A grouped sum that is too long without its parentheses can be formatted, but what comes out
is not kept. -/
theorem not_settled_groupedOnes {inner outer : Nat} (innerFits : inner < nestingLimit)
    (outerFits : outer ≤ nestingLimit) (tooDeep : nestingLimit < inner + outer)
    (options : PrintOptions) :
    ∃ text, formatSource (groupedOnes inner outer) options = .ok text ∧
      ¬Settled (groupedOnes inner outer) text options := by
  obtain ⟨script, read, same⟩ := parseSource_groupedOnes innerFits outerFits
  refine ⟨script.print options, formatSource_eq_ok.mpr ⟨script, read, rfl⟩, fun settled => ?_⟩
  have shallow := script.shallow_erase.mpr (settled.shallow read)
  rw [same] at shallow
  have fits := shallow (ones (inner + outer)) List.mem_cons_self
  rw [nesting_ones] at fits
  omega

/-- Formatting keeps a source exactly if the expressions it prints do not nest deeper than the
parser goes. -/
theorem formatSource_settled_iff {source text : String} {options : PrintOptions}
    (formatted : formatSource source options = .ok text) :
    ∃ script, parseSource source = .ok script ∧
      (Settled source text options ↔ script.Shallow) := by
  obtain ⟨script, read, rfl⟩ := formatSource_eq_ok.mp formatted
  exact ⟨script, read, fun settled => settled.shallow read, settled_of_shallow read⟩

theorem formatSource_settled_iff_wait :
    formatSource "sequence S \x7b Wait(-(1 + 2) - (3)); \x7d" {} =
        .ok "sequence S \x7b\n\tWait(-(1 + 2) - 3);\n\x7d\n" ∧
      ∃ script, parseSource "sequence S \x7b Wait(-(1 + 2) - (3)); \x7d" = .ok script ∧
        (Settled "sequence S \x7b Wait(-(1 + 2) - (3)); \x7d"
          "sequence S \x7b\n\tWait(-(1 + 2) - 3);\n\x7d\n" {} ↔ script.Shallow) := by
  have formatted : formatSource "sequence S \x7b Wait(-(1 + 2) - (3)); \x7d" {} =
      .ok "sequence S \x7b\n\tWait(-(1 + 2) - 3);\n\x7d\n" := by decide +kernel
  exact ⟨formatted, formatSource_settled_iff formatted⟩

/-- A sum of 401 ones, the first 201 of them in parentheses, is read but not read again. -/
theorem not_settled_grouped_sum :
    ∃ text, formatSource (groupedOnes 200 200) {} = .ok text ∧
      ¬Settled (groupedOnes 200 200) text {} :=
  not_settled_groupedOnes (by decide) (by decide) (by decide) {}

end BehaviourScript
