/-
This file says when fields can share a word: each has at least one bit, lies
inside the word, and has no bit in common with another. Values that the fields
hold are then read back from the word, and fields that share no bit with them
read as zero. A word whose fields all lie in its lower half goes through 16 bits
unharmed. The fields of every record are of this kind, and with the reserved run
they take up the record's word, bit by bit.
-/

import BehaviourScript.Proofs.Binary.Words
import BehaviourScript.Proofs.Integers

namespace BehaviourScript.Layout

namespace Field

/-- No bit belongs to both fields. -/
def Disjoint (first second : Field) : Prop :=
  ∀ bit, ¬(first.covers bit = true ∧ second.covers bit = true)

theorem Apart.disjoint {first second : Field} (apart : first.Apart second) :
    first.Disjoint second := by
  rintro bit ⟨inFirst, inSecond⟩
  rw [apart.covers_eq_false inFirst] at inSecond
  cases inSecond

/-- Fields that have bits and share none lie apart: otherwise the first bit of one of them belongs
to both. -/
theorem Disjoint.apart {first second : Field} (disjoint : first.Disjoint second)
    (firstWide : 1 ≤ first.width) (secondWide : 1 ≤ second.width) : first.Apart second := by
  have low := disjoint first.shift
  have high := disjoint second.shift
  rw [covers_iff, covers_iff] at low high
  rw [Apart]
  omega

end Field

/-- Fields that can be packed together. -/
structure Sharing (fields : List Field) : Prop where
  wide : ∀ field ∈ fields, 1 ≤ field.width
  inside : ∀ field ∈ fields, field.Inside 32
  disjoint : fields.Pairwise Field.Disjoint

namespace Sharing

variable {entries : List (Field × Nat)} (sharing : Sharing (entries.map Prod.fst))

include sharing

theorem wide_of_mem {entry : Field × Nat} (member : entry ∈ entries) : 1 ≤ entry.1.width :=
  sharing.wide _ (List.mem_map_of_mem member)

theorem apart : entries.Pairwise fun first second => first.1.Apart second.1 := by
  have disjoint := List.pairwise_map.mp sharing.disjoint
  exact disjoint.imp_of_mem fun firstIn secondIn shared =>
    shared.apart (sharing.wide_of_mem firstIn) (sharing.wide_of_mem secondIn)

/-- A field that shares no bit with the packed ones is empty. -/
theorem get_of_disjoint {other : Field} (free : ∀ entry ∈ entries, entry.1.Disjoint other) :
    other.get (pack entries) = 0 := by
  rcases Nat.eq_zero_or_pos other.width with none | some
  · have bound := other.get_lt (pack entries)
    rw [none] at bound
    exact Nat.lt_one_iff.mp bound
  · exact get_pack_of_apart fun entry member =>
      (free entry member).apart (sharing.wide_of_mem member) some

end Sharing

/-- A word of 16 bits is read back from its two bytes. -/
theorem decode_encode_pack {entries : List (Field × Nat)}
    (lower : ∀ entry ∈ entries, entry.1.Inside 16) :
    IntFormat.u16.decode (IntFormat.u16.encode (pack entries)) = pack entries := by
  have small : pack entries < IntFormat.u16.modulus := pack_lt lower
  refine IntFormat.decode_encode (IntFormat.holds_iff.mpr ⟨?_, ?_⟩)
  · exact Int.natCast_nonneg _
  · exact (IntFormat.le_max_iff rfl).mpr small

/-! ### The words of the records -/

namespace Shape

/-- The fields of a word and its reserved run, if it has one. -/
def runs (shape : Shape) : List Field :=
  if shape.reserved.width = 0 then shape.fields else shape.fields ++ [shape.reserved]

theorem mem_runs_of_mem {shape : Shape} {field : Field} (member : field ∈ shape.fields) :
    field ∈ shape.runs := by
  unfold runs
  split
  · exact member
  · exact List.mem_append_left _ member

theorem disjoint_runs (shape : Shape) : shape.runs.Pairwise Field.Disjoint := by
  unfold runs
  split
  · exact shape.apart.imp Field.Apart.disjoint
  · refine List.pairwise_append.mpr ⟨shape.apart.imp Field.Apart.disjoint,
      List.pairwise_singleton .., fun field member run only => ?_⟩
    rw [List.mem_singleton.mp only]
    exact (shape.kept field member).disjoint

theorem exists_run_covers (shape : Shape) {bit : Nat} (inWord : bit < shape.bits) :
    ∃ run ∈ shape.runs, run.covers bit = true := by
  rcases shape.full bit inWord with covered | ⟨field, member, covered⟩
  · have wide : shape.reserved.width ≠ 0 := by
      rw [Field.covers_iff] at covered
      omega
    refine ⟨shape.reserved, ?_, covered⟩
    rw [runs, if_neg wide]
    exact List.mem_append_right _ (List.mem_singleton_self _)
  · exact ⟨field, mem_runs_of_mem member, covered⟩

/-- The shapes of all records. -/
def records : List Shape :=
  [Graph.shape, Assigner.shape, State.shape, Body.shape, Condition.shape, Command.shape,
    ControlPacket.shape, Pack.shape, Sequence.shape]

theorem runs_of_mem_records : ∀ shape ∈ records, ∀ run ∈ shape.runs,
    1 ≤ run.width ∧ run.Inside shape.bits := by
  decide

theorem sharing_runs {shape : Shape} (member : shape ∈ records) : Sharing shape.runs where
  wide run inRuns := (runs_of_mem_records shape member run inRuns).1
  inside run inRuns := Nat.le_trans (runs_of_mem_records shape member run inRuns).2 shape.inWord
  disjoint := shape.disjoint_runs

theorem covers_runs_iff {shape : Shape} (member : shape ∈ records) (bit : Nat) :
    (∃ run ∈ shape.runs, run.covers bit = true) ↔ bit < shape.bits := by
  refine ⟨?_, shape.exists_run_covers⟩
  rintro ⟨run, inRuns, covered⟩
  have inside := (runs_of_mem_records shape member run inRuns).2
  rw [Field.covers_iff] at covered
  exact Nat.lt_of_lt_of_le covered.2 inside

end Shape

/-- Of fields that can share a word each is read back from it, every other field that has no bit
of theirs reads as zero, and the word goes through 16 bits if its fields lie there. The fields of
a record are such fields, and together with its reserved run they have the bits of its word and no
others. -/
theorem fields_share_words :
    (∀ entries : List (Field × Nat), Sharing (entries.map Prod.fst) →
      (∀ entry ∈ entries, entry.2 ≤ entry.1.max) →
      (∀ entry ∈ entries, entry.1.get (pack entries) = entry.2) ∧
      (∀ other : Field, (∀ entry ∈ entries, entry.1.Disjoint other) →
        other.get (pack entries) = 0) ∧
      ((∀ entry ∈ entries, entry.1.Inside 16) → pack entries < 65536 ∧
        IntFormat.u16.decode (IntFormat.u16.encode (pack entries)) = pack entries)) ∧
    ∀ shape ∈ Shape.records, Sharing shape.runs ∧
      ∀ bit, (∃ run ∈ shape.runs, run.covers bit = true) ↔ bit < shape.bits := by
  refine ⟨fun entries sharing held => ⟨fun entry member => ?_, ?_, fun lower => ⟨?_, ?_⟩⟩, ?_⟩
  · exact get_pack sharing.apart member (sharing.inside _ (List.mem_map_of_mem member))
      (held entry member)
  · exact fun other free => sharing.get_of_disjoint free
  · exact pack_lt lower
  · exact decode_encode_pack lower
  · exact fun shape member => ⟨Shape.sharing_runs member, Shape.covers_runs_iff member⟩

/-- The header of a state with as many bodies as there can be, the first of them skipped, and
another state behind it. -/
def fullState : List (Field × Nat) :=
  [(State.bodyCount, 31), (State.skipFirstBody, 1), (State.nonBlocking, 0),
    (State.usesObjectSlot, 0), (State.hasControlPacket, 0), (State.hasNext, 1)]

theorem fields_share_words_fullState :
    Sharing (fullState.map Prod.fst) ∧ pack fullState = 575 ∧
      State.bodyCount.get 575 = 31 ∧ State.hasNext.get 575 = 1 ∧ State.reserved.get 575 = 0 ∧
      IntFormat.u16.decode (IntFormat.u16.encode 575) = 575 ∧
      Sharing State.shape.runs ∧ ∃ run ∈ State.shape.runs, run.covers 15 = true := by
  obtain ⟨general, records⟩ := fields_share_words
  have apart : (fullState.map Prod.fst).Pairwise Field.Apart := by decide
  have sharing : Sharing (fullState.map Prod.fst) :=
    ⟨by decide, by decide, apart.imp Field.Apart.disjoint⟩
  have word : pack fullState = 575 := by decide
  have free : ∀ entry ∈ fullState, entry.1.Apart State.reserved := by decide
  obtain ⟨held, others, lower⟩ := general fullState sharing (by decide)
  rw [word] at held others lower
  obtain ⟨stateSharing, covers⟩ := records State.shape (by simp [Shape.records])
  exact ⟨sharing, word, held (State.bodyCount, 31) (by decide), held (State.hasNext, 1) (by decide),
    others State.reserved fun entry member => (free entry member).disjoint, (lower (by decide)).2,
    stateSharing, (covers 15).mpr (by decide)⟩

end BehaviourScript.Layout
