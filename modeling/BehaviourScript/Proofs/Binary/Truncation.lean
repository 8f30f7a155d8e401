/-
This file shows that the binary format says itself where it ends. A decoder looks
at no more bytes than it takes: cut off behind those, the data decode to the same
value, and cut off before, the first read that goes past the cut reports how many
bytes it lacks. Nothing else can be reported there, because every check that is
made before that read is made on the same values as with all the data. Bytes that
stand behind a script are not looked at either, and are reported as such.
-/

import BehaviourScript.Proofs.Binary.Scripts

namespace BehaviourScript

/-! ### Data that are cut off -/

/-- The second reader stands at the same place of data that go on with more bytes. -/
structure Reader.CutFrom (short : Reader) (missing : Bytes) (whole : Reader) : Prop where
  offset : whole.offset = short.offset
  rest : whole.rest = short.rest ++ missing

namespace Reader

/-- Where the data end. -/
def limit (reader : Reader) : Nat := reader.offset + reader.remaining

variable {short whole : Reader} {missing : Bytes}

/-- What is cut off is missing from what is left to read. -/
theorem CutFrom.remaining (cut : short.CutFrom missing whole) :
    whole.remaining = short.remaining + missing.length := by
  rw [whole.counted, short.counted, cut.rest, List.length_append]

/-- Both readers pass over bytes that are there without the missing ones. -/
theorem CutFrom.skip (cut : short.CutFrom missing whole) {count : Nat}
    (there : count ≤ short.remaining) : (short.skip count).CutFrom missing (whole.skip count) where
  offset := congrArg (· + count) cut.offset
  rest := by
    rw [short.counted] at there
    show whole.rest.drop count = short.rest.drop count ++ missing
    rw [cut.rest, List.drop_append_of_le_length there]

theorem limit_skip (reader : Reader) {count : Nat} (there : count ≤ reader.remaining) :
    (reader.skip count).limit = reader.limit := by
  show reader.offset + count + (reader.remaining - count) = reader.offset + reader.remaining
  omega

theorem Passes.offset_le {reader next : Reader} {bytes : Bytes}
    (passes : reader.Passes bytes next) : reader.offset ≤ next.offset := by
  rw [passes.offset]
  exact Nat.le_add_right _ _

end Reader

namespace Decoder

/-- The error of a read that goes past the end of the data, and not past `stop`. -/
inductive ReportsEnd (limit stop : Nat) : Error → Prop
  | intro {offset needed : Nat} :
      offset ≤ limit → 1 ≤ needed → limit + needed ≤ stop →
      ReportsEnd limit stop (.format (.unexpectedEof offset needed))

/-- An end that is reported in front of a place is reported in front of a later one. -/
theorem ReportsEnd.mono {limit stop later : Nat} {error : Error}
    (reported : ReportsEnd limit stop error) (behind : stop ≤ later) : ReportsEnd limit later error := by
  obtain ⟨start, positive, near⟩ := reported
  exact .intro start positive (Nat.le_trans near behind)

/-- What comes of data that are cut off: the value and the bytes behind it as far as they are
there, or a report that the data end. -/
inductive Follows {α : Type} (limit : Nat) (missing : Bytes) (value : α) (next : Reader) :
    Outcome (α × Reader) → Prop
  | same {stop : Reader} :
      stop.CutFrom missing next → stop.limit = limit →
      Follows limit missing value next (.ok (value, stop))
  | ended {error : Error} :
      ReportsEnd limit next.offset error → Follows limit missing value next (.error error)

/-- A decoder looks at no more bytes than it takes. -/
structure Delimited {α : Type} (decoder : Decoder α) : Prop where
  passes : ∀ {whole value next}, decoder whole = .ok (value, next) →
    ∃ bytes, whole.Passes bytes next
  follows : ∀ {whole value next short missing}, short.CutFrom missing whole →
    decoder whole = .ok (value, next) → Follows short.limit missing value next (decoder short)

namespace Delimited

variable {α β : Type}

/-- A decoder that reads nothing is cut off nowhere. -/
theorem pure (value : α) : Delimited (pure value : Decoder α) where
  passes run := by
    obtain ⟨_, rfl⟩ := pure_eq_ok.mp run
    exact ⟨[], .refl _⟩
  follows cut run := by
    obtain ⟨rfl, rfl⟩ := pure_eq_ok.mp run
    exact .same cut rfl

/-- Two decoders in turn are cut off in the first or in the second. -/
theorem bind {decoder : Decoder α} {continuation : α → Decoder β} (first : Delimited decoder)
    (second : ∀ value, Delimited (continuation value)) : Delimited (decoder >>= continuation) where
  passes run := by
    obtain ⟨value, middle, firstRun, secondRun⟩ := bind_eq_ok.mp run
    obtain ⟨front, frontPasses⟩ := first.passes firstRun
    obtain ⟨behind, behindPasses⟩ := (second value).passes secondRun
    exact ⟨front ++ behind, frontPasses.trans behindPasses⟩
  follows {whole value next short missing} cut run := by
    obtain ⟨between, middle, firstRun, secondRun⟩ := bind_eq_ok.mp run
    have front := first.follows cut firstRun
    show Follows short.limit missing value next
      (decoder short >>= fun result => continuation result.1 result.2)
    generalize decoder short = outcome at front
    cases front with
    | same middleCut limit =>
      rw [← limit]
      exact (second between).follows middleCut secondRun
    | ended reported =>
      obtain ⟨behind, passes⟩ := (second between).passes secondRun
      exact .ended (reported.mono passes.offset_le)

theorem map {decoder : Decoder α} (delimited : Delimited decoder) (change : α → β) :
    Delimited (change <$> decoder) := by
  rw [map_eq_pure_bind]
  exact delimited.bind fun value => .pure (change value)

theorem fail (error : FormatError) : Delimited (Decoder.fail error : Decoder α) where
  passes run := nomatch run
  follows _ run := nomatch run

theorem lift (outcome : Outcome α) : Delimited (Decoder.lift outcome) := by
  cases outcome with
  | ok value => exact .pure value
  | error error => exact ⟨fun run => (nomatch run), fun _ run => (nomatch run)⟩

/-- A decoder may look at the place it starts from. -/
theorem offset : Delimited Decoder.offset where
  passes run := by
    cases run
    exact ⟨[], .refl _⟩
  follows {whole value next short missing} cut run := by
    cases run
    show Follows short.limit missing whole.offset whole (.ok (short.offset, short))
    rw [cut.offset]
    exact .same cut rfl

/-- A choice does not depend on what is cut off. -/
theorem branch (condition : Prop) [Decidable condition] {first second : Decoder α}
    (yes : Delimited first) (no : Delimited second) :
    Delimited (if condition then first else second) := by
  split
  · exact yes
  · exact no

/-! ### Integers -/

/-- A read that goes past the cut lacks the bytes up to where it ends with all the data. -/
theorem int (format : IntFormat) : Delimited (Decoder.int format) where
  passes run := by
    obtain ⟨bytes, passes, _⟩ := (Reads.int format).sound run
    exact ⟨bytes, passes⟩
  follows {whole value next short missing} cut run := by
    have remaining := cut.remaining
    rcases Nat.lt_or_ge whole.remaining format.width with lacking | enough
    · rw [Decoder.int_of_short lacking] at run
      cases run
    · rw [Decoder.int_of_enough enough] at run
      cases run
      rcases Nat.lt_or_ge short.remaining format.width with ended | there
      · rw [Decoder.int_of_short ended]
        refine .ended (.intro (Nat.le_add_right _ _) (by omega) ?_)
        show short.offset + short.remaining + (format.width - short.remaining) ≤
          whole.offset + format.width
        rw [cut.offset]
        omega
      · have taken : whole.rest.take format.width = short.rest.take format.width := by
          rw [cut.rest, List.take_append_of_le_length (short.counted ▸ there)]
        rw [Decoder.int_of_enough there, taken]
        exact .same (cut.skip there) (short.limit_skip there)

theorem nat (format : IntFormat) : Delimited (Decoder.nat format) := (int format).map Int.toNat

theorem header (record : RecordKind) (format : IntFormat) (reserved : Layout.Field) :
    Delimited (Decoder.header record format reserved) :=
  offset.bind fun _ => (nat format).bind fun word =>
    (branch (reserved.get word = 0) (.pure ()) (.fail _)).bind fun _ => .pure word

/-! ### Rows and chains -/

/-- A row of a known length is cut off in one of its items. -/
theorem times {item : Decoder α} (delimited : Delimited item) (count : Nat) :
    Delimited (Decoder.times count item) := by
  induction count with
  | zero => exact .pure []
  | succ count inductionHypothesis =>
    exact delimited.bind fun first => inductionHypothesis.bind fun others => .pure (first :: others)

theorem mapM {item : α → Decoder β} (delimited : ∀ value, Delimited (item value))
    (values : List α) : Delimited (values.mapM item) := by
  induction values with
  | nil => exact .pure []
  | cons value rest inductionHypothesis =>
    rw [List.mapM_cons]
    exact (delimited value).bind fun first => inductionHypothesis.bind fun others =>
      .pure (first :: others)

section Chains

variable {link : Nat → Decoder (α × Bool)} (delimited : ∀ index, Delimited (link index))

include delimited

/-- A chain reads the bytes that it passes. -/
theorem chainFrom_passes (index : Nat) {whole next : Reader} {values : List α}
    (run : Decoder.chainFrom link index whole = .ok (values, next)) :
    ∃ bytes, whole.Passes bytes next := by
  fun_induction Decoder.chainFrom link index whole generalizing values with
  | case1 => exact nomatch run
  | case2 => exact nomatch run
  | case3 index whole value hasNext middle linkRun more others stop othersRun inductionHypothesis =>
    cases run
    obtain ⟨front, frontPasses⟩ := (delimited index).passes linkRun
    obtain ⟨behind, behindPasses⟩ := inductionHypothesis othersRun
    exact ⟨front ++ behind, frontPasses.trans behindPasses⟩
  | case4 index whole value hasNext middle linkRun last =>
    cases run
    exact (delimited index).passes linkRun

/-- A chain that is cut off reads its links as before, up to the one that is cut, and reports the
end there. The recursion is that of the chain, and each link is followed by the lemma for a single
one. -/
theorem chainFrom_follows (index : Nat) {whole short next : Reader} {missing : Bytes}
    {values : List α} (cut : short.CutFrom missing whole)
    (run : Decoder.chainFrom link index whole = .ok (values, next)) :
    Follows short.limit missing values next (Decoder.chainFrom link index short) := by
  fun_induction Decoder.chainFrom link index whole generalizing short values with
  | case1 => exact nomatch run
  | case2 => exact nomatch run
  | case3 index whole value hasNext middle linkRun more others stop othersRun inductionHypothesis =>
    cases run
    have front := (delimited index).follows cut linkRun
    rw [Decoder.chainFrom]
    generalize link index short = outcome at front
    cases front with
    | @same between middleCut limit =>
      -- both chains lack the same bytes, so the test on the bytes left comes out the same
      have remaining := cut.remaining
      have middleRemaining := middleCut.remaining
      have behind := inductionHypothesis middleCut othersRun
      simp only
      rw [if_pos ⟨more.1, by omega⟩, ← limit]
      generalize Decoder.chainFrom link (index + 1) between = rest at behind
      cases behind with
      | same stopCut limit => exact .same stopCut limit
      | ended reported => exact .ended reported
    | ended reported =>
      obtain ⟨behind, passes⟩ := chainFrom_passes delimited (index + 1) othersRun
      exact .ended (reported.mono passes.offset_le)
  | case4 index whole value hasNext middle linkRun last =>
    cases run
    have front := (delimited index).follows cut linkRun
    rw [Decoder.chainFrom]
    generalize link index short = outcome at front
    cases front with
    | same middleCut limit =>
      have remaining := cut.remaining
      have middleRemaining := middleCut.remaining
      simp only
      rw [if_neg fun more => last ⟨more.1, by omega⟩]
      exact .same middleCut limit
    | ended reported => exact .ended reported

/-- A chain is cut off in one of its links. -/
theorem chain : Delimited (Decoder.chain link) where
  passes run := chainFrom_passes delimited 0 run
  follows cut run := chainFrom_follows delimited 0 cut run

end Chains

end Delimited

end Decoder

/-! ### The records -/

namespace Decode

open Decoder (Delimited)
open Decoder.Delimited

/-- A command is cut off in its word or in its arguments. -/
theorem command_delimited : Delimited command :=
  (header _ _ _).bind fun _ => ((int .i32).times _).bind fun _ => .pure _

theorem commands_delimited : Delimited commands := .chain fun _ => command_delimited

theorem commandPack_delimited : Delimited commandPack :=
  (header _ _ _).bind fun _ => .branch _ commands_delimited (.pure _)

theorem jump_delimited : Delimited jump :=
  offset.bind fun _ => (int .i16).bind fun _ => .branch _ (.pure _) (.branch _ (.fail _) (.pure _))

theorem condition_delimited : Delimited condition :=
  (nat .u16).bind fun _ => (header _ _ _).bind fun _ => (int .i32).bind fun _ => .pure _

/-- A body is cut off in one of its parts. -/
theorem body_delimited : Delimited body := by
  rw [body_eq]
  exact (header _ _ _).bind fun _ => jump_delimited.bind fun _ =>
    (branch _ (condition_delimited.map some) (.pure _)).bind fun _ =>
      (branch _ commands_delimited (.pure _)).bind fun _ => .pure _

theorem setting_delimited (name : String) : Delimited (setting name) :=
  (nat .u8).bind fun _ => .pure _

theorem controlPacket_delimited : Delimited controlPacket :=
  (header _ _ _).bind fun _ => (mapM setting_delimited _).bind fun _ =>
    ((int .i32).times _).bind fun _ => .pure _

section Resolved

variable (resolvers : DecompileResolvers)

theorem stateTarget_delimited (word start : Nat) : Delimited (stateTarget resolvers word start) :=
  (int .i16).bind fun _ =>
    .branch _ (.branch _ (.fail _) (.pure _)) (.branch _ (.pure _) (.branch _ (.fail _)
      ((lift _).bind fun _ => .pure _)))

/-- A state is cut off in its word or in one of the parts that its flags announce. -/
theorem state_delimited (index : Nat) : Delimited (state resolvers index) := by
  rw [state_eq]
  exact offset.bind fun start => (branch _ (.fail _) (.pure _)).bind fun _ =>
    (header _ _ _).bind fun word => (stateTarget_delimited resolvers word start).bind fun _ =>
      (branch _ (controlPacket_delimited.map _) (.pure _)).bind fun _ =>
        (body_delimited.times _).bind fun _ => .pure _

theorem assigner_delimited : Delimited (assigner resolvers) :=
  (int .u16).bind fun _ => (lift _).bind fun _ => (nat .u16).bind fun _ => .pure _

theorem starter_delimited : Delimited (starter resolvers) :=
  (nat .u16).bind fun _ => ((assigner_delimited resolvers).times _).bind fun _ => .pure _

/-- The records of a graph are cut off in one of them. -/
theorem graphRecords_delimited : Delimited (graphRecords resolvers) := by
  rw [graphRecords_eq]
  exact offset.bind fun _ => (header _ _ _).bind fun _ =>
    (branch _ ((starter_delimited resolvers).map some) (.pure _)).bind fun _ =>
      (chain (state_delimited resolvers)).bind fun _ => .pure _

theorem behaviour_delimited (name : String) (attributes : List Attribute) :
    Delimited (behaviour resolvers name attributes) :=
  (graphRecords_delimited resolvers).bind fun _ => .lift _

/-- The length that an entry declares is compared once its behaviour is read. -/
theorem entry_delimited : Delimited (entry resolvers) := by
  rw [entry_eq]
  exact (nat .u32).bind fun _ => (nat .u32).bind fun _ => offset.bind fun _ =>
    ((lift _).bind fun _ => behaviour_delimited resolvers _ _).bind fun _ => offset.bind fun _ =>
      .branch _ (.pure _) (.fail _)

/-- A library is cut off in its words or in one of its behaviours. -/
theorem library_delimited (name : String) : Delimited (library resolvers name) :=
  (nat .u16).bind fun _ => (nat .u16).bind fun _ =>
    ((entry_delimited resolvers).times _).bind fun _ => .pure _

theorem pack_delimited : Delimited (pack resolvers) :=
  commandPack_delimited.bind fun _ => (int .u16).bind fun _ => (lift _).bind fun _ => .pure _

theorem sequence_delimited (name : String) : Delimited (sequence resolvers name) :=
  (nat .u32).bind fun _ => ((pack_delimited resolvers).times _).bind fun _ =>
    commandPack_delimited.bind fun _ => .pure _

/-- A script of any kind is cut off where its reader would have read on. -/
theorem script_delimited (kind : ItemKind) (name : String) :
    Delimited (script resolvers kind name) := by
  cases kind with
  | library => exact (library_delimited resolvers name).map Script.library
  | behaviour => exact (behaviour_delimited resolvers name []).map Script.behaviour
  | sequence => exact (sequence_delimited resolvers name).map Script.sequence

end Resolved

end Decode

/-! ### Whole byte strings -/

namespace Decoder

variable {α : Type} {decoder : Decoder α} {bytes : Bytes} {value : α}

/-- A whole byte string is read if nothing of it is left. -/
theorem run_eq_ok : decoder.run bytes = .ok value ↔
    ∃ next, decoder (.ofBytes bytes) = .ok (value, next) ∧ next.rest = [] := by
  unfold run
  cases decoder (.ofBytes bytes) with
  | error error => exact ⟨nofun, fun ⟨_, same, _⟩ => nomatch same⟩
  | ok result =>
    obtain ⟨given, next⟩ := result
    simp only [Except.ok.injEq, Prod.mk.injEq]
    constructor
    · intro run
      split at run
      · next empty =>
        cases run
        exact ⟨next, ⟨rfl, rfl⟩, List.isEmpty_iff.mp empty⟩
      · exact nomatch run
    · rintro ⟨_, ⟨rfl, rfl⟩, empty⟩
      exact if_pos (List.isEmpty_iff.mpr empty)

/-- A byte string that lost its end is reported to end too early. -/
theorem Delimited.run_front (delimited : Delimited decoder) {front behind : Bytes}
    (done : decoder.run (front ++ behind) = .ok value) (cut : behind ≠ []) :
    ∃ offset needed, decoder.run front = .error (.format (.unexpectedEof offset needed)) ∧
      offset ≤ front.length ∧ 1 ≤ needed ∧ needed ≤ behind.length := by
  obtain ⟨next, wholeRun, rest⟩ := run_eq_ok.mp done
  have shorter : (Reader.ofBytes front).CutFrom behind (.ofBytes (front ++ behind)) := ⟨rfl, rfl⟩
  have follows := delimited.follows shorter wholeRun
  unfold run
  generalize decoder (.ofBytes front) = outcome at follows
  cases follows with
  | same stopCut _ =>
    have nothing := stopCut.rest.symm.trans rest
    exact absurd (List.append_eq_nil_iff.mp nothing).2 cut
  | ended reported =>
    obtain ⟨used, passes⟩ := delimited.passes wholeRun
    have length : used.length = front.length + behind.length := by
      have taken : front ++ behind = used := by
        rw [← List.append_nil used, ← rest]
        exact passes.rest
      rw [← taken, List.length_append]
    have stop : next.offset = 0 + used.length := passes.offset
    have limit : (Reader.ofBytes front).limit = 0 + front.length := rfl
    obtain ⟨start, positive, near⟩ := reported
    exact ⟨_, _, rfl, by omega, positive, by omega⟩

/-- Bytes behind those that a decoder takes are reported to be too many. -/
theorem Reads.run_append {format : Format α} (reads : Reads decoder id format)
    (done : decoder.run bytes = .ok value) {more : Bytes} (extra : more ≠ []) :
    decoder.run (bytes ++ more) =
      .error (.format (.trailingBytes bytes.length more.length)) := by
  have passes : (Reader.ofBytes (bytes ++ more)).Passes bytes
      ⟨bytes.length, more, more.length, rfl⟩ := ⟨rfl, (Nat.zero_add _).symm⟩
  obtain ⟨_, taken, rfl⟩ := reads.complete (reads.run_eq_ok_iff.mp done) passes
  unfold run
  rw [taken]
  exact if_neg fun empty => extra (List.isEmpty_iff.mp empty)

end Decoder

/-- A script that decodes says itself where it ends. Every shorter piece of it is reported to end
too early, by no more than what was cut off, and whatever stands behind it is reported to be too
much. -/
theorem decode_delimits {kind : ItemKind} {bytes : Bytes} {name : String}
    {resolvers : DecompileResolvers} {script : Script}
    (decoded : decode kind bytes name resolvers = .ok script) :
    (∀ front, front <+: bytes → front ≠ bytes → ∃ offset needed,
      decode kind front name resolvers = .error (.format (.unexpectedEof offset needed)) ∧
        offset ≤ front.length ∧ 1 ≤ needed ∧ needed ≤ bytes.length - front.length) ∧
    ∀ more, more ≠ [] → decode kind (bytes ++ more) name resolvers =
      .error (.format (.trailingBytes bytes.length more.length)) := by
  unfold decode at decoded ⊢
  split at decoded
  · next valid =>
    simp only [valid, if_true]
    constructor
    · rintro front ⟨behind, rfl⟩ shorter
      have cut : behind ≠ [] := fun empty => shorter (by rw [empty, List.append_nil])
      rw [List.length_append, Nat.add_sub_cancel_left]
      exact (Decode.script_delimited resolvers kind name).run_front decoded cut
    · intro more extra
      exact (Decode.script_reads resolvers kind name).run_append decoded extra
  · exact nomatch decoded

/-- A library with a starter and two states, the first of which waits and goes to the second. -/
def gateBinary : Bytes :=
  [1, 0, 0, 0, 2, 0, 0, 0, 30, 0, 0, 0, 1, 3, 1, 0, 1, 0, 4, 0, 0, 2, 1, 2, 255, 255, 2, 0, 1, 0,
    0, 0, 1, 0, 60, 0, 0, 0, 0, 0, 255, 255]

def gateLibrary : Script :=
  .library ⟨[], "L", [], [{
    attributes := [⟨.globalIndex (.literal 2), .dummy⟩, ⟨.priority (.literal 3), .dummy⟩,
      ⟨.startFrom "State_1", .dummy⟩]
    name := "Behaviour_2"
    consts := []
    starter := some ⟨[⟨.symbol "Gate", [⟨"status", .literal 2, .dummy⟩], .dummy⟩], .dummy⟩
    states := [⟨[], "State_0", none, [⟨none, [⟨0, [.literal 60], .dummy⟩], some "State_1", .dummy⟩],
      .dummy⟩, ⟨[], "State_1", none, [], .dummy⟩]
    span := .dummy }], .dummy⟩

theorem decode_delimits_gate :
    decode .library gateBinary "L" { objects := some fun _ => some "Gate" } = .ok gateLibrary ∧
      (∀ front, front <+: gateBinary → front ≠ gateBinary → ∃ offset needed,
        decode .library front "L" { objects := some fun _ => some "Gate" } =
            .error (.format (.unexpectedEof offset needed)) ∧
          offset ≤ front.length ∧ 1 ≤ needed ∧ needed ≤ gateBinary.length - front.length) ∧
      ∀ more, more ≠ [] →
        decode .library (gateBinary ++ more) "L" { objects := some fun _ => some "Gate" } =
          .error (.format (.trailingBytes gateBinary.length more.length)) := by
  have decoded : decode .library gateBinary "L" { objects := some fun _ => some "Gate" } =
      .ok gateLibrary := by decide +kernel
  exact ⟨decoded, decode_delimits decoded⟩

end BehaviourScript
