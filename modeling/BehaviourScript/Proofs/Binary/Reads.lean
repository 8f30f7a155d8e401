/-
This file says what it means that a decoder reads a format: it succeeds exactly
on the bytes of the format, takes them and no more, and gives the value that the
format assigns to them. Formats relate bytes to values, or to what a view shows
of values, where a value also holds places in the binary. Decoders that are put
together read the formats that are put together alike.
-/

import BehaviourScript.Binary.Decoder
import BehaviourScript.Proofs.Integers

namespace BehaviourScript

/-! ### Passing over bytes -/

/-- The second reader stands behind the bytes that the first one has in front. -/
structure Reader.Passes (reader : Reader) (bytes : Bytes) (next : Reader) : Prop where
  rest : reader.rest = bytes ++ next.rest
  offset : next.offset = reader.offset + bytes.length

namespace Reader

theorem eq_of_rest {first second : Reader} (offset : first.offset = second.offset)
    (rest : first.rest = second.rest) : first = second := by
  obtain ⟨_, _, _, rfl⟩ := first
  obtain ⟨_, _, _, rfl⟩ := second
  cases offset
  cases rest
  rfl

namespace Passes

variable {reader middle next : Reader} {bytes front behind : Bytes}

theorem refl (reader : Reader) : reader.Passes [] reader := ⟨rfl, rfl⟩

theorem eq_of_nil (passes : reader.Passes [] next) : next = reader :=
  eq_of_rest passes.offset passes.rest.symm

/-- Passing bytes and then more passes them all. -/
theorem trans (first : reader.Passes front middle) (second : middle.Passes behind next) :
    reader.Passes (front ++ behind) next where
  rest := by rw [first.rest, second.rest, List.append_assoc]
  offset := by rw [second.offset, first.offset, List.length_append, Nat.add_assoc]

/-- Bytes that are passed can be passed in two parts. -/
theorem split (passes : reader.Passes (front ++ behind) next) :
    ∃ middle, reader.Passes front middle ∧ middle.Passes behind next := by
  have rest : (reader.skip front.length).rest = behind ++ next.rest := by
    show reader.rest.drop front.length = _
    rw [passes.rest, List.append_assoc, List.drop_left]
  refine ⟨reader.skip front.length, ⟨?_, rfl⟩, rest, ?_⟩
  · rw [rest, passes.rest, List.append_assoc]
  · rw [passes.offset, List.length_append, ← Nat.add_assoc]
    rfl

theorem remaining (passes : reader.Passes bytes next) :
    reader.remaining = bytes.length + next.remaining := by
  rw [reader.counted, next.counted, passes.rest, List.length_append]

end Passes

/-! ### Taking bytes -/

variable {reader next : Reader} {count : Nat} {format : IntFormat}

/-- Enough bytes are taken from the front. -/
theorem take_of_enough (enough : count ≤ reader.remaining) :
    take count reader = .ok (reader.rest.take count) (reader.skip count) :=
  if_neg (Nat.not_lt.mpr enough)

/-- A reader that has too little to give is the same afterwards. -/
theorem take_of_short (short : reader.remaining < count) :
    take count reader =
      .error (.unexpectedEof reader.offset (count - reader.remaining)) reader :=
  if_pos short

variable {α β : Type} {taken : Read α} {change : α → β}

theorem map_of_ok {value : α} (run : taken reader = .ok value next) :
    (change <$> taken) reader = .ok (change value) next := by
  show EStateM.map change taken reader = _
  rw [EStateM.map, run]

theorem map_of_error {error : FormatError} (run : taken reader = .error error next) :
    (change <$> taken) reader = .error error next := by
  show EStateM.map change taken reader = _
  rw [EStateM.map, run]

end Reader

namespace Decoder

variable {reader : Reader} {format : IntFormat}

theorem int_of_enough (enough : format.width ≤ reader.remaining) :
    int format reader =
      .ok (format.decode (reader.rest.take format.width), reader.skip format.width) := by
  rw [int, Reader.read, Reader.map_of_ok (Reader.take_of_enough enough)]

theorem int_of_short (short : reader.remaining < format.width) :
    int format reader =
      .error (.format (.unexpectedEof reader.offset (format.width - reader.remaining))) := by
  rw [int, Reader.read, Reader.map_of_error (Reader.take_of_short short)]

end Decoder

/-! ### Decoders and formats -/

/-- Bytes and the values they stand for. -/
abbrev Format (α : Type) := Bytes → α → Prop

/-- One format behind the other, which may depend on the first value. -/
def Format.andThen {α β : Type} (first : Format α) (second : α → Format β) : Format β :=
  fun bytes value => ∃ front behind between, bytes = front ++ behind ∧ first front between ∧
    second between behind value

/-- An integer. -/
def Format.int (format : IntFormat) : Format Int :=
  fun bytes value => format.holds value = true ∧ bytes = format.encode value

/-- A part that may be missing. -/
inductive Format.Optional {α : Type} (part : Format α) : Format (Option α)
  | absent : Optional part [] none
  | present {bytes : Bytes} {value : α} : part bytes value → Optional part bytes (some value)

/-- A row of items. -/
inductive Format.Rows {α : Type} (item : Format α) : Format (List α)
  | nil : Rows item [] []
  | cons {front behind : Bytes} {value : α} {values : List α} :
      item front value → Rows item behind values → Rows item (front ++ behind) (value :: values)

/-- A row of items that know their place and say whether another follows. -/
inductive Format.Links {α : Type} (link : Nat → Format (α × Bool)) : Nat → Format (List α)
  | nil {index : Nat} : Links link index [] []
  | cons {index : Nat} {front behind : Bytes} {value : α} {values : List α} :
      link index front (value, !values.isEmpty) → Links link (index + 1) behind values →
      Links link index (front ++ behind) (value :: values)

/-- A row of integers is their bytes. -/
theorem Format.rows_int_iff {format : IntFormat} {bytes : Bytes} {values : List Int} :
    (Format.int format).Rows bytes values ↔
      (∀ value ∈ values, format.holds value = true) ∧ bytes = values.flatMap format.encode := by
  constructor
  · intro rows
    induction rows with
    | nil => exact ⟨nofun, rfl⟩
    | cons formatted rows inductionHypothesis =>
      obtain ⟨fits, rfl⟩ := formatted
      obtain ⟨others, rfl⟩ := inductionHypothesis
      exact ⟨List.forall_mem_cons.mpr ⟨fits, others⟩, rfl⟩
  · rintro ⟨fits, rfl⟩
    induction values with
    | nil => exact .nil
    | cons value values inductionHypothesis =>
      rw [List.forall_mem_cons] at fits
      exact .cons ⟨fits.1, rfl⟩ (inductionHypothesis fits.2)

/-- Items that are shown without a part of what their format tells. -/
theorem Format.rows_snd_iff {α β : Type} {format : Format (α × β)} {bytes : Bytes}
    {values : List β} :
    Format.Rows (fun bytes value => ∃ part, format bytes (part, value)) bytes values ↔
      ∃ entries, format.Rows bytes entries ∧ entries.map Prod.snd = values := by
  constructor
  · intro rows
    induction rows with
    | nil => exact ⟨[], .nil, rfl⟩
    | cons formatted rows inductionHypothesis =>
      obtain ⟨part, formatted⟩ := formatted
      obtain ⟨entries, others, rfl⟩ := inductionHypothesis
      exact ⟨_, .cons formatted others, rfl⟩
  · rintro ⟨entries, rows, rfl⟩
    induction rows with
    | nil => exact .nil
    | cons formatted rows inductionHypothesis => exact .cons ⟨_, formatted⟩ inductionHypothesis

namespace Decoder

section Binding

variable {α β : Type} {reader next : Reader}

/-- Two decoders in turn succeed if the first does and the second does where the first has
stopped. -/
theorem bind_eq_ok {decoder : Decoder α} {continuation : α → Decoder β} {value : β} :
    (decoder >>= continuation) reader = .ok (value, next) ↔
      ∃ first middle, decoder reader = .ok (first, middle) ∧
        continuation first middle = .ok (value, next) := by
  show (decoder reader >>= fun result => continuation result.1 result.2) = _ ↔ _
  cases decoder reader with
  | error error => exact ⟨nofun, fun ⟨_, _, same, _⟩ => nomatch same⟩
  | ok result =>
    exact ⟨fun run => ⟨result.1, result.2, rfl, run⟩,
      fun ⟨_, _, same, run⟩ => by cases same; exact run⟩

theorem ite_bind (condition : Prop) [Decidable condition] (first second : Decoder α)
    (continuation : α → Decoder β) :
    (if condition then first else second) >>= continuation =
      if condition then first >>= continuation else second >>= continuation := by
  split <;> rfl

theorem pure_eq_ok {given value : α} :
    (pure given : Decoder α) reader = .ok (value, next) ↔ given = value ∧ reader = next := by
  show Except.ok (given, reader) = _ ↔ _
  rw [Except.ok.injEq, Prod.mk.injEq]

end Binding

/-- A decoder takes exactly the bytes of a format. -/
structure Reads {α β : Type} (decoder : Decoder α) (view : α → β) (format : Format β) : Prop where
  sound : ∀ {reader value next}, decoder reader = .ok (value, next) →
    ∃ bytes, reader.Passes bytes next ∧ format bytes (view value)
  complete : ∀ {reader bytes next image}, format bytes image → reader.Passes bytes next →
    ∃ value, decoder reader = .ok (value, next) ∧ view value = image

namespace Reads

variable {α β γ δ : Type}

/-- A format may be stated in another way. -/
theorem congr {decoder : Decoder α} {view : α → β} {format other : Format β}
    (reads : Reads decoder view format) (same : ∀ bytes value, format bytes value ↔ other bytes value) :
    Reads decoder view other where
  sound run := by
    obtain ⟨bytes, passes, formatted⟩ := reads.sound run
    exact ⟨bytes, passes, (same _ _).mp formatted⟩
  complete formatted := reads.complete ((same _ _).mpr formatted)

/-- The second format is given by what the view shows of the first value. -/
theorem bind {decoder : Decoder α} {view : α → β} {first : Format β}
    {continuation : α → Decoder γ} {nextView : γ → δ} {second : β → Format δ}
    (reads : Reads decoder view first)
    (next : ∀ value image, view value = image →
      Reads (continuation value) nextView (second image)) :
    Reads (decoder >>= continuation) nextView (first.andThen second) where
  sound run := by
    obtain ⟨value, middle, firstRun, secondRun⟩ := bind_eq_ok.mp run
    obtain ⟨front, frontPasses, frontFormat⟩ := reads.sound firstRun
    obtain ⟨behind, behindPasses, behindFormat⟩ := (next value _ rfl).sound secondRun
    exact ⟨front ++ behind, frontPasses.trans behindPasses, front, behind, view value, rfl,
      frontFormat, behindFormat⟩
  complete formatted passes := by
    obtain ⟨front, behind, between, rfl, frontFormat, behindFormat⟩ := formatted
    obtain ⟨middle, frontPasses, behindPasses⟩ := passes.split
    obtain ⟨value, firstRun, same⟩ := reads.complete frontFormat frontPasses
    obtain ⟨result, secondRun, resultSame⟩ :=
      (next value between same).complete behindFormat behindPasses
    exact ⟨result, bind_eq_ok.mpr ⟨value, middle, firstRun, secondRun⟩, resultSame⟩

/-- A decoder whose format tells its value may be followed by one that uses the value. -/
theorem bindValue {decoder : Decoder α} {first : Format α} {continuation : α → Decoder γ}
    {nextView : γ → δ} {second : α → Format δ} (reads : Reads decoder id first)
    (next : ∀ value, Reads (continuation value) nextView (second value)) :
    Reads (decoder >>= continuation) nextView (first.andThen second) :=
  reads.bind fun value _ same => same ▸ next value

theorem pure (value : α) (view : α → β) :
    Reads (pure value) view fun bytes image => bytes = [] ∧ view value = image where
  sound run := by
    obtain ⟨rfl, rfl⟩ := pure_eq_ok.mp run
    exact ⟨[], .refl _, rfl, rfl⟩
  complete formatted passes := by
    obtain ⟨rfl, same⟩ := formatted
    exact ⟨value, pure_eq_ok.mpr ⟨rfl, passes.eq_of_nil.symm⟩, same⟩

/-- Changing what a decoder gives changes what its format tells. -/
theorem map {decoder : Decoder α} {view : α → β} {format : Format β} {nextView : γ → δ}
    (reads : Reads decoder view format) (change : α → γ) (image : β → δ)
    (same : ∀ value, nextView (change value) = image (view value)) :
    Reads (change <$> decoder) nextView fun bytes value =>
      ∃ first, format bytes first ∧ image first = value := by
  have both : Reads (decoder >>= fun value => Pure.pure (change value)) nextView
      (format.andThen fun first bytes value => bytes = [] ∧ image first = value) := by
    refine reads.bind fun value _ shown => ?_
    rw [← shown, ← same]
    exact .pure _ _
  rw [map_eq_pure_bind]
  refine both.congr fun bytes value => ⟨?_, ?_⟩
  · rintro ⟨front, behind, first, rfl, formatted, rfl, rfl⟩
    exact ⟨first, by rwa [List.append_nil], rfl⟩
  · rintro ⟨first, formatted, rfl⟩
    exact ⟨bytes, [], first, (List.append_nil _).symm, formatted, rfl, rfl⟩

theorem fail (error : FormatError) (view : α → β) :
    Reads (Decoder.fail error : Decoder α) view fun _ _ => False where
  sound run := nomatch run
  complete formatted := formatted.elim

/-- A decoder may look at the place it starts from. -/
theorem offset {continuation : Nat → Decoder α} {view : α → β} {format : Format β}
    (reads : ∀ start, Reads (continuation start) view format) :
    Reads (Decoder.offset >>= continuation) view format where
  sound {reader _ _} run := (reads reader.offset).sound run
  complete {reader _ _ _} formatted passes := (reads reader.offset).complete formatted passes

theorem lift (outcome : Outcome α) :
    Reads (Decoder.lift outcome) id fun bytes value => bytes = [] ∧ outcome = .ok value where
  sound run := by
    unfold Decoder.lift at run
    cases outcome with
    | error error => exact nomatch run
    | ok value =>
      cases run
      exact ⟨[], .refl _, rfl, rfl⟩
  complete formatted passes := by
    obtain ⟨rfl, rfl⟩ := formatted
    cases passes.eq_of_nil
    exact ⟨_, rfl, rfl⟩

/-- A part that is there if a flag says so. -/
theorem optional {decoder : Decoder α} {format : Format α} (reads : Reads decoder id format)
    (flag : Bool) :
    Reads (if flag = true then some <$> decoder else Pure.pure none) id fun bytes value =>
      value.isSome = flag ∧ format.Optional bytes value := by
  cases flag with
  | false =>
    refine (Reads.pure none id).congr fun bytes value => ⟨?_, ?_⟩
    · rintro ⟨rfl, rfl⟩
      exact ⟨rfl, .absent⟩
    · rintro ⟨missing, formatted⟩
      cases formatted with
      | absent => exact ⟨rfl, rfl⟩
      | present => exact nomatch missing
  | true =>
    refine (reads.map some some fun _ => rfl).congr fun bytes value => ⟨?_, ?_⟩
    · rintro ⟨first, formatted, rfl⟩
      exact ⟨rfl, .present formatted⟩
    · rintro ⟨given, formatted⟩
      cases formatted with
      | absent => exact nomatch given
      | present formatted => exact ⟨_, formatted, rfl⟩

theorem ite (condition : Prop) [Decidable condition] {first second : Decoder α} {view : α → β}
    {firstFormat secondFormat : Format β} (yes : condition → Reads first view firstFormat)
    (no : ¬condition → Reads second view secondFormat) :
    Reads (if condition then first else second) view fun bytes value =>
      if condition then firstFormat bytes value else secondFormat bytes value := by
  split
  · next holds => exact yes holds
  · next fails => exact no fails

/-! ### Integers -/

theorem int (format : IntFormat) : Reads (Decoder.int format) id (Format.int format) where
  sound {reader value next} run := by
    rcases Nat.lt_or_ge reader.remaining format.width with short | enough
    · rw [Decoder.int_of_short short] at run
      cases run
    · rw [Decoder.int_of_enough enough] at run
      cases run
      have length : (reader.rest.take format.width).length = format.width := by
        rw [List.length_take, ← reader.counted, Nat.min_eq_left enough]
      refine ⟨reader.rest.take format.width, ⟨?_, ?_⟩, format.holds_decode length,
        (format.encode_decode length).symm⟩
      · exact (List.take_append_drop _ _).symm
      · rw [length]
        rfl
  complete {reader bytes next value} formatted passes := by
    obtain ⟨fits, rfl⟩ := formatted
    have remaining := passes.remaining
    have taken : reader.rest.take format.width = format.encode value := by
      rw [passes.rest, List.take_left' (format.length_encode value)]
    have stop : reader.skip format.width = next := by
      refine Reader.eq_of_rest ?_ ?_
      · rw [passes.offset, format.length_encode]
        rfl
      · show reader.rest.drop format.width = next.rest
        rw [passes.rest, List.drop_left' (format.length_encode value)]
    rw [format.length_encode] at remaining
    refine ⟨value, ?_, rfl⟩
    rw [Decoder.int_of_enough (by omega), taken, stop, format.decode_encode fits]

/-- A natural number that a format without negative ones has. -/
theorem nat {format : IntFormat} (unsigned : format.signed = false) :
    Reads (Decoder.nat format) id fun bytes value =>
      value < format.modulus ∧ bytes = format.encode value := by
  refine ((int format).map Int.toNat Int.toNat fun _ => rfl).congr fun bytes value => ⟨?_, ?_⟩
  · rintro ⟨given, ⟨fits, rfl⟩, rfl⟩
    rw [IntFormat.holds_iff, IntFormat.min, IntFormat.max, unsigned] at fits
    simp only [Bool.false_eq_true, if_false] at fits
    have natural : (given.toNat : Int) = given := by omega
    rw [natural]
    exact ⟨by omega, rfl⟩
  · rintro ⟨small, rfl⟩
    refine ⟨value, ⟨?_, rfl⟩, rfl⟩
    rw [IntFormat.holds_iff, IntFormat.min, IntFormat.max, unsigned]
    simp only [Bool.false_eq_true, if_false]
    omega

/-- A word is read if its reserved bits are clear. -/
theorem header {format : IntFormat} (unsigned : format.signed = false) (record : RecordKind)
    (reserved : Layout.Field) :
    Reads (Decoder.header record format reserved) id fun bytes word =>
      word < format.modulus ∧ reserved.get word = 0 ∧ bytes = format.encode word := by
  have checked (start word : Nat) : Reads (checkReserved record start reserved word) id
      fun bytes _ => bytes = [] ∧ reserved.get word = 0 := by
    refine (Reads.ite _ (fun _ => .pure () id) fun _ => .fail _ id).congr fun bytes value => ?_
    split
    · next clear => exact ⟨fun formatted => ⟨formatted.1, clear⟩, fun formatted => ⟨formatted.1, rfl⟩⟩
    · next set => exact ⟨False.elim, fun formatted => set formatted.2⟩
  refine (offset fun start => (nat unsigned).bindValue fun word => (checked start word).bindValue
    fun _ => .pure word id).congr fun bytes word => ⟨?_, ?_⟩
  · rintro ⟨_, _, given, rfl, ⟨small, rfl⟩, _, _, _, rfl, ⟨rfl, clear⟩, rfl, rfl⟩
    exact ⟨small, clear, List.append_nil _⟩
  · rintro ⟨small, clear, rfl⟩
    exact ⟨_, [], word, (List.append_nil _).symm, ⟨small, rfl⟩, [], [], (), rfl, ⟨rfl, clear⟩, rfl,
      rfl⟩

/-! ### Rows and chains -/

/-- A row of a known length is read item by item. -/
theorem times {item : Decoder α} {view : α → β} {format : Format β} (reads : Reads item view format)
    (count : Nat) :
    Reads (Decoder.times count item) (List.map view) fun bytes images =>
      images.length = count ∧ format.Rows bytes images where
  sound {reader values next} run := by
    induction count generalizing reader values with
    | zero =>
      obtain ⟨rfl, rfl⟩ := pure_eq_ok.mp run
      exact ⟨[], .refl _, rfl, .nil⟩
    | succ count inductionHypothesis =>
      unfold Decoder.times at run
      simp only [bind_eq_ok, pure_eq_ok] at run
      obtain ⟨first, middle, firstRun, others, stop, othersRun, rfl, rfl⟩ := run
      obtain ⟨front, frontPasses, frontFormat⟩ := reads.sound firstRun
      obtain ⟨behind, behindPasses, length, rows⟩ := inductionHypothesis othersRun
      exact ⟨_, frontPasses.trans behindPasses, congrArg (· + 1) length, .cons frontFormat rows⟩
  complete {reader bytes next images} formatted passes := by
    obtain ⟨length, rows⟩ := formatted
    induction rows generalizing count reader with
    | nil =>
      cases length
      exact ⟨[], pure_eq_ok.mpr ⟨rfl, passes.eq_of_nil.symm⟩, rfl⟩
    | cons formatted rows inductionHypothesis =>
      obtain _ | count := count
      · exact nomatch length
      obtain ⟨middle, frontPasses, behindPasses⟩ := passes.split
      obtain ⟨first, firstRun, rfl⟩ := reads.complete formatted frontPasses
      obtain ⟨others, othersRun, rfl⟩ :=
        inductionHypothesis count behindPasses (Nat.succ.inj length)
      refine ⟨first :: others, ?_, rfl⟩
      unfold Decoder.times
      simp only [bind_eq_ok, pure_eq_ok]
      exact ⟨first, middle, firstRun, others, next, othersRun, rfl, rfl⟩

theorem timesValue {item : Decoder α} {format : Format α} (reads : Reads item id format)
    (count : Nat) :
    Reads (Decoder.times count item) id fun bytes values =>
      values.length = count ∧ format.Rows bytes values := by
  have rows := reads.times count
  rwa [List.map_id_fun] at rows

section Chains

variable {link : Nat → Decoder (α × Bool)} {view : α → β} {format : Nat → Format (β × Bool)}
  (reads : ∀ index, Reads (link index) (Prod.map view id) (format index))
  (positive : ∀ {index bytes result}, format index bytes result → bytes ≠ [])

include reads positive

/-- A chain that is read is a row of links, each of which says whether another follows. The
recursion is that of the chain. -/
theorem chainFrom_sound (index : Nat) {reader next : Reader} {values : List α}
    (run : Decoder.chainFrom link index reader = .ok (values, next)) :
    ∃ bytes, reader.Passes bytes next ∧ values ≠ [] ∧
      Format.Links format index bytes (values.map view) := by
  rw [Decoder.chainFrom] at run
  cases first : link index reader with
  | error error =>
    rw [first] at run
    cases run
  | ok result =>
    obtain ⟨⟨value, hasNext⟩, middle⟩ := result
    obtain ⟨front, passes, formatted⟩ := (reads index).sound first
    -- a link takes bytes, so the test on the bytes left says nothing
    have shorter : middle.remaining < reader.remaining := by
      have taken := List.length_pos_iff.mpr (positive formatted)
      have remaining := passes.remaining
      omega
    rw [first] at run
    simp only [shorter, and_true] at run
    split at run
    · next more =>
      cases others : Decoder.chainFrom link (index + 1) middle with
      | error error =>
        rw [others] at run
        cases run
      | ok result =>
        rw [others] at run
        cases run
        obtain ⟨behind, behindPasses, some, links⟩ := chainFrom_sound (index + 1) others
        refine ⟨_, passes.trans behindPasses, List.cons_ne_nil _ _, .cons ?_ links⟩
        rw [List.isEmpty_map, List.isEmpty_eq_false_iff.mpr some]
        rw [Prod.map_apply, more] at formatted
        exact formatted
    · next last =>
      cases run
      refine ⟨_, passes, List.cons_ne_nil _ _, ?_⟩
      rw [← List.append_nil front]
      refine .cons ?_ .nil
      rw [Prod.map_apply, (Bool.not_eq_true _).mp last] at formatted
      exact formatted
termination_by reader.remaining

/-- A row of links is read as a chain. The induction is on the links. -/
theorem chainFrom_complete {index : Nat} {bytes : Bytes} {images : List β}
    (links : Format.Links format index bytes images) (some : images ≠ []) {reader next : Reader}
    (passes : reader.Passes bytes next) :
    ∃ values, Decoder.chainFrom link index reader = .ok (values, next) ∧
      values.map view = images := by
  induction links generalizing reader with
  | nil => exact absurd rfl some
  | @cons index front behind image images formatted links inductionHypothesis =>
    obtain ⟨middle, frontPasses, behindPasses⟩ := passes.split
    obtain ⟨⟨value, hasNext⟩, run, same⟩ := (reads index).complete formatted frontPasses
    have shorter : middle.remaining < reader.remaining := by
      have taken := List.length_pos_iff.mpr (positive formatted)
      have remaining := frontPasses.remaining
      omega
    obtain ⟨rfl, rfl⟩ := Prod.mk.inj same
    rw [Decoder.chainFrom, run]
    simp only [shorter, and_true]
    cases images with
    | nil =>
      cases links
      cases behindPasses.eq_of_nil
      exact ⟨[value], rfl, rfl⟩
    | cons second others =>
      obtain ⟨values, othersRun, same⟩ := inductionHypothesis (List.cons_ne_nil _ _) behindPasses
      rw [if_pos (by rfl), othersRun]
      exact ⟨value :: values, rfl, congrArg (view value :: ·) same⟩

/-- A chain has a link at least. -/
theorem chain :
    Reads (Decoder.chain link) (List.map view) fun bytes images =>
      images ≠ [] ∧ Format.Links format 0 bytes images where
  sound run := by
    obtain ⟨bytes, passes, some, links⟩ := chainFrom_sound reads positive 0 run
    exact ⟨bytes, passes, fun empty => some (List.map_eq_nil_iff.mp empty), links⟩
  complete formatted passes := chainFrom_complete reads positive formatted.2 formatted.1 passes

end Chains

theorem chainValue {link : Nat → Decoder (α × Bool)} {format : Nat → Format (α × Bool)}
    (reads : ∀ index, Reads (link index) id (format index))
    (positive : ∀ {index bytes result}, format index bytes result → bytes ≠ []) :
    Reads (Decoder.chain link) id fun bytes values =>
      values ≠ [] ∧ Format.Links format 0 bytes values := by
  have links : Reads (Decoder.chain link) (List.map id) _ :=
    chain (fun index => by rw [Prod.map_id]; exact reads index) positive
  rwa [List.map_id_fun] at links

/-- A decoder whose length is told beforehand. -/
theorem measured {decoder : Decoder α} {format : Format α} (reads : Reads decoder id format)
    (declared : Nat) (error : Nat → FormatError) :
    Reads (Decoder.offset >>= fun start => decoder >>= fun value => Decoder.offset >>= fun stop =>
        if stop - start = declared then Pure.pure value else Decoder.fail (error (stop - start))) id
      fun bytes value => bytes.length = declared ∧ format bytes value where
  sound {reader value next} run := by
    obtain ⟨start, _, here, run⟩ := bind_eq_ok.mp run
    obtain ⟨given, middle, givenRun, run⟩ := bind_eq_ok.mp run
    obtain ⟨stop, _, there, run⟩ := bind_eq_ok.mp run
    cases here
    cases there
    obtain ⟨bytes, passes, formatted⟩ := reads.sound givenRun
    have length : middle.offset - reader.offset = bytes.length := by
      rw [passes.offset, Nat.add_sub_cancel_left]
    rw [length] at run
    split at run
    · next same =>
      obtain ⟨rfl, rfl⟩ := pure_eq_ok.mp run
      exact ⟨bytes, passes, same, formatted⟩
    · exact nomatch run
  complete {reader bytes next value} formatted passes := by
    obtain ⟨given, run, same⟩ := reads.complete formatted.2 passes
    have length : next.offset - reader.offset = declared := by
      rw [passes.offset, Nat.add_sub_cancel_left, formatted.1]
    refine ⟨given, ?_, same⟩
    refine bind_eq_ok.mpr ⟨_, _, rfl, bind_eq_ok.mpr ⟨_, _, run, bind_eq_ok.mpr ⟨_, _, rfl, ?_⟩⟩⟩
    rw [if_pos length]
    exact pure_eq_ok.mpr ⟨rfl, rfl⟩

/-! ### Whole byte strings -/

/-- A whole byte string is read exactly if it is of the format. -/
theorem run_eq_ok_iff {decoder : Decoder α} {format : Format α} (reads : Reads decoder id format)
    {bytes : Bytes} {value : α} : decoder.run bytes = .ok value ↔ format bytes value := by
  unfold Decoder.run
  constructor
  · intro run
    cases first : decoder (.ofBytes bytes) with
    | error error =>
      rw [first] at run
      exact nomatch run
    | ok result =>
      obtain ⟨given, next⟩ := result
      rw [first] at run
      simp only at run
      split at run
      · next empty =>
        cases run
        obtain ⟨taken, passes, formatted⟩ := reads.sound first
        have whole : bytes = taken := by
          rw [← List.append_nil taken, ← List.isEmpty_iff.mp empty]
          exact passes.rest
        rw [whole]
        exact formatted
      · exact nomatch run
  · intro formatted
    have passes : (Reader.ofBytes bytes).Passes bytes ⟨bytes.length, [], 0, rfl⟩ :=
      ⟨(List.append_nil _).symm, (Nat.zero_add _).symm⟩
    obtain ⟨given, run, rfl⟩ := reads.complete formatted passes
    rw [run]
    rfl

end Reads

end Decoder

end BehaviourScript
