/-
This file follows integers through a writer and a reader. What is written in
some formats is read back in the same formats, and nothing is left. A 32-bit
integer that is filled in afterwards takes the place of the one that was there
and leaves all others as they are. On any bytes, and after any requests that
succeeded or failed, a request either gives the bytes in front of the reader and
passes them, or tells how many are missing and leaves the reader where it is.
-/

import BehaviourScript.Bytes.Buffer
import BehaviourScript.Proofs.Binary.Reads

namespace BehaviourScript

/-! ### Rows of integers -/

/-- An integer with a format that has it. -/
structure TypedInt where
  format : IntFormat
  value : Int
  fits : format.holds value = true

def TypedInt.bytes (item : TypedInt) : Bytes := item.format.encode item.value

namespace Writer

/-- Writes bytes at the end. -/
def append (writer : Writer) (bytes : Bytes) : Writer := ⟨writer.bytes ++ bytes⟩

/-- Writes integers one after the other. -/
def writeAll (writer : Writer) (items : List TypedInt) : Writer :=
  items.foldl (fun written item => written.write item.format item.value) writer

theorem writeAll_eq_append (writer : Writer) (items : List TypedInt) :
    writer.writeAll items = writer.append (items.flatMap TypedInt.bytes) := by
  induction items generalizing writer with
  | nil => exact congrArg Writer.mk (List.append_nil _).symm
  | cons item rest inductionHypothesis =>
    show (writer.write item.format item.value).writeAll rest = _
    rw [inductionHypothesis, List.flatMap_cons]
    exact congrArg Writer.mk (List.append_assoc ..)

theorem writeAll_insert (writer : Writer) (before after : List TypedInt) (item : TypedInt) :
    writer.writeAll (before ++ item :: after) =
      ((writer.writeAll before).write item.format item.value).append
        (after.flatMap TypedInt.bytes) := by
  rw [← writeAll_eq_append]
  exact List.foldl_append

/-- Filling in a number is the same as writing it in its turn. -/
theorem patch_written (writer : Writer) (bytes : Bytes) (old value : Int) :
    ((writer.write .u32 old).append bytes).patch writer.length value =
      (writer.write .u32 value).append bytes := by
  have room : writer.length + IntFormat.u32.width ≤
      ((writer.write .u32 old).append bytes).length := by
    unfold append write length
    simp only [List.length_append, IntFormat.length_encode]
    omega
  have width : (IntFormat.u32.encode old).length = IntFormat.u32.width :=
    IntFormat.length_encode _ _
  unfold patch
  rw [if_pos room]
  unfold append write length
  rw [List.append_assoc writer.bytes, List.take_left, ← List.drop_drop, List.drop_left, ← width,
    List.drop_left]

theorem patch_writeAll (before after : List TypedInt) {old new : TypedInt}
    (oldWide : old.format = .u32) (newWide : new.format = .u32) :
    (empty.writeAll (before ++ old :: after)).patch (empty.writeAll before).length new.value =
      empty.writeAll (before ++ new :: after) := by
  rw [writeAll_insert, writeAll_insert, oldWide, newWide, patch_written]

end Writer

/-! ### Rows of requests -/

/-- What a reader may be asked for: an integer, or a number of bytes. -/
inductive Request where
  | integer (format : IntFormat)
  | bytes (count : Nat)

/-- What a request gives. -/
inductive Request.Answer where
  | integer (value : Int)
  | bytes (bytes : Bytes)

namespace Request

/-- How many bytes a request takes. -/
def count : Request → Nat
  | integer format => format.width
  | bytes count => count

/-- What bytes are to a request. -/
def answer : Request → Bytes → Answer
  | integer format, taken => .integer (format.decode taken)
  | bytes _, taken => .bytes taken

end Request

namespace Reader

open Request (Answer)

/-- Makes a request. -/
def ask : Request → Read Answer
  | .integer format => .integer <$> read format
  | .bytes count => .bytes <$> take count

/-- Makes requests one after the other. The next one starts where the last one left the reader,
whether that gave something or failed. -/
def session (reader : Reader) : List Request → List (Except FormatError Answer) × Reader
  | [] => ([], reader)
  | request :: rest =>
    match ask request reader with
    | .ok answer next => (next.session rest).map (.ok answer :: ·) id
    | .error error next => (next.session rest).map (.error error :: ·) id

/-- The reader of some bytes that has passed a number of them. -/
def behind (bytes : Bytes) (position : Nat) : Reader where
  offset := position
  rest := bytes.drop position
  remaining := bytes.length - position
  counted := List.length_drop.symm

variable {bytes : Bytes} {position : Nat} {request : Request}

theorem behind_zero (bytes : Bytes) : behind bytes 0 = ofBytes bytes := rfl

theorem skip_behind (bytes : Bytes) (position count : Nat) :
    (behind bytes position).skip count = behind bytes (position + count) :=
  eq_of_rest rfl List.drop_drop

/-- A request says how many bytes it takes, and what they are to it. -/
theorem ask_eq (request : Request) : ask request = request.answer <$> take request.count := by
  cases request with
  | integer format => exact (comp_map format.decode Answer.integer (take format.width)).symm
  | bytes count => rfl

theorem ask_of_enough (enough : position + request.count ≤ bytes.length) :
    ask request (behind bytes position) =
      .ok (request.answer ((bytes.drop position).take request.count))
        (behind bytes (position + request.count)) := by
  have there : request.count ≤ (behind bytes position).remaining := by
    show _ ≤ bytes.length - position
    omega
  rw [ask_eq, ← skip_behind]
  exact map_of_ok (take_of_enough there)

/-- A request for more than is left leaves the reader where it was. -/
theorem ask_of_short (short : bytes.length < position + request.count)
    (inside : position ≤ bytes.length) :
    ask request (behind bytes position) =
      .error (.unexpectedEof position (position + request.count - bytes.length))
        (behind bytes position) := by
  have missing : (behind bytes position).remaining < request.count := by
    show bytes.length - position < _
    omega
  have lacking : request.count - (behind bytes position).remaining =
      position + request.count - bytes.length := by
    show request.count - (bytes.length - position) = _
    omega
  rw [ask_eq, ← lacking]
  exact map_of_error (take_of_short missing)

theorem session_cons_of_enough (enough : position + request.count ≤ bytes.length)
    (rest : List Request) :
    (behind bytes position).session (request :: rest) =
      ((behind bytes (position + request.count)).session rest).map
        (.ok (request.answer ((bytes.drop position).take request.count)) :: ·) id := by
  rw [session, ask_of_enough enough]

theorem session_cons_of_short (short : bytes.length < position + request.count)
    (inside : position ≤ bytes.length) (rest : List Request) :
    (behind bytes position).session (request :: rest) =
      ((behind bytes position).session rest).map
        (.error (.unexpectedEof position (position + request.count - bytes.length)) :: ·) id := by
  rw [session, ask_of_short short inside]

theorem session_append (reader : Reader) (first second : List Request) :
    reader.session (first ++ second) =
      ((reader.session first).2.session second).map ((reader.session first).1 ++ ·) id := by
  induction first generalizing reader with
  | nil => rfl
  | cons request rest inductionHypothesis =>
    rw [List.cons_append, session, session]
    split
    · next answer next _ =>
      rw [inductionHypothesis]
      rfl
    · next error _ =>
      rw [inductionHypothesis]
      rfl

/-- Requests leave a reader at some place of its bytes. -/
theorem exists_session_eq (inside : position ≤ bytes.length) (requests : List Request) :
    ∃ answers reached, reached ≤ bytes.length ∧
      (behind bytes position).session requests = (answers, behind bytes reached) := by
  induction requests generalizing position with
  | nil => exact ⟨[], position, inside, rfl⟩
  | cons request rest inductionHypothesis =>
    rcases Nat.lt_or_ge bytes.length (position + request.count) with short | enough
    · obtain ⟨answers, reached, within, run⟩ := inductionHypothesis inside
      rw [session_cons_of_short short inside, run]
      exact ⟨_, reached, within, rfl⟩
    · obtain ⟨answers, reached, within, run⟩ := inductionHypothesis enough
      rw [session_cons_of_enough enough, run]
      exact ⟨_, reached, within, rfl⟩

/-! ### Reading back -/

/-- Reading the formats of a row of integers one after the other gives the integers, and then
nothing is left. -/
def ReadsBack (bytes : Bytes) (items : List TypedInt) : Prop :=
  ∃ last, (ofBytes bytes).session (items.map fun item => .integer item.format) =
    (items.map fun item => .ok (.integer item.value), last) ∧ last.remaining = 0

theorem session_flatMap (front : Bytes) (items : List TypedInt) :
    (behind (front ++ items.flatMap TypedInt.bytes) front.length).session
        (items.map fun item => .integer item.format) =
      (items.map fun item => .ok (.integer item.value),
        behind (front ++ items.flatMap TypedInt.bytes)
          (front ++ items.flatMap TypedInt.bytes).length) := by
  induction items generalizing front with
  | nil => rw [List.flatMap_nil, List.append_nil]; rfl
  | cons item rest inductionHypothesis =>
    have width : item.bytes.length = (Request.integer item.format).count :=
      IntFormat.length_encode _ _
    have behindItem := inductionHypothesis (front ++ item.bytes)
    rw [List.append_assoc, ← List.flatMap_cons, List.length_append, width] at behindItem
    have enough : front.length + (Request.integer item.format).count ≤
        (front ++ (item :: rest).flatMap TypedInt.bytes).length := by
      rw [List.flatMap_cons, List.length_append, List.length_append, width]
      omega
    have taken : ((front ++ (item :: rest).flatMap TypedInt.bytes).drop front.length).take
        (Request.integer item.format).count = item.bytes := by
      rw [List.drop_left, List.flatMap_cons, List.take_left' width]
    rw [List.map_cons, session_cons_of_enough enough, behindItem, taken, Request.answer,
      TypedInt.bytes, IntFormat.decode_encode item.fits]
    rfl

theorem readsBack_writeAll (items : List TypedInt) :
    ReadsBack (Writer.empty.writeAll items).bytes items := by
  rw [Writer.writeAll_eq_append]
  exact ⟨_, session_flatMap [] items, Nat.sub_self _⟩

/-- What a writer was given is read back, with the integer that was filled in in place of the
one that it replaced. On any bytes and after any requests the reader stands at some place, and the
next request gives the bytes behind that place, or it fails with the place and the number of bytes
that are missing; the reader then stays, so that a smaller request succeeds. -/
theorem sessions_follow_bytes :
    (∀ items, ReadsBack (Writer.empty.writeAll items).bytes items) ∧
    (∀ before old new after, old.format = .u32 → new.format = .u32 →
      ReadsBack ((Writer.empty.writeAll (before ++ old :: after)).patch
        (Writer.empty.writeAll before).length new.value).bytes (before ++ new :: after)) ∧
    ∀ bytes earlier request, ∃ answers position, position ≤ bytes.length ∧
      (ofBytes bytes).session earlier = (answers, behind bytes position) ∧
      (position + request.count ≤ bytes.length →
        (ofBytes bytes).session (earlier ++ [request]) =
          (answers ++ [.ok (request.answer ((bytes.drop position).take request.count))],
            behind bytes (position + request.count))) ∧
      (bytes.length < position + request.count →
        (ofBytes bytes).session (earlier ++ [request]) =
          (answers ++
              [.error (.unexpectedEof position (position + request.count - bytes.length))],
            behind bytes position) ∧
        ∀ smaller, position + smaller.count ≤ bytes.length →
          (ofBytes bytes).session (earlier ++ [request, smaller]) =
            (answers ++
                [.error (.unexpectedEof position (position + request.count - bytes.length)),
                  .ok (smaller.answer ((bytes.drop position).take smaller.count))],
              behind bytes (position + smaller.count))) := by
  refine ⟨readsBack_writeAll, fun before old new after oldWide newWide => ?_, ?_⟩
  · rw [Writer.patch_writeAll before after oldWide newWide]
    exact readsBack_writeAll _
  · intro bytes earlier request
    obtain ⟨answers, position, inside, run⟩ := exists_session_eq (Nat.zero_le bytes.length) earlier
    rw [behind_zero] at run
    refine ⟨answers, position, inside, run, fun enough => ?_, fun short => ⟨?_, ?_⟩⟩
    · rw [session_append, run, session_cons_of_enough enough]
      rfl
    · rw [session_append, run, session_cons_of_short short inside]
      rfl
    · intro smaller enough
      rw [session_append, run, session_cons_of_short short inside, session_cons_of_enough enough]
      rfl

-- Four bytes are asked for where one is left. Three are missing, and the one is still there.
theorem sessions_follow_bytes_short :
    ReadsBack ((Writer.empty.writeAll [⟨.u16, 9, by decide⟩, ⟨.u32, 0, by decide⟩,
        ⟨.i16, -1, by decide⟩]).patch 2 2864434397).bytes
      [⟨.u16, 9, by decide⟩, ⟨.u32, 2864434397, by decide⟩, ⟨.i16, -1, by decide⟩] ∧
    (ofBytes [1, 0, 255]).session [.integer .u16, .bytes 1] =
      ([.ok (.integer 1), .ok (.bytes [255])], behind [1, 0, 255] 3) ∧
    (ofBytes [1, 0, 255]).session [.integer .u16, .integer .u32] =
      ([.ok (.integer 1), .error (.unexpectedEof 2 3)], behind [1, 0, 255] 2) ∧
    (ofBytes [1, 0, 255]).session [.integer .u16, .integer .u32, .integer .u8] =
      ([.ok (.integer 1), .error (.unexpectedEof 2 3), .ok (.integer 255)],
        behind [1, 0, 255] 3) := by
  obtain ⟨_, patched, follows⟩ := sessions_follow_bytes
  have first : (ofBytes [1, 0, 255]).session [.integer .u16] =
      ([.ok (.integer 1)], behind [1, 0, 255] 2) := rfl
  obtain ⟨answers, position, _, run, enough, _⟩ := follows [1, 0, 255] [.integer .u16] (.bytes 1)
  obtain ⟨others, place, _, again, _, short⟩ :=
    follows [1, 0, 255] [.integer .u16] (.integer .u32)
  cases run.symm.trans first
  cases again.symm.trans first
  exact ⟨patched [⟨.u16, 9, by decide⟩] ⟨.u32, 0, by decide⟩ ⟨.u32, 2864434397, by decide⟩
      [⟨.i16, -1, by decide⟩] rfl rfl,
    enough (by decide), (short (by decide)).1, (short (by decide)).2 (.integer .u8) (by decide)⟩

end Reader

end BehaviourScript
