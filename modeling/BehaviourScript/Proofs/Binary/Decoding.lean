/-
This file shows that the decoders read the binary format: what a decoder accepts
is what the format's relation allows, and it gives what the relation says.
Header words are taken apart into their fields and put together again, and the
places in the binary, which only error messages need, are looked past.
-/

import BehaviourScript.Proofs.Binary.Format
import BehaviourScript.Proofs.Binary.Words
import BehaviourScript.Proofs.Emission

namespace BehaviourScript

namespace Decode

open Decoder

theorem toNat_commandId (word : Nat) :
    (UInt16.ofNat (Layout.Command.id.get word)).toNat = Layout.Command.id.get word :=
  UInt16.toNat_ofNat_of_lt' (Layout.Command.id.get_lt word)

/-- A command is read as the format has it. -/
theorem command_reads : Reads command id Format.command := by
  have header : Reads (header .command .u32 Layout.Command.reserved) id _ := .header rfl _ _
  refine (header.bindValue fun word => (Reads.timesValue (.int .i32) _).bindValue fun args =>
    .pure _ id).congr fun bytes value => ⟨?_, ?_⟩
  · rintro ⟨_, _, word, rfl, ⟨small, clear, rfl⟩, _, _, args, rfl, ⟨count, rows⟩, rfl, rfl⟩
    obtain ⟨words, rfl⟩ := Format.rows_int_iff.mp rows
    have few : args.length ≤ Layout.Command.argCount.max := count ▸ Layout.Field.get_le_max _ _
    have whole : Layout.pack [(Layout.Command.id, Layout.Command.id.get word),
        (Layout.Command.argCount, Layout.Command.argCount.get word),
        (Layout.Command.hasNext, Layout.Command.hasNext.get word)] = word :=
      Layout.Command.shape.pack_get small clear
    have formatted : Format.command _ (⟨.ofNat (Layout.Command.id.get word), args.map number, .dummy⟩,
      Layout.Command.hasNext.flag word) := .intro few words
    rw [toNat_commandId, count, Layout.Field.toNat_flag Layout.Command.hasNext rfl, whole]
      at formatted
    rwa [List.append_nil]
  · rintro @⟨commandId, args, hasNext, few, words⟩
    have same : [(Layout.Command.id, commandId.toNat), (Layout.Command.argCount, args.length),
        (Layout.Command.hasNext, hasNext.toNat)].map Prod.fst = Layout.Command.shape.fields := rfl
    refine ⟨_, _, _, rfl, ⟨Layout.Shape.pack_lt same, Layout.Shape.reserved_pack same, rfl⟩, _, [],
      args, (List.append_nil _).symm, ⟨?_, Format.rows_int_iff.mpr ⟨words, rfl⟩⟩, rfl, ?_⟩
    · exact (Layout.Shape.get_pack same (by simp) few).symm
    · rw [Layout.Shape.get_pack same List.mem_cons_self (Nat.le_of_lt_succ commandId.toNat_lt),
        Layout.Shape.flag_pack same _ hasNext (by simp) (by decide), UInt16.ofNat_toNat]
      rfl

/-- A row of commands that is not empty is read as the format has it. -/
theorem commands_reads : Reads commands id fun bytes values =>
    values ≠ [] ∧ Format.row bytes values := by
  refine Reads.chainValue (fun _ => command_reads) fun formatted empty => ?_
  cases formatted
  exact IntFormat.encode_ne_nil _ _ (List.append_eq_nil_iff.mp empty).1

/-- A row of commands is there if a flag says so. -/
theorem row_reads (flag : Bool) :
    Reads (if flag = true then commands else pure []) id fun bytes values =>
      (!values.isEmpty) = flag ∧ Format.row bytes values := by
  cases flag with
  | false =>
    refine (Reads.pure [] id).congr fun bytes values => ⟨?_, ?_⟩
    · rintro ⟨rfl, rfl⟩
      exact ⟨rfl, .nil⟩
    · rintro ⟨empty, formatted⟩
      cases formatted with
      | nil => exact ⟨rfl, rfl⟩
      | cons => exact nomatch empty
  | true =>
    refine commands_reads.congr fun bytes values => and_congr_left fun _ => ?_
    cases values with
    | nil => exact ⟨fun some => absurd rfl some, nofun⟩
    | cons first others => exact ⟨fun _ => rfl, fun _ => List.cons_ne_nil _ _⟩

theorem commandPack_reads : Reads commandPack id Format.commandPack := by
  have header : Reads (header .commandPack .u16 Layout.Pack.reserved) id _ := .header rfl _ _
  refine (header.bindValue fun word => row_reads _).congr fun bytes values => ⟨?_, ?_⟩
  · rintro ⟨_, _, word, rfl, ⟨small, clear, rfl⟩, flag, formatted⟩
    have whole : Layout.pack [(Layout.Pack.hasCommands, Layout.Pack.hasCommands.get word)] = word :=
      Layout.Pack.shape.pack_get small clear
    have written := Format.commandPack.intro formatted
    rwa [Layout.putFlag_eq_pack, flag, Layout.Field.toNat_flag _ rfl, whole] at written
  · rintro ⟨formatted⟩
    have same : [(Layout.Pack.hasCommands, (!values.isEmpty).toNat)].map Prod.fst =
      Layout.Pack.shape.fields := rfl
    rw [Layout.putFlag_eq_pack]
    refine ⟨_, _, _, rfl, ⟨Layout.Shape.pack_lt same, Layout.Shape.reserved_pack same, rfl⟩, ?_,
      formatted⟩
    exact (Layout.Shape.flag_pack same _ (!values.isEmpty) (by simp) (by decide)).symm

/-- A condition is read as the format has it. -/
theorem condition_reads : Reads condition id Format.condition := by
  have header : Reads (header .conditionFlags .u16 Layout.Condition.reserved) id _ :=
    .header rfl _ _
  have ident : Reads (nat .u16) id _ := .nat rfl
  refine (ident.bindValue fun ident => header.bindValue fun word =>
    (Reads.int .i32).bindValue fun parameter => .pure _ id).congr fun bytes value => ⟨?_, ?_⟩
  · rintro ⟨_, _, ident, rfl, ⟨fits, rfl⟩, _, _, word, rfl, ⟨small, clear, rfl⟩, _, _, parameter,
      rfl, ⟨inRange, rfl⟩, rfl, rfl⟩
    have whole : Layout.pack [(Layout.Condition.negate, Layout.Condition.negate.get word)] = word :=
      Layout.Condition.shape.pack_get small clear
    have written : Format.condition _ ⟨.ofNat ident, Layout.Condition.negate.flag word,
      if parameter = 0 then none else some (number parameter), .dummy⟩ := .intro inRange
    rw [Layout.putFlag_eq_pack, Layout.Field.toNat_flag _ rfl, whole,
      UInt16.toNat_ofNat_of_lt' fits, List.append_assoc] at written
    rwa [List.append_nil]
  · rintro @⟨ident, negate, parameter, inRange⟩
    have same : [(Layout.Condition.negate, negate.toNat)].map Prod.fst =
      Layout.Condition.shape.fields := rfl
    rw [Layout.putFlag_eq_pack, List.append_assoc]
    refine ⟨_, _, ident.toNat, rfl, ⟨ident.toNat_lt, rfl⟩, _, _, _, rfl,
      ⟨Layout.Shape.pack_lt same, Layout.Shape.reserved_pack same, rfl⟩, _, [], parameter,
      (List.append_nil _).symm, ⟨inRange, rfl⟩, rfl, ?_⟩
    rw [UInt16.ofNat_toNat, Layout.Shape.flag_pack same _ negate (by simp) (by decide)]
    rfl

/-- A jump is read as the place of a state, or as none. -/
theorem jump_reads : Reads jump (Option.map Jump.target) fun bytes target =>
    (∀ index ∈ target, (index : Int) ≤ IntFormat.i16.max) ∧
      bytes = IntFormat.i16.encode (Format.jumpWord target) := by
  have found (start : Nat) (word : Int) : Reads (pure (some ⟨start, word.toNat⟩))
      (Option.map Jump.target) fun bytes target => bytes = [] ∧ some word.toNat = target := .pure _ _
  refine (Reads.offset fun start => (Reads.int .i16).bindValue fun word =>
    Reads.ite (word = noIndex) (fun _ => .pure none (Option.map Jump.target)) fun _ =>
      Reads.ite (word < 0) (fun _ => .fail _ _) fun _ => found start word).congr
    fun bytes target => ⟨?_, ?_⟩
  · rintro ⟨_, _, word, rfl, ⟨fits, rfl⟩, formatted⟩
    split at formatted
    · next missing =>
      obtain ⟨rfl, rfl⟩ := formatted
      rw [List.append_nil, missing]
      exact ⟨nofun, rfl⟩
    · split at formatted
      · exact formatted.elim
      · next natural =>
        obtain ⟨rfl, rfl⟩ := formatted
        have same : (word.toNat : Int) = word := by omega
        refine ⟨?_, ?_⟩
        · rintro index ⟨⟩
          rw [same]
          exact (IntFormat.holds_iff.mp fits).2
        · rw [List.append_nil]
          exact congrArg _ same.symm
  · rintro ⟨small, rfl⟩
    refine ⟨_, [], Format.jumpWord target, (List.append_nil _).symm, ⟨?_, rfl⟩, ?_⟩
    · cases target with
      | none => decide
      | some index =>
        have low : IntFormat.i16.min ≤ 0 := by decide
        exact IntFormat.holds_iff.mpr ⟨by rw [Format.jumpWord]; omega, small index rfl⟩
    · cases target with
      | none => exact ⟨rfl, rfl⟩
      | some index =>
        have place : Format.jumpWord (some index) ≠ noIndex := by
          rw [Format.jumpWord, noIndex]
          omega
        have natural : ¬Format.jumpWord (some index) < 0 := by
          rw [Format.jumpWord]
          omega
        rw [if_neg place, if_neg natural]
        exact ⟨rfl, rfl⟩

theorem body_eq : body =
    (header .bodyHeader .u16 Layout.Body.reserved >>= fun word => jump >>= fun target =>
      (if Layout.Body.hasCondition.flag word then some <$> condition else pure none) >>= fun test =>
        (if Layout.Body.hasCommands.flag word then commands else pure []) >>= fun row =>
          pure (⟨test, row, target.map fun jump => stateName jump.target, .dummy⟩, target)) := by
  unfold body
  simp only [ite_bind]

/-- A body is read as the format has it. -/
theorem body_reads : Reads body (Prod.map id (Option.map Jump.target)) Format.body := by
  have header : Reads (header .bodyHeader .u16 Layout.Body.reserved) id _ := .header rfl _ _
  have built (test : Option Condition) (row : List Command) (target : Option Jump)
      (image : Option Nat) (shown : target.map Jump.target = image) :
      Reads (pure ((⟨test, row, target.map fun jump => stateName jump.target, .dummy⟩, target) :
          StateBody × Option Jump)) (Prod.map id (Option.map Jump.target)) fun bytes value =>
        bytes = [] ∧ (⟨test, row, image.map stateName, .dummy⟩, image) = value := by
    rw [← shown, Option.map_map]
    exact .pure _ _
  rw [body_eq]
  refine (header.bindValue fun word => jump_reads.bind fun target image shown =>
    (condition_reads.optional (Layout.Body.hasCondition.flag word)).bindValue fun test =>
      (row_reads (Layout.Body.hasCommands.flag word)).bindValue fun row =>
        built test row target image shown).congr fun bytes value => ⟨?_, ?_⟩
  · rintro ⟨_, _, word, rfl, ⟨small, clear, rfl⟩, _, _, target, rfl, ⟨near, rfl⟩, _, _, test, rfl,
      ⟨hasTest, testFormat⟩, _, _, row, rfl, ⟨hasRow, rowFormat⟩, rfl, rfl⟩
    have whole : Layout.pack [(Layout.Body.hasCondition, Layout.Body.hasCondition.get word),
        (Layout.Body.hasCommands, Layout.Body.hasCommands.get word)] = word :=
      Layout.Body.shape.pack_get small clear
    have written := Format.body.intro near testFormat rowFormat
    rw [hasTest, hasRow, Layout.Field.toNat_flag Layout.Body.hasCondition rfl,
      Layout.Field.toNat_flag Layout.Body.hasCommands rfl, whole] at written
    simpa only [List.append_assoc, List.append_nil] using written
  · rintro @⟨target, test, row, testBytes, rowBytes, near, testFormat, rowFormat⟩
    have same : [(Layout.Body.hasCondition, test.isSome.toNat),
        (Layout.Body.hasCommands, (!row.isEmpty).toNat)].map Prod.fst = Layout.Body.shape.fields := rfl
    rw [List.append_assoc, List.append_assoc]
    refine ⟨_, _, _, rfl, ⟨Layout.Shape.pack_lt same, Layout.Shape.reserved_pack same, rfl⟩, _, _,
      target, rfl, ⟨near, rfl⟩, _, _, test, rfl, ⟨?_, testFormat⟩, _, [], row,
      (List.append_nil _).symm, ⟨?_, rowFormat⟩, rfl, rfl⟩
    · exact (Layout.Shape.flag_pack same _ test.isSome (by simp) (by decide)).symm
    · exact (Layout.Shape.flag_pack same _ (!row.isEmpty) (by simp) (by decide)).symm

/-! ### Control packets -/

theorem setting_reads (name : String) : Reads (setting name) id fun bytes assign =>
    ∃ word : Int, Format.int .u8 bytes word ∧ assign = ⟨name, number word, .dummy⟩ := by
  have value : Reads (nat .u8) id _ := .nat rfl
  refine (value.bindValue fun word => .pure _ id).congr fun bytes assign => ⟨?_, ?_⟩
  · rintro ⟨_, _, word, rfl, ⟨small, rfl⟩, rfl, rfl⟩
    refine ⟨word, ⟨?_, List.append_nil _⟩, rfl⟩
    have bound : word < 256 := small
    have high : (word : Int) ≤ 255 := by omega
    exact IntFormat.holds_iff.mpr ⟨Int.natCast_nonneg _, high⟩
  · rintro ⟨word, ⟨fits, rfl⟩, rfl⟩
    obtain ⟨low, high⟩ := IntFormat.holds_iff.mp fits
    have natural : (word.toNat : Int) = word := Int.toNat_of_nonneg low
    refine ⟨_, [], word.toNat, (List.append_nil _).symm, ⟨?_, by rw [natural]⟩, rfl, ?_⟩
    · have bound : word ≤ 255 := high
      show word.toNat < 256
      omega
    · rw [natural]
      rfl

/-- The settings of a mask are read in the order of their bits. -/
theorem settings_reads (mask : Nat) (entries : List (String × Nat)) :
    Reads (((entries.filter fun entry => (Encode.settingField entry.2).flag mask).map
      Prod.fst).mapM setting) id (Format.settings mask entries) := by
  induction entries with
  | nil =>
    refine (Reads.pure [] id).congr fun bytes assigns => ⟨?_, ?_⟩
    · rintro ⟨rfl, rfl⟩
      exact .nil
    · rintro ⟨⟩
      exact ⟨rfl, rfl⟩
  | cons entry rest inductionHypothesis =>
    rw [List.filter_cons]
    cases set : (Encode.settingField entry.2).flag mask with
    | false =>
      rw [if_neg Bool.false_ne_true]
      refine inductionHypothesis.congr fun bytes assigns => ⟨.skip set, fun formatted => ?_⟩
      cases formatted with
      | skip _ behind => exact behind
      | take taken => exact nomatch set.symm.trans taken
    | true =>
      rw [if_pos rfl, List.map_cons, List.mapM_cons]
      refine ((setting_reads entry.1).bindValue fun first => inductionHypothesis.bindValue
        fun others => .pure _ id).congr fun bytes assigns => ⟨?_, fun formatted => ?_⟩
      · rintro ⟨_, _, _, rfl, ⟨word, first, rfl⟩, _, _, others, rfl, behind, rfl, rfl⟩
        rw [List.append_nil]
        exact .take set first behind
      · cases formatted with
        | skip skipped => exact nomatch set.symm.trans skipped
        | take _ first behind =>
          exact ⟨_, _, _, rfl, ⟨_, first, rfl⟩, _, [], _, (List.append_nil _).symm, behind, rfl, rfl⟩

/-- A packet is read as the format has it. -/
theorem controlPacket_reads : Reads controlPacket id Format.controlPacket := by
  have header : Reads (header .controlPacket .u32 Layout.ControlPacket.reserved) id _ :=
    .header rfl _ _
  refine (header.bindValue fun word => (settings_reads _ _).bindValue fun assigns =>
    (Reads.timesValue (.int .i32) _).bindValue fun data => .pure _ id).congr
    fun bytes packet => ⟨?_, ?_⟩
  · rintro ⟨_, _, word, rfl, ⟨small, clear, rfl⟩, _, _, assigns, rfl, given, _, _, data, rfl,
      ⟨count, rows⟩, rfl, rfl⟩
    obtain ⟨words, rfl⟩ := Format.rows_int_iff.mp rows
    have whole : Layout.pack
        [(Layout.ControlPacket.settingsMask, Layout.ControlPacket.settingsMask.get word),
          (Layout.ControlPacket.dataCount, Layout.ControlPacket.dataCount.get word)] = word :=
      Layout.ControlPacket.shape.pack_get small clear
    have few : data.length ≤ Layout.ControlPacket.dataCount.max :=
      count ▸ Layout.Field.get_le_max _ _
    have written := Format.controlPacket.intro (Layout.Field.get_le_max _ _) given few words
    rw [count, whole, List.append_assoc] at written
    rwa [List.append_nil]
  · rintro @⟨mask, assigns, data, settingBytes, inMask, given, few, words⟩
    have same : [(Layout.ControlPacket.settingsMask, mask),
        (Layout.ControlPacket.dataCount, data.length)].map Prod.fst =
      Layout.ControlPacket.shape.fields := rfl
    rw [List.append_assoc]
    refine ⟨_, _, _, rfl, ⟨Layout.Shape.pack_lt same, Layout.Shape.reserved_pack same, rfl⟩, _, _,
      assigns, rfl, ?_, _, [], data, (List.append_nil _).symm,
      ⟨?_, Format.rows_int_iff.mpr ⟨words, rfl⟩⟩, rfl, rfl⟩
    · rw [Layout.Shape.get_pack same List.mem_cons_self inMask]
      exact given
    · exact (Layout.Shape.get_pack same (by simp) few).symm

/-! ### States -/

theorem stateTarget_reads (resolvers : DecompileResolvers) (word start : Nat) :
    Reads (stateTarget resolvers word start) id fun bytes value =>
      ∃ target, bytes = IntFormat.i16.encode target ∧
        Format.target resolvers (Layout.State.usesObjectSlot.flag word) target value.1 value.2 := by
  refine ((Reads.int .i16).bindValue fun target =>
    Reads.ite (Layout.State.usesObjectSlot.flag word = true)
      (fun _ => Reads.ite (target < 0) (fun _ => .fail _ id) fun _ => .pure _ id) fun _ =>
      Reads.ite (target = noIndex) (fun _ => .pure _ id) fun _ =>
        Reads.ite (target < 0) (fun _ => .fail _ id) fun _ =>
          (Reads.lift _).bindValue fun reference => .pure _ id).congr fun bytes value => ⟨?_, ?_⟩
  · rintro ⟨_, _, target, rfl, ⟨fits, rfl⟩, formatted⟩
    have high := (IntFormat.holds_iff.mp fits).2
    cases slot : Layout.State.usesObjectSlot.flag word with
    | true =>
      rw [slot, if_pos rfl] at formatted
      split at formatted
      · exact formatted.elim
      · next natural =>
        obtain ⟨rfl, rfl⟩ := formatted
        exact ⟨target, List.append_nil _, .slot (by omega) high⟩
    | false =>
      rw [slot, if_neg Bool.false_ne_true] at formatted
      split at formatted
      · next missing =>
        obtain ⟨rfl, rfl⟩ := formatted
        exact ⟨target, List.append_nil _, missing ▸ .nothing⟩
      · split at formatted
        · exact formatted.elim
        · next natural =>
          obtain ⟨_, _, reference, rfl, ⟨rfl, found⟩, rfl, rfl⟩ := formatted
          exact ⟨target, List.append_nil _,
            .graph (by omega) high (Outcome.ofResolution_eq_ok.mp found)⟩
  · rintro ⟨target, rfl, formatted⟩
    obtain ⟨attributes, reference⟩ := value
    refine ⟨_, [], target, (List.append_nil _).symm, ⟨formatted.holds, rfl⟩, ?_⟩
    generalize Layout.State.usesObjectSlot.flag word = slot at formatted
    cases formatted with
    | slot low high =>
      rw [if_pos rfl, if_neg (by omega)]
      exact ⟨rfl, rfl⟩
    | nothing =>
      rw [if_neg Bool.false_ne_true, if_pos rfl]
      exact ⟨rfl, rfl⟩
    | graph low high found =>
      have place : target ≠ noIndex := by
        rw [noIndex]
        omega
      rw [if_neg Bool.false_ne_true, if_neg place, if_neg (by omega)]
      exact ⟨[], [], _, rfl, ⟨rfl, Outcome.ofResolution_eq_ok.mpr found⟩, rfl, rfl⟩

theorem packet_reads (flag : Bool) :
    Reads (if flag = true then (fun packet => [attr (.controlPacket packet)]) <$> controlPacket
        else pure []) id fun bytes attributes =>
      ∃ packet : Option ControlPacket, packet.isSome = flag ∧
        Format.controlPacket.Optional bytes packet ∧
        attributes = packet.toList.map fun packet => attr (.controlPacket packet) := by
  cases flag with
  | false =>
    refine (Reads.pure [] id).congr fun bytes attributes => ⟨?_, ?_⟩
    · rintro ⟨rfl, rfl⟩
      exact ⟨none, rfl, .absent, rfl⟩
    · rintro ⟨packet, missing, formatted, rfl⟩
      cases formatted with
      | absent => exact ⟨rfl, rfl⟩
      | present => exact nomatch missing
  | true =>
    refine (controlPacket_reads.map _ (fun packet => [attr (.controlPacket packet)])
      fun _ => rfl).congr fun bytes attributes => ⟨?_, ?_⟩
    · rintro ⟨packet, formatted, rfl⟩
      exact ⟨some packet, rfl, .present formatted, rfl⟩
    · rintro ⟨packet, given, formatted, rfl⟩
      cases formatted with
      | absent => exact nomatch given
      | present formatted => exact ⟨_, formatted, rfl⟩

/-- A state with the places it jumps to, without where the jumps stand. -/
def StateRecord.shown (record : StateRecord) : State × List Nat :=
  (record.state, record.jumps.map Jump.target)

theorem state_eq (resolvers : DecompileResolvers) (index : Nat) : state resolvers index =
    (offset >>= fun start =>
      (if index = stateLimit then fail (.nonsense .stateCount start) else pure ()) >>= fun _ =>
        header .stateHeader .u16 Layout.State.reserved >>= fun word =>
          stateTarget resolvers word start >>= fun target =>
            (if Layout.State.hasControlPacket.flag word then
              (fun packet => [attr (.controlPacket packet)]) <$> controlPacket else pure []) >>=
              fun packet => times (Layout.State.bodyCount.get word) body >>= fun bodies =>
                pure (⟨⟨target.1 ++ packet
                    ++ (if Layout.State.nonBlocking.flag word then [attr .nonBlocking] else [])
                    ++ (if Layout.State.skipFirstBody.flag word then [attr .skipFirstBody] else []),
                  stateName index, target.2, bodies.map Prod.fst, .dummy⟩,
                  bodies.filterMap Prod.snd⟩, Layout.State.hasNext.flag word)) := by
  unfold state
  simp only [ite_bind, pure_bind]

theorem stateLimit_reads (index start : Nat) :
    Reads (if index = stateLimit then fail (.nonsense .stateCount start) else pure ()) id
      fun bytes _ => bytes = [] ∧ index ≠ stateLimit := by
  refine (Reads.ite _ (fun _ => .fail _ id) fun _ => .pure () id).congr fun bytes value => ?_
  split
  · next last => exact ⟨False.elim, fun formatted => formatted.2 last⟩
  · next inside => exact ⟨fun formatted => ⟨formatted.1, inside⟩, fun formatted => ⟨formatted.1, rfl⟩⟩

/-- The end of a state: its bodies, and the state that they make with the rest. -/
theorem stateBodies_reads (index count : Nat) (attributes : List Attribute)
    (target : Option Reference) (hasNext : Bool) :
    Reads (times count body >>= fun bodies =>
        pure ((⟨⟨attributes, stateName index, target, bodies.map Prod.fst, .dummy⟩,
          bodies.filterMap Prod.snd⟩, hasNext) : StateRecord × Bool))
      (Prod.map StateRecord.shown id) fun bytes value =>
        ∃ bodies : List (StateBody × Option Nat), bodies.length = count ∧
          Format.body.Rows bytes bodies ∧
          ((⟨attributes, stateName index, target, bodies.map Prod.fst, .dummy⟩,
            bodies.filterMap Prod.snd), hasNext) = value := by
  have built (bodies : List (StateBody × Option Jump)) (images : List (StateBody × Option Nat))
      (shown : bodies.map (Prod.map id (Option.map Jump.target)) = images) :
      Reads (pure (⟨⟨attributes, stateName index, target, bodies.map Prod.fst, .dummy⟩,
          bodies.filterMap Prod.snd⟩, hasNext)) (Prod.map StateRecord.shown id) fun bytes value =>
        bytes = [] ∧ ((⟨attributes, stateName index, target, images.map Prod.fst, .dummy⟩,
          images.filterMap Prod.snd), hasNext) = value := by
    have first : images.map Prod.fst = bodies.map Prod.fst := by
      rw [← shown, List.map_map]
      rfl
    have jumps : images.filterMap Prod.snd = (bodies.filterMap Prod.snd).map Jump.target := by
      rw [← shown, List.filterMap_map, List.map_filterMap]
      rfl
    rw [first, jumps]
    exact .pure _ _
  refine ((body_reads.times count).bind built).congr fun bytes value => ⟨?_, ?_⟩
  · rintro ⟨_, _, bodies, rfl, ⟨length, rows⟩, rfl, rfl⟩
    exact ⟨bodies, length, by rwa [List.append_nil], rfl⟩
  · rintro ⟨bodies, length, rows, rfl⟩
    exact ⟨bytes, [], bodies, (List.append_nil _).symm, ⟨length, rows⟩, rfl, rfl⟩

theorem state_reads (resolvers : DecompileResolvers) (index : Nat) :
    Reads (state resolvers index) (Prod.map StateRecord.shown id)
      (Format.state resolvers index) := by
  have header : Reads (header .stateHeader .u16 Layout.State.reserved) id _ := .header rfl _ _
  rw [state_eq]
  refine (Reads.offset fun start => (stateLimit_reads index start).bindValue fun _ =>
    header.bindValue fun word => (stateTarget_reads resolvers word start).bindValue fun target =>
      (packet_reads (Layout.State.hasControlPacket.flag word)).bindValue fun packet =>
        stateBodies_reads index (Layout.State.bodyCount.get word) (target.1 ++ packet
          ++ (if Layout.State.nonBlocking.flag word then [attr .nonBlocking] else [])
          ++ (if Layout.State.skipFirstBody.flag word then [attr .skipFirstBody] else []))
          target.2 (Layout.State.hasNext.flag word)).congr fun bytes value => ⟨?_, ?_⟩
  · rintro ⟨_, _, _, rfl, ⟨rfl, inside⟩, _, _, word, rfl, ⟨small, clear, rfl⟩, _, _,
      ⟨slotAttributes, reference⟩, rfl, ⟨target, rfl, targetFormat⟩, packetBytes, _, _, rfl,
      ⟨packet, hasPacket, packetFormat, rfl⟩, bodies, count, rows, rfl⟩
    have whole : Layout.pack [(Layout.State.bodyCount, Layout.State.bodyCount.get word),
        (Layout.State.skipFirstBody, Layout.State.skipFirstBody.get word),
        (Layout.State.nonBlocking, Layout.State.nonBlocking.get word),
        (Layout.State.usesObjectSlot, Layout.State.usesObjectSlot.get word),
        (Layout.State.hasControlPacket, Layout.State.hasControlPacket.get word),
        (Layout.State.hasNext, Layout.State.hasNext.get word)] = word :=
      Layout.State.shape.pack_get small clear
    have few : bodies.length ≤ Layout.State.bodyCount.max := count ▸ Layout.Field.get_le_max _ _
    have written : Format.state resolvers index _ ((⟨slotAttributes ++ Format.stateAttributes packet
        (Layout.State.nonBlocking.flag word) (Layout.State.skipFirstBody.flag word),
        stateName index, reference, bodies.map Prod.fst, .dummy⟩, bodies.filterMap Prod.snd),
        Layout.State.hasNext.flag word) := .intro inside targetFormat packetFormat rows few
    rw [count, hasPacket, Layout.Field.toNat_flag Layout.State.skipFirstBody rfl,
      Layout.Field.toNat_flag Layout.State.nonBlocking rfl,
      Layout.Field.toNat_flag Layout.State.usesObjectSlot rfl,
      Layout.Field.toNat_flag Layout.State.hasControlPacket rfl,
      Layout.Field.toNat_flag Layout.State.hasNext rfl, whole] at written
    simp only [Format.stateAttributes, List.append_assoc] at written ⊢
    exact written
  · rintro @⟨slot, skipFirst, nonBlocking, hasNext, word, slotAttributes, reference, packet, bodies,
      packetBytes, bodyBytes, inside, targetFormat, packetFormat, rows, few⟩
    have same : [(Layout.State.bodyCount, bodies.length),
        (Layout.State.skipFirstBody, skipFirst.toNat), (Layout.State.nonBlocking, nonBlocking.toNat),
        (Layout.State.usesObjectSlot, slot.toNat),
        (Layout.State.hasControlPacket, packet.isSome.toNat),
        (Layout.State.hasNext, hasNext.toNat)].map Prod.fst = Layout.State.shape.fields := rfl
    have slotFlag := Layout.Shape.flag_pack same Layout.State.usesObjectSlot slot (by simp) (by decide)
    have packetFlag := Layout.Shape.flag_pack same Layout.State.hasControlPacket packet.isSome (by simp) (by decide)
    have skipFlag := Layout.Shape.flag_pack same Layout.State.skipFirstBody skipFirst (by simp) (by decide)
    have blockFlag := Layout.Shape.flag_pack same Layout.State.nonBlocking nonBlocking (by simp) (by decide)
    have nextFlag := Layout.Shape.flag_pack same Layout.State.hasNext hasNext (by simp) (by decide)
    have count := Layout.Shape.get_pack same List.mem_cons_self few
    rw [List.append_assoc, List.append_assoc]
    refine ⟨[], _, (), rfl, ⟨rfl, inside⟩, _, _, _, rfl,
      ⟨Layout.Shape.pack_lt same, Layout.Shape.reserved_pack same, rfl⟩, _, _,
      (slotAttributes, reference), rfl, ⟨word, rfl, ?_⟩, _, _, _, rfl,
      ⟨packet, packetFlag.symm, packetFormat, rfl⟩, bodies, count.symm, rows, ?_⟩
    · rw [slotFlag]
      exact targetFormat
    · rw [skipFlag, blockFlag, nextFlag]
      simp only [Format.stateAttributes, List.append_assoc]

end Decode

end BehaviourScript
