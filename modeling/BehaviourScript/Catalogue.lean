/-
This file holds the names of the engine's commands and conditions, of the
settings of a control packet and of the fields of an assigner. Commands and
conditions are known to the engine by a 16-bit ID. The well-known ones have
names of their own; any other is spelled by its number, such as `Command_700`.
-/

import BehaviourScript.Token

namespace BehaviourScript

/-- A family of IDs: the names of the first of them, in order, and the word
that the number of any other follows. -/
structure Catalogue where
  names : List String
  generic : String

namespace Catalogue

/-- The number in a generic spelling, such as 700 in `Command_700`. -/
def genericId? (catalogue : Catalogue) (name : String) : Option Nat :=
  if catalogue.generic.toList.isPrefixOf name.toList then
    Numeral.readBelow? 10 65536 (name.toList.drop catalogue.generic.length)
  else none

/-- The ID that a name stands for. -/
def id? (catalogue : Catalogue) (name : String) : Option UInt16 :=
  match catalogue.names.idxOf? name with
  | some index => some (UInt16.ofNat index)
  | none => (catalogue.genericId? name).map UInt16.ofNat

/-- The canonical name of an ID. -/
def name (catalogue : Catalogue) (id : UInt16) : String :=
  match catalogue.names[id.toNat]? with
  | some known => known
  | none => catalogue.generic ++ toString id.toNat

/-- The commands. -/
def commands : Catalogue where
  names := ["Wait", "PlaySound", "StopSound", "SetSpeed", "SetAnimation", "SpawnObject",
    "DestroySelf", "SetHealth", "Damage", "FaceTarget", "Jump", "SetVisibility", "SetCollision",
    "EmitParticles", "SetFlag", "SendMessage", "GiveItem", "SetTimer", "ShakeCamera", "Teleport"]
  generic := "Command_"

/-- The conditions. -/
def conditions : Catalogue where
  names := ["Always", "IsOnGround", "TimerExpired", "PlayerNear", "HealthBelow",
    "AnimationFinished", "FlagSet", "Random", "HitWall", "IsFalling", "TargetVisible",
    "MessageReceived"]
  generic := "Condition_"

/-- The settings of a control packet. A setting's place is its bit in the
packet's mask. -/
def settings : List String :=
  ["space", "motion", "accel_fn", "axes", "rot_space", "rot_motion", "rot_axes", "turn_rate",
    "speed_scale", "anim_blend", "gravity", "friction", "bounce", "align", "target_kind", "flags"]

/-- The bit of a control packet setting. -/
def settingBit? (name : String) : Option Nat := settings.idxOf? name

/-- The fields of an assigner. A field's place is its nibble. -/
def assignerFields : List String := ["type", "locality", "status", "preference"]

end Catalogue

end BehaviourScript
