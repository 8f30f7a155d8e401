/-
This file says which attributes may stand where, and what can be wrong with a
script that has the right form.
-/

import BehaviourScript.Quantity
import BehaviourScript.Script

namespace BehaviourScript

/-- What an attribute list belongs to. -/
inductive Placement where
  | library | behaviour | libraryBehaviour | sequence | state
  deriving DecidableEq

namespace Placement

/-- The name of a place in messages. -/
def text : Placement → String
  | library => "library"
  | behaviour => "behaviour"
  | libraryBehaviour => "library behaviour"
  | sequence => "sequence"
  | state => "state"

/-- The places that an attribute may have. -/
def forKind : Attribute.Kind → List Placement
  | .priority _ => [behaviour, libraryBehaviour]
  | .startFrom _ => [behaviour, libraryBehaviour]
  | .globalIndex _ => [libraryBehaviour, sequence]
  | .instanceType _ => [sequence]
  | .unknown _ => [library, behaviour, libraryBehaviour, sequence]
  | .useObjectSlot _ => [state]
  | .controlPacket _ => [state]
  | .nonBlocking => [state]
  | .skipFirstBody => [state]

/-- Whether an attribute may stand at a place. -/
def allows (placement : Placement) (kind : Attribute.Kind) : Bool :=
  (forKind kind).contains placement

end Placement

/-- Why a script has no meaning, or none that the binary can hold. -/
inductive SemanticError where
  | duplicateConst (name : String) (position : Position)
  | undefinedConst (name : String) (position : Position)
  | cyclicConst (names : List String)
  | arithmeticOverflow (position : Position)
  | misplacedAttribute (name : String) (placement : Placement) (position : Position)
  | duplicateAttribute (name : String) (position : Position)
  | duplicateState (name : String) (position : Position)
  | duplicateBehaviour (name : String) (position : Position)
  | duplicateGraphId (id : Int) (name first : String) (position : Position)
  | undefinedState (name : String) (position : Position)
  | conflictingStateTarget (state : String) (position : Position)
  | unknownSetting (name : String) (position : Position)
  | duplicateSetting (name : String) (position : Position)
  | unknownAssignerField (name : String) (position : Position)
  | outOfRange (quantity : Quantity) (value : Int)
  deriving DecidableEq

namespace SemanticError

/-- The wording of an error. -/
def message : SemanticError → String
  | duplicateConst name position => position.text ++ ": const `" ++ name ++ "` is declared twice"
  | undefinedConst name position => position.text ++ ": undefined const `" ++ name ++ "`"
  | cyclicConst names => "cyclic const declarations: " ++ String.intercalate ", " names
  | arithmeticOverflow position => position.text ++ ": arithmetic overflow"
  | misplacedAttribute name placement position =>
    position.text ++ ": attribute `" ++ name ++ "` is not allowed on a " ++ placement.text
  | duplicateAttribute name position =>
    position.text ++ ": attribute `" ++ name ++ "` is given twice"
  | duplicateState name position => position.text ++ ": state `" ++ name ++ "` is declared twice"
  | duplicateBehaviour name position =>
    position.text ++ ": behaviour `" ++ name ++ "` is declared twice"
  | duplicateGraphId id name first position =>
    position.text ++ ": behaviour `" ++ name ++ "` reuses graph id " ++ toString id ++ " of `"
      ++ first ++ "`"
  | undefinedState name position => position.text ++ ": no state named `" ++ name ++ "`"
  | conflictingStateTarget state position =>
    position.text ++ ": state `" ++ state ++ "` has both a graph reference and `UseObjectSlot`"
  | unknownSetting name position =>
    position.text ++ ": unknown control packet setting `" ++ name ++ "`"
  | duplicateSetting name position =>
    position.text ++ ": control packet setting `" ++ name ++ "` is given twice"
  | unknownAssignerField name position =>
    position.text ++ ": unknown or repeated assigner field `" ++ name ++ "`"
  | outOfRange quantity value =>
    quantity.text ++ " is " ++ toString value ++ ", outside " ++ toString quantity.min ++ "..="
      ++ toString quantity.max

end SemanticError

end BehaviourScript
