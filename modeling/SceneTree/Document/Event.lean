/-!
# Events

What can happen to an element. A byte without a meaning is no event, so a
record may carry triggers that nothing ever fires.
-/

namespace SceneTree

inductive Event where
  | click | press | release | hover | focus | blur | change | submit
deriving DecidableEq

namespace Event

def ofByte? : UInt8 → Option Event
  | 0x01 => some .click
  | 0x02 => some .press
  | 0x03 => some .release
  | 0x04 => some .hover
  | 0x05 => some .focus
  | 0x06 => some .blur
  | 0x07 => some .change
  | 0x08 => some .submit
  | _ => none

def toByte : Event → UInt8
  | .click => 0x01
  | .press => 0x02
  | .release => 0x03
  | .hover => 0x04
  | .focus => 0x05
  | .blur => 0x06
  | .change => 0x07
  | .submit => 0x08

theorem ofByte?_toByte (e : Event) : ofByte? e.toByte = some e := by
  cases e <;> rfl

def name : Event → String
  | .click => "Click"
  | .press => "Press"
  | .release => "Release"
  | .hover => "Hover"
  | .focus => "Focus"
  | .blur => "Blur"
  | .change => "Change"
  | .submit => "Submit"

end Event

end SceneTree
