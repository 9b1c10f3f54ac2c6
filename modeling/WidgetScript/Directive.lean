import WidgetScript.Value

/-! A directive is a change that a handler asks for: an action on a target widget, with a
value that says what is to become of it. -/
namespace WidgetScript

/-- What a directive may set on its target; `style` and `property` set any keys. -/
inductive Setter where
  | text | value | visible | image | position | size | style | property
deriving DecidableEq, Repr

inductive Action where
  | set (setter : Setter)
  | appendChild
  | removeChild
  | replace
deriving DecidableEq, Repr

namespace Action

def all : List Action :=
  [.set .text, .set .value, .set .visible, .set .image, .set .position, .set .size, .set .style,
    .set .property, .appendChild, .removeChild, .replace]

def name : Action → String
  | .set .text => "setText"
  | .set .value => "setValue"
  | .set .visible => "setVisible"
  | .set .image => "setImage"
  | .set .position => "setPosition"
  | .set .size => "setSize"
  | .set .style => "setStyle"
  | .set .property => "setProperty"
  | .appendChild => "appendChild"
  | .removeChild => "removeChild"
  | .replace => "replace"

def ofName? (name : String) : Option Action := all.find? (·.name == name)

end Action

structure Directive where
  target : String
  action : Action
  value : Value

end WidgetScript
