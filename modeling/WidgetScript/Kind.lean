/-! The kinds of widget are fixed. Containers hold children and leaves hold none. -/
namespace WidgetScript

inductive Kind where
  | window | row | column | stack | list | grid | scrollView
  | button | text | input | image | svg | canvas | viewport3d
deriving DecidableEq, Repr

namespace Kind

def all : List Kind :=
  [.window, .row, .column, .stack, .list, .grid, .scrollView,
    .button, .text, .input, .image, .svg, .canvas, .viewport3d]

def name : Kind → String
  | .window => "window"
  | .row => "row"
  | .column => "column"
  | .stack => "stack"
  | .list => "list"
  | .grid => "grid"
  | .scrollView => "scrollview"
  | .button => "button"
  | .text => "text"
  | .input => "input"
  | .image => "image"
  | .svg => "svg"
  | .canvas => "canvas"
  | .viewport3d => "viewport3d"

def ofName? (name : String) : Option Kind := all.find? (·.name == name)

def isContainer : Kind → Bool
  | .window | .row | .column | .stack | .list | .grid | .scrollView => true
  | _ => false

end Kind
end WidgetScript
