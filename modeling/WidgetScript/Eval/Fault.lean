import WidgetScript.Property.Coerce
import WidgetScript.Ast

/-! Why a script that parses does not describe a user interface, or fails while it runs. -/
namespace WidgetScript

def BinaryOp.sign : BinaryOp → String
  | .add => "+"
  | .sub => "-"
  | .mul => "*"
  | .div => "/"
  | .eq => "=="
  | .notEq => "!="
  | .lt => "<"
  | .le => "<="
  | .gt => ">"
  | .ge => ">="
  | .and => "and"
  | .or => "or"

inductive TypeFault where
  | cannotNegate (type : String)
  | divisionByZero
  | cannotApply (op : BinaryOp) (left right : String)
  | cannotIndex (target index : String)
  | noField (type name : String)
  | widgetKindRedefined (name : String)
  | expects (name expected got : String)
  | expectsPairs
  | channelsOutOfRange (name : String)
  | notColor (text : String)
deriving DecidableEq, Repr

def TypeFault.message : TypeFault → String
  | .cannotNegate type => "cannot negate " ++ type
  | .divisionByZero => "division by zero"
  | .cannotApply op left right =>
      "cannot apply `" ++ op.sign ++ "` to " ++ left ++ " and " ++ right
  | .cannotIndex target index => "cannot index " ++ target ++ " with " ++ index
  | .noField type name => type ++ " has no field `" ++ name ++ "`"
  | .widgetKindRedefined name => "`" ++ name ++ "` is a widget kind and cannot be redefined"
  | .expects name expected got => "`" ++ name ++ "` expects " ++ expected ++ ", got " ++ got
  | .expectsPairs => "`points` expects a list of [x, y] pairs"
  | .channelsOutOfRange name => "`" ++ name ++ "` channels out of range"
  | .notColor s => "`" ++ s ++ "` is not a color"

inductive SemanticFault where
  | unknownCall (name : String)
  | missingId (kind : Kind)
  | invalidId (kind : Kind)
  | duplicateId (id : String) (first : Position)
  | malformedProperty (key : String) (misfit : Misfit)
  | misplacedWindow (id : String)
  | notAWindow (kind : Kind) (id : String)
  | leafWithChildren (kind : Kind) (id : String)
  | positionalArgs (kind : Kind)
  | keywordArgs (name : String)
  | unexpectedBlock (name : String)
  | nestedDef (name : String)
  | arity (name : String) (expected got : Nat)
  | type (fault : TypeFault)
  | recursionLimit (name : String) (limit : Nat)
  | tooDeep (limit : Nat)

def SemanticFault.message : SemanticFault → String
  | .unknownCall name => "unknown widget kind or function `" ++ name ++ "`"
  | .missingId kind => "`" ++ kind.name ++ "` is missing an `id`"
  | .invalidId kind => "`" ++ kind.name ++ "` id must be a non-empty string"
  | .duplicateId id first =>
      "duplicate id `" ++ id ++ "` (first declared at " ++ first.text ++ ")"
  | .malformedProperty key misfit =>
      "malformed property `" ++ key ++ "`: " ++ misfit.message
  | .misplacedWindow id => "window `" ++ id ++ "` must be declared at the top level"
  | .notAWindow kind id =>
      "top-level `" ++ kind.name ++ "` `" ++ id ++ "` must be inside a window"
  | .leafWithChildren kind id => "`" ++ kind.name ++ "` `" ++ id ++ "` cannot have children"
  | .positionalArgs kind => "`" ++ kind.name ++ "` takes keyword arguments only"
  | .keywordArgs name => "`" ++ name ++ "` takes positional arguments only"
  | .unexpectedBlock name => "`" ++ name ++ "` does not take a block"
  | .nestedDef name => "`def " ++ name ++ "` is only allowed at the top level"
  | .arity name expected got =>
      "`" ++ name ++ "` expects " ++ toString expected ++ " argument(s), got " ++ toString got
  | .type fault => fault.message
  | .recursionLimit name limit =>
      "call depth limit (" ++ toString limit ++ ") exceeded in `" ++ name ++ "`"
  | .tooDeep limit => "widgets nested deeper than " ++ toString limit ++ " levels"

structure SemanticError where
  fault : SemanticFault
  pos : Position

def SemanticError.message (e : SemanticError) : String := e.pos.text ++ ": " ++ e.fault.message

end WidgetScript
