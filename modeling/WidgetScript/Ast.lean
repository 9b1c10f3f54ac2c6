import WidgetScript.Text.Position

/-! The tree of a script. Expressions, statements and blocks are one family of types,
because a call may carry a block of statements. Keyword arguments and the entries of a
map literal have one form, a key with its place and a value. -/
namespace WidgetScript

inductive Literal where
  | str (text : String)
  | number (value : Float)
  | bool (value : Bool)
  | nil
deriving DecidableEq, Repr

inductive UnaryOp where
  | neg
  | not
deriving DecidableEq, Repr

inductive BinaryOp where
  | add | sub | mul | div
  | eq | notEq
  | lt | le | gt | ge
  | and | or
deriving DecidableEq, Repr

inductive Delimiter where
  | doEnd
  | braces
deriving DecidableEq, Repr

mutual

/-- A bare name is a variable if one is bound, otherwise a symbol. -/
inductive Expr where
  | literal (value : Literal) (pos : Position)
  | interpolated (parts : List Part) (pos : Position)
  | ident (name : String) (pos : Position)
  | symbol (name : String) (pos : Position)
  | list (items : List Expr) (pos : Position)
  | map (entries : List Entry) (pos : Position)
  | call (name : String) (args : List Expr) (kwargs : List Entry) (block : Option Block)
      (pos : Position)
  | index (target index : Expr) (pos : Position)
  | field (target : Expr) (name : String) (pos : Position)
  | unary (op : UnaryOp) (operand : Expr) (pos : Position)
  | binary (op : BinaryOp) (lhs rhs : Expr) (pos : Position)

inductive Part where
  | text (text : String)
  | hole (value : Expr)

inductive Entry where
  | mk (key : String) (value : Expr) (pos : Position)

inductive Block where
  | mk (delimiter : Delimiter) (body : List Stmt) (pos : Position)

inductive Stmt where
  | expr (value : Expr)
  | assign (name : String) (value : Expr) (pos : Position)
  | define (name : String) (params : List String) (body : List Stmt) (pos : Position)
  | cond (test : Expr) (yes no : List Stmt) (pos : Position)

end

def Entry.key : Entry → String
  | .mk key _ _ => key

def Entry.value : Entry → Expr
  | .mk _ value _ => value

/-- The place of the token that starts the node; for an operator, of the operator. -/
def Expr.pos : Expr → Position
  | .literal _ p | .interpolated _ p | .ident _ p | .symbol _ p | .list _ p | .map _ p => p
  | .call _ _ _ _ p | .index _ _ p | .field _ _ p | .unary _ _ p | .binary _ _ _ p => p

structure Script where
  body : List Stmt

end WidgetScript
