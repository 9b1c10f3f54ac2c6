import WidgetScript.Ast

/-! A tree without its places. Two trees that are equal when bare differ at most in where their
tokens stand. -/
namespace WidgetScript

mutual

def Expr.bare : Expr → Expr
  | .literal value _ => .literal value .none
  | .interpolated parts _ => .interpolated (Part.bareAll parts) .none
  | .ident name _ => .ident name .none
  | .symbol name _ => .symbol name .none
  | .list items _ => .list (Expr.bareAll items) .none
  | .map entries _ => .map (Entry.bareAll entries) .none
  | .call name args kwargs block _ =>
      .call name (Expr.bareAll args) (Entry.bareAll kwargs) (Block.bare? block) .none
  | .index target index _ => .index target.bare index.bare .none
  | .field target name _ => .field target.bare name .none
  | .unary op operand _ => .unary op operand.bare .none
  | .binary op lhs rhs _ => .binary op lhs.bare rhs.bare .none

def Expr.bareAll : List Expr → List Expr
  | [] => []
  | e :: es => e.bare :: Expr.bareAll es

def Part.bare : Part → Part
  | .text text => .text text
  | .hole value => .hole value.bare

def Part.bareAll : List Part → List Part
  | [] => []
  | p :: ps => p.bare :: Part.bareAll ps

def Entry.bare : Entry → Entry
  | .mk key value _ => .mk key value.bare .none

def Entry.bareAll : List Entry → List Entry
  | [] => []
  | e :: es => e.bare :: Entry.bareAll es

def Block.bare : Block → Block
  | .mk delimiter body _ => .mk delimiter (Stmt.bareAll body) .none

def Block.bare? : Option Block → Option Block
  | none => none
  | some b => some b.bare

def Stmt.bare : Stmt → Stmt
  | .expr value => .expr value.bare
  | .assign name value _ => .assign name value.bare .none
  | .define name params body _ => .define name params (Stmt.bareAll body) .none
  | .cond test yes no _ => .cond test.bare (Stmt.bareAll yes) (Stmt.bareAll no) .none

def Stmt.bareAll : List Stmt → List Stmt
  | [] => []
  | s :: ss => s.bare :: Stmt.bareAll ss

end

theorem Entry.bare_eq (e : Entry) : e.bare = .mk e.key e.value.bare .none := by
  cases e
  rfl

def Script.bare (s : Script) : Script := ⟨Stmt.bareAll s.body⟩

end WidgetScript
