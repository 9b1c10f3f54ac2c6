import WidgetScript.Ast

/-! All that a tree is made of. Each node has a token of its own, at the place of which it
stands. -/
namespace WidgetScript

/-- What has a place in a tree. A statement that is an expression has only that of the
expression. -/
inductive Node where
  | expr (e : Expr)
  | entry (e : Entry)
  | block (b : Block)
  | stmt (s : Stmt)

def Node.pos : Node → Position
  | .expr e => e.pos
  | .entry (.mk _ _ pos) => pos
  | .block (.mk _ _ pos) => pos
  | .stmt (.expr e) => e.pos
  | .stmt (.assign _ _ pos) => pos
  | .stmt (.define _ _ _ pos) => pos
  | .stmt (.cond _ _ _ pos) => pos

mutual

def Expr.nodes : Expr → List Node
  | .literal value pos => [.expr (.literal value pos)]
  | .interpolated parts pos => .expr (.interpolated parts pos) :: Part.nodesAll parts
  | .ident name pos => [.expr (.ident name pos)]
  | .symbol name pos => [.expr (.symbol name pos)]
  | .list items pos => .expr (.list items pos) :: Expr.nodesAll items
  | .map entries pos => .expr (.map entries pos) :: Entry.nodesAll entries
  | .call name args kwargs block pos =>
      .expr (.call name args kwargs block pos) ::
        (Expr.nodesAll args ++ Entry.nodesAll kwargs ++ Block.nodes? block)
  | .index target index pos => .expr (.index target index pos) :: (target.nodes ++ index.nodes)
  | .field target name pos => .expr (.field target name pos) :: target.nodes
  | .unary op operand pos => .expr (.unary op operand pos) :: operand.nodes
  | .binary op lhs rhs pos => .expr (.binary op lhs rhs pos) :: (lhs.nodes ++ rhs.nodes)

def Expr.nodesAll : List Expr → List Node
  | [] => []
  | e :: es => e.nodes ++ Expr.nodesAll es

def Part.nodes : Part → List Node
  | .text _ => []
  | .hole value => value.nodes

def Part.nodesAll : List Part → List Node
  | [] => []
  | p :: ps => p.nodes ++ Part.nodesAll ps

def Entry.nodes : Entry → List Node
  | .mk key value pos => .entry (.mk key value pos) :: value.nodes

def Entry.nodesAll : List Entry → List Node
  | [] => []
  | e :: es => e.nodes ++ Entry.nodesAll es

def Block.nodes : Block → List Node
  | .mk delimiter body pos => .block (.mk delimiter body pos) :: Stmt.nodesAll body

def Block.nodes? : Option Block → List Node
  | none => []
  | some b => b.nodes

def Stmt.nodes : Stmt → List Node
  | .expr value => value.nodes
  | .assign name value pos => .stmt (.assign name value pos) :: value.nodes
  | .define name params body pos => .stmt (.define name params body pos) :: Stmt.nodesAll body
  | .cond test yes no pos =>
      .stmt (.cond test yes no pos) :: (test.nodes ++ Stmt.nodesAll yes ++ Stmt.nodesAll no)

def Stmt.nodesAll : List Stmt → List Node
  | [] => []
  | s :: ss => s.nodes ++ Stmt.nodesAll ss

end

def Script.nodes (s : Script) : List Node := Stmt.nodesAll s.body

def Script.places (s : Script) : List Position := s.nodes.map Node.pos

end WidgetScript
