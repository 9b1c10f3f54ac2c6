import WidgetScript.Ast
import WidgetScript.Token

/-! The tokens of a tree. Statements stand on lines of their own, a call carries its named
arguments behind the others, and parentheses stand only where an operand binds weaker than
its place asks for. A string with placeholders has no spelling here, because its token holds
the source of the placeholders. -/
namespace WidgetScript

def Literal.token : Literal → Token
  | .str text => .str [.text text]
  | .number value => .number value
  | .bool true => .trueKw
  | .bool false => .falseKw
  | .nil => .nilKw

def UnaryOp.token : UnaryOp → Token
  | .neg => .minus
  | .not => .notKw

def BinaryOp.token : BinaryOp → Token
  | .add => .plus
  | .sub => .minus
  | .mul => .star
  | .div => .slash
  | .eq => .eqEq
  | .notEq => .notEq
  | .lt => .lt
  | .le => .le
  | .gt => .gt
  | .ge => .ge
  | .and => .andKw
  | .or => .orKw

def BinaryOp.prec : BinaryOp → Nat
  | .or => 1
  | .and => 2
  | .eq | .notEq => 3
  | .lt | .le | .gt | .ge => 4
  | .add | .sub => 5
  | .mul | .div => 6

/-- Above the infix operators stand the prefix ones, and above these what needs no operator. -/
def Expr.prec : Expr → Nat
  | .binary op _ _ _ => op.prec
  | .unary _ _ _ => 7
  | _ => 8

def Delimiter.opener : Delimiter → Token
  | .doEnd => .doKw
  | .braces => .lbrace

def Delimiter.closer : Delimiter → Token
  | .doEnd => .endKw
  | .braces => .rbrace

def enclose (min prec : Nat) (ts : List Token) : List Token :=
  if prec < min then .lparen :: (ts ++ [.rparen]) else ts

def commas : List (List Token) → List Token := [Token.comma].intercalate

def lines : List (List Token) → List Token := [Token.newline].intercalate

mutual

def Expr.tokens : Expr → List Token
  | .literal value _ => [value.token]
  | .interpolated _ _ => []
  | .ident name _ => [.ident name]
  | .symbol name _ => [.symbol name]
  | .list items _ => .lbracket :: (commas (Expr.tokensEach items) ++ [.rbracket])
  | .map entries _ => .lbrace :: (commas (Entry.tokensEach entries) ++ [.rbrace])
  | .call name args kwargs block _ =>
      .ident name :: .lparen ::
        (commas (Expr.tokensEach args ++ Entry.tokensEach kwargs) ++ .rparen :: Block.tokens? block)
  | .index target index _ =>
      enclose 8 target.prec target.tokens ++ .lbracket :: (index.tokens ++ [.rbracket])
  | .field target name _ => enclose 8 target.prec target.tokens ++ [.dot, .ident name]
  | .unary op operand _ => op.token :: enclose 7 operand.prec operand.tokens
  | .binary op lhs rhs _ =>
      enclose op.prec lhs.prec lhs.tokens ++ op.token :: enclose (op.prec + 1) rhs.prec rhs.tokens

def Expr.tokensEach : List Expr → List (List Token)
  | [] => []
  | e :: es => e.tokens :: Expr.tokensEach es

def Entry.tokens : Entry → List Token
  | .mk key value _ => .ident key :: .colon :: value.tokens

def Entry.tokensEach : List Entry → List (List Token)
  | [] => []
  | e :: es => e.tokens :: Entry.tokensEach es

def Block.tokens : Block → List Token
  | .mk delimiter body _ =>
      delimiter.opener :: .newline ::
        (lines (Stmt.tokensEach body) ++ [.newline, delimiter.closer])

def Block.tokens? : Option Block → List Token
  | none => []
  | some b => b.tokens

/-- A conditional spells its second branch only if there is something in it. -/
def Stmt.tokens : Stmt → List Token
  | .expr value => value.tokens
  | .assign name value _ => .ident name :: .assign :: value.tokens
  | .define name params body _ =>
      .defKw :: .ident name :: .lparen :: (commas (params.map ([.ident ·])) ++ .rparen ::
        .newline :: (lines (Stmt.tokensEach body) ++ [.newline, .endKw]))
  | .cond test yes [] _ =>
      .ifKw :: (test.tokens ++ .newline :: (lines (Stmt.tokensEach yes) ++ [.newline, .endKw]))
  | .cond test yes (s :: no) _ =>
      .ifKw :: (test.tokens ++ .newline :: (lines (Stmt.tokensEach yes) ++ .newline :: .elseKw ::
        .newline :: (lines (s.tokens :: Stmt.tokensEach no) ++ [.newline, .endKw])))

def Stmt.tokensEach : List Stmt → List (List Token)
  | [] => []
  | s :: ss => s.tokens :: Stmt.tokensEach ss

end

def Script.tokens (s : Script) : List Token := lines (Stmt.tokensEach s.body)

def levelsEnclosed (min prec levels : Nat) : Nat := if prec < min then levels + 1 else levels

mutual

/-- How many bodies, expressions and operands of prefix operators stand within one another
inside the expression. The operands of infix operators are on its own level. -/
def Expr.levels : Expr → Nat
  | .literal _ _ | .interpolated _ _ | .ident _ _ | .symbol _ _ => 0
  | .list items _ => Expr.levelsAll items
  | .map entries _ => Entry.levelsAll entries
  | .call _ args kwargs block _ =>
      max (max (Expr.levelsAll args) (Entry.levelsAll kwargs)) (Block.levels? block)
  | .index target index _ => max (levelsEnclosed 8 target.prec target.levels) (index.levels + 1)
  | .field target _ _ => levelsEnclosed 8 target.prec target.levels
  | .unary _ operand _ => levelsEnclosed 7 operand.prec operand.levels + 1
  | .binary op lhs rhs _ =>
      max (levelsEnclosed op.prec lhs.prec lhs.levels)
        (levelsEnclosed (op.prec + 1) rhs.prec rhs.levels)

def Expr.levelsAll : List Expr → Nat
  | [] => 0
  | e :: es => max (e.levels + 1) (Expr.levelsAll es)

def Entry.levels : Entry → Nat
  | .mk _ value _ => value.levels + 1

def Entry.levelsAll : List Entry → Nat
  | [] => 0
  | e :: es => max e.levels (Entry.levelsAll es)

def Block.levels : Block → Nat
  | .mk _ body _ => Stmt.levelsAll body + 1

def Block.levels? : Option Block → Nat
  | none => 0
  | some b => b.levels

def Stmt.levels : Stmt → Nat
  | .expr value | .assign _ value _ => value.levels + 1
  | .define _ _ body _ => Stmt.levelsAll body + 1
  | .cond test yes no _ => max (test.levels + 1) (max (Stmt.levelsAll yes) (Stmt.levelsAll no) + 1)

def Stmt.levelsAll : List Stmt → Nat
  | [] => 0
  | s :: ss => max s.levels (Stmt.levelsAll ss)

end

def Script.levels (s : Script) : Nat := Stmt.levelsAll s.body + 1

mutual

/-- No string has placeholders, and no two parameters of a function, named arguments of a
call or entries of a map share a name. -/
def Expr.Plain : Expr → Prop
  | .literal _ _ | .ident _ _ | .symbol _ _ => True
  | .interpolated _ _ => False
  | .list items _ => Expr.PlainAll items
  | .map entries _ => (entries.map Entry.key).Nodup ∧ Entry.PlainAll entries
  | .call _ args kwargs block _ =>
      Expr.PlainAll args ∧ ((kwargs.map Entry.key).Nodup ∧ Entry.PlainAll kwargs) ∧
        Block.Plain? block
  | .index target index _ => target.Plain ∧ index.Plain
  | .field target _ _ => target.Plain
  | .unary _ operand _ => operand.Plain
  | .binary _ lhs rhs _ => lhs.Plain ∧ rhs.Plain

def Expr.PlainAll : List Expr → Prop
  | [] => True
  | e :: es => e.Plain ∧ Expr.PlainAll es

def Entry.Plain : Entry → Prop
  | .mk _ value _ => value.Plain

def Entry.PlainAll : List Entry → Prop
  | [] => True
  | e :: es => e.Plain ∧ Entry.PlainAll es

def Block.Plain : Block → Prop
  | .mk _ body _ => Stmt.PlainAll body

def Block.Plain? : Option Block → Prop
  | none => True
  | some b => b.Plain

def Stmt.Plain : Stmt → Prop
  | .expr value | .assign _ value _ => value.Plain
  | .define _ params body _ => params.Nodup ∧ Stmt.PlainAll body
  | .cond test yes no _ => test.Plain ∧ Stmt.PlainAll yes ∧ Stmt.PlainAll no

def Stmt.PlainAll : List Stmt → Prop
  | [] => True
  | s :: ss => s.Plain ∧ Stmt.PlainAll ss

end

def Script.Plain (s : Script) : Prop := Stmt.PlainAll s.body

end WidgetScript
