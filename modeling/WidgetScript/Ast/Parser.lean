import WidgetScript.Ast
import WidgetScript.Token.Lexer

/-! From tokens to the tree. What may nest — a body, an expression, an operand of a
prefix operator — is parsed level by level: the parsers of one level are built from those
of the level inside it, and inside the last level there is only the fault that says so.
Within a level every loop takes at least one token a round. -/
namespace WidgetScript

/-- The tokens ahead, and the place that stands for what comes after them. -/
structure TokenStream where
  rest : List Lexeme
  finish : Position
deriving Repr

namespace TokenStream

def ofList (tokens : List Lexeme) : TokenStream :=
  ⟨tokens, (tokens.getLast?.map Lexeme.pos).getD .start⟩

/-- Past its end a stream goes on with the end of input. -/
def peek (s : TokenStream) : Token := (s.rest.head?.map Lexeme.token).getD .eof

def second (s : TokenStream) : Token := (s.rest.tail.head?.map Lexeme.token).getD .eof

def pos (s : TokenStream) : Position := (s.rest.head?.map Lexeme.pos).getD s.finish

def advance (s : TokenStream) : TokenStream := { s with rest := s.rest.tail }

def skipNewlines (s : TokenStream) : TokenStream :=
  { s with rest := s.rest.dropWhile (·.token = .newline) }

end TokenStream

abbrev Parse := StateT TokenStream (Except SyntaxError)

namespace Parse

def peek : Parse Token := return (← get).peek

def pos : Parse Position := return (← get).pos

def advance : Parse Unit := modify TokenStream.advance

def skipNewlines : Parse Unit := modify TokenStream.skipNewlines

/-- A budget for a loop that takes a token each round: one round for each token ahead, and
one to see that there is none. Only its length counts. -/
def rounds : Parse (List Lexeme) := return ⟨.eof, (← get).finish⟩ :: (← get).rest

def fail {α : Type} (fault : SyntaxFault) : Parse α := fun s =>
  .error ⟨fault, s.pos, some s.peek.describe⟩

def failAt {α : Type} (fault : SyntaxFault) (pos : Position) (token : Token) : Parse α := fun _ =>
  .error ⟨fault, pos, some token.describe⟩

def expect (token : Token) : Parse Unit := do
  if (← peek) = token then advance else fail (.expected token)

def ident : Parse String := do
  match ← peek with
  | .ident name => advance; pure name
  | _ => fail .expectedIdentifier

def separator (close : Token) (fault : SyntaxFault) : Parse Unit := do
  match ← peek with
  | .comma => advance
  | token => if token = close then pure () else fail fault

end Parse

/-- Levels of bodies, expressions and prefix operators within one another, at most.
A widget with a block takes two, one for the call and one for its body. -/
def maxNesting : Nat := 64

namespace Parser
open Parse

structure Level where
  expr : Parse Expr
  body : Closer → Parse (List Stmt)
  unary : Parse Expr

/-- Inside the last level nothing may start. -/
def Level.last : Level where
  expr := fail (.tooDeep maxNesting)
  body _ := fail (.tooDeep maxNesting)
  unary := fail (.tooDeep maxNesting)

section
variable (inner : Level)

def hole (source : String) (pos : Position) : Except SyntaxError Expr := do
  let tokens ← Lexer.tokenizeAt source pos
  let s := (TokenStream.ofList tokens).skipNewlines
  if s.peek = .eof then .error ⟨.emptyPlaceholder, pos, none⟩
  let (value, s) ← inner.expr s
  let s := s.skipNewlines
  if s.peek = .eof then .ok value
  else .error ⟨.trailingInPlaceholder, s.pos, some s.peek.describe⟩

def parts : List Segment → Except SyntaxError (List Part)
  | [] => .ok []
  | .text t :: segments => do
      let ps ← parts segments
      .ok (.text t :: ps)
  | .placeholder source pos :: segments => do
      let value ← hole inner source pos
      let ps ← parts segments
      .ok (.hole value :: ps)

def plainText? : List Segment → Option String
  | [] => some ""
  | .text t :: segments => (plainText? segments).map (t ++ ·)
  | .placeholder _ _ :: _ => none

def string (segments : List Segment) (pos : Position) : Parse Expr := fun s =>
  match plainText? segments with
  | some text => .ok (.literal (.str text) pos, s)
  | none => do
      let ps ← parts inner segments
      .ok (.interpolated ps pos, s)

def items : (budget : List Lexeme) → Parse (List Expr)
  | [] => fail .unclosedList
  | _ :: budget => do
      skipNewlines
      if (← peek) = .rbracket then pure []
      else
        let item ← inner.expr
        skipNewlines
        separator .rbracket .unclosedList
        let rest ← items budget
        pure (item :: rest)

def list (pos : Position) : Parse Expr := do
  let xs ← items inner (← rounds)
  advance
  pure (.list xs pos)

/-- The key of a map entry is a name or a string without placeholders. -/
def mapKey : Parse String := do
  let p ← pos
  let token ← peek
  advance
  match token with
  | .ident key => pure key
  | .str [.text key] => pure key
  | .str _ => failAt .placeholderInKey p token
  | _ => failAt .expectedMapKey p token

/-- The entries of a map up to its brace; `seen` holds the keys before them. -/
def entries : (budget : List Lexeme) → (seen : List String) → Parse (List Entry)
  | [], _ => fail .unclosedMap
  | _ :: budget, seen => do
      skipNewlines
      if (← peek) = .rbrace then pure []
      else
        let p ← pos
        let key ← mapKey
        if key ∈ seen then failAt (.duplicateKey key) p (.ident key)
        else
          expect .colon
          skipNewlines
          let value ← inner.expr
          skipNewlines
          separator .rbrace .unclosedMap
          let rest ← entries budget (key :: seen)
          pure (.mk key value p :: rest)

def map (pos : Position) : Parse Expr := do
  let es ← entries inner (← rounds) []
  advance
  pure (.map es pos)

def block : Parse Block := do
  let p ← pos
  match ← peek with
  | .doKw =>
      advance
      let body ← inner.body (.ofDo p)
      expect .endKw
      pure (.mk .doEnd body p)
  | _ =>
      advance
      let body ← inner.body (.ofBrace p)
      expect .rbrace
      pure (.mk .braces body p)

/-- An argument is positional or has a key; the two kinds may come in any order. -/
inductive Argument where
  | positional (value : Expr)
  | keyword (entry : Entry)

def Argument.positional? : Argument → Option Expr
  | .positional value => some value
  | .keyword _ => none

def Argument.keyword? : Argument → Option Entry
  | .positional _ => none
  | .keyword entry => some entry

def arguments (name : String) :
    (budget : List Lexeme) → (seen : List String) → Parse (List Argument)
  | [], _ => fail (.unclosedCall name)
  | _ :: budget, seen => do
      skipNewlines
      let s ← get
      match s.peek, s.second with
      | .rparen, _ => pure []
      | .ident key, .colon =>
          if key ∈ seen then failAt (.duplicateArgument key name) s.pos (.ident key)
          else
            advance
            advance
            skipNewlines
            let value ← inner.expr
            skipNewlines
            separator .rparen (.unclosedCall name)
            let rest ← arguments name budget (key :: seen)
            pure (.keyword (.mk key value s.pos) :: rest)
      | _, _ =>
          let value ← inner.expr
          skipNewlines
          separator .rparen (.unclosedCall name)
          let rest ← arguments name budget seen
          pure (.positional value :: rest)

def call (name : String) (pos : Position) : Parse Expr := do
  advance
  let arguments ← arguments inner name (← rounds) []
  advance
  let blk ← match ← peek with
    | .doKw | .lbrace => some <$> block inner
    | _ => pure none
  pure (.call name (arguments.filterMap (·.positional?)) (arguments.filterMap (·.keyword?)) blk pos)

/-- A value without operators. A name directly before `do` is a call without arguments. -/
def primary : Parse Expr := do
  let p ← pos
  let token ← peek
  advance
  match token with
  | .number x => pure (.literal (.number x) p)
  | .trueKw => pure (.literal (.bool true) p)
  | .falseKw => pure (.literal (.bool false) p)
  | .nilKw => pure (.literal .nil p)
  | .symbol name => pure (.symbol name p)
  | .str segments => string inner segments p
  | .ident name =>
      match ← peek with
      | .lparen => call inner name p
      | .doKw => do
          let b ← block inner
          pure (.call name [] [] (some b) p)
      | _ => pure (.ident name p)
  | .lbracket => list inner p
  | .lbrace => map inner p
  | .lparen => do
      skipNewlines
      let value ← inner.expr
      skipNewlines
      expect .rparen
      pure value
  | token => failAt .expectedValue p token

def accesses : (budget : List Lexeme) → Expr → Parse Expr
  | [], target => pure target
  | _ :: budget, target => do
      let p ← pos
      match ← peek with
      | .lbracket =>
          advance
          skipNewlines
          let index ← inner.expr
          skipNewlines
          expect .rbracket
          accesses budget (.index target index p)
      | .dot =>
          advance
          let name ← ident
          accesses budget (.field target name p)
      | _ => pure target

def postfixed : Parse Expr := do
  let target ← primary inner
  accesses inner (← rounds) target

def prefixOp? : Token → Option UnaryOp
  | .minus => some .neg
  | .bang => some .not
  | .notKw => some .not
  | _ => none

/-- A prefix operator takes a nesting level, so its operand is of the inner one. -/
def unary : Parse Expr := do
  let p ← pos
  match prefixOp? (← peek) with
  | some op =>
      advance
      let operand ← inner.unary
      pure (.unary op operand p)
  | none => postfixed inner

/-- The infix operators, those that bind weakest first. -/
def tiers : List (Token → Option BinaryOp) :=
  [ fun | .orKw => some .or | _ => none,
    fun | .andKw => some .and | _ => none,
    fun | .eqEq => some .eq | .notEq => some .notEq | _ => none,
    fun | .lt => some .lt | .le => some .le | .gt => some .gt | .ge => some .ge | _ => none,
    fun | .plus => some .add | .minus => some .sub | _ => none,
    fun | .star => some .mul | .slash => some .div | _ => none ]

/-- Operators of one tier apply from left to right. -/
def chain (op? : Token → Option BinaryOp) (operand : Parse Expr) :
    (budget : List Lexeme) → Expr → Parse Expr
  | [], lhs => pure lhs
  | _ :: budget, lhs => do
      match op? (← peek) with
      | some op =>
          let p ← pos
          advance
          skipNewlines
          let rhs ← operand
          chain op? operand budget (.binary op lhs rhs p)
      | none => pure lhs

def binary : List (Token → Option BinaryOp) → Parse Expr
  | [] => unary inner
  | tier :: tiers => do
      let lhs ← binary tiers
      chain tier (binary tiers) (← rounds) lhs

def params : (budget : List Lexeme) → (seen : List String) → Parse (List String)
  | [], _ => fail .unclosedParameters
  | _ :: budget, seen => do
      if (← peek) = .rparen then pure []
      else
        let p ← pos
        let name ← ident
        if name ∈ seen then failAt (.duplicateParameter name) p (.ident name)
        else
          skipNewlines
          match ← peek with
          | .comma => advance; skipNewlines
          | .rparen => pure ()
          | _ => fail .unclosedParameters
          let rest ← params budget (name :: seen)
          pure (name :: rest)

def define : Parse Stmt := do
  let p ← pos
  advance
  let name ← ident
  let names ← match ← peek with
    | .lparen => do
        advance
        skipNewlines
        let names ← params (← rounds) []
        advance
        pure names
    | _ => pure []
  let body ← inner.body (.ofDef p)
  expect .endKw
  pure (.define name names body p)

def cond : Parse Stmt := do
  let p ← pos
  advance
  let test ← inner.expr
  let yes ← inner.body (.ofThen p)
  let no ← match ← peek with
    | .elseKw => do
        advance
        inner.body (.ofIf p)
    | _ => pure []
  expect .endKw
  pure (.cond test yes no p)

def stmt : Parse Stmt := do
  let s ← get
  match s.peek, s.second with
  | .defKw, _ => define inner
  | .ifKw, _ => cond inner
  | .ident name, .assign =>
      advance
      advance
      skipNewlines
      let value ← inner.expr
      pure (.assign name value s.pos)
  | _, _ => .expr <$> inner.expr

def endOfStmt : Parse Unit := do
  match ← peek with
  | .newline => advance
  | .eof | .endKw | .rbrace | .elseKw => pure ()
  | _ => fail .expectedEndOfStatement

def stmts (closer : Closer) : (budget : List Lexeme) → Parse (List Stmt)
  | [] => fail (.unexpectedEnd closer)
  | _ :: budget => do
      skipNewlines
      let token ← peek
      if closer.accepts token then pure []
      else
        match token with
        | .eof => fail (.unexpectedEnd closer)
        | .endKw | .rbrace | .elseKw => fail (.mismatchedTerminator closer)
        | _ =>
            let first ← stmt inner
            endOfStmt
            let rest ← stmts closer budget
            pure (first :: rest)

def body (closer : Closer) : Parse (List Stmt) := do
  stmts inner closer (← rounds)

def Level.around : Level where
  expr := binary inner tiers
  body := Parser.body inner
  unary := Parser.unary inner

end

def Level.ofNat : Nat → Level
  | 0 => .last
  | n + 1 => .around (.ofNat n)

def script (tokens : List Lexeme) : Except SyntaxError Script := do
  let (stmts, _) ← (Level.ofNat maxNesting).body .eof (.ofList tokens)
  .ok ⟨stmts⟩

end Parser

def Script.parse (source : String) : Except SyntaxError Script := do
  let tokens ← Lexer.tokenize source
  Parser.script tokens

end WidgetScript
