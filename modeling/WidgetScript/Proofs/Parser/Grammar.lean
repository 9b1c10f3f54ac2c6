import WidgetScript.Ast.Parser
import WidgetScript.Proofs.Ast.Spelling

/-! The grammar that the parser follows, over tokens that have places. A node stands at the place
of a token of its own. The number of levels counts what may nest, and whatever nests takes one:
an expression within another, a body, and the operand of a prefix operator. -/
namespace WidgetScript.Parser

inductive Enclosure where
  | list
  | map
  | call
  deriving DecidableEq

def Enclosure.opener : Enclosure → Token
  | .list => .lbracket
  | .map => .lbrace
  | .call => .lparen

def Enclosure.closer : Enclosure → Token
  | .list => .rbracket
  | .map => .rbrace
  | .call => .rparen

def Enclosure.Key (kind : Enclosure) (token : Token) (key : String) : Prop :=
  token = .ident key ∨ kind = .map ∧ token = .str [.text key]

def Argument.keys (a : Argument) : List String := (a.keyword?.map Entry.key).toList

@[simp] theorem Argument.keys_keyword (e : Entry) : (Argument.keyword e).keys = [e.key] := rfl

/-- What a stretch of tokens can be read as. The number of an operand says how strongly its own
operator binds at least, in the numbers of `Expr.prec`. -/
inductive Phrase where
  | operand (min : Nat) (e : Expr)
  /-- An expression of its own. -/
  | whole (e : Expr)
  /-- One with newlines around it. -/
  | padded (e : Expr)
  /-- These are not read from tokens but from the pieces of one. -/
  | parts (segments : List Segment) (ps : List Part)
  | element (kind : Enclosure) (a : Argument)
  /-- The keys in front of the row are not to be repeated in it. -/
  | row (kind : Enclosure) (seen : List String) (as : List Argument)
  | block (b : Option Block)
  | body (ss : List Stmt)
  | stmt (s : Stmt)
  | stmts (ss : List Stmt)

def Blank (ls : List Lexeme) : Prop := ∀ l ∈ ls, l.token = .newline

inductive Names : (seen : List String) → List String → List Lexeme → Prop where
  | nil {seen : List String} : Names seen [] []
  | last {seen : List String} {name : String} {p : Position} {nl : List Lexeme} :
      name ∉ seen → Blank nl → Names seen [name] (⟨.ident name, p⟩ :: nl)
  | cons {seen names : List String} {name : String} {p q : Position} {nl nl' ls : List Lexeme} :
      name ∉ seen → Blank nl → Blank nl' → Names (name :: seen) names ls →
      Names seen (name :: names) (⟨.ident name, p⟩ :: (nl ++ ⟨.comma, q⟩ :: (nl' ++ ls)))

/-- A function without parameters needs no parentheses. -/
inductive Params : List String → List Lexeme → Prop where
  | none : Params [] []
  | some {names : List String} {p q : Position} {nl ls : List Lexeme} :
      Blank nl → Names [] names ls →
      Params names (⟨.lparen, p⟩ :: (nl ++ (ls ++ [⟨.rparen, q⟩])))

/-- The tokens can be read so with these levels left inside. -/
inductive Derives : (levels : Nat) → Phrase → List Lexeme → Prop where
  | literal {n : Nat} {value : Literal} {p : Position} :
      Derives n (.operand 8 (.literal value p)) [⟨value.token, p⟩]
  | text {n : Nat} {segments : List Segment} {text : String} {p : Position} :
      plainText? segments = some text →
      Derives n (.operand 8 (.literal (.str text) p)) [⟨.str segments, p⟩]
  | interpolated {n : Nat} {segments : List Segment} {ps : List Part} {p : Position} :
      Derives n (.parts segments ps) [] →
      Derives n (.operand 8 (.interpolated ps p)) [⟨.str segments, p⟩]
  | ident {n : Nat} {name : String} {p : Position} :
      Derives n (.operand 8 (.ident name p)) [⟨.ident name, p⟩]
  | symbol {n : Nat} {name : String} {p : Position} :
      Derives n (.operand 8 (.symbol name p)) [⟨.symbol name, p⟩]
  | list {n : Nat} {es : List Expr} {p q : Position} {ls : List Lexeme} :
      Derives n (.row .list [] (es.map .positional)) ls →
      Derives n (.operand 8 (.list es p)) (⟨.lbracket, p⟩ :: (ls ++ [⟨.rbracket, q⟩]))
  | map {n : Nat} {es : List Entry} {p q : Position} {ls : List Lexeme} :
      Derives n (.row .map [] (es.map .keyword)) ls →
      Derives n (.operand 8 (.map es p)) (⟨.lbrace, p⟩ :: (ls ++ [⟨.rbrace, q⟩]))
  | call {n : Nat} {name : String} {as : List Argument} {b : Option Block} {p q r : Position}
      {ls bs : List Lexeme} :
      Derives n (.row .call [] as) ls → Derives n (.block b) bs →
      Derives n
        (.operand 8 (.call name (as.filterMap (·.positional?)) (as.filterMap (·.keyword?)) b p))
        (⟨.ident name, p⟩ :: ⟨.lparen, q⟩ :: (ls ++ ⟨.rparen, r⟩ :: bs))
  | doCall {n : Nat} {name : String} {ss : List Stmt} {p q : Position} {bs : List Lexeme} :
      Derives n (.block (some (.mk .doEnd ss q))) bs →
      Derives n (.operand 8 (.call name [] [] (some (.mk .doEnd ss q)) p)) (⟨.ident name, p⟩ :: bs)
  | parens {n : Nat} {e : Expr} {p q : Position} {ls : List Lexeme} :
      Derives n (.padded e) ls →
      Derives n (.operand 8 e) (⟨.lparen, p⟩ :: (ls ++ [⟨.rparen, q⟩]))
  | index {n : Nat} {target key : Expr} {p q : Position} {ts ls : List Lexeme} :
      Derives n (.operand 8 target) ts → Derives n (.padded key) ls →
      Derives n (.operand 8 (.index target key p))
        (ts ++ ⟨.lbracket, p⟩ :: (ls ++ [⟨.rbracket, q⟩]))
  | field {n : Nat} {target : Expr} {name : String} {p q : Position} {ts : List Lexeme} :
      Derives n (.operand 8 target) ts →
      Derives n (.operand 8 (.field target name p)) (ts ++ [⟨.dot, p⟩, ⟨.ident name, q⟩])
  | unary {n : Nat} {op : UnaryOp} {t : Token} {e : Expr} {p : Position} {ls : List Lexeme} :
      prefixOp? t = some op → Derives n (.operand 7 e) ls →
      Derives (n + 1) (.operand 7 (.unary op e p)) (⟨t, p⟩ :: ls)
  | binary {n : Nat} {op : BinaryOp} {lhs rhs : Expr} {p : Position} {ls nl rs : List Lexeme} :
      Derives n (.operand op.prec lhs) ls → Blank nl → Derives n (.operand (op.prec + 1) rhs) rs →
      Derives n (.operand op.prec (.binary op lhs rhs p)) (ls ++ ⟨op.token, p⟩ :: (nl ++ rs))
  | weaken {n min : Nat} {e : Expr} {ls : List Lexeme} :
      Derives n (.operand (min + 1) e) ls → Derives n (.operand min e) ls
  | whole {n : Nat} {e : Expr} {ls : List Lexeme} :
      Derives n (.operand 1 e) ls → Derives (n + 1) (.whole e) ls
  | padded {n : Nat} {e : Expr} {nl ls nl' : List Lexeme} :
      Blank nl → Derives n (.whole e) ls → Blank nl' →
      Derives n (.padded e) (nl ++ (ls ++ nl'))
  | noParts {n : Nat} : Derives n (.parts [] []) []
  | textPart {n : Nat} {text : String} {segments : List Segment} {ps : List Part} :
      Derives n (.parts segments ps) [] →
      Derives n (.parts (.text text :: segments) (.text text :: ps)) []
  | holePart {n : Nat} {source : String} {p : Position} {e : Expr} {segments : List Segment}
      {ps : List Part} {ls rest : List Lexeme} :
      Lexer.tokenizeAt source p = .ok (ls ++ rest) → Derives n (.padded e) ls →
      (∀ l ∈ rest.head?, l.token = .eof) → Derives n (.parts segments ps) [] →
      Derives n (.parts (.placeholder source p :: segments) (.hole e :: ps)) []
  | positional {n : Nat} {kind : Enclosure} {e : Expr} {ls : List Lexeme} :
      kind ≠ .map → Derives n (.padded e) ls → Derives n (.element kind (.positional e)) ls
  | keyword {n : Nat} {kind : Enclosure} {t : Token} {key : String} {e : Expr} {p q : Position}
      {nl ls : List Lexeme} :
      kind ≠ .list → Blank nl → kind.Key t key → Derives n (.padded e) ls →
      Derives n (.element kind (.keyword (.mk key e p))) (nl ++ ⟨t, p⟩ :: ⟨.colon, q⟩ :: ls)
  | noElements {n : Nat} {kind : Enclosure} {seen : List String} {nl : List Lexeme} :
      Blank nl → Derives n (.row kind seen []) nl
  | lastElement {n : Nat} {kind : Enclosure} {seen : List String} {a : Argument}
      {ls : List Lexeme} :
      (∀ key ∈ a.keys, key ∉ seen) → Derives n (.element kind a) ls →
      Derives n (.row kind seen [a]) ls
  | elements {n : Nat} {kind : Enclosure} {seen : List String} {a : Argument} {as : List Argument}
      {p : Position} {ls rest : List Lexeme} :
      (∀ key ∈ a.keys, key ∉ seen) → Derives n (.element kind a) ls →
      Derives n (.row kind (a.keys ++ seen) as) rest →
      Derives n (.row kind seen (a :: as)) (ls ++ ⟨.comma, p⟩ :: rest)
  | noBlock {n : Nat} : Derives n (.block none) []
  | block {n : Nat} {d : Delimiter} {ss : List Stmt} {p q : Position} {ls : List Lexeme} :
      Derives n (.body ss) ls →
      Derives n (.block (some (.mk d ss p))) (⟨d.opener, p⟩ :: (ls ++ [⟨d.closer, q⟩]))
  | body {n : Nat} {ss : List Stmt} {ls : List Lexeme} :
      Derives n (.stmts ss) ls → Derives (n + 1) (.body ss) ls
  | expr {n : Nat} {e : Expr} {ls : List Lexeme} :
      Derives n (.whole e) ls → Derives n (.stmt (.expr e)) ls
  | assign {n : Nat} {name : String} {e : Expr} {p q : Position} {nl ls : List Lexeme} :
      Blank nl → Derives n (.whole e) ls →
      Derives n (.stmt (.assign name e p)) (⟨.ident name, p⟩ :: ⟨.assign, q⟩ :: (nl ++ ls))
  | define {n : Nat} {name : String} {names : List String} {ss : List Stmt} {p q r : Position}
      {ns ls : List Lexeme} :
      Params names ns → Derives n (.body ss) ls →
      Derives n (.stmt (.define name names ss p))
        (⟨.defKw, p⟩ :: ⟨.ident name, q⟩ :: (ns ++ (ls ++ [⟨.endKw, r⟩])))
  | cond {n : Nat} {test : Expr} {yes : List Stmt} {p q : Position} {ts ys : List Lexeme} :
      Derives n (.whole test) ts → Derives n (.body yes) ys →
      Derives n (.stmt (.cond test yes [] p)) (⟨.ifKw, p⟩ :: (ts ++ (ys ++ [⟨.endKw, q⟩])))
  | condElse {n : Nat} {test : Expr} {yes no : List Stmt} {p q r : Position}
      {ts ys ns : List Lexeme} :
      Derives n (.whole test) ts → Derives n (.body yes) ys → Derives n (.body no) ns →
      Derives n (.stmt (.cond test yes no p))
        (⟨.ifKw, p⟩ :: (ts ++ (ys ++ ⟨.elseKw, q⟩ :: (ns ++ [⟨.endKw, r⟩]))))
  | noStmts {n : Nat} {nl : List Lexeme} : Blank nl → Derives n (.stmts []) nl
  | lastStmt {n : Nat} {s : Stmt} {nl ls : List Lexeme} :
      Blank nl → Derives n (.stmt s) ls → Derives n (.stmts [s]) (nl ++ ls)
  | stmts {n : Nat} {s : Stmt} {ss : List Stmt} {p : Position} {nl ls rest : List Lexeme} :
      Blank nl → Derives n (.stmt s) ls → Derives n (.stmts ss) rest →
      Derives n (.stmts (s :: ss)) (nl ++ (ls ++ ⟨.newline, p⟩ :: rest))

end WidgetScript.Parser
