import WidgetScript.Proofs.Ast.Depth
import WidgetScript.Proofs.Parser.Places
import WidgetScript.Proofs.Parser.RoundTrip

/-! What the nesting limit bounds. Between one level and the next there are eight strengths of
operators, so the height of what is parsed is bounded, but chains of operators take no level, and
the depth is not bounded at all. -/
namespace WidgetScript

namespace Parser
variable {n k : Nat} {phrase : Phrase} {e : Expr} {ns : List Node} {ls : List Lexeme}

/-- How high an operand of the strength can be, with these levels left inside. The prefix
operators take levels of their own, so they add nothing to what has no operator. -/
def limit (n strength : Nat) : Nat := 8 * n + 2 + (7 - strength) - (strength - 8)

theorem limit_antitone (n k : Nat) : limit n (k + 1) ≤ limit n k := by
  unfold limit
  omega

/-- Only a chain of operators of just the strength reaches the limit of an operand. -/
def Phrase.Bounded (n : Nat) : Phrase → Prop
  | .operand min e =>
      (e.chain? = some min ∨ e.height ≤ limit n (min + 1)) ∧ Low (limit n min) e.nodes
  | phrase => Low (8 * n) phrase.nodes

theorem bounded_of_nodes (nodes : e.nodes = .expr e :: ns) (inside : Low (8 * n) ns)
    (height : e.height ≤ 8 * n + 1) : Phrase.Bounded n (.operand 8 e) := by
  refine ⟨.inr height, ?_⟩
  rw [nodes]
  exact (inside.mono (by unfold limit; omega)).cons (Nat.le_succ_of_le height)

theorem link_le {m strength : Nat} (h : e.chain? = some strength ∨ e.height ≤ m)
    (top : e.height ≤ m + 1) : e.nesting true + e.link true strength ≤ m + 1 := by
  unfold Expr.link
  split
  next => exact top
  next other =>
    rcases h with chain | h
    · exact absurd ⟨rfl, chain⟩ other
    · exact Nat.succ_le_succ h

theorem Derives.bounded (h : Derives n phrase ls) : phrase.Bounded n := by
  induction h with
  | literal | text | ident | symbol => exact bounded_of_nodes rfl low_nil (Nat.le_add_left 1 _)
  | interpolated _ ih => exact bounded_of_nodes rfl ih (Nat.succ_le_succ (Low.parts ih))
  | list _ ih =>
    have inside : Low _ (List.flatMap _ _) := ih
    rw [nodes_positional] at inside
    exact bounded_of_nodes rfl inside (Nat.succ_le_succ inside.exprs)
  | map _ ih =>
    have inside : Low _ (List.flatMap _ _) := ih
    rw [nodes_keyword] at inside
    exact bounded_of_nodes rfl inside (Nat.succ_le_succ inside.entries)
  | call _ _ ihRow ihBlock =>
    have row : Low _ (List.flatMap _ _) := ihRow
    have args : Low _ (Expr.nodesAll _ ++ Entry.nodesAll _) :=
      fun e he => row e ((nodes_arguments _).mem_iff.1 he)
    obtain ⟨positional, keyword⟩ := low_append.1 args
    exact bounded_of_nodes rfl (low_append.2 ⟨args, ihBlock⟩)
      (Nat.succ_le_succ (Nat.max_le.2 ⟨positional.exprs, keyword.entries⟩))
  | doCall _ ih => exact bounded_of_nodes rfl ih (Nat.le_add_left 1 _)
  | parens _ ih =>
    have inside : Low _ (Expr.nodes _) := ih
    exact ⟨.inr (inside.height_le.trans (by unfold limit; omega)),
      inside.mono (by unfold limit; omega)⟩
  | index _ _ ihTarget ihKey =>
    obtain ⟨chain, target⟩ := ihTarget
    have key : Low _ (Expr.nodes _) := ihKey
    have height := Nat.max_le.2 ⟨link_le chain target.height_le,
      Nat.le_succ_of_le (Nat.succ_le_succ key.height_le)⟩
    have key := key.mono (Nat.le_add_right _ 2)
    exact ⟨.inl rfl, Low.cons (low_append.2 ⟨target, key⟩) height⟩
  | field _ ih =>
    obtain ⟨chain, target⟩ := ih
    exact ⟨.inl rfl, target.cons (link_le chain target.height_le)⟩
  | unary _ _ ih =>
    obtain ⟨-, operand⟩ := ih
    have height := Nat.succ_le_succ operand.height_le
    exact ⟨.inr (height.trans (by unfold limit; omega)),
      Low.cons (operand.mono (by unfold limit; omega)) (height.trans (by unfold limit; omega))⟩
  | @binary n op lhs rhs p _ _ _ _ _ _ ihLhs ihRhs =>
    obtain ⟨chain, lhs⟩ := ihLhs
    obtain ⟨-, rhs⟩ := ihRhs
    obtain ⟨i, hi, prec⟩ := op.exists_prec
    -- A left operand of the same strength has the whole limit, but the chain adds nothing to it.
    have step : limit n op.prec = limit n (op.prec + 1) + 1 := by
      unfold limit
      omega
    have top := step ▸ lhs.height_le
    have height := Nat.max_le.2 ⟨link_le chain top, Nat.succ_le_succ rhs.height_le⟩
    have inside := low_append.2 ⟨lhs, rhs.mono (limit_antitone n op.prec)⟩
    exact ⟨.inl rfl, inside.cons (step ▸ height)⟩
  | weaken _ ih =>
    obtain ⟨-, inside⟩ := ih
    exact ⟨.inr inside.height_le, inside.mono (limit_antitone _ _)⟩
  | whole _ ih => exact ih.2
  | padded _ _ _ ih => exact ih
  | noParts | noElements | noBlock | noStmts => exact low_nil
  | textPart _ ih => exact ih
  | holePart _ _ _ _ ihHole ihRest => exact low_append.2 ⟨ihHole, ihRest⟩
  | positional _ _ ih => exact ih
  | keyword _ _ _ _ ih => exact low_cons.2 ⟨nofun, ih⟩
  | lastElement _ _ ih => exact low_append.2 ⟨ih, low_nil⟩
  | elements _ _ _ ihFirst ihRest => exact low_append.2 ⟨ihFirst, ihRest⟩
  | block _ ih => exact low_cons.2 ⟨nofun, ih⟩
  | body _ ih => exact Low.mono ih (by omega)
  | expr _ ih => exact ih
  | assign _ _ ih => exact low_cons.2 ⟨nofun, ih⟩
  | define _ _ ih => exact low_cons.2 ⟨nofun, ih⟩
  | cond _ _ ihTest ihYes =>
    exact low_cons.2 ⟨nofun, low_append.2 ⟨low_append.2 ⟨ihTest, ihYes⟩, low_nil⟩⟩
  | condElse _ _ _ ihTest ihYes ihNo =>
    exact low_cons.2 ⟨nofun, low_append.2 ⟨low_append.2 ⟨ihTest, ihYes⟩, ihNo⟩⟩
  | lastStmt _ _ ih => exact low_append.2 ⟨ih, low_nil⟩
  | stmts _ _ _ ihFirst ihRest => exact low_append.2 ⟨ihFirst, ihRest⟩

end Parser

/-! ## A chain of additions -/

namespace Ones
open Lexer

def one : Float := Number.Written.value ⟨['1'], [], 0⟩

def text : Nat → List Char
  | 0 => []
  | k + 1 => '+' :: '1' :: text k

def tokens : Nat → List Token
  | 0 => []
  | k + 1 => .plus :: .number one :: tokens k

def sum : Nat → Expr
  | 0 => .literal (.number one) .none
  | k + 1 => .binary .add (sum k) (.literal (.number one) .none) .none

def source (k : Nat) : String := String.ofList ('1' :: text k)

theorem tokens_succ (k : Nat) : tokens (k + 1) = tokens k ++ [.plus, .number one] := by
  induction k with
  | zero => rfl
  | succ k ih => exact congrArg (fun ts => .plus :: .number one :: ts) ih

theorem sum_tokens (k : Nat) : (sum k).tokens = .number one :: tokens k := by
  induction k with
  | zero => rfl
  | succ k ih =>
    have bare : enclose 5 (sum k).prec (sum k).tokens = (sum k).tokens := by
      cases k <;> rfl
    rw [tokens_succ, ← List.cons_append, ← ih, ← bare]
    rfl

theorem sum_plain (k : Nat) : (sum k).Plain := by
  induction k with
  | zero => trivial
  | succ k ih => exact ⟨ih, trivial⟩

theorem sum_levels (k : Nat) : (sum k).levels = 0 := by
  induction k with
  | zero => rfl
  | succ k ih =>
    have bare : levelsEnclosed 5 (sum k).prec (sum k).levels = 0 := by
      cases k <;> exact ih
    exact Nat.max_eq_zero_iff.2 ⟨bare, rfl⟩

theorem sum_bare (k : Nat) : (sum k).bare = sum k := by
  induction k with
  | zero => rfl
  | succ k ih => exact congrArg (Expr.binary .add · (.literal (.number one) .none) .none) ih

theorem depth_of_bare {k : Nat} {e : Expr} (h : e.bare = sum k) : e.depth = k + 1 := by
  induction k generalizing e with
  | zero =>
    cases e <;> simp only [Expr.bare, sum, reduceCtorEq] at h
    rfl
  | succ k ih =>
    cases e <;> simp only [Expr.bare, sum, reduceCtorEq, Expr.binary.injEq] at h
    next op lhs rhs p =>
    obtain ⟨-, left, right, -⟩ := h
    have right : rhs.depth = 1 := by
      cases rhs <;> simp only [Expr.bare, reduceCtorEq] at right
      rfl
    change max (lhs.depth + 1) (rhs.depth + 1) = _
    rw [ih left, right]
    omega

theorem eq_of_bareAll {ss : List Stmt} {e : Expr}
    (h : Stmt.bareAll ss = Stmt.bareAll [.expr e]) : ∃ e', ss = [.expr e'] ∧ e'.bare = e.bare := by
  obtain _ | ⟨stmt, _ | ⟨_, _⟩⟩ := ss
  · cases h
  · obtain ⟨h, -⟩ := List.cons.inj h
    cases stmt <;> simp only [Stmt.bare, reduceCtorEq, Stmt.expr.injEq] at h
    exact ⟨_, rfl, h⟩
  · cases (List.cons.inj h).2

theorem next_one (prev : Option Token) (k : Nat) (p : Position) :
    next prev ⟨'1' :: text k, p⟩ = .ok (.number one, ⟨text k, p.advance '1'⟩) := by
  cases k <;> rfl

theorem tokens_text {fuel k : Nat} (enough : 2 * k < fuel) (prev : Option Token) (p : Position) :
    ∃ ls, Lexer.tokens fuel prev ⟨text k, p⟩ = .ok ls ∧
      ls.map Lexeme.token = tokens k ++ [.eof] := by
  induction k generalizing fuel prev p with
  | zero =>
    obtain ⟨fuel, rfl⟩ := Nat.exists_eq_succ_of_ne_zero (Nat.ne_of_gt enough)
    exact ⟨[⟨.eof, p⟩], rfl, rfl⟩
  | succ k ih =>
    obtain ⟨fuel, rfl⟩ : ∃ m, fuel = m + 2 := ⟨fuel - 2, by omega⟩
    have enough : 2 * k < fuel := by omega
    obtain ⟨ls, run, spelled⟩ := ih enough (some (.number one)) ((p.advance '+').advance '1')
    have digit := tokens_cons rfl (next_one (some .plus) k (p.advance '+')) nofun nofun run
    refine ⟨_, tokens_cons rfl rfl nofun nofun digit, ?_⟩
    rw [List.map_cons, List.map_cons, spelled]
    rfl

theorem length_text (k : Nat) : (text k).length = 2 * k := by
  induction k with
  | zero => rfl
  | succ k ih => rw [text, List.length_cons, List.length_cons, ih]; omega

theorem tokenize_source (k : Nat) : ∃ ls, tokenize (source k) = .ok (⟨.number one, .start⟩ :: ls) ∧
    ls.map Lexeme.token = tokens k ++ [.eof] := by
  have enough : 2 * k < ('1' :: text k).length := by
    rw [List.length_cons, length_text]
    omega
  obtain ⟨ls, run, spelled⟩ := tokens_text enough (some (.number one)) (Position.start.advance '1')
  refine ⟨ls, ?_, spelled⟩
  rw [tokenize, tokenizeAt, source, String.toList_ofList]
  exact tokens_cons rfl (next_one none k .start) nofun nofun run

theorem script_sum {k : Nat} {p : Position} {ls : List Lexeme}
    (spelled : ls.map Lexeme.token = tokens k ++ [.eof]) :
    ∃ e, Parser.script (⟨.number one, p⟩ :: ls) = .ok ⟨[.expr e]⟩ ∧ e.bare = sum k := by
  have levels : Stmt.levelsAll [.expr (sum k)] + 1 ≤ maxNesting := by
    rw [Stmt.levelsAll, Stmt.levels, sum_levels]
    decide
  have body := (Parser.stmts_listed [.expr (sum k)] ⟨sum_plain k, trivial⟩).body levels
  let s := TokenStream.ofList (⟨.number one, p⟩ :: ls)
  have single : lines (Stmt.tokensEach [.expr (sum k)]) = (sum k).tokens := List.append_nil _
  have line : s.rest.map Lexeme.token = (sum k).tokens ++ [.eof] := by
    change .number one :: ls.map Lexeme.token = _
    rw [spelled, sum_tokens]
    rfl
  obtain ⟨s', ahead, rest⟩ := TokenStream.ahead_of_map_eq line
  have here : s.skipNewlines = s := TokenStream.skipNewlines_of_ne nofun
  have finish : s'.peek = .eof := TokenStream.peek_of_map_eq rest
  have there : s'.skipNewlines = s' :=
    TokenStream.skipNewlines_of_ne fun line => nomatch finish.symm.trans line
  have close : Closer.eof.accepts s'.skipNewlines.peek := by
    rw [there, finish]
    rfl
  rw [← here, ← single] at ahead
  obtain ⟨ss, run, bare⟩ := body.reads ahead close
  obtain ⟨e, rfl, same⟩ := eq_of_bareAll bare
  rw [sum_bare] at same
  refine ⟨e, ?_, same⟩
  rw [Parser.script, run]
  rfl

theorem parse_source (k : Nat) : ∃ script e, Script.parse (source k) = .ok script ∧
    .expr e ∈ script.nodes ∧ e.depth = k + 1 := by
  obtain ⟨ls, lexed, spelled⟩ := tokenize_source k
  obtain ⟨e, run, same⟩ := script_sum spelled
  have parsed : Script.parse (source k) = .ok ⟨[.expr e]⟩ := by
    rw [Script.parse, lexed]
    exact run
  exact ⟨_, e, parsed, List.mem_append_left _ e.mem_nodes, depth_of_bare same⟩

end Ones

/-- Where chains of operators count as a whole, the nesting limit bounds every expression. -/
theorem Script.parsed_height_le {source : String} {script : Script}
    (h : parse source = .ok script) :
    ∀ e, .expr e ∈ script.nodes → e.height ≤ 8 * maxNesting := by
  obtain ⟨tokens, -, parsed⟩ := bind_eq_ok.1 h
  obtain ⟨ls, rest, -, derived, -⟩ := Parser.script_ok parsed
  exact derived.bounded

/-- However many ones there are in a sum, they are one chain. -/
theorem Script.parsed_height_le_ones : ∃ script, parse (Ones.source 512) = .ok script ∧
    ∀ e, .expr e ∈ script.nodes → e.height ≤ 8 * maxNesting := by
  obtain ⟨script, _, parsed, _, _⟩ := Ones.parse_source 512
  exact ⟨script, parsed, Script.parsed_height_le parsed⟩

/-- Where each node of a chain counts, it does not bound them. -/
theorem Script.parsed_depth_not_le : ∃ script e, parse (Ones.source 512) = .ok script ∧
    .expr e ∈ script.nodes ∧ 8 * maxNesting < e.depth := by
  obtain ⟨script, e, parsed, mem, depth⟩ := Ones.parse_source 512
  exact ⟨script, e, parsed, mem, by rw [depth]; decide⟩

end WidgetScript
