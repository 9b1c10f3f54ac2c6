import Mathlib.Data.List.GetD
import Mathlib.Data.Nat.Basic
import Mathlib.Order.Nat
import WidgetScript.Proofs.Ast.Bare
import WidgetScript.Proofs.Ast.Spelling
import WidgetScript.Proofs.Parser.Stream

/-! How the operators divide a list of tokens. Whether an expression ends before a token
depends on how strongly the token holds what stands before it; the loops for the operators of
one strength come, with the tokens of an operand behind them, to the operand itself. -/
namespace WidgetScript

/-- How strongly the token holds an expression before it: an infix operator as strongly as it
binds, a bracket or dot more, and most what turns a name into a call or gives it a block. -/
def Token.grip : Token → Nat
  | .orKw => 1
  | .andKw => 2
  | .eqEq | .notEq => 3
  | .lt | .le | .gt | .ge => 4
  | .plus | .minus => 5
  | .star | .slash => 6
  | .lbracket | .dot => 8
  | .lparen | .doKw | .lbrace => 9
  | _ => 0

theorem BinaryOp.grip_token (op : BinaryOp) : op.token.grip = op.prec := by
  cases op <;> rfl

def Token.opens : Token → Bool
  | .ident _ | .str _ | .number _ | .symbol _ | .trueKw | .falseKw | .nilKw => true
  | .notKw | .minus | .bang | .lparen | .lbracket | .lbrace => true
  | _ => false

def Token.closes : Token → Bool
  | .rparen | .rbracket | .rbrace => true
  | _ => false

theorem Token.grip_of_closes {t : Token} (h : t.closes) : t.grip = 0 := by
  cases t <;> simp_all [Token.closes, Token.grip]

namespace Parser
open TokenStream Parse

/-- The tokens start as an expression does, and not as an entry or an assignment. -/
def Leading : List Token → Prop
  | [] => False
  | t :: ts =>
      t.opens ∧ ∀ name, t = .ident name → ts.head? ≠ some .colon ∧ ts.head? ≠ some .assign

namespace Leading
variable {ts us : List Token} {s s' : TokenStream}

theorem append (h : Leading ts) (colon : us.head? ≠ some .colon)
    (assign : us.head? ≠ some .assign) : Leading (ts ++ us) := by
  match ts, h with
  | [t], h => exact ⟨h.1, fun _ _ => ⟨colon, assign⟩⟩
  | t :: u :: ts, h => exact h

theorem opens (h : Leading ts) (ahead : Ahead ts s s') : s.peek.opens := by
  match ts, h with
  | t :: ts, h =>
    rw [ahead.peek]
    exact h.1

theorem peek_ne (h : Leading ts) (ahead : Ahead ts s s') {t : Token} (ht : t.opens = false) :
    s.peek ≠ t := by
  intro e
  simp [← e, h.opens ahead] at ht

theorem second_ne (h : Leading ts) (ahead : Ahead ts s s') (colon : s'.peek ≠ .colon)
    (assign : s'.peek ≠ .assign) {name : String} (hname : s.peek = .ident name) :
    s.second ≠ .colon ∧ s.second ≠ .assign := by
  rw [second_eq_peek_advance]
  match ts, h with
  | [t], h =>
    rw [show s.advance = s' from ahead.advance]
    exact ⟨colon, assign⟩
  | t :: u :: ts, h =>
    have := h.2 name (by rw [← ahead.peek, hname])
    simpa [ahead.advance.peek] using this

end Leading

/-- The parser takes just these tokens, and for this expression, unless the token behind them
holds on to them. -/
def Reads (p : Parse Expr) (ts : List Token) (grip : Nat) (e : Expr) : Prop :=
  ∀ ⦃s s'⦄, Ahead ts s s' → s'.peek.grip ≤ grip → ∃ e', p s = .ok (e', s') ∧ e'.bare = e.bare

/-- The parser takes these tokens, for this expression, and then goes on with the loop, for
which there is a round left for each token ahead. -/
def Reaches (p : Parse Expr) (loop : List Lexeme → Expr → Parse Expr) (ts : List Token)
    (grip : Nat) (e : Expr) : Prop :=
  ∀ ⦃s s'⦄, Ahead ts s s' → s'.peek.grip ≤ grip →
    ∃ budget e', p s = loop budget e' s' ∧ s'.rest.length < budget.length ∧ e'.bare = e.bare

section
variable {p q : Parse Expr} {loop : List Lexeme → Expr → Parse Expr} {ts : List Token}
  {grip grip' : Nat} {e : Expr}

theorem Reads.reaches (h : Reads p ts grip e) :
    Reaches (do let e ← p; loop (← rounds) e) loop ts grip e := by
  intro s s' ahead next
  obtain ⟨e', run, bare⟩ := h ahead next
  refine ⟨s'.budget, e', ?_, s'.lt_length_budget, bare⟩
  rw [run_bind run, run_rounds_bind]

theorem Reaches.reads (h : Reaches p loop ts grip e) (hle : grip' ≤ grip)
    (stop : ∀ budget e s, s.peek.grip ≤ grip' → loop budget e s = .ok (e, s)) :
    Reads p ts grip' e := by
  intro s s' ahead next
  obtain ⟨budget, e', run, -, bare⟩ := h ahead (next.trans hle)
  exact ⟨e', by rw [run, stop budget e' s' next], bare⟩

end

/-! ## Infix operators -/

def tier (i : Nat) : Token → Option BinaryOp := tiers.getD i fun _ => none

theorem drop_tiers {i : Nat} (h : i < 6) : tiers.drop i = tier i :: tiers.drop (i + 1) := by
  rw [List.drop_eq_getElem_cons (show i < tiers.length from h), tier,
    List.getD_eq_getElem _ _ (show i < tiers.length from h)]

theorem tier_token {op : BinaryOp} {i : Nat} (h : op.prec = i + 1) :
    tier i op.token = some op := by
  obtain rfl : i = op.prec - 1 := by omega
  cases op <;> rfl

theorem tier_eq_none {i : Nat} {t : Token} (h : t.grip ≤ i) : tier i t = none := by
  rcases i with _ | _ | _ | _ | _ | _ | i
  all_goals cases t <;> first | rfl | exact absurd h (by decide)

theorem chain_stop {op? : Token → Option BinaryOp} {operand : Parse Expr} {s : TokenStream}
    (h : op? s.peek = none) (budget : List Lexeme) (lhs : Expr) :
    chain op? operand budget lhs s = .ok (lhs, s) := by
  cases budget with
  | nil => rfl
  | cons b budget =>
    rw [chain, run_peek_bind, h]
    rfl

variable {inner : Level} {s s' : TokenStream} {ts us : List Token} {e lhs rhs : Expr} {i k : Nat}

abbrev ReadsAt (inner : Level) (i : Nat) (ts : List Token) (e : Expr) : Prop :=
  Reads (binary inner (tiers.drop i)) ts i e

abbrev ReachesChain (inner : Level) (i : Nat) (ts : List Token) (e : Expr) : Prop :=
  Reaches (binary inner (tiers.drop i)) (chain (tier i) (binary inner (tiers.drop (i + 1)))) ts
    (i + 1) e

theorem ReadsAt.reachesChain (h : ReadsAt inner (i + 1) ts e) (hi : i < 6) :
    ReachesChain inner i ts e := by
  rw [ReachesChain, drop_tiers hi, binary]
  exact Reads.reaches h

theorem ReachesChain.readsAt (h : ReachesChain inner i ts e) : ReadsAt inner i ts e :=
  Reaches.reads h (Nat.le_succ i) fun budget e _ next => chain_stop (tier_eq_none next) budget e

theorem ReadsAt.mono (h : ReadsAt inner k ts e) (hk : k ≤ 6) (hi : i ≤ k) :
    ReadsAt inner i ts e :=
  Nat.decreasingInduction' (fun j hj _ ih => (ih.reachesChain (by omega)).readsAt) hi h

theorem ReachesChain.binary {op : BinaryOp} (hop : op.prec = i + 1) (pos : Position)
    (left : ReachesChain inner i ts lhs) (right : ReadsAt inner (i + 1) us rhs)
    (leading : Leading us) :
    ReachesChain inner i (ts ++ op.token :: us) (.binary op lhs rhs pos) := by
  intro s s' ahead next
  obtain ⟨s₁, before, ahead⟩ := ahead_append.1 ahead
  have hpeek := ahead.peek
  have behind := ahead.advance
  obtain ⟨budget, lhs', run, long, bareLhs⟩ :=
    left before (by simp [hpeek, op.grip_token, hop])
  obtain ⟨rhs', runRhs, bareRhs⟩ := right behind next
  have noNewline : s₁.advance.peek ≠ .newline := leading.peek_ne behind rfl
  have passed := ahead.length
  match budget with
  | b :: budget =>
    -- One round more: the operator and its operand take two tokens or more, so what is left of
    -- the budget is still longer than what is left of the stream.
    refine ⟨budget, .binary op lhs' rhs' s₁.pos, ?_, ?_, ?_⟩
    · rw [run, chain, run_peek_bind, hpeek, tier_token hop]
      simp only [run_pos_bind, run_advance_bind, run_skipNewlines_bind,
        skipNewlines_of_ne noNewline, run_bind runRhs]
    · simp only [List.length_cons] at long passed
      omega
    · simp only [Expr.bare, bareLhs, bareRhs]

/-! ## Spellings -/

/-- In a place that asks its operand to bind as strongly as `min`, and in any that asks for less,
the tokens are read as the expression. -/
structure Spelled (inner : Level) (min : Nat) (ts : List Token) (e : Expr) : Prop where
  leading : Leading ts
  /-- Infix operators that bind weaker may go on with it. -/
  chained : ∀ i < 6, i < min → ReachesChain inner i ts e
  /-- It is an operand of a prefix operator. -/
  operand : 7 ≤ min → Reads (unary inner) ts 6 e
  /-- Accesses may go on with it. -/
  accessed : 8 ≤ min → Reaches (unary inner) (accesses inner) ts 8 e

namespace Spelled

theorem mono {min min' : Nat} (h : Spelled inner min ts e) (hle : min' ≤ min) :
    Spelled inner min' ts e where
  leading := h.leading
  chained i hi hmin := h.chained i hi (hmin.trans_le hle)
  operand hmin := h.operand (hmin.trans hle)
  accessed hmin := h.accessed (hmin.trans hle)

theorem readsAt (h : Spelled inner (i + 1) ts e) (hi : i ≤ 6) : ReadsAt inner i ts e := by
  rcases Nat.lt_or_eq_of_le hi with hi | rfl
  · exact (h.chained i hi (Nat.lt_succ_self i)).readsAt
  · exact h.operand le_rfl

theorem ofChain (leading : Leading ts) (h : ReachesChain inner i ts e) (hi : i < 6) :
    Spelled inner (i + 1) ts e where
  leading := leading
  chained j hj hmin := by
    rcases Nat.lt_or_eq_of_le (Nat.le_of_lt_succ hmin) with hlt | rfl
    · exact (h.readsAt.mono hi.le hlt).reachesChain hj
    · exact h
  operand hmin := by omega
  accessed hmin := by omega

theorem ofUnary (leading : Leading ts) (h : Reads (unary inner) ts 6 e) :
    Spelled inner 7 ts e where
  leading := leading
  chained i hi _ := (ReadsAt.mono (k := 6) h le_rfl hi).reachesChain hi
  operand _ := h
  accessed hmin := by omega

theorem accesses_stop {s : TokenStream} (h : s.peek.grip ≤ 6) (budget : List Lexeme) (e : Expr) :
    accesses inner budget e s = .ok (e, s) := by
  cases budget with
  | nil => rfl
  | cons b budget =>
    rw [accesses, run_pos_bind, run_peek_bind]
    generalize s.peek = t at h
    cases t <;> first | rfl | exact absurd h (by decide)

theorem ofAccesses (leading : Leading ts) (h : Reaches (unary inner) (accesses inner) ts 8 e) :
    Spelled inner 8 ts e :=
  have operand : Reads (unary inner) ts 6 e :=
    h.reads (by decide) fun budget e _ next => accesses_stop next budget e
  { ofUnary leading operand with
    chained := fun i hi _ => (ofUnary leading operand).chained i hi (by omega)
    operand := fun _ => operand
    accessed := fun _ => h }

end Spelled

structure Whole (level : Level) (ts : List Token) (e : Expr) : Prop where
  leading : Leading ts
  reads : Reads level.expr ts 0 e

theorem Spelled.whole (h : Spelled inner 1 ts e) : Whole (.around inner) ts e :=
  ⟨h.leading, h.readsAt (Nat.zero_le 6)⟩

theorem prefixOp?_token (op : UnaryOp) : prefixOp? op.token = some op := by
  cases op <;> rfl

theorem Spelled.unary (op : UnaryOp) (h : Spelled inner 7 ts e) (pos : Position) :
    Spelled (.around inner) 7 (op.token :: ts) (.unary op e pos) := by
  refine .ofUnary ⟨by cases op <;> rfl, by cases op <;> nofun⟩ fun s s' ahead next => ?_
  obtain ⟨e', run, bare⟩ := h.operand le_rfl ahead.advance next
  refine ⟨.unary op e' s.pos, ?_, by simp only [Expr.bare, bare]⟩
  rw [Parser.unary, run_pos_bind, run_peek_bind, ahead.peek, prefixOp?_token]
  simp only [Level.around, run_advance_bind, run_bind run, run_pure]

theorem Spelled.ofPrimary {t : Token} (leading : Leading (t :: ts)) (ht : prefixOp? t = none)
    (h : Reads (primary inner) (t :: ts) 8 e) : Spelled inner 8 (t :: ts) e := by
  refine .ofAccesses leading fun s s' ahead next => ?_
  have start : Parser.unary inner s = postfixed inner s := by
    rw [Parser.unary, run_pos_bind, run_peek_bind, ahead.peek, ht]
  rw [start]
  exact h.reaches ahead next

theorem Whole.bracketed (h : Whole inner ts e) {close : Token} (hclose : close.closes)
    (ahead : Ahead (ts ++ [close]) s s') :
    ∃ e', e'.bare = e.bare ∧ ∀ {β : Type} (f : Expr → Parse β),
      (do skipNewlines; let value ← inner.expr; skipNewlines; expect close; f value) s =
        f e' s' := by
  obtain ⟨s₁, within, behind⟩ := ahead_append.1 ahead
  obtain ⟨e', run, bare⟩ := h.reads within (by rw [behind.peek, Token.grip_of_closes hclose])
  have before : s.peek ≠ .newline := h.leading.peek_ne within rfl
  have after : s₁.peek ≠ .newline := by
    rw [behind.peek]
    exact fun e => nomatch e ▸ hclose
  refine ⟨e', bare, fun f => ?_⟩
  simp only [run_skipNewlines_bind, skipNewlines_of_ne before, run_bind run,
    skipNewlines_of_ne after, run_expect_bind behind.peek]
  rw [show s₁.advance = s' from behind.advance]

theorem Spelled.index (target : Spelled inner 8 ts e) {i : Expr} (index : Whole inner us i)
    (pos : Position) :
    Spelled inner 8 (ts ++ .lbracket :: (us ++ [.rbracket])) (.index e i pos) := by
  refine .ofAccesses (target.leading.append nofun nofun) fun s s' ahead next => ?_
  obtain ⟨s₁, before, ahead⟩ := ahead_append.1 ahead
  obtain ⟨budget, e', run, long, bare⟩ :=
    target.accessed le_rfl before (by rw [ahead.peek]; decide)
  obtain ⟨i', bareIndex, runIndex⟩ := index.bracketed rfl ahead.advance
  have passed := ahead.length
  match budget with
  | b :: budget =>
    refine ⟨budget, .index e' i' s₁.pos, ?_, ?_, by simp only [Expr.bare, bare, bareIndex]⟩
    · rw [run, accesses, run_pos_bind, run_peek_bind, ahead.peek]
      simp only [run_advance_bind, runIndex]
    · simp only [List.length_cons] at long passed
      omega

theorem Spelled.field (target : Spelled inner 8 ts e) (name : String) (pos : Position) :
    Spelled inner 8 (ts ++ [.dot, .ident name]) (.field e name pos) := by
  refine .ofAccesses (target.leading.append nofun nofun) fun s s' ahead next => ?_
  obtain ⟨s₁, before, ahead⟩ := ahead_append.1 ahead
  obtain ⟨budget, e', run, long, bare⟩ :=
    target.accessed le_rfl before (by rw [ahead.peek]; decide)
  have passed := ahead.length
  match budget with
  | b :: budget =>
    refine ⟨budget, .field e' name s₁.pos, ?_, ?_, by simp only [Expr.bare, bare]⟩
    · rw [run, accesses, run_pos_bind, run_peek_bind, ahead.peek]
      simp only [run_advance_bind, run_ident_bind ahead.advance.peek]
      rw [show s₁.advance.advance = s' from ahead.advance.advance]
    · simp only [List.length_cons] at long passed
      omega

theorem Spelled.parentheses (h : Whole inner ts e) :
    Spelled inner 8 (.lparen :: (ts ++ [.rparen])) e := by
  refine .ofPrimary ⟨rfl, nofun⟩ rfl fun s s' ahead _ => ?_
  obtain ⟨e', bare, run⟩ := h.bracketed rfl ahead.advance
  refine ⟨e', ?_, bare⟩
  rw [primary, run_pos_bind, run_peek_bind, ahead.peek]
  simp only [run_advance_bind, run, run_pure]

end Parser

end WidgetScript
