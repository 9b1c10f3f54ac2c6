import WidgetScript.Proofs.Ast.Nodes
import WidgetScript.Proofs.Ast.Spelling

/-! How deep expressions are in one another. Operators of one strength are read one after the
other but make a tree that leans to the left, so there are two ways to count: each node of such a
chain, or the chain as a whole. -/
namespace WidgetScript

/-- How strongly those operators bind of which the expression may be a chain, which are infix
operators or accesses. -/
def Expr.chain? : Expr → Option Nat
  | .binary op _ _ _ => some op.prec
  | .index _ _ _ | .field _ _ _ => some 8
  | _ => none

/-- What a node adds to the operand before its operator. If chains count as a whole, it is
nothing where the node goes on with one. -/
def Expr.link (whole : Bool) (strength : Nat) (before : Expr) : Nat :=
  if whole ∧ before.chain? = some strength then 0 else 1

mutual

def Expr.nesting (whole : Bool) : Expr → Nat
  | .literal _ _ | .ident _ _ | .symbol _ _ => 1
  | .interpolated parts _ => Part.nestingAll whole parts + 1
  | .list items _ => Expr.nestingAll whole items + 1
  | .map entries _ => Entry.nestingAll whole entries + 1
  | .call _ args kwargs _ _ =>
      max (Expr.nestingAll whole args) (Entry.nestingAll whole kwargs) + 1
  | .index target key _ => max (target.nesting whole + target.link whole 8) (key.nesting whole + 1)
  | .field target _ _ => target.nesting whole + target.link whole 8
  | .unary _ operand _ => operand.nesting whole + 1
  | .binary op lhs rhs _ =>
      max (lhs.nesting whole + lhs.link whole op.prec) (rhs.nesting whole + 1)

def Expr.nestingAll (whole : Bool) : List Expr → Nat
  | [] => 0
  | e :: es => max (e.nesting whole) (Expr.nestingAll whole es)

def Part.nesting (whole : Bool) : Part → Nat
  | .text _ => 0
  | .hole value => value.nesting whole

def Part.nestingAll (whole : Bool) : List Part → Nat
  | [] => 0
  | p :: ps => max (p.nesting whole) (Part.nestingAll whole ps)

def Entry.nesting (whole : Bool) : Entry → Nat
  | .mk _ value _ => value.nesting whole

def Entry.nestingAll (whole : Bool) : List Entry → Nat
  | [] => 0
  | e :: es => max (e.nesting whole) (Entry.nestingAll whole es)

end

def Expr.depth (e : Expr) : Nat := e.nesting false

def Expr.height (e : Expr) : Nat := e.nesting true

def Low (bound : Nat) (ns : List Node) : Prop := ∀ e, .expr e ∈ ns → e.height ≤ bound

variable {bound : Nat} {n : Node} {ns ns' : List Node}

theorem low_nil : Low bound [] := nofun

theorem low_cons :
    Low bound (n :: ns) ↔ (∀ e, n = .expr e → e.height ≤ bound) ∧ Low bound ns := by
  simp only [Low, List.mem_cons, or_imp, forall_and, eq_comm]

theorem low_append : Low bound (ns ++ ns') ↔ Low bound ns ∧ Low bound ns' := by
  simp only [Low, List.mem_append, or_imp, forall_and]

theorem Low.mono {bound' : Nat} (h : Low bound ns) (le : bound ≤ bound') : Low bound' ns :=
  fun e he => Nat.le_trans (h e he) le

theorem Low.cons {e : Expr} (h : Low bound ns) (le : e.height ≤ bound) :
    Low bound (.expr e :: ns) := by
  refine low_cons.2 ⟨fun e' same => ?_, h⟩
  cases same
  exact le

theorem Expr.mem_nodes (e : Expr) : .expr e ∈ e.nodes := by
  cases e <;> simp [Expr.nodes]

theorem Low.height_le {e : Expr} (h : Low bound e.nodes) : e.height ≤ bound := h e e.mem_nodes

theorem Low.exprs {es : List Expr} (h : Low bound (Expr.nodesAll es)) :
    Expr.nestingAll true es ≤ bound := by
  induction es with
  | nil => exact Nat.zero_le _
  | cons e es ih =>
    obtain ⟨first, rest⟩ := low_append.1 h
    exact Nat.max_le.2 ⟨first.height_le, ih rest⟩

theorem Low.parts {ps : List Part} (h : Low bound (Part.nodesAll ps)) :
    Part.nestingAll true ps ≤ bound := by
  induction ps with
  | nil => exact Nat.zero_le _
  | cons p ps ih =>
    obtain ⟨first, rest⟩ := low_append.1 h
    refine Nat.max_le.2 ⟨?_, ih rest⟩
    cases p with
    | text t => exact Nat.zero_le _
    | hole e => exact Low.height_le first

theorem Low.entries {es : List Entry} (h : Low bound (Entry.nodesAll es)) :
    Entry.nestingAll true es ≤ bound := by
  induction es with
  | nil => exact Nat.zero_le _
  | cons e es ih =>
    obtain ⟨first, rest⟩ := low_append.1 h
    obtain ⟨key, value, pos⟩ := e
    exact Nat.max_le.2 ⟨(low_cons.1 first).2.height_le, ih rest⟩

end WidgetScript
