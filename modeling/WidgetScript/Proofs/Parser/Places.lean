import Mathlib.Data.List.Nodup
import WidgetScript.Proofs.Ast.Nodes
import WidgetScript.Proofs.Parser.Sound
import WidgetScript.Proofs.Token.Places

/-! No two nodes of a parsed script stand in the same place, since each stands where a token of
its own does. For the nodes in a placeholder these are tokens of its source. -/
namespace WidgetScript

/-- The nodes stand between the two places, and no two of them in one. -/
structure Apart (lo : Position) (ns : List Node) (hi : Position) : Prop where
  le : lo ≤ hi
  nodup : (ns.map Node.pos).Nodup
  between : ∀ n ∈ ns, lo ≤ n.pos ∧ n.pos < hi

namespace Apart
variable {lo lo' mid hi hi' : Position} {n : Node} {ns ns' : List Node}

theorem nil (le : lo ≤ hi) : Apart lo [] hi := ⟨le, .nil, nofun⟩

theorem mono (h : Apart lo ns hi) (le : lo' ≤ lo) (le' : hi ≤ hi') : Apart lo' ns hi' where
  le := le.trans (h.le.trans le')
  nodup := h.nodup
  between n hn := ⟨le.trans (h.between n hn).1, (h.between n hn).2.trans_le le'⟩

theorem append (h : Apart lo ns mid) (h' : Apart mid ns' hi) : Apart lo (ns ++ ns') hi where
  le := h.le.trans h'.le
  nodup := by
    rw [List.map_append]
    refine h.nodup.append h'.nodup fun p hp hp' => ?_
    obtain ⟨n, hn, rfl⟩ := List.mem_map.1 hp
    obtain ⟨n', hn', same⟩ := List.mem_map.1 hp'
    have before := (h.between n hn).2.trans_le (h'.between n' hn').1
    exact (same ▸ before).false
  between n hn := by
    rcases List.mem_append.1 hn with hn | hn
    · exact ⟨(h.between n hn).1, (h.between n hn).2.trans_le h'.le⟩
    · exact ⟨h.le.trans (h'.between n hn).1, (h'.between n hn).2⟩

theorem single (le : lo ≤ n.pos) (lt : n.pos < hi) : Apart lo [n] hi where
  le := le.trans lt.le
  nodup := List.nodup_singleton _
  between := by simpa using ⟨le, lt⟩

theorem cons (le : lo ≤ n.pos) (lt : n.pos < mid) (h : Apart mid ns hi) : Apart lo (n :: ns) hi :=
  (single le lt).append h

theorem perm (h : Apart lo ns hi) (same : ns'.Perm ns) : Apart lo ns' hi where
  le := h.le
  nodup := (same.map _).nodup_iff.2 h.nodup
  between n hn := h.between n (same.mem_iff.1 hn)

theorem behind (h : Apart lo ns mid) (le : mid ≤ n.pos) (lt : n.pos < hi) :
    Apart lo (n :: ns) hi :=
  (h.append (single le lt)).perm (List.perm_append_singleton n ns).symm

theorem middle {mid' : Position} (h : Apart lo ns mid) (le : mid ≤ n.pos) (lt : n.pos < mid')
    (h' : Apart mid' ns' hi) : Apart lo (n :: (ns ++ ns')) hi :=
  (h.behind le lt).append h'

end Apart

namespace Parser
variable {n : Nat} {phrase : Phrase} {lo hi : Position} {ls : List Lexeme}

def Argument.nodes : Argument → List Node
  | .positional e => e.nodes
  | .keyword e => e.nodes

def Phrase.nodes : Phrase → List Node
  | .operand _ e | .whole e | .padded e => e.nodes
  | .parts _ ps => Part.nodesAll ps
  | .element _ a => a.nodes
  | .row _ _ as => as.flatMap Argument.nodes
  | .block b => Block.nodes? b
  | .body ss | .stmts ss => Stmt.nodesAll ss
  | .stmt s => s.nodes

def Phrase.Within (lo : Position) (ls : List Lexeme) (hi : Position) : Phrase → Prop
  | .parts segments _ => Holed lo (segments.filterMap Segment.hole?) hi
  | _ => Laid lo ls hi

theorem nodes_positional (es : List Expr) :
    (es.map Argument.positional).flatMap Argument.nodes = Expr.nodesAll es := by
  induction es with
  | nil => rfl
  | cons e es ih => rw [List.map_cons, List.flatMap_cons, ih]; rfl

theorem nodes_keyword (es : List Entry) :
    (es.map Argument.keyword).flatMap Argument.nodes = Entry.nodesAll es := by
  induction es with
  | nil => rfl
  | cons e es ih => rw [List.map_cons, List.flatMap_cons, ih]; rfl

theorem nodes_arguments (as : List Argument) :
    (Expr.nodesAll (as.filterMap (·.positional?)) ++
      Entry.nodesAll (as.filterMap (·.keyword?))).Perm (as.flatMap Argument.nodes) := by
  induction as with
  | nil => exact .nil
  | cons a as ih =>
    cases a with
    | positional e =>
      change ((e.nodes ++ Expr.nodesAll _) ++ _).Perm (e.nodes ++ _)
      rw [List.append_assoc]
      exact ih.append_left _
    | keyword e =>
      change (Expr.nodesAll _ ++ (e.nodes ++ Entry.nodesAll _)).Perm (e.nodes ++ _)
      exact (List.perm_append_comm_assoc _ _ _).trans (ih.append_left _)

theorem Derives.apart (h : Derives n phrase ls) (within : phrase.Within lo ls hi) :
    Apart lo phrase.nodes hi := by
  induction h generalizing lo hi with
  | literal | text | ident | symbol =>
    obtain ⟨mid, le, lt, rest⟩ := Laid.of_cons within
    exact .cons le lt (.nil rest.le)
  | interpolated _ ih =>
    cases within with
    | cons le lt holed rest => exact .cons le lt ((ih holed).mono (le_refl _) rest.le)
  | list _ ih =>
    obtain ⟨mid, le, lt, rest⟩ := Laid.of_cons within
    exact .cons le lt (nodes_positional _ ▸ ih rest.left)
  | map _ ih =>
    obtain ⟨mid, le, lt, rest⟩ := Laid.of_cons within
    exact .cons le lt (nodes_keyword _ ▸ ih rest.left)
  | call _ _ ihRow ihBlock =>
    obtain ⟨mid, le, lt, rest⟩ := Laid.of_cons within
    obtain ⟨mid', row, block⟩ := rest.tail.of_append
    have inside := (ihRow row).append (ihBlock block.tail)
    -- The row has the arguments in the order of the text, the call has them by kind.
    exact .cons le lt (inside.perm ((nodes_arguments _).append_right _))
  | doCall _ ih =>
    obtain ⟨mid, le, lt, rest⟩ := Laid.of_cons within
    exact .cons le lt (ih rest)
  | parens _ ih =>
    exact ih (Laid.tail within).left
  | index _ _ ihTarget ihKey =>
    obtain ⟨mid, target, rest⟩ := Laid.of_append within
    obtain ⟨mid', le, lt, key⟩ := rest.of_cons
    exact (ihTarget target).middle le lt (ihKey key.left)
  | field _ ih =>
    obtain ⟨mid, target, rest⟩ := Laid.of_append within
    obtain ⟨mid', le, lt, name⟩ := rest.of_cons
    exact (ih target).behind le (lt.trans_le name.le)
  | unary _ _ ih =>
    obtain ⟨mid, le, lt, rest⟩ := Laid.of_cons within
    exact .cons le lt (ih rest)
  | binary _ _ _ ihLhs ihRhs =>
    obtain ⟨mid, lhs, rest⟩ := Laid.of_append within
    obtain ⟨mid', le, lt, rhs⟩ := rest.of_cons
    exact (ihLhs lhs).middle le lt (ihRhs rhs.right)
  | weaken _ ih | whole _ ih | body _ ih | expr _ ih => exact ih within
  | padded _ _ _ ih => exact ih (Laid.right within).left
  | noParts | noElements | noBlock | noStmts => exact .nil within.le
  | textPart _ ih => exact ih within
  | holePart lexed _ _ _ ihHole ihRest =>
    cases within with
    | cons le lt holed =>
      have inside := (Lexer.tokenizeAt_laid lexed lt).left
      exact ((ihHole inside).mono le (le_refl _)).append (ihRest holed)
  | positional _ _ ih => exact ih within
  | keyword _ _ _ _ ih =>
    obtain ⟨mid, le, lt, rest⟩ := (Laid.right within).of_cons
    exact .cons le lt (ih rest.tail)
  | lastElement _ _ ih =>
    exact (ih within).append (.nil (le_refl hi))
  | elements _ _ _ ihFirst ihRest =>
    obtain ⟨mid, first, rest⟩ := Laid.of_append within
    exact (ihFirst first).append (ihRest rest.tail)
  | block _ ih =>
    obtain ⟨mid, le, lt, rest⟩ := Laid.of_cons within
    exact .cons le lt (ih rest.left)
  | assign _ _ ih =>
    obtain ⟨mid, le, lt, rest⟩ := Laid.of_cons within
    exact .cons le lt (ih rest.tail.right)
  | define _ _ ih =>
    obtain ⟨mid, le, lt, rest⟩ := Laid.of_cons within
    exact .cons le lt (ih rest.tail.right.left)
  | cond _ _ ihTest ihYes =>
    obtain ⟨mid, le, lt, rest⟩ := Laid.of_cons within
    obtain ⟨mid', test, rest⟩ := rest.of_append
    have inside := (ihTest test).append (ihYes rest.left)
    exact .cons le lt (inside.append (.nil (le_refl hi)))
  | condElse _ _ _ ihTest ihYes ihNo =>
    obtain ⟨mid, le, lt, rest⟩ := Laid.of_cons within
    obtain ⟨_, test, rest⟩ := rest.of_append
    obtain ⟨_, yes, rest⟩ := rest.of_append
    exact .cons le lt (((ihTest test).append (ihYes yes)).append (ihNo rest.tail.left))
  | lastStmt _ _ ih =>
    exact (ih (Laid.right within)).append (.nil (le_refl hi))
  | stmts _ _ _ ihFirst ihRest =>
    obtain ⟨mid, first, rest⟩ := (Laid.right within).of_append
    exact (ihFirst first).append (ihRest rest.tail)

end Parser

theorem Script.places_nodup {source : String} {script : Script}
    (h : Script.parse source = .ok script) : script.places.Nodup := by
  obtain ⟨tokens, lexed, parsed⟩ := bind_eq_ok.1 h
  obtain ⟨ls, rest, rfl, derived, -⟩ := Parser.script_ok parsed
  have laid := Lexer.tokenizeAt_laid lexed (Position.lt_advance _ ' ')
  exact (derived.apart laid.left).nodup

end WidgetScript
