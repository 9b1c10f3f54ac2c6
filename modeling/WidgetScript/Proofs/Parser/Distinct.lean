import Mathlib
import WidgetScript.Proofs.Parser.Places

/-! No call, map or function of a parsed script has a key or parameter twice, however deep in
blocks, bodies and placeholders it stands. Nothing that runs a script looks for this again: there a
later one would take the place of an earlier one. -/
namespace WidgetScript

/-- The keys of a call or of a map, or the parameters of a function. -/
def Node.keys : Node → List String
  | .expr (.call _ _ kwargs _ _) => kwargs.map Entry.key
  | .expr (.map entries _) => entries.map Entry.key
  | .stmt (.define _ params _ _) => params
  | _ => []

namespace Parser
variable {n : Nat} {phrase : Phrase} {a : Argument} {as : List Argument} {seen names : List String}
  {ls : List Lexeme} {nodes : List Node}

def Argument.keysAll (as : List Argument) : List String := as.flatMap Argument.keys

theorem keysAll_keyword (es : List Entry) :
    Argument.keysAll (es.map .keyword) = es.map Entry.key := by
  induction es with
  | nil => rfl
  | cons e es ih => exact congrArg (e.key :: ·) ih

theorem keysAll_eq (as : List Argument) :
    Argument.keysAll as = (as.filterMap (·.keyword?)).map Entry.key := by
  induction as with
  | nil => rfl
  | cons a as ih =>
    cases a with
    | positional e => exact ih
    | keyword e => exact congrArg (e.key :: ·) ih

def Fresh (seen keys : List String) : Prop := keys.Nodup ∧ ∀ key ∈ keys, key ∉ seen

theorem Fresh.nil : Fresh seen [] := ⟨.nil, nofun⟩

theorem Fresh.cons {key : String} {keys : List String} (new : key ∉ seen)
    (h : Fresh (key :: seen) keys) : Fresh seen (key :: keys) := by
  obtain ⟨nodup, apart⟩ := h
  refine ⟨List.nodup_cons.2 ⟨fun mem => apart key mem (.head _), nodup⟩, ?_⟩
  rintro key' (_ | ⟨_, mem⟩)
  · exact new
  · exact fun old => apart key' mem (.tail _ old)

theorem Fresh.row (new : ∀ key ∈ a.keys, key ∉ seen)
    (h : Fresh (a.keys ++ seen) (Argument.keysAll as)) :
    Fresh seen (Argument.keysAll (a :: as)) := by
  cases a with
  | positional e => exact h
  | keyword e => exact .cons (new e.key (.head _)) h

theorem Names.fresh (h : Names seen names ls) : Fresh seen names := by
  induction h with
  | nil => exact .nil
  | last new _ => exact .cons new .nil
  | cons new _ _ _ ih => exact .cons new ih

theorem Params.nodup (h : Params names ls) : names.Nodup := by
  cases h with
  | none => exact .nil
  | some _ names => exact names.fresh.1

def Unrepeated (nodes : List Node) : Prop := ∀ n ∈ nodes, n.keys.Nodup

theorem Unrepeated.nil : Unrepeated [] := nofun

theorem Unrepeated.cons {node : Node} (own : node.keys.Nodup) (h : Unrepeated nodes) :
    Unrepeated (node :: nodes) := List.forall_mem_cons.2 ⟨own, h⟩

theorem Unrepeated.append {nodes' : List Node} (h : Unrepeated nodes) (h' : Unrepeated nodes') :
    Unrepeated (nodes ++ nodes') := List.forall_mem_append.2 ⟨h, h'⟩

/-- Only a row has keys that are not yet those of a node. -/
def Phrase.Distinct : Phrase → Prop
  | .row _ seen as => Fresh seen (Argument.keysAll as) ∧ Unrepeated (as.flatMap Argument.nodes)
  | phrase => Unrepeated phrase.nodes

theorem Derives.distinct (h : Derives n phrase ls) : phrase.Distinct := by
  induction h with
  | literal | text | ident | symbol => exact .cons .nil .nil
  | interpolated _ ih => exact .cons .nil ih
  | list _ ih =>
    obtain ⟨-, inside⟩ := ih
    exact .cons .nil (nodes_positional _ ▸ inside)
  | map _ ih =>
    obtain ⟨⟨keys, -⟩, inside⟩ := ih
    rw [keysAll_keyword] at keys
    exact .cons keys (nodes_keyword _ ▸ inside)
  | call _ _ ihRow ihBlock =>
    obtain ⟨⟨keys, -⟩, row⟩ := ihRow
    rw [keysAll_eq] at keys
    have args : Unrepeated (Expr.nodesAll _ ++ Entry.nodesAll _) :=
      fun n hn => row n ((nodes_arguments _).mem_iff.1 hn)
    exact .cons keys (args.append ihBlock)
  | doCall _ ih => exact .cons .nil ih
  | parens _ ih | weaken _ ih | whole _ ih | padded _ _ _ ih | textPart _ ih | positional _ _ ih
  | body _ ih | expr _ ih => exact ih
  | index _ _ ihTarget ihKey => exact .cons .nil (ihTarget.append ihKey)
  | field _ ih | unary _ _ ih => exact .cons .nil ih
  | binary _ _ _ ihLhs ihRhs => exact .cons .nil (ihLhs.append ihRhs)
  | noParts | noBlock | noStmts => exact .nil
  | holePart _ _ _ _ ihHole ihRest => exact .append ihHole ihRest
  | keyword _ _ _ _ ih => exact .cons .nil ih
  | noElements => exact ⟨.nil, .nil⟩
  | lastElement new _ ih => exact ⟨.row new .nil, .append ih .nil⟩
  | elements new _ _ ihFirst ihRest =>
    obtain ⟨keys, rest⟩ := ihRest
    exact ⟨.row new keys, .append ihFirst rest⟩
  | block _ ih => exact .cons .nil ih
  | assign _ _ ih => exact .cons .nil ih
  | define params _ ih => exact .cons params.nodup ih
  | cond _ _ ihTest ihYes => exact .cons .nil (.append (.append ihTest ihYes) .nil)
  | condElse _ _ _ ihTest ihYes ihNo => exact .cons .nil (.append (.append ihTest ihYes) ihNo)
  | lastStmt _ _ ih => exact .append ih .nil
  | stmts _ _ _ ihFirst ihRest => exact .append ihFirst ihRest

end Parser

/-- No node of a script that is parsed has a key twice. -/
theorem Script.keys_nodup {source : String} {script : Script}
    (h : Script.parse source = .ok script) : ∀ n ∈ script.nodes, n.keys.Nodup := by
  obtain ⟨tokens, -, parsed⟩ := bind_eq_ok.1 h
  obtain ⟨ls, rest, -, derived, -⟩ := Parser.script_ok parsed
  exact derived.distinct

set_option maxRecDepth 2000 in
/-- A function whose call has a map, and in that a placeholder with a call of its own. -/
theorem Script.keys_nodup_nested :
    let source := "def f(a, b)\n  g(x: \x7bk: a, \"l\": \"#\x7bh(y: b, z: a)\x7d\"\x7d)\nend"
    ∃ script, parse source = .ok script ∧
      [["a", "b"], ["x"], ["k", "l"], ["y", "z"]].Sublist (script.nodes.map Node.keys) ∧
      ∀ n ∈ script.nodes, n.keys.Nodup := by
  intro source
  let script : Script := ⟨[.define "f" ["a", "b"] [.expr (.call "g" [] [.mk "x" (.map
    [.mk "k" (.ident "a" ⟨2, 12⟩) ⟨2, 9⟩, .mk "l" (.interpolated [.hole (.call "h" []
      [.mk "y" (.ident "b" ⟨2, 28⟩) ⟨2, 25⟩, .mk "z" (.ident "a" ⟨2, 34⟩) ⟨2, 31⟩] none ⟨2, 23⟩)]
      ⟨2, 20⟩) ⟨2, 15⟩] ⟨2, 8⟩) ⟨2, 5⟩] none ⟨2, 3⟩)] ⟨1, 1⟩]⟩
  have parsed : parse source = .ok script := by cbv
  exact ⟨script, parsed, by decide, Script.keys_nodup parsed⟩

end WidgetScript
