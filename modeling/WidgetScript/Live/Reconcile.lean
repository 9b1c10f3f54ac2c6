import WidgetScript.Live.Tree

/-! Reconciling finds the commands that turn a live tree into a declaration. An entity
survives if it is declared under the parent that it has and the parent itself survives; it
then keeps its handle and gets only the properties that differ. All else is destroyed or
created. First come the destructions, one for each subtree, and then, along the
declaration, creations and updates, with a new order after the children of a parent that
would otherwise stand wrong. -/
namespace WidgetScript

inductive ReconcileError where
  | kindMismatch (id : String) (live declared : Kind)
deriving DecidableEq, Repr

def ReconcileError.message : ReconcileError → String
  | .kindMismatch id live declared =>
      "widget `" ++ id ++ "` changed kind from `" ++ live.name ++ "` to `" ++ declared.name
        ++ "` at the same position"

namespace Reconcile

structure Declared where
  parent : Option String
  kind : Kind

abbrev Index := Fields Declared

mutual

def indexWidget (parent : Option String) : Widget → Index → Index
  | ⟨kind, id, _, children, _⟩, index =>
      indexAll (some id) children (Fields.insert id ⟨parent, kind⟩ index)

def indexAll (parent : Option String) : List Widget → Index → Index
  | [], index => index
  | w :: ws, index => indexAll parent ws (indexWidget parent w index)

end

/-- The ids of a live tree that are destroyed, and those that survive. -/
structure Survey where
  destroyed : List String
  survivors : List String

def Survey.append (a b : Survey) : Survey :=
  ⟨a.destroyed ++ b.destroyed, a.survivors ++ b.survivors⟩

def surveyEach (one : String → Except ReconcileError Survey) :
    List String → Except ReconcileError Survey
  | [] => .ok ⟨[], []⟩
  | id :: ids => do
      let first ← one id
      let rest ← surveyEach one ids
      .ok (first.append rest)

def survey (live : LiveTree) (index : Index) :
    (levels : Nat) → (parent : Option String) → List String → Except ReconcileError Survey
  | 0, _, _ => .ok ⟨[], []⟩
  | levels + 1, parent, ids => surveyEach (fun id =>
      match live.get? id with
      | none => .ok ⟨[], []⟩
      | some e =>
          match Fields.get? index id with
          | some d =>
              if d.parent = parent then
                if d.kind = e.kind then do
                  let below ← survey live index levels (some id) e.children
                  .ok (Survey.append ⟨[], [id]⟩ below)
                else .error (.kindMismatch id e.kind d.kind)
              else .ok ⟨[id], []⟩
          | none => .ok ⟨[id], []⟩) ids

section
variable (live : LiveTree) (survivors : List String)

def survivor? (id : String) : Option Entity :=
  if id ∈ survivors then live.get? id else none

/-- The surviving children keep their places and the new ones follow; a new order is due
if that is not the declared one. -/
def reorder (parent : Option String) (liveChildren : List String) (declared : List Widget) :
    List Command :=
  let kept := liveChildren.filter (· ∈ survivors)
  let created := (declared.map (·.id)).filter fun id => (survivor? live survivors id).isNone
  if kept ++ created = declared.map (·.id) then []
  else [.reorder parent (declared.map (·.id))]

def update (id : String) (old new : Properties) : List Command :=
  let changed := Properties.diff old new
  if changed.isEmpty then [] else [.update id changed]

mutual

def emit (parent : Option String) : Widget → List Command
  | ⟨kind, id, props, children, _⟩ =>
      match survivor? live survivors id with
      | some e =>
          update id e.props props ++ emitAll (some id) children
            ++ reorder live survivors (some id) e.children children
      | none =>
          .create parent ⟨kind, id, props⟩ :: emitAll (some id) children
            ++ reorder live survivors (some id) [] children

def emitAll (parent : Option String) : List Widget → List Command
  | [] => []
  | w :: ws => emit parent w ++ emitAll parent ws

end

end

end Reconcile

/-- The commands that turn a live tree into a declaration, whose ids are unique. -/
def LiveTree.reconcile (live : LiveTree) (declared : Forest) :
    Except ReconcileError (List Command) := do
  let index := Reconcile.indexAll none declared.roots []
  let survey ← Reconcile.survey live index (live.size + 1) none live.roots
  .ok (survey.destroyed.map .destroy
    ++ Reconcile.emitAll live survey.survivors none declared.roots
    ++ Reconcile.reorder live survey.survivors none live.roots declared.roots)

end WidgetScript
