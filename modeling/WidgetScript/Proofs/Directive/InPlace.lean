import WidgetScript.Directive.Apply
import WidgetScript.Proofs.Forest.Swap

/-! A directive that edits a forest in place comes to the same as one that gives a new forest,
because all that can fail comes before the edit. -/
namespace WidgetScript

namespace Widget
variable {id : String} {old : Widget}

mutual

theorem edit?_eq (g : Widget → Widget) : (w : Widget) → find? id w = some old →
    edit? id g w = edit? id (fun _ => g old) w
  | ⟨kind, name, props, children, pos⟩, h => by
    rw [find?] at h
    rw [edit?, edit?]
    split at h
    next same =>
      cases h
      rw [if_pos same, if_pos same]
    next other => rw [if_neg other, if_neg other, editAmong?_eq g children h]

theorem editAmong?_eq (g : Widget → Widget) : (ws : List Widget) → findAmong? id ws = some old →
    editAmong? id g ws = editAmong? id (fun _ => g old) ws
  | [], h => nomatch h
  | w :: ws, h => by
    rw [findAmong?] at h
    rw [editAmong?, editAmong?]
    split at h
    next found here =>
      cases h
      obtain ⟨_, path⟩ := swap_of_find? (g old) w here
      obtain ⟨_, _, w', edited, -⟩ := path none []
      rw [edit?_eq g w here, edited]
    next missed =>
      obtain ⟨edit, -⟩ := not_found w missed
      obtain ⟨edit', -⟩ := not_found w missed
      rw [edit, edit', editAmong?_eq g ws h]

end

end Widget

theorem Forest.edit_eq {f : Forest} {id : String} {old : Widget} (g : Widget → Widget)
    (h : f.find? id = some old) : f.edit id g = f.edit id fun _ => g old := by
  rw [Forest.edit, Forest.edit, Widget.editAmong?_eq g f.roots h]

namespace InPlace

/-- It comes to the outcome, an edited forest or an error and the forest as it was. -/
def ComesTo (forest : Forest) (m : InPlace Unit) (id : String) (r : Except DispatchError Widget) :
    Prop :=
  m forest = match r with
    | .ok w => (.ok (), forest.edit id fun _ => w)
    | .error e => (.error e, forest)

namespace ComesTo
variable {α : Type} {forest : Forest} {id : String} {r : Except DispatchError α}
  {m : α → InPlace Unit} {f : α → Except DispatchError Widget}

theorem check (h : ∀ a, r = .ok a → ComesTo forest (m a) id (f a)) :
    ComesTo forest (InPlace.check r >>= m) id (r >>= f) := by
  cases r with
  | ok a => exact h a rfl
  | error e => rfl

theorem error (e : DispatchError) : ComesTo forest (InPlace.check (.error e)) id (.error e) := rfl

theorem edit {target : Widget} (found : forest.find? id = some target) (g : Widget → Widget) :
    ComesTo forest (InPlace.edit id g) id (.ok (g target)) := by
  change (_, forest.edit id g) = (_, _)
  rw [Forest.edit_eq g found]

end ComesTo
end InPlace

namespace Directive
open InPlace

variable {d : Directive} {live : LiveTree} {forest : Forest}

theorem performOn_comesTo {target : Widget} (found : forest.find? d.target = some target) :
    ComesTo forest (performOn forest live d target) d.target (d.change forest live target) := by
  have edited (g : Widget → Widget) := ComesTo.edit found g
  have bad (fault : ValueFault) : ComesTo forest
      (check ((Except.error fault).mapError (DispatchError.badValue d.target d.action))) d.target
      ((Except.error fault).mapError (DispatchError.badValue d.target d.action)) := .error _
  unfold performOn change
  dsimp only
  cases action : d.action with
  | set setter => exact .check fun given _ => .check fun props _ => edited _
  | appendChild =>
    rw [action] at bad
    refine .check fun child _ => ?_
    split
    · exact bad _
    · split
      · exact bad _
      · exact .check fun _ _ => .check fun _ _ => .check fun _ _ => edited _
  | removeChild =>
    rw [action] at bad
    cases d.value.str? with
    | none => exact bad _
    | some id =>
      dsimp only
      cases Widget.takeSibling? id target.children with
      | none => exact bad _
      | some taken => exact edited _
  | replace =>
    rw [action] at bad
    refine .check fun w _ => ?_
    split
    · exact bad _
    · split
      · exact bad _
      · exact .check fun _ _ => .check fun _ _ => .check fun _ _ => edited _

/-- Carried out in place a directive comes to the same, and if it fails the forest is as before. -/
theorem perform_eq : d.perform live forest = match d.apply forest live with
    | .ok forest' => (.ok (), forest')
    | .error e => (.error e, forest) := by
  have started (k : Forest → InPlace Unit) : (get >>= k) forest = k forest forest := rfl
  rw [perform, Directive.apply, started]
  cases found : forest.find? d.target with
  | none => rfl
  | some target =>
    change performOn forest live d target forest = _
    rw [performOn_comesTo found]
    dsimp only
    cases d.change forest live target <;> rfl

theorem perform_of_ok {forest' : Forest} (h : d.apply forest live = .ok forest') :
    d.perform live forest = (.ok (), forest') := by
  rw [perform_eq, h]

theorem perform_of_error {e : DispatchError} (h : d.apply forest live = .error e) :
    d.perform live forest = (.error e, forest) := by
  rw [perform_eq, h]

end Directive
end WidgetScript
