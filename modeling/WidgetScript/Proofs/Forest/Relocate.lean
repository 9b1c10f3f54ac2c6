import WidgetScript.Proofs.Forest
import WidgetScript.Proofs.Value.Relocate

/-! Widgets that stand elsewhere make the same tree: what is counted and looked for in it are ids,
kinds and levels. -/
namespace WidgetScript
namespace Widget
variable {f : Position → Position} {id : String} {new : Widget}

mutual

theorem depth_relocate : (w : Widget) → (w.relocate f).depth = w.depth
  | ⟨kind, id, props, children, pos⟩ => by
    rw [relocate, depth, depth, depthAll_relocateAll children]

theorem depthAll_relocateAll : (ws : List Widget) → depthAll (relocateAll f ws) = depthAll ws
  | [] => rfl
  | w :: ws => by rw [relocateAll, depthAll, depthAll, depth_relocate w, depthAll_relocateAll ws]

end

mutual

theorem placed_relocate (parent : Option String) : (w : Widget) →
    (w.relocate f).placed parent = (w.placed parent).map fun place => (place.1, place.2.relocate f)
  | ⟨kind, id, props, children, pos⟩ => by
    rw [relocate, placed, placed, placedAll_relocateAll (some id) children, List.map_cons, relocate]

theorem placedAll_relocateAll (parent : Option String) : (ws : List Widget) →
    placedAll parent (relocateAll f ws) =
      (placedAll parent ws).map fun place => (place.1, place.2.relocate f)
  | [] => rfl
  | w :: ws => by
    rw [relocateAll, placedAll, placedAll, placed_relocate parent w,
      placedAll_relocateAll parent ws, List.map_append]

end

theorem containsWindow_relocate (w : Widget) :
    (w.relocate f).containsWindow = w.containsWindow := by
  rw [containsWindow, containsWindow, preorder_relocate, List.any_map]
  exact congrArg w.preorder.any (funext fun n => by rw [Function.comp_apply, relocate_kind])

theorem ids_relocate (w : Widget) : (w.relocate f).ids = w.ids := by
  rw [ids, ids, preorder_relocate, List.map_map]
  exact List.map_congr_left fun n _ => n.relocate_id

mutual

theorem edit?_relocate : (w : Widget) →
    edit? id (fun _ => new.relocate f) (w.relocate f) =
      (edit? id (fun _ => new) w).map (relocate f)
  | ⟨kind, name, props, children, pos⟩ => by
    rw [relocate, edit?, edit?, editAmong?_relocateAll children]
    split
    · rfl
    · simp only [Option.map_map, Function.comp_def, relocate]

theorem editAmong?_relocateAll : (ws : List Widget) →
    editAmong? id (fun _ => new.relocate f) (relocateAll f ws) =
      (editAmong? id (fun _ => new) ws).map (relocateAll f)
  | [] => rfl
  | w :: ws => by
    rw [relocateAll, editAmong?, editAmong?, edit?_relocate w, editAmong?_relocateAll ws]
    cases edit? id (fun _ => new) w with
    | some w => rfl
    | none => simp only [Option.map_none, Option.map_map, Function.comp_def, relocateAll]

end

theorem bare_eq (w : Widget) : w.bare = ⟨w.kind, w.id, w.props, w.children.map bare, .none⟩ := by
  cases w
  rw [bare, relocate, relocateAll_eq_map]
  rfl

end Widget

def Forest.bare (f : Forest) : Forest := ⟨f.roots.map Widget.bare⟩

theorem Forest.bare_edit (f : Forest) (id : String) (new : Widget) :
    (f.edit id fun _ => new).bare = f.bare.edit id fun _ => new.bare := by
  have row : List.map Widget.bare = Widget.relocateAll fun _ => .none :=
    funext fun ws => (Widget.relocateAll_eq_map ws).symm
  have edited : Widget.editAmong? id (fun _ => new.bare) (f.roots.map Widget.bare) =
      (Widget.editAmong? id (fun _ => new) f.roots).map (List.map Widget.bare) := by
    rw [row]
    exact Widget.editAmong?_relocateAll f.roots
  rw [edit, edit, bare, bare, edited]
  cases Widget.editAmong? id (fun _ => new) f.roots <;> rfl

end WidgetScript
