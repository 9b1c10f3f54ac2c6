import WidgetScript.Live.Reconcile
import WidgetScript.Proofs.Value.Relocate

/-! Reconciling looks at ids, kinds, properties and the order of widgets, and not at the places
where they were made. -/
namespace WidgetScript

namespace Reconcile
variable {f : Position → Position}

mutual

theorem indexWidget_relocate : (w : Widget) → ∀ parent index,
    indexWidget parent (w.relocate f) index = indexWidget parent w index
  | ⟨kind, id, props, children, pos⟩, parent, index => by
    rw [Widget.relocate, indexWidget, indexWidget, indexAll_relocate children]

theorem indexAll_relocate : (ws : List Widget) → ∀ parent index,
    indexAll parent (Widget.relocateAll f ws) index = indexAll parent ws index
  | [], _, _ => rfl
  | w :: ws, parent, index => by
    rw [Widget.relocateAll, indexAll, indexAll, indexWidget_relocate w, indexAll_relocate ws]

end

variable {live : LiveTree} {survivors : List String}

theorem ids_relocateAll (ws : List Widget) :
    (Widget.relocateAll f ws).map (·.id) = ws.map (·.id) := by
  rw [Widget.relocateAll_eq_map, List.map_map]
  exact List.map_congr_left fun w _ => w.relocate_id

theorem reorder_relocate (parent : Option String) (old : List String) (ws : List Widget) :
    reorder live survivors parent old (Widget.relocateAll f ws) =
      reorder live survivors parent old ws := by
  rw [reorder, reorder, ids_relocateAll]

mutual

theorem emit_relocate : (w : Widget) → ∀ parent,
    emit live survivors parent (w.relocate f) = emit live survivors parent w
  | ⟨kind, id, props, children, pos⟩, parent => by
    rw [Widget.relocate, emit, emit, emitAll_relocate children]
    simp only [reorder_relocate]

theorem emitAll_relocate : (ws : List Widget) → ∀ parent,
    emitAll live survivors parent (Widget.relocateAll f ws) = emitAll live survivors parent ws
  | [], _ => rfl
  | w :: ws, parent => by
    rw [Widget.relocateAll, emitAll, emitAll, emit_relocate w, emitAll_relocate ws]

end

end Reconcile

theorem LiveTree.reconcile_congr (live : LiveTree) {a b : Forest}
    (same : a.roots.map Widget.bare = b.roots.map Widget.bare) :
    live.reconcile a = live.reconcile b := by
  have blind (decl : Forest) :
      live.reconcile ⟨decl.roots.map Widget.bare⟩ = live.reconcile decl := by
    change live.reconcile ⟨decl.roots.map (Widget.relocate _)⟩ = _
    rw [← Widget.relocateAll_eq_map, reconcile, reconcile]
    simp only [Reconcile.indexAll_relocate, Reconcile.emitAll_relocate, Reconcile.reorder_relocate]
  rw [← blind a, same, blind b]

end WidgetScript
