import WidgetScript.Proofs.Forest
import Mathlib.Data.List.Perm.Basic
import Mathlib.Data.Option.Basic

/-! A tour of a forest comes to each widget before it comes to what is below it, and once more
to each row of siblings when it is through with all of them. -/
namespace WidgetScript

inductive Visit where
  | enter (parent : Option String) (w : Widget)
  | leave (parent : Option String) (row : List Widget)

namespace Visit

def entered? : Visit → Option (Option String × Widget)
  | .enter parent w => some (parent, w)
  | .leave _ _ => none

def left? : Visit → Option (Option String)
  | .enter _ _ => none
  | .leave parent _ => some parent

section
variable {parent : Option String} {w : Widget} {row : List Widget} {vs : List Visit}

@[simp] theorem entered?_cons_enter : (enter parent w :: vs).filterMap entered? =
    (parent, w) :: vs.filterMap entered? := rfl

@[simp] theorem entered?_cons_leave : (leave parent row :: vs).filterMap entered? =
    vs.filterMap entered? := rfl

@[simp] theorem left?_cons_enter : (enter parent w :: vs).filterMap left? =
    vs.filterMap left? := rfl

@[simp] theorem left?_cons_leave : (leave parent row :: vs).filterMap left? =
    parent :: vs.filterMap left? := rfl

end

end Visit

namespace Widget

mutual

def tour (parent : Option String) : Widget → List Visit
  | ⟨kind, id, props, children, pos⟩ =>
      .enter parent ⟨kind, id, props, children, pos⟩ :: tourAll (some id) children
        ++ [.leave (some id) children]

def tourAll (parent : Option String) : List Widget → List Visit
  | [] => []
  | w :: ws => tour parent w ++ tourAll parent ws

end

mutual

theorem filterMap_entered_tour (parent : Option String) :
    (w : Widget) → (w.tour parent).filterMap Visit.entered? = w.placed parent
  | ⟨kind, id, props, children, pos⟩ => by
    rw [tour, placed, List.filterMap_append, Visit.entered?_cons_enter, filterMap_entered_tourAll]
    simp

theorem filterMap_entered_tourAll (parent : Option String) :
    (ws : List Widget) → (tourAll parent ws).filterMap Visit.entered? = placedAll parent ws
  | [] => by rw [tourAll, placedAll, List.filterMap_nil]
  | w :: ws => by
    rw [tourAll, placedAll, List.filterMap_append, filterMap_entered_tour,
      filterMap_entered_tourAll]

end

mutual

theorem filterMap_left_tour (parent : Option String) :
    (w : Widget) → ((w.tour parent).filterMap Visit.left?).Perm (w.ids.map some)
  | ⟨kind, id, props, children, pos⟩ => by
    have below := filterMap_left_tourAll (some id) children
    rw [tour, List.filterMap_append, Visit.left?_cons_enter, ids_eq, List.map_cons]
    exact (List.perm_append_singleton _ _).trans (below.cons _)

theorem filterMap_left_tourAll (parent : Option String) :
    (ws : List Widget) → ((tourAll parent ws).filterMap Visit.left?).Perm ((idsAll ws).map some)
  | [] => by rw [tourAll, idsAll_nil, List.filterMap_nil, List.map_nil]
  | w :: ws => by
    rw [tourAll, idsAll_cons, List.filterMap_append, List.map_append]
    exact (filterMap_left_tour parent w).append (filterMap_left_tourAll parent ws)

end

end Widget

namespace Forest

/-- The last row that a tour leaves is that of the roots. -/
def tour (f : Forest) : List Visit := Widget.tourAll none f.roots ++ [.leave none f.roots]

theorem filterMap_entered_tour (f : Forest) : f.tour.filterMap Visit.entered? = f.placed := by
  rw [tour, List.filterMap_append, Widget.filterMap_entered_tourAll]
  simp [placed]

theorem Distinct.left_nodup {f : Forest} (distinct : f.Distinct) :
    (f.tour.filterMap Visit.left?).Nodup := by
  have rows := Widget.filterMap_left_tourAll none f.roots
  have perm : (f.tour.filterMap Visit.left?).Perm (none :: f.ids.map some) := by
    rw [tour, List.filterMap_append]
    exact (List.perm_append_singleton _ _).trans (rows.cons _)
  rw [perm.nodup_iff, List.nodup_cons]
  exact ⟨by simp, List.Nodup.map (Option.some_injective _) distinct⟩

end Forest
end WidgetScript
