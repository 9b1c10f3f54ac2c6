import WidgetScript.Proofs.Live.Destroy

/-! A handle is given once. Every command leaves the handles of the entities that stay as they
are, and a creation takes the next one, so what is created along a run is numbered through. -/
namespace WidgetScript

namespace Command

def created? : Command → Option String
  | .create _ spec => some spec.id
  | _ => none

def destroyed? : Command → Option String
  | .destroy id => some id
  | _ => none

end Command

namespace LiveTree

def handle? (t : LiveTree) (id : String) : Option Nat := (t.get? id).map Entity.handle

/-- No two entities have the same handle, and the next handle is above them all. -/
structure Numbered (t : LiveTree) : Prop where
  below : ∀ id handle, t.handle? id = some handle → handle < t.nextHandle
  once : ∀ id id' handle, t.handle? id = some handle → t.handle? id' = some handle → id = id'

variable {t t' : LiveTree} {c : Command} {cs as bs : List Command} {parent : Option String}
  {siblings order ids : List String} {entities : Fields Entity} {spec : Spec}
  {changed : Properties} {id x : String} {e : Entity} {handle : Nat}

theorem handle?_eq_some_iff : t.handle? id = some handle ↔
    ∃ e, t.get? id = some e ∧ e.handle = handle := by
  rw [handle?, Option.map_eq_some_iff]

theorem handle?_setChildren (keyed : t.Keyed) :
    (t.setChildren parent siblings).handle? x = t.handle? x := by
  rw [handle?, handle?, get?_setChildren keyed]
  split
  · rw [Option.map_map]
    rfl
  · rfl

theorem handle?_create (keyed : t.Keyed) (known : t.children? parent = some siblings) :
    (t.create parent spec).1.handle? x =
      if spec.id = x then some t.nextHandle else t.handle? x := by
  rw [handle?, get?_create keyed known]
  split
  · rfl
  · rw [← get?_setChildren keyed]
    exact handle?_setChildren keyed

theorem handle?_update (keyed : t.Keyed) : (t.update id changed).1.handle? x = t.handle? x := by
  unfold update
  split
  next e found =>
    rw [handle?, handle?, get?_modify, keyed.named id e found]
    split
    next hx =>
      rw [← hx, found]
      rfl
    next => rfl
  next => rfl

theorem handle?_reorder (keyed : t.Keyed) :
    (t.reorder parent order).1.handle? x = t.handle? x := by
  unfold reorder
  split
  · exact handle?_setChildren keyed
  · rfl

theorem get?_of_prune (keys : (Fields.keys entities).Nodup)
    (h : Fields.get? (prune entities ids) x = some e) : Fields.get? entities x = some e := by
  fun_induction prune entities ids with
  | case1 entities => exact h
  | case2 entities id ids _ _ ih =>
    have kept := ih (Fields.nodup_erase keys) h
    rw [Fields.get?_erase keys] at kept
    split at kept
    · cases kept
    · exact kept
  | case3 entities id ids _ ih => exact ih keys h

theorem destroy_cases (found : t.get? id = some e) : ∃ parent siblings u,
    (u = t ∨ u = t.setChildren parent siblings) ∧
      (t.destroy id).1 = { u with entities := prune u.entities [id] } := by
  unfold LiveTree.destroy
  rw [found]
  dsimp only
  split
  next siblings _ => exact ⟨e.parent, siblings.filter (· != id), _, .inr rfl, rfl⟩
  next => exact ⟨none, [], t, .inl rfl, rfl⟩

theorem handle?_of_destroy (keyed : t.Keyed)
    (h : (t.destroy id).1.handle? x = some handle) : t.handle? x = some handle := by
  cases found : t.get? id with
  | none =>
    rw [LiveTree.destroy, found] at h
    exact h
  | some e =>
    obtain ⟨parent, siblings, u, hu, destroyed⟩ := destroy_cases found
    have same : u.Keyed ∧ u.handle? x = t.handle? x := by
      rcases hu with rfl | rfl
      · exact ⟨keyed, rfl⟩
      · exact ⟨keyed.setChildren, handle?_setChildren keyed⟩
    rw [destroyed, handle?_eq_some_iff] at h
    obtain ⟨ex, hx, given⟩ := h
    rw [← same.2]
    exact handle?_eq_some_iff.2 ⟨ex, get?_of_prune same.1.keys hx, given⟩

theorem Keyed.destroy (keyed : t.Keyed) : (t.destroy id).1.Keyed := by
  cases found : t.get? id with
  | none =>
    rw [LiveTree.destroy, found]
    exact keyed
  | some e =>
    obtain ⟨parent, siblings, u, hu, destroyed⟩ := destroy_cases found
    have kept : u.Keyed := by
      rcases hu with rfl | rfl
      · exact keyed
      · exact keyed.setChildren
    rw [destroyed]
    exact ⟨nodup_prune kept.keys, fun x ex hx => kept.named x ex (get?_of_prune kept.keys hx)⟩

theorem destroy_nextHandle : (t.destroy id).1.nextHandle = t.nextHandle := by
  cases found : t.get? id with
  | none => rw [LiveTree.destroy, found]
  | some e =>
    obtain ⟨parent, siblings, u, hu, destroyed⟩ := destroy_cases found
    rw [destroyed]
    rcases hu with rfl | rfl
    · rfl
    · exact setChildren_nextHandle

theorem Keyed.reorder (keyed : t.Keyed) : (t.reorder parent order).1.Keyed := by
  unfold LiveTree.reorder
  split
  · exact keyed.setChildren
  · exact keyed

theorem Keyed.apply (keyed : t.Keyed) : (t.apply c).1.Keyed := by
  cases c with
  | create parent spec => exact keyed.create
  | update id changed => exact keyed.update
  | reorder parent order => exact keyed.reorder
  | destroy id => exact keyed.destroy

theorem apply_nextHandle (valid : c.Valid t) :
    (t.apply c).1.nextHandle = t.nextHandle + c.created?.toList.length := by
  cases c with
  | create parent spec =>
    obtain ⟨⟨siblings, known⟩, _⟩ := valid
    exact create_nextHandle known
  | update id changed => exact update_nextHandle
  | reorder parent order =>
    obtain ⟨siblings, known, _⟩ := valid
    unfold apply
    rw [reorder_eq known]
    exact setChildren_nextHandle
  | destroy id => exact destroy_nextHandle

theorem handle?_of_apply (keyed : t.Keyed) (valid : c.Valid t)
    (h : (t.apply c).1.handle? x = some handle) :
    t.handle? x = some handle ∨ c.created? = some x ∧ handle = t.nextHandle := by
  cases c with
  | create parent spec =>
    obtain ⟨⟨siblings, known⟩, _⟩ := valid
    unfold apply at h
    rw [handle?_create keyed known] at h
    split at h
    next hx =>
      cases h
      exact .inr ⟨congrArg some hx, rfl⟩
    next => exact .inl h
  | update id changed => exact .inl ((handle?_update keyed).symm.trans h)
  | reorder parent order => exact .inl ((handle?_reorder keyed).symm.trans h)
  | destroy id => exact .inl (handle?_of_destroy keyed h)

theorem handle?_apply (keyed : t.Keyed) (valid : c.Valid t) (stays : c.destroyed? = none)
    (h : t.handle? x = some handle) : (t.apply c).1.handle? x = some handle := by
  cases c with
  | create parent spec =>
    obtain ⟨⟨siblings, known⟩, free⟩ := valid
    have other : spec.id ≠ x := by
      rintro rfl
      rw [handle?, free] at h
      exact nomatch h
    unfold apply
    rw [handle?_create keyed known, if_neg other]
    exact h
  | update id changed => exact (handle?_update keyed).trans h
  | reorder parent order => exact (handle?_reorder keyed).trans h
  | destroy id => exact nomatch stays

theorem Numbered.apply (numbered : t.Numbered) (keyed : t.Keyed) (valid : c.Valid t) :
    (t.apply c).1.Numbered := by
  refine ⟨fun id handle h => ?_, fun id id' handle h h' => ?_⟩
  · rw [apply_nextHandle valid]
    rcases handle?_of_apply keyed valid h with h | ⟨made, rfl⟩
    · exact Nat.lt_add_right _ (numbered.below id handle h)
    · rw [made]
      exact Nat.lt_succ_self _
  · rcases handle?_of_apply keyed valid h with h | ⟨made, rfl⟩
    · rcases handle?_of_apply keyed valid h' with h' | ⟨_, rfl⟩
      · exact numbered.once id id' handle h h'
      · exact absurd (numbered.below id _ h) (Nat.lt_irrefl _)
    · rcases handle?_of_apply keyed valid h' with h' | ⟨made', _⟩
      · exact absurd (numbered.below id' _ h') (Nat.lt_irrefl _)
      · exact Option.some.inj (made.symm.trans made')

namespace Runs

theorem of_append (run : Runs t (as ++ bs) t') : ∃ m, Runs t as m ∧ Runs m bs t' := by
  induction as generalizing t with
  | nil => exact ⟨t, .nil, run⟩
  | cons a as ih =>
    obtain _ | ⟨valid, rest⟩ := run
    obtain ⟨m, first, second⟩ := ih rest
    exact ⟨m, .cons valid first, second⟩

theorem keyed (run : Runs t cs t') (keyed : t.Keyed) : t'.Keyed := by
  induction run with
  | nil => exact keyed
  | cons _ _ ih => exact ih keyed.apply

theorem numbered (run : Runs t cs t') (keyed : t.Keyed) (numbered : t.Numbered) : t'.Numbered := by
  induction run with
  | nil => exact numbered
  | cons valid _ ih => exact ih keyed.apply (numbered.apply keyed valid)

theorem handle?_eq (run : Runs t cs t') (keyed : t.Keyed)
    (stay : ∀ c ∈ cs, c.destroyed? = none) (h : t.handle? x = some handle) :
    t'.handle? x = some handle := by
  induction run with
  | nil => exact h
  | @cons t t' c cs valid _ ih =>
    rw [List.forall_mem_cons] at stay
    exact ih keyed.apply stay.2 (handle?_apply keyed valid stay.1 h)

theorem map_handle?_created (run : Runs t cs t') (keyed : t.Keyed)
    (stay : ∀ c ∈ cs, c.destroyed? = none) :
    (cs.filterMap Command.created?).map t'.handle? =
      (List.range' t.nextHandle (cs.filterMap Command.created?).length).map some := by
  induction run with
  | nil => rfl
  | @cons t t' c cs valid rest ih =>
    rw [List.forall_mem_cons] at stay
    have later := ih keyed.apply stay.2
    rw [apply_nextHandle valid] at later
    cases c with
    | create parent spec =>
      obtain ⟨⟨siblings, known⟩, _⟩ := valid
      have made : (t.apply (.create parent spec)).1.handle? spec.id = some t.nextHandle := by
        unfold apply
        rw [handle?_create keyed known, if_pos rfl]
      have here : t'.handle? spec.id = some t.nextHandle := rest.handle?_eq keyed.apply stay.2 made
      simp only [List.filterMap_cons, Command.created?, List.map_cons, List.length_cons,
        List.range'_succ, here]
      exact congrArg _ later
    | update id changed => exact later
    | reorder parent order => exact later
    | destroy id => exact nomatch stay.1

end Runs
end LiveTree
end WidgetScript
