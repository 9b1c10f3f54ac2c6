import WidgetScript.Proofs.Live.Apply

/-! Destroying an entity takes out exactly the entities that it spans and leaves all
others as they are, but for the parent's list of children. -/
namespace WidgetScript.LiveTree

variable {t t' : LiveTree} {entities : Fields Entity} {parent : Option String}
  {ids more all below gone : List String} {id x : String} {e : Entity}

@[simp] theorem prune_nil : prune entities [] = entities := by rw [prune]

theorem prune_of_some (found : Fields.get? entities id = some e) :
    prune entities (id :: ids) = prune (Fields.erase entities id) (e.children ++ ids) := by
  rw [prune]
  split
  next e' found' =>
    cases found.symm.trans found'
    rfl
  next absent => exact absurd (found.symm.trans absent) (Option.some_ne_none _)

theorem prune_of_none (absent : Fields.get? entities id = none) :
    prune entities (id :: ids) = prune entities ids := by
  rw [prune]
  split
  next e found => exact absurd (found.symm.trans absent) (Option.some_ne_none _)
  next => rfl

theorem prune_append : prune entities (ids ++ more) = prune (prune entities ids) more := by
  fun_induction prune entities ids with
  | case1 entities => rfl
  | case2 entities id ids e found ih =>
    rw [List.cons_append, prune_of_some found, ← List.append_assoc, ih]
  | case3 entities id ids absent ih => rw [List.cons_append, prune_of_none absent, ih]

theorem nodup_prune (keys : (Fields.keys entities).Nodup) :
    (Fields.keys (prune entities ids)).Nodup := by
  fun_induction prune entities ids with
  | case1 entities => exact keys
  | case2 entities id ids e found ih => exact ih (Fields.nodup_erase keys)
  | case3 entities id ids absent ih => exact ih keys

/-- The table may have lost entities already, but none of those that are spanned. -/
theorem get?_prune {look : String → Option Entity} (span : Spans look parent ids all)
    (once : all.Nodup) (keys : (Fields.keys entities).Nodup)
    (agree : ∀ id ∈ all, Fields.get? entities id = look id) :
    Fields.get? (prune entities ids) x = if x ∈ all then none else Fields.get? entities x := by
  induction span generalizing entities x with
  | nil => simp
  | @cons parent id e ids below rest found _ _ _ ihBelow ihRest =>
    rw [List.nodup_cons, List.mem_append, not_or, List.nodup_append] at once
    obtain ⟨⟨idBelow, idRest⟩, onceBelow, onceRest, apart⟩ := once
    have here := (agree id List.mem_cons_self).trans found
    have inner (x : String) : Fields.get? (prune (Fields.erase entities id) e.children) x =
        if x ∈ below then none else if id = x then none else Fields.get? entities x := by
      rw [ihBelow onceBelow (Fields.nodup_erase keys), Fields.get?_erase keys]
      intro c hc
      have : id ≠ c := fun eq => idBelow (eq ▸ hc)
      rw [Fields.get?_erase keys, if_neg this]
      exact agree c (List.mem_cons_of_mem _ (List.mem_append_left _ hc))
    rw [prune_of_some here, prune_append, ihRest onceRest (nodup_prune (Fields.nodup_erase keys)),
      inner]
    · by_cases hx : x ∈ rest
      · simp [hx]
      · by_cases hb : x ∈ below
        · simp [hb]
        · by_cases hid : id = x
          · simp [hid]
          · simp [hx, hb, hid, Ne.symm hid]
    · intro c hc
      have notBelow : c ∉ below := fun hb => apart c hb c hc rfl
      have notId : id ≠ c := fun eq => idRest (eq ▸ hc)
      rw [inner, if_neg notBelow, if_neg notId]
      exact agree c (List.mem_cons_of_mem _ (List.mem_append_right _ hc))

structure Without (t : LiveTree) (gone : List String) (t' : LiveTree) : Prop where
  keyed : t'.Keyed
  get : ∀ x, t'.get? x = if x ∈ gone then none
    else (t.get? x).map fun e => { e with children := e.children.filter (· ∉ gone) }
  roots : t'.roots = t.roots.filter (· ∉ gone)
  handle : t'.nextHandle = t.nextHandle

theorem Keyed.without_nil (h : t.Keyed) : t.Without [] t := by
  refine ⟨h, fun x => ?_, ?_, rfl⟩
  · cases t.get? x <;> simp
  · simp

theorem Without.congr {gone' : List String} (h : t.Without gone t')
    (same : ∀ x, x ∈ gone ↔ x ∈ gone') : t.Without gone' t' := by
  have tests : (fun c => decide (c ∉ gone)) = fun c => decide (c ∉ gone') := by
    funext c
    simp [same]
  refine ⟨h.keyed, fun x => ?_, ?_, h.handle⟩
  · rw [h.get, tests]
    simp [same]
  · rw [h.roots, tests]

theorem Spans.parent_mem {look : String → Option Entity} {c : String} {ce : Entity}
    (span : Spans look (some id) ids below) (hc : c ∈ below) (found : look c = some ce) :
    ∃ p, ce.parent = some p ∧ p ∈ id :: below := by
  rcases span.listed hc found with ⟨_, hp⟩ | ⟨p, pe, hp, mem, _⟩
  · exact ⟨id, hp, List.mem_cons_self⟩
  · exact ⟨p, hp, List.mem_cons_of_mem _ mem⟩

theorem filter_subtree {cs : List String} (only : ∀ c ∈ cs, c ∈ id :: below → c = id) :
    cs.filter (· ∉ gone ++ id :: below) = (cs.filter (· ∉ gone)).filter (· != id) := by
  rw [List.filter_filter]
  apply List.filter_congr
  intro c hc
  by_cases hid : c = id
  · simp [hid]
  · have : c ∉ below := fun hb => hid (only c hc (List.mem_cons_of_mem _ hb))
    simp [hid, this]

private theorem filter_absent {cs : List String} (absent : id ∉ cs) :
    (cs.filter (· ∉ gone)).filter (· != id) = cs.filter (· ∉ gone) := by
  rw [List.filter_eq_self]
  intro c hc
  have : c ≠ id := fun eq => absent (eq ▸ (List.mem_filter.1 hc).1)
  simp [this]

theorem WellFormed.child_in_subtree (wf : t.WellFormed)
    (span : Spans t.get? (some id) ids below) {ex : Entity} {c : String}
    (found : t.get? x = some ex) (outside : x ∉ id :: below) (hc : c ∈ ex.children)
    (sub : c ∈ id :: below) : c = id := by
  rcases List.mem_cons.1 sub with h | h
  · exact h
  · obtain ⟨ce, hce, hp⟩ := wf.children x ex found c hc
    obtain ⟨p, hp', mem⟩ := span.parent_mem h hce
    rw [hp] at hp'
    cases hp'
    exact absurd mem outside

theorem WellFormed.root_in_subtree (wf : t.WellFormed)
    (span : Spans t.get? (some id) ids below) {c : String} (hc : c ∈ t.roots)
    (sub : c ∈ id :: below) : c = id := by
  rcases List.mem_cons.1 sub with h | h
  · exact h
  · obtain ⟨ce, hce, hp⟩ := wf.roots c hc
    obtain ⟨p, hp', _⟩ := span.parent_mem h hce
    exact nomatch hp.symm.trans hp'

theorem Without.intact (left : t.Without gone t') (span : Spans t.get? parent ids all)
    (stays : ∀ c ∈ all, c ∉ gone) {c : String} (hc : c ∈ all) : t'.get? c = t.get? c := by
  obtain ⟨ce, hce⟩ := span.get? hc
  have kept : ce.children.filter (· ∉ gone) = ce.children := by
    rw [List.filter_eq_self]
    intro d hd
    simpa using stays d (span.child hc hce hd).1
  rw [left.get, if_neg (stays c hc), hce, Option.map_some, kept]

theorem Without.children? (wf : t.WellFormed) (left : t.Without gone t')
    (found : t.get? id = some e) (stays : ∀ p, e.parent = some p → p ∉ gone) :
    ∃ siblings, t.children? e.parent = some siblings ∧
      t'.children? e.parent = some (siblings.filter (· ∉ gone)) := by
  cases hp : e.parent with
  | none => exact ⟨t.roots, rfl, by rw [LiveTree.children?, left.roots]⟩
  | some p =>
    rcases wf.listed found with ⟨_, h⟩ | ⟨q, pe, h, hpe, _⟩
    · exact absurd (hp.symm.trans h) (Option.some_ne_none _)
    · cases h.symm.trans hp
      exact ⟨pe.children, by simp [LiveTree.children?, hpe],
        by simp [LiveTree.children?, left.get, stays p hp, hpe]⟩

theorem destroy_eq {siblings : List String} (found : t.get? id = some e)
    (known : t.children? e.parent = some siblings) :
    (t.destroy id).1 = { t.setChildren e.parent (siblings.filter (· != id)) with
      entities := prune (t.setChildren e.parent (siblings.filter (· != id))).entities [id] } := by
  simp [LiveTree.destroy, found, known]

/-- The spec of a destruction: with an entity goes what is below it, and nothing else. -/
theorem Without.destroy (wf : t.WellFormed) (left : t.Without gone t')
    (found : t.get? id = some e) (span : Spans t.get? (some id) e.children below)
    (once : (id :: below).Nodup) (stays : ∀ c ∈ id :: below, c ∉ gone)
    (apart : ∀ p, e.parent = some p → p ∉ gone ∧ p ∉ id :: below) :
    t.Without (gone ++ id :: below) (t'.destroy id).1 := by
  have whole : Spans t.get? e.parent [id] (id :: (below ++ [])) := .cons found rfl span .nil
  rw [List.append_nil] at whole
  obtain ⟨siblings, known, known'⟩ :=
    left.children? wf found fun p hp => (apart p hp).1
  have destroyed := destroy_eq ((left.intact whole stays List.mem_cons_self).trans found) known'
  generalize hunlinked : t'.setChildren e.parent _ = unlinked at destroyed
  have keyed : unlinked.Keyed := hunlinked ▸ left.keyed.setChildren
  have pruned (x : String) : (t'.destroy id).1.get? x =
      if x ∈ id :: below then none else unlinked.get? x := by
    rw [destroyed]
    refine get?_prune whole once keyed.keys fun c hc => ?_
    have other : e.parent ≠ some c := fun hp => (apart c hp).2 hc
    change unlinked.get? c = _
    rw [← hunlinked, get?_setChildren left.keyed, if_neg other]
    exact left.intact whole stays hc
  refine ⟨⟨?_, fun x ex hx => ?_⟩, fun x => ?_, ?_, ?_⟩
  · rw [destroyed]
    exact nodup_prune keyed.keys
  · rw [pruned] at hx
    split at hx
    · exact absurd hx.symm (Option.some_ne_none _)
    · exact keyed.named x ex hx
  · rw [pruned, ← hunlinked, get?_setChildren left.keyed, left.get]
    by_cases hsub : x ∈ id :: below
    · rw [if_pos hsub, if_pos (List.mem_append_right _ hsub)]
    by_cases hgone : x ∈ gone
    · simp [hgone]
    have stays' : x ∉ gone ++ id :: below := by simpa [hgone] using hsub
    rw [if_neg hsub, if_neg hgone, if_neg stays']
    cases hx : t.get? x with
    | none => simp
    | some ex =>
      simp only [Option.map_some]
      rw [filter_subtree fun c hc => wf.child_in_subtree span hx hsub hc]
      by_cases hp : e.parent = some x
      · rw [hp, LiveTree.children?, hx] at known
        cases known
        rw [if_pos hp]
      · have absent : id ∉ ex.children := by
          intro mem
          obtain ⟨e', found', hp'⟩ := wf.children x ex hx id mem
          cases found.symm.trans found'
          exact hp hp'
        rw [if_neg hp, filter_absent absent]
  · rw [destroyed, filter_subtree fun c hc => wf.root_in_subtree span hc, ← hunlinked,
      setChildren_roots]
    cases hp : e.parent with
    | none =>
      rw [hp] at known
      cases known
      rfl
    | some p =>
      have absent : id ∉ t.roots := by
        intro mem
        obtain ⟨e', found', hp'⟩ := wf.roots id mem
        cases found.symm.trans found'
        exact absurd (hp.symm.trans hp') (Option.some_ne_none _)
      rw [if_neg (by simp), filter_absent absent, left.roots]
  · rw [destroyed, ← hunlinked, setChildren_nextHandle, left.handle]

end WidgetScript.LiveTree
