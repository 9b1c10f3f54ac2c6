import WidgetScript.Proofs.Live.Survey
import WidgetScript.Proofs.Equality

/-! After the destructions the declaration is walked, and each command of the walk changes
only the widget that it is for and the list of children it stands in. So a row of widgets
can be followed on its own: it takes a tree in which none of them has been touched to one
in which all are settled, and leaves everything else as it was, but for the row that grows
by those that are created. -/
namespace WidgetScript.Reconcile
open LiveTree

section
variable (live : LiveTree) (survivors : List String)

def standing (id : String) : List String :=
  match survivor? live survivors id with
  | some e => e.children.filter (· ∈ survivors)
  | none => []

def created (ws : List Widget) : List String :=
  (ws.map (·.id)).filter fun id => (survivor? live survivors id).isNone

/-- The children that stand under a parent are the declared ones that survive. -/
structure Row (kept : List String) (declared : List Widget) : Prop where
  once : kept.Nodup
  mem : ∀ c, c ∈ kept ↔ c ∈ declared.map (·.id) ∧ (survivor? live survivors c).isSome = true

structure Matched (parent : Option String) (n : Widget) : Prop where
  entity : ∀ e, survivor? live survivors n.id = some e → e.kind = n.kind ∧ e.parent = parent
  row : Row live survivors (standing live survivors n.id) n.children

/-- What is there of an id before any command of the walk for it has run. -/
def before (id : String) : Option Entity :=
  (survivor? live survivors id).map fun e =>
    { e with children := e.children.filter (· ∈ survivors) }

/-- The entity of a widget once all commands for it have run. -/
structure Settled (parent : Option String) (n : Widget) (e : Entity) : Prop where
  kind : e.kind = n.kind
  parent : e.parent = parent
  children : e.children = n.children.map (·.id)
  kept : ∀ old, survivor? live survivors n.id = some old →
    e.handle = old.handle ∧ e.props = Fields.extend old.props (Properties.diff old.props n.props)
  made : survivor? live survivors n.id = none → live.nextHandle ≤ e.handle ∧ e.props = n.props

/-- A tree before the walk of the row `ws`, with `cs` already standing under the parent. -/
structure Pending (parent : Option String) (ws : List Widget) (cs : List String)
    (t : LiveTree) : Prop where
  keyed : t.Keyed
  handle : live.nextHandle ≤ t.nextHandle
  row : t.children? parent = some cs
  once : (Widget.idsAll ws).Nodup
  outside : ∀ id, parent = some id → id ∉ Widget.idsAll ws
  matched : ∀ p n, (p, n) ∈ Widget.placedAll parent ws → Matched live survivors p n
  untouched : ∀ id ∈ Widget.idsAll ws, t.get? id = before live survivors id

/-- The tree `t'` is `t` with a row settled that is not in `t` any other way. -/
structure Emitted (parent : Option String) (ws : List Widget) (cs : List String)
    (t t' : LiveTree) : Prop where
  keyed : t'.Keyed
  handle : t.nextHandle ≤ t'.nextHandle
  frame : ∀ id, id ∉ Widget.idsAll ws →
    t'.get? id = (t.setChildren parent (cs ++ created live survivors ws)).get? id
  roots : t'.roots = (t.setChildren parent (cs ++ created live survivors ws)).roots
  settled : ∀ p n, (p, n) ∈ Widget.placedAll parent ws →
    ∃ e, t'.get? n.id = some e ∧ Settled live survivors p n e

def opening (parent : Option String) (w : Widget) : List Command :=
  match survivor? live survivors w.id with
  | some e => update w.id e.props w.props
  | none => [.create parent w.spec]

def closing (parent : Option String) (kept : List String) (ws : List Widget) : List Command :=
  if kept ++ created live survivors ws = ws.map (·.id) then []
  else [.reorder parent (ws.map (·.id))]

end

variable {live : LiveTree} {survivors : List String} {parent : Option String} {w : Widget}
  {as bs ws : List Widget} {cs kept : List String} {t t' t'' : LiveTree}

theorem created_append : created live survivors (as ++ bs) =
    created live survivors as ++ created live survivors bs := by
  simp only [created, List.map_append, List.filter_append]

theorem emit_eq : emit live survivors parent w =
    opening live survivors parent w ++ emitAll live survivors (some w.id) w.children
      ++ closing live survivors (some w.id) (standing live survivors w.id) w.children := by
  obtain ⟨kind, id, props, children, pos⟩ := w
  rw [emit]
  unfold opening closing standing
  cases survivor? live survivors id <;> rfl

theorem before_of_none {id : String} (h : survivor? live survivors id = none) :
    before live survivors id = none := by
  rw [before, h, Option.map_none]

theorem Row.perm (row : Row live survivors kept ws) (distinct : (ws.map (·.id)).Nodup) :
    (ws.map (·.id)).Perm (kept ++ created live survivors ws) := by
  have apart : (kept ++ created live survivors ws).Nodup := by
    refine List.nodup_append.2 ⟨row.once, distinct.sublist List.filter_sublist, ?_⟩
    rintro c hc d hd rfl
    have := (row.mem c).1 hc
    have := (List.mem_filter.1 hd).2
    simp_all
  rw [List.perm_ext_iff_of_nodup distinct apart]
  intro c
  rw [List.mem_append, row.mem, created, List.mem_filter]
  cases survivor? live survivors c <;> simp

structure Alike (t t' : LiveTree) : Prop where
  keyed : t'.Keyed
  get : ∀ x, t'.get? x = t.get? x
  roots : t'.roots = t.roots
  handle : t'.nextHandle = t.nextHandle

theorem alike_setChildren (keyed : t.Keyed) (known : t.children? parent = some cs) :
    Alike (t.setChildren parent cs) t := by
  refine ⟨keyed, fun x => ?_, ?_, setChildren_nextHandle.symm⟩
  · rw [get?_setChildren keyed]
    split
    next h =>
      subst h
      obtain ⟨e, found, rfl⟩ := children?_eq_some_iff.1 known
      rw [found, Option.map_some]
    next => rfl
  · rw [setChildren_roots]
    split
    next h =>
      subst h
      exact (Option.some.inj known)
    next => rfl

theorem closing_runs (keyed : t.Keyed) (row : Row live survivors kept ws)
    (known : t.children? parent = some (kept ++ created live survivors ws))
    (distinct : (ws.map (·.id)).Nodup) :
    ∃ t', Runs t (closing live survivors parent kept ws) t' ∧
      Alike (t.setChildren parent (ws.map (·.id))) t' := by
  unfold closing
  split
  next same => exact ⟨t, .nil, alike_setChildren keyed (same ▸ known)⟩
  next =>
    refine ⟨_, .single ⟨_, known, row.perm distinct, distinct⟩ (reorder_eq known), ?_⟩
    exact ⟨keyed.setChildren, fun _ => rfl, rfl, rfl⟩

structure Opened (live : LiveTree) (survivors : List String) (parent : Option String)
    (w : Widget) (cs : List String) (t : LiveTree) (e : Entity) (t' : LiveTree) : Prop where
  keyed : t'.Keyed
  handle : t.nextHandle ≤ t'.nextHandle
  get : ∀ x, t'.get? x = if w.id = x then some e
    else (t.setChildren parent (cs ++ created live survivors [w])).get? x
  roots : t'.roots = (t.setChildren parent (cs ++ created live survivors [w])).roots
  children : e.children = standing live survivors w.id
  settles : Settled live survivors parent w { e with children := w.children.map (·.id) }

theorem created_singleton : created live survivors [w] =
    if (survivor? live survivors w.id).isNone then [w.id] else [] := by
  simp [created, List.filter_cons]

theorem update_runs {old : Entity} {id : String} (props : Properties) (keyed : t.Keyed)
    (found : t.get? id = some old) :
    ∃ t', Runs t (update id old.props props) t' ∧ t'.Keyed ∧
      t'.nextHandle = t.nextHandle ∧ t'.roots = t.roots ∧
      ∀ x, t'.get? x = if id = x then
        some { old with props := Fields.extend old.props (Properties.diff old.props props) }
        else t.get? x := by
  unfold update
  dsimp only
  split
  next same =>
    refine ⟨t, .nil, keyed, rfl, rfl, fun x => ?_⟩
    split
    next hx =>
      rw [← hx, found, List.isEmpty_iff.1 same]
      rfl
    next => rfl
  next =>
    exact ⟨_, .single (contains_iff.2 ⟨_, found⟩) rfl, keyed.update, update_nextHandle,
      update_roots, fun x => get?_update keyed found⟩

theorem opening_runs (pending : Pending live survivors parent [w] cs t) :
    ∃ t' e, Runs t (opening live survivors parent w) t' ∧
      Opened live survivors parent w cs t e t' := by
  have here : t.get? w.id = before live survivors w.id :=
    pending.untouched w.id (Widget.id_mem_idsAll List.mem_cons_self)
  obtain ⟨same, row⟩ := pending.matched parent w (Widget.placed_of_mem parent List.mem_cons_self)
  unfold opening
  cases survives : survivor? live survivors w.id with
  | some old =>
    obtain ⟨kind, under⟩ := same old survives
    rw [before, survives, Option.map_some] at here
    have nothing : created live survivors [w] = [] := by simp [created_singleton, survives]
    have alike := alike_setChildren pending.keyed pending.row
    obtain ⟨t', run, keyed, handle, roots, get⟩ := update_runs w.props pending.keyed here
    let e : Entity := { old with
      children := old.children.filter (· ∈ survivors)
      props := Fields.extend old.props (Properties.diff old.props w.props) }
    refine ⟨t', e, run, keyed, Nat.le_of_eq handle.symm, fun x => ?_, ?_, ?_, ?_⟩
    · rw [get, nothing, List.append_nil, ← alike.get]
    · rw [roots, nothing, List.append_nil, ← alike.roots]
    · rw [standing, survives]
    · refine ⟨kind, under, rfl, fun old' h => ?_, fun h => nomatch survives.symm.trans h⟩
      cases survives.symm.trans h
      exact ⟨rfl, rfl⟩
  | none =>
    rw [before_of_none survives] at here
    have one : created live survivors [w] = [w.id] := by simp [created_singleton, survives]
    let e : Entity := ⟨t.nextHandle, w.kind, w.id, parent, [], w.props⟩
    refine ⟨_, e, .single ⟨⟨cs, pending.row⟩, here⟩ rfl, pending.keyed.create, ?_, fun x => ?_,
      ?_, ?_, ?_⟩
    · exact Nat.le_of_lt (Nat.lt_of_lt_of_eq (Nat.lt_succ_self _) (create_nextHandle pending.row).symm)
    · rw [one, get?_setChildren pending.keyed]
      exact get?_create pending.keyed pending.row
    · rw [one, setChildren_roots]
      exact create_roots pending.row
    · rw [standing, survives]
    · refine ⟨rfl, rfl, rfl, fun old h => ?_, fun _ => ⟨pending.handle, rfl⟩⟩
      exact nomatch survives.symm.trans h

theorem Pending.left (pending : Pending live survivors parent (as ++ bs) cs t) :
    Pending live survivors parent as cs t := by
  obtain ⟨keyed, handle, row, once, outside, matched, untouched⟩ := pending
  rw [Widget.idsAll_append] at once outside untouched
  rw [Widget.placedAll_append] at matched
  refine ⟨keyed, handle, row, (List.nodup_append.1 once).1, ?_, ?_, ?_⟩
  · intro id hid h
    exact outside id hid (List.mem_append_left _ h)
  · intro p n hn
    exact matched p n (List.mem_append_left _ hn)
  · intro id hid
    exact untouched id (List.mem_append_left _ hid)

theorem Emitted.get?_eq (emitted : Emitted live survivors parent ws cs t t') (keyed : t.Keyed)
    {id : String} (notParent : parent ≠ some id) (absent : id ∉ Widget.idsAll ws) :
    t'.get? id = t.get? id := by
  rw [emitted.frame id absent, get?_setChildren keyed, if_neg notParent]

theorem Emitted.children? (emitted : Emitted live survivors parent ws cs t t') (keyed : t.Keyed)
    (known : t.children? parent = some cs) (outside : ∀ id, parent = some id → id ∉ Widget.idsAll ws) :
    t'.children? parent = some (cs ++ created live survivors ws) := by
  rw [children?_congr emitted.roots fun id hid => emitted.frame id (outside id hid),
    children?_setChildren keyed known]

theorem Pending.right (pending : Pending live survivors parent (as ++ bs) cs t)
    (emitted : Emitted live survivors parent as cs t t') :
    Pending live survivors parent bs (cs ++ created live survivors as) t' := by
  have row := emitted.children? pending.keyed pending.row pending.left.outside
  obtain ⟨keyed, handle, _, once, outside, matched, untouched⟩ := pending
  rw [Widget.idsAll_append] at once outside untouched
  rw [Widget.placedAll_append] at matched
  obtain ⟨_, onceRight, apart⟩ := List.nodup_append.1 once
  refine ⟨emitted.keyed, Nat.le_trans handle emitted.handle, row, onceRight, ?_, ?_, ?_⟩
  · intro id hid h
    exact outside id hid (List.mem_append_right _ h)
  · intro p n hn
    exact matched p n (List.mem_append_right _ hn)
  · intro id hid
    rw [emitted.get?_eq keyed, untouched id (List.mem_append_right _ hid)]
    · intro h
      exact outside id h (List.mem_append_right _ hid)
    · intro h
      exact apart id h id hid rfl

theorem Emitted.append (pending : Pending live survivors parent (as ++ bs) cs t)
    (first : Emitted live survivors parent as cs t t')
    (second : Emitted live survivors parent bs (cs ++ created live survivors as) t' t'') :
    Emitted live survivors parent (as ++ bs) cs t t'' := by
  obtain ⟨_, _, apart⟩ := List.nodup_append.1 (Widget.idsAll_append as bs ▸ pending.once)
  refine ⟨second.keyed, Nat.le_trans first.handle second.handle, fun id hid => ?_, ?_, fun p n hn => ?_⟩
  · rw [Widget.idsAll_append, List.mem_append, not_or] at hid
    rw [second.frame id hid.2, get?_setChildren first.keyed, first.frame id hid.1, created_append,
      ← List.append_assoc, get?_setChildren pending.keyed, get?_setChildren pending.keyed]
    split
    · cases t.get? id <;> rfl
    · rfl
  · rw [second.roots, setChildren_roots, first.roots, created_append, ← List.append_assoc,
      setChildren_roots, setChildren_roots]
    split <;> rfl
  · rw [Widget.placedAll_append, List.mem_append] at hn
    rcases hn with hn | hn
    · have mem := Widget.id_mem_of_placed hn
      obtain ⟨e, found, settled⟩ := first.settled p n hn
      refine ⟨e, ?_, settled⟩
      rw [second.get?_eq first.keyed, found]
      · intro h
        refine pending.outside n.id h ?_
        rw [Widget.idsAll_append]
        exact List.mem_append_left _ mem
      · intro h
        exact apart n.id mem n.id h rfl
    · exact second.settled p n hn

theorem Opened.pending {e : Entity} (pending : Pending live survivors parent [w] cs t)
    (opened : Opened live survivors parent w cs t e t') :
    Pending live survivors (some w.id) w.children (standing live survivors w.id) t' := by
  obtain ⟨keyed, handle, _, once, outside, matched, untouched⟩ := pending
  simp only [Widget.idsAll_cons, Widget.idsAll_nil, List.append_nil, Widget.ids_eq] at once
  simp only [Widget.idsAll_cons, Widget.idsAll_nil, List.append_nil, Widget.ids_eq] at outside
  simp only [Widget.idsAll_cons, Widget.idsAll_nil, List.append_nil, Widget.ids_eq] at untouched
  simp only [Widget.placedAll_cons, Widget.placedAll_nil, List.append_nil,
    Widget.placed_eq] at matched
  rw [List.nodup_cons] at once
  refine ⟨opened.keyed, Nat.le_trans handle opened.handle, ?_, once.2, ?_, ?_, ?_⟩
  · rw [children?_eq_some_iff]
    exact ⟨e, by rw [opened.get, if_pos rfl], opened.children⟩
  · intro id hid
    cases hid
    exact once.1
  · intro p n hn
    exact matched p n (List.mem_cons_of_mem _ hn)
  · intro id hid
    have other : w.id ≠ id := fun h => once.1 (h ▸ hid)
    have notParent : parent ≠ some id := fun h => outside id h (List.mem_cons_of_mem _ hid)
    rw [opened.get, if_neg other, get?_setChildren keyed, if_neg notParent,
      untouched id (List.mem_cons_of_mem _ hid)]

theorem Opened.emitted {e : Entity} {t₁ t₂ : LiveTree}
    (pending : Pending live survivors parent [w] cs t)
    (opened : Opened live survivors parent w cs t e t₁)
    (below : Emitted live survivors (some w.id) w.children (standing live survivors w.id) t₁ t₂)
    (closed : Alike (t₂.setChildren (some w.id) (w.children.map (·.id))) t') :
    Emitted live survivors parent [w] cs t t' := by
  have inner := opened.pending pending
  obtain ⟨keyed, _, _, once, outside, _, _⟩ := pending
  simp only [Widget.idsAll_cons, Widget.idsAll_nil, List.append_nil, Widget.ids_eq] at once
  simp only [Widget.idsAll_cons, Widget.idsAll_nil, List.append_nil, Widget.ids_eq] at outside
  rw [List.nodup_cons] at once
  have here : t'.get? w.id = some { e with children := w.children.map (·.id) } := by
    rw [closed.get, get?_setChildren below.keyed, if_pos rfl, below.frame w.id once.1,
      get?_setChildren opened.keyed, if_pos rfl, opened.get, if_pos rfl]
    rfl
  have elsewhere (id : String) (other : w.id ≠ id) : t'.get? id = t₂.get? id := by
    rw [closed.get, get?_setChildren below.keyed, if_neg fun h => other (Option.some.inj h)]
  have handles : t₂.nextHandle = t'.nextHandle := by
    rw [closed.handle, setChildren_nextHandle]
  refine ⟨closed.keyed, ?_, fun id hid => ?_, ?_, fun p n hn => ?_⟩
  · exact handles ▸ Nat.le_trans opened.handle below.handle
  · rw [Widget.idsAll_cons, Widget.idsAll_nil, List.append_nil, Widget.ids_eq, List.mem_cons,
      not_or] at hid
    have other : w.id ≠ id := Ne.symm hid.1
    rw [elsewhere id other, below.get?_eq opened.keyed (fun h => other (Option.some.inj h)) hid.2,
      opened.get, if_neg other]
  · rw [closed.roots, setChildren_roots, if_neg (by simp), below.roots, setChildren_roots,
      if_neg (by simp), opened.roots]
  · rw [Widget.placedAll_cons, Widget.placedAll_nil, List.append_nil, Widget.placed_eq,
      List.mem_cons] at hn
    rcases hn with hn | hn
    · cases hn
      exact ⟨_, here, opened.settles⟩
    · have mem := Widget.id_mem_of_placed hn
      rw [elsewhere n.id fun h => once.1 (h ▸ mem)]
      exact below.settled p n hn

mutual

theorem emit_runs : (w : Widget) → ∀ {parent cs t}, Pending live survivors parent [w] cs t →
    ∃ t', Runs t (emit live survivors parent w) t' ∧ Emitted live survivors parent [w] cs t t'
  | ⟨kind, id, props, children, pos⟩, parent, cs, t, pending => by
    obtain ⟨t₁, e, run₁, opened⟩ := opening_runs pending
    have inner := opened.pending pending
    obtain ⟨t₂, run₂, below⟩ := emitAll_runs children inner
    have row := (pending.matched parent _ (Widget.placed_of_mem parent List.mem_cons_self)).row
    have distinct : (children.map (·.id)).Nodup :=
      inner.once.sublist (Widget.map_id_sublist children)
    obtain ⟨t₃, run₃, closed⟩ := closing_runs below.keyed row
      (below.children? inner.keyed inner.row inner.outside) distinct
    refine ⟨t₃, ?_, opened.emitted pending below closed⟩
    rw [emit_eq]
    exact (run₁.append run₂).append run₃

theorem emitAll_runs : (ws : List Widget) → ∀ {parent cs t},
    Pending live survivors parent ws cs t →
    ∃ t', Runs t (emitAll live survivors parent ws) t' ∧
      Emitted live survivors parent ws cs t t'
  | [], parent, cs, t, pending => by
    have alike := alike_setChildren pending.keyed pending.row
    have nothing : cs ++ created live survivors [] = cs := by simp [created]
    refine ⟨t, by rw [emitAll]; exact .nil, pending.keyed, Nat.le_refl _, fun id _ => ?_, ?_, ?_⟩
    · rw [nothing, ← alike.get]
    · rw [nothing, ← alike.roots]
    · simp
  | w :: ws, parent, cs, t, pending => by
    have split : w :: ws = [w] ++ ws := rfl
    rw [split] at pending
    obtain ⟨t₁, run₁, first⟩ := emit_runs w pending.left
    obtain ⟨t₂, run₂, second⟩ := emitAll_runs ws (pending.right first)
    refine ⟨t₂, ?_, Emitted.append pending first second⟩
    rw [emitAll]
    exact run₁.append run₂

end

end WidgetScript.Reconcile
