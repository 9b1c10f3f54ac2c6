import WidgetScript.Proofs.Forest.Tour
import WidgetScript.Proofs.Live.Handle
import WidgetScript.Proofs.Live.InSync

/-! Which commands reconciling finds, and in which order. They are told by whose chain of ids
from the root is the same in the live tree and in the declaration: first goes what hangs by
such an entity without being one, and then a tour of the declaration creates and changes what
it enters and puts right the order of the rows that it leaves. -/
namespace WidgetScript
open LiveTree Reconcile

def Command.reordered? : Command → Option (Option String)
  | .reorder parent _ => some parent
  | _ => none

namespace LiveTree

/-- An entity that does not survive, though its parent does or it has none. -/
def Uprooted (live : LiveTree) (decl : Forest) (id : String) : Prop :=
  ¬ live.Survives decl id ∧
    ∃ e, live.get? id = some e ∧ ∀ p, e.parent = some p → live.Survives decl p

def value? (t : LiveTree) (id key : String) : Option Property :=
  (t.get? id).bind fun e => Fields.get? e.props key

open Classical in
noncomputable def stale (live : LiveTree) (w : Widget) : Properties :=
  List.filter (fun field =>
    ∀ value, live.value? w.id field.1 = some value → value.same field.2 = false) w.props

open Classical in
/-- A row once all of it is there: what survives of it as it stands, then what is new as it is
declared. -/
noncomputable def regrown (live : LiveTree) (decl : Forest) (parent : Option String)
    (row : List Widget) : List String :=
  ((live.children? parent).getD []).filter (live.Survives decl ·)
    ++ (row.map (·.id)).filter (¬ live.Survives decl ·)

open Classical in
/-- The commands that are due at a visit of the declaration. -/
noncomputable def due (live : LiveTree) (decl : Forest) : Visit → List Command
  | .enter parent w =>
      if live.Survives decl w.id then
        if live.stale w = [] then [] else [.update w.id (live.stale w)]
      else [.create parent w.spec]
  | .leave parent row =>
      if live.regrown decl parent row = row.map (·.id) then []
      else [.reorder parent (row.map (·.id))]

open Classical in
/-- The commands `cmds` are all that are due and no others, and on the way to `t` each entity
that survives keeps its handle, while the created ones get the next. -/
structure Thrifty (live : LiveTree) (decl : Forest) (cmds : List Command) (t : LiveTree) :
    Prop where
  commands : cmds = (live.ids.filter (live.Uprooted decl ·)).map .destroy
    ++ decl.tour.flatMap (live.due decl)
  reordered : (cmds.filterMap Command.reordered?).Nodup
  created : cmds.filterMap Command.created? = decl.ids.filter (¬ live.Survives decl ·)
  kept : ∀ id, live.Survives decl id → t.handle? id = live.handle? id
  made : (cmds.filterMap Command.created?).map t.handle? =
    (List.range' live.nextHandle (cmds.filterMap Command.created?).length).map some
  numbered : t.Numbered

end LiveTree

namespace Reconcile
variable {live t : LiveTree} {decl : Forest} {s : Survey} {id : String} {e : Entity}
  {cmds : List Command} {index : Index} {parent : Option String} {ids all : List String}
  {look : String → Option Entity}

namespace Surveyed

theorem destroyed_sublist (h : Surveyed look index parent ids s all) :
    s.destroyed.Sublist all := by
  induction h with
  | nil => exact List.Sublist.slnil
  | @kept parent id e ids below rest inner outer _ _ _ _ _ ihInner ihOuter =>
    exact (ihInner.append ihOuter).cons id
  | @gone parent id e ids below rest outer _ _ _ _ _ ihOuter =>
    exact (ihOuter.trans (List.sublist_append_right below rest)).cons_cons id

theorem uprooted (h : Surveyed look index parent ids s all) (hid : id ∈ s.destroyed) :
    ∃ e, look id = some e ∧ (∀ d, Fields.get? index id = some d → d.parent ≠ e.parent) ∧
      (e.parent = parent ∨ ∃ p ∈ s.survivors, e.parent = some p) := by
  induction h with
  | nil => simp at hid
  | @kept parent id' e' ids below rest inner outer _ _ _ _ _ ihInner ihOuter =>
    simp only [Survey.append, List.nil_append, List.mem_append, List.mem_singleton] at hid ⊢
    rcases hid with hid | hid
    · obtain ⟨e, found, other, under⟩ := ihInner hid
      refine ⟨e, found, other, .inr ?_⟩
      rcases under with under | ⟨p, hp, under⟩
      · exact ⟨id', .inl (.inl rfl), under⟩
      · exact ⟨p, .inl (.inr hp), under⟩
    · obtain ⟨e, found, other, under⟩ := ihOuter hid
      refine ⟨e, found, other, under.imp_right ?_⟩
      rintro ⟨p, hp, under⟩
      exact ⟨p, .inr hp, under⟩
  | @gone parent id' e' ids below rest outer found under other _ _ ihOuter =>
    simp only [Survey.append, List.mem_append, List.mem_singleton] at hid
    rcases hid with rfl | hid
    · exact ⟨e', found, fun d hd => under ▸ other d hd, .inl under⟩
    · exact ihOuter hid

theorem sorted (h : Surveyed look index parent ids s all)
    (hid : id ∈ ids ∨ ∃ p pe, p ∈ s.survivors ∧ look p = some pe ∧ id ∈ pe.children) :
    id ∈ s.survivors ∨ id ∈ s.destroyed := by
  induction h with
  | nil => simp at hid
  | @kept parent id' e' ids below rest inner outer found _ _ _ _ ihInner ihOuter =>
    simp only [Survey.append, List.nil_append, List.mem_append, List.mem_cons, List.not_mem_nil,
      or_false] at hid ⊢
    have fromInner (h : id ∈ inner.survivors ∨ id ∈ inner.destroyed) :
        ((id = id' ∨ id ∈ inner.survivors) ∨ id ∈ outer.survivors) ∨
          id ∈ inner.destroyed ∨ id ∈ outer.destroyed :=
      h.imp (fun h => .inl (.inr h)) .inl
    have fromOuter (h : id ∈ outer.survivors ∨ id ∈ outer.destroyed) :
        ((id = id' ∨ id ∈ inner.survivors) ∨ id ∈ outer.survivors) ∨
          id ∈ inner.destroyed ∨ id ∈ outer.destroyed :=
      h.imp .inr .inr
    rcases hid with (rfl | hid) | ⟨p, pe, (rfl | hp) | hp, hpe, hc⟩
    · exact .inl (.inl (.inl rfl))
    · exact fromOuter (ihOuter (.inl hid))
    · cases found.symm.trans hpe
      exact fromInner (ihInner (.inl hc))
    · exact fromInner (ihInner (.inr ⟨p, pe, hp, hpe, hc⟩))
    · exact fromOuter (ihOuter (.inr ⟨p, pe, hp, hpe, hc⟩))
  | @gone parent id' e' ids below rest outer _ _ _ _ _ ihOuter =>
    simp only [Survey.append, List.nil_append, List.mem_append, List.mem_cons, List.not_mem_nil,
      or_false] at hid ⊢
    rcases hid with (rfl | hid) | below
    · exact .inr (.inl rfl)
    · exact (ihOuter (.inl hid)).imp_right .inr
    · exact (ihOuter (.inr below)).imp_right .inr

end Surveyed

theorem eq_filter_of_sublist {α : Type} {p : α → Prop} [DecidablePred p] {part whole : List α}
    (sub : part.Sublist whole) (once : whole.Nodup) (mem : ∀ x ∈ whole, x ∈ part ↔ p x) :
    part = whole.filter (p ·) := by
  induction sub with
  | slnil => rfl
  | @cons part whole x sub ih =>
    rw [List.nodup_cons] at once
    have absent : ¬ p x := fun h => once.1 (sub.subset ((mem x List.mem_cons_self).2 h))
    rw [List.filter_cons_of_neg (by simpa using absent)]
    exact ih once.2 fun y hy => mem y (List.mem_cons_of_mem _ hy)
  | @cons_cons part whole x sub ih =>
    rw [List.nodup_cons] at once
    have present : p x := (mem x List.mem_cons_self).1 List.mem_cons_self
    rw [List.filter_cons_of_pos (by simpa using present)]
    refine congrArg _ (ih once.2 fun y hy => ?_)
    rw [← mem y (List.mem_cons_of_mem _ hy), List.mem_cons]
    have other : y ≠ x := fun eq => once.1 (eq ▸ hy)
    simp [other]

theorem stale_eq_diff {w : Widget} (found : live.get? w.id = some e) :
    live.stale w = Properties.diff e.props w.props := by
  unfold stale Properties.diff
  refine List.filter_congr fun field _ => ?_
  cases value : Fields.get? e.props field.1 <;> simp [value?, found, value]

section
variable (wf : live.WellFormed) (distinct : decl.Distinct) (surveyed : Surveys live decl s)
include wf distinct surveyed

theorem mem_destroyed_iff : id ∈ s.destroyed ↔ live.Uprooted decl id := by
  constructor
  · intro hid
    obtain ⟨e, found, other, under⟩ := surveyed.uprooted hid
    refine ⟨fun survives => ?_, e, found, fun p hp => ?_⟩
    · obtain ⟨e', found', declared, _⟩ :=
        surveyed.survivor (mem_survivors_of_survives wf distinct surveyed survives)
      cases found.symm.trans found'
      exact other _ declared rfl
    · rcases under with under | ⟨q, hq, under⟩
      · exact nomatch under.symm.trans hp
      · cases under.symm.trans hp
        exact (mem_survivors_iff wf distinct surveyed).1 hq
  · rintro ⟨dies, e, found, above⟩
    have place : id ∈ live.roots ∨
        ∃ p pe, p ∈ s.survivors ∧ live.get? p = some pe ∧ id ∈ pe.children := by
      rcases wf.listed found with ⟨root, _⟩ | ⟨p, pe, hp, hpe, hc⟩
      · exact .inl root
      · exact .inr ⟨p, pe, mem_survivors_of_survives wf distinct surveyed (above p hp), hpe, hc⟩
    refine (surveyed.sorted place).resolve_left fun hid => ?_
    exact dies ((mem_survivors_iff wf distinct surveyed).1 hid)

open Classical in
theorem destroyed_eq : s.destroyed = live.ids.filter (live.Uprooted decl ·) :=
  eq_filter_of_sublist surveyed.destroyed_sublist wf.once fun _ _ =>
    mem_destroyed_iff wf distinct surveyed

theorem opening_eq_due (parent : Option String) (w : Widget) :
    opening live s.survivors parent w = live.due decl (.enter parent w) := by
  have same : w.id ∈ s.survivors ↔ live.Survives decl w.id :=
    mem_survivors_iff wf distinct surveyed
  rw [due, opening]
  cases survives : survivor? live s.survivors w.id with
  | some e =>
    obtain ⟨hid, found⟩ := survivor?_eq_some_iff.1 survives
    rw [if_pos (same.1 hid), stale_eq_diff found]
    simp [update, List.isEmpty_iff]
  | none =>
    have dies : ¬ live.Survives decl w.id := by
      intro h
      obtain ⟨e, found, _⟩ := surveyed.survivor (same.2 h)
      exact nomatch survives.symm.trans (survivor?_eq_some_iff.2 ⟨same.2 h, found⟩)
    rw [if_neg dies]

open Classical in
theorem filter_survivors (cs : List String) :
    cs.filter (· ∈ s.survivors) = cs.filter (live.Survives decl ·) :=
  List.filter_congr fun _ _ => decide_eq_decide.2 (mem_survivors_iff wf distinct surveyed)

open Classical in
theorem created_eq (ws : List Widget) :
    created live s.survivors ws = (ws.map (·.id)).filter (¬ live.Survives decl ·) := by
  refine List.filter_congr fun c _ => ?_
  have same : (survivor? live s.survivors c).isSome = true ↔ live.Survives decl c :=
    (survivor?_isSome_iff surveyed).trans (mem_survivors_iff wf distinct surveyed)
  rw [← same]
  cases survivor? live s.survivors c <;> simp

theorem closing_eq_due {parent : Option String} {kept : List String} (row : List Widget)
    (h : kept = ((live.children? parent).getD []).filter (· ∈ s.survivors)) :
    closing live s.survivors parent kept row = live.due decl (.leave parent row) := by
  unfold closing due regrown
  rw [h, filter_survivors wf distinct surveyed, created_eq wf distinct surveyed]

end

theorem standing_eq (wf : live.WellFormed) (surveyed : Surveys live decl s) (id : String) :
    standing live s.survivors id =
      ((live.children? (some id)).getD []).filter (· ∈ s.survivors) := by
  unfold standing
  cases survives : survivor? live s.survivors id with
  | some e => simp [LiveTree.children?, (survivor?_eq_some_iff.1 survives).2]
  | none =>
    refine (List.filter_eq_nil_iff.2 fun c hc => ?_).symm
    cases found : live.get? id with
    | none => simp [LiveTree.children?, found] at hc
    | some e =>
      simp only [LiveTree.children?, found, Option.map_some, Option.getD_some] at hc
      obtain ⟨ce, hce, under⟩ := wf.children id e found c hc
      simp only [decide_eq_true_eq]
      intro stays
      obtain ⟨ce', hce', declared, above⟩ := surveyed.survivor stays
      cases hce.symm.trans hce'
      rcases above with h | ⟨p, hp, h⟩
      · cases under.symm.trans h
      · cases under.symm.trans h
        cases survives.symm.trans (survivor?_eq_some_iff.2 ⟨hp, found⟩)

mutual

/-- The walk of the declaration is a tour that gives what is due. -/
theorem emit_eq_due (wf : live.WellFormed) (distinct : decl.Distinct)
    (surveyed : Surveys live decl s) : (w : Widget) → (parent : Option String) →
      emit live s.survivors parent w = (w.tour parent).flatMap (live.due decl)
  | ⟨kind, id, props, children, pos⟩, parent => by
    rw [emit_eq, opening_eq_due wf distinct surveyed, emitAll_eq_due wf distinct surveyed children,
      closing_eq_due wf distinct surveyed children (standing_eq wf surveyed id),
      Widget.tour, List.flatMap_append, List.flatMap_cons, List.flatMap_singleton]

theorem emitAll_eq_due (wf : live.WellFormed) (distinct : decl.Distinct)
    (surveyed : Surveys live decl s) : (ws : List Widget) → (parent : Option String) →
      emitAll live s.survivors parent ws = (Widget.tourAll parent ws).flatMap (live.due decl)
  | [], parent => by rw [emitAll, Widget.tourAll, List.flatMap_nil]
  | w :: ws, parent => by
    rw [emitAll, Widget.tourAll, List.flatMap_append, emit_eq_due wf distinct surveyed w,
      emitAll_eq_due wf distinct surveyed ws]

end

open Classical in
theorem reconcile_eq_due (wf : live.WellFormed) (distinct : decl.Distinct)
    (h : live.reconcile decl = .ok cmds) :
    cmds = (live.ids.filter (live.Uprooted decl ·)).map .destroy
      ++ decl.tour.flatMap (live.due decl) := by
  obtain ⟨s, surveyed, rfl⟩ := reconcile_eq_ok wf h
  have roots : closing live s.survivors none (live.roots.filter (· ∈ s.survivors)) decl.roots =
      live.due decl (.leave none decl.roots) :=
    closing_eq_due wf distinct surveyed decl.roots rfl
  rw [roots, destroyed_eq wf distinct surveyed, emitAll_eq_due wf distinct surveyed, Forest.tour,
    List.flatMap_append, List.flatMap_singleton, List.append_assoc]

theorem destroyed?_due {v : Visit} {c : Command} (h : c ∈ live.due decl v) :
    c.destroyed? = none := by
  cases v with
  | enter parent w =>
    rw [due] at h
    split at h
    · split at h
      · simp at h
      · rw [List.mem_singleton.1 h]
        rfl
    · rw [List.mem_singleton.1 h]
      rfl
  | leave parent row =>
    rw [due] at h
    split at h
    · simp at h
    · rw [List.mem_singleton.1 h]
      rfl

open Classical in
theorem created?_tour (vs : List Visit) : (vs.flatMap (live.due decl)).filterMap Command.created? =
    ((vs.filterMap Visit.entered?).map (·.2.id)).filter (¬ live.Survives decl ·) := by
  induction vs with
  | nil => rfl
  | cons v vs ih =>
    rw [List.flatMap_cons, List.filterMap_append, ih]
    cases v with
    | enter parent w =>
      rw [Visit.entered?_cons_enter, List.map_cons, List.filter_cons, due]
      by_cases survives : live.Survives decl w.id
      · by_cases same : live.stale w = [] <;> simp [survives, same, Command.created?]
      · simp [survives, Command.created?, Widget.spec]
    | leave parent row =>
      rw [Visit.entered?_cons_leave, due]
      split <;> simp [Command.created?]

theorem reordered?_tour (vs : List Visit) :
    ((vs.flatMap (live.due decl)).filterMap Command.reordered?).Sublist
      (vs.filterMap Visit.left?) := by
  induction vs with
  | nil => exact List.Sublist.slnil
  | cons v vs ih =>
    rw [List.flatMap_cons, List.filterMap_append]
    cases v with
    | enter parent w =>
      have none : (live.due decl (.enter parent w)).filterMap Command.reordered? = [] := by
        rw [due]
        split
        · split <;> simp [Command.reordered?]
        · simp [Command.reordered?]
      rw [none, List.nil_append, Visit.left?_cons_enter]
      exact ih
    | leave parent row =>
      rw [Visit.left?_cons_leave, due]
      split
      · exact ih.cons _
      · exact ih.cons_cons _

end Reconcile

namespace LiveTree
variable {live t t' : LiveTree} {decl : Forest} {cmds : List Command}

theorem Runs.unique (run : Runs live cmds t) (run' : Runs live cmds t') : t = t' :=
  congrArg Prod.fst (run.applyAll_eq.symm.trans run'.applyAll_eq)

theorem Runs.valid {c : Command} {done rest : List Command}
    (run : Runs live (done ++ c :: rest) t) : c.Valid (live.applyAll done).1 := by
  obtain ⟨m, first, second⟩ := run.of_append
  rw [first.applyAll_eq]
  obtain _ | ⟨valid, _⟩ := second
  exact valid

/-- Each command that reconciling finds is valid in the tree that the ones before it have made.
So none of them is ignored, and none but a destruction takes an entity from its id. -/
theorem reconcile_valid (wf : live.WellFormed) (distinct : decl.Distinct)
    (h : live.reconcile decl = .ok cmds) (done : List Command) (c : Command)
    (rest : List Command) (split : cmds = done ++ c :: rest) :
    c.Valid (live.applyAll done).1 ∧ ((live.applyAll done).1.apply c).2 = [] ∧
      (c.destroyed? = none → ∀ id handle, (live.applyAll done).1.handle? id = some handle →
        ((live.applyAll done).1.apply c).1.handle? id = some handle) := by
  obtain ⟨s, t, _, run, _⟩ := reconcile_runs wf distinct h
  rw [split] at run
  have valid := run.valid
  obtain ⟨m, first, _⟩ := run.of_append
  have keyed : (live.applyAll done).1.Keyed := by
    rw [first.applyAll_eq]
    exact first.keyed wf.toKeyed
  exact ⟨valid, Command.Valid.silent valid, fun stays _ _ => handle?_apply keyed valid stays⟩

/-- Here a text moves from one row to another, so that its id is free when it is created. -/
theorem reconcile_valid_move :
    let row (id : String) (children : List Widget) : Widget := ⟨.row, id, [], children, .none⟩
    let old : Forest := ⟨[⟨.window, "main", [], [row "a" [.leaf .text "x"], row "b" []], .none⟩]⟩
    let new : Forest := ⟨[⟨.window, "main", [], [row "a" [], row "b" [.leaf .text "x"]], .none⟩]⟩
    let build : List Command := [.create none ⟨.window, "main", []⟩,
      .create (some "main") ⟨.row, "a", []⟩, .create (some "a") ⟨.text, "x", []⟩,
      .create (some "main") ⟨.row, "b", []⟩]
    let again : Command := .create (some "b") ⟨.text, "x", []⟩
    let live := (empty.applyAll build).1
    empty.reconcile old = .ok build ∧ live.WellFormed ∧ new.Distinct ∧
      live.reconcile new = .ok [.destroy "x", again] ∧
        again.Valid (live.applyAll [.destroy "x"]).1 := by
  intro row old new build again live
  have opening : empty.reconcile old = .ok build := rfl
  have wf : live.WellFormed := (wellFormed_empty.applyAll_mirrors (by decide) opening).1
  have distinct : new.Distinct := by decide
  have run : live.reconcile new = .ok [.destroy "x", again] := rfl
  have valid := (reconcile_valid wf distinct run [.destroy "x"] again [] rfl).1
  exact ⟨opening, wf, distinct, run, valid⟩

theorem numbered_empty : empty.Numbered :=
  ⟨fun _ _ h => (nomatch h), fun _ _ _ h => (nomatch h)⟩

theorem Numbered.applyAll (numbered : live.Numbered) (wf : live.WellFormed)
    (distinct : decl.Distinct) (h : live.reconcile decl = .ok cmds) :
    (live.applyAll cmds).1.Numbered := by
  obtain ⟨_, t, _, run, _⟩ := reconcile_runs wf distinct h
  rw [run.applyAll_eq]
  exact run.numbered wf.toKeyed numbered

/-- Reconciling gives exactly the commands that are due, and handles stay with whom they were
given to. -/
theorem reconcile_thrifty (wf : live.WellFormed) (numbered : live.Numbered)
    (distinct : decl.Distinct) (h : live.reconcile decl = .ok cmds) :
    live.Thrifty decl cmds (live.applyAll cmds).1 := by
  classical
  obtain ⟨s, t, surveyed, run, _⟩ := reconcile_runs wf distinct h
  obtain ⟨m, destroys, survived⟩ := surveyed.survived wf
  have commands := reconcile_eq_due wf distinct h
  have made : cmds.filterMap Command.created? =
      (decl.tour.flatMap (live.due decl)).filterMap Command.created? := by
    rw [commands, List.filterMap_append, List.filterMap_map]
    simp [Command.created?, Function.comp_def]
  have walk : Runs m (decl.tour.flatMap (live.due decl)) t := by
    rw [commands, ← destroyed_eq wf distinct surveyed] at run
    obtain ⟨m', first, second⟩ := run.of_append
    exact destroys.unique first ▸ second
  have stay : ∀ c ∈ decl.tour.flatMap (live.due decl), c.destroyed? = none := by
    intro c hc
    obtain ⟨v, _, hc⟩ := List.mem_flatMap.1 hc
    exact destroyed?_due hc
  rw [run.applyAll_eq]
  refine ⟨commands, ?_, ?_, fun id survives => ?_, ?_, run.numbered wf.toKeyed numbered⟩
  · rw [commands, List.filterMap_append, List.filterMap_map]
    have : List.filterMap (Command.reordered? ∘ Command.destroy)
        (live.ids.filter (live.Uprooted decl ·)) = [] := by simp [Command.reordered?, Function.comp_def]
    rw [this, List.nil_append]
    exact distinct.left_nodup.sublist (reordered?_tour decl.tour)
  · rw [made, created?_tour, Forest.filterMap_entered_tour, Forest.placed, Widget.placed_ids]
    rfl
  · have hid := mem_survivors_of_survives wf distinct surveyed survives
    have here : m.handle? id = live.handle? id := by
      rw [handle?, handle?, survived.get, if_pos hid, Option.map_map]
      rfl
    obtain ⟨e, found, _⟩ := surveyed.survivor hid
    have given : live.handle? id = some e.handle := handle?_eq_some_iff.2 ⟨e, found, rfl⟩
    rw [given]
    exact walk.handle?_eq survived.keyed stay (here.trans given)
  · rw [made, walk.map_handle?_created survived.keyed stay, survived.handle]

/-- The window gets a title and a button, and its text moves into the row. -/
theorem reconcile_thrifty_move :
    let old : Forest := ⟨[⟨.window, "main", [], [.leaf .text "a", .leaf .row "b"], .none⟩]⟩
    let new : Forest := ⟨[⟨.window, "main", [("title", .str "x")],
      [.leaf .button "c", ⟨.row, "b", [], [.leaf .text "a"], .none⟩], .none⟩]⟩
    let build : List Command := [.create none ⟨.window, "main", []⟩,
      .create (some "main") ⟨.text, "a", []⟩, .create (some "main") ⟨.row, "b", []⟩]
    let change : List Command := [.destroy "a", .update "main" [("title", .str "x")],
      .create (some "main") ⟨.button, "c", []⟩, .create (some "b") ⟨.text, "a", []⟩,
      .reorder (some "main") ["c", "b"]]
    let live := (empty.applyAll build).1
    empty.reconcile old = .ok build ∧ live.WellFormed ∧ live.Numbered ∧ new.Distinct ∧
      live.reconcile new = .ok change ∧ live.Thrifty new change (live.applyAll change).1 := by
  intro old new build change live
  have opening : empty.reconcile old = .ok build := rfl
  have start : old.Distinct := by decide
  have wf : live.WellFormed := (wellFormed_empty.applyAll_mirrors start opening).1
  have numbered : live.Numbered := numbered_empty.applyAll wellFormed_empty start opening
  have distinct : new.Distinct := by decide
  have run : live.reconcile new = .ok change := rfl
  exact ⟨opening, wf, numbered, distinct, run, reconcile_thrifty wf numbered distinct run⟩

end LiveTree
end WidgetScript
