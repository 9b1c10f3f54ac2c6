import WidgetScript.Proofs.Live.Plan

/-! Reconciling finds no command only for a tree that is the image of the declaration already and
has its values. So what was reconciled once does not change when it is reconciled again. -/
namespace WidgetScript.LiveTree
open Reconcile
variable {live : LiveTree} {decl : Forest}

theorem Survives.exists_get? {id : String} (h : live.Survives decl id) :
    ∃ e, live.get? id = some e := by
  cases h with
  | root found | child _ found => exact ⟨_, found⟩

theorem holds_of_reconcile_eq_nil (wf : live.WellFormed) (distinct : decl.Distinct)
    (h : live.reconcile decl = .ok []) : live.Holds decl := by
  have nothing := (List.append_eq_nil_iff.1 (reconcile_eq_due wf distinct h).symm).2
  intro n hn
  obtain ⟨p, hp⟩ := Widget.placed_of_mem_preorder none hn
  have entered : Visit.enter p n ∈ decl.tour := by
    change (p, n) ∈ decl.placed at hp
    rw [← Forest.filterMap_entered_tour] at hp
    obtain ⟨v, hv, same⟩ := List.mem_filterMap.1 hp
    cases v with
    | enter q w =>
      cases same
      exact hv
    | leave q row => cases same
  have due : live.due decl (.enter p n) = [] := List.flatMap_eq_nil_iff.1 nothing _ entered
  rw [LiveTree.due] at due
  split at due
  next survives =>
    split at due
    next fresh =>
      obtain ⟨e, found⟩ := survives.exists_get?
      rw [stale_eq_diff found] at fresh
      exact ⟨e, found, Properties.diff_eq_nil_iff.1 fresh⟩
    next => cases due
  next => cases due

/-- Reconciling has nothing to do exactly if the tree is the image of the declaration and has its
values, whatever else it has. After reconciling this is so, unless a declared value is NaN. -/
theorem reconcile_eq_nil_iff (wf : live.WellFormed) (distinct : decl.Distinct) :
    (live.reconcile decl = .ok [] ↔ live.Mirrors decl ∧ live.Holds decl) ∧
      (decl.Regular → ∀ cmds, live.reconcile decl = .ok cmds →
        (live.applyAll cmds).1.reconcile decl = .ok []) := by
  refine ⟨⟨fun h => ?_, fun ⟨mirrors, holds⟩ => ?_⟩, fun regular cmds h => ?_⟩
  · obtain ⟨_, t, _, run, reconciled⟩ := reconcile_runs wf distinct h
    cases run.unique .nil
    exact ⟨reconciled.mirrors, holds_of_reconcile_eq_nil wf distinct h⟩
  · exact InSync.reconcile_eq_nil ⟨wf, mirrors, holds⟩
  · obtain ⟨wellFormed, mirrors, carries⟩ := wf.applyAll_mirrors distinct h
    exact InSync.reconcile_eq_nil ⟨wellFormed, mirrors, carries.holds regular⟩

/-- The window keeps a title that is not declared any more, and only the row is put in order. -/
theorem reconcile_eq_nil_iff_title :
    let window (props : Properties) (children : List Widget) : Forest :=
      ⟨[⟨.window, "main", props, children, .none⟩]⟩
    let old := window [("title", .str "x"), ("modal", .bool true)]
      [.leaf .text "a", .leaf .button "b"]
    let same := window [("modal", .bool true)] [.leaf .text "a", .leaf .button "b"]
    let turned := window [("modal", .bool true)] [.leaf .button "b", .leaf .text "a"]
    let build : List Command :=
      [.create none ⟨.window, "main", [("title", .str "x"), ("modal", .bool true)]⟩,
        .create (some "main") ⟨.text, "a", []⟩, .create (some "main") ⟨.button, "b", []⟩]
    let turn : List Command := [.reorder (some "main") ["b", "a"]]
    let live := (empty.applyAll build).1
    empty.reconcile old = .ok build ∧ live.WellFormed ∧ same.Distinct ∧ turned.Distinct ∧
      live.reconcile same = .ok [] ∧ live.Mirrors same ∧ live.Holds same ∧ turned.Regular ∧
      live.reconcile turned = .ok turn ∧ (live.applyAll turn).1.reconcile turned = .ok [] := by
  intro window old same turned build turn live
  have opening : empty.reconcile old = .ok build := rfl
  have wf : live.WellFormed := (wellFormed_empty.applyAll_mirrors (by decide) opening).1
  have first : same.Distinct := by decide
  have second : turned.Distinct := by decide
  have silent : live.reconcile same = .ok [] := rfl
  have run : live.reconcile turned = .ok turn := rfl
  have regular : turned.Regular := by
    have modal : Properties.Regular [("modal", .bool true)] := by
      change Properties.Regular (Fields.insert "modal" (.bool true) [])
      exact Properties.regular_nil.insert trivial
    change ∀ n ∈ turned.preorder, n.props.Regular
    simp [turned, window, Forest.preorder, Widget.preorderAll_cons, Widget.leaf, modal,
      Properties.regular_nil]
  obtain ⟨mirrors, holds⟩ := (reconcile_eq_nil_iff wf first).1.1 silent
  exact ⟨opening, wf, first, second, silent, mirrors, holds, regular, run,
    (reconcile_eq_nil_iff wf second).2 regular turn run⟩

end WidgetScript.LiveTree
