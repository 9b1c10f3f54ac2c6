import WidgetScript.Proofs.Eval.Crafted
import WidgetScript.Proofs.Forest.Relocate
import WidgetScript.Proofs.Live.Relocate

/-! A widget that a call made may as well be given to a directive as a map with its kind, its id,
its children and its properties. The map is read as the same widget, which only has no place, and
nothing that a directive does with a widget depends on that. -/
namespace WidgetScript

theorem Kind.ofName?_name (kind : Kind) : Kind.ofName? kind.name = some kind := by
  cases kind <;> rfl

namespace Widget
variable {w : Widget} {props acc : Properties}

mutual

def described : Widget → Value
  | ⟨kind, id, props, children, _⟩ =>
      .map (("kind", .str kind.name) :: ("id", .str id) ::
        ("children", .list (describedAll children)) :: Value.ofProperties props)

def describedAll : List Widget → List Value
  | [] => []
  | w :: ws => described w :: describedAll ws

end

/-- In a map none of its properties would be taken for its kind or its children. -/
def Unmistakable (w : Widget) : Prop :=
  "kind" ∉ Fields.keys w.props ∧ "children" ∉ Fields.keys w.props

theorem propsOf_ofProperties (stored : Properties.Stored (acc ++ props))
    (plain : ∀ key ∈ Fields.keys props, key ≠ "kind" ∧ key ≠ "id" ∧ key ≠ "children") :
    propsOf acc (Value.ofProperties props) = .ok (acc ++ props) := by
  induction props generalizing acc with
  | nil => rw [Value.ofProperties, propsOf, List.append_nil]
  | cons field props ih =>
    obtain ⟨key, p⟩ := field
    rw [Fields.keys_cons, List.forall_mem_cons] at plain
    obtain ⟨⟨notKind, notId, notChildren⟩, plain⟩ := plain
    have canonical : Property.Canonical key p := stored.canonical (key, p) (by simp)
    have fresh : key ∉ Fields.keys acc := by
      have distinct := stored.distinct
      rw [Fields.keys, List.map_append, List.map_cons] at distinct
      exact fun mem => List.disjoint_of_nodup_append distinct mem (.head _)
    have other : ¬(key = "kind" ∨ key = "id" ∨ key = "children") := by
      simp [notKind, notId, notChildren]
    rw [Value.ofProperties, propsOf, if_neg other, Property.coerce_ofProperty canonical]
    dsimp only
    rw [Fields.insert_of_not_mem fresh, ih (by simpa using stored) plain]
    simp

theorem ofEntries_of {entries : Fields Value} {kind : Kind} {id : String} {ws : List Widget}
    (hkind : (Fields.get? entries "kind").bind Value.str? = some kind.name)
    (hid : (Fields.get? entries "id").bind Value.str? = some id) (named : id ≠ "")
    (leaf : kind.isContainer = true ∨ ws = []) (given : propsOf [] entries = .ok props) :
    ofEntries entries (.ok ws) = .ok ⟨kind, id, props, ws, .none⟩ := by
  have holds : (!kind.isContainer && !ws.isEmpty) = false := by
    rcases leaf with container | rfl
    · rw [container]
      rfl
    · exact Bool.and_false _
  unfold ofEntries
  dsimp only
  rw [hkind, Option.getD_some, Kind.ofName?_name]
  dsimp only
  rw [hid]
  dsimp only
  rw [if_neg (mt String.isEmpty_iff.1 named)]
  change (if (!kind.isContainer && !ws.isEmpty) = true then _ else _) = _
  rw [holds, given]
  rfl

mutual

theorem ofValue_described : (w : Widget) → w.Crafted → w.Each Unmistakable →
    ofValue w.described = .ok w.bare
  | ⟨kind, id, props, children, pos⟩, crafted, clear => by
    obtain ⟨⟨proper, stored⟩, below⟩ := each_iff.1 crafted
    obtain ⟨⟨noKind, noChildren⟩, clearBelow⟩ := each_iff.1 clear
    have inner := ofValues_describedAll children below clearBelow
    have plain : ∀ key ∈ Fields.keys props, key ≠ "kind" ∧ key ≠ "id" ∧ key ≠ "children" := by
      intro key mem
      refine ⟨?_, ?_, ?_⟩ <;> rintro rfl
      · exact noKind mem
      · exact proper.keys mem
      · exact noChildren mem
    rw [described, ofValue, bare_eq]
    have read : childrenIn (("kind", .str kind.name) :: ("id", .str id) ::
        ("children", .list (describedAll children)) :: Value.ofProperties props) =
        .ok (children.map bare) := by
      rw [childrenIn, if_neg (by decide), childrenIn, if_neg (by decide), childrenIn, if_pos rfl,
        childrenOf, inner]
    rw [read]
    refine ofEntries_of rfl rfl proper.named (proper.leaf.imp_right fun none => ?_) ?_
    · exact congrArg (List.map bare) none
    · rw [propsOf, if_pos (by decide), propsOf, if_pos (by decide), propsOf, if_pos (by decide)]
      exact propsOf_ofProperties stored plain

theorem ofValues_describedAll : (ws : List Widget) → (∀ w ∈ ws, w.Crafted) →
    (∀ w ∈ ws, w.Each Unmistakable) → ofValues (describedAll ws) = .ok (ws.map bare)
  | [], _, _ => by rw [describedAll, ofValues]; rfl
  | w :: ws, crafted, clear => by
    rw [List.forall_mem_cons] at crafted clear
    rw [describedAll, ofValues, ofValue_described w crafted.1 clear.1,
      ofValues_describedAll ws crafted.2 clear.2]
    rfl

end

end Widget

namespace Directive
variable {forest : Forest} {live : LiveTree} {target : Widget} {d : Directive} {v : Value}
  {w : Widget}

theorem checkIds_bare (replaced : List String) (action : Action) (w : Widget) :
    checkIds forest replaced action w.bare = checkIds forest replaced action w := by
  have ids : w.bare.preorder.map (·.id) = w.preorder.map (·.id) := w.ids_relocate
  unfold checkIds
  dsimp only
  rw [ids]

theorem checkKinds_bare (parent : Option String) (w : Widget) :
    checkKinds live parent w.bare = checkKinds live parent w := by
  unfold checkKinds
  rw [Widget.bare, Widget.placed_relocate, List.findSome?_map]
  simp only [Function.comp_def, Widget.relocate_id, Widget.relocate_kind]

theorem checkDepth_bare (above : Nat) (w : Widget) :
    checkDepth above w.bare = checkDepth above w := by
  rw [checkDepth, checkDepth, Widget.bare, Widget.depth_relocate]

theorem containsWindow_bare (w : Widget) : w.bare.containsWindow = w.containsWindow :=
  w.containsWindow_relocate

theorem containsWindow_children_bare (w : Widget) :
    w.bare.children.any Widget.containsWindow = w.children.any Widget.containsWindow := by
  rw [Widget.bare_eq, List.any_map]
  exact congrArg w.children.any (funext containsWindow_bare)

theorem change_bare (brings : d.action = .appendChild ∨ d.action = .replace)
    (read : Widget.ofValue d.value = .ok w) :
    (d.change forest live target).map Widget.bare =
      (change forest live { d with value := .node w.bare } target).map Widget.bare := by
  have again : Widget.ofValue (.node w.bare) = .ok w.bare := by rw [Widget.ofValue]
  have bare_bare : w.bare.bare = w.bare := w.bare_relocate
  unfold change
  rcases brings with action | action
  · have child : Widget.bare { target with children := target.children ++ [w] } =
        Widget.bare { target with children := target.children ++ [w.bare] } := by
      rw [Widget.bare_eq, Widget.bare_eq]
      simp only [List.map_append, List.map_singleton, bare_bare]
    simp only [action, read, again, ok_mapError, ok_bind, containsWindow_bare, checkIds_bare,
      checkKinds_bare, checkDepth_bare]
    split
    · rfl
    · split
      · rfl
      · simp only [map_bind, ok_map, child]
  · have id : w.bare.id = w.id := w.relocate_id
    have kind : w.bare.kind = w.kind := w.relocate_kind
    simp only [action, read, again, ok_mapError, ok_bind, id, kind, containsWindow_children_bare,
      checkIds_bare, checkKinds_bare, checkDepth_bare]
    split
    · rfl
    · split
      · rfl
      · simp only [map_bind, ok_map, bare_bare]

theorem map_bare_edit (r : Except DispatchError Widget) (id : String) :
    (r >>= fun changed => .ok (forest.edit id fun _ => changed)).map Forest.bare =
      (r.map Widget.bare).map fun changed => forest.bare.edit id fun _ => changed := by
  cases r with
  | error e => rfl
  | ok changed => exact congrArg Except.ok (forest.bare_edit id changed)

theorem apply_congr {v v' : Value} {w w' : Widget} {target : String} {action : Action}
    (brings : action = .appendChild ∨ action = .replace) (read : Widget.ofValue v = .ok w)
    (read' : Widget.ofValue v' = .ok w') (same : w.bare = w'.bare) :
    (apply ⟨target, action, v⟩ forest live).map Forest.bare =
      (apply ⟨target, action, v'⟩ forest live).map Forest.bare := by
  unfold apply
  dsimp only
  cases forest.find? target with
  | none => rfl
  | some found =>
    have first : (change forest live ⟨target, action, v⟩ found).map Widget.bare =
        (change forest live ⟨target, action, .node w.bare⟩ found).map Widget.bare :=
      change_bare brings read
    have second : (change forest live ⟨target, action, v'⟩ found).map Widget.bare =
        (change forest live ⟨target, action, .node w'.bare⟩ found).map Widget.bare :=
      change_bare brings read'
    dsimp only
    rw [map_bare_edit, map_bare_edit, first, second, same]

theorem map_reconcile_congr {r r' : Except DispatchError Forest}
    (same : r.map Forest.bare = r'.map Forest.bare) :
    r.map live.reconcile = r'.map live.reconcile := by
  cases r with
  | error e =>
    cases r' with
    | error e' =>
      cases same
      rfl
    | ok f' => cases same
  | ok f =>
    cases r' with
    | error e => cases same
    | ok f' =>
      have roots := congrArg Forest.roots (Except.ok.inj same)
      exact congrArg Except.ok (live.reconcile_congr roots)

/-- A widget that a call made, if none of its properties would be mistaken, can be given as a map.
It is read as it is but for its place, and so a directive that brings it in fails in the same way
or leads to the same forest, but for places, and to the same commands. -/
theorem described_stands_for {n : Widget} (made : n.MadeByCall)
    (clear : n.Each Widget.Unmistakable) :
    Widget.ofValue n.described = .ok n.bare ∧
      ∀ action target forest (live : LiveTree), action = .appendChild ∨ action = .replace →
        let byMap := apply ⟨target, action, n.described⟩ forest live
        let byNode := apply ⟨target, action, .node n⟩ forest live
        byMap.map Forest.bare = byNode.map Forest.bare ∧
          byMap.map live.reconcile = byNode.map live.reconcile := by
  have read := Widget.ofValue_described n made.crafted clear
  have itself : Widget.ofValue (.node n) = .ok n := by rw [Widget.ofValue]
  refine ⟨read, fun action target forest live brings => ?_⟩
  have same : (apply ⟨target, action, n.described⟩ forest live).map Forest.bare =
      (apply ⟨target, action, .node n⟩ forest live).map Forest.bare :=
    apply_congr brings read itself n.bare_relocate
  exact ⟨same, map_reconcile_congr same⟩

/-- A column with a button in it is put into a window. -/
theorem described_stands_for_column :
    let button : Widget := ⟨.button, "b", [("text", .str "go"), ("on_click", .handler "f")], [],
      ⟨2, 3⟩⟩
    let n : Widget := ⟨.column, "c", [("gap", .str "wide")], [button], ⟨1, 1⟩⟩
    let forest : Forest := ⟨[.leaf .window "w"]⟩
    n.MadeByCall ∧ Widget.ofValue n.described = .ok n.bare ∧
      (apply ⟨"w", .appendChild, n.described⟩ forest .empty).map Forest.bare =
        .ok ⟨[⟨.window, "w", [], [n.bare], .none⟩]⟩ := by
  intro button n forest
  let string (key text : String) (p q : Position) : Entry := .mk key (.literal (.str text) q) p
  let block : Block := .mk .doEnd [.expr (.call "button" []
    [string "id" "b" ⟨2, 10⟩ ⟨2, 14⟩, string "text" "go" ⟨2, 19⟩ ⟨2, 25⟩,
      .mk "on_click" (.symbol "f" ⟨2, 41⟩) ⟨2, 31⟩] none ⟨2, 3⟩)] ⟨1, 31⟩
  have made : n.MadeByCall := ⟨64, 64, .column, [],
    [string "id" "c" ⟨1, 8⟩ ⟨1, 12⟩, string "gap" "wide" ⟨1, 17⟩ ⟨1, 22⟩], some block, ⟨1, 1⟩,
    .start [] [], .start [] [], rfl⟩
  have clear : n.Each Widget.Unmistakable := by
    unfold Widget.Each Widget.Unmistakable
    decide
  obtain ⟨read, same⟩ := described_stands_for made clear
  exact ⟨made, read, (same .appendChild "w" forest .empty (.inl rfl)).1.trans rfl⟩

end Directive
end WidgetScript
