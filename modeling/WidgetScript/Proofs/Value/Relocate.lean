import Mathlib.Data.List.Basic
import Mathlib.Logic.Function.Basic
import WidgetScript.Eval.Builtin
import WidgetScript.Eval.Operators
import WidgetScript.Proofs.Fields

/-! Values whose widgets have other places. Only equality asks for places, and it has the same
answer as long as no two of them become one; so what is done with values comes to the same
wherever their widgets stand. -/
namespace WidgetScript

namespace Fields
variable {α β : Type} {g : α → β}

def mapValues (g : α → β) (fields : Fields α) : Fields β :=
  fields.map fun field => (field.1, g field.2)

@[simp] theorem get?_mapValues (fields : Fields α) (key : String) :
    get? (mapValues g fields) key = (get? fields key).map g := by
  induction fields with
  | nil => rfl
  | cons field fields ih =>
    obtain ⟨k, v⟩ := field
    rw [get?_cons, mapValues, List.map_cons, ← mapValues, get?_cons, ih]
    split <;> rfl

@[simp] theorem insert_mapValues (key : String) (value : α) (fields : Fields α) :
    insert key (g value) (mapValues g fields) = mapValues g (insert key value fields) := by
  induction fields with
  | nil => rfl
  | cons field fields ih =>
    obtain ⟨k, v⟩ := field
    simp only [mapValues, List.map_cons, insert] at ih ⊢
    split
    · rfl
    · rw [ih, List.map_cons]

@[simp] theorem extend_mapValues (fields more : Fields α) :
    extend (mapValues g fields) (mapValues g more) = mapValues g (extend fields more) := by
  induction more generalizing fields with
  | nil => rfl
  | cons field more ih =>
    have step : extend (mapValues g fields) (mapValues g (field :: more)) =
        extend (insert field.1 (g field.2) (mapValues g fields)) (mapValues g more) := rfl
    rw [step, insert_mapValues, ih, extend_cons]

theorem mapValues_mapValues {γ : Type} {h : β → γ} (fields : Fields α) :
    mapValues h (mapValues g fields) = mapValues (h ∘ g) fields := by
  rw [mapValues, mapValues, List.map_map]
  rfl

@[simp] theorem length_mapValues (fields : Fields α) :
    List.length (mapValues g fields) = List.length fields := List.length_map _

end Fields

variable {f : Position → Position}

mutual

def Widget.relocate (f : Position → Position) : Widget → Widget
  | ⟨kind, id, props, children, pos⟩ => ⟨kind, id, props, Widget.relocateAll f children, f pos⟩

def Widget.relocateAll (f : Position → Position) : List Widget → List Widget
  | [] => []
  | w :: ws => w.relocate f :: Widget.relocateAll f ws

end

mutual

def Value.relocate (f : Position → Position) : Value → Value
  | .list items => .list (Value.relocateItems f items)
  | .map entries => .map (Value.relocateEntries f entries)
  | .node w => .node (w.relocate f)
  | .nil => .nil
  | .bool b => .bool b
  | .number x => .number x
  | .str s => .str s
  | .symbol s => .symbol s
  | .color c => .color c
  | .points ps => .points ps

def Value.relocateItems (f : Position → Position) : List Value → List Value
  | [] => []
  | v :: vs => v.relocate f :: Value.relocateItems f vs

def Value.relocateEntries (f : Position → Position) : List (String × Value) → List (String × Value)
  | [] => []
  | (key, v) :: entries => (key, v.relocate f) :: Value.relocateEntries f entries

end

namespace Widget

theorem relocateAll_eq_map (ws : List Widget) : relocateAll f ws = ws.map (relocate f) := by
  induction ws with
  | nil => rfl
  | cons w ws ih => rw [relocateAll, ih, List.map_cons]

@[simp] theorem relocate_kind (w : Widget) : (w.relocate f).kind = w.kind := by
  cases w
  rw [relocate]

@[simp] theorem relocate_id (w : Widget) : (w.relocate f).id = w.id := by
  cases w
  rw [relocate]

@[simp] theorem relocate_props (w : Widget) : (w.relocate f).props = w.props := by
  cases w
  rw [relocate]

@[simp] theorem relocate_children (w : Widget) :
    (w.relocate f).children = w.children.map (relocate f) := by
  cases w
  rw [relocate, relocateAll_eq_map]

@[simp] theorem relocate_pos (w : Widget) : (w.relocate f).pos = f w.pos := by
  cases w
  rw [relocate]

mutual

theorem same_relocate (inj : Function.Injective f) :
    (w v : Widget) → (w.relocate f).same (v.relocate f) = w.same v
  | ⟨kind, id, props, children, pos⟩, v => by
    -- This is the only test of places.
    have places : (f pos == f v.pos) = (pos == v.pos) := by
      rw [Bool.eq_iff_iff, beq_iff_eq, beq_iff_eq, inj.eq_iff]
    rw [relocate, same, same, relocate_kind, relocate_id, relocate_props, relocate_children,
      relocate_pos, ← relocateAll_eq_map, sameAll_relocateAll inj children v.children, places]

theorem sameAll_relocateAll (inj : Function.Injective f) :
    (ws vs : List Widget) → sameAll (relocateAll f ws) (relocateAll f vs) = sameAll ws vs
  | [], [] => rfl
  | [], _ :: _ => by simp [relocateAll, sameAll]
  | _ :: _, [] => by simp [relocateAll, sameAll]
  | w :: ws, v :: vs => by
    simp [relocateAll, sameAll, same_relocate inj w v, sameAll_relocateAll inj ws vs]

end

mutual

theorem relocate_relocate {g : Position → Position} :
    (w : Widget) → (w.relocate f).relocate g = w.relocate (g ∘ f)
  | ⟨kind, id, props, children, pos⟩ => by
    rw [relocate, relocate, relocate, relocateAll_relocateAll children, Function.comp_apply]

theorem relocateAll_relocateAll {g : Position → Position} :
    (ws : List Widget) → relocateAll g (relocateAll f ws) = relocateAll (g ∘ f) ws
  | [] => rfl
  | w :: ws => by
    rw [relocateAll, relocateAll, relocateAll, relocate_relocate w, relocateAll_relocateAll ws]

end

def bare (w : Widget) : Widget := w.relocate fun _ => .none

theorem bare_relocate (w : Widget) : (w.relocate f).bare = w.bare := relocate_relocate w

mutual

theorem preorder_relocate : (w : Widget) → (w.relocate f).preorder = w.preorder.map (relocate f)
  | ⟨kind, id, props, children, pos⟩ => by
    rw [relocate, preorder, preorder, preorderAll_relocateAll children, List.map_cons, relocate]

theorem preorderAll_relocateAll : (ws : List Widget) →
    preorderAll (relocateAll f ws) = (preorderAll ws).map (relocate f)
  | [] => rfl
  | w :: ws => by
    rw [relocateAll, preorderAll, preorderAll, preorder_relocate w, preorderAll_relocateAll ws,
      List.map_append]

end

end Widget

namespace Value

@[simp] theorem relocateItems_eq_map (vs : List Value) :
    relocateItems f vs = vs.map (relocate f) := by
  induction vs with
  | nil => rfl
  | cons v vs ih => rw [relocateItems, ih, List.map_cons]

@[simp] theorem relocateEntries_eq_mapValues (entries : List (String × Value)) :
    relocateEntries f entries = Fields.mapValues (relocate f) entries := by
  induction entries with
  | nil => rfl
  | cons entry entries ih =>
    obtain ⟨key, v⟩ := entry
    rw [relocateEntries, ih]
    rfl

@[simp] theorem typeName_list (items : List Value) : (list items).typeName = "list" := rfl

@[simp] theorem typeName_map (entries : Fields Value) : (map entries).typeName = "map" := rfl

@[simp] theorem typeName_node (w : Widget) : (node w).typeName = "node" := rfl

@[simp] theorem typeName_relocate (v : Value) : (v.relocate f).typeName = v.typeName := by
  cases v <;> rfl

@[simp] theorem isTruthy_relocate (v : Value) : (v.relocate f).isTruthy = v.isTruthy := by
  cases v <;> rfl

@[simp] theorem str?_relocate (v : Value) : (v.relocate f).str? = v.str? := by
  cases v <;> rfl

@[simp] theorem number?_relocate (v : Value) : (v.relocate f).number? = v.number? := by
  cases v <;> rfl

mutual

theorem same_relocate (inj : Function.Injective f) :
    (v w : Value) → (v.relocate f).same (w.relocate f) = v.same w
  | .list items, w => by
    cases w with
    | list items' => simpa [relocate, same] using sameList_relocateItems inj items items'
    | _ => simp [relocate, same]
  | .map entries, w => by
    cases w with
    | map entries' =>
      have rest := sameEntries_relocateEntries inj entries entries'
      rw [relocate, relocate, same, same, rest, relocateEntries_eq_mapValues,
        relocateEntries_eq_mapValues, Fields.length_mapValues, Fields.length_mapValues]
    | _ => simp [relocate, same]
  | .node v, w => by
    cases w with
    | node w => simp [relocate, same, Widget.same_relocate inj]
    | _ => simp [relocate, same]
  | .nil, w => by cases w <;> simp [relocate, same]
  | .bool _, w => by cases w <;> simp [relocate, same]
  | .number _, w => by cases w <;> simp [relocate, same]
  | .str _, w => by cases w <;> simp [relocate, same]
  | .symbol _, w => by cases w <;> simp [relocate, same]
  | .color _, w => by cases w <;> simp [relocate, same]
  | .points _, w => by cases w <;> simp [relocate, same]

theorem sameList_relocateItems (inj : Function.Injective f) :
    (vs ws : List Value) → sameList (relocateItems f vs) (relocateItems f ws) = sameList vs ws
  | [], [] => rfl
  | [], _ :: _ => by simp [relocateItems, sameList]
  | _ :: _, [] => by simp [relocateItems, sameList]
  | v :: vs, w :: ws => by
    rw [relocateItems, relocateItems, sameList, sameList, same_relocate inj v w,
      sameList_relocateItems inj vs ws]

theorem sameEntries_relocateEntries (inj : Function.Injective f) :
    (vs ws : List (String × Value)) →
      sameEntries (relocateEntries f vs) (relocateEntries f ws) = sameEntries vs ws
  | [], _ => by rw [relocateEntries, sameEntries, sameEntries]
  | (key, v) :: vs, ws => by
    rw [relocateEntries, sameEntries, sameEntries, sameEntries_relocateEntries inj vs ws,
      relocateEntries_eq_mapValues, Fields.get?_mapValues]
    cases Fields.get? ws key with
    | none => rfl
    | some w => simp only [Option.map_some, same_relocate inj v w]

end

theorem looseEq_relocate (inj : Function.Injective f) (v w : Value) :
    looseEq (v.relocate f) (w.relocate f) = looseEq v w := by
  rw [looseEq, looseEq, str?_relocate, str?_relocate, same_relocate inj]

mutual

theorem text_relocate : (v : Value) → (v.relocate f).text = v.text
  | .list items => by rw [relocate, text, text, texts_relocateItems items]
  | .map entries => by rw [relocate, text, text, entryTexts_relocateEntries entries]
  | .node w => by rw [relocate, text, text, Widget.relocate_kind, Widget.relocate_id]
  | .nil | .bool _ | .number _ | .str _ | .symbol _ | .color _ | .points _ => rfl

theorem texts_relocateItems : (vs : List Value) → texts (relocateItems f vs) = texts vs
  | [] => rfl
  | v :: vs => by rw [relocateItems, texts, texts, text_relocate v, texts_relocateItems vs]

theorem entryTexts_relocateEntries : (entries : List (String × Value)) →
    entryTexts (relocateEntries f entries) = entryTexts entries
  | [] => rfl
  | (key, v) :: entries => by
    rw [relocateEntries, entryTexts, entryTexts, text_relocate v,
      entryTexts_relocateEntries entries]

end

mutual

theorem relocate_ofProperty : (p : Property) → (ofProperty p).relocate f = ofProperty p
  | .list items => by rw [ofProperty, relocate, relocateItems_ofPropertyList items]
  | .record fields => by rw [ofProperty, relocate, relocateEntries_ofProperties fields]
  | .str _ | .number _ | .bool _ | .color _ | .points _ | .handler _ => rfl

theorem relocateItems_ofPropertyList : (items : List Property) →
    relocateItems f (ofPropertyList items) = ofPropertyList items
  | [] => rfl
  | item :: items => by
    rw [ofPropertyList, relocateItems, relocate_ofProperty item,
      relocateItems_ofPropertyList items]

theorem relocateEntries_ofProperties : (fields : List (String × Property)) →
    relocateEntries f (ofProperties fields) = ofProperties fields
  | [] => rfl
  | (key, p) :: fields => by
    rw [ofProperties, relocateEntries, relocate_ofProperty p, relocateEntries_ofProperties fields]

end

mutual

theorem relocate_relocate {g : Position → Position} :
    (v : Value) → (v.relocate f).relocate g = v.relocate (g ∘ f)
  | .list items => by rw [relocate, relocate, relocate, relocateItems_relocateItems items]
  | .map entries => by rw [relocate, relocate, relocate, relocateEntries_relocateEntries entries]
  | .node w => by rw [relocate, relocate, relocate, Widget.relocate_relocate w]
  | .nil | .bool _ | .number _ | .str _ | .symbol _ | .color _ | .points _ => rfl

theorem relocateItems_relocateItems {g : Position → Position} :
    (vs : List Value) → relocateItems g (relocateItems f vs) = relocateItems (g ∘ f) vs
  | [] => rfl
  | v :: vs => by
    rw [relocateItems, relocateItems, relocateItems, relocate_relocate v,
      relocateItems_relocateItems vs]

theorem relocateEntries_relocateEntries {g : Position → Position} :
    (entries : List (String × Value)) →
      relocateEntries g (relocateEntries f entries) = relocateEntries (g ∘ f) entries
  | [] => rfl
  | (key, v) :: entries => by
    rw [relocateEntries, relocateEntries, relocateEntries, relocate_relocate v,
      relocateEntries_relocateEntries entries]

end

def bare (v : Value) : Value := v.relocate fun _ => .none

theorem bare_relocate (v : Value) : (v.relocate f).bare = v.bare := relocate_relocate v

theorem point?_relocate (v : Value) : (v.relocate f).point? = v.point? := by
  cases v with
  | list items =>
    match items with
    | [] | [_] | _ :: _ :: _ :: _ => simp [relocate, point?]
    | [a, b] => cases a <;> cases b <;> simp [relocate, point?]
  | _ => rfl

theorem mapM_point?_relocateItems (items : List Value) :
    (relocateItems f items).mapM point? = items.mapM point? := by
  rw [relocateItems_eq_map, List.mapM_map]
  simp only [Function.comp_def, point?_relocate]

theorem unary_relocate (op : UnaryOp) (v : Value) :
    unary op (v.relocate f) = (unary op v).map (relocate f) := by
  cases op with
  | not => simp [unary, Except.map, relocate]
  | neg => cases v <;> rfl

theorem binary_relocate (inj : Function.Injective f) (op : BinaryOp) (l r : Value) :
    binary op (l.relocate f) (r.relocate f) = (binary op l r).map (relocate f) := by
  cases op with
  | eq | notEq => simp [binary, looseEq_relocate inj, Except.map, relocate]
  | and | or => simp [binary, Except.map]
  | add =>
    cases l with
    | number => cases r <;> rfl
    | list => cases r <;> simp [binary, relocate, typeName, Except.map]
    | str => simp [binary, relocate, text_relocate, Except.map]
    | _ => simp [binary, relocate, Except.map]
  | sub | mul =>
    cases l with
    | number => cases r <;> rfl
    | _ => simp [binary, relocate, Except.map]
  | div =>
    cases l with
    | number a =>
      cases r with
      | number b =>
        simp only [binary, relocate]
        split <;> rfl
      | _ => rfl
    | _ => simp [binary, relocate, Except.map]
  | lt | le | gt | ge =>
    cases l with
    | number => cases r <;> rfl
    | str => cases r <;> rfl
    | symbol => cases r <;> rfl
    | _ => simp [binary, relocate, str?, Except.map]

theorem item_relocate (items : List Value) (n : Float) :
    item (items.map (relocate f)) n = (item items n).relocate f := by
  have at_index (i : Int) :
      (if 0 ≤ i then ((items.map (relocate f))[i.toNat]?).getD .nil else .nil) =
        (if 0 ≤ i then (items[i.toNat]?).getD .nil else .nil).relocate f := by
    split
    · rw [List.getElem?_map]
      cases items[i.toNat]? <;> rfl
    · rfl
  unfold item
  rw [List.length_map]
  split
  · exact at_index _
  · rfl

theorem ofWidgetField_relocate (w : Widget) (name : String) :
    ofWidgetField (w.relocate f) name = (ofWidgetField w name).relocate f := by
  unfold ofWidgetField
  split
  · rw [Widget.relocate_id, relocate]
  · rw [Widget.relocate_kind, relocate]
  · rw [Widget.relocate_children, relocate, relocateItems_eq_map, List.map_map, List.map_map]
    rfl
  · rw [Widget.relocate_props]
    cases Fields.get? w.props name with
    | none => rfl
    | some p => exact (relocate_ofProperty p).symm

theorem getD_get?_mapValues (entries : Fields Value) (key : String) :
    (Fields.get? (Fields.mapValues (relocate f) entries) key).getD .nil =
      ((Fields.get? entries key).getD .nil).relocate f := by
  rw [Fields.get?_mapValues]
  cases Fields.get? entries key <;> rfl

theorem index_relocate (target key : Value) :
    index (target.relocate f) (key.relocate f) = (index target key).map (relocate f) := by
  cases target with
  | list items =>
    cases key with
    | number n => simp [index, relocate, item_relocate, Except.map]
    | _ => simp [index, relocate, typeName, Except.map]
  | points ps =>
    have pairs : (ps.map fun p => list [number p.x, number p.y]).map (relocate f) =
        ps.map fun p => list [number p.x, number p.y] := by
      simp [List.map_map, Function.comp_def, relocate]
    cases key with
    | number n =>
      simp only [index, relocate, Except.map]
      rw [← item_relocate, pairs]
    | _ => simp [index, relocate, typeName, Except.map]
  | str s =>
    have chars : (s.toList.map fun c => str c.toString).map (relocate f) =
        s.toList.map fun c => str c.toString := by
      simp [List.map_map, Function.comp_def, relocate]
    cases key with
    | number n =>
      simp only [index, relocate, Except.map]
      rw [← item_relocate, chars]
    | _ => simp [index, relocate, typeName, Except.map]
  | map entries =>
    simp only [index, relocate, str?_relocate, relocateEntries_eq_mapValues, getD_get?_mapValues,
      typeName_map, typeName_relocate]
    cases key.str? <;> rfl
  | node w =>
    simp only [index, relocate, str?_relocate, ofWidgetField_relocate, typeName_node,
      typeName_relocate]
    cases key.str? <;> rfl
  | _ => simp [index, relocate, Except.map]

theorem field_relocate (target : Value) (name : String) :
    field (target.relocate f) name = (field target name).map (relocate f) := by
  cases target with
  | map entries =>
    simp only [field, relocate, relocateEntries_eq_mapValues, getD_get?_mapValues, Except.map]
  | node w => simp only [field, relocate, ofWidgetField_relocate, Except.map]
  | color c =>
    simp only [field, relocate]
    split <;> rfl
  | _ => rfl

end Value

namespace Property
open Value

mutual

theorem allFinite_relocate : (v : Value) → allFinite (v.relocate f) = allFinite v
  | .list items => by rw [relocate, allFinite, allFinite, allFiniteItems_relocateItems items]
  | .map entries => by
    rw [relocate, allFinite, allFinite, allFiniteEntries_relocateEntries entries]
  | .nil | .bool _ | .number _ | .str _ | .symbol _ | .color _ | .points _ | .node _ => rfl

theorem allFiniteItems_relocateItems : (vs : List Value) →
    allFiniteItems (relocateItems f vs) = allFiniteItems vs
  | [] => rfl
  | v :: vs => by
    rw [relocateItems, allFiniteItems, allFiniteItems, allFinite_relocate v,
      allFiniteItems_relocateItems vs]

theorem allFiniteEntries_relocateEntries : (entries : List (String × Value)) →
    allFiniteEntries (relocateEntries f entries) = allFiniteEntries entries
  | [] => rfl
  | (key, v) :: entries => by
    rw [relocateEntries, allFiniteEntries, allFiniteEntries, allFinite_relocate v,
      allFiniteEntries_relocateEntries entries]

end

theorem pointsOf?_relocateItems (items : List Value) :
    pointsOf? (relocateItems f items) = pointsOf? items := by
  rw [pointsOf?, pointsOf?, mapM_point?_relocateItems, relocateItems_eq_map, List.isEmpty_map]

theorem coerceOr_relocate (key : String) (v : Value) (plain : Except Misfit Property) :
    coerceOr key (v.relocate f) plain = coerceOr key v plain := by
  cases v with
  | list items =>
    have finite := allFinite_relocate (f := f) (.list items)
    rw [relocate] at finite ⊢
    simp only [coerceOr, finite, pointsOf?_relocateItems]
    rfl
  | map entries =>
    have finite := allFinite_relocate (f := f) (.map entries)
    rw [relocate] at finite ⊢
    simp only [coerceOr, finite]
    rfl
  | _ => rfl

mutual

theorem plain_relocate : (v : Value) → plain (v.relocate f) = plain v
  | .list items => by
    rw [relocate, plain, plain, pointsOf?_relocateItems, plainItems_relocateItems items]
  | .map entries => by rw [relocate, plain, plain, plainEntries_relocateEntries entries]
  | .node w => by rw [relocate, plain, plain, Widget.relocate_id]
  | .nil | .bool _ | .number _ | .str _ | .symbol _ | .color _ | .points _ => rfl

theorem plainItems_relocateItems : (vs : List Value) →
    plainItems (relocateItems f vs) = plainItems vs
  | [] => rfl
  | v :: vs => by
    rw [relocateItems, plainItems, plainItems, plain_relocate v, plainItems_relocateItems vs]

theorem plainEntries_relocateEntries : (entries : List (String × Value)) →
    plainEntries (relocateEntries f entries) = plainEntries entries
  | [] => rfl
  | (key, v) :: entries => by
    rw [relocateEntries, plainEntries, plainEntries, plain_relocate v, coerceOr_relocate,
      plainEntries_relocateEntries entries]

end

theorem coerce_relocate (key : String) (v : Value) : coerce key (v.relocate f) = coerce key v := by
  rw [coerce, coerce, coerceOr_relocate, plain_relocate]

end Property

namespace Builtin
open Value

theorem numbers_relocate (b : Builtin) (args : List Value) :
    numbers b (args.map (relocate f)) = numbers b args := by
  induction args with
  | nil => rfl
  | cons v vs ih => rw [List.map_cons, numbers, numbers, number?_relocate, typeName_relocate, ih]

theorem color_relocate (b : Builtin) (expected : Nat) (args : List Value) :
    color b expected (args.map (relocate f)) = (color b expected args).map (relocate f) := by
  unfold color
  rw [List.length_map, numbers_relocate]
  split
  · rfl
  · cases numbers b args with
    | error e => rfl
    | ok channels =>
      dsimp only
      split <;> rfl

theorem unaryArg_relocate (b : Builtin) (args : List Value) {g : Value → Except TypeFault Value}
    (h : ∀ v, g (v.relocate f) = (g v).map (relocate f)) :
    unaryArg b (args.map (relocate f)) g = (unaryArg b args g).map (relocate f) := by
  match args with
  | [] | _ :: _ :: _ => simp [unaryArg, Except.map]
  | [v] =>
    simp only [List.map_cons, List.map_nil, unaryArg, h]
    cases g v <;> rfl

theorem ofHex_relocate (v : Value) : ofHex (v.relocate f) = (ofHex v).map (relocate f) := by
  unfold ofHex
  rw [str?_relocate, typeName_relocate]
  cases v.str? with
  | none => rfl
  | some s =>
    dsimp only
    cases Color.ofText? s <;> rfl

theorem ofPairs_relocate (v : Value) : ofPairs (v.relocate f) = (ofPairs v).map (relocate f) := by
  cases v with
  | list items =>
    rw [relocate, ofPairs, ofPairs, mapM_point?_relocateItems]
    cases items.mapM point? <;> rfl
  | _ => rfl

theorem count_relocate (v : Value) : count (v.relocate f) = (count v).map (relocate f) := by
  cases v <;> simp [relocate, count, Except.map]

theorem call_relocate (b : Builtin) (args : List Value) :
    b.call (args.map (relocate f)) =
      (b.call args).map fun result => (result.1.relocate f, result.2) := by
  have silent {r r' : Except SemanticFault Value} (h : r' = r.map (relocate f)) :
      (r'.map fun v => (v, ([] : List LogLine))) =
        (r.map fun v => (v, [])).map fun result => (result.1.relocate f, result.2) := by
    rw [h]
    cases r <;> rfl
  cases b with
  | rgb => exact silent (color_relocate .rgb 3 args)
  | rgba => exact silent (color_relocate .rgba 4 args)
  | hex => exact silent (unaryArg_relocate .hex args ofHex_relocate)
  | points => exact silent (unaryArg_relocate .points args ofPairs_relocate)
  | len => exact silent (unaryArg_relocate .len args count_relocate)
  | str =>
    refine silent (unaryArg_relocate .str args fun v => ?_)
    rw [text_relocate]
    rfl
  | log | puts =>
    simp only [call, Except.map, List.map_map, Function.comp_def, text_relocate]
    rfl

end Builtin
end WidgetScript
