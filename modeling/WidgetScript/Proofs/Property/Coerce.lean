import WidgetScript.Property.Coerce
import WidgetScript.Proofs.Outcome
import WidgetScript.Proofs.Value

/-! What a value becomes as a property of a widget is regular: a number has to be finite on
its way in, and a record takes over the keys of a map. -/
namespace WidgetScript

namespace Property
open Value
variable {q : Widget → Prop} {v : Value} {key : String} {p : Property}

theorem hasNumbers_of_isFinite {x : Point} (h : x.isFinite = true) : x.HasNumbers := by
  unfold Point.isFinite at h
  rw [Bool.and_eq_true] at h
  exact ⟨Number.isNaN_of_isFinite h.1, Number.isNaN_of_isFinite h.2⟩

theorem allFiniteItems_iff {items : List Value} :
    allFiniteItems items = true ↔ ∀ v ∈ items, allFinite v = true := by
  induction items with
  | nil => simp [allFiniteItems]
  | cons v vs ih => simp [allFiniteItems, ih]

theorem isFinite_of_point? {x : Point} (finite : allFinite v = true) (h : v.point? = some x) :
    x.isFinite = true := by
  unfold Value.point? at h
  split at h
  next a b =>
    cases h
    simpa [Point.isFinite, allFinite, allFiniteItems] using finite
  next => exact nomatch h

theorem isFinite_of_mapM {items : List Value} {ps : List Point}
    (finite : ∀ v ∈ items, allFinite v = true) (h : items.mapM Value.point? = some ps) :
    ∀ x ∈ ps, x.isFinite = true := by
  intro x hx
  obtain ⟨v, hv, point⟩ := exists_of_mem_mapM h x hx
  exact isFinite_of_point? (finite v hv) point

theorem isFinite_of_pointsOf? {items : List Value} {ps : List Point}
    (finite : allFiniteItems items = true) (h : pointsOf? items = some ps) :
    ∀ x ∈ ps, x.isFinite = true := by
  unfold pointsOf? at h
  split at h
  · exact nomatch h
  · exact isFinite_of_mapM (allFiniteItems_iff.1 finite) h

/-- What a key asks for. A handler's key that ends as a colour's does is a handler's. -/
inductive Expected where
  | handler | color | points | anything
deriving DecidableEq

def expected (key : String) : Expected :=
  if isHandlerKey key then .handler
  else if isColorKey key then .color
  else if key = "points" then .points
  else .anything

/-- How a value becomes a property, where `plainly` is what it becomes under a key that asks for
nothing special. -/
inductive Coerced (key : String) (v : Value) (plainly : Except Misfit Property) :
    Property → Prop where
  | handler {name : String} : expected key = .handler → v.str? = some name → name ≠ "" →
      Coerced key v plainly (.handler name)
  | color {c : Color} : expected key = .color →
      (v = .color c ∨ ∃ s, v.str? = some s ∧ Color.ofText? s = some c) →
      Coerced key v plainly (.color c)
  | points {ps : List Point} : expected key = .points →
      (v = .points ps ∨ ∃ items, v = .list items ∧ pointsOf? items = some ps) →
      Coerced key v plainly (.points ps)
  | plain {p : Property} : expected key = .anything → plainly = .ok p → Coerced key v plainly p

theorem coerced_of_coerceOr {plainly : Except Misfit Property}
    (h : coerceOr key v plainly = .ok (some p)) :
    allFinite v = true ∧ Coerced key v plainly p := by
  unfold coerceOr at h
  split at h
  · exact nomatch h
  split at h
  · exact nomatch h
  next finite =>
    rw [Bool.not_eq_true, Bool.not_eq_false'] at finite
    refine ⟨finite, ?_⟩
    split at h
    next isHandler =>
      have expects : expected key = .handler := if_pos isHandler
      split at h
      next name text =>
        split at h
        · exact nomatch h
        next named =>
          cases h
          refine .handler expects text ?_
          rintro rfl
          exact named rfl
      · exact nomatch h
    next noHandler =>
      split at h
      next isColor =>
        have expects : expected key = .color := by
          rw [expected, if_neg noHandler, if_pos isColor]
        split at h
        · cases h
          exact .color expects (.inl rfl)
        · split at h
          next s text =>
            split at h
            next c read =>
              cases h
              exact .color expects (.inr ⟨s, text, read⟩)
            · exact nomatch h
          · exact nomatch h
      next noColor =>
        split at h
        next isPoints =>
          have expects : expected key = .points := by
            rw [expected, if_neg noHandler, if_neg noColor, if_pos (eq_of_beq isPoints)]
          split at h
          · cases h
            exact .points expects (.inl rfl)
          · split at h
            next ps read =>
              cases h
              exact .points expects (.inr ⟨_, rfl, read⟩)
            · exact nomatch h
          · exact nomatch h
        next noPoints =>
          obtain ⟨p', given, h⟩ := map_eq_ok.1 h
          cases h
          refine .plain ?_ given
          rw [expected, if_neg noHandler, if_neg noColor, if_neg (by simpa using noPoints)]

theorem regular_of_coerceOr {plain : Except Misfit Property}
    (inner : ∀ p, allFinite v = true → plain = .ok p → p.Regular)
    (h : coerceOr key v plain = .ok (some p)) : p.Regular := by
  obtain ⟨finite, coerced⟩ := coerced_of_coerceOr h
  cases coerced with
  | handler _ _ _ => simp [Regular]
  | color _ _ => simp [Regular]
  | points _ source =>
    rw [Regular]
    rcases source with rfl | ⟨items, rfl, read⟩
    · rw [allFinite, List.all_eq_true] at finite
      exact fun x hx => hasNumbers_of_isFinite (finite x hx)
    · rw [allFinite] at finite
      exact fun x hx => hasNumbers_of_isFinite (isFinite_of_pointsOf? finite read x hx)
  | plain _ given => exact inner p finite given

inductive Plain : Value → Property → Prop where
  | bool {b : Bool} : Plain (.bool b) (.bool b)
  | number {x : Float} : Plain (.number x) (.number x)
  | str {s : String} : Plain (.str s) (.str s)
  | symbol {s : String} : Plain (.symbol s) (.str s)
  | color {c : Color} : Plain (.color c) (.color c)
  | points {ps : List Point} : Plain (.points ps) (.points ps)
  | polyline {items : List Value} {ps : List Point} : pointsOf? items = some ps →
      Plain (.list items) (.points ps)
  | list {items : List Value} {ps : List Property} : pointsOf? items = none →
      plainItems items = .ok ps → Plain (.list items) (.list ps)
  | record {entries : List (String × Value)} {fields : Properties} :
      plainEntries entries = .ok fields → Plain (.map entries) (.record fields)

theorem plain_eq_ok (h : plain v = .ok p) : Plain v p := by
  cases v with
  | list items =>
    rw [plain] at h
    split at h
    next ps read =>
      cases h
      exact .polyline read
    next none =>
      obtain ⟨ps, inner, h⟩ := map_eq_ok.1 h
      cases h
      exact .list none inner
  | map entries =>
    rw [plain] at h
    obtain ⟨fields, inner, h⟩ := map_eq_ok.1 h
    cases h
    exact .record inner
  | _ =>
    rw [plain] at h
    cases h <;> constructor

theorem plainItems_cons {vs : List Value} {ps : List Property}
    (h : plainItems (v :: vs) = .ok ps) :
    ∃ p rest, ps = p :: rest ∧ plain v = .ok p ∧ plainItems vs = .ok rest := by
  rw [plainItems, bind_eq_ok] at h
  obtain ⟨p, first, h⟩ := h
  obtain ⟨rest, later, h⟩ := bind_eq_ok.1 h
  exact ⟨p, rest, (Except.ok.inj h).symm, first, later⟩

theorem plainEntries_cons {vs : List (String × Value)} {fields : Properties}
    (h : plainEntries ((key, v) :: vs) = .ok fields) :
    ∃ p rest, fields = (p.map (key, ·)).toList ++ rest ∧ coerceOr key v (plain v) = .ok p ∧
      plainEntries vs = .ok rest := by
  rw [plainEntries, bind_eq_ok] at h
  obtain ⟨p, first, h⟩ := h
  obtain ⟨rest, later, h⟩ := bind_eq_ok.1 h
  refine ⟨p, rest, ?_, mapError_eq_ok.1 first, later⟩
  cases p with
  | none => exact (Except.ok.inj h).symm
  | some p => exact (Except.ok.inj h).symm

theorem keys_plainEntries {entries : List (String × Value)} {props : Properties}
    (h : plainEntries entries = .ok props) :
    (Fields.keys props).Sublist (Fields.keys entries) := by
  induction entries generalizing props with
  | nil =>
    rw [plainEntries] at h
    cases h
    exact List.Sublist.slnil
  | cons entry rest ih =>
    obtain ⟨p, fields, rfl, -, later⟩ := plainEntries_cons h
    cases p with
    | none => exact (ih later).cons entry.1
    | some p => exact (ih later).cons_cons entry.1

mutual

theorem regular_of_plain : (v : Value) → (p : Property) → v.All q → allFinite v = true →
    plain v = .ok p → p.Regular
  | .list items, p, all, finite, h => by
    rw [All] at all
    rw [allFinite] at finite
    cases plain_eq_ok h with
    | polyline read =>
      rw [Regular]
      exact fun x hx => hasNumbers_of_isFinite (isFinite_of_pointsOf? finite read x hx)
    | list _ inner =>
      rw [Regular]
      exact regular_of_plainItems items _ all finite inner
  | .map entries, p, all, finite, h => by
    rw [All] at all
    rw [allFinite] at finite
    cases plain_eq_ok h with
    | record inner =>
      rw [Regular]
      exact ⟨all.1.sublist (keys_plainEntries inner),
        regular_of_plainEntries entries _ all.2 finite inner⟩
  | .number x, p, _, finite, h => by
    cases plain_eq_ok h
    rw [allFinite] at finite
    rw [Regular]
    exact Number.isNaN_of_isFinite finite
  | .points ps, p, _, finite, h => by
    cases plain_eq_ok h
    rw [allFinite, List.all_eq_true] at finite
    rw [Regular]
    exact fun x hx => hasNumbers_of_isFinite (finite x hx)
  | .bool _, p, _, _, h | .str _, p, _, _, h | .symbol _, p, _, _, h | .color _, p, _, _, h => by
    cases plain_eq_ok h
    simp [Regular]
  | .nil, p, _, _, h | .node _, p, _, _, h => nomatch plain_eq_ok h

theorem regular_of_plainItems : (items : List Value) → (ps : List Property) → AllItems q items →
    allFiniteItems items = true → plainItems items = .ok ps → RegularItems ps
  | [], ps, _, _, h => by
    rw [plainItems] at h
    cases h
    simp [RegularItems]
  | v :: vs, ps, all, finite, h => by
    obtain ⟨p, rest, rfl, first, later⟩ := plainItems_cons h
    rw [AllItems] at all
    rw [allFiniteItems, Bool.and_eq_true] at finite
    rw [RegularItems]
    exact ⟨regular_of_plain v p all.1 finite.1 first,
      regular_of_plainItems vs rest all.2 finite.2 later⟩

theorem regular_of_plainEntries : (entries : List (String × Value)) → (props : Properties) →
    AllEntries q entries → allFiniteEntries entries = true → plainEntries entries = .ok props →
    RegularFields props
  | [], props, _, _, h => by
    rw [plainEntries] at h
    cases h
    simp [RegularFields]
  | (key, v) :: vs, props, all, finite, h => by
    obtain ⟨p, rest, rfl, first, later⟩ := plainEntries_cons h
    rw [AllEntries] at all
    rw [allFiniteEntries, Bool.and_eq_true] at finite
    have regular := regular_of_plainEntries vs rest all.2 finite.2 later
    cases p with
    | none => exact regular
    | some p =>
      rw [Option.map_some, Option.toList_some, List.singleton_append, RegularFields]
      refine ⟨regular_of_coerceOr (fun p' finite' => ?_) first, regular⟩
      exact regular_of_plain v p' all.1 finite'

end

theorem regular_of_coerce (all : v.All q) (h : coerce key v = .ok (some p)) : p.Regular :=
  regular_of_coerceOr (fun p finite => regular_of_plain v p all finite) h

end Property

end WidgetScript
