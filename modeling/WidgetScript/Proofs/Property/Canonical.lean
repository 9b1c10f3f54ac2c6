import WidgetScript.Proofs.Property.Coerce

/-! Which properties are stored: those that are canonical for their key, at every depth. For a
canonical property is read as a value that becomes the same property again. -/
namespace WidgetScript

theorem exists_of_forall₂ {α β : Type} {r : α → β → Prop} {as : List α} {bs : List β}
    (h : List.Forall₂ r as bs) : ∀ a ∈ as, ∃ b ∈ bs, r a b := by
  induction h with
  | nil => simp
  | cons first _ ih =>
    rw [List.forall_mem_cons]
    refine ⟨⟨_, List.mem_cons_self, first⟩, fun a ha => ?_⟩
    obtain ⟨b, hb, related⟩ := ih a ha
    exact ⟨b, List.mem_cons_of_mem _ hb, related⟩

namespace Property
open Value
variable {key : String} {v : Value} {p : Property} {items : List Value} {ps : List Property}
  {plainly : Except Misfit Property}

def IsPair (p : Property) : Prop := ∃ x y, p = .list [.number x, .number y]

mutual

inductive Canonical : String → Property → Prop where
  | handler {key name : String} : expected key = .handler → name ≠ "" →
      Canonical key (.handler name)
  | color {key : String} {c : Color} : expected key = .color → Canonical key (.color c)
  | points {key : String} {ps : List Point} : expected key = .points →
      (∀ x ∈ ps, x.isFinite = true) → Canonical key (.points ps)
  | ordinary {key : String} {p : Property} : expected key = .anything → Ordinary p →
      Canonical key p

/-- What is as a key asks for that asks for nothing special. A handler is none, but a record may
hold one, and a list of pairs is a polyline instead. -/
inductive Ordinary : Property → Prop where
  | str {s : String} : Ordinary (.str s)
  | number {x : Float} : x.isFinite = true → Ordinary (.number x)
  | bool {b : Bool} : Ordinary (.bool b)
  | color {c : Color} : Ordinary (.color c)
  | points {ps : List Point} : (∀ x ∈ ps, x.isFinite = true) → Ordinary (.points ps)
  | list {items : List Property} : (∀ item ∈ items, Ordinary item) →
      (items = [] ∨ ∃ item ∈ items, ¬item.IsPair) → Ordinary (.list items)
  | record {fields : Properties} : (∀ field ∈ fields, Canonical field.1 field.2) →
      Ordinary (.record fields)

end

theorem pointsOf?_eq_none_iff :
    pointsOf? items = none ↔ items = [] ∨ ∃ v ∈ items, v.point? = none := by
  rw [pointsOf?]
  split
  next empty => simp [List.isEmpty_iff.1 empty]
  next some => rw [mapM_eq_none_iff, or_iff_right (mt List.isEmpty_iff.2 some)]

theorem plainItems_forall₂ (h : plainItems items = .ok ps) :
    List.Forall₂ (fun v p => plain v = .ok p) items ps := by
  induction items generalizing ps with
  | nil =>
    rw [plainItems] at h
    cases h
    exact .nil
  | cons v vs ih =>
    obtain ⟨p, rest, rfl, first, later⟩ := plainItems_cons h
    exact .cons first (ih later)

theorem isSome_point?_of_isPair (h : plain v = .ok p) (pair : p.IsPair) :
    v.point?.isSome = true := by
  obtain ⟨x, y, rfl⟩ := pair
  cases plain_eq_ok h with
  | list _ inner =>
    rcases plainItems_forall₂ inner with _ | ⟨first, _ | ⟨second, ⟨⟩⟩⟩
    cases plain_eq_ok first
    cases plain_eq_ok second
    rfl

theorem unpaired_of_pointsOf? (none : pointsOf? items = none) (h : plainItems items = .ok ps) :
    ps = [] ∨ ∃ p ∈ ps, ¬p.IsPair := by
  -- One item is no point, and what it becomes is no pair.
  have each := plainItems_forall₂ h
  rcases pointsOf?_eq_none_iff.1 none with rfl | ⟨v, hv, single⟩
  · cases each
    exact .inl rfl
  · obtain ⟨p, hp, plain⟩ := exists_of_forall₂ each v hv
    refine .inr ⟨p, hp, fun pair => ?_⟩
    simpa [single] using isSome_point?_of_isPair plain pair

theorem canonical_of_coerceOr (inner : ∀ p, allFinite v = true → plainly = .ok p → Ordinary p)
    (h : coerceOr key v plainly = .ok (some p)) : Canonical key p := by
  obtain ⟨finite, coerced⟩ := coerced_of_coerceOr h
  cases coerced with
  | handler expects _ named => exact .handler expects named
  | color expects => exact .color expects
  | points expects source =>
    refine .points expects ?_
    rcases source with rfl | ⟨items, rfl, read⟩
    · rw [allFinite, List.all_eq_true] at finite
      exact finite
    · rw [allFinite] at finite
      exact isFinite_of_pointsOf? finite read
  | plain expects given => exact .ordinary expects (inner p finite given)

mutual

theorem ordinary_of_plain : (v : Value) → (p : Property) → allFinite v = true →
    plain v = .ok p → Ordinary p
  | .list items, p, finite, h => by
    rw [allFinite] at finite
    cases plain_eq_ok h with
    | polyline read => exact .points (isFinite_of_pointsOf? finite read)
    | list none inner =>
      exact .list (ordinary_of_plainItems items _ finite inner) (unpaired_of_pointsOf? none inner)
  | .map entries, p, finite, h => by
    rw [allFinite] at finite
    cases plain_eq_ok h with
    | record inner => exact .record (canonical_of_plainEntries entries _ finite inner)
  | .number x, p, finite, h => by
    cases plain_eq_ok h
    rw [allFinite] at finite
    exact .number finite
  | .points ps, p, finite, h => by
    cases plain_eq_ok h
    rw [allFinite, List.all_eq_true] at finite
    exact .points finite
  | .bool _, p, _, h | .str _, p, _, h | .symbol _, p, _, h | .color _, p, _, h => by
    cases plain_eq_ok h
    constructor
  | .nil, p, _, h | .node _, p, _, h => nomatch plain_eq_ok h

theorem ordinary_of_plainItems : (items : List Value) → (ps : List Property) →
    allFiniteItems items = true → plainItems items = .ok ps → ∀ p ∈ ps, Ordinary p
  | [], ps, _, h => by
    rw [plainItems] at h
    cases h
    simp
  | v :: vs, ps, finite, h => by
    obtain ⟨p, rest, rfl, first, later⟩ := plainItems_cons h
    rw [allFiniteItems, Bool.and_eq_true] at finite
    rw [List.forall_mem_cons]
    exact ⟨ordinary_of_plain v p finite.1 first, ordinary_of_plainItems vs rest finite.2 later⟩

theorem canonical_of_plainEntries : (entries : List (String × Value)) → (fields : Properties) →
    allFiniteEntries entries = true → plainEntries entries = .ok fields →
    ∀ field ∈ fields, Canonical field.1 field.2
  | [], fields, _, h => by
    rw [plainEntries] at h
    cases h
    simp
  | (key, v) :: vs, fields, finite, h => by
    obtain ⟨p, rest, rfl, first, later⟩ := plainEntries_cons h
    rw [allFiniteEntries, Bool.and_eq_true] at finite
    have canonical := canonical_of_plainEntries vs rest finite.2 later
    cases p with
    | none => exact canonical
    | some p =>
      rw [Option.map_some, Option.toList_some, List.singleton_append, List.forall_mem_cons]
      exact ⟨canonical_of_coerceOr (fun p' finite' => ordinary_of_plain v p' finite') first,
        canonical⟩

end

theorem canonical_of_coerce (h : coerce key v = .ok (some p)) : Canonical key p :=
  canonical_of_coerceOr (fun p => ordinary_of_plain v p) h

theorem Canonical.allFinite (h : Canonical key p)
    (inner : Ordinary p → allFinite (ofProperty p) = true) : allFinite (ofProperty p) = true := by
  cases h with
  | handler _ _ => simp [ofProperty, Property.allFinite]
  | color _ => simp [ofProperty, Property.allFinite]
  | points _ finite =>
    rw [ofProperty, Property.allFinite, List.all_eq_true]
    exact finite
  | ordinary _ ordinary => exact inner ordinary

mutual

theorem allFinite_ofProperty : (p : Property) → Ordinary p → allFinite (ofProperty p) = true
  | .list items, .list each _ => by
    rw [ofProperty, allFinite]
    exact allFinite_ofPropertyList items each
  | .record fields, .record each => by
    rw [ofProperty, allFinite]
    exact allFinite_ofProperties fields each
  | .number x, .number finite => by
    rw [ofProperty, allFinite]
    exact finite
  | .points ps, .points finite => by
    rw [ofProperty, allFinite, List.all_eq_true]
    exact finite
  | .str _, _ => by simp [ofProperty, allFinite]
  | .bool _, _ => by simp [ofProperty, allFinite]
  | .color _, _ => by simp [ofProperty, allFinite]

theorem allFinite_ofPropertyList : (items : List Property) → (∀ item ∈ items, Ordinary item) →
    allFiniteItems (ofPropertyList items) = true
  | [], _ => by rw [ofPropertyList, allFiniteItems]
  | item :: items, each => by
    rw [List.forall_mem_cons] at each
    rw [ofPropertyList, allFiniteItems, allFinite_ofProperty item each.1,
      allFinite_ofPropertyList items each.2, Bool.and_self]

theorem allFinite_ofProperties : (fields : List (String × Property)) →
    (∀ field ∈ fields, Canonical field.1 field.2) →
    allFiniteEntries (ofProperties fields) = true
  | [], _ => by rw [ofProperties, allFiniteEntries]
  | (_, p) :: fields, each => by
    rw [List.forall_mem_cons] at each
    rw [ofProperties, allFiniteEntries, each.1.allFinite (allFinite_ofProperty p),
      allFinite_ofProperties fields each.2, Bool.and_self]

end

theorem point?_ofProperty (h : ¬p.IsPair) : (ofProperty p).point? = none := by
  cases p with
  | list items =>
    match items with
    | [] | [_] | _ :: _ :: _ :: _ => simp [ofProperty, ofPropertyList, point?]
    | [a, b] =>
      cases a with
      | number x =>
        cases b with
        | number y => exact absurd ⟨x, y, rfl⟩ h
        | _ => simp [ofProperty, ofPropertyList, point?]
      | _ => simp [ofProperty, ofPropertyList, point?]
  | _ => simp [ofProperty, point?]

theorem mem_ofPropertyList {items : List Property} (h : p ∈ items) :
    ofProperty p ∈ ofPropertyList items := by
  induction items with
  | nil => simp at h
  | cons item items ih =>
    rw [ofPropertyList]
    rcases List.mem_cons.1 h with rfl | h
    · exact List.mem_cons_self
    · exact List.mem_cons_of_mem _ (ih h)

theorem coerceOr_ofProperty (h : Canonical key p)
    (finite : allFinite (ofProperty p) = true) (inner : Ordinary p → plainly = .ok p) :
    coerceOr key (ofProperty p) plainly = .ok (some p) := by
  cases h with
  | handler expects named =>
    unfold expected at expects
    split_ifs at expects with isHandler
    simp [coerceOr, ofProperty, isHandler, Value.str?, named, allFinite]
  | color expects =>
    unfold expected at expects
    split_ifs at expects with noHandler isColor
    simp [coerceOr, ofProperty, noHandler, isColor, allFinite]
  | points expects _ =>
    unfold expected at expects
    split_ifs at expects with noHandler noColor isPoints
    rw [ofProperty] at finite ⊢
    simp only [coerceOr, finite, noHandler, noColor, beq_iff_eq.2 isPoints, Bool.not_true,
      Bool.false_eq_true, if_false, if_true]
  | ordinary expects ordinary =>
    unfold expected at expects
    split_ifs at expects with noHandler noColor noPoints
    unfold coerceOr
    split
    next nil => cases p <;> simp [ofProperty] at nil
    next =>
      simp only [finite, noHandler, noColor, beq_iff_eq, noPoints, inner ordinary, Bool.not_true,
        Bool.false_eq_true, if_false]
      rfl

mutual

theorem plain_ofProperty : (p : Property) → Ordinary p → plain (ofProperty p) = .ok p
  | .list items, .list each other => by
    -- What is no pair is read as a value that is no point.
    have none : pointsOf? (ofPropertyList items) = none := by
      rw [pointsOf?_eq_none_iff]
      rcases other with rfl | ⟨item, hitem, single⟩
      · exact .inl (by rw [ofPropertyList])
      · exact .inr ⟨_, mem_ofPropertyList hitem, point?_ofProperty single⟩
    rw [ofProperty, plain, none, plainItems_ofPropertyList items each]
    rfl
  | .record fields, .record each => by
    rw [ofProperty, plain, plainEntries_ofProperties fields each]
    rfl
  | .number _, _ => by rw [ofProperty, plain]
  | .points _, _ => by rw [ofProperty, plain]
  | .str _, _ => by rw [ofProperty, plain]
  | .bool _, _ => by rw [ofProperty, plain]
  | .color _, _ => by rw [ofProperty, plain]

theorem plainItems_ofPropertyList : (items : List Property) → (∀ item ∈ items, Ordinary item) →
    plainItems (ofPropertyList items) = .ok items
  | [], _ => by rw [ofPropertyList, plainItems]
  | item :: items, each => by
    rw [List.forall_mem_cons] at each
    rw [ofPropertyList, plainItems, plain_ofProperty item each.1,
      plainItems_ofPropertyList items each.2]
    rfl

theorem plainEntries_ofProperties : (fields : List (String × Property)) →
    (∀ field ∈ fields, Canonical field.1 field.2) →
    plainEntries (ofProperties fields) = .ok fields
  | [], _ => by rw [ofProperties, plainEntries]
  | (key, p) :: fields, each => by
    rw [List.forall_mem_cons] at each
    have first := coerceOr_ofProperty each.1 (each.1.allFinite (allFinite_ofProperty p))
      (plain_ofProperty p)
    rw [ofProperties, plainEntries, first, plainEntries_ofProperties fields each.2]
    rfl

end

theorem coerce_ofProperty (h : Canonical key p) : coerce key (ofProperty p) = .ok (some p) :=
  coerceOr_ofProperty h (h.allFinite (allFinite_ofProperty p)) (plain_ofProperty p)

/-- What values become under a key is all that is canonical for it and nothing else. -/
theorem exists_coerce_iff_canonical : (∃ v, coerce key v = .ok (some p)) ↔ Canonical key p :=
  ⟨fun ⟨_, h⟩ => canonical_of_coerce h, fun h => ⟨_, coerce_ofProperty h⟩⟩

end Property
end WidgetScript
