import WidgetScript.Dispatch
import WidgetScript.Proofs.Eval.Sound

/-! Where the widgets in a directive come from: its handler built them, kept them from an
earlier evaluation or got them with the event. A payload that is a JSON text has none. -/
namespace WidgetScript

def Event.All (q : Widget → Prop) (e : Event) : Prop := (Value.map e.params).All q

variable {q : Widget → Prop} {v : Value}

namespace Event
variable {e : Event}

theorem read_bind {α β : Type} {x : Json.Reader α} {f : α → Json.Reader β} {cs rest : List Char}
    {b : β} (h : (x >>= f) cs = some (b, rest)) :
    ∃ a cs', x cs = some (a, cs') ∧ f a cs' = some (b, rest) := by
  obtain ⟨⟨a, cs'⟩, hx, hf⟩ := Option.bind_eq_some_iff.1 h
  exact ⟨a, cs', hx, hf⟩

theorem read_lift {α : Type} {o : Option α} {cs rest : List Char} {a : α}
    (h : (liftM o : Json.Reader α) cs = some (a, rest)) : o = some a := by
  cases o with
  | none => exact nomatch h
  | some x =>
    cases h
    rfl

theorem all_params (fields : List (String × Json)) :
    (Value.map (Fields.ofList (Value.ofFields fields))).All q := by
  have read : (Value.ofJson (.object fields)).All q := Value.all_ofJson _
  rw [Value.ofJson] at read
  exact read

theorem all_of_ofSlots? {slots : List Slot} (h : ofSlots? slots = some e) : e.All q := by
  simp only [ofSlots?, Option.bind_eq_bind, Option.bind_eq_some_iff] at h
  obtain ⟨widget, _, handler, _, params, _, id, _, name, _, h⟩ := h
  cases h
  exact all_params _

theorem all_of_ofArray? {json : Json} (h : ofArray? json = some e) : e.All q := by
  unfold ofArray? at h
  split at h
  · cases h
    exact Value.all_map.2 ⟨List.nodup_nil, by simp⟩
  · cases h
    exact all_params _
  · exact nomatch h

theorem all_of_parse? {text : String} (h : parse? text = some e) : e.All q := by
  unfold parse? Json.Reader.run? at h
  split at h
  next x rest run =>
    split at h
    · cases h
      unfold read at run
      obtain ⟨_, _, _, run⟩ := read_bind run
      obtain ⟨cs, _, _, run⟩ := read_bind run
      split at run
      · obtain ⟨_, _, _, run⟩ := read_bind run
        obtain ⟨slots, _, _, run⟩ := read_bind run
        exact all_of_ofSlots? (read_lift run)
      · obtain ⟨json, _, _, run⟩ := read_bind run
        exact all_of_ofArray? (read_lift run)
    · exact nomatch h
  next => exact nomatch h

theorem all_paramsValue (h : e.All q) : e.paramsValue.All q := by
  unfold paramsValue
  split
  · exact h
  next absent =>
    rw [Fields.contains_iff] at absent
    obtain ⟨distinct, all⟩ := Value.all_map.1 h
    rw [Value.all_map, Fields.keys_cons, List.nodup_cons, List.forall_mem_cons]
    exact ⟨⟨absent, distinct⟩, Value.all_str, all⟩

end Event

namespace Payload

theorem all_plainEntries {entries : List Value} (all : v.All q)
    (h : plainEntries v = .ok entries) : ∀ entry ∈ entries, entry.All q := by
  unfold plainEntries at h
  split at h
  · cases h
    simp
  · cases h
    exact Value.all_list.1 all
  next fields =>
    split at h
    next items found =>
      cases h
      exact Value.all_list.1 (Value.all_get? (Value.all_map.1 all).2 found)
    next =>
      cases h
      simp
    next => exact nomatch h
    next =>
      split at h
      · cases h
        rw [List.forall_mem_singleton]
        exact all
      · exact nomatch h
  · exact nomatch h

theorem all_entries {entries : List Value} (all : v.All q)
    (h : Payload.entries v = .ok entries) : ∀ entry ∈ entries, entry.All q := by
  unfold Payload.entries at h
  split at h
  · split at h
    · exact all_plainEntries (Value.all_ofJson _) h
    · exact nomatch h
  · exact all_plainEntries all h

end Payload

theorem Directive.all_value {d : Directive} (all : v.All q) (h : Directive.ofValue v = .ok d) :
    d.value.All q := by
  unfold Directive.ofValue at h
  split at h
  · split at h
    · exact nomatch h
    · obtain ⟨target, _, h⟩ := bind_eq_ok.1 h
      split at h
      · exact nomatch h
      · obtain ⟨name, _, h⟩ := bind_eq_ok.1 h
        split at h
        · exact nomatch h
        · cases h
          exact Value.all_getD fun v hv => Value.all_get? (Value.all_map.1 all).2 hv
  · exact nomatch h

theorem Dispatch.all_entries (closed : Buildable q)
    (readable : ∀ w, q w → ∀ field ∈ w.props, field.2.Regular) {handlers : Handlers}
    {event : Event} {maxCallDepth : Nat} {entries : List Value} (sound : handlers.Sound q)
    (all : event.All q) (h : (Dispatch.entries handlers event maxCallDepth).1 = .ok entries) :
    ∀ entry ∈ entries, entry.All q := by
  unfold Dispatch.entries at h
  split at h
  · exact nomatch h
  next c found =>
    split at h
    · exact nomatch h
    next args given =>
      have good : ∀ a ∈ args, a.All q := by
        unfold arguments at given
        split at given
        · cases given
          simp
        · cases given
          rw [List.forall_mem_singleton]
          exact Event.all_paramsValue all
        · exact nomatch given
      split at h
      · exact nomatch h
      next payload log called =>
        have result : (handlers.call c args maxCallDepth).1 = .ok payload := by rw [called]
        have captures : c.Captures q := sound _ (Fields.mem_of_get? found)
        exact Payload.all_entries (Handlers.call_sound closed readable sound captures good result)
          (mapError_eq_ok.1 h)

end WidgetScript
