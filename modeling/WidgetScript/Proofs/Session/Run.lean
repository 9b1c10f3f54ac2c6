import Mathlib.Data.List.Basic
import WidgetScript.Session

/-! A session handles what waits in a queue in its order, up to a shutdown. What it does with a
request stands in `Handles` request by request, and not through the loop. -/
namespace WidgetScript.Session

/-- Each reload in its turn runs the script, and each dispatch answers the event. -/
inductive Handles (now : Nat) : Session → List Request → Session → List Emission → Prop where
  | nil {s : Session} : Handles now s [] s []
  | reload {s t : Session} {source : String} {rs : List Request} {es : List Emission} :
      Handles now (s.reload source now).1 rs t es →
      Handles now s (.reload source :: rs) t ((s.reload source now).2 :: es)
  | dispatch {s t : Session} {event : Event} {rs : List Request} {es : List Emission} :
      Handles now (s.dispatch event).1 rs t es →
      Handles now s (.dispatch event :: rs) t ((s.dispatch event).2 :: es)

variable {s t : Session} {now : Nat} {rs : List Request} {es : List Emission} {closed : Bool}

theorem exists_handles (s : Session) (now : Nat) (other : .shutdown ∉ rs) :
    ∃ t es, s.Handles now rs t es := by
  induction rs generalizing s with
  | nil => exact ⟨s, [], .nil⟩
  | cons r rs ih =>
    obtain ⟨here, later⟩ := List.ne_and_not_mem_of_not_mem_cons other
    cases r with
    | reload source =>
      obtain ⟨t, es, handles⟩ := ih (s.reload source now).1 later
      exact ⟨t, _, .reload handles⟩
    | dispatch event =>
      obtain ⟨t, es, handles⟩ := ih (s.dispatch event).1 later
      exact ⟨t, _, .dispatch handles⟩
    | shutdown => exact absurd rfl here

theorem drain_nil : s.drain now ⟨[], closed⟩ = (s, ⟨[], closed⟩, []) := by
  rw [drain.eq_def]
  rfl

theorem drain_shutdown : s.drain now ⟨.shutdown :: rs, closed⟩ = (s, ⟨rs, closed⟩, []) := by
  rw [drain.eq_def]
  rfl

theorem drain_cons {r : Request} {out : Session × Emission} (h : s.handle? r now = some out) :
    s.drain now ⟨r :: rs, closed⟩ = ((out.1.drain now ⟨rs, closed⟩).1,
      (out.1.drain now ⟨rs, closed⟩).2.1, out.2 :: (out.1.drain now ⟨rs, closed⟩).2.2) := by
  rw [drain.eq_def]
  simp only [Queue.pop?, h]

/-- The loop ends because nothing is left or because of a shutdown, which it takes out. -/
theorem Handles.drain (h : s.Handles now rs t es) (closed : Bool) :
    s.drain now ⟨rs, closed⟩ = (t, ⟨[], closed⟩, es) ∧
      ∀ rest, s.drain now ⟨rs ++ .shutdown :: rest, closed⟩ = (t, ⟨rest, closed⟩, es) := by
  induction h with
  | nil => exact ⟨drain_nil, fun _ => drain_shutdown⟩
  | reload _ ih | dispatch _ ih =>
    obtain ⟨idle, shut⟩ := ih
    refine ⟨?_, fun rest => ?_⟩
    · rw [drain_cons rfl, idle]
    · rw [List.cons_append, drain_cons rfl, shut]

theorem run_handles (s : Session) (now : Nat) (waiting : List Request) :
    ∃ rs, rs <+: waiting ∧ s.Handles now rs (s.run now waiting).1 (s.run now waiting).2 := by
  by_cases shut : .shutdown ∈ waiting
  · obtain ⟨rs, rest, rfl, other⟩ := List.eq_append_cons_of_mem shut
    obtain ⟨t, es, handles⟩ := s.exists_handles now other
    refine ⟨rs, List.prefix_append _ _, ?_⟩
    rw [Session.run, (handles.drain false).2]
    exact handles
  · obtain ⟨t, es, handles⟩ := s.exists_handles now shut
    refine ⟨waiting, List.prefix_rfl, ?_⟩
    rw [Session.run, (handles.drain false).1]
    exact handles

end WidgetScript.Session
