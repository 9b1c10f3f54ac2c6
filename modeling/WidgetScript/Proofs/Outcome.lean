import Mathlib.Logic.Basic

/-! When a computation that may fail succeeds. -/
namespace WidgetScript
variable {ε ε' α β : Type}

theorem bind_eq_ok {r : Except ε α} {f : α → Except ε β} {b : β} :
    (r >>= f) = .ok b ↔ ∃ a, r = .ok a ∧ f a = .ok b := by
  cases r <;> simp [bind, Except.bind]

theorem map_eq_ok {r : Except ε α} {f : α → β} {b : β} :
    r.map f = .ok b ↔ ∃ a, r = .ok a ∧ f a = b := by
  cases r <;> simp [Except.map]

theorem map_eq_error {r : Except ε α} {f : α → β} {e : ε} :
    r.map f = .error e ↔ r = .error e := by
  cases r <;> simp [Except.map]

theorem mapError_eq_ok {r : Except ε α} {f : ε → ε'} {a : α} :
    r.mapError f = .ok a ↔ r = .ok a := by
  cases r with
  | ok b =>
    constructor
    · rintro ⟨⟩
      rfl
    · rintro ⟨⟩
      rfl
  | error e =>
    constructor
    · rintro ⟨⟩
    · rintro ⟨⟩

theorem map_bind {γ : Type} {r : Except ε α} {f : α → Except ε β} {g : β → γ} :
    (r >>= f).map g = r >>= fun a => (f a).map g := by
  cases r <;> rfl

theorem ok_bind {a : α} {f : α → Except ε β} : (Except.ok a >>= f) = f a := rfl

theorem ok_mapError {a : α} {f : ε → ε'} : (Except.ok a).mapError f = .ok a := rfl

theorem ok_map {a : α} {f : α → β} : (Except.ok a : Except ε α).map f = .ok (f a) := rfl

theorem bind_congr_ok {r : Except ε α} {f g : α → Except ε β}
    (same : ∀ a, r = .ok a → f a = g a) : r >>= f = r >>= g := by
  cases r with
  | ok a => exact same a rfl
  | error e => rfl

theorem mapM_eq_none_iff {f : α → Option β} {as : List α} :
    as.mapM f = none ↔ ∃ a ∈ as, f a = none := by
  induction as with
  | nil => simp
  | cons a as ih =>
    simp only [List.mapM_cons, List.mem_cons, exists_eq_or_imp, ← ih]
    cases f a <;> cases as.mapM f <;> simp

theorem exists_of_mem_mapM {f : α → Option β} {as : List α} {bs : List β}
    (h : as.mapM f = some bs) : ∀ b ∈ bs, ∃ a ∈ as, f a = some b := by
  induction as generalizing bs with
  | nil =>
    cases h
    simp
  | cons a as ih =>
    rw [List.mapM_cons] at h
    simp only [Option.bind_eq_bind, Option.bind_eq_some_iff] at h
    obtain ⟨b, hb, rest, hrest, h⟩ := h
    cases h
    rw [List.forall_mem_cons]
    refine ⟨⟨a, List.mem_cons_self, hb⟩, fun c hc => ?_⟩
    obtain ⟨x, hx, hf⟩ := ih hrest c hc
    exact ⟨x, List.mem_cons_of_mem _ hx, hf⟩

def FailsBy (sort : ε → Prop) (r : Except ε α) : Prop := ∀ e, r = .error e → sort e

namespace FailsBy
variable {sort : ε → Prop} {r : Except ε α} {f : α → Except ε β} {a : α} {e : ε}

theorem ok : FailsBy sort (.ok a) := fun _ h => nomatch h

theorem error (h : sort e) : FailsBy sort (.error e : Except ε α) := by
  intro e' h'
  cases h'
  exact h

theorem bind (first : FailsBy sort r) (rest : ∀ a, FailsBy sort (f a)) :
    FailsBy sort (r >>= f) := by
  intro e h
  cases r with
  | ok a => exact rest a e h
  | error reason =>
    cases h
    exact first _ rfl

theorem map {g : α → β} (h : FailsBy sort r) : FailsBy sort (r.map g) := fun e failed =>
  h e (map_eq_error.1 failed)

theorem mapError {g : ε' → ε} {r : Except ε' α} (h : ∀ e, sort (g e)) :
    FailsBy sort (r.mapError g) := by
  cases r with
  | ok a => exact ok
  | error e => exact error (h e)

end FailsBy
end WidgetScript
