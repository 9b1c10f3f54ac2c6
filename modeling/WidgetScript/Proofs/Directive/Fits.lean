import WidgetScript.Dispatch
import WidgetScript.Proofs.Directive.Apply
import WidgetScript.Proofs.Live.InSync

/-! Directives keep the declaration one that the live tree can follow: its ids stay distinct,
and no widget comes to a place where an entity of another kind lives. The live tree does not
change between the directives of an event, so this is kept from one to the next however far
the declaration moves away. -/
namespace WidgetScript
open LiveTree

/-- The checks of a directive look at every widget that it brings in, and no other changes its
kind or its place. -/
theorem Directive.apply_fits {d : Directive} {forest forest' : Forest} {live : LiveTree}
    (h : d.apply forest live = .ok forest') (distinct : forest.Distinct)
    (fits : live.Fits forest) : live.Fits forest' := by
  have all : ∀ p n, (p, n) ∈ forest'.placed → ∀ e, live.get? n.id = some e → e.parent = p →
      e.kind = n.kind := by
    refine apply_forall_placed h distinct (fun p n hn e => fits p n e hn) ?_ ?_
    · intro p m n renewed fit e found under
      rw [renewed.kind]
      exact fit e (renewed.id ▸ found) under
    · intro p w brought q n hn e found under
      exact brought.kinds q n e hn found under
  exact fun p n e hn => all p n hn e

namespace Dispatch
variable {live : LiveTree} {entries : List Value} {forest : Forest}

theorem applyEntries_keeps {p : Forest → Prop}
    (step : ∀ entry ∈ entries, ∀ d, Directive.ofValue entry = .ok d → ∀ f f', p f →
      d.apply f live = .ok f' → p f') (start : p forest) :
    p (applyEntries live forest entries).1 := by
  induction entries generalizing forest with
  | nil => exact start
  | cons entry rest ih =>
    rw [List.forall_mem_cons] at step
    obtain ⟨first, later⟩ := step
    rw [applyEntries]
    split
    next forest' applied =>
      obtain ⟨d, read, h⟩ := bind_eq_ok.1 applied
      exact ih later (first d read forest forest' start h)
    next => exact ih later start

theorem applyEntries_fits (entries : List Value) (distinct : forest.Distinct)
    (fits : live.Fits forest) :
    (applyEntries live forest entries).1.Distinct ∧
      live.Fits (applyEntries live forest entries).1 := by
  refine applyEntries_keeps (p := fun f => f.Distinct ∧ live.Fits f) ?_ ⟨distinct, fits⟩
  rintro entry _ d _ f f' ⟨distinct, fits⟩ h
  exact ⟨Directive.apply_distinct h distinct, Directive.apply_fits h distinct fits⟩

end Dispatch
end WidgetScript
