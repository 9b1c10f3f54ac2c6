/-! Debouncing turns a burst of changes into one: it fires once, when the last of them is
a quiet period old. The caller brings the clock. -/
namespace WidgetScript

structure Debounce where
  quiet : Nat
  deadline : Option Nat
deriving DecidableEq, Repr

namespace Debounce

def start (quiet : Nat) : Debounce := ⟨quiet, none⟩

def touch (d : Debounce) (now : Nat) : Debounce := { d with deadline := some (now + d.quiet) }

def remaining (d : Debounce) (now : Nat) : Option Nat := d.deadline.map (· - now)

def poll (d : Debounce) (now : Nat) : Bool × Debounce :=
  match d.deadline with
  | some deadline => if deadline ≤ now then (true, { d with deadline := none }) else (false, d)
  | none => (false, d)

end Debounce
end WidgetScript
