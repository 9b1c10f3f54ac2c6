import WidgetScript.Event

/-! Requests wait in a queue, first in, first out. A reload that is asked for while another
one waits takes its place, so only the newest script is run. After a shutdown the queue
takes nothing more. -/
namespace WidgetScript

inductive Request where
  | reload (source : String)
  | dispatch (event : Event)
  | shutdown

structure Queue where
  waiting : List Request
  closed : Bool

namespace Queue

def empty : Queue := ⟨[], false⟩

def size (q : Queue) : Nat := q.waiting.length

/-- The requests with a new source for the reload among them, if there is one. -/
def supersede? (source : String) : List Request → Option (List Request)
  | [] => none
  | .reload _ :: rest => some (.reload source :: rest)
  | r :: rest => (supersede? source rest).map (r :: ·)

def push? (q : Queue) (r : Request) : Option Queue :=
  if q.closed then none
  else
    match r with
    | .reload source =>
        some { q with waiting := (supersede? source q.waiting).getD (q.waiting ++ [r]) }
    | .dispatch _ => some { q with waiting := q.waiting ++ [r] }
    | .shutdown => some ⟨q.waiting ++ [r], true⟩

def pop? (q : Queue) : Option (Request × Queue) :=
  match q.waiting with
  | [] => none
  | r :: rest => some (r, { q with waiting := rest })

theorem size_lt_of_pop? {q q' : Queue} {r : Request} (h : q.pop? = some (r, q')) :
    q'.size < q.size := by
  obtain ⟨waiting, closed⟩ := q
  cases waiting with
  | nil => exact nomatch h
  | cons first rest =>
    cases h
    exact Nat.lt_succ_self rest.length

end Queue
end WidgetScript
