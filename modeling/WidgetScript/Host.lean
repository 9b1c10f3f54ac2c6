import WidgetScript.Reload.FileChange
import WidgetScript.Session

/-! A host keeps a session on a script file. Whoever runs it reads the file and hands the
contents in; what is asked of the host waits in a queue until the session settles it. -/
namespace WidgetScript

abbrev Contents := Except String String

def noSuchFile : String := "No such file or directory (os error 2)"

structure Host where
  path : String
  session : Session
  queue : Queue

namespace Host

/-- Asks for a reload of the script, and says whether it waits now. A script that cannot
be read fails at once. -/
def reload (h : Host) (contents : Contents) (now : Nat) : Host × Bool :=
  let status := h.session.status.markPending now
  match contents with
  | .error reason =>
      ({ h with session := { h.session with status := status.fail (.read h.path reason) now } },
        false)
  | .ok source =>
      let h := { h with session := { h.session with status } }
      match h.queue.push? (.reload source) with
      | some queue => ({ h with queue }, true)
      | none => (h, false)

def start (path : String) (maxCallDepth : Nat) (contents : Contents) (now : Nat) : Host :=
  (reload ⟨path, .start maxCallDepth now, .empty⟩ contents now).1

/-- A script that is removed keeps its tree: it may be written anew at once. After a
shutdown changes are no longer followed. -/
def change (h : Host) (kind : ChangeKind) (contents : Contents) (now : Nat) : Host :=
  if kind = .removed ∨ h.queue.closed then h else (h.reload contents now).1

def push (h : Host) (r : Request) : Host × Bool :=
  match h.queue.push? r with
  | some queue => ({ h with queue }, true)
  | none => (h, false)

def dispatch (h : Host) (event : Event) : Host × Bool := h.push (.dispatch event)

def shutdown (h : Host) : Host := (h.push .shutdown).1

def settle (h : Host) (now : Nat) : Host × List Emission :=
  let (session, queue, es) := h.session.drain now h.queue
  ({ h with session, queue }, es)

end Host
end WidgetScript
