import WidgetScript.Reload

/-! How far reloading is. Times are milliseconds of any clock; they are recorded and do
not decide anything. -/
namespace WidgetScript

/-- Pending means that a change was seen that no pass has taken up. After a failure the
last good tree stays. -/
inductive Phase where
  | idle | pending | reloading | failed
deriving DecidableEq, Repr

def Phase.name : Phase → String
  | .idle => "Idle"
  | .pending => "Pending"
  | .reloading => "Reloading"
  | .failed => "Failed"

/-- The last error stays until a pass succeeds. Passes are counted whether they succeed or
fail. -/
structure Status where
  phase : Phase
  lastError : Option ReloadError
  changedAt : Nat
  completed : Nat

namespace Status

def start (now : Nat) : Status := ⟨.idle, none, now, 0⟩

def enter (s : Status) (phase : Phase) (now : Nat) : Status :=
  { s with phase, changedAt := now }

/-- A change that is seen during a pass does not show: a later pass takes it up. -/
def markPending (s : Status) (now : Nat) : Status :=
  if s.phase = .reloading then s else s.enter .pending now

def begin (s : Status) (now : Nat) : Status := s.enter .reloading now

def succeed (s : Status) (now : Nat) : Status :=
  { s.enter .idle now with lastError := none, completed := s.completed + 1 }

def fail (s : Status) (error : ReloadError) (now : Nat) : Status :=
  { s.enter .failed now with lastError := some error, completed := s.completed + 1 }

/-- A failure that was shown is no longer one to show; the error itself stays. -/
def acknowledge (s : Status) (now : Nat) : Status :=
  if s.phase = .failed then s.enter .idle now else s

def line (s : Status) : String :=
  match s.lastError with
  | some error => s.phase.name ++ " (last error: " ++ error.message ++ ")"
  | none => s.phase.name

end Status
end WidgetScript
