import WidgetScript.Text.Diagnostic
import WidgetScript.Number.Read
import WidgetScript.Text.Character

/-! Settings come from environment variables. What cannot be used is ignored with a
warning. -/
namespace WidgetScript

structure Settings where
  debounce : Nat
  maxCallDepth : Nat
  logFilter : Option String
deriving DecidableEq, Repr

namespace Settings

def standard : Settings := ⟨150, 64, none⟩

def debounceKey : String := "NABU_DEBOUNCE_MS"

def callDepthKey : String := "NABU_MAX_CALL_DEPTH"

def logKey : String := "NABU_LOG"

def callDepthCeiling : Nat := 1024

def count? (text : List Char) : Option Nat :=
  let digits := match text with
    | '+' :: cs => cs
    | cs => cs
  if digits.isEmpty || !digits.all Char.isDigit then none
  else
    let n := Number.digitsValue digits
    if n < Nat.pow 2 64 then some n else none

def countAt (lookup : String → Option String) (key : String) : Option Nat × List LogLine :=
  match lookup key with
  | none => (none, [])
  | some raw =>
      match count? (Text.trim raw.toList) with
      | some n => (some n, [])
      | none => (none,
          [⟨.warn, "ignoring " ++ key ++ "=" ++ Text.quote raw ++ ": not a non-negative integer"⟩])

/-- A limit of zero would forbid all calls, and one above the ceiling is too many. -/
def callDepthOf (n : Nat) : Nat × List LogLine :=
  if n = 0 then
    (standard.maxCallDepth, [⟨.warn, callDepthKey ++ "=0 would reject every call; ignoring"⟩])
  else if callDepthCeiling < n then
    (callDepthCeiling, [⟨.warn, callDepthKey ++ "=" ++ toString n ++ " is above "
      ++ toString callDepthCeiling ++ "; using " ++ toString callDepthCeiling⟩])
  else (n, [])

def ofLookup (lookup : String → Option String) : Settings × List LogLine :=
  let (debounce, first) := countAt lookup debounceKey
  let (depth, second) := countAt lookup callDepthKey
  let (maxCallDepth, third) := match depth with
    | some n => callDepthOf n
    | none => (standard.maxCallDepth, [])
  let logFilter := (lookup logKey).filter fun text => !(Text.trim text.toList).isEmpty
  (⟨debounce.getD standard.debounce, maxCallDepth, logFilter⟩, first ++ second ++ third)

def shows (s : Settings) : Bool := s.logFilter.any (· ≠ "off")

end Settings
end WidgetScript
