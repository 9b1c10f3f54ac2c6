import WidgetScript.Console.Demo
import WidgetScript.Host

/-! The command line runs a host on a script. Commands and failures go to the output, one
JSON text a line; each line of input is an input event or one of a few words that begin
with a colon. -/
namespace WidgetScript.Console

/-- Without a script the demo is run. -/
structure Options where
  script : Option String
  watch : Bool
deriving DecidableEq, Repr

inductive OptionFault where
  | unknownFlag (flag : String)
  | secondScript (path : String)
deriving DecidableEq, Repr

def OptionFault.message : OptionFault → String
  | .unknownFlag flag => "unknown flag `" ++ flag ++ "`"
  | .secondScript path => "expected one script path, got another: `" ++ path ++ "`"

def Options.standard : Options := ⟨none, true⟩

/-- Reads arguments; the first that cannot be read is to blame. -/
def Options.read (o : Options) : List String → Except OptionFault Options
  | [] => .ok o
  | arg :: rest =>
      if arg = "--no-watch" then read { o with watch := false } rest
      else if "--".toList.isPrefixOf arg.toList then .error (.unknownFlag arg)
      else if o.script.isSome then .error (.secondScript arg)
      else read { o with script := some arg } rest

inductive Line where
  | blank
  | quit
  | reload
  | status
  | event (event : Event)
  | malformed

def Line.ofText (text : String) : Line :=
  match String.ofList (Text.trim text.toList) with
  | "" => .blank
  | ":quit" => .quit
  | ":reload" => .reload
  | ":status" => .status
  | text =>
      match Event.parse? text with
      | some e => .event e
      | none => .malformed

structure Reply where
  output : List String
  errors : List String
  log : List LogLine

def Reply.ofEmissions (es : List Emission) : Reply :=
  ⟨es.flatMap Emission.lines, [], es.flatMap Emission.log⟩

def settle (h : Host) (now : Nat) : Host × Reply :=
  let (h, es) := h.settle now
  (h, .ofEmissions es)

def start (path : String) (maxCallDepth : Nat) (contents : Contents) (now : Nat) : Host × Reply :=
  settle (.start path maxCallDepth contents now) now

/-- What a line brings about, none if it ends the run. Only a reload looks at the
contents. -/
def answer? (h : Host) (line : Line) (contents : Contents) (now : Nat) : Option (Host × Reply) :=
  match line with
  | .quit => none
  | .blank | .malformed => some (h, ⟨[], [], []⟩)
  | .reload => some (settle (h.reload contents now).1 now)
  | .event e => some (settle (h.dispatch e).1 now)
  | .status =>
      let status := h.session.status
      some ({ h with session := { h.session with status := status.acknowledge now } },
        ⟨[], [status.line], []⟩)

end WidgetScript.Console
