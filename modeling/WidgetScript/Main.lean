import WidgetScript.Console
import WidgetScript.Reload.Debounce
import WidgetScript.Settings

/-! The program: reads the environment, the script and the lines of input, and prints what
the console answers. While it waits for a line it looks for changes of the script. -/
namespace WidgetScript.Main

open Console

def reason : IO.Error → String
  | .noFileOrDirectory _ 2 _ => noSuchFile
  | .permissionDenied _ 13 _ => "Permission denied (os error 13)"
  | .inappropriateType _ 21 _ => "Is a directory (os error 21)"
  | e => toString e

def readScript (script : Option String) : IO Contents :=
  match script with
  | none => pure (.ok demo)
  | some path => do
      try
        let bytes ← IO.FS.readBinFile path
        match String.fromUTF8? bytes with
        | some text => pure (.ok text)
        | none => pure (.error "stream did not contain valid UTF-8")
      catch e => pure (.error (reason e))

def print (settings : Settings) (reply : Reply) : IO Unit := do
  let output ← IO.getStdout
  for line in reply.output do
    output.putStrLn line
  output.flush
  for line in reply.errors do
    IO.eprintln line
  if settings.shows then
    for line in reply.log do
      IO.eprintln line.render

/-- What the loop carries along: the host, the contents that it saw last, and the changes
that have not been quiet for long enough. -/
structure Watch where
  host : Host
  seen : Contents
  debounce : Debounce

def textOf : Contents → Option String
  | .ok text => some text
  | .error _ => none

def look (settings : Settings) (script : Option String) (w : Watch) : IO Watch := do
  let contents ← readScript script
  let now ← IO.monoMsNow
  let changed := (textOf contents).isSome && textOf contents != textOf w.seen
  let w := if changed then
      let session := { w.host.session with status := w.host.session.status.markPending now }
      { w with host := { w.host with session }, seen := contents, debounce := w.debounce.touch now }
    else w
  let (fires, debounce) := w.debounce.poll now
  if fires then
    let (host, reply) := settle (w.host.change .modified contents now) now
    print settings reply
    pure { w with host, debounce }
  else pure { w with debounce }

partial def wait (settings : Settings) (script : Option String) (watch : Bool) (w : Watch)
    (line : Task (Except IO.Error String)) : IO (Watch × String) := do
  if watch && !(← IO.hasFinished line) then
    let w ← look settings script w
    IO.sleep 20
    wait settings script watch w line
  else
    let text ← IO.ofExcept line.get
    pure (w, text)

partial def loop (settings : Settings) (script : Option String) (watch : Bool) (w : Watch) :
    IO Unit := do
  let input ← IO.getStdin
  let (w, text) ← wait settings script watch w (← IO.asTask input.getLine)
  if text.isEmpty then return
  let contents ← readScript script
  match answer? w.host (.ofText text) contents (← IO.monoMsNow) with
  | none => return
  | some (host, reply) =>
      print settings reply
      loop settings script watch { w with host }

def run (settings : Settings) (options : Options) : IO Unit := do
  let contents ← readScript options.script
  let (host, reply) := Console.start (options.script.getD demoPath) settings.maxCallDepth contents
    (← IO.monoMsNow)
  print settings reply
  loop settings options.script options.watch ⟨host, contents, .start settings.debounce⟩

def start (args : List String) : IO UInt32 := do
  let debounce ← IO.getEnv Settings.debounceKey
  let callDepth ← IO.getEnv Settings.callDepthKey
  let logFilter ← IO.getEnv Settings.logKey
  let (settings, warnings) := Settings.ofLookup fun key =>
    if key = Settings.debounceKey then debounce
    else if key = Settings.callDepthKey then callDepth
    else if key = Settings.logKey then logFilter
    else none
  print settings ⟨[], [], warnings⟩
  match Options.standard.read args with
  | .error fault =>
      IO.eprintln ("Error: " ++ fault.message)
      pure 1
  | .ok options =>
      run settings options
      pure 0

end WidgetScript.Main

def main (args : List String) : IO UInt32 := WidgetScript.Main.start args
