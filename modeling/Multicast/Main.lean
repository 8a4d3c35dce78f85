import Multicast.Demo.Program
import Multicast.Log.Text
import Multicast.Uuid
import Std.Async.Signal
/-!
The command line of the demonstration. It prints the lines of the log as they come, in real time,
until the process is interrupted or told to terminate.
-/

namespace Multicast.CommandLine

/-- The variables of the process that the program reads. -/
def environment : IO Environment := do
  let vars ← DemoLaunch.keys.filterMapM fun k => do return (← IO.getEnv k).map fun v => (k, v)
  return .ofTexts vars

/-- The working directory and those above it, the nearest first. -/
def directories (here : String) : List String :=
  let parts := here.splitOn "/"
  (List.range parts.length).reverse.map fun n => "/".intercalate (parts.take (n + 1))

/-- The files of variables in the working directory and above it, where there are such files. -/
def files : IO (List (Option String)) := do
  (directories (← IO.currentDir).toString).mapM fun dir => do
    let path := dir ++ "/.env"
    try return some (← IO.FS.readFile path)
    catch _ => return none

/-- The present moment, as the log shows it. -/
def time : IO String := do return (← Std.Time.DateTime.now).toISO8601String

def print (t : Telemetry) (lines : List LogLine) : IO Unit := do
  let stdout ← IO.getStdout
  for l in t.shown lines do
    let level := String.ofList (List.replicate (5 - l.level.name.length) ' ')
    stdout.putStrLn (" ".intercalate [← time, level ++ l.render])
  stdout.flush

/-- How long the program sleeps before it looks around again, in milliseconds. -/
def nap : Nat := 5

/-- What has told the process to end, if anything has. -/
def signalled? (interrupt terminate : Std.Async.AsyncTask Int) : IO (Option StopSignal) := do
  if ← IO.hasFinished interrupt then return some .interrupt
  else if ← IO.hasFinished terminate then return some .terminate
  else return none

/-- Lets the demonstration run beside the clock of the process, and prints what happens. `seen` is
how much of the history has been printed, `clock` the moment up to which it has run. -/
partial def serve (t : Telemetry) (ids : Array String)
    (interrupt terminate : Std.Async.AsyncTask Int) (s : Schedule Demo DemoTask) (seen clock : Nat) : IO UInt32 := do
  let idText (i : SessionId) : String := ids.getD i ""
  print t (s.state.linesSince seen idText (← time))
  let seen := s.state.history.length
  match s.state.main with
  | .ended => return 0
  | .failed e =>
    (← IO.getStderr).putStrLn ("Error: " ++ (DemoFailure.registry e).message)
    return 1
  | _ =>
    let s ← match s.state.signal, ← signalled? interrupt terminate with
      | none, some signal => pure (Demo.finish signal s)
      | _, _ => pure s
    IO.sleep nap.toUInt32
    let now ← IO.monoMsNow
    serve t ids interrupt terminate (s.advance Demo.system (now - clock)) seen now

def freshId : IO String := do
  let bytes ← IO.getRandomBytes 16
  let bits := bytes.toList.foldl (fun n b => n * 256 + b.toNat) 0
  return (Uuid.ofRandom (BitVec.ofNat 128 bits)).text

def listen (signal : Std.Async.Signal) : IO (Std.Async.AsyncTask Int) := do
  (← Std.Async.Signal.Waiter.mk signal false).wait

end Multicast.CommandLine

/-- Runs the demonstration; its exit code is zero unless it cannot start. -/
def main : IO UInt32 := do
  let launch := Multicast.DemoLaunch.ofEnvironment (← Multicast.CommandLine.environment)
    (← Multicast.CommandLine.files)
  match launch.settings with
  | .error e =>
    let failed := Multicast.DemoOutcome.failed
      (launch.telemetry.shown [Multicast.Demo.startingLine]) e
    Multicast.CommandLine.print launch.telemetry failed.lines
    failed.errors.forM fun text => do (← IO.getStderr).putStrLn text
    return failed.exitCode.toUInt32
  | .ok settings =>
    let ids ← (List.range settings.demo.subscribers).mapM fun _ => Multicast.CommandLine.freshId
    let interrupt ← Multicast.CommandLine.listen .sigint
    let terminate ← Multicast.CommandLine.listen .sigterm
    Multicast.CommandLine.print launch.telemetry [Multicast.Demo.startingLine]
    Multicast.CommandLine.serve launch.telemetry ids.toArray interrupt terminate
      (Multicast.Demo.begin settings) 0 (← IO.monoMsNow)
