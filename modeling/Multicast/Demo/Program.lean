import Multicast.Demo.Basic
import Multicast.Environment.File
import Multicast.Telemetry
/-!
The demonstration as a program: it takes its variables from the environment and from files, sets up
its output, reads its settings, runs until it is told to end, and ends.
-/

namespace Multicast

/-- Why the program does not come to its end. -/
inductive DemoFailure
  | telemetry (e : TelemetryError)
  | settings (e : SettingError)
  | registry (e : RegistryError)
  deriving DecidableEq, Repr

def DemoFailure.message : DemoFailure → String
  | .telemetry e => e.message
  | .settings e => e.message
  | .registry e => e.message

/-- A program that has read what it needs. -/
structure DemoLaunch where
  telemetry : Telemetry
  /-- The settings with which it runs, or why it does not run. -/
  settings : Except DemoFailure Settings

def DemoLaunch.keys : List String :=
  [Settings.stalePolicyKey, Settings.sweepIntervalKey, Settings.pingEnabledKey,
    Settings.pingIntervalKey, Settings.removalTimeoutKey, Settings.queueCapacityKey,
    Settings.metricsPortKey, Settings.subscribersKey, Settings.tickIntervalKey,
    TelemetrySettings.enabledKey, TelemetrySettings.endpointKey, TelemetrySettings.serviceNameKey,
    LogFilter.key]

/-- The program with the given variables; `files` holds the files of variables of the working
directory and of those above it. -/
def DemoLaunch.ofEnvironment (env : Environment) (files : List (Option String)) : DemoLaunch :=
  let env := env.loadNearest files
  match ({} : Telemetry).initFrom env with
  | (t, .error e) => ⟨t, .error (.telemetry e)⟩
  | (t, .ok _) =>
    match Settings.ofLookup env.text? with
    | .error e => ⟨t, .error (.settings e)⟩
    | .ok s => ⟨t, .ok s⟩

/-- What remains of a run of the program. -/
structure DemoOutcome where
  exitCode : Nat
  lines : List LogLine
  errors : List String
  /-- The batches that each subscriber has received, by the name of the subscriber. -/
  received : List (String × List (Batch Nat)) := []

namespace Demo

/-- A demonstration that has run until all its tasks wait. -/
def begin (settings : Settings) : Schedule Demo DemoTask :=
  Schedule.settle system { state := new settings }

/-- Lets the producer have its turns until there are enough of them, but no more than `limit`. -/
def runUntil (enough : Demo → Bool) : Nat → Schedule Demo DemoTask → Schedule Demo DemoTask
  | 0, s => s
  | limit + 1, s =>
    if enough s.state then s else runUntil enough limit (s.advance system s.state.tick)

/-- Tells the demonstration to end, and lets it come to its end. -/
def finish (signal : StopSignal) (s : Schedule Demo DemoTask) : Schedule Demo DemoTask :=
  Schedule.settle system { s with state := s.state.tellToEnd signal }

end Demo

namespace DemoOutcome

def failed (shown : List LogLine) (e : DemoFailure) : DemoOutcome where
  exitCode := 1
  lines := shown
  errors := ["Error: " ++ e.message]

/-- The outcome of a demonstration that has come as far as it can. -/
def ofDemo (t : Telemetry) (idText : SessionId → String) (time : String) (d : Demo) : DemoOutcome :=
  let shown := t.shown (Demo.startingLine :: d.lines idText time)
  match d.main with
  | .failed e => failed shown (.registry e)
  | _ =>
    { exitCode := 0
      lines := shown
      errors := []
      received := (List.range d.consumers.length).map fun i => (Demo.peer i, d.received i) }

end DemoOutcome

/-- Runs the program until there is enough, within `limit` turns of the producer, and ends it. -/
def DemoLaunch.run (p : DemoLaunch) (signal : StopSignal) (enough : Demo → Bool) (limit : Nat)
    (idText : SessionId → String) (time : String) : DemoOutcome :=
  match p.settings with
  | .error (.telemetry e) => .failed [] (.telemetry e)
  | .error e => .failed (p.telemetry.shown [Demo.startingLine]) e
  | .ok settings =>
    .ofDemo p.telemetry idText time
      (Demo.finish signal (Demo.runUntil enough limit (Demo.begin settings))).state

end Multicast
