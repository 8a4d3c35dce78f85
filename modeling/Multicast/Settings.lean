import Multicast.Registry.Config
import Multicast.Settings.Flag
import Multicast.Settings.Number
/-!
The settings of the service, read from named variables. A variable that is absent or does not parse
leaves its default in place. Three periods must not be zero, and the stale policy must be a known
one; the first offence, in the order in which `Settings.ofLookup` reads the variables, is the error.
-/

namespace Multicast

/-- A setting with which the service must not run. -/
inductive SettingError
  | invalidValue (key value : String)
  | zeroDuration (key : String)
  deriving DecidableEq, Repr

def SettingError.message : SettingError → String
  | .invalidValue key value => "invalid value for " ++ key ++ ": " ++ value
  | .zeroDuration key => "environment variable " ++ key ++ " must be greater than zero"

/-- What concerns the registry. -/
structure StreamSettings where
  sweepInterval : Duration := .ofSeconds 10
  pingEnabled : Bool := false
  pingInterval : Duration := .ofSeconds 30
  removalTimeout : Duration := .ofSeconds 60
  queueCapacity : Nat := Heap.defaultCapacity
  stalePolicy : StalePolicy := .older
  deriving DecidableEq, Repr, Inhabited

/-- What concerns the producer and the subscribers of the demonstration. -/
structure DemoSettings where
  subscribers : Nat := 3
  tickInterval : Duration := .ofMillis 250
  deriving DecidableEq, Repr, Inhabited

/-- All settings of the service. -/
structure Settings where
  stream : StreamSettings := {}
  /-- The port that offers the metrics; zero turns the offer off. -/
  metricsPort : Nat := 9090
  demo : DemoSettings := {}
  deriving DecidableEq, Repr, Inhabited

namespace Settings

def stalePolicyKey : String := "STREAM_FANOUT_STALE_POLICY"
/-- The variable of the sweep period, in milliseconds. -/
def sweepIntervalKey : String := "STREAM_FANOUT_SWEEP_INTERVAL_MS"
def pingEnabledKey : String := "STREAM_FANOUT_PING_ENABLED"
/-- The variable of the ping period, in milliseconds. -/
def pingIntervalKey : String := "STREAM_FANOUT_PING_INTERVAL_MS"
/-- The variable of the time that stopping may take, in seconds. -/
def removalTimeoutKey : String := "STREAM_FANOUT_REMOVAL_TIMEOUT_SECS"
/-- The variable of the room of a new queue. -/
def queueCapacityKey : String := "STREAM_FANOUT_QUEUE_CAPACITY"
/-- The variable of the port that offers the metrics. -/
def metricsPortKey : String := "STREAM_FANOUT_METRICS_PORT"
/-- The variable of the number of subscribers in the demonstration. -/
def subscribersKey : String := "STREAM_FANOUT_DEMO_SUBSCRIBERS"
/-- The variable of the period of the producer, in milliseconds. -/
def tickIntervalKey : String := "STREAM_FANOUT_DEMO_TICK_MS"

/-- What a variable holds, if it is set. -/
abbrev Lookup := String → Option String

/-- The stale policy; a text that names none is an error and is shown as it was given. -/
def stalePolicy (lookup : Lookup) : Except SettingError StalePolicy :=
  match lookup stalePolicyKey with
  | none => .ok .older
  | some value =>
    match StalePolicy.ofText value with
    | .ok p => .ok p
    | .error _ => .error (.invalidValue stalePolicyKey value)

/-- The number in a variable, or the default. -/
def natural (lookup : Lookup) (key : String) (width default : Nat) : Nat :=
  ((lookup key).bind (number? width)).getD default

/-- The milliseconds in a variable, or the default. -/
def millis (lookup : Lookup) (key : String) (default : Duration) : Duration :=
  (((lookup key).bind (number? 64)).map Duration.ofMillis).getD default

/-- The seconds in a variable, or the default. -/
def seconds (lookup : Lookup) (key : String) (default : Duration) : Duration :=
  (((lookup key).bind (number? 64)).map Duration.ofSeconds).getD default

/-- The switch in a variable, or the default. -/
def switch (lookup : Lookup) (key : String) (default : Bool) : Bool :=
  ((lookup key).map flag).getD default

def period (lookup : Lookup) (key : String) (default : Duration) : Except SettingError Duration :=
  let d := millis lookup key default
  if d.isZero then .error (.zeroDuration key) else .ok d

def ofLookup (lookup : Lookup) : Except SettingError Settings := do
  let policy ← stalePolicy lookup
  let sweep ← period lookup sweepIntervalKey (.ofSeconds 10)
  let ping ← period lookup pingIntervalKey (.ofSeconds 30)
  let tick ← period lookup tickIntervalKey (.ofMillis 250)
  return {
    stream := {
      sweepInterval := sweep
      pingEnabled := switch lookup pingEnabledKey false
      pingInterval := ping
      removalTimeout := seconds lookup removalTimeoutKey (.ofSeconds 60)
      queueCapacity := max (natural lookup queueCapacityKey 64 Heap.defaultCapacity) 1
      stalePolicy := policy }
    metricsPort := natural lookup metricsPortKey 16 9090
    demo := {
      subscribers := natural lookup subscribersKey 64 3
      tickInterval := tick } }

end Settings

/-- The behaviour of the registry that the settings ask for. -/
def StreamSettings.config (s : StreamSettings) : Config where
  sweepInterval := s.sweepInterval
  pingInterval := if s.pingEnabled then some s.pingInterval else none
  removalTimeout := s.removalTimeout
  queueCapacity := s.queueCapacity
  stalePolicy := s.stalePolicy

end Multicast
