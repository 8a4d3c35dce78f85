import Multicast.Demo.Tenant
import Multicast.Registry.Text
import Multicast.Settings
/-!
What happens in the demonstration, and the lines that it leaves in the log.
-/

namespace Multicast

/-- How the demonstration is told to end. -/
inductive StopSignal
  | interrupt
  | terminate
  deriving DecidableEq, Repr

/-- What happens in the demonstration. -/
inductive DemoEvent
  | configured (s : Settings)
  | registry (e : Event)
  | published (sequence routed : Nat)
  | refused (sequence : Nat) (e : RegistryError)
  | producerCancelled (last : Nat)
  /-- The consumer of a subscriber receives a batch. -/
  | received (i : Nat) (batch : Batch Nat)
  | consumerFinished (i : Nat) (items : Nat)
  | signalled (s : StopSignal)
  /-- The end begins; the consumers have some seconds to come to theirs. -/
  | shutdownBegun (seconds : Nat)
  | consumersLate (seconds : Nat)
  | stopped

namespace Demo

/-- The part of the service that speaks about the demonstration. -/
def logTarget : String := "stream_fanout"

def startingLine : LogLine := ⟨.info, logTarget, "Starting stream fan-out demo", []⟩

/-- The text of an event, `time` being that of the moment at which it was made. -/
def eventText (time : String) (item : Item Nat) : String :=
  "\x7b\"sequence\":" ++ toString item.id ++ ",\"tenant\":\"" ++ item.tag ++
    "\",\"emitted_at\":\"" ++ time ++ "\"\x7d"

/-- The text of the events of a batch. -/
def eventsText (time : String) (b : Batch Nat) : String :=
  "[" ++ ",".intercalate (b.items.map (eventText time)) ++ "]"

/-- What the log says about the end of the demonstration being asked for. -/
def signalText : StopSignal → String
  | .interrupt => "Received Ctrl+C, initiating shutdown"
  | .terminate => "Received SIGTERM, initiating shutdown"

def settingsLine (s : Settings) : LogLine :=
  ⟨.info, logTarget, "Configuration loaded", [
    ("sweep_interval", .plain s.stream.sweepInterval.text),
    ("ping_enabled", .flag s.stream.pingEnabled),
    ("ping_interval", .plain s.stream.pingInterval.text),
    ("stale_policy", .text s.stream.stalePolicy.name),
    ("metrics_port", .number s.metricsPort),
    ("subscribers", .number s.demo.subscribers)]⟩

/-- The line for something that happens in the registry. The callback after a removal leaves one
too. -/
def registryLine? (idText : SessionId → String) : Event → Option LogLine
  | .afterRemoved who _ writes position =>
    some ⟨.info, logTarget, "Demo subscriber finished", [
      ("session_id", .plain (idText who.id)),
      ("peer", .text who.peer),
      ("writes", .number writes),
      ("cursor", Registry.optionalNumber position)]⟩
  | e => e.logLine? idText

/-- The line for a batch that a consumer receives. -/
def receivedLine (time : String) (i : Nat) (b : Batch Nat) : LogLine :=
  if b.isPing then ⟨.debug, logTarget, "Ping received", [("peer", .plain (peer i))]⟩
  else
    ⟨.info, logTarget, "Batch received", [
      ("peer", .plain (peer i)),
      ("items", .number b.size),
      ("events", .plain (eventsText time b))]⟩

end Demo

/-- The line that an event leaves in the log, subscribers being identified by `idText` and moments
being shown as `time`. -/
def DemoEvent.logLine? (idText : SessionId → String) (time : String) (e : DemoEvent) :
    Option LogLine :=
  let line (level : LogLevel) (message : String) (fields : List (String × LogValue)) :
      Option LogLine := some ⟨level, Demo.logTarget, message, fields⟩
  match e with
  | .configured s => some (Demo.settingsLine s)
  | .registry e => Demo.registryLine? idText e
  | .published sequence routed =>
    line .trace "Published live event" [("sequence", .number sequence), ("routed", .number routed)]
  | .refused sequence e =>
    line .warn "Live publish rejected" [("sequence", .number sequence), ("error", .plain e.message)]
  | .producerCancelled last => line .debug "Producer cancelled" [("last_sequence", .number last)]
  | .received i b => some (Demo.receivedLine time i b)
  | .consumerFinished i items =>
    line .info "Consumer finished" [("peer", .plain (Demo.peer i)), ("received", .number items)]
  | .signalled s => line .info (Demo.signalText s) []
  | .shutdownBegun seconds =>
    line .info "Graceful shutdown started" [("timeout_secs", .number seconds)]
  | .consumersLate seconds =>
    line .warn "Consumers did not drain before timeout" [("timeout_secs", .number seconds)]
  | .stopped => line .info "Stream fan-out demo stopped" []

end Multicast
