import Multicast.Queue.Text
import Multicast.Registry.Basic
import Multicast.Text.Quoted
/-!
What a registry and its subscribers say about themselves: their descriptions, and the lines that
events leave in the log. How a subscriber is identified is left to the caller.
-/

namespace Multicast

/-- The name of the policy in a description. -/
def StalePolicy.describe : StalePolicy → String
  | .older => "OlderThanCursor"
  | .notAfter => "NotAfterCursor"

/-- The name of the stage in a description. -/
def Stage.describe : Stage → String
  | .registered => "Registered"
  | .active => "Active"
  | .removed => "Removed"

/-- The description of a structure by its fields; `more` says that fields are left out. -/
def describeFields (name : String) (fields : List (String × String)) (more : Bool) : String :=
  let shown := fields.map fun (k, v) => k ++ ": " ++ v
  name ++ " \x7b " ++ ", ".intercalate (shown ++ if more then [".."] else []) ++ " \x7d"

/-- The description of the behaviour of a registry. -/
def Config.describe (c : Config) : String :=
  describeFields "RegistryConfig" [
    ("sweep_interval", c.sweepInterval.text),
    ("ping_interval", Text.optional (c.pingInterval.map Duration.text)),
    ("removal_timeout", c.removalTimeout.text),
    ("queue_capacity", toString c.queueCapacity),
    ("stale_policy", c.stalePolicy.describe)] false

def describeKeys (keys : List String) : String := Text.bracketed (keys.map Text.quoted)

namespace Session

def describeInfo (x : Session) : String :=
  describeFields "StreamInfo" [
    ("peer", Text.quoted x.peer),
    ("keys", describeKeys x.keys),
    ("cancellable", toString x.token.isSome)] true

def describe (x : Session) (id : String) : String :=
  describeFields "SubscriberSession" [
    ("id", "SessionId(" ++ id ++ ")"),
    ("peer", Text.quoted x.peer),
    ("state", x.stage.describe),
    ("queue", x.queue.describe)] true

end Session

def Registry.describe (r : Registry) : String :=
  describeFields "StreamRegistry" [
    ("config", r.config.describe),
    ("sessions", toString r.members.length),
    ("stopped", toString r.stopped)] true

namespace Registry

/-- The part of the service that speaks about registries. -/
def logTarget : String := "stream_fanout::application::services::registry"

def optionalNumber (n : Option Nat) : LogValue := .plain (Text.optional (n.map toString))

end Registry

/-- How a loop is called at the beginning of a line. -/
def LoopKind.title : LoopKind → String
  | .sweep => "Sweep"
  | .ping => "Ping"

/-- The line that an event leaves in the log, subscribers being identified by `idText`. -/
def Event.logLine? (idText : SessionId → String) (e : Event) : Option LogLine :=
  let id (who : SessionName) : String × LogValue := ("session_id", .plain (idText who.id))
  let peer (who : SessionName) : String × LogValue := ("peer", .text who.peer)
  let line (level : LogLevel) (message : String) (fields : List (String × LogValue)) :
      Option LogLine := some ⟨level, Registry.logTarget, message, fields⟩
  match e with
  | .periodRaised loop asked used =>
    line .warn (loop.title ++ " interval too short, clamping")
      [("configured", .plain asked.text), ("using", .plain used.text)]
  | .started c =>
    line .info "Stream registry started" [
      ("sweep_interval", .plain c.sweepInterval.text),
      ("ping_interval", .plain (Text.optional (c.pingInterval.map Duration.text))),
      ("stale_policy", .text c.stalePolicy.name)]
  | .registered who keys count =>
    line .info "Subscriber registered"
      [id who, peer who, ("keys", .plain (describeKeys keys)), ("sessions", .number count)]
  | .activated who pending =>
    line .debug "Subscriber activated" [id who, ("pending", .number pending)]
  | .staleSkipped who kind batch position =>
    line .debug "Skipping stale batch" [
      id who,
      ("batch_id", Registry.optionalNumber batch.lastId?),
      ("cursor", Registry.optionalNumber position),
      ("kind", .text kind.name)]
  | .writeFailed who kind error =>
    line .warn "Sink write failed, removing subscriber"
      [id who, peer who, ("kind", .text kind.name), ("error", .plain error.message)]
  | .deliveryFinished who outcome =>
    line .trace "Delivery finished" [id who, ("outcome", .plain outcome.name)]
  | .removed who reason remaining =>
    line .info "Subscriber removed"
      [id who, peer who, ("reason", .text reason.name), ("sessions", .number remaining)]
  | .hookFailed who error =>
    line .warn "After-removed hook failed" [id who, peer who, ("error", .plain error.message)]
  | .farewellFailed who error =>
    line .warn "After-removed hook failed during shutdown"
      [id who, peer who, ("error", .plain error.message)]
  | .farewellCrashed =>
    line .warn "Session teardown task failed" [("error", .plain Queue.taskCrashText)]
  | .workerStarted _ => some Queue.startedLine
  | .workerStopped _ => some Queue.stoppedLine
  | .workerLost _ => some Queue.lostLine
  | .swept count => line .debug "Swept cancelled subscribers" [("removed", .number count)]
  | .pingPassFinished count => line .trace "Ping pass finished" [("pinged", .number count)]
  | .loopCancelled loop => line .debug (loop.title ++ " loop cancelled") []
  | .stopped count => line .info "Stream registry stopped" [("sessions", .number count)]
  | .stopTimedOut count outstanding seconds =>
    line .warn "Stream registry stop timed out, abandoning remaining hooks" [
      ("sessions", .number count),
      ("outstanding", .number outstanding),
      ("timeout_secs", .number seconds)]
  | .dropped count =>
    line .debug "Stream registry dropped without stop" [("sessions", .number count)]
  | .beforeRegistered .. | .enqueued .. | .discarded .. | .writeBegun .. | .writeSucceeded ..
  | .writeCrashed .. | .afterRemoved .. | .afterReturned .. => none

end Multicast
