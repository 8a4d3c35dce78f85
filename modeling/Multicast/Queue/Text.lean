import Multicast.Log
import Multicast.Queue.Scripted
/-!
What a queue says about itself: its short description and its lines in the log.
-/

namespace Multicast

def Queue.describe {ι : Type} (q : Queue ι) : String :=
  "DispatchQueue \x7b started: " ++ toString q.started ++ ", closed: " ++ toString q.closed ++
    ", .. \x7d"

namespace Queue

/-- The part of the service that speaks about queues. -/
def logTarget : String := "stream_fanout::application::services::dispatch_queue"

def startedLine : LogLine := ⟨.trace, logTarget, "Dispatch worker started", []⟩

def stoppedLine : LogLine := ⟨.trace, logTarget, "Dispatch worker stopped", []⟩

/-- The text of a crash in a script. -/
def crashText : String := "scripted panic"

/-- How the end of a crashed task is told. -/
def taskCrashText : String := "task N panicked with message \"" ++ crashText ++ "\""

def lostLine : LogLine :=
  ⟨.warn, logTarget, "Dispatch worker terminated abnormally", [("error", .plain taskCrashText)]⟩

end Queue

/-- The line that an event leaves in the log. -/
def QueueEvent.logLine? : QueueEvent → Option LogLine
  | .workerStarted => some Queue.startedLine
  | .workerStopped => some Queue.stoppedLine
  | .workerLost => some Queue.lostLine
  | _ => none

end Multicast
