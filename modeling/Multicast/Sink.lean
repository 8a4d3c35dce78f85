import Multicast.Batch
import Multicast.Channel
import Multicast.Progress
/-!
Where the batches of a subscriber are written to, and what can become of a write. A scripted sink
plays one outcome for each write; a channel sink passes the batch on to a receiver.
-/

namespace Multicast

/-- Why a write failed. -/
inductive SinkError
  | closed
  /-- The connection failed in the course of the write. -/
  | transport (text : String)
  deriving DecidableEq, Repr

def SinkError.message : SinkError → String
  | .closed => "sink closed"
  | .transport text => "sink transport error: " ++ text

/-- What a scripted sink does with a write. -/
inductive WriteOutcome
  | ok
  | fail (e : SinkError)
  | crash
  /-- Waits to be released, and then does what the release says. -/
  | hold
  | delay (ms : Nat) (next : WriteOutcome)
  deriving DecidableEq, Repr

/-- The sink of a subscriber. -/
inductive Sink
  /-- Plays the outcomes one after the other, and then succeeds. -/
  | scripted (outcomes : List WriteOutcome)
  | channel (c : Channel (Batch Nat))
  deriving Repr, Inhabited

/-- Where a write stands. -/
inductive WritePoint
  /-- It plays an outcome from the given moment on. -/
  | playing (moment : Nat) (outcome : WriteOutcome)
  | held
  | sending
  deriving DecidableEq, Repr

namespace Sink

def startWrite (s : Sink) (now : Nat) (p : Party) : Sink × WritePoint :=
  match s with
  | .scripted outcomes => (.scripted outcomes.tail, .playing now (outcomes.headD .ok))
  | .channel c => (.channel (c.ask p), .sending)

/-- Whether a write need not wait any longer. -/
def ready (s : Sink) (now : Nat) (p : Party) : WritePoint → Bool
  | .playing moment _ => decide (moment ≤ now)
  | .held => false
  | .sending =>
    match s with
    | .channel c => c.mayGo p
    | .scripted _ => false

/-- Lets a write that need not wait go on. -/
def step (s : Sink) (now : Nat) (p : Party) (b : Batch Nat) : WritePoint →
    Sink × Progress WritePoint (Except SinkError Unit)
  | .playing _ .ok => (s, .done (.ok ()))
  | .playing _ (.fail e) => (s, .done (.error e))
  | .playing _ .crash => (s, .crashed)
  | .playing _ .hold => (s, .running .held)
  | .playing _ (.delay ms next) => (s, .running (.playing (now + ms) next))
  | .held => (s, .running .held)
  | .sending =>
    match s with
    | .channel c =>
      match c.send p b with
      | (c', true) => (.channel c', .done (.ok ()))
      | (c', false) => (.channel c', .done (.error .closed))
    | .scripted _ => (s, .running .sending)

def giveUp (s : Sink) (p : Party) : Sink :=
  match s with
  | .channel c => .channel (c.giveUp p)
  | .scripted outcomes => .scripted outcomes

end Sink

def WritePoint.sleepsUntil : WritePoint → Option Nat
  | .playing moment _ => some moment
  | _ => none

end Multicast
