import Multicast.Batch
import Multicast.Channel
/-!
A channel exercised step by step. A write that finds no room stays open until a later step makes
room for it or drops the receiver; the open writes keep the channel reachable.
-/

namespace Multicast

/-- One step of a scenario. -/
inductive ChannelStep
  | write (batch : Batch Nat)
  | receive
  | dropReceiver
  | dropSink
  deriving Repr

/-- What a step answers. -/
inductive ChannelAnswer
  /-- The channel took the batch of a write, or has lost its receiver. -/
  | written (taken : Bool)
  | pending
  | received (batch : Batch Nat)
  | empty
  | disconnected
  | dropped
  | flag (b : Bool)
  | nothing
  deriving DecidableEq, Repr

/-- What remains of a step. -/
structure ChannelEntry where
  answer : ChannelAnswer
  /-- The earlier steps whose writes came to their end, and whether the channel took the batch. -/
  ended : List (Nat × Bool)
  /-- Whether the receiver is gone, as the sink sees it; nobody sees it when the sink is gone. -/
  closed : Option Bool
  deriving Repr

/-- A scenario in its course. -/
structure ChannelScenario where
  channel : Channel (Batch Nat)
  /-- Whether the sink is still held from outside. -/
  sinkHeld : Bool := true
  /-- The open writes, by the numbers of their steps. -/
  writes : List (Nat × Batch Nat) := []
  stepsDone : Nat := 0

namespace ChannelScenario

/-- A scenario on a channel for which a capacity of `n` is asked. -/
def new (n : Nat) : ChannelScenario where
  channel := .ofCapacity n

/-- Lets the open writes go on in turn; the answer holds those that came to their end. -/
def settleWrites : List (Nat × Batch Nat) → Channel (Batch Nat) →
    Channel (Batch Nat) × List (Nat × Batch Nat) × List (Nat × Bool)
  | [], c => (c, [], [])
  | (n, b) :: rest, c =>
    if c.mayGo (.call n) then
      let (c', taken) := c.send (.call n) b
      let (last, still, ended) := settleWrites rest c'
      (last, still, (n, taken) :: ended)
    else
      let (last, still, ended) := settleWrites rest c
      (last, (n, b) :: still, ended)

/-- What a step does before the open writes go on. -/
def act (s : ChannelScenario) : ChannelStep → ChannelScenario × ChannelAnswer
  | .write b =>
    if s.sinkHeld then
      ({ s with
          channel := s.channel.ask (.call s.stepsDone)
          writes := s.writes ++ [(s.stepsDone, b)] }, .pending)
    else (s, .nothing)
  | .receive =>
    if s.channel.closed then (s, .dropped)
    else
      match s.channel.receive? with
      | some (b, c) => ({ s with channel := c }, .received b)
      | none => (s, if s.sinkHeld || !s.writes.isEmpty then .empty else .disconnected)
  | .dropReceiver => ({ s with channel := s.channel.close }, .flag !s.channel.closed)
  | .dropSink => ({ s with sinkHeld := false }, .flag s.sinkHeld)

/-- Makes one step and lets the open writes go on. -/
def step (s : ChannelScenario) (st : ChannelStep) : ChannelScenario × ChannelEntry :=
  let (acted, answer) := s.act st
  let (c, still, ended) := settleWrites acted.writes acted.channel
  let own := ended.find? (·.1 == s.stepsDone)
  ({ acted with channel := c, writes := still, stepsDone := s.stepsDone + 1 },
    { answer := match answer, own with
        | .pending, some (_, taken) => .written taken
        | a, _ => a
      ended := ended.filter fun e => !(e.1 == s.stepsDone)
      closed := if acted.sinkHeld then some c.closed else none })

def run (s : ChannelScenario) : List ChannelStep → List ChannelEntry
  | [] => []
  | st :: rest => let (s', e) := s.step st; e :: s'.run rest

end ChannelScenario

end Multicast
