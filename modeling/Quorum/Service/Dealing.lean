/-
  Quorum/Service/Dealing.lean
  ===========================
  **Who gets which reply when agents share one service.**

  The service replies to requests in the order in which they are made, whichever agents
  make them.  Replies are dealt one at a time: the fleet is run with what its agents have
  in hand, and the next reply goes to the earliest request that none has been dealt for.
  An agent whose request is not answered yet is kept waiting, so nothing it does later can
  change what happens up to that request.  When there are no replies left, requests are
  met with silence.
-/
import Quorum.Run.FleetRun
import Quorum.Service.Content

namespace Quorum.Service

/-- What an agent has been dealt so far. -/
structure Hand where
  agent : String
  replies : List Reply
  /-- Nobody replies to it any more. -/
  silent : Bool

/-- A reply that has not been dealt yet.  What it is does not matter, only that it comes
    later than the request. -/
def pending : Reply := ⟨1, .ok ""⟩

/-- What has been dealt, and the requests it was dealt for, in their order. -/
structure Dealing where
  hands : List Hand
  requests : List (Rat × Request)

/-- A request that nothing has been dealt for. -/
structure OpenRequest where
  agent : String
  time : Rat
  request : Request

namespace Dealing

def handOf (d : Dealing) (agent : String) : Hand :=
  (d.hands.find? fun h => h.agent == agent).getD ⟨agent, [], false⟩

def repliesFor (d : Dealing) (agent : String) : List Reply :=
  let hand := d.handOf agent
  if hand.silent then hand.replies else hand.replies ++ [pending]

/-- Put a card into the hand of an agent: a reply, or silence. -/
def give (d : Dealing) (agent : String) (card : Option Reply) : List Hand :=
  let hand := d.handOf agent
  let hand := match card with
    | some reply => { hand with replies := hand.replies ++ [reply] }
    | none => { hand with silent := true }
  hand :: d.hands.filter fun h => h.agent != agent

end Dealing

/-- The behaviour of agents that have hands, as an executor needs it. -/
def Dealing.conduct (settings : Settings) (synthesize : Bool) (d : Dealing) (a : Agent)
    (c : Context) (_turn : Nat) : Behaviour :=
  (callAgent settings synthesize a c (d.repliesFor a.name)).behaviour

/-- The run of a fleet whose agents are answered by the service. -/
structure ServedMission where
  settings : Settings
  fleet : Fleet
  /-- The time limit of agents for which none is given. -/
  timeout : Option Number
  runId : String
  epoch : Timestamp

namespace ServedMission

/-- The mission as it is with what has been dealt. -/
def mission (m : ServedMission) (d : Dealing) : Mission where
  fleet := m.fleet
  executor := Executor.configured (d.conduct m.settings m.fleet.synthesizes) m.settings m.timeout
    none m.epoch
  reviewer := none
  runId := m.runId
  start := .zero

/-- The request of an invocation that nothing has been dealt for, if it was made. -/
def openRequest? (m : ServedMission) (d : Dealing) (i : Invocation) : Option OpenRequest := do
  let a ← m.fleet.agents.find? fun a => a.name == i.agent
  let hand := d.handOf a.name
  if hand.silent then none
  else
    let c := callAgent m.settings m.fleet.synthesizes a i.context (d.repliesFor a.name)
    if c.times.length != hand.replies.length + 1 then none
    else
      let time := i.span.start.time + c.times.getLast?.getD 0
      if hand.replies.isEmpty || decide (time < i.span.stop.time) then some ⟨a.name, time, c.request⟩
      else none

/-- The earlier of two requests; of simultaneous ones the first. -/
def earlierRequest (a b : OpenRequest) : OpenRequest := if b.time < a.time then b else a

/-- The earliest request that nothing has been dealt for. -/
def nextRequest? (m : ServedMission) (task : Value) (deadline : Option Number) (d : Dealing) :
    Option OpenRequest :=
  let run := (m.mission d).run task deadline
  match run.journey.invocations.filterMap (m.openRequest? d) with
  | [] => none
  | r :: rest => some (rest.foldl earlierRequest r)

/-- Deal cards one after the other, each to the earliest open request. -/
def deal (m : ServedMission) (task : Value) (deadline : Option Number) :
    List (Option Reply) → Dealing → Dealing
  | [], d => d
  | card :: rest, d =>
    match m.nextRequest? task deadline d with
    | none => d
    | some r => deal m task deadline rest ⟨d.give r.agent card, d.requests ++ [(r.time, r.request)]⟩

/-- Everything dealt: all replies, and silence for every agent after that. -/
def dealt (m : ServedMission) (task : Value) (deadline : Option Number) (replies : List Reply) :
    Dealing :=
  m.deal task deadline (replies.map some ++ m.fleet.agents.map fun _ => none) ⟨[], []⟩

/-- Run the fleet against a task: the run, and the requests that were made. -/
def run (m : ServedMission) (task : Value) (deadline : Option Number) (replies : List Reply) :
    FleetRun × List (Rat × Request) :=
  let d := m.dealt task deadline replies
  ((m.mission d).run task deadline, d.requests)

end ServedMission

end Quorum.Service
