/-
  Quorum/Service/Exchange.lean
  ============================
  **Requests to the language-model service, and when they are repeated.**

  A request is repeated after an error that may pass: the service cannot be reached, asks
  for patience, or is itself in trouble.  The wait between two attempts doubles each time,
  within bounds.  The first text or final error ends the exchange, and so does the last
  attempt that is allowed.
-/
import Quorum.Run.Behaviour

namespace Quorum.Service

/-- Why the service gave no text. -/
inductive ServiceError where
  | unreachable (text : String)
  /-- It answered with a status that stands for an error. -/
  | status (code : Int) (text : String)
  /-- Something else got in the way. -/
  | problem (p : Problem)

namespace ServiceError

def isTransient : ServiceError → Bool
  | .unreachable _ => true
  | .status code _ => code == 429 || decide (500 ≤ code)
  | .problem _ => false

def text : ServiceError → String
  | .unreachable text => text
  | .status _ text => text
  | .problem p => p.text

/-- The status, if the service gave one. -/
def code? : ServiceError → Option Int
  | .status code _ => some code
  | _ => none

end ServiceError

/-- What the service does with one request. -/
structure Reply where
  /-- The time it takes, in seconds. -/
  delay : Rat
  outcome : Except ServiceError String

/-- What happens when there is nobody to reply. -/
def silence : ServiceError := .problem (.other "RuntimeError" "no reply left")

/-- How often a request is made, and the wait after the first attempt. -/
structure RetryPolicy where
  attempts : Nat
  delay : Rat

/-- The seconds between an attempt and the next one, attempts counted from one: exact doubling
    between bounds.  That doubles cannot hold the thousand-and-twenty-fourth doubling is left
    out; it could show only for a delay too small to reach the upper bound before. -/
def RetryPolicy.waitAfter (p : RetryPolicy) (attempt : Nat) : Rat :=
  let doubled := p.delay * Rat.pow 2 (attempt - 1)
  if doubled ≤ 1 then 1 else if doubled ≤ 10 then doubled else 10

/-- A request with all its attempts. -/
structure Exchange where
  /-- When each attempt was made, in seconds from the beginning. -/
  times : List Rat
  elapsed : Rat
  outcome : Except ServiceError String
  /-- The replies that were not needed. -/
  rest : List Reply

namespace RetryPolicy

/-- Attempts from a given one on, with a number of further ones allowed after it. -/
def attemptFrom (p : RetryPolicy) (further attempt : Nat) (clock : Rat) :
    List Reply → Exchange
  | [] => ⟨[clock], clock, .error silence, []⟩
  | reply :: rest =>
    let done := clock + reply.delay
    match reply.outcome, further with
    | .ok text, _ => ⟨[clock], done, .ok text, rest⟩
    | .error e, 0 => ⟨[clock], done, .error e, rest⟩
    | .error e, further + 1 =>
      if e.isTransient then
        let next := p.attemptFrom further (attempt + 1) (done + p.waitAfter attempt) rest
        { next with times := clock :: next.times }
      else ⟨[clock], done, .error e, rest⟩

/-- A request with as many attempts as it takes and the policy allows. -/
def exchange (p : RetryPolicy) (replies : List Reply) : Exchange :=
  p.attemptFrom (p.attempts - 1) 1 0 replies

end RetryPolicy

end Quorum.Service
