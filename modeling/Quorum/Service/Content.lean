/-
  Quorum/Service/Content.lean
  ===========================
  **Agents answered by the language-model service, and what its answers are made of.**
-/
import Quorum.Prompt
import Quorum.Service.Completion
import Quorum.Service.Exchange

namespace Quorum.Service

/-! ### Agents answered by the language-model service

The instructions of an agent and the prompt for its context become one completion: of a
structured value if the agent's output has that format, of a text otherwise. -/

def askOf (a : Agent) (c : Context) (synthesize : Bool) : Ask where
  system := Prompt.system a synthesize
  user := Prompt.user a c synthesize
  model := a.model
  temperature := a.temperature.map .double

/-- The kind of failure behind a fault of the service: with a text at hand it was malformed. -/
def failureKindOf (f : Fault) : FailureKind :=
  match f.detail "raw_response" with
  | .null => .invocation
  | _ => .malformed

/-- The fault of an agent for which the service has none but this. -/
def agentFault (a : Agent) (f : Fault) : Fault :=
  Fault.make .agentInvocation s!"Agent {a.name} failed: {f.message}"
    [("agent_name", .text a.name), ("tier", .int a.tier), ("kind", .named (failureKindOf f))]
    [("model", f.detail "model"), ("status_code", f.detail "status_code")]

/-- The ending of a completion as an ending of the agent. -/
def agentEnding (a : Agent) : Ending → Ending
  | .raised (.fault f) =>
    if f.kind == .languageModel then .raised (.fault (agentFault a f)) else .raised (.fault f)
  | e => e

def callAgent (s : Settings) (synthesize : Bool) (a : Agent) (c : Context) (replies : List Reply) :
    Completion :=
  let ask := askOf a c synthesize
  let completion := match a.outputFormat with
    | .json => complete s ask replies
    | .text => completeText s ask replies
  { completion with ending := agentEnding a completion.ending }

/-- The behaviour of an agent that is called in this way. -/
def Completion.behaviour (c : Completion) : Behaviour := ⟨c.elapsed, c.ending, none⟩

/-! ### What an answer of the service is made of

An answer is a sequence of blocks.  Its text is that of its text blocks, one after the
other; blocks of other kinds, and blocks without a kind, are passed over. -/

structure ContentBlock where
  kind : Option String
  text : String
deriving DecidableEq, Repr

namespace ContentBlock

/-- The kind of the blocks that make up the text. -/
def textKind : String := "text"

def ofText (text : String) : ContentBlock := ⟨some textKind, text⟩

def isText (b : ContentBlock) : Bool := b.kind == some textKind

end ContentBlock

def contentText (blocks : List ContentBlock) : String :=
  String.join ((blocks.filter ContentBlock.isText).map ContentBlock.text)

/-- What the service does with one request, before its answer is taken apart. -/
structure Response where
  /-- The time it takes, in seconds. -/
  delay : Rat
  outcome : Except ServiceError (List ContentBlock)

/-- The reply in a response: the text of the answer, or the error. -/
def Response.reply (r : Response) : Reply := ⟨r.delay, r.outcome.map contentText⟩

end Quorum.Service
