/-
  Quorum/Service/Completion.lean
  ==============================
  **Completions: from prompts to texts and structured values.**

  A completion asks the service for a text.  Where a structured value is wanted, the
  instructions say so, and the text is read after the fences around it are taken away.
-/
import Quorum.Log
import Quorum.Service.Exchange
import Quorum.Settings.Basic

namespace Quorum.Service

/-! ### Requests -/

/-- What is asked of the service; what is left out comes from the settings. -/
structure Ask where
  system : String
  user : String
  model : Option String := none
  temperature : Option Number := none
  maxTokens : Option Int := none

/-- A request as it goes to the service. -/
structure Request where
  model : String
  maxTokens : Int
  temperature : Number
  system : String
  user : String

/-- The request for what is asked.  An empty model and a limit of zero count as left out. -/
def Ask.request (ask : Ask) (s : Settings) : Request where
  model := (ask.model.filter fun m => !m.isEmpty).getD s.model
  maxTokens := (ask.maxTokens.filter fun n => n != 0).getD s.maxTokens
  temperature := ask.temperature.getD (.double s.temperature)
  system := ask.system
  user := ask.user

/-- The delay of the settings as an exact number.  Without bound it is as good as the
    longest wait, and what is no number as good as none. -/
def exactDelay (x : Float) : Rat :=
  match Decimal.exactValue? x with
  | some r => r
  | none => if x > 0.0 then 10 else 0

/-- How often the settings allow a request to be made. -/
def policyOf (s : Settings) : RetryPolicy := ⟨s.retryAttempts.toNat, exactDelay s.retryDelay⟩

/-- A completion: the request, its attempts, and what came of it. -/
structure Completion where
  request : Request
  times : List Rat
  elapsed : Rat
  ending : Ending
  log : List LogEntry
  rest : List Reply

/-! ### Texts -/

/-- The fault of a completion that the service did not give. -/
def serviceFault (model : String) (e : ServiceError) : Fault :=
  Fault.make .languageModel s!"Claude API error: {e.text}"
    [("model", .text model), ("status_code", .ofOption .int e.code?)]

/-- What an exchange comes to; a cancellation from within stays one. -/
def endingOf (model : String) : Except ServiceError String → Ending
  | .ok text => .output (.text text)
  | .error (.problem .cancelled) => .raised .cancelled
  | .error e => .raised (.fault (serviceFault model e))

/-- What is logged before the second and each later attempt. -/
def retryEntries (model : String) (attempts : Nat) : List LogEntry :=
  (List.range (attempts - 1)).map fun (i : Nat) =>
    ⟨.info, "llm_retry", [("model", .text model), ("attempt", .int ((i : Int) + 2))]⟩

/-- Ask for a text. -/
def completeText (s : Settings) (ask : Ask) (replies : List Reply) : Completion :=
  let request := ask.request s
  let exchange := (policyOf s).exchange replies
  { request := request
    times := exchange.times
    elapsed := exchange.elapsed
    ending := endingOf request.model exchange.outcome
    log := retryEntries request.model exchange.times.length
    rest := exchange.rest }

/-! ### Structured values -/

/-- What is added to the instructions where a structured value is wanted. -/
def valueInstruction : String :=
  "\n\nRespond ONLY with a valid JSON value, no additional text."

/-- A text without a fence that opens it. -/
def dropOpeningFence (cs : List Char) : List Char :=
  if "```json".toList.isPrefixOf cs then cs.drop 7
  else if "```".toList.isPrefixOf cs then cs.drop 3
  else cs

/-- A text without a fence that closes it. -/
def dropClosingFence (cs : List Char) : List Char :=
  if "```".toList.isSuffixOf cs then cs.take (cs.length - 3) else cs

/-- A text without blanks and fences around it. -/
def unfenced (s : String) : String :=
  let cs := Text.trim Text.isBlank s.toList
  String.ofList (Text.trim Text.isBlank (dropClosingFence (dropOpeningFence cs)))

def readValue (s : String) : Except Value.ReadError Value := Value.read (unfenced s)

/-- The fault of a text that holds no value; it shows how the text begins. -/
def unreadableFault (model text : String) (e : Value.ReadError) : Fault :=
  Fault.make .languageModel s!"Failed to parse JSON response: {e.message}"
    [("model", .text model)]
    [("raw_response", .text (String.ofList (text.toList.take 500)))]

def valueOf (model : String) : Ending → Ending
  | .output (.text text) =>
    match readValue text with
    | .ok v => .output v
    | .error e => .raised (.fault (unreadableFault model text e))
  | e => e

def complete (s : Settings) (ask : Ask) (replies : List Reply) : Completion :=
  let c := completeText s { ask with system := ask.system ++ valueInstruction } replies
  { c with ending := valueOf c.request.model c.ending }

end Quorum.Service
