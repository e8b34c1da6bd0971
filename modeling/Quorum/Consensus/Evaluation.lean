/-
  Quorum/Consensus/Evaluation.lean
  ================================
  **From votes to a verdict.**

  Failed results do not vote.  The votes are put in order of agent and completion time and
  grouped by the canonical key of their value; groups stand in order of their keys, so that
  nothing depends on the order of arrival, and every sum of weights is taken in that order.
  Each voting rule then ranks the groups and decides whether its verdict is reached.
-/
import Quorum.Consensus.Verdict

namespace Quorum.Ranking

/-! ### Ranking by bisection

The list is sorted by inserting its items one after the other at a place found by
bisection, starting from the run it begins with.  For an order this is the sorted list;
scores that are no numbers are not ordered, and then the procedure itself decides. -/

variable {α : Type} (less : α → α → Bool)

/-- The number of leading items that keep going up: none is below the one before it. -/
def risingRun : α → List α → Nat
  | _, [] => 0
  | a, b :: rest => if less b a then 0 else risingRun b rest + 1

/-- The number of leading items that keep going down: each is below the one before it. -/
def fallingRun : α → List α → Nat
  | _, [] => 0
  | a, b :: rest => if less b a then fallingRun b rest + 1 else 0

/-- Where an item belongs between `low` and `high`: behind every item it is not below,
    as far as bisection looks. -/
def bisect (x : α) (xs : Array α) (low high : Nat) : Nat :=
  if _h : low < high then
    let middle := low + (high - low) / 2
    match xs[middle]? with
    | some y => if less x y then bisect x xs low middle else bisect x xs (middle + 1) high
    | none => low
  else low
termination_by high - low

def insert (sorted : List α) (x : α) : List α :=
  let place := bisect less x sorted.toArray 0 sorted.length
  sorted.take place ++ x :: sorted.drop place

def sort : List α → List α
  | [] => []
  | [a] => [a]
  | a :: b :: rest =>
    if less b a then
      let n := fallingRun less b rest + 2
      ((a :: b :: rest).drop n).foldl (insert less) ((a :: b :: rest).take n).reverse
    else
      let n := risingRun less b rest + 2
      ((a :: b :: rest).drop n).foldl (insert less) ((a :: b :: rest).take n)

end Quorum.Ranking

namespace Quorum

/-! ### Votes and groups -/

structure Ballot (α : Type) where
  agent : String
  completedAt : Int
  value : Value
  weight : α

def AgentResult.ballot? (r : AgentResult) : Option (Ballot Float) :=
  if r.succeeded then some ⟨r.agentName, r.completedAt.micros, r.output, r.weight⟩ else none

structure Group (α : Type) where
  key : String
  value : Value
  agents : List String
  score : α

namespace Group

variable {α : Type}

def count (g : Group α) : Nat := g.agents.length

/-- More votes come first; among equals the smaller key. -/
def beforeByCount (a b : Group α) : Bool :=
  decide (b.count < a.count) || (a.count == b.count && decide (a.key < b.key))

/-- A higher score comes first; among equals the smaller key. -/
def beforeByScore [Scale α] (a b : Group α) : Bool :=
  if Scale.same a.score b.score then decide (a.key < b.key) else Scale.less b.score a.score

def tally (g : Group α) : Tally α := ⟨g.value, g.count, g.score, g.agents⟩

end Group

namespace Consensus

variable {α : Type}

/-- The order in which votes are counted: by agent, then by completion. -/
def ballotOrder (a b : Ballot α) : Bool :=
  decide (a.agent < b.agent) || (a.agent == b.agent && decide (a.completedAt ≤ b.completedAt))

/-- The order in which votes came in: by completion, then by agent. -/
def arrivalOrder (a b : Ballot α) : Bool :=
  decide (a.completedAt < b.completedAt) || (a.completedAt == b.completedAt && decide (a.agent ≤ b.agent))

/-- The weight of a vote: the one given for its agent, or its own. -/
def ballotWeight (weights : List (String × α)) (b : Ballot α) : α :=
  (weights.lookup b.agent).getD b.weight

/-- The sum of weights, taken from the first vote to the last. -/
def weightSum [Scale α] (weights : List (String × α)) (ballots : List (Ballot α)) : α :=
  ballots.foldl (fun sum b => Scale.add sum (ballotWeight weights b)) Scale.zero

/-- The distinct canonical keys of the votes, in ascending order. -/
def keysOf (keyed : List (String × Ballot α)) : List String :=
  ((keyed.map Prod.fst).mergeSort fun a b => decide (a ≤ b)).eraseDups

def groupOf [Scale α] (weights : List (String × α)) (keyed : List (String × Ballot α)) (key : String) :
    Group α :=
  let members := (keyed.filter fun p => p.1 == key).map Prod.snd
  { key := key
    value := (members.head?.map Ballot.value).getD .null
    agents := members.map Ballot.agent
    score := weightSum weights members }

/-- Group votes that are in counting order. -/
def groupsOf [Scale α] (weights : List (String × α)) (ballots : List (Ballot α)) : List (Group α) :=
  let keyed := ballots.map fun b => (b.value.canonicalKey, b)
  (keysOf keyed).map (groupOf weights keyed)

/-! ### Rankings and confidence -/

def byCount (groups : List (Group α)) : List (Group α) := Ranking.sort Group.beforeByCount groups

def byScore [Scale α] (groups : List (Group α)) : List (Group α) :=
  Ranking.sort Group.beforeByScore groups

/-- The smaller of one and a number; one, if they are not comparable. -/
def capped [Scale α] (x : α) : α := if Scale.less x Scale.one then x else Scale.one

/-- The larger of zero and a number; zero, if they are not comparable. -/
def floored [Scale α] (x : α) : α := if Scale.less Scale.zero x then x else Scale.zero

def plurality [Scale α] (winner : Group α) (total : Nat) : α :=
  Scale.div (Scale.ofNat winner.count) (Scale.ofNat total)

/-- The share of the weight a group has, summed in key order; zero if there is no weight. -/
def weightShare [Scale α] (groups : List (Group α)) (winner : Group α) : α :=
  let total := groups.foldl (fun sum g => Scale.add sum g.score) Scale.zero
  if Scale.atMost total Scale.zero then Scale.zero
  else capped (Scale.div winner.score total)

/-- Who voted for another value than the winner, in order of names. -/
def dissentersOf (groups : List (Group α)) (winner : Group α) : List String :=
  ((groups.filter fun g => g.key != winner.key).flatMap Group.agents).mergeSort
    fun a b => decide (a ≤ b)

/-! ### The five voting rules -/

/-- What a voting rule decides about the groups of a tier. -/
structure Decision (α : Type) where
  ranked : List (Group α)
  confidence : α
  reached : Bool
  escalation : Option Severity := none

/-- The value most agents agree on; reached by more than half of them. -/
def majority [Scale α] (rules : Rules α) (groups : List (Group α)) (winner : Group α) (total : Nat) :
    Decision α where
  ranked := byCount groups
  confidence := plurality winner total
  reached := decide (total < winner.count * 2) && decide (rules.minVotes ≤ total)

def unanimous [Scale α] (rules : Rules α) (groups : List (Group α)) (winner : Group α) (total : Nat) :
    Decision α :=
  let reached := groups.length == 1 && decide (rules.minVotes ≤ total)
  { ranked := byCount groups
    confidence := if reached then Scale.one else plurality winner total
    reached := reached }

/-- The value of highest weight; reached by enough weight and enough votes. -/
def weighted [Scale α] (rules : Rules α) (groups : List (Group α)) (winner : Group α) (total : Nat) :
    Decision α :=
  let confidence := weightShare groups winner
  { ranked := byScore groups
    confidence := confidence
    reached := Scale.less Scale.zero confidence && Scale.atMost rules.minConfidence confidence
      && decide (rules.minVotes ≤ total) }

def firstWins [Scale α] (groups : List (Group α)) (firstKey : String) : Decision α where
  ranked := groups.filter (fun g => g.key == firstKey)
    ++ (byCount groups).filter fun g => g.key != firstKey
  confidence := Scale.one
  reached := true

/-- A proposal for a reviewer, never reached by itself: by weight if weights are given, by
    number otherwise.  Little confidence makes it more urgent. -/
def humanReview [Scale α] (rules : Rules α) (byWeight : Bool) (groups : List (Group α))
    (winner : Group α) (total : Nat) : Decision α :=
  let confidence := if byWeight then weightShare groups winner else plurality winner total
  { ranked := if byWeight then byScore groups else byCount groups
    confidence := confidence
    reached := false
    escalation := some (if Scale.atMost rules.minConfidence confidence then .low else .high) }

/-! ### Verdicts -/

def noData [Scale α] (rules : Rules α) : Verdict α where
  result := .null
  confidence := Scale.zero
  votes := 0
  algorithm := rules.algorithm
  reached := false
  minVotes := rules.minVotes
  minConfidence := rules.minConfidence
  tally := []
  dissenters := []
  escalation := if rules.algorithm == .humanReview then some .critical else none

/-- The decision of the rules in force about groups with `total` votes; `byCount` and
    `byScore` put the winner first. -/
def decideGroups [Scale α] (rules : Rules α) (byWeight : Bool) (groups : List (Group α))
    (firstKey : String) (total : Nat) : Option (Decision α) :=
  let leader? := (byCount groups).head?
  let favourite? := (byScore groups).head?
  match rules.algorithm with
  | .majority => leader?.map fun w => majority rules groups w total
  | .unanimous => leader?.map fun w => unanimous rules groups w total
  | .weighted => favourite?.map fun w => weighted rules groups w total
  | .firstWins => some (firstWins groups firstKey)
  | .humanReview =>
    (if byWeight then favourite? else leader?).map fun w =>
      humanReview rules byWeight groups w total

/-- The verdict on votes in any order. -/
def evaluateBallots [Scale α] (ballots : List (Ballot α)) (weights : List (String × α))
    (rules : Rules α) : Verdict α :=
  let ordered := ballots.mergeSort ballotOrder
  let groups := groupsOf weights ordered
  let first? := (ordered.mergeSort arrivalOrder).head?
  match first? with
  | none => noData rules
  | some first =>
    match decideGroups rules (!weights.isEmpty) groups first.value.canonicalKey ordered.length with
    | none => noData rules
    | some decision =>
      match decision.ranked with
      | [] => noData rules
      | winner :: _ =>
        { result := winner.value
          confidence := floored (capped decision.confidence)
          votes := ordered.length
          algorithm := rules.algorithm
          reached := decision.reached
          minVotes := rules.minVotes
          minConfidence := rules.minConfidence
          tally := decision.ranked.map Group.tally
          dissenters := dissentersOf groups winner
          escalation := decision.escalation }

/-- The verdict on the results of a tier.  Agents without a weight in the map vote with the
    weight of their result. -/
def evaluate (results : List AgentResult) (weights : List (String × Float))
    (rules : VotingRules) : Verdict Float :=
  evaluateBallots (results.filterMap AgentResult.ballot?) weights rules

end Consensus

end Quorum
