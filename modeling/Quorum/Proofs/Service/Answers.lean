/-
  Quorum/Proofs/Service/Answers.lean
  ==================================
  **What replies of the service are worth.**

  An agent that the service answers has one exchange with it, under a time limit.  If the last
  attempt of the exchange gets a text in time, the text may give a value to vote on (`Gives`)
  or be malformed; if it ends in an error in time, the invocation has failed; and if the limit
  strikes first, the agent has timed out (`Fate`, `fate_callAgent`).  The kind of a failure is
  handed on through the details of two faults, and each of them names it rightly
  (`failureKind_agentFault`).  So in a tier that waits for the agent its result says exactly
  what became of the replies (`Classified`, `runTier_replies_classified`).
-/
import Quorum.Proofs.Run.Turns
import Quorum.Proofs.Service.Fences
import Quorum.Proofs.Service.Retries
import Quorum.Service.Content

namespace Quorum

/-! ### Limits and endings -/

/-- What takes so long is over before the limit strikes; a limit of no time strikes at once. -/
def Number.Allows (limit : Number) (length : Rat) : Prop :=
  ∀ l, limit.limit? = some l → 0 < l ∧ length < l

namespace Behaviour

variable {delay : Rat} {limit : Number}

/-- A behaviour that is over before the limit strikes ends as it does by itself. -/
theorem stay_ending_of_allows (hallows : limit.Allows delay) (ending : Ending)
    (lingering : Option (Rat × Ending)) :
    (Behaviour.stay ⟨delay, ending, lingering⟩ limit).ending = ending := by
  unfold stay
  split
  · rfl
  · rename_i l hlimit
    obtain ⟨hpositive, hdelay⟩ := hallows l hlimit
    rw [if_neg (not_le.mpr hpositive), if_pos hdelay]

/-- A behaviour that stops when it is cancelled runs out of time if the limit strikes before it
    is over. -/
theorem stay_ending_of_not_allows (hallows : ¬ limit.Allows delay) (ending : Ending) :
    (Behaviour.stay ⟨delay, ending, none⟩ limit).ending = .raised (.timedOut "") := by
  unfold Number.Allows at hallows
  push Not at hallows
  obtain ⟨l, hlimit, hlate⟩ := hallows
  unfold stay
  simp only [hlimit]
  by_cases hnone : l ≤ 0
  · rw [if_pos hnone]
  · rw [if_neg hnone, if_neg (not_lt.mpr (hlate (not_le.mp hnone)))]

end Behaviour

namespace Ending

theorem outcome_of_wellFormed {v : Value} (hformed : v.isWellFormed = true) (limit : Number) :
    (output v).outcome limit = .success v := by
  unfold outcome
  exact if_pos hformed

theorem outcome_of_not_wellFormed {v : Value} (hformed : v.isWellFormed ≠ true)
    (limit : Number) :
    ∃ message, (output v).outcome limit = .failure .malformed message := by
  unfold outcome
  exact ⟨_, if_neg hformed⟩

end Ending

namespace Service

/-! ### Kinds of failures -/

theorem failureKindOf_serviceFault (model : String) (e : ServiceError) :
    failureKindOf (serviceFault model e) = .invocation := rfl

theorem failureKindOf_unreadableFault (model text : String) (e : Value.ReadError) :
    failureKindOf (unreadableFault model text e) = .malformed := rfl

/-- The fault of an agent tells the kind of its failure. -/
theorem failureKind_agentFault (a : Agent) (f : Fault) :
    (agentFault a f).failureKind = failureKindOf f := by
  have hdetail : (agentFault a f).detail "kind" = .text (Named.name (failureKindOf f)) := rfl
  unfold Fault.failureKind
  rw [hdetail]
  cases failureKindOf f <;> rfl

theorem outcome_agentEnding {f : Fault} (hf : f.kind = .languageModel) (a : Agent)
    (limit : Number) :
    (agentEnding a (.raised (.fault f))).outcome limit =
      .failure (failureKindOf f) (agentFault a f).message := by
  have hkind : (f.kind == .languageModel) = true := by rw [hf]; rfl
  unfold agentEnding
  simp only [hkind, if_true]
  rw [← failureKind_agentFault a f]
  rfl

/-! ### Usable texts -/

/-- A text gives an agent with an output format a value to vote on. -/
inductive Gives : OutputFormat → String → Value → Prop
  | text {s : String} (hblank : Text.allBlank s = false) : Gives .text s (.text s)
  | object {s : String} {entries : List (String × Value)}
      (hread : readValue s = .ok (.object entries)) : Gives .json s (.object entries)
  | list {s : String} {items : List Value} (hread : readValue s = .ok (.list items)) :
      Gives .json s (.list items)
  | inner {s t : String} (hread : readValue s = .ok (.text t)) (hblank : Text.allBlank t = false) :
      Gives .json s (.text t)

theorem gives_text_iff {s : String} {v : Value} :
    Gives .text s v ↔ v = .text s ∧ v.isWellFormed = true := by
  constructor
  · intro h
    cases h with
    | text hblank => exact ⟨rfl, by simp [Value.isWellFormed, hblank]⟩
  · rintro ⟨rfl, hformed⟩
    exact .text (by simpa [Value.isWellFormed] using hformed)

theorem gives_json_iff {s : String} {v : Value} :
    Gives .json s v ↔ readValue s = .ok v ∧ v.isWellFormed = true := by
  constructor
  · intro h
    cases h with
    | object hread => exact ⟨hread, rfl⟩
    | list hread => exact ⟨hread, rfl⟩
    | inner hread hblank => exact ⟨hread, by simp [Value.isWellFormed, hblank]⟩
  · rintro ⟨hread, hformed⟩
    cases v with
    | text t => exact .inner hread (by simpa [Value.isWellFormed] using hformed)
    | list items => exact .list hread
    | object entries => exact .object hread
    | null | bool b | int i | float x => cases hformed

theorem Gives.unique {format : OutputFormat} {s : String} {v w : Value} (hv : Gives format s v)
    (hw : Gives format s w) : v = w := by
  cases format with
  | text => rw [(gives_text_iff.mp hv).1, (gives_text_iff.mp hw).1]
  | json =>
    have hread := (gives_json_iff.mp hv).1.symm.trans (gives_json_iff.mp hw).1
    exact Except.ok.inj hread

/-! ### Endings -/

@[simp] theorem endingOf_ok (model text : String) :
    endingOf model (.ok text) = .output (.text text) := rfl

theorem endingOf_error {e : ServiceError} (he : e ≠ .problem .cancelled) (model : String) :
    endingOf model (.error e) = .raised (.fault (serviceFault model e)) := by
  unfold endingOf
  split
  · rename_i h
    cases h
  · rename_i h
    cases h
    exact absurd rfl he
  · rename_i h
    cases h
    rfl

theorem valueOf_of_ok {text : String} {v : Value} (hread : readValue text = .ok v)
    (model : String) : valueOf model (.output (.text text)) = .output v := by
  -- the equations of the definition would be derived by evaluating the reader
  delta valueOf
  simp only [hread]

theorem valueOf_of_error {text : String} {e : Value.ReadError} (hread : readValue text = .error e)
    (model : String) :
    valueOf model (.output (.text text)) = .raised (.fault (unreadableFault model text e)) := by
  delta valueOf
  simp only [hread]

@[simp] theorem agentEnding_output (a : Agent) (v : Value) :
    agentEnding a (.output v) = .output v := rfl

/-- How an agent ends with what an exchange comes to. -/
def endingFrom (a : Agent) (model : String) (outcome : Except ServiceError String) : Ending :=
  match a.outputFormat with
  | .json => agentEnding a (valueOf model (endingOf model outcome))
  | .text => agentEnding a (endingOf model outcome)

theorem callAgent_behaviour (s : Settings) (synthesize : Bool) (a : Agent) (c : Context)
    (replies : List Reply) :
    ∃ model, (callAgent s synthesize a c replies).behaviour =
      ⟨((policyOf s).exchange replies).elapsed,
        endingFrom a model ((policyOf s).exchange replies).outcome, none⟩ := by
  refine ⟨((askOf a c synthesize).request s).model, ?_⟩
  unfold callAgent endingFrom
  cases a.outputFormat with
  | json => simp only [complete, completeText, Completion.behaviour, Ask.request]
  | text => simp only [completeText, Completion.behaviour]

variable {a : Agent} {text : String}

theorem outcome_of_gives {v : Value} (hgives : Gives a.outputFormat text v) (model : String)
    (limit : Number) :
    (endingFrom a model (.ok text)).outcome limit = .success v := by
  unfold endingFrom
  cases hformat : a.outputFormat with
  | text =>
    rw [hformat] at hgives
    obtain ⟨rfl, hformed⟩ := gives_text_iff.mp hgives
    simp only [endingOf_ok, agentEnding_output]
    exact Ending.outcome_of_wellFormed hformed limit
  | json =>
    rw [hformat] at hgives
    obtain ⟨hread, hformed⟩ := gives_json_iff.mp hgives
    simp only [endingOf_ok, valueOf_of_ok hread, agentEnding_output]
    exact Ending.outcome_of_wellFormed hformed limit

theorem outcome_of_not_gives (hgives : ∀ v, ¬ Gives a.outputFormat text v) (model : String)
    (limit : Number) :
    ∃ message, (endingFrom a model (.ok text)).outcome limit = .failure .malformed message := by
  unfold endingFrom
  cases hformat : a.outputFormat with
  | text =>
    rw [hformat] at hgives
    have hformed : (Value.text text).isWellFormed ≠ true := fun hformed =>
      hgives _ (gives_text_iff.mpr ⟨rfl, hformed⟩)
    simp only [endingOf_ok, agentEnding_output]
    exact Ending.outcome_of_not_wellFormed hformed limit
  | json =>
    rw [hformat] at hgives
    cases hread : readValue text with
    | ok v =>
      have hformed : v.isWellFormed ≠ true := fun hformed =>
        hgives _ (gives_json_iff.mpr ⟨hread, hformed⟩)
      simp only [endingOf_ok, valueOf_of_ok hread, agentEnding_output]
      exact Ending.outcome_of_not_wellFormed hformed limit
    | error e =>
      simp only [endingOf_ok, valueOf_of_error hread]
      have hfailure := outcome_agentEnding (f := unreadableFault model text e) rfl a limit
      rw [failureKindOf_unreadableFault] at hfailure
      exact ⟨_, hfailure⟩

/-- An error of the service, or anything else that is raised on the way, is a failed
    invocation. -/
theorem outcome_of_error {e : ServiceError} (he : e ≠ .problem .cancelled) (a : Agent)
    (model : String) (limit : Number) :
    ∃ message, (endingFrom a model (.error e)).outcome limit = .failure .invocation message := by
  have hfailure := outcome_agentEnding (f := serviceFault model e) rfl a limit
  rw [failureKindOf_serviceFault] at hfailure
  unfold endingFrom
  rw [endingOf_error he]
  cases a.outputFormat with
  | text => exact ⟨_, hfailure⟩
  | json => exact ⟨_, hfailure⟩

/-! ### Replies and results -/

/-- An attempt gets a text before the limit strikes. -/
structure Hears (p : RetryPolicy) (replies : List Reply) (limit : Number) (k : Nat)
    (text : String) : Prop where
  makes : p.Makes replies k
  outcome : (replyAt replies k).outcome = .ok text
  inTime : limit.Allows (p.doneAt replies k)

/-- A result says what became of the replies: a value that one of them gave in time, or why
    there is none. -/
structure Classified (p : RetryPolicy) (replies : List Reply) (format : OutputFormat)
    (limit : Number) (r : AgentResult) : Prop where
  succeeded : r.succeeded = true ↔
    ∃ k text v, Hears p replies limit k text ∧ Gives format text v
  output : ∀ k text v, Hears p replies limit k text → Gives format text v → r.output = v
  failed : r.succeeded = false → r.errorKind = some .malformed ∨ r.errorKind = some .invocation ∨
    r.errorKind = some .timeout
  malformed : r.errorKind = some .malformed ↔
    ∃ k text, Hears p replies limit k text ∧ ∀ v, ¬ Gives format text v
  invocation : r.errorKind = some .invocation ↔
    ∃ k e, p.EndsWith replies k ∧ (replyAt replies k).outcome = .error e ∧
      limit.Allows (p.doneAt replies k)
  timeout : r.errorKind = some .timeout ↔
    ∃ k, p.EndsWith replies k ∧ ¬ limit.Allows (p.doneAt replies k)

section Last

variable {p : RetryPolicy} {replies : List Reply} {limit : Number} {last : Nat}
  (hlast : p.EndsWith replies last)
include hlast

theorem hears_iff {k : Nat} : Hears p replies limit k text ↔
    k = last ∧ (replyAt replies last).outcome = .ok text ∧
      limit.Allows (p.doneAt replies last) := by
  constructor
  · rintro ⟨hmakes, houtcome, hintime⟩
    cases hmakes.eq_of_text houtcome hlast
    exact ⟨rfl, houtcome, hintime⟩
  · rintro ⟨rfl, houtcome, hintime⟩
    exact ⟨hlast.toMakes, houtcome, hintime⟩

theorem endsWith_iff {k : Nat} : p.EndsWith replies k ↔ k = last := by
  constructor
  · intro hk
    exact hk.unique hlast
  · rintro rfl
    exact hlast

variable {format : OutputFormat} {r : AgentResult}

theorem classified_of_gives {v : Value} (houtcome : (replyAt replies last).outcome = .ok text)
    (hintime : limit.Allows (p.doneAt replies last)) (hgives : Gives format text v)
    (hr : r.error = none ∧ r.errorKind = none ∧ r.output = v) :
    Classified p replies format limit r := by
  obtain ⟨herror, hkind, houtput⟩ := hr
  have hsucceeded : r.succeeded = true := by simp [AgentResult.succeeded, herror]
  have hbad : ¬ ∀ w, ¬ Gives format text w := fun hnone => hnone v hgives
  constructor
  · refine iff_of_true hsucceeded ⟨last, text, v, ⟨hlast.toMakes, houtcome, hintime⟩, hgives⟩
  · intro k text' w hhears hgives'
    obtain ⟨-, houtcome', -⟩ := (hears_iff hlast).mp hhears
    cases houtcome.symm.trans houtcome'
    exact houtput.trans (hgives.unique hgives')
  · simp [hsucceeded]
  · simp [hears_iff hlast, hkind, houtcome, hbad]
  · simp [endsWith_iff hlast, hkind, houtcome]
  · simp [endsWith_iff hlast, hkind, hintime]

theorem classified_of_not_gives (houtcome : (replyAt replies last).outcome = .ok text)
    (hintime : limit.Allows (p.doneAt replies last)) (hgives : ∀ v, ¬ Gives format text v)
    (hfailed : r.succeeded = false) (hkind : r.errorKind = some .malformed) :
    Classified p replies format limit r := by
  constructor
  · simp [hears_iff hlast, hfailed, houtcome, hgives]
  · intro k text' v hhears hgives'
    obtain ⟨-, houtcome', -⟩ := (hears_iff hlast).mp hhears
    cases houtcome.symm.trans houtcome'
    exact absurd hgives' (hgives v)
  · simp [hkind]
  · simp [hears_iff hlast, hkind, houtcome, hintime, hgives]
  · simp [endsWith_iff hlast, hkind, houtcome]
  · simp [endsWith_iff hlast, hkind, hintime]

theorem classified_of_error {e : ServiceError}
    (houtcome : (replyAt replies last).outcome = .error e)
    (hintime : limit.Allows (p.doneAt replies last))
    (hfailed : r.succeeded = false) (hkind : r.errorKind = some .invocation) :
    Classified p replies format limit r := by
  constructor
  · simp [hears_iff hlast, hfailed, houtcome]
  · simp [hears_iff hlast, houtcome]
  · simp [hkind]
  · simp [hears_iff hlast, hkind, houtcome]
  · simp [endsWith_iff hlast, hkind, houtcome, hintime]
  · simp [endsWith_iff hlast, hkind, hintime]

theorem classified_of_late (hlate : ¬ limit.Allows (p.doneAt replies last))
    (hfailed : r.succeeded = false) (hkind : r.errorKind = some .timeout) :
    Classified p replies format limit r := by
  constructor
  · simp [hears_iff hlast, hfailed, hlate]
  · simp [hears_iff hlast, hlate]
  · simp [hkind]
  · simp [hears_iff hlast, hkind, hlate]
  · simp [endsWith_iff hlast, hkind, hlate]
  · simp [endsWith_iff hlast, hkind, hlate]

end Last

/-- What becomes of an agent that the service answers. -/
inductive Fate (p : RetryPolicy) (replies : List Reply) (format : OutputFormat)
    (limit : Number) : Outcome → Prop
  | answered {last : Nat} {text : String} {v : Value} (hlast : p.EndsWith replies last)
      (houtcome : (replyAt replies last).outcome = .ok text)
      (hintime : limit.Allows (p.doneAt replies last)) (hgives : Gives format text v) :
      Fate p replies format limit (.success v)
  | unusable {last : Nat} {text : String} (hlast : p.EndsWith replies last)
      (houtcome : (replyAt replies last).outcome = .ok text)
      (hintime : limit.Allows (p.doneAt replies last)) (hgives : ∀ v, ¬ Gives format text v)
      (message : String) : Fate p replies format limit (.failure .malformed message)
  | refused {last : Nat} {e : ServiceError} (hlast : p.EndsWith replies last)
      (houtcome : (replyAt replies last).outcome = .error e)
      (hintime : limit.Allows (p.doneAt replies last)) (message : String) :
      Fate p replies format limit (.failure .invocation message)
  | late {last : Nat} (hlast : p.EndsWith replies last)
      (hlate : ¬ limit.Allows (p.doneAt replies last)) (message : String) :
      Fate p replies format limit (.failure .timeout message)

theorem outcome_ne_cancelled {replies : List Reply}
    (hreplies : ∀ reply ∈ replies, reply.outcome ≠ .error (.problem .cancelled)) {k : Nat}
    {e : ServiceError} (houtcome : (replyAt replies k).outcome = .error e) :
    e ≠ .problem .cancelled := by
  rintro rfl
  unfold replyAt at houtcome
  cases hreply : replies[k]? with
  | none =>
    rw [hreply] at houtcome
    cases houtcome
  | some reply =>
    rw [hreply] at houtcome
    exact hreplies reply (List.mem_of_getElem? hreply) houtcome

theorem fate_callAgent {s : Settings} (hattempts : 1 ≤ s.retryAttempts) {replies : List Reply}
    (hreplies : ∀ reply ∈ replies, reply.outcome ≠ .error (.problem .cancelled))
    (synthesize : Bool) (a : Agent) (c : Context) (limit : Number) :
    Fate (policyOf s) replies a.outputFormat limit
      (((callAgent s synthesize a c replies).behaviour.stay limit).ending.outcome limit) := by
  have hpolicy : 1 ≤ (policyOf s).attempts := by
    show 1 ≤ s.retryAttempts.toNat
    omega
  obtain ⟨last, hlast, hspans⟩ := RetryPolicy.exchange_spec hpolicy replies
  obtain ⟨model, hbehaviour⟩ := callAgent_behaviour s synthesize a c replies
  rw [hspans.elapsed, hspans.outcome] at hbehaviour
  rw [hbehaviour]
  by_cases hintime : limit.Allows ((policyOf s).doneAt replies last)
  · rw [Behaviour.stay_ending_of_allows hintime]
    cases houtcome : (replyAt replies last).outcome with
    | error e =>
      obtain ⟨message, hfailure⟩ :=
        outcome_of_error (outcome_ne_cancelled hreplies houtcome) a model limit
      rw [hfailure]
      exact .refused hlast houtcome hintime message
    | ok text =>
      by_cases hgives : ∃ v, Gives a.outputFormat text v
      · obtain ⟨v, hgives⟩ := hgives
        rw [outcome_of_gives hgives]
        exact .answered hlast houtcome hintime hgives
      · have hnone : ∀ v, ¬ Gives a.outputFormat text v := fun v hv => hgives ⟨v, hv⟩
        obtain ⟨message, hfailure⟩ := outcome_of_not_gives hnone model limit
        rw [hfailure]
        exact .unusable hlast houtcome hintime hnone message
  · rw [Behaviour.stay_ending_of_not_allows hintime]
    exact .late hlast hintime _

section Fates

variable {p : RetryPolicy} {replies : List Reply} {format : OutputFormat} {limit : Number}
  {o : Outcome}

theorem Fate.ne_cancelled (ho : Fate p replies format limit o) : o ≠ .cancelled := by
  rintro rfl
  cases ho

theorem Fate.classified {t : Attempt} (ht : Fate p replies format limit t.outcome) (x : Executor)
    (tier : Int) (weight : Float) :
    Classified p replies format limit (x.resultOf tier weight t) := by
  generalize ho : t.outcome = o at ht
  cases ht with
  | answered hlast houtcome hintime hgives =>
    exact classified_of_gives hlast houtcome hintime hgives (Executor.resultOf_of_success ho x tier weight)
  | unusable hlast houtcome hintime hgives message =>
    obtain ⟨hfailed, hkind⟩ := Executor.resultOf_of_failure ho x tier weight
    exact classified_of_not_gives hlast houtcome hintime hgives hfailed hkind
  | refused hlast houtcome hintime message =>
    obtain ⟨hfailed, hkind⟩ := Executor.resultOf_of_failure ho x tier weight
    exact classified_of_error hlast houtcome hintime hfailed hkind
  | late hlast hlate message =>
    obtain ⟨hfailed, hkind⟩ := Executor.resultOf_of_failure ho x tier weight
    exact classified_of_late hlast hlate hfailed hkind

end Fates

end Service

/-! ### Agents in a tier -/

namespace Executor

variable {x : Executor} {p : TierPlan} {a : Agent}

/-- **Replies are classified end to end.**  An agent that the service answers has a result in
    its tier that says what became of the replies.  It succeeds exactly if an attempt that is
    made gets a text before the limit strikes that gives a value, and this value is its output;
    a text in time that gives none is malformed, an exchange that ends in an error in time is a
    failed invocation, and all else has timed out.  Colleagues must not take the tier with them
    or, where the first success wins, be first; an agent alone in its tier has none. -/
theorem runTier_replies_classified {settings : Settings} {synthesize : Bool}
    {replies : List Service.Reply} (hplaces : 1 ≤ x.places)
    (hnames : (p.agents.map Agent.name).Nodup) (hdeadline : p.deadline = none)
    (ha : a ∈ p.agents)
    (hserved : x.conduct a p.context 0 =
      (Service.callAgent settings synthesize a p.context replies).behaviour)
    (hattempts : 1 ≤ settings.retryAttempts)
    (hreplies : ∀ reply ∈ replies, reply.outcome ≠ .error (.problem .cancelled))
    (hothers : ∀ other ∈ p.agents, other.name ≠ a.name → x.outcomeFor p other ≠ .cancelled)
    (hrivals : p.rules.algorithm = .firstWins → ∀ other ∈ p.agents, other.name ≠ a.name →
      ∀ v, x.outcomeFor p other ≠ .success v) :
    ∃ e, (x.runTier p).ending = .evaluated e ∧ p.Answered e.results ∧
      ∃ r ∈ e.results, r.agentName = a.name ∧
        Service.Classified (Service.policyOf settings) replies a.outputFormat
          (x.timeoutFor a p.rules) r := by
  have hfate : Service.Fate (Service.policyOf settings) replies a.outputFormat
      (x.timeoutFor a p.rules) (x.outcomeFor p a) := by
    unfold outcomeFor
    rw [hserved]
    exact Service.fate_callAgent hattempts hreplies synthesize a p.context _
  have hcalm : x.CalmIn p := by
    apply calmIn_of_outcomeFor hplaces hnames
    intro other hother
    by_cases hname : other.name = a.name
    · cases List.inj_on_of_nodup_map hnames hother ha hname
      exact hfate.ne_cancelled
    · exact hothers other hother hname
  obtain ⟨e, hending, hanswered, t, houtcome, hname, hresult⟩ :=
    exists_result hplaces hnames hcalm hdeadline ha hrivals
  refine ⟨e, hending, hanswered, _, hresult, ?_, ?_⟩
  · rw [resultOf_agentName, hname]
  · rw [← houtcome] at hfate
    exact hfate.classified x _ _

end Executor

/-- An agent that is asked for a structured value. -/
def counter : Agent := { Agent.bare "counter" 1 with outputFormat := .json }

/-- It is asked together with a colleague. -/
def counting : TierPlan where
  agents := [counter, .bare "other" 1]
  context := Context.start (.text "count")
  rules := .default
  weights := []
  tier := 1
  start := .zero
  deadline := none

/-- Up to three requests are made. -/
def patientSettings : Settings where
  apiKey := "key"
  model := "model"
  maxTokens := 100
  temperature := 0.5
  logLevel := "INFO"
  logFormat := .console
  maxConcurrentAgents := 2
  agentTimeout := 60.0
  fleetDeadline := none
  retryAttempts := 3
  retryDelay := 1.0
  consensus := ⟨.majority, 1, 0.5⟩

/-- What it comes to in the end. -/
def counted : Value := .list [.text "one", .text "two"]

/-- The list between fences. -/
def fencedList : String :=
  String.ofList (Service.ownLines.around (counted.write .canonical).toList)

/-- The service cannot be reached at first and then gives the list. -/
def countingReplies : List Service.Reply :=
  [⟨2, .error (.unreachable "no route")⟩, ⟨3, .ok fencedList⟩]

def counters : Executor where
  conduct a c _ :=
    if a.name = "counter" then
      (Service.callAgent patientSettings false a c countingReplies).behaviour
    else ⟨1, .raised (.other "OSError" "gone"), none⟩
  places := 2
  defaultTimeout := .whole 60
  epoch := ⟨0, some 0⟩

theorem counting_hears : Service.Hears (Service.policyOf patientSettings) countingReplies
    (.whole 60) 1 fencedList := by
  have hmakes : (Service.policyOf patientSettings).Makes countingReplies 1 := by
    have hfirst : (Service.policyOf patientSettings).Makes countingReplies 0 :=
      Service.RetryPolicy.Makes.zero (by decide)
    exact hfirst.succ rfl rfl (by decide)
  refine ⟨hmakes, rfl, ?_⟩
  intro l hl
  cases hl
  obtain ⟨-, hwait⟩ := (Service.policyOf patientSettings).waitAfter_bounds 1
  have hdone : (Service.policyOf patientSettings).doneAt countingReplies 1 =
      0 + 2 + (Service.policyOf patientSettings).waitAfter 1 + 3 := rfl
  rw [hdone]
  constructor
  · norm_num
  · norm_num
    linarith

theorem counting_gives : Service.Gives .json fencedList counted := by
  have hkeyed : counted.WellKeyed := by
    refine .list fun v hv => ?_
    simp only [List.mem_cons, List.not_mem_nil, or_false] at hv
    rcases hv with rfl | rfl <;> exact .text _
  have hlegible : counted.AllDoubles Value.Legible := by
    refine .list fun v hv => ?_
    simp only [List.mem_cons, List.not_mem_nil, or_false] at hv
    rcases hv with rfl | rfl <;> exact .text _
  have hnumbers : Value.Form.canonical.numbers = Decimal.Style.json := rfl
  have hpayload : Service.IsPayload (counted.write .canonical).toList := by
    rw [Value.write, String.toList_ofList]
    exact Value.isPayload_chars hnumbers hlegible 0
  refine .list ?_
  rw [Service.readValue, fencedList, Service.unfenced_around Service.ownLines hpayload,
    String.ofList_toList]
  exact Value.read_write hnumbers rfl hkeyed hlegible

theorem counting_classified :
    (1 ≤ counters.places ∧ (counting.agents.map Agent.name).Nodup ∧ counting.deadline = none ∧
      counter ∈ counting.agents ∧
      counters.conduct counter counting.context 0 =
        (Service.callAgent patientSettings false counter counting.context
          countingReplies).behaviour ∧
      1 ≤ patientSettings.retryAttempts ∧
      (∀ reply ∈ countingReplies, reply.outcome ≠ .error (.problem .cancelled)) ∧
      (∀ other ∈ counting.agents, other.name ≠ counter.name →
        counters.outcomeFor counting other ≠ .cancelled) ∧
      (counting.rules.algorithm = .firstWins → ∀ other ∈ counting.agents,
        other.name ≠ counter.name → ∀ v, counters.outcomeFor counting other ≠ .success v)) ∧
    ∃ e, (counters.runTier counting).ending = .evaluated e ∧ counting.Answered e.results ∧
      ∃ r ∈ e.results, r.agentName = counter.name ∧
        Service.Classified (Service.policyOf patientSettings) countingReplies
          counter.outputFormat (counters.timeoutFor counter counting.rules) r ∧
        r.succeeded = true ∧ r.output = counted := by
  have hcounter : counter ∈ counting.agents := List.mem_cons_self
  have hserved : counters.conduct counter counting.context 0 =
      (Service.callAgent patientSettings false counter counting.context
        countingReplies).behaviour := rfl
  have hreplies : ∀ reply ∈ countingReplies, reply.outcome ≠ .error (.problem .cancelled) := by
    simp [countingReplies]
  have hother : ∀ other ∈ counting.agents, other.name ≠ counter.name →
      counters.outcomeFor counting other =
        .failure .invocation (Problem.other "OSError" "gone").summary := by
    intro other hmem hname
    simp only [counting, List.mem_cons, List.not_mem_nil, or_false] at hmem
    rcases hmem with rfl | rfl
    · exact absurd rfl hname
    · rfl
  have hothers : ∀ other ∈ counting.agents, other.name ≠ counter.name →
      counters.outcomeFor counting other ≠ .cancelled := by
    intro other hmem hname
    rw [hother other hmem hname]
    nofun
  have hrivals : counting.rules.algorithm = .firstWins → ∀ other ∈ counting.agents,
      other.name ≠ counter.name → ∀ v, counters.outcomeFor counting other ≠ .success v := by
    intro _ other hmem hname v
    rw [hother other hmem hname]
    nofun
  obtain ⟨e, hending, hanswered, r, hr, hname, hclassified⟩ :=
    Executor.runTier_replies_classified (by decide) (by decide) rfl hcounter hserved (by decide)
      hreplies hothers hrivals
  refine ⟨⟨by decide, by decide, rfl, hcounter, hserved, by decide, hreplies, hothers, hrivals⟩,
    e, hending, hanswered, r, hr, hname, hclassified, ?_, ?_⟩
  · exact hclassified.succeeded.mpr ⟨1, _, _, counting_hears, counting_gives⟩
  · exact hclassified.output 1 _ _ counting_hears counting_gives

end Quorum
