/-
  Quorum/Proofs/Service/Script.lean
  =================================
  **An exchange along a script.**

  A script says what the service does with each attempt, however many are made.  An outcome is
  final if it is an answer or an error that will not pass (`IsFinal`).  The attempts of a
  completion are those up to the first final outcome, as far as the settings allow
  (`last_of_firstFinal`); the last one decides what the completion comes to, and between two
  attempts lies the wait of the settings (`completeText_concludes`).
-/
import Quorum.Proofs.Service.Answers
import Quorum.Service.Content

namespace Quorum

namespace Service

/-! ### Final outcomes -/

/-- What the service does with each attempt, attempts counted from zero. -/
abbrev Script := Nat → Response

/-- Nothing is tried after the outcome: it is an answer, or an error that will not pass. -/
def IsFinal (outcome : Except ServiceError (List ContentBlock)) : Prop :=
  ∀ e, outcome = .error e → e.isTransient = false

theorem not_isFinal {outcome : Except ServiceError (List ContentBlock)} :
    ¬IsFinal outcome ↔ ∃ e, outcome = .error e ∧ e.isTransient = true := by
  simp [IsFinal]

/-- The first final outcome of a script has so many before it. -/
structure FirstFinal (script : Script) (k : Nat) : Prop where
  final : IsFinal (script k).outcome
  passing : ∀ i < k, ¬IsFinal (script i).outcome

theorem reply_outcome_ok {r : Response} {blocks : List ContentBlock} (h : r.outcome = .ok blocks) :
    r.reply.outcome = .ok (contentText blocks) := by
  rw [Response.reply, h]
  rfl

theorem reply_outcome_error {r : Response} {e : ServiceError} :
    r.reply.outcome = .error e ↔ r.outcome = .error e := by
  unfold Response.reply
  cases r.outcome <;> simp [Except.map]

/-- Replies follow a script for a number of attempts. -/
def Follows (script : Script) (n : Nat) (replies : List Reply) : Prop :=
  ∀ i < n, replyAt replies i = (script i).reply

/-- Every script can be followed for any number of attempts. -/
theorem follows_range (script : Script) (n : Nat) :
    Follows script n ((List.range n).map fun i => (script i).reply) := by
  intro i hi
  simp [replyAt, hi]

/-! ### The last attempt -/

section Last

variable {p : RetryPolicy} {script : Script} {replies : List Reply} {last : Nat}
  (hfollows : Follows script p.attempts replies) (hlast : p.EndsWith replies last)
include hfollows hlast

/-- Before the last attempt nothing was final. -/
theorem not_isFinal_before {i : Nat} (hi : i < last) : ¬IsFinal (script i).outcome := by
  obtain ⟨e, houtcome, htransient⟩ := hlast.passing i hi
  rw [hfollows i (hi.trans hlast.allowed)] at houtcome
  exact not_isFinal.mpr ⟨e, reply_outcome_error.mp houtcome, htransient⟩

/-- The last attempt is final, or no other is allowed. -/
theorem isFinal_or_spent : IsFinal (script last).outcome ∨ last + 1 = p.attempts := by
  by_cases hfinal : IsFinal (script last).outcome
  · exact .inl hfinal
  · right
    obtain ⟨e, houtcome, htransient⟩ := not_isFinal.mp hfinal
    refine hlast.final e ?_ htransient
    rw [hfollows last hlast.allowed]
    exact reply_outcome_error.mpr houtcome

/-- The attempts go up to the first final outcome, if so many are allowed. -/
theorem last_of_firstFinal {k : Nat} (hk : FirstFinal script k) :
    last + 1 = min (k + 1) p.attempts := by
  have hallowed := hlast.allowed
  have hle : last ≤ k := by
    by_contra hlt
    exact not_isFinal_before hfollows hlast (not_le.mp hlt) hk.final
  rcases isFinal_or_spent hfollows hlast with hfinal | hspent
  · have hge : k ≤ last := by
      by_contra hlt
      exact hk.passing last (not_le.mp hlt) hfinal
    omega
  · omega

theorem last_of_none_final (hnone : ∀ k, ¬IsFinal (script k).outcome) : last + 1 = p.attempts :=
  (isFinal_or_spent hfollows hlast).resolve_left (hnone last)

/-- An answer at the last attempt is the first final outcome. -/
theorem firstFinal_of_answer {blocks : List ContentBlock}
    (houtcome : (script last).outcome = .ok blocks) : FirstFinal script last where
  final := by
    intro e he
    rw [houtcome] at he
    cases he
  passing := fun _ hi => not_isFinal_before hfollows hlast hi

end Last

/-! ### Waits -/

/-- The wait doubles each time, but it is no less than one second and no more than ten. -/
theorem waitAfter_eq (p : RetryPolicy) (j : Nat) :
    p.waitAfter (j + 1) = max 1 (min (p.delay * 2 ^ j) 10) := by
  have hpower : Rat.pow 2 j = (2 : Rat) ^ j := rfl
  unfold RetryPolicy.waitAfter
  simp only [Nat.add_sub_cancel, hpower]
  split
  · rename_i hshort
    rw [min_eq_left (by linarith), max_eq_left hshort]
  · rename_i hlong
    split
    · rename_i hmiddle
      rw [min_eq_left hmiddle, max_eq_right (not_le.mp hlong).le]
    · rename_i hlonger
      rw [min_eq_right (not_le.mp hlonger).le, max_eq_right (by norm_num)]

/-! ### Completions -/

/-- The requests of a completion, with the times at which they are made. -/
def Completion.requests (c : Completion) : List (Rat × Request) :=
  c.times.map fun t => (t, c.request)

/-- The fault reports an error of the service. -/
structure Reports (model : String) (e : ServiceError) (f : Fault) : Prop where
  kind : f.kind = .languageModel
  message : f.message = s!"Claude API error: {e.text}"
  model : f.detail "model" = .text model
  statusCode : f.detail "status_code" = match e with
    | .status code _ => .int code
    | _ => .null

theorem serviceFault_reports (model : String) (e : ServiceError) :
    Reports model e (serviceFault model e) where
  kind := rfl
  message := rfl
  model := rfl
  statusCode := by cases e <;> rfl

/-- What a completion along a script comes to. -/
structure Concludes (s : Settings) (ask : Ask) (script : Script) (c : Completion) : Prop where
  /-- Requests are made up to the first final outcome, if so many are allowed. -/
  stops : ∀ k, FirstFinal script k → c.requests.length = min (k + 1) s.retryAttempts.toNat
  /-- Without a final outcome all requests are made that are allowed. -/
  persists : (∀ k, ¬IsFinal (script k).outcome) → c.requests.length = s.retryAttempts.toNat
  /-- All requests are the same. -/
  requests : ∀ r ∈ c.requests, r.2 = ask.request s
  /-- An answer that is reached gives its text. -/
  answer : ∀ k blocks, FirstFinal script k → k < s.retryAttempts.toNat →
    (script k).outcome = .ok blocks → c.ending = .output (.text (contentText blocks))
  /-- Without one, the last outcome that was tried is an error, and it is the one reported. -/
  failure : (¬∃ k blocks, FirstFinal script k ∧ k < s.retryAttempts.toNat ∧
      (script k).outcome = .ok blocks) →
    ∃ e f, (script (c.requests.length - 1)).outcome = .error e ∧ c.ending = .raised (.fault f) ∧
      Reports (ask.request s).model e f
  /-- The wait before a further request begins when the service is done with the one before. -/
  waits : ∀ j (hj : j + 1 < c.requests.length), (c.requests[j + 1]).1 =
    (c.requests[j]).1 + (script j).delay + max 1 (min (exactDelay s.retryDelay * 2 ^ j) 10)

/-- **Requests are repeated up to the first final outcome.**  Along any script whose outcomes
    are no cancellations a completion makes the same request again and again until an outcome
    is final or no other request is allowed.  If an answer was reached, its text is what the
    completion gives; otherwise a fault reports the last outcome that was tried, with its
    status if it has one.  Between two requests lies the wait of the settings. -/
theorem completeText_concludes {s : Settings} (hattempts : 1 ≤ s.retryAttempts) (ask : Ask)
    {script : Script} (hscript : ∀ i, (script i).outcome ≠ .error (.problem .cancelled))
    {replies : List Reply} (hfollows : Follows script s.retryAttempts.toNat replies) :
    Concludes s ask script (completeText s ask replies) := by
  have hpolicy : 1 ≤ (policyOf s).attempts := by
    show 1 ≤ s.retryAttempts.toNat
    omega
  have hfollows : Follows script (policyOf s).attempts replies := hfollows
  obtain ⟨last, hlast, hspans⟩ := RetryPolicy.exchange_spec hpolicy replies
  generalize hc : completeText s ask replies = c
  have htimes : c.times = (List.range' 0 (last + 1)).map ((policyOf s).startAt replies) := by
    rw [← hc]
    exact hspans.times
  have hending : c.ending = endingOf (ask.request s).model (replyAt replies last).outcome := by
    rw [← hc, ← hspans.outcome]
    rfl
  have hrequest : c.request = ask.request s := by
    rw [← hc]
    rfl
  have hlength : c.requests.length = last + 1 := by simp [Completion.requests, htimes]
  rw [hfollows last hlast.allowed] at hending
  have hanswered : ∀ k blocks, FirstFinal script k → k < s.retryAttempts.toNat →
      (script k).outcome = .ok blocks → last = k := by
    intro k blocks hk hallowed _
    have hmin := last_of_firstFinal hfollows hlast hk
    have hattempts : (policyOf s).attempts = s.retryAttempts.toNat := rfl
    omega
  constructor
  case stops =>
    intro k hk
    rw [hlength]
    exact last_of_firstFinal hfollows hlast hk
  case persists =>
    intro hnone
    rw [hlength]
    exact last_of_none_final hfollows hlast hnone
  case requests =>
    intro r hr
    obtain ⟨t, -, rfl⟩ := List.mem_map.mp hr
    exact hrequest
  case answer =>
    intro k blocks hk hallowed houtcome
    obtain rfl := hanswered k blocks hk hallowed houtcome
    rw [hending, reply_outcome_ok houtcome]
    rfl
  case failure =>
    intro hunanswered
    rw [hlength, Nat.add_sub_cancel]
    cases houtcome : (script last).outcome with
    | ok blocks =>
      have hfirst := firstFinal_of_answer hfollows hlast houtcome
      exact absurd ⟨last, blocks, hfirst, hlast.allowed, houtcome⟩ hunanswered
    | error e =>
      refine ⟨e, serviceFault (ask.request s).model e, rfl, ?_, serviceFault_reports _ e⟩
      rw [hending, reply_outcome_error.mpr houtcome]
      have hother : e ≠ .problem .cancelled := by
        rintro rfl
        exact hscript last houtcome
      exact endingOf_error hother _
  case waits =>
    intro j hj
    rw [hlength] at hj
    have hmade : j < (policyOf s).attempts := by
      have hallowed := hlast.allowed
      omega
    simp only [Completion.requests, htimes, List.getElem_map, List.getElem_range', Nat.zero_add,
      Nat.one_mul]
    rw [RetryPolicy.startAt, hfollows j hmade, waitAfter_eq]
    rfl

end Service

/-- The service is out of reach, then asks for patience, then answers in two pieces. -/
def bumpyScript : Service.Script
  | 0 => ⟨2, .error (.unreachable "no route")⟩
  | 1 => ⟨1, .error (.status 429 "slow down")⟩
  | _ => ⟨3, .ok [.ofText "solved", ⟨some "thinking", "well"⟩, .ofText " it"]⟩

/-- The third request is the last that is allowed, and its answer is given without what was
    thought in between. -/
theorem bumpy_concludes :
    (1 ≤ patientSettings.retryAttempts ∧
      (∀ i, (bumpyScript i).outcome ≠ .error (.problem .cancelled)) ∧
      Service.Follows bumpyScript patientSettings.retryAttempts.toNat
        ((List.range 3).map fun i => (bumpyScript i).reply)) ∧
    let c := Service.completeText patientSettings ⟨"sys", "user", none, none, none⟩
      ((List.range 3).map fun i => (bumpyScript i).reply)
    c.requests.length = 3 ∧ c.ending = .output (.text "solved it") := by
  have hscript : ∀ i, (bumpyScript i).outcome ≠ .error (.problem .cancelled)
    | 0 => nofun
    | 1 => nofun
    | _ + 2 => nofun
  have hfirst : Service.FirstFinal bumpyScript 2 := by
    constructor
    · exact fun e he => nomatch he
    · intro i hi
      rw [Service.not_isFinal]
      interval_cases i
      · exact ⟨_, rfl, rfl⟩
      · exact ⟨_, rfl, rfl⟩
  have hfollows : Service.Follows bumpyScript patientSettings.retryAttempts.toNat
      ((List.range 3).map fun i => (bumpyScript i).reply) := Service.follows_range bumpyScript 3
  have hconcludes := Service.completeText_concludes (s := patientSettings) (by decide)
    ⟨"sys", "user", none, none, none⟩ hscript hfollows
  have hallowed : 2 < patientSettings.retryAttempts.toNat := by decide
  refine ⟨⟨by decide, hscript, hfollows⟩, hconcludes.stops 2 hfirst, ?_⟩
  rw [hconcludes.answer 2 _ hfirst hallowed rfl]
  rfl

end Quorum
