/-
  Quorum/Check/Issue.lean
  =======================
  **What is wrong with a field.**

  A check either gives a well-typed result or the list of all issues it met, in the order
  of the fields.  Every issue has a place, a code and a wording.
-/
import Quorum.Document.Datum

namespace Quorum

/-- The causes for which a field is refused. -/
inductive IssueCause where
  | missing
  | textExpected
  | textUnreadable
  | textTooShort
  | integerExpected
  | integerFractional
  | integerUnreadable
  | integerTooLarge
  | numberNotFinite
  | numberExpected
  | numberUnreadable
  | truthExpected
  | truthUnreadable
  | notAMember (names : List String)
  | below (bound : Nat)
  | above (bound : Nat)
  | notAbove (bound : Nat)
  | mappingExpected
  | listExpected
  | listTooShort
  | recordExpected (record : String)
  | timestampExpected
  | timestampUnreadable (problem : DateProblem)
  | refused (reason : String)
deriving Repr

/-- Names between quotes, the last one joined by "or". -/
def listNames : List String → String
  | [] => ""
  | [n] => s!"'{n}'"
  | [n, m] => s!"'{n}' or '{m}'"
  | n :: rest => s!"'{n}', {listNames rest}"

namespace IssueCause

def message : IssueCause → String
  | .missing => "Field required"
  | .textExpected => "Input should be a valid string"
  | .textUnreadable => "Input should be a valid string, unable to parse raw data as a unicode string"
  | .textTooShort => "String should have at least 1 character"
  | .integerExpected => "Input should be a valid integer"
  | .integerFractional => "Input should be a valid integer, got a number with a fractional part"
  | .integerUnreadable => "Input should be a valid integer, unable to parse string as an integer"
  | .integerTooLarge => "Unable to parse input string as an integer, exceeded maximum size"
  | .numberNotFinite => "Input should be a finite number"
  | .numberExpected => "Input should be a valid number"
  | .numberUnreadable => "Input should be a valid number, unable to parse string as a number"
  | .truthExpected => "Input should be a valid boolean"
  | .truthUnreadable => "Input should be a valid boolean, unable to interpret input"
  | .notAMember names => s!"Input should be {listNames names}"
  | .below bound => s!"Input should be greater than or equal to {bound}"
  | .above bound => s!"Input should be less than or equal to {bound}"
  | .notAbove bound => s!"Input should be greater than {bound}"
  | .mappingExpected => "Input should be a valid dictionary"
  | .listExpected => "Input should be a valid list"
  | .listTooShort => "List should have at least 1 item after validation, not 0"
  | .recordExpected record => s!"Input should be a valid dictionary or instance of {record}"
  | .timestampExpected => "Input should be a valid datetime"
  | .timestampUnreadable problem => s!"Input should be a valid datetime or date, {problem.message}"
  | .refused reason => s!"Value error, {reason}"

def code : IssueCause → String
  | .missing => "missing"
  | .textExpected => "string_type"
  | .textUnreadable => "string_unicode"
  | .textTooShort => "string_too_short"
  | .integerExpected => "int_type"
  | .integerFractional => "int_from_float"
  | .integerUnreadable => "int_parsing"
  | .integerTooLarge => "int_parsing_size"
  | .numberNotFinite => "finite_number"
  | .numberExpected => "float_type"
  | .numberUnreadable => "float_parsing"
  | .truthExpected => "bool_type"
  | .truthUnreadable => "bool_parsing"
  | .notAMember _ => "enum"
  | .below _ => "greater_than_equal"
  | .above _ => "less_than_equal"
  | .notAbove _ => "greater_than"
  | .mappingExpected => "dict_type"
  | .listExpected => "list_type"
  | .listTooShort => "too_short"
  | .recordExpected _ => "model_type"
  | .timestampExpected => "datetime_type"
  | .timestampUnreadable _ => "datetime_from_date_parsing"
  | .refused _ => "value_error"

end IssueCause

/-- An issue: its place, outermost step first, and its cause. -/
structure Issue where
  place : List String
  cause : IssueCause
deriving Repr

def Issue.inside (step : String) (i : Issue) : Issue := { i with place := step :: i.place }

/-- A checked result, or all the issues in its way. -/
abbrev Checked (α : Type) := Except (List Issue) α

namespace Checked

variable {α β : Type}

def fail (cause : IssueCause) : Checked α := .error [⟨[], cause⟩]

def inside (step : String) (c : Checked α) : Checked α := c.mapError (·.map (Issue.inside step))

def build (f : α) : Checked α := .ok f

/-- Apply a checked function to a checked argument; the issues of both are kept. -/
def apply (f : Checked (α → β)) (x : Checked α) : Checked β :=
  match f, x with
  | .ok f, .ok x => .ok (f x)
  | .ok _, .error e => .error e
  | .error e, .ok _ => .error e
  | .error e, .error e' => .error (e ++ e')

/-- Check every item of a list; the issues of all items are kept. -/
def all (check : Nat → α → Checked β) : Nat → List α → Checked (List β)
  | _, [] => .ok []
  | i, x :: rest => ((build List.cons).apply (check i x)).apply (all check (i + 1) rest)

end Checked

end Quorum
