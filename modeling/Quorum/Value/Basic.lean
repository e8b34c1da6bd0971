/-
  Quorum/Value/Basic.lean
  =======================
  **Values: what agents return and what tasks and reports hold.**

  A value is null, a truth value, a whole number of any size, a double, a text, a list or
  an object.  Whole numbers and doubles are different kinds: `1` and `1.0` are two values.
  Objects keep their entries in order; writing an entry under a key that is there
  replaces the value and keeps the place.
-/
import Quorum.Decimal.Numeral
import Quorum.Vocabulary

namespace Quorum

inductive Value where
  | null
  | bool (b : Bool)
  | int (i : Int)
  | float (x : Float)
  | text (s : String)
  | list (items : List Value)
  | object (entries : List (String × Value))

namespace Value

instance : Inhabited Value := ⟨.null⟩

def isNull : Value → Bool
  | .null => true
  | _ => false

def get? (key : String) : Value → Option Value
  | .object entries => entries.lookup key
  | _ => none

def kindName : Value → String
  | .null => "NoneType"
  | .bool _ => "bool"
  | .int _ => "int"
  | .float _ => "float"
  | .text _ => "str"
  | .list _ => "list"
  | .object _ => "dict"

end Value

/-! ### Ordered entries -/

namespace Entries

variable {α : Type}

/-- Write an entry: in place if the key is there, at the end otherwise. -/
def insert (key : String) (value : α) : List (String × α) → List (String × α)
  | [] => [(key, value)]
  | (k, v) :: rest => if k == key then (key, value) :: rest else (k, v) :: insert key value rest

/-- Write several entries one after the other. -/
def insertAll (entries : List (String × α)) (added : List (String × α)) : List (String × α) :=
  added.foldl (fun es (k, v) => insert k v es) entries

/-- Entries with one value per key: the place of the first, the value of the last. -/
def ofList (entries : List (String × α)) : List (String × α) := insertAll [] entries

def keys (entries : List (String × α)) : List String := entries.map Prod.fst

end Entries

/-! ### Numbers as they were given: whole, or doubles -/

/-- A number as it was given. -/
inductive Number where
  | whole (n : Int)
  | double (x : Float)

namespace Number

def toValue : Number → Value
  | .whole n => .int n
  | .double x => .float x

def text : Number → String
  | .whole n => Decimal.generalText (Decimal.floatOfInt n)
  | .double x => Decimal.generalText x

/-- The number is zero, of either sign. -/
def isZero : Number → Bool
  | .whole n => n == 0
  | .double x => x == 0.0

/-- The exact number, if it is finite. -/
def toRat? : Number → Option Rat
  | .whole n => some n
  | .double x => Decimal.exactValue? x

/-- The number as a limit of time in seconds: none if it lets everything pass.  What is no
    number strikes at once. -/
def limit? : Number → Option Rat
  | .whole n => some n
  | .double x => (Decimal.exactValue? x).orElse fun _ => if 0.0 < x then none else some 0

end Number

end Quorum

namespace Quorum.Value

/-! ### Values made from members of vocabularies, options and lists of texts -/

def named {α : Type} [Named α] (a : α) : Value := .text (Named.name a)

def ofOption {α : Type} (f : α → Value) : Option α → Value
  | none => .null
  | some a => f a

def texts (ss : List String) : Value := .list (ss.map .text)

end Quorum.Value
