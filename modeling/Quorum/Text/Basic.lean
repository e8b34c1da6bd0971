/-
  Quorum/Text/Basic.lean
  ======================
  **Characters and texts: blanks, code points, line ends, digits of every script, likeness.**
-/

namespace Quorum.Text

/-! ### Blank characters and trimming

Two classes are in use.  `isBlank` decides whether an agent said anything and what is
stripped from prompts and replies; it counts the four information separators
(U+001C to U+001F) as blank.  `isWhite` is the Unicode property White_Space, without
them; it is what surrounds a number in a checked field. -/

/-- The Unicode property White_Space. -/
def isWhite (c : Char) : Bool :=
  let n := c.toNat
  (9 ≤ n && n ≤ 13) || n == 32 || n == 0x85 || n == 0xA0 || n == 0x1680
    || (0x2000 ≤ n && n ≤ 0x200A) || n == 0x2028 || n == 0x2029 || n == 0x202F
    || n == 0x205F || n == 0x3000

def isBlank (c : Char) : Bool := isWhite c || (0x1C ≤ c.toNat && c.toNat ≤ 0x1F)

def trimStart (p : Char → Bool) (cs : List Char) : List Char := cs.dropWhile p

def trimEnd (p : Char → Bool) (cs : List Char) : List Char := (cs.reverse.dropWhile p).reverse

def trim (p : Char → Bool) (cs : List Char) : List Char := trimEnd p (trimStart p cs)

/-- Nothing is left of a text when its blanks are stripped. -/
def allBlank (s : String) : Bool := s.toList.all isBlank

/-! ### Code points -/

/-- The character of a code point.  Half of a surrogate pair has none if it stands alone; it is
    kept as one of the last private plane, so that texts that differ in it stay different. -/
def ofCode (code : Nat) : Char :=
  if 0xD800 ≤ code ∧ code < 0xE000 then Char.ofNat (0x100000 + code) else Char.ofNat code

/-! ### Line ends

A text file may end its lines in three ways.  When it is read, they become one. -/

/-- Every line end, a carriage return with or without a line feed, becomes a line feed. -/
def unifiedLineEnds : List Char → List Char
  | '\r' :: '\n' :: rest => '\n' :: unifiedLineEnds rest
  | '\r' :: rest => '\n' :: unifiedLineEnds rest
  | c :: rest => c :: unifiedLineEnds rest
  | [] => []

def ofFile (s : String) : String := String.ofList (unifiedLineEnds s.toList)

/-! ### Decimal digits of every script

Each script that has decimal digits has ten of them in a row, so the code points of the
zeros describe the class (Unicode 14). -/

/-- The code points of the digits zero. -/
def zeroDigits : List Nat := [
  48, 1632, 1776, 1984, 2406, 2534, 2662, 2790, 2918, 3046, 3174, 3302, 3430, 3558, 3664, 3792,
   3872, 4160, 4240, 6112, 6160, 6470, 6608, 6784, 6800, 6992, 7088, 7232, 7248, 42528, 43216,
   43264, 43472, 43504, 43600, 44016, 65296, 66720, 68912, 69734, 69872, 69942, 70096, 70384,
   70736, 70864, 71248, 71360, 71472, 71904, 72016, 72784, 73040, 73120, 92768, 92864, 93008,
   120782, 120792, 120802, 120812, 120822, 123200, 123632, 125264, 130032]

def decimalDigit? (c : Char) : Option Nat :=
  if c.isDigit then some (c.toNat - 48)
  else if c.toNat < 128 then none
  else
    match zeroDigits.find? fun z => decide (z ≤ c.toNat) && decide (c.toNat < z + 10) with
    | some z => some (c.toNat - z)
    | none => none

/-! ### Texts that look alike

Two texts are compared by the longest block of characters they share, then in the same
way by what lies on its left and on its right.  Texts are similar if the blocks make up
at least three fifths of both together.  Suggestions for a misspelt word are the three
candidates most similar to it. -/

/-- A block of characters shared by two texts: where it starts in each, and its length. -/
structure SharedBlock where
  left : Nat
  right : Nat
  length : Nat
deriving DecidableEq, Repr

/-- The number of characters at which two texts begin alike. -/
def commonStart : List Char → List Char → Nat
  | a :: as, b :: bs => if a == b then commonStart as bs + 1 else 0
  | _, _ => 0

/-- The first of the longest blocks shared by two texts: first in the left one, then in the
    right one. -/
def longestBlock (as bs : List Char) : SharedBlock :=
  let starts := (List.range as.length).flatMap fun i => (List.range bs.length).map fun j => (i, j)
  starts.foldl (fun best (i, j) =>
    let length := commonStart (as.drop i) (bs.drop j)
    if best.length < length then ⟨i, j, length⟩ else best) ⟨0, 0, 0⟩

def sharedCount (as bs : List Char) : Nat :=
  match longestBlock as bs with
  | ⟨left, right, length⟩ =>
    if _ : 0 < length ∧ left + length ≤ as.length then
      sharedCount (as.take left) (bs.take right) + length
        + sharedCount (as.drop (left + length)) (bs.drop (right + length))
    else 0
termination_by as.length
decreasing_by
  · simp only [List.length_take]; omega
  · simp only [List.length_drop]; omega

/-- The part of both texts together that lies in shared blocks. -/
def similarity (candidate word : String) : Rat :=
  let size := candidate.length + word.length
  if size = 0 then 1 else mkRat (2 * sharedCount candidate.toList word.toList) size

/-- One scored candidate comes before another: it is more similar, or equally so and later in
    the order of texts. -/
def isCloser (a b : Rat × String) : Bool :=
  decide (b.1 < a.1) || (a.1 == b.1 && decide (b.2 ≤ a.2))

/-- The candidates most similar to a word, at most three, the closest first. -/
def closeMatches (word : String) (candidates : List String) : List String :=
  let scored := candidates.map fun c => (similarity c word, c)
  let similar := scored.filter fun (score, _) => decide (mkRat 3 5 ≤ score)
  ((similar.mergeSort isCloser).take 3).map Prod.snd

end Quorum.Text
