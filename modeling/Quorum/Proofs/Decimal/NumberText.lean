/-
  Quorum/Proofs/Decimal/NumberText.lean
  =====================================
  **The characters of number texts.**

  The text of a double inside a canonical key is a sign and a laid out decimal, or one of
  three words.  It begins like a number text, none of its characters ends an item of a list
  or an entry of an object, and one of them never stands in a whole number: a point, the
  mark of an exponent or a letter (`write_json_spec`).  The text of a whole number has
  digits and perhaps a minus only, and determines the number.
-/
import Mathlib
import Quorum.Decimal.Style

namespace Quorum.Decimal

/-! ### Classes of characters -/

/-- What the text of a whole number is made of. -/
def isWholeChar (c : Char) : Bool := c.isDigit || c == '-'

/-- What ends an item of a list or an entry of an object. -/
def isDelimiter (c : Char) : Bool := c == ',' || c == ']' || c == '}'

/-- How number texts begin: with a digit, with a minus, or as one of the words for doubles
    that are no finite number. -/
def beginsNumber (c : Char) : Bool := isWholeChar c || c == 'N' || c == 'I'

theorem not_isDelimiter_of_isDigit {c : Char} (h : c.isDigit = true) : isDelimiter c = false := by
  have hne : ∀ d : Char, d.isDigit = false → c ≠ d := fun d hd heq => by
    rw [heq, hd] at h
    exact Bool.false_ne_true h
  simp [isDelimiter, hne ',' (by decide), hne ']' (by decide), hne '}' (by decide)]

/-! ### Whole numbers -/

theorem isDigit_of_mem_digitChars {n : Nat} {c : Char} (h : c ∈ digitChars n) :
    c.isDigit = true :=
  Nat.isDigit_of_mem_toDigits (by decide) (by decide) h

theorem isDigit_of_mem_zeros {n : Nat} : ∀ c ∈ List.replicate n '0', c.isDigit = true := by
  intro c hc
  rw [List.eq_of_mem_replicate hc]
  decide

theorem digitChars_ne_nil (n : Nat) : digitChars n ≠ [] := Nat.toDigits_ne_nil

/-- A whole number is written as its digits, behind a minus if it is negative. -/
theorem toList_toString_int (i : Int) :
    (toString i).toList = digitChars i.natAbs ∨ (toString i).toList = '-' :: digitChars i.natAbs := by
  cases i with
  | ofNat n =>
    left
    exact Nat.toList_repr
  | negSucc n =>
    right
    show ("-" ++ (n + 1).repr).toList = '-' :: digitChars (n + 1)
    rw [String.toList_append, Nat.toList_repr]
    rfl

theorem isWholeChar_of_mem_toString {i : Int} {c : Char} (h : c ∈ (toString i).toList) :
    isWholeChar c = true := by
  rcases toList_toString_int i with hi | hi
  · rw [hi] at h
    simp [isWholeChar, isDigit_of_mem_digitChars h]
  · rw [hi, List.mem_cons] at h
    rcases h with rfl | h
    · decide
    · simp [isWholeChar, isDigit_of_mem_digitChars h]

theorem toString_int_ne_nil (i : Int) : (toString i).toList ≠ [] := by
  rcases toList_toString_int i with hi | hi
  · rw [hi]
    exact digitChars_ne_nil _
  · rw [hi]
    exact List.cons_ne_nil _ _

theorem toString_int_injective {i j : Int} (h : (toString i).toList = (toString j).toList) : i = j :=
  Int.repr_injective (String.toList_inj.mp h)

theorem not_isDelimiter_of_isWholeChar {c : Char} (h : isWholeChar c = true) :
    isDelimiter c = false := by
  rw [isWholeChar, Bool.or_eq_true] at h
  rcases h with h | h
  · exact not_isDelimiter_of_isDigit h
  · rw [beq_iff_eq] at h
    subst h
    decide

/-! ### Laid out decimals -/

section Layout

variable {style : Style} {digits : List Char} {e : Int}

/-- What a laid out decimal is made of. -/
def isDecimalChar (c : Char) : Bool := c.isDigit || c == '.' || c == 'e' || c == '+' || c == '-'

theorem isDecimalChar_of_isDigit {c : Char} (h : c.isDigit = true) : isDecimalChar c = true := by
  simp [isDecimalChar, h]

theorem isDecimalChar_of_mem_layout (hdigits : ∀ c ∈ digits, c.isDigit = true) {c : Char}
    (hc : c ∈ style.layout digits e) : isDecimalChar c = true := by
  have hdecimal : ∀ c ∈ digits, isDecimalChar c = true := fun c hc =>
    isDecimalChar_of_isDigit (hdigits c hc)
  unfold Style.layout at hc
  split at hc
  · split at hc
    · -- below one: zeros stand between the point and the digits
      rw [List.mem_cons, List.mem_cons, List.mem_append] at hc
      rcases hc with rfl | rfl | hc | hc
      · decide
      · decide
      · exact isDecimalChar_of_isDigit (isDigit_of_mem_zeros _ hc)
      · exact hdecimal c hc
    · simp only at hc
      split at hc
      · -- a whole number: zeros stand behind the digits
        rw [List.mem_append, List.mem_append] at hc
        rcases hc with (hc | hc) | hc
        · exact hdecimal c hc
        · exact isDecimalChar_of_isDigit (isDigit_of_mem_zeros _ hc)
        · split at hc
          · rcases List.mem_cons.mp hc with rfl | hc
            · decide
            · rw [List.mem_singleton.mp hc]
              decide
          · cases hc
      · rw [List.mem_append, List.mem_cons] at hc
        rcases hc with hc | rfl | hc
        · exact hdecimal c (List.mem_of_mem_take hc)
        · decide
        · exact hdecimal c (List.mem_of_mem_drop hc)
  · simp only at hc
    rw [List.mem_append, List.mem_cons, List.mem_cons, padZeros, List.mem_append] at hc
    rcases hc with hc | rfl | rfl | hc | hc
    · -- the significand
      split at hc
      · rw [List.mem_singleton.mp hc]
        decide
      · exact hdecimal c hc
      · rename_i d rest _
        rcases List.mem_cons.mp hc with rfl | hc
        · exact hdecimal c List.mem_cons_self
        · rcases List.mem_cons.mp hc with rfl | hc
          · decide
          · exact hdecimal c (List.mem_cons_of_mem _ hc)
    · decide
    · split <;> decide
    · exact isDecimalChar_of_isDigit (isDigit_of_mem_zeros _ hc)
    · exact isDecimalChar_of_isDigit (isDigit_of_mem_digitChars hc)

/-- A style that keeps the point of whole numbers marks every decimal as no whole number. -/
theorem layout_marked (hpoint : style.keepsPoint = true) :
    ∃ c ∈ style.layout digits e, isWholeChar c = false := by
  unfold Style.layout
  rw [if_pos hpoint]
  split
  · split
    · exact ⟨'.', by simp, by decide⟩
    · simp only
      split
      · exact ⟨'.', by simp, by decide⟩
      · exact ⟨'.', by simp, by decide⟩
  · exact ⟨'e', by simp, by decide⟩

theorem layout_head (hdigits : ∀ c ∈ digits, c.isDigit = true) (hne : digits ≠ []) :
    ∃ d rest, style.layout digits e = d :: rest ∧ d.isDigit = true := by
  obtain ⟨d, rest, rfl⟩ := List.exists_cons_of_ne_nil hne
  have hd : d.isDigit = true := hdigits d List.mem_cons_self
  unfold Style.layout
  split
  · split
    · exact ⟨'0', _, rfl, by decide⟩
    · simp only
      split
      · exact ⟨d, _, rfl, hd⟩
      · exact ⟨d, _, rfl, hd⟩
  · cases rest with
    | nil => exact ⟨d, _, rfl, hd⟩
    | cons d' rest => exact ⟨d, _, rfl, hd⟩

end Layout

/-! ### Doubles in canonical keys -/

/-- What is said of the text of a double: it begins like a number, goes on to the end of its
    item, and is no whole number. -/
structure IsDoubleText (cs : List Char) : Prop where
  head : ∃ c rest, cs = c :: rest ∧ beginsNumber c = true
  closed : ∀ c ∈ cs, isDelimiter c = false
  marked : ∃ c ∈ cs, isWholeChar c = false

theorem isDoubleText_layout {digits : List Char} (hdigits : ∀ c ∈ digits, c.isDigit = true)
    (hne : digits ≠ []) (negative : Bool) (e : Int) :
    IsDoubleText (if negative then '-' :: Style.json.layout digits e
      else Style.json.layout digits e) := by
  obtain ⟨d, rest, hlayout, hd⟩ :
      ∃ d rest, Style.json.layout digits e = d :: rest ∧ d.isDigit = true :=
    layout_head hdigits hne
  obtain ⟨mark, hmark, hwhole⟩ : ∃ c ∈ Style.json.layout digits e, isWholeChar c = false :=
    layout_marked rfl
  have hclosed : ∀ c ∈ Style.json.layout digits e, isDelimiter c = false := fun c hc => by
    have hdecimal := isDecimalChar_of_mem_layout hdigits hc
    by_cases hdigit : c.isDigit = true
    · exact not_isDelimiter_of_isDigit hdigit
    · simp only [isDecimalChar, Bool.or_eq_true, beq_iff_eq] at hdecimal
      rcases hdecimal with (((hd | rfl) | rfl) | rfl) | rfl
      · exact absurd hd hdigit
      all_goals decide
  cases negative with
  | false =>
    exact ⟨⟨d, rest, by simp [hlayout], by simp [beginsNumber, isWholeChar, hd]⟩, hclosed,
      ⟨mark, hmark, hwhole⟩⟩
  | true =>
    refine ⟨⟨'-', _, rfl, by decide⟩, fun c hc => ?_, ⟨mark, List.mem_cons_of_mem _ hmark, hwhole⟩⟩
    rcases List.mem_cons.mp hc with rfl | hc
    · decide
    · exact hclosed c hc

theorem isDoubleText_of_word {cs : List Char} (hclosed : ∀ c ∈ cs, isDelimiter c = false)
    (hmark : 'N' ∈ cs ∨ 'I' ∈ cs) (hhead : ∃ c rest, cs = c :: rest ∧ beginsNumber c = true) :
    IsDoubleText cs := by
  refine ⟨hhead, hclosed, ?_⟩
  rcases hmark with hmark | hmark
  · exact ⟨'N', hmark, by decide⟩
  · exact ⟨'I', hmark, by decide⟩

theorem write_json_spec (x : Float) : IsDoubleText (Style.json.write x).toList := by
  unfold Style.write
  split
  · -- no number
    have hword : Style.json.undefinedText.toList = ['N', 'a', 'N'] := rfl
    rw [hword]
    exact isDoubleText_of_word (by simp [isDelimiter]) (by decide) ⟨'N', _, rfl, by decide⟩
  · rename_i negative _
    cases negative with
    | false =>
      have hword : Style.json.infinityText.toList = ['I', 'n', 'f', 'i', 'n', 'i', 't', 'y'] := rfl
      show IsDoubleText Style.json.infinityText.toList
      rw [hword]
      exact isDoubleText_of_word (by simp [isDelimiter]) (by decide) ⟨'I', _, rfl, by decide⟩
    | true =>
      have hword : ("-" ++ Style.json.infinityText).toList =
          ['-', 'I', 'n', 'f', 'i', 'n', 'i', 't', 'y'] := rfl
      show IsDoubleText ("-" ++ Style.json.infinityText).toList
      rw [hword]
      exact isDoubleText_of_word (by simp [isDelimiter]) (by decide) ⟨'-', _, rfl, by decide⟩
  · rename_i d _
    simp only [String.toList_ofList]
    by_cases hzero : (d.mantissa == 0) = true
    · rw [if_pos hzero]
      have hdigit : ∀ c ∈ ['0'], c.isDigit = true := fun c hc => by
        rw [List.mem_singleton.mp hc]
        decide
      exact isDoubleText_layout hdigit (List.cons_ne_nil _ _) d.negative 0
    · rw [if_neg hzero]
      exact isDoubleText_layout (fun _ hc => isDigit_of_mem_digitChars hc) (digitChars_ne_nil _)
        d.negative _

end Quorum.Decimal
