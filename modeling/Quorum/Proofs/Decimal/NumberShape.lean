/-
  Quorum/Proofs/Decimal/NumberShape.lean
  ======================================
  **Number texts taken apart.**

  The text of a finite double is a sign, whole digits without a needless zero in front, and a
  fraction or an exponent or both (`write_json_shape`).  A text of this shape is a numeral
  (`numeral?_chars`), and its parts can be read off from the start of a longer text
  (`takeDigits_append`, `takeExponent?_append`).
-/
import Quorum.Decimal.Numeral
import Quorum.Proofs.Decimal.NumberText

namespace Quorum.Decimal

/-! ### Digits -/

theorem ofDigits_digitChars (n : Nat) : ofDigits (digitChars n) = n := by
  have h := Nat.ofDigitChars_ten_toDigits (n := n)
  rw [Nat.ofDigitChars_eq_foldl] at h
  exact h

theorem digitChar_ne_zero : ∀ n < 10, n ≠ 0 → n.digitChar ≠ '0' := by decide

/-- The digits of a number do not start with a needless zero. -/
theorem digitChars_head {n : Nat} (hn : n ≠ 0) : (digitChars n).head? ≠ some '0' := by
  induction n using Nat.strong_induction_on with
  | _ n ih =>
    rw [digitChars, Nat.toDigits_eq_if (by decide)]
    split
    · rename_i hsmall
      simpa using digitChar_ne_zero n hsmall hn
    · rename_i hlarge
      rw [List.head?_append_of_ne_nil _ Nat.toDigits_ne_nil]
      exact ih (n / 10) (by omega) (by omega)

/-- What stands behind digits: nothing, or something that is no digit. -/
def EndsDigits (r : List Char) : Prop := ∀ c rest, r = c :: rest → c.isDigit = false

theorem endsDigits_cons {c : Char} (hc : c.isDigit = false) (rest : List Char) :
    EndsDigits (c :: rest) := by
  rintro d rest' ⟨⟩
  exact hc

theorem takeDigits_append {ds r : List Char} (hds : ∀ c ∈ ds, c.isDigit = true)
    (hr : EndsDigits r) : takeDigits (ds ++ r) = (ds, r) := by
  have hnone : r.takeWhile Char.isDigit = [] ∧ r.dropWhile Char.isDigit = r := by
    cases r with
    | nil => exact ⟨rfl, rfl⟩
    | cons c rest => simp [hr c rest rfl]
  unfold takeDigits
  rw [List.span_eq_takeWhile_dropWhile, List.takeWhile_append_of_pos hds,
    List.dropWhile_append_of_pos hds, hnone.1, hnone.2, List.append_nil]

/-! ### Parts of a number text -/

/-- A number text taken apart.  An exponent is a sign and digits. -/
structure NumberParts where
  negative : Bool
  whole : List Char
  fraction : Option (List Char)
  exponent : Option (Bool × List Char)

namespace NumberParts

def fractionChars : Option (List Char) → List Char
  | none => []
  | some f => '.' :: f

def exponentChars : Option (Bool × List Char) → List Char
  | none => []
  | some (negative, ds) => 'e' :: (if negative then '-' else '+') :: ds

/-- The text behind the sign. -/
def body (x : NumberParts) : List Char :=
  x.whole ++ (fractionChars x.fraction ++ exponentChars x.exponent)

/-- The whole text. -/
def chars (x : NumberParts) : List Char := if x.negative then '-' :: x.body else x.body

def exponentValue (x : Bool × List Char) : Int :=
  if x.1 then -(ofDigits x.2 : Int) else (ofDigits x.2 : Int)

/-- The numeral a text stands for. -/
def numeral (x : NumberParts) : Numeral :=
  ⟨x.negative, x.whole, x.fraction, x.exponent.map exponentValue⟩

end NumberParts

def IsDigits (ds : List Char) : Prop := ds ≠ [] ∧ ∀ c ∈ ds, c.isDigit = true

/-- Every part has digits, and a zero in front of the whole digits stands alone. -/
structure NumberParts.Proper (x : NumberParts) : Prop where
  whole : IsDigits x.whole
  leading : x.whole.head? = some '0' → x.whole = ['0']
  fraction : ∀ f ∈ x.fraction, IsDigits f
  exponent : ∀ e ∈ x.exponent, IsDigits e.2

/-- The parts of a number that is written as a whole number. -/
def NumberParts.isWhole (x : NumberParts) : Bool := x.fraction.isNone && x.exponent.isNone

/-! ### Numerals -/

/-- What stands behind a number: nothing, or something that does not go on with it. -/
def EndsNumber (r : List Char) : Prop :=
  ∀ c rest, r = c :: rest → c.isDigit = false ∧ c ≠ '.' ∧ c ≠ 'e' ∧ c ≠ 'E'

theorem endsNumber_nil : EndsNumber [] := nofun

theorem EndsNumber.endsDigits {r : List Char} (hr : EndsNumber r) : EndsDigits r :=
  fun c rest h => (hr c rest h).1

theorem takeExponent?_of_ends {r : List Char} (hr : EndsNumber r) :
    takeExponent? r = (none, r) := by
  cases r with
  | nil => rfl
  | cons c rest =>
    obtain ⟨-, -, he, hE⟩ := hr c rest rfl
    simp [takeExponent?, he, hE]

theorem takeExponent?_append {e : Option (Bool × List Char)} (he : ∀ x ∈ e, IsDigits x.2)
    {r : List Char} (hr : EndsNumber r) :
    takeExponent? (NumberParts.exponentChars e ++ r) =
      (e.map NumberParts.exponentValue, r) := by
  cases e with
  | none => exact takeExponent?_of_ends hr
  | some x =>
    obtain ⟨negative, ds⟩ := x
    obtain ⟨hne, hds⟩ := he _ rfl
    have hempty : ds.isEmpty = false := by simpa using hne
    cases negative with
    | false =>
      simp [NumberParts.exponentChars, takeExponent?, takeSign, takeDigits_append hds hr.endsDigits,
        hempty, NumberParts.exponentValue]
    | true =>
      simp [NumberParts.exponentChars, takeExponent?, takeSign, takeDigits_append hds hr.endsDigits,
        hempty, NumberParts.exponentValue]

namespace NumberParts

variable {x : NumberParts} {r : List Char}

theorem endsDigits_exponentChars (e : Option (Bool × List Char)) (hr : EndsNumber r) :
    EndsDigits (exponentChars e ++ r) := by
  cases e with
  | none => exact hr.endsDigits
  | some x => exact endsDigits_cons (by decide) _

theorem endsDigits_fractionChars (f : Option (List Char)) (e : Option (Bool × List Char))
    (hr : EndsNumber r) : EndsDigits (fractionChars f ++ (exponentChars e ++ r)) := by
  cases f with
  | none => exact endsDigits_exponentChars e hr
  | some f => exact endsDigits_cons (by decide) _

theorem Proper.exists_digit (hx : x.Proper) :
    ∃ d rest, x.whole = d :: rest ∧ d.isDigit = true := by
  obtain ⟨d, rest, hwhole⟩ := List.exists_cons_of_ne_nil hx.whole.1
  exact ⟨d, rest, hwhole, hx.whole.2 d (hwhole ▸ List.mem_cons_self)⟩

theorem takeSign_of_digit {d : Char} (hd : d.isDigit = true) (rest : List Char) :
    takeSign (d :: rest) = (false, d :: rest) := by
  unfold takeSign
  split
  · rename_i h
    rw [(List.cons.inj h).1] at hd
    exact absurd hd (by decide)
  · rename_i h
    rw [(List.cons.inj h).1] at hd
    exact absurd hd (by decide)
  · rfl

theorem takeSign_chars (hx : x.Proper) : takeSign x.chars = (x.negative, x.body) := by
  obtain ⟨d, rest, hwhole, hd⟩ := hx.exists_digit
  unfold chars
  cases x.negative with
  | true => rfl
  | false =>
    show takeSign x.body = (false, x.body)
    rw [body, hwhole, List.cons_append]
    exact takeSign_of_digit hd _

/-- A text of proper parts is a numeral with these parts. -/
theorem numeral?_chars (hx : x.Proper) : numeral? x.chars = some x.numeral := by
  have hwhole : takeDigits x.body =
      (x.whole, fractionChars x.fraction ++ exponentChars x.exponent) := by
    have hends := endsDigits_fractionChars x.fraction x.exponent endsNumber_nil
    rw [List.append_nil] at hends
    exact takeDigits_append hx.whole.2 hends
  have hexponent := takeExponent?_append hx.exponent endsNumber_nil
  rw [List.append_nil] at hexponent
  have hne : x.whole.isEmpty = false := by simpa using hx.whole.1
  unfold numeral?
  rw [takeSign_chars hx]
  simp only [hwhole]
  cases hfraction : x.fraction with
  | none =>
    -- what follows the whole digits is an exponent, which does not begin with a point
    cases hmark : x.exponent with
    | none => simp [fractionChars, exponentChars, hne, takeExponent?, numeral, hfraction, hmark]
    | some e =>
      rw [hmark] at hexponent
      have hchars : exponentChars (some e) = 'e' :: (if e.1 then '-' else '+') :: e.2 := rfl
      rw [hchars] at hexponent
      simp [fractionChars, hchars, hne, hexponent, numeral, hfraction, hmark]
  | some f =>
    have hf : takeDigits (f ++ exponentChars x.exponent) = (f, exponentChars x.exponent) := by
      have hends := endsDigits_exponentChars x.exponent endsNumber_nil
      rw [List.append_nil] at hends
      exact takeDigits_append (hx.fraction f hfraction).2 hends
    simp [fractionChars, hf, hne, hexponent, numeral, hfraction]

/-- What a number text is made of. -/
theorem Proper.isDecimalChar_of_mem (hx : x.Proper) {c : Char}
    (hc : c ∈ x.chars) : isDecimalChar c = true := by
  have hbody : ∀ c ∈ x.body, isDecimalChar c = true := by
    intro c hc
    rw [body, List.mem_append, List.mem_append] at hc
    rcases hc with hc | hc | hc
    · exact isDecimalChar_of_isDigit (hx.whole.2 c hc)
    · cases hfraction : x.fraction with
      | none =>
        rw [hfraction] at hc
        cases hc
      | some f =>
        rw [hfraction] at hc
        rcases List.mem_cons.mp hc with rfl | hc
        · decide
        · exact isDecimalChar_of_isDigit ((hx.fraction f hfraction).2 c hc)
    · cases hexponent : x.exponent with
      | none =>
        rw [hexponent] at hc
        cases hc
      | some e =>
        rw [hexponent] at hc
        rcases List.mem_cons.mp hc with rfl | hc
        · decide
        · rcases List.mem_cons.mp hc with rfl | hc
          · split <;> decide
          · exact isDecimalChar_of_isDigit ((hx.exponent e hexponent).2 c hc)
  unfold chars at hc
  split at hc
  · rcases List.mem_cons.mp hc with rfl | hc
    · decide
    · exact hbody c hc
  · exact hbody c hc

end NumberParts

/-! ### Texts of doubles -/

/-- Digits without a needless zero in front. -/
structure Significant (ds : List Char) : Prop where
  digits : IsDigits ds
  leading : ds.head? ≠ some '0'

theorem isDigits_digitChars (n : Nat) : IsDigits (digitChars n) :=
  ⟨digitChars_ne_nil n, fun _ hc => isDigit_of_mem_digitChars hc⟩

theorem significant_digitChars {n : Nat} (hn : n ≠ 0) : Significant (digitChars n) :=
  ⟨isDigits_digitChars n, digitChars_head hn⟩

theorem IsDigits.zeros_append {ds : List Char} (hds : IsDigits ds) (n : Nat) :
    IsDigits (List.replicate n '0' ++ ds) :=
  ⟨by simp [hds.1], List.forall_mem_append.mpr ⟨isDigit_of_mem_zeros, hds.2⟩⟩

theorem IsDigits.append_zeros {ds : List Char} (hds : IsDigits ds) (n : Nat) :
    IsDigits (ds ++ List.replicate n '0') :=
  ⟨by simp [hds.1], List.forall_mem_append.mpr ⟨hds.2, isDigit_of_mem_zeros⟩⟩

/-- The text behind the sign of a number that is not written as a whole number. -/
def IsMarked (negative : Bool) (cs : List Char) : Prop :=
  ∃ x : NumberParts, x.negative = negative ∧ x.isWhole = false ∧ x.body = cs ∧ x.Proper

section Marked

variable {negative : Bool} {whole f ds : List Char} (hwhole : IsDigits whole)
  (hleading : whole.head? = some '0' → whole = ['0'])

include hwhole hleading in
theorem isMarked_point (hf : IsDigits f) {exponent : Option (Bool × List Char)}
    (hexponent : ∀ e ∈ exponent, IsDigits e.2) :
    IsMarked negative (whole ++ '.' :: (f ++ NumberParts.exponentChars exponent)) := by
  refine ⟨⟨negative, whole, some f, exponent⟩, rfl, rfl, rfl, hwhole, hleading, ?_, hexponent⟩
  rintro _ ⟨⟩
  exact hf

include hwhole hleading in
theorem isMarked_fraction (hf : IsDigits f) : IsMarked negative (whole ++ '.' :: f) := by
  have hnone : ∀ e ∈ (none : Option (Bool × List Char)), IsDigits e.2 := nofun
  have hmarked : IsMarked negative _ := isMarked_point hwhole hleading hf hnone
  rwa [NumberParts.exponentChars, List.append_nil] at hmarked

include hwhole hleading in
theorem isMarked_exponent {e : Bool × List Char} (he : IsDigits e.2) :
    IsMarked negative (whole ++ NumberParts.exponentChars (some e)) := by
  refine ⟨⟨negative, whole, none, some e⟩, rfl, rfl, rfl, hwhole, hleading, nofun, ?_⟩
  rintro _ ⟨⟩
  exact he

theorem isDigits_singleton {d : Char} (hd : d.isDigit = true) : IsDigits [d] := by
  refine ⟨by simp, fun c hc => ?_⟩
  rw [List.mem_singleton.mp hc]
  exact hd

theorem isDigits_zero : IsDigits ['0'] := isDigits_singleton (by decide)

/-- A point behind some of the significant digits. -/
theorem Significant.isMarked_cut (hds : Significant ds) {count : Nat} (hcount : 0 < count)
    (hlong : count < ds.length) : IsMarked negative (ds.take count ++ '.' :: ds.drop count) := by
  apply isMarked_fraction
  · refine ⟨?_, fun c hc => hds.digits.2 c (List.mem_of_mem_take hc)⟩
    simp [hds.digits.1, hcount.ne']
  · intro hzero
    rw [List.head?_take, if_neg hcount.ne'] at hzero
    exact absurd hzero hds.leading
  · refine ⟨?_, fun c hc => hds.digits.2 c (List.mem_of_mem_drop hc)⟩
    rw [Ne, List.drop_eq_nil_iff]
    omega

/-- Zeros behind the significant digits, and one more behind the point. -/
theorem Significant.isMarked_padded (hds : Significant ds) (n : Nat) :
    IsMarked negative (ds ++ List.replicate n '0' ++ '.' :: ['0']) := by
  apply isMarked_fraction (hds.digits.append_zeros n) _ isDigits_zero
  intro hzero
  rw [List.head?_append_of_ne_nil _ hds.digits.1] at hzero
  exact absurd hzero hds.leading

end Marked

/-- The layout of significant digits is a number text. -/
theorem layout_shape {style : Style} (hpoint : style.keepsPoint = true) {ds : List Char}
    (hds : Significant ds) (e : Int) (negative : Bool) :
    IsMarked negative (style.layout ds e) := by
  unfold Style.layout
  rw [if_pos hpoint]
  split
  · split
    · -- below one: a zero stands in front of the point
      exact isMarked_fraction isDigits_zero (fun _ => rfl) (hds.digits.zeros_append _)
    · simp only
      split
      · exact hds.isMarked_padded _
      · exact hds.isMarked_cut (by omega) (by omega)
  · -- far from one: an exponent stands behind one digit and the others as a fraction
    let exponent := (decide (e < 0), padZeros style.exponentWidth (digitChars e.natAbs))
    have hexponent : IsDigits exponent.2 := (isDigits_digitChars _).zeros_append _
    have hchars : NumberParts.exponentChars (some exponent) = 'e' :: (if e < 0 then '-' else '+') ::
        padZeros style.exponentWidth (digitChars e.natAbs) := by
      simp [NumberParts.exponentChars, exponent]
    obtain ⟨d, ds, rfl⟩ := List.exists_cons_of_ne_nil hds.digits.1
    have hd : IsDigits [d] := isDigits_singleton (hds.digits.2 d List.mem_cons_self)
    have hleading : [d].head? = some '0' → [d] = ['0'] := by
      rintro ⟨⟩
      rfl
    simp only [← hchars]
    cases ds with
    | nil => exact isMarked_exponent hd hleading hexponent
    | cons d' ds =>
      have hrest : IsDigits (d' :: ds) :=
        ⟨by simp, fun c hc => hds.digits.2 c (List.mem_cons_of_mem _ hc)⟩
      apply isMarked_point hd hleading hrest
      rintro _ ⟨⟩
      exact hexponent

theorem stripZeros_digits_ne_zero {fuel : Nat} {x : Scientific} (hx : x.digits ≠ 0) :
    (stripZeros fuel x).digits ≠ 0 := by
  induction fuel generalizing x with
  | zero => exact hx
  | succ fuel ih =>
    unfold stripZeros
    split
    · rename_i hzero
      simp only [Bool.and_eq_true, bne_iff_ne, beq_iff_eq] at hzero
      refine ih ?_
      show x.digits / 10 ≠ 0
      omega
    · exact hx

theorem gridHit?_ne_zero {d : Dyadic} {s : Int} {c : Nat} (h : gridHit? d s = some c) : c ≠ 0 := by
  unfold gridHit? at h
  simp only at h
  split at h
  · -- both points are owned, so the lower one is not zero
    rename_i hlow _
    have hbelow := bne_iff_ne.mp (Bool.and_eq_true_iff.mp hlow).2
    split at h
    · cases h
      exact hbelow
    · cases h
      exact Nat.succ_ne_zero _
    · split at h <;> cases h
      · exact hbelow
      · exact Nat.succ_ne_zero _
  · rename_i hlow _
    cases h
    exact bne_iff_ne.mp (Bool.and_eq_true_iff.mp hlow).2
  · cases h
    exact Nat.succ_ne_zero _
  · cases h

theorem searchGrids_digits_ne_zero {d : Dyadic} (hd : d.mantissa ≠ 0) (top : Int)
    (fuel count : Nat) : (searchGrids d top fuel count).digits ≠ 0 := by
  induction fuel generalizing count with
  | zero => exact hd
  | succ fuel ih =>
    unfold searchGrids
    simp only
    split
    · rename_i hhit
      exact stripZeros_digits_ne_zero (gridHit?_ne_zero hhit)
    · exact ih (count + 1)

/-- **The text of a finite double** is a sign, whole digits without a needless zero, and a
    fraction or an exponent or both. -/
theorem write_json_shape {x : Float} {d : Dyadic} (hx : Reading.ofFloat x = .finite d) :
    ∃ parts : NumberParts, parts.chars = (Style.json.write x).toList ∧ parts.isWhole = false ∧
      parts.Proper := by
  have hbody : IsMarked d.negative (if d.mantissa == 0 then Style.json.layout ['0'] 0
      else Style.json.layout (digitChars (shortest d).digits)
        ((shortest d).exponent + (digitChars (shortest d).digits).length - 1)) := by
    by_cases hzero : d.mantissa = 0
    · rw [if_pos (by simpa using hzero)]
      exact isMarked_fraction isDigits_zero (fun _ => rfl) isDigits_zero
    · rw [if_neg (by simpa using hzero)]
      have hdigits : Significant (digitChars (shortest d).digits) :=
        significant_digitChars (searchGrids_digits_ne_zero hzero _ 18 0)
      exact layout_shape rfl hdigits _ _
  obtain ⟨parts, hnegative, hwhole, hparts, hproper⟩ := hbody
  refine ⟨parts, ?_, hwhole, hproper⟩
  unfold Style.write
  rw [hx]
  simp only [String.toList_ofList]
  rw [NumberParts.chars, hnegative, hparts]

/-- The text of a whole number is its sign and its digits. -/
theorem toString_int_shape (i : Int) :
    ∃ parts : NumberParts, parts.chars = (toString i).toList ∧ parts.Proper ∧
      parts.fraction = none ∧ parts.exponent = none ∧
      (if parts.negative then -(ofDigits parts.whole : Int) else ofDigits parts.whole) = i := by
  have hproper (negative : Bool) (n : Nat) :
      (NumberParts.mk negative (digitChars n) none none).Proper := by
    refine ⟨isDigits_digitChars n, fun hzero => ?_, nofun, nofun⟩
    by_cases hn : n = 0
    · subst hn
      rfl
    · exact absurd hzero (digitChars_head hn)
  cases i with
  | ofNat n =>
    refine ⟨⟨false, digitChars n, none, none⟩, ?_, hproper _ _, rfl, rfl, ?_⟩
    · rw [NumberParts.chars, NumberParts.body]
      exact (List.append_nil _).trans Nat.toList_repr.symm
    · rw [ofDigits_digitChars]
      rfl
  | negSucc n =>
    refine ⟨⟨true, digitChars (n + 1), none, none⟩, ?_, hproper _ _, rfl, rfl, ?_⟩
    · show '-' :: (digitChars (n + 1) ++ []) = ("-" ++ (n + 1).repr).toList
      rw [String.toList_append, Nat.toList_repr, List.append_nil]
      rfl
    · rw [ofDigits_digitChars]
      rfl

end Quorum.Decimal
