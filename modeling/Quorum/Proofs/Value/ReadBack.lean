/-
  Quorum/Proofs/Value/ReadBack.lean
  =================================
  **Written values are read back.**

  What the printer writes, on one line or on many, the reader takes back as the same value
  with the entries of its objects in ascending order of keys (`read_write`).  A value is read
  wherever its text stands, as long as what follows ends it (`ReadsAs`, `Separated`): number
  texts fall apart into the parts they were laid out from (`number?_chars`), and lists and
  objects are read one member after the other (`readItems_joined`, `readEntries_joined`).
  Nothing is known here about the arithmetic of doubles, so it is asked of each double in a
  value that its text be read back (`Legible`).
-/
import Quorum.Proofs.Decimal.NumberShape
import Quorum.Proofs.Value.CanonicalKey
import Quorum.Proofs.Value.Entries

namespace Quorum.Value

open Decimal (EndsNumber EndsDigits IsDigits NumberParts isDelimiter takeDigits)

/-! ### Numbers -/

section Numbers

variable {r : List Char}

theorem wholeDigits?_append {ds : List Char} (hds : IsDigits ds)
    (hleading : ds.head? = some '0' → ds = ['0']) (hr : EndsDigits r) :
    wholeDigits? (ds ++ r) = some (ds, r) := by
  obtain ⟨d, rest, rfl⟩ := List.exists_cons_of_ne_nil hds.1
  by_cases hzero : d = '0'
  · subst hzero
    rw [hleading rfl]
    rfl
  · have hd : d.isDigit = true := hds.2 d List.mem_cons_self
    have htake := Decimal.takeDigits_append hds.2 hr
    rw [List.cons_append] at htake ⊢
    unfold wholeDigits?
    split
    · rename_i h
      exact absurd (List.cons.inj h).1 hzero
    · rename_i h
      obtain ⟨rfl, rfl⟩ := List.cons.inj h
      rw [if_pos hd, htake]
    · rename_i h
      cases h

/-- A number text begins with a digit, or with a digit behind a minus. -/
def StartsNumber (cs : List Char) : Prop :=
  ∃ d rest, d.isDigit = true ∧ (cs = d :: rest ∨ cs = '-' :: d :: rest)

theorem ne_of_isDigit {c d : Char} (hd : d.isDigit = true) (hc : c.isDigit = false) : c ≠ d := by
  rintro rfl
  rw [hc] at hd
  exact Bool.false_ne_true hd

theorem atom_of_startsNumber {cs : List Char} (hcs : StartsNumber cs) {found : Value × List Char}
    (hnumber : number? cs = some found) : atom cs = .ok found := by
  have hwords : ∀ w ∈ words, afterWord? w.1 cs = none := by
    obtain ⟨d, rest, hd, rfl | rfl⟩ := hcs
    · have hn := ne_of_isDigit hd (c := 'n') (by decide)
      have ht := ne_of_isDigit hd (c := 't') (by decide)
      have hf := ne_of_isDigit hd (c := 'f') (by decide)
      have hN := ne_of_isDigit hd (c := 'N') (by decide)
      have hI := ne_of_isDigit hd (c := 'I') (by decide)
      have hm := ne_of_isDigit hd (c := '-') (by decide)
      simp [words, afterWord?, hn, ht, hf, hN, hI, hm]
    · have hI := ne_of_isDigit hd (c := 'I') (by decide)
      simp [words, afterWord?, hI]
  unfold atom
  split
  · rename_i hfound
    obtain ⟨⟨w, v⟩, hw, hafter⟩ := List.exists_of_findSome?_eq_some hfound
    have hnone : afterWord? w cs = none := hwords (w, v) hw
    simp [hnone] at hafter
  · rw [hnumber]

/-- A text without a minus in front. -/
def splitMinus : List Char → Bool × List Char
  | '-' :: r => (true, r)
  | r => (false, r)

/-- A text without the digits of a fraction in front. -/
def splitFraction (r : List Char) : Option (List Char) × List Char :=
  match r with
  | '.' :: r' =>
    let (f, after) := takeDigits r'
    if f.isEmpty then (none, r) else (some f, after)
  | r => (none, r)

/-- The value of the parts of a number. -/
def numberOf (negative : Bool) (whole : List Char) (fraction : Option (List Char))
    (exponent : Option Int) : Value :=
  if fraction.isNone && exponent.isNone then
    .int (if negative then -(Decimal.ofDigits whole : Int) else Decimal.ofDigits whole)
  else .float (Decimal.Numeral.toFloat ⟨negative, whole, fraction, exponent⟩)

theorem number?_of_parts {cs : List Char} {negative : Bool} {whole r₁ r₂ r₃ r₄ : List Char}
    {fraction : Option (List Char)} {exponent : Option Int}
    (hsign : splitMinus cs = (negative, r₁)) (hwhole : wholeDigits? r₁ = some (whole, r₂))
    (hfraction : splitFraction r₂ = (fraction, r₃))
    (hexponent : Decimal.takeExponent? r₃ = (exponent, r₄)) :
    number? cs = some (numberOf negative whole fraction exponent, r₄) := by
  -- the steps of the reader as one expression
  have heq : number? cs = (wholeDigits? (splitMinus cs).2).bind fun w =>
      if (splitFraction w.2).1.isNone && (Decimal.takeExponent? (splitFraction w.2).2).1.isNone then
        some (.int (if (splitMinus cs).1 then -(Decimal.ofDigits w.1 : Int)
          else Decimal.ofDigits w.1), (Decimal.takeExponent? (splitFraction w.2).2).2)
      else
        some (.float (Decimal.Numeral.toFloat ⟨(splitMinus cs).1, w.1, (splitFraction w.2).1,
          (Decimal.takeExponent? (splitFraction w.2).2).1⟩),
          (Decimal.takeExponent? (splitFraction w.2).2).2) := rfl
  rw [heq, hsign, hwhole, Option.bind_some]
  simp only [hfraction, hexponent, numberOf]
  split <;> rfl

theorem splitMinus_chars {x : NumberParts} (hx : x.Proper) :
    splitMinus (x.chars ++ r) = (x.negative, x.body ++ r) := by
  obtain ⟨d, rest, hwhole, hd⟩ := hx.exists_digit
  unfold NumberParts.chars
  cases x.negative with
  | true => rfl
  | false =>
    show splitMinus (x.body ++ r) = (false, x.body ++ r)
    rw [NumberParts.body, hwhole]
    unfold splitMinus
    split
    · rename_i h
      exact absurd (List.cons.inj h).1.symm (ne_of_isDigit hd (by decide))
    · rfl

theorem splitFraction_chars {x : NumberParts} (hx : x.Proper) (hr : EndsNumber r) :
    splitFraction (NumberParts.fractionChars x.fraction ++
      (NumberParts.exponentChars x.exponent ++ r)) =
      (x.fraction, NumberParts.exponentChars x.exponent ++ r) := by
  cases hfraction : x.fraction with
  | none =>
    unfold splitFraction
    split
    · rename_i r' h
      -- neither an exponent nor what stands behind the number begins with a point
      cases hexponent : x.exponent with
      | none =>
        rw [hexponent] at h
        exact absurd rfl (hr '.' r' h).2.1
      | some e =>
        rw [hexponent] at h
        exact absurd (List.cons.inj h).1 (by decide)
    · rfl
  | some f =>
    have hf := hx.fraction f hfraction
    have htake := Decimal.takeDigits_append hf.2
      (NumberParts.endsDigits_exponentChars x.exponent hr)
    have hempty : f.isEmpty = false := by simpa using hf.1
    simp [NumberParts.fractionChars, splitFraction, htake, hempty]

/-- The reader takes the parts of a number text for what they are. -/
theorem number?_chars {x : NumberParts} (hx : x.Proper) (hr : EndsNumber r) :
    number? (x.chars ++ r) = some
      (numberOf x.negative x.whole x.fraction (x.exponent.map NumberParts.exponentValue), r) := by
  have hwhole : wholeDigits? (x.body ++ r) = some (x.whole,
      NumberParts.fractionChars x.fraction ++ (NumberParts.exponentChars x.exponent ++ r)) := by
    rw [NumberParts.body, List.append_assoc, List.append_assoc]
    exact wholeDigits?_append hx.whole hx.leading
      (NumberParts.endsDigits_fractionChars x.fraction x.exponent hr)
  exact number?_of_parts (splitMinus_chars hx) hwhole (splitFraction_chars hx hr)
    (Decimal.takeExponent?_append hx.exponent hr)

theorem startsNumber_chars {x : NumberParts} (hx : x.Proper) : StartsNumber (x.chars ++ r) := by
  obtain ⟨d, rest, hwhole, hd⟩ := hx.exists_digit
  unfold NumberParts.chars
  cases x.negative with
  | true => exact ⟨d, _, hd, Or.inr (by simp [NumberParts.body, hwhole]; rfl)⟩
  | false => exact ⟨d, _, hd, Or.inl (by simp [NumberParts.body, hwhole]; rfl)⟩

theorem atom_int (i : Int) (hr : EndsNumber r) :
    atom ((toString i).toList ++ r) = .ok (.int i, r) := by
  obtain ⟨x, hchars, hx, hfraction, hexponent, hvalue⟩ := Decimal.toString_int_shape i
  have hnumber := number?_chars hx hr
  rw [hfraction, hexponent] at hnumber
  rw [← hchars, atom_of_startsNumber (startsNumber_chars hx) hnumber]
  show Except.ok (Value.int _, r) = _
  rw [hvalue]

/-- A double whose text is read back as a double is read back as a value. -/
theorem atom_float {x : Float} {d : Decimal.Dyadic}
    (hfinite : Decimal.Reading.ofFloat x = .finite d)
    (hback : Decimal.float? (Decimal.Style.json.write x).toList = some x) (hr : EndsNumber r) :
    atom ((Decimal.Style.json.write x).toList ++ r) = .ok (.float x, r) := by
  -- the parts of the text are the same for the reader of numerals and the reader of values
  obtain ⟨parts, hchars, hwhole, hparts⟩ := Decimal.write_json_shape hfinite
  rw [← hchars] at hback ⊢
  unfold Decimal.float? at hback
  rw [NumberParts.numeral?_chars hparts] at hback
  have hnumber := number?_chars hparts hr
  rw [atom_of_startsNumber (startsNumber_chars hparts) hnumber]
  have hmarked : (parts.fraction.isNone &&
      (parts.exponent.map NumberParts.exponentValue).isNone) = false := by
    rw [Option.isNone_map]
    exact hwhole
  rw [numberOf, hmarked]
  have hx : parts.numeral.toFloat = x := Option.some.inj hback
  rw [← hx]
  rfl

end Numbers

/-! ### What stands behind a value -/

/-- What stands behind a value: nothing, or what ends it or keeps it apart from the rest. -/
def Separated (r : List Char) : Prop :=
  ∀ c rest, r = c :: rest → isDelimiter c = true ∨ isGap c = true

theorem separated_nil : Separated [] := nofun

theorem separated_cons {c : Char} (hc : isDelimiter c = true ∨ isGap c = true)
    (rest : List Char) : Separated (c :: rest) := by
  rintro d rest' ⟨⟩
  exact hc

theorem Separated.endsNumber {r : List Char} (hr : Separated r) : EndsNumber r := by
  intro c rest h
  have hc := hr c rest h
  simp only [isDelimiter, isGap, Bool.or_eq_true, beq_iff_eq] at hc
  rcases hc with ((rfl | rfl) | rfl) | (((rfl | rfl) | rfl) | rfl) <;> decide

def IsGaps (g : List Char) : Prop := ∀ c ∈ g, isGap c = true

theorem skipGaps_append {g r : List Char} (hg : IsGaps g) : skipGaps (g ++ r) = skipGaps r := by
  unfold skipGaps
  exact List.dropWhile_append_of_pos hg

theorem skipGaps_cons {c : Char} (hc : isGap c = false) (rest : List Char) :
    skipGaps (c :: rest) = c :: rest := by
  simp [skipGaps, hc]

theorem separated_gaps {g : List Char} (hg : IsGaps g) {c : Char} (hc : isDelimiter c = true)
    (rest : List Char) : Separated (g ++ c :: rest) := by
  cases g with
  | nil => exact separated_cons (Or.inl hc) rest
  | cons d g => exact separated_cons (Or.inr (hg d List.mem_cons_self)) _

/-! ### Layouts -/

/-- A bracketed sequence in any form: there may be blanks behind the bracket that opens it, behind
    its commas and before the bracket that closes it, and nowhere else. -/
theorem bracketed_cons (form : Form) (level : Nat) (opening closing : Char) (t : List Char)
    (ts : List (List Char)) :
    ∃ lead inner trail, IsGaps lead ∧ IsGaps inner ∧ IsGaps trail ∧
      form.bracketed level opening closing (t :: ts) =
        opening :: (lead ++ (joined (',' :: inner) (t :: ts) ++ (trail ++ [closing]))) := by
  unfold Form.bracketed
  cases form.indent with
  | none =>
    refine ⟨[], [' '], [], nofun, ?_, nofun, rfl⟩
    intro c hc
    rw [List.mem_singleton.mp hc]
    decide
  | some width =>
    have hline (n : Nat) : IsGaps ('\n' :: List.replicate (n * width) ' ') := by
      intro c hc
      rcases List.mem_cons.mp hc with rfl | hc
      · decide
      · rw [List.eq_of_mem_replicate hc]
        decide
    refine ⟨_, _, _, hline (level + 1), hline (level + 1), hline level, ?_⟩
    simp

theorem bracketed_last (form : Form) (level : Nat) (opening closing : Char)
    (items : List (List Char)) :
    ∃ rest, form.bracketed level opening closing items = rest ++ [closing] := by
  cases items with
  | nil => exact ⟨[opening], rfl⟩
  | cons t ts =>
    obtain ⟨lead, inner, trail, -, -, -, hchars⟩ := bracketed_cons form level opening closing t ts
    exact ⟨opening :: (lead ++ (joined (',' :: inner) (t :: ts) ++ trail)), by simp [hchars]⟩

/-- A text is read as a value wherever it stands, with enough fuel. -/
structure ReadsAs (t : List Char) (v : Value) : Prop where
  head : ∃ c rest, t = c :: rest ∧ isGap c = false ∧ c ≠ ']'
  reads : ∀ fuel r, Separated r → t.length < fuel → readValue fuel (t ++ r) = .ok (v, r)

theorem joined_head (separator : List Char) {t : List Char} {c : Char} {rest : List Char}
    (ht : t = c :: rest) (ts : List (List Char)) :
    ∃ more, joined separator (t :: ts) = c :: more := by
  subst ht
  cases ts with
  | nil => exact ⟨rest, rfl⟩
  | cons t' ts => exact ⟨_, rfl⟩

theorem joined_cons_cons (separator t t' : List Char) (ts : List (List Char)) :
    joined separator (t :: t' :: ts) = t ++ separator ++ joined separator (t' :: ts) := rfl

theorem ok_bind {α β : Type} (a : α) (f : α → Except Mistake β) : (Except.ok a >>= f) = f a := rfl

theorem readItems_joined {inner trail : List Char} (hinner : IsGaps inner) (htrail : IsGaps trail)
    {ts : List (List Char)} {vs : List Value} (hitems : List.Forall₂ ReadsAs ts vs)
    (hne : ts ≠ []) (r : List Char) {fuel : Nat}
    (hfuel : (joined (',' :: inner) ts).length + 1 < fuel) :
    readItems fuel (joined (',' :: inner) ts ++ (trail ++ ']' :: r)) = .ok (vs, r) := by
  -- on the items; each takes one unit of fuel, and its text and the comma are longer than that
  induction hitems generalizing fuel with
  | nil => exact absurd rfl hne
  | @cons t v ts vs ht hrest ih =>
    obtain ⟨fuel, rfl⟩ : ∃ n, fuel = n + 1 := ⟨fuel - 1, by omega⟩
    have hclosing : isDelimiter ']' = true := by decide
    cases hrest with
    | nil =>
      have hread := ht.reads fuel (trail ++ ']' :: r) (separated_gaps htrail hclosing r)
        (by simp [joined] at hfuel; omega)
      have hskip : skipGaps (trail ++ ']' :: r) = ']' :: r := by
        rw [skipGaps_append htrail, skipGaps_cons (by decide)]
      rw [joined, readItems, hread]
      simp only [ok_bind, hskip]
      rfl
    | @cons t' v' ts vs ht' hrest =>
      rw [joined_cons_cons, List.length_append, List.length_append, List.length_cons] at hfuel
      have hread := ht.reads fuel (',' :: (inner ++ (joined (',' :: inner) (t' :: ts) ++
        (trail ++ ']' :: r)))) (separated_cons (Or.inl (by decide)) _) (by omega)
      obtain ⟨c, rest, hc, hgap, -⟩ := ht'.head
      have hstart : skipGaps (inner ++ (joined (',' :: inner) (t' :: ts) ++ (trail ++ ']' :: r))) =
          joined (',' :: inner) (t' :: ts) ++ (trail ++ ']' :: r) := by
        obtain ⟨more, hmore⟩ := joined_head (',' :: inner) hc ts
        rw [skipGaps_append hinner, hmore]
        exact skipGaps_cons hgap _
      have hmore := @ih (List.cons_ne_nil _ _) fuel (by omega)
      rw [joined_cons_cons, readItems]
      simp only [List.append_assoc, List.cons_append, hread, ok_bind,
        skipGaps_cons (c := ',') (by decide), hstart, hmore]
      rfl

def entryText (e : String × List Char) : List Char := escaped e.1 ++ ':' :: ' ' :: e.2

/-- The reader goes on behind an entry. -/
def readBehindEntry (fuel : Nat) (entry : String × Value) (r : List Char) :
    Except Mistake (List (String × Value) × List Char) :=
  match skipGaps r with
  | '}' :: after => return ([entry], after)
  | ',' :: r' => do
    let (more, after) ← readEntries fuel (skipGaps r')
    return (entry :: more, after)
  | r' => mistake .commaExpected r'

theorem readEntries_entryText {t : List Char} {v : Value} (ht : ReadsAs t v) (k : String)
    {fuel : Nat} (hfuel : t.length < fuel) {r : List Char} (hr : Separated r) :
    readEntries (fuel + 1) (entryText (k, t) ++ r) = readBehindEntry fuel (k, v) r := by
  obtain ⟨c, rest, hc, hgap, -⟩ := ht.head
  have htext : entryText (k, t) ++ r =
      '"' :: (k.toList.flatMap escapedChar ++ '"' :: ':' :: ' ' :: (t ++ r)) := by
    simp [entryText, escaped]
  have hcolon : skipGaps (':' :: ' ' :: (t ++ r)) = ':' :: ' ' :: (t ++ r) :=
    skipGaps_cons (by decide) _
  have hvalue : skipGaps (' ' :: (t ++ r)) = t ++ r := by
    rw [hc]
    exact skipGaps_cons hgap _
  rw [htext, readEntries, textBody_escaped]
  simp only [ok_bind, hcolon, hvalue, ht.reads fuel r hr hfuel]
  rfl

def EntryReadsAs (e : String × List Char) (f : String × Value) : Prop :=
  e.1 = f.1 ∧ ReadsAs e.2 f.2

theorem readEntries_joined {inner trail : List Char} (hinner : IsGaps inner)
    (htrail : IsGaps trail) {ts : List (String × List Char)} {es : List (String × Value)}
    (hentries : List.Forall₂ EntryReadsAs ts es) (hne : ts ≠ []) (r : List Char) {fuel : Nat}
    (hfuel : (joined (',' :: inner) (ts.map entryText)).length + 1 < fuel) :
    readEntries fuel (joined (',' :: inner) (ts.map entryText) ++ (trail ++ '}' :: r)) =
      .ok (es, r) := by
  induction hentries generalizing fuel with
  | nil => exact absurd rfl hne
  | @cons t e ts es ht hrest ih =>
    obtain ⟨k, t⟩ := t
    obtain ⟨k', v⟩ := e
    obtain ⟨rfl : k = k', ht : ReadsAs t v⟩ := ht
    obtain ⟨fuel, rfl⟩ : ∃ n, fuel = n + 1 := ⟨fuel - 1, by omega⟩
    have hlength : (entryText (k, t)).length = (escaped k).length + t.length + 2 := by
      simp [entryText]
      omega
    cases hrest with
    | nil =>
      have hskip : skipGaps (trail ++ '}' :: r) = '}' :: r := by
        rw [skipGaps_append htrail, skipGaps_cons (by decide)]
      have hjoined : joined (',' :: inner) ([(k, t)].map entryText) = entryText (k, t) := rfl
      rw [hjoined] at hfuel ⊢
      rw [readEntries_entryText ht k (by omega) (separated_gaps htrail (by decide) r),
        readBehindEntry, hskip]
      rfl
    | @cons t' e' ts es ht' hrest =>
      have hstart : skipGaps (inner ++ (joined (',' :: inner) ((t' :: ts).map entryText) ++
          (trail ++ '}' :: r))) =
          joined (',' :: inner) ((t' :: ts).map entryText) ++ (trail ++ '}' :: r) := by
        obtain ⟨more, hmore⟩ := joined_head (',' :: inner) (t := entryText t') (c := '"') rfl
          (ts.map entryText)
        rw [skipGaps_append hinner, List.map_cons, hmore]
        exact skipGaps_cons (by decide) _
      have hjoined : joined (',' :: inner) (((k, t) :: t' :: ts).map entryText) =
          entryText (k, t) ++
            ',' :: (inner ++ joined (',' :: inner) ((t' :: ts).map entryText)) := by
        simp [joined_cons_cons]
      rw [hjoined] at hfuel ⊢
      rw [List.length_append, List.length_cons, List.length_append] at hfuel
      have hmore := @ih (List.cons_ne_nil _ _) fuel (by omega)
      rw [List.append_assoc, List.cons_append, List.append_assoc,
        readEntries_entryText ht k (by omega) (separated_cons (Or.inl (by decide)) _),
        readBehindEntry, skipGaps_cons (by decide)]
      simp only [hstart, hmore, ok_bind]
      rfl

theorem bracketed_reads_list (form : Form) (level : Nat) {ts : List (List Char)}
    {vs : List Value} (hitems : List.Forall₂ ReadsAs ts vs) :
    ReadsAs (form.bracketed level '[' ']' ts) (.list vs) := by
  cases hitems with
  | nil =>
    refine ⟨⟨'[', [']'], rfl, by decide, by decide⟩, fun fuel r _ hfuel => ?_⟩
    obtain ⟨fuel, rfl⟩ : ∃ n, fuel = n + 1 := ⟨fuel - 1, by omega⟩
    rfl
  | @cons t v ts vs ht hrest =>
    obtain ⟨lead, inner, trail, hlead, hinner, htrail, hchars⟩ :=
      bracketed_cons form level '[' ']' t ts
    refine ⟨⟨'[', _, hchars, by decide, by decide⟩, fun fuel r _ hfuel => ?_⟩
    obtain ⟨fuel, rfl⟩ : ∃ n, fuel = n + 1 := ⟨fuel - 1, by omega⟩
    simp only [hchars, List.length_cons, List.length_append, List.length_nil] at hfuel
    have hlength : (joined (',' :: inner) (t :: ts)).length + 1 < fuel := by omega
    have hread := readItems_joined hinner htrail (.cons ht hrest) (List.cons_ne_nil t ts) r hlength
    -- the first item begins with no blank and with no closing bracket
    obtain ⟨c, rest, hc, hgap, hclosing⟩ := ht.head
    obtain ⟨more, hmore⟩ := joined_head (',' :: inner) hc ts
    rw [hmore, List.cons_append] at hread
    have hskip : skipGaps (lead ++ (c :: more ++ (trail ++ ']' :: r))) =
        c :: (more ++ (trail ++ ']' :: r)) := by
      rw [skipGaps_append hlead, List.cons_append, skipGaps_cons hgap]
    rw [hchars, hmore]
    simp only [List.cons_append, List.append_assoc, List.nil_append] at hskip ⊢
    rw [readValue, hskip]
    split
    · rename_i h
      exact absurd (List.cons.inj h).1 hclosing
    · rw [hread]
      rfl

theorem bracketed_reads_object (form : Form) (level : Nat) {ts : List (String × List Char)}
    {es : List (String × Value)} (hentries : List.Forall₂ EntryReadsAs ts es)
    (hkeys : (es.map Prod.fst).Nodup) :
    ReadsAs (form.bracketed level '{' '}' (ts.map entryText)) (.object es) := by
  cases hentries with
  | nil =>
    refine ⟨⟨'{', ['}'], rfl, by decide, by decide⟩, fun fuel r _ hfuel => ?_⟩
    obtain ⟨fuel, rfl⟩ : ∃ n, fuel = n + 1 := ⟨fuel - 1, by omega⟩
    rfl
  | @cons t e ts es ht hrest =>
    obtain ⟨lead, inner, trail, hlead, hinner, htrail, hchars⟩ :=
      bracketed_cons form level '{' '}' (entryText t) (ts.map entryText)
    refine ⟨⟨'{', _, hchars, by decide, by decide⟩, fun fuel r _ hfuel => ?_⟩
    obtain ⟨fuel, rfl⟩ : ∃ n, fuel = n + 1 := ⟨fuel - 1, by omega⟩
    rw [List.map_cons] at hfuel ⊢
    simp only [hchars, List.length_cons, List.length_append, List.length_nil] at hfuel
    have hlength : (joined (',' :: inner) ((t :: ts).map entryText)).length + 1 < fuel := by
      rw [List.map_cons]
      omega
    have hread := readEntries_joined hinner htrail (.cons ht hrest) (List.cons_ne_nil t ts) r
      hlength
    -- the first entry begins with a quote
    obtain ⟨more, hmore⟩ := joined_head (',' :: inner) (t := entryText t) (c := '"') rfl
      (ts.map entryText)
    rw [List.map_cons, hmore, List.cons_append] at hread
    have hskip : skipGaps (lead ++ ('"' :: more ++ (trail ++ '}' :: r))) =
        '"' :: (more ++ (trail ++ '}' :: r)) := by
      rw [skipGaps_append hlead, List.cons_append, skipGaps_cons (by decide)]
    rw [hchars, hmore]
    simp only [List.cons_append, List.append_assoc, List.nil_append] at hskip ⊢
    rw [readValue, hskip]
    show (readEntries fuel _ >>= fun x => pure (Value.object (Entries.ofList x.1), x.2)) = _
    rw [hread]
    exact congrArg (fun es => Except.ok (Value.object es, r)) (Entries.ofList_of_nodup hkeys)

/-! ### Whole values -/

/-- All doubles of a value have a property. -/
inductive AllDoubles (p : Float → Prop) : Value → Prop
  | null : AllDoubles p .null
  | bool (b : Bool) : AllDoubles p (.bool b)
  | int (i : Int) : AllDoubles p (.int i)
  | float {x : Float} (hx : p x) : AllDoubles p (.float x)
  | text (s : String) : AllDoubles p (.text s)
  | list {items : List Value} (hitems : ∀ v ∈ items, AllDoubles p v) : AllDoubles p (.list items)
  | object {entries : List (String × Value)} (hvalues : ∀ e ∈ entries, AllDoubles p e.2) :
      AllDoubles p (.object entries)

/-- A double is finite, and its text is read back as the same double. -/
structure Legible (x : Float) : Prop where
  finite : ∃ d, Decimal.Reading.ofFloat x = .finite d
  back : Decimal.float? (Decimal.Style.json.write x).toList = some x

mutual

/-- A value with the entries of its objects in ascending order of keys, at every depth. -/
def arranged : Value → Value
  | .list items => .list (arrangedItems items)
  | .object entries => .object (sortedByKey (arrangedEntries entries))
  | v => v

def arrangedItems : List Value → List Value
  | [] => []
  | v :: rest => arranged v :: arrangedItems rest

def arrangedEntries : List (String × Value) → List (String × Value)
  | [] => []
  | (k, v) :: rest => (k, arranged v) :: arrangedEntries rest

end

theorem arrangedItems_eq_map (items : List Value) : arrangedItems items = items.map arranged := by
  induction items with
  | nil => rfl
  | cons v rest ih => rw [arrangedItems, ih, List.map_cons]

theorem arrangedEntries_eq_map (entries : List (String × Value)) :
    arrangedEntries entries = entries.map fun e => (e.1, arranged e.2) := by
  induction entries with
  | nil => rfl
  | cons e rest ih => rw [arrangedEntries, ih, List.map_cons]

theorem arranged_object (entries : List (String × Value)) :
    arranged (.object entries) =
      .object ((sortedByKey entries).map fun e => (e.1, arranged e.2)) := by
  rw [arranged, arrangedEntries_eq_map, sortedByKey_map fun e => arranged e.2]

/-- Only the order of entries is changed. -/
theorem same_arranged {v : Value} (hv : v.WellKeyed) : Same v v.arranged := by
  induction hv with
  | null => exact .null
  | bool b => exact .bool b
  | int i => exact .int i
  | float x => exact .float rfl
  | text s => exact .text s
  | @list items _ ih =>
    rw [arranged, arrangedItems_eq_map]
    refine Same.of_forall₂ ?_
    rw [List.forall₂_map_right_iff]
    exact List.forall₂_same.mpr ih
  | @object entries hkeys _ ih =>
    rw [arranged_object]
    refine .object ?_ fun e he f hf hkey => ?_
    · rw [List.map_map]
      exact ((sortedByKey_perm entries).map Prod.fst).symm
    · obtain ⟨e', he', rfl⟩ := List.mem_map.mp hf
      have heq := entry_eq_of_key_eq hkeys he ((sortedByKey_perm entries).mem_iff.mp he') hkey
      exact heq ▸ ih e he

theorem mark_mem (v : Value) : v.mark ∈ ['n', 't', '0', '"', '[', '{'] := by
  cases v <;> simp [mark]

/-- A text of a value begins with no character that has none of the marks. -/
theorem ne_of_mark {c d : Char} {v : Value} (hc : markOf c = v.mark)
    (hd : markOf d ∉ ['n', 't', '0', '"', '[', '{']) : c ≠ d := by
  rintro rfl
  exact hd (hc ▸ v.mark_mem)

theorem not_isGap_of_mark {c : Char} {v : Value} (hc : markOf c = v.mark) : isGap c = false := by
  simp [isGap, ne_of_mark hc (d := ' ') (by decide), ne_of_mark hc (d := '\t') (by decide),
    ne_of_mark hc (d := '\n') (by decide), ne_of_mark hc (d := '\r') (by decide)]

theorem readValue_of_word {c : Char} {rest : List Char} (hquote : c ≠ '"') (hbracket : c ≠ '[')
    (hbrace : c ≠ '{') (fuel : Nat) : readValue (fuel + 1) (c :: rest) = atom (c :: rest) := by
  unfold readValue
  split
  · rename_i h
    exact absurd (List.cons.inj h).1 hquote
  · rename_i h
    exact absurd (List.cons.inj h).1 hbracket
  · rename_i h
    exact absurd (List.cons.inj h).1 hbrace
  · rfl

/-- The text of a value without members or quotes is read back. -/
theorem readsAs_word {form : Form} (hform : form.numbers = Decimal.Style.json) {v : Value}
    (hword : v.isWord = true) (level : Nat)
    (hatom : ∀ r, Separated r → atom (form.chars level v ++ r) = .ok (v, r)) :
    ReadsAs (form.chars level v) v := by
  obtain ⟨c, rest, hchars, hc⟩ := chars_mark hform level v
  have hne (d : Char) (hd : markOf d ∈ ['"', '[', '{']) : c ≠ d := by
    rintro rfl
    rw [hc] at hd
    cases v <;> simp [mark, isWord] at hd hword
  refine ⟨⟨c, rest, hchars, not_isGap_of_mark hc, ne_of_mark hc (by decide)⟩, ?_⟩
  intro fuel r hr hfuel
  obtain ⟨fuel, rfl⟩ : ∃ n, fuel = n + 1 := ⟨fuel - 1, by omega⟩
  rw [← hatom r hr, hchars, List.cons_append]
  exact readValue_of_word (hne _ (by decide)) (hne _ (by decide)) (hne _ (by decide)) fuel

/-- **Written values are read back**, whatever the form, with their entries in order. -/
theorem chars_read {form : Form} (hform : form.numbers = Decimal.Style.json)
    (hsorted : form.sorted = true) {v : Value} (hv : v.WellKeyed) (hd : v.AllDoubles Legible)
    (level : Nat) : ReadsAs (form.chars level v) v.arranged := by
  -- on the value, at any level of nesting: members stand one level deeper
  induction v generalizing level with
  | null => exact readsAs_word hform rfl level fun r _ => rfl
  | bool b =>
    refine readsAs_word hform rfl level fun r _ => ?_
    cases b with
    | true => rfl
    | false => rfl
  | int i => exact readsAs_word hform rfl level fun r hr => atom_int i hr.endsNumber
  | float x =>
    cases hd with
    | float hx =>
      obtain ⟨d, hfinite⟩ := hx.finite
      refine readsAs_word hform rfl level fun r hr => ?_
      rw [Form.chars, hform]
      exact atom_float hfinite hx.back hr.endsNumber
  | text s =>
    refine ⟨⟨'"', _, rfl, by decide, by decide⟩, fun fuel r hr hfuel => ?_⟩
    obtain ⟨fuel, rfl⟩ : ∃ n, fuel = n + 1 := ⟨fuel - 1, by omega⟩
    have htext : form.chars level (.text s) ++ r =
        '"' :: (s.toList.flatMap escapedChar ++ '"' :: r) := by
      simp [Form.chars, escaped]
    rw [htext, readValue, textBody_escaped]
    rfl
  | list items ih =>
    cases hv with
    | list hv =>
      cases hd with
      | list hd =>
        have hitems : List.Forall₂ ReadsAs (form.itemChars (level + 1) items)
            (arrangedItems items) := by
          rw [itemChars_eq_map, arrangedItems_eq_map, List.forall₂_map_left_iff,
            List.forall₂_map_right_iff]
          exact List.forall₂_same.mpr fun v hmem =>
            ih v hmem (hv v hmem) (hd v hmem) (level + 1)
        exact bracketed_reads_list form level hitems
  | object entries ih =>
    cases hv with
    | object hkeys hv =>
      cases hd with
      | object hd =>
        have hentries : List.Forall₂ EntryReadsAs
            (sortedByKey (form.entryChars (level + 1) entries))
            ((sortedByKey entries).map fun e => (e.1, arranged e.2)) := by
          rw [entryChars_eq_map, sortedByKey_map fun e => form.chars (level + 1) e.2,
            List.forall₂_map_left_iff, List.forall₂_map_right_iff]
          refine List.forall₂_same.mpr fun e he => ⟨rfl, ?_⟩
          have hmem : e ∈ entries := (sortedByKey_perm entries).mem_iff.mp he
          exact ih e hmem (hv e hmem) (hd e hmem) (level + 1)
        have hnodup : (((sortedByKey entries).map fun e => (e.1, arranged e.2)).map
            Prod.fst).Nodup := by
          rw [List.map_map]
          exact ((sortedByKey_perm entries).map Prod.fst).nodup_iff.mpr hkeys
        have hread := bracketed_reads_object form level hentries hnodup
        rw [arranged_object, Form.chars]
        simp only [hsorted, if_true]
        exact hread

/-- Reading takes a written value back, with its entries in order. -/
theorem read_write {form : Form} (hform : form.numbers = Decimal.Style.json)
    (hsorted : form.sorted = true) {v : Value} (hv : v.WellKeyed) (hd : v.AllDoubles Legible) :
    read (v.write form) = .ok v.arranged := by
  obtain ⟨c, rest, hchars, hc⟩ := chars_mark hform 0 v
  have hread := (chars_read hform hsorted hv hd 0).reads (2 * (form.chars 0 v).length + 1) []
    separated_nil (by omega)
  have hbom : ((form.chars 0 v).head? == some '\uFEFF') = false := by
    rw [hchars]
    simpa using ne_of_mark hc (d := '\uFEFF') (by decide)
  have hskip : skipGaps (form.chars 0 v) = form.chars 0 v := by
    rw [hchars]
    exact skipGaps_cons (not_isGap_of_mark hc) rest
  rw [List.append_nil] at hread
  simp only [read, write, String.toList_ofList, hbom, hskip, hread, Bool.false_eq_true, if_false]
  rfl

end Quorum.Value
