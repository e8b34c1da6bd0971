/-
  Quorum/Proofs/Value/QuotedText.lean
  ===================================
  **Texts between quotes are read back.**

  The printer escapes quotes, backslashes and control characters, each in its own way; the
  reader takes one escaped character at a time (`textChars_escapedChar`) and stops at the
  quote that closes the text, so it returns the text and what followed it
  (`textBody_escaped`).  An escaped text therefore ends where its closing quote stands, and
  no two texts share an escaped form (`escaped_append_inj`).
-/
import Mathlib
import Quorum.Value.Printer
import Quorum.Value.Reader

namespace Quorum.Value

/-! ### One character -/

/-- The reader goes on behind a character it has read. -/
def readBehind (c : Char) (rest : Except Mistake (List Char × List Char)) :
    Except Mistake (List Char × List Char) := do
  let (more, last) ← rest
  return (c :: more, last)

/-- The four digits of a control character are read back. -/
theorem hexFour?_hexDigits : ∀ n < 0x20, hexFour? (Text.hexDigits 4 n) = some n := by decide

theorem length_hexDigits : ∀ n < 0x20, (Text.hexDigits 4 n).length = 4 := by decide

theorem codeUnit_hexDigits {n : Nat} (hn : n < 0x20) {rest : List Char} (hrest : rest ≠ []) :
    codeUnit (Text.hexDigits 4 n ++ rest) = .ok (n, rest) := by
  have hlength := length_hexDigits n hn
  have hpos := List.length_pos_of_ne_nil hrest
  have hlong : ¬ (Text.hexDigits 4 n ++ rest).length ≤ 4 := by
    rw [List.length_append, hlength]
    omega
  rw [codeUnit, if_neg hlong, List.take_left' hlength, List.drop_left' hlength,
    hexFour?_hexDigits n hn]

/-- A control character is no first half of a pair. -/
theorem lowUnit?_control {n : Nat} (hn : n < 0x20) (rest : List Char) :
    lowUnit? n rest = .ok none := by
  have hlow : ¬ (0xD800 ≤ n ∧ n < 0xDC00 ∧ 6 < rest.length) := fun h => by omega
  unfold lowUnit?
  rw [if_neg hlow]
  rfl

theorem ofCode_control {c : Char} (hc : c.toNat < 0x20) : Text.ofCode c.toNat = c := by
  have hwhole : ¬ (0xD800 ≤ c.toNat ∧ c.toNat < 0xE000) := by omega
  rw [Text.ofCode, if_neg hwhole, Char.ofNat_toNat]

/-- An escaped character has one of three shapes: a letter behind a backslash, four digits
    behind a backslash and a `u`, or the character itself. -/
theorem escapedChar_cases (c : Char) :
    (∃ e, escapedChar c = ['\\', e] ∧ e ≠ 'u' ∧ simpleEscape? e = some c) ∨
    (escapedChar c = '\\' :: 'u' :: Text.hexDigits 4 c.toNat ∧ c.toNat < 0x20) ∨
    (escapedChar c = [c] ∧ c ≠ '"' ∧ c ≠ '\\' ∧ ¬ c.toNat < 0x20) := by
  by_cases hletter : c ∈ ['"', '\\', '\n', '\r', '\t', '\x08', '\x0c']
  · left
    simp only [List.mem_cons, List.not_mem_nil, or_false] at hletter
    rcases hletter with rfl | rfl | rfl | rfl | rfl | rfl | rfl <;>
      exact ⟨_, rfl, by decide, rfl⟩
  · right
    simp only [List.mem_cons, List.not_mem_nil, or_false, not_or] at hletter
    obtain ⟨hquote, hbackslash, hn, hr, ht, hb, hf⟩ := hletter
    by_cases hcontrol : c.toNat < 0x20
    · left
      simp [escapedChar, hquote, hbackslash, hn, hr, ht, hb, hf, hcontrol]
    · right
      simp [escapedChar, hquote, hbackslash, hn, hr, ht, hb, hf, hcontrol]

theorem textChars_escapedChar (opening fuel : Nat) (c : Char) {rest : List Char}
    (hrest : rest ≠ []) :
    textChars opening (fuel + 1) (escapedChar c ++ rest) =
      readBehind c (textChars opening fuel rest) := by
  rcases escapedChar_cases c with ⟨e, hshape, hu, himage⟩ | ⟨hshape, hcontrol⟩ |
    ⟨hshape, hquote, hbackslash, hcontrol⟩
  · -- a letter behind a backslash
    rw [hshape]
    simp [textChars, himage, readBehind]
  · -- four digits behind a backslash
    rw [hshape]
    simp [textChars, codeUnit_hexDigits hcontrol hrest, lowUnit?_control hcontrol,
      ofCode_control hcontrol, readBehind, bind, Except.bind]
  · -- the character itself
    rw [hshape]
    simp [textChars, hquote, hbackslash, hcontrol, readBehind]

/-! ### Whole texts -/

theorem textChars_escaped (opening : Nat) (cs rest : List Char) {fuel : Nat}
    (hfuel : cs.length < fuel) :
    textChars opening fuel (cs.flatMap escapedChar ++ '"' :: rest) = .ok (cs, rest) := by
  induction cs generalizing fuel with
  | nil =>
    obtain ⟨fuel, rfl⟩ := Nat.exists_eq_add_of_lt hfuel
    rfl
  | cons c cs ih =>
    obtain ⟨fuel, rfl⟩ : ∃ n, fuel = n + 1 := ⟨fuel - 1, by rw [List.length_cons] at hfuel; omega⟩
    rw [List.flatMap_cons, List.append_assoc, textChars_escapedChar opening fuel c (by simp),
      ih (by rw [List.length_cons] at hfuel; omega)]
    rfl

theorem escapedChar_ne_nil (c : Char) : escapedChar c ≠ [] := by
  unfold escapedChar
  repeat' split
  all_goals simp

theorem length_le_flatMap_escapedChar (cs : List Char) :
    cs.length ≤ (cs.flatMap escapedChar).length := by
  induction cs with
  | nil => exact Nat.le_refl 0
  | cons c cs ih =>
    have hpos := List.length_pos_of_ne_nil (escapedChar_ne_nil c)
    rw [List.flatMap_cons, List.length_append, List.length_cons]
    omega

/-- **Texts between quotes are read back**, whatever their characters and whatever follows. -/
theorem textBody_escaped (s : String) (rest : List Char) :
    textBody (s.toList.flatMap escapedChar ++ '"' :: rest) = .ok (s, rest) := by
  have hlength := length_le_flatMap_escapedChar s.toList
  have hfuel : s.toList.length < (s.toList.flatMap escapedChar ++ '"' :: rest).length + 1 := by
    rw [List.length_append]
    omega
  rw [textBody, textChars_escaped _ _ _ hfuel]
  show Except.ok (String.ofList s.toList, rest) = _
  rw [String.ofList_toList]

/-- Two escaped texts at the start of one text are the same text with the same rest. -/
theorem escaped_append_inj {s t : String} {r r' : List Char} (h : escaped s ++ r = escaped t ++ r') :
    s = t ∧ r = r' := by
  have hbody : s.toList.flatMap escapedChar ++ '"' :: r = t.toList.flatMap escapedChar ++ '"' :: r' := by
    simpa [escaped] using h
  have hread := textBody_escaped s r
  rw [hbody, textBody_escaped t r'] at hread
  obtain ⟨ht, hr⟩ := Prod.mk.inj (Except.ok.inj hread)
  exact ⟨ht.symm, hr.symm⟩

end Quorum.Value
