/-
  Quorum/Proofs/Document/Spelling.lean
  ====================================
  **One spelling for words, however they are joined.**

  Plain words, of small letters and digits of the ASCII range with a letter first, may be
  joined by low lines or by hyphens, or run together with capitals.  A key that is written in
  any of these ways has the low lines as its one spelling (`snakeKey_write`): among ASCII
  characters the spelling of a key is found character by character (`snakeKey_ascii`), and each
  way to begin a further word comes to a low line and the word.
-/
import Mathlib
import Quorum.Document.Datum

namespace Quorum

/-! ### Lower case in the ASCII range -/

theorem Text.lowerFrom_ascii {cs : List Char} (hcs : ∀ c ∈ cs, c.toNat < 128)
    (before : List Char) : lowerFrom before cs = cs.map Char.toLower := by
  induction cs generalizing before with
  | nil => rfl
  | cons c rest ih =>
    have hc := hcs c List.mem_cons_self
    have hsigma : (c == 'Σ') = false := by
      rw [beq_eq_false_iff_ne]
      rintro rfl
      exact absurd hc (by decide)
    have hdotted : (c == 'İ') = false := by
      rw [beq_eq_false_iff_ne]
      rintro rfl
      exact absurd hc (by decide)
    have hrest := ih (fun d hd => hcs d (List.mem_cons_of_mem _ hd)) (c :: before)
    simp [lowerFrom, hsigma, hdotted, lowerChar, hc, hrest]

namespace Document

/-! ### Character by character -/

/-- A hyphen is taken for a low line. -/
def joined (c : Char) : Char := if c == '-' then '_' else c

/-- What becomes of a character that is not the first one of a key. -/
def spelt (c : Char) : List Char :=
  ((if c.isUpper then ['_', c] else [c]).map joined).map Char.toLower

theorem joined_ascii {c : Char} (hc : c.toNat < 128) : (joined c).toNat < 128 := by
  unfold joined
  split
  · decide
  · exact hc

/-- Among ASCII characters the spelling of a key is found character by character. -/
theorem snakeKey_ascii {c : Char} {rest : List Char} (hcs : ∀ d ∈ c :: rest, d.toNat < 128) :
    snakeKey (String.ofList (c :: rest)) =
      String.ofList ((joined c).toLower :: rest.flatMap spelt) := by
  have hmarked : (splitWords (c :: rest)).map joined =
      joined c :: rest.flatMap fun d => (if d.isUpper then ['_', d] else [d]).map joined := by
    rw [splitWords, List.map_cons, List.map_flatMap]
  have hascii : ∀ d ∈ joined c :: rest.flatMap fun d =>
      (if d.isUpper then ['_', d] else [d]).map joined, d.toNat < 128 := by
    intro d hd
    rcases List.mem_cons.mp hd with rfl | hd
    · exact joined_ascii (hcs c List.mem_cons_self)
    · obtain ⟨e, he, hd⟩ := List.mem_flatMap.mp hd
      obtain ⟨e', he', rfl⟩ := List.mem_map.mp hd
      apply joined_ascii
      have hsmall := hcs e (List.mem_cons_of_mem _ he)
      split at he'
      · rcases List.mem_cons.mp he' with rfl | he'
        · decide
        · exact List.mem_singleton.mp he' ▸ hsmall
      · exact List.mem_singleton.mp he' ▸ hsmall
  have hlower := Text.lowerFrom_ascii hascii []
  rw [List.map_cons, List.map_flatMap] at hlower
  have hsnake : snakeKey (String.ofList (c :: rest)) =
      String.ofList (Text.lowerFrom [] ((splitWords (c :: rest)).map joined)) := by
    simp only [snakeKey, Text.lower, String.toList_ofList]
    rfl
  rw [hsnake, hmarked, hlower]
  rfl

/-! ### Words and their spellings -/

/-- A word of a key: small letters and digits of the ASCII range, with a letter first. -/
structure Word where
  first : Char
  rest : List Char
  first_isLower : first.isLower = true
  rest_plain : ∀ c ∈ rest, c.isLower = true ∨ c.isDigit = true

/-- A way to write a key of several words. -/
inductive Spelling where
  | snake
  | kebab
  | camel

/-- The characters of a word. -/
def Word.chars (w : Word) : List Char := w.first :: w.rest

namespace Spelling

/-- How a word is written that is not the first one. -/
def next : Spelling → Word → List Char
  | snake, w => '_' :: w.chars
  | kebab, w => '-' :: w.chars
  | camel, w => w.first.toUpper :: w.rest

/-- The key that some words make. -/
def write (s : Spelling) : List Word → String
  | [] => ""
  | w :: rest => String.ofList (w.chars ++ rest.flatMap s.next)

end Spelling

/-! ### Their one spelling -/

theorem not_hyphen {c : Char} (h : 46 ≤ c.toNat) : (c == '-') = false := by
  rw [beq_eq_false_iff_ne]
  rintro rfl
  exact absurd h (by decide)

theorem isLower_bounds {c : Char} (h : c.isLower = true) : 97 ≤ c.toNat ∧ c.toNat ≤ 122 := by
  simpa [Char.isLower, UInt32.le_iff_toNat_le] using h

/-- A capital letter is 32 places before its small letter. -/
theorem toNat_toUpper {c : Char} (h : c.isLower = true) : c.toUpper.toNat = c.toNat - 32 := by
  have hbounds := isLower_bounds h
  have hle : 'a'.val ≤ c.val ∧ c.val ≤ 'z'.val := by
    simpa [Char.isLower] using h
  have hback : ('A'.val - 'a'.val).toNat = 2 ^ 32 - 32 := rfl
  have hval : c.val.toNat = c.toNat := rfl
  rw [Char.toUpper, dif_pos hle]
  change (c.val + ('A'.val - 'a'.val)).toNat = _
  rw [UInt32.toNat_add, hback, hval]
  omega

/-- The characters of words are of the ASCII range, neither capitals nor hyphens. -/
theorem plain_spec {c : Char} (h : c.isLower = true ∨ c.isDigit = true) :
    c.toNat < 128 ∧ c.isUpper = false ∧ (c == '-') = false := by
  rcases h with h | h
  · have hbounds := isLower_bounds h
    exact ⟨by omega, Bool.eq_false_iff.mpr (Char.not_isUpper_of_isLower h),
      not_hyphen (by omega)⟩
  · have hbounds : 48 ≤ c.toNat ∧ c.toNat ≤ 57 := by
      simpa [Char.isDigit, UInt32.le_iff_toNat_le] using h
    refine ⟨by omega, ?_, not_hyphen (by omega)⟩
    by_contra hupper
    have hbounds' : 65 ≤ c.toNat ∧ c.toNat ≤ 90 := by
      simpa [Char.isUpper, UInt32.le_iff_toNat_le] using hupper
    omega

theorem spelt_plain {c : Char} (h : c.isLower = true ∨ c.isDigit = true) : spelt c = [c] := by
  obtain ⟨-, hupper, hhyphen⟩ := plain_spec h
  simp [spelt, joined, hupper, hhyphen, Char.toLower_eq_of_not_isUpper]

theorem flatMap_spelt_plain {cs : List Char}
    (h : ∀ c ∈ cs, c.isLower = true ∨ c.isDigit = true) : cs.flatMap spelt = cs := by
  induction cs with
  | nil => rfl
  | cons c rest ih =>
    rw [List.flatMap_cons, spelt_plain (h c List.mem_cons_self),
      ih fun d hd => h d (List.mem_cons_of_mem _ hd), List.singleton_append]

namespace Word

variable (w : Word)

theorem chars_plain : ∀ c ∈ w.chars, c.isLower = true ∨ c.isDigit = true :=
  List.forall_mem_cons.mpr ⟨Or.inl w.first_isLower, w.rest_plain⟩

/-- Each way to begin a further word comes to a low line and the word. -/
theorem next_spelt (s : Spelling) : (s.next w).flatMap spelt = '_' :: w.chars := by
  cases s with
  | snake =>
    rw [Spelling.next, List.flatMap_cons, flatMap_spelt_plain w.chars_plain]
    rfl
  | kebab =>
    rw [Spelling.next, List.flatMap_cons, flatMap_spelt_plain w.chars_plain]
    rfl
  | camel =>
    have hbounds := isLower_bounds w.first_isLower
    have hcapital : spelt w.first.toUpper = ['_', w.first] := by
      have hupper : w.first.toUpper.isUpper = true := by
        rw [Char.isUpper_toUpper_eq_isAlpha, Char.isAlpha, w.first_isLower, Bool.or_true]
      have hhyphen : (w.first.toUpper == '-') = false := by
        apply not_hyphen
        rw [toNat_toUpper w.first_isLower]
        omega
      have hback : w.first.toLower = w.first :=
        Char.toLower_eq_of_not_isUpper (Char.not_isUpper_of_isLower w.first_isLower)
      simp [spelt, joined, hupper, hhyphen, Char.toLower_toUpper_eq_toLower, hback]
    rw [Spelling.next, List.flatMap_cons, hcapital, flatMap_spelt_plain w.rest_plain]
    rfl

theorem next_ascii (s : Spelling) : ∀ c ∈ s.next w, c.toNat < 128 := by
  have hchars : ∀ c ∈ w.chars, c.toNat < 128 := fun c hc => (plain_spec (w.chars_plain c hc)).1
  cases s with
  | snake => exact List.forall_mem_cons.mpr ⟨by decide, hchars⟩
  | kebab => exact List.forall_mem_cons.mpr ⟨by decide, hchars⟩
  | camel =>
    obtain ⟨hfirst, hrest⟩ := List.forall_mem_cons.mp hchars
    refine List.forall_mem_cons.mpr ⟨?_, hrest⟩
    rw [toNat_toUpper w.first_isLower]
    omega

end Word

/-- However words are joined, the key has the low lines as its one spelling. -/
theorem snakeKey_write (s : Spelling) (words : List Word) :
    snakeKey (s.write words) = Spelling.snake.write words := by
  cases words with
  | nil => rfl
  | cons w rest =>
    have hascii : ∀ c ∈ w.first :: (w.rest ++ rest.flatMap s.next), c.toNat < 128 := by
      intro c hc
      rw [← List.cons_append] at hc
      rcases List.mem_append.mp hc with hc | hc
      · exact (plain_spec (w.chars_plain c hc)).1
      · obtain ⟨v, -, hc⟩ := List.mem_flatMap.mp hc
        exact v.next_ascii s c hc
    have hfirst : (joined w.first).toLower = w.first := by
      obtain ⟨-, hupper, hhyphen⟩ := plain_spec (Or.inl w.first_isLower)
      rw [joined, hhyphen]
      exact Char.toLower_eq_of_not_isUpper (Bool.eq_false_iff.mp hupper)
    have hwords : (rest.flatMap s.next).flatMap spelt = rest.flatMap Spelling.snake.next := by
      rw [List.flatMap_assoc]
      exact congrArg (rest.flatMap ·) (funext fun v => v.next_spelt s)
    have hsnake := snakeKey_ascii hascii
    rw [hfirst, List.flatMap_append, flatMap_spelt_plain w.rest_plain, hwords] at hsnake
    exact hsnake

end Document

end Quorum
