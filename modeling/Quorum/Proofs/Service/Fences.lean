/-
  Quorum/Proofs/Service/Fences.lean
  =================================
  **Values come back from fenced replies.**

  A reply may hold a value on its own or between fences, with blanks around the text and around
  the fences.  Taking the fences away leaves the text of the value exactly (`unfenced_around`):
  it begins and ends with a character that is no blank and no part of a fence, so what is
  trimmed and dropped is never a part of it, even where texts inside the value look like
  fences.  What is left is read back up to the order of entries, in the form people read as
  well as in canonical keys (`readValue_around`).
-/
import Quorum.Proofs.Value.ReadBack
import Quorum.Service.Completion

namespace Quorum

/-! ### Trimming -/

namespace Text

/-- Both ends of a text are outside a class of characters. -/
structure Bounded (p : Char → Bool) (t : List Char) : Prop where
  head : ∃ c rest, t = c :: rest ∧ p c = false
  last : ∃ rest c, t = rest ++ [c] ∧ p c = false

theorem Bounded.extend {p : Char → Bool} {front t back : List Char} (ht : Bounded p t)
    (hfront : front = [] ∨ ∃ c rest, front = c :: rest ∧ p c = false)
    (hback : back = [] ∨ ∃ rest c, back = rest ++ [c] ∧ p c = false) :
    Bounded p (front ++ (t ++ back)) := by
  constructor
  · rcases hfront with rfl | ⟨c, rest, rfl, hc⟩
    · obtain ⟨c, rest, rfl, hc⟩ := ht.head
      exact ⟨c, rest ++ back, rfl, hc⟩
    · exact ⟨c, _, rfl, hc⟩
  · rcases hback with rfl | ⟨rest, c, rfl, hc⟩
    · obtain ⟨rest, c, rfl, hc⟩ := ht.last
      exact ⟨front ++ rest, c, by simp, hc⟩
    · exact ⟨front ++ (t ++ rest), c, by simp, hc⟩

/-- Trimming takes away what stands around a text, and nothing of the text. -/
theorem trim_around {p : Char → Bool} {before t after : List Char}
    (hbefore : ∀ c ∈ before, p c = true) (ht : Bounded p t) (hafter : ∀ c ∈ after, p c = true) :
    trim p (before ++ (t ++ after)) = t := by
  have hstart : trimStart p (before ++ (t ++ after)) = t ++ after := by
    obtain ⟨c, rest, rfl, hc⟩ := ht.head
    rw [trimStart, List.dropWhile_append_of_pos hbefore]
    simp [hc]
  have hend : trimEnd p (t ++ after) = t := by
    obtain ⟨rest, c, rfl, hc⟩ := ht.last
    have hreverse : ∀ c ∈ after.reverse, p c = true := fun c hc => hafter c (List.mem_reverse.mp hc)
    rw [trimEnd, List.reverse_append, List.dropWhile_append_of_pos hreverse]
    simp [hc]
  rw [trim, hstart, hend]

theorem not_isBlank_of_isDigit {c : Char} (hc : c.isDigit = true) : isBlank c = false := by
  simp only [Char.isDigit, Bool.and_eq_true, decide_eq_true_eq, ge_iff_le,
    UInt32.le_iff_toNat_le] at hc
  have hlow : 48 ≤ c.toNat := hc.1
  have hhigh : c.toNat ≤ 57 := hc.2
  simp only [isBlank, isWhite, Bool.or_eq_false_iff, Bool.and_eq_false_iff,
    decide_eq_false_iff_not, beq_eq_false_iff_ne]
  omega

end Text

/-! ### The ends of the text of a value -/

namespace Service

/-- The character is no blank and no part of a fence, so it may stand at an end of a text. -/
def isSolid (c : Char) : Bool := !Text.isBlank c && c != '`'

theorem isSolid_of_isDecimalChar {c : Char} (hc : Decimal.isDecimalChar c = true) :
    isSolid c = true := by
  simp only [Decimal.isDecimalChar, Bool.or_eq_true, beq_iff_eq] at hc
  rcases hc with (((hdigit | rfl) | rfl) | rfl) | rfl
  · have hne : c ≠ '`' := by
      rintro rfl
      exact absurd hdigit (by decide)
    simp [isSolid, Text.not_isBlank_of_isDigit hdigit, hne]
  all_goals decide

theorem isSolid_of_mark {c : Char} {v : Value} (hc : Value.markOf c = v.mark) :
    isSolid c = true := by
  unfold Value.markOf at hc
  split at hc
  · rename_i hnumber
    simp only [Decimal.beginsNumber, Decimal.isWholeChar, Bool.or_eq_true, beq_iff_eq] at hnumber
    rcases hnumber with ((hdigit | rfl) | rfl) | rfl
    · exact isSolid_of_isDecimalChar (Decimal.isDecimalChar_of_isDigit hdigit)
    all_goals decide
  · split at hc
    · rename_i hf
      rw [beq_iff_eq.mp hf]
      decide
    · have hmark := v.mark_mem
      rw [← hc] at hmark
      simp only [List.mem_cons, List.not_mem_nil, or_false] at hmark
      rcases hmark with rfl | rfl | rfl | rfl | rfl | rfl <;> decide

/-- The text of a value in a reply begins and ends with solid characters, and does not begin
    like the name of a format. -/
structure IsPayload (t : List Char) : Prop where
  head : ∃ c rest, t = c :: rest ∧ isSolid c = true ∧ c ≠ 'j'
  last : ∃ rest c, t = rest ++ [c] ∧ isSolid c = true

end Service

namespace Value

open Service (isSolid IsPayload)

theorem isSolid_of_mem_word {form : Form} (hform : form.numbers = Decimal.Style.json) {v : Value}
    (hword : v.isWord = true) (hd : v.AllDoubles Legible) (level : Nat) :
    ∀ c ∈ form.chars level v, isSolid c = true := by
  cases hd with
  | null =>
    exact List.all_eq_true.mp (show ['n', 'u', 'l', 'l'].all isSolid = true from rfl)
  | bool b =>
    cases b with
    | false =>
      exact List.all_eq_true.mp (show ['f', 'a', 'l', 's', 'e'].all isSolid = true from rfl)
    | true =>
      exact List.all_eq_true.mp (show ['t', 'r', 'u', 'e'].all isSolid = true from rfl)
  | int i =>
    obtain ⟨parts, hchars, hproper, -⟩ := Decimal.toString_int_shape i
    intro c hc
    rw [Form.chars, ← hchars] at hc
    exact Service.isSolid_of_isDecimalChar
      (hproper.isDecimalChar_of_mem hc)
  | float hx =>
    obtain ⟨d, hfinite⟩ := hx.finite
    obtain ⟨parts, hchars, -, hproper⟩ := Decimal.write_json_shape hfinite
    intro c hc
    rw [Form.chars, hform, ← hchars] at hc
    exact Service.isSolid_of_isDecimalChar
      (hproper.isDecimalChar_of_mem hc)
  | text s => exact absurd hword Bool.false_ne_true
  | list hitems => exact absurd hword Bool.false_ne_true
  | object hvalues => exact absurd hword Bool.false_ne_true

theorem chars_last {form : Form} (hform : form.numbers = Decimal.Style.json) {v : Value}
    (hd : v.AllDoubles Legible) (level : Nat) :
    ∃ rest c, form.chars level v = rest ++ [c] ∧ isSolid c = true := by
  by_cases hword : v.isWord = true
  · obtain ⟨c, rest, hchars, -⟩ := chars_mark hform level v
    have hne : form.chars level v ≠ [] := hchars ▸ List.cons_ne_nil c rest
    exact ⟨_, _, (List.dropLast_concat_getLast hne).symm,
      isSolid_of_mem_word hform hword hd level _ (List.getLast_mem hne)⟩
  · cases v with
    | text s => exact ⟨'"' :: s.toList.flatMap escapedChar, '"', rfl, by decide⟩
    | list items =>
      obtain ⟨rest, hrest⟩ := bracketed_last form level '[' ']' (form.itemChars (level + 1) items)
      exact ⟨rest, ']', hrest, by decide⟩
    | object entries =>
      obtain ⟨rest, hrest⟩ := bracketed_last form level '{' '}' _
      exact ⟨rest, '}', hrest, by decide⟩
    | null | bool b | int i | float x => exact absurd rfl hword

theorem isPayload_chars {form : Form} (hform : form.numbers = Decimal.Style.json) {v : Value}
    (hd : v.AllDoubles Legible) (level : Nat) : IsPayload (form.chars level v) := by
  obtain ⟨c, rest, hchars, hc⟩ := chars_mark hform level v
  exact ⟨⟨c, rest, hchars, Service.isSolid_of_mark hc, ne_of_mark hc (by decide)⟩,
    chars_last hform hd level⟩

end Value

/-! ### Fences -/

namespace Service

/-- How a reply begins a value: at once, or behind a fence with or without the name of the
    format. -/
inductive Opening where
  | bare
  | fence
  | named
deriving DecidableEq, Repr

def Opening.text : Opening → String
  | .bare => ""
  | .fence => "```"
  | .named => "```json"

def Opening.chars (o : Opening) : List Char := o.text.toList

/-- What a reply has around a value: a fence that opens it, a fence that closes it, and blanks
    around fences and text. -/
structure Wrapping where
  before : List Char
  opening : Opening
  lead : List Char
  trail : List Char
  closed : Bool
  after : List Char
  blank : ∀ part ∈ [before, lead, trail, after], ∀ c ∈ part, Text.isBlank c = true

/-- The text of a closing fence, if there is one. -/
def closingChars (closed : Bool) : List Char := if closed then "```".toList else []

namespace Wrapping

variable (w : Wrapping)

def around (t : List Char) : List Char :=
  w.before ++ (w.opening.chars ++ w.lead) ++ (t ++ (w.trail ++ closingChars w.closed ++ w.after))

/-- The blanks in front of the text that belong to a fence. -/
def innerLead : List Char := if w.opening = .bare then [] else w.lead

/-- The blanks behind the text that belong to a fence. -/
def innerTrail : List Char := if w.closed then w.trail else []

theorem blank_innerLead : ∀ c ∈ w.innerLead, Text.isBlank c = true := by
  unfold innerLead
  split
  · nofun
  · exact w.blank w.lead (by simp)

theorem blank_innerTrail : ∀ c ∈ w.innerTrail, Text.isBlank c = true := by
  unfold innerTrail
  split
  · exact w.blank w.trail (by simp)
  · nofun

/-- In front of the text there are blanks, and then a fence with its own blanks or nothing. -/
theorem front_eq : ∃ outer, (∀ c ∈ outer, Text.isBlank c = true) ∧
    w.before ++ (w.opening.chars ++ w.lead) = outer ++ (w.opening.chars ++ w.innerLead) := by
  by_cases hbare : w.opening = .bare
  · refine ⟨w.before ++ w.lead, ?_, by simp [innerLead, hbare, Opening.chars, Opening.text]⟩
    exact List.forall_mem_append.mpr
      ⟨w.blank w.before (by simp), w.blank w.lead (by simp)⟩
  · exact ⟨w.before, w.blank w.before (by simp), by simp [innerLead, hbare]⟩

/-- Behind the text there is a fence with its own blanks or nothing, and then blanks. -/
theorem back_eq : ∃ outer, (∀ c ∈ outer, Text.isBlank c = true) ∧
    w.trail ++ closingChars w.closed ++ w.after =
      w.innerTrail ++ closingChars w.closed ++ outer := by
  cases hclosed : w.closed with
  | true => exact ⟨w.after, w.blank w.after (by simp), by simp [innerTrail, hclosed]⟩
  | false =>
    refine ⟨w.trail ++ w.after, ?_, by simp [innerTrail, hclosed, closingChars]⟩
    exact List.forall_mem_append.mpr
      ⟨w.blank w.trail (by simp), w.blank w.after (by simp)⟩

end Wrapping

theorem not_isBlank_of_isSolid {c : Char} (hc : isSolid c = true) : Text.isBlank c = false := by
  simp only [isSolid, Bool.and_eq_true, Bool.not_eq_true'] at hc
  exact hc.1

theorem ne_backquote_of_isSolid {c : Char} (hc : isSolid c = true) : c ≠ '`' := by
  rintro rfl
  exact absurd hc (by decide)

theorem IsPayload.bounded {t : List Char} (ht : IsPayload t) : Text.Bounded Text.isBlank t := by
  obtain ⟨⟨c, rest, hc, hsolid, -⟩, ⟨rest', d, hd, hsolid'⟩⟩ := ht
  exact ⟨⟨c, rest, hc, not_isBlank_of_isSolid hsolid⟩,
    ⟨rest', d, hd, not_isBlank_of_isSolid hsolid'⟩⟩

/-- The first character of a text with blanks in front is no name of a format and no fence. -/
theorem head_of_blank_append {blanks t : List Char}
    (hblanks : ∀ c ∈ blanks, Text.isBlank c = true) (ht : IsPayload t) (r : List Char) :
    ∃ c rest, blanks ++ (t ++ r) = c :: rest ∧ c ≠ '`' ∧ c ≠ 'j' := by
  cases blanks with
  | nil =>
    obtain ⟨c, rest, rfl, hsolid, hj⟩ := ht.head
    exact ⟨c, rest ++ r, rfl, ne_backquote_of_isSolid hsolid, hj⟩
  | cons c blanks =>
    have hc := hblanks c List.mem_cons_self
    refine ⟨c, _, rfl, ?_, ?_⟩
    · rintro rfl
      exact absurd hc (by decide)
    · rintro rfl
      exact absurd hc (by decide)

theorem dropOpeningFence_append (opening : Opening) {c : Char} {rest : List Char}
    (hquote : c ≠ '`') (hname : c ≠ 'j') :
    dropOpeningFence (opening.chars ++ c :: rest) = c :: rest := by
  cases opening with
  | bare => simp [Opening.chars, Opening.text, dropOpeningFence, hquote.symm]
  | fence => simp [Opening.chars, Opening.text, dropOpeningFence, hname.symm]
  | named => simp [Opening.chars, Opening.text, dropOpeningFence]

theorem dropClosingFence_append (r : List Char) : dropClosingFence (r ++ "```".toList) = r := by
  simp [dropClosingFence]

theorem dropClosingFence_of_last (r : List Char) {c : Char} (hc : c ≠ '`') :
    dropClosingFence (r ++ [c]) = r ++ [c] := by
  have hsuffix : "```".toList.isSuffixOf (r ++ [c]) = false := by
    simp [List.isSuffixOf, List.isPrefixOf, hc.symm]
  rw [dropClosingFence, hsuffix]
  rfl

theorem dropClosingFence_payload (w : Wrapping) {t : List Char} (ht : IsPayload t)
    (front : List Char) :
    dropClosingFence (front ++ (t ++ (w.innerTrail ++ closingChars w.closed))) =
      front ++ (t ++ w.innerTrail) := by
  unfold Wrapping.innerTrail closingChars
  cases w.closed with
  | true =>
    have hdrop := dropClosingFence_append (front ++ (t ++ w.trail))
    simpa using hdrop
  | false =>
    obtain ⟨rest, c, rfl, hc⟩ := ht.last
    have hdrop := dropClosingFence_of_last (front ++ rest) (ne_backquote_of_isSolid hc)
    simpa using hdrop

/-- Taking blanks and fences away leaves the text. -/
theorem unfenced_around (w : Wrapping) {t : List Char} (ht : IsPayload t) :
    unfenced (String.ofList (w.around t)) = String.ofList t := by
  obtain ⟨outer, houter, hfront⟩ := w.front_eq
  obtain ⟨outer', houter', hback⟩ := w.back_eq
  let inner := w.opening.chars ++ w.innerLead ++ (t ++ (w.innerTrail ++ closingChars w.closed))
  have hchars : w.around t = outer ++ (inner ++ outer') := by
    rw [Wrapping.around, hfront, hback]
    simp [inner]
  -- what the outer blanks leave begins with a fence or the text, and so it ends
  have hbounded : Text.Bounded Text.isBlank inner := by
    refine ht.bounded.extend ?_ ?_
    · unfold Wrapping.innerLead
      cases w.opening with
      | bare => exact Or.inl rfl
      | fence => exact Or.inr ⟨'`', _, rfl, by decide⟩
      | named => exact Or.inr ⟨'`', _, rfl, by decide⟩
    · unfold Wrapping.innerTrail
      cases w.closed with
      | true => exact Or.inr ⟨w.trail ++ ['`', '`'], '`', by simp [closingChars], by decide⟩
      | false => exact Or.inl rfl
  have htrim : Text.trim Text.isBlank (w.around t) = inner := by
    rw [hchars]
    exact Text.trim_around houter hbounded houter'
  have hopening : dropOpeningFence inner =
      w.innerLead ++ (t ++ (w.innerTrail ++ closingChars w.closed)) := by
    obtain ⟨c, rest, hc, hquote, hname⟩ :=
      head_of_blank_append w.blank_innerLead ht (w.innerTrail ++ closingChars w.closed)
    show dropOpeningFence (w.opening.chars ++ w.innerLead ++ _) = _
    rw [List.append_assoc, hc]
    exact dropOpeningFence_append w.opening hquote hname
  unfold unfenced
  rw [String.toList_ofList]
  simp only [htrim, hopening, dropClosingFence_payload w ht]
  rw [Text.trim_around w.blank_innerLead ht.bounded w.blank_innerTrail]

/-- The text of a value in a report, or behind the first letter and colon of its key. -/
theorem written_of_text {v : Value} (htext : v.mark ≠ '"') (hnull : v ≠ .null) {t : String}
    (ht : t = v.render ∨ v.canonicalKey = "j:" ++ t) :
    ∃ form : Value.Form, form.numbers = Decimal.Style.json ∧ form.sorted = true ∧
      t = v.write form := by
  rcases ht with rfl | hkey
  · refine ⟨.rendered, rfl, rfl, ?_⟩
    cases v <;> first
      | rfl
      | exact absurd rfl htext
      | exact absurd rfl hnull
  · refine ⟨.canonical, rfl, rfl, ?_⟩
    have hchars := congrArg String.toList (hkey.symm.trans (Value.canonicalKey_of_mark htext))
    rw [String.toList_append, String.toList_append] at hchars
    exact String.toList_inj.mp (List.append_cancel_left hchars)

/-- **Values survive prompts and replies.**  A value that is neither a text nor null, written
    for people or as a canonical key, is read back from a reply up to the order of entries,
    whatever fences and blanks the reply has around it. -/
theorem readValue_around {v : Value} (hv : v.WellKeyed) (hd : v.AllDoubles Value.Legible)
    (htext : ∀ s, v ≠ .text s) (hnull : v ≠ .null) {t : String}
    (ht : t = v.render ∨ v.canonicalKey = "j:" ++ t) (w : Wrapping) :
    readValue (String.ofList (w.around t.toList)) = .ok v.arranged ∧ Value.Same v v.arranged := by
  have hmark : v.mark ≠ '"' := fun h => by
    obtain ⟨s, hs⟩ := Value.eq_text_of_mark h
    exact htext s hs
  obtain ⟨form, hform, hsorted, rfl⟩ := written_of_text hmark hnull ht
  have hpayload : IsPayload (v.write form).toList := by
    rw [Value.write, String.toList_ofList]
    exact Value.isPayload_chars hform hd 0
  refine ⟨?_, Value.same_arranged hv⟩
  rw [readValue, unfenced_around w hpayload, String.ofList_toList]
  exact Value.read_write hform hsorted hv hd

/-- An object whose entries are not in order, with a fence inside a text. -/
def fencedInside : Value :=
  .object [("steps", .list [.int (-3), .text "```"]), ("notes", .object [])]

/-- The name of the format behind the opening fence, lines of their own for both fences, and a
    blank in front of everything. -/
def ownLines : Wrapping where
  before := [' ']
  opening := .named
  lead := ['\n']
  trail := ['\n']
  closed := true
  after := ['\n']
  blank := by
    have hblank : Text.isBlank '\n' = true ∧ Text.isBlank ' ' = true := ⟨rfl, rfl⟩
    simp [hblank]

theorem wellKeyed_fencedInside : fencedInside.WellKeyed := by
  refine .object (by decide) fun e he => ?_
  simp only [List.mem_cons, List.not_mem_nil, or_false] at he
  rcases he with rfl | rfl
  · refine .list fun v hv => ?_
    simp only [List.mem_cons, List.not_mem_nil, or_false] at hv
    rcases hv with rfl | rfl
    · exact .int (-3)
    · exact .text "```"
  · exact .object List.nodup_nil nofun

theorem legible_fencedInside : fencedInside.AllDoubles Value.Legible := by
  refine .object fun e he => ?_
  simp only [List.mem_cons, List.not_mem_nil, or_false] at he
  rcases he with rfl | rfl
  · refine .list fun v hv => ?_
    simp only [List.mem_cons, List.not_mem_nil, or_false] at hv
    rcases hv with rfl | rfl
    · exact .int (-3)
    · exact .text "```"
  · exact .object nofun

/-- The text behind the first letter and colon of the key of the object. -/
def fencedInsideText : String := "\x7b\"notes\": \x7b\x7d, \"steps\": [-3, \"```\"]\x7d"

theorem fencedInside_survives :
    (fencedInside.WellKeyed ∧ fencedInside.AllDoubles Value.Legible ∧
      (∀ s, fencedInside ≠ .text s) ∧ fencedInside ≠ .null ∧
      fencedInside.canonicalKey = "j:" ++ fencedInsideText) ∧
      String.ofList (ownLines.around fencedInsideText.toList) =
        " ```json\n" ++ fencedInsideText ++ "\n```\n" ∧
      readValue (String.ofList (ownLines.around fencedInsideText.toList)) =
        .ok fencedInside.arranged ∧
      Value.Same fencedInside fencedInside.arranged := by
  have htext : ∀ s, fencedInside ≠ .text s := nofun
  have hnull : fencedInside ≠ .null := nofun
  have hkey : fencedInside.canonicalKey = "j:" ++ fencedInsideText := by cbv
  have hreply : String.ofList (ownLines.around fencedInsideText.toList) =
      " ```json\n" ++ fencedInsideText ++ "\n```\n" := by cbv
  exact ⟨⟨wellKeyed_fencedInside, legible_fencedInside, htext, hnull, hkey⟩, hreply,
    readValue_around wellKeyed_fencedInside legible_fencedInside htext hnull (Or.inr hkey) ownLines⟩

end Service

end Quorum
