/-
  Quorum/Proofs/Value/CanonicalText.lean
  ======================================
  **The text of a value on one line.**

  The canonical form writes a value without regard to its level of nesting, so the text of
  a list is made of the texts of its items and the text of an object of the texts of its
  entries in ascending order of keys (`code_list`, `code_object`).  The first character of a
  text tells the kind of its value, up to whole numbers and doubles (`code_mark`), and
  sequences of texts in brackets are read off piece by piece (`joined_cancel`).
-/
import Quorum.Proofs.Decimal.NumberText
import Quorum.Proofs.Value.QuotedText
import Quorum.Proofs.Value.Same

namespace Quorum.Value

open Decimal (isDelimiter isWholeChar beginsNumber)

/-! ### The parts of a text -/

theorem itemChars_eq_map (form : Form) (level : Nat) (items : List Value) :
    form.itemChars level items = items.map (form.chars level) := by
  induction items with
  | nil => rfl
  | cons v rest ih => rw [Form.itemChars, ih, List.map_cons]

theorem entryChars_eq_map (form : Form) (level : Nat) (entries : List (String × Value)) :
    form.entryChars level entries = entries.map fun e => (e.1, form.chars level e.2) := by
  induction entries with
  | nil => rfl
  | cons e rest ih => rw [Form.entryChars, ih, List.map_cons]

/-- On one line brackets do not depend on the level of nesting. -/
theorem canonical_bracketed (level : Nat) (opening closing : Char) (items : List (List Char)) :
    Form.canonical.bracketed level opening closing items =
      opening :: (joined [',', ' '] items ++ [closing]) := by
  cases items with
  | nil => rfl
  | cons t rest => rfl

/-- The text of a value inside a canonical key. -/
def code (v : Value) : List Char := Form.canonical.chars 0 v

/-- On one line the text of a value does not depend on the level of nesting. -/
theorem canonical_chars (level : Nat) (v : Value) : Form.canonical.chars level v = code v := by
  unfold code
  induction v generalizing level with
  | null | int i | float x | text s => rfl
  | bool b => cases b <;> rfl
  | list items ih =>
    have hitems : items.map (Form.canonical.chars (level + 1)) =
        items.map (Form.canonical.chars (0 + 1)) :=
      List.map_congr_left fun v hv => (ih v hv (level + 1)).trans (ih v hv (0 + 1)).symm
    simp only [Form.chars, canonical_bracketed, itemChars_eq_map, hitems]
  | object entries ih =>
    have hentries : (entries.map fun e => (e.1, Form.canonical.chars (level + 1) e.2)) =
        entries.map fun e => (e.1, Form.canonical.chars (0 + 1) e.2) :=
      List.map_congr_left fun e he => by
        rw [ih e he (level + 1), ih e he (0 + 1)]
    simp only [Form.chars, canonical_bracketed, entryChars_eq_map, hentries]

theorem code_list (items : List Value) :
    code (.list items) = '[' :: (joined [',', ' '] (items.map code) ++ [']']) := by
  rw [code, Form.chars, canonical_bracketed, itemChars_eq_map, funext (canonical_chars _)]

/-- The key and the text of an entry. -/
def codedEntry (e : String × Value) : String × List Char := (e.1, code e.2)

/-- The text of an entry inside a canonical key. -/
def entryCode (e : String × Value) : List Char := escaped e.1 ++ ':' :: ' ' :: code e.2

/-- Entries are put in order by their keys, before or after their values are changed. -/
theorem sortedByKey_map {α β : Type} (f : String × α → β) (entries : List (String × α)) :
    sortedByKey (entries.map fun e => (e.1, f e)) = (sortedByKey entries).map fun e => (e.1, f e) :=
  (List.map_mergeSort (f := fun e : String × α => (e.1, f e)) fun _ _ _ _ => rfl).symm

theorem sortedByKey_coded (entries : List (String × Value)) :
    sortedByKey (entries.map codedEntry) = (sortedByKey entries).map codedEntry :=
  sortedByKey_map (fun e => code e.2) entries

theorem code_object (entries : List (String × Value)) :
    code (.object entries) =
      '{' :: (joined [',', ' '] ((sortedByKey entries).map entryCode) ++ ['}']) := by
  have hparts : Form.canonical.entryChars (0 + 1) entries = entries.map codedEntry := by
    rw [entryChars_eq_map]
    simp only [canonical_chars]
    rfl
  rw [code, Form.chars, canonical_bracketed, hparts]
  show '{' :: (joined [',', ' '] ((sortedByKey (entries.map codedEntry)).map _) ++ ['}']) = _
  rw [sortedByKey_coded, List.map_map]
  rfl

/-! ### What stands behind a text -/

/-- What stands behind the text of a value: nothing, or what ends an item or an entry. -/
def Delimited (r : List Char) : Prop := ∀ c rest, r = c :: rest → isDelimiter c = true

theorem delimited_nil : Delimited [] := fun _ _ h => nomatch h

theorem delimited_cons {c : Char} {rest : List Char} (hc : isDelimiter c = true) :
    Delimited (c :: rest) := fun _ _ h => (List.cons.inj h).1 ▸ hc

/-- A text without delimiters is read off up to the first delimiter. -/
theorem word_cancel {t t' r r' : List Char} (ht : ∀ c ∈ t, isDelimiter c = false)
    (ht' : ∀ c ∈ t', isDelimiter c = false) (hr : Delimited r) (hr' : Delimited r')
    (h : t ++ r = t' ++ r') : t = t' ∧ r = r' := by
  induction t generalizing t' with
  | nil =>
    cases t' with
    | nil => exact ⟨rfl, h⟩
    | cons c' t' =>
      have hend : isDelimiter c' = true := hr c' _ h
      rw [ht' c' List.mem_cons_self] at hend
      exact absurd hend Bool.false_ne_true
  | cons c t ih =>
    cases t' with
    | nil =>
      have hend : isDelimiter c = true := hr' c _ h.symm
      rw [ht c List.mem_cons_self] at hend
      exact absurd hend Bool.false_ne_true
    | cons c' t' =>
      obtain ⟨rfl, hrest⟩ := List.cons.inj h
      obtain ⟨rfl, hr⟩ := ih (fun d hd => ht d (List.mem_cons_of_mem _ hd))
        (fun d hd => ht' d (List.mem_cons_of_mem _ hd)) hrest
      exact ⟨rfl, hr⟩

/-! ### Sequences of texts -/

section Sequences

variable {α : Type} {R : α → α → Prop} {f : α → List Char} {closing : Char}

/-- Everything in a sequence behind its first text. -/
def followers (f : α → List Char) (xs : List α) : List Char :=
  xs.flatMap fun x => ',' :: ' ' :: f x

theorem joined_map_cons (f : α → List Char) (x : α) (xs : List α) :
    joined [',', ' '] ((x :: xs).map f) = f x ++ followers f xs := by
  induction xs generalizing x with
  | nil => simp [joined, followers]
  | cons y ys ih =>
    rw [List.map_cons, List.map_cons, joined, ← List.map_cons, ih y]
    · simp [followers]
    · exact List.cons_ne_nil _ _

theorem delimited_followers (hclosing : isDelimiter closing = true) (xs : List α)
    (r : List Char) : Delimited (followers f xs ++ closing :: r) := by
  cases xs with
  | nil => exact delimited_cons hclosing
  | cons x xs => exact delimited_cons (by decide)

theorem followers_cancel (hclosing : isDelimiter closing = true) (hcomma : closing ≠ ',')
    {xs ys : List α} (hitem : ∀ x ∈ xs, ∀ y ∈ ys, ∀ s s', Delimited s → Delimited s' →
      f x ++ s = f y ++ s' → R x y ∧ s = s') {r r' : List Char}
    (h : followers f xs ++ closing :: r = followers f ys ++ closing :: r') :
    List.Forall₂ R xs ys ∧ r = r' := by
  induction xs generalizing ys with
  | nil =>
    cases ys with
    | nil => exact ⟨.nil, (List.cons.inj h).2⟩
    | cons y ys => exact absurd (List.cons.inj h).1 hcomma
  | cons x xs ih =>
    cases ys with
    | nil => exact absurd (List.cons.inj h).1.symm hcomma
    | cons y ys =>
      have hfirst : f x ++ (followers f xs ++ closing :: r) =
          f y ++ (followers f ys ++ closing :: r') := by
        simpa [followers] using h
      obtain ⟨hxy, hrest⟩ := hitem x List.mem_cons_self y List.mem_cons_self _ _
        (delimited_followers hclosing xs r) (delimited_followers hclosing ys r') hfirst
      obtain ⟨hxs, hr⟩ := ih (fun x hx y hy => hitem x (List.mem_cons_of_mem _ hx) y
        (List.mem_cons_of_mem _ hy)) hrest
      exact ⟨.cons hxy hxs, hr⟩

/-- A bracketed sequence is read off piece by piece if its pieces are, and if none of them
    begins with the closing bracket. -/
theorem joined_cancel (hclosing : isDelimiter closing = true) (hcomma : closing ≠ ',')
    {xs ys : List α} (hhead : ∀ x s s', f x ++ s ≠ closing :: s')
    (hitem : ∀ x ∈ xs, ∀ y ∈ ys, ∀ s s', Delimited s → Delimited s' →
      f x ++ s = f y ++ s' → R x y ∧ s = s') {r r' : List Char}
    (h : joined [',', ' '] (xs.map f) ++ closing :: r =
      joined [',', ' '] (ys.map f) ++ closing :: r') : List.Forall₂ R xs ys ∧ r = r' := by
  cases xs with
  | nil =>
    cases ys with
    | nil => exact ⟨.nil, (List.cons.inj h).2⟩
    | cons y ys =>
      rw [joined_map_cons, List.append_assoc] at h
      exact absurd h.symm (hhead y _ _)
  | cons x xs =>
    cases ys with
    | nil =>
      rw [joined_map_cons, List.append_assoc] at h
      exact absurd h (hhead x _ _)
    | cons y ys =>
      rw [joined_map_cons, joined_map_cons, List.append_assoc, List.append_assoc] at h
      obtain ⟨hxy, hrest⟩ := hitem x List.mem_cons_self y List.mem_cons_self _ _
        (delimited_followers hclosing xs r) (delimited_followers hclosing ys r') h
      obtain ⟨hxs, hr⟩ := followers_cancel hclosing hcomma (fun x hx y hy =>
        hitem x (List.mem_cons_of_mem _ hx) y (List.mem_cons_of_mem _ hy)) hrest
      exact ⟨.cons hxy hxs, hr⟩

end Sequences

/-! ### First characters -/

/-- What a first character says about a value: all numbers, and both truth values, have one
    mark. -/
def markOf (c : Char) : Char :=
  if beginsNumber c then '0' else if c == 'f' then 't' else c

/-- The mark of a value. -/
def mark : Value → Char
  | .null => 'n'
  | .bool _ => 't'
  | .int _ | .float _ => '0'
  | .text _ => '"'
  | .list _ => '['
  | .object _ => '{'

theorem bracketed_head (form : Form) (level : Nat) (opening closing : Char)
    (items : List (List Char)) :
    ∃ rest, form.bracketed level opening closing items = opening :: rest := by
  unfold Form.bracketed
  split
  · exact ⟨_, rfl⟩
  · split
    · exact ⟨_, rfl⟩
    · exact ⟨_, rfl⟩

/-- The first character of a text has the mark of its value. -/
theorem chars_mark {form : Form} (hform : form.numbers = Decimal.Style.json) (level : Nat)
    (v : Value) : ∃ c rest, form.chars level v = c :: rest ∧ markOf c = v.mark := by
  cases v with
  | null => exact ⟨'n', _, rfl, rfl⟩
  | bool b =>
    cases b with
    | false => exact ⟨'f', _, rfl, rfl⟩
    | true => exact ⟨'t', _, rfl, rfl⟩
  | int i =>
    obtain ⟨c, rest, hchars⟩ := List.exists_cons_of_ne_nil (Decimal.toString_int_ne_nil i)
    have hwhole : isWholeChar c = true :=
      Decimal.isWholeChar_of_mem_toString (hchars ▸ List.mem_cons_self)
    exact ⟨c, rest, hchars, by simp [markOf, mark, beginsNumber, hwhole]⟩
  | float x =>
    obtain ⟨c, rest, hchars, hnumber⟩ := (Decimal.write_json_spec x).head
    refine ⟨c, rest, ?_, by simp [markOf, mark, hnumber]⟩
    rw [Form.chars, hform, hchars]
  | text s => exact ⟨'"', _, rfl, rfl⟩
  | list items =>
    obtain ⟨rest, hrest⟩ := bracketed_head form level '[' ']' (form.itemChars (level + 1) items)
    exact ⟨'[', rest, hrest, rfl⟩
  | object entries =>
    obtain ⟨rest, hrest⟩ := bracketed_head form level '{' '}' _
    exact ⟨'{', rest, hrest, rfl⟩

theorem code_mark (v : Value) : ∃ c rest, code v = c :: rest ∧ markOf c = v.mark :=
  chars_mark rfl 0 v

/-- Texts of values that go on as one text belong to values with one mark. -/
theorem mark_eq_of_code_append {v w : Value} {r r' : List Char}
    (h : code v ++ r = code w ++ r') : v.mark = w.mark := by
  obtain ⟨c, rest, hv, hc⟩ := code_mark v
  obtain ⟨d, rest', hw, hd⟩ := code_mark w
  rw [hv, hw] at h
  rw [← hc, ← hd, (List.cons.inj h).1]

theorem code_append_ne_bracket (v : Value) (s s' : List Char) : code v ++ s ≠ ']' :: s' := by
  obtain ⟨c, rest, hv, hc⟩ := code_mark v
  intro h
  rw [hv] at h
  rw [(List.cons.inj h).1] at hc
  have hmark : v.mark ≠ ']' := by
    cases v <;> simp [mark]
  exact hmark hc.symm

theorem entryCode_append_ne_brace (e : String × Value) (s s' : List Char) :
    entryCode e ++ s ≠ '}' :: s' := fun h =>
  absurd (List.cons.inj h).1 (by decide)

end Quorum.Value
