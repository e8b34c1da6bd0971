/-
  Quorum/Proofs/Value/CanonicalKey.lean
  =====================================
  **Canonical keys tell values apart, and nothing else.**

  Votes are grouped by the canonical keys of their values.  Two values have one key exactly
  if they are the same up to the order of entries (`canonicalKey_eq_iff`).  In one
  direction the text of a value is read off from the start of a longer text: words end at
  the first delimiter, texts at their closing quote, lists and objects piece by piece
  (`code_cancel`).  In the other the entries of two such objects are the same texts under
  the same keys, and sorting them leaves one order (`chars_eq_of_same`).
-/
import Quorum.Proofs.Order
import Quorum.Proofs.Value.CanonicalText

namespace Quorum.Value

open Decimal (isDelimiter isWholeChar)

/-! ### Words -/

/-- Values without members or quotes. -/
def isWord : Value → Bool
  | .null | .bool _ | .int _ | .float _ => true
  | .text _ | .list _ | .object _ => false

theorem isWord_eq_of_mark_eq {v w : Value} (h : v.mark = w.mark) : v.isWord = w.isWord := by
  cases v <;> cases w <;> first
    | rfl
    | exact absurd h (by simp [mark])

theorem code_closed {v : Value} (hv : v.isWord = true) : ∀ c ∈ code v, isDelimiter c = false := by
  cases v with
  | null =>
    show ∀ c ∈ ['n', 'u', 'l', 'l'], isDelimiter c = false
    simp [isDelimiter]
  | bool b =>
    cases b with
    | false =>
      show ∀ c ∈ ['f', 'a', 'l', 's', 'e'], isDelimiter c = false
      simp [isDelimiter]
    | true =>
      show ∀ c ∈ ['t', 'r', 'u', 'e'], isDelimiter c = false
      simp [isDelimiter]
  | int i =>
    exact fun c hc => Decimal.not_isDelimiter_of_isWholeChar (Decimal.isWholeChar_of_mem_toString hc)
  | float x => exact (Decimal.write_json_spec x).closed
  | text s => exact absurd hv Bool.false_ne_true
  | list items => exact absurd hv Bool.false_ne_true
  | object entries => exact absurd hv Bool.false_ne_true

/-- The text of a double is no text of a whole number. -/
theorem code_int_ne_code_float (i : Int) (x : Float) : code (.int i) ≠ code (.float x) := by
  intro h
  obtain ⟨c, hc, hmark⟩ := (Decimal.write_json_spec x).marked
  have hmem : c ∈ (toString i).toList := by
    have heq : (toString i).toList = (Decimal.Style.json.write x).toList := h
    rwa [heq]
  rw [Decimal.isWholeChar_of_mem_toString hmem] at hmark
  exact absurd hmark.symm Bool.false_ne_true

/-- Words with one text are the same. -/
theorem same_of_word_code_eq {v w : Value} (hv : v.isWord = true) (h : code v = code w) :
    Same v w := by
  have hmark : v.mark = w.mark := mark_eq_of_code_append (congrArg (· ++ []) h)
  cases v with
  | null =>
    cases w with
    | null => exact .null
    | _ => exact absurd hmark (by simp [mark])
  | bool b =>
    cases w with
    | bool b' =>
      have hb : b = b' := by
        cases b <;> cases b' <;> first
          | rfl
          | exact absurd (List.cons.inj h).1 (by decide)
      exact hb ▸ .bool b
    | _ => exact absurd hmark (by simp [mark])
  | int i =>
    cases w with
    | int j => exact Decimal.toString_int_injective h ▸ .int i
    | float x => exact absurd h (code_int_ne_code_float i x)
    | _ => exact absurd hmark (by simp [mark])
  | float x =>
    cases w with
    | int i => exact absurd h.symm (code_int_ne_code_float i x)
    | float y => exact .float (String.toList_inj.mp h)
    | _ => exact absurd hmark (by simp [mark])
  | text s => exact absurd hv Bool.false_ne_true
  | list items => exact absurd hv Bool.false_ne_true
  | object entries => exact absurd hv Bool.false_ne_true

theorem word_code_cancel {v w : Value} (hv : v.isWord = true) {r r' : List Char}
    (hr : Delimited r) (hr' : Delimited r') (h : code v ++ r = code w ++ r') :
    Same v w ∧ r = r' := by
  have hw : w.isWord = true := isWord_eq_of_mark_eq (mark_eq_of_code_append h) ▸ hv
  obtain ⟨hcode, hrest⟩ := word_cancel (code_closed hv) (code_closed hw) hr hr' h
  exact ⟨same_of_word_code_eq hv hcode, hrest⟩

/-! ### Objects -/

theorem sortedByKey_perm {α : Type} (entries : List (String × α)) :
    (sortedByKey entries).Perm entries := List.mergeSort_perm _ _

/-- In lists related one by one everything has its partner. -/
theorem exists_partner {α β : Type} {R : α → β → Prop} {xs : List α} {ys : List β}
    (hrelated : List.Forall₂ R xs ys) {x : α} (hx : x ∈ xs) : ∃ y ∈ ys, R x y := by
  induction hrelated with
  | nil => exact absurd hx List.not_mem_nil
  | cons hfirst _ ih =>
    rcases List.mem_cons.mp hx with rfl | hx
    · exact ⟨_, List.mem_cons_self, hfirst⟩
    · obtain ⟨y, hy, h⟩ := ih hx
      exact ⟨y, List.mem_cons_of_mem _ hy, h⟩

/-- Entries that agree one by one, in the order of their keys, make the same object. -/
theorem Same.of_sortedByKey {es fs : List (String × Value)} (hfs : (fs.map Prod.fst).Nodup)
    (hagree : List.Forall₂ (fun e f => e.1 = f.1 ∧ Same e.2 f.2) (sortedByKey es)
      (sortedByKey fs)) : Same (.object es) (.object fs) := by
  have hkeys : (sortedByKey es).map Prod.fst = (sortedByKey fs).map Prod.fst := by
    rw [← List.forall₂_eq_eq_eq, List.forall₂_map_left_iff, List.forall₂_map_right_iff]
    exact hagree.imp fun _ _ h => h.1
  refine .object ?_ fun e he f hf hkey => ?_
  · exact ((sortedByKey_perm es).map _).symm.trans (hkeys ▸ (sortedByKey_perm fs).map _)
  · obtain ⟨f', hf', hkey', hsame⟩ := 
      exists_partner hagree ((sortedByKey_perm es).mem_iff.mpr he)
    have hff' : f = f' := entry_eq_of_key_eq hfs hf ((sortedByKey_perm fs).mem_iff.mp hf')
      (hkey.symm.trans hkey')
    rwa [hff']

/-- Texts that are decided by their keys stand in one order once they are sorted. -/
theorem sortedByKey_texts_eq {es fs : List (String × Value)} (t : Value → List Char)
    (hkeys : (es.map Prod.fst).Perm (fs.map Prod.fst))
    (hvalues : ∀ e ∈ es, ∀ f ∈ fs, e.1 = f.1 → t e.2 = t f.2) :
    sortedByKey (es.map fun e => (e.1, t e.2)) = sortedByKey (fs.map fun f => (f.1, t f.2)) := by
  -- the text under a key is that of its first entry
  let under (k : String) : List Char := ((es.find? fun e => e.1 == k).map fun e => t e.2).getD []
  have hright : ∀ f ∈ fs, t f.2 = under f.1 := by
    intro f hf
    obtain ⟨e, he, hkey⟩ := List.mem_map.mp (hkeys.mem_iff.mpr (List.mem_map_of_mem hf))
    cases hfound : es.find? fun e => e.1 == f.1 with
    | none => exact absurd hkey (by simpa using List.find?_eq_none.mp hfound e he)
    | some first =>
      have hfirst := List.find?_some hfound
      simp only [under, hfound, Option.map_some, Option.getD_some]
      exact (hvalues first (List.mem_of_find?_eq_some hfound) f hf (beq_iff_eq.mp hfirst)).symm
  have hleft : ∀ e ∈ es, t e.2 = under e.1 := by
    intro e he
    obtain ⟨f, hf, hkey⟩ := List.mem_map.mp (hkeys.mem_iff.mp (List.mem_map_of_mem he))
    rw [hvalues e he f hf hkey.symm, hright f hf, hkey]
  have hes : (es.map fun e => (e.1, t e.2)) = (es.map Prod.fst).map fun k => (k, under k) := by
    rw [List.map_map]
    exact List.map_congr_left fun e he => congrArg (Prod.mk e.1) (hleft e he)
  have hfs : (fs.map fun f => (f.1, t f.2)) = (fs.map Prod.fst).map fun k => (k, under k) := by
    rw [List.map_map]
    exact List.map_congr_left fun f hf => congrArg (Prod.mk f.1) (hright f hf)
  rw [hes, hfs]
  refine Order.mergeSort_eq_of_perm (fun a b c hab hbc => ?_) (fun a b => ?_) ?_ (hkeys.map _)
  · rw [decide_eq_true_iff] at hab hbc ⊢
    exact hab.trans hbc
  · rw [Bool.or_eq_true, decide_eq_true_iff, decide_eq_true_iff]
    exact le_total a.1 b.1
  · intro a ha b hb hab hba
    rw [decide_eq_true_iff] at hab hba
    obtain ⟨k, -, rfl⟩ := List.mem_map.mp ha
    obtain ⟨l, -, rfl⟩ := List.mem_map.mp hb
    have hkey : k = l := le_antisymm hab hba
    rw [hkey]

/-! ### Both directions -/

/-- The text of a value is read off from the start of a longer text. -/
theorem code_cancel {v w : Value} (hv : v.WellKeyed) (hw : w.WellKeyed) {r r' : List Char}
    (hr : Delimited r) (hr' : Delimited r') (h : code v ++ r = code w ++ r') :
    Same v w ∧ r = r' := by
  induction hv generalizing w r r' with
  | null | bool b | int i | float x => exact word_code_cancel rfl hr hr' h
  | text s =>
    have hmark := mark_eq_of_code_append h
    cases w with
    | text t =>
      obtain ⟨rfl, hrest⟩ := escaped_append_inj h
      exact ⟨.text s, hrest⟩
    | _ => exact absurd hmark (by simp [mark])
  | @list vs hvs ih =>
    have hmark := mark_eq_of_code_append h
    cases w with
    | list ws =>
      cases hw with
      | list hws =>
        rw [code_list, code_list, List.cons_append, List.cons_append, List.append_assoc,
          List.append_assoc] at h
        obtain ⟨hitems, hrest⟩ := joined_cancel (by decide) (by decide) code_append_ne_bracket
          (fun x hx y hy s s' hs hs' => ih x hx (hws y hy) hs hs') (List.cons.inj h).2
        exact ⟨Same.of_forall₂ hitems, hrest⟩
    | _ => exact absurd hmark (by simp [mark])
  | @object es hes hvalues ih =>
    have hmark := mark_eq_of_code_append h
    cases w with
    | object fs =>
      cases hw with
      | object hfs hws =>
        rw [code_object, code_object, List.cons_append, List.cons_append, List.append_assoc,
          List.append_assoc] at h
        -- an entry ends where its value ends
        have hentry : ∀ e ∈ sortedByKey es, ∀ f ∈ sortedByKey fs, ∀ s s', Delimited s →
            Delimited s' → entryCode e ++ s = entryCode f ++ s' →
            (e.1 = f.1 ∧ Same e.2 f.2) ∧ s = s' := by
          intro e he f hf s s' hs hs' hef
          rw [entryCode, entryCode, List.append_assoc, List.append_assoc] at hef
          obtain ⟨hkey, hvalue⟩ := escaped_append_inj hef
          obtain ⟨hsame, hrest⟩ := ih e ((sortedByKey_perm es).mem_iff.mp he)
            (hws f ((sortedByKey_perm fs).mem_iff.mp hf)) hs hs'
            (List.cons.inj (List.cons.inj hvalue).2).2
          exact ⟨⟨hkey, hsame⟩, hrest⟩
        obtain ⟨hentries, hrest⟩ := joined_cancel (by decide) (by decide)
          entryCode_append_ne_brace hentry (List.cons.inj h).2
        exact ⟨Same.of_sortedByKey hfs hentries, hrest⟩
    | _ => exact absurd hmark (by simp [mark])

/-- Values that differ in the order of entries only have one text in any form that sorts them. -/
theorem chars_eq_of_same {form : Form} (hsorted : form.sorted = true)
    (hnumbers : form.numbers = Decimal.Style.json) {v w : Value} (hsame : Same v w) (level : Nat) :
    form.chars level v = form.chars level w := by
  induction hsame generalizing level with
  | null | bool b | int i | text s => rfl
  | float htext =>
    simp only [Form.chars, hnumbers]
    exact congrArg String.toList htext
  | @list vs ws hlength hitems ih =>
    have htexts : vs.map (form.chars (level + 1)) = ws.map (form.chars (level + 1)) := by
      rw [← List.forall₂_eq_eq_eq, List.forall₂_map_left_iff, List.forall₂_map_right_iff,
        List.forall₂_iff_zip]
      exact ⟨hlength, fun {v w} hp => ih (v, w) hp (level + 1)⟩
    simp only [Form.chars, itemChars_eq_map, htexts]
  | @object es fs hkeys _ ih =>
    simp only [Form.chars, entryChars_eq_map, hsorted, if_true]
    rw [sortedByKey_texts_eq (form.chars (level + 1)) hkeys
      fun e he f hf hkey => ih e he f hf hkey (level + 1)]

theorem code_eq_of_same {v w : Value} (hsame : Same v w) : code v = code w :=
  chars_eq_of_same rfl rfl hsame 0

theorem code_eq_iff {v w : Value} (hv : v.WellKeyed) (hw : w.WellKeyed) :
    code v = code w ↔ Same v w := by
  constructor
  · intro h
    exact (code_cancel hv hw delimited_nil delimited_nil (congrArg (· ++ []) h)).1
  · intro hsame
    exact code_eq_of_same hsame

/-! ### Canonical keys -/

theorem canonicalKey_text_inj {s t : String}
    (h : (Value.text s).canonicalKey = (Value.text t).canonicalKey) : s = t := by
  have hchars := congrArg String.toList h
  simp only [canonicalKey, String.toList_append] at hchars
  exact String.toList_inj.mp (List.append_cancel_left hchars)

/-- The key of a value that is no text. -/
theorem canonicalKey_of_mark {v : Value} (hv : v.mark ≠ '"') :
    v.canonicalKey = "j:" ++ String.ofList (code v) := by
  cases v <;> first
    | rfl
    | exact absurd rfl hv

theorem canonicalKey_ne_text {v : Value} (hv : v.mark ≠ '"') (s : String) :
    v.canonicalKey ≠ (Value.text s).canonicalKey := by
  intro h
  have hchars := congrArg String.toList h
  rw [canonicalKey_of_mark hv, canonicalKey, String.toList_append, String.toList_append] at hchars
  exact absurd (List.cons.inj hchars).1 (by decide)

theorem eq_text_of_mark {v : Value} (hv : v.mark = '"') : ∃ s, v = .text s := by
  cases v with
  | text s => exact ⟨s, rfl⟩
  | _ => exact absurd hv (by simp [mark])

theorem same_of_canonicalKey_eq {v w : Value} (hv : v.WellKeyed) (hw : w.WellKeyed)
    (h : v.canonicalKey = w.canonicalKey) : Same v w := by
  by_cases hvtext : v.mark = '"'
  · obtain ⟨s, rfl⟩ := eq_text_of_mark hvtext
    by_cases hwtext : w.mark = '"'
    · obtain ⟨t, rfl⟩ := eq_text_of_mark hwtext
      exact canonicalKey_text_inj h ▸ .text s
    · exact absurd h.symm (canonicalKey_ne_text hwtext s)
  · by_cases hwtext : w.mark = '"'
    · obtain ⟨t, rfl⟩ := eq_text_of_mark hwtext
      exact absurd h (canonicalKey_ne_text hvtext t)
    · rw [canonicalKey_of_mark hvtext, canonicalKey_of_mark hwtext] at h
      have hchars := congrArg String.toList h
      simp only [String.toList_append, String.toList_ofList] at hchars
      exact (code_eq_iff hv hw).mp (List.append_cancel_left hchars)

theorem canonicalKey_eq_of_same {v w : Value} (hsame : Same v w) :
    v.canonicalKey = w.canonicalKey := by
  have hcode := code_eq_of_same hsame
  have hmark : v.mark = w.mark := mark_eq_of_code_append (congrArg (· ++ []) hcode)
  by_cases htext : v.mark = '"'
  · obtain ⟨t, rfl⟩ := eq_text_of_mark (hmark ▸ htext)
    rw [hsame.text_eq]
  · rw [canonicalKey_of_mark htext, canonicalKey_of_mark (hmark ▸ htext), hcode]

/-- **Keys are exact.**  Two values have one canonical key if and only if they are the same
    up to the order of entries.  Values of two kinds never share a key, and nothing shares
    the key of a text but the text itself. -/
theorem canonicalKey_eq_iff {v w : Value} (hv : v.WellKeyed) (hw : w.WellKeyed) :
    (v.canonicalKey = w.canonicalKey ↔ Same v w) ∧
    (v.canonicalKey = w.canonicalKey → v.kindName = w.kindName) ∧
    (∀ s, v.canonicalKey = (Value.text s).canonicalKey ↔ v = .text s) := by
  refine ⟨⟨same_of_canonicalKey_eq hv hw, canonicalKey_eq_of_same⟩,
    fun h => (same_of_canonicalKey_eq hv hw h).kindName_eq, fun s => ⟨fun h => ?_, ?_⟩⟩
  · exact (same_of_canonicalKey_eq hv (.text s) h).text_eq
  · rintro rfl
    rfl

/-- A list behind a quoted key, in an object with another entry. -/
def quotedKeyFirst : Value :=
  .object [("say \"yes\"", .list [.int 1, .bool true]), ("no", .text "1")]

/-- The same object with its entries the other way round. -/
def quotedKeyLast : Value :=
  .object [("no", .text "1"), ("say \"yes\"", .list [.int 1, .bool true])]

theorem wellKeyed_quotedKeyFirst : quotedKeyFirst.WellKeyed := by
  refine .object (by decide) fun e he => ?_
  simp only [List.mem_cons, List.not_mem_nil, or_false] at he
  rcases he with rfl | rfl
  · refine .list fun v hv => ?_
    simp only [List.mem_cons, List.not_mem_nil, or_false] at hv
    rcases hv with rfl | rfl
    · exact .int 1
    · exact .bool true
  · exact .text "1"

theorem canonicalKey_quotedKey_swapped :
    quotedKeyFirst.WellKeyed ∧ quotedKeyLast.WellKeyed ∧
      quotedKeyFirst.canonicalKey = quotedKeyLast.canonicalKey := by
  have hfirst := wellKeyed_quotedKeyFirst
  have hlast : quotedKeyLast.WellKeyed := hfirst.of_perm (List.Perm.swap ..)
  have hsame : Same quotedKeyFirst quotedKeyLast := Same.of_perm hfirst (List.Perm.swap ..)
  exact ⟨hfirst, hlast, (canonicalKey_eq_iff hfirst hlast).1.mpr hsame⟩

end Quorum.Value
