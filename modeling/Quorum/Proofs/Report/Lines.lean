/-
  Quorum/Proofs/Report/Lines.lean
  ===============================
  **One line per agent.**

  The section of a tier in a Markdown report ends with a list of its agents.  An output is
  flattened before it is listed, the text of an error is not: the list has one line per
  result, in the order of the results, exactly when no error holds a line break
  (`tierSection_rows`), and an error of two lines makes two of one entry
  (`unevenTier_torn`).

  The list is cut out of the section by splitting the section into lines.  Joining texts by
  line breaks and splitting again gives the lines of the texts one after the other
  (`linesOf_lines`), so what is left to show is which of the texts is a line of its own.
-/
import Mathlib
import Quorum.Proofs.Consensus.Ballots
import Quorum.Proofs.Decimal.NumberText
import Quorum.Report.Export

/-! ### Numbers stay on their line -/

namespace Quorum.Decimal

theorem not_mem_of_decimal {cs : List Char} (hcs : ∀ c ∈ cs, isDecimalChar c = true) :
    '\n' ∉ cs := fun h =>
  absurd (hcs _ h) (by decide)

theorem isDecimalChar_of_mem_signed {negative : Bool} {cs : List Char}
    (hcs : ∀ c ∈ cs, isDecimalChar c = true) :
    ∀ c ∈ (if negative then '-' :: cs else cs), isDecimalChar c = true := by
  intro c hc
  split at hc
  · rcases List.mem_cons.mp hc with rfl | hc
    · decide
    · exact hcs c hc
  · exact hcs c hc

theorem isDigit_of_mem_dropTrailingZeros {cs : List Char} (hcs : ∀ c ∈ cs, c.isDigit = true) :
    ∀ c ∈ dropTrailingZeros cs, c.isDigit = true := by
  intro c hc
  unfold dropTrailingZeros at hc
  split at hc
  · rw [List.mem_singleton.mp hc]
    decide
  · have hkept := List.mem_reverse.mp hc
    exact hcs c (List.mem_reverse.mp (List.dropWhile_sublist _ |>.subset hkept))

theorem newline_not_mem_generalText (x : Float) : '\n' ∉ (generalText x).toList := by
  unfold generalText
  split
  · decide
  · split <;> decide
  · dsimp only [generalFraction]
    rw [String.toList_ofList]
    refine not_mem_of_decimal (isDecimalChar_of_mem_signed fun c hc => ?_)
    split at hc
    · rw [List.mem_singleton.mp hc]
      decide
    · refine isDecimalChar_of_mem_layout (isDigit_of_mem_dropTrailingZeros fun c hc => ?_) hc
      exact isDigit_of_mem_digitChars hc

theorem isDecimalChar_of_mem_padZeros {width n : Nat} {c : Char}
    (hc : c ∈ padZeros width (digitChars n)) : isDecimalChar c = true := by
  rcases List.mem_append.mp hc with hc | hc
  · exact isDecimalChar_of_isDigit (isDigit_of_mem_zeros _ hc)
  · exact isDecimalChar_of_isDigit (isDigit_of_mem_digitChars hc)

theorem newline_not_mem_fixedText (places : Nat) (x : Float) :
    '\n' ∉ (fixedText places x).toList := by
  unfold fixedText
  split
  · decide
  · split <;> decide
  · dsimp only [fixedFraction]
    rw [String.toList_ofList]
    refine not_mem_of_decimal (isDecimalChar_of_mem_signed fun c hc => ?_)
    split at hc
    · exact isDecimalChar_of_mem_padZeros (List.mem_of_mem_take hc)
    · rcases List.mem_append.mp hc with hc | hc
      · exact isDecimalChar_of_mem_padZeros (List.mem_of_mem_take hc)
      · rcases List.mem_cons.mp hc with rfl | hc
        · decide
        · exact isDecimalChar_of_mem_padZeros (List.mem_of_mem_drop hc)

end Quorum.Decimal

namespace Quorum.Markdown

open Decimal Prompt

/-! ### The lines of a text -/

/-- The lines of a text. -/
def linesOf (s : String) : List (List Char) := s.toList.splitOn '\n'

theorem linesOf_ne_nil (s : String) : linesOf s ≠ [] := List.splitOnP_ne_nil _ _

/-- A text without a line break is one line. -/
theorem linesOf_eq_singleton {s : String} (hs : '\n' ∉ s.toList) : linesOf s = [s.toList] :=
  List.splitOnP_eq_singleton fun c hc => by
    rw [beq_eq_false_iff_ne]
    exact fun heq => hs (heq ▸ hc)

/-- A text of one line has no line break. -/
theorem newline_not_mem_of_length {s : String} (hs : (linesOf s).length = 1) :
    '\n' ∉ s.toList := by
  intro hmem
  obtain ⟨before, after, hsplit⟩ := List.append_of_mem hmem
  have htwo : linesOf s = before.splitOn '\n' ++ after.splitOn '\n' := by
    unfold linesOf
    rw [hsplit]
    exact List.splitOnP_append_cons _ _ (by simp)
  have hbefore := List.length_pos_of_ne_nil (List.splitOnP_ne_nil (· == '\n') before)
  have hafter := List.length_pos_of_ne_nil (List.splitOnP_ne_nil (· == '\n') after)
  rw [htwo, List.length_append] at hs
  simp only [List.splitOn] at hs
  omega

/-- Joining texts by line breaks puts their lines one after the other. -/
theorem linesOf_lines {ls : List String} (hls : ls ≠ []) :
    linesOf (lines ls) = ls.flatMap linesOf := by
  induction ls with
  | nil => exact absurd rfl hls
  | cons s rest ih =>
    cases rest with
    | nil => simp [lines]
    | cons t rest =>
      have hjoined : (lines (s :: t :: rest)).toList
          = s.toList ++ '\n' :: (lines (t :: rest)).toList := by
        simp [lines, String.toList_append]
      rw [List.flatMap_cons, ← ih (List.cons_ne_nil _ _), linesOf, hjoined]
      exact List.splitOnP_append_cons _ _ (by simp)

/-! ### The line of one agent -/

/-- What stands before the output of an agent in its line. -/
def outputLead (name : String) (weight latencyMs : Float) : String :=
  s!"- **{name}** (weight {generalText weight}, {fixedText 0 latencyMs}ms): "

/-- A character as it stands in an output that was flattened. -/
def flattened (c : Char) : Char := if c == '\n' then ' ' else c

/-- The first characters of a rendered output, flattened, with dots where it goes on. -/
def shownOutput (length : Nat) (v : Value) : List Char :=
  (v.render.toList.take length).map flattened
    ++ if length < v.render.length then "...".toList else []

/-- A line that belongs to a result: it begins with the name of the agent, and if it lists
    an output, at most the first 200 characters of what is rendered. -/
structure RowOf (r : AgentResult) (row : List Char) : Prop where
  named : ("- **" ++ r.agentName).toList <+: row
  shown : r.succeeded = true →
    row = (outputLead r.agentName r.weight r.latencyMs).toList ++ shownOutput 200 r.output

theorem toList_abbreviated_oneLine (length : Nat) (v : Value) :
    (abbreviated length (oneLine v.render)).toList = shownOutput length v := by
  have hflat : (oneLine v.render).toList = v.render.toList.map flattened := by
    rw [oneLine, String.toList_map]
    rfl
  have hlength : (oneLine v.render).length = v.render.length := by
    rw [← String.length_toList, hflat, List.length_map, String.length_toList]
  unfold abbreviated shownOutput
  rw [hlength]
  split
  · rw [String.toList_append, String.toList_ofList, hflat, List.map_take]
  · rename_i hshort
    rw [hflat, List.take_of_length_le (by rw [String.length_toList]; omega), List.append_nil]

theorem newline_not_mem_shownOutput (length : Nat) (v : Value) : '\n' ∉ shownOutput length v := by
  intro hmem
  rcases List.mem_append.mp hmem with h | h
  · obtain ⟨c, -, hc⟩ := List.mem_map.mp h
    unfold flattened at hc
    split at hc
    · exact absurd hc (by decide)
    · rename_i hne
      exact hne (beq_iff_eq.mpr hc)
  · split at h
    · exact absurd h (by decide)
    · cases h

theorem newline_not_mem_failureWord (r : AgentResult) : '\n' ∉ (failureWord r).toList := by
  unfold failureWord
  cases r.errorKind with
  | none => decide
  | some kind => cases kind <;> decide

/-- The line of an agent breaks where its name or the text of its error does, and nowhere
    else. -/
theorem newline_mem_agentLine {r : AgentResult} (hname : '\n' ∉ r.agentName.toList) :
    '\n' ∈ (agentLine r).toList ↔ ∃ error, r.error = some error ∧ '\n' ∈ error.toList := by
  cases herror : r.error with
  | none =>
    have houtput := newline_not_mem_shownOutput 200 r.output
    rw [← toList_abbreviated_oneLine] at houtput
    simp [agentLine, herror, toString, String.toList_append, hname, houtput,
      newline_not_mem_generalText, newline_not_mem_fixedText]
  | some error =>
    simp [agentLine, herror, toString, String.toList_append, hname, newline_not_mem_failureWord]

theorem rowOf_agentLine (r : AgentResult) : RowOf r (agentLine r).toList where
  named := by
    unfold agentLine
    split <;> simp [String.toList_append, toString]
  shown := by
    intro hok
    have herror : r.error = none := Option.isNone_iff_eq_none.mp hok
    rw [← toList_abbreviated_oneLine]
    simp [agentLine, herror, outputLead, toString, String.toList_append]

/-! ### The list of agents -/

/-- The line above the list of agents. -/
def agentsHeading : String := "### Agents"

theorem linesOf_tierSection (t : TierReport) :
    linesOf (tierSection t) = linesOf (lines (verdictLines t))
      ++ agentsHeading.toList :: t.results.flatMap fun r => linesOf (agentLine r) := by
  have hverdict : verdictLines t ≠ [] := by simp [verdictLines]
  have hheading : linesOf agentsHeading = [agentsHeading.toList] :=
    linesOf_eq_singleton (by decide)
  rw [tierSection, List.append_assoc, linesOf_lines (by simp [hverdict]), List.flatMap_append,
    ← linesOf_lines hverdict, List.flatMap_append, List.flatMap_singleton, List.flatMap_map]
  exact congrArg (linesOf (lines (verdictLines t)) ++ ·) (congrArg (· ++ _) hheading)

theorem length_le_flatMap_linesOf (rs : List AgentResult) :
    rs.length ≤ (rs.flatMap fun r => linesOf (agentLine r)).length := by
  induction rs with
  | nil => exact Nat.zero_le _
  | cons r rs ih =>
    have hpos := List.length_pos_of_ne_nil (linesOf_ne_nil (agentLine r))
    rw [List.flatMap_cons, List.length_append, List.length_cons]
    omega

/-- Entries that take as many lines as there are entries take one line each. -/
theorem singleLine_of_length {rs : List AgentResult}
    (hrs : (rs.flatMap fun r => linesOf (agentLine r)).length = rs.length) :
    ∀ r ∈ rs, (linesOf (agentLine r)).length = 1 := by
  induction rs with
  | nil => exact fun _ hr => absurd hr List.not_mem_nil
  | cons r rs ih =>
    have hpos := List.length_pos_of_ne_nil (linesOf_ne_nil (agentLine r))
    have hrest := length_le_flatMap_linesOf rs
    rw [List.flatMap_cons, List.length_append, List.length_cons] at hrs
    refine List.forall_mem_cons.mpr ⟨by omega, ih (by omega)⟩

/-- What a tier puts below the heading of its agents is at least one line per result.  The
    lines belong to the results one by one, in their order, exactly when no error holds a
    line break. -/
theorem tierSection_rows (t : TierReport) (hnames : ∀ r ∈ t.results, '\n' ∉ r.agentName.toList) :
    ∃ rows,
      linesOf (tierSection t)
        = linesOf (lines (verdictLines t)) ++ agentsHeading.toList :: rows
      ∧ t.results.length ≤ rows.length
      ∧ (List.Forall₂ RowOf t.results rows ↔
          ∀ r ∈ t.results, ∀ error, r.error = some error → '\n' ∉ error.toList) := by
  refine ⟨_, linesOf_tierSection t, length_le_flatMap_linesOf _, fun hrows => ?_, fun herrors => ?_⟩
  · intro r hr error herror hmem
    have hsingle := singleLine_of_length hrows.length_eq.symm r hr
    exact newline_not_mem_of_length hsingle
      ((newline_mem_agentLine (hnames r hr)).mpr ⟨error, herror, hmem⟩)
  · have hsingle : ∀ r ∈ t.results, linesOf (agentLine r) = [(agentLine r).toList] := by
      intro r hr
      refine linesOf_eq_singleton fun hmem => ?_
      obtain ⟨error, herror, hbreak⟩ := (newline_mem_agentLine (hnames r hr)).mp hmem
      exact herrors r hr error herror hbreak
    rw [List.flatMap_congr hsingle, ← List.map_eq_flatMap, List.forall₂_map_right_iff,
      List.forall₂_same]
    exact fun r _ => rowOf_agentLine r

/-- A failure with the text of its error. -/
def refused (error : String) : AgentResult :=
  { Consensus.unanswered "bo" with error := some error, errorKind := some .invocation }

/-- A tier of two agents: one gave an output of two lines, one failed. -/
def unevenTier (error : String) : TierReport :=
  let results := [Consensus.answered "ann" "wet\nwindy" 1, refused error]
  ⟨1, .completed, Consensus.evaluate results [] .default, results, .default, 9.0, none⟩

theorem refused_name (error : String) : '\n' ∉ (refused error).agentName.toList := by
  show '\n' ∉ "bo".toList
  decide

theorem unevenTier_names (error : String) :
    ∀ r ∈ (unevenTier error).results, '\n' ∉ r.agentName.toList := by
  intro r hr
  rcases List.mem_cons.mp hr with rfl | hr
  · decide
  · exact List.mem_singleton.mp hr ▸ refused_name error

/-- An output of two lines and an error of one make two lines. -/
theorem unevenTier_rows :
    (∀ r ∈ (unevenTier "refused").results, '\n' ∉ r.agentName.toList) ∧
    ∃ rows, linesOf (tierSection (unevenTier "refused"))
        = linesOf (lines (verdictLines (unevenTier "refused"))) ++ agentsHeading.toList :: rows
      ∧ List.Forall₂ RowOf (unevenTier "refused").results rows := by
  obtain ⟨rows, hlines, -, hrows⟩ := tierSection_rows (unevenTier "refused") (unevenTier_names _)
  refine ⟨unevenTier_names _, rows, hlines, hrows.mpr fun r hr error herror => ?_⟩
  rcases List.mem_cons.mp hr with rfl | hr
  · cases herror
  · cases List.mem_singleton.mp hr
    cases herror
    decide

/-- An error of two lines makes two lines of one entry: the list is longer than the results,
    and its lines are not those of the results one by one. -/
theorem unevenTier_torn :
    (∀ r ∈ (unevenTier "refused\nretry later").results, '\n' ∉ r.agentName.toList) ∧
    ¬ ∃ rows, linesOf (tierSection (unevenTier "refused\nretry later"))
        = linesOf (lines (verdictLines (unevenTier "refused\nretry later")))
          ++ agentsHeading.toList :: rows
      ∧ List.Forall₂ RowOf (unevenTier "refused\nretry later").results rows := by
  refine ⟨unevenTier_names _, ?_⟩
  rintro ⟨rows, hlines, hrows⟩
  rw [linesOf_tierSection] at hlines
  have hentries := (List.cons.inj (List.append_cancel_left hlines)).2
  subst hentries
  -- the entry of the failure would be a line of its own
  have hmem : refused "refused\nretry later" ∈ (unevenTier "refused\nretry later").results :=
    List.mem_cons_of_mem _ List.mem_cons_self
  have hsingle := singleLine_of_length hrows.length_eq.symm _ hmem
  refine newline_not_mem_of_length hsingle ((newline_mem_agentLine (refused_name _)).mpr ?_)
  exact ⟨_, rfl, by decide⟩

end Quorum.Markdown
