/-
  Quorum/Proofs/Definition/Specific.lean
  ======================================
  **The most specific mapping describes an agent.**

  An agent is described in its entry, in the block inside the entry, and in its file, whose
  inner block is laid over its top level.  For its model, its temperature, the form of its
  output and its time limit the first of these mappings that has the key counts.  Its
  instructions also go by the name of a system prompt, and there the layers differ: the block
  inside an entry is asked for both names before the file is, but the two levels of a file are
  one by the time they are asked.  So the instructions of the top level count over the system
  prompt of the block inside it (`Overruled`); everywhere else the first mapping with either
  name counts (`SetBy`).
-/
import Quorum.Proofs.Definition.Parts

namespace Quorum

namespace Definition

/-! ### Two names for the instructions -/

/-- What a mapping says under one name or the other; instructions come before a system
    prompt. -/
def prompt? (layer : Level) : Option Datum :=
  (layer.lookup "instructions").or (layer.lookup "system_prompt")

theorem lookup_withSystemPrompt (level : Level) (key : String) :
    (withSystemPrompt level).lookup key =
      if key = "instructions" then prompt? level else level.lookup key := by
  unfold withSystemPrompt prompt? Level.has
  cases hprompt : level.lookup "system_prompt" with
  | none =>
    dsimp only
    rw [Option.or_none]
    split
    · rename_i hkey
      rw [hkey]
    · rfl
  | some prompt =>
    cases hinstructions : level.lookup "instructions" with
    | some instructions =>
      simp only [Option.isSome_some, if_true]
      split
      · rename_i hkey
        rw [hkey, hinstructions]
        rfl
      · rfl
    | none =>
      simp only [Option.isSome_none, Bool.false_eq_true, if_false]
      rw [List.lookup_append]
      split
      · rename_i hkey
        rw [hkey, hinstructions]
        rfl
      · rename_i hkey
        have hother : (key == "instructions") = false := beq_eq_false_iff_ne.mpr hkey
        rw [List.lookup_cons, hother, List.lookup_nil, Option.or_none]

/-- In the file of an agent the instructions of the top level count over the system prompt of
    the block inside it. -/
def Overruled (inline : Level) (file : List Level) (d : Datum) : Prop :=
  prompt? inline = none ∧ ∃ block top, file = [block, top] ∧
    block.lookup "instructions" = none ∧ (block.lookup "system_prompt").isSome = true ∧
    top.lookup "instructions" = some d

/-- What the mappings say of an agent's instructions, those of a file laid over each other
    before they are asked. -/
def told (inline : Level) (file : List Level) : Option Datum :=
  (prompt? inline).or ((firstSaid file "instructions").or (firstSaid file "system_prompt"))

theorem told_of_overruled {inline : Level} {file : List Level} {d : Datum}
    (h : Overruled inline file d) : told inline file = some d := by
  obtain ⟨hinline, block, top, rfl, hblock, -, htop⟩ := h
  simp [told, hinline, firstSaid, hblock, htop]

/-- Apart from that the first mapping with one of the names counts. -/
theorem told_of_not_overruled {library : Library} {own inline : Level} {file : List Level}
    (hfile : NamedLayers library own file) (h : ∀ d, ¬ Overruled inline file d) :
    told inline file = (inline :: file).findSome? prompt? := by
  unfold told
  rw [List.findSome?_cons]
  cases hinline : prompt? inline with
  | some d => rfl
  | none =>
    rw [Option.none_or]
    cases hfile with
    | unnamed hgiven => rfl
    | named hgiven hpath hholds hlayers =>
      cases hlayers with
      | @plain top htop hspec =>
        simp only [firstSaid, List.findSome?_cons, List.findSome?_nil, prompt?]
        cases top.lookup "instructions" <;> cases top.lookup "system_prompt" <;> rfl
      | @nested top block entries htop hspec hblock =>
        simp only [firstSaid, List.findSome?_cons, List.findSome?_nil, prompt?]
        cases hblockI : block.lookup "instructions" with
        | some d => rfl
        | none =>
          cases hblockS : block.lookup "system_prompt" with
          | none => cases top.lookup "instructions" <;> cases top.lookup "system_prompt" <;> rfl
          | some prompt =>
            cases htopI : top.lookup "instructions" with
            | none => rfl
            | some d =>
              exact absurd ⟨hinline, block, top, rfl, hblockI, by rw [hblockS]; rfl, htopI⟩ (h d)

/-! ### Agents as they are described -/

/-- A field is what a datum passes as, or its default where nothing is said. -/
def Says {α : Type} (rule : Check.Rule α) (default : α) (said : Option Datum) (a : α) : Prop :=
  match said with
  | some d => rule d = .ok a
  | none => a = default

/-- An agent is what the most specific of its mappings say, its instructions apart where they
    are overruled. -/
structure SetBy (own inline : Level) (file : List Level) (a : Agent) : Prop where
  model : Says (Check.optional Check.text) none (firstSaid (inline :: file) "model") a.model
  temperature :
    Says (Check.optional Check.fraction) none (firstSaid (inline :: file) "temperature")
      a.temperature
  outputFormat : Says (Check.member OutputFormat) .text
    (firstSaid (own :: inline :: file) "output_format") a.outputFormat
  timeoutSeconds : Says (Check.optional Check.positive) none
    (firstSaid (own :: inline :: file) "timeout_seconds") a.timeoutSeconds
  instructions : (∀ d, ¬ Overruled inline file d) → Says (Check.optional Check.text) none
    ((inline :: file).findSome? prompt?) a.instructions
  overruled : ∀ d, Overruled inline file d →
    Says (Check.optional Check.text) none (some d) a.instructions

theorem firstSaid_cons (layer : Level) (rest : List Level) (key : String) :
    firstSaid (layer :: rest) key = (layer.lookup key).or (firstSaid rest key) := by
  rw [firstSaid, List.findSome?_cons]
  cases layer.lookup key <;> rfl

variable {settings : Settings} {library : Library} {definition : Datum} {f : Fleet}

/-- The fields that say how an agent is run are found in its mappings. -/
theorem setBy_of_fields {entry : Datum} {a : Agent} {fields : Level}
    (hfields : agentFields library entry = .ok fields) (hstands : a.StandsIn fields) :
    ∃ own inline file, Described library entry own inline file ∧ SetBy own inline file a := by
  obtain ⟨own, inline, file, merged, hdescribed, hmerged, hlookup⟩ := agentFields_lookup hfields
  have hplain {key : String} (hkey : key ∈ layerKeys) (hother : key ≠ "instructions")
      (hplace : (placement (own.get "name") own).lookup key = none) :
      fields.lookup key = (among ["timeout_seconds", "output_format"] own key).or
        (firstSaid (inline :: file) key) := by
    have hpath : key ≠ "config_path" := by
      rintro rfl
      exact absurd hkey (by decide)
    rw [hlookup key hpath, hplace, Option.or_none, among_of_mem hkey, among_of_mem hkey,
      lookup_withSystemPrompt, lookup_withSystemPrompt, if_neg hother, if_neg hother, hmerged key,
      firstSaid_cons]
  have htold : fields.lookup "instructions" = told inline file := by
    have hplace : (placement (own.get "name") own).lookup "instructions" = none := rfl
    rw [hlookup "instructions" (by decide), hplace, Option.or_none,
      among_of_not_mem (by decide), Option.none_or, among_of_mem (by decide),
      among_of_mem (by decide), lookup_withSystemPrompt, lookup_withSystemPrompt, if_pos rfl,
      if_pos rfl, told]
    simp only [prompt?, hmerged]
  refine ⟨own, inline, file, hdescribed, ?_, ?_, ?_, ?_, ?_, ?_⟩
  · have hmodel := withDefault_lookup hstands.model
    rwa [hplain (by decide) (by decide) rfl, among_of_not_mem (by decide), Option.none_or]
      at hmodel
  · have htemperature := withDefault_lookup hstands.temperature
    rwa [hplain (by decide) (by decide) rfl, among_of_not_mem (by decide), Option.none_or]
      at htemperature
  · have hformat := withDefault_lookup hstands.outputFormat
    rwa [hplain (by decide) (by decide) rfl, among_of_mem (by decide), ← firstSaid_cons]
      at hformat
  · have htimeout := withDefault_lookup hstands.timeoutSeconds
    rwa [hplain (by decide) (by decide) rfl, among_of_mem (by decide), ← firstSaid_cons]
      at htimeout
  · intro hnever
    have hinstructions := withDefault_lookup hstands.instructions
    rwa [htold, told_of_not_overruled hdescribed.fileLevels hnever] at hinstructions
  · intro d hoverruled
    have hinstructions := withDefault_lookup hstands.instructions
    rwa [htold, told_of_overruled hoverruled] at hinstructions

/-- In a fleet that is made from a definition every agent is what the most specific mappings
    that describe it say, unless the instructions of a file's top level overrule the system
    prompt of the block inside it. -/
theorem ofDefinition_specific (h : Fleet.ofDefinition settings library definition = .ok f) :
    ∃ agents entries, At definition ["spec", "agents"] agents ∧
      agents.orElse (.list []) = .list entries ∧
      List.Forall₂ (fun entry a => ∃ own inline file,
        Described library entry own inline file ∧ SetBy own inline file a) entries f.agents := by
  obtain ⟨agents, entries, hagents, hentries, hmade⟩ := agents_of_made h
  refine ⟨agents, entries, hagents, hentries, hmade.imp ?_⟩
  rintro entry a ⟨fields, hfields, hstands⟩
  exact setBy_of_fields hfields hstands

end Definition

/-! ### The desk -/

/-- The mappings of the desk's agent: nothing inside the entry, and both levels of its file. -/
theorem desk_described : Definition.Described (deskLibrary deskText) deskEntry
    [("name", .text "ann"), ("config", .text "ann.yaml"),
      ("labels", .mapping [(.text "onCall", .text "yes")])] []
    [[("system_prompt", .text "You analyze incidents.")],
      [("instructions", .text "Answer briefly."),
        ("spec", .mapping [(.text "system_prompt", .text "You analyze incidents.")])]] where
  entryLevel := rfl
  blockLevel := rfl
  fileLevels := .named rfl rfl desk_holds (.nested rfl rfl rfl)

/-- The desk is made, and its agent described as the theorem says. -/
theorem desk_specific : ∃ f,
    Fleet.ofDefinition houseSettings (deskLibrary deskText) deskData = .ok f ∧
    ∃ agents entries, Definition.At deskData ["spec", "agents"] agents ∧
      agents.orElse (.list []) = .list entries ∧
      List.Forall₂ (fun entry a => ∃ own inline file,
        Definition.Described (deskLibrary deskText) entry own inline file ∧
          Definition.SetBy own inline file a) entries f.agents := by
  obtain ⟨f, hmade, -⟩ := desk_made
  exact ⟨f, hmade, Definition.ofDefinition_specific hmade⟩

/-- The agent is told what the top level of its file says, though the block inside is the first
    of its mappings that has instructions under one of their names. -/
theorem desk_overruled : ∃ f a own inline file,
    Fleet.ofDefinition houseSettings (deskLibrary deskText) deskData = .ok f ∧ f.agents = [a] ∧
    Definition.Described (deskLibrary deskText) deskEntry own inline file ∧
    (inline :: file).findSome? Definition.prompt? = some (.text "You analyze incidents.") ∧
    a.instructions = some "Answer briefly." := by
  obtain ⟨f, hmade, hinstructions⟩ := desk_made
  obtain ⟨a, hagents, ha⟩ := List.map_eq_singleton_iff.mp hinstructions
  exact ⟨f, a, _, _, _, hmade, hagents, desk_described, rfl, ha⟩

end Quorum
