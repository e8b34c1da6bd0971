/-
  Quorum/Proofs/Definition/Failures.lean
  ======================================
  **How the loading of a fleet fails.**

  Data under any keys may stand anywhere in a definition.  Most of what does not fit is
  reported as a fault of the definition; a few misfits are not, and each of them is a
  condition on the definition and the files beside it (`Misfit`).  One lemma for each step
  of loading says why it fails, and together they say it of the whole (`load_ends`).
-/
import Quorum.Definition.Fleet
import Quorum.Proofs.Definition.Levels
import Quorum.Proofs.Fleet.Coherent

namespace Quorum

namespace Definition

open FailsOnly

/-! ### Voting rules -/

/-- The time limit of a block of voting rules is given in milliseconds only, and is no number. -/
inductive RulesMisfit (block : Datum) : LoadError → Prop where
  | limit {level : Level} {problem : ConversionProblem}
      (hlevel : Level.ofDatum block = .ok level)
      (hgiven : (level.get "timeout_ms").isNull = false)
      (hseconds : level.has "timeout_seconds" = false)
      (hproblem : (level.get "timeout_ms").toNumber = .error problem) :
      RulesMisfit block (.conversion problem)

theorem rulesOver_fails (base : Level) (block : Datum) :
    FailsOnly (Because block (RulesMisfit block)) (rulesOver base block) := by
  apply FailsOnly.bind
  · exact plain_because (ofDatum_fails block)
  intro level hlevel
  apply FailsOnly.bind
  · unfold milliseconds
    dsimp only
    split
    · exact ok []
    · rename_i hgiven
      rw [Bool.or_eq_true, not_or, Bool.not_eq_true, Bool.not_eq_true] at hgiven
      apply FailsOnly.bind
      · apply FailsOnly.mapError
        intro problem hproblem
        exact .inr (.limit hlevel hgiven.1 hgiven.2 hproblem)
      · intro x _
        exact ok _
  · intro limit _
    exact ok _

/-- The number of a tier is infinite. -/
inductive TierMisfit (key : Datum) : LoadError → Prop where
  | infinite (h : key.toInteger = .error .infinite) : TierMisfit key (.conversion .infinite)

theorem tierNumber_fails (key : Datum) :
    FailsOnly (Because key (TierMisfit key)) (tierNumber key) := by
  unfold tierNumber
  split
  · exact ok _
  · rename_i hinfinite
    exact error (.inr (.infinite hinfinite))
  · split
    · exact error (.inl Plain.fault)
    · rename_i hunwritable
      exact error (.inl (.inr ⟨Bool.not_eq_true _ ▸ hunwritable, rfl⟩))

/-- A tier of a block, or the rules for it, do not fit. -/
def TierRulesMisfit (blocks : List (Datum × Datum)) (e : LoadError) : Prop :=
  ∃ entry ∈ blocks, TierMisfit entry.1 e ∨ RulesMisfit entry.2 e

theorem tierRules_fails (base : Level) (numbered : List (Int × Datum))
    (blocks : List (Datum × Datum)) :
    FailsOnly (Because (.mapping blocks) (TierRulesMisfit blocks))
      (tierRules base numbered blocks) := by
  induction blocks generalizing numbered with
  | nil => exact ok numbered
  | cons entry rest ih =>
    have hmem : entry ∈ entry :: rest := List.mem_cons_self
    rw [tierRules]
    apply FailsOnly.bind
    · apply because_outward (tierNumber_fails entry.1)
      · intro h
        exact (Datum.isWritable_of_mem_entries h hmem).1
      · intro e htier
        exact ⟨entry, hmem, .inl htier⟩
    intro number _
    apply FailsOnly.bind
    · apply because_outward (rulesOver_fails base entry.2)
      · intro h
        exact (Datum.isWritable_of_mem_entries h hmem).2
      · intro e hrules
        exact ⟨entry, hmem, .inr hrules⟩
    intro rules _
    apply because_outward (ih _)
    · intro h
      rw [Datum.isWritable, Datum.entriesWritable, Bool.and_eq_true] at h
      exact h.2
    · rintro e ⟨other, hother, hmisfit⟩
      exact ⟨other, List.mem_cons_of_mem _ hother, hmisfit⟩

/-- Rules in a block that coordinates a fleet do not fit. -/
inductive CoordinationMisfit (block : Datum) : LoadError → Prop where
  | fleet {rules : Datum} {e : LoadError} (hat : At block ["consensus"] rules)
      (hrules : RulesMisfit rules e) : CoordinationMisfit block e
  | tier {blocks : List (Datum × Datum)} {e : LoadError}
      (hat : At block ["tiered", "tier_consensus"] (.mapping blocks))
      (hblocks : TierRulesMisfit blocks e) : CoordinationMisfit block e

theorem coordinationFields_fails (defaults : ConsensusDefaults) (block : Datum) :
    FailsOnly (Because block (CoordinationMisfit block)) (coordinationFields defaults block) := by
  apply FailsOnly.bind
  · exact plain_because (ofDatum_fails block)
  intro level hlevel
  have hinside := get_isWritable hlevel
  apply FailsOnly.bind
  · exact plain_because (plain_outward (ofDatum_fails _) (hinside "tiered"))
  intro tiered htiered
  apply FailsOnly.bind
  · apply because_outward (rulesOver_fails _ _) (hinside "consensus")
    intro e hrules
    exact .fleet (.under hlevel .here) hrules
  intro base _
  apply FailsOnly.bind
  · unfold tierBlocks
    split
    · exact ok _
    · exact error (.inl Plain.fault)
  intro blocks hblocks
  apply FailsOnly.bind
  · unfold tierBlocks at hblocks
    split at hblocks
    · rename_i hentries
      cases hblocks
      rcases Datum.orElse_eq hentries with hget | hnone
      · apply because_outward (tierRules_fails base [] blocks)
        · intro h
          rw [← hget]
          exact get_isWritable htiered _ (hinside "tiered" h)
        · intro e hmisfit
          refine .tier (.under hlevel (.under htiered ?_)) hmisfit
          rw [hget]
          exact .here
      · cases hnone
        exact ok []
    · cases hblocks
  intro numbered _
  exact ok _

/-! ### Agents -/

/-- The file of an agent, or what is in it, does not fit. -/
inductive FileMisfit (library : Library) (path : FilePath) : LoadError → Prop where
  | nul (h : path.text.toList.contains '\x00' = true) : FileMisfit library path .nulInPath
  | notText {bytes : List UInt8} {problem : Text.Utf8Problem}
      (hbytes : library.files.read path = .ok bytes)
      (hproblem : Text.decodeUtf8 bytes = .error problem) :
      FileMisfit library path (.notText problem.heldBack)
  | slip {bytes : List UInt8} {chars : List Char} {slip : Yaml.Slip}
      (hbytes : library.files.read path = .ok bytes) (hchars : Text.decodeUtf8 bytes = .ok chars)
      (hslip : Yaml.read (Yaml.Source.ofFile path.text (Text.unifiedLineEnds chars)) =
        .error (.slip slip)) : FileMisfit library path (.slip slip)
  | unwritable {bytes : List UInt8} {chars : List Char} {document : Datum}
      (hbytes : library.files.read path = .ok bytes) (hchars : Text.decodeUtf8 bytes = .ok chars)
      (hdocument : Yaml.read (Yaml.Source.ofFile path.text (Text.unifiedLineEnds chars)) =
        .ok document) (hunwritable : document.isWritable = false) :
      FileMisfit library path (.conversion .unwritable)

theorem configDocument_fails (library : Library) (name : Datum) (path : FilePath) :
    FailsOnly (Because name (FileMisfit library path)) (configDocument library name path) := by
  have hsubject : FailsOnly (Because name (FileMisfit library path)) (configSubject name) := by
    apply FailsOnly.bind
    · exact plain_because (written_fails name)
    · intro shown _
      exact ok _
  unfold configDocument
  by_cases hnul : path.text.toList.contains '\x00' = true
  · rw [if_pos hnul]
    exact error (.inr (.nul hnul))
  rw [if_neg hnul]
  dsimp only
  split
  · apply hsubject.bind
    intro subject _
    exact error (.inl Plain.fault)
  · rename_i bytes hbytes
    split
    · rename_i problem hproblem
      exact error (.inr (.notText hbytes hproblem))
    · rename_i chars hchars
      split
      · exact ok _
      · apply hsubject.bind
        intro subject _
        exact error (.inl (.inl ⟨_, rfl, rfl⟩))
      · rename_i slip hslip
        exact error (.inr (.slip hbytes hchars hslip))

theorem configDocument_eq_ok {library : Library} {name : Datum} {path : FilePath} {d : Datum}
    (h : configDocument library name path = .ok d) :
    ∃ bytes chars, library.files.read path = .ok bytes ∧ Text.decodeUtf8 bytes = .ok chars ∧
      Yaml.read (Yaml.Source.ofFile path.text (Text.unifiedLineEnds chars)) = .ok d := by
  unfold configDocument at h
  by_cases hnul : path.text.toList.contains '\x00' = true
  · rw [if_pos hnul] at h
    cases h
  rw [if_neg hnul] at h
  dsimp only at h
  split at h
  · obtain ⟨subject, -, h⟩ := bind_eq_ok.mp h
    cases h
  · rename_i bytes hbytes
    split at h
    · cases h
    · rename_i chars hchars
      split at h
      · rename_i document hdocument
        cases h
        exact ⟨bytes, chars, hbytes, hchars, hdocument⟩
      · obtain ⟨subject, -, h⟩ := bind_eq_ok.mp h
        cases h
      · cases h

theorem fileLayer_fails (document : Datum) : FailsOnly (Plain document) (fileLayer document) := by
  apply FailsOnly.bind (ofDatum_fails document)
  intro level hlevel
  dsimp only
  split
  · rename_i entries hentries
    apply FailsOnly.bind
    · apply plain_outward (ofDatum_fails _)
      rw [← hentries]
      exact get_isWritable hlevel "spec"
    · intro inner _
      exact ok _
  · exact ok _

theorem blockLayer_fails (block : Datum) : FailsOnly (Plain block) (blockLayer block) := by
  apply FailsOnly.bind (ofDatum_fails block)
  intro level _
  exact ok _

/-- What an entry names as the file of its agent, or that file, does not fit. -/
inductive ConfigMisfit (library : Library) (config : Datum) : LoadError → Prop where
  | path {e : LoadError} (h : pathOf config = .error e) : ConfigMisfit library config e
  | file {path : FilePath} {e : LoadError} (hpath : pathOf config = .ok path)
      (hfile : FileMisfit library (library.locate path) e) : ConfigMisfit library config e

theorem configLayer_fails (library : Library) (name config : Datum) :
    FailsOnly (Because name (ConfigMisfit library config)) (configLayer library name config) := by
  apply FailsOnly.bind
  · intro e he
    exact .inr (.path he)
  intro path hpath
  apply FailsOnly.bind
  · apply because_outward (configDocument_fails library name _) id
    intro e hfile
    exact .file hpath hfile
  intro document hdocument e he
  rcases fileLayer_fails document e he with hfault | ⟨hunwritable, rfl⟩
  · exact .inl (.inl hfault)
  · obtain ⟨bytes, chars, hbytes, hchars, hread⟩ := configDocument_eq_ok hdocument
    exact .inr (.file hpath (.unwritable hbytes hchars hread hunwritable))

/-- The file that an entry names does not fit. -/
inductive EntryMisfit (library : Library) (entry : Datum) : LoadError → Prop where
  | config {config : Datum} {e : LoadError} (hat : At entry ["config"] config)
      (hgiven : config.isGiven = true) (hconfig : ConfigMisfit library config e) :
      EntryMisfit library entry e

theorem placedFields_fails (library : Library) {entry : Datum} {level : Level}
    (hlevel : Level.ofDatum entry = .ok level) :
    FailsOnly (Because entry (EntryMisfit library entry))
      (placedFields library (level.get "name") level) := by
  have hinside := get_isWritable hlevel
  unfold placedFields
  dsimp only
  split
  · rename_i hgiven
    apply FailsOnly.bind
    · exact plain_because (plain_outward (written_fails _) (hinside "config"))
    intro shown _
    apply FailsOnly.bind
    · apply because_outward (configLayer_fails library _ _) (hinside "name")
      intro e hconfig
      exact .config (.under hlevel .here) hgiven hconfig
    intro layer _
    exact ok _
  · exact ok _

theorem agentFields_fails (library : Library) (entry : Datum) :
    FailsOnly (Because entry (EntryMisfit library entry)) (agentFields library entry) := by
  apply FailsOnly.bind
  · exact plain_because (ofDatum_fails entry)
  intro level hlevel
  dsimp only
  split
  · exact error (.inl Plain.fault)
  · apply FailsOnly.bind (placedFields_fails library hlevel)
    intro fields _
    apply FailsOnly.bind
    · exact plain_because (plain_outward (blockLayer_fails _) (get_isWritable hlevel "spec"))
    intro block _
    exact ok _

/-! ### Whole definitions -/

/-- A definition, or a file beside it, does not fit and is not reported as a fault. -/
inductive Misfit (settings : Settings) (library : Library) (definition : Datum) :
    LoadError → Prop where
  /-- A number that has to be written out has too many digits. -/
  | unwritable (h : definition.isWritable = false) :
      Misfit settings library definition (.conversion .unwritable)
  /-- The file of an agent cannot be named or holds no document. -/
  | agent {entries : List Datum} {entry : Datum} {e : LoadError}
      (hat : At definition ["spec", "agents"] (.list entries)) (hentry : entry ∈ entries)
      (h : EntryMisfit library entry e) : Misfit settings library definition e
  /-- A time limit in milliseconds is no number, or the number of a tier is infinite. -/
  | coordination {block : Datum} {e : LoadError}
      (hat : At definition ["spec", "coordination"] block) (h : CoordinationMisfit block e) :
      Misfit settings library definition e
  /-- The fields fit, but the tiers cannot be listed. -/
  | tiers {fields : Level} {f : Fleet} {problem : ListProblem}
      (hfields : Fleet.fields settings library definition = .ok fields)
      (hread : Fleet.read fields.toDatum = .ok f) (h : ¬f.Listable) :
      Misfit settings library definition (.unlistable problem)

theorem fields_fails (settings : Settings) (library : Library) (definition : Datum) :
    FailsOnly (Because definition (Misfit settings library definition))
      (Fleet.fields settings library definition) := by
  apply FailsOnly.bind
  · exact plain_because (ofDatum_fails definition)
  intro document hdocument
  have hinside := get_isWritable hdocument
  apply FailsOnly.bind
  · exact plain_because (plain_outward (ofDatum_fails _) (hinside "metadata"))
  intro metadata _
  apply FailsOnly.bind
  · exact plain_because (plain_outward (ofDatum_fails _) (hinside "spec"))
  intro spec hspec
  have hdeeper := get_isWritable hspec
  dsimp only
  split
  · exact error (.inl Plain.fault)
  apply FailsOnly.bind
  · unfold Fleet.agentEntries
    split
    · exact ok _
    · exact error (.inl Plain.fault)
  intro entries hentries
  apply FailsOnly.bind
  · unfold Fleet.agentEntries at hentries
    split at hentries
    · rename_i hitems
      cases hentries
      rcases Datum.orElse_eq hitems with hget | hnone
      · apply FailsOnly.mapM
        intro entry hentry
        apply because_outward (agentFields_fails library entry)
        · intro h
          have hlist := hdeeper "agents" (hinside "spec" h)
          rw [hget] at hlist
          exact Datum.isWritable_of_mem_items hlist hentry
        · intro e hmisfit
          refine .agent (.under hdocument (.under hspec ?_)) hentry hmisfit
          rw [hget]
          exact .here
      · cases hnone
        exact ok []
    · cases hentries
  intro agents _
  apply FailsOnly.bind
  · apply because_outward (coordinationFields_fails _ _)
    · intro h
      exact hdeeper "coordination" (hinside "spec" h)
    · intro e hmisfit
      exact .coordination (.under hdocument (.under hspec .here)) hmisfit
  intro coordination _
  exact ok _

/-- Unchecked fields make a coherent fleet, or they are at fault, or their tiers cannot be
    listed. -/
theorem create_ends (d : Datum) : match Fleet.create d with
    | .ok f => f.agents ≠ [] ∧ f.Coherent
    | .error (.fault fault) => fault.kind = .configuration
    | .error (.unlistable _) => ∃ f, Fleet.read d = .ok f ∧ ¬f.Listable := by
  cases hread : Fleet.read d with
  | error issues =>
    have hcreate : Fleet.create d = .error (.fault (Fleet.issuesFault issues)) := by
      rw [Fleet.create, hread]
      rfl
    rw [hcreate]
    rfl
  | ok f =>
    have hagents := Fleet.agents_of_read hread
    rw [Fleet.create_of_read hread]
    cases haccept : f.accept with
    | ok g =>
      obtain ⟨⟨hcoherent, -⟩, rfl⟩ := (Fleet.accept_eq_ok_iff_coherent hagents).mp haccept
      exact ⟨hagents, hcoherent⟩
    | error e =>
      rcases Fleet.accept_eq_error hagents haccept with
        ⟨-, conflict, rfl⟩ | ⟨hunlistable, problem, rfl⟩
      · rfl
      · exact ⟨f, rfl, hunlistable⟩

/-- What may come of loading a definition: a fleet that keeps all rules, or an error that is a
    fault or comes of a misfit. -/
def Ends (settings : Settings) (library : Library) (definition : Datum) :
    Except LoadError Fleet → Prop
  | .ok f => f.agents ≠ [] ∧ f.Coherent
  | .error e => e.IsFault ∨ Misfit settings library definition e

theorem ofDefinition_ends (settings : Settings) (library : Library) (definition : Datum) :
    Ends settings library definition (Fleet.ofDefinition settings library definition) := by
  unfold Fleet.ofDefinition
  cases hfields : Fleet.fields settings library definition with
  | error e =>
    rcases fields_fails settings library definition e hfields with
      (hfault | ⟨hunwritable, rfl⟩) | hmisfit
    · exact .inl hfault
    · exact .inr (.unwritable hunwritable)
    · exact .inr hmisfit
  | ok fields =>
    have hends := create_ends fields.toDatum
    show Ends settings library definition ((Fleet.create fields.toDatum).mapError .ofFleet)
    cases hcreate : Fleet.create fields.toDatum with
    | ok f =>
      rw [hcreate] at hends
      exact hends
    | error e =>
      rw [hcreate] at hends
      cases e with
      | fault fault => exact .inl ⟨fault, rfl, hends⟩
      | unlistable problem =>
        obtain ⟨f, hread, hunlistable⟩ := hends
        exact .inr (.tiers hfields hread hunlistable)

theorem ofYaml_ends (settings : Settings) (library : Library) {source : Yaml.Source}
    {definition : Datum} (hsource : Yaml.read source = .ok definition) :
    Ends settings library definition (Fleet.ofYaml settings library source) := by
  unfold Fleet.ofYaml
  rw [hsource]
  cases definition with
  | mapping entries => exact ofDefinition_ends settings library (.mapping entries)
  | _ => exact .inl ⟨_, rfl, rfl⟩

/-- **Loading a definition gives a fleet that keeps all rules, or it fails: with a fault, or
    for one of the misfits that are not reported as one.**  The same holds of every text that
    is read as a definition; a text that breaks the rules of its format is at fault, and one
    with a scalar that slips is not read at all. -/
theorem load_ends (settings : Settings) (library : Library) :
    (∀ definition,
      Ends settings library definition (Fleet.ofDefinition settings library definition)) ∧
    ∀ source, match Yaml.read source with
      | .ok definition => Ends settings library definition (Fleet.ofYaml settings library source)
      | .error (.problem _) => ∃ e, Fleet.ofYaml settings library source = .error e ∧ e.IsFault
      | .error (.slip slip) => Fleet.ofYaml settings library source = .error (.slip slip) := by
  constructor
  · exact ofDefinition_ends settings library
  · intro source
    split
    · rename_i definition hsource
      exact ofYaml_ends settings library hsource
    · rename_i problem hsource
      unfold Fleet.ofYaml
      rw [hsource]
      exact ⟨_, rfl, _, rfl, rfl⟩
    · rename_i slip hsource
      unfold Fleet.ofYaml
      rw [hsource]
      rfl

theorem spelled_text {k key : String} (h : Document.snakeKey k = key) (d : Datum) :
    Level.spelled (.text k, d) = .ok (key, d) := by
  subst h
  rfl

end Definition

/-! ### A misfit that is not reported -/

/-- Settings without a word from anybody. -/
def houseSettings : Settings where
  apiKey := ""
  model := "claude-sonnet-4-5"
  maxTokens := 4096
  temperature := 0.7
  logLevel := "INFO"
  logFormat := .console
  maxConcurrentAgents := 10
  agentTimeout := 120.0
  fleetDeadline := none
  retryAttempts := 3
  retryDelay := 1.0
  consensus := ⟨.majority, 1, 0.5⟩

/-- A definition whose time limit is no number. -/
def hasty : Datum := .mapping [
  (.text "metadata", .mapping [(.text "name", .text "hasty")]),
  (.text "spec", .mapping [
    (.text "agents", .list [.mapping [(.text "name", .text "ann")]]),
    (.text "coordination", .mapping [
      (.text "consensus", .mapping [(.text "timeoutMs", .text "soon")])])])]

theorem hasty_keys : Document.snakeKey "metadata" = "metadata" ∧
    Document.snakeKey "name" = "name" ∧ Document.snakeKey "spec" = "spec" ∧
    Document.snakeKey "agents" = "agents" ∧ Document.snakeKey "coordination" = "coordination" ∧
    Document.snakeKey "consensus" = "consensus" ∧
    Document.snakeKey "timeoutMs" = "timeout_ms" :=
  ⟨rfl, rfl, rfl, rfl, rfl, rfl, rfl⟩

open Definition in
/-- The time limit is refused, level by level down to the block that holds it, and nothing on
    the way up makes a fault of that. -/
theorem hasty_unreported : ∃ e, Fleet.ofDefinition houseSettings .empty hasty = .error e ∧
    ¬e.IsFault := by
  obtain ⟨hmetadata, hname, hspec, hagents, hcoordination, hconsensus, hlimit⟩ := hasty_keys
  have hdocument : Level.ofDatum hasty = .ok [
      ("metadata", .mapping [(.text "name", .text "hasty")]),
      ("spec", .mapping [(.text "agents", .list [.mapping [(.text "name", .text "ann")]]),
        (.text "coordination", .mapping [
          (.text "consensus", .mapping [(.text "timeoutMs", .text "soon")])])])] := by
    simp [hasty, Level.ofDatum, Datum.isGiven, spelled_text hmetadata, spelled_text hspec]
    rfl
  have hnamed : ∀ name, Level.ofDatum (.mapping [(.text "name", .text name)]) =
      .ok [("name", .text name)] := by
    intro name
    simp [Level.ofDatum, Datum.isGiven, spelled_text hname]
    rfl
  have hparts : Level.ofDatum (.mapping [
      (.text "agents", .list [.mapping [(.text "name", .text "ann")]]),
      (.text "coordination", .mapping [
        (.text "consensus", .mapping [(.text "timeoutMs", .text "soon")])])]) = .ok [
      ("agents", .list [.mapping [(.text "name", .text "ann")]]),
      ("coordination", .mapping [
        (.text "consensus", .mapping [(.text "timeoutMs", .text "soon")])])] := by
    simp [Level.ofDatum, Datum.isGiven, spelled_text hagents, spelled_text hcoordination]
    rfl
  have hrules : Level.ofDatum (.mapping [
      (.text "consensus", .mapping [(.text "timeoutMs", .text "soon")])]) =
      .ok [("consensus", .mapping [(.text "timeoutMs", .text "soon")])] := by
    simp [Level.ofDatum, Datum.isGiven, spelled_text hconsensus]
    rfl
  have hblock : Level.ofDatum (.mapping [(.text "timeoutMs", .text "soon")]) =
      .ok [("timeout_ms", .text "soon")] := by
    simp [Level.ofDatum, Datum.isGiven, spelled_text hlimit]
    rfl
  have hsoon : milliseconds [("timeout_ms", .text "soon")] =
      .error (.conversion (.notADouble "'soon'")) := by
    rfl
  have hagents : [Datum.mapping [(.text "name", .text "ann")]].mapM (agentFields .empty) =
      .ok [[("name", .text "ann"), ("tier", .int 1), ("weight", .null), ("role", .text "worker"),
        ("labels", .mapping [])]] := by
    rw [List.mapM_cons, agentFields, hnamed]
    rfl
  have hfields : Fleet.fields houseSettings .empty hasty =
      .error (.conversion (.notADouble "'soon'")) := by
    refine (bind_of_ok hdocument _).trans ?_
    refine (bind_of_ok (hnamed "hasty") _).trans ?_
    refine (bind_of_ok hparts _).trans ?_
    refine (if_neg (by decide)).trans ?_
    refine (bind_of_ok rfl _).trans ?_
    refine (bind_of_ok hagents _).trans ?_
    refine bind_of_error ?_ _
    refine (bind_of_ok hrules _).trans ?_
    refine (bind_of_ok rfl _).trans ?_
    refine bind_of_error ?_ _
    refine (bind_of_ok hblock _).trans ?_
    exact bind_of_error hsoon _
  refine ⟨_, bind_of_error hfields _, ?_⟩
  rintro ⟨fault, hfault, -⟩
  cases hfault

end Quorum
