/-
  Quorum/Proofs/Definition/Layers.lean
  ====================================
  **Voting rules in layers.**

  The rules in force in a tier are read from a stack of layers: the tier's own block, the
  block of the fleet, and the defaults of the settings at the bottom.  A block laid over
  others answers for what it gives and leaves the rest to them (`Stacked.over`), so the rules
  are what the first layer that gives something says (`Stacked.layered`).  Blocks are found
  by the numbers of their tiers twice, when they are read and when they are checked, and both
  times the last block for a number is the one that counts (`tierRules_lookup`,
  `tiers_checked`).
-/
import Quorum.Proofs.Definition.Failures
import Quorum.Proofs.Fleet.Fields

namespace Quorum

namespace Definition

/-! ### What a layer gives -/

/-- A datum, unless it is null. -/
def given? (d : Datum) : Option Datum := if d.isNull then none else some d

/-- The time limit of a layer: its seconds, or its milliseconds where the key for seconds is
    not there. -/
def limit? (layer : Level) : Option Datum :=
  if layer.has "timeout_seconds" then given? (layer.get "timeout_seconds")
  else (given? (layer.get "timeout_ms")).bind fun d =>
    d.toNumber.toOption.map fun x => .float (x / 1000)

/-- Milliseconds that count stand for a number. -/
def LimitReadable (layer : Level) : Prop :=
  layer.has "timeout_seconds" = false → (layer.get "timeout_ms").isNull = false →
    ∃ x, (layer.get "timeout_ms").toNumber = .ok x

/-- What the first layer that gives something under a key says. -/
def firstGiven (layers : List Level) (key : String) : Option Datum :=
  layers.findSome? fun layer => given? (layer.get key)

/-- Rules say what the first of some layers says, and what the settings say below them; weights
    and a time limit are in no settings. -/
structure Layered (defaults : ConsensusDefaults) (layers : List Level) (rules : VotingRules) :
    Prop where
  algorithm : Check.member Algorithm
    ((firstGiven layers "algorithm").getD (.text (Named.name defaults.algorithm))) =
      .ok rules.algorithm
  minVotes : Check.integerFrom 1
    ((firstGiven layers "min_votes").getD (.int defaults.minVotes)) = .ok rules.minVotes
  minConfidence : Check.fraction
    ((firstGiven layers "min_confidence").getD (.float defaults.minConfidence)) =
      .ok rules.minConfidence
  weights : match firstGiven layers "weights" with
    | some d => Check.mapping Check.text Check.number d = .ok rules.weights
    | none => rules.weights = []
  timeoutSeconds : match layers.findSome? limit? with
    | some d => ∃ x, Check.positive d = .ok x ∧ rules.timeoutSeconds = some x
    | none => rules.timeoutSeconds = none
  limits : ∀ layer ∈ layers, LimitReadable layer

/-! ### Blocks laid over others -/

theorem pickGiven_cons (block : Level) (key : String) (rest : List String) :
    block.pickGiven (key :: rest) =
      ((given? (block.get key)).map (key, ·)).toList ++ block.pickGiven rest := by
  unfold Level.pickGiven Level.pick Level.get given?
  rw [List.filterMap_cons]
  cases block.lookup key with
  | none => rfl
  | some d =>
    simp only [Option.map_some, Option.getD_some, List.filter_cons]
    cases d.isNull <;> rfl

theorem lookup_pickGiven (block : Level) (keys : List String) (key : String) :
    (block.pickGiven keys).lookup key = if key ∈ keys then given? (block.get key) else none := by
  induction keys with
  | nil => rfl
  | cons first rest ih =>
    rw [pickGiven_cons, List.lookup_append, ih]
    by_cases hfirst : key = first
    · subst hfirst
      rw [if_pos List.mem_cons_self]
      cases given? (block.get key) with
      | none => simp
      | some d => simp
    · have hother : (key == first) = false := beq_eq_false_iff_ne.mpr hfirst
      have hskipped : (((given? (block.get first)).map (first, ·)).toList).lookup key = none := by
        cases given? (block.get first) with
        | none => rfl
        | some d => simp [List.lookup_cons, hother]
      rw [hskipped, Option.none_or]
      simp [hfirst]

theorem keys_pickGiven_sublist (block : Level) (keys : List String) :
    ((block.pickGiven keys).map Prod.fst).Sublist keys := by
  induction keys with
  | nil => exact List.Sublist.refl []
  | cons first rest ih =>
    rw [pickGiven_cons, List.map_append]
    cases given? (block.get first) with
    | none => exact ih.cons first
    | some d => exact ih.cons_cons first

theorem milliseconds_eq_ok {block limit : Level} (h : milliseconds block = .ok limit) :
    LimitReadable block ∧ limit = if block.has "timeout_seconds" then []
      else ((limit? block).map ("timeout_seconds", ·)).toList := by
  unfold milliseconds at h
  unfold LimitReadable limit?
  dsimp only at h
  by_cases hseconds : block.has "timeout_seconds" = true
  · rw [if_pos (by simp [hseconds])] at h
    cases h
    rw [if_pos hseconds, hseconds]
    exact ⟨fun hkey => absurd hkey (by decide), rfl⟩
  · rw [if_neg hseconds, if_neg hseconds]
    by_cases hnull : (block.get "timeout_ms").isNull = true
    · rw [if_pos (by simp [hnull])] at h
      cases h
      rw [given?, if_pos hnull, hnull]
      exact ⟨fun _ hgiven => absurd hgiven (by decide), rfl⟩
    · rw [if_neg (by simp [hnull, hseconds])] at h
      obtain ⟨x, hx, h⟩ := bind_eq_ok.mp h
      have hx := mapError_eq_ok.mp hx
      cases h
      rw [given?, if_neg hnull, Option.bind_some, hx]
      exact ⟨fun _ _ => ⟨x, rfl⟩, rfl⟩

/-- What is made of milliseconds goes before the seconds of the same block. -/
theorem milliseconds_lookup {block limit : Level} (h : milliseconds block = .ok limit) :
    (∀ key ≠ "timeout_seconds", limit.reverse.lookup key = none) ∧
      (limit.reverse.lookup "timeout_seconds").or (given? (block.get "timeout_seconds")) =
        limit? block := by
  obtain ⟨-, rfl⟩ := milliseconds_eq_ok h
  by_cases hseconds : block.has "timeout_seconds" = true
  · rw [if_pos hseconds, limit?, if_pos hseconds]
    exact ⟨fun _ _ => rfl, rfl⟩
  · have hnull : block.get "timeout_seconds" = .null := by
      rw [Level.has, Option.not_isSome_iff_eq_none] at hseconds
      rw [Level.get, hseconds, Option.getD_none]
    rw [if_neg hseconds, hnull]
    constructor
    · intro key hother
      have hother : (key == "timeout_seconds") = false := beq_eq_false_iff_ne.mpr hother
      cases limit? block with
      | none => rfl
      | some d => simp [List.lookup_cons, hother]
    · cases limit? block <;> rfl

theorem rulesOver_lookup {base level : Level} {d : Datum} (h : rulesOver base d = .ok level) :
    ∃ block, Level.ofDatum d = .ok block ∧ LimitReadable block ∧
      (∀ key ∈ ruleKeys, key ≠ "timeout_seconds" →
        level.lookup key = (given? (block.get key)).or (base.lookup key)) ∧
      level.lookup "timeout_seconds" = (limit? block).or (base.lookup "timeout_seconds") := by
  obtain ⟨block, hblock, h⟩ := bind_eq_ok.mp h
  obtain ⟨limit, hlimit, h⟩ := bind_eq_ok.mp h
  cases h
  have hdistinct : ((block.pickGiven ruleKeys).map Prod.fst).Nodup :=
    (by decide : ruleKeys.Nodup).sublist (keys_pickGiven_sublist block ruleKeys)
  have hlookup : ∀ key ∈ ruleKeys,
      (Entries.insertAll base (block.pickGiven ruleKeys ++ limit)).lookup key =
        ((limit.reverse.lookup key).or (given? (block.get key))).or (base.lookup key) := by
    intro key hkey
    rw [Entries.insertAll_eq_writeAll, Check.lookup_writeAll, List.reverse_append,
      List.lookup_append, Entries.lookup_reverse hdistinct, lookup_pickGiven, if_pos hkey]
  obtain ⟨hothers, hseconds⟩ := milliseconds_lookup hlimit
  refine ⟨block, hblock, (milliseconds_eq_ok hlimit).1, ?_, ?_⟩
  · intro key hkey hother
    rw [hlookup key hkey, hothers key hother, Option.none_or]
  · rw [hlookup "timeout_seconds" (by decide), hseconds]

/-- The fields of rules say what the first of some layers says, over the settings. -/
structure Stacked (defaults : ConsensusDefaults) (layers : List Level) (fields : Level) : Prop where
  rule : ∀ key ∈ ruleKeys, key ≠ "timeout_seconds" →
    fields.lookup key = (firstGiven layers key).or ((rulesOfSettings defaults).lookup key)
  limit : fields.lookup "timeout_seconds" = layers.findSome? limit?
  readable : ∀ layer ∈ layers, LimitReadable layer

theorem stacked_nil (defaults : ConsensusDefaults) :
    Stacked defaults [] (rulesOfSettings defaults) :=
  ⟨fun _ _ _ => rfl, rfl, List.forall_mem_nil _⟩

theorem Stacked.over {defaults : ConsensusDefaults} {layers : List Level} {base fields : Level}
    (hbase : Stacked defaults layers base) {d : Datum} (h : rulesOver base d = .ok fields) :
    ∃ block, Level.ofDatum d = .ok block ∧ Stacked defaults (block :: layers) fields := by
  obtain ⟨block, hblock, hreadable, hrule, hlimit⟩ := rulesOver_lookup h
  refine ⟨block, hblock, ?_, ?_, List.forall_mem_cons.mpr ⟨hreadable, hbase.readable⟩⟩
  · intro key hkey hother
    rw [hrule key hkey hother, hbase.rule key hkey hother, firstGiven, firstGiven,
      List.findSome?_cons]
    cases given? (block.get key) <;> rfl
  · rw [hlimit, hbase.limit, List.findSome?_cons]
    cases limit? block <;> rfl

/-! ### Checked layers -/

theorem record_toDatum (name : String) (level : Level) :
    Check.record name level.toDatum = .ok level := by
  have hfields : Check.fieldsOf (level.map fun entry => (.text entry.1, entry.2)) = level := by
    induction level with
    | nil => rfl
    | cons entry rest ih => rw [List.map_cons, Check.fieldsOf, ih]
  exact congrArg Except.ok hfields

/-- A field with a default that is there has passed its rule, and one that is not there is
    its default. -/
theorem withDefault_lookup {α : Type} {fields : Check.Fields} {key : String} {default a : α}
    {rule : Check.Rule α} (h : Check.withDefault fields key default rule = .ok a) :
    match fields.lookup key with
    | some d => rule d = .ok a
    | none => a = default := by
  rcases Check.withDefault_eq_ok.mp h with ⟨d, hlookup, hrule⟩ | ⟨hlookup, hdefault⟩
  · rw [hlookup]
    exact hrule
  · rw [hlookup]
    exact hdefault.symm

theorem given?_eq_some {d e : Datum} (h : given? d = some e) : e.isNull = false := by
  unfold given? at h
  split at h
  · cases h
  · rename_i hnull
    cases h
    exact Bool.not_eq_true _ ▸ hnull

theorem limit?_eq_some {layer : Level} {d : Datum} (h : limit? layer = some d) :
    d.isNull = false := by
  unfold limit? at h
  split at h
  · exact given?_eq_some h
  · obtain ⟨e, -, h⟩ := Option.bind_eq_some_iff.mp h
    obtain ⟨x, -, rfl⟩ := Option.map_eq_some_iff.mp h
    rfl

theorem Stacked.layered {defaults : ConsensusDefaults} {layers : List Level} {fields : Level}
    (h : Stacked defaults layers fields) {rules : VotingRules}
    (hcheck : VotingRules.check fields.toDatum = .ok rules) : Layered defaults layers rules := by
  obtain ⟨_, hrecord, hstands, -⟩ := VotingRules.fields_of_check hcheck
  rw [record_toDatum] at hrecord
  cases hrecord
  have hbelow : ∀ {key : String} {d : Datum}, key ∈ ruleKeys → key ≠ "timeout_seconds" →
      (rulesOfSettings defaults).lookup key = some d →
        fields.lookup key = some ((firstGiven layers key).getD d) := by
    intro key d hkey hother hsettings
    rw [h.rule key hkey hother, hsettings, Option.or_some]
  constructor
  · have halgorithm := withDefault_lookup hstands.algorithm
    rwa [hbelow (by decide) (by decide) rfl] at halgorithm
  · have hvotes := withDefault_lookup hstands.minVotes
    rwa [hbelow (by decide) (by decide) rfl] at hvotes
  · have hconfidence := withDefault_lookup hstands.minConfidence
    rwa [hbelow (by decide) (by decide) rfl] at hconfidence
  · have hnoDefault : (rulesOfSettings defaults).lookup "weights" = none := rfl
    have hweights := withDefault_lookup hstands.weights
    rwa [h.rule "weights" (by decide) (by decide), hnoDefault, Option.or_none] at hweights
  · have htimeout := withDefault_lookup hstands.timeoutSeconds
    rw [h.limit] at htimeout
    cases hfirst : layers.findSome? limit? with
    | none =>
      rw [hfirst] at htimeout
      exact htimeout
    | some d =>
      rw [hfirst] at htimeout
      obtain ⟨layer, -, hlayer⟩ := List.exists_of_findSome?_eq_some hfirst
      exact Check.optional_of_given (limit?_eq_some hlayer) htimeout
  · exact h.readable

/-! ### Rules for single tiers -/

/-- The block for a tier: the last one under a key that stands for its number. -/
def blockFor (blocks : List (Datum × Datum)) (tier : Int) : Option Datum :=
  (blocks.reverse.find? fun entry => entry.1.toInteger.toOption == some tier).map Prod.snd

theorem tierNumber_eq_ok {key : Datum} {n : Int} (h : tierNumber key = .ok n) :
    key.toInteger = .ok n := by
  unfold tierNumber at h
  split at h
  · rename_i m hm
    cases h
    exact hm
  · cases h
  · split at h <;> cases h

/-- A block is read as rules under the number of its tier. -/
def ReadAs (base : Level) (entry : Datum × Datum) (numbered : Int × Datum) : Prop :=
  entry.1.toInteger = .ok numbered.1 ∧
    ∃ fields, rulesOver base entry.2 = .ok fields ∧ numbered.2 = fields.toDatum

theorem tierRules_eq_ok {base : Level} {blocks : List (Datum × Datum)}
    {start all : List (Int × Datum)} (h : tierRules base start blocks = .ok all) :
    ∃ numbered, List.Forall₂ (ReadAs base) blocks numbered ∧ all = Check.writeAll start numbered := by
  induction blocks generalizing start with
  | nil =>
    cases h
    exact ⟨[], .nil, rfl⟩
  | cons entry rest ih =>
    obtain ⟨n, hn, h⟩ := bind_eq_ok.mp h
    obtain ⟨fields, hfields, h⟩ := bind_eq_ok.mp h
    obtain ⟨numbered, hrest, rfl⟩ := ih h
    exact ⟨(n, fields.toDatum) :: numbered, .cons ⟨tierNumber_eq_ok hn, fields, hfields, rfl⟩ hrest,
      rfl⟩

/-- Where keys agree item by item, a look-up finds the partner of the item that has the key. -/
theorem lookup_of_passed {α κ β : Type} [BEq κ] {P : α → κ × β → Prop} {test : α → Bool} {key : κ}
    (htest : ∀ x pair, P x pair → test x = (key == pair.1)) {items : List α} {pairs : List (κ × β)}
    (h : List.Forall₂ P items pairs) :
    match items.find? test with
    | some x => ∃ pair, P x pair ∧ pairs.lookup key = some pair.2
    | none => pairs.lookup key = none := by
  induction h with
  | nil => rfl
  | @cons x pair rest others hfirst _ ih =>
    have hx := htest x pair hfirst
    rw [List.find?_cons, List.lookup_cons, hx]
    cases key == pair.1 with
    | true => exact ⟨pair, hfirst, rfl⟩
    | false => exact ih

theorem lookup_eq_find? {κ β : Type} [BEq κ] (entries : List (κ × β)) (key : κ) :
    entries.lookup key = (entries.find? fun entry => key == entry.1).map Prod.snd := by
  induction entries with
  | nil => rfl
  | cons entry rest ih =>
    rw [List.lookup_cons, List.find?_cons]
    cases key == entry.1 with
    | true => rfl
    | false => exact ih

/-- Of the blocks for one tier the last one is laid over the rules of the fleet. -/
theorem tierRules_lookup {base : Level} {blocks : List (Datum × Datum)} {all : List (Int × Datum)}
    (h : tierRules base [] blocks = .ok all) (tier : Int) : match blockFor blocks tier with
      | some block => ∃ fields, rulesOver base block = .ok fields ∧
          all.lookup tier = some fields.toDatum
      | none => all.lookup tier = none := by
  obtain ⟨numbered, hread, rfl⟩ := tierRules_eq_ok h
  have htest : ∀ entry pair, ReadAs base entry pair →
      (entry.1.toInteger.toOption == some tier) = (tier == pair.1) := by
    rintro entry pair ⟨hkey, -⟩
    rw [hkey]
    exact BEq.comm
  have hfound := lookup_of_passed htest (List.forall₂_reverse_iff.mpr hread)
  rw [Check.lookup_writeAll, List.lookup_nil, Option.or_none]
  unfold blockFor
  cases hfind : blocks.reverse.find? fun entry => entry.1.toInteger.toOption == some tier with
  | none =>
    rw [hfind] at hfound
    exact hfound
  | some entry =>
    rw [hfind] at hfound
    obtain ⟨pair, ⟨-, fields, hfields, hpair⟩, hlookup⟩ := hfound
    exact ⟨fields, hfields, hpair ▸ hlookup⟩

theorem tierRules_nodup {base : Level} {blocks : List (Datum × Datum)} {all : List (Int × Datum)}
    (h : tierRules base [] blocks = .ok all) : (all.map Prod.fst).Nodup := by
  obtain ⟨numbered, -, rfl⟩ := tierRules_eq_ok h
  have hempty : (([] : List (Int × Datum)).map Prod.fst).Nodup := List.nodup_nil
  exact Check.writeAll_nodup hempty numbered

theorem tiers_checked {numbered : List (Int × Datum)} {checked : List (Int × VotingRules)}
    (hdistinct : (numbered.map Prod.fst).Nodup)
    (h : Check.mapping Check.integer VotingRules.check
      (.mapping (numbered.map fun (n, rules) => (.int n, rules))) = .ok checked) (tier : Int) :
    match numbered.lookup tier with
      | some d => ∃ rules, VotingRules.check d = .ok rules ∧ checked.lookup tier = some rules
      | none => checked.lookup tier = none := by
  obtain ⟨entries, pairs, hentries, hpassed, rfl⟩ := Check.mapping_eq_ok.mp h
  cases hentries
  rw [List.forall₂_map_left_iff] at hpassed
  have hkeys : ∀ (entry : Int × Datum) (pair : Int × VotingRules),
      Check.EntryPasses Check.integer VotingRules.check (.int entry.1, entry.2) pair →
        (tier == entry.1) = (tier == pair.1) := by
    rintro entry pair ⟨hkey, -⟩
    rw [← Except.ok.inj hkey]
  have hfound := lookup_of_passed hkeys (List.forall₂_reverse_iff.mpr hpassed)
  rw [Check.lookup_writeAll, List.lookup_nil, Option.or_none,
    ← Entries.lookup_reverse hdistinct, lookup_eq_find?]
  cases hfind : numbered.reverse.find? fun entry => tier == entry.1 with
  | none =>
    rw [hfind] at hfound
    exact hfound
  | some entry =>
    rw [hfind] at hfound
    obtain ⟨pair, ⟨-, hrules⟩, hlookup⟩ := hfound
    exact ⟨pair.2, hrules, hlookup⟩

theorem rulesFor_layered {defaults : ConsensusDefaults} {fleetBlock base : Level}
    {blocks : List (Datum × Datum)} {numbered : List (Int × Datum)} {c : Coordination}
    (hbase : Stacked defaults [fleetBlock] base) (hnumbered : tierRules base [] blocks = .ok numbered)
    (hdefault : VotingRules.check base.toDatum = .ok c.defaultRules)
    (htiers : Check.mapping Check.integer VotingRules.check
      (.mapping (numbered.map fun (n, rules) => (.int n, rules))) = .ok c.tierRules) (tier : Int) :
    match blockFor blocks tier with
      | some block => ∃ tierBlock, Level.ofDatum block = .ok tierBlock ∧
          Layered defaults [tierBlock, fleetBlock] (c.rulesFor tier)
      | none => Layered defaults [fleetBlock] (c.rulesFor tier) := by
  have hread := tierRules_lookup hnumbered tier
  have hchecked := tiers_checked (tierRules_nodup hnumbered) htiers tier
  unfold Coordination.rulesFor
  cases hfind : blockFor blocks tier with
  | none =>
    rw [hfind] at hread
    dsimp only at hread
    rw [hread] at hchecked
    dsimp only at hchecked
    rw [hchecked]
    exact hbase.layered hdefault
  | some own =>
    rw [hfind] at hread
    obtain ⟨fields, hfields, hnumber⟩ := hread
    rw [hnumber] at hchecked
    obtain ⟨rules, hrules, hforce⟩ := hchecked
    obtain ⟨tierBlock, htier, hover⟩ := hbase.over hfields
    rw [hforce]
    exact ⟨tierBlock, htier, hover.layered hrules⟩

/-! ### Whole definitions -/

theorem coordination_of_read {fields : Level} {f : Fleet} {block : Level}
    (hblock : fields.lookup "coordination" = some block.toDatum)
    (h : Fleet.read fields.toDatum = .ok f) : Coordination.check block.toDatum = .ok f.coordination := by
  obtain ⟨_, hrecord, -, -, hcoordination⟩ := Fleet.parts_of_read h
  rw [record_toDatum] at hrecord
  cases hrecord
  have hchecked := withDefault_lookup hcoordination
  rwa [hblock] at hchecked

/-- The rules of a checked coordination are its blocks, checked. -/
theorem rules_of_fields {defaults : ConsensusDefaults} {d : Datum} {fields : Level}
    (hfields : coordinationFields defaults d = .ok fields) {c : Coordination}
    (hcheck : Coordination.check fields.toDatum = .ok c) :
    ∃ block tiered base blocks numbered, Level.ofDatum d = .ok block ∧
      Level.ofDatum (block.get "tiered") = .ok tiered ∧
      rulesOver (rulesOfSettings defaults) (block.get "consensus") = .ok base ∧
      tierBlocks tiered = .ok blocks ∧ tierRules base [] blocks = .ok numbered ∧
      VotingRules.check base.toDatum = .ok c.defaultRules ∧
      Check.mapping Check.integer VotingRules.check
        (.mapping (numbered.map fun (n, rules) => (.int n, rules))) = .ok c.tierRules := by
  obtain ⟨block, hblock, hfields⟩ := bind_eq_ok.mp hfields
  obtain ⟨tiered, htiered, hfields⟩ := bind_eq_ok.mp hfields
  obtain ⟨base, hbase, hfields⟩ := bind_eq_ok.mp hfields
  obtain ⟨blocks, hblocks, hfields⟩ := bind_eq_ok.mp hfields
  obtain ⟨numbered, hnumbered, hfields⟩ := bind_eq_ok.mp hfields
  cases hfields
  obtain ⟨_, hrecord, hdefault, htiers⟩ := Coordination.rules_of_check hcheck
  rw [record_toDatum] at hrecord
  cases hrecord
  exact ⟨block, tiered, base, blocks, numbered, hblock, htiered, hbase, hblocks, hnumbered,
    withDefault_lookup hdefault, withDefault_lookup htiers⟩

theorem coordination_of_fields {settings : Settings} {library : Library} {definition : Datum}
    {fields : Level} (h : Fleet.fields settings library definition = .ok fields) :
    ∃ block coordination, At definition ["spec", "coordination"] block ∧
      coordinationFields settings.consensus block = .ok coordination ∧
      fields.lookup "coordination" = some coordination.toDatum := by
  obtain ⟨document, hdocument, h⟩ := bind_eq_ok.mp h
  obtain ⟨metadata, -, h⟩ := bind_eq_ok.mp h
  obtain ⟨spec, hspec, h⟩ := bind_eq_ok.mp h
  dsimp only at h
  split at h
  · cases h
  · obtain ⟨entries, -, h⟩ := bind_eq_ok.mp h
    obtain ⟨agents, -, h⟩ := bind_eq_ok.mp h
    obtain ⟨coordination, hcoordination, h⟩ := bind_eq_ok.mp h
    cases h
    exact ⟨spec.get "coordination", coordination, .under hdocument (.under hspec .here),
      hcoordination, rfl⟩

theorem At.deeper {d e : Datum} {path : List String} (h : At d path e) {level : Level}
    (hlevel : Level.ofDatum e = .ok level) (key : String) : At d (path ++ [key]) (level.get key) := by
  induction h with
  | here => exact .under hlevel .here
  | under houter _ ih => exact .under houter (ih hlevel)

theorem At.unique {d e e' : Datum} {path : List String} (h : At d path e) (h' : At d path e') :
    e = e' := by
  induction h with
  | here =>
    cases h'
    rfl
  | under hlevel _ ih =>
    obtain _ | ⟨hlevel', hrest'⟩ := h'
    rw [hlevel] at hlevel'
    cases hlevel'
    exact ih hrest'

/-- The blocks of rules in a definition that makes a fleet: where they stand, and what they come
    to. -/
theorem blocks_of_made {settings : Settings} {library : Library} {definition : Datum} {f : Fleet}
    (h : Fleet.ofDefinition settings library definition = .ok f) :
    ∃ consensus fleetBlock tiers blocks base numbered,
      At definition ["spec", "coordination", "consensus"] consensus ∧
      Level.ofDatum consensus = .ok fleetBlock ∧
      At definition ["spec", "coordination", "tiered", "tier_consensus"] tiers ∧
      tiers.orElse (.mapping []) = .mapping blocks ∧
      Stacked settings.consensus [fleetBlock] base ∧ tierRules base [] blocks = .ok numbered ∧
      VotingRules.check base.toDatum = .ok f.coordination.defaultRules ∧
      Check.mapping Check.integer VotingRules.check
        (.mapping (numbered.map fun (n, rules) => (.int n, rules))) = .ok f.coordination.tierRules := by
  obtain ⟨fields, hfields, hcreate⟩ := bind_eq_ok.mp h
  obtain ⟨hread, -⟩ := Fleet.read_of_create (mapError_eq_ok.mp hcreate)
  obtain ⟨d, coordination, hat, hcoordination, hlookup⟩ := coordination_of_fields hfields
  obtain ⟨block, tiered, base, blocks, numbered, hblock, htiered, hbase, hblocks, hnumbered,
    hdefault, htiers⟩ := rules_of_fields hcoordination (coordination_of_read hlookup hread)
  obtain ⟨fleetBlock, hfleet, hstacked⟩ := (stacked_nil settings.consensus).over hbase
  have hblocks : (tiered.get "tier_consensus").orElse (.mapping []) = .mapping blocks := by
    unfold tierBlocks at hblocks
    split at hblocks
    · rename_i entries hentries
      cases hblocks
      exact hentries
    · cases hblocks
  exact ⟨block.get "consensus", fleetBlock, tiered.get "tier_consensus", blocks, base, numbered,
    hat.deeper hblock "consensus", hfleet, (hat.deeper hblock "tiered").deeper htiered _, hblocks,
    hstacked, hnumbered, hdefault, htiers⟩

/-- **Voting rules are layered.**  In a fleet that is made from a definition the rules in force
    in a tier say what the first layer says that gives something: the last block whose key
    stands for the tier's number, the block of the fleet, the defaults of the settings. -/
theorem ofDefinition_layered {settings : Settings} {library : Library} {definition : Datum}
    {f : Fleet} (h : Fleet.ofDefinition settings library definition = .ok f) :
    ∃ consensus fleetBlock tiers blocks,
      At definition ["spec", "coordination", "consensus"] consensus ∧
      Level.ofDatum consensus = .ok fleetBlock ∧
      At definition ["spec", "coordination", "tiered", "tier_consensus"] tiers ∧
      tiers.orElse (.mapping []) = .mapping blocks ∧
      ∀ tier, match blockFor blocks tier with
        | some block => ∃ tierBlock, Level.ofDatum block = .ok tierBlock ∧
            Layered settings.consensus [tierBlock, fleetBlock] (f.coordination.rulesFor tier)
        | none => Layered settings.consensus [fleetBlock] (f.coordination.rulesFor tier) := by
  obtain ⟨consensus, fleetBlock, tiers, blocks, base, numbered, hconsensus, hfleet, htiersAt,
    hblocks, hstacked, hnumbered, hdefault, htiers⟩ := blocks_of_made h
  exact ⟨consensus, fleetBlock, tiers, blocks, hconsensus, hfleet, htiersAt, hblocks,
    rulesFor_layered hstacked hnumbered hdefault htiers⟩

end Definition

/-- A definition with two blocks for one tier. -/
def watchData : Datum := .mapping [
  (.text "metadata", .mapping [(.text "name", .text "watch")]),
  (.text "spec", .mapping [
    (.text "agents", .list [.mapping [(.text "name", .text "ann")]]),
    (.text "coordination", .mapping [
      (.text "consensus", .mapping [(.text "minVotes", .int 2), (.text "timeoutMs", .int 1500)]),
      (.text "tiered", .mapping [(.text "tierConsensus", .mapping [
        (.int 1, .mapping [(.text "min-votes", .int 3)]),
        (.text "1", .mapping [(.text "algorithm", .text "unanimous"),
          (.text "min_votes", .null)])])])])])]

def watch : Fleet where
  name := "watch"
  apiVersion := "concord.dev/v1"
  kind := "AgentFleet"
  labels := []
  agents := [.bare "ann" 1]
  coordination := { Coordination.default with
    defaultRules := ⟨.majority, 2, 0.5, some 1.5, []⟩
    tierRules := [(1, ⟨.unanimous, 2, 0.5, some 1.5, []⟩)] }

theorem watch_coherent : watch.Coherent := by decide +kernel

/-- The fields of the watch under a time limit. -/
def watchFields (limit : Float) : Definition.Level := [
  ("name", .text "watch"), ("api_version", .text "concord.dev/v1"), ("kind", .text "AgentFleet"),
  ("labels", .mapping []),
  ("agents", .list [.mapping [(.text "name", .text "ann"), (.text "tier", .int 1),
    (.text "weight", .null), (.text "role", .text "worker"), (.text "labels", .mapping [])]]),
  ("coordination", .mapping [(.text "mode", .text "tiered"),
    (.text "default_consensus", .mapping [(.text "algorithm", .text "majority"),
      (.text "min_votes", .int 2), (.text "min_confidence", .float 0.5),
      (.text "timeout_seconds", .float limit)]),
    (.text "tier_consensus", .mapping [(.int 1, .mapping [(.text "algorithm", .text "unanimous"),
      (.text "min_votes", .int 2), (.text "min_confidence", .float 0.5),
      (.text "timeout_seconds", .float limit)])])])]

theorem watch_made : Fleet.ofDefinition houseSettings .empty watchData = .ok watch := by
  have hlimit : (1500.0 / 1000 : Float) = 1.5 := by decide +kernel
  have hfields : Fleet.fields houseSettings .empty watchData =
      .ok (watchFields (1500.0 / 1000)) := rfl
  rw [hlimit] at hfields
  have hread : Fleet.read (watchFields 1.5).toDatum = .ok watch := rfl
  have hlistable : watch.Listable := by
    intro _ _
    simp [watch, Fleet.listRoom]
  rw [Fleet.ofDefinition, bind_of_ok hfields,
    Fleet.create_of_coherent hread watch_coherent hlistable]
  rfl

/-- The later block counts for the tier, and its null leaves the votes to the fleet's block. -/
theorem watch_layered : Fleet.ofDefinition houseSettings .empty watchData = .ok watch ∧
    Definition.Layered houseSettings.consensus
      [[("algorithm", .text "unanimous"), ("min_votes", .null)],
        [("min_votes", .int 2), ("timeout_ms", .int 1500)]] (watch.coordination.rulesFor 1) := by
  obtain ⟨consensus, fleetBlock, tiers, blocks, hconsensus, hfleet, htiers, hblocks, hlayered⟩ :=
    Definition.ofDefinition_layered watch_made
  have hconsensusAt : Definition.At watchData ["spec", "coordination", "consensus"]
      (.mapping [(.text "minVotes", .int 2), (.text "timeoutMs", .int 1500)]) :=
    .under rfl (.under rfl (.under rfl .here))
  have htiersAt : Definition.At watchData ["spec", "coordination", "tiered", "tier_consensus"]
      (.mapping [(.int 1, .mapping [(.text "min-votes", .int 3)]),
        (.text "1", .mapping [(.text "algorithm", .text "unanimous"),
          (.text "min_votes", .null)])]) :=
    .under rfl (.under rfl (.under rfl (.under rfl .here)))
  cases hconsensus.unique hconsensusAt
  cases htiers.unique htiersAt
  cases hfleet
  cases hblocks
  obtain ⟨tierBlock, htier, hrules⟩ := hlayered 1
  cases htier
  exact ⟨watch_made, hrules⟩

end Quorum
