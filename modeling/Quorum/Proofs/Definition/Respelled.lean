/-
  Quorum/Proofs/Definition/Respelled.lean
  =======================================
  **The spelling of keys does not matter.**

  Two definitions that differ only in how the keys of their levels are written are read alike:
  at every level the entries come out under the same keys, and related data under them
  (`ofDatum_alike`), so whatever is looked up there is the same, or is a level further in.
  Labels and weights are no levels: their keys are kept as they are written (`Keeps`).
-/
import Quorum.Proofs.Definition.Verbatim
import Quorum.Proofs.Document.Spelling

namespace Quorum

namespace Definition

/-! ### Steps that come out alike -/

/-- Two steps end with one error, or with results that are related. -/
inductive Alike {ε α β : Type} (R : α → β → Prop) : Except ε α → Except ε β → Prop where
  | error (e : ε) : Alike R (.error e) (.error e)
  | ok {a : α} {b : β} (h : R a b) : Alike R (.ok a) (.ok b)

namespace Alike

variable {ε α β γ δ : Type} {R : α → β → Prop} {S : γ → δ → Prop} {x : Except ε α}
  {y : Except ε β}

/-- What follows may use what the first step has come to. -/
theorem bind_of_ok {f : α → Except ε γ} {g : β → Except ε δ} (h : Alike R x y)
    (hrest : ∀ a b, x = .ok a → R a b → Alike S (f a) (g b)) : Alike S (x >>= f) (y >>= g) := by
  cases h with
  | error e => exact .error e
  | ok hab => exact hrest _ _ rfl hab

theorem bind {f : α → Except ε γ} {g : β → Except ε δ} (h : Alike R x y)
    (hrest : ∀ a b, R a b → Alike S (f a) (g b)) : Alike S (x >>= f) (y >>= g) :=
  h.bind_of_ok fun a b _ => hrest a b

theorem mapM {f : α → Except ε γ} {g : β → Except ε δ} {as : List α} {bs : List β}
    (hstep : ∀ a ∈ as, ∀ b, R a b → Alike S (f a) (g b)) (h : List.Forall₂ R as bs) :
    Alike (List.Forall₂ S) (as.mapM f) (bs.mapM g) := by
  induction h with
  | nil => exact .ok .nil
  | cons hfirst _ ih =>
    rw [List.mapM_cons, List.mapM_cons]
    apply bind (hstep _ List.mem_cons_self _ hfirst)
    intro c d hcd
    apply bind (ih fun a ha => hstep a (List.mem_cons_of_mem _ ha))
    intro cs ds hrest
    exact .ok (.cons hcd hrest)

theorem of_refl {R : α → α → Prop} (hR : ∀ a, R a a) (x : Except ε α) : Alike R x x := by
  cases x with
  | error e => exact .error e
  | ok a => exact .ok (hR a)

theorem eq {x y : Except ε α} (h : Alike (· = ·) x y) : x = y := by
  cases h with
  | error e => rfl
  | ok h => rw [h]

end Alike

/-! ### Where keys may be respelled -/

/-- What may be respelled in a datum. -/
inductive Shape where
  /-- Nothing. -/
  | verbatim
  /-- The keys of a level, and what may be respelled under each of them. -/
  | level (below : String → Shape)
  /-- What may be respelled in every item of a list. -/
  | items (item : Shape)
  /-- What may be respelled under the keys of a mapping, but not these. -/
  | values (value : Shape)

/-- A key can be written out, and this is its one spelling. -/
def Spells (written : Datum) (key : String) : Prop :=
  ∃ s, written.written = .ok s ∧ Document.snakeKey s = key

/-- Two data differ only in the spelling of keys, in their places. -/
def Respelled : Shape → Datum → Datum → Prop
  | .verbatim, d, d' => d = d'
  | .level below, d, d' => d = d' ∨ ∃ entries entries', d = .mapping entries ∧
      d' = .mapping entries' ∧ List.Forall₂ (fun e e' => e = e' ∨
        ∃ key, Spells e.1 key ∧ Spells e'.1 key ∧ Respelled (below key) e.2 e'.2) entries entries'
  | .items item, d, d' => d = d' ∨ ∃ items items', d = .list items ∧ d' = .list items' ∧
      List.Forall₂ (Respelled item) items items'
  | .values value, d, d' => d = d' ∨ ∃ entries entries', d = .mapping entries ∧
      d' = .mapping entries' ∧
        List.Forall₂ (fun e e' => e.1 = e'.1 ∧ Respelled value e.2 e'.2) entries entries'

/-- A level with nothing to respell further in. -/
def flatShape : Shape := .level fun _ => .verbatim

/-- The blocks for single tiers are levels under keys that are none. -/
def tieredShape : Shape := .level fun key =>
  if key = "tier_consensus" then .values flatShape else .verbatim

def coordinationShape : Shape := .level fun key =>
  if key = "consensus" then flatShape else if key = "tiered" then tieredShape else .verbatim

def agentShape : Shape := .level fun key => if key = "spec" then flatShape else .verbatim

def specShape : Shape := .level fun key =>
  if key = "agents" then .items agentShape
  else if key = "coordination" then coordinationShape else .verbatim

/-- The levels of a definition. -/
def definitionShape : Shape := .level fun key =>
  if key = "metadata" then flatShape else if key = "spec" then specShape else .verbatim

/-- The levels of an agent's file. -/
def fileShape : Shape := .level fun key => if key = "spec" then flatShape else .verbatim

theorem Respelled.refl (shape : Shape) (d : Datum) : Respelled shape d d := by
  cases shape with
  | verbatim => exact rfl
  | level below => exact Or.inl rfl
  | items item => exact Or.inl rfl
  | values value => exact Or.inl rfl

theorem Respelled.of_entries {below : String → Shape} {entries entries' : List (Datum × Datum)}
    (h : List.Forall₂ (fun e e' => e = e' ∨ ∃ key, Spells e.1 key ∧ Spells e'.1 key ∧
      Respelled (below key) e.2 e'.2) entries entries') :
    Respelled (.level below) (.mapping entries) (.mapping entries') :=
  Or.inr ⟨entries, entries', rfl, rfl, h⟩

theorem Respelled.of_items {item : Shape} {items items' : List Datum}
    (h : List.Forall₂ (Respelled item) items items') :
    Respelled (.items item) (.list items) (.list items') :=
  Or.inr ⟨items, items', rfl, rfl, h⟩

/-! ### Levels -/

/-- Levels with the same keys, and related data under them. -/
def Level.Respelled (below : String → Shape) (level level' : Level) : Prop :=
  List.Forall₂ (fun e e' => e.1 = e'.1 ∧ Definition.Respelled (below e.1) e.2 e'.2) level level'

namespace Level.Respelled

variable {below : String → Shape} {level level' added added' : Level}

theorem insert (h : Level.Respelled below level level') {key : String} {d d' : Datum}
    (hd : Definition.Respelled (below key) d d') :
    Level.Respelled below (Entries.insert key d level) (Entries.insert key d' level') := by
  induction h with
  | nil => exact .cons ⟨rfl, hd⟩ .nil
  | @cons e e' rest rest' hfirst hrest ih =>
    rw [Entries.insert, Entries.insert, ← hfirst.1]
    split
    · exact .cons ⟨rfl, hd⟩ hrest
    · exact .cons ⟨rfl, hfirst.2⟩ ih

theorem insertAll (h : Level.Respelled below level level')
    (hadded : Level.Respelled below added added') :
    Level.Respelled below (Entries.insertAll level added) (Entries.insertAll level' added') := by
  induction hadded generalizing level level' with
  | nil => exact h
  | @cons e e' rest rest' hfirst _ ih =>
    obtain ⟨key, d⟩ := e
    obtain ⟨key', d'⟩ := e'
    obtain ⟨rfl, hd⟩ := hfirst
    exact ih (h.insert hd)

theorem lookup (h : Level.Respelled below level level') (key : String) :
    Option.Rel (Definition.Respelled (below key)) (level.lookup key) (level'.lookup key) := by
  induction h with
  | nil => exact .none
  | @cons e e' rest rest' hfirst _ ih =>
    rw [List.lookup_cons, List.lookup_cons, ← hfirst.1]
    cases hkey : key == e.1 with
    | true =>
      rw [beq_iff_eq.mp hkey]
      exact .some hfirst.2
    | false => exact ih

theorem get (h : Level.Respelled below level level') (key : String) :
    Definition.Respelled (below key) (level.get key) (level'.get key) := by
  have hlookup := h.lookup key
  unfold Level.get
  cases hd : level.lookup key <;> cases hd' : level'.lookup key <;> rw [hd, hd'] at hlookup
  · exact Respelled.refl _ _
  · cases hlookup
  · cases hlookup
  · cases hlookup with
    | some hrel => exact hrel

/-- What is under a key that leads no further is the same. -/
theorem lookup_eq (h : Level.Respelled below level level') (key : String)
    (hkey : below key = .verbatim) : level.lookup key = level'.lookup key := by
  have hlookup := h.lookup key
  rw [hkey] at hlookup
  generalize level.lookup key = found at hlookup ⊢
  generalize level'.lookup key = found' at hlookup ⊢
  cases hlookup with
  | none => rfl
  | some hd => exact congrArg some hd

theorem get_eq (h : Level.Respelled below level level') (key : String)
    (hkey : below key = .verbatim) : level.get key = level'.get key := by
  rw [Level.get, Level.get, h.lookup_eq key hkey]

theorem has_eq (h : Level.Respelled below level level') (key : String)
    (hkey : below key = .verbatim) : level.has key = level'.has key := by
  rw [Level.has, Level.has, h.lookup_eq key hkey]

theorem pick_eq (h : Level.Respelled below level level') {keys : List String}
    (hkeys : ∀ key ∈ keys, below key = .verbatim) : level.pick keys = level'.pick keys := by
  unfold Level.pick
  apply List.filterMap_congr
  intro key hkey
  rw [h.lookup_eq key (hkeys key hkey)]

theorem eq_of_flat (h : Level.Respelled (fun _ => .verbatim) level level') : level = level' := by
  induction h with
  | nil => rfl
  | cons hfirst _ ih => rw [ih, Prod.ext hfirst.1 hfirst.2]

theorem of_eq (level : Level) : Level.Respelled below level level :=
  List.forall₂_same.mpr fun _ _ => ⟨rfl, Respelled.refl _ _⟩

end Level.Respelled

/-- Levels that differ only in the spelling of their keys are read alike. -/
theorem ofDatum_alike {below : String → Shape} {d d' : Datum}
    (h : Respelled (.level below) d d') :
    Alike (Level.Respelled below) (Level.ofDatum d) (Level.ofDatum d') := by
  rcases h with rfl | ⟨entries, entries', rfl, rfl, hentries⟩
  · exact Alike.of_refl Level.Respelled.of_eq _
  · have hspelled : Alike (List.Forall₂ fun e e' => e.1 = e'.1 ∧ Respelled (below e.1) e.2 e'.2)
        (entries.mapM Level.spelled) (entries'.mapM Level.spelled) := by
      refine Alike.mapM ?_ hentries
      rintro e - e' (rfl | ⟨key, ⟨s, hs, hkey⟩, ⟨s', hs', hkey'⟩, hvalue⟩)
      · exact Alike.of_refl (fun _ => ⟨rfl, Respelled.refl _ _⟩) _
      · have hread : Level.spelled e = .ok (key, e.2) := by
          rw [Level.spelled, hs, ← hkey]
          rfl
        have hread' : Level.spelled e' = .ok (key, e'.2) := by
          rw [Level.spelled, hs', ← hkey']
          rfl
        rw [hread, hread']
        exact .ok ⟨rfl, hvalue⟩
    cases hentries with
    | nil => exact .ok .nil
    | cons hfirst hrest =>
      unfold Level.ofDatum
      simp only [Datum.isGiven, List.isEmpty_cons, Bool.not_false, Bool.not_true, if_false,
        Bool.false_eq_true]
      generalize List.mapM Level.spelled _ = read at hspelled ⊢
      generalize List.mapM Level.spelled _ = read' at hspelled ⊢
      cases hspelled with
      | error e => exact .error e
      | ok hlevel => exact .ok (Level.Respelled.insertAll .nil hlevel)

theorem ofDatum_eq {d d' : Datum} (h : Respelled flatShape d d') :
    Level.ofDatum d = Level.ofDatum d' := by
  have halike := ofDatum_alike h
  generalize Level.ofDatum d = read at halike ⊢
  generalize Level.ofDatum d' = read' at halike ⊢
  cases halike with
  | error e => rfl
  | ok hlevel => rw [hlevel.eq_of_flat]

/-! ### Coordination -/

theorem rulesOver_eq (base : Level) {d d' : Datum} (h : Respelled flatShape d d') :
    rulesOver base d = rulesOver base d' := by
  unfold rulesOver
  rw [ofDatum_eq h]

theorem tierRules_eq (base : Level) (numbered : List (Int × Datum))
    {blocks blocks' : List (Datum × Datum)}
    (h : List.Forall₂ (fun e e' => e.1 = e'.1 ∧ Respelled flatShape e.2 e'.2) blocks blocks') :
    tierRules base numbered blocks = tierRules base numbered blocks' := by
  induction h generalizing numbered with
  | nil => rfl
  | @cons e e' rest rest' hfirst _ ih =>
    obtain ⟨key, block⟩ := e
    obtain ⟨key', block'⟩ := e'
    obtain ⟨rfl, hblock⟩ := hfirst
    simp only [tierRules, rulesOver_eq base hblock, ih]

/-- Data in place of null and of what is empty are related as before. -/
theorem Respelled.orElse {shape : Shape} {d d' : Datum} (h : Respelled shape d d')
    (other : Datum) : Respelled shape (d.orElse other) (d'.orElse other) := by
  have hgiven : d.isGiven = d'.isGiven := by
    cases shape with
    | verbatim =>
      cases h
      rfl
    | level below =>
      rcases h with rfl | ⟨entries, entries', rfl, rfl, hentries⟩
      · rfl
      · cases hentries <;> rfl
    | items item =>
      rcases h with rfl | ⟨items, items', rfl, rfl, hitems⟩
      · rfl
      · cases hitems <;> rfl
    | values value =>
      rcases h with rfl | ⟨entries, entries', rfl, rfl, hentries⟩
      · rfl
      · cases hentries <;> rfl
  unfold Datum.orElse
  rw [hgiven]
  split
  · exact h
  · exact refl shape other

theorem tierBlocks_alike {below : String → Shape}
    (hbelow : below "tier_consensus" = .values flatShape) {tiered tiered' : Level}
    (h : Level.Respelled below tiered tiered') :
    Alike (List.Forall₂ fun e e' => e.1 = e'.1 ∧ Respelled flatShape e.2 e'.2)
      (tierBlocks tiered) (tierBlocks tiered') := by
  have hblocks := (h.get "tier_consensus").orElse (.mapping [])
  rw [hbelow] at hblocks
  unfold tierBlocks
  rcases hblocks with hsame | ⟨entries, entries', hentries, hentries', hrelated⟩
  · rw [hsame]
    exact Alike.of_refl (fun _ => List.forall₂_same.mpr fun _ _ => ⟨rfl, Respelled.refl _ _⟩) _
  · rw [hentries, hentries']
    exact .ok hrelated

theorem coordinationFields_eq (defaults : ConsensusDefaults) {d d' : Datum}
    (h : Respelled coordinationShape d d') :
    coordinationFields defaults d = coordinationFields defaults d' := by
  apply Alike.eq
  unfold coordinationFields
  apply Alike.bind (ofDatum_alike h)
  intro block block' hblock
  have htiered : Respelled tieredShape (block.get "tiered") (block'.get "tiered") :=
    hblock.get "tiered"
  have hconsensus : Respelled flatShape (block.get "consensus") (block'.get "consensus") :=
    hblock.get "consensus"
  apply Alike.bind (ofDatum_alike htiered)
  intro tiered tiered' htiered
  rw [rulesOver_eq _ hconsensus]
  apply Alike.bind (Alike.of_refl (fun _ => rfl) _)
  rintro base _ rfl
  apply Alike.bind (tierBlocks_alike rfl htiered)
  intro blocks blocks' hblocks
  rw [tierRules_eq base [] hblocks]
  apply Alike.bind (Alike.of_refl (fun _ => rfl) _)
  rintro numbered _ rfl
  have hmode : block.getOr "mode" (.text "tiered") = block'.getOr "mode" (.text "tiered") := by
    rw [Level.getOr, Level.getOr, hblock.lookup_eq "mode" rfl]
  have hpicked : tiered.pickGiven tieredKeys = tiered'.pickGiven tieredKeys := by
    rw [Level.pickGiven, Level.pickGiven, htiered.pick_eq (by simp [tieredKeys])]
  rw [hmode, hpicked, hblock.get_eq "manager" rfl]
  exact .ok rfl

/-! ### Agents -/

theorem withSystemPrompt_respelled {below : String → Shape} {level level' : Level}
    (h : Level.Respelled below level level') (hprompt : below "system_prompt" = .verbatim)
    (hinstructions : below "instructions" = .verbatim) :
    Level.Respelled below (withSystemPrompt level) (withSystemPrompt level') := by
  unfold withSystemPrompt
  rw [h.lookup_eq _ hprompt, h.has_eq _ hinstructions]
  split
  · split
    · exact h
    · exact List.rel_append h (.cons ⟨rfl, Respelled.refl _ _⟩ .nil)
  · exact h

/-- The level of a file with its inner block laid over it. -/
def overlaid (top : Level) (spec : Datum) : Except LoadError Level :=
  match spec with
  | .mapping entries => (Level.ofDatum (.mapping entries)).map (Entries.insertAll top)
  | _ => .ok top

theorem fileLayer_overlaid (document : Datum) : fileLayer document =
    Level.ofDatum document >>= fun top => overlaid top (top.get "spec") >>= fun merged =>
      .ok ((withSystemPrompt merged).pick layerKeys) := by
  unfold fileLayer overlaid
  congr
  funext top
  generalize top.get "spec" = spec
  cases spec with
  | mapping entries =>
    dsimp only
    cases Level.ofDatum (.mapping entries) <;> rfl
  | _ => rfl

theorem overlaid_alike {below : String → Shape} {top top' : Level}
    (h : Level.Respelled below top top') {spec spec' : Datum}
    (hspec : Respelled flatShape spec spec') :
    Alike (Level.Respelled below) (overlaid top spec) (overlaid top' spec') := by
  have hover (read : Except LoadError Level) : Alike (Level.Respelled below)
      (read.map (Entries.insertAll top)) (read.map (Entries.insertAll top')) := by
    cases read with
    | error e => exact .error e
    | ok level => exact .ok (h.insertAll (.of_eq level))
  have hread := ofDatum_eq hspec
  rcases hspec with rfl | ⟨entries, entries', rfl, rfl, -⟩
  · unfold overlaid
    split
    · exact hover _
    · exact .ok h
  · unfold overlaid
    dsimp only
    rw [hread]
    exact hover _

theorem fileLayer_eq {d d' : Datum} (h : Respelled fileShape d d') :
    fileLayer d = fileLayer d' := by
  apply Alike.eq
  rw [fileLayer_overlaid, fileLayer_overlaid]
  apply Alike.bind (ofDatum_alike h)
  intro top top' htop
  apply Alike.bind (overlaid_alike htop (htop.get "spec"))
  intro merged merged' hmerged
  rw [(withSystemPrompt_respelled hmerged rfl rfl).pick_eq (by simp [layerKeys])]
  exact .ok rfl

/-! ### Files -/

variable {library library' : Library}

/-- At a path two libraries have the same, or documents that differ only in the spelling of
    keys. -/
def FilesAlike (library library' : Library) (path : FilePath) : Prop :=
  library.files.read path = library'.files.read path ∨
    ∃ d d', Holds library.files path d ∧ Holds library'.files path d' ∧ Respelled fileShape d d'

theorem configDocument_of_holds {path : FilePath} {d : Datum} (h : Holds library.files path d)
    (name : Datum) : configDocument library name path =
      if path.text.toList.contains '\x00' then .error .nulInPath else .ok d := by
  obtain ⟨bytes, cs, hread, hdecode, hyaml⟩ := h
  unfold configDocument
  by_cases hnul : path.text.toList.contains '\x00' = true
  · rw [if_pos hnul, if_pos hnul]
    rfl
  · rw [if_neg hnul, if_neg hnul]
    dsimp only
    rw [hread]
    dsimp only
    rw [hdecode]
    dsimp only
    rw [hyaml]
    rfl

theorem configDocument_alike {path : FilePath} (h : FilesAlike library library' path)
    (name : Datum) : Alike (Respelled fileShape) (configDocument library name path)
      (configDocument library' name path) := by
  rcases h with hsame | ⟨d, d', hd, hd', hrelated⟩
  · have heq : configDocument library name path = configDocument library' name path := by
      unfold configDocument
      rw [hsame]
    rw [heq]
    exact Alike.of_refl (Respelled.refl fileShape) _
  · rw [configDocument_of_holds hd, configDocument_of_holds hd']
    split
    · exact .error _
    · exact .ok hrelated

theorem configLayer_eq (hdirectory : library.directory = library'.directory) {config : Datum}
    (hfile : ∀ path, pathOf config = .ok path → FilesAlike library library' (library.locate path))
    (name : Datum) : configLayer library name config = configLayer library' name config := by
  apply Alike.eq
  unfold configLayer
  apply Alike.bind_of_ok (Alike.of_refl (fun _ => rfl) _)
  rintro path _ hpath rfl
  have hlocate : library'.locate path = library.locate path := by
    unfold Library.locate
    rw [hdirectory]
  rw [hlocate]
  apply Alike.bind (configDocument_alike (hfile path hpath) name)
  intro d d' hd
  rw [fileLayer_eq hd]
  exact Alike.of_refl (fun _ => rfl) _

/-- Entries that differ only in the spelling of keys give the same fields, if the file that they
    name does. -/
theorem agentFields_eq (hdirectory : library.directory = library'.directory) {d d' : Datum}
    (hfile : ∀ path, Fleet.entryFile? library d = some path → FilesAlike library library' path)
    (hd : Respelled agentShape d d') : agentFields library d = agentFields library' d' := by
  apply Alike.eq
  unfold agentFields
  apply Alike.bind_of_ok (ofDatum_alike hd)
  intro own own' hlevel hown
  have hblock : blockLayer (own.get "spec") = blockLayer (own'.get "spec") := by
    have hspec : Respelled flatShape (own.get "spec") (own'.get "spec") := hown.get "spec"
    unfold blockLayer
    rw [ofDatum_eq hspec]
  have hentry : entryLayer own = entryLayer own' := hown.pick_eq (by simp)
  have hconfig (name : Datum) : configLayer library name (own'.get "config") =
      configLayer library' name (own'.get "config") := by
    apply configLayer_eq hdirectory
    intro path hpath
    apply hfile
    rw [← hown.get_eq "config" rfl] at hpath
    simp [Fleet.entryFile?, hlevel, hpath, Except.toOption]
  have hplaced (name : Datum) :
      placedFields library name own = placedFields library' name own' := by
    have hplacement : placement name own = placement name own' := by
      unfold placement
      rw [hown.get_eq "tier" rfl, hown.get_eq "weight" rfl,
        hown.get_eq "labels" rfl, Level.getOr, Level.getOr,
        hown.lookup_eq "role" rfl]
    unfold placedFields
    simp only [hplacement, hown.get_eq "config" rfl, hconfig]
  simp only [hown.get_eq "name" rfl, hplaced, hblock, hentry]
  exact Alike.of_refl (fun _ => rfl) _

/-! ### Whole definitions -/

/-- Two definitions, with the files that the first one names, differ only in the spelling of
    keys. -/
structure Respelling (library library' : Library) (definition definition' : Datum) : Prop where
  keys : Respelled definitionShape definition definition'
  directory : library.directory = library'.directory
  files : ∀ path ∈ Fleet.agentFiles library definition, FilesAlike library library' path

theorem agentEntries_alike {below : String → Shape} (hbelow : below "agents" = .items agentShape)
    {spec spec' : Level} (h : Level.Respelled below spec spec') :
    Alike (List.Forall₂ (Respelled agentShape)) (Fleet.agentEntries spec)
      (Fleet.agentEntries spec') := by
  have hagents := (h.get "agents").orElse (.list [])
  rw [hbelow] at hagents
  unfold Fleet.agentEntries
  rcases hagents with hsame | ⟨items, items', hitems, hitems', hrelated⟩
  · rw [hsame]
    exact Alike.of_refl (fun _ => List.forall₂_same.mpr fun _ _ => Respelled.refl _ _) _
  · rw [hitems, hitems']
    exact .ok hrelated

theorem agentFiles_of_levels {definition : Datum} {document spec : Level} {entries : List Datum}
    (hdocument : Level.ofDatum definition = .ok document)
    (hspec : Level.ofDatum (document.get "spec") = .ok spec)
    (hentries : Fleet.agentEntries spec = .ok entries) :
    Fleet.agentFiles library definition = entries.filterMap (Fleet.entryFile? library) := by
  simp [Fleet.agentFiles, hdocument, hspec, hentries, Except.toOption]

theorem fields_eq (settings : Settings) {definition definition' : Datum}
    (h : Respelling library library' definition definition') :
    Fleet.fields settings library definition = Fleet.fields settings library' definition' := by
  apply Alike.eq
  unfold Fleet.fields
  apply Alike.bind_of_ok (ofDatum_alike h.keys)
  intro document document' hlevel hdocument
  have hmetadata : Respelled flatShape (document.get "metadata") (document'.get "metadata") :=
    hdocument.get "metadata"
  have hspec : Respelled specShape (document.get "spec") (document'.get "spec") :=
    hdocument.get "spec"
  rw [ofDatum_eq hmetadata]
  apply Alike.bind (Alike.of_refl (fun _ => rfl) _)
  rintro metadata _ rfl
  apply Alike.bind_of_ok (ofDatum_alike hspec)
  intro spec spec' hinner hspec
  have hcoordination : Respelled coordinationShape (spec.get "coordination")
      (spec'.get "coordination") := hspec.get "coordination"
  simp only [coordinationFields_eq _ hcoordination, Level.getOr,
    hdocument.lookup_eq "api_version" rfl, hdocument.lookup_eq "kind" rfl]
  split
  · exact .error _
  · apply Alike.bind_of_ok (agentEntries_alike rfl hspec)
    intro entries entries' hlist hentries
    have hagents : Alike (List.Forall₂ (· = ·)) (entries.mapM (agentFields library))
        (entries'.mapM (agentFields library')) := by
      refine Alike.mapM ?_ hentries
      intro entry hmem entry' hentry
      have hfile (path : FilePath) (hpath : Fleet.entryFile? library entry = some path) :
          FilesAlike library library' path := by
        apply h.files
        rw [agentFiles_of_levels hlevel hinner hlist]
        exact List.mem_filterMap.mpr ⟨entry, hmem, hpath⟩
      rw [agentFields_eq h.directory hfile hentry]
      exact Alike.of_refl (fun _ => rfl) _
    apply Alike.bind hagents
    intro agents agents' hsame
    rw [List.forall₂_eq_eq_eq] at hsame
    rw [hsame]
    exact Alike.of_refl (fun _ => rfl) _

theorem ofDefinition_eq (settings : Settings) {definition definition' : Datum}
    (h : Respelling library library' definition definition') :
    Fleet.ofDefinition settings library definition =
      Fleet.ofDefinition settings library' definition' := by
  unfold Fleet.ofDefinition
  rw [fields_eq settings h]

/-- **The spelling of keys does not matter.**  However plain words are joined to a key, it has
    one spelling; definitions that differ, with the files that they name, only in the spelling
    of keys at their levels make one fleet or end with one error; and the keys of labels and of
    weights are kept as they are written. -/
theorem ofDefinition_respelled :
    (∀ (s : Document.Spelling) (words : List Document.Word),
      Document.snakeKey (s.write words) = Document.Spelling.snake.write words) ∧
    (∀ (settings : Settings) (library library' : Library) (definition definition' : Datum),
      Respelling library library' definition definition' →
        Fleet.ofDefinition settings library definition =
          Fleet.ofDefinition settings library' definition') ∧
    ∀ (settings : Settings) (library : Library) (definition : Datum) (f : Fleet),
      Fleet.ofDefinition settings library definition = .ok f → Verbatim definition f :=
  ⟨Document.snakeKey_write, fun settings _ _ _ _ h => ofDefinition_eq settings h,
    fun _ _ _ _ h => verbatim_of_made h⟩

end Definition

/-! ### The desk, respelled -/

/-- The desk with some of its keys written in other ways. -/
def respelledDeskEntry : Datum := .mapping [(.text "name", .text "ann"),
  (.text "Config", .text "ann.yaml"), (.text "labels", .mapping [(.text "onCall", .text "yes")])]

def respelledDeskData : Datum := .mapping [
  (.text "Metadata", .mapping [(.text "Name", .text "desk")]),
  (.text "spec", .mapping [(.text "agents", .list [respelledDeskEntry])])]

/-- The agent's file with some of its keys written in other ways. -/
def respelledDeskText : String :=
  "Instructions: Answer briefly.\nspec:\n  systemPrompt: You analyze incidents.\n"

theorem respelledDesk_holds : Definition.Holds (deskLibrary respelledDeskText).files deskPath
    (deskDocument "Instructions" "systemPrompt") :=
  holds_of_readsAsDesk (by decide +kernel)

section Desk

open Definition

/-- Two texts that have one spelling. -/
theorem spells_of_texts (s s' key : String) (h : Document.snakeKey s = key)
    (h' : Document.snakeKey s' = key) : Spells (.text s) key ∧ Spells (.text s') key :=
  ⟨⟨s, rfl, h⟩, ⟨s', rfl, h'⟩⟩

theorem deskData_respelled : Respelled definitionShape deskData respelledDeskData := by
  obtain ⟨hmetadata, hmetadata'⟩ := spells_of_texts "metadata" "Metadata" "metadata"
    (by decide +kernel) (by decide +kernel)
  obtain ⟨hname, hname'⟩ := spells_of_texts "name" "Name" "name"
    (by decide +kernel) (by decide +kernel)
  obtain ⟨hconfig, hconfig'⟩ := spells_of_texts "config" "Config" "config"
    (by decide +kernel) (by decide +kernel)
  obtain ⟨hspec, hagents⟩ : Spells (.text "spec") "spec" ∧ Spells (.text "agents") "agents" :=
    ⟨⟨_, rfl, by decide +kernel⟩, ⟨_, rfl, by decide +kernel⟩⟩
  have hnames : Respelled flatShape (.mapping [(.text "name", .text "desk")])
      (.mapping [(.text "Name", .text "desk")]) :=
    .of_entries (.cons (.inr ⟨"name", hname, hname', rfl⟩) .nil)
  have hentry : Respelled agentShape deskEntry respelledDeskEntry :=
    .of_entries (.cons (.inl rfl)
      (.cons (.inr ⟨"config", hconfig, hconfig', rfl⟩) (.cons (.inl rfl) .nil)))
  have hlist : Respelled (.items agentShape) (.list [deskEntry]) (.list [respelledDeskEntry]) :=
    .of_items (.cons hentry .nil)
  have hinner : Respelled specShape (.mapping [(.text "agents", .list [deskEntry])])
      (.mapping [(.text "agents", .list [respelledDeskEntry])]) :=
    .of_entries (.cons (.inr ⟨"agents", hagents, hagents, hlist⟩) .nil)
  exact .of_entries (.cons (.inr ⟨"metadata", hmetadata, hmetadata', hnames⟩)
    (.cons (.inr ⟨"spec", hspec, hspec, hinner⟩) .nil))

theorem deskFiles_alike :
    FilesAlike (deskLibrary deskText) (deskLibrary respelledDeskText) deskPath := by
  obtain ⟨hinstructions, hinstructions'⟩ := spells_of_texts "instructions" "Instructions"
    "instructions" (by decide +kernel) (by decide +kernel)
  obtain ⟨hprompt, hprompt'⟩ := spells_of_texts "system_prompt" "systemPrompt"
    "system_prompt" (by decide +kernel) (by decide +kernel)
  have hspec : Spells (.text "spec") "spec" := ⟨_, rfl, by decide +kernel⟩
  have hblock : Respelled flatShape
      (.mapping [(.text "system_prompt", .text "You analyze incidents.")])
      (.mapping [(.text "systemPrompt", .text "You analyze incidents.")]) :=
    .of_entries (.cons (.inr ⟨"system_prompt", hprompt, hprompt', rfl⟩) .nil)
  exact Or.inr ⟨_, _, desk_holds, respelledDesk_holds,
    .of_entries (.cons (.inr ⟨"instructions", hinstructions, hinstructions', rfl⟩)
      (.cons (.inr ⟨"spec", hspec, hspec, hblock⟩) .nil))⟩

theorem desk_respelling : Respelling (deskLibrary deskText) (deskLibrary respelledDeskText)
    deskData respelledDeskData where
  keys := deskData_respelled
  directory := rfl
  files := by
    have hnamed : Fleet.agentFiles (deskLibrary deskText) deskData = [deskPath] := rfl
    intro path hpath
    rw [hnamed, List.mem_singleton] at hpath
    rw [hpath]
    exact deskFiles_alike

end Desk

/-- The desk comes out as before, with the label that is written in two words. -/
theorem desk_respelled : ∃ f,
    Definition.Respelling (deskLibrary deskText) (deskLibrary respelledDeskText) deskData
      respelledDeskData ∧
    Fleet.ofDefinition houseSettings (deskLibrary deskText) deskData = .ok f ∧
    Fleet.ofDefinition houseSettings (deskLibrary respelledDeskText) respelledDeskData = .ok f ∧
    Definition.Verbatim deskData f := by
  obtain ⟨-, hsame, hkept⟩ := Definition.ofDefinition_respelled
  obtain ⟨f, hmade, -⟩ := desk_made
  have hrespelled := hsame houseSettings _ _ _ _ desk_respelling
  exact ⟨f, desk_respelling, hmade, hrespelled ▸ hmade, hkept _ _ _ _ hmade⟩

end Quorum
