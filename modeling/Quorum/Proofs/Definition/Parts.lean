/-
  Quorum/Proofs/Definition/Parts.lean
  ===================================
  **What an accepted definition is made of.**

  A definition that makes a fleet has been read part by part: its labels, its agents entry by
  entry, its coordination (`parts_of_fields`), and every entry has become the agent at its
  place (`agents_of_made`).  The fields of an agent are put together from what its entry says,
  the file that it names and the block inside it, and each is found where it was written last
  (`Described`, `agentFields_lookup`).
-/
import Quorum.Proofs.Definition.Layers

namespace Quorum

/-! ### Look-ups -/

theorem Entries.lookup_insert {α : Type} (key other : String) (value : α)
    (entries : List (String × α)) : (insert key value entries).lookup other =
      if other == key then some value else entries.lookup other := by
  rw [insert_eq_insertKey, Check.lookup_insertKey]

theorem Entries.insertAll_append {α : Type} (entries added more : List (String × α)) :
    insertAll entries (added ++ more) = insertAll (insertAll entries added) more :=
  List.foldl_append

/-- What is written under different keys is found before what was there. -/
theorem Entries.lookup_insertAll {α : Type} {added : List (String × α)}
    (hadded : (added.map Prod.fst).Nodup) (entries : List (String × α)) (key : String) :
    (insertAll entries added).lookup key = (added.lookup key).or (entries.lookup key) := by
  rw [insertAll_eq_writeAll, Check.lookup_writeAll, lookup_reverse hadded]

namespace Definition

/-- The datum under a key, if the key is one of some. -/
def among (keys : List String) (level : Level) (key : String) : Option Datum :=
  if key ∈ keys then level.lookup key else none

theorem among_of_mem {keys : List String} {key : String} (h : key ∈ keys) (level : Level) :
    among keys level key = level.lookup key :=
  if_pos h

theorem among_of_not_mem {keys : List String} {key : String} (h : key ∉ keys) (level : Level) :
    among keys level key = none :=
  if_neg h

theorem lookup_pick (level : Level) (keys : List String) (key : String) :
    (level.pick keys).lookup key = among keys level key := by
  unfold Level.pick among
  induction keys with
  | nil => rfl
  | cons first rest ih =>
    rw [List.filterMap_cons]
    by_cases hfirst : key = first
    · subst hfirst
      cases hlookup : level.lookup key with
      | none => simpa [hlookup] using ih
      | some d => simp
    · have hother : (key == first) = false := beq_eq_false_iff_ne.mpr hfirst
      cases level.lookup first with
      | none => simpa [hfirst] using ih
      | some d => simpa [List.lookup_cons, hother, hfirst] using ih

theorem keys_pick_sublist (level : Level) (keys : List String) :
    ((level.pick keys).map Prod.fst).Sublist keys := by
  unfold Level.pick
  induction keys with
  | nil => exact List.Sublist.refl []
  | cons first rest ih =>
    rw [List.filterMap_cons]
    cases level.lookup first with
    | none => exact ih.cons first
    | some d => exact ih.cons_cons first

/-- What is picked by different keys is found before what was there. -/
theorem lookup_insertAll_pick (base level : Level) {keys : List String} (hkeys : keys.Nodup)
    (key : String) :
    (Entries.insertAll base (level.pick keys)).lookup key =
      (among keys level key).or (base.lookup key) := by
  rw [Entries.lookup_insertAll (hkeys.sublist (keys_pick_sublist level keys)), lookup_pick]

theorem forall₂_of_mapM {ε α β : Type} {f : α → Except ε β} {items : List α} {results : List β}
    (h : items.mapM f = .ok results) : List.Forall₂ (fun a b => f a = .ok b) items results := by
  induction items generalizing results with
  | nil =>
    cases h
    exact .nil
  | cons a rest ih =>
    rw [List.mapM_cons] at h
    obtain ⟨b, hb, h⟩ := bind_eq_ok.mp h
    obtain ⟨others, hothers, h⟩ := bind_eq_ok.mp h
    cases h
    exact .cons hb (ih hothers)

theorem forall₂_through {α β γ : Type} {R : α → β → Prop} {S : β → γ → Prop} {as : List α}
    {bs : List β} {cs : List γ} (h : List.Forall₂ R as bs) (h' : List.Forall₂ S bs cs) :
    List.Forall₂ (fun a c => ∃ b, R a b ∧ S b c) as cs := by
  induction h generalizing cs with
  | nil =>
    cases h'
    exact .nil
  | cons hfirst _ ih =>
    obtain _ | ⟨hfirst', hrest'⟩ := h'
    exact .cons ⟨_, hfirst, hfirst'⟩ (ih hrest')

/-- The keys of a level that is read are different. -/
theorem ofDatum_nodup {d : Datum} {level : Level} (h : Level.ofDatum d = .ok level) :
    (level.map Prod.fst).Nodup := by
  unfold Level.ofDatum at h
  split at h
  · cases h
    exact List.nodup_nil
  · split at h
    · rename_i entries _
      cases hspelled : entries.mapM Level.spelled with
      | error e =>
        rw [hspelled] at h
        cases h
      | ok spelled =>
        rw [hspelled] at h
        cases h
        rw [Entries.ofList, Entries.insertAll_eq_writeAll]
        have hempty : (([] : Level).map Prod.fst).Nodup := List.nodup_nil
        exact Check.writeAll_nodup hempty spelled
    · cases h

/-! ### Whole definitions -/

variable {settings : Settings} {library : Library} {definition : Datum} {f : Fleet}

theorem parts_of_fields {fields : Level}
    (h : Fleet.fields settings library definition = .ok fields) :
    ∃ labels agents entries read, At definition ["metadata", "labels"] labels ∧
      At definition ["spec", "agents"] agents ∧ agents.orElse (.list []) = .list entries ∧
      List.Forall₂ (fun entry level => agentFields library entry = .ok level) entries read ∧
      fields.lookup "labels" = some (labels.orElse (.mapping [])) ∧
      fields.lookup "agents" = some (.list (read.map Level.toDatum)) := by
  obtain ⟨document, hdocument, h⟩ := bind_eq_ok.mp h
  obtain ⟨metadata, hmetadata, h⟩ := bind_eq_ok.mp h
  obtain ⟨spec, hspec, h⟩ := bind_eq_ok.mp h
  dsimp only at h
  split at h
  · cases h
  · obtain ⟨entries, hentries, h⟩ := bind_eq_ok.mp h
    obtain ⟨read, hread, h⟩ := bind_eq_ok.mp h
    obtain ⟨coordination, -, h⟩ := bind_eq_ok.mp h
    cases h
    refine ⟨metadata.get "labels", spec.get "agents", entries, read,
      .under hdocument (.under hmetadata .here), .under hdocument (.under hspec .here), ?_,
      forall₂_of_mapM hread, rfl, rfl⟩
    unfold Fleet.agentEntries at hentries
    split at hentries
    · rename_i items hitems
      cases hentries
      exact hitems
    · cases hentries

/-- The labels of a fleet that is made from a definition are those of its metadata. -/
theorem labels_of_made (h : Fleet.ofDefinition settings library definition = .ok f) :
    ∃ labels, At definition ["metadata", "labels"] labels ∧
      Agent.labelsRule (labels.orElse (.mapping [])) = .ok f.labels := by
  obtain ⟨fields, hfields, hcreate⟩ := bind_eq_ok.mp h
  obtain ⟨hread, -⟩ := Fleet.read_of_create (mapError_eq_ok.mp hcreate)
  obtain ⟨labels, _, _, _, hlabels, -, -, -, hlookup, -⟩ := parts_of_fields hfields
  obtain ⟨_, hrecord, -, hchecked, -⟩ := Fleet.parts_of_read hread
  rw [record_toDatum] at hrecord
  cases hrecord
  have hpassed := withDefault_lookup hchecked
  rw [hlookup] at hpassed
  exact ⟨labels, hlabels, hpassed⟩

/-- In a fleet that is made from a definition every agent stands where its entry does, and in
    the fields that its entry gives. -/
theorem agents_of_made (h : Fleet.ofDefinition settings library definition = .ok f) :
    ∃ agents entries, At definition ["spec", "agents"] agents ∧
      agents.orElse (.list []) = .list entries ∧
      List.Forall₂ (fun entry a => ∃ fields, agentFields library entry = .ok fields ∧
        a.StandsIn fields) entries f.agents := by
  obtain ⟨fields, hfields, hcreate⟩ := bind_eq_ok.mp h
  obtain ⟨hread, -⟩ := Fleet.read_of_create (mapError_eq_ok.mp hcreate)
  obtain ⟨_, agents, entries, read, -, hagents, hentries, hlevels, -, hlookup⟩ :=
    parts_of_fields hfields
  obtain ⟨_, hrecord, hchecked, -⟩ := Fleet.parts_of_read hread
  rw [record_toDatum] at hrecord
  cases hrecord
  obtain ⟨list, hlist, hpassed⟩ := Check.required_eq_ok.mp hchecked
  rw [hlookup] at hlist
  cases hlist
  have hagentsPassed := Check.passed_of_nonEmptyList hpassed
  rw [List.forall₂_map_left_iff] at hagentsPassed
  refine ⟨agents, entries, hagents, hentries, ?_⟩
  refine (forall₂_through hlevels hagentsPassed).imp ?_
  rintro entry a ⟨level, hlevel, hcheck⟩
  obtain ⟨_, hown, hstands⟩ := Agent.fields_of_check hcheck
  rw [record_toDatum] at hown
  cases hown
  exact ⟨level, hlevel, hstands⟩

/-! ### Where an agent is described -/

/-- A file holds a document, as the files of agents are read. -/
def Holds (files : FileTree) (path : FilePath) (document : Datum) : Prop :=
  ∃ bytes cs, files.read path = .ok bytes ∧ Text.decodeUtf8 bytes = .ok cs ∧
    Yaml.read (.ofFile path.text (Text.unifiedLineEnds cs)) = .ok document

/-- The mappings in the document of an agent's file, the most specific one first. -/
inductive FileLayers (document : Datum) : List Level → Prop where
  | plain {top : Level} (htop : Level.ofDatum document = .ok top)
      (hspec : ∀ entries, top.get "spec" ≠ .mapping entries) : FileLayers document [top]
  | nested {top block : Level} {entries : List (Datum × Datum)}
      (htop : Level.ofDatum document = .ok top) (hspec : top.get "spec" = .mapping entries)
      (hblock : Level.ofDatum (.mapping entries) = .ok block) : FileLayers document [block, top]

/-- The mappings in the file that an entry names, if it names one. -/
inductive NamedLayers (library : Library) (own : Level) : List Level → Prop where
  | unnamed (hgiven : (own.get "config").isGiven = false) : NamedLayers library own []
  | named {path : FilePath} {document : Datum} {layers : List Level}
      (hgiven : (own.get "config").isGiven = true) (hpath : pathOf (own.get "config") = .ok path)
      (hholds : Holds library.files (library.locate path) document)
      (hlayers : FileLayers document layers) : NamedLayers library own layers

/-- The mappings in which an agent is described: its entry, the block inside the entry, and
    those in its file. -/
structure Described (library : Library) (entry : Datum) (own inline : Level)
    (file : List Level) : Prop where
  entryLevel : Level.ofDatum entry = .ok own
  blockLevel : Level.ofDatum (own.get "spec") = .ok inline
  fileLevels : NamedLayers library own file

/-- What the first layer that has a key says under it. -/
def firstSaid (layers : List Level) (key : String) : Option Datum :=
  layers.findSome? fun layer => layer.lookup key

/-- The layer that a file gives is picked from its mappings laid one over the other, a system
    prompt being taken for the instructions only after that. -/
theorem fileLayer_eq_ok {document : Datum} {layer : Level} (h : fileLayer document = .ok layer) :
    ∃ file merged, FileLayers document file ∧ (∀ key, merged.lookup key = firstSaid file key) ∧
      layer = (withSystemPrompt merged).pick layerKeys := by
  obtain ⟨top, htop, h⟩ := bind_eq_ok.mp h
  dsimp only at h
  split at h
  · rename_i entries hspec
    obtain ⟨block, hblock, h⟩ := bind_eq_ok.mp h
    cases h
    refine ⟨[block, top], _, .nested htop hspec hblock, ?_, rfl⟩
    intro key
    rw [Entries.lookup_insertAll (ofDatum_nodup hblock), firstSaid, List.findSome?_cons,
      List.findSome?_cons, List.findSome?_nil]
    cases block.lookup key <;> cases top.lookup key <;> rfl
  · rename_i hspec
    cases h
    refine ⟨[top], top, .plain htop hspec, ?_, rfl⟩
    intro key
    rw [firstSaid, List.findSome?_cons, List.findSome?_nil]
    cases top.lookup key <;> rfl

/-- What the file of an agent says comes before what its entry says of its place. -/
theorem placedFields_lookup {name : Datum} {own placed : Level}
    (h : placedFields library name own = .ok placed) :
    ∃ file merged, NamedLayers library own file ∧
      (∀ key, merged.lookup key = firstSaid file key) ∧
      ∀ key ≠ "config_path", placed.lookup key =
        (among layerKeys (withSystemPrompt merged) key).or ((placement name own).lookup key) := by
  unfold placedFields at h
  dsimp only at h
  split at h
  · rename_i hgiven
    obtain ⟨shown, -, h⟩ := bind_eq_ok.mp h
    obtain ⟨layer, hlayer, h⟩ := bind_eq_ok.mp h
    cases h
    obtain ⟨path, hpath, hlayer⟩ := bind_eq_ok.mp hlayer
    obtain ⟨document, hdocument, hlayer⟩ := bind_eq_ok.mp hlayer
    obtain ⟨file, merged, hfile, hmerged, rfl⟩ := fileLayer_eq_ok hlayer
    refine ⟨file, merged, .named hgiven hpath (configDocument_eq_ok hdocument) hfile, hmerged, ?_⟩
    intro key hkey
    have hsplit : Entries.insertAll (placement name own)
        (("config_path", .text shown) :: (withSystemPrompt merged).pick layerKeys) =
        Entries.insertAll (Entries.insert "config_path" (.text shown) (placement name own))
          ((withSystemPrompt merged).pick layerKeys) := rfl
    rw [hsplit, lookup_insertAll_pick _ _ (by decide), Entries.lookup_insert,
      if_neg (by simpa using hkey)]
  · rename_i hnone
    cases h
    refine ⟨[], [], .unnamed (Bool.not_eq_true _ ▸ hnone), fun _ => rfl, ?_⟩
    intro key _
    have hnothing : among layerKeys (withSystemPrompt []) key = none := by
      simp [among, withSystemPrompt]
    rw [hnothing, Option.none_or]

/-- Every field of an agent is found in the entry, as far as that may say it, then in the block
    inside the entry, then in the file, then among what the entry says of the agent's place. -/
theorem agentFields_lookup {d : Datum} {fields : Level}
    (h : agentFields library d = .ok fields) :
    ∃ own inline file merged, Described library d own inline file ∧
      (∀ key, merged.lookup key = firstSaid file key) ∧
      ∀ key ≠ "config_path", fields.lookup key =
        (among ["timeout_seconds", "output_format"] own key).or
          ((among layerKeys (withSystemPrompt inline) key).or
            ((among layerKeys (withSystemPrompt merged) key).or
              ((placement (own.get "name") own).lookup key))) := by
  obtain ⟨own, hown, h⟩ := bind_eq_ok.mp h
  dsimp only at h
  split at h
  · cases h
  · obtain ⟨placed, hplaced, h⟩ := bind_eq_ok.mp h
    obtain ⟨block, hblock, h⟩ := bind_eq_ok.mp h
    obtain ⟨inline, hinline, hpicked⟩ := bind_eq_ok.mp hblock
    cases hpicked
    cases h
    obtain ⟨file, merged, hfile, hmerged, hlookup⟩ := placedFields_lookup hplaced
    refine ⟨own, inline, file, merged, ⟨hown, hinline, hfile⟩, hmerged, ?_⟩
    intro key hkey
    rw [Entries.insertAll_append, entryLayer, lookup_insertAll_pick _ _ (by decide),
      lookup_insertAll_pick _ _ (by decide), hlookup key hkey]

end Definition

/-! ### A desk -/

/-- One agent, with labels, and with a file of its own. -/
def deskEntry : Datum := .mapping [(.text "name", .text "ann"), (.text "config", .text "ann.yaml"),
  (.text "labels", .mapping [(.text "onCall", .text "yes")])]

def deskData : Datum := .mapping [
  (.text "metadata", .mapping [(.text "name", .text "desk")]),
  (.text "spec", .mapping [(.text "agents", .list [deskEntry])])]

/-- The place of the agent's file. -/
def deskPath : FilePath := ⟨"", ["ann.yaml"]⟩

/-- A library with the agent's file, which has a text. -/
def deskLibrary (text : String) : Definition.Library :=
  ⟨⟨[(["ann.yaml"], text.toUTF8.toList)]⟩, some ⟨"", []⟩⟩

/-- Instructions, and a system prompt in the block inside, under keys as they are written. -/
def deskDocument (instructions prompt : String) : Datum := .mapping [
  (.text instructions, .text "Answer briefly."),
  (.text "spec", .mapping [(.text prompt, .text "You analyze incidents.")])]

/-- The text of the agent's file. -/
def deskText : String :=
  "instructions: Answer briefly.\nspec:\n  system_prompt: You analyze incidents.\n"

/-- A text is read as such a document. -/
def readsAsDesk (text instructions prompt : String) : Bool :=
  match Text.decodeUtf8 text.toUTF8.toList with
  | .error _ => false
  | .ok cs =>
    match Yaml.read (.ofFile deskPath.text (Text.unifiedLineEnds cs)) with
    | .ok (.mapping [(.text key, .text said),
        (.text block, .mapping [(.text inner, .text told)])]) =>
      key == instructions && said == "Answer briefly." && block == "spec" && inner == prompt &&
        told == "You analyze incidents."
    | _ => false

theorem holds_of_readsAsDesk {text instructions prompt : String}
    (h : readsAsDesk text instructions prompt = true) :
    Definition.Holds (deskLibrary text).files deskPath (deskDocument instructions prompt) := by
  unfold readsAsDesk at h
  split at h
  · cases h
  · rename_i cs hcs
    split at h
    · rename_i hread
      simp only [Bool.and_eq_true, beq_iff_eq] at h
      obtain ⟨⟨⟨⟨rfl, rfl⟩, rfl⟩, rfl⟩, rfl⟩ := h
      exact ⟨_, cs, rfl, hcs, hread⟩
    · cases h

theorem desk_holds : Definition.Holds (deskLibrary deskText).files deskPath
    (deskDocument "instructions" "system_prompt") :=
  holds_of_readsAsDesk (by decide +kernel)

theorem desk_made : ∃ f, Fleet.ofDefinition houseSettings (deskLibrary deskText) deskData = .ok f ∧
    f.agents.map Agent.instructions = [some "Answer briefly."] := by
  have hread : (Fleet.ofDefinition houseSettings (deskLibrary deskText) deskData).toOption.map
      (fun f => f.agents.map Agent.instructions) = some [some "Answer briefly."] := by
    decide +kernel
  cases hmade : Fleet.ofDefinition houseSettings (deskLibrary deskText) deskData with
  | error e => simp [hmade, Except.toOption] at hread
  | ok f => exact ⟨f, rfl, by simpa [hmade, Except.toOption] using hread⟩

end Quorum
