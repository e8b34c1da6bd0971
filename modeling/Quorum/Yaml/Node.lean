/-
  Quorum/Yaml/Node.lean
  =====================
  **A document as a tree of nodes.**

  A node is a scalar, a sequence or a mapping, with its tag and its place.  An alias stands
  for the node of its anchor; one that stands inside that node is a loop.  The tree is read
  from the tokens in one pass, so that of several problems the one that comes first in the
  text is reported.
-/
import Quorum.Yaml.Tag
import Quorum.Yaml.Token

namespace Quorum.Yaml

inductive Node where
  | scalar (tag : Tag) (text : String) (mark : Mark)
  | sequence (tag : Tag) (items : List Node) (mark : Mark)
  | mapping (tag : Tag) (entries : List (Node × Node)) (mark : Mark)
  /-- An alias inside the collection that it stands for. -/
  | loop (isMapping : Bool) (mark : Mark)

namespace Node

def mark : Node → Mark
  | .scalar _ _ m => m
  | .sequence _ _ m => m
  | .mapping _ _ m => m
  | .loop _ m => m

def kindName : Node → String
  | .scalar _ _ _ => "scalar"
  | .sequence _ _ _ => "sequence"
  | .mapping _ _ _ => "mapping"
  | .loop isMapping _ => if isMapping then "mapping" else "sequence"

/-- The scalar of a place where nothing is written. -/
def nothing (m : Mark) : Node := .scalar (.core .null) "" m

end Node

/-! ### Reading tokens -/

/-- What is left to read, and what was learned on the way. -/
structure Feed where
  tokens : Tokens
  /-- What the handles of tags stand for. -/
  handles : List (String × String)
  /-- The nodes of anchors; the collections that are still open are loops. -/
  anchors : List (String × Node)

abbrev Reader := StateT Feed Scanned

namespace Reader

/-- The next token.  After the last one the text is over. -/
def peek : Reader Token := do
  let feed ← get
  match feed.tokens.list, feed.tokens.failure with
  | t :: _, _ => return t
  | [], some f => throw f
  | [], none => return ⟨.streamEnd, ⟨0, 0, 0⟩, ⟨0, 0, 0⟩⟩

def pass : Reader Unit :=
  modify fun feed => { feed with tokens := { feed.tokens with list := feed.tokens.list.drop 1 } }

def complain {α : Type} (activity : Activity) (began : Mark) (complaint : Complaint) (m : Mark) :
    Reader α :=
  throw (.problem (.marked (some activity) (some began) complaint m))

def complainAt {α : Type} (complaint : Complaint) (m : Mark) : Reader α :=
  throw (.problem (.marked none none complaint m))

/-! ### Properties of nodes -/

/-- What stands before the content of a node: an anchor and a tag in either order. -/
structure Properties where
  anchor : Option String
  /-- The handle, the text and the place of the tag. -/
  tag : Option (Option String × String × Mark)
  start : Option Mark

/-- The anchor that comes next, if one does. -/
def anchor? : Reader (Option (String × Mark)) := do
  let t ← peek
  match t.kind with
  | .anchor name => pass; return some (name, t.start)
  | _ => return none

/-- The tag that comes next, if one does. -/
def tag? : Reader (Option (Option String × String × Mark)) := do
  let t ← peek
  match t.kind with
  | .tag handle text => pass; return some (handle, text, t.start)
  | _ => return none

def properties : Reader Properties := do
  match ← anchor? with
  | some (name, m) => return ⟨some name, ← tag?, some m⟩
  | none =>
    match ← tag? with
    | none => return ⟨none, none, none⟩
    | some (handle, text, m) =>
      return ⟨(← anchor?).map Prod.fst, some (handle, text, m), some m⟩

def expanded (start : Mark) : Option (Option String × String × Mark) → Reader (Option String)
  | none => return none
  | some (none, text, _) => return some text
  | some (some handle, text, m) => do
    match (← get).handles.lookup handle with
    | some expansion => return some (expansion ++ text)
    | none => complain .node start (.unknownHandle handle) m

def checkAnchor (anchor : Option String) (start : Mark) : Reader Unit := do
  match anchor with
  | none => return
  | some name =>
    match (← get).anchors.lookup name with
    | some first => complain (.firstAnchor name) first.mark .secondAnchor start
    | none => return

def setAnchor (anchor : Option String) (node : Node) : Reader Unit :=
  match anchor with
  | none => return
  | some name => modify fun feed => { feed with anchors := (name, node) :: feed.anchors }

/-- The tag of a collection, or the one it has by itself. -/
def collectionTag (tag : Option String) (itself : CoreTag) : Tag :=
  match tag with
  | none => .core itself
  | some text => if text == "!" then .core itself else .ofText text

/-- The tag of a scalar: the one given, or the one its form gives to a plain scalar. -/
def scalarTag (tag : Option String) (plain : Bool) (text : String) : Tag :=
  match tag with
  | none => .core (if plain then .ofPlain text else .str)
  | some given => if given == "!" then .core (.ofPlain text) else .ofText given

/-! ### Kinds of tokens -/

/-- An item or a key follows, or the block collection ends. -/
def endsBlockItem : TokenKind → Bool
  | .blockEntry | .blockEnd => true
  | _ => false

def endsBlockValue : TokenKind → Bool
  | .key | .value | .blockEnd => true
  | _ => false

/-- An item, a key or a value follows, or the block collection ends. -/
def endsPlainItem (k : TokenKind) : Bool := endsBlockItem k || endsBlockValue k

def endsFlowItem : TokenKind → Bool
  | .flowEntry | .flowSequenceEnd => true
  | _ => false

def endsFlowValue : TokenKind → Bool
  | .flowEntry | .flowMappingEnd => true
  | _ => false

def endsKey (ends : TokenKind → Bool) : TokenKind → Bool
  | .value => true
  | k => ends k

def endsDocument : TokenKind → Bool
  | .directive _ | .documentStart | .documentEnd | .streamEnd => true
  | _ => false

/-- Where a node stands: among block collections, and there perhaps in a mapping, where a
    sequence needs no indentation. -/
inductive Position where
  | flow | block | blockValue
deriving DecidableEq

/-! ### Nodes -/

mutual

def node (position : Position) : Nat → Reader Node
  | 0 => return .nothing ⟨0, 0, 0⟩
  | steps + 1 => do
    let t ← peek
    if let .alias name := t.kind then
      pass
      match (← get).anchors.lookup name with
      | some n => return n
      | none => complainAt (.unknownAlias name) t.start
    else
      let p ← properties
      let t ← peek
      let start := p.start.getD t.start
      let tag ← expanded start p.tag
      let inBlock := position != .flow
      let open' (isMapping : Bool) : Reader Unit := do
        checkAnchor p.anchor start
        setAnchor p.anchor (.loop isMapping start)
      let close (n : Node) : Reader Node := do
        setAnchor p.anchor n
        return n
      let listed (items : List Node) := close (.sequence (collectionTag tag .seq) items start)
      let mapped (es : List (Node × Node)) := close (.mapping (collectionTag tag .map) es start)
      match t.kind with
      | .scalar text plain =>
        pass
        checkAnchor p.anchor start
        close (.scalar (scalarTag tag plain text) text start)
      | .flowSequenceStart => open' false; pass; listed (← flowItems t.start true steps)
      | .flowMappingStart => open' true; pass; mapped (← flowEntries t.start true steps)
      | k =>
        match k, inBlock with
        | .blockSequenceStart, true => open' false; pass; listed (← blockItems t.start steps)
        | .blockMappingStart, true => open' true; pass; mapped (← blockEntries t.start steps)
        | _, _ =>
          let indentless : Bool := match k with
            | .blockEntry => position == .blockValue
            | _ => false
          if indentless then
            open' false
            listed (← plainItems steps)
          else if p.anchor.isSome || tag.isSome then
            checkAnchor p.anchor start
            close (.scalar (scalarTag tag true "") "" start)
          else
            complain (if inBlock then .blockNode else .flowNode) start (.contentExpected k.name) t.start

/-- A node, or nothing at a mark if what comes next ends the place. -/
def nodeUnless (ends : TokenKind → Bool) (position : Position) (m : Mark) : Nat → Reader Node
  | 0 => return .nothing m
  | steps + 1 => do
    if ends (← peek).kind then return .nothing m else node position steps

/-- The value that belongs to a key: what follows a colon, or nothing. -/
def valueNode (ends : TokenKind → Bool) (position : Position) : Nat → Reader Node
  | 0 => return .nothing ⟨0, 0, 0⟩
  | steps + 1 => do
    let t ← peek
    match t.kind with
    | .value => pass; nodeUnless ends position t.stop steps
    | _ => return .nothing t.start

/-- The items of a block sequence up to its end. -/
def blockItems (began : Mark) : Nat → Reader (List Node)
  | 0 => return []
  | steps + 1 => do
    let t ← peek
    match t.kind with
    | .blockEntry =>
      pass
      let item ← nodeUnless endsBlockItem .block t.stop steps
      return item :: (← blockItems began steps)
    | .blockEnd => pass; return []
    | k => complain .blockCollection began (.blockEndExpected k.name) t.start

/-- The items of a block sequence that is not indented. -/
def plainItems : Nat → Reader (List Node)
  | 0 => return []
  | steps + 1 => do
    let t ← peek
    match t.kind with
    | .blockEntry =>
      pass
      let item ← nodeUnless endsPlainItem .block t.stop steps
      return item :: (← plainItems steps)
    | _ => return []

/-- The entries of a block mapping up to its end. -/
def blockEntries (began : Mark) : Nat → Reader (List (Node × Node))
  | 0 => return []
  | steps + 1 => do
    let t ← peek
    match t.kind with
    | .key =>
      pass
      let key ← nodeUnless endsBlockValue .blockValue t.stop steps
      let value ← valueNode endsBlockValue .blockValue steps
      return (key, value) :: (← blockEntries began steps)
    | .blockEnd => pass; return []
    | k => complain .blockMapping began (.blockEndExpected k.name) t.start

/-- The items of a flow sequence up to its end; a key makes a mapping of one entry. -/
def flowItems (began : Mark) (first : Bool) : Nat → Reader (List Node)
  | 0 => return []
  | steps + 1 => do
    let t ← peek
    if let .flowSequenceEnd := t.kind then
      pass
      return []
    if !first then
      match t.kind with
      | .flowEntry => pass
      | k => complain .flowSequence began (.sequenceGoesOn k.name) t.start
    let t ← peek
    match t.kind with
    | .flowSequenceEnd => pass; return []
    | .key =>
      pass
      let key ← nodeUnless (endsKey endsFlowItem) .flow t.stop steps
      let value ← valueNode endsFlowItem .flow steps
      let item : Node := .mapping (.core .map) [(key, value)] t.start
      return item :: (← flowItems began false steps)
    | _ =>
      let item ← node .flow steps
      return item :: (← flowItems began false steps)

/-- The entries of a flow mapping up to its end; a node without a colon is a key. -/
def flowEntries (began : Mark) (first : Bool) : Nat → Reader (List (Node × Node))
  | 0 => return []
  | steps + 1 => do
    let t ← peek
    if let .flowMappingEnd := t.kind then
      pass
      return []
    if !first then
      match t.kind with
      | .flowEntry => pass
      | k => complain .flowMapping began (.mappingGoesOn k.name) t.start
    let t ← peek
    match t.kind with
    | .flowMappingEnd => pass; return []
    | .key =>
      pass
      let key ← nodeUnless (endsKey endsFlowValue) .flow t.stop steps
      let value ← valueNode endsFlowValue .flow steps
      return (key, value) :: (← flowEntries began false steps)
    | _ =>
      let key ← node .flow steps
      let m := (← peek).start
      return (key, .nothing m) :: (← flowEntries began false steps)

end

/-! ### Documents -/

def usualHandles : List (String × String) := [("!", "!"), ("!!", CoreTag.stem)]

/-- The directives of a document: which handles they define, and whether one gives a version. -/
def directives (versioned : Bool) (handles : List (String × String)) :
    Nat → Reader (List (String × String))
  | 0 => return handles
  | steps + 1 => do
    let t ← peek
    match t.kind with
    | .directive (.version major _) =>
      pass
      if versioned then complainAt .secondVersion t.start
      else if major != 1 then complainAt .wrongVersion t.start
      else directives true handles steps
    | .directive (.handle name expansion) =>
      pass
      if (handles.lookup name).isSome then complainAt (.repeatedHandle name) t.start
      else directives versioned (handles ++ [(name, expansion)]) steps
    | .directive (.other _) => pass; directives versioned handles steps
    | _ => return handles

def passDocumentEnds : Nat → Reader Unit
  | 0 => return
  | steps + 1 => do
    match (← peek).kind with
    | .documentEnd => pass; passDocumentEnds steps
    | _ => return

/-- The explicit beginning of a document, if the text is not over; its place. -/
def documentStart? (steps : Nat) : Reader (Option Mark) := do
  passDocumentEnds steps
  let t ← peek
  match t.kind with
  | .streamEnd => return none
  | _ =>
    let handles ← directives false [] steps
    let begins ← peek
    match begins.kind with
    | .documentStart =>
      pass
      modify fun feed => { feed with handles := handles ++ usualHandles }
      return some t.start
    | k => complainAt (.documentExpected k.name) begins.start

/-- The content of the first document, if there is one. -/
def firstDocument? (steps : Nat) : Reader (Option Node) := do
  match (← peek).kind with
  | .directive _ | .documentStart | .streamEnd =>
    match ← documentStart? steps with
    | none => return none
    | some _ =>
      let t ← peek
      if endsDocument t.kind then return some (.nothing t.start) else return some (← node .block steps)
  | _ => return some (← node .block steps)

/-- The only document of a text: nothing if the text holds none. -/
def onlyDocument? (steps : Nat) : Reader (Option Node) := do
  pass
  match ← firstDocument? steps with
  | none => return none
  | some n =>
    match ← documentStart? steps with
    | none => return some n
    | some m => complain .singleDocument n.mark .anotherDocument m

end Reader

def Node.ofTokens (tokens : Tokens) : Scanned (Option Node) := do
  let steps := 4 * tokens.list.length + 16
  let (n, _) ← (Reader.onlyDocument? steps).run ⟨tokens, Reader.usualHandles, []⟩
  return n

end Quorum.Yaml
