/-
  Quorum/Yaml/Content.lean
  ========================
  **The data that documents hold.**

  A mapping takes the entries of what is merged into it, its own entries winning, and keeps
  one entry per key.  Problems are looked for level by level, beginning at the root, and the
  first one that is found is reported; only a tree without problems becomes data.
-/
import Quorum.Yaml.Scalar

namespace Quorum.Yaml

/-! ### Keys -/

/-- Two numbers are equal as keys; what is no number equals itself. -/
def sameNumber (x y : Float) : Bool := x == y || (x.isNaN && y.isNaN)

def isWholeFloat (i : Int) (x : Float) : Bool :=
  match Decimal.exactValue? x with
  | some r => r == (i : Rat)
  | none => false

def truthNumber (b : Bool) : Int := if b then 1 else 0

/-- Two data are one and the same key.  Truth values and numbers are equal if their values
    are; a time stamp with a zone differs from one without. -/
def sameKey : Datum → Datum → Bool
  | .null, .null => true
  | .text a, .text b => a == b
  | .bytes a, .bytes b => a == b
  | .date a, .date b => a == b
  | .timestamp a, .timestamp b => a.micros == b.micros && a.zone.isSome == b.zone.isSome
  | .bool a, .bool b => a == b
  | .bool a, .int b => truthNumber a == b
  | .int a, .bool b => a == truthNumber b
  | .int a, .int b => a == b
  | .bool a, .float b => isWholeFloat (truthNumber a) b
  | .float a, .bool b => isWholeFloat (truthNumber b) a
  | .int a, .float b => isWholeFloat a b
  | .float a, .int b => isWholeFloat b a
  | .float a, .float b => sameNumber a b
  | _, _ => false

/-- Write an entry: under the key that is there, or at the end. -/
def insertEntry (key value : Datum) : List (Datum × Datum) → List (Datum × Datum)
  | [] => [(key, value)]
  | (k, v) :: rest => if sameKey k key then (k, value) :: rest else (k, v) :: insertEntry key value rest

/-- Entries with one value per key: the key of the first, the value of the last. -/
def uniqueEntries (entries : List (Datum × Datum)) : List (Datum × Datum) :=
  entries.foldl (fun es (k, v) => insertEntry k v es) []

/-- The datum may be a key. -/
def canBeKey : Datum → Bool
  | .list _ | .mapping _ | .set _ => false
  | _ => true

namespace Node

/-- The tag of a node; a loop has the tag that its kind has by itself. -/
def tag : Node → Tag
  | .scalar t _ _ => t
  | .sequence t _ _ => t
  | .mapping t _ _ => t
  | .loop isMapping _ => .core (if isMapping then .map else .seq)

/-- A node as a key: the mark of a value is text there. -/
def asKey : Node → Node
  | .scalar (.core .value) text m => .scalar (.core .str) text m
  | .sequence (.core .value) items m => .sequence (.core .str) items m
  | .mapping (.core .value) entries m => .mapping (.core .str) entries m
  | n => n

def isMerge (n : Node) : Bool := n.tag == .core .merge

/-- What stands for the inside of a collection that contains itself. -/
def loopDatum (isMapping : Bool) : Datum :=
  if isMapping then .mapping [(.null, .null)] else .list [.null]

/-! ### Scalars -/

mutual

/-- The text of a scalar; a mapping with the mark of a value stands for that value. -/
def scalarText : Node → Scanned String
  | .scalar _ text _ => .ok text
  | .sequence _ _ m => complainAt (.scalarExpected "sequence") m
  | .mapping _ entries m =>
    match markedText? entries with
    | some text => text
    | none => complainAt (.scalarExpected "mapping") m
  | .loop isMapping m => complainAt (.scalarExpected (if isMapping then "mapping" else "sequence")) m

def markedText? : List (Node × Node) → Option (Scanned String)
  | [] => none
  | (k, v) :: rest => if k.tag == .core .value then some (scalarText v) else markedText? rest

end

def slipped {α : Type} (r : Except Slip α) : Scanned α := r.mapError .slip

/-- The datum of a node with the tag of a scalar; of a collection only the kind is known so
    far, and its inside comes later. -/
def outside (n : Node) : Scanned Datum :=
  match n with
  | .loop isMapping _ => .ok (loopDatum isMapping)
  | _ =>
    match n.tag with
    | .core .null => n.scalarText.map fun _ => .null
    | .core .bool => do slipped (Scalar.bool (← n.scalarText))
    | .core .int => do slipped (Scalar.int (← n.scalarText))
    | .core .float => do slipped (Scalar.float (← n.scalarText))
    | .core .str => n.scalarText.map .text
    | .core .timestamp => do
      let text ← n.scalarText
      match n with
      | .scalar _ _ _ => slipped (Scalar.timestamp text)
      | _ => .error (.slip (.timestampOfCollection "list"))
    | .core .binary => do
      match Scalar.base64 (← n.scalarText) with
      | .ok bytes => return .bytes bytes
      | .error c => complainAt c n.mark
    | .core .seq | .core .orderedMap | .core .pairs => .ok (.list [])
    | .core .map => .ok (.mapping [])
    | .core .set => .ok (.set [])
    | t => complainAt (.unknownTag t.text) n.mark

/-- The inside of the node is looked at after its outside. -/
def hasInside (n : Node) : Bool :=
  match n with
  | .loop _ _ => false
  | _ =>
    match n.tag with
    | .core .seq | .core .orderedMap | .core .pairs | .core .map | .core .set => true
    | _ => false

/-! ### Merging -/

mutual

/-- The entries of a mapping at a mark, those that are merged first. -/
def flattened (m : Mark) (entries : List (Node × Node)) : Scanned (List (Node × Node)) := do
  let (merged, own) ← parted m entries
  return merged ++ own

/-- Entries of a mapping apart: what is merged, and the others. -/
def parted (m : Mark) : List (Node × Node) → Scanned (List (Node × Node) × List (Node × Node))
  | [] => .ok ([], [])
  | (k, v) :: rest => do
    if k.isMerge then
      let here ← mergedEntries m v
      let (merged, own) ← parted m rest
      return (here ++ merged, own)
    else
      let (merged, own) ← parted m rest
      return (merged, (k.asKey, v) :: own)

/-- The entries that merging a node adds to the mapping at a mark. -/
def mergedEntries (outer : Mark) : Node → Scanned (List (Node × Node))
  | .mapping _ entries m => do
    let (merged, own) ← parted m entries
    return merged ++ own
  | .sequence _ items _ => mergedItems outer items
  | .loop _ _ => .ok []
  | .scalar _ _ m => complain .mapping outer (.mergeValue "scalar") m

/-- The entries that merging several mappings adds, the first mapping last so that it wins. -/
def mergedItems (outer : Mark) : List Node → Scanned (List (Node × Node))
  | [] => .ok []
  | .mapping _ entries m :: rest => do
    let (merged, own) ← parted m entries
    let others ← mergedItems outer rest
    return others ++ (merged ++ own)
  | .loop true _ :: rest => mergedItems outer rest
  | n :: _ => complain .mapping outer (.mergeItem n.kindName) n.mark

end

/-! ### Problems -/

/-- The nodes whose inside is looked at next, once their outside is without problems. -/
def opened (nodes : List Node) : Scanned (List Node) := do
  for n in nodes do
    let _ ← n.outside
  return nodes.filter hasInside

def mappingInside (n : Node) : Scanned (List Node) :=
  match n with
  | .mapping _ entries m => do
    let entries ← flattened m entries
    let opened ← entries.mapM fun (k, v) => do
      let key ← k.outside
      if !canBeKey key then complain .mapping m .unhashableKey k.mark
      else opened [v]
    return opened.flatten
  | _ => complainAt (.mappingNodeExpected n.kindName) n.mark

def pairsInside (activity : Activity) (n : Node) : Scanned (List Node) :=
  match n with
  | .sequence _ items m => do
    let opened ← items.mapM fun item =>
      match item with
      | .mapping _ [(k, v)] _ => opened [k, v]
      | .mapping _ entries at' => complain activity m (.singleItemExpected entries.length) at'
      | _ => complain activity m (.singleMappingExpected item.kindName) item.mark
    return opened.flatten
  | _ => complain activity n.mark (.sequenceExpected n.kindName) n.mark

/-- The inside of a node: the nodes in it whose inside comes next. -/
def inside (n : Node) : Scanned (List Node) :=
  match n.tag with
  | .core .map | .core .set => n.mappingInside
  | .core .orderedMap => n.pairsInside .orderedMap
  | .core .pairs => n.pairsInside .pairs
  | _ =>
    match n with
    | .sequence _ items _ => opened items
    | _ => complainAt (.sequenceNodeExpected n.kindName) n.mark

/-- Look for problems level by level. -/
def checkLevels : Nat → List Node → Scanned Unit
  | 0, _ => .ok ()
  | steps + 1, nodes => do
    if nodes.isEmpty then return
    let next ← nodes.mapM inside
    checkLevels steps next.flatten

mutual

def depth : Node → Nat
  | .sequence _ items _ => itemsDepth items + 1
  | .mapping _ entries _ => entriesDepth entries + 1
  | _ => 1

def itemsDepth : List Node → Nat
  | [] => 0
  | n :: rest => max n.depth (itemsDepth rest)

def entriesDepth : List (Node × Node) → Nat
  | [] => 0
  | (k, v) :: rest => max (max k.depth v.depth) (entriesDepth rest)

end

/-! ### Data -/

def keyDatum (k : Node) : Datum := (k.asKey.outside.toOption).getD .null

mutual

/-- The datum of a node without problems. -/
def datum : Node → Datum
  | .sequence t items m =>
    match t with
    | .core .seq => .list (data items)
    | .core .orderedMap | .core .pairs => .list (pairs items)
    | _ => ((Node.sequence t items m).outside.toOption).getD .null
  | .mapping t entries m =>
    match t with
    | .core .map => .mapping (uniqueEntries (entryData entries).1)
    | .core .set => .set ((uniqueEntries (entryData entries).1).map Prod.fst)
    | _ => ((Node.mapping t entries m).outside.toOption).getD .null
  | n => (n.outside.toOption).getD .null

def data : List Node → List Datum
  | [] => []
  | n :: rest => n.datum :: data rest

def pairs : List Node → List Datum
  | [] => []
  | .mapping _ [(k, v)] _ :: rest => .pair k.datum v.datum :: pairs rest
  | _ :: rest => pairs rest

/-- The entries of a mapping, with those that are merged in front; and its own. -/
def entryData : List (Node × Node) → List (Datum × Datum) × List (Datum × Datum)
  | [] => ([], [])
  | (k, v) :: rest =>
    let (all, own) := entryData rest
    let merged := all.take (all.length - own.length)
    if k.isMerge then (mergedData v ++ all, own)
    else
      let entry := (k.keyDatum, v.datum)
      (merged ++ entry :: own, entry :: own)

def mergedData : Node → List (Datum × Datum)
  | .mapping _ entries _ => (entryData entries).1
  | .sequence _ items _ => mergedItemsData items
  | _ => []

def mergedItemsData : List Node → List (Datum × Datum)
  | [] => []
  | n :: rest => mergedItemsData rest ++ n.mergedData

end

/-- The datum of a node, or the first problem in it. -/
def content (n : Node) : Scanned Datum := do
  let nodes ← opened [n]
  checkLevels (n.depth + 1) nodes
  return n.datum

end Node

/-! ### Reading documents -/

/-- The first character that no document may hold, with its place. -/
def badCharacter? (s : Source) : Option (Char × Nat) :=
  s.chars.zipIdx.find? fun (c, _) => !isAcceptable c

/-- The datum that a text holds: nothing if it holds no document. -/
def read (s : Source) : Scanned Datum := do
  if let some (c, position) := badCharacter? s then throw (.problem (.badCharacter c.toNat position))
  match ← Node.ofTokens (.ofSource s) with
  | none => return .null
  | some n => n.content

end Quorum.Yaml
