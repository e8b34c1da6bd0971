/-
  Quorum/Yaml/Problem.lean
  ========================
  **What is wrong with a document.**

  A problem says what was being read and where that began, what was found there, and the
  place.  Beside problems of the format there are slips: scalars that do not have the form
  their tag promises.
-/
import Quorum.Document.Conversion
import Quorum.Text.Utf8
import Quorum.Yaml.Source

namespace Quorum.Yaml

/-- What is being read when something goes wrong. -/
inductive Activity where
  | nextToken | simpleKey | directive | anchor | alias | tag | tagText | directiveText
  | blockScalar | quotedScalar | doubleQuoted
  | node | blockNode | flowNode | blockCollection | blockMapping | flowSequence | flowMapping
  | mapping | orderedMap | pairs
  | singleDocument
  | firstAnchor (name : String)
deriving DecidableEq, Repr

def Activity.message : Activity → String
  | .nextToken => "while scanning for the next token"
  | .simpleKey => "while scanning a simple key"
  | .directive => "while scanning a directive"
  | .anchor => "while scanning an anchor"
  | .alias => "while scanning an alias"
  | .tag => "while scanning a tag"
  | .tagText => "while parsing a tag"
  | .directiveText => "while parsing a directive"
  | .blockScalar => "while scanning a block scalar"
  | .quotedScalar => "while scanning a quoted scalar"
  | .doubleQuoted => "while scanning a double-quoted scalar"
  | .node => "while parsing a node"
  | .blockNode => "while parsing a block node"
  | .flowNode => "while parsing a flow node"
  | .blockCollection => "while parsing a block collection"
  | .blockMapping => "while parsing a block mapping"
  | .flowSequence => "while parsing a flow sequence"
  | .flowMapping => "while parsing a flow mapping"
  | .mapping => "while constructing a mapping"
  | .orderedMap => "while constructing an ordered map"
  | .pairs => "while constructing pairs"
  | .singleDocument => "expected a single document in the stream"
  | .firstAnchor name => s!"found duplicate anchor {Text.quoted name}; first occurrence"

inductive Complaint where
  | noToken (found : Char)
  | colonMissing
  | entryMisplaced | keyMisplaced | valueMisplaced
  | wordExpected (found : Char)
  | digitExpected (found : Char)
  | digitOrPointExpected (found : Char)
  | digitOrSpaceExpected (found : Char)
  | spaceExpected (found : Char)
  | lineEndExpected (found : Char)
  | bangExpected (found : Char)
  | angleExpected (found : Char)
  | uriExpected (found : Char)
  | uriEscape (found : Char)
  | uriBytes (problem : Text.Utf8Problem)
  | indentZero
  | indicatorsExpected (found : Char)
  | escapeDigits (count : Nat) (found : Char)
  | unknownEscape (found : Char)
  | endInQuotes
  | separatorInQuotes
  | documentExpected (found : String)
  | secondVersion | wrongVersion
  | repeatedHandle (handle : String)
  | unknownHandle (handle : String)
  | contentExpected (found : String)
  | blockEndExpected (found : String)
  | sequenceGoesOn (found : String)
  | mappingGoesOn (found : String)
  | unknownAlias (name : String)
  | secondAnchor
  | anotherDocument
  | scalarExpected (found : String)
  | sequenceNodeExpected (found : String)
  | mappingNodeExpected (found : String)
  | unhashableKey
  | mergeItem (found : String)
  | mergeValue (found : String)
  | sequenceExpected (found : String)
  | singleMappingExpected (found : String)
  | singleItemExpected (count : Nat)
  | unknownTag (tag : String)
  | notBase64Text (first count : Nat) (found : Char)
  | base64Length (count : Nat)
  | base64Padding
  | recursiveNode

def shownChar (c : Char) : String := Text.quoted c.toString

def Complaint.message : Complaint → String
  | .noToken c => s!"found character {shownChar c} that cannot start any token"
  | .colonMissing => "could not find expected ':'"
  | .entryMisplaced => "sequence entries are not allowed here"
  | .keyMisplaced => "mapping keys are not allowed here"
  | .valueMisplaced => "mapping values are not allowed here"
  | .wordExpected c => s!"expected alphabetic or numeric character, but found {shownChar c}"
  | .digitExpected c => s!"expected a digit, but found {shownChar c}"
  | .digitOrPointExpected c => s!"expected a digit or '.', but found {shownChar c}"
  | .digitOrSpaceExpected c => s!"expected a digit or ' ', but found {shownChar c}"
  | .spaceExpected c => s!"expected ' ', but found {shownChar c}"
  | .lineEndExpected c => s!"expected a comment or a line break, but found {shownChar c}"
  | .bangExpected c => s!"expected '!', but found {shownChar c}"
  | .angleExpected c => s!"expected '>', but found {shownChar c}"
  | .uriExpected c => s!"expected URI, but found {shownChar c}"
  | .uriEscape c =>
    s!"expected URI escape sequence of 2 hexadecimal numbers, but found {shownChar c}"
  | .uriBytes problem => problem.message
  | .indentZero => "expected indentation indicator in the range 1-9, but found 0"
  | .indicatorsExpected c =>
    s!"expected chomping or indentation indicators, but found {shownChar c}"
  | .escapeDigits count c =>
    s!"expected escape sequence of {count} hexadecimal numbers, but found {shownChar c}"
  | .unknownEscape c => s!"found unknown escape character {shownChar c}"
  | .endInQuotes => "found unexpected end of stream"
  | .separatorInQuotes => "found unexpected document separator"
  | .documentExpected found => s!"expected '<document start>', but found {Text.quoted found}"
  | .secondVersion => "found duplicate YAML directive"
  | .wrongVersion => "found incompatible YAML document (version 1.* is required)"
  | .repeatedHandle handle => s!"duplicate tag handle {Text.quoted handle}"
  | .unknownHandle handle => s!"found undefined tag handle {Text.quoted handle}"
  | .contentExpected found => s!"expected the node content, but found {Text.quoted found}"
  | .blockEndExpected found => s!"expected <block end>, but found {Text.quoted found}"
  | .sequenceGoesOn found => s!"expected ',' or ']', but got {Text.quoted found}"
  | .mappingGoesOn found => s!"expected ',' or '\x7d', but got {Text.quoted found}"
  | .unknownAlias name => s!"found undefined alias {Text.quoted name}"
  | .secondAnchor => "second occurrence"
  | .anotherDocument => "but found another document"
  | .scalarExpected found => s!"expected a scalar node, but found {found}"
  | .sequenceNodeExpected found => s!"expected a sequence node, but found {found}"
  | .mappingNodeExpected found => s!"expected a mapping node, but found {found}"
  | .unhashableKey => "found unhashable key"
  | .mergeItem found => s!"expected a mapping for merging, but found {found}"
  | .mergeValue found => s!"expected a mapping or list of mappings for merging, but found {found}"
  | .sequenceExpected found => s!"expected a sequence, but found {found}"
  | .singleMappingExpected found => s!"expected a mapping of length 1, but found {found}"
  | .singleItemExpected count => s!"expected a single mapping item, but found {count} items"
  | .unknownTag tag => s!"could not determine a constructor for the tag {Text.quoted tag}"
  | .notBase64Text first count c =>
    let place :=
      if count == 1 then
        let escape := String.ofList (if c.toNat < 0x100 then '\\' :: 'x' :: Text.hexDigits 2 c.toNat
          else if c.toNat < 0x10000 then '\\' :: 'u' :: Text.hexDigits 4 c.toNat
          else '\\' :: 'U' :: Text.hexDigits 8 c.toNat)
        s!"character '{escape}' in position {first}"
      else s!"characters in position {first}-{first + count - 1}"
    s!"failed to convert base64 data into ascii: 'ascii' codec can't encode {place}: "
      ++ "ordinal not in range(128)"
  | .base64Length count =>
    "failed to decode base64 data: Invalid base64-encoded string: "
      ++ s!"number of data characters ({count}) cannot be 1 more than a multiple of 4"
  | .base64Padding => "failed to decode base64 data: Incorrect padding"
  | .recursiveNode => "found unconstructable recursive node"

inductive Problem where
  /-- A character that no document may hold, by its code and place. -/
  | badCharacter (code position : Nat)
  /-- A complaint, with what was being read and where that began. -/
  | marked (activity : Option Activity) (began : Option Mark) (complaint : Complaint) (mark : Mark)

/-- The wording of a problem.  The beginning of what was being read is left out if the
    problem is at the same place. -/
def Problem.message (s : Source) : Problem → String
  | .badCharacter code position =>
    let digits := String.ofList (Text.hexDigits 4 code)
    s!"unacceptable character #x{digits}: special characters are not allowed\n"
      ++ s!"  in \"{s.name}\", position {position}"
  | .marked activity began complaint mark =>
    let context := activity.toList.map Activity.message
    let beginning := (began.filter fun m => (m.line, m.column) != (mark.line, mark.column)).toList.map s.place
    "\n".intercalate (context ++ beginning ++ [complaint.message, s.place mark])

/-- A scalar that does not have the form its tag promises. -/
inductive Slip where
  | number (problem : ConversionProblem)
  /-- A number without a single character. -/
  | emptyNumber
  /-- A word that is no truth value. -/
  | notATruth (word : String)
  | notATimestamp
  /-- A collection stands where a time stamp should. -/
  | timestampOfCollection (kind : String)
  | yearRange (year : Nat)
  | monthRange
  | dayRange
  | hourRange
  | minuteRange
  | secondRange
  /-- An offset of a day or more, in minutes. -/
  | offsetRange (minutes : Int)
  /-- An escape beyond the last character. -/
  | characterRange
  /-- An escape beyond every number of a character. -/
  | characterNumber

def Slip.message : Slip → String
  | .number problem => problem.message
  | .emptyNumber => "string index out of range"
  | .notATruth word => word
  | .notATimestamp => "'NoneType' object has no attribute 'groupdict'"
  | .timestampOfCollection kind => s!"expected string or bytes-like object, got '{kind}'"
  | .yearRange year => s!"year {year} is out of range"
  | .monthRange => "month must be in 1..12"
  | .dayRange => "day is out of range for month"
  | .hourRange => "hour must be in 0..23"
  | .minuteRange => "minute must be in 0..59"
  | .secondRange => "second must be in 0..59"
  | .offsetRange minutes =>
    "offset must be a timedelta strictly between -timedelta(hours=24) and timedelta(hours=24), not "
      ++ s!"{Datum.spanLiteral minutes}."
  | .characterRange => "chr() arg not in range(0x110000)"
  | .characterNumber => "Python int too large to convert to C int"

/-- Why a document cannot be read. -/
inductive Failure where
  | problem (p : Problem)
  | slip (s : Slip)

def complain {α : Type} (activity : Activity) (began : Mark) (complaint : Complaint) (mark : Mark) :
    Except Failure α :=
  .error (.problem (.marked (some activity) (some began) complaint mark))

def complainAt {α : Type} (complaint : Complaint) (mark : Mark) : Except Failure α :=
  .error (.problem (.marked none none complaint mark))

end Quorum.Yaml
