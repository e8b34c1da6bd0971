/-
  Quorum/Log.lean
  ===============
  **Log entries, and the lines they are written as.**

  An entry is a level, the name of an event and fields in order.  Levels have numbers, and
  an entry is written if its number reaches the threshold asked for.  A line for people
  holds the time, the level and the event in columns, then the fields ordered by key; a
  structured line holds the fields in their own order, then event, time and level.  A field
  called like one of these three gives way to it.
-/
import Quorum.Fleet.Spec
import Quorum.Text.Quoted
import Quorum.Value.Printer

namespace Quorum

/-- How important a log entry is. -/
inductive LogLevel where
  | debug | info | warning | error | critical
deriving DecidableEq, Repr

instance : Named LogLevel where
  members := [.debug, .info, .warning, .error, .critical]
  name
    | .debug => "debug"
    | .info => "info"
    | .warning => "warning"
    | .error => "error"
    | .critical => "critical"

structure LogEntry where
  level : LogLevel
  event : String
  fields : List (String × Value)

/-- What is logged when a fleet is accepted: one tier only is worth a warning. -/
def Fleet.notices (f : Fleet) : List LogEntry :=
  match f.tiers with
  | [tier] => [⟨.warning, "single_tier_fleet", [("fleet", .text f.name), ("tier", .int tier)]⟩]
  | _ => []

/-! ### Thresholds -/

def LogLevel.number : LogLevel → Nat
  | .debug => 10
  | .info => 20
  | .warning => 30
  | .error => 40
  | .critical => 50

namespace Log

/-- The names a threshold may be asked for by, in capitals. -/
def thresholds : List (String × Nat) := [
  ("NOTSET", 0),
  ("DEBUG", LogLevel.debug.number),
  ("INFO", LogLevel.info.number),
  ("WARN", LogLevel.warning.number),
  ("WARNING", LogLevel.warning.number),
  ("ERROR", LogLevel.error.number),
  ("FATAL", LogLevel.critical.number),
  ("CRITICAL", LogLevel.critical.number)]

/-- The capital of a letter, as far as the names of thresholds can tell: two letters
    outside ASCII have their capital inside. -/
def capital (c : Char) : Char :=
  if c == 'ı' then 'I' else if c == 'ſ' then 'S' else c.toUpper

/-- The threshold of a name in any case; `INFO` when the name is none of a threshold. -/
def threshold (name : String) : Nat :=
  (thresholds.lookup (String.ofList (name.toList.map capital))).getD LogLevel.info.number

/-! ### Lines -/

/-- The format of a name: lines for people unless structured ones are asked for. -/
def format (name : String) : LogFormat := (Named.ofName? name).getD .console

/-- Fields on one line, in their own order. -/
def structuredForm : Value.Form := ⟨none, false, Decimal.Style.json⟩

def padded (width : Nat) (s : String) : String :=
  s ++ String.ofList (List.replicate (width - s.length) ' ')

def quotedCharacters : List Char := [' ', '\t', '=', '\r', '\n', '"', '\'']

/-- A text as it is, anything else by its literal. -/
def shown : Value → String
  | .text s => s
  | v => v.literal

/-- The value of a field: a plain word as it is, anything else by its literal. -/
def fieldText : Value → String
  | .text s => if s.any quotedCharacters.contains then Text.quoted s else s
  | v => v.literal

/-- The fields that name the logger stand in brackets before the others. -/
def loggerKeys : List String := ["logger", "logger_name"]

def ownKeys : List String := ["event", "timestamp", "level"]

end Log

namespace LogEntry

def readableLine (time : String) (e : LogEntry) : String :=
  let fields := (Entries.ofList e.fields).filter fun (k, _) => !Log.ownKeys.contains k
  let loggers := Log.loggerKeys.filterMap fun k => (fields.lookup k).map fun v => "[" ++ Log.shown v ++ "]"
  let others := fields.filter fun (k, _) => !Log.loggerKeys.contains k
  let columns := [time, "[" ++ Log.padded 9 (Named.name e.level) ++ "]", Log.padded 30 e.event]
  let parts := columns ++ loggers
    ++ (Value.sortedByKey others).map fun (k, v) => k ++ "=" ++ Log.fieldText v
  String.ofList ((" ".intercalate parts).toList.reverse.dropWhile (· == ' ')).reverse

def structuredLine (time : String) (e : LogEntry) : String :=
  let fields := Entries.insertAll (Entries.ofList e.fields)
    [("event", .text e.event), ("timestamp", .text time), ("level", .text (Named.name e.level))]
  Text.ascii ((Value.object fields).write Log.structuredForm)

def line (format : LogFormat) (time : String) (e : LogEntry) : String :=
  match format with
  | .console => e.readableLine time
  | .json => e.structuredLine time

end LogEntry

/-- The entries that reach the threshold of a name, as lines. -/
def Log.lines (level : String) (format : LogFormat) (time : String) (entries : List LogEntry) :
    List String :=
  (entries.filter fun e => decide (Log.threshold level ≤ e.level.number)).map (·.line format time)

end Quorum
