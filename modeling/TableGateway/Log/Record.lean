import TableGateway.Entries
import TableGateway.Json.Writer
import TableGateway.Text.Basic

/-!
# Log records and their levels

A record is printed as one line of JSON: time, level, message and correlation ID, then the fields in
their order. A field named like one of the first entries replaces its value in place, and entries
without a value are left out.
-/

namespace TableGateway.Log

/-!
## Levels

Levels are ordered by severity. A logger without a level of its own takes that of its nearest
ancestor.
-/

/-- The severity of a record, or the threshold of a logger. -/
inductive Level where
  | unset
  | debug
  | info
  | warning
  | error
  | critical
  deriving DecidableEq, Repr

namespace Level

def rank : Level → Nat
  | unset => 0
  | debug => 10
  | info => 20
  | warning => 30
  | error => 40
  | critical => 50

def name : Level → Text
  | unset => "NOTSET"
  | debug => "DEBUG"
  | info => "INFO"
  | warning => "WARNING"
  | error => "ERROR"
  | critical => "CRITICAL"

/-- The levels by the words that set a threshold; two levels have a second word. -/
def words : List (Text × Level) :=
  [("CRITICAL", critical), ("FATAL", critical), ("ERROR", error), ("WARN", warning),
    ("WARNING", warning), ("INFO", info), ("DEBUG", debug), ("NOTSET", unset)]

/-- The level of a word, spelled exactly. -/
def ofWord? (word : Text) : Option Level := words.lookup word

end Level

/-!
## Times

A moment as date and time of day in coordinated universal time.
-/

/-- Year, month and day of a number of days since the first of January 1970. Years are counted from
March, so that the leap day is the last day of its year. -/
def civilDate (days : Nat) : Nat × Nat × Nat :=
  let shifted := days + 719468
  let era := shifted / 146097
  let dayOfEra := shifted % 146097
  let yearOfEra := (dayOfEra - dayOfEra / 1460 + dayOfEra / 36524 - dayOfEra / 146096) / 365
  let dayOfYear := dayOfEra - (365 * yearOfEra + yearOfEra / 4 - yearOfEra / 100)
  let month := (5 * dayOfYear + 2) / 153
  let day := dayOfYear - (153 * month + 2) / 5 + 1
  let year := yearOfEra + era * 400
  if month < 10 then (year, month + 3, day) else (year + 1, month - 9, day)

/-- A number with leading zeros. -/
def padded (width n : Nat) : Text :=
  let digits := Nat.toDigits 10 n
  Text.ofChars (List.replicate (width - digits.length) '0' ++ digits)

/-- The text of the moment that is some seconds after the start of 1970. -/
def timestamp (seconds : Nat) : Text :=
  let (year, month, day) := civilDate (seconds / 86400)
  let inDay := seconds % 86400
  padded 4 year ++ "-" ++ padded 2 month ++ "-" ++ padded 2 day ++ "T" ++ padded 2 (inDay / 3600)
    ++ ":" ++ padded 2 (inDay / 60 % 60) ++ ":" ++ padded 2 (inDay % 60) ++ "+00:00"

/-! ## Records -/

structure Record where
  level : Level
  message : Json
  fields : List (Text × Json) := []
  deriving DecidableEq

namespace Record

/-- All entries of a record, null ones included. -/
def entries (record : Record) (timestamp : Text) (correlationId : Json) : List (Text × Json) :=
  Entries.merge
    [("timestamp", .str timestamp), ("level", .str record.level.name), ("message", record.message),
      ("correlationId", correlationId)]
    record.fields

/-- The record as an object without the entries that are null. -/
def toJson (record : Record) (timestamp : Text) (correlationId : Json) : Json :=
  .obj ((record.entries timestamp correlationId).filter fun entry => entry.2 ≠ .null)

def line (record : Record) (timestamp : Text) (correlationId : Json) : String :=
  (record.toJson timestamp correlationId).render

end Record

end TableGateway.Log
