import Sandbox.Datum.Json.Printer

/-!
# Logs

Records with a severity, a message and fields. A log adds the fields of its context to each record,
where the fields of the record itself win, and a selective log keeps only the records that its threshold
admits.
-/

namespace Sandbox

/-- The threshold of a log, from the one that admits nothing on. -/
inductive Threshold
  | off | error | warn | info | debug | trace
  deriving DecidableEq, Repr, Inhabited

namespace Threshold

/-- The name of a threshold. -/
def name : Threshold → String
  | .off => "off"
  | .error => "error"
  | .warn => "warn"
  | .info => "info"
  | .debug => "debug"
  | .trace => "trace"

/-- All thresholds. -/
def all : List Threshold := [.off, .error, .warn, .info, .debug, .trace]

/-- The threshold of a name. -/
def ofName? (name : String) : Option Threshold := all.find? (·.name = name)

/-- How much a threshold admits. -/
def rank : Threshold → Nat
  | .off => 0
  | .error => 1
  | .warn => 2
  | .info => 3
  | .debug => 4
  | .trace => 5

end Threshold

/-- How severe a record is. -/
inductive Severity
  | debug | info | warn | error | fatal
  deriving DecidableEq, Repr, Inhabited

namespace Severity

/-- The name of a severity. -/
def name : Severity → String
  | .debug => "debug"
  | .info => "info"
  | .warn => "warn"
  | .error => "error"
  | .fatal => "fatal"

/-- All severities in the order of their numbers, which count from 1. -/
def all : List Severity := [.debug, .info, .warn, .error, .fatal]

/-- The severity of a number. -/
def ofNumber? (n : Int) : Option Severity := if n < 1 then none else all[(n - 1).toNat]?

/-- The lowest threshold that admits a severity. -/
def threshold : Severity → Threshold
  | .debug => .debug
  | .info => .info
  | .warn => .warn
  | .error | .fatal => .error

end Severity

/-- The number of the least severe records that a threshold admits, as severities count. -/
def Threshold.number : Threshold → Nat
  | .debug | .trace => 1
  | .info => 2
  | .warn => 3
  | .error => 4
  | .off => 5

/-- A threshold admits the records of a severity. -/
def Threshold.admits (t : Threshold) (s : Severity) : Bool := s.threshold.rank ≤ t.rank

/-- A record of a log. Its fields are in the order of their names. -/
structure Record where
  severity : Severity
  message : String
  fields : List (String × Datum)

/-- The fields of a record as text; none at all are the empty text. -/
def Record.text (r : Record) : String :=
  if r.fields.isEmpty then "" else Json.render (.record r.fields)

/-- A log with the records so far. -/
structure Log where
  threshold : Threshold := .off
  /-- Only records that the threshold admits are kept. -/
  isSelective : Bool := true
  /-- Fields that go into each record. -/
  context : List (String × Datum) := []
  records : List Record := []

namespace Log

/-- A log that adds more fields to each record. -/
def withFields (log : Log) (fields : List (String × Datum)) : Log :=
  { log with context := Named.insertAll log.context fields }

/-- Adds a record. -/
def add (log : Log) (severity : Severity) (message : String) (fields : List (String × Datum)) : Log :=
  if log.isSelective && !log.threshold.admits severity then log
  else
    { log with records := log.records ++ [⟨severity, message, Named.insertAll log.context fields⟩] }

end Log
end Sandbox
