import Rollbook.Label
import Rollbook.Text.Blank
/-
  Rollbook.LogLevel — how much a program writes to its log.
-/

namespace Rollbook

/-- From silence to everything. -/
inductive LogLevel where
  | off
  | error
  | warn
  | info
  | debug
  | trace
  deriving DecidableEq, Repr

namespace LogLevel

instance : Labelled LogLevel where
  all := [.off, .error, .warn, .info, .debug, .trace]
  label
    | .off => "OFF"
    | .error => "ERROR"
    | .warn => "WARN"
    | .info => "INFO"
    | .debug => "DEBUG"
    | .trace => "TRACE"

/-- The place of a level between silence and everything. -/
def verbosity : LogLevel → Nat
  | .off => 0
  | .error => 1
  | .warn => 2
  | .info => 3
  | .debug => 4
  | .trace => 5

/-- The level a setting names, blanks around it and case aside; INFO when it names none. -/
def ofSetting (text : String) : LogLevel := (Labelled.ofLabel? (Text.trim text)).getD .info

/-- The more verbose of two levels. -/
def max (a b : LogLevel) : LogLevel := if a.verbosity ≤ b.verbosity then b else a

end LogLevel

end Rollbook
