/-!
# Log events

An event has a level, the part of the program that reports it, a message and named values.  A
verbosity is the lowest level that is shown, or none at all.
-/

namespace OneDef

inductive Level where
  | trace
  | debug
  | info
  | warn
  | error
  deriving DecidableEq

namespace Level

def name : Level → String
  | trace => "TRACE"
  | debug => "DEBUG"
  | info => "INFO"
  | warn => "WARN"
  | error => "ERROR"

def severity : Level → Nat
  | trace => 0
  | debug => 1
  | info => 2
  | warn => 3
  | error => 4

end Level

structure Event where
  level : Level
  target : String
  message : String
  fields : List (String × String)
  deriving DecidableEq

/-- An event as one line of a log. -/
def Event.line (event : Event) : String :=
  event.level.name ++ " " ++ event.target ++ ": " ++ event.message ++
    String.join (event.fields.map fun (name, value) ↦ " " ++ name ++ "=" ++ value) ++ "\n"

inductive Verbosity where
  | off
  | least (level : Level)
  deriving DecidableEq

namespace Verbosity

def ofName? : String → Option Verbosity
  | "off" => some off
  | "error" => some (least .error)
  | "warn" => some (least .warn)
  | "info" => some (least .info)
  | "debug" => some (least .debug)
  | "trace" => some (least .trace)
  | _ => none

/-- Without a setting, warnings and errors are shown. -/
def standard : Verbosity := least .warn

def shows : Verbosity → Event → Bool
  | off, _ => false
  | least level, event => level.severity ≤ event.level.severity

end Verbosity

/-- The lines that a verbosity shows of a log. -/
def logText (verbosity : Verbosity) (events : List Event) : String :=
  String.join ((events.filter verbosity.shows).map Event.line)

end OneDef
