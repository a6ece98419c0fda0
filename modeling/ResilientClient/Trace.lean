/-
Lines of a diagnostic log.
-/
namespace ResilientClient

inductive TraceLevel where
  | trace
  | debug
  | info
  | warn
deriving DecidableEq, Repr

def TraceLevel.text : TraceLevel → String
  | .trace => "TRACE"
  | .debug => "DEBUG"
  | .info => "INFO"
  | .warn => "WARN"

/-- A line with a message and named fields. -/
structure TraceLine where
  level : TraceLevel
  message : String
  fields : List (String × String)
deriving DecidableEq, Repr

end ResilientClient
