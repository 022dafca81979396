/-! # Exceptions

The exceptions the modelled functions raise, by class, with their message;
`other` names a class that no handler singles out. `fatal` stands for the exceptions outside `Exception` (a killed process, an
interrupt), which `except Exception` does not catch. -/
namespace RlmGraph.Lib

inductive PyError where
  | value (message : String)
  | runtime (message : String)
  | readOnlyViolation (message : String)
  | os (message : String)
  | key (message : String)
  | type (message : String)
  | other (name message : String)
  | fatal (message : String)
  deriving DecidableEq

namespace PyError

/-- `str(exc)`. -/
def message : PyError → String
  | value m | runtime m | readOnlyViolation m | os m | key m | type m | other _ m | fatal m => m

/-- `type(exc).__name__`. -/
def className : PyError → String
  | value _ => "ValueError"
  | runtime _ => "RuntimeError"
  | readOnlyViolation _ => "ReadOnlyViolation"
  | os _ => "OSError"
  | key _ => "KeyError"
  | type _ => "TypeError"
  | other name _ => name
  | fatal _ => "SystemExit"

/-- Whether `except Exception` catches it. -/
def isException : PyError → Bool
  | fatal _ => false
  | _ => true

/-- Whether `except OSError` catches it. -/
def isOSError : PyError → Bool
  | os _ => true
  | _ => false

end PyError

/-- `a or b` on optional texts: an absent or empty first operand gives way. -/
def orText (a b : Option String) : Option String :=
  match a with
  | some s => if s = "" then b else some s
  | none => b

end RlmGraph.Lib
