import OpenCdc.Foundation.Outcome

/-!
# Errors of the core library
-/

namespace OpenCdc

open Foundation

/-- The unified error; the wrapped Arrow and JSON errors are kept as text. -/
inductive Error where
  | serialization (text : String)
  | deserialization (text : String)
  | schema (text : String)
  | arrow (text : String)
  | json (text : String)
  | unsupportedOperation (text : String)
  | invalidOffset (text : String)
  | invalidMessageFormat (text : String)
  | conversion (text : String)
  | transaction (text : String)
  | other (text : String)
deriving DecidableEq, Repr

/-- `Display for Error` -/
def Error.display : Error → String
  | serialization text => "Serialization error: " ++ text
  | deserialization text => "Deserialization error: " ++ text
  | schema text => "Schema error: " ++ text
  | arrow text => "Arrow error: " ++ text
  | json text => "JSON error: " ++ text
  | unsupportedOperation text => "Unsupported operation: " ++ text
  | invalidOffset text => "Invalid offset state: " ++ text
  | invalidMessageFormat text => "Invalid message format: " ++ text
  | conversion text => "Conversion error: " ++ text
  | transaction text => "Transaction error: " ++ text
  | other text => text

/-- `map_err(|e| Error::Other(format!("what: {}", e)))` -/
def orOther {α : Type} (what : String) : Except String α → Outcome Error α
  | .ok a => .ok a
  | .error e => .error (.other (what ++ ": " ++ e))

end OpenCdc
