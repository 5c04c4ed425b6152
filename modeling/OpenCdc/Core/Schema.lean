import OpenCdc.Core.EventJson

/-!
# Schema fields

How fields are built, and what the rest of the program reads off them.
-/

namespace OpenCdc

open Json

namespace DebeziumField

def new (fieldName : String) (fieldType : DebeziumSchemaType) :
    DebeziumField where
  fieldName := fieldName
  fieldType := .string fieldType.asStr
  fields := none
  optional := none
  name := none
  version := none
  doc := none
  parameters := none
  default := none

def string (name : String) : DebeziumField := new name .string

def int32 (name : String) : DebeziumField := new name .int32

def int64 (name : String) : DebeziumField := new name .int64

def structField (name : String) (fields : List DebeziumField) :
    DebeziumField :=
  { new name .struct with fields := some fields }

/-- `DebeziumField::optional` -/
def asOptional (field : DebeziumField) : DebeziumField :=
  { field with optional := some true }

/-- `DebeziumField::named` -/
def named (field : DebeziumField) (name : String) : DebeziumField :=
  { field with name := some name }

/-- The type is a name, or a list of names of which the first counts. -/
def resolveType (field : DebeziumField) : DebeziumSchemaType :=
  match field.fieldType with
  | .string s => .fromStr s
  | .array types =>
      match types.head?.bind (·.asStr) with
      | some s => .fromStr s
      | none => .unknown "unresolved"
  | _ => .unknown "unresolved"

def isOptional (field : DebeziumField) : Bool :=
  match field.fieldType with
  | .array types => types.any fun t => t.asStr = some "null"
  | _ => field.optional.getD false

end DebeziumField

end OpenCdc
