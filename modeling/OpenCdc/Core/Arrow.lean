import OpenCdc.Core.Schema
import OpenCdc.Foundation.Arrow
import OpenCdc.Foundation.Text

/-!
# Schemas for Arrow

How the types and fields of a Debezium schema become those of an Arrow schema.
The parameters of a decimal are read from texts, with a default for what cannot
be read.
-/

namespace OpenCdc

open Foundation Foundation.Arrow

/-- `v.parse::<u8>().ok()` -/
def parseU8 (text : String) : Option UInt8 :=
  match fromStrRadix 10 0 255 text.toList with
  | .ok n => some (UInt8.ofNat n.toNat)
  | .error _ => none

/-- `v.parse::<i8>().ok()` -/
def parseI8 (text : String) : Option Int8 :=
  match fromStrRadix 10 128 127 text.toList with
  | .ok n => some (Int8.ofInt n)
  | .error _ => none

namespace DebeziumArrowMapper

abbrev Parameters := Option (List (String × String))

def precision (parameters : Parameters) : UInt8 :=
  ((parameters.bind fun p => p.lookup "precision").bind parseU8).getD 38

def scale (parameters : Parameters) : Int8 :=
  ((parameters.bind fun p => p.lookup "scale").bind parseI8).getD 0

def debeziumTypeToArrow (debeziumType : DebeziumSchemaType)
    (parameters : Parameters) : DataType :=
  match debeziumType with
  | .int8 => .int8
  | .int16 => .int16
  | .int32 => .int32
  | .int64 => .int64
  | .float => .float32
  | .double => .float64
  | .boolean => .boolean
  | .string => .utf8
  | .bytes => .binary
  | .decimal => .decimal128 (precision parameters) (scale parameters)
  | .timestamp | .microTimestamp => .timestamp .microsecond none
  | .nanoTimestamp => .timestamp .nanosecond none
  | .date => .date64
  | .time | .microTime => .time64 .microsecond
  | .nanoTime => .time64 .nanosecond
  | .json => .utf8
  | .struct | .map | .array => .utf8
  | .unknown _ => .utf8

def debeziumFieldToArrow (field : DebeziumField) : Field where
  name := field.fieldName
  dataType := debeziumTypeToArrow field.resolveType field.parameters
  nullable := field.optional.getD true
  metadata :=
    match field.doc with
    | some doc => [("doc", doc)]
    | none => []

def debeziumSchemaToArrow (schema : DebeziumSchema) : Schema where
  fields := (schema.fields.getD []).map debeziumFieldToArrow
  metadata :=
    (match schema.name with
      | some name => [("debezium.name", name)]
      | none => []) ++
    (match schema.doc with
      | some doc => [("debezium.doc", doc)]
      | none => [])

/-- Only decimals depend on the parameters. -/
theorem debeziumTypeToArrow_eq_iff {debeziumType : DebeziumSchemaType}
    {parameters parameters' : Parameters} :
    debeziumTypeToArrow debeziumType parameters =
        debeziumTypeToArrow debeziumType parameters' ↔
      (debeziumType = .decimal → precision parameters = precision parameters' ∧
        scale parameters = scale parameters') := by
  cases debeziumType
  case decimal => simp [debeziumTypeToArrow]
  all_goals simp [debeziumTypeToArrow]

end DebeziumArrowMapper

namespace SchemaBridge

def debeziumToArrow (schema : DebeziumSchema) : Schema :=
  DebeziumArrowMapper.debeziumSchemaToArrow schema

end SchemaBridge
end OpenCdc
