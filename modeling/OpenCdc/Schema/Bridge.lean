import OpenCdc.Core.Arrow

/-!
# Schemas from Arrow

`SchemaBridge` goes between Debezium and Arrow schemas.  Neither table of types
is the inverse of the other: several Debezium types share an Arrow type, and
several Arrow types a Debezium type.  What comes from a Debezium schema is
stable nevertheless.
-/

namespace OpenCdc

open Foundation Foundation.Arrow DebeziumArrowMapper

namespace SchemaBridge

def arrowTypeToDebezium : DataType → DebeziumSchemaType
  | .int8 => .int8
  | .int16 => .int16
  | .int32 => .int32
  | .int64 => .int64
  | .uint8 => .int16
  | .uint16 => .int32
  | .uint32 => .int64
  | .uint64 => .int64
  | .float16 | .float32 => .float
  | .float64 => .double
  | .boolean => .boolean
  | .utf8 | .utf8View | .largeUtf8 => .string
  | .binary | .largeBinary | .fixedSizeBinary _ => .bytes
  | .date32 | .date64 => .date
  | .time32 _ | .time64 .millisecond => .time
  | .time64 .microsecond => .microTime
  | .time64 .nanosecond => .nanoTime
  | .timestamp .millisecond _ | .timestamp .second _ => .timestamp
  | .timestamp .microsecond _ => .microTimestamp
  | .timestamp .nanosecond _ => .nanoTimestamp
  | .decimal128 _ _ | .decimal256 _ _ => .decimal
  | .struct _ => .struct
  | .list _ | .largeList _ | .fixedSizeList _ _ => .array
  | .map _ _ => .map
  | _ => .string

def decimalParameters : DataType → Parameters
  | .decimal128 precision scale =>
      some [("precision", toString precision.toNat),
        ("scale", toString scale.toInt)]
  | _ => none

mutual

def arrowFieldToDebezium : Field → DebeziumField
  | ⟨name, dataType, nullable, metadata⟩ => {
      fieldName := name
      fieldType := .string (arrowTypeToDebezium dataType).asStr
      fields := innerFieldsToDebezium dataType
      optional := some nullable
      name := none
      version := none
      doc := metadata.lookup "doc"
      parameters := decimalParameters dataType
      default := none }

/-- Only a struct has fields. -/
def innerFieldsToDebezium : DataType → Option (List DebeziumField)
  | .struct innerFields => some (arrowFieldsToDebezium innerFields)
  | _ => none

def arrowFieldsToDebezium : List Field → List DebeziumField
  | [] => []
  | field :: fields =>
      arrowFieldToDebezium field :: arrowFieldsToDebezium fields

end

def arrowToDebezium (schema : Schema) : DebeziumSchema where
  schemaType := .struct
  fields := some (arrowFieldsToDebezium schema.fields)
  optional := none
  name := schema.metadata.lookup "debezium.name"
  version := none
  doc := none
  field := none
  default := none
  parameters := none

/-! ## One type -/

theorem parseU8_toString (n : UInt8) : parseU8 (toString n.toNat) = some n := by
  have hread : fromStrRadix 10 0 255 (toString (n.toNat : ℤ)).toList =
      .ok n.toNat :=
    fromStrRadix_toString (by omega) (by have := n.toNat_lt; omega)
  have htext : toString (n.toNat : ℤ) = toString n.toNat := rfl
  rw [htext] at hread
  rw [parseU8, hread]
  simp

theorem parseI8_toString (n : Int8) : parseI8 (toString n.toInt) = some n := by
  have hread : fromStrRadix 10 128 127 (toString n.toInt).toList =
      .ok n.toInt :=
    fromStrRadix_toString (by have := n.le_toInt; omega)
      (by have := n.toInt_lt; omega)
  rw [parseI8, hread]
  simp

theorem precision_decimalParameters (p : UInt8) (s : Int8) :
    precision (decimalParameters (.decimal128 p s)) = p := by
  have hlookup : (decimalParameters (.decimal128 p s)).bind
      (fun ps => ps.lookup "precision") = some (toString p.toNat) := rfl
  rw [precision, hlookup, Option.bind_some, parseU8_toString, Option.getD_some]

theorem scale_decimalParameters (p : UInt8) (s : Int8) :
    scale (decimalParameters (.decimal128 p s)) = s := by
  have hlookup : (decimalParameters (.decimal128 p s)).bind
      (fun ps => ps.lookup "scale") = some (toString s.toInt) := rfl
  rw [scale, hlookup, Option.bind_some, parseI8_toString, Option.getD_some]

/-- A type that comes from a Debezium type comes back. -/
theorem debeziumTypeToArrow_arrowTypeToDebezium
    {debeziumType : DebeziumSchemaType} {parameters : Parameters} {t : DataType}
    (ht : debeziumTypeToArrow debeziumType parameters = t) :
    debeziumTypeToArrow (arrowTypeToDebezium t) (decimalParameters t) = t := by
  cases debeziumType with
  | decimal =>
      rw [← ht]
      simp only [debeziumTypeToArrow, arrowTypeToDebezium,
        precision_decimalParameters, scale_decimalParameters]
  | _ =>
      rw [← ht]
      rfl

/-- The types that come back are those of the other table. -/
theorem debeziumTypeToArrow_arrowTypeToDebezium_iff {t : DataType} :
    debeziumTypeToArrow (arrowTypeToDebezium t) (decimalParameters t) = t ↔
      ∃ debeziumType parameters,
        debeziumTypeToArrow debeziumType parameters = t := by
  constructor
  · intro h
    exact ⟨_, _, h⟩
  · rintro ⟨debeziumType, parameters, h⟩
    exact debeziumTypeToArrow_arrowTypeToDebezium h

/-- Arrow types have no name that a Debezium type does not have. -/
theorem fromStr_asStr_arrowTypeToDebezium (t : DataType) :
    DebeziumSchemaType.fromStr (arrowTypeToDebezium t).asStr =
      arrowTypeToDebezium t := by
  apply DebeziumSchemaType.fromStr_asStr_iff.mpr
  intro name h
  unfold arrowTypeToDebezium at h
  split at h <;> exact absurd h (by simp)

/-! ## Fields and schemas -/

theorem resolveType_arrowFieldToDebezium (field : Field) :
    (arrowFieldToDebezium field).resolveType =
      arrowTypeToDebezium field.dataType := by
  cases field with
  | mk name dataType nullable metadata =>
      exact fromStr_asStr_arrowTypeToDebezium dataType

/-- What is kept of the metadata of a field. -/
def docOf (metadata : List (String × String)) : List (String × String) :=
  match metadata.lookup "doc" with
  | some doc => [("doc", doc)]
  | none => []

theorem debeziumFieldToArrow_arrowFieldToDebezium (field : Field) :
    debeziumFieldToArrow (arrowFieldToDebezium field) =
      { name := field.name
        dataType := debeziumTypeToArrow (arrowTypeToDebezium field.dataType)
          (decimalParameters field.dataType)
        nullable := field.nullable
        metadata := docOf field.metadata } := by
  rw [debeziumFieldToArrow, resolveType_arrowFieldToDebezium]
  cases field
  rfl

/-- A field comes back exactly if its type comes from a Debezium type and its
metadata are no more than a doc. -/
theorem debeziumFieldToArrow_arrowFieldToDebezium_iff {field : Field} :
    debeziumFieldToArrow (arrowFieldToDebezium field) = field ↔
      (∃ debeziumType parameters,
        debeziumTypeToArrow debeziumType parameters = field.dataType) ∧
      docOf field.metadata = field.metadata := by
  rw [debeziumFieldToArrow_arrowFieldToDebezium,
    ← debeziumTypeToArrow_arrowTypeToDebezium_iff]
  cases field
  simp

/-- A field that comes from a Debezium field comes back. -/
theorem debeziumFieldToArrow_stable (field : DebeziumField) :
    debeziumFieldToArrow
        (arrowFieldToDebezium (debeziumFieldToArrow field)) =
      debeziumFieldToArrow field := by
  apply debeziumFieldToArrow_arrowFieldToDebezium_iff.mpr
  refine ⟨⟨_, _, rfl⟩, ?_⟩
  unfold debeziumFieldToArrow
  cases field.doc with
  | none => rfl
  | some doc => rfl

theorem arrowFieldsToDebezium_eq_map (fields : List Field) :
    arrowFieldsToDebezium fields = fields.map arrowFieldToDebezium := by
  induction fields with
  | nil => rfl
  | cons field fields ih => rw [arrowFieldsToDebezium, ih, List.map_cons]

theorem fields_debeziumToArrow_arrowToDebezium (schema : Schema) :
    (debeziumToArrow (arrowToDebezium schema)).fields =
      schema.fields.map fun field =>
        debeziumFieldToArrow (arrowFieldToDebezium field) := by
  rw [debeziumToArrow, debeziumSchemaToArrow, arrowToDebezium,
    arrowFieldsToDebezium_eq_map, Option.getD_some, List.map_map]
  rfl

/-- The fields of a schema that went to Arrow stay as they are on the way to
Debezium and back to Arrow. -/
theorem debeziumToArrow_stable (schema : DebeziumSchema) :
    (debeziumToArrow (arrowToDebezium (debeziumToArrow schema))).fields =
      (debeziumToArrow schema).fields := by
  rw [fields_debeziumToArrow_arrowToDebezium, debeziumToArrow,
    debeziumSchemaToArrow, List.map_map]
  apply List.map_congr_left
  intro field _
  exact debeziumFieldToArrow_stable field

end SchemaBridge
end OpenCdc
