import OpenCdc.Core.Arrow
import OpenCdc.Core.Error

/-!
# Schemas for Avro

`AvroSchemaGenerator` writes Debezium schemas as Avro schemas in JSON.  An
optional field becomes a union with `null`, and any other field an entry with
its name.  The Arrow mapper and the fields themselves read the same attribute,
each with an answer of its own for a field that does not have it.
-/

namespace OpenCdc

open Json

namespace AvroSchemaGenerator

/-! ## Types -/

def primitiveTypeToAvro (t : DebeziumSchemaType) (_forceNullable : Bool) :
    Value :=
  match t with
  | .string | .json => .string "string"
  | .bytes => .string "bytes"
  | .int8 | .int16 | .int32 => .string "int"
  | .int64 => .string "long"
  | .float => .string "float"
  | .double => .string "double"
  | .boolean => .string "boolean"
  | _ => .string "string"

def logicalType (type logical : String) : Value :=
  .object [("type", .string type), ("logicalType", .string logical)]

/-- `avro_type[key] = value`, if there is a value. -/
def insertSome (map : Map) (key : String) : Option String → Map
  | none => map
  | some text => Map.insert map key (.string text)

def decimalToAvro (parameters : Option (List (String × String))) : Value :=
  let avroType : Map :=
    [("type", .string "bytes"), ("logicalType", .string "decimal")]
  let avroType := insertSome avroType "precision"
    (parameters.bind fun params => params.lookup "precision")
  .object (insertSome avroType "scale"
    (parameters.bind fun params => params.lookup "scale"))

/-- The arms of `convert_field_to_avro` behind the one for structs. -/
def leafToAvro (dt : DebeziumSchemaType)
    (parameters : Option (List (String × String))) : Value :=
  match dt with
  | .array => .object [("type", .string "array"), ("items", .string "string")]
  | .map => .object [("type", .string "map"), ("values", .string "string")]
  | .decimal => decimalToAvro parameters
  | .timestamp | .microTimestamp => logicalType "long" "timestamp-micros"
  | .nanoTimestamp => logicalType "long" "timestamp-nanos"
  | .date => logicalType "int" "date"
  | .time | .microTime => logicalType "long" "time-micros"
  | .nanoTime => logicalType "long" "time-nanos"
  | _ => primitiveTypeToAvro dt false

/-- A record, with a name if there is one. -/
def recordToAvro (name : Option String) (avroFields : List Value) : Value :=
  .object (insertSome
    [("type", .string "record"), ("fields", .array avroFields)] "name" name)

/-- What stands for a field among the fields of a record. -/
def entryToAvro (fieldName : String) (optional : Option Bool)
    (avroType : Value) : Value :=
  if optional.getD false then .array [avroType, .string "null"]
  else .object [("field", .string fieldName), ("type", avroType)]

/-! ## Fields -/

mutual

def convertFieldToAvro : DebeziumField → Except Error Value
  | ⟨fieldName, fieldType, fields, optional, name, version, doc, parameters,
      default⟩ => do
      let field : DebeziumField := ⟨fieldName, fieldType, fields, optional,
        name, version, doc, parameters, default⟩
      let avroType ←
        match field.resolveType with
        | .struct => convertStructToAvro fieldName name fields
        | dt => pure (leafToAvro dt parameters)
      return entryToAvro fieldName optional avroType

/-- The arm for structs. -/
def convertStructToAvro (fieldName : String) (name : Option String) :
    Option (List DebeziumField) → Except Error Value
  | none =>
      throw (.schema ("struct field '" ++ fieldName ++ "' has no fields"))
  | some nestedFields => do
      let avroNested ← convertFieldsToAvro nestedFields
      return recordToAvro name avroNested

/-- The fields in order, up to the first that fails. -/
def convertFieldsToAvro : List DebeziumField → Except Error (List Value)
  | [] => return []
  | field :: fields => do
      let avroField ← convertFieldToAvro field
      let avroFields ← convertFieldsToAvro fields
      return avroField :: avroFields

end

/-! ## Schemas -/

def tableFieldsToAvroJson (name : String) (fields : List DebeziumField)
    (ns : Option String) : Except Error Value := do
  let avroFields ← convertFieldsToAvro fields
  let record : Map :=
    [("type", .string "record"), ("name", .string name),
      ("fields", .array avroFields)]
  return .object (insertSome record "namespace" ns)

/-- `json!({"field": name, "type": type})` -/
def required (name : String) (type : Value) : Value :=
  .object [("field", .string name), ("type", type)]

/-- `json!({"field": name, "type": ["null", type], "default": null})` -/
def nullable (name : String) (type : Value) : Value :=
  .object [("field", .string name),
    ("type", .array [.string "null", type]), ("default", .null)]

def sourceFields : List Value :=
  [required "version" (.string "string"),
    required "connector" (.string "string"),
    required "name" (.string "string"),
    required "ts_ms" (.string "long"),
    nullable "snapshot" (.string "string"),
    required "db" (.string "string"),
    nullable "schema" (.string "string"),
    required "table" (.string "string"),
    nullable "txId" (.string "long"),
    nullable "lsn" (.string "long")]

/-- `namespace.split('.').next()` -/
def firstPart (ns : String) : String :=
  String.ofList (ns.toList.takeWhile (· ≠ '.'))

def makeEnvelopeAvroSchema (ns table : String)
    (columns : List DebeziumField) : Except Error Value := do
  let tableFullName := ns ++ "." ++ table
  let columnAvroFields ← convertFieldsToAvro columns
  let tableSchema : Value := .object [("type", .string "record"),
    ("name", .string table), ("namespace", .string ns),
    ("fields", .array columnAvroFields)]
  let envelopeFields : List Value :=
    [nullable "before" tableSchema,
      nullable "after" tableSchema,
      required "source" (.object [("type", .string "record"),
        ("name", .string "Source"),
        ("namespace", .string ("io.debezium.connector." ++ firstPart ns)),
        ("fields", .array sourceFields)]),
      required "op" (.string "string"),
      nullable "ts_ms" (.string "long"),
      nullable "transaction" (.object [("type", .string "record"),
        ("name", .string "Transaction"),
        ("namespace", .string tableFullName),
        ("fields", .array [required "id" (.string "string"),
          required "total_order" (.string "long"),
          required "data_collections_order" (.string "long")])])]
  return .object [("type", .string "record"), ("name", .string "Envelope"),
    ("namespace", .string tableFullName), ("fields", .array envelopeFields)]

def convertSchema (schema : DebeziumSchema) (forceNullable : Bool) :
    Except Error Value :=
  match schema.schemaType with
  | .struct =>
      match schema.fields with
      | none => throw (.schema "struct schema has no fields")
      | some fields => do
          let avroFields ← convertFieldsToAvro fields
          return recordToAvro schema.name avroFields
  | .array =>
      match schema.fields.bind List.head? with
      | none => throw (.schema "array schema has no item field")
      | some items => do
          let itemType ← convertFieldToAvro items
          return .object [("type", .string "array"), ("items", itemType)]
  | .map =>
      return .object [("type", .string "map"), ("values", .string "string")]
  | t => return primitiveTypeToAvro t forceNullable

def debeziumSchemaToAvroJson (schema : DebeziumSchema) :
    Except Error Value :=
  convertSchema schema false

/-- The schema of the tests. -/
example : (debeziumSchemaToAvroJson
    { schemaType := .struct
      fields := some [.int32 "id", (DebeziumField.string "name").asOptional]
      optional := some false
      name := some "Envelope"
      version := none
      doc := none
      field := none
      default := none
      parameters := none }).toOption = some (.object [
    ("type", .string "record"),
    ("fields", .array [
      .object [("field", .string "id"), ("type", .string "int")],
      .array [.string "string", .string "null"]]),
    ("name", .string "Envelope")]) := by rfl

/-! ## One field -/

theorem convertFieldToAvro_eq (field : DebeziumField) :
    convertFieldToAvro field = (do
      let avroType ←
        match field.resolveType with
        | .struct => convertStructToAvro field.fieldName field.name field.fields
        | dt => pure (leafToAvro dt field.parameters)
      return entryToAvro field.fieldName field.optional avroType) := by
  cases field
  rfl

/-- Everything but a struct is converted without looking at nested fields. -/
theorem convertFieldToAvro_of_ne_struct {field : DebeziumField}
    (h : field.resolveType ≠ .struct) :
    convertFieldToAvro field =
      .ok (entryToAvro field.fieldName field.optional
        (leafToAvro field.resolveType field.parameters)) := by
  rw [convertFieldToAvro_eq]
  cases htype : field.resolveType
  case struct => exact absurd htype h
  all_goals rfl

/-! ## Nullability -/

/-- A union in which `null` is one of the types. -/
def isNullUnion : Value → Bool
  | .array types => types.any fun type => type.asStr = some "null"
  | _ => false

theorem isNullUnion_entryToAvro (fieldName : String) (optional : Option Bool)
    (avroType : Value) :
    isNullUnion (entryToAvro fieldName optional avroType) =
      optional.getD false := by
  unfold entryToAvro
  split_ifs with hoptional
  · rw [hoptional, isNullUnion, List.any_cons, List.any_cons]
    simp [Value.asStr]
  · rw [Bool.not_eq_true] at hoptional
    rw [hoptional]
    rfl

end AvroSchemaGenerator

namespace DebeziumField

open AvroSchemaGenerator DebeziumArrowMapper

def IsPrimitive (field : DebeziumField) : Prop :=
  field.resolveType ≠ .struct ∧ field.resolveType ≠ .array ∧
    field.resolveType ≠ .map

instance (field : DebeziumField) : Decidable field.IsPrimitive :=
  inferInstanceAs (Decidable (_ ∧ _))

/-- The Arrow field, the Avro entry and the field itself agree on whether the
field may be null. -/
structure NullabilityAgrees (field : DebeziumField) : Prop where
  arrow : (debeziumFieldToArrow field).nullable = field.isOptional
  avro : ∃ entry, convertFieldToAvro field = .ok entry ∧
    isNullUnion entry = field.isOptional

/-- They agree exactly if the attribute is there and says what the field
says. -/
theorem nullabilityAgrees_iff {field : DebeziumField}
    (h : field.IsPrimitive) :
    field.NullabilityAgrees ↔ field.optional = some field.isOptional := by
  have hconvert := convertFieldToAvro_of_ne_struct h.1
  have hunion := isNullUnion_entryToAvro field.fieldName field.optional
    (leafToAvro field.resolveType field.parameters)
  have harrow : (debeziumFieldToArrow field).nullable =
      field.optional.getD true := rfl
  constructor
  · rintro ⟨hnullable, entry, hentry, hnull⟩
    rw [hconvert] at hentry
    cases hentry
    rw [hunion] at hnull
    rw [harrow] at hnullable
    cases hoptional : field.optional with
    | none =>
        rw [hoptional] at hnull hnullable
        exact absurd (hnullable.trans hnull.symm) (by decide)
    | some optional =>
        rw [hoptional] at hnull
        exact congrArg some hnull
  · intro hoptional
    refine ⟨?_, _, hconvert, ?_⟩
    · rw [harrow, hoptional]
      rfl
    · rw [hunion, hoptional]
      rfl

theorem nullabilityAgrees_optionalName :
    (DebeziumField.string "name").asOptional.NullabilityAgrees :=
  (nullabilityAgrees_iff (by decide)).mpr rfl

/-- The key of the tests may be null in Arrow, and in Avro not. -/
theorem not_nullabilityAgrees_id :
    (debeziumFieldToArrow (.int32 "id")).nullable = true ∧
      (convertFieldToAvro (.int32 "id")).toOption.map isNullUnion =
        some false ∧
      ¬(DebeziumField.int32 "id").NullabilityAgrees := by
  refine ⟨rfl, rfl, ?_⟩
  intro h
  exact absurd h.arrow (by decide)

end DebeziumField
end OpenCdc
