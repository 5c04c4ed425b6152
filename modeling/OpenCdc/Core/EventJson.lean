import OpenCdc.Core.ChangeEvent
import OpenCdc.Core.Record

/-!
# Change events as JSON

The derived serializers and deserializers of an event and of its parts, field
by field.
-/

namespace OpenCdc

open Json

/-! ## Enumerations -/

namespace Operation

def asStr : Operation → String
  | create => "c"
  | update => "u"
  | delete => "d"
  | read => "r"
  | truncate => "t"
  | message => "m"

def fromStr : String → Option Operation
  | "c" => some create
  | "u" => some update
  | "d" => some delete
  | "r" => some read
  | "t" => some truncate
  | "m" => some message
  | _ => none

def toJson (op : Operation) : Value := .string op.asStr

def ofJson (v : Value) : Option Operation := (readString v).bind fromStr

theorem ofJson_toJson (op : Operation) : ofJson op.toJson = some op := by
  cases op <;> rfl

end Operation

namespace SnapshotPhase

def asStr : SnapshotPhase → String
  | .true => "true"
  | .false => "false"
  | .last => "last"
  | .incremental => "incremental"

def fromStr : String → Option SnapshotPhase
  | "true" => some .true
  | "false" => some .false
  | "last" => some .last
  | "incremental" => some .incremental
  | _ => none

def toJson (phase : SnapshotPhase) : Value := .string phase.asStr

def ofJson (v : Value) : Option SnapshotPhase := (readString v).bind fromStr

theorem ofJson_toJson (phase : SnapshotPhase) :
    ofJson phase.toJson = some phase := by
  cases phase <;> rfl

end SnapshotPhase

namespace DebeziumSchemaType

def asStr : DebeziumSchemaType → String
  | struct => "struct"
  | array => "array"
  | map => "map"
  | string => "string"
  | bytes => "bytes"
  | int8 => "int8"
  | int16 => "int16"
  | int32 => "int32"
  | int64 => "int64"
  | float => "float"
  | double => "double"
  | boolean => "boolean"
  | decimal => "decimal"
  | timestamp => "timestamp"
  | date => "date"
  | time => "time"
  | microTimestamp => "microtimestamp"
  | microTime => "microtime"
  | nanoTimestamp => "nanotimestamp"
  | nanoTime => "nanotime"
  | json => "json"
  | unknown s => s

def fromStr : String → DebeziumSchemaType
  | "struct" => struct
  | "array" => array
  | "map" => map
  | "string" => string
  | "bytes" => bytes
  | "int8" => int8
  | "int16" => int16
  | "int32" => int32
  | "int64" => int64
  | "float" => float
  | "double" => double
  | "boolean" => boolean
  | "decimal" => decimal
  | "timestamp" => timestamp
  | "date" => date
  | "time" => time
  | "microtimestamp" => microTimestamp
  | "microtime" => microTime
  | "nanotimestamp" => nanoTimestamp
  | "nanotime" => nanoTime
  | "json" => json
  | other => unknown other

def toJson (t : DebeziumSchemaType) : Value := .string t.asStr

/-- The names of the variants are tried before the untagged one. -/
def ofJson (v : Value) : Option DebeziumSchemaType :=
  (readString v).map fromStr

theorem ofJson_toJson (t : DebeziumSchemaType) :
    ofJson t.toJson = some (fromStr t.asStr) := rfl

/-- The names that the variants without a name of their own are written as. -/
def variantNames : List String :=
  ["struct", "array", "map", "string", "bytes", "int8", "int16", "int32",
    "int64", "float", "double", "boolean", "decimal", "timestamp", "date",
    "time", "microtimestamp", "microtime", "nanotimestamp", "nanotime", "json"]

theorem fromStr_eq_unknown_iff {name : String} :
    fromStr name = unknown name ↔ name ∉ variantNames := by
  constructor
  · intro h hmem
    simp only [variantNames, List.mem_cons, List.not_mem_nil, or_false] at hmem
    rcases hmem with rfl | rfl | rfl | rfl | rfl | rfl | rfl | rfl | rfl | rfl |
      rfl | rfl | rfl | rfl | rfl | rfl | rfl | rfl | rfl | rfl | rfl <;>
      cases h
  · intro h
    unfold fromStr
    split <;> first | rfl | exact absurd (by decide) h

/-- A type comes back unless it is an unknown one under a known name. -/
theorem fromStr_asStr_iff {t : DebeziumSchemaType} :
    fromStr t.asStr = t ↔ ∀ name, t = unknown name → name ∉ variantNames := by
  cases t with
  | unknown name =>
      rw [asStr, fromStr_eq_unknown_iff]
      constructor
      · rintro h _ ⟨⟩
        exact h
      · exact fun h => h name rfl
  | _ => exact iff_of_true rfl nofun

end DebeziumSchemaType

/-! ## The source block -/

namespace SourceInfo

def defaultVersion : String := "2.7.2.Final"

def defaultConnector : String := "opencdc"

def defaultName : String := "opencdc"

def defaultSchema : Option String := some "public"

def jsonFields (s : SourceInfo) : List (String × Option Value) :=
  [("version", some (.string s.version)),
    ("connector", some (.string s.connector)),
    ("name", some (.string s.name)),
    ("ts_ms", s.tsMs.map ofI64),
    ("snapshot", some s.snapshot.toJson),
    ("db", some (.string s.db)),
    ("schema", s.schema.map .string),
    ("table", some (.string s.table)),
    ("tx_id", s.txId.map ofI64),
    ("lsn", s.lsn.map ofI64),
    ("xmin", s.xmin.map ofI64),
    ("file", s.file.map .string),
    ("pos", s.pos.map ofI64),
    ("gtid", s.gtid.map .string),
    ("sequence", s.sequence.map .string),
    ("rs_id", s.rsId.map ofI64),
    ("resume_token", s.resumeToken.map .string)]

def fieldNames : List String :=
  ["version", "connector", "name", "ts_ms", "snapshot", "db", "schema", "table",
    "tx_id", "lsn", "xmin", "file", "pos", "gtid", "sequence", "rs_id",
    "resume_token"]

def toJson (s : SourceInfo) : Value :=
  .object (record s.jsonFields (s.extra.getD []))

/-- The flattened map collects every other key, and is there even if there are
none. -/
def ofJson : Value → Option SourceInfo
  | .object map => do
      let version ← Map.defaulted map "version" defaultVersion readString
      let connector ← Map.defaulted map "connector" defaultConnector readString
      let name ← Map.defaulted map "name" defaultName readString
      let tsMs ← Map.optional map "ts_ms" readI64
      let snapshot ← Map.defaulted map "snapshot" .false SnapshotPhase.ofJson
      let db ← Map.defaulted map "db" "" readString
      let schema ← Map.defaulted map "schema" defaultSchema (readOption readString)
      let table ← Map.defaulted map "table" "" readString
      let txId ← Map.optional map "tx_id" readI64
      let lsn ← Map.optional map "lsn" readI64
      let xmin ← Map.optional map "xmin" readI64
      let file ← Map.optional map "file" readString
      let pos ← Map.optional map "pos" readI64
      let gtid ← Map.optional map "gtid" readString
      let sequence ← Map.optional map "sequence" readString
      let rsId ← Map.optional map "rs_id" readI64
      let resumeToken ← Map.optional map "resume_token" readString
      return {
        version, connector, name, tsMs, snapshot, db, schema, table, txId,
        lsn, xmin, file, pos, gtid, sequence, rsId, resumeToken,
        extra := some (Map.leftover map fieldNames) }
  | _ => none

/-- The flattened entries have different keys, and none that is the name of a
field. -/
def ExtraFits (extra : Map) : Prop := (fieldNames ++ extra.map Prod.fst).Nodup

theorem nodup_jsonFields (s : SourceInfo) :
    (s.jsonFields.map Prod.fst ++ ([] : Map).map Prod.fst).Nodup := by
  simp [jsonFields]

/-- The source block comes back with a schema. -/
theorem ofJson_toJson {s : SourceInfo} {extra : Map}
    (hextra : s.extra = some extra) (hfits : ExtraFits extra) :
    ofJson s.toJson = some { s with schema := s.schema.or defaultSchema } := by
  have hnames : s.jsonFields.map Prod.fst = fieldNames := rfl
  have hnodup : (s.jsonFields.map Prod.fst ++ extra.map Prod.fst).Nodup := hfits
  have hstring : ∀ key a default, (key, some (Value.string a)) ∈
      s.jsonFields → Map.defaulted (record s.jsonFields extra) key default
        readString = some a := fun _ _ default hmem =>
    defaulted_record Value.string hnodup default hmem rfl
  have hoption : ∀ key (a : Option String), (key, a.map Value.string) ∈
      s.jsonFields → Map.optional (record s.jsonFields extra) key readString =
        some a := fun _ _ hmem =>
    optional_record Value.string hnodup hmem fun b _ => string_spec b
  have hnumber : ∀ key (a : Option Int64), (key, a.map ofI64) ∈
      s.jsonFields → Map.optional (record s.jsonFields extra) key readI64 =
        some a := fun _ _ hmem =>
    optional_record ofI64 hnodup hmem fun b _ => ofI64_spec b
  have hsnapshot := defaulted_record SnapshotPhase.toJson hnodup .false
    (show ("snapshot", some s.snapshot.toJson) ∈ s.jsonFields by
      simp [jsonFields]) s.snapshot.ofJson_toJson
  have hschema := defaulted_option_record Value.string hnodup defaultSchema
    (show ("schema", s.schema.map Value.string) ∈ s.jsonFields by
      simp [jsonFields]) fun b _ => string_spec b
  have hleft := leftover_record hnodup
  rw [hnames] at hleft
  rw [toJson, hextra, Option.getD_some]
  unfold ofJson
  dsimp only
  rw [hstring "version" s.version _ (by simp [jsonFields]),
    hstring "connector" s.connector _ (by simp [jsonFields]),
    hstring "name" s.name _ (by simp [jsonFields]),
    hnumber "ts_ms" s.tsMs (by simp [jsonFields]), hsnapshot,
    hstring "db" s.db _ (by simp [jsonFields]), hschema,
    hstring "table" s.table _ (by simp [jsonFields]),
    hnumber "tx_id" s.txId (by simp [jsonFields]),
    hnumber "lsn" s.lsn (by simp [jsonFields]),
    hnumber "xmin" s.xmin (by simp [jsonFields]),
    hoption "file" s.file (by simp [jsonFields]),
    hnumber "pos" s.pos (by simp [jsonFields]),
    hoption "gtid" s.gtid (by simp [jsonFields]),
    hoption "sequence" s.sequence (by simp [jsonFields]),
    hnumber "rs_id" s.rsId (by simp [jsonFields]),
    hoption "resume_token" s.resumeToken (by simp [jsonFields]), hleft]
  rw [← hextra]
  rfl

end SourceInfo

/-! ## Schemas -/

mutual

def DebeziumField.toJson : DebeziumField → Value
  | ⟨fieldName, fieldType, fields, optional, name, version, doc, parameters,
      default⟩ =>
      .object (record [
        ("field", some (.string fieldName)),
        ("type", some fieldType),
        ("fields", fieldsToJson fields),
        ("optional", optional.map .bool),
        ("name", name.map .string),
        ("version", version.map ofU32),
        ("doc", doc.map .string),
        ("parameters", parameters.map ofStrings),
        ("default", default)] [])

/-- A list of fields, if there is one. -/
def fieldsToJson : Option (List DebeziumField) → Option Value
  | none => none
  | some fields => some (.array (fieldListToJson fields))

def fieldListToJson : List DebeziumField → List Value
  | [] => []
  | field :: fields => field.toJson :: fieldListToJson fields

end

mutual

def DebeziumField.ofJson : Value → Option DebeziumField
  | .object map => do
      let fieldName ← Map.required map "field" readString
      let fieldType ← Map.required map "type" some
      let fields ← nestedFields map
      let optional ← Map.optional map "optional" readBool
      let name ← Map.optional map "name" readString
      let version ← Map.optional map "version" readU32
      let doc ← Map.optional map "doc" readString
      let parameters ← Map.optional map "parameters" readStrings
      let default ← Map.optional map "default" some
      return {
        fieldName, fieldType, fields, optional, name, version, doc,
        parameters, default }
  | _ => none

/-- The entry with the nested fields. -/
def nestedFields : Map → Option (Option (List DebeziumField))
  | [] => some none
  | (key, v) :: map =>
      if key = "fields" then fieldsOfJson v else nestedFields map

def fieldsOfJson : Value → Option (Option (List DebeziumField))
  | .null => some none
  | .array values => (fieldListOfJson values).map some
  | _ => none

def fieldListOfJson : List Value → Option (List DebeziumField)
  | [] => some []
  | v :: values => do
      let field ← DebeziumField.ofJson v
      let fields ← fieldListOfJson values
      return field :: fields

end

/-- No default of the field, or of a field inside it, is JSON null. -/
inductive DebeziumField.DefaultsFit : DebeziumField → Prop
  | intro (field : DebeziumField) (own : field.default ≠ some .null)
      (nested : ∀ fields, field.fields = some fields →
        ∀ inner ∈ fields, DefaultsFit inner) : DefaultsFit field

theorem nestedFields_eq (map : Map) :
    nestedFields map =
      match Map.get map "fields" with
      | some v => fieldsOfJson v
      | none => some none := by
  induction map with
  | nil => rfl
  | cons entry map ih =>
      obtain ⟨key, v⟩ := entry
      rw [nestedFields]
      by_cases hkey : key = "fields"
      · simp [hkey, Map.get]
      · rw [if_neg hkey, ih]
        simp [Map.get, hkey]

theorem fieldListOfJson_fieldListToJson {fields : List DebeziumField}
    (h : ∀ field ∈ fields, DebeziumField.ofJson field.toJson = some field) :
    fieldListOfJson (fieldListToJson fields) = some fields := by
  induction fields with
  | nil => rfl
  | cons field fields ih =>
      rw [fieldListToJson, fieldListOfJson, h field List.mem_cons_self,
        ih fun other hother => h other (List.mem_cons_of_mem _ hother)]
      rfl

/-- The list of fields that a record holds under its name. -/
theorem nestedFields_record (fields : Option (List DebeziumField))
    {entries : List (String × Option Value)}
    (h : (entries.map Prod.fst ++ ([] : Map).map Prod.fst).Nodup)
    (hmem : ("fields", fieldsToJson fields) ∈ entries)
    (hfields : ∀ list, fields = some list → ∀ field ∈ list,
      DebeziumField.ofJson field.toJson = some field) :
    nestedFields (record entries []) = some fields := by
  rw [nestedFields_eq, get_record h _ hmem]
  cases fields with
  | none => rfl
  | some list =>
      simp only [fieldsToJson, fieldsOfJson,
        fieldListOfJson_fieldListToJson (hfields list rfl), Option.map_some]

/-- A value that is not null comes back as it is. -/
theorem value_spec {a : Option Value} (h : a ≠ some .null) :
    ∀ b, a = some b → b ≠ .null ∧ some b = some b := by
  rintro b rfl
  exact ⟨fun hnull => h (congrArg some hnull), rfl⟩

namespace DebeziumField

def jsonFields (field : DebeziumField) : List (String × Option Value) :=
  [("field", some (.string field.fieldName)),
    ("type", some field.fieldType),
    ("fields", fieldsToJson field.fields),
    ("optional", field.optional.map .bool),
    ("name", field.name.map .string),
    ("version", field.version.map ofU32),
    ("doc", field.doc.map .string),
    ("parameters", field.parameters.map ofStrings),
    ("default", field.default)]

theorem toJson_eq (field : DebeziumField) :
    field.toJson = .object (record field.jsonFields []) := by
  obtain ⟨_, _, _, _, _, _, _, _, _⟩ := field
  rfl

theorem nodup_jsonFields (field : DebeziumField) :
    (field.jsonFields.map Prod.fst ++ ([] : Map).map Prod.fst).Nodup := by
  simp [jsonFields]

theorem ofJson_toJson {field : DebeziumField} (h : field.DefaultsFit) :
    ofJson field.toJson = some field := by
  induction h with
  | intro field own nested ih =>
      have hnodup := field.nodup_jsonFields
      have hdefault := optional_record id hnodup (a := field.default)
        (show ("default", field.default.map id) ∈ field.jsonFields by
          simp [jsonFields]) (value_spec own)
      rw [toJson_eq]
      unfold ofJson
      rw [required_record Value.string hnodup (a := field.fieldName) (by simp [jsonFields]) rfl,
        required_record id hnodup (a := field.fieldType)
          (by simp [jsonFields]) rfl,
        nestedFields_record field.fields hnodup
          (by simp [jsonFields]) ih,
        optional_record Value.bool hnodup (a := field.optional)
          (by simp [jsonFields]) fun b _ => bool_spec b,
        optional_record Value.string hnodup (a := field.name)
          (by simp [jsonFields]) fun s _ => string_spec s,
        optional_record ofU32 hnodup (a := field.version)
          (by simp [jsonFields]) fun n _ => ofU32_spec n,
        optional_record Value.string hnodup (a := field.doc)
          (by simp [jsonFields]) fun s _ => string_spec s,
        optional_record ofStrings hnodup (a := field.parameters)
          (by simp [jsonFields]) fun entries _ => ofStrings_spec entries,
        hdefault]
      obtain ⟨_, _, _, _, _, _, _, _, _⟩ := field
      rfl

end DebeziumField

namespace DebeziumSchema

def jsonFields (schema : DebeziumSchema) : List (String × Option Value) :=
  [("type", some schema.schemaType.toJson),
    ("fields", fieldsToJson schema.fields),
    ("optional", schema.optional.map .bool),
    ("name", schema.name.map .string),
    ("version", schema.version.map ofU32),
    ("doc", schema.doc.map .string),
    ("field", schema.field.map .string),
    ("default", schema.default),
    ("parameters", schema.parameters.map ofStrings)]

theorem nodup_jsonFields (schema : DebeziumSchema) :
    (schema.jsonFields.map Prod.fst ++ ([] : Map).map Prod.fst).Nodup := by
  simp [jsonFields]

def toJson (schema : DebeziumSchema) : Value :=
  .object (record schema.jsonFields [])

def ofJson : Value → Option DebeziumSchema
  | .object map => do
      let schemaType ← Map.required map "type" DebeziumSchemaType.ofJson
      let fields ← nestedFields map
      let optional ← Map.optional map "optional" readBool
      let name ← Map.optional map "name" readString
      let version ← Map.optional map "version" readU32
      let doc ← Map.optional map "doc" readString
      let field ← Map.optional map "field" readString
      let default ← Map.optional map "default" some
      let parameters ← Map.optional map "parameters" readStrings
      return {
        schemaType, fields, optional, name, version, doc, field, default,
        parameters }
  | _ => none

/-- No default of the schema or of one of its fields is JSON null. -/
structure DefaultsFit (schema : DebeziumSchema) : Prop where
  own : schema.default ≠ some .null
  nested : ∀ fields, schema.fields = some fields →
    ∀ field ∈ fields, field.DefaultsFit

/-- The schema with the type that its name stands for. -/
def normalized (schema : DebeziumSchema) : DebeziumSchema :=
  { schema with schemaType := .fromStr schema.schemaType.asStr }

theorem normalized_eq_iff {schema : DebeziumSchema} :
    schema.normalized = schema ↔
      .fromStr schema.schemaType.asStr = schema.schemaType := by
  constructor
  · intro h
    exact congrArg schemaType h
  · intro h
    rw [normalized, h]

theorem ofJson_toJson {schema : DebeziumSchema} (h : schema.DefaultsFit) :
    ofJson schema.toJson = some schema.normalized := by
  have hnodup := schema.nodup_jsonFields
  have htype : Map.required (record schema.jsonFields []) "type"
      DebeziumSchemaType.ofJson =
        some (.fromStr schema.schemaType.asStr) := by
    rw [Map.required, get_record hnodup
      (some schema.schemaType.toJson) (by simp [jsonFields])]
    exact schema.schemaType.ofJson_toJson
  have hdefault := optional_record id hnodup (a := schema.default)
    (show ("default", schema.default.map id) ∈ schema.jsonFields by
      simp [jsonFields]) (value_spec h.own)
  rw [toJson]
  unfold ofJson
  dsimp only
  rw [htype,
    nestedFields_record schema.fields hnodup (by simp [jsonFields])
      fun fields hfields field hfield =>
        DebeziumField.ofJson_toJson (h.nested fields hfields field hfield),
    optional_record Value.bool hnodup (a := schema.optional)
      (by simp [jsonFields]) fun b _ => bool_spec b,
    optional_record Value.string hnodup (a := schema.name)
      (by simp [jsonFields]) fun s _ => string_spec s,
    optional_record ofU32 hnodup (a := schema.version)
      (by simp [jsonFields]) fun n _ => ofU32_spec n,
    optional_record Value.string hnodup (a := schema.doc)
      (by simp [jsonFields]) fun s _ => string_spec s,
    optional_record Value.string hnodup (a := schema.field)
      (by simp [jsonFields]) fun s _ => string_spec s,
    hdefault,
    optional_record ofStrings hnodup (a := schema.parameters)
      (by simp [jsonFields]) fun entries _ => ofStrings_spec entries]
  rfl

end DebeziumSchema

/-! ## Events -/

namespace TransactionInfo

def defaultTotalOrder : Int64 := 0

def defaultDataCollectionsOrder : Int64 := 0

def jsonFields (txn : TransactionInfo) : List (String × Option Value) :=
  [("id", some (.string txn.id)),
    ("total_order", some (ofI64 txn.totalOrder)),
    ("data_collections_order", some (ofI64 txn.dataCollectionsOrder))]

theorem nodup_jsonFields (txn : TransactionInfo) :
    (txn.jsonFields.map Prod.fst ++ ([] : Map).map Prod.fst).Nodup := by
  simp [jsonFields]

def toJson (txn : TransactionInfo) : Value :=
  .object (record txn.jsonFields [])

def ofJson : Value → Option TransactionInfo
  | .object map => do
      let id ← Map.required map "id" readString
      let totalOrder ←
        Map.defaulted map "total_order" defaultTotalOrder readI64
      let dataCollectionsOrder ← Map.defaulted map "data_collections_order"
        defaultDataCollectionsOrder readI64
      return { id, totalOrder, dataCollectionsOrder }
  | _ => none

theorem ofJson_toJson (txn : TransactionInfo) :
    ofJson txn.toJson = some txn := by
  have hnodup := txn.nodup_jsonFields
  rw [toJson]
  unfold ofJson
  dsimp only
  rw [required_record Value.string hnodup (a := txn.id)
      (by simp [jsonFields]) rfl,
    defaulted_record ofI64 hnodup (a := txn.totalOrder) _
      (by simp [jsonFields]) (readI64_ofI64 _),
    defaulted_record ofI64 hnodup (a := txn.dataCollectionsOrder) _
      (by simp [jsonFields]) (readI64_ofI64 _)]
  rfl

theorem toJson_spec (txn : TransactionInfo) :
    txn.toJson ≠ .null ∧ ofJson txn.toJson = some txn :=
  ⟨nofun, txn.ofJson_toJson⟩

end TransactionInfo

namespace ChangePayload

def jsonFields (payload : ChangePayload) : List (String × Option Value) :=
  [("before", payload.before),
    ("after", payload.after),
    ("source", some payload.source.toJson),
    ("op", some payload.op.toJson),
    ("ts_ms", payload.tsMs.map ofI64),
    ("transaction", payload.transaction.map TransactionInfo.toJson)]

theorem nodup_jsonFields (payload : ChangePayload) :
    (payload.jsonFields.map Prod.fst ++ ([] : Map).map Prod.fst).Nodup := by
  simp [jsonFields]

def toJson (payload : ChangePayload) : Value :=
  .object (record payload.jsonFields [])

def ofJson : Value → Option ChangePayload
  | .object map => do
      let before ← Map.optional map "before" some
      let after ← Map.optional map "after" some
      let source ← Map.required map "source" SourceInfo.ofJson
      let op ← Map.required map "op" Operation.ofJson
      let tsMs ← Map.optional map "ts_ms" readI64
      let transaction ← Map.optional map "transaction" TransactionInfo.ofJson
      return { before, after, source, op, tsMs, transaction }
  | _ => none

/-- The payload with a schema in its source block. -/
def withSchema (payload : ChangePayload) : ChangePayload :=
  { payload with source := { payload.source with
      schema := payload.source.schema.or SourceInfo.defaultSchema } }

theorem withSchema_eq_iff {payload : ChangePayload} :
    payload.withSchema = payload ↔ payload.source.schema.isSome := by
  constructor
  · intro h
    have hschema : payload.source.schema.or SourceInfo.defaultSchema =
        payload.source.schema := congrArg (·.source.schema) h
    rw [← hschema]
    cases payload.source.schema <;> rfl
  · intro h
    rw [withSchema, Option.or_of_isSome h]

theorem ofJson_toJson {payload : ChangePayload} {extra : Map}
    (hextra : payload.source.extra = some extra)
    (hfits : SourceInfo.ExtraFits extra)
    (hbefore : payload.before ≠ some .null)
    (hafter : payload.after ≠ some .null) :
    ofJson payload.toJson = some payload.withSchema := by
  have hnodup := payload.nodup_jsonFields
  have hbeforeRead := optional_record id hnodup (a := payload.before)
    (show ("before", payload.before.map id) ∈
      payload.jsonFields by simp [jsonFields]) (value_spec hbefore)
  have hafterRead := optional_record id hnodup (a := payload.after)
    (show ("after", payload.after.map id) ∈
      payload.jsonFields by simp [jsonFields]) (value_spec hafter)
  have hsource : Map.required (record payload.jsonFields []) "source"
      SourceInfo.ofJson = some payload.withSchema.source := by
    rw [Map.required, get_record hnodup
      (some payload.source.toJson) (by simp [jsonFields])]
    exact SourceInfo.ofJson_toJson hextra hfits
  rw [toJson]
  unfold ofJson
  dsimp only
  rw [hbeforeRead, hafterRead, hsource,
    required_record Operation.toJson hnodup (a := payload.op)
      (by simp [jsonFields]) payload.op.ofJson_toJson,
    optional_record ofI64 hnodup (a := payload.tsMs)
      (by simp [jsonFields]) fun n _ => ofI64_spec n,
    optional_record TransactionInfo.toJson hnodup (a := payload.transaction)
      (by simp [jsonFields])
      fun txn _ => txn.toJson_spec]
  rfl

end ChangePayload

namespace ChangeEvent

def jsonFields (event : ChangeEvent) : List (String × Option Value) :=
  [("schema", event.schema.map DebeziumSchema.toJson),
    ("payload", some event.payload.toJson)]

theorem nodup_jsonFields (event : ChangeEvent) :
    (event.jsonFields.map Prod.fst ++ ([] : Map).map Prod.fst).Nodup := by
  simp [jsonFields]

def toJson (event : ChangeEvent) : Value :=
  .object (record event.jsonFields [])

def ofJson : Value → Option ChangeEvent
  | .object map => do
      let schema ← Map.optional map "schema" DebeziumSchema.ofJson
      let payload ← Map.required map "payload" ChangePayload.ofJson
      return { schema, payload }
  | _ => none

/-- The events whose JSON values are kept apart from absent ones. -/
structure JsonFits (event : ChangeEvent) : Prop where
  extra : ∃ extra, event.payload.source.extra = some extra ∧
    SourceInfo.ExtraFits extra
  before : event.payload.before ≠ some .null
  after : event.payload.after ≠ some .null
  defaults : ∀ schema, event.schema = some schema → schema.DefaultsFit

/-- What an event comes back as. -/
def readBack (event : ChangeEvent) : ChangeEvent where
  schema := event.schema.map DebeziumSchema.normalized
  payload := event.payload.withSchema

theorem readBack_eq_iff {event : ChangeEvent} :
    event.readBack = event ↔
      event.payload.source.schema.isSome ∧
        ∀ schema, event.schema = some schema → schema.normalized = schema := by
  rw [← ChangePayload.withSchema_eq_iff]
  obtain ⟨schema, payload⟩ := event
  simp only [readBack, ChangeEvent.mk.injEq]
  cases schema <;> simp [and_comm]

theorem ofJson_toJson {event : ChangeEvent} (h : event.JsonFits) :
    ofJson event.toJson = some event.readBack := by
  have hnodup := event.nodup_jsonFields
  obtain ⟨extra, hextra, hfits⟩ := h.extra
  have hschema : Map.optional (record event.jsonFields []) "schema"
      DebeziumSchema.ofJson =
        some (event.schema.map DebeziumSchema.normalized) := by
    rw [Map.optional, Map.defaulted, get_record hnodup
      (event.schema.map DebeziumSchema.toJson) (by simp [jsonFields])]
    cases hevent : event.schema with
    | none => rfl
    | some schema =>
        have hread := DebeziumSchema.ofJson_toJson (h.defaults schema hevent)
        show (DebeziumSchema.ofJson schema.toJson).map some = _
        rw [hread]
        rfl
  have hpayload : Map.required (record event.jsonFields []) "payload"
      ChangePayload.ofJson = some event.payload.withSchema := by
    rw [Map.required, get_record hnodup
      (some event.payload.toJson) (by simp [jsonFields])]
    exact ChangePayload.ofJson_toJson hextra hfits h.before h.after
  rw [toJson]
  unfold ofJson
  dsimp only
  rw [hschema, hpayload]
  rfl

end ChangeEvent
end OpenCdc
