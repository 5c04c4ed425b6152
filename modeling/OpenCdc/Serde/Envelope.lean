import OpenCdc.Core.Schema

/-!
# The envelope schema

The schema that `EnvelopeBuilder` declares for the events of a table, beside
the source block that the events are written with.
-/

namespace OpenCdc

open Json

/-! ## The builder -/

namespace EnvelopeBuilder

def buildSourceSchemaFields : List DebeziumField :=
  [.string "version",
    .string "connector",
    .string "name",
    .int64 "ts_ms",
    (.asOptional <| .string "snapshot"),
    .string "db",
    (.asOptional <| .string "schema"),
    .string "table",
    (.asOptional <| .int64 "txId"),
    (.asOptional <| .int64 "lsn"),
    (.asOptional <| .string "file"),
    (.asOptional <| .int64 "pos"),
    (.asOptional <| .string "gtid"),
    (.asOptional <| .string "resume_token")]

def namespaceName (connectorName catalog : String) : Option String → String
  | some schema => connectorName ++ "." ++ catalog ++ "." ++ schema
  | none => connectorName ++ "." ++ catalog

/-- The columns of a row image, each optional and named after its table. -/
def mkFields (tableSchemaName : String) (columns : List DebeziumField) :
    List DebeziumField :=
  columns.map fun column => { column with
    optional := some true
    name := some (tableSchemaName ++ "." ++ column.fieldName) }

def buildEnvelopeSchema (connectorName catalog : String)
    (schema : Option String) (table : String) (columns : List DebeziumField) :
    DebeziumSchema :=
  let tableSchemaName :=
    namespaceName connectorName catalog schema ++ "." ++ table
  { schemaType := .struct
    fields := some [
      { DebeziumField.structField "before"
          (mkFields tableSchemaName columns) with
        optional := some true
        name := some tableSchemaName },
      { DebeziumField.structField "after"
          (mkFields tableSchemaName columns) with
        optional := some true
        name := some tableSchemaName },
      { DebeziumField.structField "source" buildSourceSchemaFields with
        optional := some false
        name := some
          ("io.debezium.connector." ++ connectorName ++ ".Source") },
      { DebeziumField.string "op" with optional := some false },
      { DebeziumField.int64 "ts_ms" with optional := some true },
      { DebeziumField.structField "transaction" [
          .string "id",
          .int64 "total_order",
          .int64 "data_collections_order"] with
        optional := some true
        name := some (tableSchemaName ++ ".Envelope") }]
    optional := some false
    name := some (tableSchemaName ++ ".Envelope")
    version := some 1
    doc := none
    field := none
    default := none
    parameters := none }

/-! ## Conformance -/

/-- The fields that a schema declares for the source block. -/
def sourceFields (schema : DebeziumSchema) : List DebeziumField :=
  (((schema.fields.getD []).find? fun field => field.fieldName = "source").bind
    (·.fields)).getD []

/-- The member of an object. -/
def member (key : String) : Value → Option Value
  | .object map => Map.get map key
  | _ => none

/-- The keys of the source block of a written event. -/
def sourceKeys (written : Value) : List String :=
  match (member "payload" written).bind (member "source") with
  | some (.object map) => map.map Prod.fst
  | _ => []

/-- A written event has no undeclared key in its source block and every field
that is declared without being optional. -/
structure Conforms (schema : DebeziumSchema) (written : Value) : Prop where
  declared : ∀ key ∈ sourceKeys written,
    key ∈ (sourceFields schema).map (·.fieldName)
  required : ∀ field ∈ sourceFields schema, field.isOptional = false →
    field.fieldName ∈ sourceKeys written

theorem sourceFields_buildEnvelopeSchema (connectorName catalog : String)
    (schema : Option String) (table : String) (columns : List DebeziumField) :
    sourceFields
        (buildEnvelopeSchema connectorName catalog schema table columns) =
      buildSourceSchemaFields := by
  simp [sourceFields, buildEnvelopeSchema, DebeziumField.structField,
    DebeziumField.new]

theorem sourceKeys_toJson {event : ChangeEvent}
    (h : event.payload.source.extra = none) :
    sourceKeys event.toJson =
      (present event.payload.source.jsonFields).map Prod.fst := by
  have hpayload : member "payload" event.toJson =
      some event.payload.toJson := by
    rw [ChangeEvent.toJson, member, get_record event.nodup_jsonFields
        (some event.payload.toJson)]
    simp [ChangeEvent.jsonFields]
  have hsource : member "source" event.payload.toJson =
      some event.payload.source.toJson := by
    rw [ChangePayload.toJson, member,
      get_record event.payload.nodup_jsonFields
        (some event.payload.source.toJson)]
    simp [ChangePayload.jsonFields]
  rw [sourceKeys, hpayload, Option.bind_some, hsource, SourceInfo.toJson, h]
  simp only [Option.getD_none]
  rw [record_eq event.payload.source.nodup_jsonFields, List.append_nil]

/-- The names that the schema declares for the source block. -/
theorem map_fieldName_buildSourceSchemaFields :
    buildSourceSchemaFields.map (·.fieldName) =
      ["version", "connector", "name", "ts_ms", "snapshot", "db", "schema",
        "table", "txId", "lsn", "file", "pos", "gtid", "resume_token"] := rfl

theorem forall_required_buildSourceSchemaFields {P : String → Prop} :
    (∀ field ∈ buildSourceSchemaFields, field.isOptional = false →
        P field.fieldName) ↔
      ∀ name ∈ ["version", "connector", "name", "ts_ms", "db", "table"],
        P name := by
  simp [buildSourceSchemaFields, DebeziumField.isOptional,
    DebeziumField.asOptional, DebeziumField.string, DebeziumField.int64,
    DebeziumField.new]

/-- What the schema declares and the source block may not have, and the other
way round: the time of the change, and four numbers and texts. -/
theorem conforms_iff (connectorName catalog : String) (schema : Option String)
    (table : String) (columns : List DebeziumField) {event : ChangeEvent}
    (h : event.payload.source.extra = none) :
    Conforms (buildEnvelopeSchema connectorName catalog schema table columns)
        event.toJson ↔
      event.payload.source.tsMs.isSome ∧ event.payload.source.txId = none ∧
        event.payload.source.xmin = none ∧
        event.payload.source.sequence = none ∧
        event.payload.source.rsId = none := by
  have hdeclared : (∀ key ∈ sourceKeys event.toJson,
      key ∈ buildSourceSchemaFields.map (·.fieldName)) ↔
      event.payload.source.txId = none ∧ event.payload.source.xmin = none ∧
        event.payload.source.sequence = none ∧
        event.payload.source.rsId = none := by
    rw [sourceKeys_toJson h, map_fieldName_buildSourceSchemaFields,
      forall_mem_keys_present]
    simp [SourceInfo.jsonFields]
  have hrequired : (∀ field ∈ buildSourceSchemaFields,
      field.isOptional = false → field.fieldName ∈ sourceKeys event.toJson) ↔
      event.payload.source.tsMs.isSome := by
    rw [sourceKeys_toJson h,
      forall_required_buildSourceSchemaFields (P := (· ∈ _))]
    simp only [mem_keys_present]
    simp [SourceInfo.jsonFields]
  constructor
  · rintro ⟨hkeys, hfields⟩
    rw [sourceFields_buildEnvelopeSchema] at hkeys hfields
    exact ⟨hrequired.mp hfields, hdeclared.mp hkeys⟩
  · rintro ⟨htsMs, hrest⟩
    refine ⟨?_, ?_⟩ <;> rw [sourceFields_buildEnvelopeSchema]
    · exact hdeclared.mpr hrest
    · exact hrequired.mpr htsMs

/-- The source block of a Postgres table. -/
def usersSource : SourceInfo :=
  .new .postgres "testdb" (some "public") "users" 0

theorem conforms_usersSource :
    Conforms (buildEnvelopeSchema "opencdc" "testdb" (some "public") "users" [])
      (ChangeEvent.create (.object []) usersSource 0).toJson := by
  refine (conforms_iff "opencdc" "testdb" (some "public") "users" [] ?_).mpr ?_
  · rfl
  · exact ⟨rfl, rfl, rfl, rfl, rfl⟩

/-- The number of the transaction is declared under another name. -/
theorem not_conforms_withTxId :
    ¬ Conforms
      (buildEnvelopeSchema "opencdc" "testdb" (some "public") "users" [])
      (ChangeEvent.create (.object []) (usersSource.withTxId 7) 0).toJson := by
  rintro ⟨hkeys, -⟩
  rw [sourceFields_buildEnvelopeSchema, map_fieldName_buildSourceSchemaFields,
    sourceKeys_toJson rfl] at hkeys
  have hkey := hkeys "tx_id" (mem_keys_present.mpr
    ⟨("tx_id", some (ofI64 7)), by
      simp [SourceInfo.jsonFields, ChangeEvent.create, ChangeEvent.new,
        SourceInfo.withTxId], rfl, rfl⟩)
  simp at hkey

end EnvelopeBuilder
end OpenCdc
