import OpenCdc.Serde.Envelope

/-!
# The schema builder

`SchemaBuilder` makes the envelope schema of a table in steps: the six fields
of an envelope first, then one column after the other.  `EnvelopeBuilder`
makes the same schema from the list of columns at once.  The two agree on the
shape of the envelope and differ in what they put into it.
-/

namespace OpenCdc

/-! ## The builder -/

structure SchemaBuilder where
  schema : DebeziumSchema

namespace SchemaBuilder

def new (name : String) : SchemaBuilder where
  schema := {
    schemaType := .struct
    fields := some []
    optional := none
    name := some name
    version := some 1
    doc := none
    field := none
    default := none
    parameters := none }

def addField (self : SchemaBuilder) (field : DebeziumField) :
    SchemaBuilder where
  schema := { self.schema with
    fields := some (self.schema.fields.getD [] ++ [field]) }

/-- A column is added to both row images, `before` and `after`. -/
def withColumn (self : SchemaBuilder) (column : DebeziumField) :
    SchemaBuilder where
  schema := { self.schema with
    fields := self.schema.fields.map fun fields => fields.map fun f =>
      if f.fieldName = "before" ∨ f.fieldName = "after" then
        { f with fields := some (f.fields.getD [] ++ [column]) }
      else f }

def build (self : SchemaBuilder) : DebeziumSchema := self.schema

def sourceFields : List DebeziumField :=
  [.string "version",
    .string "connector",
    .string "name",
    .int64 "ts_ms",
    (.asOptional <| .string "snapshot"),
    .string "db",
    (.asOptional <| .string "schema"),
    .string "table",
    (.asOptional <| .int64 "txId"),
    (.asOptional <| .int64 "lsn"),
    (.asOptional <| .string "file"),
    (.asOptional <| .int64 "pos"),
    (.asOptional <| .string "gtid")]

def newEnvelope (connector catalog : String) (schema : Option String)
    (table : String) : SchemaBuilder :=
  let namespaceName :=
    match schema with
    | some s => connector ++ "." ++ catalog ++ "." ++ s
    | none => connector ++ "." ++ catalog
  let envelopeName := namespaceName ++ "." ++ table ++ ".Envelope"
  (new envelopeName)
    |>.addField ((DebeziumField.structField "before" []).asOptional.named
      (namespaceName ++ "." ++ table))
    |>.addField ((DebeziumField.structField "after" []).asOptional.named
      (namespaceName ++ "." ++ table))
    |>.addField ((DebeziumField.structField "source" sourceFields).named
      ("io.debezium.connector." ++ connector ++ ".Source"))
    |>.addField (.string "op")
    |>.addField (.asOptional <| .int64 "ts_ms")
    |>.addField (.asOptional <| .structField "transaction" [
      .string "id",
      .int64 "total_order",
      .int64 "data_collections_order"])

/-- The envelope of a table with these columns, added in order. -/
def envelopeOf (connector catalog : String) (schema : Option String)
    (table : String) (columns : List DebeziumField) : DebeziumSchema :=
  (columns.foldl withColumn (newEnvelope connector catalog schema table)).build

/-! ## Adding the columns -/

def IsRowImage (field : DebeziumField) : Prop :=
  field.fieldName = "before" ∨ field.fieldName = "after"

instance (field : DebeziumField) : Decidable (IsRowImage field) :=
  inferInstanceAs (Decidable (_ ∨ _))

def appendColumns (columns : List DebeziumField) (field : DebeziumField) :
    DebeziumField :=
  if IsRowImage field then
    { field with fields := some (field.fields.getD [] ++ columns) }
  else field

theorem appendColumns_nil {field : DebeziumField}
    (h : IsRowImage field → field.fields.isSome) :
    appendColumns [] field = field := by
  unfold appendColumns
  split_ifs with hrow
  · obtain ⟨fields, hfields⟩ := Option.isSome_iff_exists.mp (h hrow)
    cases field
    simp_all
  · rfl

theorem appendColumns_appendColumns (columns columns' : List DebeziumField)
    (field : DebeziumField) :
    appendColumns columns' (appendColumns columns field) =
      appendColumns (columns ++ columns') field := by
  by_cases hrow : IsRowImage field
  · have hrow' : IsRowImage (appendColumns columns field) := by
      rw [appendColumns, if_pos hrow]
      exact hrow
    rw [appendColumns, if_pos hrow', appendColumns, if_pos hrow,
      appendColumns, if_pos hrow]
    simp
  · rw [appendColumns.eq_def columns, if_neg hrow, appendColumns, if_neg hrow,
      appendColumns, if_neg hrow]

theorem isSome_fields_appendColumns {columns : List DebeziumField}
    {field : DebeziumField}
    (h : IsRowImage (appendColumns columns field)) :
    (appendColumns columns field).fields.isSome := by
  by_cases hrow : IsRowImage field
  · rw [appendColumns, if_pos hrow]
    rfl
  · rw [appendColumns, if_neg hrow] at h
    exact absurd h hrow

theorem fields_withColumn {self : SchemaBuilder} {fields : List DebeziumField}
    (h : self.schema.fields = some fields) (column : DebeziumField) :
    (self.withColumn column).schema.fields =
      some (fields.map (appendColumns [column])) := by
  simp only [withColumn, h, Option.map_some]
  rfl

/-- The columns end up in the row images in the order in which they were
added. -/
theorem fields_foldl_withColumn {self : SchemaBuilder}
    {fields : List DebeziumField} (h : self.schema.fields = some fields)
    (hrow : ∀ field ∈ fields, IsRowImage field → field.fields.isSome)
    (columns : List DebeziumField) :
    (columns.foldl withColumn self).schema.fields =
      some (fields.map (appendColumns columns)) := by
  induction columns generalizing self fields with
  | nil =>
      rw [List.foldl_nil, h]
      congr 1
      symm
      calc
        fields.map (appendColumns []) = fields.map id := by
          apply List.map_congr_left
          intro field hfield
          exact appendColumns_nil (hrow field hfield)
        _ = fields := List.map_id fields
  | cons column columns ih =>
      rw [List.foldl_cons, ih (fields_withColumn h column)]
      · rw [List.map_map]
        congr 2
        funext field
        exact appendColumns_appendColumns [column] columns field
      · intro field hfield
        obtain ⟨field', -, rfl⟩ := List.mem_map.mp hfield
        exact isSome_fields_appendColumns

/-! ## What the two builders agree on -/

/-- What a consumer of a schema sees of a field. -/
structure Outline where
  fieldName : String
  fieldType : DebeziumSchemaType
  isOptional : Bool
  name : Option String
deriving DecidableEq

def outline (field : DebeziumField) : Outline :=
  ⟨field.fieldName, field.resolveType, field.isOptional, field.name⟩

/-- The fields of the struct field of this name. -/
def nestedFields (schema : DebeziumSchema) (name : String) :
    List DebeziumField :=
  (((schema.fields.getD []).find? fun field => field.fieldName = name).bind
    (·.fields)).getD []

structure SameEnvelope (a b : DebeziumSchema) : Prop where
  fields : (a.fields.getD []).map outline = (b.fields.getD []).map outline
  source : (nestedFields a "source").map outline =
    (nestedFields b "source").map outline
  before : (nestedFields a "before").map outline =
    (nestedFields b "before").map outline
  after : (nestedFields a "after").map outline =
    (nestedFields b "after").map outline

/-! ## Where the two builders differ -/

section Envelopes

variable (connector catalog : String) (schema : Option String)
  (table : String) (columns : List DebeziumField)

theorem isSome_fields_of_mem_newEnvelope {fields : List DebeziumField}
    {field : DebeziumField}
    (hfields : (newEnvelope connector catalog schema table).schema.fields =
      some fields) (hmem : field ∈ fields) (hrow : IsRowImage field) :
    field.fields.isSome := by
  rw [← Option.some.inj hfields] at hmem
  simp only [addField, new, Option.getD_some, List.nil_append,
    List.cons_append, List.mem_cons, List.not_mem_nil, or_false] at hmem
  rcases hmem with rfl | rfl | rfl | rfl | rfl | rfl
  · rfl
  · rfl
  all_goals
    simp [IsRowImage, DebeziumField.named, DebeziumField.structField,
      DebeziumField.string, DebeziumField.int64, DebeziumField.asOptional,
      DebeziumField.new] at hrow

/-- The six fields of an envelope, with the columns in the row images. -/
theorem fields_envelopeOf :
    (envelopeOf connector catalog schema table columns).fields =
      ((newEnvelope connector catalog schema table).schema.fields).map
        (·.map (appendColumns columns)) := by
  rcases hfields : (newEnvelope connector catalog schema table).schema.fields
    with _ | fields
  · simp [newEnvelope, addField] at hfields
  · apply fields_foldl_withColumn hfields
    intro field
    exact isSome_fields_of_mem_newEnvelope connector catalog schema table
      hfields

theorem nestedFields_envelopeOf :
    nestedFields (envelopeOf connector catalog schema table columns)
        "source" = sourceFields ∧
      nestedFields (envelopeOf connector catalog schema table columns)
        "before" = columns ∧
      nestedFields (envelopeOf connector catalog schema table columns)
        "after" = columns := by
  simp only [nestedFields, fields_envelopeOf]
  simp [newEnvelope, addField, new, appendColumns, IsRowImage,
    DebeziumField.named, DebeziumField.structField, DebeziumField.string,
    DebeziumField.int64, DebeziumField.asOptional, DebeziumField.new]

open EnvelopeBuilder in
theorem nestedFields_buildEnvelopeSchema :
    nestedFields (buildEnvelopeSchema connector catalog schema table columns)
        "source" = buildSourceSchemaFields ∧
      nestedFields (buildEnvelopeSchema connector catalog schema table columns)
        "before" = mkFields
          (namespaceName connector catalog schema ++ "." ++ table) columns ∧
      nestedFields (buildEnvelopeSchema connector catalog schema table columns)
        "after" = mkFields
          (namespaceName connector catalog schema ++ "." ++ table) columns := by
  simp [nestedFields, buildEnvelopeSchema, DebeziumField.structField,
    DebeziumField.new]

theorem buildSourceSchemaFields_eq :
    EnvelopeBuilder.buildSourceSchemaFields =
      sourceFields ++ [.asOptional <| .string "resume_token"] := rfl

/-- The two builders never make the same schema: `SchemaBuilder` leaves out the
resume token of the source block. -/
theorem not_sameEnvelope :
    ¬SameEnvelope
      (EnvelopeBuilder.buildEnvelopeSchema connector catalog schema table
        columns)
      (envelopeOf connector catalog schema table columns) := by
  intro h
  have hlength := congrArg List.length h.source
  rw [(nestedFields_buildEnvelopeSchema connector catalog schema table
      columns).1, (nestedFields_envelopeOf connector catalog schema table
      columns).1, buildSourceSchemaFields_eq] at hlength
  simp at hlength

end Envelopes

/-- The envelopes of the table of the builder's test. -/
theorem not_sameEnvelope_users :
    ¬SameEnvelope
      (EnvelopeBuilder.buildEnvelopeSchema "opencdc" "testdb" (some "public")
        "users" [.int32 "id", .asOptional <| .string "name"])
      (envelopeOf "opencdc" "testdb" (some "public") "users"
        [.int32 "id", .asOptional <| .string "name"]) := by
  intro h
  have hlength := congrArg List.length h.source
  revert hlength
  decide

end SchemaBuilder
end OpenCdc
