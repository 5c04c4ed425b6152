import OpenCdc.Schema.Drift
import OpenCdc.Serde.Avro

/-!
# Fields of Avro records

What becomes of the fields below a column.  A struct without a field list fails
wherever the conversion gets to it, which is through structs only.  A field
that is converted keeps its name unless it is optional.
-/

namespace OpenCdc

open Foundation SchemaEvolution
open Json (Value Map)

namespace Json.Value

/-- `value.get(key)` -/
def get? : Value → String → Option Value
  | .object entries, key => Map.get entries key
  | _, _ => none

end Json.Value

namespace AvroSchemaGenerator

/-- The first field is the second one, or leads to it through structs only. -/
abbrev Leads : DebeziumField → DebeziumField → Prop :=
  Forest.Reaches SchemaEvolution.nestedFields isStruct

/-- A struct without a field list. -/
def Fieldless (field : DebeziumField) : Prop :=
  field.resolveType = .struct ∧ field.fields = none

/-! ## Conversion of one field -/

theorem convertFieldToAvro_of_fieldless {field : DebeziumField}
    (h : Fieldless field) :
    convertFieldToAvro field = .error
      (.schema ("struct field '" ++ field.fieldName ++ "' has no fields")) := by
  rw [convertFieldToAvro_eq, h.1, h.2]
  rfl

theorem convertFieldToAvro_of_fields {field : DebeziumField}
    {fields : List DebeziumField} (hstruct : field.resolveType = .struct)
    (hfields : field.fields = some fields) :
    convertFieldToAvro field = (convertFieldsToAvro fields).map fun entries =>
      entryToAvro field.fieldName field.optional
        (recordToAvro field.name entries) := by
  rw [convertFieldToAvro_eq, hstruct, hfields]
  simp only [convertStructToAvro]
  cases convertFieldsToAvro fields with
  | error e => rfl
  | ok entries => rfl

/-- There is one entry for each field, in order. -/
theorem convertFieldsToAvro_eq_ok_iff {fields : List DebeziumField}
    {entries : List Value} :
    convertFieldsToAvro fields = .ok entries ↔
      List.Forall₂ (fun field entry => convertFieldToAvro field = .ok entry)
        fields entries := by
  induction fields generalizing entries with
  | nil =>
      rw [convertFieldsToAvro, List.forall₂_nil_left_iff]
      constructor
      · exact fun h => (Except.ok.inj h).symm
      · exact fun h => congrArg Except.ok h.symm
  | cons field fields ih =>
      rw [convertFieldsToAvro, List.forall₂_cons_left_iff]
      constructor
      · intro h
        cases hfield : convertFieldToAvro field with
        | error e =>
            rw [hfield] at h
            cases h
        | ok entry =>
            cases hfields : convertFieldsToAvro fields with
            | error e =>
                rw [hfield, hfields] at h
                cases h
            | ok rest =>
                rw [hfield, hfields] at h
                cases h
                exact ⟨entry, rest, rfl, ih.mp hfields, rfl⟩
      · rintro ⟨entry, rest, hfield, hrest, rfl⟩
        rw [hfield, ih.mpr hrest]
        rfl

/-! ## Conversion down to a property of all fields -/

/-- The field is converted to an entry of which `P` holds. -/
def ConvertsTo (P : DebeziumField → Value → Prop) (field : DebeziumField) :
    Prop :=
  ∃ entry, convertFieldToAvro field = .ok entry ∧ P field entry

theorem exists_convertFieldsToAvro_iff {P : DebeziumField → Value → Prop}
    {fields : List DebeziumField} :
    (∃ entries, convertFieldsToAvro fields = .ok entries ∧
        List.Forall₂ P fields entries) ↔
      ∀ field ∈ fields, ConvertsTo P field := by
  simp only [convertFieldsToAvro_eq_ok_iff]
  induction fields with
  | nil =>
      apply iff_of_true
      · exact ⟨[], .nil, .nil⟩
      · exact fun field hfield => absurd hfield List.not_mem_nil
  | cons field fields ih =>
      rw [List.forall_mem_cons, ← ih]
      constructor
      · rintro ⟨_, ⟨⟩ | ⟨hfield, hfields⟩, hP⟩
        obtain ⟨hhead, htail⟩ := List.forall₂_cons.mp hP
        exact ⟨⟨_, hfield, hhead⟩, _, hfields, htail⟩
      · rintro ⟨⟨entry, hfield, hhead⟩, entries, hfields, htail⟩
        exact ⟨entry :: entries, .cons hfield hfields, .cons hhead htail⟩

theorem convertsTo_iff_of_fields {P : DebeziumField → Value → Prop}
    {field : DebeziumField} {fields : List DebeziumField}
    (hstruct : field.resolveType = .struct)
    (hfields : field.fields = some fields) :
    ConvertsTo P field ↔ ∃ entries, convertFieldsToAvro fields = .ok entries ∧
      P field (entryToAvro field.fieldName field.optional
        (recordToAvro field.name entries)) := by
  rw [ConvertsTo, convertFieldToAvro_of_fields hstruct hfields]
  cases convertFieldsToAvro fields with
  | error e => simp [Except.map]
  | ok entries => simp [Except.map]

theorem convertsTo_iff_of_ne_struct {P : DebeziumField → Value → Prop}
    {field : DebeziumField} (h : field.resolveType ≠ .struct) :
    ConvertsTo P field ↔ P field (entryToAvro field.fieldName field.optional
      (leafToAvro field.resolveType field.parameters)) := by
  rw [ConvertsTo, convertFieldToAvro_of_ne_struct h]
  simp

theorem not_convertsTo_of_fieldless {P : DebeziumField → Value → Prop}
    {field : DebeziumField} (h : Fieldless field) : ¬ConvertsTo P field := by
  rw [ConvertsTo, convertFieldToAvro_of_fieldless h]
  simp

/-- What an entry says about its own field, and about the entries inside if it
is that of a struct. -/
structure Decides (P : DebeziumField → Value → Prop)
    (Q : DebeziumField → Prop) : Prop where
  leaf : ∀ field, field.resolveType ≠ .struct →
    (P field (entryToAvro field.fieldName field.optional
      (leafToAvro field.resolveType field.parameters)) ↔ Q field)
  struct : ∀ field fields entries, field.resolveType = .struct →
    field.fields = some fields → convertFieldsToAvro fields = .ok entries →
    (P field (entryToAvro field.fieldName field.optional
      (recordToAvro field.name entries)) ↔
        Q field ∧ List.Forall₂ P fields entries)

variable {P : DebeziumField → Value → Prop} {Q : DebeziumField → Prop}

theorem Decides.step (h : Decides P Q) (field : DebeziumField) :
    ConvertsTo P field ↔
      (¬Fieldless field ∧ Q field) ∧ (isStruct field = true →
        ∀ inner ∈ SchemaEvolution.nestedFields field, ConvertsTo P inner) := by
  by_cases hstruct : field.resolveType = .struct
  · have hopen : isStruct field = true := decide_eq_true hstruct
    cases hfields : field.fields with
    | none =>
        have hfieldless : Fieldless field := ⟨hstruct, hfields⟩
        exact iff_of_false (not_convertsTo_of_fieldless hfieldless)
          fun h => h.1.1 hfieldless
    | some fields =>
        have hnot : ¬Fieldless field := by
          intro hfieldless
          exact absurd (hfields.symm.trans hfieldless.2) (by simp)
        have hnested : SchemaEvolution.nestedFields field = fields := by
          rw [SchemaEvolution.nestedFields, hfields, Option.getD_some]
        rw [convertsTo_iff_of_fields hstruct hfields, hnested,
          ← exists_convertFieldsToAvro_iff]
        constructor
        · rintro ⟨entries, hconvert, hentry⟩
          obtain ⟨hown, hinside⟩ :=
            (h.struct field fields entries hstruct hfields hconvert).mp hentry
          exact ⟨⟨hnot, hown⟩, fun _ => ⟨entries, hconvert, hinside⟩⟩
        · rintro ⟨⟨-, hown⟩, hinside⟩
          obtain ⟨entries, hconvert, hentries⟩ := hinside hopen
          exact ⟨entries, hconvert,
            (h.struct field fields entries hstruct hfields hconvert).mpr
              ⟨hown, hentries⟩⟩
  · have hclosed : ¬isStruct field = true := fun h =>
      hstruct (of_decide_eq_true h)
    rw [convertsTo_iff_of_ne_struct hstruct, h.leaf field hstruct]
    constructor
    · intro hown
      exact ⟨⟨fun hfieldless => hstruct hfieldless.1, hown⟩,
        fun hopen => absurd hopen hclosed⟩
    · exact fun hall => hall.1.2

theorem Decides.convertsTo_iff (h : Decides P Q) (field : DebeziumField) :
    ConvertsTo P field ↔
      ∀ inner, Leads field inner → ¬Fieldless inner ∧ Q inner :=
  Forest.iff_forall_reaches sizeOf_lt_of_mem_nestedFields h.step field

/-! ## Errors -/

/-- A struct without a field list is below one of the columns. -/
def HasFieldless (columns : List DebeziumField) : Prop :=
  ∃ column ∈ columns, ∃ field, Leads column field ∧ Fieldless field

theorem decides_true : Decides (fun _ _ => True) (fun _ => True) where
  leaf _ _ := Iff.rfl
  struct field fields entries _ _ hconvert := by
    apply iff_of_true trivial
    refine ⟨trivial, ?_⟩
    exact (convertFieldsToAvro_eq_ok_iff.mp hconvert).imp fun _ _ _ => trivial

theorem error_iff_not_ok {α : Type} {x : Except Error α} :
    (∃ e, x = .error e) ↔ ¬∃ a, x = .ok a := by
  cases x with
  | error e => simp
  | ok a => simp

theorem convertFieldToAvro_error_iff {field : DebeziumField} :
    (∃ e, convertFieldToAvro field = .error e) ↔ HasFieldless [field] := by
  have hconverts := decides_true.convertsTo_iff field
  simp only [ConvertsTo, and_true] at hconverts
  rw [error_iff_not_ok, hconverts, HasFieldless]
  simp

theorem convertFieldsToAvro_error_iff {fields : List DebeziumField} :
    (∃ e, convertFieldsToAvro fields = .error e) ↔ HasFieldless fields := by
  have hfields : (∃ entries, convertFieldsToAvro fields = .ok entries) ↔
      ∀ field ∈ fields, ConvertsTo (fun _ _ => True) field := by
    rw [← exists_convertFieldsToAvro_iff]
    constructor
    · rintro ⟨entries, hentries⟩
      exact ⟨entries, hentries,
        (convertFieldsToAvro_eq_ok_iff.mp hentries).imp fun _ _ _ => trivial⟩
    · rintro ⟨entries, hentries, -⟩
      exact ⟨entries, hentries⟩
  rw [error_iff_not_ok, hfields, HasFieldless]
  simp only [decides_true.convertsTo_iff, and_true]
  push Not
  rfl

/-- A schema that is not converted, or has a column that is not. -/
inductive Unconvertible (schema : DebeziumSchema) : Prop
  | structWithout (htype : schema.schemaType = .struct)
      (hfields : schema.fields = none)
  | arrayWithout (htype : schema.schemaType = .array)
      (hitems : schema.fields.bind List.head? = none)
  | struct (fields : List DebeziumField) (htype : schema.schemaType = .struct)
      (hfields : schema.fields = some fields) (hbelow : HasFieldless fields)
  | array (items : DebeziumField) (htype : schema.schemaType = .array)
      (hitems : schema.fields.bind List.head? = some items)
      (hbelow : HasFieldless [items])

theorem bind_error_iff {α β : Type} {x : Except Error α} {f : α → β} :
    (∃ e, (do let a ← x; return f a) = Except.error e) ↔
      ∃ e, x = .error e := by
  cases x with
  | error e => exact iff_of_true ⟨e, rfl⟩ ⟨e, rfl⟩
  | ok a => exact iff_of_false (by rintro ⟨e, ⟨⟩⟩) (by rintro ⟨e, ⟨⟩⟩)

theorem tableFieldsToAvroJson_error_iff {name : String}
    {columns : List DebeziumField} {ns : Option String} :
    (∃ e, tableFieldsToAvroJson name columns ns = .error e) ↔
      HasFieldless columns := by
  rw [tableFieldsToAvroJson, bind_error_iff, convertFieldsToAvro_error_iff]

theorem makeEnvelopeAvroSchema_error_iff {ns table : String}
    {columns : List DebeziumField} :
    (∃ e, makeEnvelopeAvroSchema ns table columns = .error e) ↔
      HasFieldless columns := by
  rw [makeEnvelopeAvroSchema, bind_error_iff, convertFieldsToAvro_error_iff]

theorem debeziumSchemaToAvroJson_error_iff {schema : DebeziumSchema} :
    (∃ e, debeziumSchemaToAvroJson schema = .error e) ↔
      Unconvertible schema := by
  rw [debeziumSchemaToAvroJson, convertSchema]
  constructor
  · intro h
    split at h
    next htype =>
      split at h
      next hfields => exact .structWithout htype hfields
      next fields hfields =>
        exact .struct fields htype hfields
          (convertFieldsToAvro_error_iff.mp (bind_error_iff.mp h))
    next htype =>
      split at h
      next hitems => exact .arrayWithout htype hitems
      next items hitems =>
        exact .array items htype hitems
          (convertFieldToAvro_error_iff.mp (bind_error_iff.mp h))
    all_goals exact absurd h (by rintro ⟨e, ⟨⟩⟩)
  · intro h
    cases h with
    | structWithout htype hfields =>
        rw [htype, hfields]
        exact ⟨_, rfl⟩
    | arrayWithout htype hitems =>
        rw [htype, hitems]
        exact ⟨_, rfl⟩
    | struct fields htype hfields hbelow =>
        rw [htype, hfields]
        exact bind_error_iff.mpr (convertFieldsToAvro_error_iff.mpr hbelow)
    | array items htype hitems hbelow =>
        rw [htype, hitems]
        exact bind_error_iff.mpr (convertFieldToAvro_error_iff.mpr hbelow)

/-- Whether a schema is converted depends on the structs without a field list
alone. -/
theorem avro_error_iff (name ns table : String) (nameSpace : Option String)
    (columns : List DebeziumField) (schema : DebeziumSchema) :
    ((∃ e, makeEnvelopeAvroSchema ns table columns = .error e) ↔
        HasFieldless columns) ∧
      ((∃ e, tableFieldsToAvroJson name columns nameSpace = .error e) ↔
        HasFieldless columns) ∧
      ((∃ e, debeziumSchemaToAvroJson schema = .error e) ↔
        Unconvertible schema) :=
  ⟨makeEnvelopeAvroSchema_error_iff, tableFieldsToAvroJson_error_iff,
    debeziumSchemaToAvroJson_error_iff⟩

/-! ## Names of columns -/

/-- The entry is an object with the name of the field and a type, and so are
the entries inside if the field is a struct. -/
inductive Named : DebeziumField → Value → Prop
  | leaf {field : DebeziumField} {entry type : Value}
      (hfield : field.resolveType ≠ .struct)
      (hname : entry.get? "field" = some (.string field.fieldName))
      (htype : entry.get? "type" = some type) : Named field entry
  | struct {field : DebeziumField} {entry type : Value}
      {fields : List DebeziumField} {entries : List Value}
      (hfield : field.resolveType = .struct)
      (hfields : field.fields = some fields)
      (hname : entry.get? "field" = some (.string field.fieldName))
      (htype : entry.get? "type" = some type)
      (hentries : type.get? "fields" = some (.array entries))
      (hnested : List.Forall₂ Named fields entries) : Named field entry

/-- A schema of a record in which every column has its name. -/
def NamesColumns (columns : List DebeziumField) (schema : Value) : Prop :=
  ∃ entries, schema.get? "fields" = some (.array entries) ∧
    List.Forall₂ Named columns entries

theorem Named.hasName {field : DebeziumField} {entry : Value}
    (h : Named field entry) :
    entry.get? "field" = some (.string field.fieldName) := by
  cases h with
  | leaf _ hname _ => exact hname
  | struct _ _ hname _ _ _ => exact hname

/-- The union for an optional field has no name. -/
theorem not_named_of_optional {field : DebeziumField} {type : Value}
    (h : field.optional = some true) :
    ¬Named field (entryToAvro field.fieldName field.optional type) := by
  intro hnamed
  have hname := hnamed.hasName
  rw [h] at hname
  simp [entryToAvro, Value.get?] at hname

theorem entryToAvro_of_not_optional {fieldName : String}
    {optional : Option Bool} {type : Value} (h : optional ≠ some true) :
    entryToAvro fieldName optional type =
      .object [("field", .string fieldName), ("type", type)] := by
  rw [entryToAvro, if_neg]
  cases optional with
  | none => simp
  | some optional => simpa using h

theorem get?_insertSome_fields {avroFields : List Value} {key : String}
    {text : Option String} {front : Map} (hkey : key ≠ "fields")
    (h : Map.get front "fields" = some (.array avroFields)) :
    (Value.object (insertSome front key text)).get? "fields" =
      some (.array avroFields) := by
  cases text with
  | none => exact h
  | some text => exact (Json.Map.get_insert_of_ne _ hkey).trans h

theorem get?_recordToAvro (name : Option String) (entries : List Value) :
    (recordToAvro name entries).get? "fields" = some (.array entries) :=
  get?_insertSome_fields (by decide) rfl

/-- An entry is named if the field is not optional and the entries inside are
named. -/
theorem decides_named : Decides Named (fun field => field.optional ≠ some true)
    where
  leaf field hfield := by
    by_cases hoptional : field.optional = some true
    · exact iff_of_false (not_named_of_optional hoptional) (by simp [hoptional])
    · apply iff_of_true _ hoptional
      rw [entryToAvro_of_not_optional hoptional]
      exact .leaf hfield rfl rfl
  struct field fields entries hfield hfields _ := by
    by_cases hoptional : field.optional = some true
    · exact iff_of_false (not_named_of_optional hoptional) (by simp [hoptional])
    · rw [entryToAvro_of_not_optional hoptional]
      constructor
      · intro h
        cases h with
        | leaf hne _ _ => exact absurd hfield hne
        | struct _ hfields' _ htype hentries hnested =>
            cases htype
            rw [get?_recordToAvro] at hentries
            cases hentries
            cases hfields.symm.trans hfields'
            exact ⟨hoptional, hnested⟩
      · rintro ⟨-, hnested⟩
        exact .struct hfield hfields rfl rfl (get?_recordToAvro _ _) hnested

theorem convertFieldsToAvro_of_table {name : String}
    {columns : List DebeziumField} {ns : Option String} {schema : Value}
    (h : tableFieldsToAvroJson name columns ns = .ok schema) :
    ∃ entries, convertFieldsToAvro columns = .ok entries ∧
      schema.get? "fields" = some (.array entries) := by
  rw [tableFieldsToAvroJson] at h
  cases hconvert : convertFieldsToAvro columns with
  | error e =>
      rw [hconvert] at h
      cases h
  | ok entries =>
      rw [hconvert] at h
      cases h
      exact ⟨entries, rfl, get?_insertSome_fields (by decide) rfl⟩

/-- The columns keep their names exactly if none of them, and no field that is
reached from them through structs, is optional. -/
theorem namesColumns_iff {name : String} {columns : List DebeziumField}
    {ns : Option String} {schema : Value}
    (h : tableFieldsToAvroJson name columns ns = .ok schema) :
    NamesColumns columns schema ↔
      ∀ column ∈ columns, ∀ field, Leads column field →
        field.optional ≠ some true := by
  obtain ⟨entries, hconvert, hentries⟩ := convertFieldsToAvro_of_table h
  have hfieldless : ¬HasFieldless columns := by
    rw [← convertFieldsToAvro_error_iff, hconvert]
    simp
  have hnames : NamesColumns columns schema ↔
      ∃ entries', convertFieldsToAvro columns = .ok entries' ∧
        List.Forall₂ Named columns entries' := by
    rw [NamesColumns, hentries, hconvert]
    simp
  rw [hnames, exists_convertFieldsToAvro_iff]
  constructor
  · intro hall column hcolumn field hfield
    exact ((decides_named.convertsTo_iff column).mp
      (hall column hcolumn) field hfield).2
  · intro hall column hcolumn
    apply (decides_named.convertsTo_iff column).mpr
    intro field hfield
    exact ⟨fun hless => hfieldless ⟨column, hcolumn, field, hfield, hless⟩,
      hall column hcolumn field hfield⟩

/-- The table of the tests, with required columns. -/
theorem namesColumns_users :
    ∃ schema, tableFieldsToAvroJson "users" [.int32 "id", .string "name"]
        (some "io.opencdc.testdb.public") = .ok schema ∧
      NamesColumns [.int32 "id", .string "name"] schema := by
  refine ⟨_, rfl, (@namesColumns_iff "users" _
    (some "io.opencdc.testdb.public") _ rfl).mpr ?_⟩
  -- neither column is a struct
  intro column hcolumn field hfield
  rcases List.mem_pair.mp hcolumn with rfl | rfl
  · rcases Forest.reaches_iff.mp hfield with rfl | ⟨hopen, -⟩
    · decide
    · exact absurd hopen (by decide)
  · rcases Forest.reaches_iff.mp hfield with rfl | ⟨hopen, -⟩
    · decide
    · exact absurd hopen (by decide)

/-- The second column of the envelope of the tests: its entry is a union
without a name. -/
theorem optionalName_loses_name :
    ∃ schema, tableFieldsToAvroJson "users"
        [.int32 "id", (DebeziumField.string "name").asOptional] none =
        .ok schema ∧
      ¬NamesColumns [.int32 "id", (DebeziumField.string "name").asOptional]
        schema := by
  refine ⟨_, rfl, ?_⟩
  rintro ⟨entries, hentries, hnamed⟩
  cases hentries
  obtain ⟨-, hrest⟩ := List.forall₂_cons.mp hnamed
  exact not_named_of_optional rfl (List.forall₂_cons.mp hrest).1

end AvroSchemaGenerator
end OpenCdc
