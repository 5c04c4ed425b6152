import OpenCdc.Serde.Avro

/-!
# Names of Avro records

Avro wants every record to have a name, and no full name to be defined twice;
a type that is used again is used by its name.  The envelope has the record of
the table once for the row before and once for the row after.
-/

namespace OpenCdc

open Json

namespace AvroNames

/-! ## Full names -/

structure FullName where
  nameSpace : String
  simpleName : String
deriving DecidableEq, Repr

/-- A name with a dot in it is a full name.  Any other one is in the namespace
that is given, or in the one around it. -/
def FullName.of (enclosing name : String) (ns : Option String) : FullName :=
  if '.' ∈ name.toList then
    let simple := (name.toList.reverse.takeWhile (· ≠ '.')).reverse
    ⟨String.ofList (name.toList.take
      (name.toList.length - simple.length - 1)), String.ofList simple⟩
  else ⟨ns.getD enclosing, name⟩

example : FullName.of "a" "b.c.D" (some "e") = ⟨"b.c", "D"⟩ := by decide

def text (entries : Map) (key : String) : Option String :=
  (Map.get entries key).bind (·.asStr)

/-- The full name of a record definition, if it has one. -/
def definedName (enclosing : String) (entries : Map) : Option FullName :=
  (text entries "name").map fun name =>
    .of enclosing name (text entries "namespace")

def isRecord (entries : Map) : Bool := text entries "type" = some "record"

/-- The namespace that what is inside an object is in. -/
def namespaceInside (enclosing : String) (entries : Map) : String :=
  if isRecord entries then
    match definedName enclosing entries with
    | some name => name.nameSpace
    | none => enclosing
  else enclosing

mutual

/-- The record definitions of a schema, at any depth and in order, by their
full names. -/
def recordNames (enclosing : String) : Value → List (Option FullName)
  | .object entries =>
      (if isRecord entries then [definedName enclosing entries] else []) ++
        recordNamesOfEntries (namespaceInside enclosing entries) entries
  | .array values => recordNamesOfValues enclosing values
  | _ => []

def recordNamesOfEntries (enclosing : String) :
    List (String × Value) → List (Option FullName)
  | [] => []
  | (_, value) :: entries =>
      recordNames enclosing value ++ recordNamesOfEntries enclosing entries

def recordNamesOfValues (enclosing : String) :
    List Value → List (Option FullName)
  | [] => []
  | value :: values =>
      recordNames enclosing value ++ recordNamesOfValues enclosing values

end

/-- Every record has a name, and none has that of another. -/
structure WellNamed (schema : Value) : Prop where
  named : none ∉ recordNames "" schema
  distinct : (recordNames "" schema).Nodup

theorem recordNamesOfEntries_eq (enclosing : String) (entries : Map) :
    recordNamesOfEntries enclosing entries =
      entries.flatMap fun entry => recordNames enclosing entry.2 := by
  induction entries with
  | nil => rw [recordNamesOfEntries, List.flatMap_nil]
  | cons entry entries ih =>
      rw [recordNamesOfEntries, ih, List.flatMap_cons]

theorem recordNamesOfValues_eq (enclosing : String) (values : List Value) :
    recordNamesOfValues enclosing values =
      values.flatMap (recordNames enclosing) := by
  induction values with
  | nil => rw [recordNamesOfValues, List.flatMap_nil]
  | cons value values ih => rw [recordNamesOfValues, ih, List.flatMap_cons]

theorem recordNames_of_not_record {entries : Map} (enclosing : String)
    (h : isRecord entries = false) :
    recordNames enclosing (.object entries) =
      entries.flatMap fun entry => recordNames enclosing entry.2 := by
  rw [recordNames, namespaceInside, h, recordNamesOfEntries_eq]
  rfl

/-! ## The envelope -/

section Envelope

open AvroSchemaGenerator

theorem recordNames_record (enclosing name ns : String) (fields : List Value) :
    recordNames enclosing (.object [("type", .string "record"),
        ("name", .string name), ("namespace", .string ns),
        ("fields", .array fields)]) =
      some (.of enclosing name (some ns)) :: fields.flatMap
        (recordNames (FullName.of enclosing name (some ns)).nameSpace) := by
  have hrecord : isRecord [("type", .string "record"), ("name", .string name),
      ("namespace", .string ns), ("fields", .array fields)] = true := by
    simp [isRecord, text, Map.get, Value.asStr]
  have hname : definedName enclosing [("type", .string "record"),
      ("name", .string name), ("namespace", .string ns),
      ("fields", .array fields)] = some (.of enclosing name (some ns)) := by
    simp [definedName, text, Map.get, Value.asStr]
  rw [recordNames, namespaceInside, hrecord, hname, recordNamesOfEntries_eq]
  simp [recordNames, recordNamesOfValues_eq]

/-- The type of a nullable field is all that counts of it. -/
theorem recordNames_nullable (enclosing name : String) (type : Value) :
    recordNames enclosing (nullable name type) =
      recordNames enclosing type := by
  have hrecord : isRecord [("field", .string name),
      ("type", .array [.string "null", type]), ("default", .null)] = false := by
    simp [isRecord, text, Map.get, Value.asStr]
  rw [nullable, recordNames_of_not_record enclosing hrecord]
  simp [recordNames, recordNamesOfValues_eq]

variable {ns table : String} {columns : List DebeziumField} {schema : Value}

/-- The definitions of the table are there twice, whatever the columns are. -/
theorem exists_recordNames_envelope
    (h : makeEnvelopeAvroSchema ns table columns = .ok schema) :
    ∃ envelope enclosing below rest, recordNames "" schema =
      envelope :: ((some (FullName.of enclosing table (some ns)) :: below) ++
        ((some (FullName.of enclosing table (some ns)) :: below) ++ rest)) := by
  rw [makeEnvelopeAvroSchema] at h
  cases hconvert : convertFieldsToAvro columns with
  | error e =>
      rw [hconvert] at h
      cases h
  | ok columnAvroFields =>
      rw [hconvert] at h
      cases h
      rw [recordNames_record, List.flatMap_cons, List.flatMap_cons,
        recordNames_nullable, recordNames_nullable, recordNames_record]
      exact ⟨_, _, _, _, rfl⟩

/-- So no envelope is well named. -/
theorem not_wellNamed_envelope
    (h : makeEnvelopeAvroSchema ns table columns = .ok schema) :
    ¬WellNamed schema := by
  obtain ⟨envelope, enclosing, below, rest, hnames⟩ :=
    exists_recordNames_envelope h
  intro hwell
  have hdistinct := hwell.distinct
  rw [hnames] at hdistinct
  have hdisjoint := List.disjoint_of_nodup_append (List.nodup_cons.mp hdistinct).2
  exact hdisjoint List.mem_cons_self
    (List.mem_append_left rest List.mem_cons_self)

/-- The envelope of the tests. -/
theorem not_wellNamed_users :
    ∃ schema, makeEnvelopeAvroSchema "io.opencdc.testdb.public" "users"
        [.int32 "id", (DebeziumField.string "name").asOptional] = .ok schema ∧
      ¬WellNamed schema :=
  ⟨_, rfl, @not_wellNamed_envelope "io.opencdc.testdb.public" "users"
    [.int32 "id", (DebeziumField.string "name").asOptional] _ rfl⟩

/-- Even without columns the table is defined for both rows. -/
theorem users_defined_twice :
    ∃ schema, makeEnvelopeAvroSchema "public" "users" [] = .ok schema ∧
      recordNames "" schema = [
        some ⟨"public.users", "Envelope"⟩,
        some ⟨"public", "users"⟩, some ⟨"public", "users"⟩,
        some ⟨"io.debezium.connector.public", "Source"⟩,
        some ⟨"public.users", "Transaction"⟩] ∧ ¬WellNamed schema := by
  refine ⟨_, rfl, by decide, ?_⟩
  intro h
  exact absurd h.distinct (by decide)

end Envelope
end AvroNames
end OpenCdc
