import OpenCdc.Core.ChangeEvent
import OpenCdc.Foundation.Text

/-!
# Names of tables, topics and subjects

A table is named by its database, its schema where the connector has schemas,
and its own name.  The topic of a change event leaves the database out: its
prefix stands for the server.
-/

namespace OpenCdc

open Foundation

/-! ## The names -/

namespace ChangeEvent

def fullyQualifiedTable (self : ChangeEvent) : String :=
  match self.payload.source.schema with
  | some schema => self.payload.source.db ++ "." ++ schema ++ "." ++
      self.payload.source.table
  | none => self.payload.source.db ++ "." ++ self.payload.source.table

def topicName (self : ChangeEvent) (pre : String) : String :=
  match self.payload.source.schema with
  | some schema => pre ++ "." ++ schema ++ "." ++ self.payload.source.table
  | none => pre ++ "." ++ self.payload.source.table

end ChangeEvent

namespace DebeziumNaming

def topicName (pre : String) (schema : Option String) (table : String) :
    String :=
  match schema with
  | some s => pre ++ "." ++ s ++ "." ++ table
  | none => pre ++ "." ++ table

def subjectName (pre : String) (schema : Option String) (table : String)
    (suffix : String) : String :=
  let base :=
    match schema with
    | some s => pre ++ "." ++ s ++ "." ++ table
    | none => pre ++ "." ++ table
  base ++ "-" ++ suffix

def valueSubject (pre : String) (schema : Option String) (table : String) :
    String :=
  subjectName pre schema table "value"

def keySubject (pre : String) (schema : Option String) (table : String) :
    String :=
  subjectName pre schema table "key"

end DebeziumNaming

/-! ## Names as joined parts -/

/-- The name of a table within its database. -/
def localParts (schema : Option String) (table : String) : List String :=
  schema.toList ++ [table]

/-- No part of a table's name contains the separator. -/
structure DotFree (db : String) (schema : Option String) (table : String) :
    Prop where
  db : '.' ∉ db.toList
  schema : ∀ s ∈ schema, '.' ∉ s.toList
  table : '.' ∉ table.toList

theorem DotFree.of_mem_localParts {db table name : String}
    {schema : Option String} (h : DotFree db schema table)
    (hname : name ∈ localParts schema table) : '.' ∉ name.toList := by
  rcases List.mem_append.mp hname with hschema | htable
  · exact h.schema name (Option.mem_toList.mp hschema)
  · rw [List.mem_singleton.mp htable]
    exact h.table

theorem localParts_inj {schema schema' : Option String}
    {table table' : String} :
    localParts schema table = localParts schema' table' ↔
      schema = schema' ∧ table = table' := by
  cases schema <;> cases schema' <;> simp [localParts]

theorem intercalate_localParts_inj {db db' table table' : String}
    {schema schema' : Option String} (h : DotFree db schema table)
    (h' : DotFree db' schema' table') :
    ".".intercalate (localParts schema table) =
        ".".intercalate (localParts schema' table') ↔
      schema = schema' ∧ table = table' := by
  rw [← localParts_inj]
  constructor
  · apply intercalate_singleton_injective (c := '.')
    · simp [localParts]
    · simp [localParts]
    · exact fun _ => h.of_mem_localParts
    · exact fun _ => h'.of_mem_localParts
  · exact congrArg _

namespace DebeziumNaming

theorem topicName_eq (pre : String) (schema : Option String) (table : String) :
    topicName pre schema table =
      pre ++ ("." ++ ".".intercalate (localParts schema table)) := by
  cases schema <;> simp [topicName, localParts, String.intercalate_cons_cons,
    String.append_assoc]

/-- Under one prefix the topic determines the schema and the table, and nothing
more. -/
theorem topicName_inj {pre db db' table table' : String}
    {schema schema' : Option String} (h : DotFree db schema table)
    (h' : DotFree db' schema' table') :
    topicName pre schema table = topicName pre schema' table' ↔
      schema = schema' ∧ table = table' := by
  rw [topicName_eq, topicName_eq, String.append_right_inj,
    String.append_right_inj]
  exact intercalate_localParts_inj h h'

end DebeziumNaming

/-! ## The topics of events -/

namespace ChangeEvent

theorem topicName_eq (self : ChangeEvent) (pre : String) :
    self.topicName pre = DebeziumNaming.topicName pre
      self.payload.source.schema self.payload.source.table := by
  simp only [topicName, DebeziumNaming.topicName]

/-- The names in the source block of an event are free of dots. -/
def HasDotFreeNames (self : ChangeEvent) : Prop :=
  DotFree self.payload.source.db self.payload.source.schema
    self.payload.source.table

/-- A row of the table `users` of a MySQL database. -/
def usersRow (db : String) : ChangeEvent :=
  create (.object [("col_0", .ofInt 1)]) (SourceInfo.new .mysql db none "users" 0) 0

theorem topicName_usersRow :
    ¬((usersRow "shop").fullyQualifiedTable ≠
        (usersRow "blog").fullyQualifiedTable →
      (usersRow "shop").topicName "opencdc" ≠
        (usersRow "blog").topicName "opencdc") := by
  decide

/-- Events of two tables share a topic exactly if the tables have the same
schema and name, in two databases. -/
theorem sameTopic_iff (pre : String) {a b : ChangeEvent}
    (ha : a.HasDotFreeNames) (hb : b.HasDotFreeNames)
    (hdiffer : a.fullyQualifiedTable ≠ b.fullyQualifiedTable) :
    a.topicName pre = b.topicName pre ↔
      a.payload.source.db ≠ b.payload.source.db ∧
        a.payload.source.schema = b.payload.source.schema ∧
          a.payload.source.table = b.payload.source.table := by
  rw [topicName_eq, topicName_eq, DebeziumNaming.topicName_inj ha hb]
  constructor
  · rintro ⟨hschema, htable⟩
    refine ⟨?_, hschema, htable⟩
    intro hdb
    apply hdiffer
    simp only [fullyQualifiedTable, hdb, hschema, htable]
  · rintro ⟨-, hschema, htable⟩
    exact ⟨hschema, htable⟩

theorem sameTopic_iff_usersRow :
    (usersRow "shop").topicName "opencdc" =
        (usersRow "blog").topicName "opencdc" ↔
      "shop" ≠ "blog" ∧ (none : Option String) = none ∧ "users" = "users" :=
  sameTopic_iff "opencdc" (a := usersRow "shop") (b := usersRow "blog")
    ⟨by decide, by simp [usersRow, create, new, SourceInfo.new], by decide⟩
    ⟨by decide, by simp [usersRow, create, new, SourceInfo.new], by decide⟩
    (by decide)

end ChangeEvent
end OpenCdc
