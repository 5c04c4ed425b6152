import OpenCdc.Core.Schema
import OpenCdc.Foundation.Registry

/-!
# Schema evolution

`SchemaEvolution::diff` compares two schemas field by field.  It reads the
fields through hash maps, in which the last field of a name stays, and walks
them in the order in which the maps happen to be iterated.
-/

namespace OpenCdc

open Foundation

inductive SchemaChange where
  | fieldAdded (field : DebeziumField)
  | fieldRemoved (field : DebeziumField)
  | fieldTypeChanged (field : String) (oldType newType : DebeziumSchemaType)
  | fieldNullabilityChanged (field : String) (wasOptional nowOptional : Bool)

structure SchemaDiff where
  changes : List SchemaChange
  isBreaking : Bool

namespace SchemaEvolution

/-! ## The diff -/

abbrev FieldMap := Registry String DebeziumField

def fieldMap (schema : DebeziumSchema) : FieldMap :=
  Registry.ofList (·.fieldName) (schema.fields.getD [])

/-- The entries of a map in the order of an iteration. -/
structure Iteration (m : FieldMap) where
  entries : List (Σ _ : String, DebeziumField)
  perm : entries.Perm m.entries

/-- What the second loop finds for a field of the source, and whether it
breaks. -/
def compareField (name : String) (field : DebeziumField) :
    Option DebeziumField → List SchemaChange × Bool
  | none => ([.fieldRemoved field], true)
  | some targetField =>
      let sourceType := field.resolveType
      let targetType := targetField.resolveType
      let typeChanges :=
        if sourceType ≠ targetType then
          [.fieldTypeChanged name sourceType targetType]
        else []
      let nullabilityChanges :=
        if field.optional ≠ targetField.optional then
          [.fieldNullabilityChanged name (field.optional.getD false)
            (targetField.optional.getD false)]
        else []
      (typeChanges ++ nullabilityChanges,
        decide (sourceType ≠ targetType) ||
          decide (field.optional = some false ∧
            targetField.optional = some true))

def diff (source target : DebeziumSchema)
    (sourceFields : Iteration (fieldMap source))
    (targetFields : Iteration (fieldMap target)) : SchemaDiff where
  changes :=
    (targetFields.entries.filterMap fun entry =>
      if entry.1 ∈ fieldMap source then none
      else some (.fieldAdded entry.2)) ++
    sourceFields.entries.flatMap fun entry =>
      (compareField entry.1 entry.2
        ((fieldMap target).lookup entry.1)).1
  isBreaking := sourceFields.entries.any fun entry =>
    (compareField entry.1 entry.2 ((fieldMap target).lookup entry.1)).2

/-! ## When it reports nothing -/

theorem compareField_fst_eq_nil_iff {name : String} {field : DebeziumField}
    {target : Option DebeziumField} :
    (compareField name field target).1 = [] ↔
      ∃ targetField, target = some targetField ∧
        field.resolveType = targetField.resolveType ∧
        field.optional = targetField.optional := by
  cases target with
  | none => simp [compareField]
  | some targetField =>
      simp only [compareField, List.append_eq_nil_iff, Option.some.injEq,
        exists_eq_left']
      split_ifs <;> simp_all

theorem mem_entries_iff {m : FieldMap} (iteration : Iteration m)
    {name : String} {field : DebeziumField} :
    ⟨name, field⟩ ∈ iteration.entries ↔ m.lookup name = some field := by
  rw [iteration.perm.mem_iff, ← Option.mem_def, AList.mem_lookup_iff]

/-- In whatever order the maps are iterated, nothing is reported exactly if the
two have the same names and agree on each in type and in `optional`. -/
theorem changes_diff_eq_nil_iff {source target : DebeziumSchema}
    {sourceFields : Iteration (fieldMap source)}
    {targetFields : Iteration (fieldMap target)} :
    (diff source target sourceFields targetFields).changes = [] ↔
      (∀ name ∈ fieldMap target, name ∈ fieldMap source) ∧
        ∀ name field, (fieldMap source).lookup name = some field →
          ∃ targetField, (fieldMap target).lookup name = some targetField ∧
            field.resolveType = targetField.resolveType ∧
            field.optional = targetField.optional := by
  simp only [diff, List.append_eq_nil_iff, List.filterMap_eq_nil_iff,
    List.flatMap_eq_nil_iff, compareField_fst_eq_nil_iff]
  refine and_congr ?_ ?_
  · constructor
    · intro h name hname
      obtain ⟨field, hfield⟩ := AList.lookup_isSome.mpr hname |>
        Option.isSome_iff_exists.mp
      have hentry := h ⟨name, field⟩ ((mem_entries_iff targetFields).mpr hfield)
      by_contra hnotMem
      simp [hnotMem] at hentry
    · rintro h ⟨name, field⟩ hentry
      have hname : name ∈ fieldMap target := by
        rw [← AList.lookup_isSome, (mem_entries_iff targetFields).mp hentry]
        rfl
      rw [if_pos (h name hname)]
  · constructor
    · intro h name field hfield
      exact h ⟨name, field⟩ ((mem_entries_iff sourceFields).mpr hfield)
    · rintro h ⟨name, field⟩ hentry
      exact h name field ((mem_entries_iff sourceFields).mp hentry)

end SchemaEvolution
end OpenCdc
