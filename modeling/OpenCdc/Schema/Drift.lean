import OpenCdc.Core.Arrow
import OpenCdc.Foundation.Forest
import OpenCdc.Schema.Evolution

/-!
# Schema drift

What `SchemaEvolution::diff` looks at, compared with everything that the
consumers of a schema read: the Arrow schema, and the fields of its structs at
every depth.
-/

namespace OpenCdc.SchemaEvolution

open Foundation DebeziumArrowMapper

/-! ## Schemas that describe the same data -/

def fieldsOf (schema : DebeziumSchema) : List DebeziumField :=
  schema.fields.getD []

def fieldNames (schema : DebeziumSchema) : List String :=
  (fieldsOf schema).map (·.fieldName)

def nestedFields (field : DebeziumField) : List DebeziumField :=
  field.fields.getD []

def isStruct (field : DebeziumField) : Bool := field.resolveType = .struct

/-- What is compared of a field below another. -/
structure FieldFace where
  fieldName : String
  fieldType : DebeziumSchemaType
  optional : Option Bool
deriving DecidableEq

def fieldFace (field : DebeziumField) : FieldFace :=
  ⟨field.fieldName, field.resolveType, field.optional⟩

/-- Nested fields agree in name, type and optionality at every depth. -/
abbrev NestedAgree : List DebeziumField → List DebeziumField → Prop :=
  Forest.Agree nestedFields fieldFace isStruct

/-- Names, types and nullability of the Arrow schema. -/
def arrowFaces (schema : DebeziumSchema) :
    List (String × Arrow.DataType × Bool) :=
  (SchemaBridge.debeziumToArrow schema).fields.map fun field =>
    (field.name, field.dataType, field.nullable)

structure DescribeSame (a b : DebeziumSchema) : Prop where
  arrow : arrowFaces a = arrowFaces b
  nested : ∀ f ∈ fieldsOf a, ∀ g ∈ fieldsOf b, f.fieldName = g.fieldName →
    isStruct f = true → isStruct g = true →
      NestedAgree (nestedFields f) (nestedFields g)

/-- The names are distinct, and those that both schemas have are listed in the
same order. -/
structure SameOrder (a b : DebeziumSchema) : Prop where
  left : (fieldNames a).Nodup
  right : (fieldNames b).Nodup
  order : (fieldNames a).filter (· ∈ fieldNames b) =
    (fieldNames b).filter (· ∈ fieldNames a)

/-! ## Drift -/

/-- A difference at the top level, of the kind that the diff looks for. -/
inductive VisibleDrift (a b : DebeziumSchema) : Prop
  | removed (name : String) (ha : name ∈ fieldNames a)
      (hb : name ∉ fieldNames b)
  | added (name : String) (ha : name ∉ fieldNames a)
      (hb : name ∈ fieldNames b)
  | type (f g : DebeziumField) (hf : f ∈ fieldsOf a) (hg : g ∈ fieldsOf b)
      (hname : f.fieldName = g.fieldName)
      (hdiffers : f.resolveType ≠ g.resolveType)
  | optional (f g : DebeziumField) (hf : f ∈ fieldsOf a) (hg : g ∈ fieldsOf b)
      (hname : f.fieldName = g.fieldName) (hdiffers : f.optional ≠ g.optional)

/-- A difference in the parameters of a decimal, or below a struct. -/
inductive HiddenDrift (a b : DebeziumSchema) : Prop
  | decimal (f g : DebeziumField) (hf : f ∈ fieldsOf a) (hg : g ∈ fieldsOf b)
      (hname : f.fieldName = g.fieldName)
      (htype : f.resolveType = .decimal) (htype' : g.resolveType = .decimal)
      (hdiffers : precision f.parameters ≠ precision g.parameters ∨
        scale f.parameters ≠ scale g.parameters)
  | nested (f g : DebeziumField) (hf : f ∈ fieldsOf a) (hg : g ∈ fieldsOf b)
      (hname : f.fieldName = g.fieldName) (htype : isStruct f = true)
      (htype' : isStruct g = true) (path : List ℕ)
      (hdiffers : Forest.DiffersBelow nestedFields fieldFace isStruct
        (nestedFields f) (nestedFields g) path)

theorem sizeOf_lt_of_mem_nestedFields (f : DebeziumField) :
    ∀ g ∈ nestedFields f, sizeOf g < sizeOf f := by
  obtain ⟨_, _, fields, _, _, _, _, _, _⟩ := f
  intro g hg
  cases fields with
  | none => simp [nestedFields] at hg
  | some fields =>
      have hlt := List.sizeOf_lt_of_mem (show g ∈ fields from hg)
      simp only [DebeziumField.mk.sizeOf_spec, Option.some.sizeOf_spec]
      omega

theorem nestedAgree_iff {fs gs : List DebeziumField} :
    NestedAgree fs gs ↔ ∀ path,
      ¬Forest.DiffersBelow nestedFields fieldFace isStruct fs gs path :=
  Forest.agree_iff sizeOf_lt_of_mem_nestedFields

/-! ## What the diff sees -/

theorem lookup_fieldMap_iff {schema : DebeziumSchema}
    (hnodup : (fieldNames schema).Nodup) {name : String}
    {field : DebeziumField} :
    (fieldMap schema).lookup name = some field ↔
      field ∈ fieldsOf schema ∧ field.fieldName = name := by
  rw [fieldMap, Registry.lookup_ofList]
  exact lastEntry_eq_some_iff_of_nodup hnodup

theorem mem_fieldMap_iff {schema : DebeziumSchema} {name : String} :
    name ∈ fieldMap schema ↔ name ∈ fieldNames schema := by
  rw [← AList.lookup_isSome, fieldMap, Registry.lookup_ofList,
    Option.isSome_iff_exists]
  constructor
  · rintro ⟨field, hfield⟩
    obtain ⟨hmem, rfl⟩ := mem_of_lastEntry hfield
    exact List.mem_map_of_mem hmem
  · exact exists_lastEntry

variable {a b : DebeziumSchema}

theorem changes_diff_eq_nil_iff_not_visibleDrift (hab : SameOrder a b)
    {sourceFields : Iteration (fieldMap a)}
    {targetFields : Iteration (fieldMap b)} :
    (diff a b sourceFields targetFields).changes = [] ↔ ¬VisibleDrift a b := by
  simp only [changes_diff_eq_nil_iff, mem_fieldMap_iff,
    lookup_fieldMap_iff hab.left, lookup_fieldMap_iff hab.right]
  constructor
  · rintro ⟨hadded, hfields⟩ hdrift
    have hcommon : ∀ f ∈ fieldsOf a, ∀ g ∈ fieldsOf b,
        f.fieldName = g.fieldName →
          f.resolveType = g.resolveType ∧ f.optional = g.optional := by
      intro f hf g hg hname
      obtain ⟨g', ⟨hg', hname'⟩, hagree⟩ := hfields f.fieldName f ⟨hf, rfl⟩
      have hsame : g' = g := List.inj_on_of_nodup_map hab.right hg' hg
        (hname'.trans hname)
      rwa [hsame] at hagree
    cases hdrift with
    | removed name ha hb =>
        obtain ⟨f, hf, rfl⟩ := List.mem_map.mp ha
        obtain ⟨g, ⟨hg, hname⟩, -⟩ := hfields f.fieldName f ⟨hf, rfl⟩
        exact hb (hname ▸ List.mem_map_of_mem hg)
    | added name ha hb => exact ha (hadded name hb)
    | type f g hf hg hname hdiffers =>
        exact hdiffers (hcommon f hf g hg hname).1
    | optional f g hf hg hname hdiffers =>
        exact hdiffers (hcommon f hf g hg hname).2
  · intro hdrift
    constructor
    · intro name hb
      by_contra ha
      exact hdrift (.added name ha hb)
    · rintro name f ⟨hf, rfl⟩
      have hb : f.fieldName ∈ fieldNames b := by
        by_contra hb
        exact hdrift (.removed _ (List.mem_map_of_mem hf) hb)
      obtain ⟨g, hg, hname⟩ := List.mem_map.mp hb
      refine ⟨g, ⟨hg, hname⟩, ?_, ?_⟩
      · by_contra htype
        exact hdrift (.type f g hf hg hname.symm htype)
      · by_contra hoptional
        exact hdrift (.optional f g hf hg hname.symm hoptional)

/-! ## What it does not see -/

theorem fieldNames_eq (hab : SameOrder a b) (hdrift : ¬VisibleDrift a b) :
    fieldNames a = fieldNames b := by
  have ha : (fieldNames a).filter (· ∈ fieldNames b) = fieldNames a := by
    apply List.filter_eq_self.mpr
    intro name hname
    apply decide_eq_true
    by_contra hb
    exact hdrift (.removed name hname hb)
  have hb : (fieldNames b).filter (· ∈ fieldNames a) = fieldNames b := by
    apply List.filter_eq_self.mpr
    intro name hname
    apply decide_eq_true
    by_contra ha
    exact hdrift (.added name ha hname)
  rw [← ha, hab.order, hb]

/-- Without visible drift the Arrow schemas differ only in decimals. -/
theorem arrowFaces_eq_iff (hab : SameOrder a b) (hdrift : ¬VisibleDrift a b) :
    arrowFaces a = arrowFaces b ↔
      ∀ f ∈ fieldsOf a, ∀ g ∈ fieldsOf b, f.fieldName = g.fieldName →
        f.resolveType = .decimal →
          precision f.parameters = precision g.parameters ∧
            scale f.parameters = scale g.parameters := by
  have hfaces : ∀ schema, arrowFaces schema = (fieldsOf schema).map fun field =>
      (field.fieldName, debeziumTypeToArrow field.resolveType field.parameters,
        field.optional.getD true) := by
    intro schema
    simp only [arrowFaces, SchemaBridge.debeziumToArrow, debeziumSchemaToArrow,
      List.map_map]
    rfl
  rw [hfaces, hfaces, map_eq_map_iff_of_map_key_eq (fieldNames_eq hab hdrift)
    hab.left]
  refine forall₂_congr fun f hf => forall₂_congr fun g hg => ?_
  apply imp_congr_right
  intro hname
  have htype : f.resolveType = g.resolveType := by
    by_contra htype
    exact hdrift (.type f g hf hg hname htype)
  have hoptional : f.optional = g.optional := by
    by_contra hoptional
    exact hdrift (.optional f g hf hg hname hoptional)
  rw [← htype, ← hoptional, ← hname, Prod.mk.injEq, Prod.mk.injEq,
    debeziumTypeToArrow_eq_iff]
  simp

theorem describeSame_iff_not_hiddenDrift (hab : SameOrder a b)
    (hdrift : ¬VisibleDrift a b) :
    DescribeSame a b ↔ ¬HiddenDrift a b := by
  constructor
  · intro hsame hhidden
    cases hhidden with
    | decimal f g hf hg hname htype _ hdiffers =>
        obtain ⟨hprecision, hscale⟩ := (arrowFaces_eq_iff hab hdrift).mp
          hsame.arrow f hf g hg hname htype
        exact hdiffers.elim (· hprecision) (· hscale)
    | nested f g hf hg hname htype htype' path hdiffers =>
        exact nestedAgree_iff.mp (hsame.nested f hf g hg hname htype htype') path
          hdiffers
  · intro hhidden
    refine ⟨(arrowFaces_eq_iff hab hdrift).mpr ?_, ?_⟩
    · intro f hf g hg hname htype
      have htype' : g.resolveType = .decimal := by
        by_contra hne
        exact hdrift (.type f g hf hg hname (by rw [htype]; exact Ne.symm hne))
      by_contra hdiffers
      exact hhidden (.decimal f g hf hg hname htype htype'
        (not_and_or.mp hdiffers))
    · intro f hf g hg hname htype htype'
      apply nestedAgree_iff.mpr
      intro path hdiffers
      exact hhidden (.nested f g hf hg hname htype htype' path hdiffers)

/-! ## Undetected drift -/

/-- A table with one column. -/
def oneColumn (column : DebeziumField) : DebeziumSchema where
  schemaType := .struct
  fields := some [column]
  optional := none
  name := none
  version := none
  doc := none
  field := none
  default := none
  parameters := none

def amount (scale : String) : DebeziumField :=
  { DebeziumField.new "amount" .decimal with
    parameters := some [("precision", "10"), ("scale", scale)] }

def inOrder (m : FieldMap) : Iteration m := ⟨m.entries, .refl _⟩

/-- An amount whose scale changes from cents to hundredths of a cent. -/
theorem amount_drift_undetected :
    SameOrder (oneColumn (amount "2")) (oneColumn (amount "4")) ∧
      (diff (oneColumn (amount "2")) (oneColumn (amount "4")) (inOrder _)
        (inOrder _)).changes = [] ∧
      ¬DescribeSame (oneColumn (amount "2")) (oneColumn (amount "4")) := by
  refine ⟨⟨by decide, by decide, by decide⟩, ?_, ?_⟩
  · decide
  · intro h
    have hscales : [("amount", Arrow.DataType.decimal128 10 2, true)] =
        [("amount", Arrow.DataType.decimal128 10 4, true)] := h.arrow
    exact absurd hscales (by simp)

/-- A silent diff means that the schemas describe the same data exactly if they
differ visibly, so that it is not silent, or have no hidden drift. -/
theorem silent_imp_describeSame_iff (hab : SameOrder a b)
    (sourceFields : Iteration (fieldMap a))
    (targetFields : Iteration (fieldMap b)) :
    ((diff a b sourceFields targetFields).changes = [] → DescribeSame a b) ↔
      VisibleDrift a b ∨ ¬HiddenDrift a b := by
  rw [changes_diff_eq_nil_iff_not_visibleDrift hab]
  by_cases hdrift : VisibleDrift a b
  · exact iff_of_true (fun h => absurd hdrift h) (.inl hdrift)
  · rw [describeSame_iff_not_hiddenDrift hab hdrift]
    constructor
    · exact fun h => .inr (h hdrift)
    · exact fun h _ => h.resolve_left hdrift

/-- The table of the tests with its only key, left as it is. -/
theorem silent_and_describeSame_id :
    (diff (oneColumn (.int32 "id")) (oneColumn (.int32 "id")) (inOrder _)
        (inOrder _)).changes = [] ∧
      DescribeSame (oneColumn (.int32 "id")) (oneColumn (.int32 "id")) := by
  have hsilent : (diff (oneColumn (.int32 "id")) (oneColumn (.int32 "id"))
      (inOrder _) (inOrder _)).changes = [] := by decide
  refine ⟨hsilent, (silent_imp_describeSame_iff
    ⟨by decide, by decide, by decide⟩ _ _).mpr (.inr ?_) hsilent⟩
  intro hdrift
  cases hdrift with
  | decimal f g hf hg hname htype _ _ =>
      rw [List.mem_singleton.mp hf] at htype
      exact absurd htype (by decide)
  | nested f g hf hg hname htype _ _ _ =>
      rw [List.mem_singleton.mp hf] at htype
      exact absurd htype (by decide)

end OpenCdc.SchemaEvolution
