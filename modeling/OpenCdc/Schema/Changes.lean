import OpenCdc.Schema.Drift

/-!
# What a diff reports

The changes of a diff, and whether it breaks, are determined by the last field
of each name in either schema, whatever the order of the iterations.  A diff in
the other direction is the mirror image.
-/

namespace OpenCdc

/-! ## Changes -/

inductive ChangeKind where
  | added
  | removed
  | typeChanged
  | nullabilityChanged
deriving DecidableEq

namespace SchemaChange

def kind : SchemaChange → ChangeKind
  | fieldAdded _ => .added
  | fieldRemoved _ => .removed
  | fieldTypeChanged _ _ _ => .typeChanged
  | fieldNullabilityChanged _ _ _ => .nullabilityChanged

/-- The name of the field that a change is about. -/
def fieldName : SchemaChange → String
  | fieldAdded field => field.fieldName
  | fieldRemoved field => field.fieldName
  | fieldTypeChanged field _ _ => field
  | fieldNullabilityChanged field _ _ => field

def label (change : SchemaChange) : ChangeKind × String :=
  (change.kind, change.fieldName)

/-- The change back. -/
def mirror : SchemaChange → SchemaChange
  | fieldAdded field => fieldRemoved field
  | fieldRemoved field => fieldAdded field
  | fieldTypeChanged field oldType newType =>
      fieldTypeChanged field newType oldType
  | fieldNullabilityChanged field wasOptional nowOptional =>
      fieldNullabilityChanged field nowOptional wasOptional

@[simp] theorem mirror_mirror (change : SchemaChange) :
    change.mirror.mirror = change := by
  cases change <;> rfl

theorem mirror_injective : Function.Injective mirror :=
  Function.LeftInverse.injective mirror_mirror

end SchemaChange

namespace SchemaEvolution

open Foundation

variable {a b : DebeziumSchema}

/-- The last field of a name, which is the one in the map. -/
def lastField (schema : DebeziumSchema) (name : String) :
    Option DebeziumField :=
  lastEntry (·.fieldName) name (fieldsOf schema)

theorem lookup_fieldMap (schema : DebeziumSchema) (name : String) :
    (fieldMap schema).lookup name = lastField schema name :=
  Registry.lookup_ofList _ _ _

theorem fieldName_of_lastField {schema : DebeziumSchema} {name : String}
    {f : DebeziumField} (h : lastField schema name = some f) :
    f.fieldName = name :=
  (mem_of_lastEntry h).2

theorem lastField_eq_none_iff {schema : DebeziumSchema} {name : String} :
    lastField schema name = none ↔ name ∉ fieldNames schema := by
  rw [← mem_fieldMap_iff, ← lookup_fieldMap, AList.lookup_eq_none]

/-- What a diff from one schema to another reports. -/
inductive Reported (a b : DebeziumSchema) : SchemaChange → Prop
  | added {f : DebeziumField} (ha : lastField a f.fieldName = none)
      (hb : lastField b f.fieldName = some f) : Reported a b (.fieldAdded f)
  | removed {f : DebeziumField} (ha : lastField a f.fieldName = some f)
      (hb : lastField b f.fieldName = none) : Reported a b (.fieldRemoved f)
  | type {name : String} {f g : DebeziumField} (ha : lastField a name = some f)
      (hb : lastField b name = some g) (h : f.resolveType ≠ g.resolveType) :
      Reported a b (.fieldTypeChanged name f.resolveType g.resolveType)
  | nullability {name : String} {f g : DebeziumField}
      (ha : lastField a name = some f) (hb : lastField b name = some g)
      (h : f.optional ≠ g.optional) :
      Reported a b (.fieldNullabilityChanged name (f.optional.getD false)
        (g.optional.getD false))

theorem Reported.mirror {change : SchemaChange} (h : Reported a b change) :
    Reported b a change.mirror := by
  cases h with
  | added ha hb => exact .removed hb ha
  | removed ha hb => exact .added hb ha
  | type ha hb h => exact .type hb ha h.symm
  | nullability ha hb h => exact .nullability hb ha h.symm

theorem reported_mirror_iff {change : SchemaChange} :
    Reported b a change.mirror ↔ Reported a b change :=
  ⟨fun h => change.mirror_mirror ▸ h.mirror, Reported.mirror⟩

/-! ## The two loops -/

theorem mem_compareField_iff {name : String} {f : DebeziumField}
    {change : SchemaChange} (ha : lastField a name = some f) :
    change ∈ (compareField name f (lastField b name)).1 ↔
      Reported a b change ∧ change.fieldName = name ∧ change.kind ≠ .added := by
  constructor
  · have hname := fieldName_of_lastField ha
    intro h
    cases hb : lastField b name with
    | none =>
        rw [hb, compareField, List.mem_singleton] at h
        subst h
        subst hname
        exact ⟨.removed ha hb, rfl, ChangeKind.noConfusion⟩
    | some g =>
        rw [hb, compareField, List.mem_append] at h
        rcases h with h | h
        · split_ifs at h with htype
          · rw [List.mem_singleton] at h
            subst h
            exact ⟨.type ha hb htype, rfl, ChangeKind.noConfusion⟩
          · cases h
        · split_ifs at h with hoptional
          · rw [List.mem_singleton] at h
            subst h
            exact ⟨.nullability ha hb hoptional, rfl, ChangeKind.noConfusion⟩
          · cases h
  · rintro ⟨hreported, rfl, hkind⟩
    cases hreported with
    | added _ _ => exact absurd rfl hkind
    | removed ha' hb' =>
        obtain rfl := Option.some.inj (ha'.symm.trans ha)
        simp [SchemaChange.fieldName, compareField, hb']
    | type ha' hb' htype =>
        obtain rfl := Option.some.inj (ha'.symm.trans ha)
        simp [SchemaChange.fieldName, compareField, hb', htype]
    | nullability ha' hb' hoptional =>
        obtain rfl := Option.some.inj (ha'.symm.trans ha)
        simp [SchemaChange.fieldName, compareField, hb', hoptional]

theorem mem_added_iff (targetFields : Iteration (fieldMap b))
    {change : SchemaChange} :
    (change ∈ targetFields.entries.filterMap fun entry =>
        if entry.1 ∈ fieldMap a then none
        else some (SchemaChange.fieldAdded entry.2)) ↔
      Reported a b change ∧ change.kind = .added := by
  rw [List.mem_filterMap]
  constructor
  · rintro ⟨⟨name, f⟩, hentry, hchange⟩
    rw [mem_entries_iff, lookup_fieldMap] at hentry
    split_ifs at hchange with hname
    obtain rfl := Option.some.inj hchange
    rw [mem_fieldMap_iff, ← lastField_eq_none_iff] at hname
    have hkey := fieldName_of_lastField hentry
    dsimp only at hname hkey
    subst hkey
    exact ⟨.added hname hentry, rfl⟩
  · rintro ⟨hreported, hkind⟩
    cases hreported with
    | @added f ha hb =>
        refine ⟨⟨f.fieldName, f⟩, ?_, ?_⟩
        · rw [mem_entries_iff, lookup_fieldMap]
          exact hb
        · rw [lastField_eq_none_iff, ← mem_fieldMap_iff] at ha
          exact if_neg ha
    | removed _ _ => cases hkind
    | type _ _ _ => cases hkind
    | nullability _ _ _ => cases hkind

/-- A diff reports what it should, in whatever order the maps are iterated. -/
theorem mem_changes_diff_iff {sourceFields : Iteration (fieldMap a)}
    {targetFields : Iteration (fieldMap b)} {change : SchemaChange} :
    change ∈ (diff a b sourceFields targetFields).changes ↔
      Reported a b change := by
  rw [diff, List.mem_append, mem_added_iff, List.mem_flatMap]
  simp only [lookup_fieldMap]
  constructor
  · rintro (⟨h, -⟩ | ⟨⟨name, f⟩, hentry, hchange⟩)
    · exact h
    · rw [mem_entries_iff, lookup_fieldMap] at hentry
      exact ((mem_compareField_iff hentry).mp hchange).1
  · intro h
    by_cases hkind : change.kind = .added
    · exact .inl ⟨h, hkind⟩
    · have hsource : ∃ f, lastField a change.fieldName = some f := by
        cases h with
        | added _ _ => exact absurd rfl hkind
        | removed ha _ => exact ⟨_, ha⟩
        | type ha _ _ => exact ⟨_, ha⟩
        | nullability ha _ _ => exact ⟨_, ha⟩
      obtain ⟨f, hf⟩ := hsource
      refine .inr ⟨⟨change.fieldName, f⟩, ?_, ?_⟩
      · rw [mem_entries_iff, lookup_fieldMap]
        exact hf
      · exact (mem_compareField_iff hf).mpr ⟨h, rfl, hkind⟩

/-! ## One change of a kind for a name -/

theorem nodup_names (iteration : Iteration (fieldMap a)) :
    (iteration.entries.map Sigma.fst).Nodup :=
  (iteration.perm.map Sigma.fst).nodup_iff.mpr (fieldMap a).nodupKeys

theorem nodup_labels_compareField (name : String) (f : DebeziumField)
    (target : Option DebeziumField) :
    ((compareField name f target).1.map SchemaChange.label).Nodup := by
  cases target with
  | none => exact List.nodup_singleton _
  | some g =>
      rw [compareField, List.map_append]
      split_ifs <;>
        simp [SchemaChange.label, SchemaChange.kind]

theorem label_of_mem_compareField {name : String} {f : DebeziumField}
    {label : ChangeKind × String} (ha : lastField a name = some f)
    (h : label ∈ (compareField name f (lastField b name)).1.map
      SchemaChange.label) :
    label.2 = name ∧ label.1 ≠ .added := by
  obtain ⟨change, hchange, rfl⟩ := List.mem_map.mp h
  exact ((mem_compareField_iff ha).mp hchange).2

theorem nodup_labels_added (targetFields : Iteration (fieldMap b)) :
    ((targetFields.entries.filterMap fun entry =>
        if entry.1 ∈ fieldMap a then none
        else some (SchemaChange.fieldAdded entry.2)).map
      SchemaChange.label).Nodup := by
  have hlabels : ((targetFields.entries.filterMap fun entry =>
        if entry.1 ∈ fieldMap a then none
        else some (SchemaChange.fieldAdded entry.2)).map
      SchemaChange.label).Sublist
        ((targetFields.entries.map Sigma.fst).map
          fun name => (ChangeKind.added, name)) := by
    have hentries : ∀ entry ∈ targetFields.entries,
        entry.2.fieldName = entry.1 := by
      rintro ⟨name, f⟩ hentry
      rw [mem_entries_iff, lookup_fieldMap] at hentry
      exact fieldName_of_lastField hentry
    generalize targetFields.entries = entries at hentries ⊢
    induction entries with
    | nil => exact List.nil_sublist _
    | cons entry entries ih =>
        have hentry := hentries entry List.mem_cons_self
        have hrest := ih fun e he => hentries e (List.mem_cons_of_mem _ he)
        rw [List.filterMap_cons, List.map_cons, List.map_cons]
        by_cases hmem : entry.1 ∈ fieldMap a
        · rw [if_pos hmem]
          exact hrest.cons _
        · rw [if_neg hmem, ← hentry]
          exact hrest.cons_cons _
  apply hlabels.nodup
  apply (nodup_names targetFields).map
  intro name name' h
  exact (Prod.mk.inj h).2

/-- A diff reports at most one change of each kind for a name. -/
theorem nodup_labels_changes (sourceFields : Iteration (fieldMap a))
    (targetFields : Iteration (fieldMap b)) :
    ((diff a b sourceFields targetFields).changes.map
      SchemaChange.label).Nodup := by
  have hlookup : ∀ entry ∈ sourceFields.entries,
      lastField a entry.1 = some entry.2 := by
    intro entry hentry
    rw [← lookup_fieldMap]
    exact (mem_entries_iff sourceFields).mp hentry
  rw [diff, List.map_append, List.nodup_append]
  simp only [lookup_fieldMap, List.map_flatMap]
  refine ⟨nodup_labels_added targetFields, List.nodup_flatMap.mpr ⟨?_, ?_⟩, ?_⟩
  · exact fun entry _ => nodup_labels_compareField _ _ _
  · have hpairwise := List.pairwise_map.mp (nodup_names sourceFields)
    refine hpairwise.imp_of_mem ?_
    intro entry entry' hentry hentry' hne label hlabel hlabel'
    have hname := (label_of_mem_compareField (hlookup _ hentry) hlabel).1
    have hname' := (label_of_mem_compareField (hlookup _ hentry') hlabel').1
    exact hne (hname.symm.trans hname')
  · intro label hadded label' hcompared heq
    obtain ⟨change, hchange, rfl⟩ := List.mem_map.mp hadded
    obtain ⟨entry, hentry, hlabel⟩ := List.mem_flatMap.mp hcompared
    have hkind := (label_of_mem_compareField (hlookup _ hentry) hlabel).2
    rw [← heq] at hkind
    exact hkind ((mem_added_iff targetFields).mp hchange).2

/-! ## The mirror image -/

/-- A diff breaks for one of these. -/
inductive BreakingDrift (a b : DebeziumSchema) : Prop
  | removed (f : DebeziumField) (ha : lastField a f.fieldName = some f)
      (hb : lastField b f.fieldName = none)
  | type (f g : DebeziumField) (ha : lastField a f.fieldName = some f)
      (hb : lastField b f.fieldName = some g)
      (hdiffers : f.resolveType ≠ g.resolveType)
  | loosened (f g : DebeziumField) (ha : lastField a f.fieldName = some f)
      (hb : lastField b f.fieldName = some g)
      (hwas : f.optional = some false) (hnow : g.optional = some true)

theorem isBreaking_diff_iff {sourceFields : Iteration (fieldMap a)}
    {targetFields : Iteration (fieldMap b)} :
    (diff a b sourceFields targetFields).isBreaking = true ↔
      BreakingDrift a b := by
  rw [diff, List.any_eq_true]
  simp only [lookup_fieldMap]
  constructor
  · rintro ⟨⟨name, f⟩, hentry, hbreaks⟩
    rw [mem_entries_iff, lookup_fieldMap] at hentry
    dsimp only at hbreaks
    obtain rfl := fieldName_of_lastField hentry
    cases hb : lastField b f.fieldName with
    | none => exact .removed f hentry hb
    | some g =>
        rw [hb, compareField, Bool.or_eq_true, decide_eq_true_eq,
          decide_eq_true_eq] at hbreaks
        rcases hbreaks with htype | ⟨hwas, hnow⟩
        · exact .type f g hentry hb htype
        · exact .loosened f g hentry hb hwas hnow
  · have hentry : ∀ {f : DebeziumField}, lastField a f.fieldName = some f →
        ⟨f.fieldName, f⟩ ∈ sourceFields.entries := by
      intro f hf
      rw [mem_entries_iff, lookup_fieldMap]
      exact hf
    intro h
    cases h with
    | removed f ha hb =>
        refine ⟨_, hentry ha, ?_⟩
        simp [hb, compareField]
    | type f g ha hb htype =>
        refine ⟨_, hentry ha, ?_⟩
        simp [hb, compareField, htype]
    | loosened f g ha hb hwas hnow =>
        refine ⟨_, hentry ha, ?_⟩
        simp [hb, compareField, hwas, hnow]

theorem changes_eq_nil_iff_fieldFace {sourceFields : Iteration (fieldMap a)}
    {targetFields : Iteration (fieldMap b)} :
    (diff a b sourceFields targetFields).changes = [] ↔
      ∀ name, (lastField a name).map fieldFace =
        (lastField b name).map fieldFace := by
  rw [changes_diff_eq_nil_iff]
  simp only [mem_fieldMap_iff, lookup_fieldMap]
  constructor
  · rintro ⟨hnames, hfields⟩ name
    cases ha : lastField a name with
    | none =>
        have hb : lastField b name = none := by
          rw [lastField_eq_none_iff] at ha ⊢
          exact fun hb => ha (hnames name hb)
        rw [hb]
    | some f =>
        obtain ⟨g, hb, htype, hoptional⟩ := hfields name f ha
        have hname : f.fieldName = g.fieldName :=
          (fieldName_of_lastField ha).trans (fieldName_of_lastField hb).symm
        rw [hb, Option.map_some, Option.map_some, fieldFace, fieldFace, hname,
          htype, hoptional]
  · intro h
    constructor
    · intro name hb
      by_contra ha
      have hface := h name
      rw [lastField_eq_none_iff.mpr ha, Option.map_none, eq_comm,
        Option.map_eq_none_iff, lastField_eq_none_iff] at hface
      exact hface hb
    · intro name f ha
      have hface := h name
      rw [ha, Option.map_some, eq_comm, Option.map_eq_some_iff] at hface
      obtain ⟨g, hb, hface⟩ := hface
      exact ⟨g, hb, (congrArg FieldFace.fieldType hface).symm,
        (congrArg FieldFace.optional hface).symm⟩

/-- A diff the other way is the mirror image up to the order.  Each change is
reported once, nothing is reported exactly if the maps agree, and the diff
breaks exactly if a field is removed, changes its type or becomes optional. -/
theorem diff_mirror (a b : DebeziumSchema)
    (sourceFields backTarget : Iteration (fieldMap a))
    (targetFields backSource : Iteration (fieldMap b)) :
    (diff b a backSource backTarget).changes.Perm
        ((diff a b sourceFields targetFields).changes.map
          SchemaChange.mirror) ∧
      ((diff a b sourceFields targetFields).changes.map
        SchemaChange.label).Nodup ∧
      ((diff a b sourceFields targetFields).changes = [] ↔
        ∀ name, (lastField a name).map fieldFace =
          (lastField b name).map fieldFace) ∧
      ((diff a b sourceFields targetFields).isBreaking = true ↔
        BreakingDrift a b) := by
  have hforth := nodup_labels_changes sourceFields targetFields
  have hback := nodup_labels_changes backSource backTarget
  refine ⟨?_, hforth, changes_eq_nil_iff_fieldFace, isBreaking_diff_iff⟩
  apply (List.perm_ext_iff_of_nodup hback.of_map
    (hforth.of_map.map SchemaChange.mirror_injective)).mpr
  intro change
  rw [mem_changes_diff_iff, ← reported_mirror_iff, List.mem_map]
  constructor
  · intro h
    exact ⟨change.mirror, mem_changes_diff_iff.mpr h, change.mirror_mirror⟩
  · rintro ⟨change', h, rfl⟩
    rw [SchemaChange.mirror_mirror]
    exact mem_changes_diff_iff.mp h

end SchemaEvolution
end OpenCdc
