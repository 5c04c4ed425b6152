import OpenCdc.Schema.Changes

/-!
# Evolving a schema

`SchemaEvolution::evolve` adds the fields that a source has and the current
schema has not.  Evolving again changes nothing.  The fields are added in the
order in which the map of the source happens to be iterated, so that two
processes agree on the columns only if at most one is added.
-/

namespace OpenCdc

inductive EvolutionPolicy where
  | autoAdd
  | warn
  | fail
deriving DecidableEq, Repr

namespace SchemaEvolution

open Foundation

/-! ## `evolve` -/

/-- The loop over the changes that pushes the added fields. -/
def pushAdded (currentFields : List DebeziumField) :
    List SchemaChange → List DebeziumField
  | [] => currentFields
  | .fieldAdded field :: changes =>
      pushAdded (currentFields ++ [field]) changes
  | _ :: changes => pushAdded currentFields changes

def evolve (policy : EvolutionPolicy) (current source : DebeziumSchema)
    (currentFields : Iteration (fieldMap current))
    (sourceFields : Iteration (fieldMap source)) :
    Except (List SchemaChange) DebeziumSchema :=
  let diff := diff current source currentFields sourceFields
  if diff.isBreaking ∧ policy = .fail then .error diff.changes
  else if diff.changes.isEmpty then .ok current
  else
    match policy with
    | .autoAdd | .warn =>
        .ok { current with
          fields := some (pushAdded (current.fields.getD []) diff.changes) }
    | .fail => .error diff.changes

/-! ## The added fields -/

def addedField : SchemaChange → Option DebeziumField
  | .fieldAdded field => some field
  | _ => none

theorem addedField_eq_some_iff {change : SchemaChange} {field : DebeziumField} :
    addedField change = some field ↔ change = .fieldAdded field := by
  cases change with
  | fieldAdded added => simp [addedField]
  | fieldRemoved removed => simp [addedField]
  | fieldTypeChanged name oldType newType => simp [addedField]
  | fieldNullabilityChanged name wasOptional nowOptional => simp [addedField]

theorem addedField_eq_none_iff {change : SchemaChange} :
    addedField change = none ↔ change.kind ≠ .added := by
  cases change with
  | fieldAdded added => simp [addedField, SchemaChange.kind]
  | fieldRemoved removed => simp [addedField, SchemaChange.kind]
  | fieldTypeChanged name oldType newType =>
      simp [addedField, SchemaChange.kind]
  | fieldNullabilityChanged name wasOptional nowOptional =>
      simp [addedField, SchemaChange.kind]

theorem pushAdded_eq (fields : List DebeziumField)
    (changes : List SchemaChange) :
    pushAdded fields changes = fields ++ changes.filterMap addedField := by
  induction changes generalizing fields with
  | nil => simp [pushAdded]
  | cons change changes ih =>
      cases change with
      | fieldAdded field => simp [pushAdded, ih, addedField]
      | fieldRemoved field => exact ih fields
      | fieldTypeChanged field oldType newType => exact ih fields
      | fieldNullabilityChanged field wasOptional nowOptional => exact ih fields

/-- The fields that the source has and the current schema has not, each once
and the last of its name. -/
structure Additions (current source : DebeziumSchema)
    (added : List DebeziumField) : Prop where
  once : (added.map (·.fieldName)).Nodup
  mem_iff : ∀ f, f ∈ added ↔
    lastField source f.fieldName = some f ∧ f.fieldName ∉ fieldNames current

variable {current source : DebeziumSchema}

/-- What an evolution adds. -/
def additions (currentFields : Iteration (fieldMap current))
    (sourceFields : Iteration (fieldMap source)) : List DebeziumField :=
  (diff current source currentFields sourceFields).changes.filterMap addedField

theorem mem_additions_iff {currentFields : Iteration (fieldMap current)}
    {sourceFields : Iteration (fieldMap source)} {f : DebeziumField} :
    f ∈ additions currentFields sourceFields ↔
      .fieldAdded f ∈ (diff current source currentFields sourceFields).changes := by
  simp only [additions, List.mem_filterMap, addedField_eq_some_iff,
    exists_eq_right]

theorem sublist_labels (changes : List SchemaChange) :
    (((changes.filterMap addedField).map (·.fieldName)).map
        (Prod.mk ChangeKind.added)).Sublist
      (changes.map SchemaChange.label) := by
  induction changes with
  | nil => exact List.nil_sublist _
  | cons change changes ih =>
      rw [List.filterMap_cons]
      cases hadded : addedField change with
      | none => exact ih.cons _
      | some field =>
          rw [addedField_eq_some_iff.mp hadded]
          exact ih.cons_cons _

theorem additions_spec (currentFields : Iteration (fieldMap current))
    (sourceFields : Iteration (fieldMap source)) :
    Additions current source (additions currentFields sourceFields) := by
  constructor
  · have hlabels := (sublist_labels _).nodup
      (nodup_labels_changes currentFields sourceFields)
    exact hlabels.of_map
  · intro f
    rw [mem_additions_iff, mem_changes_diff_iff, ← lastField_eq_none_iff]
    constructor
    · intro h
      cases h with
      | added hcurrent hsource => exact ⟨hsource, hcurrent⟩
    · exact fun h => .added h.2 h.1

/-! ## Convergence -/

/-- The evolved schema has the fields of the current one and behind them what
was added; nothing else changes. -/
structure Evolved (current : DebeziumSchema) (added : List DebeziumField)
    (evolved : DebeziumSchema) : Prop where
  fields : fieldsOf evolved = fieldsOf current ++ added
  frame : evolved = { current with fields := evolved.fields }
  unchanged : added = [] → evolved = current

/-- A schema without fields differs from another in what is added. -/
theorem changes_eq_nil_of_additions_eq_nil
    {currentFields : Iteration (fieldMap current)}
    {sourceFields : Iteration (fieldMap source)}
    (hnone : current.fields = none)
    (hadded : additions currentFields sourceFields = []) :
    (diff current source currentFields sourceFields).changes = [] := by
  have hempty : ∀ name, lastField current name = none := by
    intro name
    rw [lastField, fieldsOf, hnone]
    rfl
  apply List.eq_nil_iff_forall_not_mem.mpr
  intro change hchange
  have hreported := mem_changes_diff_iff.mp hchange
  cases hreported with
  | added hcurrent hsource =>
      have hmem := mem_additions_iff.mpr hchange
      rw [hadded] at hmem
      cases hmem
  | removed hcurrent _ =>
      rw [hempty] at hcurrent
      cases hcurrent
  | type hcurrent _ _ =>
      rw [hempty] at hcurrent
      cases hcurrent
  | nullability hcurrent _ _ =>
      rw [hempty] at hcurrent
      cases hcurrent

theorem exists_evolve_eq_ok {policy : EvolutionPolicy} (h : policy ≠ .fail)
    (currentFields : Iteration (fieldMap current))
    (sourceFields : Iteration (fieldMap source)) :
    ∃ evolved, evolve policy current source currentFields sourceFields =
        .ok evolved ∧
      Evolved current (additions currentFields sourceFields) evolved := by
  unfold evolve
  dsimp only
  rw [if_neg fun hfail => h hfail.2]
  split_ifs with hchanges
  · have hadded : additions currentFields sourceFields = [] := by
      rw [additions, List.isEmpty_iff.mp hchanges]
      rfl
    refine ⟨current, rfl, ?_, rfl, fun _ => rfl⟩
    rw [hadded, List.append_nil]
  · refine ⟨{ current with fields := some (fieldsOf current ++
      additions currentFields sourceFields) }, ?_, rfl, rfl, ?_⟩
    · rw [pushAdded_eq]
      cases policy with
      | autoAdd => rfl
      | warn => rfl
      | fail => exact absurd rfl h
    · intro hadded
      cases hfields : current.fields with
      | none =>
          have hnil := changes_eq_nil_of_additions_eq_nil hfields hadded
          exact absurd (List.isEmpty_iff.mpr hnil) hchanges
      | some fields =>
          rw [hadded, List.append_nil, fieldsOf, hfields, Option.getD_some,
            ← hfields]

/-- Every name of the source is one of the evolved schema. -/
theorem mem_fieldNames_of_evolved {added : List DebeziumField}
    {evolved : DebeziumSchema} (hadded : Additions current source added)
    (hevolved : Evolved current added evolved) {name : String}
    (h : name ∈ fieldNames source) : name ∈ fieldNames evolved := by
  rw [fieldNames, hevolved.fields, List.map_append, List.mem_append]
  by_cases hcurrent : name ∈ fieldNames current
  · exact .inl hcurrent
  · obtain ⟨f, hf⟩ := exists_lastEntry h
    have hname := fieldName_of_lastField hf
    subst hname
    exact .inr (List.mem_map_of_mem ((hadded.mem_iff f).mpr ⟨hf, hcurrent⟩))

/-- Nothing is added to a schema that has all names. -/
theorem additions_eq_nil (h : ∀ name ∈ fieldNames source,
      name ∈ fieldNames current) (currentFields : Iteration (fieldMap current))
    (sourceFields : Iteration (fieldMap source)) :
    additions currentFields sourceFields = [] := by
  apply List.eq_nil_iff_forall_not_mem.mpr
  intro f hf
  obtain ⟨hsource, hcurrent⟩ :=
    ((additions_spec currentFields sourceFields).mem_iff f).mp hf
  apply hcurrent
  apply h
  by_contra hname
  rw [lastField_eq_none_iff.mpr hname] at hsource
  cases hsource

/-- Evolving adds what the source has and the current schema has not, and
evolving again changes nothing, in whatever order the maps are iterated. -/
theorem evolve_converges {policy : EvolutionPolicy} (h : policy ≠ .fail)
    (current source : DebeziumSchema)
    (currentFields : Iteration (fieldMap current))
    (sourceFields : Iteration (fieldMap source)) :
    ∃ added evolved,
      evolve policy current source currentFields sourceFields = .ok evolved ∧
      Additions current source added ∧ Evolved current added evolved ∧
      ∀ (evolvedFields : Iteration (fieldMap evolved))
        (sourceFields' : Iteration (fieldMap source)),
        (∀ f, .fieldAdded f ∉
          (diff evolved source evolvedFields sourceFields').changes) ∧
        evolve policy evolved source evolvedFields sourceFields' =
          .ok evolved := by
  obtain ⟨evolved, hok, hevolved⟩ :=
    exists_evolve_eq_ok h currentFields sourceFields
  have hadded := additions_spec currentFields sourceFields
  refine ⟨_, evolved, hok, hadded, hevolved, ?_⟩
  intro evolvedFields sourceFields'
  have hnil := additions_eq_nil
    (fun name => mem_fieldNames_of_evolved hadded hevolved) evolvedFields
    sourceFields'
  constructor
  · intro f hf
    have hmem := mem_additions_iff.mpr hf
    rw [hnil] at hmem
    cases hmem
  · obtain ⟨again, hagain, hsame⟩ :=
      exists_evolve_eq_ok h evolvedFields sourceFields'
    rw [hagain, hsame.unchanged hnil]

/-- A table with the given columns. -/
def table (columns : List DebeziumField) : DebeziumSchema :=
  { oneColumn (.int32 "id") with fields := some columns }

def users : DebeziumSchema := table [.int32 "id"]

/-- The table with a column more, as in the tests. -/
def namedUsers : DebeziumSchema :=
  table [.int32 "id", (DebeziumField.string "name").asOptional]

theorem evolve_converges_namedUsers :
    ∃ added evolved,
      evolve .autoAdd users namedUsers (inOrder _) (inOrder _) = .ok evolved ∧
      Additions users namedUsers added ∧ Evolved users added evolved ∧
      ∀ (evolvedFields : Iteration (fieldMap evolved))
        (sourceFields : Iteration (fieldMap namedUsers)),
        (∀ f, .fieldAdded f ∉
          (diff evolved namedUsers evolvedFields sourceFields).changes) ∧
        evolve .autoAdd evolved namedUsers evolvedFields sourceFields =
          .ok evolved :=
  evolve_converges (by decide) users namedUsers (inOrder _) (inOrder _)

/-! ## The order of the columns -/

/-- The fields that are new, in the order in which the source lists them. -/
def newFields (current source : DebeziumSchema) : List DebeziumField :=
  (fieldsOf source).filter (·.fieldName ∉ fieldNames current)

/-- Any two evolutions agree on the order of the fields, and what is new stands
as the source lists it. -/
structure AgreeOnOrder (policy : EvolutionPolicy)
    (current source : DebeziumSchema) : Prop where
  agree : ∀ (currentFields currentFields' : Iteration (fieldMap current))
      (sourceFields sourceFields' : Iteration (fieldMap source)),
    (evolve policy current source currentFields sourceFields).map fieldsOf =
      (evolve policy current source currentFields' sourceFields').map fieldsOf
  listed : ∀ (currentFields : Iteration (fieldMap current))
      (sourceFields : Iteration (fieldMap source)),
    (evolve policy current source currentFields sourceFields).map fieldsOf =
      .ok (fieldsOf current ++ newFields current source)

theorem map_fieldsOf_evolve {policy : EvolutionPolicy} (h : policy ≠ .fail)
    (currentFields : Iteration (fieldMap current))
    (sourceFields : Iteration (fieldMap source)) :
    (evolve policy current source currentFields sourceFields).map fieldsOf =
      .ok (fieldsOf current ++ additions currentFields sourceFields) := by
  obtain ⟨evolved, hok, hevolved⟩ :=
    exists_evolve_eq_ok h currentFields sourceFields
  rw [hok, ← hevolved.fields]
  rfl

theorem additions_perm (hsource : (fieldNames source).Nodup)
    (currentFields : Iteration (fieldMap current))
    (sourceFields : Iteration (fieldMap source)) :
    (additions currentFields sourceFields).Perm (newFields current source) := by
  have hadded := additions_spec currentFields sourceFields
  apply (List.perm_ext_iff_of_nodup hadded.once.of_map
    (hsource.of_map.filter _)).mpr
  intro f
  rw [hadded.mem_iff, List.mem_filter, decide_eq_true_eq, lastField,
    lastEntry_eq_some_iff_of_nodup hsource, and_iff_left rfl]

/-- The additions stand as the iteration of the source meets them. -/
theorem additions_eq_filterMap (currentFields : Iteration (fieldMap current))
    (sourceFields : Iteration (fieldMap source)) :
    additions currentFields sourceFields =
      sourceFields.entries.filterMap fun entry =>
        if entry.1 ∈ fieldMap current then none else some entry.2 := by
  have hcompared : ((currentFields.entries.flatMap fun entry =>
      (compareField entry.1 entry.2
        ((fieldMap source).lookup entry.1)).1).filterMap addedField) = [] := by
    apply List.filterMap_eq_nil_iff.mpr
    intro change hchange
    obtain ⟨⟨name, f⟩, hentry, hchange⟩ := List.mem_flatMap.mp hchange
    rw [mem_entries_iff, lookup_fieldMap] at hentry
    rw [lookup_fieldMap] at hchange
    exact addedField_eq_none_iff.mpr
      ((mem_compareField_iff hentry).mp hchange).2.2
  rw [additions, diff, List.filterMap_append, hcompared, List.append_nil,
    List.filterMap_filterMap]
  apply List.filterMap_congr
  intro entry _
  split_ifs <;> rfl

/-- The same entries, met from the last to the first. -/
def Iteration.reversed {m : FieldMap} (iteration : Iteration m) : Iteration m :=
  ⟨iteration.entries.reverse, (List.reverse_perm _).trans iteration.perm⟩

theorem additions_reversed (currentFields : Iteration (fieldMap current))
    (sourceFields : Iteration (fieldMap source)) :
    additions currentFields sourceFields.reversed =
      (additions currentFields sourceFields).reverse := by
  rw [additions_eq_filterMap, additions_eq_filterMap, Iteration.reversed,
    List.filterMap_reverse]

theorem length_le_one_of_reverse_eq {α : Type} {xs : List α}
    (hnodup : xs.Nodup) (h : xs.reverse = xs) : xs.length ≤ 1 := by
  by_contra hlong
  have hfirst : xs[xs.length - 1 - 0] = xs[0] := by
    rw [← List.getElem_reverse (by rw [List.length_reverse]; omega)]
    simp only [h]
  have hindex := (List.Nodup.getElem_inj_iff hnodup).mp hfirst
  omega

theorem eq_of_perm_of_length_le_one {α : Type} {xs ys : List α}
    (h : xs.Perm ys) (hlength : ys.length ≤ 1) : xs = ys := by
  cases ys with
  | nil => exact h.eq_nil
  | cons y ys =>
      have hnil : ys = [] := by
        apply List.length_eq_zero_iff.mp
        rw [List.length_cons] at hlength
        omega
      subst hnil
      exact List.perm_singleton.mp h

/-- Two evolutions agree on the order exactly if there is at most one new
field. -/
theorem agreeOnOrder_iff {policy : EvolutionPolicy} (h : policy ≠ .fail)
    (hsource : (fieldNames source).Nodup) :
    AgreeOnOrder policy current source ↔
      (newFields current source).length ≤ 1 := by
  constructor
  · intro hagree
    have hsame := hagree.agree (inOrder _) (inOrder _) (inOrder _)
      (inOrder _).reversed
    rw [map_fieldsOf_evolve h, map_fieldsOf_evolve h, additions_reversed] at hsame
    have hreverse := List.append_cancel_left (Except.ok.inj hsame)
    rw [← (additions_perm hsource (inOrder (fieldMap current))
      (inOrder _)).length_eq]
    exact length_le_one_of_reverse_eq (additions_spec _ _).once.of_map
      hreverse.symm
  · intro hlength
    have hlisted : ∀ (currentFields : Iteration (fieldMap current))
        (sourceFields : Iteration (fieldMap source)),
        (evolve policy current source currentFields sourceFields).map fieldsOf =
          .ok (fieldsOf current ++ newFields current source) := by
      intro currentFields sourceFields
      have hadded := additions_perm hsource currentFields sourceFields
      rw [map_fieldsOf_evolve h, eq_of_perm_of_length_le_one hadded hlength]
    refine ⟨?_, hlisted⟩
    intro currentFields currentFields' sourceFields sourceFields'
    rw [hlisted, hlisted]

theorem agreeOnOrder_namedUsers : AgreeOnOrder .autoAdd users namedUsers :=
  (agreeOnOrder_iff (by decide) (by decide)).mpr (by decide)

/-- The table with two columns more. -/
def reachableUsers : DebeziumSchema :=
  table [.int32 "id", .string "name", .string "email"]

/-- Two processes that add the two columns in different orders. -/
theorem not_agreeOnOrder_reachableUsers :
    (∃ sourceFields sourceFields' : Iteration (fieldMap reachableUsers),
      (evolve .autoAdd users reachableUsers (inOrder _) sourceFields).map
          fieldNames = .ok ["id", "name", "email"] ∧
        (evolve .autoAdd users reachableUsers (inOrder _) sourceFields').map
          fieldNames = .ok ["id", "email", "name"]) ∧
      ¬AgreeOnOrder .autoAdd users reachableUsers := by
  constructor
  · exact ⟨(inOrder _).reversed, inOrder _, rfl, rfl⟩
  · intro h
    have hsame := congrArg (Except.map (List.map (·.fieldName)))
      (h.agree (inOrder _) (inOrder _) (inOrder _).reversed (inOrder _))
    have hnames : (["id", "name", "email"] : List String) =
      ["id", "email", "name"] := Except.ok.inj hsame
    exact absurd hnames (by decide)

end SchemaEvolution
end OpenCdc
