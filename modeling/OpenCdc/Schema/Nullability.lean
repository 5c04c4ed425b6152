import OpenCdc.Schema.Evolve

/-!
# Reports of nullability

Whether a field is optional is written in its attribute or, if the type is a
list, in the type.  The diff compares the attributes alone, an absent one as
different from `false`, and reports them with an absent one as `false`.
-/

namespace OpenCdc

/-- Read as `false` where it is absent, the attribute tells whether the field is
optional. -/
def DebeziumField.Truthful (field : DebeziumField) : Prop :=
  field.optional.getD false = field.isOptional

namespace SchemaEvolution

variable {a b : DebeziumSchema}

/-- The attributes of two fields differ exactly if one of the fields is optional,
and if they do, they tell which. -/
structure TellNullability (f g : DebeziumField) : Prop where
  differ : f.optional = g.optional ↔ f.isOptional = g.isOptional
  truthful : f.optional ≠ g.optional → f.Truthful ∧ g.Truthful

/-- The attribute is all there is where the type is a name. -/
theorem truthful_of_string {f : DebeziumField} {type : String}
    (h : f.fieldType = .string type) : f.Truthful := by
  rw [DebeziumField.Truthful, DebeziumField.isOptional, h]

/-- Of two fields with names for their types, only an absent attribute beside a
`false` one is a change that is none. -/
theorem tellNullability_iff_of_string {f g : DebeziumField}
    {type type' : String} (hf : f.fieldType = .string type)
    (hg : g.fieldType = .string type') :
    TellNullability f g ↔
      (f.optional.getD false = g.optional.getD false →
        f.optional = g.optional) := by
  have htruef := truthful_of_string hf
  have htrueg := truthful_of_string hg
  constructor
  · intro h hsame
    exact h.differ.mpr (htruef.symm.trans (hsame.trans htrueg))
  · intro h
    refine ⟨⟨fun hoptional => ?_, fun hsame => h ?_⟩,
      fun _ => ⟨htruef, htrueg⟩⟩
    · rw [← htruef, ← htrueg, hoptional]
    · exact htruef.trans (hsame.trans htrueg.symm)

theorem nullabilityChanged_mem_iff {name : String} {f g : DebeziumField}
    (ha : lastField a name = some f) (hb : lastField b name = some g)
    {sourceFields : Iteration (fieldMap a)}
    {targetFields : Iteration (fieldMap b)} {wasOptional nowOptional : Bool} :
    .fieldNullabilityChanged name wasOptional nowOptional ∈
        (diff a b sourceFields targetFields).changes ↔
      f.optional ≠ g.optional ∧ wasOptional = f.optional.getD false ∧
        nowOptional = g.optional.getD false := by
  rw [mem_changes_diff_iff]
  constructor
  · intro h
    cases h with
    | nullability ha' hb' hdiffers =>
        rw [ha] at ha'
        rw [hb] at hb'
        cases ha'
        cases hb'
        exact ⟨hdiffers, rfl, rfl⟩
  · rintro ⟨hdiffers, rfl, rfl⟩
    exact .nullability ha hb hdiffers

/-- For a name that both schemas have, the diff reports the change of
nullability, and the one there is, exactly if the attributes tell it. -/
theorem reportsNullability_iff {name : String} {f g : DebeziumField}
    (ha : lastField a name = some f) (hb : lastField b name = some g)
    (sourceFields : Iteration (fieldMap a))
    (targetFields : Iteration (fieldMap b)) :
    (∀ wasOptional nowOptional,
        .fieldNullabilityChanged name wasOptional nowOptional ∈
            (diff a b sourceFields targetFields).changes ↔
          f.isOptional ≠ g.isOptional ∧ wasOptional = f.isOptional ∧
            nowOptional = g.isOptional) ↔
      TellNullability f g := by
  simp only [nullabilityChanged_mem_iff ha hb]
  constructor
  · intro h
    have hreported := fun hdiffers => (h _ _).mp ⟨hdiffers, rfl, rfl⟩
    have hneeded := fun hdiffers => (h _ _).mpr ⟨hdiffers, rfl, rfl⟩
    refine ⟨not_iff_not.mp ⟨?_, ?_⟩, ?_⟩
    · exact fun hdiffers => (hreported hdiffers).1
    · exact fun hdiffers => (hneeded hdiffers).1
    · exact fun hdiffers => (hreported hdiffers).2
  · intro h wasOptional nowOptional
    rw [Ne, Ne, h.differ]
    apply and_congr_right
    intro hdiffers
    obtain ⟨hf, hg⟩ := h.truthful (fun hsame => hdiffers (h.differ.mp hsame))
    rw [hf, hg]

/-- A column that becomes optional. -/
theorem reportsNullability_optionalName :
    .fieldNullabilityChanged "name" false true ∈
      (diff (table [.string "name"])
        (table [(DebeziumField.string "name").asOptional]) (inOrder _)
        (inOrder _)).changes := by
  have htell : TellNullability (.string "name")
      (DebeziumField.string "name").asOptional :=
    (tellNullability_iff_of_string rfl rfl).mpr (by decide)
  exact ((reportsNullability_iff rfl rfl (inOrder _) (inOrder _)).mpr htell
    false true).mpr (by decide)

/-- A column of which it is said that it is not optional. -/
def requiredName : DebeziumField :=
  { DebeziumField.string "name" with optional := some false }

/-- Saying so is taken for a change, and refused. -/
theorem not_reportsNullability_requiredName :
    (DebeziumField.string "name").isOptional = requiredName.isOptional ∧
      .fieldNullabilityChanged "name" false false ∈
        (diff (table [.string "name"]) (table [requiredName]) (inOrder _)
          (inOrder _)).changes ∧
      evolve .fail (table [.string "name"]) (table [requiredName]) (inOrder _)
          (inOrder _) =
        .error [.fieldNullabilityChanged "name" false false] := by
  refine ⟨rfl, ?_, rfl⟩
  exact List.mem_singleton.mpr rfl

end SchemaEvolution
end OpenCdc
