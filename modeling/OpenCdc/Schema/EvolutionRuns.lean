import OpenCdc.Schema.Evolve

/-!
# Evolving a schema again and again

A schema that is evolved by one source after the other keeps its columns and
takes each new name from the first source that brings it.  Whether the order of
the sources matters is decided by the names that they share.
-/

namespace OpenCdc
namespace SchemaEvolution

open Foundation

variable {policy : EvolutionPolicy} {current source final : DebeziumSchema}
  {sources : List DebeziumSchema}

/-! ## Runs -/

/-- The schema evolves by a source, in some order of the maps. -/
def EvolvesBy (policy : EvolutionPolicy) (source current evolved :
    DebeziumSchema) : Prop :=
  ∃ currentFields sourceFields,
    evolve policy current source currentFields sourceFields = .ok evolved

/-- The schema evolves by the sources, one after the other. -/
inductive EvolvesTo (policy : EvolutionPolicy) :
    DebeziumSchema → List DebeziumSchema → DebeziumSchema → Prop
  | done (current : DebeziumSchema) : EvolvesTo policy current [] current
  | step {source current evolved final : DebeziumSchema}
      {sources : List DebeziumSchema}
      (hstep : EvolvesBy policy source current evolved)
      (hrest : EvolvesTo policy evolved sources final) :
      EvolvesTo policy current (source :: sources) final

theorem evolvesTo_nil_iff :
    EvolvesTo policy current [] final ↔ final = current := by
  constructor
  · rintro ⟨⟩
    rfl
  · rintro rfl
    exact EvolvesTo.done _

theorem evolvesTo_cons_iff :
    EvolvesTo policy current (source :: sources) final ↔
      ∃ evolved, EvolvesBy policy source current evolved ∧
        EvolvesTo policy evolved sources final := by
  constructor
  · rintro ⟨⟩
    next evolved hstep hrest => exact ⟨evolved, hstep, hrest⟩
  · rintro ⟨evolved, hstep, hrest⟩
    exact EvolvesTo.step hstep hrest

/-! ## What a run adds -/

/-- The field under a name in the first source that has one. -/
def broughtBy (sources : List DebeziumSchema) (name : String) :
    Option DebeziumField :=
  sources.findSome? fun source => lastField source name

/-- A run has added the new names of its sources, each as the first source
brings it. -/
structure Merged (current : DebeziumSchema) (sources : List DebeziumSchema)
    (added : List DebeziumField) (final : DebeziumSchema) : Prop where
  fields : fieldsOf final = fieldsOf current ++ added
  frame : final = { current with fields := final.fields }
  once : (added.map (·.fieldName)).Nodup
  mem_iff : ∀ f, f ∈ added ↔
    f.fieldName ∉ fieldNames current ∧
      broughtBy sources f.fieldName = some f

theorem broughtBy_cons (source : DebeziumSchema) (sources : List DebeziumSchema)
    (name : String) :
    broughtBy (source :: sources) name =
      (lastField source name).or (broughtBy sources name) := by
  rw [broughtBy, List.findSome?_cons]
  rcases lastField source name with _ | f
  · rfl
  · rfl

theorem exists_evolvesBy (h : policy ≠ .fail)
    (source current : DebeziumSchema) :
    ∃ evolved, EvolvesBy policy source current evolved := by
  obtain ⟨evolved, hok, -⟩ := @exists_evolve_eq_ok current source policy h
    (inOrder _) (inOrder _)
  exact ⟨evolved, _, _, hok⟩

theorem exists_evolvesTo (h : policy ≠ .fail) (current : DebeziumSchema)
    (sources : List DebeziumSchema) :
    ∃ final, EvolvesTo policy current sources final := by
  induction sources generalizing current with
  | nil => exact ⟨current, EvolvesTo.done current⟩
  | cons source sources ih =>
      obtain ⟨evolved, hstep⟩ := exists_evolvesBy h source current
      obtain ⟨final, hrest⟩ := ih evolved
      exact ⟨final, EvolvesTo.step hstep hrest⟩

/-- One evolution in front of a run. -/
theorem Merged.step {evolved : DebeziumSchema} {added added' : List DebeziumField}
    (hadded : Additions current source added)
    (hevolved : Evolved current added evolved)
    (hrest : Merged evolved sources added' final) :
    Merged current (source :: sources) (added ++ added') final := by
  have hnames : fieldNames evolved =
      fieldNames current ++ added.map (·.fieldName) := by
    rw [fieldNames, hevolved.fields, List.map_append]
    rfl
  constructor
  · rw [hrest.fields, hevolved.fields, List.append_assoc]
  · rw [hrest.frame, hevolved.frame]
  · rw [List.map_append, List.nodup_append]
    refine ⟨hadded.once, hrest.once, ?_⟩
    rintro name hname name' hname' rfl
    obtain ⟨f, hf, rfl⟩ := List.mem_map.mp hname'
    apply ((hrest.mem_iff f).mp hf).1
    rw [hnames]
    exact List.mem_append_right _ hname
  · intro f
    rw [List.mem_append, hadded.mem_iff, hrest.mem_iff, hnames, broughtBy_cons]
    rcases hlast : lastField source f.fieldName with _ | g
    · -- the source does not have the name, and nothing was added under it
      have hnotMem : f.fieldName ∉ added.map (·.fieldName) := by
        intro hmem
        obtain ⟨g, hg, hname⟩ := List.mem_map.mp hmem
        have hfound := ((hadded.mem_iff g).mp hg).1
        rw [hname, hlast] at hfound
        cases hfound
      simp [hnotMem]
    · by_cases hcurrent : f.fieldName ∈ fieldNames current
      · simp [hcurrent]
      · have hmem : f.fieldName ∈ added.map (·.fieldName) := by
          have hg : g.fieldName = f.fieldName := fieldName_of_lastField hlast
          rw [← hg]
          apply List.mem_map_of_mem
          rw [hadded.mem_iff, hg]
          exact ⟨hlast, hcurrent⟩
        simp [hcurrent, hmem]

/-- The run keeps the columns where they are, and behind them stands under each
new name what the first source with that name brought. -/
theorem EvolvesTo.merged (h : policy ≠ .fail)
    (hrun : EvolvesTo policy current sources final) :
    ∃ added, Merged current sources added final := by
  induction hrun with
  | done current =>
      refine ⟨[], (List.append_nil _).symm, rfl, List.nodup_nil, ?_⟩
      intro f
      simp [broughtBy]
  | step hstep _ ih =>
      obtain ⟨currentFields, sourceFields, hok⟩ := hstep
      obtain ⟨evolved, hok', hevolved⟩ :=
        exists_evolve_eq_ok h currentFields sourceFields
      rw [hok'] at hok
      rw [← Except.ok.inj hok] at ih
      obtain ⟨added', hmerged⟩ := ih
      exact ⟨_, hmerged.step (additions_spec currentFields sourceFields) hevolved⟩

/-! ## The order of the sources -/

/-- However the sources are ordered and the maps are iterated, the columns are
the same up to their order. -/
def OrderFree (policy : EvolutionPolicy) (current : DebeziumSchema)
    (sources : List DebeziumSchema) : Prop :=
  ∀ front back, front.Perm sources → back.Perm sources →
    ∀ final final', EvolvesTo policy current front final →
      EvolvesTo policy current back final' →
        (fieldsOf final).Perm (fieldsOf final')

/-- Under a name that is new, all sources that have it have the same field. -/
def AgreeOnNew (current : DebeziumSchema) (sources : List DebeziumSchema) :
    Prop :=
  ∀ a ∈ sources, ∀ b ∈ sources, ∀ name, name ∉ fieldNames current →
    ∀ f g, lastField a name = some f → lastField b name = some g → f = g

theorem broughtBy_eq_of_perm {sources' : List DebeziumSchema}
    (hagree : AgreeOnNew current sources) (hperm : sources'.Perm sources)
    {name : String} (hname : name ∉ fieldNames current) :
    broughtBy sources' name = broughtBy sources name := by
  rcases hbrought : broughtBy sources' name with _ | f
  · symm
    apply List.findSome?_eq_none_iff.mpr
    intro source hsource
    exact List.findSome?_eq_none_iff.mp hbrought source
      (hperm.mem_iff.mpr hsource)
  · obtain ⟨a, ha, hf⟩ := List.exists_of_findSome?_eq_some hbrought
    have hfound : (broughtBy sources name).isSome := by
      rw [broughtBy, List.findSome?_isSome_iff]
      exact ⟨a, hperm.mem_iff.mp ha, by rw [hf]; rfl⟩
    obtain ⟨g, hg⟩ := Option.isSome_iff_exists.mp hfound
    obtain ⟨b, hb, hg'⟩ := List.exists_of_findSome?_eq_some hg
    rw [hg, hagree a (hperm.mem_iff.mp ha) b hb name hname f g hf hg']

theorem exists_perm_cons {source : DebeziumSchema} (h : source ∈ sources) :
    ∃ rest, (source :: rest).Perm sources := by
  obtain ⟨front, back, rfl⟩ := List.append_of_mem h
  exact ⟨front ++ back, List.perm_middle.symm⟩

/-- The order of the sources does not matter exactly if they agree on what they
bring. -/
theorem orderFree_iff (h : policy ≠ .fail) (current : DebeziumSchema)
    (sources : List DebeziumSchema) :
    OrderFree policy current sources ↔ AgreeOnNew current sources := by
  constructor
  · intro hfree a ha b hb name hname f g hf hg
    -- one run meets `a` first, the other `b`
    obtain ⟨front, hfront⟩ := exists_perm_cons ha
    obtain ⟨back, hback⟩ := exists_perm_cons hb
    obtain ⟨final, hrun⟩ := exists_evolvesTo h current (a :: front)
    obtain ⟨final', hrun'⟩ := exists_evolvesTo h current (b :: back)
    obtain ⟨added, hmerged⟩ := hrun.merged h
    obtain ⟨added', hmerged'⟩ := hrun'.merged h
    have hperm := hfree _ _ hfront hback _ _ hrun hrun'
    rw [hmerged.fields, hmerged'.fields] at hperm
    have hsame := (List.perm_append_left_iff _).mp hperm
    have hfname : f.fieldName = name := fieldName_of_lastField hf
    have hmem : f ∈ added := by
      rw [hmerged.mem_iff, hfname, broughtBy_cons, hf]
      exact ⟨hname, rfl⟩
    have hbrought := ((hmerged'.mem_iff f).mp (hsame.mem_iff.mp hmem)).2
    rw [hfname, broughtBy_cons, hg] at hbrought
    exact (Option.some.inj hbrought).symm
  · intro hagree front back hfront hback final final' hrun hrun'
    obtain ⟨added, hmerged⟩ := hrun.merged h
    obtain ⟨added', hmerged'⟩ := hrun'.merged h
    rw [hmerged.fields, hmerged'.fields]
    apply List.Perm.append_left
    apply (List.perm_ext_iff_of_nodup hmerged.once.of_map
      hmerged'.once.of_map).mpr
    intro f
    rw [hmerged.mem_iff, hmerged'.mem_iff]
    apply and_congr_right
    intro hname
    rw [broughtBy_eq_of_perm hagree hfront hname,
      broughtBy_eq_of_perm hagree hback hname]

/-- Two sources that bring one name, optional in one of them. -/
theorem not_orderFree_users :
    ¬OrderFree .autoAdd users [namedUsers, reachableUsers] := by
  intro hfree
  have hagree := (orderFree_iff (by decide) users _).mp hfree
  have hsame := hagree namedUsers (by simp) reachableUsers (by simp) "name"
    (by decide) _ _ rfl rfl
  exact absurd (congrArg DebeziumField.optional hsame) (by decide)

/-! ## The policy that refuses -/

theorem not_breakingDrift {a b : DebeziumSchema}
    (h : ∀ name, (lastField a name).map fieldFace =
      (lastField b name).map fieldFace) : ¬BreakingDrift a b := by
  have hface : ∀ {f g : DebeziumField}, lastField a f.fieldName = some f →
      lastField b f.fieldName = some g → fieldFace f = fieldFace g := by
    intro f g ha hb
    have hname := h f.fieldName
    rw [ha, hb] at hname
    exact Option.some.inj hname
  intro hdrift
  cases hdrift with
  | removed f ha hb =>
      have hname := h f.fieldName
      rw [ha, hb] at hname
      cases hname
  | type f g ha hb hdiffers =>
      exact hdiffers (congrArg FieldFace.fieldType (hface ha hb))
  | loosened f g ha hb hwas hnow =>
      have hoptional := congrArg FieldFace.optional (hface ha hb)
      rw [fieldFace, fieldFace, hwas, hnow] at hoptional
      cases hoptional

theorem evolvesBy_fail_iff {evolved : DebeziumSchema} :
    EvolvesBy .fail source current evolved ↔
      evolved = current ∧ ∀ name, (lastField current name).map fieldFace =
        (lastField source name).map fieldFace := by
  constructor
  · rintro ⟨currentFields, sourceFields, hok⟩
    unfold evolve at hok
    dsimp only at hok
    split_ifs at hok with hbreaking hchanges
    · rw [← changes_eq_nil_iff_fieldFace]
      exact ⟨(Except.ok.inj hok).symm, List.isEmpty_iff.mp hchanges⟩
  · rintro ⟨rfl, hsame⟩
    refine ⟨inOrder _, inOrder _, ?_⟩
    have hchanges := (@changes_eq_nil_iff_fieldFace evolved source (inOrder _)
      (inOrder _)).mpr hsame
    have hquiet : ¬(diff evolved source (inOrder _) (inOrder _)).isBreaking =
        true := fun hbreaks =>
      not_breakingDrift hsame (isBreaking_diff_iff.mp hbreaks)
    simp [evolve, hchanges, hquiet]

/-- Under the policy that refuses changes, a run goes through exactly if no
source shows any field differently, and it changes nothing. -/
theorem evolvesTo_fail_iff :
    EvolvesTo .fail current sources final ↔
      final = current ∧ ∀ source ∈ sources, ∀ name,
        (lastField current name).map fieldFace =
          (lastField source name).map fieldFace := by
  induction sources generalizing current with
  | nil => simp [evolvesTo_nil_iff]
  | cons source sources ih =>
      rw [evolvesTo_cons_iff, List.forall_mem_cons]
      constructor
      · rintro ⟨evolved, hstep, hrest⟩
        obtain ⟨rfl, hsame⟩ := evolvesBy_fail_iff.mp hstep
        obtain ⟨hfinal, hall⟩ := ih.mp hrest
        exact ⟨hfinal, hsame, hall⟩
      · rintro ⟨hfinal, hsame, hall⟩
        exact ⟨current, evolvesBy_fail_iff.mpr ⟨rfl, hsame⟩,
          ih.mpr ⟨hfinal, hall⟩⟩

end SchemaEvolution
end OpenCdc
