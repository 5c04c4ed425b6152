import OpenCdc.Foundation.Renaming
import OpenCdc.Foundation.Stages
import OpenCdc.Pipeline.Delivery

/-!
# The transforms of a pipeline

A filter keeps the events of some operations, a renaming changes the names of
tables and databases, and a logging transform changes nothing.  The rules of a
renaming are applied one after the other, so that a rule can act on what another
one has made.
-/

namespace OpenCdc

open Foundation

/-! ## Filter, rename and log -/

structure FilterTransform where
  name : String
  includeOps : List Operation

def FilterTransform.transform (t : FilterTransform) : Transform := fun event =>
  if event.payload.op ∈ t.includeOps then .ok (some event) else .ok none

namespace ChangeEvent

/-- The event under another table. -/
def withTable (event : ChangeEvent) (table : String) : ChangeEvent :=
  { event with payload := { event.payload with
      source := { event.payload.source with table := table } } }

/-- The event under another database. -/
def withDb (event : ChangeEvent) (db : String) : ChangeEvent :=
  { event with payload := { event.payload with
      source := { event.payload.source with db := db } } }

end ChangeEvent

structure RenameTransform where
  name : String
  tableMap : List (String × String) := []
  dbMap : List (String × String) := []

namespace RenameTransform

def remapTable (t : RenameTransform) (source target : String) :
    RenameTransform :=
  { t with tableMap := t.tableMap ++ [(source, target)] }

def remapDatabase (t : RenameTransform) (source target : String) :
    RenameTransform :=
  { t with dbMap := t.dbMap ++ [(source, target)] }

/-- The loop over the rules for tables. -/
def renameTables (rules : List (String × String)) (event : ChangeEvent) :
    ChangeEvent :=
  rules.foldl (fun event rule =>
    if event.payload.source.table = rule.1 then event.withTable rule.2
    else event) event

/-- The loop over the rules for databases. -/
def renameDatabases (rules : List (String × String)) (event : ChangeEvent) :
    ChangeEvent :=
  rules.foldl (fun event rule =>
    if event.payload.source.db = rule.1 then event.withDb rule.2
    else event) event

def rename (t : RenameTransform) (event : ChangeEvent) : ChangeEvent :=
  renameDatabases t.dbMap (renameTables t.tableMap event)

def transform (t : RenameTransform) : Transform := fun event =>
  .ok (some (t.rename event))

end RenameTransform

structure LogTransform where
  name : String

def LogTransform.transform (_t : LogTransform) : Transform := fun event =>
  .ok (some event)

/-! ## Renamed events -/

namespace RenameTransform

theorem renameTables_eq (rules : List (String × String)) (event : ChangeEvent) :
    renameTables rules event =
      event.withTable (applyRules rules event.payload.source.table) :=
  foldl_eq_set_applyRules (fun e : ChangeEvent => e.payload.source.table)
    ChangeEvent.withTable
    (fun _ _ => rfl) (fun _ _ _ => rfl) (fun _ => rfl) rules event

theorem renameDatabases_eq (rules : List (String × String))
    (event : ChangeEvent) :
    renameDatabases rules event =
      event.withDb (applyRules rules event.payload.source.db) :=
  foldl_eq_set_applyRules (fun e : ChangeEvent => e.payload.source.db)
    ChangeEvent.withDb
    (fun _ _ => rfl) (fun _ _ _ => rfl) (fun _ => rfl) rules event

/-- A renaming changes the two names, each by its own rules. -/
theorem rename_eq (t : RenameTransform) (event : ChangeEvent) :
    t.rename event =
      (event.withTable (applyRules t.tableMap event.payload.source.table)).withDb
        (applyRules t.dbMap event.payload.source.db) := by
  rw [rename, renameTables_eq, renameDatabases_eq]
  rfl

/-- Every event gets the targets of the rules for its own names. -/
def RenamesOnce (t : RenameTransform) : Prop :=
  ∀ event, t.transform event = .ok (some
    ((event.withTable (targetOf t.tableMap event.payload.source.table)).withDb
      (targetOf t.dbMap event.payload.source.db)))

/-- The order in which the rules were added makes no difference. -/
def OrderFree (t : RenameTransform) : Prop :=
  ∀ t' : RenameTransform, t.tableMap.Perm t'.tableMap → t.dbMap.Perm t'.dbMap →
    ∀ event, t'.transform event = t.transform event

/-- An event of a table. -/
def eventOf (db table : String) : ChangeEvent :=
  .create (.bool true) (SourceInfo.new .postgres db none table 0) 0

/-- The names of renamed events tell how they were made. -/
theorem withNames_eq_iff {tableOf dbOf tableOf' dbOf' : String → String} :
    (∀ event : ChangeEvent,
      (event.withTable (tableOf event.payload.source.table)).withDb
          (dbOf event.payload.source.db) =
        (event.withTable (tableOf' event.payload.source.table)).withDb
          (dbOf' event.payload.source.db)) ↔
      (∀ name, tableOf name = tableOf' name) ∧
        ∀ name, dbOf name = dbOf' name := by
  constructor
  · intro h
    constructor
    · intro name
      exact congrArg (·.payload.source.table) (h (eventOf name name))
    · intro name
      exact congrArg (·.payload.source.db) (h (eventOf name name))
  · rintro ⟨htables, hdbs⟩ event
    rw [htables, hdbs]

theorem transform_eq_iff (t t' : RenameTransform) :
    (∀ event, t'.transform event = t.transform event) ↔
      (∀ name, applyRules t'.tableMap name = applyRules t.tableMap name) ∧
        ∀ name, applyRules t'.dbMap name = applyRules t.dbMap name := by
  simp only [transform, Except.ok.injEq, Option.some.injEq, rename_eq]
  exact withNames_eq_iff

theorem renamesOnce_iff_rules (t : RenameTransform) :
    t.RenamesOnce ↔
      (∀ name, applyRules t.tableMap name = targetOf t.tableMap name) ∧
        ∀ name, applyRules t.dbMap name = targetOf t.dbMap name := by
  simp only [RenamesOnce, transform, Except.ok.injEq, Option.some.injEq,
    rename_eq]
  exact withNames_eq_iff

theorem orderFree_iff_rules (t : RenameTransform) :
    t.OrderFree ↔
      (∀ rules, t.tableMap.Perm rules → ∀ name,
        applyRules rules name = applyRules t.tableMap name) ∧
      ∀ rules, t.dbMap.Perm rules → ∀ name,
        applyRules rules name = applyRules t.dbMap name := by
  constructor
  · intro h
    constructor
    · intro rules hperm
      have hsame := h { t with tableMap := rules } hperm (List.Perm.refl _)
      exact ((transform_eq_iff t _).mp hsame).1
    · intro rules hperm
      have hsame := h { t with dbMap := rules } (List.Perm.refl _) hperm
      exact ((transform_eq_iff t _).mp hsame).2
  · rintro ⟨htables, hdbs⟩ t' htable hdb
    exact (transform_eq_iff t t').mpr ⟨htables _ htable, hdbs _ hdb⟩

/-- Each event goes to the targets of its own names, in whatever order the rules
were added, exactly if no rule changes the target of another one. -/
theorem renamesOnce_iff {t : RenameTransform}
    (htables : (t.tableMap.map Prod.fst).Nodup)
    (hdbs : (t.dbMap.map Prod.fst).Nodup) :
    (t.RenamesOnce ∧ t.OrderFree) ↔ Settled t.tableMap ∧ Settled t.dbMap := by
  rw [renamesOnce_iff_rules, orderFree_iff_rules, ← settled_iff htables,
    ← settled_iff hdbs]
  exact and_and_and_comm

/-- The renaming of the demonstration. -/
def cdcNames : RenameTransform :=
  ((RenameTransform.mk "rename" [] []).remapDatabase "demodb" "cdc").remapTable
    "users" "cdc_users"

theorem renamesOnce_cdcNames : cdcNames.RenamesOnce ∧ cdcNames.OrderFree :=
  (renamesOnce_iff (by decide) (by decide)).mpr
    ⟨by unfold Settled; decide, by unfold Settled; decide⟩

/-- Two tables that change names. -/
def swapped : RenameTransform :=
  ((RenameTransform.mk "swap" [] []).remapTable "a" "b").remapTable "b" "a"

/-- An event of the table `a` stays with `a`, and the other order of the two
rules sends it to `b`. -/
theorem not_renamesOnce_swapped :
    (∀ event, event.payload.source.table = "a" →
      (swapped.rename event).payload.source.table = "a") ∧
      ¬ (swapped.RenamesOnce ∧ swapped.OrderFree) := by
  constructor
  · intro event htable
    rw [rename_eq, htable]
    rfl
  · rintro ⟨honce, -⟩
    have hname := ((renamesOnce_iff_rules swapped).mp honce).1 "a"
    exact absurd hname (by decide)

end RenameTransform

/-! ## Chains -/

/-- The transforms that the pipeline comes with. -/
inductive BuiltinTransform where
  | filter (t : FilterTransform)
  | rename (t : RenameTransform)
  | log (t : LogTransform)

namespace BuiltinTransform

def transform : BuiltinTransform → Transform
  | filter t => t.transform
  | rename t => t.transform
  | log t => t.transform

def isFilter : BuiltinTransform → Bool
  | filter _ => true
  | _ => false

/-- What a transform does to an event, as a stage of a chain. -/
def stage : BuiltinTransform → Stage ChangeEvent
  | filter t => .guard fun event => event.payload.op ∈ t.includeOps
  | rename t => .change t.rename
  | log _ => .change id

theorem transform_eq (t : BuiltinTransform) (event : ChangeEvent) :
    t.transform event = .ok (t.stage.apply event) := by
  cases t with
  | filter t =>
      simp only [transform, FilterTransform.transform, stage, Stage.apply,
        decide_eq_true_eq]
      split_ifs
      · rfl
      · rfl
  | rename t => rfl
  | log t => rfl

/-- A change leaves the event as it is but for its two names. -/
theorem exists_of_change {t : BuiltinTransform} {f : ChangeEvent → ChangeEvent}
    (h : t.stage = .change f) (event : ChangeEvent) :
    ∃ db table, f event = (event.withTable table).withDb db := by
  cases t with
  | filter t => cases h
  | rename t =>
      cases h
      exact ⟨_, _, t.rename_eq event⟩
  | log t =>
      cases h
      exact ⟨event.payload.source.db, event.payload.source.table, rfl⟩

end BuiltinTransform

/-- The operation is one that every filter of the chain includes. -/
def PassesFilters (chain : List BuiltinTransform) (op : Operation) : Prop :=
  ∀ t, .filter t ∈ chain → op ∈ t.includeOps

/-- The chain with its filters in front. -/
def filtersFirst (chain : List BuiltinTransform) : List BuiltinTransform :=
  chain.filter BuiltinTransform.isFilter ++
    chain.filter fun t => !t.isFilter

/-- The loop of the pipeline runs the stages of the chain. -/
theorem applyTransforms_eq (chain : List BuiltinTransform)
    (event : ChangeEvent) :
    applyTransforms (chain.map (·.transform)) (some event) =
      .ok (runStages (chain.map (·.stage)) event) := by
  induction chain generalizing event with
  | nil => rfl
  | cons t chain ih =>
      rw [List.map_cons, applyTransforms, t.transform_eq, List.map_cons,
        runStages]
      cases t.stage.apply event with
      | none => cases chain <;> rfl
      | some event' => exact ih event'

/-- No filter looks at the names. -/
theorem separate_stages (chain : List BuiltinTransform) :
    Separate (chain.map (·.stage)) := by
  intro keep hkeep f hf event
  obtain ⟨t, -, hguard⟩ := List.mem_map.mp hkeep
  obtain ⟨t', -, hchange⟩ := List.mem_map.mp hf
  obtain ⟨db, table, hf⟩ := BuiltinTransform.exists_of_change hchange event
  rw [hf]
  cases t with
  | filter t =>
      cases hguard
      rfl
  | rename t => cases hguard
  | log t => cases hguard

theorem passesGuards_iff (chain : List BuiltinTransform)
    (event : ChangeEvent) :
    PassesGuards (chain.map (·.stage)) event ↔
      PassesFilters chain event.payload.op := by
  constructor
  · intro h t hmem
    have hkeep := h _ (List.mem_map.mpr ⟨.filter t, hmem, rfl⟩)
    exact of_decide_eq_true hkeep
  · intro h keep hmem
    obtain ⟨t, ht, hstage⟩ := List.mem_map.mp hmem
    cases t with
    | filter t =>
        cases hstage
        exact decide_eq_true (h t ht)
    | rename t => cases hstage
    | log t => cases hstage

theorem map_stage_filtersFirst (chain : List BuiltinTransform) :
    (filtersFirst chain).map (·.stage) =
      guardsFirst (chain.map (·.stage)) := by
  have hguard : Stage.isGuard ∘ BuiltinTransform.stage =
      BuiltinTransform.isFilter := by
    funext t
    cases t with
    | filter t => rfl
    | rename t => rfl
    | log t => rfl
  rw [filtersFirst, guardsFirst, List.map_append, List.filter_map,
    List.filter_map, hguard, ← hguard]
  rfl

/-- Events that agree without their names differ in the names at most. -/
theorem eq_withNames_of_erased {event event' : ChangeEvent}
    (h : (event'.withTable "").withDb "" = (event.withTable "").withDb "") :
    event' = (event.withTable event'.payload.source.table).withDb
      event'.payload.source.db := by
  have hset : ∀ (e : ChangeEvent) db table,
      (((e.withTable "").withDb "").withTable table).withDb db =
        (e.withTable table).withDb db := fun _ _ _ => rfl
  rw [← hset event, ← h, hset]
  rfl

/-- An event that has passed all changes has its own fields but for the
names. -/
theorem exists_changed_eq (chain : List BuiltinTransform)
    (event : ChangeEvent) :
    ∃ db table, changed (chain.map (·.stage)) event =
      (event.withTable table).withDb db := by
  have herased : ∀ f, .change f ∈ chain.map (·.stage) →
      ∀ e, ((f e).withTable "").withDb "" = (e.withTable "").withDb "" := by
    intro f hf e
    obtain ⟨t, -, hstage⟩ := List.mem_map.mp hf
    obtain ⟨db, table, hchange⟩ := BuiltinTransform.exists_of_change hstage e
    rw [hchange]
    rfl
  have hsame := changed_invariant
    (fun e : ChangeEvent => (e.withTable "").withDb "") herased event
  exact ⟨_, _, eq_withNames_of_erased hsame⟩

namespace Pipeline

variable {κ σ : Type}

def withChain (p : Pipeline κ σ) (chain : List BuiltinTransform) :
    Pipeline κ σ :=
  { p with transforms := chain.map (·.transform) }

/-- The loop over the sinks. -/
def deliver (p : Pipeline κ σ) (event : ChangeEvent) :
    Except PipelineError Unit × Pipeline κ σ :=
  let (result, sinks) := dispatch event p.sinks
  (result, { p with sinks := sinks })

theorem processEvent_withChain (p : Pipeline κ σ)
    (chain : List BuiltinTransform) (event : ChangeEvent) :
    (p.withChain chain).processEvent event =
      match runStages (chain.map (·.stage)) event with
      | none => (.ok (), p.withChain chain)
      | some event' => (p.withChain chain).deliver event' := by
  rw [processEvent, withChain, applyTransforms_eq]
  cases runStages (chain.map (·.stage)) event with
  | none => rfl
  | some event' => rfl

/-- Processing the event writes `event'` to the sinks, as far as none fails. -/
def Delivers (p : Pipeline κ σ) (event event' : ChangeEvent) : Prop :=
  p.processEvent event = p.deliver event' ∧
    Reached event' (p.processEvent event).1 p.sinks
      (p.processEvent event).2.sinks

theorem delivers_of_processEvent_eq {p : Pipeline κ σ}
    {event event' : ChangeEvent}
    (h : p.processEvent event = p.deliver event') : p.Delivers event event' := by
  refine ⟨h, ?_⟩
  rw [h]
  exact reached_dispatch event' p.sinks

/-- An event reaches the sinks exactly if every filter includes its operation,
as it came but for its names; and it does so in the same form if the filters
stand in front. -/
theorem processEvent_chain (p : Pipeline κ σ) (chain : List BuiltinTransform)
    (event : ChangeEvent) :
    ∃ db table,
      (PassesFilters chain event.payload.op →
        (p.withChain chain).Delivers event
            ((event.withTable table).withDb db) ∧
          (p.withChain (filtersFirst chain)).Delivers event
            ((event.withTable table).withDb db)) ∧
      (¬ PassesFilters chain event.payload.op →
        (p.withChain chain).processEvent event = (.ok (), p.withChain chain) ∧
          (p.withChain (filtersFirst chain)).processEvent event =
            (.ok (), p.withChain (filtersFirst chain))) := by
  obtain ⟨db, table, hchanged⟩ := exists_changed_eq chain event
  have hseparate := separate_stages chain
  have hchain := processEvent_withChain p chain event
  have hfirst := processEvent_withChain p (filtersFirst chain) event
  rw [map_stage_filtersFirst, runStages_guardsFirst hseparate] at hfirst
  rw [← passesGuards_iff]
  refine ⟨db, table, fun h => ?_, fun h => ?_⟩
  · rw [runStages_of_passesGuards hseparate h, hchanged] at hchain hfirst
    exact ⟨delivers_of_processEvent_eq hchain,
      delivers_of_processEvent_eq hfirst⟩
  · rw [runStages_of_not_passesGuards hseparate h] at hchain hfirst
    exact ⟨hchain, hfirst⟩

end Pipeline
end OpenCdc
