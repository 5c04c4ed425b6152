import OpenCdc.Mcp.Server

/-!
# Snapshots and the status they complete

A background snapshot finds its connector again by name.  The result says in
which interleavings it always finds it in the status that its own call has
given it.
-/

namespace OpenCdc.Mcp

open Foundation

namespace World

/-- Every snapshot in flight would complete a connector only in the status that
its own call has given it. -/
def Owned (w : World) : Prop :=
  ∀ id name, w.InFlight id name → ∀ c,
    w.app.connectors.lookup name = some c →
      c.status = .snapshotting ∧ w.owner name = some id

/-- A completion that could come now changes only a connector that is in the
status that the call of its snapshot has given it. -/
def CompletesOwned (w : World) : Prop :=
  ∀ id w', w.step (.complete id) = some w' → ∀ name,
    w'.app.connectors.lookup name ≠ w.app.connectors.lookup name →
      ∃ c, w.app.connectors.lookup name = some c ∧
        c.status = .snapshotting ∧ w.owner name = some id

/-- An action gives a connector no status while another call's snapshot of it
is in flight, and registers none under its name. -/
def Quiet (w : World) : Action → Prop
  | .register name =>
      w.app.connectors.lookup name = none → ∀ id, ¬ w.InFlight id name
  | .updateStatus name _ =>
      w.app.connectors.lookup name ≠ none → ∀ id, ¬ w.InFlight id name
  | .shutdownAll =>
      ∀ name, w.app.connectors.lookup name ≠ none →
        ∀ id, ¬ w.InFlight id name
  | .setStatus id =>
      ∀ name tables, w.tasks.lookup id = some (.accepted name tables) →
        w.app.connectors.lookup name ≠ none → ∀ other, ¬ w.InFlight other name
  | _ => True

variable {w w' : World} {id : ℕ} {name : String}

/-! ## Single steps -/

/-- A step keeps the snapshots in flight in their status if it adds none and
leaves the status of their connectors as it is. -/
theorem Owned.of_same (h : w.Owned)
    (hsame : ∀ id name c', w'.InFlight id name →
      w'.app.connectors.lookup name = some c' →
        w.InFlight id name ∧ w'.owner name = w.owner name ∧
          ∃ c, w.app.connectors.lookup name = some c ∧ c.status = c'.status) :
    w'.Owned := by
  intro id name hflight c' hc'
  obtain ⟨hbefore, howner, c, hc, hstatus⟩ := hsame id name c' hflight hc'
  rw [← hstatus, howner]
  exact h id name hbefore c hc

theorem owned_register_iff (h : w.Owned) :
    (w.register name).Owned ↔ w.Quiet (.register name) := by
  constructor
  · intro h' habsent id hflight
    have hc := w.app.lookup_registerConnector name name
    rw [if_pos rfl, habsent] at hc
    obtain ⟨hstatus, -⟩ := h' id name hflight _ hc
    cases hstatus
  · intro hquiet
    apply h.of_same
    intro id n c' hflight hc'
    rw [app_register, AppState.lookup_registerConnector] at hc'
    cases hname : w.app.connectors.lookup name with
    | none =>
        have hne : n ≠ name := fun heq =>
          hquiet hname id (heq ▸ hflight)
        rw [if_neg hne] at hc'
        exact ⟨hflight, by simp [register, hname, hne], c', hc', rfl⟩
    | some c =>
        refine ⟨hflight, by simp [register, hname], c', ?_, rfl⟩
        by_cases hn : n = name
        · rw [if_pos hn, hname, Option.getD_some] at hc'
          rw [hn, hname, hc']
        · rwa [if_neg hn] at hc'

theorem owned_updateStatus_iff (h : w.Owned) {status : ConnectorStatus} :
    (w.updateStatus name status).Owned ↔
      w.Quiet (.updateStatus name status) := by
  constructor
  · intro h' hregistered id hflight
    obtain ⟨c, hc⟩ := Option.ne_none_iff_exists'.mp hregistered
    have hafter := w.app.lookup_updateStatus name name status
    rw [if_pos rfl, hc] at hafter
    obtain ⟨-, howner⟩ := h' id name hflight _ hafter
    simp [updateStatus] at howner
  · intro hquiet
    apply h.of_same
    intro id n c' hflight hc'
    rw [app_updateStatus, AppState.lookup_updateStatus] at hc'
    have hne : n ≠ name := by
      rintro rfl
      rw [if_pos rfl] at hc'
      obtain ⟨c, hc, -⟩ := Option.map_eq_some_iff.mp hc'
      exact hquiet (by simp [hc]) id hflight
    rw [if_neg hne] at hc'
    exact ⟨hflight, Function.update_of_ne hne _ _, c', hc', rfl⟩

theorem owned_shutdownAll_iff (h : w.Owned) :
    w.shutdownAll.Owned ↔ w.Quiet .shutdownAll := by
  constructor
  · intro h' name hregistered id hflight
    obtain ⟨c, hc⟩ := Option.ne_none_iff_exists'.mp hregistered
    have hafter := w.app.lookup_shutdownAll name
    rw [hc] at hafter
    obtain ⟨-, howner⟩ := h' id name hflight _ hafter
    cases howner
  · intro hquiet
    apply h.of_same
    intro id n c' hflight hc'
    rw [app_shutdownAll, AppState.lookup_shutdownAll] at hc'
    obtain ⟨c, hc, -⟩ := Option.map_eq_some_iff.mp hc'
    exact absurd hflight (hquiet n (by simp [hc]) id)

theorem owned_setStatus_iff (h : w.Owned) {tables : List String}
    (htask : w.tasks.lookup id = some (.accepted name tables)) :
    (w.setStatus id name tables).Owned ↔ w.Quiet (.setStatus id) := by
  have hholds : ∀ j n, (w.setStatus id name tables).InFlight j n ↔
      if j = id then (Task.launching name tables).started = some n
      else w.InFlight j n := fun _ _ => holds_of_insert rfl
  constructor
  · intro h' n tables' htask' hregistered other hflight
    rw [htask] at htask'
    obtain ⟨rfl, rfl⟩ : name = n ∧ tables = tables' := by simpa using htask'
    have hother : other ≠ id := by
      rintro rfl
      cases (holds_of_lookup htask).mp hflight
    obtain ⟨c, hc⟩ := Option.ne_none_iff_exists'.mp hregistered
    have hflight' : (w.setStatus id name tables).InFlight other name := by
      rwa [hholds, if_neg hother]
    have hname := w.app.lookup_updateStatus name name .snapshotting
    rw [if_pos rfl, hc] at hname
    obtain ⟨-, howner⟩ := h' other name hflight' _ hname
    simp only [setStatus, Function.update_self, Option.some.injEq] at howner
    exact hother howner.symm
  · intro hquiet j n hflight c' hc'
    rw [app_setStatus, AppState.lookup_updateStatus] at hc'
    rw [hholds] at hflight
    by_cases hj : j = id
    · rw [if_pos hj] at hflight
      obtain rfl : name = n := Option.some.inj hflight
      rw [if_pos rfl] at hc'
      obtain ⟨c, -, rfl⟩ := Option.map_eq_some_iff.mp hc'
      exact ⟨rfl, by simp [setStatus, hj]⟩
    · rw [if_neg hj] at hflight
      have hne : n ≠ name := by
        rintro rfl
        rw [if_pos rfl] at hc'
        obtain ⟨c, hc, -⟩ := Option.map_eq_some_iff.mp hc'
        exact hquiet n tables htask (by simp [hc]) j hflight
      rw [if_neg hne] at hc'
      obtain ⟨hstatus, howner⟩ := h j n hflight c' hc'
      exact ⟨hstatus, by rw [← howner]; exact Function.update_of_ne hne _ _⟩

/-- The completed snapshot was the only one of its connector. -/
theorem owned_complete (h : w.Owned) {tables : List String}
    (htask : w.tasks.lookup id = some (.background name tables)) :
    (w.complete id name tables).Owned := by
  have hid : w.InFlight id name := (holds_of_lookup htask).mpr rfl
  apply h.of_same
  intro j n c' hafter hc'
  obtain ⟨hj, hflight⟩ := (holds_of_erase rfl).mp hafter
  rw [app_complete, AppState.lookup_completeSnapshot] at hc'
  have hne : n ≠ name := by
    rintro rfl
    rw [if_pos rfl] at hc'
    obtain ⟨c, hc, -⟩ := Option.map_eq_some_iff.mp hc'
    have howner := (h id n hid c hc).2.symm.trans (h j n hflight c hc).2
    exact hj (Option.some.inj howner).symm
  rw [if_neg hne] at hc'
  exact ⟨hflight, Function.update_of_ne hne _ _, c', hc', rfl⟩

theorem owned_iff_quiet {a : Action} (h : w.Owned) (hstep : w.step a = some w') :
    w'.Owned ↔ w.Quiet a := by
  cases step_cases hstep with
  | register name => exact owned_register_iff h
  | updateStatus name status => exact owned_updateStatus_iff h
  | shutdownAll => exact owned_shutdownAll_iff h
  | setStatus id name tables hlock htask => exact owned_setStatus_iff h htask
  | complete id name tables hlock htask =>
      exact iff_of_true (owned_complete h htask) trivial
  | refuse => exact iff_of_true h trivial
  | remove name =>
      refine iff_of_true (h.of_same fun id n c' hflight hc' => ?_) trivial
      rw [app_remove, AppState.lookup_connectorRemove] at hc'
      obtain ⟨-, hc⟩ := Option.ite_none_left_eq_some.mp hc'
      exact ⟨hflight, rfl, c', hc, rfl⟩
  | accept id name tables =>
      refine iff_of_true (h.of_same fun j n c' hflight hc' => ?_) trivial
      exact ⟨holds_of_insert_fresh rfl rfl hflight, rfl, c', hc', rfl⟩
  | spawn id name tables htask =>
      refine iff_of_true (h.of_same fun j n c' hflight hc' => ?_) trivial
      have hsame : (w.spawn id name tables).InFlight j n ↔ w.InFlight j n :=
        holds_of_advance htask rfl rfl
      exact ⟨hsame.mp hflight, rfl, c', hc', rfl⟩
  | finish count =>
      exact iff_of_true (h.of_same fun j n c' hflight hc' =>
        ⟨hflight, rfl, c', hc', rfl⟩) trivial
  | add id name count =>
      refine iff_of_true (h.of_same fun j n c' hflight hc' => ?_) trivial
      exact ⟨holds_of_insert_fresh rfl rfl hflight, rfl, c', hc', rfl⟩
  | apply id name count =>
      refine iff_of_true (h.of_same fun j n c' hflight hc' => ?_) trivial
      refine ⟨((holds_of_erase rfl).mp hflight).2, rfl, ?_⟩
      rw [app_apply, AppState.lookup_applyReceived] at hc'
      by_cases hn : n = name
      · rw [if_pos hn] at hc'
        obtain ⟨c, hc, rfl⟩ := Option.map_eq_some_iff.mp hc'
        exact ⟨c, hn ▸ hc, rfl⟩
      · rw [if_neg hn] at hc'
        exact ⟨c', hc', rfl⟩

theorem Owned.completesOwned (h : w.Owned) : w.CompletesOwned := by
  intro id w' hstep n hchanged
  cases step_cases hstep with
  | complete id name tables hlock htask =>
      rw [app_complete, AppState.lookup_completeSnapshot] at hchanged
      by_cases hn : n = name
      · rw [if_pos hn, hn] at hchanged
        cases hc : w.app.connectors.lookup name with
        | none => simp [hc] at hchanged
        | some c =>
            have hflight : w.InFlight id name :=
              (holds_of_lookup htask).mpr rfl
            exact ⟨c, hn ▸ hc, hn ▸ h id name hflight c hc⟩
      · rw [if_neg hn] at hchanged
        exact absurd rfl hchanged

theorem owned_idle (app : AppState) : (idle app).Owned := by
  intro id name hflight
  simp [Holds, idle] at hflight

/-! ## Runs -/

/-- In an interleaving of quiet steps no completion changes a connector that
its snapshot does not own; and all snapshots own what they would complete in no
other interleaving. -/
theorem completesOwned_of_quiet (app : AppState) (actions : List Action) :
    (EveryStep step Quiet (idle app) actions →
      Throughout step CompletesOwned (idle app) actions) ∧
    (EveryStep step Quiet (idle app) actions ↔
      Throughout step Owned (idle app) actions) := by
  have hiff : Throughout step Owned (idle app) actions ↔
      EveryStep step Quiet (idle app) actions :=
    throughout_iff_everyStep (I := fun _ => True) (L := fun _ => True)
      (fun _ _ _ _ _ h hstep => ⟨owned_iff_quiet h hstep, fun _ => trivial⟩)
      (fun _ _ => trivial) trivial (owned_idle app)
  refine ⟨fun hquiet => ?_, hiff.symm⟩
  exact (hiff.mpr hquiet).mono fun _ => Owned.completesOwned

/-- While no snapshot is in flight every action is quiet. -/
theorem quiet_of_not_inFlight (h : ∀ id name, ¬ w.InFlight id name)
    (a : Action) : w.Quiet a := by
  cases a with
  | register name => exact fun _ id => h id name
  | updateStatus name status => exact fun _ id => h id name
  | shutdownAll => exact fun name _ id => h id name
  | setStatus id => exact fun name _ _ _ other => h other name
  | _ => trivial

/-- A snapshot from its start to its end, and then a shutdown. -/
def ordersSnapshot : List Action :=
  [.register "orders", .check 0 "orders" [], .setStatus 0, .spawn 0, .complete 0,
    .finish, .shutdownAll]

theorem everyStep_quiet_ordersSnapshot :
    EveryStep step Quiet (idle (.new 10)) ordersSnapshot := by
  have hnone : ∀ w : World, w.tasks = ∅ → ∀ id name, ¬ w.InFlight id name := by
    intro w htasks id name hflight
    simp [Holds, htasks] at hflight
  refine everyStep_cons.mpr fun _ hregister => ⟨?_, ?_⟩
  · exact quiet_of_not_inFlight (hnone _ rfl) _
  obtain rfl := Option.some.inj hregister
  refine everyStep_cons.mpr fun _ hcheck => ⟨trivial, ?_⟩
  obtain rfl := Option.some.inj hcheck
  refine everyStep_cons.mpr fun _ hstatus => ⟨?_, ?_⟩
  · -- the call was accepted and has not put the connector into its state
    apply quiet_of_not_inFlight
    intro id name hflight
    rw [InFlight, holds_of_insert rfl] at hflight
    split_ifs at hflight
    · cases hflight
    · exact hnone _ rfl id name hflight
  obtain rfl := Option.some.inj hstatus
  refine everyStep_cons.mpr fun _ hspawn => ⟨trivial, ?_⟩
  obtain rfl := Option.some.inj hspawn
  refine everyStep_cons.mpr fun _ hcomplete => ⟨trivial, ?_⟩
  obtain rfl := Option.some.inj hcomplete
  refine everyStep_cons.mpr fun _ hfinish => ⟨trivial, ?_⟩
  obtain rfl := Option.some.inj hfinish
  refine everyStep_cons.mpr fun _ _ => ⟨?_, everyStep_nil⟩
  exact quiet_of_not_inFlight (hnone _ rfl) _

theorem completesOwned_ordersSnapshot :
    (∃ w c, runFrom step (idle (.new 10)) ordersSnapshot = some w ∧
        w.app.connectors.lookup "orders" = some c ∧ c.status = .stopped ∧
        c.offset = some .snapshotDone) ∧
      Throughout step CompletesOwned (idle (.new 10)) ordersSnapshot :=
  ⟨⟨_, _, rfl, rfl, rfl, rfl⟩,
    (completesOwned_of_quiet (.new 10) ordersSnapshot).1
      everyStep_quiet_ordersSnapshot⟩

/-- A snapshot that is in flight when the server is shut down marks its
connector as running. -/
theorem not_completesOwned_shutdown :
    ¬ Throughout step CompletesOwned (idle (.new 10))
      [.register "orders", .check 0 "orders" [], .setStatus 0, .spawn 0,
        .shutdownAll] := by
  intro h
  -- in the last state the connector is stopped, and the snapshot makes it run
  obtain ⟨c, -, -, howner⟩ := h _ _ List.prefix_rfl rfl 0 _ rfl "orders"
    fun hsame =>
      absurd (congrArg (Option.map ManagedConnector.status) hsame) (by decide)
  cases howner

end World
end OpenCdc.Mcp
