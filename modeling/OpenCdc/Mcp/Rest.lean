import OpenCdc.Mcp.Server

/-!
# The server comes to rest

A tool call holds a permit from its check to its return, and a connector that
is Snapshotting has a snapshot that will end it.  So when everything under way
has ended, all permits are back and no connector is left Snapshotting; and from
every state the server can get there by ending what is under way.
-/

namespace OpenCdc.Mcp

open Foundation

/-- The permits that a task holds. -/
def Task.permits : Task → ℕ
  | accepted _ _ => 1
  | launching _ _ => 1
  | _ => 0

/-- The steps that are left to a task. -/
def Task.stepsLeft : Task → ℕ
  | accepted _ _ => 3
  | launching _ _ => 2
  | background _ _ => 1
  | counted _ _ => 1

/-- The action goes on with what is under way. -/
def Action.Continues : Action → Prop
  | .setStatus _ => True
  | .spawn _ => True
  | .complete _ => True
  | .finish => True
  | .apply _ => True
  | _ => False

/-- The action does not make a connector Snapshotting from outside; the server
itself never calls `update_status` but for a snapshot that it starts. -/
def Action.LeavesSnapshots (a : Action) : Prop :=
  ∀ name, a ≠ .updateStatus name .snapshotting

namespace World

/-- The permits that tool calls hold. -/
def permits (w : World) : ℕ := Registry.total Task.permits w.tasks

/-- Every permit is free or held. -/
def Accounted (maxConcurrentTools : ℕ) (w : World) : Prop :=
  w.app.rateLimiter + w.permits = maxConcurrentTools

/-- A connector that is Snapshotting has a snapshot in flight. -/
def Attended (w : World) : Prop :=
  ∀ name c, w.app.connectors.lookup name = some c →
    c.status = .snapshotting → ∃ id, w.InFlight id name

/-- Nothing is under way. -/
def AtRest (w : World) : Prop := w.tasks = ∅ ∧ w.writer = none

variable {w w' : World} {id : ℕ} {name : String} {tables : List String}
  {maxConcurrentTools : ℕ}

/-! ## Permits -/

theorem rateLimiter_pos_of_check
    (h : w.step (.check id name tables) = some w') : 0 < w.app.rateLimiter :=
  (Option.ite_none_right_eq_some.mp h).1.2.1

theorem accounted_step {a : Action} (h : w.Accounted maxConcurrentTools)
    (hstep : w.step a = some w') : w'.Accounted maxConcurrentTools := by
  unfold Accounted at h
  cases step_cases hstep with
  | register name => exact h
  | remove name => exact h
  | updateStatus name status => exact h
  | shutdownAll => exact h
  | accept id name tables hlock hfresh =>
      have hpos := rateLimiter_pos_of_check hstep
      have hpermits : (w.accept id name tables).permits = w.permits + 1 :=
        Registry.total_insert_of_none Task.permits hfresh
      change w.app.rateLimiter - 1 + _ = _
      omega
  | refuse => exact h
  | setStatus id name tables hlock htask =>
      have hpermits : (w.setStatus id name tables).permits + 1 = w.permits + 1 :=
        Registry.total_insert_of_lookup Task.permits htask
      change w.app.rateLimiter + _ = _
      omega
  | spawn id name tables htask =>
      have hpermits : (w.spawn id name tables).permits + 1 = w.permits + 0 :=
        Registry.total_insert_of_lookup Task.permits htask
      change w.app.rateLimiter + 1 + _ = _
      omega
  | complete id name tables hlock htask =>
      have hpermits : (w.complete id name tables).permits + 0 = w.permits :=
        Registry.total_erase Task.permits htask
      change w.app.rateLimiter + _ = _
      omega
  | finish count => exact h
  | add id name count hfresh =>
      have hpermits : (w.add id name count).permits = w.permits + 0 :=
        Registry.total_insert_of_none Task.permits hfresh
      change w.app.rateLimiter + _ = _
      omega
  | apply id name count hlock htask =>
      have hpermits : (w.apply id name count).permits + 0 = w.permits :=
        Registry.total_erase Task.permits htask
      change w.app.rateLimiter + _ = _
      omega

/-! ## Snapshots in flight -/

/-- A step that makes a connector Snapshotting or leaves it so keeps it in
flight. -/
theorem Attended.of_keeps (h : w.Attended)
    (hkeeps : ∀ n c', w'.app.connectors.lookup n = some c' →
      c'.status = .snapshotting → (∃ id, w'.InFlight id n) ∨
        (∃ c, w.app.connectors.lookup n = some c ∧ c.status = .snapshotting) ∧
          ∀ id, w.InFlight id n → w'.InFlight id n) :
    w'.Attended := by
  intro n c' hc' hstatus'
  rcases hkeeps n c' hc' hstatus' with hflight | ⟨⟨c, hc, hstatus⟩, hsame⟩
  · exact hflight
  · obtain ⟨id, hid⟩ := h n c hc hstatus
    exact ⟨id, hsame id hid⟩

theorem inFlight_of_insert_fresh {task : Task} {other : ℕ} {n : String}
    (hfresh : w.tasks.lookup id = none)
    (htasks : w'.tasks = w.tasks.insert id task) (h : w.InFlight other n) :
    w'.InFlight other n := by
  have hne : other ≠ id := by
    rintro rfl
    simp [Holds, hfresh] at h
  apply (holds_of_insert htasks).mpr
  rwa [if_neg hne]

/-- A task that is not in flight gives way to another. -/
theorem ne_of_inFlight {task : Task} {other : ℕ} {n : String}
    (htask : w.tasks.lookup id = some task) (hn : task.started ≠ some n)
    (h : w.InFlight other n) : other ≠ id := by
  rintro rfl
  exact hn ((holds_of_lookup htask).mp h)

theorem attended_register (h : w.Attended) : (w.register name).Attended := by
  apply h.of_keeps
  intro n c' hc' hstatus
  rw [app_register, AppState.lookup_registerConnector] at hc'
  split_ifs at hc' with hn
  · rw [hn]
    cases hname : w.app.connectors.lookup name with
    | none =>
        rw [hname] at hc'
        obtain rfl : ManagedConnector.registered = c' := Option.some.inj hc'
        cases hstatus
    | some c =>
        rw [hname] at hc'
        obtain rfl : c = c' := Option.some.inj hc'
        exact Or.inr ⟨⟨c, rfl, hstatus⟩, fun id hid => hid⟩
  · exact Or.inr ⟨⟨c', hc', hstatus⟩, fun id hid => hid⟩

theorem attended_updateStatus (h : w.Attended) {status : ConnectorStatus}
    (hstatus : status ≠ .snapshotting) :
    (w.updateStatus name status).Attended := by
  apply h.of_keeps
  intro n c' hc' hc'status
  rw [app_updateStatus, AppState.lookup_updateStatus] at hc'
  split_ifs at hc' with hn
  · obtain ⟨c, -, rfl⟩ := Option.map_eq_some_iff.mp hc'
    exact absurd hc'status hstatus
  · exact Or.inr ⟨⟨c', hc', hc'status⟩, fun id hid => hid⟩

theorem attended_shutdownAll : w.shutdownAll.Attended := by
  intro n c' hc' hstatus
  rw [app_shutdownAll, AppState.lookup_shutdownAll] at hc'
  obtain ⟨c, -, rfl⟩ := Option.map_eq_some_iff.mp hc'
  cases hstatus

theorem attended_setStatus (h : w.Attended)
    (htask : w.tasks.lookup id = some (.accepted name tables)) :
    (w.setStatus id name tables).Attended := by
  apply h.of_keeps
  intro n c' hc' hstatus
  rw [app_setStatus, AppState.lookup_updateStatus] at hc'
  split_ifs at hc' with hn
  · refine Or.inl ⟨id, (holds_of_insert rfl).mpr ?_⟩
    rw [if_pos rfl, hn]
    rfl
  · refine Or.inr ⟨⟨c', hc', hstatus⟩, ?_⟩
    intro other hother
    have hne := ne_of_inFlight htask (by simp [Task.started]) hother
    apply (holds_of_insert rfl).mpr
    rwa [if_neg hne]

theorem attended_complete (h : w.Attended)
    (htask : w.tasks.lookup id = some (.background name tables)) :
    (w.complete id name tables).Attended := by
  apply h.of_keeps
  intro n c' hc' hstatus
  rw [app_complete, AppState.lookup_completeSnapshot] at hc'
  split_ifs at hc' with hn
  · obtain ⟨c, -, rfl⟩ := Option.map_eq_some_iff.mp hc'
    cases hstatus
  · refine Or.inr ⟨⟨c', hc', hstatus⟩, ?_⟩
    intro other hother
    have hstarted : Task.started (.background name tables) ≠ some n :=
      fun heq => hn (Option.some.inj heq).symm
    exact (holds_of_erase rfl).mpr
      ⟨ne_of_inFlight htask hstarted hother, hother⟩

theorem attended_apply (h : w.Attended) {count : UInt64}
    (htask : w.tasks.lookup id = some (.counted name count)) :
    (w.apply id name count).Attended := by
  apply h.of_keeps
  intro n c' hc' hstatus
  refine Or.inr ⟨?_, ?_⟩
  · rw [app_apply, AppState.lookup_applyReceived] at hc'
    split_ifs at hc' with hn
    · obtain ⟨c, hc, rfl⟩ := Option.map_eq_some_iff.mp hc'
      exact ⟨c, hn ▸ hc, hstatus⟩
    · exact ⟨c', hc', hstatus⟩
  · intro other hother
    exact (holds_of_erase rfl).mpr
      ⟨ne_of_inFlight htask (by simp [Task.started]) hother, hother⟩

theorem attended_step {a : Action} (ha : a.LeavesSnapshots) (h : w.Attended)
    (hstep : w.step a = some w') : w'.Attended := by
  cases step_cases hstep with
  | register name => exact attended_register h
  | remove name =>
      apply h.of_keeps
      intro n c' hc' hstatus
      rw [app_remove, AppState.lookup_connectorRemove] at hc'
      split_ifs at hc'
      exact Or.inr ⟨⟨c', hc', hstatus⟩, fun id hid => hid⟩
  | updateStatus name status =>
      apply attended_updateStatus h
      rintro rfl
      exact ha name rfl
  | shutdownAll => exact attended_shutdownAll
  | accept id name tables hlock hfresh =>
      exact h.of_keeps fun n c' hc' hstatus => Or.inr
        ⟨⟨c', hc', hstatus⟩, fun other => inFlight_of_insert_fresh hfresh rfl⟩
  | refuse => exact h
  | setStatus id name tables hlock htask => exact attended_setStatus h htask
  | spawn id name tables htask =>
      have htasks : (w.spawn id name tables).tasks =
          w.tasks.insert id (.background name tables) := rfl
      exact h.of_keeps fun n c' hc' hstatus => Or.inr ⟨⟨c', hc', hstatus⟩,
        fun other => (holds_of_advance htask htasks rfl).mpr⟩
  | complete id name tables hlock htask => exact attended_complete h htask
  | finish count =>
      exact h.of_keeps fun n c' hc' hstatus =>
        Or.inr ⟨⟨c', hc', hstatus⟩, fun id hid => hid⟩
  | add id name count hfresh =>
      exact h.of_keeps fun n c' hc' hstatus => Or.inr
        ⟨⟨c', hc', hstatus⟩, fun other => inFlight_of_insert_fresh hfresh rfl⟩
  | apply id name count hlock htask => exact attended_apply h htask

/-! ## Coming to rest -/

/-- What is left to do; a completion leaves the lock to give back. -/
def rank (w : World) : ℕ :=
  2 * Registry.total Task.stepsLeft w.tasks + w.writer.elim 0 fun _ => 1

theorem rank_insert_lt {before after : Task}
    (h : w.tasks.lookup id = some before) (htasks : w'.tasks =
      w.tasks.insert id after) (hwriter : w'.writer = w.writer)
    (hless : after.stepsLeft < before.stepsLeft) : w'.rank < w.rank := by
  have hinsert := Registry.total_insert_of_lookup Task.stepsLeft (a := after) h
  rw [rank, rank, htasks, hwriter]
  omega

theorem rank_erase_lt {task : Task} (h : w.tasks.lookup id = some task)
    (htasks : w'.tasks = w.tasks.erase id) (hwriter : w.writer = none)
    (hone : task.stepsLeft = 1) : w'.rank < w.rank := by
  have herase := Registry.total_erase Task.stepsLeft h
  have hheld : (w'.writer.elim 0 fun _ => 1) ≤ 1 := by
    cases w'.writer <;> simp
  rw [rank, rank, htasks, hwriter, Option.elim_none]
  omega

/-- A server that is not at rest can go on. -/
theorem exists_continues_of_not_atRest (h : ¬w.AtRest) :
    ∃ a w', a.Continues ∧ w.step a = some w' ∧ w'.rank < w.rank := by
  rcases hwriter : w.writer with _ | count
  · have htasks : w.tasks ≠ ∅ := fun hempty => h ⟨hempty, hwriter⟩
    obtain ⟨id, task, htask⟩ := Registry.exists_lookup_of_ne_empty htasks
    cases task with
    | accepted name tables =>
        exact ⟨.setStatus id, w.setStatus id name tables, trivial,
          by simp [step, htask, hwriter],
          rank_insert_lt htask rfl rfl (Nat.lt_succ_self 2)⟩
    | launching name tables =>
        exact ⟨.spawn id, w.spawn id name tables, trivial,
          by simp [step, htask],
          rank_insert_lt htask rfl rfl (Nat.lt_succ_self 1)⟩
    | background name tables =>
        exact ⟨.complete id, w.complete id name tables, trivial,
          by simp [step, htask, hwriter], rank_erase_lt htask rfl hwriter rfl⟩
    | counted name count =>
        exact ⟨.apply id, w.apply id name count, trivial,
          by simp [step, htask, hwriter], rank_erase_lt htask rfl hwriter rfl⟩
  · refine ⟨.finish, w.finish count, trivial, by simp [step, hwriter], ?_⟩
    have htasks : (w.finish count).tasks = w.tasks := rfl
    have hafter : (w.finish count).writer = none := rfl
    rw [rank, rank, htasks, hafter, hwriter, Option.elim_none, Option.elim_some]
    exact Nat.lt_succ_self _

/-- Nothing is under way, all permits are free, and no connector is left
Snapshotting. -/
structure Settled (maxConcurrentTools : ℕ) (w : World) : Prop where
  atRest : w.AtRest
  permits : w.app.rateLimiter = maxConcurrentTools
  statuses : ∀ name c, w.app.connectors.lookup name = some c →
    c.status ≠ .snapshotting

theorem AtRest.settled (h : w.AtRest) (haccounted : w.Accounted maxConcurrentTools)
    (hattended : w.Attended) : w.Settled maxConcurrentTools where
  atRest := h
  permits := by
    have hpermits : w.permits = 0 := by
      rw [permits, h.1]
      rfl
    rw [← haccounted, hpermits, Nat.add_zero]
  statuses := by
    intro name c hc hstatus
    obtain ⟨id, hflight⟩ := hattended name c hc hstatus
    simp [Holds, h.1] at hflight

/-- By going on with what is under way alone the server can settle. -/
def CanSettle (maxConcurrentTools : ℕ) (w : World) : Prop :=
  ∃ actions w', (∀ a ∈ actions, a.Continues) ∧
    runFrom step w actions = some w' ∧ w'.Settled maxConcurrentTools

/-! ## Runs -/

/-- All permits are accounted for, and no snapshot is forgotten. -/
structure Orderly (maxConcurrentTools : ℕ) (w : World) : Prop where
  accounted : w.Accounted maxConcurrentTools
  attended : w.Attended

theorem orderly_new (maxConcurrentTools : ℕ) :
    (idle (.new maxConcurrentTools)).Orderly maxConcurrentTools where
  accounted := rfl
  attended := by
    intro name c hc
    simp [idle, AppState.new] at hc

theorem Orderly.throughout {actions : List Action}
    (h : w.Orderly maxConcurrentTools)
    (hactions : ∀ a ∈ actions, a.LeavesSnapshots) :
    Throughout step (Orderly maxConcurrentTools) w actions := by
  apply throughout_of_labels _ h hactions
  intro w a w' ha hw hstep
  exact ⟨accounted_step hw.accounted hstep, attended_step ha hw.attended hstep⟩

theorem leavesSnapshots_of_continues {a : Action} (h : a.Continues) :
    a.LeavesSnapshots := by
  rintro name rfl
  exact h

theorem Orderly.canSettle (h : w.Orderly maxConcurrentTools) :
    w.CanSettle maxConcurrentTools := by
  obtain ⟨actions, w', hactions, hrun, hrest⟩ :=
    exists_runFrom_of_rank rank (fun _ => exists_continues_of_not_atRest) w
  have h' : w'.Orderly maxConcurrentTools :=
    h.throughout (fun a ha => leavesSnapshots_of_continues (hactions a ha))
      actions w' List.prefix_rfl hrun
  exact ⟨actions, w', hactions, hrun, hrest.settled h'.accounted h'.attended⟩

/-- In every interleaving on a new server all permits are accounted for and
every Snapshotting connector is attended to; and wherever the run stops, the
server can settle. -/
theorem throughout_canSettle (maxConcurrentTools : ℕ) {actions : List Action}
    (hactions : ∀ a ∈ actions, a.LeavesSnapshots) :
    Throughout step
      (fun w => w.Orderly maxConcurrentTools ∧ w.CanSettle maxConcurrentTools)
      (idle (.new maxConcurrentTools)) actions := by
  refine Throughout.mono ((orderly_new _).throughout hactions) ?_
  exact fun w h => ⟨h, h.canSettle⟩

/-- Two calls for one connector, which both pass their checks. -/
theorem throughout_canSettle_twoCalls :
    (∀ a ∈ [Action.register "orders", .check 0 "orders" [],
      .check 1 "orders" [], .setStatus 0, .spawn 0, .setStatus 1],
        a.LeavesSnapshots) ∧
    Throughout step (fun w => w.Orderly 10 ∧ w.CanSettle 10) (idle (.new 10))
      [.register "orders", .check 0 "orders" [], .check 1 "orders" [],
        .setStatus 0, .spawn 0, .setStatus 1] := by
  have hactions : ∀ a ∈ [Action.register "orders", .check 0 "orders" [],
      .check 1 "orders" [], .setStatus 0, .spawn 0, .setStatus 1],
        a.LeavesSnapshots := by
    simp [Action.LeavesSnapshots]
  exact ⟨hactions, throughout_canSettle 10 hactions⟩

end World
end OpenCdc.Mcp
