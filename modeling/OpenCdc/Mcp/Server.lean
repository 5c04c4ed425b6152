import OpenCdc.Foundation.Interleaving
import OpenCdc.Mcp.State

/-!
# Calls and background snapshots

The calls of `snapshot_start` and `increment_events_received` and the
background snapshots, each taken apart at the points where another one can come
in between.
-/

namespace OpenCdc.Mcp

open Foundation

/-! ## Activities -/

/-- Where a call or a background snapshot stands between two of its steps. -/
inductive Task where
  /-- `snapshot_start` has found a status that it accepts. -/
  | accepted (name : String) (tables : List String)
  /-- `run_snapshot` has updated the status. -/
  | launching (name : String) (tables : List String)
  /-- The background snapshot sleeps or waits for the lock. -/
  | background (name : String) (tables : List String)
  /-- `increment_events_received` has raised the total. -/
  | counted (name : String) (count : UInt64)
deriving DecidableEq, Repr

namespace Task

/-- The connector that a snapshot has put into its state. -/
def started : Task → Option String
  | launching name _ => some name
  | background name _ => some name
  | _ => none

/-- The connector of an accepted call or of its snapshot. -/
def snapshot : Task → Option String
  | accepted name _ => some name
  | launching name _ => some name
  | background name _ => some name
  | counted _ _ => none

/-- The events that are in the total and not yet in the connector. -/
def pending : Task → ℕ
  | counted _ count => count.toNat
  | _ => 0

end Task

/-- The server with what is under way.  The last two fields are for results
only: no step depends on them. -/
structure World where
  app : AppState
  tasks : Registry ℕ Task
  /-- The count that the holder of the write lock still has to add to the
  total. -/
  writer : Option UInt64
  /-- The call that the status of a connector comes from, if it is that of a
  started snapshot. -/
  owner : String → Option ℕ
  /-- The total of all increments without wrapping around. -/
  exactTotal : ℕ

inductive Action where
  | register (name : String)
  | remove (name : String)
  | updateStatus (name : String) (status : ConnectorStatus)
  | shutdownAll
  /-- `snapshot_start` up to its status check. -/
  | check (id : ℕ) (name : String) (tables : List String)
  | setStatus (id : ℕ)
  | spawn (id : ℕ)
  /-- A background snapshot takes the lock and changes its connector. -/
  | complete (id : ℕ)
  /-- It adds to the total and gives the lock back. -/
  | finish
  /-- The atomic part of `increment_events_received`. -/
  | add (id : ℕ) (name : String) (count : UInt64)
  /-- Its locked part. -/
  | apply (id : ℕ)
deriving DecidableEq, Repr

namespace World

/-- A server on which nothing is under way. -/
def idle (app : AppState) : World where
  app := app
  tasks := ∅
  writer := none
  owner := fun _ => none
  exactTotal := app.totalEventsReceived.toNat

variable (w : World)

/-! ## Steps -/

def register (name : String) : World :=
  { w with
    app := w.app.registerConnector name
    owner :=
      if (w.app.connectors.lookup name).isSome then w.owner
      else Function.update w.owner name none }

def remove (name : String) : World :=
  { w with app := w.app.connectorRemove name }

def updateStatus (name : String) (status : ConnectorStatus) : World :=
  { w with
    app := w.app.updateStatus name status
    owner := Function.update w.owner name none }

def shutdownAll : World :=
  { w with
    app := w.app.shutdownAll
    owner := fun _ => none }

/-- The call holds its permit until it returns. -/
def accept (id : ℕ) (name : String) (tables : List String) : World :=
  { w with
    app := { w.app with rateLimiter := w.app.rateLimiter - 1 }
    tasks := w.tasks.insert id (.accepted name tables) }

def setStatus (id : ℕ) (name : String) (tables : List String) : World :=
  { w with
    app := w.app.updateStatus name .snapshotting
    tasks := w.tasks.insert id (.launching name tables)
    owner := Function.update w.owner name (some id) }

def spawn (id : ℕ) (name : String) (tables : List String) : World :=
  { w with
    app := { w.app with rateLimiter := w.app.rateLimiter + 1 }
    tasks := w.tasks.insert id (.background name tables) }

/-- The lock stays taken only if there is a connector to change. -/
def complete (id : ℕ) (name : String) (tables : List String) : World :=
  { w with
    app := w.app.completeSnapshot name (AppState.snapshotCount tables)
    tasks := w.tasks.erase id
    writer := (w.app.connectors.lookup name).map fun _ =>
      AppState.snapshotCount tables
    owner := Function.update w.owner name none }

def finish (count : UInt64) : World :=
  { w with
    app := w.app.addTotal count
    writer := none
    exactTotal := w.exactTotal + count.toNat }

def add (id : ℕ) (name : String) (count : UInt64) : World :=
  { w with
    app := w.app.addTotal count
    tasks := w.tasks.insert id (.counted name count)
    exactTotal := w.exactTotal + count.toNat }

def apply (id : ℕ) (name : String) (count : UInt64) : World :=
  { w with
    app := w.app.applyReceived name count
    tasks := w.tasks.erase id }

section Fields

variable (id : ℕ) (name : String) (tables : List String) (count : UInt64)

@[simp] theorem app_register :
    (w.register name).app = w.app.registerConnector name := rfl

@[simp] theorem app_remove :
    (w.remove name).app = w.app.connectorRemove name := rfl

@[simp] theorem app_updateStatus (status : ConnectorStatus) :
    (w.updateStatus name status).app = w.app.updateStatus name status := rfl

@[simp] theorem app_shutdownAll : w.shutdownAll.app = w.app.shutdownAll := rfl

@[simp] theorem app_setStatus :
    (w.setStatus id name tables).app = w.app.updateStatus name .snapshotting :=
  rfl

@[simp] theorem app_complete :
    (w.complete id name tables).app =
      w.app.completeSnapshot name (AppState.snapshotCount tables) := rfl

@[simp] theorem app_apply :
    (w.apply id name count).app = w.app.applyReceived name count := rfl

end Fields

/-- The next step of the server, if the action can be taken: the lock has to be
free for what takes it, a tool call needs a permit, and a new activity a new
number. -/
def step : Action → Option World
  | .register name =>
      if w.writer = none then some (w.register name) else none
  | .remove name =>
      if w.writer = none ∧ 0 < w.app.rateLimiter then some (w.remove name)
      else none
  | .updateStatus name status =>
      if w.writer = none then some (w.updateStatus name status) else none
  | .shutdownAll => if w.writer = none then some w.shutdownAll else none
  | .check id name tables =>
      if w.writer = none ∧ 0 < w.app.rateLimiter ∧
          w.tasks.lookup id = none then
        match w.app.acceptsSnapshot name with
        | .ok () => some (w.accept id name tables)
        | .error _ => some w
      else none
  | .setStatus id =>
      match w.tasks.lookup id, w.writer with
      | some (.accepted name tables), none => some (w.setStatus id name tables)
      | _, _ => none
  | .spawn id =>
      match w.tasks.lookup id with
      | some (.launching name tables) => some (w.spawn id name tables)
      | _ => none
  | .complete id =>
      match w.tasks.lookup id, w.writer with
      | some (.background name tables), none => some (w.complete id name tables)
      | _, _ => none
  | .finish => w.writer.map w.finish
  | .add id name count =>
      if w.tasks.lookup id = none then some (w.add id name count) else none
  | .apply id =>
      match w.tasks.lookup id, w.writer with
      | some (.counted name count), none => some (w.apply id name count)
      | _, _ => none

/-! ## What activities hold -/

/-- An activity is at a stage in which a connector is its own. -/
def Holds (view : Task → Option String) (id : ℕ) (name : String) : Prop :=
  (w.tasks.lookup id).bind view = some name

/-- The snapshot of a call has put its connector into its state and is not
completed. -/
abbrev InFlight : ℕ → String → Prop := w.Holds Task.started

/-- A call is accepted and its snapshot not completed. -/
abbrev UnderWay : ℕ → String → Prop := w.Holds Task.snapshot

variable {w} {w' : World} {view : Task → Option String} {id other : ℕ}
  {name : String} {task : Task}

theorem holds_of_lookup (htask : w.tasks.lookup id = some task) :
    w.Holds view id name ↔ view task = some name := by
  rw [Holds, htask, Option.bind_some]

theorem holds_of_insert (h : w'.tasks = w.tasks.insert id task) :
    w'.Holds view other name ↔
      if other = id then view task = some name
      else w.Holds view other name := by
  unfold Holds
  rw [h, Registry.lookup_insert_eq]
  by_cases hid : other = id
  · rw [if_pos hid, if_pos hid, Option.bind_some]
  · rw [if_neg hid, if_neg hid]

theorem holds_of_erase (h : w'.tasks = w.tasks.erase id) :
    w'.Holds view other name ↔ other ≠ id ∧ w.Holds view other name := by
  unfold Holds
  rw [h, Registry.lookup_erase_eq]
  by_cases hid : other = id <;> simp [hid]

/-- A new activity that holds nothing yet. -/
theorem holds_of_insert_fresh (h : w'.tasks = w.tasks.insert id task)
    (htask : view task = none) (hholds : w'.Holds view other name) :
    w.Holds view other name := by
  rw [holds_of_insert h] at hholds
  by_cases hid : other = id
  · rw [if_pos hid, htask] at hholds
    cases hholds
  · rwa [if_neg hid] at hholds

/-- An activity that goes on to a stage that holds the same. -/
theorem holds_of_advance {before : Task}
    (hbefore : w.tasks.lookup id = some before)
    (h : w'.tasks = w.tasks.insert id task) (hview : view task = view before) :
    w'.Holds view other name ↔ w.Holds view other name := by
  rw [holds_of_insert h]
  by_cases hid : other = id
  · rw [if_pos hid, hid, holds_of_lookup hbefore, hview]
  · rw [if_neg hid]

end World

/-- What the steps of the server are. -/
inductive Step (w : World) : Action → World → Prop
  | register (name : String) (hlock : w.writer = none) :
      Step w (.register name) (w.register name)
  | remove (name : String) (hlock : w.writer = none) :
      Step w (.remove name) (w.remove name)
  | updateStatus (name : String) (status : ConnectorStatus)
      (hlock : w.writer = none) :
      Step w (.updateStatus name status) (w.updateStatus name status)
  | shutdownAll (hlock : w.writer = none) : Step w .shutdownAll w.shutdownAll
  | accept (id : ℕ) (name : String) (tables : List String)
      (hlock : w.writer = none) (hfresh : w.tasks.lookup id = none)
      (haccepts : w.app.acceptsSnapshot name = .ok ()) :
      Step w (.check id name tables) (w.accept id name tables)
  | refuse (id : ℕ) (name : String) (tables : List String) (reason : Refusal)
      (hrefuses : w.app.acceptsSnapshot name = .error reason) :
      Step w (.check id name tables) w
  | setStatus (id : ℕ) (name : String) (tables : List String)
      (hlock : w.writer = none)
      (htask : w.tasks.lookup id = some (.accepted name tables)) :
      Step w (.setStatus id) (w.setStatus id name tables)
  | spawn (id : ℕ) (name : String) (tables : List String)
      (htask : w.tasks.lookup id = some (.launching name tables)) :
      Step w (.spawn id) (w.spawn id name tables)
  | complete (id : ℕ) (name : String) (tables : List String)
      (hlock : w.writer = none)
      (htask : w.tasks.lookup id = some (.background name tables)) :
      Step w (.complete id) (w.complete id name tables)
  | finish (count : UInt64) (hlock : w.writer = some count) :
      Step w .finish (w.finish count)
  | add (id : ℕ) (name : String) (count : UInt64)
      (hfresh : w.tasks.lookup id = none) :
      Step w (.add id name count) (w.add id name count)
  | apply (id : ℕ) (name : String) (count : UInt64) (hlock : w.writer = none)
      (htask : w.tasks.lookup id = some (.counted name count)) :
      Step w (.apply id) (w.apply id name count)

theorem World.step_cases {w w' : World} {a : Action}
    (h : w.step a = some w') : Step w a w' := by
  cases a with
  | register name =>
      obtain ⟨hlock, ⟨⟩⟩ := Option.ite_none_right_eq_some.mp h
      exact .register name hlock
  | remove name =>
      obtain ⟨⟨hlock, -⟩, ⟨⟩⟩ := Option.ite_none_right_eq_some.mp h
      exact .remove name hlock
  | updateStatus name status =>
      obtain ⟨hlock, ⟨⟩⟩ := Option.ite_none_right_eq_some.mp h
      exact .updateStatus name status hlock
  | shutdownAll =>
      obtain ⟨hlock, ⟨⟩⟩ := Option.ite_none_right_eq_some.mp h
      exact .shutdownAll hlock
  | check id name tables =>
      obtain ⟨⟨hlock, -, hfresh⟩, h⟩ := Option.ite_none_right_eq_some.mp h
      cases haccepts : w.app.acceptsSnapshot name with
      | ok value =>
          rw [haccepts] at h
          obtain rfl := Option.some.inj h
          exact .accept id name tables hlock hfresh haccepts
      | error reason =>
          rw [haccepts] at h
          obtain rfl := Option.some.inj h
          exact .refuse id name tables reason haccepts
  | setStatus id =>
      simp only [World.step] at h
      split at h
      · next name tables htask hlock =>
          obtain rfl := Option.some.inj h
          exact .setStatus id name tables hlock htask
      · cases h
  | spawn id =>
      simp only [World.step] at h
      split at h
      · next name tables htask =>
          obtain rfl := Option.some.inj h
          exact .spawn id name tables htask
      · cases h
  | complete id =>
      simp only [World.step] at h
      split at h
      · next name tables htask hlock =>
          obtain rfl := Option.some.inj h
          exact .complete id name tables hlock htask
      · cases h
  | finish =>
      obtain ⟨count, hlock, rfl⟩ := Option.map_eq_some_iff.mp h
      exact .finish count hlock
  | add id name count =>
      obtain ⟨hfresh, ⟨⟩⟩ := Option.ite_none_right_eq_some.mp h
      exact .add id name count hfresh
  | apply id =>
      simp only [World.step] at h
      split at h
      · next name count htask hlock =>
          obtain rfl := Option.some.inj h
          exact .apply id name count hlock htask
      · cases h

end OpenCdc.Mcp
