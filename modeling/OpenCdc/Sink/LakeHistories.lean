import OpenCdc.Pipeline.SinkHistories
import OpenCdc.Sink.OpenLake

/-!
# A pipeline into lakes

`OpenLakeSink` as the pipeline uses it: one event a write.  A slice of one
event never mixes tables, so over the whole life of a pipeline the rows of each
table are right; what is left to the names is the registration.
-/

namespace OpenCdc
namespace OpenLakeSink

open Foundation Foundation.Arrow

variable {lib : Arrays} {store : TableStore lib} {κ : Type}
variable {toJsonString : Json.Value → Option String}

/-- `impl Sink for OpenLakeSink` -/
def asSink (toJsonString : Json.Value → Option String) (hlib : lib.Documented)
    (name : String) : Sink (OpenLakeSink lib store) where
  name := name
  write self events :=
    ((self.write toJsonString events).1.toExcept
      (write_fst_ne_panicked hlib self events),
      (self.write toJsonString events).2)

/-! ## One sink of the pipeline -/

variable {hlib : lib.Documented} {cell : SinkCell (OpenLakeSink lib store)}

/-- Events that are written one by one are written as slices of one event. -/
theorem writeSingly_asSink (name : String) (self : OpenLakeSink lib store)
    (events : List ChangeEvent) :
    (Pipeline.writeSingly (asSink toJsonString hlib name) self events).2 =
      self.writeAll toJsonString (events.map fun event => [event]) := by
  induction events generalizing self with
  | nil => rfl
  | cons event events ih => exact ih _

/-- Slices of one event, put together, are the events. -/
theorem flatten_singletons (events : List ChangeEvent) :
    (events.map fun event => [event]).flatten = events := by
  rw [← List.flatMap_def]
  exact List.flatMap_singleton' events

theorem uniform_singletons {events slice : List ChangeEvent}
    (h : slice ∈ events.map fun event => [event]) :
    Routing.Uniform makeTableId slice := by
  obtain ⟨event, -, rfl⟩ := List.mem_map.mp h
  intro item hitem
  rw [List.mem_singleton.mp hitem]
  rfl

/-! ## All sinks, throughout -/

/-- The store of a sink holds what was dispatched to the sink: each table the
rows of its events, in order, and every table registered before its first row
exactly if no two tables of the events are joined to one key. -/
structure HoldsDispatched (toJsonString : Json.Value → Option String)
    (cell : SinkCell (OpenLakeSink lib store)) : Prop where
  rows : ∀ tableId, List.Forall₂ (HoldsRow toJsonString lib)
    (cell.dispatched.filter fun event => makeTableId event = tableId)
    (rowsOf lib (Routing.payloadsTo tableId cell.state.calls).flatten)
  registered : Routing.RegisteredFrom [] cell.state.calls ↔
    ∀ a ∈ cell.dispatched, ∀ b ∈ cell.dispatched,
      tableKey a = tableKey b → makeTableId a = makeTableId b

theorem holdsDispatched_of_writtenSingly (hlib : lib.Documented)
    {name : String} {state : store.State}
    (h : Pipeline.WrittenSingly (asSink toJsonString hlib name)
      (new name state) cell) : HoldsDispatched toJsonString cell := by
  have hstate := h.state_eq
  rw [writeSingly_asSink] at hstate
  have huniform : ∀ slice ∈ cell.dispatched.map fun event => [event],
      Routing.Uniform makeTableId slice := fun slice => uniform_singletons
  have hcalls := @calls_writeAll_new lib store toJsonString hlib name state
    (cell.dispatched.map fun event => [event])
  rw [← hstate] at hcalls
  constructor
  · intro tableId
    have hrows := @forall₂_headed lib toJsonString hlib
      (cell.dispatched.map fun event => [event]) tableId
    rw [Routing.flatten_filter_headed huniform, flatten_singletons] at hrows
    rw [hcalls]
    exact hrows
  · rw [hcalls, registeredFrom_routedCalls_iff huniform, flatten_singletons]

/-- Whatever is asked of a pipeline over lakes, and however runs and writes
end, every lake holds between the requests what was dispatched to it. -/
theorem holdsDispatched_throughout (hlib : lib.Documented) (name : String)
    (connector : Connector κ) (state : κ) (transforms : List Transform)
    (lakes : List (String × store.State)) (requests : List Pipeline.Request) :
    Throughout Pipeline.after
      (fun p => ∀ cell ∈ p.sinks, HoldsDispatched toJsonString cell)
      (Pipeline.built name connector state transforms
        (lakes.map fun lake =>
          (asSink toJsonString hlib lake.1, new lake.1 lake.2))) requests := by
  have hsingly := Pipeline.writtenSingly_throughout name connector state
    transforms
    (lakes.map fun lake =>
      (asSink toJsonString hlib lake.1, new lake.1 lake.2))
    (by
      intro pair hpair lake
      obtain ⟨_, -, rfl⟩ := List.mem_map.mp hpair
      rfl)
    requests
  refine hsingly.mono ?_
  intro p hp cell hcell
  obtain ⟨pair, hpair, hwritten⟩ := hp cell hcell
  obtain ⟨lake, -, rfl⟩ := List.mem_map.mp hpair
  exact holdsDispatched_of_writtenSingly hlib hwritten

/-- Two runs of a pipeline over two lakes, and a stop. -/
theorem holdsDispatched_throughout_ofScript :
    plain.Documented ∧ Throughout Pipeline.after
      (fun p => ∀ cell ∈ p.sinks, HoldsDispatched rowText cell)
      (Pipeline.built "test" scripted
        ⟨[rowIn "testdb" "users"], .ok .snapshotDone,
          [rowIn "testdb" "orders"], .ok ()⟩ []
        ([("lake", ()), ("copy", ())].map fun lake =>
          (asSink rowText documented_plain lake.1,
            (new lake.1 lake.2 : OpenLakeSink plain (openStore plain)))))
      [.run (some ["users"]), .stop, .run none] :=
  ⟨documented_plain, holdsDispatched_throughout documented_plain _ _ _ _ _ _⟩

end OpenLakeSink
end OpenCdc
