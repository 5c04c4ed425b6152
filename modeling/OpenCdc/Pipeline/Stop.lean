import OpenCdc.Pipeline.Lifecycle

/-!
# Stopping a pipeline

Stopping closes the sinks in order and then stops the connector.  The first
sink that fails to close ends it: the sinks behind that one stay open, and the
connector is not told to stop.
-/

namespace OpenCdc

variable {κ σ : Type}

/-! ## Counting the calls of `close` -/

/-- The same sink, with a count of the calls of `close` beside its state. -/
def Sink.countingCloses (sink : Sink σ) : Sink (σ × ℕ) where
  name := sink.name
  write := fun state events =>
    let (result, inner) := sink.write state.1 events
    (result, inner, state.2)
  flush := fun state =>
    let (result, inner) := sink.flush state.1
    (result, inner, state.2)
  close := fun state =>
    let (result, inner) := sink.close state.1
    (result, inner, state.2 + 1)

namespace SinkCell

def countingCloses (cell : SinkCell σ) : SinkCell (σ × ℕ) where
  sink := cell.sink.countingCloses
  state := (cell.state, 0)
  calls := cell.calls

/-- How often the sink was closed. -/
def closes (cell : SinkCell (σ × ℕ)) : ℕ := cell.state.2

theorem close_countingCloses (cell : SinkCell σ) :
    cell.countingCloses.close.1 = cell.close.1 ∧
      cell.countingCloses.close.2.closes = 1 ∧
      cell.countingCloses.close.2.state.1 = cell.close.2.state :=
  ⟨rfl, rfl, rfl⟩

end SinkCell

/-! ## Closing the sinks -/

theorem closeSinks_cons_ok {cell : SinkCell σ} (cells : List (SinkCell σ))
    (h : cell.close.1 = .ok ()) :
    closeSinks (cell :: cells) =
      ((closeSinks cells).1, cell.close.2 :: (closeSinks cells).2) := by
  rw [closeSinks]
  rcases hclose : cell.close with ⟨result, cell'⟩
  rw [hclose] at h
  cases h
  rfl

theorem closeSinks_cons_error {cell : SinkCell σ} {err : PipelineError}
    (cells : List (SinkCell σ)) (h : cell.close.1 = .error err) :
    closeSinks (cell :: cells) =
      (.error (.sink ("close error: " ++ err.display)),
        cell.close.2 :: cells) := by
  rw [closeSinks]
  rcases hclose : cell.close with ⟨result, cell'⟩
  rw [hclose] at h
  cases h
  rfl

theorem closeSinks_ok_iff {cells : List (SinkCell σ)} :
    (closeSinks cells).1 = .ok () ↔ ∀ cell ∈ cells, cell.close.1 = .ok () := by
  induction cells with
  | nil => simp [closeSinks]
  | cons cell cells ih =>
      rw [List.forall_mem_cons, ← ih]
      cases hcell : cell.close.1 with
      | error err => simp [closeSinks_cons_error cells hcell]
      | ok _ => simp [closeSinks_cons_ok cells hcell]

/-- Counting changes neither the result nor the states of the sinks. -/
theorem closeSinks_countingCloses (cells : List (SinkCell σ)) :
    (closeSinks (cells.map SinkCell.countingCloses)).1 = (closeSinks cells).1 ∧
      (closeSinks (cells.map SinkCell.countingCloses)).2.map (·.state.1) =
        (closeSinks cells).2.map (·.state) := by
  induction cells with
  | nil => exact ⟨rfl, rfl⟩
  | cons cell cells ih =>
      obtain ⟨hresult, -, hstate⟩ := cell.close_countingCloses
      rw [List.map_cons]
      cases hcell : cell.close.1 with
      | error err =>
          rw [closeSinks_cons_error cells hcell,
            closeSinks_cons_error _ (hresult.trans hcell)]
          exact ⟨rfl, congrArg₂ List.cons hstate List.map_map⟩
      | ok _ =>
          rw [closeSinks_cons_ok cells hcell,
            closeSinks_cons_ok _ (hresult.trans hcell)]
          simp [hstate, ih]

/-- The sinks are closed up to the first that fails, and that one is. -/
theorem closes_closeSinks_of_error {front back : List (SinkCell σ)}
    {cell : SinkCell σ} {err : PipelineError}
    (hfront : ∀ cell ∈ front, cell.close.1 = .ok ())
    (hcell : cell.close.1 = .error err) :
    (closeSinks ((front ++ cell :: back).map SinkCell.countingCloses)).2.map
        SinkCell.closes =
      List.replicate (front.length + 1) 1 ++ List.replicate back.length 0 := by
  induction front with
  | nil =>
      obtain ⟨hresult, hcloses, -⟩ := cell.close_countingCloses
      have hback : (back.map SinkCell.countingCloses).map SinkCell.closes =
          List.replicate back.length 0 := by
        rw [List.map_map]
        exact List.map_const'
      rw [List.nil_append, List.map_cons,
        closeSinks_cons_error _ (hresult.trans hcell), List.map_cons, hcloses,
        hback]
      rfl
  | cons first front ih =>
      obtain ⟨hfirst, hfront⟩ := List.forall_mem_cons.mp hfront
      obtain ⟨hresult, hcloses, -⟩ := first.close_countingCloses
      rw [List.cons_append, List.map_cons,
        closeSinks_cons_ok _ (hresult.trans hfirst), List.map_cons, hcloses,
        ih hfront]
      rfl

theorem closes_closeSinks_of_ok {cells : List (SinkCell σ)}
    (h : ∀ cell ∈ cells, cell.close.1 = .ok ()) :
    (closeSinks (cells.map SinkCell.countingCloses)).2.map SinkCell.closes =
      List.replicate cells.length 1 := by
  induction cells with
  | nil => rfl
  | cons first cells ih =>
      obtain ⟨hfirst, hcells⟩ := List.forall_mem_cons.mp h
      obtain ⟨hresult, hcloses, -⟩ := first.close_countingCloses
      rw [List.map_cons, closeSinks_cons_ok _ (hresult.trans hfirst),
        List.map_cons, hcloses, ih hcells]
      rfl

namespace Pipeline

def countingCloses (p : Pipeline κ σ) : Pipeline κ (σ × ℕ) where
  name := p.name
  connector := p.connector
  transforms := p.transforms
  sinks := p.sinks.map SinkCell.countingCloses
  running := p.running

/-- Stopping closes every sink once, stops the connector once, and reports an
error if there was one. -/
structure StopsAll (p : Pipeline κ σ) : Prop where
  closes : p.countingCloses.stop.2.sinks.map SinkCell.closes =
    List.replicate p.sinks.length 1
  stopped : p.countingCloses.stop.2.connector.calls =
    p.connector.calls ++ [.stop]
  reported : ((∃ cell ∈ p.sinks, ∃ err, cell.close.1 = .error err) ∨
      ∃ err, p.connector.stop.1 = .error err) →
    ∃ err, p.countingCloses.stop.1 = .error err

/-- Counting does not change what stopping returns and leaves. -/
theorem stop_countingCloses (p : Pipeline κ σ) :
    p.countingCloses.stop.1 = p.stop.1 ∧
      p.countingCloses.stop.2.connector = p.stop.2.connector ∧
      p.countingCloses.stop.2.sinks.map (·.state.1) =
        p.stop.2.sinks.map (·.state) := by
  obtain ⟨hresult, hstates⟩ := closeSinks_countingCloses p.sinks
  cases hclose : (closeSinks p.sinks).1 with
  | error err =>
      rw [stop_of_error hclose,
        @stop_of_error κ (σ × ℕ) p.countingCloses _ (hresult.trans hclose)]
      exact ⟨rfl, rfl, hstates⟩
  | ok _ =>
      rw [stop_of_ok hclose,
        @stop_of_ok κ (σ × ℕ) p.countingCloses (hresult.trans hclose)]
      exact ⟨rfl, rfl, hstates⟩

/-- A sink that fails to close leaves the sinks behind it open, and the
connector is not told. -/
theorem closes_stop_of_error {p : Pipeline κ σ} {front back : List (SinkCell σ)}
    {cell : SinkCell σ} {err : PipelineError}
    (hsinks : p.sinks = front ++ cell :: back)
    (hfront : ∀ cell ∈ front, cell.close.1 = .ok ())
    (hcell : cell.close.1 = .error err) :
    p.countingCloses.stop.2.sinks.map SinkCell.closes =
        List.replicate (front.length + 1) 1 ++ List.replicate back.length 0 ∧
      p.countingCloses.stop.2.connector = p.connector := by
  have hcloses := @closes_closeSinks_of_error σ front back cell err hfront hcell
  rw [← hsinks] at hcloses
  cases hclose : (closeSinks p.countingCloses.sinks).1 with
  | error err =>
      rw [stop_of_error hclose]
      exact ⟨hcloses, rfl⟩
  | ok _ =>
      have hok := closeSinks_ok_iff.mp
        ((closeSinks_countingCloses p.sinks).1.symm.trans hclose)
      rw [hok cell (hsinks ▸ List.mem_append_right front List.mem_cons_self)]
        at hcell
      cases hcell

/-- Stopping reaches everything exactly if no sink fails to close. -/
theorem stopsAll_iff (p : Pipeline κ σ) :
    p.StopsAll ↔ ∀ cell ∈ p.sinks, cell.close.1 = .ok () := by
  have hresult := (closeSinks_countingCloses p.sinks).1
  rw [← closeSinks_ok_iff, ← hresult]
  constructor
  · intro h
    have hcalls := (calls_of_stop p.countingCloses).symm.trans h.stopped
    have hstop : stopCalls p.countingCloses = [.stop] :=
      List.append_cancel_left hcalls
    cases hclose : (closeSinks p.countingCloses.sinks).1 with
    | error err =>
        rw [stopCalls, hclose] at hstop
        cases hstop
    | ok _ => exact hclose
  · intro hclose
    have hsinks := closeSinks_ok_iff.mp (hresult.symm.trans hclose)
    have hstop := @stop_of_ok κ (σ × ℕ) p.countingCloses hclose
    refine ⟨?_, ?_, ?_⟩
    · rw [hstop]
      exact closes_closeSinks_of_ok hsinks
    · rw [hstop]
      rfl
    · rw [hstop]
      rintro (⟨cell, hcell, err, herr⟩ | ⟨err, herr⟩)
      · rw [hsinks cell hcell] at herr
        cases herr
      · have hfails : p.countingCloses.connector.stop.1 = .error err := herr
        exact ⟨_, congrArg (Except.mapError _) hfails⟩

/-- A sink that fails to close. -/
def brokenSink : Sink ℕ where
  name := "broken"
  write := fun count events => (.ok (), count + events.length)
  close := fun count => (.error (.sink "closed"), count)

def brokenClose : Pipeline Script ℕ where
  name := "test"
  connector := { connector := scripted, state := ⟨[], .error (.other ""), [], .ok ()⟩ }
  sinks := [{ sink := brokenSink, state := 0 }, { sink := nullSink, state := 0 }]

/-- The second sink stays open, and the connector runs on. -/
theorem not_stopsAll_brokenClose :
    ¬brokenClose.StopsAll ∧
      brokenClose.countingCloses.stop.2.sinks.map SinkCell.closes = [1, 0] ∧
      brokenClose.stop.2.connector.calls = [] := by
  refine ⟨fun h => ?_, rfl, rfl⟩
  have hcloses : [1, 0] = [1, 1] := h.closes
  exact absurd hcloses (by decide)

end Pipeline
end OpenCdc
