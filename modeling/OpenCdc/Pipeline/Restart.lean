import OpenCdc.Pipeline.Reliable

/-!
# Runs that can be repeated

A run marks the pipeline as running when it starts.  The mark is taken back
where the snapshot fails, and at no other of the places where a run returns an
error.
-/

namespace OpenCdc

variable {κ σ : Type}

/-! ## Events that nothing refuses -/

/-- The sink takes the events, one `write` for each. -/
def SinkCell.Accepts : SinkCell σ → List ChangeEvent → Prop
  | _, [] => True
  | cell, event :: events =>
      (cell.write [event]).1 = .ok () ∧ (cell.write [event]).2.Accepts events

/-- The chain fails on none of the events, and every sink takes what the chain
makes of them. -/
def AcceptsAll (transforms : List Transform) (cells : List (SinkCell σ))
    (events : List ChangeEvent) : Prop :=
  (∀ event ∈ events, ¬ChainFails transforms event) ∧
    ∀ cell ∈ cells, cell.Accepts (survivors transforms events)

theorem dispatch_ok_iff {event : ChangeEvent} {cells : List (SinkCell σ)} :
    (dispatch event cells).1 = .ok () ↔
      ∀ cell ∈ cells, (cell.write [event]).1 = .ok () := by
  induction cells with
  | nil => simp [dispatch]
  | cons cell cells ih =>
      rw [List.forall_mem_cons, ← ih]
      cases hwrite : (cell.write [event]).1 with
      | error err => simp [dispatch_cons_error cells hwrite]
      | ok _ => simp [dispatch_cons_ok cells hwrite]

theorem dispatch_snd_of_ok {event : ChangeEvent} {cells : List (SinkCell σ)}
    (h : ∀ cell ∈ cells, (cell.write [event]).1 = .ok ()) :
    (dispatch event cells).2 =
      cells.map fun cell => (cell.write [event]).2 := by
  induction cells with
  | nil => rfl
  | cons cell cells ih =>
      obtain ⟨hcell, hcells⟩ := List.forall_mem_cons.mp h
      rw [dispatch_cons_ok cells hcell, List.map_cons, ← ih hcells]

theorem acceptsAll_nil (transforms : List Transform)
    (cells : List (SinkCell σ)) : AcceptsAll transforms cells [] :=
  ⟨fun _ hmem => absurd hmem List.not_mem_nil, fun _ _ => trivial⟩

namespace Pipeline

/-- Draining succeeds exactly if neither the chain nor a sink refuses. -/
theorem drain_ok_iff (p : Pipeline κ σ) (events : List ChangeEvent) :
    (p.drain events).1 = .ok () ↔
      AcceptsAll p.transforms p.sinks events := by
  induction events generalizing p with
  | nil => exact iff_of_true rfl (acceptsAll_nil _ _)
  | cons event events ih =>
      rw [drain, processEvent, AcceptsAll, List.forall_mem_cons, survivors,
        List.filterMap_cons, chainFails_iff]
      cases hchain : applyTransforms p.transforms (some event) with
      | error err =>
          refine iff_of_false (by simp) ?_
          rintro ⟨⟨hevent, -⟩, -⟩
          exact hevent ⟨err, rfl⟩
      | ok event' =>
          have hpass : ¬∃ err, Except.ok event' =
              (.error err : Except PipelineError (Option ChangeEvent)) := by
            rintro ⟨err, herr⟩
            cases herr
          rw [survivor_of_ok hchain, and_iff_right hpass]
          cases event' with
          | none => exact ih p
          | some event' =>
              dsimp only
              rcases hdispatch : dispatch event' p.sinks with ⟨result, cells⟩
              have hok := @dispatch_ok_iff σ event' p.sinks
              rw [hdispatch] at hok
              cases result with
              | error err =>
                  refine iff_of_false (by simp) ?_
                  rintro ⟨-, hsinks⟩
                  have hwrites := hok.mpr fun cell hcell =>
                    (hsinks cell hcell).1
                  cases hwrites
              | ok _ =>
                  have hwrites := hok.mp rfl
                  have hcells := dispatch_snd_of_ok hwrites
                  rw [hdispatch] at hcells
                  refine (ih { p with sinks := cells }).trans ?_
                  dsimp only at hcells ⊢
                  rw [AcceptsAll, hcells, List.forall_mem_map]
                  apply and_congr_right
                  intro _
                  apply forall₂_congr
                  intro cell hcell
                  exact (and_iff_right (hwrites cell hcell)).symm

/-! ## Runs that fail -/

def isRunning (p : Pipeline κ σ) : Bool := p.running

/-- Something fails in a run behind its snapshot: the processing of an event, or
the stream. -/
def FailsBehindSnapshot (p : Pipeline κ σ)
    (snapshotTables : Option (List String)) : Prop :=
  ∃ snapshotEvents offset connector,
    StreamStart p snapshotTables snapshotEvents offset connector ∧
      (¬AcceptsAll p.transforms p.sinks snapshotEvents ∨
        (connector.stream ⟨offset, []⟩).sent.length ≤ channelCapacity ∧
          ((∃ err, (connector.stream ⟨offset, []⟩).result = .error err) ∨
            ¬AcceptsAll p.transforms p.sinks
              (snapshotEvents ++ (connector.stream ⟨offset, []⟩).sent)))

theorem streamFromOffset_error_iff {p : Pipeline κ σ}
    {offset : Option ConnectorOffset} :
    (∃ err p', p.streamFromOffset offset = some (.error err, p')) ↔
      (p.connector.stream ⟨offset, []⟩).sent.length ≤ channelCapacity ∧
        ((∃ err, (p.connector.stream ⟨offset, []⟩).result = .error err) ∨
          ¬AcceptsAll p.transforms p.sinks
            (p.connector.stream ⟨offset, []⟩).sent) := by
  by_cases hfits :
      (p.connector.stream ⟨offset, []⟩).sent.length ≤ channelCapacity
  · rw [and_iff_right hfits]
    cases hresult : (p.connector.stream ⟨offset, []⟩).result with
    | error err =>
        exact iff_of_true ⟨_, _, streamFromOffset_error hresult hfits⟩
          (.inl ⟨err, rfl⟩)
    | ok _ =>
        rw [streamFromOffset_ok hresult hfits, ← drain_ok_iff]
        cases (p.drain (p.connector.stream ⟨offset, []⟩).sent).1 with
        | error err => simp
        | ok _ => simp
  · refine iff_of_false ?_ fun h => hfits h.1
    rintro ⟨err, p', h⟩
    unfold streamFromOffset at h
    rw [if_pos (Nat.not_le.mp hfits)] at h
    cases h

/-- The stream leaves the mark as it is. -/
theorem running_of_streamFromOffset {p p' : Pipeline κ σ}
    {offset : Option ConnectorOffset} {result : Except PipelineError Unit}
    (h : p.streamFromOffset offset = some (result, p')) :
    p'.running = p.running := by
  by_cases hfits :
      (p.connector.stream ⟨offset, []⟩).sent.length ≤ channelCapacity
  · cases hresult : (p.connector.stream ⟨offset, []⟩).result with
    | error err =>
        rw [streamFromOffset_error hresult hfits] at h
        cases h
        rfl
    | ok _ =>
        rw [streamFromOffset_ok hresult hfits] at h
        cases h
        rfl
  · unfold streamFromOffset at h
    rw [if_pos (Nat.not_le.mp hfits)] at h
    cases h

/-- What a run returns without a snapshot, or after one that succeeds: an error
leaves the mark. -/
theorem run_of_streamStart {p : Pipeline κ σ}
    {snapshotTables : Option (List String)}
    {snapshotEvents : List ChangeEvent} {offset : Option ConnectorOffset}
    {connector : ConnectorCell κ} (hidle : p.running = false)
    (h : StreamStart p snapshotTables snapshotEvents offset connector) :
    p.run snapshotTables =
      match p.drain snapshotEvents with
      | (.error err, q) => some (.error err, { q with
          connector := connector
          running := true })
      | (.ok _, q) => ({ q with
          connector := connector
          running := true }).streamFromOffset offset := by
  cases snapshotTables with
  | none =>
      obtain ⟨rfl, rfl, rfl⟩ := h
      exact run_none hidle
  | some tables =>
      obtain ⟨o, hresult, rfl, hfits, rfl, rfl⟩ := h
      exact run_of_snapshot_ok hidle hresult hfits

theorem run_error_iff_of_streamStart {p : Pipeline κ σ}
    {snapshotTables : Option (List String)}
    {snapshotEvents : List ChangeEvent} {offset : Option ConnectorOffset}
    {connector : ConnectorCell κ} (hidle : p.running = false)
    (h : StreamStart p snapshotTables snapshotEvents offset connector) :
    (∃ err p', p.run snapshotTables = some (.error err, p')) ↔
      ¬AcceptsAll p.transforms p.sinks snapshotEvents ∨
        (connector.stream ⟨offset, []⟩).sent.length ≤ channelCapacity ∧
          ((∃ err, (connector.stream ⟨offset, []⟩).result = .error err) ∨
            ¬AcceptsAll p.transforms p.sinks
              (snapshotEvents ++ (connector.stream ⟨offset, []⟩).sent)) := by
  rw [run_of_streamStart hidle h]
  simp only [← drain_ok_iff, drain_append]
  rcases hdrain : p.drain snapshotEvents with ⟨result, q⟩
  cases result with
  | error err => simp
  | ok _ =>
      have hstream := @streamFromOffset_error_iff κ σ { q with
        connector := connector
        running := true } offset
      rw [← drain_ok_iff, drain_setConnector] at hstream
      simpa using hstream

theorem running_of_run_of_streamStart {p p' : Pipeline κ σ}
    {snapshotTables : Option (List String)}
    {snapshotEvents : List ChangeEvent} {offset : Option ConnectorOffset}
    {connector : ConnectorCell κ} {result : Except PipelineError Unit}
    (hidle : p.running = false)
    (h : StreamStart p snapshotTables snapshotEvents offset connector)
    (hrun : p.run snapshotTables = some (result, p')) :
    p'.running = true := by
  rw [run_of_streamStart hidle h] at hrun
  rcases hdrain : p.drain snapshotEvents with ⟨drained, q⟩
  rw [hdrain] at hrun
  cases drained with
  | error err =>
      cases hrun
      rfl
  | ok _ => exact running_of_streamFromOffset hrun

/-- Otherwise the snapshot fails or never returns. -/
theorem running_of_run_of_not_streamStart {p p' : Pipeline κ σ}
    {snapshotTables : Option (List String)}
    {result : Except PipelineError Unit} (hidle : p.running = false)
    (h : ∀ snapshotEvents offset connector,
      ¬StreamStart p snapshotTables snapshotEvents offset connector)
    (hrun : p.run snapshotTables = some (result, p')) :
    p'.running = false := by
  cases snapshotTables with
  | none => exact absurd ⟨rfl, rfl, rfl⟩ (h [] none p.connector)
  | some tables =>
      by_cases hfits : (p.connector.snapshot ⟨tables⟩).sent.length ≤
          channelCapacity
      · cases hresult : (p.connector.snapshot ⟨tables⟩).result with
        | ok o =>
            exact absurd ⟨o, hresult, rfl, hfits, rfl, rfl⟩ (h _ _ _)
        | error err =>
            rw [run_of_snapshot_error hidle hresult hfits] at hrun
            cases hrun
            rfl
      · rw [run_of_overfull hidle (Nat.not_le.mp hfits)] at hrun
        cases hrun

/-- After a run that has failed the pipeline is idle exactly if nothing fails
behind the snapshot. -/
theorem idleAfterError_iff {p : Pipeline κ σ}
    {snapshotTables : Option (List String)} (hidle : p.running = false) :
    (∀ err p', p.run snapshotTables = some (.error err, p') →
        p'.isRunning = false) ↔
      ¬FailsBehindSnapshot p snapshotTables := by
  constructor
  · rintro h ⟨snapshotEvents, offset, connector, hstart, hfails⟩
    obtain ⟨err, p', hrun⟩ :=
      (run_error_iff_of_streamStart hidle hstart).mpr hfails
    have hrunning := running_of_run_of_streamStart hidle hstart hrun
    exact Bool.false_ne_true ((h err p' hrun).symm.trans hrunning)
  · intro h err p' hrun
    apply running_of_run_of_not_streamStart hidle _ hrun
    intro snapshotEvents offset connector hstart
    exact h ⟨snapshotEvents, offset, connector, hstart,
      (run_error_iff_of_streamStart hidle hstart).mp ⟨err, p', hrun⟩⟩

/-- A pipeline whose snapshot fails. -/
def brokenSnapshot : Pipeline Script ℕ :=
  ofScript ⟨[], .error (.other "refused"), [], .ok ()⟩

theorem idleAfterError_brokenSnapshot :
    (∀ err p', brokenSnapshot.run (some ["t"]) = some (.error err, p') →
        p'.isRunning = false) ↔
      ¬FailsBehindSnapshot brokenSnapshot (some ["t"]) :=
  idleAfterError_iff rfl

/-- The stream fails, and the pipeline refuses to run again. -/
theorem not_idleAfterError_brokenStream :
    ∃ err p', brokenStream.run none = some (.error err, p') ∧
      p'.isRunning = true ∧ p'.run none =
        some (.error (.stopped "pipeline is already running"), p') :=
  ⟨_, _, rfl, rfl, rfl⟩

end Pipeline
end OpenCdc
