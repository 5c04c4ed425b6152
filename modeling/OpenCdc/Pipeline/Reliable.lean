import OpenCdc.Pipeline.Delivery

/-!
# Runs whose sinks never fail

With sinks that never fail a run only stops early when the transform chain
fails, or when the connector does.  A stream that ends in an error returns it
before its channel is drained.
-/

namespace OpenCdc

variable {κ σ : Type}

/-! ## Sinks that never fail -/

def SinksNeverFail (cells : List (SinkCell σ)) : Prop :=
  ∀ cell ∈ cells, ∀ state events,
    (cell.sink.write state events).1 = .ok ()

theorem dispatch_of_neverFail (event : ChangeEvent)
    {cells : List (SinkCell σ)} (h : SinksNeverFail cells) :
    (dispatch event cells).1 = .ok () ∧
      SinksNeverFail (dispatch event cells).2 := by
  induction cells with
  | nil => exact ⟨rfl, h⟩
  | cons cell cells ih =>
      obtain ⟨hcell, hrest⟩ := List.forall_mem_cons.mp h
      obtain ⟨hresult, hafter⟩ := ih hrest
      have hwrite : (cell.write [event]).1 = .ok () := hcell _ _
      rw [dispatch_cons_ok cells hwrite]
      refine ⟨hresult, List.forall_mem_cons.mpr ⟨?_, hafter⟩⟩
      have hsink : (cell.write [event]).2.sink = cell.sink := rfl
      intro state events
      rw [hsink]
      exact hcell state events

namespace Pipeline

theorem processEvent_of_neverFail {p : Pipeline κ σ}
    (h : SinksNeverFail p.sinks) (event : ChangeEvent) :
    ((p.processEvent event).1 = .ok () ↔
        ¬ChainFails p.transforms event) ∧
      SinksNeverFail (p.processEvent event).2.sinks ∧
      (p.processEvent event).2.transforms = p.transforms := by
  rw [chainFails_iff]
  unfold processEvent
  cases hchain : applyTransforms p.transforms (some event) with
  | error err => simpa using h
  | ok event' =>
      cases event' with
      | none => simpa using h
      | some event' =>
          obtain ⟨hresult, hafter⟩ := dispatch_of_neverFail event' h
          simpa [hresult] using hafter

/-- With sinks that never fail, draining succeeds unless the chain fails. -/
theorem drain_ok_iff_of_neverFail {p : Pipeline κ σ}
    (h : SinksNeverFail p.sinks) (events : List ChangeEvent) :
    (p.drain events).1 = .ok () ↔
      ∀ event ∈ events, ¬ChainFails p.transforms event := by
  induction events generalizing p with
  | nil => simp [drain]
  | cons event events ih =>
      obtain ⟨hresult, hsinks, htransforms⟩ :=
        processEvent_of_neverFail h event
      rw [drain, List.forall_mem_cons, ← hresult]
      rcases hevent : p.processEvent event with ⟨result, q⟩
      rw [hevent] at hsinks htransforms
      cases result with
      | error err => simp
      | ok _ =>
          have hrest := ih hsinks
          rw [htransforms] at hrest
          simpa using hrest

/-! ## A stream that ends in an error -/

/-- What the stream of a run starts from: the snapshot's events, the offset
that it returned and the connector after it. -/
def StreamStart (p : Pipeline κ σ) (snapshotTables : Option (List String))
    (snapshotEvents : List ChangeEvent) (offset : Option ConnectorOffset)
    (connector : ConnectorCell κ) : Prop :=
  match snapshotTables with
  | none => snapshotEvents = [] ∧ offset = none ∧ connector = p.connector
  | some tables => ∃ o, (p.connector.snapshot ⟨tables⟩).result = .ok o ∧
      (p.connector.snapshot ⟨tables⟩).sent = snapshotEvents ∧
      snapshotEvents.length ≤ channelCapacity ∧ offset = some o ∧
      connector = (p.connector.snapshot ⟨tables⟩).state

/-- The stream of an idle pipeline sends `streamEvents` and then returns an
error; no transform and no sink fails. -/
structure StreamFails (p : Pipeline κ σ)
    (snapshotTables : Option (List String))
    (snapshotEvents streamEvents : List ChangeEvent) : Prop where
  idle : p.running = false
  sinks : SinksNeverFail p.sinks
  chain : ∀ event, ¬ChainFails p.transforms event
  stream : ∃ offset connector err,
    StreamStart p snapshotTables snapshotEvents offset connector ∧
    (connector.stream ⟨offset, []⟩).result = .error err ∧
    (connector.stream ⟨offset, []⟩).sent = streamEvents
  fits : streamEvents.length ≤ channelCapacity

/-- When the run returns its error, every sink has been written the survivors
of all events that were captured. -/
def LosesNothing (p : Pipeline κ σ) (snapshotTables : Option (List String))
    (snapshotEvents streamEvents : List ChangeEvent) : Prop :=
  ∃ err p', p.run snapshotTables = some (.error err, p') ∧
    DeliversAll p p' (snapshotEvents ++ streamEvents)

/-- The error of the stream is returned before its channel is drained. -/
theorem streamFromOffset_error {p : Pipeline κ σ}
    {offset : Option ConnectorOffset} {err : Error}
    (hresult : (p.connector.stream ⟨offset, []⟩).result = .error err)
    (hfits : (p.connector.stream ⟨offset, []⟩).sent.length ≤
      channelCapacity) :
    p.streamFromOffset offset =
      some (.error (.source ("stream failed: " ++ err.display)),
        { p with connector := (p.connector.stream ⟨offset, []⟩).state }) := by
  simp only [streamFromOffset]
  rw [if_neg (by omega), hresult]

theorem StreamFails.run_eq {p : Pipeline κ σ}
    {snapshotTables : Option (List String)}
    {snapshotEvents streamEvents : List ChangeEvent}
    (h : StreamFails p snapshotTables snapshotEvents streamEvents) :
    ∃ err p', p.run snapshotTables = some (.error err, p') ∧
      DeliversAll p p' snapshotEvents := by
  obtain ⟨offset, connector, err, hstart, hresult, hsent⟩ := h.stream
  have hfits := h.fits
  rw [← hsent] at hfits
  cases snapshotTables with
  | none =>
      obtain ⟨rfl, rfl, rfl⟩ := hstart
      have hstream := streamFromOffset_error
        (p := { p with running := true }) hresult hfits
      exact ⟨_, _, (run_none h.idle).trans hstream, Appended.refl p.sinks⟩
  | some tables =>
      obtain ⟨o, hsnapshot, rfl, hsnapshotFits, rfl, rfl⟩ := hstart
      have hdrained := (drain_ok_iff_of_neverFail h.sinks
        (p.connector.snapshot ⟨tables⟩).sent).mpr fun event _ => h.chain event
      have hrun := run_of_snapshot_ok h.idle hsnapshot hsnapshotFits
      rcases hdrain : p.drain (p.connector.snapshot ⟨tables⟩).sent with
        ⟨result, q⟩
      rw [hdrain] at hdrained hrun
      cases hdrained
      have hstream := streamFromOffset_error (p := { q with
        connector := (p.connector.snapshot ⟨tables⟩).state
        running := true }) hresult hfits
      exact ⟨_, _, hrun.trans hstream, (drain_ok hdrain).1⟩

/-- Two records of the same sinks differ by the same events only. -/
theorem Appended.events_unique {xs ys : List ChangeEvent}
    {cells cells' : List (SinkCell σ)} (hcells : cells ≠ [])
    (hxs : Appended xs cells cells') (hys : Appended ys cells cells') :
    xs = ys := by
  cases hxs with
  | nil => exact absurd rfl hcells
  | cons hcell _ =>
      cases hys with
      | cons hcell' _ =>
          rw [hcell] at hcell'
          have hcalls := List.append_cancel_left hcell'
          have hinjective : Function.Injective writeOk := by
            intro e e' he
            simpa [writeOk] using he
          exact List.map_injective_iff.mpr hinjective hcalls

/-- A stream that sends one row and then fails. -/
def brokenStream : Pipeline Script ℕ :=
  ofScript ⟨[], .ok {}, [rowA], .error (.other "reset")⟩

theorem not_losesNothing_brokenStream :
    ¬LosesNothing brokenStream none [] [rowA] := by
  rintro ⟨err, p', hrun, hall⟩
  cases hrun
  cases hall with
  | cons hcalls _ =>
      simp [writeOk, survivors, survivor, brokenStream, ofScript] at hcalls

/-- A stream that ends in an error loses nothing exactly when it had nothing to
deliver. -/
theorem losesNothing_iff (p : Pipeline κ σ)
    (snapshotTables : Option (List String))
    (snapshotEvents streamEvents : List ChangeEvent)
    (h : StreamFails p snapshotTables snapshotEvents streamEvents) :
    LosesNothing p snapshotTables snapshotEvents streamEvents ↔
      p.sinks = [] ∨ survivors p.transforms streamEvents = [] := by
  obtain ⟨err, p', hrun, hdelivers⟩ := h.run_eq
  have hsplit : survivors p.transforms (snapshotEvents ++ streamEvents) =
      survivors p.transforms snapshotEvents ++
        survivors p.transforms streamEvents :=
    List.filterMap_append
  constructor
  · rintro ⟨err', p'', hrun', hall⟩
    rw [hrun] at hrun'
    cases hrun'
    by_cases hsinks : p.sinks = []
    · exact Or.inl hsinks
    · have hevents := Appended.events_unique hsinks hall hdelivers
      rw [hsplit] at hevents
      exact Or.inr (by simpa using hevents)
  · intro hnone
    refine ⟨err, p', hrun, ?_⟩
    rcases hnone with hsinks | hsurvivors
    · unfold DeliversAll Appended at hdelivers ⊢
      rw [hsinks, List.forall₂_nil_left_iff] at hdelivers ⊢
      exact hdelivers
    · rw [DeliversAll, hsplit, hsurvivors, List.append_nil]
      exact hdelivers

theorem losesNothing_iff_brokenStream :
    LosesNothing brokenStream none [] [rowA] ↔
      brokenStream.sinks = [] ∨
        survivors brokenStream.transforms [rowA] = [] :=
  losesNothing_iff brokenStream none [] [rowA] {
    idle := rfl
    sinks := by
      intro cell hcell state events
      rw [List.mem_singleton.mp hcell]
      rfl
    chain := by
      intro event hfails
      obtain ⟨err, herr⟩ := chainFails_iff.mp hfails
      cases herr
    stream := ⟨none, _, .other "reset", ⟨rfl, rfl, rfl⟩, rfl, rfl⟩
    fits := by decide }

end Pipeline
end OpenCdc
