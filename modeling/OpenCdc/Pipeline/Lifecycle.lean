import OpenCdc.Foundation.Interleaving
import OpenCdc.Pipeline.Handoff

/-!
# The life of a connector

A connector is started before it is asked for rows, and not asked any more
once it is stopped.  The pipeline asks and stops; nothing that it calls starts
the connector.
-/

namespace OpenCdc
namespace Pipeline

/-! ## The protocol -/

/-- The calls of `trait Connector` that its life consists of. -/
inductive LifecycleCall where
  | start (result : Except Error Unit)
  | stop
  | snapshot
  | stream

/-- A start has succeeded and no stop has been called since. -/
def IsStarted (calls : List LifecycleCall) : Prop :=
  ∃ before after, calls = before ++ .start (.ok ()) :: after ∧ .stop ∉ after

/-- Rows are asked of a started connector only. -/
def ObeysLifecycle (calls : List LifecycleCall) : Prop :=
  ∀ before call after, calls = before ++ call :: after →
    call = .snapshot ∨ call = .stream → IsStarted before

def lifecycleCall : ConnectorCall → LifecycleCall
  | .snapshot _ => .snapshot
  | .stream _ => .stream
  | .stop => .stop

/-- What a pipeline calls never contains a start. -/
theorem not_isStarted_map_lifecycleCall (calls : List ConnectorCall) :
    ¬IsStarted (calls.map lifecycleCall) := by
  rintro ⟨before, after, hsplit, -⟩
  have hmem : LifecycleCall.start (.ok ()) ∈ calls.map lifecycleCall := by
    rw [hsplit]
    simp
  obtain ⟨call, -, hcall⟩ := List.mem_map.mp hmem
  cases call <;> cases hcall

def AsksForRows : ConnectorCall → Prop
  | .snapshot _ => True
  | .stream _ => True
  | .stop => False

theorem asksForRows_iff {call : ConnectorCall} :
    AsksForRows call ↔
      lifecycleCall call = .snapshot ∨ lifecycleCall call = .stream := by
  cases call <;> simp [AsksForRows, lifecycleCall]

/-- So it obeys the protocol only if it never asks. -/
theorem obeysLifecycle_map_lifecycleCall_iff {calls : List ConnectorCall} :
    ObeysLifecycle (calls.map lifecycleCall) ↔
      ∀ call ∈ calls, ¬AsksForRows call := by
  constructor
  · intro h call hmem hasks
    obtain ⟨before, after, rfl⟩ := List.append_of_mem hmem
    apply not_isStarted_map_lifecycleCall before
    exact h _ (lifecycleCall call) (after.map lifecycleCall) (by simp)
      (asksForRows_iff.mp hasks)
  · intro h before call after hsplit hcall
    have hmem : call ∈ calls.map lifecycleCall := by
      rw [hsplit]
      simp
    obtain ⟨call, hcalls, rfl⟩ := List.mem_map.mp hmem
    exact absurd (asksForRows_iff.mpr hcall) (h call hcalls)

/-! ## Requests to a pipeline -/

/-- A call of the pipeline's owner. -/
inductive Request where
  | run (snapshotTables : Option (List String))
  | stop

variable {κ σ : Type}

/-- The calls that a run makes on the connector, also if it never returns. -/
def runCalls (p : Pipeline κ σ) (snapshotTables : Option (List String)) :
    List ConnectorCall :=
  if p.running then []
  else
    match snapshotTables with
    | none => [.stream ⟨none, []⟩]
    | some tables =>
        let call := p.connector.snapshot ⟨tables⟩
        if channelCapacity < call.sent.length then [.snapshot ⟨tables⟩]
        else
          match call.result with
          | .error _ => [.snapshot ⟨tables⟩]
          | .ok offset =>
              match (p.drain call.sent).1 with
              | .error _ => [.snapshot ⟨tables⟩]
              | .ok _ => [.snapshot ⟨tables⟩, .stream ⟨some offset, []⟩]

def stopCalls (p : Pipeline κ σ) : List ConnectorCall :=
  match (closeSinks p.sinks).1 with
  | .error _ => []
  | .ok _ => [.stop]

def requestCalls (p : Pipeline κ σ) : Request → List ConnectorCall
  | .run snapshotTables => runCalls p snapshotTables
  | .stop => stopCalls p

/-- The result of a request and the pipeline after it, if it returns. -/
def respond (p : Pipeline κ σ) :
    Request → Option (Except PipelineError Unit × Pipeline κ σ)
  | .run snapshotTables => p.run snapshotTables
  | .stop => some p.stop

/-- The pipeline after a request, if the request returns. -/
def after (p : Pipeline κ σ) (request : Request) : Option (Pipeline κ σ) :=
  (respond p request).map Prod.snd

/-- The calls that a sequence of requests makes on the connector; behind a
request that never returns there is none. -/
def trace (p : Pipeline κ σ) : List Request → List ConnectorCall
  | [] => []
  | request :: requests =>
      match respond p request with
      | none => requestCalls p request
      | some (_, p') => requestCalls p request ++ trace p' requests

/-! ## The calls of a request -/

theorem calls_of_run_eq {p p' : Pipeline κ σ}
    {snapshotTables : Option (List String)} {result : Except PipelineError Unit}
    (hrun : p.run snapshotTables = some (result, p')) :
    p'.connector.calls =
      p.connector.calls ++ runCalls p snapshotTables := by
  unfold runCalls
  by_cases hidle : p.running = false
  · rw [if_neg (by simp [hidle])]
    cases snapshotTables with
    | none =>
        rw [run_none hidle] at hrun
        rw [calls_of_streamFromOffset hrun]
    | some tables =>
        dsimp only
        split_ifs with hfull
        · rw [run_of_overfull hidle hfull] at hrun
          cases hrun
        · rcases hresult : (p.connector.snapshot ⟨tables⟩).result with
            err | offset
          · rw [run_of_snapshot_error hidle hresult (by omega)] at hrun
            obtain ⟨-, hp⟩ := Prod.mk.inj (Option.some.inj hrun)
            rw [← hp]
            rfl
          · rw [run_of_snapshot_ok hidle hresult (by omega)] at hrun
            rcases hdrain : p.drain (p.connector.snapshot ⟨tables⟩).sent with
              ⟨err | _, q⟩
            · simp only [hdrain, Option.some.injEq, Prod.mk.injEq] at hrun
              rw [← hrun.2]
              rfl
            · rw [hdrain] at hrun
              rw [calls_of_streamFromOffset hrun]
              simp [ConnectorCell.snapshot]
  · rw [if_pos (by simpa using hidle), List.append_nil]
    rw [run, if_pos (by simpa using hidle)] at hrun
    obtain ⟨-, hp⟩ := Prod.mk.inj (Option.some.inj hrun)
    rw [← hp]

theorem stop_of_error {p : Pipeline κ σ} {err : PipelineError}
    (h : (closeSinks p.sinks).1 = .error err) :
    p.stop = (.error err, { p with
      running := false
      sinks := (closeSinks p.sinks).2 }) := by
  rw [stop]
  rcases hclose : closeSinks p.sinks with ⟨result, sinks⟩
  rw [hclose] at h
  cases h
  rfl

theorem stop_of_ok {p : Pipeline κ σ} (h : (closeSinks p.sinks).1 = .ok ()) :
    p.stop =
      (p.connector.stop.1.mapError fun err =>
        .source ("stop error: " ++ err.display), { p with
          running := false
          sinks := (closeSinks p.sinks).2
          connector := p.connector.stop.2 }) := by
  rw [stop]
  rcases hclose : closeSinks p.sinks with ⟨result, sinks⟩
  rw [hclose] at h
  cases h
  rcases p.connector.stop with ⟨stopped, connector⟩
  cases stopped with
  | error err => rfl
  | ok _ => rfl

theorem calls_of_stop (p : Pipeline κ σ) :
    p.stop.2.connector.calls = p.connector.calls ++ stopCalls p := by
  rw [stopCalls]
  cases hclose : (closeSinks p.sinks).1 with
  | error err =>
      rw [stop_of_error hclose]
      exact (List.append_nil _).symm
  | ok _ =>
      rw [stop_of_ok hclose]
      rfl

/-- The calls of a request are those that it adds to the connector's record. -/
theorem calls_of_respond {p p' : Pipeline κ σ} {request : Request}
    {result : Except PipelineError Unit}
    (hrespond : respond p request = some (result, p')) :
    p'.connector.calls = p.connector.calls ++ requestCalls p request := by
  cases request with
  | run snapshotTables => exact calls_of_run_eq hrespond
  | stop =>
      have hstop : p.stop = (result, p') := Option.some.inj hrespond
      have hcalls := calls_of_stop p
      rw [hstop] at hcalls
      exact hcalls

theorem running_stop (p : Pipeline κ σ) : p.stop.2.running = false := by
  cases hclose : (closeSinks p.sinks).1 with
  | error err => rw [stop_of_error hclose]
  | ok _ => rw [stop_of_ok hclose]

theorem not_asksForRows_of_mem_stopCalls {p : Pipeline κ σ}
    {call : ConnectorCall} (h : call ∈ stopCalls p) : ¬AsksForRows call := by
  unfold stopCalls at h
  rcases hclose : (closeSinks p.sinks).1 with err | _
  · simp [hclose] at h
  · have hcall : call = .stop := by simpa [hclose] using h
    rw [hcall]
    exact id

/-- Whatever becomes of it, a run of an idle pipeline begins by asking. -/
theorem exists_asksForRows_runCalls {p : Pipeline κ σ}
    (hidle : p.running = false) (snapshotTables : Option (List String)) :
    ∃ call ∈ runCalls p snapshotTables, AsksForRows call := by
  unfold runCalls
  rw [if_neg (by simp [hidle])]
  cases snapshotTables with
  | none => exact ⟨.stream ⟨none, []⟩, List.mem_singleton.mpr rfl, trivial⟩
  | some tables =>
      refine ⟨.snapshot ⟨tables⟩, ?_, trivial⟩
      dsimp only
      split_ifs
      · simp
      · rcases (p.connector.snapshot ⟨tables⟩).result with err | offset
        · simp
        · dsimp only
          rcases (p.drain (p.connector.snapshot ⟨tables⟩).sent).1 with err | _
          · simp
          · simp

/-! ## The calls of a sequence of requests -/

/-- The trace of requests that return is what they add to the connector's
record. -/
theorem calls_of_runFrom {p p' : Pipeline κ σ} {requests : List Request}
    (h : Foundation.runFrom after p requests = some p') :
    p'.connector.calls = p.connector.calls ++ trace p requests := by
  induction requests generalizing p with
  | nil =>
      cases h
      exact (List.append_nil _).symm
  | cons request requests ih =>
      obtain ⟨q, hafter, hrest⟩ := Foundation.runFrom_cons_eq_some.mp h
      obtain ⟨⟨result, q'⟩, hrespond, rfl⟩ := Option.map_eq_some_iff.mp hafter
      rw [ih hrest, calls_of_respond hrespond, trace, hrespond,
        List.append_assoc]

theorem mem_trace_of_mem_requestCalls {p : Pipeline κ σ} {request : Request}
    {requests : List Request} {call : ConnectorCall}
    (h : call ∈ requestCalls p request) :
    call ∈ trace p (request :: requests) := by
  rw [trace]
  rcases respond p request with _ | ⟨result, p'⟩
  · exact h
  · exact List.mem_append_left _ h

/-- An idle pipeline asks for rows exactly if it is run: until the first run
every request is a stop and leaves it idle. -/
theorem exists_asksForRows_trace_iff {p : Pipeline κ σ}
    (hidle : p.running = false) (requests : List Request) :
    (∃ call ∈ trace p requests, AsksForRows call) ↔
      ∃ snapshotTables, Request.run snapshotTables ∈ requests := by
  induction requests generalizing p with
  | nil => simp [trace]
  | cons request requests ih =>
      cases request with
      | run snapshotTables =>
          have hrun : ∃ tables, Request.run tables ∈
              Request.run snapshotTables :: requests :=
            ⟨snapshotTables, List.mem_cons_self⟩
          obtain ⟨call, hcall, hasks⟩ :=
            exists_asksForRows_runCalls hidle snapshotTables
          apply iff_of_true _ hrun
          exact ⟨call, mem_trace_of_mem_requestCalls hcall, hasks⟩
      | stop =>
          have htrace : trace p (.stop :: requests) =
              stopCalls p ++ trace p.stop.2 requests := rfl
          rw [htrace]
          constructor
          · rintro ⟨call, hcall, hasks⟩
            rcases List.mem_append.mp hcall with hcall | hcall
            · exact absurd hasks (not_asksForRows_of_mem_stopCalls hcall)
            · obtain ⟨tables, hmem⟩ :=
                (ih (running_stop p)).mp ⟨call, hcall, hasks⟩
              exact ⟨tables, List.mem_cons_of_mem _ hmem⟩
          · rintro ⟨tables, hmem⟩
            have hrest : Request.run tables ∈ requests := by simpa using hmem
            obtain ⟨call, hcall, hasks⟩ :=
              (ih (running_stop p)).mpr ⟨tables, hrest⟩
            exact ⟨call, List.mem_append_right _ hcall, hasks⟩

/-! ## A pipeline over a new connector -/

/-- `Pipeline::new`, `add_transform` for each transform and `add_sink` for each
sink. -/
def built (name : String) (connector : Connector κ) (state : κ)
    (transforms : List Transform) (sinks : List (Sink σ × σ)) :
    Pipeline κ σ where
  name := name
  connector := { connector := connector, state := state }
  transforms := transforms
  sinks := sinks.map fun sink => { sink := sink.1, state := sink.2 }

/-- One run of a pipeline that nobody started. -/
theorem not_obeysLifecycle_ofScript :
    ¬ObeysLifecycle ((trace (built "test" scripted ⟨[], .ok .snapshotDone,
      [], .ok ()⟩ [] [(nullSink, 0)]) [.run none]).map lifecycleCall) := by
  intro h
  obtain ⟨before, after, hstarted, -⟩ := h [] .stream [] rfl (.inr rfl)
  simp at hstarted

/-- The trace of a new pipeline is its connector's record of calls, and it obeys
the life cycle of the connector exactly as long as the pipeline is not run. -/
theorem obeysLifecycle_trace_iff (name : String) (connector : Connector κ)
    (state : κ) (transforms : List Transform) (sinks : List (Sink σ × σ))
    (requests : List Request) :
    (∀ p, Foundation.runFrom after
        (built name connector state transforms sinks) requests = some p →
      p.connector.calls =
        trace (built name connector state transforms sinks) requests) ∧
    (ObeysLifecycle ((trace (built name connector state transforms sinks)
      requests).map lifecycleCall) ↔
        ∀ snapshotTables, Request.run snapshotTables ∉ requests) := by
  refine ⟨fun p hp => calls_of_runFrom hp, ?_⟩
  have hasks := exists_asksForRows_trace_iff
    (p := built name connector state transforms sinks) rfl requests
  rw [obeysLifecycle_map_lifecycleCall_iff]
  constructor
  · intro h tables hmem
    obtain ⟨call, hcall, hcallAsks⟩ := hasks.mpr ⟨tables, hmem⟩
    exact h call hcall hcallAsks
  · intro h call hcall hcallAsks
    obtain ⟨tables, hmem⟩ := hasks.mp ⟨call, hcall, hcallAsks⟩
    exact h tables hmem

/-! ## The Postgres connector -/

/-- `PostgresConnector`, over the types of its configuration and of the
client that `start` obtains. -/
structure PostgresConnector (Config Client : Type) where
  config : Option Config
  client : Option Client

namespace PostgresConnector

variable {Config Client : Type}

def withConfig (config : Config) : PostgresConnector Config Client :=
  ⟨some config, none⟩

/-- The checks that `snapshot` and `stream` begin with. -/
def checkStarted (self : PostgresConnector Config Client) :
    Except Error (Config × Client) :=
  match self.client with
  | none => .error (.other "connector not started")
  | some client =>
      match self.config with
      | none => .error (.other "config not set")
      | some config => .ok (config, client)

/-- The connector as the pipeline calls it; the functions are
`Snapshotter::run` and `Streamer::run`, which send events and return. -/
def connector
    (snapshotter : Config → Client → List String →
      List ChangeEvent × Except Error ConnectorOffset)
    (streamer : Config → Client → Option ConnectorOffset →
      List ChangeEvent × Except Error Unit) :
    Connector (PostgresConnector Config Client) where
  snapshot self ctx :=
    match self.checkStarted with
    | .error err => ⟨[], .error err, self⟩
    | .ok (config, client) =>
        let (sent, result) := snapshotter config client ctx.tables
        ⟨sent, result, self⟩
  stream self ctx :=
    match self.checkStarted with
    | .error err => ⟨[], .error err, self⟩
    | .ok (config, client) =>
        let (sent, result) := streamer config client ctx.offset
        ⟨sent, result, self⟩
  stop self := (.ok (), { self with client := none })

end PostgresConnector

section Unstarted

variable {Config Client : Type}
  {snapshotter : Config → Client → List String →
    List ChangeEvent × Except Error ConnectorOffset}
  {streamer : Config → Client → Option ConnectorOffset →
    List ChangeEvent × Except Error Unit}

/-- The cell holds a Postgres connector without a client. -/
structure Unstarted
    (snapshotter : Config → Client → List String →
      List ChangeEvent × Except Error ConnectorOffset)
    (streamer : Config → Client → Option ConnectorOffset →
      List ChangeEvent × Except Error Unit)
    (cell : ConnectorCell (PostgresConnector Config Client)) : Prop where
  connector : cell.connector = PostgresConnector.connector snapshotter streamer
  client : cell.state.client = none

theorem Unstarted.checkStarted
    {cell : ConnectorCell (PostgresConnector Config Client)}
    (h : Unstarted snapshotter streamer cell) :
    cell.state.checkStarted = .error (.other "connector not started") := by
  simp [PostgresConnector.checkStarted, h.client]

theorem Unstarted.snapshot
    {cell : ConnectorCell (PostgresConnector Config Client)}
    (h : Unstarted snapshotter streamer cell) (ctx : SnapshotContext) :
    cell.snapshot ctx = ⟨[], .error (.other "connector not started"),
      { cell with
        calls := cell.calls ++ [.snapshot ctx]
        answers := cell.answers ++ [⟨[], false⟩] }⟩ := by
  simp only [ConnectorCell.snapshot, h.connector, PostgresConnector.connector,
    h.checkStarted]
  rfl

theorem Unstarted.stream
    {cell : ConnectorCell (PostgresConnector Config Client)}
    (h : Unstarted snapshotter streamer cell) (ctx : StreamContext) :
    cell.stream ctx = ⟨[], .error (.other "connector not started"),
      { cell with
        calls := cell.calls ++ [.stream ctx]
        answers := cell.answers ++ [⟨[], false⟩] }⟩ := by
  simp only [ConnectorCell.stream, h.connector, PostgresConnector.connector,
    h.checkStarted]
  rfl

theorem Unstarted.stop
    {cell : ConnectorCell (PostgresConnector Config Client)}
    (h : Unstarted snapshotter streamer cell) :
    Unstarted snapshotter streamer cell.stop.2 where
  connector := h.connector
  client := by simp [ConnectorCell.stop, h.connector,
    PostgresConnector.connector]

/-- A run over such a connector returns an error and does not start it. -/
theorem Unstarted.respond_run
    {p : Pipeline (PostgresConnector Config Client) σ}
    (h : Unstarted snapshotter streamer p.connector)
    (snapshotTables : Option (List String)) :
    ∃ err p', respond p (.run snapshotTables) = some (.error err, p') ∧
      Unstarted snapshotter streamer p'.connector := by
  simp only [respond, run]
  split_ifs
  · exact ⟨_, _, rfl, h⟩
  · cases snapshotTables with
    | none =>
        simp only [runFresh, streamFromOffset, h.stream]
        exact ⟨_, _, rfl, h.connector, h.client⟩
    | some tables =>
        simp only [runFresh, h.snapshot]
        exact ⟨_, _, rfl, h.connector, h.client⟩

theorem Unstarted.connector_stop
    {p : Pipeline (PostgresConnector Config Client) σ}
    (h : Unstarted snapshotter streamer p.connector) :
    Unstarted snapshotter streamer p.stop.2.connector := by
  cases hclose : (closeSinks p.sinks).1 with
  | error err =>
      rw [stop_of_error hclose]
      exact h
  | ok _ =>
      rw [stop_of_ok hclose]
      exact h.stop

/-- The results of a sequence of requests. -/
def responses {κ : Type} (p : Pipeline κ σ) :
    List Request → List (Request × Except PipelineError Unit)
  | [] => []
  | request :: requests =>
      match respond p request with
      | none => []
      | some (result, p') => (request, result) :: responses p' requests

/-- Over a Postgres connector that was not started every run fails. -/
theorem Unstarted.responses_run
    {p : Pipeline (PostgresConnector Config Client) σ}
    (h : Unstarted snapshotter streamer p.connector)
    {requests : List Request} {snapshotTables : Option (List String)}
    {result : Except PipelineError Unit}
    (hmem : (.run snapshotTables, result) ∈ responses p requests) :
    ∃ err, result = .error err := by
  induction requests generalizing p with
  | nil => simp [responses] at hmem
  | cons request requests ih =>
      cases request with
      | run tables =>
          obtain ⟨err, p', hrespond, h'⟩ := h.respond_run tables
          simp only [responses, hrespond] at hmem
          rcases List.mem_cons.mp hmem with heq | hrest
          · exact ⟨err, (Prod.mk.inj heq).2⟩
          · exact ih h' hrest
      | stop =>
          have hrest : (.run snapshotTables, result) ∈
              responses p.stop.2 requests := by
            simpa [responses, respond] using hmem
          exact ih h.connector_stop hrest

end Unstarted

end Pipeline
end OpenCdc
