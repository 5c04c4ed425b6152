import OpenCdc.Core.Error
import OpenCdc.Core.Offset

/-!
# The pipeline

A pipeline owns a connector, a chain of transforms and a list of sinks.  Its
`run` takes a snapshot, drains the snapshot's channel through the transforms
into the sinks, and does the same with the stream.  Connectors and sinks are
given by their own state and functions; beside them the model keeps a record
of the calls that were made.
-/

namespace OpenCdc

/-! ## Errors, transforms and sinks -/

inductive PipelineError where
  | sink (text : String)
  | transform (text : String)
  | source (text : String)
  | stopped (text : String)
  | core (e : Error)
deriving DecidableEq, Repr

/-- `Display for PipelineError` -/
def PipelineError.display : PipelineError → String
  | sink text => "Sink error: " ++ text
  | transform text => "Transform error: " ++ text
  | source text => "Source error: " ++ text
  | stopped text => "Pipeline stopped: " ++ text
  | core e => "Core error: " ++ e.display

/-- `trait Transform` -/
abbrev Transform := ChangeEvent → Except PipelineError (Option ChangeEvent)

/-- `trait Sink`, over the state `σ` of the sink. -/
structure Sink (σ : Type) where
  name : String
  write : σ → List ChangeEvent → Except PipelineError Unit × σ
  flush : σ → Except PipelineError Unit × σ := fun state => (.ok (), state)
  close : σ → Except PipelineError Unit × σ := flush

/-- One `write` call and its result. -/
structure WriteCall where
  events : List ChangeEvent
  result : Except PipelineError Unit

/-- A sink with its state and the `write` calls made on it, in order. -/
structure SinkCell (σ : Type) where
  sink : Sink σ
  state : σ
  calls : List WriteCall := []

namespace SinkCell

variable {σ : Type}

def write (cell : SinkCell σ) (events : List ChangeEvent) :
    Except PipelineError Unit × SinkCell σ :=
  let (result, state) := cell.sink.write cell.state events
  (result, { cell with
    state := state
    calls := cell.calls ++ [⟨events, result⟩] })

def close (cell : SinkCell σ) : Except PipelineError Unit × SinkCell σ :=
  let (result, state) := cell.sink.close cell.state
  (result, { cell with state := state })

/-- The events of all `write` calls, failed ones included. -/
def dispatched (cell : SinkCell σ) : List ChangeEvent :=
  cell.calls.flatMap (·.events)

/-- The events of the `write` calls that succeeded. -/
def written (cell : SinkCell σ) : List ChangeEvent :=
  cell.calls.flatMap fun call =>
    match call.result with
    | .ok _ => call.events
    | .error _ => []

end SinkCell

/-! ## Connectors -/

/-- What a call that is given a channel does: the events it sends, its result,
and the state it leaves. -/
structure Produced (κ ρ : Type) where
  sent : List ChangeEvent
  result : Except Error ρ
  state : κ

/-- What a call has sent, and whether it returned successfully. -/
structure Answer where
  sent : List ChangeEvent
  succeeded : Bool

def Produced.answer {κ ρ : Type} (call : Produced κ ρ) : Answer :=
  ⟨call.sent, call.result.isOk⟩

/-- `trait Connector`, over the state `κ` of the connector, as far as the
pipeline calls it. -/
structure Connector (κ : Type) where
  snapshot : κ → SnapshotContext → Produced κ ConnectorOffset
  stream : κ → StreamContext → Produced κ Unit
  stop : κ → Except Error Unit × κ

inductive ConnectorCall where
  | snapshot (ctx : SnapshotContext)
  | stream (ctx : StreamContext)
  | stop

/-- A connector with its state, the calls made on it, in order, and what those
that were given a channel came to. -/
structure ConnectorCell (κ : Type) where
  connector : Connector κ
  state : κ
  calls : List ConnectorCall := []
  answers : List Answer := []

namespace ConnectorCell

variable {κ : Type}

def snapshot (cell : ConnectorCell κ) (ctx : SnapshotContext) :
    Produced (ConnectorCell κ) ConnectorOffset :=
  let call := cell.connector.snapshot cell.state ctx
  ⟨call.sent, call.result, { cell with
    state := call.state
    calls := cell.calls ++ [.snapshot ctx]
    answers := cell.answers ++ [call.answer] }⟩

def stream (cell : ConnectorCell κ) (ctx : StreamContext) :
    Produced (ConnectorCell κ) Unit :=
  let call := cell.connector.stream cell.state ctx
  ⟨call.sent, call.result, { cell with
    state := call.state
    calls := cell.calls ++ [.stream ctx]
    answers := cell.answers ++ [call.answer] }⟩

def stop (cell : ConnectorCell κ) : Except Error Unit × ConnectorCell κ :=
  let (result, state) := cell.connector.stop cell.state
  (result, { cell with state := state, calls := cell.calls ++ [.stop] })

/-- What the calls that returned successfully have sent. -/
def delivered (cell : ConnectorCell κ) : List ChangeEvent :=
  (cell.answers.filter (·.succeeded)).flatMap (·.sent)

end ConnectorCell

/-! ## Processing one event -/

/-- The transform loop: a dropped event ends it, an error is wrapped. -/
def applyTransforms :
    List Transform → Option ChangeEvent →
      Except PipelineError (Option ChangeEvent)
  | [], event => .ok event
  | _ :: _, none => .ok none
  | transform :: transforms, some e =>
      match transform e with
      | .ok event => applyTransforms transforms event
      | .error err => .error (.transform err.display)

/-- The dispatch loop: it ends with the first sink whose write fails. -/
def dispatch {σ : Type} (event : ChangeEvent) :
    List (SinkCell σ) → Except PipelineError Unit × List (SinkCell σ)
  | [] => (.ok (), [])
  | cell :: cells =>
      match cell.write [event] with
      | (.ok _, cell') =>
          let (result, cells') := dispatch event cells
          (result, cell' :: cells')
      | (.error err, cell') => (.error (.sink err.display), cell' :: cells)

def closeSinks {σ : Type} :
    List (SinkCell σ) → Except PipelineError Unit × List (SinkCell σ)
  | [] => (.ok (), [])
  | cell :: cells =>
      match cell.close with
      | (.ok _, cell') =>
          let (result, cells') := closeSinks cells
          (result, cell' :: cells')
      | (.error err, cell') =>
          (.error (.sink ("close error: " ++ err.display)), cell' :: cells)

structure Pipeline (κ σ : Type) where
  name : String
  connector : ConnectorCell κ
  transforms : List Transform := []
  sinks : List (SinkCell σ) := []
  running : Bool := false

namespace Pipeline

variable {κ σ : Type}

def processEvent (p : Pipeline κ σ) (event : ChangeEvent) :
    Except PipelineError Unit × Pipeline κ σ :=
  match applyTransforms p.transforms (some event) with
  | .error err => (.error err, p)
  | .ok none => (.ok (), p)
  | .ok (some event) =>
      let (result, sinks) := dispatch event p.sinks
      (result, { p with sinks := sinks })

/-- The loop `while let Some(event) = rx.recv()` over what a channel holds
when its senders are gone. -/
def drain (p : Pipeline κ σ) :
    List ChangeEvent → Except PipelineError Unit × Pipeline κ σ
  | [] => (.ok (), p)
  | event :: events =>
      match p.processEvent event with
      | (.ok _, p') => p'.drain events
      | (.error err, p') => (.error err, p')

/-! ## Running -/

def channelCapacity : ℕ := 1024

/-- `stream_from_offset`; `none` if the call never returns, because the
connector waits for room in a channel that nobody drains yet. -/
def streamFromOffset (p : Pipeline κ σ) (offset : Option ConnectorOffset) :
    Option (Except PipelineError Unit × Pipeline κ σ) :=
  let call := p.connector.stream ⟨offset, []⟩
  if channelCapacity < call.sent.length then none
  else
    let p := { p with connector := call.state }
    match call.result with
    | .error err => some (.error (.source ("stream failed: " ++ err.display)), p)
    | .ok _ => some (p.drain call.sent)

/-- The part of `run` behind the check of `running`. -/
def runFresh (p : Pipeline κ σ) (snapshotTables : Option (List String)) :
    Option (Except PipelineError Unit × Pipeline κ σ) :=
  match snapshotTables with
  | none => p.streamFromOffset none
  | some tables =>
      let call := p.connector.snapshot ⟨tables⟩
      if channelCapacity < call.sent.length then none
      else
        let p := { p with connector := call.state }
        match call.result with
        | .error err =>
            some (.error (.source ("snapshot failed: " ++ err.display)),
              { p with running := false })
        | .ok offset =>
            match p.drain call.sent with
            | (.error err, p) => some (.error err, p)
            | (.ok _, p) => p.streamFromOffset (some offset)

def run (p : Pipeline κ σ) (snapshotTables : Option (List String)) :
    Option (Except PipelineError Unit × Pipeline κ σ) :=
  if p.running then
    some (.error (.stopped "pipeline is already running"), p)
  else { p with running := true }.runFresh snapshotTables

def stop (p : Pipeline κ σ) : Except PipelineError Unit × Pipeline κ σ :=
  let p := { p with running := false }
  match closeSinks p.sinks with
  | (.error err, sinks) => (.error err, { p with sinks := sinks })
  | (.ok _, sinks) =>
      let (result, connector) := p.connector.stop
      let p := { p with sinks := sinks, connector := connector }
      match result with
      | .error err =>
          (.error (.source ("stop error: " ++ err.display)), p)
      | .ok _ => (.ok (), p)

end Pipeline

/-! ## A pipeline for small runs -/

/-- `NullSink`: it counts the events. -/
def nullSink : Sink ℕ where
  name := "null"
  write := fun count events => (.ok (), count + events.length)

/-- What a connector sends and returns, as for the connectors of the tests. -/
structure Script where
  snapshotSent : List ChangeEvent
  snapshotResult : Except Error ConnectorOffset
  streamSent : List ChangeEvent
  streamResult : Except Error Unit

def scripted : Connector Script where
  snapshot := fun script _ => ⟨script.snapshotSent, script.snapshotResult, script⟩
  stream := fun script _ => ⟨script.streamSent, script.streamResult, script⟩
  stop := fun script => (.ok (), script)

namespace Pipeline

def ofScript (script : Script) : Pipeline Script ℕ where
  name := "test"
  connector := { connector := scripted, state := script }
  sinks := [{ sink := nullSink, state := 0 }]

def rowA : ChangeEvent :=
  ChangeEvent.create (.bool true) (SourceInfo.new .postgres "db" none "t" 0) 0

def rowB : ChangeEvent :=
  ChangeEvent.create (.bool false) (SourceInfo.new .postgres "db" none "t" 0) 0

end Pipeline
end OpenCdc
