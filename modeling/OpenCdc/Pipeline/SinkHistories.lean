import OpenCdc.Foundation.Interleaving
import OpenCdc.Pipeline.Lifecycle
import OpenCdc.Pipeline.Reliable
import OpenCdc.Pipeline.Transforms

/-!
# What a pipeline does to its sinks

Whatever is asked of a pipeline and however that ends, it touches its sinks by
dispatching events and by closing them.  An invariant of the two loops holds
therefore throughout any sequence of requests.
-/

namespace OpenCdc
namespace Pipeline

variable {κ σ : Type}

/-! ## What a request hands to the sinks -/

theorem delivered_snapshot_of_ok {cell : ConnectorCell κ} {ctx : SnapshotContext}
    {offset : ConnectorOffset} (h : (cell.snapshot ctx).result = .ok offset) :
    (cell.snapshot ctx).state.delivered =
      cell.delivered ++ (cell.snapshot ctx).sent := by
  have hresult : (cell.connector.snapshot cell.state ctx).result = .ok offset := h
  simp [ConnectorCell.delivered, ConnectorCell.snapshot, Produced.answer,
    hresult, Except.isOk, Except.toBool]

theorem delivered_snapshot_of_error {cell : ConnectorCell κ}
    {ctx : SnapshotContext} {err : Error}
    (h : (cell.snapshot ctx).result = .error err) :
    (cell.snapshot ctx).state.delivered = cell.delivered := by
  have hresult : (cell.connector.snapshot cell.state ctx).result = .error err := h
  simp [ConnectorCell.delivered, ConnectorCell.snapshot, Produced.answer,
    hresult, Except.isOk, Except.toBool]

theorem delivered_stream_of_ok {cell : ConnectorCell κ} {ctx : StreamContext}
    (h : (cell.stream ctx).result = .ok ()) :
    (cell.stream ctx).state.delivered =
      cell.delivered ++ (cell.stream ctx).sent := by
  have hresult : (cell.connector.stream cell.state ctx).result = .ok () := h
  simp [ConnectorCell.delivered, ConnectorCell.stream, Produced.answer,
    hresult, Except.isOk, Except.toBool]

theorem delivered_stream_of_error {cell : ConnectorCell κ} {ctx : StreamContext}
    {err : Error} (h : (cell.stream ctx).result = .error err) :
    (cell.stream ctx).state.delivered = cell.delivered := by
  have hresult : (cell.connector.stream cell.state ctx).result = .error err := h
  simp [ConnectorCell.delivered, ConnectorCell.stream, Produced.answer,
    hresult, Except.isOk, Except.toBool]

/-- The connector sends the event in some call that returns successfully. -/
def SentByCall (connector : Connector κ) (event : ChangeEvent) : Prop :=
  (∃ state ctx offset, (connector.snapshot state ctx).result = .ok offset ∧
    event ∈ (connector.snapshot state ctx).sent) ∨
    ∃ state ctx, (connector.stream state ctx).result = .ok () ∧
      event ∈ (connector.stream state ctx).sent

/-- Between the two states the events were drained into the sinks, and they are
what the calls made in between have sent, those that returned successfully. -/
structure Drains (events : List ChangeEvent) (p p' : Pipeline κ σ) : Prop where
  sinks : p'.sinks = (p.drain events).2.sinks
  transforms : p'.transforms = p.transforms
  connector : p'.connector.connector = p.connector.connector
  delivered : p'.connector.delivered = p.connector.delivered ++ events
  sentByCall : ∀ event ∈ events, SentByCall p.connector.connector event

theorem drains_of_eq {p p' : Pipeline κ σ} (hsinks : p'.sinks = p.sinks)
    (htransforms : p'.transforms = p.transforms)
    (hconnector : p'.connector.connector = p.connector.connector)
    (hdelivered : p'.connector.delivered = p.connector.delivered) :
    Drains [] p p' where
  sinks := hsinks
  transforms := htransforms
  connector := hconnector
  delivered := by rw [hdelivered, List.append_nil]
  sentByCall _ hmem := absurd hmem List.not_mem_nil

theorem transforms_drain (p : Pipeline κ σ) (events : List ChangeEvent) :
    (p.drain events).2.transforms = p.transforms := by
  induction events generalizing p with
  | nil => rfl
  | cons event events ih =>
      have hevent : (p.processEvent event).2.transforms = p.transforms := by
        unfold processEvent
        rcases applyTransforms p.transforms (some event) with err | _ | event'
        · rfl
        · rfl
        · rfl
      rw [drain]
      rcases hp : p.processEvent event with ⟨_ | _, q⟩ <;> rw [hp] at hevent
      · exact hevent
      · exact (ih q).trans hevent

theorem exists_drains_streamFromOffset {p p' : Pipeline κ σ}
    {offset : Option ConnectorOffset} {result : Except PipelineError Unit}
    (h : p.streamFromOffset offset = some (result, p')) :
    ∃ events, Drains events p p' := by
  by_cases hfits :
      (p.connector.stream ⟨offset, []⟩).sent.length ≤ channelCapacity
  · cases hresult : (p.connector.stream ⟨offset, []⟩).result with
    | error err =>
        rw [streamFromOffset_error hresult hfits] at h
        obtain ⟨-, rfl⟩ := Prod.mk.inj (Option.some.inj h)
        exact ⟨[], drains_of_eq rfl rfl rfl (delivered_stream_of_error hresult)⟩
    | ok _ =>
        rw [streamFromOffset_ok hresult hfits] at h
        obtain ⟨-, rfl⟩ := Prod.mk.inj (Option.some.inj h)
        exact ⟨(p.connector.stream ⟨offset, []⟩).sent,
          { sinks := rfl
            transforms := transforms_drain p _
            connector := rfl
            delivered := delivered_stream_of_ok hresult
            sentByCall := fun event hmem =>
              Or.inr ⟨p.connector.state, ⟨offset, []⟩, hresult, hmem⟩ }⟩
  · unfold streamFromOffset at h
    rw [if_pos (Nat.not_le.mp hfits)] at h
    cases h

/-- What is drained behind a first part that was drained without a failure. -/
theorem Drains.append {xs ys : List ChangeEvent} {p q p' : Pipeline κ σ}
    {connector : ConnectorCell κ} (hdrain : p.drain xs = (.ok (), q))
    (hconnector : connector.connector = p.connector.connector)
    (hdelivered : connector.delivered = p.connector.delivered ++ xs)
    (hsent : ∀ event ∈ xs, SentByCall p.connector.connector event)
    (h : Drains ys { q with connector := connector, running := true } p') :
    Drains (xs ++ ys) p p' := by
  have hdrained := drain_setConnector q connector true ys
  have htransforms := transforms_drain p xs
  rw [hdrain] at htransforms
  constructor
  · rw [h.sinks, hdrained, drain_append, hdrain]
  · exact h.transforms.trans htransforms
  · exact h.connector.trans hconnector
  · rw [h.delivered, hdelivered, List.append_assoc]
  · intro event hmem
    rcases List.mem_append.mp hmem with hmem | hmem
    · exact hsent event hmem
    · exact hconnector ▸ h.sentByCall event hmem

theorem exists_drains_run {p p' : Pipeline κ σ}
    {snapshotTables : Option (List String)} {result : Except PipelineError Unit}
    (h : p.run snapshotTables = some (result, p')) :
    ∃ events, Drains events p p' := by
  by_cases hidle : p.running = false
  · cases snapshotTables with
    | none =>
        rw [run_none hidle] at h
        obtain ⟨events, hevents⟩ := exists_drains_streamFromOffset h
        have hnothing : p.drain [] = (.ok (), p) := rfl
        exact ⟨[] ++ events, Drains.append hnothing rfl
          (List.append_nil _).symm (by simp) hevents⟩
    | some tables =>
        by_cases hfits :
            (p.connector.snapshot ⟨tables⟩).sent.length ≤ channelCapacity
        · cases hresult : (p.connector.snapshot ⟨tables⟩).result with
          | error err =>
              rw [run_of_snapshot_error hidle hresult hfits] at h
              obtain ⟨-, rfl⟩ := Prod.mk.inj (Option.some.inj h)
              exact ⟨[], drains_of_eq rfl rfl rfl
                (delivered_snapshot_of_error hresult)⟩
          | ok offset =>
              rw [run_of_snapshot_ok hidle hresult hfits] at h
              have hsent : ∀ event ∈ (p.connector.snapshot ⟨tables⟩).sent,
                  SentByCall p.connector.connector event := fun event hmem =>
                Or.inl ⟨p.connector.state, ⟨tables⟩, offset, hresult, hmem⟩
              rcases hdrain : p.drain (p.connector.snapshot ⟨tables⟩).sent with
                ⟨err | _, q⟩ <;> rw [hdrain] at h
              · obtain ⟨-, rfl⟩ := Prod.mk.inj (Option.some.inj h)
                have htransforms :=
                  transforms_drain p (p.connector.snapshot ⟨tables⟩).sent
                rw [hdrain] at htransforms
                exact ⟨(p.connector.snapshot ⟨tables⟩).sent,
                  { sinks := by rw [hdrain]
                    transforms := htransforms
                    connector := rfl
                    delivered := delivered_snapshot_of_ok hresult
                    sentByCall := hsent }⟩
              · obtain ⟨events, hevents⟩ := exists_drains_streamFromOffset h
                have hdelivered := delivered_snapshot_of_ok hresult
                exact ⟨_, Drains.append hdrain (by rfl) hdelivered hsent hevents⟩
        · rw [run_of_overfull hidle (Nat.not_le.mp hfits)] at h
          cases h
  · rw [run, if_pos (by simpa using hidle)] at h
    obtain ⟨-, rfl⟩ := Prod.mk.inj (Option.some.inj h)
    exact ⟨[], drains_of_eq rfl rfl rfl rfl⟩

/-- A stop closes the sinks, or some of them, and has the connector stopped. -/
theorem stop_eq (p : Pipeline κ σ) :
    p.stop.2.sinks = (closeSinks p.sinks).2 ∧
      p.stop.2.transforms = p.transforms ∧
      p.stop.2.connector.connector = p.connector.connector ∧
      p.stop.2.connector.delivered = p.connector.delivered := by
  cases hclose : (closeSinks p.sinks).1 with
  | error err =>
      rw [stop_of_error hclose]
      exact ⟨rfl, rfl, rfl, rfl⟩
  | ok _ =>
      rw [stop_of_ok hclose]
      exact ⟨rfl, rfl, rfl, rfl⟩

/-- A request drains what its calls have sent, or closes sinks. -/
theorem drains_or_closes {p p' : Pipeline κ σ} {request : Request}
    (h : after p request = some p') :
    (∃ events, Drains events p p') ∨
      p'.sinks = (closeSinks p.sinks).2 ∧ p'.transforms = p.transforms ∧
        p'.connector.connector = p.connector.connector ∧
        p'.connector.delivered = p.connector.delivered := by
  obtain ⟨⟨result, q⟩, hrespond, rfl⟩ := Option.map_eq_some_iff.mp h
  cases request with
  | run snapshotTables => exact Or.inl (exists_drains_run hrespond)
  | stop =>
      have hstop : p.stop = (result, q) := Option.some.inj hrespond
      have hclosed := stop_eq p
      rw [hstop] at hclosed
      exact Or.inr hclosed

/-! ## Invariants of the two loops -/

section Invariant

variable {I : List (SinkCell σ) → Prop}

/-- The loops over the sinks keep an invariant. -/
structure KeptByLoops (I : List (SinkCell σ) → Prop) : Prop where
  dispatch : ∀ event cells, I cells → I (dispatch event cells).2
  closeSinks : ∀ cells, I cells → I (closeSinks cells).2

namespace KeptByLoops

theorem drain (hI : KeptByLoops I) {p : Pipeline κ σ} (h : I p.sinks)
    (events : List ChangeEvent) : I (p.drain events).2.sinks := by
  induction events generalizing p with
  | nil => exact h
  | cons event events ih =>
      have hevent : I (p.processEvent event).2.sinks := by
        unfold processEvent
        rcases applyTransforms p.transforms (some event) with err | _ | event'
        · exact h
        · exact h
        · exact hI.dispatch event' p.sinks h
      rw [Pipeline.drain]
      rcases hp : p.processEvent event with ⟨_ | _, q⟩ <;> rw [hp] at hevent
      · exact hevent
      · exact ih hevent

/-- The invariant holds between any two requests. -/
theorem throughout (hI : KeptByLoops I) {p : Pipeline κ σ} (h : I p.sinks)
    (requests : List Request) :
    Foundation.Throughout after (fun p' => I p'.sinks) p requests := by
  apply Foundation.throughout_of_invariant
  · intro q request q' hq hafter
    rcases drains_or_closes hafter with ⟨events, hdrains⟩ | ⟨hsinks, -⟩
    · rw [hdrains.sinks]
      exact hI.drain hq events
    · rw [hsinks]
      exact hI.closeSinks q.sinks hq
  · exact h

end KeptByLoops

/-- What a single event and a close keep of one sink, the loops keep of all. -/
theorem keptByLoops_of_forall_mem {Q : SinkCell σ → Prop}
    (hwrite : ∀ cell event, Q cell → Q (cell.write [event]).2)
    (hclose : ∀ cell, Q cell → Q cell.close.2) :
    KeptByLoops fun cells => ∀ cell ∈ cells, Q cell where
  dispatch event cells h := by
    induction cells with
    | nil => exact h
    | cons cell cells ih =>
        obtain ⟨hcell, hcells⟩ := List.forall_mem_cons.mp h
        have hcell' := hwrite cell event hcell
        rw [OpenCdc.dispatch]
        rcases hw : cell.write [event] with ⟨_ | _, cell'⟩ <;> rw [hw] at hcell'
        · exact List.forall_mem_cons.mpr ⟨hcell', hcells⟩
        · exact List.forall_mem_cons.mpr ⟨hcell', ih hcells⟩
  closeSinks cells h := by
    induction cells with
    | nil => exact h
    | cons cell cells ih =>
        obtain ⟨hcell, hcells⟩ := List.forall_mem_cons.mp h
        have hcell' := hclose cell hcell
        rw [OpenCdc.closeSinks]
        rcases hc : cell.close with ⟨_ | _, cell'⟩ <;> rw [hc] at hcell'
        · exact List.forall_mem_cons.mpr ⟨hcell', hcells⟩
        · exact List.forall_mem_cons.mpr ⟨hcell', ih hcells⟩

end Invariant

/-! ## The order of the sinks -/

/-- The events of a `write` call, if it succeeded. -/
def accepted (call : WriteCall) : List ChangeEvent :=
  match call.result with
  | .ok _ => call.events
  | .error _ => []

theorem written_eq (cell : SinkCell σ) :
    cell.written = cell.calls.flatMap accepted := rfl

/-- A later sink has been given a subsequence of what the sink has accepted. -/
def PrecededBy (cell later : SinkCell σ) : Prop :=
  later.dispatched.Sublist cell.written

theorem dispatched_write (cell : SinkCell σ) (events : List ChangeEvent) :
    (cell.write events).2.dispatched = cell.dispatched ++ events := by
  simp [SinkCell.dispatched, SinkCell.write_calls]

theorem written_write (cell : SinkCell σ) (events : List ChangeEvent) :
    (cell.write events).2.written =
      cell.written ++ accepted ⟨events, (cell.write events).1⟩ := by
  simp [written_eq, SinkCell.write_calls]

/-- A dispatch gives a sink the event or leaves it as it was. -/
theorem dispatched_of_mem_dispatch {event : ChangeEvent}
    {cells : List (SinkCell σ)} {cell' : SinkCell σ}
    (h : cell' ∈ (dispatch event cells).2) :
    ∃ cell ∈ cells, cell'.dispatched.Sublist (cell.dispatched ++ [event]) := by
  induction cells with
  | nil => exact absurd h List.not_mem_nil
  | cons cell cells ih =>
      have hcell := dispatched_write cell [event]
      rw [dispatch] at h
      rcases hw : cell.write [event] with ⟨_ | _, written⟩ <;>
        rw [hw] at h hcell <;> rcases List.mem_cons.mp h with rfl | hrest
      · exact ⟨cell, List.mem_cons_self, hcell ▸ List.Sublist.refl _⟩
      · exact ⟨cell', List.mem_cons_of_mem _ hrest,
          List.sublist_append_left _ _⟩
      · exact ⟨cell, List.mem_cons_self, hcell ▸ List.Sublist.refl _⟩
      · obtain ⟨cell, hmem, hsub⟩ := ih hrest
        exact ⟨cell, List.mem_cons_of_mem _ hmem, hsub⟩

theorem pairwise_precededBy_dispatch (event : ChangeEvent)
    {cells : List (SinkCell σ)} (h : cells.Pairwise PrecededBy) :
    (dispatch event cells).2.Pairwise PrecededBy := by
  induction cells with
  | nil => exact List.Pairwise.nil
  | cons cell cells ih =>
      obtain ⟨hcell, hcells⟩ := List.pairwise_cons.mp h
      have hwritten := written_write cell [event]
      rw [dispatch]
      rcases hw : cell.write [event] with ⟨_ | _, cell'⟩ <;>
        rw [hw] at hwritten
      -- the sinks behind a sink that fails are not reached
      · rw [accepted, List.append_nil] at hwritten
        apply List.pairwise_cons.mpr ⟨_, hcells⟩
        intro later hlater
        rw [PrecededBy, hwritten]
        exact hcell later hlater
      · apply List.pairwise_cons.mpr ⟨_, ih hcells⟩
        intro later hlater
        obtain ⟨before, hmem, hsub⟩ := dispatched_of_mem_dispatch hlater
        rw [PrecededBy, hwritten]
        exact hsub.trans ((hcell before hmem).append_right [event])

theorem calls_closeSinks (cells : List (SinkCell σ)) :
    (closeSinks cells).2.map SinkCell.calls = cells.map SinkCell.calls := by
  induction cells with
  | nil => rfl
  | cons cell cells ih =>
      have hcalls : cell.close.2.calls = cell.calls := rfl
      rw [closeSinks]
      rcases hc : cell.close with ⟨_ | _, cell'⟩ <;> rw [hc] at hcalls
      · exact congrArg (· :: _) hcalls
      · exact congrArg₂ List.cons hcalls ih

/-- The order of two sinks is a matter of their calls. -/
theorem pairwise_precededBy_congr {cells cells' : List (SinkCell σ)}
    (hcalls : cells'.map SinkCell.calls = cells.map SinkCell.calls)
    (h : cells.Pairwise PrecededBy) : cells'.Pairwise PrecededBy := by
  have hpull : ∀ cells : List (SinkCell σ), cells.Pairwise PrecededBy ↔
      (cells.map SinkCell.calls).Pairwise fun calls later =>
        (later.flatMap (·.events)).Sublist (calls.flatMap accepted) := by
    intro cells
    rw [List.pairwise_map]
    rfl
  rw [hpull, hcalls, ← hpull]
  exact h

theorem keptByLoops_precededBy :
    KeptByLoops fun cells : List (SinkCell σ) => cells.Pairwise PrecededBy where
  dispatch event _ h := pairwise_precededBy_dispatch event h
  closeSinks cells h := pairwise_precededBy_congr (calls_closeSinks cells) h

theorem calls_of_mem_built {name : String} {connector : Connector κ} {state : κ}
    {transforms : List Transform} {sinks : List (Sink σ × σ)}
    {cell : SinkCell σ}
    (h : cell ∈ (built name connector state transforms sinks).sinks) :
    cell.calls = [] := by
  obtain ⟨sink, -, rfl⟩ := List.mem_map.mp h
  rfl

/-- Throughout the life of a pipeline every sink has been given a subsequence
of what each sink before it has accepted, over all runs and failures. -/
theorem precededBy_throughout (name : String) (connector : Connector κ)
    (state : κ) (transforms : List Transform) (sinks : List (Sink σ × σ))
    (requests : List Request) :
    Foundation.Throughout after
      (fun p => p.sinks.Pairwise PrecededBy)
      (built name connector state transforms sinks) requests := by
  refine keptByLoops_precededBy.throughout ?_ requests
  apply List.pairwise_of_forall_mem_list
  intro cell _ later hlater
  rw [PrecededBy, SinkCell.dispatched, calls_of_mem_built hlater]
  exact List.nil_sublist _

/-! ## No sink is given anything else -/

/-- Behind what it had been given, each sink has been given some of the events,
in their order. -/
def Given (events : List ChangeEvent) :
    List (SinkCell σ) → List (SinkCell σ) → Prop :=
  List.Forall₂ fun cell cell' => ∃ added, added.Sublist events ∧
    cell'.dispatched = cell.dispatched ++ added

theorem Given.nothing (events : List ChangeEvent) (cells : List (SinkCell σ)) :
    Given events cells cells := by
  induction cells with
  | nil => exact List.Forall₂.nil
  | cons cell cells ih =>
      exact List.Forall₂.cons
        ⟨[], List.nil_sublist _, (List.append_nil _).symm⟩ ih

theorem Given.trans {xs ys : List ChangeEvent}
    {cells cells' cells'' : List (SinkCell σ)} (hxs : Given xs cells cells')
    (hys : Given ys cells' cells'') : Given (xs ++ ys) cells cells'' := by
  induction hxs generalizing cells'' with
  | nil =>
      cases hys
      exact List.Forall₂.nil
  | cons hcell _ ih =>
      cases hys with
      | cons hcell' hrest =>
          obtain ⟨added, hadded, hdispatched⟩ := hcell
          obtain ⟨added', hadded', hdispatched'⟩ := hcell'
          refine List.Forall₂.cons ⟨added ++ added', hadded.append hadded', ?_⟩
            (ih hrest)
          rw [hdispatched', hdispatched, List.append_assoc]

theorem given_dispatch (event : ChangeEvent) (cells : List (SinkCell σ)) :
    Given [event] cells (dispatch event cells).2 := by
  induction cells with
  | nil => exact List.Forall₂.nil
  | cons cell cells ih =>
      have hcell := dispatched_write cell [event]
      rw [dispatch]
      rcases hw : cell.write [event] with ⟨_ | _, cell'⟩ <;> rw [hw] at hcell
      · exact List.Forall₂.cons ⟨[event], List.Sublist.refl _, hcell⟩
          (Given.nothing _ cells)
      · exact List.Forall₂.cons ⟨[event], List.Sublist.refl _, hcell⟩ ih

theorem given_closeSinks (cells : List (SinkCell σ)) :
    Given [] cells (closeSinks cells).2 := by
  induction cells with
  | nil => exact List.Forall₂.nil
  | cons cell cells ih =>
      have hcell : cell.close.2.dispatched = cell.dispatched ++ [] :=
        (List.append_nil _).symm
      rw [closeSinks]
      rcases hc : cell.close with ⟨_ | _, cell'⟩ <;> rw [hc] at hcell
      · exact List.Forall₂.cons ⟨[], List.Sublist.refl _, hcell⟩
          (Given.nothing _ cells)
      · exact List.Forall₂.cons ⟨[], List.Sublist.refl _, hcell⟩ ih

theorem given_processEvent (p : Pipeline κ σ) (event : ChangeEvent) :
    Given (survivor p.transforms event).toList p.sinks
      (p.processEvent event).2.sinks := by
  unfold processEvent
  rcases hchain : applyTransforms p.transforms (some event) with
    err | _ | event'
  · exact Given.nothing _ p.sinks
  · exact Given.nothing _ p.sinks
  · rw [survivor_of_ok hchain]
    exact given_dispatch event' p.sinks

/-- Draining gives the sinks survivors only. -/
theorem given_drain (p : Pipeline κ σ) (events : List ChangeEvent) :
    Given (survivors p.transforms events) p.sinks (p.drain events).2.sinks := by
  induction events generalizing p with
  | nil => exact Given.nothing _ p.sinks
  | cons event events ih =>
      have hevent := given_processEvent p event
      have htransforms := transforms_drain p [event]
      rw [drain] at htransforms
      rw [drain, survivors_cons]
      rcases hp : p.processEvent event with ⟨_ | _, q⟩ <;>
        rw [hp] at hevent htransforms
      · have hnothing := Given.nothing (survivors p.transforms events) q.sinks
        exact hevent.trans hnothing
      · have hrest := ih q
        rw [show q.transforms = p.transforms from htransforms] at hrest
        exact hevent.trans hrest

/-- What the sinks of the pipeline have been given is some of what its
transforms make of the events that successful calls have sent, in their order;
and so is what the next request gives them, of the calls that it makes. -/
structure FedByCalls (transforms : List Transform) (p : Pipeline κ σ) :
    Prop where
  dispatched : ∀ cell ∈ p.sinks,
    cell.dispatched.Sublist (survivors transforms p.connector.delivered)
  next : ∀ request p', after p request = some p' → ∃ events,
    p'.connector.delivered = p.connector.delivered ++ events ∧
      Given (survivors transforms events) p.sinks p'.sinks

theorem exists_given_of_after {p p' : Pipeline κ σ} {request : Request}
    (h : after p request = some p') :
    ∃ events, p'.connector.delivered = p.connector.delivered ++ events ∧
      Given (survivors p.transforms events) p.sinks p'.sinks := by
  rcases drains_or_closes h with ⟨events, hdrains⟩ | ⟨hsinks, -, -, hdelivered⟩
  · refine ⟨events, hdrains.delivered, ?_⟩
    rw [hdrains.sinks]
    exact given_drain p events
  · refine ⟨[], by rw [hdelivered, List.append_nil], ?_⟩
    rw [hsinks]
    exact given_closeSinks p.sinks

theorem Given.sublist {sent events : List ChangeEvent}
    {cells cells' : List (SinkCell σ)} (h : Given events cells cells')
    (hcells : ∀ cell ∈ cells, cell.dispatched.Sublist sent) :
    ∀ cell' ∈ cells', cell'.dispatched.Sublist (sent ++ events) := by
  induction h with
  | nil => exact fun _ hmem => absurd hmem List.not_mem_nil
  | cons hcell _ ih =>
      obtain ⟨hfirst, hrest⟩ := List.forall_mem_cons.mp hcells
      obtain ⟨added, hadded, hdispatched⟩ := hcell
      refine List.forall_mem_cons.mpr ⟨?_, ih hrest⟩
      rw [hdispatched]
      exact hfirst.append hadded

/-- What holds of a pipeline between any two requests. -/
structure Recorded (connector : Connector κ) (transforms : List Transform)
    (p : Pipeline κ σ) : Prop where
  connector_eq : p.connector.connector = connector
  transforms_eq : p.transforms = transforms
  sentByCall : ∀ event ∈ p.connector.delivered, SentByCall connector event
  dispatched : ∀ cell ∈ p.sinks,
    cell.dispatched.Sublist (survivors transforms p.connector.delivered)

theorem Recorded.after {connector : Connector κ} {transforms : List Transform}
    {p p' : Pipeline κ σ} {request : Request} (h : Recorded connector transforms p)
    (hafter : Pipeline.after p request = some p') :
    Recorded connector transforms p' := by
  obtain ⟨events, hdelivered, hgiven⟩ := exists_given_of_after hafter
  have hsublist := hgiven.sublist h.dispatched
  rw [h.transforms_eq, survivors, survivors, ← List.filterMap_append,
    ← hdelivered] at hsublist
  rcases drains_or_closes hafter with ⟨drained, hdrains⟩ | ⟨-, htransforms,
    hconnector, hsame⟩
  · refine ⟨hdrains.connector.trans h.connector_eq,
      hdrains.transforms.trans h.transforms_eq, ?_, hsublist⟩
    intro event hmem
    rw [hdrains.delivered] at hmem
    rcases List.mem_append.mp hmem with hmem | hmem
    · exact h.sentByCall event hmem
    · exact h.connector_eq ▸ hdrains.sentByCall event hmem
  · refine ⟨hconnector.trans h.connector_eq,
      htransforms.trans h.transforms_eq, ?_, hsublist⟩
    rw [hsame]
    exact h.sentByCall

theorem recorded_throughout (name : String) (connector : Connector κ)
    (state : κ) (transforms : List Transform) (sinks : List (Sink σ × σ))
    (requests : List Request) :
    Foundation.Throughout Pipeline.after (Recorded connector transforms)
      (built name connector state transforms sinks) requests := by
  apply Foundation.throughout_of_invariant
  · intro p request p' hp hafter
    exact hp.after hafter
  · refine ⟨rfl, rfl, fun _ hmem => absurd hmem List.not_mem_nil, ?_⟩
    intro cell hcell
    rw [SinkCell.dispatched, calls_of_mem_built hcell]
    exact List.nil_sublist _

/-- Throughout the life of a pipeline, what a sink is given is some of what the
transforms make of the events that the connector has sent, in their order, in
those of its calls that returned successfully.  What a failed call has sent
reaches no sink. -/
theorem passed_throughout (name : String) (connector : Connector κ)
    (state : κ) (transforms : List Transform) (sinks : List (Sink σ × σ))
    (requests : List Request) :
    Foundation.Throughout after (FedByCalls transforms)
      (built name connector state transforms sinks) requests := by
  have hrecorded :=
    recorded_throughout name connector state transforms sinks requests
  refine hrecorded.mono ?_
  intro p hp
  refine ⟨hp.dispatched, fun request p' hafter => ?_⟩
  rw [← hp.transforms_eq]
  exact exists_given_of_after hafter

/-- The event has passed every filter and differs from what was sent in its
two names at most. -/
def RenamedFrom (chain : List BuiltinTransform) (sent event : ChangeEvent) :
    Prop :=
  PassesFilters chain event.payload.op ∧
    ∃ db table, event = (sent.withTable table).withDb db

theorem renamedFrom_of_survivor {chain : List BuiltinTransform}
    {sent event : ChangeEvent}
    (h : survivor (chain.map (·.transform)) sent = some event) :
    RenamedFrom chain sent event := by
  rw [survivor_eq_some_iff, applyTransforms_eq] at h
  have hrun := Except.ok.inj h
  have hseparate := separate_stages chain
  by_cases hpasses : Foundation.PassesGuards (chain.map (·.stage)) sent
  · obtain ⟨db, table, hchanged⟩ := exists_changed_eq chain sent
    rw [Foundation.runStages_of_passesGuards hseparate hpasses, hchanged] at hrun
    obtain rfl := Option.some.inj hrun
    exact ⟨(passesGuards_iff chain sent).mp hpasses, db, table, rfl⟩
  · rw [Foundation.runStages_of_not_passesGuards hseparate hpasses] at hrun
    cases hrun

/-- Some of the survivors are what the chain makes of some of the events. -/
theorem exists_sublist_of_sublist_survivors {transforms : List Transform}
    {events out : List ChangeEvent}
    (h : out.Sublist (survivors transforms events)) :
    ∃ sent, sent.Sublist events ∧
      List.Forall₂ (fun e e' => survivor transforms e = some e') sent out := by
  induction events generalizing out with
  | nil =>
      obtain rfl := List.sublist_nil.mp h
      exact ⟨[], List.Sublist.refl _, List.Forall₂.nil⟩
  | cons event events ih =>
      rw [survivors, List.filterMap_cons] at h
      cases hevent : survivor transforms event with
      | none =>
          rw [hevent] at h
          obtain ⟨sent, hsent, hout⟩ := ih h
          exact ⟨sent, hsent.cons event, hout⟩
      | some event' =>
          rw [hevent] at h
          cases h with
          | cons _ hrest =>
              obtain ⟨sent, hsent, hout⟩ := ih hrest
              exact ⟨sent, hsent.cons event, hout⟩
          | cons_cons _ hrest =>
              obtain ⟨sent, hsent, hout⟩ := ih hrest
              exact ⟨event :: sent, hsent.cons_cons event,
                List.Forall₂.cons hevent hout⟩

/-- Throughout the life of a pipeline with the transforms that it comes with,
what a sink is given has passed every filter and is, but for the two names, some
of what the connector has sent in its successful calls, in that order. -/
theorem onlyRenamed_throughout (name : String) (connector : Connector κ)
    (state : κ) (chain : List BuiltinTransform) (sinks : List (Sink σ × σ))
    (requests : List Request) :
    Foundation.Throughout after
      (fun p => ∀ cell ∈ p.sinks, ∃ sent,
        sent.Sublist p.connector.delivered ∧
          List.Forall₂ (RenamedFrom chain) sent cell.dispatched)
      (built name connector state (chain.map (·.transform)) sinks) requests := by
  have hrecorded := recorded_throughout name connector state
    (chain.map (·.transform)) sinks requests
  refine hrecorded.mono ?_
  intro p hp cell hcell
  obtain ⟨sent, hsent, hout⟩ :=
    exists_sublist_of_sublist_survivors (hp.dispatched cell hcell)
  exact ⟨sent, hsent, hout.imp fun _ _ h => renamedFrom_of_survivor h⟩

/-! ## Events that are written one by one -/

/-- The calls and the state of a sink that is written events one by one. -/
def writeSingly (sink : Sink σ) : σ → List ChangeEvent → List WriteCall × σ
  | state, [] => ([], state)
  | state, event :: events =>
      let (result, state) := sink.write state [event]
      let (calls, state) := writeSingly sink state events
      (⟨[event], result⟩ :: calls, state)

theorem writeSingly_append (sink : Sink σ) (state : σ)
    (events events' : List ChangeEvent) :
    writeSingly sink state (events ++ events') =
      ((writeSingly sink state events).1 ++
          (writeSingly sink (writeSingly sink state events).2 events').1,
        (writeSingly sink (writeSingly sink state events).2 events').2) := by
  induction events generalizing state with
  | nil => rfl
  | cons event events ih =>
      simp only [List.cons_append, writeSingly, ih]

/-- The cell has been written to one event at a time. -/
structure WrittenSingly (sink : Sink σ) (state : σ) (cell : SinkCell σ) :
    Prop where
  sink_eq : cell.sink = sink
  calls_eq : cell.calls = (writeSingly sink state cell.dispatched).1
  state_eq : cell.state = (writeSingly sink state cell.dispatched).2

variable {sink : Sink σ} {state : σ} {cell : SinkCell σ}

theorem WrittenSingly.write (h : WrittenSingly sink state cell)
    (event : ChangeEvent) :
    WrittenSingly sink state (cell.write [event]).2 := by
  have hwrite : cell.write [event] =
      ((sink.write cell.state [event]).1,
        { cell with
          state := (sink.write cell.state [event]).2
          calls := cell.calls ++
            [⟨[event], (sink.write cell.state [event]).1⟩] }) := by
    rw [SinkCell.write, h.sink_eq]
  have hdispatched := dispatched_write cell [event]
  have happend := writeSingly_append sink state cell.dispatched [event]
  constructor
  · rw [hwrite]
    exact h.sink_eq
  · rw [hdispatched, happend, hwrite, ← h.calls_eq, ← h.state_eq]
    rfl
  · rw [hdispatched, happend, hwrite, ← h.state_eq]
    rfl

theorem WrittenSingly.close (hclose : ∀ state, (sink.close state).2 = state)
    (h : WrittenSingly sink state cell) :
    WrittenSingly sink state cell.close.2 := by
  have hkept : cell.close.2.state = cell.state := by
    rw [SinkCell.close, h.sink_eq]
    exact hclose cell.state
  exact ⟨h.sink_eq, h.calls_eq, hkept.trans h.state_eq⟩

/-- A pipeline writes to its sinks one event at a time, for as long as
closing a sink changes nothing. -/
theorem writtenSingly_throughout (name : String) (connector : Connector κ)
    (start : κ) (transforms : List Transform) (sinks : List (Sink σ × σ))
    (hclose : ∀ pair ∈ sinks, ∀ state, (pair.1.close state).2 = state)
    (requests : List Request) :
    Foundation.Throughout after
      (fun p => ∀ cell ∈ p.sinks,
        ∃ pair ∈ sinks, WrittenSingly pair.1 pair.2 cell)
      (built name connector start transforms sinks) requests := by
  have hkept : KeptByLoops fun cells : List (SinkCell σ) => ∀ cell ∈ cells,
      ∃ pair ∈ sinks, WrittenSingly pair.1 pair.2 cell := by
    apply keptByLoops_of_forall_mem
    · rintro cell event ⟨pair, hpair, hcell⟩
      exact ⟨pair, hpair, hcell.write event⟩
    · rintro cell ⟨pair, hpair, hcell⟩
      exact ⟨pair, hpair, hcell.close (hclose pair hpair)⟩
  refine hkept.throughout ?_ requests
  intro cell hcell
  obtain ⟨pair, hpair, rfl⟩ := List.mem_map.mp hcell
  exact ⟨pair, hpair, rfl, rfl, rfl⟩

end Pipeline
end OpenCdc
