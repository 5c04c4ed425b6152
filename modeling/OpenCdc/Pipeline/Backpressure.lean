import OpenCdc.Foundation.Channel
import OpenCdc.Foundation.Machine
import OpenCdc.Pipeline.Reliable

/-!
# The pipeline and its channels, step by step

`run` awaits the connector's call to its end before it receives the first
event, so the whole run is one task: the connector sends into the channel,
returns and drops its sender, and only then the loop behind the call takes the
events out.  The machine below makes one step for each send, each receive and
each transition between these phases.
-/

namespace OpenCdc

open Foundation StateTransition

/-! ## The machine -/

/-- The call that `run` awaits, with the result it will return. -/
inductive Call where
  | snapshot (result : Except Error ConnectorOffset)
  | stream (result : Except Error Unit)

/-- What follows when a channel is drained. -/
inductive Next where
  | openStream (offset : ConnectorOffset)
  | finish

/-- Where `run` stands. -/
inductive Control where
  | entry (snapshotTables : Option (List String))
  | calling (pending : List ChangeEvent) (call : Call)
  | draining (next : Next)
  | openStream (offset : Option ConnectorOffset)
  | returned (result : Except PipelineError Unit)

structure RunState (κ σ : Type) where
  pipeline : Pipeline κ σ
  channel : Channel Pipeline.channelCapacity ChangeEvent
  control : Control

namespace RunState

variable {κ σ : Type}

/-- The connector's call returns; its sender is dropped with it. -/
def afterCall (s : RunState κ σ) : Call → RunState κ σ
  | .snapshot (.ok offset) =>
      { s with
        channel := s.channel.dropSender
        control := .draining (.openStream offset) }
  | .snapshot (.error err) =>
      { pipeline := { s.pipeline with running := false }
        channel := s.channel.dropSender
        control := .returned
          (.error (.source ("snapshot failed: " ++ err.display))) }
  | .stream (.ok _) =>
      { s with
        channel := s.channel.dropSender
        control := .draining .finish }
  | .stream (.error err) =>
      { s with
        channel := s.channel.dropSender
        control := .returned
          (.error (.source ("stream failed: " ++ err.display))) }

def afterDrain (s : RunState κ σ) : Next → RunState κ σ
  | .openStream offset => { s with control := .openStream (some offset) }
  | .finish => { s with control := .returned (.ok ()) }

/-- One step of the task; `none` while it waits, and when it has returned. -/
def step (s : RunState κ σ) : Option (RunState κ σ) :=
  match s.control with
  | .entry snapshotTables =>
      if s.pipeline.running then
        some ⟨s.pipeline, s.channel,
          .returned (.error (.stopped "pipeline is already running"))⟩
      else
        match snapshotTables with
        | none => some { s with
            pipeline := { s.pipeline with running := true }
            control := .openStream none }
        | some tables =>
            let call := s.pipeline.connector.snapshot ⟨tables⟩
            some {
              pipeline := { s.pipeline with
                connector := call.state
                running := true }
              channel := .new
              control := .calling call.sent (.snapshot call.result) }
  | .calling [] call => some (s.afterCall call)
  | .calling (event :: pending) call =>
      (s.channel.send event).map fun channel =>
        { s with channel := channel, control := .calling pending call }
  | .draining next =>
      match s.channel.recv with
      | none => none
      | some (none, channel) =>
          some ({ s with channel := channel }.afterDrain next)
      | some (some event, channel) =>
          match s.pipeline.processEvent event with
          | (.ok _, pipeline) =>
              some { s with pipeline := pipeline, channel := channel }
          | (.error err, pipeline) =>
              some ⟨pipeline, channel, .returned (.error err)⟩
  | .openStream offset =>
      let call := s.pipeline.connector.stream ⟨offset, []⟩
      some {
        pipeline := { s.pipeline with connector := call.state }
        channel := .new
        control := .calling call.sent (.stream call.result) }
  | .returned _ => none

def Returned (s : RunState κ σ) : Prop := ∃ result, s.control = .returned result

/-- `run` is called. -/
def start (p : Pipeline κ σ) (snapshotTables : Option (List String)) :
    RunState κ σ :=
  ⟨p, .new, .entry snapshotTables⟩

/-! ## The machine computes `run` -/

/-- The run ends as `outcome` says: returned with a result and a pipeline, or
waiting for ever. -/
def EndsAs (s : RunState κ σ)
    (outcome : Option (Except PipelineError Unit × Pipeline κ σ)) : Prop :=
  ∃ t, Reaches step s t ∧ t.step = none ∧
    match outcome with
    | some (result, p) => t.control = .returned result ∧ t.pipeline = p
    | none => ¬t.Returned

theorem EndsAs.of_step {s t : RunState κ σ}
    {outcome : Option (Except PipelineError Unit × Pipeline κ σ)}
    (hstep : s.step = some t) (h : t.EndsAs outcome) : s.EndsAs outcome := by
  obtain ⟨u, hu, hrest⟩ := h
  exact ⟨u, reaches_step hstep hu, hrest⟩

theorem EndsAs.of_reaches {s t : RunState κ σ}
    {outcome : Option (Except PipelineError Unit × Pipeline κ σ)}
    (hreaches : Reaches step s t) (h : t.EndsAs outcome) :
    s.EndsAs outcome := by
  obtain ⟨u, hu, hrest⟩ := h
  exact ⟨u, hreaches.trans hu, hrest⟩

theorem endsAs_of_returned {s : RunState κ σ}
    {result : Except PipelineError Unit}
    (h : s.control = .returned result) :
    s.EndsAs (some (result, s.pipeline)) := by
  refine ⟨s, Relation.ReflTransGen.refl, ?_, h, rfl⟩
  rw [step, h]

/-- The connector sends until it is done or has to wait. -/
theorem reaches_sendAll (s : RunState κ σ) {pending : List ChangeEvent}
    {call : Call} (h : s.control = .calling pending call) :
    Reaches step s { s with
      channel := (s.channel.sendAll pending).1
      control := .calling (s.channel.sendAll pending).2 call } := by
  induction pending generalizing s with
  | nil =>
      have hself : s = { s with
          channel := (s.channel.sendAll []).1
          control := .calling (s.channel.sendAll []).2 call } := by
        cases s
        simp only [Channel.sendAll] at h ⊢
        rw [h]
      rw [← hself]
      exact Relation.ReflTransGen.refl
  | cons event pending ih =>
      cases hsend : s.channel.send event with
      | none =>
          have hself : s = { s with
              channel := (s.channel.sendAll (event :: pending)).1
              control := .calling
                (s.channel.sendAll (event :: pending)).2 call } := by
            cases s
            simp only [Channel.sendAll, hsend] at h ⊢
            rw [h]
          rw [← hself]
          exact Relation.ReflTransGen.refl
      | some channel =>
          have hstep : s.step = some { s with
              channel := channel
              control := .calling pending call } := by
            simp [step, h, hsend]
          have hrest := ih { s with
            channel := channel
            control := .calling pending call } rfl
          simp only [Channel.sendAll, hsend]
          exact reaches_step hstep hrest

/-- A call whose events overflow the channel never returns. -/
theorem endsAs_of_overflow {s : RunState κ σ} {pending : List ChangeEvent}
    {call : Call} (h : s.control = .calling pending call)
    (hqueue : s.channel.queue = [])
    (hoverflow : Pipeline.channelCapacity < pending.length) :
    s.EndsAs none := by
  obtain ⟨event, rest, hleft, hfull⟩ := Channel.sendAll_of_overflow
    s.channel pending (by simpa [hqueue] using hoverflow)
  have hreaches := reaches_sendAll s h
  rw [hleft] at hreaches
  refine ⟨_, hreaches, ?_, ?_⟩
  · simp [step, hfull]
  · rintro ⟨result, hresult⟩
    cases hresult

/-- A call whose events fit returns, and leaves them in a closed channel. -/
theorem reaches_afterCall {s : RunState κ σ} {pending : List ChangeEvent}
    {call : Call} (h : s.control = .calling pending call)
    (hchannel : s.channel = .new)
    (hfits : pending.length ≤ Pipeline.channelCapacity) :
    ∃ channel, channel.queue = pending ∧ channel.senders = 1 ∧
      Reaches step s ({ s with channel := channel }.afterCall call) := by
  obtain ⟨hleft, hqueue, hsenders⟩ := Channel.sendAll_of_fits
    s.channel pending (by simpa [hchannel, Channel.new] using hfits)
  have hreaches := reaches_sendAll s h
  rw [hleft] at hreaches
  refine ⟨(s.channel.sendAll pending).1, ?_, ?_, ?_⟩
  · simpa [hchannel, Channel.new] using hqueue
  · simpa [hchannel, Channel.new] using hsenders
  · refine hreaches.trans (reaches_step ?_ Relation.ReflTransGen.refl)
    cases call with
    | snapshot result => cases result <;> rfl
    | stream result => cases result <;> rfl

/-- Taking the events out of a closed channel is `drain`. -/
theorem reaches_drain {s : RunState κ σ} {next : Next}
    (h : s.control = .draining next) (hsenders : s.channel.senders = 0) :
    ∃ channel, Reaches step s
      (match s.pipeline.drain s.channel.queue with
      | (.ok _, p) => (RunState.mk p channel s.control).afterDrain next
      | (.error err, p) => ⟨p, channel, .returned (.error err)⟩) := by
  induction hqueue : s.channel.queue generalizing s with
  | nil =>
      have hrecv := Channel.recv_of_closed hqueue hsenders
      refine ⟨s.channel, reaches_step ?_ Relation.ReflTransGen.refl⟩
      simp [step, h, hrecv, Pipeline.drain]
  | cons event rest ih =>
      obtain ⟨channel, hrecv, hrest, hsenders'⟩ := Channel.recv_of_cons hqueue
      rw [Pipeline.drain]
      rcases hevent : s.pipeline.processEvent event with ⟨result, p⟩
      cases result with
      | error err =>
          refine ⟨channel, reaches_step ?_ Relation.ReflTransGen.refl⟩
          simp [step, h, hrecv, hevent]
      | ok _ =>
          obtain ⟨channel', hreaches⟩ := ih
            (s := { s with pipeline := p, channel := channel }) h
            (hsenders'.trans hsenders) hrest
          refine ⟨channel', reaches_step ?_ hreaches⟩
          simp [step, h, hrecv, hevent]

/-- A call on a new channel waits for ever, or goes on as it returns. -/
theorem endsAs_calling {p : Pipeline κ σ} {sent : List ChangeEvent}
    {call : Call} {outcome : Option (Except PipelineError Unit × Pipeline κ σ)}
    (hreturn : ∀ channel : Channel Pipeline.channelCapacity ChangeEvent,
      channel.queue = sent → channel.senders = 1 →
        ((RunState.mk p channel (.calling sent call)).afterCall call).EndsAs
          outcome) :
    (RunState.mk p .new (.calling sent call)).EndsAs
      (if Pipeline.channelCapacity < sent.length then none else outcome) := by
  by_cases hoverflow : Pipeline.channelCapacity < sent.length
  · rw [if_pos hoverflow]
    exact endsAs_of_overflow rfl rfl hoverflow
  · rw [if_neg hoverflow]
    obtain ⟨channel, hqueue, hsenders, hreaches⟩ :=
      @reaches_afterCall _ _ (RunState.mk p .new (.calling sent call)) _ _ rfl
        rfl (Nat.not_lt.mp hoverflow)
    exact EndsAs.of_reaches hreaches (hreturn channel hqueue hsenders)

/-- Draining a closed channel returns the first error, or goes on. -/
theorem endsAs_draining {p : Pipeline κ σ}
    {channel : Channel Pipeline.channelCapacity ChangeEvent} {next : Next}
    {outcome : Option (Except PipelineError Unit × Pipeline κ σ)}
    (hsenders : channel.senders = 1)
    (herror : ∀ err q, p.drain channel.queue = (.error err, q) →
      outcome = some (.error err, q))
    (hok : ∀ channel' q, p.drain channel.queue = (.ok (), q) →
      ((RunState.mk q channel' (.draining next)).afterDrain next).EndsAs
        outcome) :
    (RunState.mk p channel.dropSender (.draining next)).EndsAs outcome := by
  have hclosed : channel.dropSender.senders = 0 := by
    simp [Channel.dropSender, hsenders]
  obtain ⟨channel', hreaches⟩ := @reaches_drain _ _
    (RunState.mk p channel.dropSender (.draining next)) _ rfl hclosed
  apply EndsAs.of_reaches hreaches
  simp only [Channel.dropSender]
  rcases hdrain : p.drain channel.queue with ⟨err | _, q⟩
  · rw [herror err q hdrain]
    exact endsAs_of_returned rfl
  · exact hok channel' q hdrain

theorem endsAs_openStream {s : RunState κ σ}
    {offset : Option ConnectorOffset} (h : s.control = .openStream offset) :
    s.EndsAs (s.pipeline.streamFromOffset offset) := by
  rcases hcall : s.pipeline.connector.stream ⟨offset, []⟩ with
    ⟨sent, result, connector⟩
  have hstep : s.step = some {
      pipeline := { s.pipeline with connector := connector }
      channel := .new
      control := .calling sent (.stream result) } := by
    simp [step, h, hcall]
  apply EndsAs.of_step hstep
  simp only [Pipeline.streamFromOffset, hcall]
  apply endsAs_calling
  intro channel hqueue hsenders
  cases result with
  | error err => exact endsAs_of_returned rfl
  | ok _ =>
      subst hqueue
      apply endsAs_draining hsenders
      · intro err p hdrain
        exact congrArg some hdrain
      · intro channel' p hdrain
        rw [hdrain]
        exact endsAs_of_returned rfl

/-- The machine ends with what `run` computes, and waits for ever where `run`
computes nothing. -/
theorem endsAs_run (p : Pipeline κ σ)
    (snapshotTables : Option (List String)) :
    (start p snapshotTables).EndsAs (p.run snapshotTables) := by
  by_cases hrunning : p.running
  · have hstep : (start p snapshotTables).step = some ⟨p, .new,
        .returned (.error (.stopped "pipeline is already running"))⟩ := by
      simp [step, start, hrunning]
    apply EndsAs.of_step hstep
    rw [Pipeline.run, if_pos hrunning]
    exact endsAs_of_returned rfl
  · rw [Pipeline.run, if_neg hrunning]
    cases snapshotTables with
    | none =>
        have hstep : (start p none).step = some ⟨{ p with running := true },
            .new, .openStream none⟩ := by
          simp [step, start, hrunning]
        exact EndsAs.of_step hstep (endsAs_openStream rfl)
    | some tables =>
        rcases hcall : p.connector.snapshot ⟨tables⟩ with
          ⟨sent, result, connector⟩
        have hstep : (start p (some tables)).step = some {
            pipeline := { p with connector := connector, running := true }
            channel := .new
            control := .calling sent (.snapshot result) } := by
          simp [step, start, hrunning, hcall]
        apply EndsAs.of_step hstep
        simp only [Pipeline.runFresh, hcall]
        apply endsAs_calling
        intro channel hqueue hsenders
        cases result with
        | error err => exact endsAs_of_returned rfl
        | ok offset =>
            subst hqueue
            apply endsAs_draining hsenders
            · intro err q hdrain
              rw [hdrain]
            · intro channel' q hdrain
              rw [hdrain]
              exact endsAs_openStream rfl

/-- The machine never gets stuck exactly if `run` returns. -/
theorem neverStuck_iff_run_isSome (p : Pipeline κ σ)
    (snapshotTables : Option (List String)) :
    NeverStuck step Returned (start p snapshotTables) ↔
      (p.run snapshotTables).isSome := by
  obtain ⟨t, hreaches, hstop, hend⟩ := endsAs_run p snapshotTables
  rw [neverStuck_iff_of_reaches hreaches hstop]
  cases hrun : p.run snapshotTables with
  | none => simpa [hrun] using hend
  | some outcome =>
      rw [hrun] at hend
      simpa using ⟨outcome.1, hend.1⟩

end RunState

/-! ## When the channels suffice -/

namespace Pipeline

variable {κ σ : Type}

/-- The events of each call fit into its channel, as far as the run makes the
call: the stream is opened only if the chain fails on no event of the
snapshot. -/
def ChannelsSuffice (p : Pipeline κ σ) :
    Option (List String) → Prop
  | none => (p.connector.stream ⟨none, []⟩).sent.length ≤ channelCapacity
  | some tables =>
      (p.connector.snapshot ⟨tables⟩).sent.length ≤ channelCapacity ∧
        ((∀ event ∈ (p.connector.snapshot ⟨tables⟩).sent,
            ¬ChainFails p.transforms event) →
          ∀ offset, (p.connector.snapshot ⟨tables⟩).result = .ok offset →
            ((p.connector.snapshot ⟨tables⟩).state.stream
              ⟨some offset, []⟩).sent.length ≤ channelCapacity)

theorem streamFromOffset_isSome_iff {p : Pipeline κ σ}
    {offset : Option ConnectorOffset} :
    (p.streamFromOffset offset).isSome ↔
      (p.connector.stream ⟨offset, []⟩).sent.length ≤ channelCapacity := by
  simp only [streamFromOffset]
  split
  next hoverflow =>
    simpa using hoverflow
  next hfits =>
    have hle := Nat.not_lt.mp hfits
    cases (p.connector.stream ⟨offset, []⟩).result <;> simpa using hle

theorem run_isSome_iff {p : Pipeline κ σ}
    {snapshotTables : Option (List String)}
    (hsinks : SinksNeverFail p.sinks)
    (hsnapshot : ∀ ctx, ∃ offset,
      (p.connector.snapshot ctx).result = .ok offset) :
    (p.run snapshotTables).isSome ↔
      p.running = true ∨ p.ChannelsSuffice snapshotTables := by
  by_cases hrunning : p.running = true
  · simp [run, hrunning]
  · have hidle : p.running = false := by simpa using hrunning
    cases snapshotTables with
    | none =>
        rw [run_none hidle, streamFromOffset_isSome_iff]
        simp [hidle, ChannelsSuffice]
    | some tables =>
        obtain ⟨offset, hresult⟩ := hsnapshot ⟨tables⟩
        by_cases hfits : (p.connector.snapshot ⟨tables⟩).sent.length ≤
            channelCapacity
        · have hdrain := drain_ok_iff_of_neverFail hsinks
            (p.connector.snapshot ⟨tables⟩).sent
          rw [run_of_snapshot_ok hidle hresult hfits]
          simp only [hidle, ChannelsSuffice, hfits, hresult, true_and,
            ← hdrain, Except.ok.injEq, forall_eq', Bool.false_eq_true,
            false_or]
          rcases p.drain (p.connector.snapshot ⟨tables⟩).sent with ⟨result, q⟩
          cases result with
          | error err => simp
          | ok _ => simp [streamFromOffset_isSome_iff]
        · rw [run_of_overfull hidle (Nat.not_le.mp hfits)]
          simp [hidle, ChannelsSuffice, hfits]

/-- A stream with one event more than the channel holds. -/
def overflowingStream : Pipeline Script ℕ :=
  ofScript ⟨[], .ok {}, List.replicate 1025 rowA, .ok ()⟩

theorem not_neverStuck_overflowingStream :
    ¬NeverStuck RunState.step RunState.Returned
      (RunState.start overflowingStream none) := by
  rw [RunState.neverStuck_iff_run_isSome, run_none rfl,
    streamFromOffset_isSome_iff]
  have hlength : (List.replicate 1025 rowA).length = 1025 :=
    List.length_replicate
  change ¬(List.replicate 1025 rowA).length ≤ channelCapacity
  rw [hlength]
  decide

/-- A run never gets stuck exactly when it is rejected at once or its events
fit into their channels. -/
theorem neverStuck_run_iff (p : Pipeline κ σ)
    (snapshotTables : Option (List String))
    (hsinks : SinksNeverFail p.sinks)
    (hsnapshot : ∀ ctx, ∃ offset,
      (p.connector.snapshot ctx).result = .ok offset) :
    NeverStuck RunState.step RunState.Returned
        (RunState.start p snapshotTables) ↔
      p.running = true ∨ p.ChannelsSuffice snapshotTables := by
  rw [RunState.neverStuck_iff_run_isSome, run_isSome_iff hsinks hsnapshot]

theorem neverStuck_run_iff_threeRows :
    NeverStuck RunState.step RunState.Returned
        (RunState.start threeRows (some ["t"])) ↔
      threeRows.running = true ∨ threeRows.ChannelsSuffice (some ["t"]) :=
  neverStuck_run_iff threeRows (some ["t"])
    (by
      intro cell hcell state events
      rw [List.mem_singleton.mp hcell]
      rfl)
    (fun _ => ⟨{}, rfl⟩)

end Pipeline
end OpenCdc
