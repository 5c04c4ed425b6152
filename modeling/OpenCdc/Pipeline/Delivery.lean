import Mathlib.Data.List.Forall2
import Mathlib.Order.Basic
import OpenCdc.Pipeline.Model

/-!
# What the sinks of a pipeline receive

The sinks are compared through their records of `write` calls.  An event that
passes the whole chain is written to every sink in turn; the first failure
leaves the sinks on a staircase with one step.
-/

namespace OpenCdc

/-! ## Events that survive the transform chain -/

/-- What one transform makes of an event; a failure counts as a drop. -/
def Transform.outcome (transform : Transform) (event : ChangeEvent) :
    Option ChangeEvent :=
  (transform event).toOption.join

/-- What a chain makes of `event`: each transform is given what the one before
it has made, and the first that drops the event or fails ends the chain. -/
def survivor (transforms : List Transform) (event : ChangeEvent) :
    Option ChangeEvent :=
  transforms.foldlM (fun event transform => transform.outcome event) event

def survivors (transforms : List Transform) (events : List ChangeEvent) :
    List ChangeEvent :=
  events.filterMap (survivor transforms)

/-- Some transform fails on what those before it have made of `event`. -/
def ChainFails (transforms : List Transform) (event : ChangeEvent) : Prop :=
  ∃ before transform after, transforms = before ++ transform :: after ∧
    ∃ event' err, survivor before event = some event' ∧
      transform event' = .error err

section Chain

variable {transforms : List Transform} {event : ChangeEvent}

theorem survivor_cons (transform : Transform) :
    survivor (transform :: transforms) event =
      (transform.outcome event).bind (survivor transforms) :=
  List.foldlM_cons

theorem survivors_cons (transforms : List Transform) (event : ChangeEvent)
    (events : List ChangeEvent) :
    survivors transforms (event :: events) =
      (survivor transforms event).toList ++ survivors transforms events := by
  rw [survivors, survivors, List.filterMap_cons]
  cases survivor transforms event with
  | none => rfl
  | some event' => rfl

/-- The loop over the transforms computes the survivor, unless it fails. -/
theorem survivor_eq_applyTransforms (transforms : List Transform)
    (event : ChangeEvent) :
    survivor transforms event =
      (applyTransforms transforms (some event)).toOption.join := by
  induction transforms generalizing event with
  | nil => rfl
  | cons transform transforms ih =>
      rw [survivor_cons, Transform.outcome, applyTransforms]
      cases transform event with
      | error err => rfl
      | ok event' =>
          cases event' with
          | none => cases transforms <;> rfl
          | some event' => exact ih event'

theorem survivor_of_ok {event' : Option ChangeEvent}
    (h : applyTransforms transforms (some event) = .ok event') :
    survivor transforms event = event' := by
  rw [survivor_eq_applyTransforms, h]
  rfl

theorem survivor_of_error {err : PipelineError}
    (h : applyTransforms transforms (some event) = .error err) :
    survivor transforms event = none := by
  rw [survivor_eq_applyTransforms, h]
  rfl

theorem survivor_eq_some_iff {event' : ChangeEvent} :
    survivor transforms event = some event' ↔
      applyTransforms transforms (some event) = .ok (some event') := by
  rw [survivor_eq_applyTransforms]
  cases applyTransforms transforms (some event) with
  | error err => simp [Except.toOption]
  | ok out => simp [Except.toOption]

theorem chainFails_cons_iff {transform : Transform} :
    ChainFails (transform :: transforms) event ↔
      (∃ err, transform event = .error err) ∨
        ∃ event', transform event = .ok (some event') ∧
          ChainFails transforms event' := by
  constructor
  · rintro ⟨before, failing, after, hsplit, event', err, hbefore, hfails⟩
    cases before with
    | nil =>
        obtain ⟨rfl, -⟩ := List.cons.inj hsplit
        obtain rfl := Option.some.inj hbefore
        exact Or.inl ⟨err, hfails⟩
    | cons first before =>
        obtain ⟨rfl, rfl⟩ := List.cons.inj hsplit
        rw [survivor_cons, Option.bind_eq_some_iff] at hbefore
        obtain ⟨between, hfirst, hrest⟩ := hbefore
        refine Or.inr ⟨between, ?_, before, failing, after, rfl, event', err,
          hrest, hfails⟩
        rw [Transform.outcome] at hfirst
        cases htransform : transform event with
        | error err => simp [htransform, Except.toOption] at hfirst
        | ok out =>
            rw [htransform] at hfirst
            exact congrArg Except.ok hfirst
  · rintro (⟨err, hfails⟩ | ⟨event', hfirst, before, failing, after, rfl, hrest⟩)
    · exact ⟨[], transform, transforms, rfl, event, err, rfl, hfails⟩
    · refine ⟨transform :: before, failing, after, rfl, ?_⟩
      rw [survivor_cons, Transform.outcome, hfirst]
      exact hrest

/-- The loop fails exactly if one of the transforms does where the loop gets
to. -/
theorem chainFails_iff :
    ChainFails transforms event ↔
      ∃ err, applyTransforms transforms (some event) = .error err := by
  induction transforms generalizing event with
  | nil =>
      refine iff_of_false ?_ (by simp [applyTransforms])
      rintro ⟨before, transform, after, hsplit, -⟩
      simp at hsplit
  | cons transform transforms ih =>
      rw [chainFails_cons_iff, applyTransforms]
      cases transform event with
      | error err => simp
      | ok event' =>
          cases event' with
          | none => cases transforms <;> simp [applyTransforms]
          | some event' => simpa using ih

end Chain

/-- A successful `write` of one event. -/
def writeOk (event : ChangeEvent) : WriteCall := ⟨[event], .ok ()⟩

variable {κ σ : Type}

/-! ## One sink -/

namespace SinkCell

theorem write_calls (cell : SinkCell σ) (events : List ChangeEvent) :
    (cell.write events).2.calls =
      cell.calls ++ [⟨events, (cell.write events).1⟩] :=
  rfl

theorem dispatched_of_calls {cell cell' : SinkCell σ} {call : WriteCall}
    (h : cell'.calls = cell.calls ++ [call]) :
    cell'.dispatched = cell.dispatched ++ call.events := by
  simp [dispatched, h]

theorem written_of_error {cell cell' : SinkCell σ}
    {events : List ChangeEvent} {err : PipelineError}
    (h : cell'.calls = cell.calls ++ [⟨events, .error err⟩]) :
    cell'.written = cell.written := by
  simp [written, h]

theorem dispatched_of_writeOk {cell cell' : SinkCell σ}
    {events : List ChangeEvent}
    (h : cell'.calls = cell.calls ++ events.map writeOk) :
    cell'.dispatched = cell.dispatched ++ events := by
  simp [dispatched, h, List.flatMap_map, writeOk]

theorem written_of_writeOk {cell cell' : SinkCell σ}
    {events : List ChangeEvent}
    (h : cell'.calls = cell.calls ++ events.map writeOk) :
    cell'.written = cell.written ++ events := by
  simp [written, h, List.flatMap_map, writeOk]

end SinkCell

/-! ## All sinks -/

/-- Every sink was written `events`, one by one and in order, and nothing
else. -/
def Appended (events : List ChangeEvent) :
    List (SinkCell σ) → List (SinkCell σ) → Prop :=
  List.Forall₂ fun cell cell' =>
    cell'.calls = cell.calls ++ events.map writeOk

theorem Appended.refl (cells : List (SinkCell σ)) :
    Appended [] cells cells := by
  induction cells with
  | nil => exact List.Forall₂.nil
  | cons cell cells ih => exact List.Forall₂.cons (by simp) ih

theorem Appended.trans {xs ys : List ChangeEvent}
    {cells cells' cells'' : List (SinkCell σ)}
    (hxs : Appended xs cells cells') (hys : Appended ys cells' cells'') :
    Appended (xs ++ ys) cells cells'' := by
  induction hxs generalizing cells'' with
  | nil =>
      cases hys
      exact List.Forall₂.nil
  | cons hcell _ ih =>
      cases hys with
      | cons hcell' hrest =>
          exact List.Forall₂.cons (by rw [hcell', hcell]; simp) (ih hrest)

theorem Appended.map_written {events : List ChangeEvent}
    {cells cells' : List (SinkCell σ)} (h : Appended events cells cells') :
    cells'.map (·.written) = cells.map fun cell => cell.written ++ events := by
  induction h with
  | nil => rfl
  | cons hcell _ ih =>
      rw [List.map_cons, List.map_cons, ih, SinkCell.written_of_writeOk hcell]

theorem dispatch_cons_ok {event : ChangeEvent} {cell : SinkCell σ}
    (cells : List (SinkCell σ)) (h : (cell.write [event]).1 = .ok ()) :
    dispatch event (cell :: cells) =
      ((dispatch event cells).1,
        (cell.write [event]).2 :: (dispatch event cells).2) := by
  rw [dispatch]
  rcases hwrite : cell.write [event] with ⟨result, cell'⟩
  rw [hwrite] at h
  cases h
  rfl

theorem dispatch_cons_error {event : ChangeEvent} {cell : SinkCell σ}
    {err : PipelineError} (cells : List (SinkCell σ))
    (h : (cell.write [event]).1 = .error err) :
    dispatch event (cell :: cells) =
      (.error (.sink err.display), (cell.write [event]).2 :: cells) := by
  rw [dispatch]
  rcases hwrite : cell.write [event] with ⟨result, cell'⟩
  rw [hwrite] at h
  cases h
  rfl

theorem dispatch_ok {event : ChangeEvent} {cells cells' : List (SinkCell σ)}
    (h : dispatch event cells = (.ok (), cells')) :
    Appended [event] cells cells' := by
  induction cells generalizing cells' with
  | nil =>
      cases h
      exact List.Forall₂.nil
  | cons cell cells ih =>
      have hcalls := SinkCell.write_calls cell [event]
      cases hwrite : (cell.write [event]).1 with
      | error err =>
          rw [dispatch_cons_error cells hwrite] at h
          cases h
      | ok _ =>
          rw [dispatch_cons_ok cells hwrite, Prod.mk.injEq] at h
          obtain ⟨hresult, rfl⟩ := h
          rw [hwrite] at hcalls
          exact List.Forall₂.cons hcalls (ih (Prod.ext hresult rfl))

/-- The event was written to every sink; or one of the sinks failed on it, those
in front of that sink wrote it, and those behind were not called. -/
def Reached (event : ChangeEvent) (result : Except PipelineError Unit)
    (cells cells' : List (SinkCell σ)) : Prop :=
  match result with
  | .ok _ => Appended [event] cells cells'
  | .error err => ∃ before cell behind before' cell' failure,
      cells = before ++ cell :: behind ∧ cells' = before' ++ cell' :: behind ∧
        Appended [event] before before' ∧
        cell'.calls = cell.calls ++ [⟨[event], .error failure⟩] ∧
        err = .sink failure.display

theorem reached_dispatch (event : ChangeEvent) (cells : List (SinkCell σ)) :
    Reached event (dispatch event cells).1 cells (dispatch event cells).2 := by
  induction cells with
  | nil => exact List.Forall₂.nil
  | cons cell cells ih =>
      have hcalls := SinkCell.write_calls cell [event]
      cases hwrite : (cell.write [event]).1 with
      | error failure =>
          rw [dispatch_cons_error cells hwrite]
          rw [hwrite] at hcalls
          exact ⟨[], cell, cells, [], _, failure, rfl, rfl, List.Forall₂.nil,
            hcalls, rfl⟩
      | ok _ =>
          rw [dispatch_cons_ok cells hwrite]
          rw [hwrite] at hcalls
          rcases hdispatch : dispatch event cells with ⟨err | _, cells'⟩ <;>
            rw [hdispatch] at ih
          · obtain ⟨before, failed, behind, before', failed', failure, rfl, rfl,
              hbefore, hfailed, herr⟩ := ih
            exact ⟨cell :: before, failed, behind, _ :: before', failed',
              failure, rfl, rfl, List.Forall₂.cons hcalls hbefore, hfailed, herr⟩
          · exact List.Forall₂.cons hcalls ih

/-- The sinks in front of some position wrote `common ++ last`, those from
there on wrote `common`. -/
def Staircase (common last : List ChangeEvent)
    (cells cells' : List (SinkCell σ)) : Prop :=
  ∃ k, k ≤ cells.length ∧ cells'.map (·.written) =
    List.zipWith (· ++ ·) (cells.map (·.written))
      (List.replicate k (common ++ last) ++
        List.replicate (cells.length - k) common)

/-- Every sink was dispatched either `before` or `upTo`. -/
def DispatchedEither (before upTo : List ChangeEvent) :
    List (SinkCell σ) → List (SinkCell σ) → Prop :=
  List.Forall₂ fun cell cell' =>
    cell'.dispatched = cell.dispatched ++ before ∨
      cell'.dispatched = cell.dispatched ++ upTo

theorem zipWith_append_replicate_nil {α : Type} (logs : List (List α)) :
    List.zipWith (· ++ ·) logs (List.replicate logs.length []) = logs := by
  induction logs with
  | nil => rfl
  | cons head logs ih => simp [List.replicate_succ, ih]

theorem zipWith_append_map {α : Type} (logs added : List (List α))
    (common : List α) :
    List.zipWith (· ++ ·) (logs.map (· ++ common)) added =
      List.zipWith (· ++ ·) logs (added.map (common ++ ·)) := by
  rw [List.zipWith_map_left, List.zipWith_map_right]
  simp

theorem Staircase.flat_of_written {last : List ChangeEvent}
    {cells cells' : List (SinkCell σ)}
    (h : cells'.map (·.written) = cells.map (·.written)) :
    Staircase [] last cells cells' := by
  have hflat := zipWith_append_replicate_nil (cells.map (·.written))
  rw [List.length_map] at hflat
  exact ⟨0, Nat.zero_le _, by simpa [h] using hflat.symm⟩

theorem DispatchedEither.nothing (upTo : List ChangeEvent)
    (cells : List (SinkCell σ)) : DispatchedEither [] upTo cells cells := by
  induction cells with
  | nil => exact List.Forall₂.nil
  | cons cell cells ih => exact List.Forall₂.cons (Or.inl (by simp)) ih

/-- A failed dispatch has written the event to the sinks in front of the one
that failed, and has dispatched it to none behind that. -/
theorem dispatch_error {event : ChangeEvent} {err : PipelineError}
    {cells cells' : List (SinkCell σ)}
    (h : dispatch event cells = (.error err, cells')) :
    Staircase [] [event] cells cells' ∧
      DispatchedEither [] [event] cells cells' := by
  induction cells generalizing cells' with
  | nil => cases h
  | cons cell cells ih =>
      have hcalls := SinkCell.write_calls cell [event]
      cases hwrite : (cell.write [event]).1 with
      | error err' =>
          rw [dispatch_cons_error cells hwrite, Prod.mk.injEq] at h
          obtain ⟨-, rfl⟩ := h
          rw [hwrite] at hcalls
          refine ⟨Staircase.flat_of_written ?_, List.Forall₂.cons
            (Or.inr (SinkCell.dispatched_of_calls hcalls))
            (DispatchedEither.nothing _ cells)⟩
          simp [SinkCell.written_of_error hcalls]
      | ok _ =>
          rw [dispatch_cons_ok cells hwrite, Prod.mk.injEq] at h
          obtain ⟨hresult, rfl⟩ := h
          obtain ⟨⟨k, hk, hwritten⟩, hdispatched⟩ :=
            ih (Prod.ext hresult rfl)
          rw [hwrite] at hcalls
          have hcell : (cell.write [event]).2.calls =
              cell.calls ++ [event].map writeOk := hcalls
          refine ⟨⟨k + 1, by simpa using hk, ?_⟩, List.Forall₂.cons
            (Or.inr (SinkCell.dispatched_of_writeOk hcell)) hdispatched⟩
          simp [hwritten, SinkCell.written_of_writeOk hcell,
            List.replicate_succ]

theorem Staircase.after {common step last : List ChangeEvent}
    {cells cells' cells'' : List (SinkCell σ)}
    (hcommon : Appended common cells cells')
    (hstep : Staircase step last cells' cells'') :
    Staircase (common ++ step) last cells cells'' := by
  obtain ⟨k, hk, hwritten⟩ := hstep
  have hlength := List.Forall₂.length_eq hcommon
  refine ⟨k, hlength ▸ hk, ?_⟩
  have hsplit : (cells.map fun cell => cell.written ++ common) =
      (cells.map (·.written)).map (· ++ common) := by
    simp
  rw [hwritten, hcommon.map_written, hlength, hsplit, zipWith_append_map]
  simp

theorem DispatchedEither.after {common before upTo : List ChangeEvent}
    {cells cells' cells'' : List (SinkCell σ)}
    (hcommon : Appended common cells cells')
    (heither : DispatchedEither before upTo cells' cells'') :
    DispatchedEither (common ++ before) (common ++ upTo) cells cells'' := by
  induction hcommon generalizing cells'' with
  | nil =>
      cases heither
      exact List.Forall₂.nil
  | cons hcell _ ih =>
      cases heither with
      | cons hcell' hrest =>
          refine List.Forall₂.cons ?_ (ih hrest)
          rw [SinkCell.dispatched_of_writeOk hcell] at hcell'
          simpa using hcell'

/-! ## One event, and the events of a channel -/

namespace Pipeline

/-- An event that was processed has been written to every sink if the chain
lets it through, and nothing but the sinks has changed. -/
theorem processEvent_ok {p p' : Pipeline κ σ} {event : ChangeEvent}
    (h : p.processEvent event = (.ok (), p')) :
    Appended (survivor p.transforms event).toList p.sinks p'.sinks ∧
      p' = { p with sinks := p'.sinks } := by
  unfold processEvent at h
  cases hchain : applyTransforms p.transforms (some event) with
  | error err => simp [hchain] at h
  | ok event' =>
      cases event' with
      | none =>
          simp only [hchain, Prod.mk.injEq, true_and] at h
          subst h
          rw [survivor_of_ok hchain]
          exact ⟨Appended.refl _, rfl⟩
      | some event' =>
          simp only [hchain, Prod.mk.injEq] at h
          obtain ⟨hresult, rfl⟩ := h
          rw [survivor_of_ok hchain]
          exact ⟨dispatch_ok (Prod.ext hresult rfl), rfl⟩

/-- An event whose processing failed, in the chain or at a sink, is the last
one that any sink was given. -/
theorem processEvent_error {p p' : Pipeline κ σ} {event : ChangeEvent}
    {err : PipelineError} (h : p.processEvent event = (.error err, p')) :
    Staircase [] (survivor p.transforms event).toList p.sinks p'.sinks ∧
      DispatchedEither [] (survivor p.transforms event).toList
        p.sinks p'.sinks ∧
      p' = { p with sinks := p'.sinks } := by
  unfold processEvent at h
  cases hchain : applyTransforms p.transforms (some event) with
  | error err' =>
      simp only [hchain, Prod.mk.injEq] at h
      obtain ⟨-, rfl⟩ := h
      rw [survivor_of_error hchain]
      exact ⟨Staircase.flat_of_written rfl, DispatchedEither.nothing _ _, rfl⟩
  | ok event' =>
      cases event' with
      | none => simp [hchain] at h
      | some event' =>
          simp only [hchain, Prod.mk.injEq] at h
          obtain ⟨hresult, rfl⟩ := h
          obtain ⟨hstairs, hdispatched⟩ := dispatch_error (Prod.ext hresult rfl)
          rw [survivor_of_ok hchain]
          exact ⟨hstairs, hdispatched, rfl⟩

/-- Draining a channel without a failure writes exactly the survivors to every
sink. -/
theorem drain_ok {p p' : Pipeline κ σ} {events : List ChangeEvent}
    (h : p.drain events = (.ok (), p')) :
    Appended (survivors p.transforms events) p.sinks p'.sinks ∧
      p' = { p with sinks := p'.sinks } := by
  induction events generalizing p with
  | nil =>
      cases h
      exact ⟨Appended.refl _, rfl⟩
  | cons event events ih =>
      rw [drain] at h
      rcases hevent : p.processEvent event with ⟨result, q⟩
      rw [hevent] at h
      cases result with
      | error err => simp at h
      | ok _ =>
          obtain ⟨hfirst, hq⟩ := processEvent_ok hevent
          obtain ⟨hrest, hp'⟩ := ih h
          have htransforms : q.transforms = p.transforms := by rw [hq]
          rw [htransforms] at hrest
          refine ⟨?_, by rw [hp', hq]⟩
          rw [survivors_cons]
          exact hfirst.trans hrest

theorem drain_append (p : Pipeline κ σ) (xs ys : List ChangeEvent) :
    p.drain (xs ++ ys) =
      match p.drain xs with
      | (.ok _, p') => p'.drain ys
      | (.error err, p') => (.error err, p') := by
  induction xs generalizing p with
  | nil => rfl
  | cons x xs ih =>
      simp only [List.cons_append, drain]
      rcases p.processEvent x with ⟨result, q⟩
      cases result with
      | error err => rfl
      | ok _ => exact ih q

/-- Draining that fails fails at one event: everything in front of it was
processed, and it was not. -/
theorem drain_error {p p' : Pipeline κ σ} {events : List ChangeEvent}
    {err : PipelineError} (h : p.drain events = (.error err, p')) :
    ∃ pre event post mid, events = pre ++ event :: post ∧
      p.drain pre = (.ok (), mid) ∧
      mid.processEvent event = (.error err, p') := by
  induction events generalizing p with
  | nil => cases h
  | cons event events ih =>
      rw [drain] at h
      rcases hevent : p.processEvent event with ⟨result, q⟩
      rw [hevent] at h
      cases result with
      | error err' =>
          simp only [Prod.mk.injEq, Except.error.injEq] at h
          obtain ⟨rfl, rfl⟩ := h
          exact ⟨[], event, events, p, rfl, rfl, hevent⟩
      | ok _ =>
          obtain ⟨pre, bad, post, mid, rfl, hpre, hbad⟩ := ih h
          refine ⟨event :: pre, bad, post, mid, rfl, ?_, hbad⟩
          rw [drain, hevent]
          exact hpre

/-! ## What a run delivers -/

/-- Every sink was successfully written exactly the survivors of `events`, one
by one and in order. -/
def DeliversAll (p p' : Pipeline κ σ) (events : List ChangeEvent) : Prop :=
  Appended (survivors p.transforms events) p.sinks p'.sinks

/-- Every sink was successfully written a prefix of the survivors of `events`;
a later sink has a prefix of what an earlier one has, at most one event
shorter. -/
def DeliversPrefixes (p p' : Pipeline κ σ) (events : List ChangeEvent) :
    Prop :=
  ∃ added : List (List ChangeEvent), added.length = p.sinks.length ∧
    p'.sinks.map (·.written) =
      List.zipWith (· ++ ·) (p.sinks.map (·.written)) added ∧
    (∀ log ∈ added, log <+: survivors p.transforms events) ∧
    added.Pairwise fun log later =>
      later <+: log ∧ log.length ≤ later.length + 1

/-- The events in front of the failing one were processed, and no event behind
it was dispatched to any sink. -/
def StopsAtFailure (p p' : Pipeline κ σ) (events : List ChangeEvent)
    (err : PipelineError) : Prop :=
  ∃ pre event post mid, events = pre ++ event :: post ∧
    p.drain pre = (.ok (), mid) ∧
    (mid.processEvent event).1 = .error err ∧
    DispatchedEither (survivors p.transforms pre)
      (survivors p.transforms (pre ++ [event])) p.sinks p'.sinks

theorem Staircase.pairwise (common last : List ChangeEvent)
    (hlast : last.length ≤ 1) (k m : ℕ) :
    (List.replicate k (common ++ last) ++
        List.replicate m common).Pairwise fun log later =>
      later <+: log ∧ log.length ≤ later.length + 1 := by
  rw [List.pairwise_append, List.pairwise_replicate, List.pairwise_replicate]
  refine ⟨Or.inr ⟨List.prefix_refl _, by omega⟩,
    Or.inr ⟨List.prefix_refl _, by omega⟩, ?_⟩
  intro log hlog later hlater
  obtain rfl := List.eq_of_mem_replicate hlog
  obtain rfl := List.eq_of_mem_replicate hlater
  exact ⟨List.prefix_append _ _, by simpa using hlast⟩

theorem drain_error_delivers {p p' : Pipeline κ σ}
    {events : List ChangeEvent} {err : PipelineError}
    (h : p.drain events = (.error err, p')) :
    DeliversPrefixes p p' events ∧ StopsAtFailure p p' events err := by
  obtain ⟨pre, event, post, mid, rfl, hpre, hevent⟩ := drain_error h
  obtain ⟨hcommon, hmid⟩ := drain_ok hpre
  obtain ⟨hstairs, hdispatched, -⟩ := processEvent_error hevent
  have htransforms : mid.transforms = p.transforms := by rw [hmid]
  rw [htransforms] at hstairs hdispatched
  have hupTo : survivors p.transforms (pre ++ [event]) =
      survivors p.transforms pre ++
        (survivor p.transforms event).toList := by
    simp only [survivors, List.filterMap_append, List.filterMap_cons,
      List.filterMap_nil]
    cases survivor p.transforms event <;> rfl
  constructor
  · obtain ⟨k, hk, hwritten⟩ := hstairs.after hcommon
    rw [List.append_nil, ← hupTo] at hwritten
    refine ⟨_, ?_, hwritten, ?_, ?_⟩
    · simp
      omega
    · have hpre' : pre <+: pre ++ event :: post := List.prefix_append _ _
      have hupTo' : pre ++ [event] <+: pre ++ event :: post :=
        ⟨post, by simp⟩
      intro log hlog
      rcases List.mem_append.mp hlog with hlog | hlog
      · obtain rfl := List.eq_of_mem_replicate hlog
        exact hupTo'.filterMap _
      · obtain rfl := List.eq_of_mem_replicate hlog
        exact hpre'.filterMap _
    · rw [hupTo]
      refine Staircase.pairwise _ _ ?_ _ _
      cases survivor p.transforms event <;> simp
  · refine ⟨pre, event, post, mid, rfl, hpre, by rw [hevent], ?_⟩
    have heither := hdispatched.after hcommon
    rwa [List.append_nil, ← hupTo] at heither

/-! ## Both phases of a run -/

/-- The connector and the flag play no part in processing events. -/
theorem processEvent_setConnector (p : Pipeline κ σ)
    (connector : ConnectorCell κ) (running : Bool) (event : ChangeEvent) :
    ({ p with connector := connector, running := running }).processEvent
        event =
      ((p.processEvent event).1, { (p.processEvent event).2 with
        connector := connector, running := running }) := by
  unfold processEvent
  cases applyTransforms p.transforms (some event) with
  | error err => rfl
  | ok event' =>
      cases event' with
      | none => rfl
      | some event' => rfl

theorem drain_setConnector (p : Pipeline κ σ) (connector : ConnectorCell κ)
    (running : Bool) (events : List ChangeEvent) :
    ({ p with connector := connector, running := running }).drain events =
      ((p.drain events).1, { (p.drain events).2 with
        connector := connector, running := running }) := by
  induction events generalizing p with
  | nil => rfl
  | cons event events ih =>
      rw [drain, drain, processEvent_setConnector]
      rcases p.processEvent event with ⟨result, q⟩
      cases result with
      | error err => rfl
      | ok _ => exact ih q

theorem run_none {p : Pipeline κ σ} (hidle : p.running = false) :
    p.run none = ({ p with running := true }).streamFromOffset none := by
  rw [run, if_neg (by simp [hidle])]
  rfl

/-- A snapshot that sends more events than its channel holds never returns. -/
theorem run_of_overfull {p : Pipeline κ σ} {tables : List String}
    (hidle : p.running = false)
    (hfull : channelCapacity < (p.connector.snapshot ⟨tables⟩).sent.length) :
    p.run (some tables) = none := by
  rw [run, if_neg (by simp [hidle])]
  exact if_pos hfull

/-- A snapshot that fails ends the run, and the pipeline is idle again. -/
theorem run_of_snapshot_error {p : Pipeline κ σ} {tables : List String}
    {err : Error} (hidle : p.running = false)
    (hresult : (p.connector.snapshot ⟨tables⟩).result = .error err)
    (hfits : (p.connector.snapshot ⟨tables⟩).sent.length ≤ channelCapacity) :
    p.run (some tables) =
      some (.error (.source ("snapshot failed: " ++ err.display)), { p with
        connector := (p.connector.snapshot ⟨tables⟩).state
        running := false }) := by
  rw [run, if_neg (by simp [hidle])]
  simp only [runFresh, hresult]
  rw [if_neg (by omega)]

/-- After a snapshot that succeeds and fits, the run drains its channel and
opens the stream. -/
theorem run_of_snapshot_ok {p : Pipeline κ σ} {tables : List String}
    {offset : ConnectorOffset} (hidle : p.running = false)
    (hresult : (p.connector.snapshot ⟨tables⟩).result = .ok offset)
    (hfits : (p.connector.snapshot ⟨tables⟩).sent.length ≤ channelCapacity) :
    p.run (some tables) =
      match p.drain (p.connector.snapshot ⟨tables⟩).sent with
      | (.error err, q) => some (.error err, { q with
          connector := (p.connector.snapshot ⟨tables⟩).state
          running := true })
      | (.ok _, q) => ({ q with
          connector := (p.connector.snapshot ⟨tables⟩).state
          running := true }).streamFromOffset (some offset) := by
  have hdrain := drain_setConnector p (p.connector.snapshot ⟨tables⟩).state
    true (p.connector.snapshot ⟨tables⟩).sent
  rw [run, if_neg (by simp [hidle])]
  simp only [runFresh, hresult]
  rw [if_neg (by omega), hdrain]
  cases p.drain (p.connector.snapshot ⟨tables⟩).sent with
  | mk result q => cases result <;> rfl

/-- A stream that succeeds and fits is drained after it has returned. -/
theorem streamFromOffset_ok {p : Pipeline κ σ}
    {offset : Option ConnectorOffset}
    (hresult : (p.connector.stream ⟨offset, []⟩).result = .ok ())
    (hfits : (p.connector.stream ⟨offset, []⟩).sent.length ≤
      channelCapacity) :
    p.streamFromOffset offset =
      some ((p.drain (p.connector.stream ⟨offset, []⟩).sent).1,
        { (p.drain (p.connector.stream ⟨offset, []⟩).sent).2 with
          connector := (p.connector.stream ⟨offset, []⟩).state
          running := p.running }) := by
  simp only [streamFromOffset]
  rw [if_neg (by omega), hresult]
  exact congrArg some (drain_setConnector p _ p.running _)

/-- The connector of an idle pipeline sends `snapshotEvents` in its snapshot
of `tables` and then `streamEvents` in the stream from the offset it returned,
and both calls succeed without waiting for room. -/
structure Captures (p : Pipeline κ σ) (tables : List String)
    (offset : ConnectorOffset) (snapshotEvents streamEvents : List ChangeEvent) :
    Prop where
  idle : p.running = false
  snapshot_result : (p.connector.snapshot ⟨tables⟩).result = .ok offset
  snapshot_sent : (p.connector.snapshot ⟨tables⟩).sent = snapshotEvents
  snapshot_fits : snapshotEvents.length ≤ channelCapacity
  stream_result : ((p.connector.snapshot ⟨tables⟩).state.stream
    ⟨some offset, []⟩).result = .ok ()
  stream_sent : ((p.connector.snapshot ⟨tables⟩).state.stream
    ⟨some offset, []⟩).sent = streamEvents
  stream_fits : streamEvents.length ≤ channelCapacity

/-- Such a run drains the two sequences one behind the other. -/
theorem Captures.run_eq {p : Pipeline κ σ} {tables : List String}
    {offset : ConnectorOffset} {snapshotEvents streamEvents : List ChangeEvent}
    (h : Captures p tables offset snapshotEvents streamEvents) :
    ∃ p', p.run (some tables) =
        some ((p.drain (snapshotEvents ++ streamEvents)).1, p') ∧
      p'.sinks = (p.drain (snapshotEvents ++ streamEvents)).2.sinks ∧
      ((p.drain (snapshotEvents ++ streamEvents)).1 = .ok () →
        p'.connector.calls = p.connector.calls ++
          [.snapshot ⟨tables⟩, .stream ⟨some offset, []⟩]) := by
  have hstreamSent := h.stream_sent
  have hstreamFits := h.stream_fits
  have hrun := run_of_snapshot_ok h.idle h.snapshot_result
    (by rw [h.snapshot_sent]; exact h.snapshot_fits)
  rw [h.snapshot_sent] at hrun
  rw [hrun, drain_append]
  rcases p.drain snapshotEvents with ⟨result, q⟩
  cases result with
  | error err => exact ⟨_, rfl, rfl, by simp⟩
  | ok _ =>
      have hstream := streamFromOffset_ok (p := { q with
        connector := (p.connector.snapshot ⟨tables⟩).state
        running := true }) h.stream_result
        (by rw [hstreamSent]; exact hstreamFits)
      simp only [hstreamSent, drain_setConnector] at hstream
      refine ⟨_, hstream, rfl, fun _ => ?_⟩
      simp [ConnectorCell.stream, ConnectorCell.snapshot]

/-- A run with a successful snapshot and stream either returns `Ok` with every
survivor written to every sink, or stops at the first failure with the sinks
on a staircase. -/
theorem run_delivers (p : Pipeline κ σ) (tables : List String)
    (offset : ConnectorOffset) (snapshotEvents streamEvents : List ChangeEvent)
    (h : Captures p tables offset snapshotEvents streamEvents) :
    ∃ result p', p.run (some tables) = some (result, p') ∧
      match result with
      | .ok _ => DeliversAll p p' (snapshotEvents ++ streamEvents) ∧
          p'.connector.calls = p.connector.calls ++
            [.snapshot ⟨tables⟩, .stream ⟨some offset, []⟩]
      | .error err => DeliversPrefixes p p' (snapshotEvents ++ streamEvents) ∧
          StopsAtFailure p p' (snapshotEvents ++ streamEvents) err := by
  obtain ⟨p', hrun, hsinks, hcalls⟩ := h.run_eq
  refine ⟨_, p', hrun, ?_⟩
  rcases hdrain : p.drain (snapshotEvents ++ streamEvents) with ⟨result, q⟩
  rw [hdrain] at hsinks hcalls
  cases result with
  | ok _ =>
      refine ⟨?_, hcalls rfl⟩
      rw [DeliversAll, hsinks]
      exact (drain_ok hdrain).1
  | error err =>
      have hdelivers := drain_error_delivers hdrain
      simpa only [DeliversPrefixes, StopsAtFailure, hsinks] using hdelivers

/-- One row in the snapshot, two in the stream. -/
def threeRows : Pipeline Script ℕ :=
  ofScript ⟨[rowA], .ok {}, [rowB, rowA], .ok ()⟩

theorem run_delivers_threeRows :
    ∃ result p', threeRows.run (some ["t"]) = some (result, p') ∧
      match result with
      | .ok _ => DeliversAll threeRows p' ([rowA] ++ [rowB, rowA]) ∧
          p'.connector.calls = threeRows.connector.calls ++
            [.snapshot ⟨["t"]⟩, .stream ⟨some {}, []⟩]
      | .error err =>
          DeliversPrefixes threeRows p' ([rowA] ++ [rowB, rowA]) ∧
          StopsAtFailure threeRows p' ([rowA] ++ [rowB, rowA]) err :=
  run_delivers threeRows ["t"] {} [rowA] [rowB, rowA] {
    idle := rfl
    snapshot_result := rfl
    snapshot_sent := rfl
    snapshot_fits := by decide
    stream_result := rfl
    stream_sent := rfl
    stream_fits := by decide }

end Pipeline
end OpenCdc
