import OpenCdc.Mcp.Server

/-!
# One snapshot at a time

`snapshot_start` checks the status of a connector and updates it later.  The
result says in which interleavings of such calls no connector has two snapshots
at once.
-/

namespace OpenCdc.Mcp

open Foundation

/-- The steps of the calls of `snapshot_start` and of their snapshots. -/
def Action.OfSnapshot : Action → Prop
  | .check _ _ _ => True
  | .setStatus _ => True
  | .spawn _ => True
  | .complete _ => True
  | .finish => True
  | _ => False

namespace World

/-- No connector has two snapshots in flight. -/
def AtMostOne (w : World) : Prop :=
  ∀ name id other, w.InFlight id name → w.InFlight other name → id = other

/-- A call that has been accepted is the only one of its connector until its
snapshot is completed. -/
def Exclusive (w : World) : Prop :=
  ∀ name id other, w.UnderWay id name → w.UnderWay other name → id = other

/-- A call is accepted only if no other one stands between its own check and
its update of the status. -/
def Alone (w : World) : Action → Prop
  | .check _ name _ =>
      w.app.acceptsSnapshot name = .ok () → ∀ other tables,
        w.tasks.lookup other ≠ some (.accepted name tables)
  | _ => True

/-- The status of a connector shows a snapshot in flight. -/
def Marked (w : World) : Prop :=
  ∀ id name, w.InFlight id name → ∀ c,
    w.app.connectors.lookup name = some c → c.status = .snapshotting

variable {w w' : World} {id : ℕ} {name : String} {tables : List String}

theorem InFlight.underWay (h : w.InFlight id name) : w.UnderWay id name := by
  obtain ⟨task, htask, hstarted⟩ := Option.bind_eq_some_iff.mp h
  apply (holds_of_lookup htask).mpr
  cases task <;> first | exact hstarted | cases hstarted

theorem Exclusive.atMostOne (h : w.Exclusive) : w.AtMostOne :=
  fun name id other hid hother =>
    h name id other hid.underWay hother.underWay

/-- A call under way has not updated the status yet, or its snapshot is in
flight. -/
theorem UnderWay.cases (h : w.UnderWay id name) :
    (∃ tables, w.tasks.lookup id = some (.accepted name tables)) ∨
      w.InFlight id name := by
  obtain ⟨task, htask, hsnapshot⟩ := Option.bind_eq_some_iff.mp h
  cases task with
  | accepted n tables =>
      obtain rfl : n = name := Option.some.inj hsnapshot
      exact Or.inl ⟨tables, htask⟩
  | launching n tables => exact Or.inr ((holds_of_lookup htask).mpr hsnapshot)
  | background n tables => exact Or.inr ((holds_of_lookup htask).mpr hsnapshot)
  | counted n count => cases hsnapshot

/-! ## Single steps -/

/-- In front of a check that is accepted alone nothing of the connector is
under way. -/
theorem not_underWay_of_alone (hmarked : w.Marked)
    (haccepts : w.app.acceptsSnapshot name = .ok ())
    (halone : ∀ other tables,
      w.tasks.lookup other ≠ some (.accepted name tables)) (other : ℕ) :
    ¬ w.UnderWay other name := by
  intro hother
  rcases hother.cases with ⟨tables, htask⟩ | hflight
  · exact halone other tables htask
  · obtain ⟨c, hc, hstatus⟩ := AppState.acceptsSnapshot_eq_ok_iff.mp haccepts
    have hsnapshotting := hmarked other name hflight c hc
    rw [hsnapshotting] at hstatus
    rcases hstatus with hrunning | hstopped
    · cases hrunning
    · cases hstopped

theorem exclusive_accept_iff (h : w.Exclusive) (hmarked : w.Marked)
    (hfresh : w.tasks.lookup id = none)
    (haccepts : w.app.acceptsSnapshot name = .ok ()) :
    (w.accept id name tables).Exclusive ↔ w.Alone (.check id name tables) := by
  have hholds : ∀ j n, (w.accept id name tables).UnderWay j n ↔
      if j = id then (Task.accepted name tables).snapshot = some n
      else w.UnderWay j n := fun _ _ => holds_of_insert rfl
  constructor
  · intro h' _ other tables' htask
    have hother : other ≠ id := by
      rintro rfl
      rw [hfresh] at htask
      cases htask
    refine hother (h' name other id ?_ ?_)
    · rw [hholds, if_neg hother]
      exact (holds_of_lookup htask).mpr rfl
    · rw [hholds, if_pos rfl]
      rfl
  · intro halone n j k hj hk
    have hnone := not_underWay_of_alone hmarked haccepts (halone haccepts)
    rw [hholds] at hj hk
    by_cases hjid : j = id <;> by_cases hkid : k = id
    · exact hjid.trans hkid.symm
    · rw [if_pos hjid] at hj
      rw [if_neg hkid] at hk
      obtain rfl : name = n := Option.some.inj hj
      exact absurd hk (hnone k)
    · rw [if_neg hjid] at hj
      rw [if_pos hkid] at hk
      obtain rfl : name = n := Option.some.inj hk
      exact absurd hj (hnone j)
    · rw [if_neg hjid] at hj
      rw [if_neg hkid] at hk
      exact h n j k hj hk

/-- A step after which no other call is under way than before. -/
theorem Exclusive.of_underWay (h : w.Exclusive)
    (hbefore : ∀ id name, w'.UnderWay id name → w.UnderWay id name) :
    w'.Exclusive :=
  fun name id other hid hother =>
    h name id other (hbefore id name hid) (hbefore other name hother)

theorem marked_setStatus (h : w.Marked) :
    (w.setStatus id name tables).Marked := by
  have hholds : ∀ j n, (w.setStatus id name tables).InFlight j n ↔
      if j = id then (Task.launching name tables).started = some n
      else w.InFlight j n := fun _ _ => holds_of_insert rfl
  intro j n hflight c hc
  rw [hholds] at hflight
  rw [app_setStatus, AppState.lookup_updateStatus] at hc
  by_cases hn : n = name
  · rw [if_pos hn] at hc
    obtain ⟨before, -, rfl⟩ := Option.map_eq_some_iff.mp hc
    rfl
  · rw [if_neg hn] at hc
    have hj : j ≠ id := by
      intro hj
      rw [if_pos hj] at hflight
      exact hn (Option.some.inj hflight).symm
    rw [if_neg hj] at hflight
    exact h j n hflight c hc

theorem marked_complete (h : w.Marked) (hexclusive : w.Exclusive)
    (htask : w.tasks.lookup id = some (.background name tables)) :
    (w.complete id name tables).Marked := by
  have hid : w.UnderWay id name := (holds_of_lookup htask).mpr rfl
  intro j n hafter c hc
  obtain ⟨hj, hflight⟩ := (holds_of_erase rfl).mp hafter
  have hne : n ≠ name := by
    rintro rfl
    exact hj (hexclusive n j id (InFlight.underWay hflight) hid)
  rw [app_complete, AppState.lookup_completeSnapshot, if_neg hne] at hc
  exact h j n hflight c hc

theorem exclusive_iff_alone {a : Action} (ha : a.OfSnapshot)
    (hmarked : w.Marked) (h : w.Exclusive) (hstep : w.step a = some w') :
    (w'.Exclusive ↔ w.Alone a) ∧ (w'.Exclusive → w'.Marked) := by
  cases step_cases hstep with
  | accept id name tables hlock hfresh haccepts =>
      refine ⟨exclusive_accept_iff h hmarked hfresh haccepts, fun _ => ?_⟩
      exact fun j n hflight c hc =>
        hmarked j n (holds_of_insert_fresh rfl rfl hflight) c hc
  | refuse id name tables reason hrefuses =>
      refine ⟨iff_of_true h fun haccepts => ?_, fun _ => hmarked⟩
      rw [hrefuses] at haccepts
      cases haccepts
  | setStatus id name tables hlock htask =>
      have hsame : ∀ j n,
          (w.setStatus id name tables).UnderWay j n ↔ w.UnderWay j n :=
        fun _ _ => holds_of_advance htask rfl rfl
      exact ⟨iff_of_true (h.of_underWay fun j n => (hsame j n).mp) trivial,
        fun _ => marked_setStatus hmarked⟩
  | spawn id name tables htask =>
      have hunderWay : ∀ j n,
          (w.spawn id name tables).UnderWay j n ↔ w.UnderWay j n :=
        fun _ _ => holds_of_advance htask rfl rfl
      have hinFlight : ∀ j n,
          (w.spawn id name tables).InFlight j n ↔ w.InFlight j n :=
        fun _ _ => holds_of_advance htask rfl rfl
      exact ⟨iff_of_true (h.of_underWay fun j n => (hunderWay j n).mp) trivial,
        fun _ j n hflight c hc => hmarked j n ((hinFlight j n).mp hflight) c hc⟩
  | complete id name tables hlock htask =>
      have hbefore : ∀ j n, (w.complete id name tables).UnderWay j n →
          w.UnderWay j n :=
        fun j n hunderWay => ((holds_of_erase rfl).mp hunderWay).2
      exact ⟨iff_of_true (h.of_underWay hbefore) trivial,
        fun _ => marked_complete hmarked h htask⟩
  | finish count => exact ⟨iff_of_true h trivial, fun _ => hmarked⟩
  | register => exact ha.elim
  | remove => exact ha.elim
  | updateStatus => exact ha.elim
  | shutdownAll => exact ha.elim
  | add => exact ha.elim
  | apply => exact ha.elim

/-! ## Runs -/

/-- Among calls that are accepted alone no connector has two snapshots in
flight; and an accepted call is the only one until its snapshot is completed in
no other interleaving. -/
theorem atMostOne_of_alone (app : AppState) (actions : List Action)
    (hactions : ∀ a ∈ actions, a.OfSnapshot) :
    (EveryStep step Alone (idle app) actions →
      Throughout step AtMostOne (idle app) actions) ∧
    (EveryStep step Alone (idle app) actions ↔
      Throughout step Exclusive (idle app) actions) := by
  have hmarked : (idle app).Marked := by
    intro id name hflight
    simp [Holds, idle] at hflight
  have hexclusive : (idle app).Exclusive := by
    intro name id other hid
    simp [Holds, idle] at hid
  have hiff : Throughout step Exclusive (idle app) actions ↔
      EveryStep step Alone (idle app) actions :=
    throughout_iff_everyStep (I := Marked) (L := Action.OfSnapshot)
      (fun _ _ _ ha hmarked h hstep => exclusive_iff_alone ha hmarked h hstep)
      hactions hmarked hexclusive
  refine ⟨fun halone => ?_, hiff.symm⟩
  exact (hiff.mpr halone).mono fun _ => Exclusive.atMostOne

/-- A stopped connector. -/
def ordersApp : AppState := (AppState.new 10).registerConnector "orders"

/-- One call after the other. -/
def twoCalls : List Action :=
  [.check 0 "orders" [], .setStatus 0, .spawn 0, .complete 0, .finish,
    .check 1 "orders" [], .setStatus 1, .spawn 1]

theorem atMostOne_twoCalls :
    (EveryStep step Alone (idle ordersApp) twoCalls →
      Throughout step AtMostOne (idle ordersApp) twoCalls) ∧
    (EveryStep step Alone (idle ordersApp) twoCalls ↔
      Throughout step Exclusive (idle ordersApp) twoCalls) :=
  atMostOne_of_alone ordersApp twoCalls (by simp [twoCalls, Action.OfSnapshot])

/-- Two calls check the status before one of them updates it. -/
theorem not_atMostOne_twoChecks :
    ¬ Throughout step AtMostOne
      (idle ordersApp)
      [.check 0 "orders" [], .check 1 "orders" [], .setStatus 0, .spawn 0,
        .setStatus 1, .spawn 1] := by
  intro h
  have hlast := h _ _ List.prefix_rfl rfl "orders" 0 1 rfl rfl
  cases hlast

end World
end OpenCdc.Mcp
