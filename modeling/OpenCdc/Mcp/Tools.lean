import Mathlib.Data.String.Basic
import OpenCdc.Core.Json
import OpenCdc.Mcp.Server

/-!
# The connector tools

What the tools of the server answer about its connectors.  The map of the
connectors is iterated in any order; what a client sees is sorted, and says
which connectors were registered and not removed since.
-/

namespace OpenCdc.Mcp

open Foundation

/-! ## Answers -/

/-- The codes of the errors that a tool returns. -/
inductive ErrorCode where
  | invalidParams
  | internalError
deriving DecidableEq, Repr

structure McpError where
  code : ErrorCode
  message : String
  data : Option Json.Value

/-- `format!("{:?}")` of a status; `debug` is that of a text. -/
def ConnectorStatus.debug (debug : String → String) : ConnectorStatus → String
  | stopped => "Stopped"
  | starting => "Starting"
  | running => "Running"
  | snapshotting => "Snapshotting"
  | streaming => "Streaming"
  | error text => "Error(" ++ debug text ++ ")"

variable (debug : String → String)

def connectorInfoJson (name : String) (mc : ManagedConnector) : Json.Value :=
  .object [
    ("name", .string name),
    ("status", .string (mc.status.debug debug)),
    ("events_received", .ofInt mc.eventsReceived.toNat),
    ("error", match mc.error with
      | some text => .string text
      | none => .null)]

namespace AppState

/-- The connectors in the order in which the map is iterated. -/
structure Listing (app : AppState) where
  entries : List (Σ _ : String, ManagedConnector)
  perm : entries.Perm app.connectors.entries

def listConnectors (app : AppState) (listing : app.Listing) :
    List (Σ _ : String, ManagedConnector) :=
  listing.entries.mergeSort fun a b => decide (a.1 ≤ b.1)

/-- `connector_list` -/
def connectorList (app : AppState) (listing : app.Listing) : Json.Value :=
  .array ((app.listConnectors listing).map fun entry =>
    connectorInfoJson debug entry.1 entry.2)

/-- The answer of `connector_register`.  The list is taken under a lock of its
own, in the state that there is by then. -/
def connectorRegister (name : String) (app : AppState) (listing : app.Listing) :
    Json.Value :=
  .object [
    ("registered", .string name),
    ("all_connectors", .array
      ((app.listConnectors listing).map fun entry => .string entry.1))]

/-- `connector_status` -/
def connectorStatus (name : String) (app : AppState) :
    Except McpError Json.Value :=
  match app.connectors.lookup name with
  | some mc => .ok (connectorInfoJson debug name mc)
  | none => .error ⟨.invalidParams, "connector_not_found",
      some (.object [("connector", .string name)])⟩

variable {app : AppState} {debug}

/-! ## The list is sorted -/

theorem perm_listConnectors (listing : app.Listing) :
    (app.listConnectors listing).Perm app.connectors.entries :=
  (List.mergeSort_perm _ _).trans listing.perm

/-- The names ascend strictly: each stands once. -/
theorem pairwise_listConnectors (listing : app.Listing) :
    (app.listConnectors listing).Pairwise fun a b => a.1 < b.1 := by
  have hsorted : (app.listConnectors listing).Pairwise fun a b => a.1 ≤ b.1 := by
    have h := @List.pairwise_mergeSort (Σ _ : String, ManagedConnector)
      (fun a b => decide (a.1 ≤ b.1))
      (fun a b c hab hbc => decide_eq_true
        (le_trans (of_decide_eq_true hab) (of_decide_eq_true hbc)))
      (fun a b => by simpa using le_total a.1 b.1) listing.entries
    exact h.imp of_decide_eq_true
  have hnodup : (app.listConnectors listing).Pairwise fun a b => a.1 ≠ b.1 := by
    apply List.pairwise_map.mp
    have hkeys := ((perm_listConnectors listing).map Sigma.fst).nodup_iff.mpr
      app.connectors.nodupKeys
    exact hkeys
  exact (hsorted.and hnodup).imp fun h => lt_of_le_of_ne h.1 h.2

/-- So the order in which the map is iterated does not show. -/
theorem listConnectors_eq (listing listing' : app.Listing) :
    app.listConnectors listing = app.listConnectors listing' := by
  apply List.Perm.eq_of_pairwise _ (pairwise_listConnectors listing)
    (pairwise_listConnectors listing')
    ((perm_listConnectors listing).trans (perm_listConnectors listing').symm)
  intro a b _ _ hab hba
  exact absurd hab (lt_asymm hba)

theorem mem_listConnectors_iff {listing : app.Listing} {name : String}
    {mc : ManagedConnector} :
    ⟨name, mc⟩ ∈ app.listConnectors listing ↔
      app.connectors.lookup name = some mc := by
  rw [(perm_listConnectors listing).mem_iff, ← AList.mem_lookup_iff]
  rfl

theorem mem_names_iff {listing : app.Listing} {name : String} :
    name ∈ (app.listConnectors listing).map Sigma.fst ↔
      (app.connectors.lookup name).isSome := by
  rw [Option.isSome_iff_exists, List.mem_map]
  constructor
  · rintro ⟨⟨_, mc⟩, hmem, rfl⟩
    exact ⟨mc, mem_listConnectors_iff.mp hmem⟩
  · rintro ⟨mc, hmc⟩
    exact ⟨⟨name, mc⟩, mem_listConnectors_iff.mpr hmc, rfl⟩

/-- The list has for each name what the status of the connector is. -/
theorem connectorStatus_of_mem {listing : app.Listing}
    {entry : Σ _ : String, ManagedConnector}
    (h : entry ∈ app.listConnectors listing) :
    app.connectorStatus debug entry.1 =
      .ok (connectorInfoJson debug entry.1 entry.2) := by
  have hlookup : app.connectors.lookup entry.1 = some entry.2 :=
    mem_listConnectors_iff.mp h
  rw [connectorStatus, hlookup]

end AppState

/-! ## The connectors that are registered -/

/-- The connector was registered, and not removed since. -/
def RegisteredLast (name : String) (actions : List Action) : Prop :=
  ∃ before after, actions = before ++ .register name :: after ∧
    .remove name ∉ after

theorem registeredLast_cons_iff {name : String} {a : Action}
    {actions : List Action} :
    RegisteredLast name (a :: actions) ↔ RegisteredLast name actions ∨
      a = .register name ∧ .remove name ∉ actions := by
  constructor
  · rintro ⟨before, after, hsplit, hafter⟩
    cases before with
    | nil =>
        obtain ⟨rfl, rfl⟩ := List.cons.inj hsplit
        exact Or.inr ⟨rfl, hafter⟩
    | cons b before =>
        obtain ⟨rfl, rfl⟩ := List.cons.inj hsplit
        exact Or.inl ⟨before, after, rfl, hafter⟩
  · rintro (⟨before, after, rfl, hafter⟩ | ⟨rfl, hafter⟩)
    · exact ⟨a :: before, after, rfl, hafter⟩
    · exact ⟨[], actions, rfl, hafter⟩

namespace World

variable {w w' : World} {name : String}

/-- A change in place registers nothing and removes nothing. -/
theorem isSome_ite_map {other : String} {f : ManagedConnector → ManagedConnector}
    {m : Registry String ManagedConnector} :
    (if name = other then (m.lookup other).map f
      else m.lookup name).isSome = (m.lookup name).isSome := by
  split_ifs with h
  · rw [Option.isSome_map, h]
  · rfl

theorem isSome_lookup_step {a : Action} (hstep : w.step a = some w') :
    (w'.app.connectors.lookup name).isSome ↔ a = .register name ∨
      (w.app.connectors.lookup name).isSome ∧ a ≠ .remove name := by
  cases step_cases hstep with
  | register other =>
      rw [app_register, AppState.lookup_registerConnector]
      split_ifs with h
      · simp [h]
      · simp [Ne.symm h]
  | remove other =>
      rw [app_remove, AppState.lookup_connectorRemove]
      split_ifs with h
      · simp [h]
      · simp [Ne.symm h]
  | updateStatus other status =>
      rw [app_updateStatus, AppState.lookup_updateStatus, isSome_ite_map]
      simp
  | shutdownAll =>
      rw [app_shutdownAll, AppState.lookup_shutdownAll, Option.isSome_map]
      simp
  | setStatus id other tables =>
      rw [app_setStatus, AppState.lookup_updateStatus, isSome_ite_map]
      simp
  | complete id other tables =>
      rw [app_complete, AppState.lookup_completeSnapshot, isSome_ite_map]
      simp
  | apply id other count =>
      rw [app_apply, AppState.lookup_applyReceived, isSome_ite_map]
      simp
  | accept => simp [accept]
  | refuse => simp
  | spawn => simp [spawn]
  | finish => simp [finish, AppState.addTotal]
  | add => simp [add, AppState.addTotal]

/-- What is registered is a matter of the registrations and removals alone. -/
theorem isSome_lookup_runFrom {actions : List Action}
    (hrun : runFrom step w actions = some w') :
    (w'.app.connectors.lookup name).isSome ↔ RegisteredLast name actions ∨
      (w.app.connectors.lookup name).isSome ∧ .remove name ∉ actions := by
  induction actions generalizing w with
  | nil =>
      obtain rfl : w = w' := Option.some.inj hrun
      simp [RegisteredLast]
  | cons a actions ih =>
      obtain ⟨t, hstep, hrest⟩ := runFrom_cons_eq_some.mp hrun
      rw [ih hrest, isSome_lookup_step hstep, registeredLast_cons_iff,
        List.mem_cons, not_or, or_assoc, or_and_right, and_assoc,
        ne_comm (a := a)]

end World

/-! ## What a client sees -/

/-- The list and the status of the connectors tell what happened. -/
structure Reports (debug : String → String) (actions : List Action)
    (app : AppState) (listing : app.Listing) : Prop where
  sorted : ((app.listConnectors listing).map Sigma.fst).Pairwise (· < ·)
  determined : ∀ listing' : app.Listing,
    app.listConnectors listing' = app.listConnectors listing
  complete : ∀ name, name ∈ (app.listConnectors listing).map Sigma.fst ↔
    RegisteredLast name actions
  status : ∃ infos, app.connectorList debug listing = .array infos ∧
    infos.map .ok = ((app.listConnectors listing).map Sigma.fst).map
      (app.connectorStatus debug)
  registers : ∀ name, ∃ names : List String,
    app.connectorRegister name listing = .object [
      ("registered", .string name),
      ("all_connectors", .array (names.map .string))] ∧
      names.Pairwise (· < ·) ∧
      ∀ other, other ∈ names ↔ RegisteredLast other actions
  unknown : ∀ name, ¬RegisteredLast name actions →
    app.connectorStatus debug name =
      .error ⟨.invalidParams, "connector_not_found",
        some (.object [("connector", .string name)])⟩

/-- Whatever else went on, the tools list the connectors that were registered
and not removed since, each once and in order, with their status; snapshots
that are completed bring none of them back. -/
theorem reports_of_runFrom (debug : String → String) (maxConcurrentTools : ℕ)
    {actions : List Action} {w : World}
    (hrun : runFrom World.step (.idle (.new maxConcurrentTools)) actions =
      some w) (listing : w.app.Listing) :
    Reports debug actions w.app listing := by
  have hregistered : ∀ name, (w.app.connectors.lookup name).isSome ↔
      RegisteredLast name actions := by
    intro name
    rw [World.isSome_lookup_runFrom hrun]
    apply or_iff_left
    rintro ⟨hnew, -⟩
    simp [World.idle, AppState.new] at hnew
  have hsorted : ((w.app.listConnectors listing).map Sigma.fst).Pairwise
      (· < ·) :=
    List.pairwise_map.mpr (AppState.pairwise_listConnectors listing)
  have hcomplete : ∀ name,
      name ∈ (w.app.listConnectors listing).map Sigma.fst ↔
        RegisteredLast name actions := by
    intro name
    rw [AppState.mem_names_iff, hregistered]
  constructor
  · exact hsorted
  · exact fun listing' => AppState.listConnectors_eq listing' listing
  · exact hcomplete
  · refine ⟨_, rfl, ?_⟩
    rw [List.map_map, List.map_map]
    apply List.map_congr_left
    intro entry hentry
    exact (AppState.connectorStatus_of_mem hentry).symm
  · intro name
    refine ⟨_, ?_, hsorted, hcomplete⟩
    rw [AppState.connectorRegister, List.map_map]
    rfl
  · intro name hname
    have hnone : w.app.connectors.lookup name = none := by
      apply Option.not_isSome_iff_eq_none.mp
      rw [hregistered]
      exact hname
    rw [AppState.connectorStatus, hnone]

/-- A connector is removed while its snapshot is on the way. -/
def removedInFlight : List Action :=
  [.register "orders", .register "items", .check 0 "orders" [], .setStatus 0,
    .spawn 0, .remove "orders", .complete 0]

theorem reports_removedInFlight :
    ∃ w, runFrom World.step (.idle (.new 10)) removedInFlight = some w ∧
      ∀ listing, Reports id removedInFlight w.app listing := by
  have hsome : (runFrom World.step (.idle (.new 10)) removedInFlight).isSome :=
    by decide
  obtain ⟨w, hrun⟩ := Option.isSome_iff_exists.mp hsome
  exact ⟨w, hrun, fun listing => reports_of_runFrom id 10 hrun listing⟩

end OpenCdc.Mcp
