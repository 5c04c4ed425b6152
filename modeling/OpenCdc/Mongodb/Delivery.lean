import OpenCdc.Mongodb.Stream

/-!
# What the MongoDB streamer delivers

`MongoDbStreamer::run` opens its change stream without asking for the full
document of an update.  The server then sends the document with an insert and
a replace only, and the streamer sends a change event without a new row for
every update.
-/

namespace OpenCdc.Mongodb

open Foundation Json

/-! ## What the server sends -/

/-- An event of a stream that was opened with the default options. -/
structure ServedByDefault (event : ChangeStreamEvent) : Prop where
  insert : event.operationType = .insert → event.fullDocument.isSome
  replace : event.operationType = .replace → event.fullDocument.isSome
  update : event.operationType = .update → event.fullDocument = none

/-! ## What is to be delivered -/

/-- The event is on a collection of the configuration. -/
def Included (config : StreamerConfig) (event : ChangeStreamEvent) : Prop :=
  ∃ ns ∈ event.ns, ∃ coll ∈ ns.coll,
    config.collections = [] ∨ coll ∈ config.collections

/-- The operations of a change stream that change a document. -/
def changeOperation : OperationType → Option Operation
  | .insert => some .create
  | .update => some .update
  | .replace => some .update
  | .delete => some .delete
  | .other _ => none

def NonNull (row : Option Value) : Prop := ∃ value, row = some value ∧ value ≠ .null

/-- The change event has the row images that its operation calls for. -/
structure HasRows (event : ChangeStreamEvent) (change : ChangeEvent) :
    Prop where
  after : change.payload.op = .create ∨ change.payload.op = .update →
    NonNull change.payload.after
  before : change.payload.op = .delete →
    event.fullDocumentBeforeChange.isSome ∨ event.documentKey.isSome →
      NonNull change.payload.before

/-- One change event for an operation on an included collection, of the same
kind and with its rows, and none for any other event. -/
structure Delivers (config : StreamerConfig) (event : ChangeStreamEvent)
    (drafts : List Draft) : Prop where
  one : ∀ op, changeOperation event.operationType = some op →
    Included config event → ∃ draft, drafts = [draft] ∧
      ∀ clock, (draft clock).payload.op = op ∧ HasRows event (draft clock)
  other : changeOperation event.operationType = none ∨ ¬Included config event →
    drafts = []

/-! ## One event -/

theorem nonNull_bsonDocToJson (dateText : Int64 → String) (doc : Document) :
    NonNull (some (bsonDocToJson dateText doc)) :=
  ⟨_, rfl, by simp [bsonDocToJson]⟩

theorem changeOf_of_included {config : StreamerConfig}
    {event : ChangeStreamEvent} (h : Included config event) :
    ∃ dbName collName, changeOf config event =
      operationDraft config event dbName collName := by
  obtain ⟨ns, hns, coll, hcoll, hincluded⟩ := h
  refine ⟨ns.db, coll, ?_⟩
  rw [Option.mem_def] at hns hcoll
  simp only [changeOf, hns, hcoll]
  rw [if_neg]
  rintro ⟨hne, hnotMem⟩
  exact hincluded.elim hne hnotMem

theorem changeOf_of_not_included {config : StreamerConfig}
    {event : ChangeStreamEvent} (h : ¬Included config event) :
    changeOf config event = none := by
  unfold changeOf
  rcases hns : event.ns with _ | ns
  · rfl
  · rcases hcoll : ns.coll with _ | coll
    · simp only [hcoll]
    · simp only [hcoll]
      rw [if_pos]
      constructor
      · intro hempty
        exact h ⟨ns, hns, coll, hcoll, .inl hempty⟩
      · intro hmem
        exact h ⟨ns, hns, coll, hcoll, .inr hmem⟩

theorem operationDraft_other {config : StreamerConfig}
    {event : ChangeStreamEvent} (dbName collName : String)
    (h : changeOperation event.operationType = none) :
    operationDraft config event dbName collName = none := by
  cases hop : event.operationType
  case other => simp only [operationDraft, hop]
  all_goals simp [hop, changeOperation] at h

/-- An insert or a replace carries its document. -/
theorem delivers_of_fullDocument {config : StreamerConfig}
    {event : ChangeStreamEvent} {doc : Document} {op : Operation}
    (hdoc : event.fullDocument = some doc)
    (hop : changeOperation event.operationType = some op)
    (hchange : op = .create ∨ op = .update) (dbName collName : String) :
    ∃ draft, operationDraft config event dbName collName = some draft ∧
      ∀ clock, (draft clock).payload.op = op ∧ HasRows event (draft clock) := by
  have hrow := nonNull_bsonDocToJson config.dateText doc
  cases htype : event.operationType
  case other => simp [htype, changeOperation] at hop
  case delete =>
    simp only [htype, changeOperation, Option.some.injEq] at hop
    rcases hchange with rfl | rfl <;> cases hop
  all_goals
    simp only [htype, changeOperation, Option.some.injEq] at hop
    refine ⟨_, by simp only [operationDraft, htype, hdoc, Option.map_some]; rfl,
      ?_⟩
    intro clock
    refine ⟨hop, fun _ => hrow, ?_⟩
    intro hdelete
    cases hdelete

theorem delivers_of_delete {config : StreamerConfig}
    {event : ChangeStreamEvent} (htype : event.operationType = .delete)
    (dbName collName : String) :
    ∃ draft, operationDraft config event dbName collName = some draft ∧
      ∀ clock, (draft clock).payload.op = .delete ∧
        HasRows event (draft clock) := by
  refine ⟨_, by simp only [operationDraft, htype]; rfl, ?_⟩
  intro clock
  refine ⟨rfl, ?_, ?_⟩
  · rintro (hcreate | hupdate)
    · cases hcreate
    · cases hupdate
  · intro _ hkey
    rcases himage : event.fullDocumentBeforeChange with _ | image
    · rcases hdoc : event.documentKey with _ | key
      · simp [himage, hdoc] at hkey
      · exact nonNull_bsonDocToJson config.dateText key
    · exact nonNull_bsonDocToJson config.dateText image

/-- Without a document the new row of an update is null. -/
theorem not_hasRows_of_update {config : StreamerConfig}
    {event : ChangeStreamEvent} {draft : Draft} {dbName collName : String}
    (htype : event.operationType = .update)
    (hdoc : event.fullDocument = none)
    (hdraft : operationDraft config event dbName collName = some draft)
    (clock : ClockReading) : ¬HasRows event (draft clock) := by
  intro hrows
  simp only [operationDraft, htype, hdoc, Option.map_none, Option.getD_none,
    Option.some.injEq] at hdraft
  subst hdraft
  obtain ⟨value, hvalue, hne⟩ := hrows.after (.inr rfl)
  exact hne (Option.some.inj hvalue).symm

/-- Every other operation is sent with its rows. -/
theorem exists_hasRows_of_ne_update {config : StreamerConfig}
    {event : ChangeStreamEvent} {op : Operation}
    (hserved : ServedByDefault event)
    (hop : changeOperation event.operationType = some op)
    (hne : event.operationType ≠ .update) (dbName collName : String) :
    ∃ draft, operationDraft config event dbName collName = some draft ∧
      ∀ clock, (draft clock).payload.op = op ∧ HasRows event (draft clock) := by
  cases htype : event.operationType with
  | insert =>
      obtain ⟨doc, hdoc⟩ := Option.isSome_iff_exists.mp (hserved.insert htype)
      have hcreate : op = .create := by simpa [htype, changeOperation] using hop.symm
      exact delivers_of_fullDocument hdoc hop (.inl hcreate) dbName collName
  | update => exact absurd htype hne
  | replace =>
      obtain ⟨doc, hdoc⟩ := Option.isSome_iff_exists.mp (hserved.replace htype)
      have hupdate : op = .update := by simpa [htype, changeOperation] using hop.symm
      exact delivers_of_fullDocument hdoc hop (.inr hupdate) dbName collName
  | delete =>
      obtain rfl : .delete = op := by simpa [htype, changeOperation] using hop
      exact delivers_of_delete htype dbName collName
  | other name => simp [htype, changeOperation] at hop

/-- What the streamer sends for an event is what is to be delivered, unless the
event is an update. -/
theorem delivers_changeOf_iff {config : StreamerConfig}
    {event : ChangeStreamEvent} (hserved : ServedByDefault event) :
    Delivers config event (changeOf config event).toList ↔
      ¬(event.operationType = .update ∧ Included config event) := by
  constructor
  · rintro hdelivers ⟨htype, hincluded⟩
    obtain ⟨dbName, collName, hchange⟩ := changeOf_of_included hincluded
    obtain ⟨draft, hdraft, hrows⟩ :=
      hdelivers.one .update (by rw [htype]; rfl) hincluded
    have hsome : operationDraft config event dbName collName = some draft := by
      rw [← hchange]
      exact Option.toList_eq_singleton_iff.mp hdraft
    exact not_hasRows_of_update htype (hserved.update htype) hsome ⟨0, 0⟩
      (hrows ⟨0, 0⟩).2
  · intro hupdate
    refine ⟨?_, ?_⟩
    · intro op hop hincluded
      obtain ⟨dbName, collName, hchange⟩ := changeOf_of_included hincluded
      have hne : event.operationType ≠ .update :=
        fun htype => hupdate ⟨htype, hincluded⟩
      obtain ⟨draft, hsome, hrows⟩ :=
        exists_hasRows_of_ne_update hserved hop hne dbName collName
      exact ⟨draft, by rw [hchange, hsome]; rfl, hrows⟩
    · rintro (hother | hexcluded)
      · by_cases hincluded : Included config event
        · obtain ⟨dbName, collName, hchange⟩ := changeOf_of_included hincluded
          rw [hchange, operationDraft_other dbName collName hother]
          rfl
        · rw [changeOf_of_not_included hincluded]
          rfl
      · rw [changeOf_of_not_included hexcluded]
        rfl

/-! ## A run -/

theorem offers_streamFeed (config : StreamerConfig)
    (ended : Option (Outcome Error Unit)) (events : List ChangeStreamEvent) :
    ((streamFeed config).offers ended () (events.map .ok)).1 =
      events.map fun event => (changeOf config event).toList := by
  induction events with
  | nil => rfl
  | cons event events ih =>
      simp only [List.map_cons, Feed.offers, streamFeed]
      rw [← ih]
      rfl

/-- A receiver that stays gets the change event of every event, behind it. -/
theorem sendsByItem_run (config : StreamerConfig) (ended : Bool)
    (events : List ChangeStreamEvent) :
    sendsByItem (run config ended none (events.map .ok)).1 =
      events.map fun event => (.ok event, (changeOf config event).toList) := by
  rw [run_eq_run, Feed.sendsByItem_run_none, offers_streamFeed,
    List.zip_map']

/-- Every event is read, and followed by what is to be delivered for it. -/
def DeliversAll (config : StreamerConfig) (events : List ChangeStreamEvent)
    (trace : List (Observation (Except String ChangeStreamEvent) Draft)) :
    Prop :=
  List.Forall₂ (fun event seen =>
    seen.1 = .ok event ∧ Delivers config event seen.2) events
      (sendsByItem trace)

/-- An update of a document that nobody looked up. -/
def renameAlice : ChangeStreamEvent where
  ns := some ⟨"shop", some "users"⟩
  operationType := .update
  fullDocument := none
  fullDocumentBeforeChange := none
  documentKey := some [("_id", .int32 1)]

theorem not_deliversAll_renameAlice :
    ServedByDefault renameAlice ∧
      ¬DeliversAll ⟨[], fun _ => ""⟩ [renameAlice]
        (run ⟨[], fun _ => ""⟩ true none [.ok renameAlice]).1 := by
  refine ⟨⟨by decide, by decide, fun _ => rfl⟩, ?_⟩
  intro h
  cases h with
  | cons hhead _ =>
      obtain ⟨draft, hdraft, hrows⟩ := hhead.2.one .update rfl
        ⟨_, rfl, _, rfl, .inl rfl⟩
      have hevent := (hrows ⟨0, 0⟩).2.after (.inr (hrows ⟨0, 0⟩).1)
      rw [← List.singleton_inj.mp hdraft] at hevent
      obtain ⟨value, hvalue, hne⟩ := hevent
      exact hne (Option.some.inj hvalue).symm

/-- Under the default options the streamer delivers what it is to deliver
exactly if no document of an included collection is updated in place. -/
theorem deliversAll_run_iff {config : StreamerConfig} (ended : Bool)
    {events : List ChangeStreamEvent}
    (hserved : ∀ event ∈ events, ServedByDefault event) :
    DeliversAll config events (run config ended none (events.map .ok)).1 ↔
      ∀ event ∈ events,
        ¬(event.operationType = .update ∧ Included config event) := by
  rw [DeliversAll, sendsByItem_run, List.forall₂_map_right_iff,
    List.forall₂_same]
  apply forall₂_congr
  intro event hmem
  rw [← delivers_changeOf_iff (hserved event hmem)]
  exact ⟨And.right, fun h => ⟨rfl, h⟩⟩

/-- A document that is inserted. -/
def addAlice : ChangeStreamEvent where
  ns := some ⟨"shop", some "users"⟩
  operationType := .insert
  fullDocument := some [("_id", .int32 1)]
  fullDocumentBeforeChange := none
  documentKey := some [("_id", .int32 1)]

theorem deliversAll_addAlice :
    DeliversAll ⟨["users"], fun _ => ""⟩ [addAlice]
      (run ⟨["users"], fun _ => ""⟩ true none [.ok addAlice]).1 :=
  Iff.mpr (deliversAll_run_iff true (by simp [addAlice, ServedByDefault.mk]))
    (by simp [addAlice])

end OpenCdc.Mongodb
