import OpenCdc.Core.EventJson
import OpenCdc.Foundation.Arrow
import OpenCdc.Foundation.Outcome
import OpenCdc.Foundation.Registry
import OpenCdc.Foundation.Routing
import OpenCdc.Foundation.Text
import OpenCdc.Pipeline.Model

/-!
# The OpenLake sink

`OpenLakeSink` appends the events of a `write` as one batch to a table of the
store.  The first event of the slice names the table, and a cache of joined
names says which tables are registered.
-/

namespace OpenCdc

open Foundation Foundation.Arrow

/-! ## The store -/

/-- The name of a table of the store. -/
structure TableIdentifier where
  db : String
  table : String
deriving DecidableEq, Repr

/-- `TableStore`: how it takes a schema and batches for a table. -/
structure TableStore (lib : Arrays) where
  State : Type
  register : State → TableIdentifier → Schema → State
  append : State → TableIdentifier → List lib.RecordBatch →
    Except String Unit × State

abbrev StoreCall (lib : Arrays) :=
  Routing.Call TableIdentifier Schema (List lib.RecordBatch)

/-! ## Events as a batch -/

namespace OpenLakeSink

def tableKey (event : ChangeEvent) : String :=
  event.payload.source.db ++ "." ++ event.payload.source.table

def makeTableId (event : ChangeEvent) : TableIdentifier :=
  ⟨event.payload.source.db, event.payload.source.table⟩

def makeSchema (_event : ChangeEvent) : Schema where
  fields := [
    ⟨"op", .utf8, false, []⟩,
    ⟨"ts_ms", .int64, true, []⟩,
    ⟨"db", .utf8, false, []⟩,
    ⟨"schema", .utf8, true, []⟩,
    ⟨"table", .utf8, false, []⟩,
    ⟨"connector", .utf8, false, []⟩,
    ⟨"lsn", .int64, true, []⟩,
    ⟨"txId", .int64, true, []⟩,
    ⟨"snapshot", .utf8, false, []⟩,
    ⟨"before", .utf8, true, []⟩,
    ⟨"after", .utf8, true, []⟩]

-- `serde_json::to_string`
variable (toJsonString : Json.Value → Option String)

def columns (events : List ChangeEvent) : List Cells :=
  [.strings (events.map fun event => some event.payload.op.asStr),
    .int64s (events.map fun event => event.payload.tsMs),
    .strings (events.map fun event => some event.payload.source.db),
    .strings (events.map fun event => event.payload.source.schema),
    .strings (events.map fun event => some event.payload.source.table),
    .strings (events.map fun event => some event.payload.source.connector),
    .int64s (events.map fun event => event.payload.source.lsn),
    .int64s (events.map fun event => event.payload.source.txId),
    .strings (events.map fun event =>
      some event.payload.source.snapshot.asStr),
    .strings (events.map fun event =>
      event.payload.before.map fun v => (toJsonString v).getD ""),
    .strings (events.map fun event =>
      event.payload.after.map fun v => (toJsonString v).getD "")]

variable (lib : Arrays)

/-- A slice without a first event, or a batch that is refused, ends in a
panic. -/
def eventsToBatch (events : List ChangeEvent) :
    Outcome PipelineError lib.RecordBatch :=
  match events with
  | [] => .panicked
  | event :: _ =>
      match lib.tryNew (makeSchema event)
          ((columns toJsonString events).map lib.build) with
      | .ok batch => .ok batch
      | .error _ => .panicked

end OpenLakeSink

/-! ## The sink -/

/-- The sink, with the state of its store and the calls made on it, in
order. -/
structure OpenLakeSink (lib : Arrays) (store : TableStore lib) where
  name : String
  state : store.State
  registered : Registry String Bool
  calls : List (StoreCall lib) := []

namespace OpenLakeSink

variable {lib : Arrays} {store : TableStore lib}
  (toJsonString : Json.Value → Option String)

def new (name : String) (state : store.State) : OpenLakeSink lib store where
  name := name
  state := state
  registered := ∅

def ensureTable (self : OpenLakeSink lib store) (event : ChangeEvent) :
    OpenLakeSink lib store :=
  let key := tableKey event
  if key ∈ self.registered then self
  else
    let schema := makeSchema event
    let tableId := makeTableId event
    { self with
      state := store.register self.state tableId schema
      registered := self.registered.insert key true
      calls := self.calls ++ [.register tableId schema] }

def write (self : OpenLakeSink lib store) (events : List ChangeEvent) :
    Outcome PipelineError Unit × OpenLakeSink lib store :=
  match events with
  | [] => (.ok (), self)
  | event :: _ =>
      let key := tableKey event
      let self := self.ensureTable event
      match eventsToBatch toJsonString lib events with
      | .panicked => (.panicked, self)
      | .error err => (.error err, self)
      | .ok batch =>
          let tableId := makeTableId event
          let (result, state) := store.append self.state tableId [batch]
          let self := { self with
            state := state
            calls := self.calls ++ [.append tableId [batch]] }
          match result with
          | .error e => (.error (.sink
              ("OpenLake append failed for " ++ key ++ ": " ++ e)), self)
          | .ok _ => (.ok (), self)

/-- The sink after a sequence of writes, whatever they returned. -/
def writeAll (self : OpenLakeSink lib store) :
    List (List ChangeEvent) → OpenLakeSink lib store
  | [] => self
  | events :: slices => (self.write toJsonString events).2.writeAll slices

/-! ## A batch holds its events -/

/-- The columns of the row of an event. -/
def rowOf (event : ChangeEvent) : List (String × Cells.Cell) :=
  [("op", .string (some event.payload.op.asStr)),
    ("ts_ms", .int64 event.payload.tsMs),
    ("db", .string (some event.payload.source.db)),
    ("schema", .string event.payload.source.schema),
    ("table", .string (some event.payload.source.table)),
    ("connector", .string (some event.payload.source.connector)),
    ("lsn", .int64 event.payload.source.lsn),
    ("txId", .int64 event.payload.source.txId),
    ("snapshot", .string (some event.payload.source.snapshot.asStr)),
    ("before", .string
      (event.payload.before.map fun v => (toJsonString v).getD "")),
    ("after", .string
      (event.payload.after.map fun v => (toJsonString v).getD ""))]

/-- A row of a batch reads as the event. -/
def HoldsRow (lib : Arrays) (event : ChangeEvent)
    (row : lib.RecordBatch × ℕ) : Prop :=
  ∀ entry ∈ rowOf toJsonString event,
    lib.readCell row.1 entry.1 row.2 = some entry.2

/-- The rows of batches, in order. -/
def rowsOf (lib : Arrays) (batches : List lib.RecordBatch) :
    List (lib.RecordBatch × ℕ) :=
  batches.flatMap fun batch =>
    (List.range (lib.numRows batch)).map fun row => (batch, row)

variable {events : List ChangeEvent} {batch : lib.RecordBatch}

theorem accepts_columns (hlib : lib.Documented) (event : ChangeEvent)
    (events : List ChangeEvent) :
    lib.Accepts (makeSchema event)
      ((columns toJsonString events).map lib.build) where
  nonempty := by simp [columns]
  fits := by
    rw [List.forall₂_map_right_iff]
    simp only [makeSchema, columns, List.forall₂_cons, hlib.fits_build_iff,
      List.forall₂_nil_right_iff]
    simp only [Cells.FitsField, Cells.dataType, Cells.length, List.length_map,
      Bool.true_eq_false, false_imp_iff, true_imp_iff, true_and, and_true]
    refine ⟨?_, ?_, ?_, ?_, ?_⟩ <;>
      exact fun i hi => Cells.isNull_map_some _ hi
  sameLength := by
    have hlength : ∀ column ∈ (columns toJsonString events).map lib.build,
        lib.len column = events.length := by
      intro column hcolumn
      obtain ⟨cells, hcells, rfl⟩ := List.mem_map.mp hcolumn
      rw [hlib.len_build]
      revert hcells cells
      simp [columns, Cells.length]
    intro column hcolumn column' hcolumn'
    rw [hlength column hcolumn, hlength column' hcolumn']

theorem eventsToBatch_cons (hlib : lib.Documented) (event : ChangeEvent)
    (events : List ChangeEvent) :
    ∃ batch, eventsToBatch toJsonString lib (event :: events) = .ok batch ∧
      lib.tryNew (makeSchema event)
        ((columns toJsonString (event :: events)).map lib.build) =
          .ok batch := by
  obtain ⟨batch, hbatch⟩ := (hlib.tryNew_isOk_iff _ _).mpr
    (accepts_columns toJsonString hlib event (event :: events))
  exact ⟨batch, by simp only [eventsToBatch, hbatch], hbatch⟩

variable {toJsonString}

theorem numRows_eventsToBatch (hlib : lib.Documented)
    (h : eventsToBatch toJsonString lib events = .ok batch) :
    lib.numRows batch = events.length := by
  cases events with
  | nil => cases h
  | cons event events =>
      obtain ⟨batch', hbatch', htryNew⟩ :=
        eventsToBatch_cons toJsonString hlib event events
      rw [hbatch'] at h
      cases h
      have hmem : lib.build (.strings ((event :: events).map fun event =>
          some event.payload.op.asStr)) ∈
            (columns toJsonString (event :: events)).map lib.build :=
        List.mem_map.mpr ⟨_, List.mem_cons_self, rfl⟩
      rw [← hlib.numRows_of_tryNew htryNew _ hmem, hlib.len_build]
      exact List.length_map _

theorem holdsRow_eventsToBatch (hlib : lib.Documented)
    (h : eventsToBatch toJsonString lib events = .ok batch) {row : ℕ}
    {event : ChangeEvent} (hrow : events[row]? = some event) :
    HoldsRow toJsonString lib event (batch, row) := by
  cases events with
  | nil => cases h
  | cons first events =>
      obtain ⟨batch', hbatch', htryNew⟩ :=
        eventsToBatch_cons toJsonString hlib first events
      rw [hbatch'] at h
      cases h
      intro entry hentry
      have hcolumn := hlib.columnByName_of_tryNew htryNew entry.1
      simp only [rowOf, List.mem_cons, List.not_mem_nil, or_false] at hentry
      rcases hentry with rfl | rfl | rfl | rfl | rfl | rfl | rfl | rfl | rfl |
        rfl | rfl
      all_goals
        apply hlib.readCell_eq hcolumn
        first
          | exact Cells.cell?_strings_map _ hrow
          | exact Cells.cell?_int64s_map _ hrow

/-- The rows of the batch of a slice hold its events one by one. -/
theorem forall₂_rowsOf_eventsToBatch (hlib : lib.Documented)
    (h : eventsToBatch toJsonString lib events = .ok batch) :
    List.Forall₂ (HoldsRow toJsonString lib) events (rowsOf lib [batch]) := by
  have hrows : rowsOf lib [batch] =
      (List.range events.length).map fun row => (batch, row) := by
    rw [← numRows_eventsToBatch hlib h]
    simp [rowsOf]
  rw [hrows, List.forall₂_iff_get]
  refine ⟨by simp, ?_⟩
  intro row hevents hrange
  simp only [List.get_eq_getElem, List.getElem_map, List.getElem_range]
  exact holdsRow_eventsToBatch hlib h (List.getElem?_eq_getElem hevents)

/-- A row tells the table of its event. -/
theorem HoldsRow.makeTableId_eq {event event' : ChangeEvent}
    {row : lib.RecordBatch × ℕ} (h : HoldsRow toJsonString lib event row)
    (h' : HoldsRow toJsonString lib event' row) :
    makeTableId event = makeTableId event' := by
  have hread : ∀ name value value',
      (name, Cells.Cell.string (some value)) ∈ rowOf toJsonString event →
      (name, Cells.Cell.string (some value')) ∈ rowOf toJsonString event' →
      value = value' := by
    intro name value value' hmem hmem'
    have hvalue : lib.readCell row.1 name row.2 =
        some (.string (some value)) := h _ hmem
    have hvalue' : lib.readCell row.1 name row.2 =
        some (.string (some value')) := h' _ hmem'
    rw [hvalue] at hvalue'
    simpa using hvalue'
  have hdb := hread "db" event.payload.source.db event'.payload.source.db
    (by simp [rowOf]) (by simp [rowOf])
  have htable := hread "table" event.payload.source.table
    event'.payload.source.table (by simp [rowOf]) (by simp [rowOf])
  rw [makeTableId, makeTableId, hdb, htable]

/-! ## The calls of a sequence of writes -/

def keyOf (tableId : TableIdentifier) : String :=
  tableId.db ++ "." ++ tableId.table

/-- What is appended for a slice. -/
def pack (toJsonString : Json.Value → Option String) (lib : Arrays)
    (events : List ChangeEvent) : List lib.RecordBatch :=
  match eventsToBatch toJsonString lib events with
  | .ok batch => [batch]
  | _ => []

theorem forall₂_rowsOf_pack (hlib : lib.Documented)
    (events : List ChangeEvent) :
    List.Forall₂ (HoldsRow toJsonString lib) events
      (rowsOf lib (pack toJsonString lib events)) := by
  cases events with
  | nil => exact .nil
  | cons event events =>
      obtain ⟨batch, hbatch, -⟩ :=
        eventsToBatch_cons toJsonString hlib event events
      simp only [pack, hbatch]
      exact forall₂_rowsOf_eventsToBatch hlib hbatch

theorem ensureTable_of_mem {self : OpenLakeSink lib store} {event : ChangeEvent}
    (h : tableKey event ∈ self.registered) : self.ensureTable event = self :=
  if_pos h

theorem ensureTable_of_notMem {self : OpenLakeSink lib store}
    {event : ChangeEvent} (h : tableKey event ∉ self.registered) :
    self.ensureTable event = { self with
      state := store.register self.state (makeTableId event) (makeSchema event)
      registered := self.registered.insert (tableKey event) true
      calls := self.calls ++
        [.register (makeTableId event) (makeSchema event)] } :=
  if_neg h

variable (toJsonString) in
theorem write_cons (hlib : lib.Documented) (self : OpenLakeSink lib store)
    (event : ChangeEvent) (events : List ChangeEvent) :
    (self.write toJsonString (event :: events)).2.calls =
        (self.ensureTable event).calls ++
          [.append (makeTableId event) (pack toJsonString lib (event :: events))] ∧
      (self.write toJsonString (event :: events)).2.registered =
        (self.ensureTable event).registered := by
  obtain ⟨batch, hbatch, -⟩ :=
    eventsToBatch_cons toJsonString hlib event events
  simp only [write, pack, hbatch]
  -- the answer of the store changes nothing but the result
  constructor
  · split <;> rfl
  · split <;> rfl

/-- The batch of a slice is never refused, so no write panics. -/
theorem write_fst_ne_panicked (hlib : lib.Documented)
    (self : OpenLakeSink lib store) (events : List ChangeEvent) :
    (self.write toJsonString events).1 ≠ .panicked := by
  cases events with
  | nil => exact nofun
  | cons event events =>
      obtain ⟨batch, hbatch, -⟩ :=
        eventsToBatch_cons toJsonString hlib event events
      simp only [write, hbatch]
      split
      · exact nofun
      · exact nofun

/-- The sink routes its slices, with the keys of its cache. -/
theorem calls_writeAll (hlib : lib.Documented) {self : OpenLakeSink lib store}
    {cached : List String}
    (hcached : ∀ key, key ∈ self.registered ↔ key ∈ cached)
    (slices : List (List ChangeEvent)) :
    (self.writeAll toJsonString slices).calls = self.calls ++
      Routing.runCalls makeTableId keyOf makeSchema (pack toJsonString lib)
        cached slices := by
  induction slices generalizing self cached with
  | nil => simp [writeAll, Routing.runCalls]
  | cons slice slices ih =>
      cases slice with
      | nil => exact ih hcached
      | cons event events =>
          obtain ⟨hcalls, hregistered⟩ :=
            write_cons toJsonString hlib self event events
          rw [writeAll, Routing.runCalls]
          split_ifs with hkey
          · have hmem : tableKey event ∈ self.registered :=
              (hcached (tableKey event)).mpr hkey
            rw [ensureTable_of_mem hmem] at hcalls hregistered
            rw [ih (by rw [hregistered]; exact hcached), hcalls]
            simp
          · have hnotMem : tableKey event ∉ self.registered :=
              fun hmem => hkey ((hcached (tableKey event)).mp hmem)
            rw [ensureTable_of_notMem hnotMem] at hcalls hregistered
            have hcached' : ∀ key, key ∈
                (self.write toJsonString (event :: events)).2.registered ↔
                  key ∈ keyOf (makeTableId event) :: cached := by
              intro key
              rw [hregistered, AList.mem_insert, hcached, List.mem_cons]
              rfl
            rw [ih hcached', hcalls]
            simp

/-! ## Where the events end up -/

/-- Every table gets the rows of its own events, in order, and is registered
before the first of them. -/
structure RoutesAll (toJsonString : Json.Value → Option String) (lib : Arrays)
    (slices : List (List ChangeEvent)) (calls : List (StoreCall lib)) :
    Prop where
  appended : ∀ tableId, List.Forall₂ (HoldsRow toJsonString lib)
    (slices.flatten.filter fun event => makeTableId event = tableId)
    (rowsOf lib (Routing.payloadsTo tableId calls).flatten)
  registered : ∀ before tableId batches after,
    calls = before ++ .append tableId batches :: after →
      ∃ schema, .register tableId schema ∈ before

/-- The writes never mix tables in a slice, nor names that are joined to one
key. -/
structure KeepsApart (slices : List (List ChangeEvent)) : Prop where
  slice : ∀ slice ∈ slices, ∀ a ∈ slice, ∀ b ∈ slice,
    makeTableId a = makeTableId b
  key : ∀ a ∈ slices.flatten, ∀ b ∈ slices.flatten,
    tableKey a = tableKey b → makeTableId a = makeTableId b

theorem forall₂_rowsOf_map_pack (hlib : lib.Documented)
    (slices : List (List ChangeEvent)) :
    List.Forall₂ (HoldsRow toJsonString lib) slices.flatten
      (rowsOf lib (slices.map (pack toJsonString lib)).flatten) := by
  induction slices with
  | nil => exact .nil
  | cons slice slices ih =>
      have hrows : rowsOf lib
          ((slice :: slices).map (pack toJsonString lib)).flatten =
            rowsOf lib (pack toJsonString lib slice) ++
              rowsOf lib (slices.map (pack toJsonString lib)).flatten := by
        simp [rowsOf]
      rw [hrows, List.flatten_cons]
      exact List.rel_append (forall₂_rowsOf_pack hlib slice) ih

theorem uniform_iff {slice : List ChangeEvent} :
    Routing.Uniform makeTableId slice ↔
      ∀ a ∈ slice, ∀ b ∈ slice, makeTableId a = makeTableId b := by
  cases slice with
  | nil => simp [Routing.Uniform]
  | cons first events =>
      constructor
      · intro h a ha b hb
        have hfirst : ∀ event ∈ first :: events,
            makeTableId first = makeTableId event :=
          fun event hevent => Option.some.inj (h event hevent)
        rw [← hfirst a ha, ← hfirst b hb]
      · intro h event hevent
        exact congrArg some (h first List.mem_cons_self event hevent)

/-- Of slices that do not mix tables every event is of a table that slices are
routed to. -/
theorem mem_heads_iff {slices : List (List ChangeEvent)}
    (h : ∀ slice ∈ slices, Routing.Uniform makeTableId slice)
    {tableId : TableIdentifier} :
    tableId ∈ Routing.heads makeTableId slices ↔
      ∃ event ∈ slices.flatten, makeTableId event = tableId := by
  constructor
  · intro hmem
    obtain ⟨slice, hslice, hhead⟩ := List.mem_filterMap.mp hmem
    obtain ⟨event, hevent, rfl⟩ := Option.map_eq_some_iff.mp hhead
    exact ⟨event, List.mem_flatten.mpr ⟨slice, hslice,
      List.mem_of_mem_head? hevent⟩, rfl⟩
  · rintro ⟨event, hevent, rfl⟩
    obtain ⟨slice, hslice, hmem⟩ := List.mem_flatten.mp hevent
    exact List.mem_filterMap.mpr ⟨slice, hslice, h slice hslice event hmem⟩

/-- Two lists of events that are held by the same rows are of the same
tables. -/
theorem exists_makeTableId_eq {events events' : List ChangeEvent}
    {rows : List (lib.RecordBatch × ℕ)}
    (h : List.Forall₂ (HoldsRow toJsonString lib) events rows)
    (h' : List.Forall₂ (HoldsRow toJsonString lib) events' rows) :
    ∀ event ∈ events, ∃ event' ∈ events',
      makeTableId event = makeTableId event' := by
  induction h generalizing events' with
  | nil => simp
  | @cons first row events rows hfirst _ ih =>
      cases h' with
      | @cons first' _ events' _ hfirst' hrest' =>
          intro event hevent
          rcases List.mem_cons.mp hevent with rfl | hevent
          · exact ⟨first', List.mem_cons_self, hfirst.makeTableId_eq hfirst'⟩
          · obtain ⟨event', hmem, hsame⟩ := ih hrest' event hevent
            exact ⟨event', List.mem_cons_of_mem _ hmem, hsame⟩

/-- The calls of a sequence of writes on the store of a new sink. -/
def routedCalls (toJsonString : Json.Value → Option String) (lib : Arrays)
    (slices : List (List ChangeEvent)) : List (StoreCall lib) :=
  Routing.runCalls makeTableId keyOf makeSchema (pack toJsonString lib) []
    slices

theorem calls_writeAll_new (hlib : lib.Documented) (name : String)
    (state : store.State) (slices : List (List ChangeEvent)) :
    ((new name state : OpenLakeSink lib store).writeAll toJsonString
        slices).calls = routedCalls toJsonString lib slices := by
  have hcached : ∀ key, key ∈ (∅ : Registry String Bool) ↔
      key ∈ ([] : List String) :=
    fun key => iff_of_false (AList.notMem_empty key) List.not_mem_nil
  exact calls_writeAll hlib hcached slices

/-- The rows of a table are those of the slices that are routed to it. -/
theorem forall₂_headed (hlib : lib.Documented)
    (slices : List (List ChangeEvent)) (tableId : TableIdentifier) :
    List.Forall₂ (HoldsRow toJsonString lib)
      (slices.filter fun slice =>
        Routing.Headed makeTableId tableId slice).flatten
      (rowsOf lib (Routing.payloadsTo tableId
        (routedCalls toJsonString lib slices)).flatten) := by
  rw [routedCalls, Routing.payloadsTo_runCalls]
  exact forall₂_rowsOf_map_pack hlib _

theorem injOn_keyOf_iff {slices : List (List ChangeEvent)}
    (h : ∀ slice ∈ slices, Routing.Uniform makeTableId slice) :
    Set.InjOn keyOf
        {tableId | tableId ∈ Routing.heads makeTableId slices} ↔
      ∀ a ∈ slices.flatten, ∀ b ∈ slices.flatten,
        tableKey a = tableKey b → makeTableId a = makeTableId b := by
  constructor
  · intro hinj a ha b hb hkey
    exact hinj ((mem_heads_iff h).mpr ⟨a, ha, rfl⟩)
      ((mem_heads_iff h).mpr ⟨b, hb, rfl⟩) hkey
  · rintro hkey tableId htable tableId' htable' hsame
    obtain ⟨a, ha, rfl⟩ := (mem_heads_iff h).mp htable
    obtain ⟨b, hb, rfl⟩ := (mem_heads_iff h).mp htable'
    exact hkey a ha b hb hsame

theorem registeredFrom_routedCalls_iff {slices : List (List ChangeEvent)}
    (h : ∀ slice ∈ slices, Routing.Uniform makeTableId slice) :
    Routing.RegisteredFrom [] (routedCalls toJsonString lib slices) ↔
      ∀ a ∈ slices.flatten, ∀ b ∈ slices.flatten,
        tableKey a = tableKey b → makeTableId a = makeTableId b := by
  rw [← injOn_keyOf_iff h]
  exact Routing.registeredFrom_nil_runCalls_iff slices

/-- Every table gets its own rows only if no slice mixes tables. -/
theorem uniform_of_appended (hlib : lib.Documented)
    {slices : List (List ChangeEvent)}
    (h : RoutesAll toJsonString lib slices
      (routedCalls toJsonString lib slices)) :
    ∀ slice ∈ slices, Routing.Uniform makeTableId slice := by
  apply Routing.uniform_of_forall_headed
  intro tableId slice hslice hheaded event hevent
  have hmem : event ∈ (slices.filter fun slice =>
      Routing.Headed makeTableId tableId slice).flatten :=
    List.mem_flatten.mpr ⟨slice, List.mem_filter.mpr
      ⟨hslice, decide_eq_true hheaded⟩, hevent⟩
  obtain ⟨event', hevent', hsame⟩ := exists_makeTableId_eq
    (forall₂_headed hlib slices tableId) (h.appended tableId) event hmem
  rw [hsame]
  exact of_decide_eq_true (List.mem_filter.mp hevent').2

/-- A store that takes everything. -/
def openStore (lib : Arrays) : TableStore lib where
  State := Unit
  register _ _ _ := ()
  append _ _ _ := (.ok (), ())

def openSink (lib : Arrays) : OpenLakeSink lib (openStore lib) := new "lake" ()

/-- A row of a table. -/
def rowIn (db table : String) : ChangeEvent :=
  .create (.object [("id", .ofInt 1)])
    (SourceInfo.new .postgres db (some "public") table 0) 0

/-- What `serde_json::to_string` makes of such a row. -/
def rowText (_row : Json.Value) : Option String := some "\x7b\"id\":1\x7d"

/-- Two tables whose names are joined to `a.b.c`: the second is never
registered. -/
theorem not_routesAll_joinedNames :
    ¬RoutesAll rowText plain
      [[rowIn "a.b" "c"], [rowIn "a" "b.c"]]
      ((openSink plain).writeAll rowText
        [[rowIn "a.b" "c"], [rowIn "a" "b.c"]]).calls := by
  intro h
  have hcalls : ((openSink plain).writeAll rowText
      [[rowIn "a.b" "c"], [rowIn "a" "b.c"]]).calls =
        routedCalls rowText plain
          [[rowIn "a.b" "c"], [rowIn "a" "b.c"]] :=
    @calls_writeAll_new plain (openStore plain) _ documented_plain "lake" () _
  rw [hcalls] at h
  obtain ⟨schema, hmem⟩ := h.registered
    [.register ⟨"a.b", "c"⟩ (makeSchema (rowIn "a.b" "c")),
      .append ⟨"a.b", "c"⟩ (pack rowText plain [rowIn "a.b" "c"])]
    ⟨"a", "b.c"⟩ (pack rowText plain [rowIn "a" "b.c"]) [] rfl
  simp at hmem

/-- The sink routes every event to its table exactly if the writes keep the
tables apart. -/
theorem routesAll_iff (hlib : lib.Documented) (name : String)
    (state : store.State) (slices : List (List ChangeEvent)) :
    RoutesAll toJsonString lib slices
        ((new name state : OpenLakeSink lib store).writeAll toJsonString
          slices).calls ↔
      KeepsApart slices := by
  rw [calls_writeAll_new hlib]
  constructor
  · intro h
    have huniform := uniform_of_appended hlib h
    have hregistered : Routing.RegisteredFrom []
        (routedCalls toJsonString lib slices) :=
      Routing.registeredFrom_nil_iff.mpr h.registered
    exact ⟨fun slice hslice => uniform_iff.mp (huniform slice hslice),
      (registeredFrom_routedCalls_iff huniform).mp hregistered⟩
  · intro h
    have huniform : ∀ slice ∈ slices, Routing.Uniform makeTableId slice :=
      fun slice hslice => uniform_iff.mpr (h.slice slice hslice)
    refine ⟨?_, Routing.registeredFrom_nil_iff.mp
      ((registeredFrom_routedCalls_iff huniform).mpr h.key)⟩
    intro tableId
    rw [← Routing.flatten_filter_headed huniform]
    exact forall₂_headed hlib slices tableId

/-- The two tables of the sink's test. -/
theorem routesAll_usersOrders :
    RoutesAll rowText plain
      [[rowIn "testdb" "users"], [rowIn "testdb" "orders"]]
      ((openSink plain).writeAll rowText
        [[rowIn "testdb" "users"], [rowIn "testdb" "orders"]]).calls := by
  refine Iff.mpr (routesAll_iff documented_plain "lake" () _) ⟨?_, ?_⟩
  · simp [rowIn, makeTableId]
  · decide

end OpenLakeSink
end OpenCdc
