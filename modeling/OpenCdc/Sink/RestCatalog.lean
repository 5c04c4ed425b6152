import OpenCdc.Foundation.Http
import OpenCdc.Foundation.Registry
import OpenCdc.Foundation.Routing
import OpenCdc.Pipeline.SinkHistories

/-!
# The REST catalog sink

`RestCatalogSink` creates a table at a catalog when it meets the table's first
event, and commits the number of events of each write.  The catalog is any
party that answers requests.
-/

namespace OpenCdc

open Foundation

/-! ## Requests and replies -/

/-- `RestCatalogSinkConfig`, without the token, which goes into a header. -/
structure RestCatalogSinkConfig where
  baseUrl : String
  pathPrefix : String
  ns : String

structure Post where
  url : String
  body : Json.Value

/-- A status and the text behind it. -/
structure Reply where
  status : ℕ
  body : String

/-- `StatusCode::is_success` -/
def Reply.isSuccess (reply : Reply) : Bool :=
  200 ≤ reply.status && reply.status < 300

abbrev Exchange := Post × Except String Reply

/-- A catalog: how it answers, or why no answer arrives. -/
structure Catalog (γ : Type) where
  respond : γ → Post → Except String Reply × γ
  /-- The text of a status. -/
  statusText : ℕ → String
  /-- `serde_json::to_value` of the table's schema. -/
  schemaJson : Except String Json.Value

namespace RestCatalogSinkConfig

def createUrl (config : RestCatalogSinkConfig) : String :=
  config.baseUrl ++ "/" ++ config.pathPrefix ++ "/namespaces/" ++ config.ns ++
    "/tables"

def commitUrl (config : RestCatalogSinkConfig) : String :=
  config.baseUrl ++ "/" ++ config.pathPrefix ++ "/transactions/commit"

end RestCatalogSinkConfig

/-! ## The sink -/

/-- The sink, with the state of its catalog and the requests that it made, in
order. -/
structure RestCatalogSink (γ : Type) where
  name : String
  config : RestCatalogSinkConfig
  registered : Registry String Bool
  catalog : γ
  exchanges : List Exchange := []

namespace RestCatalogSink

variable {γ : Type}

def new (name : String) (config : RestCatalogSinkConfig) (catalog : γ) :
    RestCatalogSink γ where
  name := name
  config := config
  registered := ∅
  catalog := catalog

def tableKey (event : ChangeEvent) : String :=
  event.payload.source.db ++ "." ++ event.payload.source.table

def createPost (config : RestCatalogSinkConfig) (table : String)
    (schemaJson : Json.Value) : Post where
  url := config.createUrl
  body := .object [("name", .string table), ("schema", schemaJson)]

def commitPost (config : RestCatalogSinkConfig) (table : String)
    (count : ℕ) : Post where
  url := config.commitUrl
  body := .object [
    ("namespace", .string config.ns),
    ("table", .string table),
    ("requirements", .array []),
    ("updates", .array [
      .object [
        ("action", .string "add-snapshot"),
        ("snapshot", .object [
          ("operation", .string "append"),
          ("summary", .object [
            ("operation", .string "append"),
            ("count", .string (toString count))])])],
      .object [
        ("action", .string "set-snapshot-ref"),
        ("ref_name", .string "main"),
        ("snapshot_id", .ofInt 0),
        ("type", .string "snapshot")]])]

variable (server : Catalog γ)

/-- One request and what becomes of it. -/
def send (self : RestCatalogSink γ) (post : Post) :
    Except String Reply × RestCatalogSink γ :=
  let (reply, catalog) := server.respond self.catalog post
  (reply, { self with
    catalog := catalog
    exchanges := self.exchanges ++ [(post, reply)] })

def ensureTable (self : RestCatalogSink γ) (event : ChangeEvent) :
    Except PipelineError Unit × RestCatalogSink γ :=
  let key := tableKey event
  if key ∈ self.registered then (.ok (), self)
  else
    match server.schemaJson with
    | .error e => (.error (.sink ("schema serde: " ++ e)), self)
    | .ok schemaJson =>
        match self.send server
            (createPost self.config event.payload.source.table schemaJson) with
        | (.error e, self) =>
            (.error (.sink ("create table request: " ++ e)), self)
        | (.ok reply, self) =>
            if reply.isSuccess ∨ reply.status = 409 then
              (.ok (), { self with
                registered := self.registered.insert key true })
            else
              (.error (.sink ("create table failed: " ++ reply.body)), self)

def commitSnapshot (self : RestCatalogSink γ) (event : ChangeEvent)
    (count : ℕ) : Except PipelineError Unit × RestCatalogSink γ :=
  match self.send server
      (commitPost self.config event.payload.source.table count) with
  | (.error e, self) => (.error (.sink ("commit request: " ++ e)), self)
  | (.ok reply, self) =>
      if reply.isSuccess then (.ok (), self)
      else
        (.error (.sink ("commit failed (" ++ server.statusText reply.status ++
          "): " ++ reply.body)), self)

def write (self : RestCatalogSink γ) (events : List ChangeEvent) :
    Except PipelineError Unit × RestCatalogSink γ :=
  match events with
  | [] => (.ok (), self)
  | event :: _ =>
      match self.ensureTable server event with
      | (.error err, self) => (.error err, self)
      | (.ok _, self) => self.commitSnapshot server event events.length

/-- `impl Sink for RestCatalogSink` -/
def asSink (name : String) : Sink (RestCatalogSink γ) where
  name := name
  write self events := self.write server events

/-! ## What a catalog reads -/

def member (value : Json.Value) (key : String) : Option Json.Value :=
  match value with
  | .object entries => Json.Map.get entries key
  | _ => none

def firstOf (value : Json.Value) : Option Json.Value :=
  match value with
  | .array values => values.head?
  | _ => none

/-- The table that a request asks to create. -/
def createdTable (config : RestCatalogSinkConfig) (post : Post) :
    Option String :=
  if post.url = config.createUrl then
    (member post.body "name").bind Json.Value.asStr
  else none

/-- The table of a commit and its number of events. -/
def committedCount (config : RestCatalogSinkConfig) (post : Post) :
    Option (String × ℕ) :=
  if post.url = config.commitUrl then do
    let table ← (member post.body "table").bind Json.Value.asStr
    let update ← (member post.body "updates").bind firstOf
    let snapshot ← member update "snapshot"
    let summary ← member snapshot "summary"
    let count ← (member summary "count").bind Json.Value.asStr
    let count ← readDecimal count.toList
    return (table, count)
  else none

theorem getLast?_toList_append {text text' : String} {c : Char}
    (h : text'.toList.getLast? = some c) :
    (text ++ text').toList.getLast? = some c := by
  rw [String.toList_append, List.getLast?_append, h]
  rfl

theorem createUrl_ne_commitUrl (config : RestCatalogSinkConfig) :
    config.createUrl ≠ config.commitUrl := by
  have hcreate : config.createUrl.toList.getLast? = some 's' :=
    getLast?_toList_append (by decide)
  have hcommit : config.commitUrl.toList.getLast? = some 't' :=
    getLast?_toList_append (by decide)
  intro h
  rw [h, hcommit] at hcreate
  exact absurd hcreate (by decide)

theorem createdTable_createPost (config : RestCatalogSinkConfig)
    (table : String) (schemaJson : Json.Value) :
    createdTable config (createPost config table schemaJson) = some table := by
  simp [createdTable, createPost, member, Json.Map.get, Json.Value.asStr]

theorem createdTable_commitPost (config : RestCatalogSinkConfig)
    (table : String) (count : ℕ) :
    createdTable config (commitPost config table count) = none :=
  if_neg (createUrl_ne_commitUrl config).symm

theorem committedCount_createPost (config : RestCatalogSinkConfig)
    (table : String) (schemaJson : Json.Value) :
    committedCount config (createPost config table schemaJson) = none :=
  if_neg (createUrl_ne_commitUrl config)

/-- The count is read as it was meant. -/
theorem committedCount_commitPost (config : RestCatalogSinkConfig)
    (table : String) (count : ℕ) :
    committedCount config (commitPost config table count) =
      some (table, count) := by
  simp [committedCount, commitPost, member, firstOf, Json.Map.get,
    Json.Value.asStr, readDecimal_toDigits]

/-! ## What a catalog is told -/

/-- A request that says something to the catalog: a table that it has now, or a
commit. -/
def said (config : RestCatalogSinkConfig) (exchange : Exchange) :
    Option (Routing.Call String Unit ℕ) :=
  match createdTable config exchange.1 with
  | some table =>
      match exchange.2 with
      | .ok reply =>
          if reply.isSuccess ∨ reply.status = 409 then some (.register table ())
          else none
      | .error _ => none
  | none =>
      (committedCount config exchange.1).map fun commit =>
        .append commit.1 commit.2

/-- The events of a table that the catalog says it has committed. -/
def committed (config : RestCatalogSinkConfig) (table : String)
    (exchanges : List Exchange) : ℕ :=
  (exchanges.map fun exchange =>
    match exchange.2 with
    | .ok reply =>
        match committedCount config exchange.1 with
        | some commit =>
            if reply.isSuccess ∧ commit.1 = table then commit.2 else 0
        | none => 0
    | .error _ => 0).sum

variable {server : Catalog γ} {config : RestCatalogSinkConfig}

theorem said_createPost {table : String} {schemaJson : Json.Value}
    {reply : Except String Reply} :
    said config (createPost config table schemaJson, reply) =
      match reply with
      | .ok reply =>
          if reply.isSuccess ∨ reply.status = 409 then some (.register table ())
          else none
      | .error _ => none := by
  simp only [said, createdTable_createPost]

theorem said_commitPost {table : String} {count : ℕ}
    {reply : Except String Reply} :
    said config (commitPost config table count, reply) =
      some (.append table count) := by
  simp only [said, createdTable_commitPost, committedCount_commitPost,
    Option.map_some]

theorem committed_append (table : String) (exchanges exchanges' : List Exchange) :
    committed config table (exchanges ++ exchanges') =
      committed config table exchanges + committed config table exchanges' := by
  simp [committed]

theorem committed_createPost (table : String) {other : String}
    {schemaJson : Json.Value} {reply : Except String Reply} :
    committed config table [(createPost config other schemaJson, reply)] =
      0 := by
  rcases reply with e | reply
  · simp [committed]
  · simp [committed, committedCount_createPost]

theorem committed_commitPost (table : String) {other : String} {count : ℕ}
    {reply : Except String Reply} :
    committed config table [(commitPost config other count, reply)] =
      match reply with
      | .ok reply => if reply.isSuccess ∧ other = table then count else 0
      | .error _ => 0 := by
  rcases reply with e | reply
  · simp [committed]
  · simp [committed, committedCount_commitPost]

/-! ## One write -/

/-- The database of an event has no dot, so that the key of its table can be
taken apart. -/
def Keyed (event : ChangeEvent) : Prop :=
  '.' ∉ event.payload.source.db.toList

/-- The catalog has been told of the accepted events, and of every table before
its first commit. -/
structure Accounts (sink : RestCatalogSink γ) (accepted : List ChangeEvent) :
    Prop where
  counts : ∀ table, committed sink.config table sink.exchanges =
    (accepted.filter fun event => event.payload.source.table = table).length
  behind : Routing.RegisteredFrom []
    (sink.exchanges.filterMap (said sink.config))

/-- Every key in the cache is that of a table which the catalog has. -/
def Cached (self : RestCatalogSink γ) : Prop :=
  ∀ key ∈ self.registered, ∃ db table, '.' ∉ db.toList ∧
    key = db ++ "." ++ table ∧
      .register table () ∈ self.exchanges.filterMap (said self.config)

theorem dropWhile_dot {db : List Char} (h : '.' ∉ db) (rest : List Char) :
    (db ++ '.' :: rest).dropWhile (· != '.') = '.' :: rest := by
  have hall : ∀ c ∈ db, (c != '.') = true := fun c hc =>
    bne_iff_ne.mpr fun heq => h (heq ▸ hc)
  rw [List.dropWhile_append_of_pos hall]
  rfl

theorem key_inj {db db' table table' : String} (hdb : '.' ∉ db.toList)
    (hdb' : '.' ∉ db'.toList) (h : db ++ "." ++ table = db' ++ "." ++ table') :
    table = table' := by
  have hlist := congrArg (fun key => key.toList.dropWhile (· != '.')) h
  simp only [String.toList_append, List.append_assoc,
    show ".".toList = ['.'] from rfl, List.cons_append, List.nil_append,
    dropWhile_dot hdb, dropWhile_dot hdb'] at hlist
  exact String.toList_inj.mp (List.cons.inj hlist).2

variable {self : RestCatalogSink γ} {accepted : List ChangeEvent}
  {event : ChangeEvent}

theorem send_eq (self : RestCatalogSink γ) (post : Post) :
    ∃ reply catalog, self.send server post = (reply, { self with
      catalog := catalog
      exchanges := self.exchanges ++ [(post, reply)] }) :=
  ⟨_, _, rfl⟩

/-- A request to create a table leaves the accounts as they are. -/
theorem accounts_create {catalog : γ} {registered : Registry String Bool}
    {table : String} {schemaJson : Json.Value} {reply : Except String Reply}
    (h : self.Accounts accepted) :
    Accounts { self with
      catalog := catalog
      registered := registered
      exchanges := self.exchanges ++
        [(createPost self.config table schemaJson, reply)] } accepted := by
  constructor
  · intro other
    rw [committed_append, committed_createPost, Nat.add_zero]
    exact h.counts other
  · rw [List.filterMap_append]
    rcases hsaid : said self.config
      (createPost self.config table schemaJson, reply) with _ | call
    · rw [List.filterMap_cons_none hsaid, List.filterMap_nil, List.append_nil]
      exact h.behind
    · rw [List.filterMap_cons_some hsaid, List.filterMap_nil]
      apply Routing.registeredFrom_concat_iff.mpr
      refine ⟨h.behind, ?_⟩
      rw [said_createPost] at hsaid
      rcases reply with e | reply
      · cases hsaid
      · dsimp only at hsaid
        split_ifs at hsaid
        rw [← Option.some.inj hsaid]
        trivial

theorem Cached.mono {self' : RestCatalogSink γ} {exchanges : List Exchange}
    (h : self.Cached) (hconfig : self'.config = self.config)
    (hregistered : self'.registered = self.registered)
    (hexchanges : self'.exchanges = self.exchanges ++ exchanges) :
    self'.Cached := by
  intro key hkey
  rw [hregistered] at hkey
  obtain ⟨db, table, hdb, hname, hmem⟩ := h key hkey
  refine ⟨db, table, hdb, hname, ?_⟩
  rw [hexchanges, hconfig, List.filterMap_append]
  exact List.mem_append_left _ hmem

/-- `ensure_table` that returns successfully has made sure of the table. -/
theorem ensureTable_spec (haccounts : self.Accounts accepted)
    (hcached : self.Cached) (hkeyed : Keyed event) :
    (self.ensureTable server event).2.Accounts accepted ∧
      (self.ensureTable server event).2.Cached ∧
      (self.ensureTable server event).2.config = self.config ∧
      ((self.ensureTable server event).1 = .ok () →
        .register event.payload.source.table () ∈
          (self.ensureTable server event).2.exchanges.filterMap
            (said self.config)) := by
  unfold ensureTable
  dsimp only
  split_ifs with hkey
  · refine ⟨haccounts, hcached, rfl, ?_⟩
    intro _
    obtain ⟨db, table, hdb, hname, hmem⟩ := hcached _ hkey
    rw [key_inj hkeyed hdb hname]
    exact hmem
  · rcases server.schemaJson with e | schemaJson
    · exact ⟨haccounts, hcached, rfl, fun h => by cases h⟩
    · obtain ⟨reply, catalog, hsend⟩ := @send_eq γ server self
        (createPost self.config event.payload.source.table schemaJson)
      simp only [hsend]
      have hkept := @accounts_create γ self accepted catalog self.registered
        event.payload.source.table schemaJson reply haccounts
      rcases reply with e | reply
      · exact ⟨hkept, hcached.mono rfl rfl rfl, rfl, fun h => by cases h⟩
      · dsimp only
        split_ifs with haccepted
        · have hmem : Routing.Call.register event.payload.source.table () ∈
              (self.exchanges ++ [(createPost self.config
                event.payload.source.table schemaJson,
                  Except.ok reply)]).filterMap (said self.config) := by
            have hsaid := @said_createPost self.config
              event.payload.source.table schemaJson (.ok reply)
            dsimp only at hsaid
            rw [if_pos haccepted] at hsaid
            rw [List.filterMap_append, List.filterMap_cons_some hsaid]
            exact List.mem_append_right _ List.mem_cons_self
          refine ⟨accounts_create haccounts, ?_, rfl, fun _ => hmem⟩
          intro key hregistered
          rcases (AList.mem_insert _).mp hregistered with rfl | hold
          · exact ⟨_, _, hkeyed, rfl, hmem⟩
          · have hkept' : Cached { self with
                catalog := catalog
                exchanges := self.exchanges ++ [(createPost self.config
                  event.payload.source.table schemaJson, Except.ok reply)] } :=
              hcached.mono rfl rfl rfl
            exact hkept' key hold
        · exact ⟨hkept, hcached.mono rfl rfl rfl, rfl, fun h => by cases h⟩

/-- A commit for a table that the catalog has is accounted for, if the catalog
says that it succeeded. -/
theorem commitSnapshot_spec (haccounts : self.Accounts accepted)
    (hcached : self.Cached)
    (hcreated : .register event.payload.source.table () ∈
      self.exchanges.filterMap (said self.config)) :
    (self.commitSnapshot server event 1).2.Accounts
        (accepted ++ Pipeline.accepted
          ⟨[event], (self.commitSnapshot server event 1).1⟩) ∧
      (self.commitSnapshot server event 1).2.Cached ∧
      (self.commitSnapshot server event 1).2.config = self.config := by
  have hcounts : ∀ (reply : Except String Reply) table,
      committed self.config table (self.exchanges ++
        [(commitPost self.config event.payload.source.table 1, reply)]) =
          (accepted.filter fun event =>
              event.payload.source.table = table).length +
            match reply with
            | .ok reply =>
                if reply.isSuccess ∧ event.payload.source.table = table then 1
                else 0
            | .error _ => 0 := by
    intro reply table
    rw [committed_append, committed_commitPost, haccounts.counts table]
  obtain ⟨reply, catalog, hsend⟩ := @send_eq γ server self
    (commitPost self.config event.payload.source.table 1)
  have hbehind : Routing.RegisteredFrom [] ((self.exchanges ++
      [(commitPost self.config event.payload.source.table 1,
        reply)]).filterMap (said self.config)) := by
    rw [List.filterMap_append, List.filterMap_cons_some said_commitPost,
      List.filterMap_nil]
    exact Routing.registeredFrom_concat_iff.mpr
      ⟨haccounts.behind, Or.inr ⟨(), hcreated⟩⟩
  unfold commitSnapshot
  simp only [hsend]
  rcases reply with e | reply
  · refine ⟨⟨?_, hbehind⟩, hcached.mono rfl rfl rfl, rfl⟩
    intro table
    rw [Pipeline.accepted, List.append_nil]
    exact hcounts _ table
  · dsimp only
    split_ifs with hsuccess
    · refine ⟨⟨?_, hbehind⟩, hcached.mono rfl rfl rfl, rfl⟩
      intro table
      refine (hcounts _ table).trans ?_
      rw [Pipeline.accepted, List.filter_append, List.length_append]
      by_cases htable : event.payload.source.table = table
      · simp [hsuccess, htable]
      · simp [htable]
    · refine ⟨⟨?_, hbehind⟩, hcached.mono rfl rfl rfl, rfl⟩
      intro table
      refine (hcounts _ table).trans ?_
      rw [Pipeline.accepted, List.append_nil]
      simp [hsuccess]

/-- The step of a run: a write of one event keeps the accounts. -/
theorem write_spec (haccounts : self.Accounts accepted)
    (hcached : self.Cached) (hkeyed : Keyed event) :
    (self.write server [event]).2.Accounts
        (accepted ++ Pipeline.accepted
          ⟨[event], (self.write server [event]).1⟩) ∧
      (self.write server [event]).2.Cached := by
  obtain ⟨hensured, hcached', hconfig, hcreated⟩ :=
    @ensureTable_spec γ server self accepted event haccounts hcached hkeyed
  rcases hensure : self.ensureTable server event with ⟨err | ⟨⟩, self'⟩ <;>
    rw [hensure] at hensured hcached' hconfig hcreated
  · have hwrite : self.write server [event] = (.error err, self') := by
      simp only [write, hensure]
    rw [hwrite, Pipeline.accepted, List.append_nil]
    exact ⟨hensured, hcached'⟩
  · have hwrite : self.write server [event] =
        self'.commitSnapshot server event 1 := by
      simp only [write, hensure]
      rfl
    rw [hwrite]
    have hmem := hcreated rfl
    rw [← hconfig] at hmem
    obtain ⟨hcommitted, hcached'', -⟩ :=
      @commitSnapshot_spec γ server self' accepted event hensured hcached' hmem
    exact ⟨hcommitted, hcached''⟩

/-- A run of writes of one event keeps them. -/
theorem accounts_writeSingly (name : String) {events : List ChangeEvent}
    (hkeyed : ∀ event ∈ events, Keyed event) (haccounts : self.Accounts accepted)
    (hcached : self.Cached) :
    (Pipeline.writeSingly (asSink server name) self events).2.Accounts
      (accepted ++ (Pipeline.writeSingly (asSink server name) self
        events).1.flatMap Pipeline.accepted) := by
  induction events generalizing self accepted with
  | nil =>
      rw [Pipeline.writeSingly, List.flatMap_nil, List.append_nil]
      exact haccounts
  | cons event events ih =>
      obtain ⟨hfirst, hrest⟩ := List.forall_mem_cons.mp hkeyed
      obtain ⟨haccounts', hcached'⟩ :=
        @write_spec γ server self accepted event haccounts hcached hfirst
      have hrun := ih hrest haccounts' hcached'
      rw [Pipeline.writeSingly, List.flatMap_cons, ← List.append_assoc]
      exact hrun

/-! ## A pipeline into catalogs -/

/-- A sink for each catalog. -/
def sinksOf (server : Catalog γ)
    (catalogs : List (String × RestCatalogSinkConfig × γ)) :
    List (Sink (RestCatalogSink γ) × RestCatalogSink γ) :=
  catalogs.map fun catalog =>
    (asSink server catalog.1, new catalog.1 catalog.2.1 catalog.2.2)

/-- Closing such a sink does nothing. -/
theorem close_sinksOf (catalogs : List (String × RestCatalogSinkConfig × γ)) :
    ∀ pair ∈ sinksOf server catalogs, ∀ state,
      (pair.1.close state).2 = state := by
  intro pair hpair self
  obtain ⟨_, -, rfl⟩ := List.mem_map.mp hpair
  rfl

/-- Whatever is asked of a pipeline, and whatever the catalogs answer: as long
as no database of the events that a sink was given has a dot in its name, the
number of events of a table that the catalog has said to have committed is that
of the events which the sink accepted, and no commit was sent for a table in
front of the catalog's having it. -/
theorem accounts_throughout {κ : Type} (server : Catalog γ) (name : String)
    (connector : Connector κ) (start : κ) (transforms : List Transform)
    (catalogs : List (String × RestCatalogSinkConfig × γ))
    (requests : List Pipeline.Request) :
    Throughout Pipeline.after
      (fun p => ∀ cell ∈ p.sinks, (∀ event ∈ cell.dispatched, Keyed event) →
        cell.state.Accounts cell.written)
      (Pipeline.built name connector start transforms
        (sinksOf server catalogs)) requests := by
  have hsingly := Pipeline.writtenSingly_throughout name connector start
    transforms _ (@close_sinksOf γ server catalogs) requests
  refine hsingly.mono ?_
  intro p hp cell hcell hall
  obtain ⟨pair, hpair, hwritten⟩ := hp cell hcell
  obtain ⟨catalog, -, rfl⟩ := List.mem_map.mp hpair
  have hnew : (new catalog.1 catalog.2.1 catalog.2.2).Accounts [] :=
    ⟨fun _ => rfl, trivial⟩
  have hcached : (new catalog.1 catalog.2.1 catalog.2.2).Cached := by
    intro key hkey
    exact absurd hkey (AList.notMem_empty key)
  have haccounts := @accounts_writeSingly γ server _ [] catalog.1
    cell.dispatched hall hnew hcached
  rw [List.nil_append] at haccounts
  rw [Pipeline.written_eq, hwritten.calls_eq, hwritten.state_eq]
  exact haccounts

/-- A catalog that takes everything. -/
def openCatalog : Catalog Unit where
  respond _ _ := (.ok ⟨200, ""⟩, ())
  statusText _ := "200 OK"
  schemaJson := .ok (.object [])

/-- A connector that sends a row of a snapshot, and the same row when it
streams. -/
def oneRow : Connector Unit where
  snapshot _ _ := ⟨[Pipeline.rowA], .ok .snapshotDone, ()⟩
  stream _ _ := ⟨[Pipeline.rowA], .ok (), ()⟩
  stop _ := (.ok (), ())

theorem accounts_throughout_oneRow :
    Throughout Pipeline.after
      (fun p => ∀ cell ∈ p.sinks, cell.state.Accounts cell.written)
      (Pipeline.built "test" oneRow () []
        (sinksOf openCatalog
          [("catalog", ⟨"http://localhost", "v1", "cdc"⟩, ())]))
      [.run (some ["users"]), .stop, .run none] := by
  intro pre p hpre hrun cell hcell
  have hrecorded := Pipeline.recorded_throughout "test" oneRow () []
    (sinksOf openCatalog
      [("catalog", ⟨"http://localhost", "v1", "cdc"⟩, ())])
    [.run (some ["users"]), .stop, .run none] pre p hpre hrun
  apply accounts_throughout openCatalog "test" oneRow () [] _ _ pre p hpre hrun
    cell hcell
  intro event hevent
  have hmem := (hrecorded.dispatched cell hcell).subset hevent
  obtain ⟨sent, hsent, hsurvives⟩ := List.mem_filterMap.mp hmem
  obtain rfl := Option.some.inj hsurvives
  have hrow : sent = Pipeline.rowA := by
    rcases hrecorded.sentByCall sent hsent with
      ⟨_, _, _, -, hmem⟩ | ⟨_, _, -, hmem⟩
    · exact List.mem_singleton.mp hmem
    · exact List.mem_singleton.mp hmem
  rw [hrow]
  change '.' ∉ "db".toList
  decide

/-! ## What no catalog is told -/

/-- What the sink reads of an event. -/
def placeOf (event : ChangeEvent) : String × String :=
  (event.payload.source.db, event.payload.source.table)

theorem write_congr {event event' : ChangeEvent}
    (h : placeOf event = placeOf event') (self : RestCatalogSink γ) :
    self.write server [event] = self.write server [event'] := by
  obtain ⟨hdb, htable⟩ := Prod.mk.inj h
  have hkey : tableKey event = tableKey event' := by
    rw [tableKey, tableKey, hdb, htable]
  simp only [write, ensureTable, commitSnapshot, hkey, htable]
  rfl

theorem writeSingly_congr (name : String) {events events' : List ChangeEvent}
    (h : events.map placeOf = events'.map placeOf) (self : RestCatalogSink γ) :
    (Pipeline.writeSingly (asSink server name) self events).2 =
      (Pipeline.writeSingly (asSink server name) self events').2 := by
  induction events generalizing events' self with
  | nil =>
      rw [List.map_eq_nil_iff.mp h.symm]
  | cons event events ih =>
      obtain ⟨event', rest, rfl, hfirst, hrest⟩ := List.map_eq_cons_iff.mp h.symm
      have hwrite := @write_congr γ server event event' hfirst.symm self
      simp only [Pipeline.writeSingly, asSink, hwrite]
      exact ih hrest.symm _

/-- A catalog is never told what is in a row: throughout, the requests that a
sink has made are those that any other events of the same tables would have
made. -/
theorem showsTables_throughout {κ : Type} (server : Catalog γ) (name : String)
    (connector : Connector κ) (start : κ) (transforms : List Transform)
    (catalogs : List (String × RestCatalogSinkConfig × γ))
    (requests : List Pipeline.Request) :
    Throughout Pipeline.after
      (fun p => ∀ cell ∈ p.sinks, ∃ catalog ∈ catalogs, ∀ events,
        events.map placeOf = cell.dispatched.map placeOf →
          cell.state.exchanges =
            (Pipeline.writeSingly (asSink server catalog.1)
              (new catalog.1 catalog.2.1 catalog.2.2) events).2.exchanges)
      (Pipeline.built name connector start transforms
        (sinksOf server catalogs)) requests := by
  have hsingly := Pipeline.writtenSingly_throughout name connector start
    transforms _ (@close_sinksOf γ server catalogs) requests
  refine hsingly.mono ?_
  intro p hp cell hcell
  obtain ⟨pair, hpair, hwritten⟩ := hp cell hcell
  obtain ⟨catalog, hcatalog, rfl⟩ := List.mem_map.mp hpair
  refine ⟨catalog, hcatalog, ?_⟩
  intro events hevents
  rw [hwritten.state_eq, writeSingly_congr catalog.1 hevents.symm]

end RestCatalogSink
end OpenCdc
