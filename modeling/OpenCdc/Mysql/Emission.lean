import OpenCdc.Mysql.Stream

/-!
# What the MySQL loop emits

With a receiver that stays, the loop emits one change event for each row that
was parsed, under the names of the latest table map of the row's identifier.
-/

namespace OpenCdc.Mysql

open Foundation Json

/-! ## The object of a row -/

theorem columnKey_injective : Function.Injective columnKey := by
  intro i j h
  have hlist : "col_".toList ++ Nat.toDigits 10 i =
      "col_".toList ++ Nat.toDigits 10 j := String.ofList_injective h
  exact toDigits_injective (List.append_cancel_left hlist)

/-- The values of a row under the keys of their columns. -/
def columnEntries (row : RowEvent) : Map :=
  row.columns.zipIdx.map fun (value, i) => (columnKey i, value)

theorem nodup_keys_columnEntries (row : RowEvent) :
    ((columnEntries row).map Prod.fst).Nodup := by
  have hkeys : (columnEntries row).map Prod.fst =
      (List.range' 0 row.columns.length).map columnKey := by
    rw [← List.zipIdx_map_snd, List.map_map]
    unfold columnEntries
    rw [List.map_map]
    rfl
  rw [hkeys]
  exact (List.nodup_range').map columnKey_injective

/-- The loop over the columns of the table is one over the values of the row,
behind the columns it has passed. -/
theorem foldl_columnTypes {columnTypes : List UInt8} (front : List Value)
    {columns : List Value} (h : columns.length = columnTypes.length) (obj : Map) :
    (columnTypes.zipIdx front.length).foldl (fun obj (_, i) =>
        match (front ++ columns)[i]? with
        | some value => Map.insert obj (columnKey i) value
        | none => obj) obj =
      ((columns.zipIdx front.length).map fun (value, i) =>
        (columnKey i, value)).foldl
          (fun obj entry => Map.insert obj entry.1 entry.2) obj := by
  induction columnTypes generalizing front columns obj with
  | nil =>
      have hnil : columns = [] := List.length_eq_zero_iff.mp h
      simp [hnil]
  | cons colType columnTypes ih =>
      obtain _ | ⟨value, columns⟩ := columns
      · simp at h
      · have hlength : columns.length = columnTypes.length := by simpa using h
        have hstep := ih (front ++ [value]) hlength
          (Map.insert obj (columnKey front.length) value)
        simp only [List.append_assoc, List.singleton_append,
          List.length_append, List.length_singleton] at hstep
        simp only [List.zipIdx_cons, List.foldl_cons, List.map_cons]
        rw [List.getElem?_append_right (Nat.le_refl _), Nat.sub_self]
        exact hstep

/-- The object of a row that is as wide as its table has all its values. -/
theorem rowObject_eq {tm : TableMapEvent} {row : RowEvent}
    (h : row.columns.length = tm.columnTypes.length) :
    rowObject tm row = .object (columnEntries row) := by
  unfold rowObject
  rw [← Map.foldl_insert (nodup_keys_columnEntries row)]
  exact congrArg Value.object (foldl_columnTypes [] h [])

/-! ## The cache of table maps -/

/-- The table map that a body announces, if the parser accepts it. -/
def announced (body : EventBody) : Option TableMapEvent :=
  if body.1.eventType = 0x13 then
    match parseTableMap body.2 with
    | .ok tm => some tm
    | _ => none
  else none

/-- The latest table map that the bodies announce for an identifier. -/
def latestTable (bodies : List EventBody) (tableId : UInt64) :
    Option TableMapEvent :=
  lastEntry TableMapEvent.tableId tableId (bodies.filterMap announced)

/-- The parser behind the bodies. -/
def stateAfter (json : JsonParser) (bodies : List EventBody) : ParserState :=
  bodies.foldl (fun state body => (parseEvent json state body.1 body.2).2) {}

/-- What the parser makes of a body behind others. -/
def parsed (json : JsonParser) (earlier : List EventBody) (body : EventBody) :
    Outcome String (Option BinlogEvent) :=
  (parseEvent json (stateAfter json earlier) body.1 body.2).1

@[simp] theorem stateAfter_nil (json : JsonParser) :
    stateAfter json [] = {} := rfl

theorem stateAfter_append_singleton (json : JsonParser)
    (bodies : List EventBody) (body : EventBody) :
    stateAfter json (bodies ++ [body]) =
      (parseEvent json (stateAfter json bodies) body.1 body.2).2 := by
  simp [stateAfter]

/-- A call changes the cache for the table map that the body announces. -/
theorem tables_parseEvent (json : JsonParser) (state : ParserState)
    (body : EventBody) :
    (parseEvent json state body.1 body.2).2.tables =
      match announced body with
      | some tm => Function.update state.tables tm.tableId (some tm)
      | none => state.tables := by
  by_cases htable : body.1.eventType = 0x13
  · rw [parseEvent_tableMap json state body.2 htable]
    rcases hparse : parseTableMap body.2 with tm | e | _
    all_goals simp [announced, htable, hparse]
  · have hnone : announced body = none := by simp [announced, htable]
    rw [hnone]
    by_cases hgtid : body.1.eventType = 0x21
    · rw [parseEvent_gtid json state body.2 hgtid]
      rcases parseGtid body.2 with (_ | gtid) | e | _ <;> rfl
    · rw [(keepsState_parseEvent json state body.2 htable hgtid).1]

/-- A body from which no table map is parsed announces none. -/
theorem announced_eq_none (json : JsonParser) (state : ParserState)
    {body : EventBody}
    (h : ∀ tm, (parseEvent json state body.1 body.2).1 ≠
      .ok (some (.tableMap tm))) :
    announced body = none := by
  by_cases htable : body.1.eventType = 0x13
  · rw [parseEvent_tableMap json state body.2 htable] at h
    rcases hparse : parseTableMap body.2 with tm | e | _
    · rw [hparse] at h
      exact absurd rfl (h tm)
    · simp [announced, hparse]
    · simp [announced, hparse]
  · simp [announced, htable]

/-- The cache holds the latest table map of each identifier. -/
theorem tables_stateAfter (json : JsonParser) (bodies : List EventBody) :
    (stateAfter json bodies).tables = latestTable bodies := by
  induction bodies using List.reverseRecOn with
  | nil => rfl
  | append_singleton bodies body ih =>
      rw [stateAfter_append_singleton, tables_parseEvent, ih]
      funext tableId
      cases hannounced : announced body with
      | none => simp [latestTable, List.filterMap_append, hannounced]
      | some tm =>
          have hlast := lastEntry_append_singleton TableMapEvent.tableId
            tableId (bodies.filterMap announced) tm
          simp only [latestTable, List.filterMap_append, List.filterMap_cons,
            List.filterMap_nil, hannounced]
          rw [hlast, Function.update_apply]
          exact ite_congr (propext eq_comm) (fun _ => rfl) (fun _ => rfl)

/-! ## Rows events -/

namespace BinlogEvent

/-- The table that a rows event names. -/
def rowsTable : BinlogEvent → Option UInt64
  | writeRows tableId _ => some tableId
  | updateRows tableId _ => some tableId
  | deleteRows tableId _ => some tableId
  | _ => none

/-- The number of rows; an update has two images of each. -/
def rowCount : BinlogEvent → ℕ
  | writeRows _ rows => rows.length
  | updateRows _ rows => rows.length
  | deleteRows _ rows => rows.length
  | _ => 0

/-- The images of an event, of which an update has two for each row. -/
def images : BinlogEvent → List RowEvent
  | writeRows _ rows => rows
  | updateRows _ rows => rows.flatMap fun row => [row.1, row.2]
  | deleteRows _ rows => rows
  | _ => []

/-- The change events of a rows event of a table, one for each row. -/
def changes (tm : TableMapEvent) : BinlogEvent → List Draft
  | writeRows _ rows => rows.map fun row clock =>
      ChangeEvent.create (.object (columnEntries row)) (sourceOf tm clock)
        clock.event
  | updateRows _ rows => rows.map fun row clock =>
      ChangeEvent.update (some (.object (columnEntries row.1)))
        (.object (columnEntries row.2)) (sourceOf tm clock) clock.event
  | deleteRows _ rows => rows.map fun row clock =>
      ChangeEvent.delete (.object (columnEntries row)) (sourceOf tm clock)
        clock.event
  | _ => []

theorem length_changes (tm : TableMapEvent) (event : BinlogEvent) :
    (event.changes tm).length = event.rowCount := by
  cases event <;> simp [changes, rowCount]

end BinlogEvent

/-- If the result is a rows event, it is that of a parser of rows events. -/
def RowsParsed (json : JsonParser) (state : ParserState) (data : Bytes)
    (result : Outcome String (Option BinlogEvent) × ParserState) : Prop :=
  ∀ event, result.1 = .ok (some event) → event.rowsTable ≠ none →
    ∃ version, parseWriteRows json state data version = .ok (some event) ∨
      parseUpdateRows json state data version = .ok (some event) ∨
      parseDeleteRows json state data version = .ok (some event)

section RowsParsed

variable {json : JsonParser} {state : ParserState} {data : Bytes}

theorem rowsParsed_ite {c : Prop} [Decidable c]
    {yes no : Outcome String (Option BinlogEvent) × ParserState}
    (hyes : RowsParsed json state data yes)
    (hno : RowsParsed json state data no) :
    RowsParsed json state data (if c then yes else no) := by
  by_cases hc : c
  · rwa [if_pos hc]
  · rwa [if_neg hc]

theorem rowsParsed_of_other {result : Outcome String (Option BinlogEvent)}
    {state' : ParserState}
    (h : ∀ event, result = .ok (some event) → event.rowsTable = none) :
    RowsParsed json state data (result, state') :=
  fun event hresult htable => absurd (h event hresult) htable

theorem rowsParsed_ok {event : BinlogEvent} {state' : ParserState}
    (h : event.rowsTable = none) :
    RowsParsed json state data (.ok (some event), state') := by
  apply rowsParsed_of_other
  intro event' heq
  have hsame : event = event' := by simpa using heq
  rwa [← hsame]

theorem rowsParsed_parseEvent (json : JsonParser) (state : ParserState)
    (header : EventHeader) (data : Bytes) :
    RowsParsed json state data (parseEvent json state header data) := by
  unfold parseEvent
  dsimp only
  apply rowsParsed_ite (rowsParsed_ok rfl)
  refine rowsParsed_ite (rowsParsed_of_other ?_) ?_
  · intro event h
    unfold parseRotate at h
    split_ifs at h <;> cases h <;> rfl
  refine rowsParsed_ite ?_ ?_
  · rcases parseTableMap data with tm | e | _
    · exact rowsParsed_ok rfl
    · exact rowsParsed_of_other (by simp)
    · exact rowsParsed_of_other (by simp)
  refine rowsParsed_ite (fun _ h _ => ⟨1, .inl h⟩) ?_
  refine rowsParsed_ite (fun _ h _ => ⟨1, .inr (.inl h)⟩) ?_
  refine rowsParsed_ite (fun _ h _ => ⟨1, .inr (.inr h)⟩) ?_
  refine rowsParsed_ite (fun _ h _ => ⟨2, .inl h⟩) ?_
  refine rowsParsed_ite (fun _ h _ => ⟨2, .inr (.inl h)⟩) ?_
  refine rowsParsed_ite (fun _ h _ => ⟨2, .inr (.inr h)⟩) ?_
  refine rowsParsed_ite ?_ ?_
  · rcases parseGtid data with (_ | gtid) | e | _
    · exact rowsParsed_of_other (by simp)
    · exact rowsParsed_ok rfl
    · exact rowsParsed_of_other (by simp)
    · exact rowsParsed_of_other (by simp)
  refine rowsParsed_ite (rowsParsed_of_other ?_) ?_
  · intro event h
    unfold parseXid at h
    split_ifs at h <;> cases h <;> rfl
  exact rowsParsed_ite (rowsParsed_ok rfl) (rowsParsed_ok rfl)

end RowsParsed

/-- The rows of an event have a value for each column of a table; a table
without columns has no rows. -/
def BinlogEvent.Fits (event : BinlogEvent) (columnTypes : List UInt8) : Prop :=
  (∀ row ∈ event.images, row.columns.length = columnTypes.length) ∧
    (columnTypes = [] → event.rowCount = 0)

/-- The rows of `parse_write_rows` and of `parse_delete_rows`. -/
theorem fits_of_parseRows {json : JsonParser} {state : ParserState}
    {data : Bytes} {version : ℕ} {tableId : UInt64} {rows : List RowEvent}
    (h : parseRows json state data version = .ok (tableId, rows)) :
    (∀ row ∈ rows,
      row.columns.length = (columnTypesOf state tableId).length) ∧
      (columnTypesOf state tableId = [] → rows.length = 0) := by
  obtain ⟨⟨tableId', pos⟩, -, hrest⟩ := Outcome.bind_eq_ok.mp h
  obtain ⟨rows', hrows, hpure⟩ := Outcome.bind_eq_ok.mp hrest
  cases hpure
  refine ⟨length_of_readRows hrows, fun hnil => ?_⟩
  rw [hnil, readRows_noColumns] at hrows
  cases hrows
  rfl

/-- A parsed rows event fits the table that the parser knows under its
identifier. -/
theorem fits_of_parseEvent {json : JsonParser} {state : ParserState}
    {header : EventHeader} {data : Bytes} {event : BinlogEvent}
    {tableId : UInt64}
    (h : (parseEvent json state header data).1 = .ok (some event))
    (htable : event.rowsTable = some tableId) :
    event.Fits (columnTypesOf state tableId) := by
  obtain ⟨version, hwrite | hupdate | hdelete⟩ :=
    rowsParsed_parseEvent json state header data event h (by simp [htable])
  · obtain ⟨⟨tableId', rows⟩, hrows, hevent⟩ := Outcome.bind_eq_ok.mp hwrite
    cases hevent
    cases htable
    exact fits_of_parseRows hrows
  · obtain ⟨⟨tableId', pos⟩, -, hrest⟩ := Outcome.bind_eq_ok.mp hupdate
    obtain ⟨rows, hrows, hevent⟩ := Outcome.bind_eq_ok.mp hrest
    cases hevent
    cases htable
    constructor
    · intro row hrow
      obtain ⟨pair, hpair, hmem⟩ := List.mem_flatMap.mp hrow
      have hwidths := length_of_readRowPairs hrows pair hpair
      rcases List.mem_pair.mp hmem with rfl | rfl
      · exact hwidths.1
      · exact hwidths.2
    · intro hnil
      rw [hnil, readRowPairs_noColumns] at hrows
      cases hrows
      rfl
  · obtain ⟨⟨tableId', rows⟩, hrows, hevent⟩ := Outcome.bind_eq_ok.mp hdelete
    cases hevent
    cases htable
    exact fits_of_parseRows hrows

/-! ## The events that are emitted -/

/-- The change events for a body behind others: those of its rows, under the
names of the latest table map. -/
def changesFor (json : JsonParser) (earlier : List EventBody)
    (body : EventBody) : List Draft :=
  match parsed json earlier body with
  | .ok (some event) =>
      match event.rowsTable.bind (latestTable earlier) with
      | some tm => event.changes tm
      | none => []
  | _ => []

/-- The change events for bodies behind others. -/
def emitted (json : JsonParser) :
    List EventBody → List EventBody → List Draft
  | _, [] => []
  | earlier, body :: bodies =>
      changesFor json earlier body ++ emitted json (earlier ++ [body]) bodies

/-- Every body is accepted in its turn. -/
def Accepts (json : JsonParser) (earlier bodies : List EventBody) : Prop :=
  ∀ pre body post, bodies = pre ++ body :: post →
    ∃ event, parsed json (earlier ++ pre) body = .ok event

theorem accepts_cons {json : JsonParser} {earlier : List EventBody}
    {body : EventBody} {bodies : List EventBody}
    (h : Accepts json earlier (body :: bodies)) :
    (∃ event, parsed json earlier body = .ok event) ∧
      Accepts json (earlier ++ [body]) bodies := by
  constructor
  · simpa using h [] body bodies rfl
  · intro pre body' post hsplit
    simpa using h (body :: pre) body' post (by rw [hsplit]; rfl)

/-- The tables whose columns a rows event is read with. -/
theorem fits_of_parsed {json : JsonParser} {earlier : List EventBody}
    {body : EventBody} {event : BinlogEvent} {tableId : UInt64}
    (h : parsed json earlier body = .ok (some event))
    (htable : event.rowsTable = some tableId) :
    event.Fits (((latestTable earlier tableId).map
      TableMapEvent.columnTypes).getD []) := by
  have hfits := fits_of_parseEvent h htable
  unfold columnTypesOf at hfits
  rwa [tables_stateAfter] at hfits

/-- The loop builds the events of the rows, with an object for every row. -/
theorem changesOf_eq {tables : UInt64 → Option TableMapEvent}
    {event : BinlogEvent}
    (h : ∀ tableId, event.rowsTable = some tableId → ∀ tm,
      tables tableId = some tm → event.Fits tm.columnTypes) :
    changesOf tables event =
      match event.rowsTable.bind tables with
      | some tm => event.changes tm
      | none => [] := by
  cases event with
  | writeRows tableId rows =>
      cases htm : tables tableId with
      | none => simp [changesOf, BinlogEvent.rowsTable, htm]
      | some tm =>
          have hfits := (h tableId rfl tm htm).1
          simp only [changesOf, BinlogEvent.rowsTable, Option.bind_some, htm]
          apply List.map_congr_left
          intro row hrow
          rw [rowObject_eq (hfits row hrow)]
  | updateRows tableId rows =>
      cases htm : tables tableId with
      | none => simp [changesOf, BinlogEvent.rowsTable, htm]
      | some tm =>
          have hfits := (h tableId rfl tm htm).1
          simp only [changesOf, BinlogEvent.rowsTable, Option.bind_some, htm]
          apply List.map_congr_left
          intro row hrow
          rw [rowObject_eq (hfits row.1 (List.mem_flatMap.mpr
              ⟨row, hrow, by simp⟩)),
            rowObject_eq (hfits row.2 (List.mem_flatMap.mpr
              ⟨row, hrow, by simp⟩))]
  | deleteRows tableId rows =>
      cases htm : tables tableId with
      | none => simp [changesOf, BinlogEvent.rowsTable, htm]
      | some tm =>
          have hfits := (h tableId rfl tm htm).1
          simp only [changesOf, BinlogEvent.rowsTable, Option.bind_some, htm]
          apply List.map_congr_left
          intro row hrow
          rw [rowObject_eq (hfits row hrow)]
  | _ => rfl

/-- A rows event leaves the cache as it was. -/
theorem tables_of_rowsTable {json : JsonParser} {earlier : List EventBody}
    {body : EventBody} {event : BinlogEvent}
    (h : parsed json earlier body = .ok (some event))
    (htable : event.rowsTable ≠ none) :
    (stateAfter json (earlier ++ [body])).tables =
      (stateAfter json earlier).tables := by
  rw [stateAfter_append_singleton, tables_parseEvent,
    announced_eq_none json (stateAfter json earlier)]
  intro tm htm
  rw [parsed, htm] at h
  cases h
  exact htable rfl

theorem changesOf_parsed {json : JsonParser} {earlier : List EventBody}
    {body : EventBody} {event : Option BinlogEvent}
    (h : parsed json earlier body = .ok event) :
    (event.map (changesOf (stateAfter json (earlier ++ [body])).tables)).getD
      [] = changesFor json earlier body := by
  cases event with
  | none => simp [changesFor, h]
  | some event =>
      simp only [changesFor, h, Option.map_some, Option.getD_some]
      by_cases htable : event.rowsTable = none
      · cases event <;> first | rfl | cases htable
      · rw [tables_of_rowsTable h htable, tables_stateAfter]
        apply changesOf_eq
        intro tableId hrows tm htm
        have hfits := fits_of_parsed h hrows
        rwa [htm] at hfits

theorem handle_of_parsed {json : JsonParser} {earlier : List EventBody}
    {body : EventBody} {event : Option BinlogEvent}
    (h : parsed json earlier body = .ok event) :
    (streamFeed json).handle (stateAfter json earlier) body =
      (changesFor json earlier body,
        .inl (stateAfter json (earlier ++ [body]))) := by
  have hchanges := changesOf_parsed h
  rw [stateAfter_append_singleton] at hchanges ⊢
  rcases hparse : parseEvent json (stateAfter json earlier) body.1 body.2 with
    ⟨result, state'⟩
  have hresult : result = .ok event := by
    rw [← h, parsed, hparse]
  subst hresult
  rw [hparse] at hchanges
  simp only [streamFeed, hparse, hchanges]

/-- Accepted bodies are passed over with the events of their rows. -/
theorem offers_append {json : JsonParser}
    (ended : Option (Outcome Error Unit)) {earlier bodies : List EventBody}
    (h : Accepts json earlier bodies) (rest : List EventBody) :
    ((streamFeed json).offers ended (stateAfter json earlier)
          (bodies ++ rest)).1.flatten =
        emitted json earlier bodies ++
          ((streamFeed json).offers ended (stateAfter json (earlier ++ bodies))
            rest).1.flatten ∧
      ((streamFeed json).offers ended (stateAfter json earlier)
          (bodies ++ rest)).2 =
        ((streamFeed json).offers ended (stateAfter json (earlier ++ bodies))
          rest).2 := by
  induction bodies generalizing earlier with
  | nil => simp [emitted]
  | cons body bodies ih =>
      obtain ⟨⟨event, hevent⟩, hbodies⟩ := accepts_cons h
      obtain ⟨hsent, hresult⟩ := ih hbodies
      rw [List.append_assoc] at hsent hresult
      simp only [List.cons_append, Feed.offers, handle_of_parsed hevent,
        List.flatten_cons, emitted, List.append_assoc]
      exact ⟨congrArg _ hsent, hresult⟩

section Emitted

variable {json : JsonParser}

/-- The loop over accepted bodies emits the events of their rows. -/
theorem sent_of_accepts {bodies : List EventBody}
    (haccepted : Accepts json [] bodies) (ended : Option String) :
    sentOf (streamBodies json ended {} none bodies).1 = emitted json [] bodies ∧
      (streamBodies json ended {} none bodies).2 =
        ended.map fun message => .error (readError message) := by
  rw [streamBodies_eq_run]
  obtain ⟨hsent, hresult⟩ := Feed.run_none (streamFeed json)
    (ended.map fun message => .error (readError message)) {} bodies
  obtain ⟨hoffers, hended⟩ := offers_append
    (ended.map fun message => .error (readError message)) haccepted []
  rw [List.append_nil] at hoffers hended
  constructor
  · rw [hsent]
    simpa [Feed.offers] using hoffers
  · rw [hresult]
    exact hended

/-- At a rejected body it returns the error and has emitted the events of those
before. -/
theorem sent_of_rejected {pre : List EventBody} {body : EventBody}
    {message : String} (haccepts : Accepts json [] pre)
    (hrejected : parsed json pre body = .error message)
    (post : List EventBody) (ended : Option String) :
    sentOf (streamBodies json ended {} none (pre ++ body :: post)).1 =
        emitted json [] pre ∧
      (streamBodies json ended {} none (pre ++ body :: post)).2 =
        some (.error (readError message)) := by
  have hhandle : (streamFeed json).handle (stateAfter json pre) body =
      ([], .inr (.error (readError message))) := by
    unfold parsed at hrejected
    rcases hparse : parseEvent json (stateAfter json pre) body.1 body.2 with
      ⟨result, state'⟩
    have hresult : result = .error message := by
      rw [← hrejected, hparse]
    subst hresult
    simp only [streamFeed, hparse]
  rw [streamBodies_eq_run]
  obtain ⟨hsent, hresult⟩ := Feed.run_none (streamFeed json)
    (ended.map fun message => .error (readError message)) {}
    (pre ++ body :: post)
  obtain ⟨hoffers, hended⟩ := offers_append
    (ended.map fun message => .error (readError message)) haccepts (body :: post)
  constructor
  · rw [hsent]
    simpa [Feed.offers, hhandle] using hoffers
  · rw [hresult]
    simpa [Feed.offers, hhandle] using hended

end Emitted

/-- The loop of `stream`, over packets of one event each with a new client. -/
def streamSingles (json : JsonParser) (singles : List Single) :
    List (Observation Delivery Draft) × Outcome Error Unit :=
  stream json ⟨singles.flatMap fun single => single.packet.bytes, {}⟩ none

/-- It sends what the loop over the bodies sends. -/
theorem sentOf_streamSingles (json : JsonParser) (singles : List Single) :
    let bodies := streamBodies json
      (some "read packet header failed: early eof") {} none
      (singles.map Single.body)
    sentOf (streamSingles json singles).1 = sentOf bodies.1 ∧
      some (streamSingles json singles).2 = bodies.2 := by
  obtain ⟨hseen, hresult⟩ := stream_eq_streamBodies json singles {} none
  refine ⟨?_, hresult⟩
  rw [streamSingles, hseen]
  exact sentOf_retell

/-- What the loop emits of the bodies, to a receiver that stays. -/
structure EmitsRows (json : JsonParser) (bodies : List EventBody) : Prop where
  accepted : Accepts json [] bodies → ∀ ended,
    sentOf (streamBodies json ended {} none bodies).1 = emitted json [] bodies ∧
      (streamBodies json ended {} none bodies).2 =
        ended.map fun message => .error (readError message)
  rejected : ∀ pre body post message, bodies = pre ++ body :: post →
    Accepts json [] pre → parsed json pre body = .error message → ∀ ended,
      sentOf (streamBodies json ended {} none bodies).1 = emitted json [] pre ∧
        (streamBodies json ended {} none bodies).2 =
          some (.error (readError message))
  acceptedPackets : ∀ singles : List Single, singles.map Single.body = bodies →
    Accepts json [] bodies →
      sentOf (streamSingles json singles).1 = emitted json [] bodies ∧
        (streamSingles json singles).2 =
          .error (readError "read packet header failed: early eof")
  rejectedPackets : ∀ (singles : List Single) pre body post message,
    singles.map Single.body = bodies → bodies = pre ++ body :: post →
    Accepts json [] pre → parsed json pre body = .error message →
      sentOf (streamSingles json singles).1 = emitted json [] pre ∧
        (streamSingles json singles).2 = .error (readError message)
  onePerRow : ∀ pre body post event, bodies = pre ++ body :: post →
    parsed json pre body = .ok (some event) →
      (changesFor json pre body).length = event.rowCount
  allColumns : ∀ pre body post event tableId tm, bodies = pre ++ body :: post →
    parsed json pre body = .ok (some event) →
    event.rowsTable = some tableId → latestTable pre tableId = some tm →
      ∀ row ∈ event.images, row.columns.length = tm.columnTypes.length
  cacheKept : ∀ pre body post, bodies = pre ++ body :: post →
    (∀ tm, parsed json pre body ≠ .ok (some (.tableMap tm))) →
      (stateAfter json (pre ++ [body])).tables = (stateAfter json pre).tables

theorem length_changesFor {json : JsonParser} {earlier : List EventBody}
    {body : EventBody} {event : BinlogEvent}
    (h : parsed json earlier body = .ok (some event)) :
    (changesFor json earlier body).length = event.rowCount := by
  simp only [changesFor, h]
  cases htable : event.rowsTable with
  | none => cases event <;> first | rfl | cases htable
  | some tableId =>
      rw [Option.bind_some]
      cases hlatest : latestTable earlier tableId with
      | some tm => exact event.length_changes tm
      | none =>
          have hfits := fits_of_parsed h htable
          rw [hlatest] at hfits
          exact (hfits.2 rfl).symm

theorem emitsRows (json : JsonParser) (bodies : List EventBody) :
    EmitsRows json bodies where
  accepted := sent_of_accepts
  rejected pre body post message hsplit haccepts hrejected ended := by
    rw [hsplit]
    exact sent_of_rejected haccepts hrejected post ended
  acceptedPackets singles hbodies haccepted := by
    obtain ⟨hsame, hend⟩ := sentOf_streamSingles json singles
    rw [hbodies] at hsame hend
    obtain ⟨hsent, hresult⟩ := sent_of_accepts haccepted
      (some "read packet header failed: early eof")
    exact ⟨hsame.trans hsent, Option.some.inj (hend.trans hresult)⟩
  rejectedPackets singles pre body post message hbodies hsplit haccepts
      hrejected := by
    obtain ⟨hsame, hend⟩ := sentOf_streamSingles json singles
    rw [hbodies, hsplit] at hsame hend
    obtain ⟨hsent, hresult⟩ := sent_of_rejected haccepts hrejected post
      (some "read packet header failed: early eof")
    exact ⟨hsame.trans hsent, Option.some.inj (hend.trans hresult)⟩
  onePerRow _ _ _ _ _ hevent := length_changesFor hevent
  allColumns _ _ _ event tableId tm _ hevent htable hlatest := by
    have hfits := fits_of_parsed hevent htable
    rw [hlatest] at hfits
    exact hfits.1
  cacheKept pre body _ _ hother := by
    rw [stateAfter_append_singleton, tables_parseEvent,
      announced_eq_none _ _ hother]

end OpenCdc.Mysql
