import OpenCdc.Core.ChangeEvent
import OpenCdc.Core.Error
import OpenCdc.Foundation.Feed
import OpenCdc.Foundation.Keyed
import OpenCdc.Mysql.Packets

/-!
# The MySQL streaming loop

`MySqlConnector::stream` turns each rows event into one change event for each
row, with the names of the table map that the parser remembers.
-/

namespace OpenCdc.Mysql

open Foundation Json

/-! ## From rows to change events -/

/-- `format!("col_{}", i)` -/
def columnKey (i : ℕ) : String := String.ofList ("col_".toList ++ Nat.toDigits 10 i)

theorem columnKey_toList (i : ℕ) :
    (columnKey i).toList = "col_".toList ++ Nat.toDigits 10 i :=
  String.toList_ofList

/-- The loop over the columns of the table, of which the row may have fewer. -/
def rowObject (tm : TableMapEvent) (row : RowEvent) : Value :=
  .object (tm.columnTypes.zipIdx.foldl (fun obj (_, i) =>
    match row.columns[i]? with
    | some value => Map.insert obj (columnKey i) value
    | none => obj) [])

def sourceOf (tm : TableMapEvent) (clock : ClockReading) : SourceInfo :=
  SourceInfo.new .mysql tm.database none tm.table clock.source

/-- The change events that the loop builds for an event, if it knows the
table. -/
def changesOf (tables : UInt64 → Option TableMapEvent) :
    BinlogEvent → List Draft
  | .writeRows tableId rows =>
      match tables tableId with
      | some tm => rows.map fun row clock =>
          ChangeEvent.create (rowObject tm row) (sourceOf tm clock) clock.event
      | none => []
  | .updateRows tableId rows =>
      match tables tableId with
      | some tm => rows.map fun row clock =>
          ChangeEvent.update (some (rowObject tm row.1)) (rowObject tm row.2)
            (sourceOf tm clock) clock.event
      | none => []
  | .deleteRows tableId rows =>
      match tables tableId with
      | some tm => rows.map fun row clock =>
          ChangeEvent.delete (rowObject tm row) (sourceOf tm clock) clock.event
      | none => []
  | _ => []

/-! ## The loop -/

def readError (message : String) : Error :=
  .other ("read event: " ++ message)

/-- The loop of `stream`: what it does and what it returns. -/
def stream (json : JsonParser) (client : BinlogClient) (room : Room) :
    List (Observation Delivery Draft) × Outcome Error Unit :=
  match _hnext : nextEvent json client with
  | (.error message, _) => ([], .error (readError message))
  | (.panicked, _) => ([], .panicked)
  | (.ok none, client') => stream json client' room
  | (.ok (some (header, event)), client') =>
      -- a refused send breaks out of the loop over the rows only
      let (seen, room', _) :=
        room.sendWhile (changesOf client'.state.tables event)
      let (rest, result) := stream json client' room'
      (.read (header, event) :: (seen ++ rest), result)
termination_by client.stream.length
decreasing_by
  all_goals exact length_lt_of_nextEvent_eq_ok _hnext

/-- What `parse_event` is given of an event. -/
abbrev EventBody := EventHeader × Bytes

/-- The loop over the bodies that are parsed one after the other.  Behind them
reading fails with the message, if there is one, or waits. -/
def streamBodies (json : JsonParser) (ended : Option String) :
    ParserState → Room → List EventBody →
      List (Observation EventBody Draft) × Option (Outcome Error Unit)
  | _, _, [] => ([], ended.map fun message => .error (readError message))
  | state, room, (header, data) :: bodies =>
      match parseEvent json state header data with
      | (.error message, _) =>
          ([.read (header, data)], some (.error (readError message)))
      | (.panicked, _) => ([.read (header, data)], some .panicked)
      | (.ok event, state') =>
          let (seen, room', _) := room.sendWhile
            ((event.map (changesOf state'.tables)).getD [])
          let (rest, result) := streamBodies json ended state' room' bodies
          (.read (header, data) :: (seen ++ rest), result)

/-- The loop as one that feeds a channel. -/
def streamFeed (json : JsonParser) :
    Feed EventBody Draft ParserState (Outcome Error Unit) where
  handle state body :=
    match parseEvent json state body.1 body.2 with
    | (.error message, _) => ([], .inr (.error (readError message)))
    | (.panicked, _) => ([], .inr .panicked)
    | (.ok event, state') =>
        ((event.map (changesOf state'.tables)).getD [], .inl state')
  onRefusal := .leaveItem
  closed := .ok ()

theorem streamBodies_eq_run (json : JsonParser) (ended : Option String)
    (state : ParserState) (room : Room) (bodies : List EventBody) :
    streamBodies json ended state room bodies =
      (streamFeed json).run
        (ended.map fun message => .error (readError message)) state room
        bodies := by
  induction bodies generalizing state room with
  | nil => rfl
  | cons body bodies ih =>
      rcases hparse : parseEvent json state body.1 body.2 with
        ⟨event | message | _, state'⟩
      · simp only [streamBodies, Feed.run, streamFeed, hparse, Feed.sendItem,
          Bool.false_eq_true, if_false]
        rw [ih]
        rfl
      · simp [streamBodies, Feed.run, streamFeed, hparse, Feed.sendItem,
          Room.sendWhile]
      · simp [streamBodies, Feed.run, streamFeed, hparse, Feed.sendItem,
          Room.sendWhile]

/-! ## Packets of one event -/

theorem stream_eq (json : JsonParser) (client : BinlogClient) (room : Room) :
    stream json client room =
      match nextEvent json client with
      | (.error message, _) => ([], .error (readError message))
      | (.panicked, _) => ([], .panicked)
      | (.ok none, client') => stream json client' room
      | (.ok (some (header, event)), client') =>
          let (seen, room', _) :=
            room.sendWhile (changesOf client'.state.tables event)
          let (rest, result) := stream json client' room'
          (.read (header, event) :: (seen ++ rest), result) := by
  rw [stream]
  split <;> rename_i hnext <;> rw [hnext]

theorem stream_congr {json : JsonParser} {client client' : BinlogClient}
    (h : nextEvent json client = nextEvent json client') (room : Room) :
    stream json client room = stream json client' room := by
  rw [stream_eq, stream_eq, h]

/-- A packet of one event, which the client does not skip. -/
structure Single where
  packet : Packet
  event : RawEvent
  events_eq : packet.events = [event]
  notSkipped : isSkipped packet.payload = false

def Single.body (single : Single) : EventBody :=
  (single.event.header, single.event.body)

/-- A call on a packet of one event. -/
theorem nextEvent_single (json : JsonParser) (state : ParserState)
    (single : Single) (rest : Bytes) :
    nextEvent json ⟨single.packet.bytes ++ rest, state⟩ =
      match parseEvent json state single.body.1 single.body.2 with
      | (.error message, state') => (.error message, ⟨rest, state'⟩)
      | (.panicked, state') => (.panicked, ⟨rest, state'⟩)
      | (.ok none, state') => nextEvent json ⟨rest, state'⟩
      | (.ok (some event), state') =>
          if event.isPassed then nextEvent json ⟨rest, state'⟩
          else (.ok (some (single.body.1, event)), ⟨rest, state'⟩) := by
  obtain ⟨packet, e, hevents, hskip⟩ := single
  have hpayload : packet.payload = e.encode := by
    simp [Packet.payload, hevents]
  have hloop := eventLoop_eq json state
    (show e.encode <+: packet.payload.drop 0 by simp [hpayload])
  have hcall : nextEvent json ⟨packet.bytes ++ rest, state⟩ = _ :=
    nextEvent_frame packet.length_lt packet.payload_ne_nil
  have hend : ∀ state', eventLoop json state' packet.payload
      (0 + e.encode.length) = (.ok none, state') := by
    intro state'
    rw [eventLoop, dif_neg (by rw [hpayload]; omega)]
  have hskip' : ¬ isSkipped packet.payload := by simp [hskip]
  rw [if_neg hskip', hloop] at hcall
  dsimp only [Single.body]
  rw [hcall]
  rcases parseEvent json state e.header e.body with
    ⟨(_ | event) | message | _, state'⟩
  · simp only [hend]
  · by_cases hpassed : event.isPassed
    · simp only [hpassed, if_true, hend]
    · simp only [hpassed, Bool.false_eq_true, if_false]
  · rfl
  · rfl

/-- An event that `next_event` does not return has no rows. -/
theorem changesOf_of_isPassed {event : BinlogEvent} (h : event.isPassed)
    (tables : UInt64 → Option TableMapEvent) : changesOf tables event = [] := by
  cases event with
  | rotate => rfl
  | formatDescription => rfl
  | _ => exact absurd h (by simp [BinlogEvent.isPassed])

/-- What a call of `next_event` tells the loop of a body: the event, if it is one
that the call returns. -/
def tellDelivery (json : JsonParser) (state : ParserState) (body : EventBody) :
    Option Delivery × ParserState :=
  match parseEvent json state body.1 body.2 with
  | (.ok (some event), state') =>
      (if event.isPassed then none else some (body.1, event), state')
  | (_, state') => (none, state')

/-- Over packets of one event the loop does what it does over their bodies, but
for the reads of those that `next_event` keeps to itself, and returns when there
are no packets left. -/
theorem stream_eq_streamBodies (json : JsonParser) (singles : List Single)
    (state : ParserState) (room : Room) :
    let run := stream json
      ⟨singles.flatMap fun single => single.packet.bytes, state⟩ room
    let bodies := streamBodies json
      (some "read packet header failed: early eof") state room
      (singles.map Single.body)
    run.1 = retell (tellDelivery json) state bodies.1 ∧
      some run.2 = bodies.2 := by
  induction singles generalizing state room with
  | nil =>
      simp only [List.flatMap_nil, List.map_nil, streamBodies]
      rw [stream_eq, nextEvent_nil]
      exact ⟨rfl, rfl⟩
  | cons single singles ih =>
      have hcall := nextEvent_single json state single
        (singles.flatMap fun single => single.packet.bytes)
      simp only [List.flatMap_cons, List.map_cons, streamBodies]
      rcases hparse : parseEvent json state single.body.1 single.body.2 with
        ⟨(_ | event) | message | _, state'⟩
      · have htell : tellDelivery json state single.body = (none, state') := by
          simp only [tellDelivery, hparse]
        rw [hparse] at hcall
        rw [stream_congr hcall]
        simp only [retell, htell]
        exact ih state' room
      · by_cases hpassed : event.isPassed
        · have htell : tellDelivery json state single.body = (none, state') := by
            simp only [tellDelivery, hparse, hpassed, if_true]
          rw [hparse] at hcall
          dsimp only at hcall
          rw [if_pos hpassed] at hcall
          rw [stream_congr hcall]
          simp only [Option.map_some, Option.getD_some,
            changesOf_of_isPassed hpassed, retell, htell]
          exact ih state' room
        · have htell : tellDelivery json state single.body =
              (some (single.body.1, event), state') := by
            simp only [tellDelivery, hparse, hpassed, Bool.false_eq_true,
              if_false]
          rw [hparse] at hcall
          dsimp only at hcall
          rw [if_neg hpassed] at hcall
          rw [stream_eq, hcall]
          have htold := fun trace => retell_sendWhile (tellDelivery json) state'
            trace room (changesOf state'.tables event)
          have hroom := congrArg Prod.fst (htold []).2
          obtain ⟨hrest, hresult⟩ := ih state' (room.sendWhile
            (ι := Delivery) (changesOf state'.tables event)).2.1
          dsimp only [Option.map_some, Option.getD_some]
          rw [← hroom]
          refine ⟨?_, hresult⟩
          simp only [retell, htell, (htold _).1, hrest]
      · rw [hparse] at hcall
        rw [stream_eq, hcall]
        refine ⟨?_, rfl⟩
        simp only [retell, tellDelivery, hparse]
      · rw [hparse] at hcall
        rw [stream_eq, hcall]
        refine ⟨?_, rfl⟩
        simp only [retell, tellDelivery, hparse]

/-! ## Every column of a row has a value -/

section Widths

variable {ε : Type}

/-- A value in front of the values of the other columns. -/
theorem exists_of_readRest {json : JsonParser} {data : Bytes}
    {columns : List (Bool × UInt8 × UInt16)} {val : Value} {next n : ℕ}
    {values : List Value}
    (h : (do
      let (rest, stop) ← readColumns (ε := ε) json data columns next
      return (val :: rest, stop)) = .ok (values, n)) :
    ∃ val next rest, readColumns (ε := ε) json data columns next =
      .ok (rest, n) ∧ values = val :: rest := by
  obtain ⟨⟨rest, stop⟩, hcolumns, hvalues⟩ := Outcome.bind_eq_ok.mp h
  simp only [Outcome.pure_eq, Outcome.ok.injEq, Prod.mk.injEq] at hvalues
  obtain ⟨rfl, rfl⟩ := hvalues
  exact ⟨val, next, rest, hcolumns, rfl⟩

/-- In every branch the column loop adds one value and goes on. -/
theorem readColumns_cons_eq_ok {json : JsonParser} {data : Bytes}
    {column : Bool × UInt8 × UInt16} {columns : List (Bool × UInt8 × UInt16)}
    {pos n : ℕ} {values : List Value}
    (h : readColumns (ε := ε) json data (column :: columns) pos =
      .ok (values, n)) :
    ∃ val next rest, readColumns (ε := ε) json data columns next =
      .ok (rest, n) ∧ values = val :: rest := by
  unfold readColumns at h
  dsimp only at h
  split_ifs at h
  · exact exists_of_readRest h
  · obtain ⟨bytes, -, hval⟩ := Outcome.bind_eq_ok.mp h
    obtain ⟨val, -, hrest⟩ := Outcome.bind_eq_ok.mp hval
    exact exists_of_readRest hrest
  · obtain ⟨⟨val, m⟩, -, hrest⟩ := Outcome.bind_eq_ok.mp h
    exact exists_of_readRest hrest
  · exact exists_of_readRest h

theorem length_of_readColumns {json : JsonParser} {data : Bytes}
    {columns : List (Bool × UInt8 × UInt16)} {pos n : ℕ} {values : List Value}
    (h : readColumns (ε := ε) json data columns pos = .ok (values, n)) :
    values.length = columns.length := by
  induction columns generalizing pos n values with
  | nil =>
      simp only [readColumns, Outcome.pure_eq, Outcome.ok.injEq,
        Prod.mk.injEq] at h
      rw [← h.1]
      rfl
  | cons column columns ih =>
      obtain ⟨val, next, rest, hrest, rfl⟩ := readColumns_cons_eq_ok h
      rw [List.length_cons, List.length_cons, ih hrest]

/-- A row that takes bytes has a value for each column. -/
theorem length_of_readRow {json : JsonParser} {data : Bytes}
    {columnTypes : List UInt8} {metas : List UInt16} {n : ℕ}
    {values : List Value} (hn : n ≠ 0)
    (h : readRow (ε := ε) json data columnTypes metas = .ok (values, n)) :
    values.length = columnTypes.length := by
  unfold readRow at h
  dsimp only at h
  split_ifs at h
  · simp only [Outcome.pure_eq, Outcome.ok.injEq, Prod.mk.injEq] at h
    exact absurd h.2.symm hn
  · simp only [Outcome.pure_eq, Outcome.ok.injEq, Prod.mk.injEq] at h
    exact absurd h.2.symm hn
  · have hlength := length_of_readColumns h
    simpa using hlength

/-- Every row of an event has as many values as the table has columns. -/
theorem length_of_readRows {json : JsonParser} {data : Bytes}
    {columnTypes : List UInt8} {metas : List UInt16} {pos : ℕ}
    {rows : List RowEvent}
    (h : readRows (ε := ε) json data columnTypes metas pos = .ok rows) :
    ∀ row ∈ rows, row.columns.length = columnTypes.length := by
  induction hn : data.length - pos using Nat.strong_induction_on
    generalizing pos rows with
  | _ m ih =>
      rw [readRows] at h
      split_ifs at h with hpos
      · obtain ⟨data', -, hread⟩ := Outcome.bind_eq_ok.mp h
        obtain ⟨⟨values, n⟩, hrow, hrest⟩ := Outcome.bind_eq_ok.mp hread
        dsimp only at hrest
        split_ifs at hrest with hzero
        · cases hrest
          simp
        · obtain ⟨rest, hrows, hcons⟩ := Outcome.bind_eq_ok.mp hrest
          cases hcons
          have hstep := ih _ (by omega) hrows rfl
          intro row hmem
          rcases List.mem_cons.mp hmem with rfl | htail
          · exact length_of_readRow hzero hrow
          · exact hstep row htail
      · cases h
        simp

theorem length_of_readRowPairs {json : JsonParser} {data : Bytes}
    {columnTypes : List UInt8} {metas : List UInt16} {pos : ℕ}
    {rows : List (RowEvent × RowEvent)}
    (h : readRowPairs (ε := ε) json data columnTypes metas pos = .ok rows) :
    ∀ row ∈ rows, row.1.columns.length = columnTypes.length ∧
      row.2.columns.length = columnTypes.length := by
  induction hn : data.length - pos using Nat.strong_induction_on
    generalizing pos rows with
  | _ m ih =>
      rw [readRowPairs] at h
      split_ifs at h with hpos
      · obtain ⟨data', -, hread⟩ := Outcome.bind_eq_ok.mp h
        obtain ⟨⟨before, n⟩, hbefore, hrest⟩ := Outcome.bind_eq_ok.mp hread
        dsimp only at hrest
        split_ifs at hrest with hzero
        · cases hrest
          simp
        · obtain ⟨data'', -, hread'⟩ := Outcome.bind_eq_ok.mp hrest
          obtain ⟨⟨after, n'⟩, hafter, hrest'⟩ := Outcome.bind_eq_ok.mp hread'
          dsimp only at hrest'
          split_ifs at hrest' with hzero'
          · cases hrest'
            simp
          · obtain ⟨rest, hrows, hcons⟩ := Outcome.bind_eq_ok.mp hrest'
            cases hcons
            have hstep := ih _ (by omega) hrows rfl
            intro row hmem
            rcases List.mem_cons.mp hmem with rfl | htail
            · exact ⟨length_of_readRow hzero hbefore,
                length_of_readRow hzero' hafter⟩
            · exact hstep row htail
      · cases h
        simp

end Widths

end OpenCdc.Mysql
