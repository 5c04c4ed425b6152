import OpenCdc.Core.Offset
import OpenCdc.Postgres.Relations
import OpenCdc.Postgres.Types
import OpenCdc.Postgres.Wire

/-!
# The replication streamer

`process_chunk` dispatches on the first byte of a chunk of the replication
stream: a keepalive moves the WAL position, everything else goes to the
decoder.  Row messages become change events through the relation cache.
-/

namespace OpenCdc.Postgres

open Foundation Json

/-! ## From tuples to events -/

def columnToJson (parseJson : String → Option Value) (typeOid : UInt32)
    (column : TupleColumn) : Value :=
  if column.isNull || column.isUnchangedToast then .null
  else
    match column.value with
    | some raw => pgTypeToJson parseJson raw typeOid
    | none => .null

/-- `columns_to_json`: the loop ends with the shorter of the two lists. -/
def columnsToJson (parseJson : String → Option Value)
    (columns : List RelationColumn) (tuple : List TupleColumn) : Value :=
  .object ((columns.zip tuple).foldl (fun map pair =>
    Map.insert map pair.1.name (columnToJson parseJson pair.1.typeOid pair.2))
    [])

/-- What a streamer is given: the database of its configuration and the JSON
parser. -/
structure StreamerConfig where
  database : String
  parseJson : String → Option Value

def sourceOf (config : StreamerConfig) (rel : RelationMessage)
    (clock : ClockReading) : SourceInfo :=
  SourceInfo.new .postgres config.database (some rel.schema) rel.name
    clock.source

/-- The change event that a decoded message is sent as, if its relation is in
the cache. -/
def rowEvent (config : StreamerConfig) (clock : ClockReading)
    (decoder : PgOutputDecoder) : PgOutputMessage → Option ChangeEvent
  | .insert msg =>
      (decoder.getRelation msg.relationOid).map fun rel =>
        ChangeEvent.create
          (columnsToJson config.parseJson rel.columns msg.newTuple)
          (sourceOf config rel clock) clock.event
  | .update msg =>
      (decoder.getRelation msg.relationOid).map fun rel =>
        ChangeEvent.update
          (msg.oldTuple.map (columnsToJson config.parseJson rel.columns))
          (columnsToJson config.parseJson rel.columns msg.newTuple)
          (sourceOf config rel clock) clock.event
  | .delete msg =>
      (decoder.getRelation msg.relationOid).map fun rel =>
        ChangeEvent.delete
          (columnsToJson config.parseJson rel.columns msg.oldTuple)
          (sourceOf config rel clock) clock.event
  | _ => none

/-! ## Chunks -/

/-- The decoder and the WAL position of `process_stream`. -/
structure StreamerState where
  decoder : PgOutputDecoder := {}
  walLsn : Option Int64 := none

/-- What one call does: its result, the events it sends, the state after it. -/
structure ChunkEffect where
  result : Outcome Error Unit
  sent : List ChangeEvent
  state : StreamerState

/-- `process_keepalive` -/
def processKeepalive (data : Bytes) (walLsn : Option Int64) : Option Int64 :=
  if 9 ≤ data.length then
    some (UInt64.ofNat (Bytes.ofBe ((data.drop 1).take 8))).toInt64
  else walLsn

def walLsnAfter (msg : PgOutputMessage) (walLsn : Option Int64) :
    Option Int64 :=
  match msg with
  | .begin begin => some begin.lsn
  | .commit commit => some commit.endLsn
  | _ => walLsn

def processChunk (config : StreamerConfig) (clock : ClockReading)
    (state : StreamerState) (data : Bytes) : ChunkEffect :=
  match data with
  | [] => ⟨.ok (), [], state⟩
  | tag :: rest =>
      if tag = tagByte 'k' then
        ⟨.ok (), [], { state with
          walLsn := processKeepalive (tag :: rest) state.walLsn }⟩
      else
        let (result, decoder) := state.decoder.decode (tag :: rest)
        match result with
        | .ok (some msg) =>
            ⟨.ok (), (rowEvent config clock decoder msg).toList,
              ⟨decoder, walLsnAfter msg state.walLsn⟩⟩
        | .ok none => ⟨.ok (), [], { state with decoder := decoder }⟩
        | .error e =>
            ⟨.error (.other ("pgoutput decode error: " ++ e.display)), [],
              { state with decoder := decoder }⟩
        | .panicked => ⟨.panicked, [], { state with decoder := decoder }⟩

/-! ## Payloads and the frames that carry them -/

/-- The event in the result of a `decode` call. -/
def resultEvent (config : StreamerConfig) (clock : ClockReading)
    (decoder : PgOutputDecoder) :
    Outcome Error (Option PgOutputMessage) → Option ChangeEvent
  | .ok (some msg) => rowEvent config clock decoder msg
  | _ => none

/-- Decoding a payload: the decoder after it and the events of its message. -/
def decodePayload (config : StreamerConfig) (clock : ClockReading)
    (decoder : PgOutputDecoder) (payload : Bytes) :
    PgOutputDecoder × List ChangeEvent :=
  let (result, decoder') := decoder.decode payload
  (decoder', (resultEvent config clock decoder' result).toList)

/-- The XLogData frame of the streaming replication protocol. -/
def xLogData (startLsn endLsn clock : UInt64) (payload : Bytes) : Bytes :=
  tagByte 'w' :: (Bytes.toBe 8 startLsn.toNat ++ Bytes.toBe 8 endLsn.toNat ++
    Bytes.toBe 8 clock.toNat ++ payload)

/-- The decoder and the events after a chunk. -/
def ChunkEffect.observed (effect : ChunkEffect) :
    PgOutputDecoder × List ChangeEvent :=
  (effect.state.decoder, effect.sent)

/-- A chunk that is not a keepalive is handed to the decoder as it is. -/
theorem processChunk_eq_decodePayload (config : StreamerConfig)
    (clock : ClockReading) (state : StreamerState) {data : Bytes}
    (hdata : data.head? ≠ some (tagByte 'k')) :
    (processChunk config clock state data).observed =
      decodePayload config clock state.decoder data := by
  cases data with
  | nil => rfl
  | cons tag rest =>
      have htag : tag ≠ tagByte 'k' := by
        rintro rfl
        exact hdata rfl
      simp only [processChunk, if_neg htag, decodePayload]
      cases (state.decoder.decode (tag :: rest)).1 with
      | error e => rfl
      | panicked => rfl
      | ok message =>
          cases message with
          | none => rfl
          | some msg => rfl

/-- The decoder knows no message of type `'w'`, so the whole frame passes for
no message. -/
theorem processChunk_xLogData (config : StreamerConfig) (clock : ClockReading)
    (state : StreamerState) (startLsn endLsn sendTime : UInt64)
    (payload : Bytes) :
    processChunk config clock state
        (xLogData startLsn endLsn sendTime payload) =
      ⟨.ok (), [], state⟩ := by
  rfl

/-- The relation a row message is about. -/
def WireMessage.rowOid : WireMessage → Option UInt32
  | .insert relationOid _ => some relationOid
  | .update relationOid _ _ => some relationOid
  | .delete relationOid _ _ => some relationOid
  | _ => none

theorem rowEvent_message_eq_none_iff (config : StreamerConfig)
    (clock : ClockReading) (decoder : PgOutputDecoder) (w : WireMessage) :
    rowEvent config clock decoder w.message = none ↔
      ∀ oid, w.rowOid = some oid → decoder.getRelation oid = none := by
  cases w <;> simp [rowEvent, WireMessage.message, WireMessage.rowOid]

theorem decode_decoder_eq_iff (decoder : PgOutputDecoder) (data : Bytes) :
    (decoder.decode data).2 = decoder ↔
      PgOutputDecoder.announcement data = none := by
  have hrelations := (PgOutputDecoder.decode_relations decoder data).2
  constructor
  · intro hsame
    rw [hsame] at hrelations
    simpa using hrelations
  · intro hnone
    rw [hnone] at hrelations
    have hsame : (decoder.decode data).2.relations = decoder.relations := by
      simpa using hrelations
    exact congrArg PgOutputDecoder.mk hsame

/-- A payload without effect: neither a relation message nor a row message of
a relation in the cache. -/
theorem decodePayload_eq_self_iff (config : StreamerConfig)
    (clock : ClockReading) (decoder : PgOutputDecoder) (payload : Bytes) :
    decodePayload config clock decoder payload = (decoder, []) ↔
      PgOutputDecoder.announcement payload = none ∧
        ∀ w : WireMessage, w.encode <+: payload →
          ∀ oid, w.rowOid = some oid → decoder.getRelation oid = none := by
  have hresult := (PgOutputDecoder.decode_relations decoder payload).1
  simp only [decodePayload, Prod.mk.injEq, decode_decoder_eq_iff,
    Option.toList_eq_nil_iff]
  apply and_congr_right
  intro hnone
  have hsame := (decode_decoder_eq_iff decoder payload).mpr hnone
  rw [hnone] at hresult
  rw [hsame]
  constructor
  · intro hevent w hw
    rw [PgOutputDecoder.decode_complete decoder hw] at hevent
    exact (rowEvent_message_eq_none_iff config clock decoder w).mp hevent
  · intro hquiet
    cases hdecode : (decoder.decode payload).1 with
    | error e => rfl
    | panicked => rfl
    | ok message =>
        cases message with
        | none => rfl
        | some m =>
            have hm : ∀ msg, m ≠ .relation msg := by
              rintro msg rfl
              rw [hdecode] at hresult
              cases hresult
            obtain ⟨w, rfl, hw⟩ :=
              PgOutputDecoder.decode_sound hdecode hm
            exact (rowEvent_message_eq_none_iff config clock decoder w).mpr
              (hquiet w hw)

/-- The frame has the effect of the payload it carries. -/
def FrameTransparent (config : StreamerConfig) (clock : ClockReading)
    (state : StreamerState) (startLsn endLsn sendTime : UInt64)
    (payload : Bytes) : Prop :=
  (processChunk config clock state
      (xLogData startLsn endLsn sendTime payload)).observed =
    decodePayload config clock state.decoder payload

/-- A row inserted into a cached relation is lost in its frame. -/
theorem not_frameTransparent_insert :
    ¬FrameTransparent ⟨"db", fun _ => none⟩ ⟨0, 0⟩
      ⟨⟨[⟨1, "public", "t", []⟩]⟩, none⟩ 16 24 0
      [73, 0, 0, 0, 1, 78, 0, 0] := by
  intro h
  have hsent := congrArg (fun observed => observed.2.length) h
  revert hsent
  decide

/-- An XLogData frame has the effect of its payload exactly when the payload
has none: it is no relation message, and no row message of a relation that the
decoder knows. -/
theorem frameTransparent_iff (config : StreamerConfig) (clock : ClockReading)
    (state : StreamerState) (startLsn endLsn sendTime : UInt64)
    (payload : Bytes) :
    FrameTransparent config clock state startLsn endLsn sendTime payload ↔
      PgOutputDecoder.announcement payload = none ∧
        ∀ w : WireMessage, w.encode <+: payload →
          ∀ oid, w.rowOid = some oid →
            state.decoder.getRelation oid = none := by
  rw [FrameTransparent, processChunk_xLogData, ChunkEffect.observed]
  exact eq_comm.trans
    (decodePayload_eq_self_iff config clock state.decoder payload)

end OpenCdc.Postgres
