import OpenCdc.Foundation.Feed
import OpenCdc.Postgres.CutOff
import OpenCdc.Postgres.Streamer

/-!
# The Postgres streaming loop

`process_stream` hands every chunk of the replication stream to
`process_chunk`.  With a receiver that stays, it sends one change event for
each row message, with the columns of the announced relation.
-/

namespace OpenCdc.Postgres

open Foundation Json

/-! ## The loop -/

/-- What the stream yields, and what the clock shows then. -/
structure StreamItem where
  clock : ClockReading
  chunk : Except String Bytes

/-- `process_stream`, on a stream that ends behind the items or waits. -/
def processStream (config : StreamerConfig) (ended : Bool) :
    StreamerState → Room → List StreamItem →
      List (Observation StreamItem ChangeEvent) × Option (Outcome Error Unit)
  | _, _, [] => ([], if ended then some (.ok ()) else none)
  | state, room, item :: items =>
      match item.chunk with
      | .error e =>
          ([.read item],
            some (.error (.other ("replication stream error: " ++ e))))
      | .ok data =>
          let effect := processChunk config item.clock state data
          -- `let _ = sink.send(event).await`
          let (seen, room') := room.sendEach effect.sent
          match effect.result with
          | .ok () =>
              let (rest, result) :=
                processStream config ended effect.state room' items
              (.read item :: (seen ++ rest), result)
          | .error e => (.read item :: seen, some (.error e))
          | .panicked => (.read item :: seen, some .panicked)

/-- The loop as one that feeds a channel. -/
def streamFeed (config : StreamerConfig) :
    Feed StreamItem ChangeEvent StreamerState (Outcome Error Unit) where
  handle state item :=
    match item.chunk with
    | .error e => ([], .inr (.error (.other ("replication stream error: " ++ e))))
    | .ok data =>
        let effect := processChunk config item.clock state data
        match effect.result with
        | .ok () => (effect.sent, .inl effect.state)
        | .error e => (effect.sent, .inr (.error e))
        | .panicked => (effect.sent, .inr .panicked)
  onRefusal := .goOn
  closed := .ok ()

theorem processStream_eq_run (config : StreamerConfig) (ended : Bool)
    (state : StreamerState) (room : Room) (items : List StreamItem) :
    processStream config ended state room items =
      (streamFeed config).run (if ended then some (.ok ()) else none) state
        room items := by
  induction items generalizing state room with
  | nil => rfl
  | cons item items ih =>
      obtain ⟨clock, e | data⟩ := item
      · simp [processStream, Feed.run, streamFeed, Feed.sendItem, Room.sendEach]
      · rcases hresult : (processChunk config clock state data).result with
          _ | e | _
        all_goals
          simp only [processStream, Feed.run, streamFeed, hresult,
            Feed.sendItem, Bool.false_eq_true, if_false]
        rw [ih]
        rfl

/-! ## What a chunk is decoded to -/

/-- The result of decoding a chunk; it does not depend on the decoder. -/
def decoded (data : Bytes) : Outcome Error (Option PgOutputMessage) :=
  (PgOutputDecoder.decode {} data).1

def Decodes (data : Bytes) : Prop := ∃ message, decoded data = .ok message

theorem decode_eq_decoded (decoder : PgOutputDecoder) (data : Bytes) :
    (decoder.decode data).1 = decoded data := by
  unfold decoded PgOutputDecoder.decode
  split
  · rfl
  · split <;> first | rfl | (split <;> rfl)

/-- The relation that a row message is about. -/
def PgOutputMessage.rowOid : PgOutputMessage → Option UInt32
  | .insert msg => some msg.relationOid
  | .update msg => some msg.relationOid
  | .delete msg => some msg.relationOid
  | _ => none

/-- The decoder knows no message that starts like a keepalive. -/
theorem decode_keepalive (decoder : PgOutputDecoder) (rest : Bytes) :
    decoder.decode (tagByte 'k' :: rest) = (.ok none, decoder) := rfl

/-- A chunk that decodes, or a keepalive: the row event of its message is
sent, and the relation that it announces is remembered. -/
theorem processChunk_of_decoded (config : StreamerConfig)
    (clock : ClockReading) (state : StreamerState) {data : Bytes}
    {message : Option PgOutputMessage} (h : decoded data = .ok message) :
    ∃ walLsn, processChunk config clock state data =
      ⟨.ok (), (message.bind (rowEvent config clock
          (state.decoder.decode data).2)).toList,
        ⟨(state.decoder.decode data).2, walLsn⟩⟩ := by
  rw [← decode_eq_decoded state.decoder] at h
  rcases data with _ | ⟨tag, rest⟩
  · cases h
    exact ⟨state.walLsn, rfl⟩
  · by_cases htag : tag = tagByte 'k'
    · subst htag
      rw [decode_keepalive] at h ⊢
      cases h
      exact ⟨_, rfl⟩
    · rcases hdecode : state.decoder.decode (tag :: rest) with
        ⟨result, decoder⟩
      rw [hdecode] at h
      dsimp only at h
      subst h
      simp only [processChunk, if_neg htag, hdecode]
      cases message with
      | none => exact ⟨_, rfl⟩
      | some msg => exact ⟨_, rfl⟩

theorem processChunk_of_failed (config : StreamerConfig)
    (clock : ClockReading) (state : StreamerState) {data : Bytes}
    (h : ¬ Decodes data) :
    (processChunk config clock state data).sent = [] ∧
      ((processChunk config clock state data).result = .panicked ∧
          CutOff data ∨
        (∃ e, (processChunk config clock state data).result = .error e) ∧
          ¬ CutOff data) := by
  have hcut := PgOutputDecoder.decode_eq_panicked_iff state.decoder data
  unfold Decodes at h
  rw [← decode_eq_decoded state.decoder] at h
  rcases data with _ | ⟨tag, rest⟩
  · exact absurd ⟨none, rfl⟩ h
  · by_cases htag : tag = tagByte 'k'
    · subst htag
      exact absurd ⟨none, rfl⟩ h
    · rcases hdecode : state.decoder.decode (tag :: rest) with
        ⟨message | e | _, decoder⟩
      · rw [hdecode] at h
        exact absurd ⟨message, rfl⟩ h
      · rw [hdecode] at hcut
        simp only [processChunk, if_neg htag, hdecode]
        refine ⟨trivial, .inr ⟨⟨_, rfl⟩, fun hoff => ?_⟩⟩
        cases hcut.mpr hoff
      · rw [hdecode] at hcut
        simp only [processChunk, if_neg htag, hdecode]
        exact ⟨trivial, .inl ⟨trivial, hcut.mp rfl⟩⟩

/-! ## The events of the chunks -/

/-- The chunks fit together: a row message follows the relation it is about,
each relation is announced in one way, and its columns have different names. -/
structure Announced (chunks : List Bytes) : Prop where
  before : ∀ pre data post msg oid, chunks = pre ++ data :: post →
    decoded data = .ok (some msg) → msg.rowOid = some oid →
      ∃ data' ∈ pre, ∃ rel,
        PgOutputDecoder.announcement data' = some rel ∧ rel.oid = oid
  once : ∀ data ∈ chunks, ∀ data' ∈ chunks, ∀ rel rel',
    PgOutputDecoder.announcement data = some rel →
    PgOutputDecoder.announcement data' = some rel' →
      rel.oid = rel'.oid → rel = rel'
  distinct : ∀ data ∈ chunks, ∀ rel,
    PgOutputDecoder.announcement data = some rel →
      (rel.columns.map RelationColumn.name).Nodup

/-- The relation that the chunks announce under an identifier. -/
def relationOf (chunks : List Bytes) (oid : UInt32) :
    Option RelationMessage :=
  firstEntry RelationMessage.oid oid
    (chunks.filterMap PgOutputDecoder.announcement)

/-- The columns of a tuple, as far as the relation has names for them. -/
def rowEntries (config : StreamerConfig) (rel : RelationMessage)
    (tuple : List TupleColumn) : Map :=
  (rel.columns.zip tuple).map fun (column, value) =>
    (column.name, columnToJson config.parseJson column.typeOid value)

/-- The change event of a row message about a relation. -/
def rowChange (config : StreamerConfig) (clock : ClockReading)
    (rel : RelationMessage) : PgOutputMessage → Option ChangeEvent
  | .insert msg => some (ChangeEvent.create
      (.object (rowEntries config rel msg.newTuple))
      (sourceOf config rel clock) clock.event)
  | .update msg => some (ChangeEvent.update
      (msg.oldTuple.map fun tuple => .object (rowEntries config rel tuple))
      (.object (rowEntries config rel msg.newTuple))
      (sourceOf config rel clock) clock.event)
  | .delete msg => some (ChangeEvent.delete
      (.object (rowEntries config rel msg.oldTuple))
      (sourceOf config rel clock) clock.event)
  | _ => none

/-- The change event of a chunk. -/
def changeOf (config : StreamerConfig)
    (relations : UInt32 → Option RelationMessage) (clock : ClockReading)
    (data : Bytes) : Option ChangeEvent :=
  match decoded data with
  | .ok (some msg) =>
      (msg.rowOid.bind relations).bind fun rel => rowChange config clock rel msg
  | _ => none

/-- A chunk with what the clock shows when it comes. -/
abbrev Chunk := ClockReading × Bytes

def Chunk.item (chunk : Chunk) : StreamItem := ⟨chunk.1, .ok chunk.2⟩

/-- The change events of chunks, one for each row message. -/
def changes (config : StreamerConfig)
    (relations : UInt32 → Option RelationMessage) (chunks : List Chunk) :
    List ChangeEvent :=
  chunks.filterMap fun chunk => changeOf config relations chunk.1 chunk.2

theorem columnsToJson_eq (config : StreamerConfig) {rel : RelationMessage}
    (h : (rel.columns.map RelationColumn.name).Nodup)
    (tuple : List TupleColumn) :
    columnsToJson config.parseJson rel.columns tuple =
      .object (rowEntries config rel tuple) := by
  have hkeys : ((rowEntries config rel tuple).map Prod.fst).Nodup := by
    have hfst : (rowEntries config rel tuple).map Prod.fst =
        ((rel.columns.zip tuple).map Prod.fst).map RelationColumn.name := by
      simp [rowEntries]
    rw [hfst, List.zip_eq_zip_take_min, List.map_fst_zip (by simp)]
    exact h.sublist ((List.take_sublist _ _).map _)
  unfold columnsToJson
  rw [← Map.foldl_insert hkeys]
  simp [rowEntries, List.foldl_map]

/-- With the announced relation in the cache, the message becomes its
event. -/
theorem rowEvent_eq {config : StreamerConfig} {clock : ClockReading}
    {decoder : PgOutputDecoder} {msg : PgOutputMessage}
    (relations : UInt32 → Option RelationMessage)
    (hcache : ∀ oid, msg.rowOid = some oid →
      decoder.getRelation oid = relations oid)
    (hdistinct : ∀ oid rel, relations oid = some rel →
      (rel.columns.map RelationColumn.name).Nodup) :
    rowEvent config clock decoder msg =
      (msg.rowOid.bind relations).bind fun rel =>
        rowChange config clock rel msg := by
  cases msg with
  | insert msg =>
      simp only [rowEvent, PgOutputMessage.rowOid, Option.bind_some,
        hcache _ rfl]
      cases hrel : relations msg.relationOid with
      | none => rfl
      | some rel =>
          simp [rowChange, columnsToJson_eq config (hdistinct _ rel hrel)]
  | update msg =>
      simp only [rowEvent, PgOutputMessage.rowOid, Option.bind_some,
        hcache _ rfl]
      cases hrel : relations msg.relationOid with
      | none => rfl
      | some rel =>
          have hcolumns := columnsToJson_eq config
            (hdistinct _ rel hrel)
          simp [rowChange, hcolumns, funext hcolumns]
  | delete msg =>
      simp only [rowEvent, PgOutputMessage.rowOid, Option.bind_some,
        hcache _ rfl]
      cases hrel : relations msg.relationOid with
      | none => rfl
      | some rel =>
          simp [rowChange, columnsToJson_eq config (hdistinct _ rel hrel)]
  | _ => rfl

/-! ## Runs over chunks that fit together -/

section Runs

variable {config : StreamerConfig} {all : List Chunk}

/-- The decoder remembers what the chunks have announced. -/
def Remembers (state : StreamerState) (chunks : List Chunk) : Prop :=
  state.decoder.relations =
    (chunks.map Prod.snd).filterMap PgOutputDecoder.announcement

theorem announcement_eq_decodedRelation (data : Bytes) :
    PgOutputDecoder.announcement data =
      PgOutputDecoder.decodedRelation (decoded data) :=
  (PgOutputDecoder.decode_relations {} data).1.symm

/-- Behind its relation, a row message finds the relation in the cache. -/
theorem getRelation_eq_relationOf {pre post : List Chunk} {chunk : Chunk}
    {decoder : PgOutputDecoder} {msg : PgOutputMessage} {oid : UInt32}
    (hall : Announced (all.map Prod.snd)) (hsplit : all = pre ++ chunk :: post)
    (hrelations : decoder.relations =
      (pre.map Prod.snd).filterMap PgOutputDecoder.announcement)
    (hmsg : decoded chunk.2 = .ok (some msg)) (hoid : msg.rowOid = some oid) :
    decoder.getRelation oid = relationOf (all.map Prod.snd) oid := by
  obtain ⟨data, hdata, rel, hrel, rfl⟩ := hall.before (pre.map Prod.snd)
    chunk.2 (post.map Prod.snd) msg oid (by simp [hsplit]) hmsg hoid
  have hfirst : decoder.getRelation rel.oid = firstEntry RelationMessage.oid
      rel.oid ((pre.map Prod.snd).filterMap PgOutputDecoder.announcement) := by
    rw [PgOutputDecoder.getRelation, hrelations]
    rfl
  have hpre : (pre.map Prod.snd).filterMap PgOutputDecoder.announcement <+:
      (all.map Prod.snd).filterMap PgOutputDecoder.announcement := by
    rw [hsplit, List.map_append, List.filterMap_append]
    exact List.prefix_append _ _
  obtain ⟨rel', hfound⟩ := exists_firstEntry RelationMessage.oid
    (List.mem_filterMap.mpr ⟨data, hdata, hrel⟩)
  rw [hfirst, hfound]
  exact (firstEntry_of_isPrefix hpre hfound).symm

/-- A relation that is found has columns with different names. -/
theorem nodup_of_relationOf (hall : Announced (all.map Prod.snd))
    {oid : UInt32} {rel : RelationMessage}
    (h : relationOf (all.map Prod.snd) oid = some rel) :
    (rel.columns.map RelationColumn.name).Nodup := by
  obtain ⟨data, hdata, hrel⟩ :=
    List.mem_filterMap.mp (List.mem_of_find?_eq_some h)
  exact hall.distinct data hdata rel hrel

theorem handle_of_decodes (config : StreamerConfig)
    (hall : Announced (all.map Prod.snd))
    {pre post : List Chunk} {chunk : Chunk} {state : StreamerState}
    (hsplit : all = pre ++ chunk :: post) (hstate : Remembers state pre)
    (hchunk : Decodes chunk.2) :
    ∃ state', (streamFeed config).handle state chunk.item =
        ((changeOf config (relationOf (all.map Prod.snd)) chunk.1
          chunk.2).toList, .inl state') ∧
      Remembers state' (pre ++ [chunk]) := by
  obtain ⟨message, hmessage⟩ := hchunk
  obtain ⟨walLsn, heffect⟩ :=
    processChunk_of_decoded config chunk.1 state hmessage
  obtain ⟨-, hrelations⟩ :=
    PgOutputDecoder.decode_relations state.decoder chunk.2
  rw [hstate] at hrelations
  refine ⟨⟨(state.decoder.decode chunk.2).2, walLsn⟩, ?_, ?_⟩
  · simp only [streamFeed, Chunk.item, heffect, changeOf, hmessage]
    cases message with
    | none => rfl
    | some msg =>
        have hevent : rowEvent config chunk.1
            (state.decoder.decode chunk.2).2 msg = _ :=
          rowEvent_eq (relationOf (all.map Prod.snd)) ?_
            fun oid rel hrel => nodup_of_relationOf hall hrel
        · rw [Option.bind_some, hevent]
        · intro oid hoid
          -- a row message announces nothing, so the cache is that of before
          have hnone : PgOutputDecoder.announcement chunk.2 = none := by
            rw [announcement_eq_decodedRelation, hmessage]
            cases msg <;> first | rfl | cases hoid
          rw [hnone] at hrelations
          exact getRelation_eq_relationOf hall hsplit
            (by simpa using hrelations) hmessage hoid
  · unfold Remembers
    rw [hrelations]
    cases hannounced : PgOutputDecoder.announcement chunk.2 <;>
      simp [hannounced]

/-- Chunks that decode are passed over with the events of their rows. -/
theorem offers_of_decodes (config : StreamerConfig)
    (hall : Announced (all.map Prod.snd))
    (ended : Option (Outcome Error Unit)) {pre chunks : List Chunk}
    {state : StreamerState} (hstate : Remembers state pre)
    (hchunks : ∀ chunk ∈ chunks, Decodes chunk.2) (rest : List Chunk)
    (hsplit : all = pre ++ (chunks ++ rest)) :
    ∃ state',
      ((streamFeed config).offers ended state
          ((chunks ++ rest).map Chunk.item)).1.flatten =
        changes config (relationOf (all.map Prod.snd)) chunks ++
          ((streamFeed config).offers ended state'
            (rest.map Chunk.item)).1.flatten ∧
      ((streamFeed config).offers ended state
          ((chunks ++ rest).map Chunk.item)).2 =
        ((streamFeed config).offers ended state' (rest.map Chunk.item)).2 := by
  induction chunks generalizing pre state with
  | nil => exact ⟨state, rfl, rfl⟩
  | cons chunk chunks ih =>
      obtain ⟨state', hhandle, hstate'⟩ := handle_of_decodes config
        hall hsplit hstate (hchunks chunk (by simp))
      obtain ⟨final, hsent, hresult⟩ := ih hstate'
        (fun other hother => hchunks other (by simp [hother]))
        (by simpa using hsplit)
      refine ⟨final, ?_, ?_⟩
      · simp only [List.cons_append, List.map_cons, Feed.offers, hhandle,
          List.flatten_cons, hsent]
        cases hchange : changeOf config (relationOf (all.map Prod.snd))
          chunk.1 chunk.2 <;> simp [changes, hchange]
      · simpa only [List.cons_append, List.map_cons, Feed.offers, hhandle]
          using hresult

end Runs

/-! ## What is emitted -/

/-- What the loop emits of the chunks, to a receiver that stays. -/
structure StreamsRows (config : StreamerConfig) (chunks : List Chunk) :
    Prop where
  accepted : (∀ chunk ∈ chunks, Decodes chunk.2) → ∀ ended,
    let run := processStream config ended {} none (chunks.map Chunk.item)
    sentOf run.1 =
        changes config (relationOf (chunks.map Prod.snd)) chunks ∧
      run.2 = if ended then some (.ok ()) else none
  failed : ∀ pre chunk post, chunks = pre ++ chunk :: post →
    (∀ earlier ∈ pre, Decodes earlier.2) → ¬ Decodes chunk.2 → ∀ ended,
      let run := processStream config ended {} none (chunks.map Chunk.item)
      sentOf run.1 =
          changes config (relationOf (chunks.map Prod.snd)) pre ∧
        ∃ e, run.2 = some (.error e)
  onePerRow : ∀ chunk ∈ chunks, ∀ msg oid,
    decoded chunk.2 = .ok (some msg) → msg.rowOid = some oid →
      ∃ rel event, relationOf (chunks.map Prod.snd) oid = some rel ∧
        rowChange config chunk.1 rel msg = some event ∧
        changeOf config (relationOf (chunks.map Prod.snd)) chunk.1 chunk.2 =
          some event

theorem rowChange_isSome (config : StreamerConfig) (clock : ClockReading)
    (rel : RelationMessage) {msg : PgOutputMessage} {oid : UInt32}
    (h : msg.rowOid = some oid) :
    ∃ event, rowChange config clock rel msg = some event := by
  cases msg with
  | insert msg => exact ⟨_, rfl⟩
  | update msg => exact ⟨_, rfl⟩
  | delete msg => exact ⟨_, rfl⟩
  | _ => cases h

/-- The loop at the first chunk that does not decode. -/
theorem run_of_failed (config : StreamerConfig) {chunks pre post : List Chunk}
    {chunk : Chunk} (h : Announced (chunks.map Prod.snd))
    (hsplit : chunks = pre ++ chunk :: post)
    (hpre : ∀ earlier ∈ pre, Decodes earlier.2) (hchunk : ¬ Decodes chunk.2)
    (ended : Bool) :
    let run := processStream config ended {} none (chunks.map Chunk.item)
    sentOf run.1 = changes config (relationOf (chunks.map Prod.snd)) pre ∧
      (run.2 = some .panicked ∧ CutOff chunk.2 ∨
        (∃ e, run.2 = some (.error e)) ∧ ¬ CutOff chunk.2) := by
  obtain ⟨state, hsent, hresult⟩ := offers_of_decodes config h
    (if ended then some (.ok ()) else none) (show Remembers {} [] from rfl)
    hpre (chunk :: post) hsplit
  obtain ⟨hrun, hended⟩ := Feed.run_none (streamFeed config)
    (if ended then some (.ok ()) else none) {} (chunks.map Chunk.item)
  rw [← hsplit] at hsent hresult
  obtain ⟨hnone, hfailed⟩ :=
    processChunk_of_failed config chunk.1 state hchunk
  dsimp only
  rw [processStream_eq_run, hrun, hended, hsent, hresult]
  simp only [List.map_cons, Feed.offers, streamFeed, Chunk.item]
  rcases hfailed with ⟨hpanicked, hcut⟩ | ⟨⟨e, he⟩, hcut⟩
  · simp only [hpanicked, hnone]
    exact ⟨by simp, .inl ⟨trivial, hcut⟩⟩
  · simp only [he, hnone]
    exact ⟨by simp, .inr ⟨⟨e, rfl⟩, hcut⟩⟩

/-- The loop emits what it should exactly when the first chunk that does not
decode is not one that ends too early. -/
theorem streamsRows_iff (config : StreamerConfig) (chunks : List Chunk)
    (h : Announced (chunks.map Prod.snd)) :
    StreamsRows config chunks ↔
      ∀ pre chunk post, chunks = pre ++ chunk :: post →
        (∀ earlier ∈ pre, Decodes earlier.2) → ¬ CutOff chunk.2 := by
  constructor
  · intro hstreams pre chunk post hsplit hpre hcut
    have hchunk : ¬ Decodes chunk.2 := by
      rintro ⟨message, hmessage⟩
      have hpanicked :=
        (PgOutputDecoder.decode_eq_panicked_iff {} chunk.2).mpr hcut
      rw [decode_eq_decoded, hmessage] at hpanicked
      cases hpanicked
    obtain ⟨-, e, he⟩ :=
      hstreams.failed pre chunk post hsplit hpre hchunk false
    rcases (run_of_failed config h hsplit hpre hchunk false).2 with
      ⟨hpanicked, -⟩ | ⟨-, hnot⟩
    · rw [he] at hpanicked
      cases hpanicked
    · exact hnot hcut
  · intro hwhole
    refine ⟨?_, ?_, ?_⟩
    · intro hchunks ended
      obtain ⟨state, hsent, hresult⟩ := offers_of_decodes config h
        (if ended then some (.ok ()) else none) (show Remembers {} [] from rfl)
        hchunks [] (by simp)
      obtain ⟨hrun, hended⟩ := Feed.run_none (streamFeed config)
        (if ended then some (.ok ()) else none) {} (chunks.map Chunk.item)
      rw [List.append_nil] at hsent hresult
      dsimp only
      rw [processStream_eq_run, hrun, hended, hsent, hresult]
      exact ⟨List.append_nil _, rfl⟩
    · intro pre chunk post hsplit hpre hchunk ended
      obtain ⟨hsent, hfailed⟩ := run_of_failed config h hsplit hpre hchunk ended
      refine ⟨hsent, ?_⟩
      rcases hfailed with ⟨-, hcut⟩ | ⟨herror, -⟩
      · exact absurd hcut (hwhole pre chunk post hsplit hpre)
      · exact herror
    · intro chunk hchunk msg oid hmsg hoid
      obtain ⟨pre, post, hsplit⟩ := List.append_of_mem hchunk
      obtain ⟨data, hdata, rel, hrel, rfl⟩ := h.before (pre.map Prod.snd)
        chunk.2 (post.map Prod.snd) msg oid (by simp [hsplit]) hmsg hoid
      have hmem : data ∈ chunks.map Prod.snd := by
        rw [hsplit, List.map_append]
        exact List.mem_append_left _ hdata
      obtain ⟨rel', hfound⟩ := exists_firstEntry RelationMessage.oid
        (List.mem_filterMap.mpr ⟨data, hmem, hrel⟩)
      obtain ⟨event, hevent⟩ :=
        rowChange_isSome config chunk.1 rel' hoid
      have hrelation : relationOf (chunks.map Prod.snd) rel.oid = some rel' :=
        hfound
      refine ⟨rel', event, hrelation, hevent, ?_⟩
      simp [changeOf, hmsg, hoid, hrelation, hevent]

/-- An insert that ends in the identifier of its relation. -/
theorem not_streamsRows_cutInsert :
    Announced [[73, 0, 0]] ∧
      ¬ StreamsRows ⟨"db", fun _ => none⟩ [(⟨0, 0⟩, [73, 0, 0])] := by
  have hdecoded : decoded [73, 0, 0] = .panicked := rfl
  have hannounced : PgOutputDecoder.announcement [73, 0, 0] = none := rfl
  refine ⟨⟨?_, ?_, ?_⟩, fun h => ?_⟩
  · intro pre data post msg oid hsplit hmsg
    have hmem : data ∈ [[73, 0, 0]] := by simp [hsplit]
    rw [List.mem_singleton.mp hmem, hdecoded] at hmsg
    cases hmsg
  · intro data hdata _ _ rel _ hrel
    rw [List.mem_singleton.mp hdata, hannounced] at hrel
    cases hrel
  · intro data hdata rel hrel
    rw [List.mem_singleton.mp hdata, hannounced] at hrel
    cases hrel
  · have hchunk : ¬ Decodes [73, 0, 0] := by
      rintro ⟨message, hmessage⟩
      rw [hdecoded] at hmessage
      cases hmessage
    obtain ⟨-, e, he⟩ := h.failed [] _ [] rfl (by simp) hchunk true
    have hrun : (processStream ⟨"db", fun _ => none⟩ true {} none
        [⟨⟨0, 0⟩, .ok [73, 0, 0]⟩]).2 = some .panicked := rfl
    exact absurd (hrun.symm.trans he) (by simp)

/-- A relation with one column, and a row inserted into it. -/
def announcedInsert : List Chunk :=
  [(⟨0, 0⟩, PgOutputDecoder.relationV2),
    (⟨0, 0⟩, [73, 0, 0, 0, 1, 78, 0, 1, 116, 0, 0, 0, 1, 120])]

theorem announced_announcedInsert :
    Announced (announcedInsert.map Prod.snd) := by
  have hrelation : PgOutputDecoder.announcement PgOutputDecoder.relationV2 =
      some ⟨1, "a", "b", [⟨0, "c", 25, -1⟩]⟩ := by decide
  have hinsert : PgOutputDecoder.announcement
      [73, 0, 0, 0, 1, 78, 0, 1, 116, 0, 0, 0, 1, 120] = none := by decide
  have hmem : ∀ data ∈ announcedInsert.map Prod.snd, ∀ rel,
      PgOutputDecoder.announcement data = some rel →
        rel = ⟨1, "a", "b", [⟨0, "c", 25, -1⟩]⟩ := by
    intro data hdata rel hrel
    rcases List.mem_pair.mp hdata with rfl | rfl
    · rw [hrelation] at hrel
      exact (Option.some_inj.mp hrel).symm
    · rw [hinsert] at hrel
      cases hrel
  have hrow : ∀ data ∈ announcedInsert.map Prod.snd, ∀ msg oid,
      decoded data = .ok (some msg) → msg.rowOid = some oid →
        data ≠ PgOutputDecoder.relationV2 ∧ oid = 1 := by
    intro data hdata msg oid hmsg hoid
    rcases List.mem_pair.mp hdata with rfl | rfl
    · have hdecoded : decoded PgOutputDecoder.relationV2 = .ok (some
          (.relation ⟨1, "a", "b", [⟨0, "c", 25, -1⟩]⟩)) := by decide
      rw [hdecoded] at hmsg
      cases hmsg
      cases hoid
    · have hdecoded :
          decoded [73, 0, 0, 0, 1, 78, 0, 1, 116, 0, 0, 0, 1, 120] =
            .ok (some (.insert ⟨1, [textColumn [120]]⟩)) := by decide
      rw [hdecoded] at hmsg
      cases hmsg
      cases hoid
      exact ⟨by decide, rfl⟩
  refine ⟨?_, ?_, ?_⟩
  · intro pre data post msg oid hsplit hmsg hoid
    obtain ⟨hne, rfl⟩ := hrow data (by simp [hsplit]) msg oid hmsg hoid
    rcases pre with _ | ⟨first, pre⟩
    · exact absurd (List.cons.inj hsplit).1.symm hne
    · have hfirst : PgOutputDecoder.relationV2 = first :=
        (List.cons.inj hsplit).1
      exact ⟨first, by simp, _, hfirst ▸ hrelation, rfl⟩
  · intro data hdata data' hdata' rel rel' hrel hrel' _
    rw [hmem data hdata rel hrel, hmem data' hdata' rel' hrel']
  · intro data hdata rel hrel
    rw [hmem data hdata rel hrel]
    simp

theorem streamsRows_announcedInsert :
    StreamsRows ⟨"db", fun _ => none⟩ announcedInsert := by
  apply (streamsRows_iff _ _ announced_announcedInsert).mpr
  intro pre chunk post hsplit _ hcut
  have hpanicked := (PgOutputDecoder.decode_eq_panicked_iff {} chunk.2).mpr hcut
  have hchunk : chunk ∈ announcedInsert := by simp [hsplit]
  revert hpanicked
  rcases List.mem_pair.mp hchunk with rfl | rfl
  · decide
  · decide

end OpenCdc.Postgres
