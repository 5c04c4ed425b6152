import Mathlib.Data.Multiset.MapFold
import OpenCdc.Foundation.Replica
import OpenCdc.Postgres.Stream

/-!
# Copies of the server's tables

The server keeps rows and writes a message for each change of them.  A reader
of the change events who takes `before` away from a copy and adds `after` to it
has a copy of the tables, as JSON, as long as the events tell every change.
-/

namespace OpenCdc.Postgres

open Foundation Json

/-! ## Rows and their changes -/

/-- A row of a relation as the server stores it: all of its values. -/
structure TableRow where
  relationOid : UInt32
  tuple : WireTuple
  stored : WireColumn.unchanged ∉ tuple.columns
deriving DecidableEq

/-- A change, with what is sent of the rows besides: of the old row the part
that the replica identity asks for, of the new one the values that are not
stored elsewhere. -/
inductive RowChange where
  | insert (new : TableRow)
  | update (old new : TableRow) (sentOld : Option (OldTag × WireTuple))
      (sentNew : WireTuple)
  | delete (old : TableRow) (tag : OldTag) (sentOld : WireTuple)
  | truncate (relationOids : List UInt32) (options : Int8)
      (hcount : relationOids.length < 2 ^ 32)

namespace RowChange

def message : RowChange → WireMessage
  | insert new => .insert new.relationOid new.tuple
  | update _ new sentOld sentNew => .update new.relationOid sentOld sentNew
  | delete old tag sentOld => .delete old.relationOid tag sentOld
  | truncate relationOids options hcount =>
      .truncate relationOids options hcount

def apply (rows : Multiset TableRow) : RowChange → Multiset TableRow
  | insert new => new ::ₘ rows
  | update old new _ _ => new ::ₘ rows.erase old
  | delete old _ _ => rows.erase old
  | truncate relationOids _ _ =>
      rows.filter fun row => row.relationOid ∉ relationOids

/-- What the server can do to its rows and send of it.  A value of the new row
is sent, or it is marked as unchanged. -/
def Possible (rows : Multiset TableRow) : RowChange → Prop
  | insert _ => True
  | update old new _ sentNew =>
      old ∈ rows ∧ old.relationOid = new.relationOid ∧
        List.Forall₂ (fun value sent => sent = value ∨ sent = .unchanged)
          new.tuple.columns sentNew.columns
  | delete old _ _ => old ∈ rows
  | truncate _ _ _ => True

/-- The whole old row is sent, as `REPLICA IDENTITY FULL` has it. -/
def TellsOldRow : RowChange → Prop
  | update old _ sentOld _ => sentOld = some (.old, old.tuple)
  | delete old tag sentOld => tag = .old ∧ sentOld = old.tuple
  | _ => True

end RowChange

/-! ## The log -/

/-- The messages that mark transactions and announce relations. -/
def PgOutputMessage.isMark : PgOutputMessage → Bool
  | .begin _ => true
  | .commit _ => true
  | .relation _ => true
  | _ => false

/-- A mark or a keepalive. -/
def Housekeeping (data : Bytes) : Prop :=
  data.head? = some (tagByte 'k') ∨
    ∃ msg, decoded data = .ok (some msg) ∧ msg.isMark

/-- What a record of the log is about. -/
inductive LogRecord where
  | change (c : RowChange)
  | other (data : Bytes) (hkeeping : Housekeeping data)

namespace LogRecord

def data : LogRecord → Bytes
  | change c => c.message.encode
  | other data _ => data

def apply (rows : Multiset TableRow) : LogRecord → Multiset TableRow
  | change c => c.apply rows
  | other _ _ => rows

def Possible (rows : Multiset TableRow) : LogRecord → Prop
  | change c => c.Possible rows
  | other _ _ => True

def TellsOldRow : LogRecord → Prop
  | change c => c.TellsOldRow
  | other _ _ => True

end LogRecord

/-- A record, and what the clock shows when it is read. -/
abbrev LogEntry := ClockReading × LogRecord

def LogEntry.chunk (entry : LogEntry) : Chunk := (entry.1, entry.2.data)

def LogEntry.apply (rows : Multiset TableRow) (entry : LogEntry) :
    Multiset TableRow :=
  entry.2.apply rows

/-- What a server has done: its rows, the changes and messages that followed,
and the relations as the messages announce them. -/
structure History (catalog : UInt32 → RelationMessage) where
  initial : Multiset TableRow
  log : List LogEntry
  announced : Announced ((log.map LogEntry.chunk).map Prod.snd)
  agrees : ∀ entry ∈ log, ∀ rel,
    PgOutputDecoder.announcement entry.2.data = some rel → rel = catalog rel.oid
  possible : ∀ front entry behind, log = front ++ entry :: behind →
    entry.2.Possible (front.foldl LogEntry.apply initial)

namespace History

/-- The rows behind some of the records. -/
def rowsAfter {catalog : UInt32 → RelationMessage} (history : History catalog)
    (front : List LogEntry) : Multiset TableRow :=
  front.foldl LogEntry.apply history.initial

end History

/-! ## What is sent for the log -/

section Sent

variable {catalog : UInt32 → RelationMessage} {config : StreamerConfig}

theorem decoded_message (c : RowChange) :
    decoded c.message.encode = .ok (some c.message.message) :=
  PgOutputDecoder.decode_complete {} List.prefix_rfl

theorem decoded_keepalive {data : Bytes}
    (h : data.head? = some (tagByte 'k')) : decoded data = .ok none := by
  obtain ⟨rest, rfl⟩ := List.head?_eq_some_iff.mp h
  rfl

theorem Housekeeping.decodes {data : Bytes} (h : Housekeeping data) :
    ∃ message, decoded data = .ok message ∧
      ∀ msg, message = some msg → msg.rowOid = none := by
  rcases h with hkeepalive | ⟨msg, hmsg, hmark⟩
  · exact ⟨none, decoded_keepalive hkeepalive, by simp⟩
  · refine ⟨some msg, hmsg, ?_⟩
    rintro _ ⟨⟩
    cases msg <;> first | rfl | cases hmark

theorem decodes_data (record : LogRecord) : Decodes record.data := by
  cases record with
  | change c => exact ⟨_, decoded_message c⟩
  | other data hkeeping =>
      obtain ⟨message, hmessage, -⟩ := hkeeping.decodes
      exact ⟨message, hmessage⟩

/-- The loop sends the events of chunks that decode, and nothing else. -/
theorem sentOf_processStream {chunks : List Chunk}
    (h : Announced (chunks.map Prod.snd))
    (hchunks : ∀ chunk ∈ chunks, Decodes chunk.2) (ended : Bool) :
    sentOf (processStream config ended {} none (chunks.map Chunk.item)).1 =
      changes config (relationOf (chunks.map Prod.snd)) chunks := by
  obtain ⟨state, hsent, -⟩ := offers_of_decodes config h
    (if ended then some (.ok ()) else none) (show Remembers {} [] from rfl)
    hchunks [] (by simp)
  rw [List.append_nil] at hsent
  rw [processStream_eq_run, (Feed.run_none _ _ _ _).1, hsent]
  exact List.append_nil _

theorem announced_of_prefix {front chunks : List Bytes}
    (hfront : front <+: chunks) (h : Announced chunks) : Announced front where
  before := by
    obtain ⟨behind, rfl⟩ := hfront
    intro pre data post msg oid hsplit hmsg hoid
    exact h.before pre data (post ++ behind) msg oid (by simp [hsplit]) hmsg hoid
  once := fun data hdata data' hdata' =>
    h.once data (hfront.subset hdata) data' (hfront.subset hdata')
  distinct := fun data hdata => h.distinct data (hfront.subset hdata)

/-- One relation is announced in front of its rows. -/
theorem announced_cons {data : Bytes} {rel : RelationMessage}
    {others : List Bytes}
    (hdata : PgOutputDecoder.announcement data = some rel)
    (hdistinct : (rel.columns.map RelationColumn.name).Nodup)
    (hothers : ∀ other ∈ others,
      PgOutputDecoder.announcement other = none ∧
        ∀ msg oid, decoded other = .ok (some msg) → msg.rowOid = some oid →
          oid = rel.oid) :
    Announced (data :: others) := by
  have honly : ∀ data' ∈ data :: others, ∀ rel',
      PgOutputDecoder.announcement data' = some rel' → rel' = rel := by
    intro data' hdata' rel' hrel'
    rcases List.mem_cons.mp hdata' with rfl | hmem
    · exact Option.some_inj.mp (hrel'.symm.trans hdata)
    · rw [(hothers data' hmem).1] at hrel'
      cases hrel'
  constructor
  · intro pre data' post msg oid hsplit hmsg hoid
    rcases pre with _ | ⟨first, pre⟩
    · -- the announcement itself is about no row
      obtain ⟨rfl, -⟩ := List.cons.inj hsplit
      rw [announcement_eq_decodedRelation, hmsg] at hdata
      have hnone : msg.rowOid = none := by
        cases msg <;> first | rfl | cases hdata
      rw [hnone] at hoid
      cases hoid
    · obtain ⟨rfl, rfl⟩ := List.cons.inj hsplit
      exact ⟨data, List.mem_cons_self, rel, hdata,
        ((hothers data' (by simp)).2 msg oid hmsg hoid).symm⟩
  · intro data' hdata' data'' hdata'' rel' rel'' hrel' hrel'' _
    rw [honly data' hdata' rel' hrel', honly data'' hdata'' rel'' hrel'']
  · intro data' hdata' rel' hrel'
    rw [honly data' hdata' rel' hrel']
    exact hdistinct

/-- A message about a row finds the relation of the catalog. -/
theorem relationOf_eq_catalog {log : List LogEntry}
    (hannounced : Announced ((log.map LogEntry.chunk).map Prod.snd))
    (hagrees : ∀ entry ∈ log, ∀ rel,
      PgOutputDecoder.announcement entry.2.data = some rel →
        rel = catalog rel.oid)
    {entry : LogEntry} (hentry : entry ∈ log) {msg : PgOutputMessage}
    {oid : UInt32} (hmsg : decoded entry.2.data = .ok (some msg))
    (hoid : msg.rowOid = some oid) :
    relationOf ((log.map LogEntry.chunk).map Prod.snd) oid =
      some (catalog oid) := by
  obtain ⟨pre, post, hsplit⟩ := List.append_of_mem
    (List.mem_map_of_mem (f := Prod.snd) (List.mem_map_of_mem hentry))
  obtain ⟨data, hdata, rel, hrel, rfl⟩ :=
    hannounced.before pre _ post msg oid hsplit hmsg hoid
  have hmem : data ∈ (log.map LogEntry.chunk).map Prod.snd := by
    rw [hsplit]
    exact List.mem_append_left _ hdata
  obtain ⟨found, hfound⟩ := exists_firstEntry RelationMessage.oid
    (List.mem_filterMap.mpr ⟨data, hmem, hrel⟩)
  have hfoundoid : found.oid = rel.oid := by
    simpa using List.find?_some hfound
  obtain ⟨data', hdata', hrel'⟩ :=
    List.mem_filterMap.mp (List.mem_of_find?_eq_some hfound)
  rw [List.map_map] at hdata'
  obtain ⟨entry', hentry', rfl⟩ := List.mem_map.mp hdata'
  rw [relationOf, hfound, hagrees entry' hentry' found hrel', hfoundoid]

/-- The event of an entry, with the relations of the catalog. -/
def LogEntry.event (config : StreamerConfig) (catalog : UInt32 → RelationMessage)
    (entry : LogEntry) : Option ChangeEvent :=
  changeOf config (fun oid => some (catalog oid)) entry.1 entry.2.data

theorem changes_eq_events {log : List LogEntry}
    (hannounced : Announced ((log.map LogEntry.chunk).map Prod.snd))
    (hagrees : ∀ entry ∈ log, ∀ rel,
      PgOutputDecoder.announcement entry.2.data = some rel →
        rel = catalog rel.oid) :
    changes config (relationOf ((log.map LogEntry.chunk).map Prod.snd))
        (log.map LogEntry.chunk) =
      log.filterMap (LogEntry.event config catalog) := by
  rw [changes, List.filterMap_map]
  apply List.filterMap_congr
  intro entry hentry
  unfold LogEntry.event
  simp only [Function.comp_apply, LogEntry.chunk, changeOf]
  split
  · next msg hmsg =>
      cases hoid : msg.rowOid with
      | none => rfl
      | some oid =>
          simp only [Option.bind_some,
            relationOf_eq_catalog hannounced hagrees hentry hmsg hoid]
  · rfl

end Sent

namespace History

variable {catalog : UInt32 → RelationMessage}

/-- The events that the loop sends for some records, to a receiver that
stays. -/
def eventsOf (config : StreamerConfig) (front : List LogEntry) (ended : Bool) :
    List ChangeEvent :=
  sentOf (processStream config ended {} none
    ((front.map LogEntry.chunk).map Chunk.item)).1

theorem eventsOf_eq (history : History catalog) (config : StreamerConfig)
    {front : List LogEntry} (hfront : front <+: history.log) (ended : Bool) :
    eventsOf config front ended =
      front.filterMap (LogEntry.event config catalog) := by
  have hannounced :=
    announced_of_prefix ((hfront.map LogEntry.chunk).map Prod.snd)
      history.announced
  rw [eventsOf, sentOf_processStream hannounced]
  · apply changes_eq_events hannounced
    exact fun entry hentry => history.agrees entry (hfront.subset hentry)
  · intro chunk hchunk
    obtain ⟨entry, -, rfl⟩ := List.mem_map.mp hchunk
    exact decodes_data entry.2

end History

/-! ## Copies -/

/-- A row as a reader of the events sees it: the database, the schema and the
table of its event, and its JSON. -/
abbrev Image := (String × Option String × String) × Value

def placeOf (source : SourceInfo) : String × Option String × String :=
  (source.db, source.schema, source.table)

def imageOf (config : StreamerConfig) (rel : RelationMessage)
    (tuple : WireTuple) : Image :=
  ((config.database, some rel.schema, rel.name),
    .object (rowEntries config rel tuple.tuple))

def TableRow.image (config : StreamerConfig)
    (catalog : UInt32 → RelationMessage) (row : TableRow) : Image :=
  imageOf config (catalog row.relationOid) row.tuple

/-- One side of an event. -/
def sideImages (event : ChangeEvent) (side : Option Value) : Multiset Image :=
  side.toList.map fun value => (placeOf event.payload.source, value)

open Classical in
/-- `before` is taken away, `after` is added. -/
noncomputable def applyEvent (copy : Multiset Image) (event : ChangeEvent) :
    Multiset Image :=
  sideImages event event.payload.after +
    (copy - sideImages event event.payload.before)

section Copies

variable {catalog : UInt32 → RelationMessage} {config : StreamerConfig}

/-- What the reader makes of an entry of the log. -/
noncomputable def copyStep (config : StreamerConfig)
    (catalog : UInt32 → RelationMessage) (copy : Multiset Image)
    (entry : LogEntry) : Multiset Image :=
  (entry.event config catalog).elim copy (applyEvent copy)

theorem foldl_applyEvent (copy : Multiset Image) (front : List LogEntry) :
    (front.filterMap (LogEntry.event config catalog)).foldl applyEvent copy =
      front.foldl (copyStep config catalog) copy := by
  induction front generalizing copy with
  | nil => rfl
  | cons entry front ih =>
      rw [List.foldl_cons, ← ih, List.filterMap_cons, copyStep]
      cases entry.event config catalog <;> rfl

theorem event_change (clock : ClockReading) (c : RowChange) :
    LogEntry.event config catalog (clock, .change c) =
      c.message.message.rowOid.bind fun oid =>
        rowChange config clock (catalog oid) c.message.message := by
  simp only [LogEntry.event, changeOf, LogRecord.data, decoded_message]
  cases c.message.message.rowOid <;> rfl

theorem event_other (clock : ClockReading) {data : Bytes}
    (h : Housekeeping data) :
    LogEntry.event config catalog (clock, .other data h) = none := by
  obtain ⟨message, hmessage, hrow⟩ := h.decodes
  cases message with
  | none => simp only [LogEntry.event, changeOf, LogRecord.data, hmessage]
  | some msg =>
      simp only [LogEntry.event, changeOf, LogRecord.data, hmessage,
        hrow msg rfl]
      rfl

@[simp] theorem copyStep_other (copy : Multiset Image) (clock : ClockReading)
    {data : Bytes} (h : Housekeeping data) :
    copyStep config catalog copy (clock, .other data h) = copy := by
  rw [copyStep, event_other]
  rfl

@[simp] theorem copyStep_truncate (copy : Multiset Image)
    (clock : ClockReading) (relationOids : List UInt32) (options : Int8)
    (hcount : relationOids.length < 2 ^ 32) :
    copyStep config catalog copy
      (clock, .change (.truncate relationOids options hcount)) = copy := by
  rw [copyStep, event_change]
  rfl

open Classical in
@[simp] theorem copyStep_insert (copy : Multiset Image) (clock : ClockReading)
    (new : TableRow) :
    copyStep config catalog copy (clock, .change (.insert new)) =
      new.image config catalog ::ₘ copy := by
  rw [copyStep, event_change]
  change {new.image config catalog} + (copy - 0) = _
  rw [tsub_zero, Multiset.singleton_add]

open Classical in
@[simp] theorem copyStep_update (copy : Multiset Image) (clock : ClockReading)
    (old new : TableRow) (tag : OldTag) (sentOld sentNew : WireTuple) :
    copyStep config catalog copy
        (clock, .change (.update old new (some (tag, sentOld)) sentNew)) =
      imageOf config (catalog new.relationOid) sentNew ::ₘ
        copy.erase (imageOf config (catalog new.relationOid) sentOld) := by
  rw [copyStep, event_change]
  change {imageOf config (catalog new.relationOid) sentNew} +
    (copy - {imageOf config (catalog new.relationOid) sentOld}) = _
  rw [Multiset.sub_singleton, Multiset.singleton_add]

open Classical in
@[simp] theorem copyStep_delete (copy : Multiset Image) (clock : ClockReading)
    (old : TableRow) (tag : OldTag) (sentOld : WireTuple) :
    copyStep config catalog copy (clock, .change (.delete old tag sentOld)) =
      copy.erase (imageOf config (catalog old.relationOid) sentOld) := by
  rw [copyStep, event_change]
  change 0 + (copy - {imageOf config (catalog old.relationOid) sentOld}) = _
  rw [Multiset.sub_singleton, zero_add]

/-! ## What is shown of a change -/

/-- Nothing of the change is hidden: a value that is not sent is null in any
case, and a table that is truncated is empty. -/
def RowChange.Shown (config : StreamerConfig)
    (catalog : UInt32 → RelationMessage) (rows : Multiset TableRow) :
    RowChange → Prop
  | .update _ new _ sentNew =>
      ∀ column value, (column, value, WireColumn.unchanged) ∈
          (catalog new.relationOid).columns.zip
            (new.tuple.columns.zip sentNew.columns) →
        columnToJson config.parseJson column.typeOid value.column = .null
  | .truncate relationOids _ _ => ∀ row ∈ rows, row.relationOid ∉ relationOids
  | _ => True

def LogRecord.Shown (config : StreamerConfig)
    (catalog : UInt32 → RelationMessage) (rows : Multiset TableRow) :
    LogRecord → Prop
  | .change c => c.Shown config catalog rows
  | .other _ _ => True

/-- The entry of a column in the image of a row. -/
def entryOf (config : StreamerConfig) (pair : RelationColumn × TupleColumn) :
    String × Value :=
  (pair.1.name, columnToJson config.parseJson pair.1.typeOid pair.2)

theorem map_entryOf_eq_iff {columns : List RelationColumn}
    {values sent : List WireColumn}
    (h : List.Forall₂ (fun value sent => sent = value ∨ sent = .unchanged)
      values sent) :
    (columns.zip (sent.map WireColumn.column)).map (entryOf config) =
        (columns.zip (values.map WireColumn.column)).map (entryOf config) ↔
      ∀ column value, (column, value, WireColumn.unchanged) ∈
          columns.zip (values.zip sent) →
        columnToJson config.parseJson column.typeOid value.column = .null := by
  induction h generalizing columns with
  | nil => simp
  | @cons value sent values sents hhead _ ih =>
      cases columns with
      | nil => simp
      | cons column columns =>
          have hentry : entryOf config (column, sent.column) =
              entryOf config (column, value.column) ↔
                (sent = .unchanged →
                  columnToJson config.parseJson column.typeOid value.column =
                    .null) := by
            rcases hhead with rfl | rfl
            · refine iff_of_true rfl ?_
              rintro rfl
              rfl
            · simp only [entryOf, Prod.mk.injEq, true_and, true_imp_iff]
              exact eq_comm
          simp only [List.map_cons, List.zip_cons_cons, List.cons.injEq, hentry,
            ih, List.mem_cons, Prod.mk.injEq]
          constructor
          · rintro ⟨hfirst, hrest⟩ column' value' (⟨rfl, rfl, hsent⟩ | hmem)
            · exact hfirst hsent.symm
            · exact hrest column' value' hmem
          · intro hall
            refine ⟨fun hsent => hall column value (.inl ⟨rfl, rfl, hsent.symm⟩), ?_⟩
            exact fun column' value' hmem => hall column' value' (.inr hmem)

/-- The part of a new row that is sent shows the row exactly if the rest of it
is null. -/
theorem imageOf_eq_image_iff {new : TableRow} {sentNew : WireTuple}
    (h : List.Forall₂ (fun value sent => sent = value ∨ sent = .unchanged)
      new.tuple.columns sentNew.columns) :
    imageOf config (catalog new.relationOid) sentNew =
        new.image config catalog ↔
      ∀ column value, (column, value, WireColumn.unchanged) ∈
          (catalog new.relationOid).columns.zip
            (new.tuple.columns.zip sentNew.columns) →
        columnToJson config.parseJson column.typeOid value.column = .null := by
  rw [← map_entryOf_eq_iff h, TableRow.image, imageOf, imageOf]
  simp only [Prod.mk.injEq, true_and, Value.object.injEq]
  exact Iff.rfl

/-- A reader who has the rows of the server has them behind a change exactly if
nothing of the change is hidden. -/
theorem copyStep_eq_iff (clock : ClockReading) {rows : Multiset TableRow}
    {record : LogRecord} (hpossible : record.Possible rows)
    (hold : record.TellsOldRow) :
    copyStep config catalog (rows.map (TableRow.image config catalog))
        (clock, record) =
      (record.apply rows).map (TableRow.image config catalog) ↔
        record.Shown config catalog rows := by
  classical
  cases record with
  | other data hkeeping =>
      rw [copyStep_other]
      exact iff_of_true rfl trivial
  | change c =>
      cases c with
      | insert new =>
          rw [copyStep_insert]
          exact iff_of_true (Multiset.map_cons _ _ _).symm trivial
      | update old new sentOld sentNew =>
          obtain ⟨hmem, hoid, hsent⟩ := hpossible
          have hsentOld : sentOld = some (.old, old.tuple) := hold
          subst hsentOld
          have himage : imageOf config (catalog new.relationOid) old.tuple =
              old.image config catalog := by
            rw [TableRow.image, hoid]
          have herase := Multiset.map_erase_of_mem
            (TableRow.image config catalog) rows hmem
          rw [copyStep_update, himage]
          simp only [LogRecord.apply, RowChange.apply, Multiset.map_cons, herase,
            Multiset.cons_inj_left]
          exact imageOf_eq_image_iff hsent
      | delete old tag sentOld =>
          obtain ⟨rfl, rfl⟩ : tag = .old ∧ sentOld = old.tuple := hold
          have hmem : old ∈ rows := hpossible
          have herase := Multiset.map_erase_of_mem
            (TableRow.image config catalog) rows hmem
          rw [copyStep_delete]
          exact iff_of_true herase.symm trivial
      | truncate relationOids options hcount =>
          rw [copyStep_truncate]
          simp only [LogRecord.apply, RowChange.apply, LogRecord.Shown,
            RowChange.Shown]
          rw [← Multiset.filter_eq_self]
          constructor
          · intro hsame
            apply Multiset.eq_of_le_of_card_le (Multiset.filter_le _ _)
            have hcard := congrArg Multiset.card hsame
            rw [Multiset.card_map, Multiset.card_map] at hcard
            exact hcard.le
          · intro hall
            rw [hall]

end Copies

/-! ## Streams that copy -/

namespace History

variable {catalog : UInt32 → RelationMessage}

/-- Wherever the stream stops, a reader who began with the rows of the server
has the rows of the server. -/
def IsCopied (history : History catalog) (config : StreamerConfig) : Prop :=
  ∀ front, front <+: history.log → ∀ ended,
    (eventsOf config front ended).foldl applyEvent
        (history.initial.map (TableRow.image config catalog)) =
      (history.rowsAfter front).map (TableRow.image config catalog)

theorem isCopied_iff_follows (history : History catalog)
    (config : StreamerConfig) :
    history.IsCopied config ↔
      Follows LogEntry.apply (copyStep config catalog)
        (fun rows => rows.map (TableRow.image config catalog))
        history.initial history.log := by
  apply forall₂_congr
  intro front hfront
  constructor
  · intro hcopied
    have hfalse := hcopied false
    rwa [history.eventsOf_eq config hfront, foldl_applyEvent] at hfalse
  · intro hfollows ended
    rw [history.eventsOf_eq config hfront, foldl_applyEvent]
    exact hfollows

def rowOfX : TableRow :=
  ⟨1, ⟨[.text [120] (by decide)], by decide⟩, by decide⟩

def rowOfY : TableRow :=
  ⟨1, ⟨[.text [121] (by decide)], by decide⟩, by decide⟩

/-- A relation is announced; a row is inserted into it, changed and deleted. -/
def edits : List LogEntry :=
  [(⟨0, 0⟩, .other PgOutputDecoder.relationV2
      (.inr ⟨.relation ⟨1, "a", "b", [⟨0, "c", 25, -1⟩]⟩, by decide, rfl⟩)),
    (⟨0, 0⟩, .change (.insert rowOfX)),
    (⟨0, 0⟩, .change (.update rowOfX rowOfY (some (.old, rowOfX.tuple))
      rowOfY.tuple)),
    (⟨0, 0⟩, .change (.delete rowOfY .old rowOfY.tuple))]

theorem announcement_relationV2 :
    PgOutputDecoder.announcement PgOutputDecoder.relationV2 =
      some ⟨1, "a", "b", [⟨0, "c", 25, -1⟩]⟩ := by
  decide

/-- A message about a row announces nothing. -/
theorem announcement_message (c : RowChange) :
    PgOutputDecoder.announcement c.message.encode = none := by
  rw [announcement_eq_decodedRelation, decoded_message]
  cases c with
  | insert new => rfl
  | update old new sentOld sentNew => rfl
  | delete old tag sentOld => rfl
  | truncate relationOids options hcount => rfl

theorem announced_edits :
    Announced ((edits.map LogEntry.chunk).map Prod.snd) := by
  have hrow : ∀ c : RowChange, c.message.message.rowOid = some 1 →
      PgOutputDecoder.announcement c.message.encode = none ∧
        ∀ msg oid, decoded c.message.encode = .ok (some msg) →
          msg.rowOid = some oid → oid = 1 := by
    intro c hc
    refine ⟨announcement_message c, fun msg oid hmsg hoid => ?_⟩
    rw [decoded_message] at hmsg
    cases hmsg
    exact Option.some.inj (hoid.symm.trans hc)
  apply announced_cons announcement_relationV2 (by decide)
  intro data hdata
  simp only [List.map_cons, List.map_nil, List.mem_cons, List.not_mem_nil,
    or_false] at hdata
  rcases hdata with rfl | rfl | rfl
  · exact hrow (.insert rowOfX) rfl
  · exact hrow (.update rowOfX rowOfY (some (.old, rowOfX.tuple)) rowOfY.tuple)
      rfl
  · exact hrow (.delete rowOfY .old rowOfY.tuple) rfl

theorem possible_edits : ∀ front entry behind, edits = front ++ entry :: behind →
    entry.2.Possible (front.foldl LogEntry.apply 0) := by
  intro front entry behind hsplit
  rcases front with _ | ⟨_, _ | ⟨_, _ | ⟨_, _ | ⟨_, rest⟩⟩⟩⟩ <;>
    simp only [edits, List.nil_append, List.cons_append, List.cons.injEq]
      at hsplit
  · obtain ⟨rfl, -⟩ := hsplit
    trivial
  · obtain ⟨rfl, rfl, -⟩ := hsplit
    trivial
  · obtain ⟨rfl, rfl, rfl, -⟩ := hsplit
    exact ⟨Multiset.mem_cons_self rowOfX 0, rfl, .cons (.inl rfl) .nil⟩
  · obtain ⟨rfl, rfl, rfl, rfl, -⟩ := hsplit
    exact Multiset.mem_cons_self rowOfY ((rowOfX ::ₘ 0).erase rowOfX)
  · simp at hsplit

def edited : History (fun _ => ⟨1, "a", "b", [⟨0, "c", 25, -1⟩]⟩) where
  initial := 0
  log := edits
  announced := announced_edits
  agrees := by
    intro entry hentry rel hrel
    simp only [edits, List.mem_cons, List.not_mem_nil, or_false] at hentry
    rcases hentry with rfl | rfl | rfl | rfl
    · exact Option.some_inj.mp (hrel.symm.trans announcement_relationV2)
    · exact absurd (hrel.symm.trans (announcement_message _)) (by simp)
    · exact absurd (hrel.symm.trans (announcement_message _)) (by simp)
    · exact absurd (hrel.symm.trans (announcement_message _)) (by simp)
  possible := possible_edits

end History
end OpenCdc.Postgres
