import OpenCdc.Pipeline.EarlyReceiver
import OpenCdc.Postgres.ColumnJson
import OpenCdc.Postgres.Replica

/-!
# From a snapshot into the stream

A snapshot reads one table after the other while the tables change.  The stream
tells the changes from the start of the snapshot on, so that some of them are
in the rows of the snapshot already.  A reader who keeps the last row under
each key has the tables of the server in the end.
-/

namespace OpenCdc.Postgres

open Foundation Json

/-! ## A reader with keys -/

/-- The key columns of each table. -/
abbrev KeyNames := String × Option String × String → List String

abbrev ImageKey := (String × Option String × String) × List (Option Value)

def keyOf (keyNames : KeyNames) (image : Image) : ImageKey :=
  (image.1, (keyNames image.1).map fun name => imageField name image.2)

/-- The key of `before` is freed, and `after` is kept under its own. -/
def eventWrites (keyNames : KeyNames) (event : ChangeEvent) :
    List (Write ImageKey Image) :=
  let image := fun value => (placeOf event.payload.source, value)
  (event.payload.before.toList.map fun value =>
      (keyOf keyNames (image value), none)) ++
    event.payload.after.toList.map fun value =>
      (keyOf keyNames (image value), some (image value))

open Classical in
noncomputable def keepLast (keyNames : KeyNames)
    (store : ImageKey → Option Image) (events : List ChangeEvent) :
    ImageKey → Option Image :=
  replay store (events.flatMap (eventWrites keyNames))

variable {catalog : UInt32 → RelationMessage} {config : StreamerConfig}
variable {keyNames : KeyNames}

/-- What is sent of an old row has the key of the row, and nothing is sent of a
row that keeps its key. -/
def RowChange.TellsOldKey (config : StreamerConfig)
    (catalog : UInt32 → RelationMessage) (keyNames : KeyNames) :
    RowChange → Prop
  | .update old new none _ =>
      keyOf keyNames (old.image config catalog) =
        keyOf keyNames (new.image config catalog)
  | .update old new (some (_, sentOld)) _ =>
      keyOf keyNames (imageOf config (catalog new.relationOid) sentOld) =
        keyOf keyNames (old.image config catalog)
  | .delete old _ sentOld =>
      keyOf keyNames (imageOf config (catalog old.relationOid) sentOld) =
        keyOf keyNames (old.image config catalog)
  | _ => True

def LogRecord.TellsOldKey (config : StreamerConfig)
    (catalog : UInt32 → RelationMessage) (keyNames : KeyNames) :
    LogRecord → Prop
  | .change c => c.TellsOldKey config catalog keyNames
  | .other _ _ => True

/-- The keys tell the rows apart at every moment and are sent with the changes,
and no change is hidden. -/
structure History.IsKeyed (history : History catalog) (config : StreamerConfig)
    (keyNames : KeyNames) : Prop where
  distinct : ∀ front, front <+: history.log →
    (((history.rowsAfter front).map (TableRow.image config catalog)).map
      (keyOf keyNames)).Nodup
  told : ∀ entry ∈ history.log, entry.2.TellsOldKey config catalog keyNames
  shown : ∀ front entry behind, history.log = front ++ entry :: behind →
    entry.2.Shown config catalog (history.rowsAfter front)

/-! ## The writes of an entry -/

def entryWrites (config : StreamerConfig) (catalog : UInt32 → RelationMessage)
    (keyNames : KeyNames) (entry : LogEntry) : List (Write ImageKey Image) :=
  (entry.event config catalog).toList.flatMap (eventWrites keyNames)

theorem flatMap_eventWrites (front : List LogEntry) :
    (front.filterMap (LogEntry.event config catalog)).flatMap
        (eventWrites keyNames) =
      front.flatMap (entryWrites config catalog keyNames) := by
  induction front with
  | nil => rfl
  | cons entry front ih =>
      rw [List.filterMap_cons, List.flatMap_cons, ← ih, entryWrites]
      cases entry.event config catalog <;> simp

theorem entryWrites_other (clock : ClockReading) {data : Bytes}
    (h : Housekeeping data) :
    entryWrites config catalog keyNames (clock, .other data h) = [] := by
  rw [entryWrites, event_other]
  rfl

theorem entryWrites_insert (clock : ClockReading) (new : TableRow) :
    entryWrites config catalog keyNames (clock, .change (.insert new)) =
      [(keyOf keyNames (new.image config catalog),
        some (new.image config catalog))] := by
  rw [entryWrites, event_change]
  rfl

theorem entryWrites_update (clock : ClockReading) (old new : TableRow)
    (sentOld : Option (OldTag × WireTuple)) (sentNew : WireTuple) :
    entryWrites config catalog keyNames
        (clock, .change (.update old new sentOld sentNew)) =
      (sentOld.toList.map fun sent => (keyOf keyNames
          (imageOf config (catalog new.relationOid) sent.2), none)) ++
        [(keyOf keyNames (imageOf config (catalog new.relationOid) sentNew),
          some (imageOf config (catalog new.relationOid) sentNew))] := by
  rw [entryWrites, event_change]
  cases sentOld <;> rfl

theorem entryWrites_delete (clock : ClockReading) (old : TableRow)
    (tag : OldTag) (sentOld : WireTuple) :
    entryWrites config catalog keyNames
        (clock, .change (.delete old tag sentOld)) =
      [(keyOf keyNames (imageOf config (catalog old.relationOid) sentOld),
        none)] := by
  rw [entryWrites, event_change]
  rfl

theorem entryWrites_truncate (clock : ClockReading)
    (relationOids : List UInt32) (options : Int8)
    (hcount : relationOids.length < 2 ^ 32) :
    entryWrites config catalog keyNames
      (clock, .change (.truncate relationOids options hcount)) = [] := by
  rw [entryWrites, event_change]
  rfl

section Steps

open scoped Classical

/-- An update frees the key of the old row and takes that of the new one, also
if they are the same and only the second is written. -/
theorem holds_update {store : ImageKey → Option Image} {rows : Multiset Image}
    {old new : Image} {freed : List ImageKey}
    (h : Holds (keyOf keyNames) store rows) (hold : old ∈ rows)
    (hfreed : freed = [keyOf keyNames old] ∨
      freed = [] ∧ keyOf keyNames old = keyOf keyNames new)
    (hdistinct : (rows.map (keyOf keyNames)).Nodup)
    (hdistinct' : ((new ::ₘ rows.erase old).map (keyOf keyNames)).Nodup) :
    Holds (keyOf keyNames)
      (replay store
        (freed.map (fun key => (key, none)) ++ [(keyOf keyNames new, some new)]))
      (new ::ₘ rows.erase old) := by
  have hboth := (h.write_none hdistinct hold).write_some hdistinct'
  rcases hfreed with rfl | ⟨rfl, hkey⟩
  · exact hboth
  · rw [hkey, write, write, Function.update_idem] at hboth
    exact hboth

/-- One entry, by the kinds of changes. -/
theorem holds_entryWrites {store : ImageKey → Option Image}
    {rows : Multiset TableRow} {clock : ClockReading} {record : LogRecord}
    (h : Holds (keyOf keyNames) store
      (rows.map (TableRow.image config catalog)))
    (hpossible : record.Possible rows)
    (hshown : record.Shown config catalog rows)
    (htold : record.TellsOldKey config catalog keyNames)
    (hdistinct : ((rows.map (TableRow.image config catalog)).map
      (keyOf keyNames)).Nodup)
    (hdistinct' : (((record.apply rows).map (TableRow.image config catalog)).map
      (keyOf keyNames)).Nodup) :
    Holds (keyOf keyNames)
      (replay store (entryWrites config catalog keyNames (clock, record)))
      ((record.apply rows).map (TableRow.image config catalog)) := by
  cases record with
  | other data hkeeping =>
      rw [entryWrites_other]
      exact h
  | change c =>
      cases c with
      | insert new =>
          rw [entryWrites_insert]
          simp only [LogRecord.apply, RowChange.apply] at hdistinct' ⊢
          rw [Multiset.map_cons] at hdistinct' ⊢
          exact h.write_some hdistinct'
      | update old new sentOld sentNew =>
          obtain ⟨hmem, hoid, hsent⟩ := hpossible
          have himage : imageOf config (catalog new.relationOid) sentNew =
              new.image config catalog := (imageOf_eq_image_iff hsent).mpr hshown
          have herase := Multiset.map_erase_of_mem
            (TableRow.image config catalog) rows hmem
          simp only [LogRecord.apply, RowChange.apply] at hdistinct' ⊢
          rw [Multiset.map_cons, herase] at hdistinct' ⊢
          rw [entryWrites_update, himage]
          -- an old row that is not sent has the key of the new one
          have hfreed : (sentOld.toList.map fun sent => keyOf keyNames
                (imageOf config (catalog new.relationOid) sent.2)) =
                [keyOf keyNames (old.image config catalog)] ∨
              (sentOld.toList.map fun sent => keyOf keyNames
                (imageOf config (catalog new.relationOid) sent.2)) = [] ∧
                keyOf keyNames (old.image config catalog) =
                  keyOf keyNames (new.image config catalog) := by
            cases sentOld with
            | none => exact .inr ⟨rfl, htold⟩
            | some sent => exact .inl (congrArg (fun key => [key]) htold)
          have hupdate := holds_update h (Multiset.mem_map_of_mem _ hmem) hfreed
            hdistinct hdistinct'
          rwa [List.map_map] at hupdate
      | delete old tag sentOld =>
          have hmem : old ∈ rows := hpossible
          have herase := Multiset.map_erase_of_mem
            (TableRow.image config catalog) rows hmem
          rw [entryWrites_delete]
          simp only [LogRecord.apply, RowChange.apply, herase]
          have hkey : keyOf keyNames
              (imageOf config (catalog old.relationOid) sentOld) =
                keyOf keyNames (old.image config catalog) := htold
          rw [hkey]
          exact h.write_none hdistinct (Multiset.mem_map_of_mem _ hmem)
      | truncate relationOids options hcount =>
          have hall : rows.filter (fun row => row.relationOid ∉ relationOids) =
              rows := Multiset.filter_eq_self.mpr hshown
          rw [entryWrites_truncate]
          simp only [LogRecord.apply, RowChange.apply, hall]
          exact h

/-- The store behind some records, from one that has the rows of before. -/
theorem History.IsKeyed.holds {history : History catalog}
    (h : history.IsKeyed config keyNames) {store : ImageKey → Option Image}
    (hstart : Holds (keyOf keyNames) store
      (history.initial.map (TableRow.image config catalog)))
    {front : List LogEntry} (hfront : front <+: history.log) :
    Holds (keyOf keyNames)
      (replay store (front.flatMap (entryWrites config catalog keyNames)))
      ((history.rowsAfter front).map (TableRow.image config catalog)) := by
  induction front using List.reverseRecOn with
  | nil => exact hstart
  | append_singleton front entry ih =>
      have hbefore := (List.prefix_append front [entry]).trans hfront
      obtain ⟨behind, hsplit⟩ := hfront
      have hsplit' : history.log = front ++ entry :: behind := by
        rw [← hsplit, List.append_assoc]
        rfl
      have hafter : history.rowsAfter (front ++ [entry]) =
          entry.2.apply (history.rowsAfter front) := by
        rw [History.rowsAfter, List.foldl_append]
        rfl
      have hdistinct' := h.distinct (front ++ [entry]) ⟨behind, hsplit⟩
      rw [hafter] at hdistinct' ⊢
      rw [List.flatMap_append, replay_append, List.flatMap_singleton]
      exact holds_entryWrites (ih hbefore) (history.possible _ _ _ hsplit')
        (h.shown _ _ _ hsplit') (h.told entry (mem_of_split hsplit'))
        (h.distinct front hbefore) hdistinct'

end Steps

/-! ## What the snapshot reads -/

/-- The driver gives the value of a column, as text. -/
def TellsValue (answer : Row) (column : RelationColumn) : WireColumn → Prop
  | .null => answer.get column.name = some none
  | .unchanged => False
  | .text value _ => ∃ s : String, encodeUtf8 s.toList = value ∧
      answer.get column.name = some (some s)

def columnInfoOf (rel : RelationMessage) : List (String × UInt32) :=
  rel.columns.map fun column => (column.name, column.typeOid)

/-- The answers about a table that has these rows. -/
structure TableAnswer (client : SnapshotClient)
    (catalog : UInt32 → RelationMessage) (table : String)
    (rows : Multiset TableRow) where
  rel : RelationMessage
  found : List TableRow
  answers : List Row
  named : rel.schema = "public" ∧ rel.name = table
  distinct : (rel.columns.map RelationColumn.name).Nodup
  columns : client.columnInfo table = .ok (columnInfoOf rel)
  query : client.query (rowsQuery table (columnInfoOf rel)) = .ok answers
  tells : List.Forall₂ (fun answer row =>
    List.Forall₂ (TellsValue answer) rel.columns row.tuple.columns)
      answers found
  described : ∀ row ∈ found, catalog row.relationOid = rel
  complete : (found : Multiset TableRow) =
    rows.filter fun row => (catalog row.relationOid).name = table

theorem pgValueToJson_eq (parseJson : String → Option Value) {answer : Row}
    {column : RelationColumn} {value : WireColumn}
    (h : TellsValue answer column value) :
    pgValueToJson parseJson answer column.name column.typeOid =
      .ok (columnToJson parseJson column.typeOid value.column) := by
  cases value with
  | null =>
      have hget : answer.get column.name = some none := h
      rw [pgValueToJson, hget]
      rfl
  | unchanged => exact absurd h not_false
  | text value hlength =>
      obtain ⟨s, rfl, hget⟩ := h
      rw [pgValueToJson, hget]
      rfl

/-- The loop over the columns of an answer is the one over a tuple. -/
theorem foldlM_pgValueToJson (parseJson : String → Option Value)
    {answer : Row} {columns : List RelationColumn} {values : List WireColumn}
    (h : List.Forall₂ (TellsValue answer) columns values) (map : Map) :
    (columns.map fun column => (column.name, column.typeOid)).foldlM
        (fun map column => do
          let val ← pgValueToJson parseJson answer column.1 column.2
          return Map.insert map column.1 val) map =
      (.ok ((columns.zip (values.map WireColumn.column)).foldl (fun map pair =>
        Map.insert map pair.1.name
          (columnToJson parseJson pair.1.typeOid pair.2)) map) :
            Outcome Error Map) := by
  induction h generalizing map with
  | nil => rfl
  | cons hhead _ ih =>
      rw [List.map_cons, List.foldlM_cons, pgValueToJson_eq _ hhead]
      exact ih _

/-- A row of an answer becomes the image that the stream makes of the row. -/
theorem rowToJson_eq {answer : Row} {rel : RelationMessage} {tuple : WireTuple}
    (hdistinct : (rel.columns.map RelationColumn.name).Nodup)
    (h : List.Forall₂ (TellsValue answer) rel.columns tuple.columns) :
    rowToJson config.parseJson answer (columnInfoOf rel) =
      .ok (.object (rowEntries config rel tuple.tuple)) := by
  rw [rowToJson, columnInfoOf, foldlM_pgValueToJson _ h,
    ← columnsToJson_eq config hdistinct]
  rfl

/-- The event of a row, up to the clock. -/
def imageDraft (image : Image) : Draft :=
  rowDraft image.1.1 image.1.2.2 image.2

/-- A row that is read has an event with its image. -/
theorem rowDraft_eq {answer : Row} {row : TableRow} {rel : RelationMessage}
    {table : String} (hrel : catalog row.relationOid = rel)
    (htable : rel.name = table)
    (hdistinct : (rel.columns.map RelationColumn.name).Nodup)
    (h : List.Forall₂ (TellsValue answer) rel.columns row.tuple.columns) :
    (do
      let rowJson ← rowToJson config.parseJson answer (columnInfoOf rel)
      return rowDraft config.database table rowJson : Outcome Error Draft) =
      .ok (imageDraft (row.image config catalog)) := by
  subst hrel htable
  rw [rowToJson_eq hdistinct h]
  rfl

namespace TableAnswer

variable {client : SnapshotClient} {table : String} {rows : Multiset TableRow}

/-- The rows that were found, as the reader sees them. -/
def images (h : TableAnswer client catalog table rows)
    (config : StreamerConfig) : List Image :=
  h.found.map (TableRow.image config catalog)

theorem tableRows_eq (h : TableAnswer client catalog table rows) :
    tableRows client config table =
      .ok (((h.images config).map imageDraft).map .ok) := by
  have hrows : h.answers.map (fun answer => (do
      let rowJson ← rowToJson config.parseJson answer (columnInfoOf h.rel)
      return rowDraft config.database table rowJson : Outcome Error Draft)) =
        ((h.images config).map imageDraft).map .ok := by
    rw [images, List.map_map, List.map_map, ← List.forall₂_eq_eq_eq,
      List.forall₂_map_left_iff, List.forall₂_map_right_iff]
    have htold := List.forall₂_iff_zip.mp h.tells
    apply List.forall₂_iff_zip.mpr
    refine ⟨htold.1, ?_⟩
    intro answer row hpair
    exact rowDraft_eq (h.described row (List.of_mem_zip hpair).2) h.named.2
      h.distinct (htold.2 hpair)
  rw [tableRows, h.columns]
  simp only [orOther, Outcome.ok_bind, h.query, hrows]
  rfl

/-- The rows of the table are those that the reader puts there. -/
theorem mem_images_iff (h : TableAnswer client catalog table rows)
    (hpublic : ∀ row ∈ rows, (catalog row.relationOid).schema = "public")
    {image : Image} :
    image ∈ h.images config ↔
      image ∈ rows.map (TableRow.image config catalog) ∧
        image.1 = (config.database, some "public", table) := by
  have hfound : ∀ row, row ∈ h.found ↔
      row ∈ rows ∧ (catalog row.relationOid).name = table := by
    intro row
    rw [← Multiset.mem_coe, h.complete, Multiset.mem_filter]
  rw [images, List.mem_map, Multiset.mem_map]
  constructor
  · rintro ⟨row, hrow, rfl⟩
    obtain ⟨hmem, hname⟩ := (hfound row).mp hrow
    refine ⟨⟨row, hmem, rfl⟩, ?_⟩
    rw [TableRow.image, imageOf, hpublic row hmem, hname]
  · rintro ⟨⟨row, hmem, rfl⟩, hplace⟩
    have hname : (catalog row.relationOid).name = table :=
      congrArg (fun place => place.2.2) hplace
    exact ⟨row, (hfound row).mpr ⟨hmem, hname⟩, rfl⟩

theorem nodup_images (h : TableAnswer client catalog table rows)
    (hdistinct : ((rows.map (TableRow.image config catalog)).map
      (keyOf keyNames)).Nodup) :
    ((h.images config).map (keyOf keyNames)).Nodup := by
  have hle : (h.found : Multiset TableRow) ≤ rows := by
    rw [h.complete]
    exact Multiset.filter_le _ _
  exact Multiset.coe_nodup.mp
    (Multiset.nodup_of_le (Multiset.map_le_map (Multiset.map_le_map hle))
      hdistinct)

end TableAnswer

/-! ## Snapshot and stream together -/

/-- The answers to a snapshot that lists every table: each table is read at
some moment of the log. -/
structure History.Snapshotted (history : History catalog)
    (client : SnapshotClient) (tables : List String) : Prop where
  asked : ∃ text lsn, client.currentWalLsn = .ok text ∧ parseLsn text = .ok lsn
  given : tables ≠ []
  different : tables.Nodup
  listed : ∀ front, front <+: history.log → ∀ row ∈ history.rowsAfter front,
    (catalog row.relationOid).schema = "public" ∧
      (catalog row.relationOid).name ∈ tables
  answered : ∀ table ∈ tables, ∃ moment, moment <+: history.log ∧
    Nonempty (TableAnswer client catalog table (history.rowsAfter moment))

/-- Events that are built from drafts as the clock goes on. -/
def Stamps (drafts : List Draft) (events : List ChangeEvent) : Prop :=
  List.Forall₂ (fun draft event => ∃ clock, event = draft clock) drafts events

/-- What a snapshot has read: for each table the images of one moment. -/
structure Reads (history : History catalog) (config : StreamerConfig)
    (keyNames : KeyNames) (client : SnapshotClient) (table : String)
    (images : List Image) : Prop where
  read : tableRows client config table =
    .ok ((images.map imageDraft).map .ok)
  distinct : (images.map (keyOf keyNames)).Nodup
  moment : ∃ moment, moment <+: history.log ∧ ∀ image, image ∈ images ↔
    image ∈ (history.rowsAfter moment).map (TableRow.image config catalog) ∧
      image.1 = (config.database, some "public", table)

section CatchUp

variable {history : History catalog} {client : SnapshotClient}
variable {tables : List String} {images : String → List Image}

theorem History.Snapshotted.exists_reads
    (h : history.Snapshotted client tables)
    (hkeyed : history.IsKeyed config keyNames) :
    ∃ images : String → List Image, ∀ table ∈ tables,
      Reads history config keyNames client table (images table) := by
  have heach : ∀ table ∈ tables, ∃ images : List Image,
      Reads history config keyNames client table images := by
    intro table htable
    obtain ⟨moment, hmoment, ⟨answer⟩⟩ := h.answered table htable
    refine ⟨answer.images config, answer.tableRows_eq,
      answer.nodup_images (hkeyed.distinct moment hmoment), moment, hmoment, ?_⟩
    intro image
    exact answer.mem_images_iff fun row hrow => (h.listed moment hmoment row hrow).1
  choose! images himages using heach
  exact ⟨images, himages⟩

theorem place_of_mem_images
    (hreads : ∀ table ∈ tables,
      Reads history config keyNames client table (images table))
    {table : String} (htable : table ∈ tables) {image : Image}
    (himage : image ∈ images table) :
    image.1 = (config.database, some "public", table) := by
  obtain ⟨moment, -, hmem⟩ := (hreads table htable).moment
  exact ((hmem image).mp himage).2

/-- No two rows of the snapshot have one key. -/
theorem nodup_flatMap_images (hdifferent : tables.Nodup)
    (hreads : ∀ table ∈ tables,
      Reads history config keyNames client table (images table)) :
    ((tables.flatMap images).map (keyOf keyNames)).Nodup := by
  rw [List.map_flatMap, List.nodup_flatMap]
  refine ⟨fun table htable => (hreads table htable).distinct, ?_⟩
  apply hdifferent.imp_of_mem
  intro table table' htable htable' hne k hk hk'
  obtain ⟨image, himage, rfl⟩ := List.mem_map.mp hk
  obtain ⟨image', himage', hkey⟩ := List.mem_map.mp hk'
  have hplace := congrArg Prod.fst hkey
  rw [keyOf, keyOf, place_of_mem_images hreads htable himage,
    place_of_mem_images hreads htable' himage'] at hplace
  exact hne (congrArg (fun place => place.2.2) hplace).symm

theorem snapshot_eq (h : history.Snapshotted client tables)
    (hreads : ∀ table ∈ tables,
      Reads history config keyNames client table (images table)) :
    ∃ lsn, snapshot client config tables none =
      ((tables.flatMap images).map imageDraft, .ok (.fromLsn lsn)) := by
  obtain ⟨text, lsn, htext, hlsn⟩ := h.asked
  have hplan : snapshotPlan client tables = .ok (lsn, tables) := by
    simp only [snapshotPlan, htext, hlsn, if_neg h.given, orOther,
      Outcome.ofExcept, Outcome.ok_bind]
    rfl
  have hread : Room.ReadAs (tableRows client config) tables
      (tables.map fun table => (images table).map imageDraft) := by
    apply List.forall₂_map_right_iff.mpr
    apply List.forall₂_same.mpr
    exact fun table htable => (hreads table htable).read
  have hgroups : Room.sendGroups (fun _ => false)
      (Room.sendRead (Error.other "snapshot sink closed")
        (tableRows client config)) tables none =
      ((tables.map fun table => (images table).map imageDraft).flatten,
        .ok ()) :=
    Room.sendGroups_stay_eq_ok_iff.mpr ⟨_, hread, rfl, Room.fits_none _⟩
  refine ⟨lsn, ?_⟩
  rw [snapshot, hplan, snapshotTable_eq]
  simp only [hgroups]
  rw [List.map_flatMap, List.flatMap]
  rfl

/-- The reader writes each row of the snapshot under its key. -/
theorem flatMap_eventWrites_of_stamps {rows : List Image}
    (hpublic : ∀ image ∈ rows, image.1.2.1 = some "public")
    {events : List ChangeEvent}
    (h : Stamps (rows.map imageDraft) events) :
    events.flatMap (eventWrites keyNames) =
      rows.map fun image => (keyOf keyNames image, some image) := by
  have hforall := List.forall₂_map_left_iff.mp h
  clear h
  induction hforall with
  | nil => rfl
  | @cons image event rows events hhead _ ih =>
      obtain ⟨hschema, hrest⟩ := List.forall_mem_cons.mp hpublic
      obtain ⟨clock, rfl⟩ := hhead
      have hplace : placeOf (imageDraft image clock).payload.source = image.1 := by
        have hsource : placeOf (imageDraft image clock).payload.source =
            (image.1.1, some "public", image.1.2.2) := rfl
        rw [hsource, ← hschema]
      have hwrites : eventWrites keyNames (imageDraft image clock) =
          [(keyOf keyNames image, some image)] := by
        change [(keyOf keyNames
          (placeOf (imageDraft image clock).payload.source, image.2),
            some (placeOf (imageDraft image clock).payload.source, image.2))] = _
        rw [hplace]
      rw [List.flatMap_cons, List.map_cons, hwrites, ih hrest]
      rfl

open scoped Classical

/-- Under each key the rows of the snapshot show one moment of the log. -/
theorem exists_moment (h : history.Snapshotted client tables)
    (hkeyed : history.IsKeyed config keyNames)
    (hreads : ∀ table ∈ tables,
      Reads history config keyNames client table (images table))
    {store mixed : ImageKey → Option Image}
    (hstore : Holds (keyOf keyNames) store
      (history.initial.map (TableRow.image config catalog)))
    (hmixed : Holds (keyOf keyNames) mixed
      (tables.flatMap images : List Image)) (k : ImageKey) :
    ∃ seen, seen <+: history.log.flatMap (entryWrites config catalog keyNames) ∧
      mixed k = replay store seen k := by
  by_cases hplace : ∃ table ∈ tables,
      k.1 = (config.database, some "public", table)
  · -- the moment at which the table was read
    obtain ⟨table, htable, hk⟩ := hplace
    obtain ⟨moment, hmoment, hmem⟩ := (hreads table htable).moment
    refine ⟨moment.flatMap (entryWrites config catalog keyNames), ?_, ?_⟩
    · obtain ⟨behind, hsplit⟩ := hmoment
      rw [← hsplit, List.flatMap_append]
      exact List.prefix_append _ _
    · apply hmixed.apply_eq (hkeyed.holds hstore hmoment)
      rintro image rfl
      rw [Multiset.mem_coe, List.mem_flatMap]
      constructor
      · rintro ⟨table', htable', himage⟩
        have hplace := place_of_mem_images hreads htable' himage
        obtain rfl : table' = table :=
          congrArg (fun place => place.2.2) (hplace.symm.trans hk)
        exact ((hmem image).mp himage).1
      · intro himage
        exact ⟨table, htable, (hmem image).mpr ⟨himage, hk⟩⟩
  · -- no row of the server is in another place
    refine ⟨[], List.nil_prefix, ?_⟩
    apply hmixed.apply_eq hstore
    rintro image rfl
    rw [Multiset.mem_coe, List.mem_flatMap]
    apply iff_of_false
    · rintro ⟨table, htable, himage⟩
      exact hplace ⟨table, htable, place_of_mem_images hreads htable himage⟩
    · intro himage
      obtain ⟨row, hrow, rfl⟩ := Multiset.mem_map.mp himage
      obtain ⟨hschema, hname⟩ := h.listed [] List.nil_prefix row hrow
      refine hplace ⟨_, hname, ?_⟩
      rw [keyOf, TableRow.image, imageOf, hschema]

/-- A relation in the public schema with one key column. -/
def keyedRelation : RelationMessage := ⟨1, "public", "b", [⟨1, "c", 25, -1⟩]⟩

def announcedKeyed : Bytes :=
  [82, 0, 0, 0, 1, 112, 117, 98, 108, 105, 99, 0, 98, 0, 0, 0, 0, 1, 1, 99, 0, 0,
    0, 0, 25, 255, 255, 255, 255]

theorem announcement_announcedKeyed :
    PgOutputDecoder.announcement announcedKeyed = some keyedRelation := by
  decide

/-- The row is inserted behind the start of the stream. -/
def keyedInsert : History (fun _ => keyedRelation) where
  initial := 0
  log := [(⟨0, 0⟩, .other announcedKeyed
      (.inr ⟨.relation keyedRelation, by decide, rfl⟩)),
    (⟨0, 0⟩, .change (.insert History.rowOfX))]
  announced := by
    apply announced_cons announcement_announcedKeyed (by decide)
    intro data hdata
    rw [List.mem_singleton.mp hdata]
    refine ⟨rfl, ?_⟩
    intro msg oid hmsg hoid
    have hmessage := hmsg.symm.trans (decoded_message (.insert History.rowOfX))
    obtain rfl := Option.some_inj.mp (Outcome.ok.inj hmessage)
    exact (Option.some_inj.mp hoid).symm
  agrees := by
    intro entry hentry rel hrel
    rcases List.mem_pair.mp hentry with rfl | rfl
    · exact Option.some_inj.mp (hrel.symm.trans announcement_announcedKeyed)
    · cases hrel
  possible := by
    intro front entry behind hsplit
    rcases List.mem_pair.mp (mem_of_split hsplit) with rfl | rfl <;> trivial

theorem isKeyed_keyedInsert :
    keyedInsert.IsKeyed ⟨"db", fun _ => none⟩ (fun _ => ["c"]) where
  distinct := by
    intro front hfront
    -- no record, the announcement, or both records
    rcases List.prefix_cons_iff.mp hfront with rfl | ⟨more, rfl, hmore⟩
    · exact Multiset.nodup_zero
    rcases List.prefix_cons_iff.mp hmore with rfl | ⟨rest, rfl, hrest⟩
    · exact Multiset.nodup_zero
    obtain rfl := List.prefix_nil.mp hrest
    exact Multiset.nodup_singleton _
  told := by
    intro entry hentry
    rcases List.mem_pair.mp hentry with rfl | rfl <;> trivial
  shown := by
    intro front entry behind hsplit
    rcases List.mem_pair.mp (mem_of_split hsplit) with rfl | rfl <;> trivial

/-- A server that answers when the row is there. -/
def answersLate : SnapshotClient where
  currentWalLsn := .ok (lsnText 0)
  publicTables := .ok []
  columnInfo := fun _ => .ok (columnInfoOf keyedRelation)
  query := fun _ => .ok [⟨fun _ => some (some "x")⟩]

theorem snapshotted_keyedInsert : keyedInsert.Snapshotted answersLate ["b"] where
  asked := ⟨_, 0, rfl, (parseLsn_lsnText_eq_ok_iff 0 0).mpr rfl⟩
  given := by decide
  different := by decide
  listed := fun _ _ _ _ => ⟨rfl, List.mem_singleton.mpr rfl⟩
  answered := by
    intro table htable
    obtain rfl := List.mem_singleton.mp htable
    refine ⟨keyedInsert.log, List.prefix_rfl, ⟨{
      rel := keyedRelation
      found := [History.rowOfX]
      answers := [⟨fun _ => some (some "x")⟩]
      named := ⟨rfl, rfl⟩
      distinct := by decide
      columns := rfl
      query := rfl
      tells := ?_
      described := fun _ _ => rfl
      complete := ?_ }⟩⟩
    · exact .cons (.cons ⟨"x", by decide, rfl⟩ .nil) .nil
    · exact (Multiset.filter_eq_self.mpr fun _ _ => rfl).symm

end CatchUp

end OpenCdc.Postgres
