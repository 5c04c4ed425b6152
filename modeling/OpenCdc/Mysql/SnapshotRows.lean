import OpenCdc.Foundation.Groups
import OpenCdc.Mysql.TextRow

/-!
# The rows of a MySQL snapshot

The loop over the tables asks for the rows of one table after the other on one
connection.  It looks for the receiver in front of every table, so that a
receiver that goes right behind the last row of a table passes unnoticed.
-/

namespace OpenCdc.Mysql

open Foundation Json

/-! ## The loop over the tables -/

/-- The events for the rows of an entry of the table list. -/
def tableDrafts (database table : String) (rows : List Map) : List Draft :=
  rows.map (rowDraft (splitTable database table).1 (splitTable database table).2)

theorem snapshotTables_cons (server : Server) (database table : String)
    (tables : List String) (room : Room) (stream : Bytes) :
    snapshotTables server database (table :: tables) room stream =
      if room = some 0 then ⟨[], [], .ok .snapshotDone⟩
      else
        match server.query stream (tableQuery database table) with
        | .error e => ⟨[tableQuery database table], [], .error e⟩
        | .panicked => ⟨[tableQuery database table], [], .panicked⟩
        | .ok (rows, stream') =>
            let send := room.sendWhile (ι := String)
              (tableDrafts database table rows)
            if send.2.2 then
              ⟨[tableQuery database table], sentOf send.1,
                .error (.other "snapshot sink closed")⟩
            else
              let rest :=
                snapshotTables server database tables send.2.1 stream'
              ⟨tableQuery database table :: rest.queries,
                sentOf send.1 ++ rest.sent, rest.result⟩ :=
  rfl

section Steps

variable {server : Server} {database table : String} {tables : List String}
  {room : Room} {stream stream' : Bytes} {rows : List Map}

theorem snapshotTables_closed :
    snapshotTables server database tables (some 0) stream =
      ⟨[], [], .ok .snapshotDone⟩ := by
  cases tables <;> rfl

theorem snapshotTables_of_fits (hopen : room ≠ some 0)
    (hquery : server.query stream (tableQuery database table) =
      .ok (rows, stream'))
    (hfits : room.Fits (tableDrafts database table rows).length) :
    snapshotTables server database (table :: tables) room stream =
      let rest := snapshotTables server database tables
        (room.spend (tableDrafts database table rows).length) stream'
      ⟨tableQuery database table :: rest.queries,
        tableDrafts database table rows ++ rest.sent, rest.result⟩ := by
  obtain ⟨hsent, hroom, hleft⟩ := @Room.sentOf_sendWhile String _ room
    (tableDrafts database table rows)
  rw [snapshotTables_cons, if_neg hopen, hquery]
  dsimp only
  rw [if_neg (mt hleft.mp (not_not_intro hfits)), hsent, hroom,
    Room.taken_of_fits hfits]

theorem snapshotTables_of_not_fits (hopen : room ≠ some 0)
    (hquery : server.query stream (tableQuery database table) =
      .ok (rows, stream'))
    (hfits : ¬room.Fits (tableDrafts database table rows).length) :
    snapshotTables server database (table :: tables) room stream =
      ⟨[tableQuery database table],
        room.taken (tableDrafts database table rows),
        .error (.other "snapshot sink closed")⟩ := by
  obtain ⟨hsent, -, hleft⟩ := @Room.sentOf_sendWhile String _ room
    (tableDrafts database table rows)
  rw [snapshotTables_cons, if_neg hopen, hquery]
  dsimp only
  rw [if_pos (hleft.mpr hfits), hsent]

end Steps

/-- A receiver that goes early has taken the beginning of what the loop would
have sent. -/
theorem sent_snapshotTables (server : Server) (database : String)
    (tables : List String) (room : Room) (stream : Bytes) :
    (snapshotTables server database tables room stream).sent =
      room.taken (snapshotTables server database tables none stream).sent := by
  induction tables generalizing room stream with
  | nil => exact (Room.taken_of_fits room.fits_zero).symm
  | cons table tables ih =>
      have hnone : (none : Room) ≠ some 0 := by simp
      by_cases hopen : room = some 0
      · rw [hopen, snapshotTables_closed]
        rfl
      · rcases hquery : server.query stream (tableQuery database table) with
          ⟨rows, stream'⟩ | e | _
        · rw [snapshotTables_of_fits hnone hquery (Room.fits_none _)]
          by_cases hfits : room.Fits (tableDrafts database table rows).length
          · rw [snapshotTables_of_fits hopen hquery hfits]
            dsimp only
            rw [Room.taken_append, Room.taken_of_fits hfits, ih]
            rfl
          · rw [snapshotTables_of_not_fits hopen hquery hfits]
            dsimp only
            rw [Room.taken_append_of_not_fits hfits]
        · rw [snapshotTables_cons, snapshotTables_cons, if_neg hopen,
            if_neg hnone, hquery]
          exact (Room.taken_of_fits room.fits_zero).symm
        · rw [snapshotTables_cons, snapshotTables_cons, if_neg hopen,
            if_neg hnone, hquery]
          exact (Room.taken_of_fits room.fits_zero).symm

/-! ## Snapshots that return without an error -/

/-- The queries for the tables are answered with these rows, one answer behind
the other on the connection. -/
inductive Answered (server : Server) (database : String) :
    List String → Bytes → List (List Draft) → Prop
  | nil {stream : Bytes} : Answered server database [] stream []
  | cons {table : String} {tables : List String} {stream stream' : Bytes}
      {rows : List Map} {values : List (List Draft)}
      (query : server.query stream (tableQuery database table) =
        .ok (rows, stream'))
      (rest : Answered server database tables stream' values) :
      Answered server database (table :: tables) stream
        (tableDrafts database table rows :: values)

/-- The loop ends without an error exactly if some of the tables, from the
first one on, are answered and all of their rows are taken, and either these
are all tables or the receiver is gone right behind them. -/
theorem snapshotTables_ok_iff {server : Server} {database : String}
    {tables : List String} {room : Room} {stream : Bytes}
    {sent : List Draft} :
    (snapshotTables server database tables room stream).sent = sent ∧
        (snapshotTables server database tables room stream).result =
          .ok .snapshotDone ↔
      ∃ front values, front <+: tables ∧
        Answered server database front stream values ∧
        sent = values.flatten ∧ room.Fits sent.length ∧
        (front = tables ∨ room = some sent.length) := by
  induction tables generalizing room stream sent with
  | nil =>
      constructor
      · rintro ⟨rfl, -⟩
        exact ⟨[], [], List.prefix_rfl, .nil, rfl, room.fits_zero, .inl rfl⟩
      · rintro ⟨front, values, hfront, hanswered, rfl, -⟩
        rw [List.prefix_nil.mp hfront] at hanswered
        cases hanswered
        exact ⟨rfl, rfl⟩
  | cons table tables ih =>
      by_cases hopen : room = some 0
      · subst hopen
        rw [snapshotTables_closed]
        constructor
        · rintro ⟨rfl, -⟩
          exact ⟨[], [], List.nil_prefix, .nil, rfl, Room.fits_zero _,
            .inr rfl⟩
        · rintro ⟨front, values, -, -, rfl, hfits, -⟩
          have hnil : values.flatten = [] :=
            List.length_eq_zero_iff.mp (Nat.le_zero.mp (hfits 0 rfl))
          exact ⟨hnil.symm, rfl⟩
      · constructor
        · rcases hquery : server.query stream (tableQuery database table) with
            ⟨rows, stream'⟩ | e | _
          · by_cases hfits : room.Fits (tableDrafts database table rows).length
            · rw [snapshotTables_of_fits hopen hquery hfits]
              rintro ⟨rfl, hresult⟩
              obtain ⟨front, values, hfront, hanswered, hsent, hspend, hend⟩ :=
                ih.mp ⟨rfl, hresult⟩
              refine ⟨table :: front, _, List.cons_prefix_cons.mpr ⟨rfl, hfront⟩,
                .cons hquery hanswered, congrArg (_ ++ ·) hsent,
                (Room.fits_spend_append_iff hfits).mp hspend,
                hend.imp (congrArg (table :: ·)) (Room.spend_eq_some_iff hfits).mp⟩
            · rw [snapshotTables_of_not_fits hopen hquery hfits]
              rintro ⟨-, hresult⟩
              cases hresult
          · rw [snapshotTables_cons, if_neg hopen, hquery]
            rintro ⟨-, hresult⟩
            cases hresult
          · rw [snapshotTables_cons, if_neg hopen, hquery]
            rintro ⟨-, hresult⟩
            cases hresult
        · rintro ⟨front, values, hfront, hanswered, rfl, hfits, hend⟩
          cases hanswered with
          | nil =>
              -- the receiver is still there, so the front is not empty
              rcases hend with hnil | hend
              · cases hnil
              · exact absurd hend hopen
          | @cons first front _ stream' rows values hquery hanswered =>
              have hfirst : room.Fits (tableDrafts database first rows).length :=
                hfits.mono (by simp)
              obtain ⟨rfl, hfront'⟩ := List.cons_prefix_cons.mp hfront
              obtain ⟨hsent, hresult⟩ := ih.mpr ⟨front, values, hfront', hanswered,
                rfl, (Room.fits_spend_append_iff hfirst).mpr hfits,
                hend.imp (fun hall => (List.cons.inj hall).2)
                  (Room.spend_eq_some_iff hfirst).mpr⟩
              rw [snapshotTables_of_fits hopen hquery hfirst]
              exact ⟨congrArg (_ ++ ·) hsent, hresult⟩

/-! ## Result sets -/

theorem frames_append (seq : UInt8) (front back : List Bytes) :
    frames seq (front ++ back) =
      frames seq front ++ frames (seq + UInt8.ofNat front.length) back := by
  induction front generalizing seq with
  | nil => simp [frames]
  | cons body front ih =>
      have hseq : seq + 1 + UInt8.ofNat front.length =
          seq + UInt8.ofNat (front.length + 1) := by
        rw [UInt8.ofNat_add, UInt8.add_assoc, UInt8.add_comm 1]
        rfl
      simp only [List.cons_append, frames, ih, List.length_cons, hseq,
        List.append_assoc]

theorem skipPackets_frames {bodies : List Bytes}
    (h : ∀ body ∈ bodies, body.length < 2 ^ 24) (seq : UInt8) (rest : Bytes) :
    skipPackets bodies.length (frames seq bodies ++ rest) = .ok rest := by
  induction bodies generalizing seq with
  | nil => rfl
  | cons body bodies ih =>
      obtain ⟨hbody, hbodies⟩ := List.forall_mem_cons.mp h
      rw [List.length_cons, skipPackets, frames, List.append_assoc,
        readMysqlPacket_frame hbody, Outcome.ok_bind]
      exact ih hbodies _

/-- The answer to a query: the definitions of the columns and the packet behind
them, the rows, and the packet that ends them.  Every text of a row is shorter
than 251 bytes. -/
structure ResultSet where
  columns : List Bytes
  behindColumns : Bytes
  rows : List TextRow
  behindRows : Bytes
  length_columns : columns.length ≤ 250
  columns_lt : ∀ column ∈ columns, column.length < 2 ^ 24
  behindColumns_lt : behindColumns.length < 2 ^ 24
  length_cells : ∀ row ∈ rows, row.cells.length = columns.length
  isShort : ∀ row ∈ rows, row.IsShort
  behindRows_lt : (0xfe :: behindRows).length < 2 ^ 24

namespace ResultSet

def bodies (set : ResultSet) : List Bytes :=
  [UInt8.ofNat set.columns.length] :: (set.columns ++ set.behindColumns ::
    (set.rows.map TextRow.encode ++ [0xfe :: set.behindRows]))

def encode (set : ResultSet) : Bytes := frames 1 set.bodies

def objects (set : ResultSet) : List Map := set.rows.map TextRow.object

end ResultSet

theorem readResultRows_textRows {rows : List TextRow} {columns : ℕ}
    (hcells : ∀ row ∈ rows, row.cells.length = columns)
    (hshort : ∀ row ∈ rows, row.IsShort) {closing : Bytes}
    (hends : EndsRows closing) (hclosing : closing.length < 2 ^ 24)
    (seq : UInt8) :
    readResultRows columns
        (frames seq (rows.map TextRow.encode ++ [closing])) =
      .ok (rows.map TextRow.object, []) := by
  induction rows generalizing seq with
  | nil =>
      apply readResultRows_eq_ok_iff.mpr
      exact ⟨closing, [], readMysqlPacket_frame hclosing,
        .inl ⟨hends, rfl, rfl⟩⟩
  | cons row rows ih =>
      obtain ⟨hrow, hrows⟩ := List.forall_mem_cons.mp hcells
      obtain ⟨hfirst, hrest⟩ := List.forall_mem_cons.mp hshort
      have hread := TextRow.isReadBack_of_isShort hfirst seq
        (frames (seq + 1) (rows.map TextRow.encode ++ [closing]))
      rw [hrow, ih hrows hrest] at hread
      exact hread

/-- A result set is read whole. -/
theorem ResultSet.queryTable_encode (set : ResultSet) :
    queryTable set.encode = .ok (set.objects, []) := by
  have hlength := set.length_columns
  have hcount : (UInt8.ofNat set.columns.length).toNat = set.columns.length := by
    rw [UInt8.toNat_ofNat', Nat.mod_eq_of_lt (by omega)]
  have hnot : UInt8.ofNat set.columns.length ≠ 0xff := by
    intro heq
    rw [heq] at hcount
    simp only [UInt8.reduceToNat] at hcount
    omega
  have hfirst : ([UInt8.ofNat set.columns.length] : Bytes).length < 2 ^ 24 := by
    change 1 < 2 ^ 24
    decide
  rw [queryTable, encode, bodies, frames, readMysqlPacket_frame hfirst,
    Outcome.ok_bind]
  dsimp only
  rw [if_neg hnot, hcount, frames_append, skipPackets_frames set.columns_lt,
    Outcome.ok_bind, frames, readMysqlPacket_frame set.behindColumns_lt,
    Outcome.ok_bind]
  exact readResultRows_textRows set.length_cells set.isShort (.inr rfl)
    set.behindRows_lt _

/-! ## Snapshots of tables whose rows are read -/

/-- The events for the rows of the tables, table by table. -/
def rowsOf (database : String) (sets : String → ResultSet)
    (tables : List String) : List (List Draft) :=
  tables.map fun table => tableDrafts database table (sets table).objects

theorem answered_of_resultSets {server : Server} {database : String}
    {sets : String → ResultSet} {tables : List String}
    (h : ∀ table ∈ tables,
      server.answer (tableQuery database table) = (sets table).encode) :
    Answered server database tables [] (rowsOf database sets tables) := by
  induction tables with
  | nil => exact .nil
  | cons table tables ih =>
      obtain ⟨htable, htables⟩ := List.forall_mem_cons.mp h
      refine .cons ?_ (ih htables)
      rw [Server.query, htable, List.nil_append, ResultSet.queryTable_encode]

theorem Answered.unique {server : Server} {database : String}
    {tables : List String} {stream : Bytes} {values values' : List (List Draft)}
    (h : Answered server database tables stream values)
    (h' : Answered server database tables stream values') :
    values = values' := by
  induction h generalizing values' with
  | nil =>
      cases h'
      rfl
  | cons hquery _ ih =>
      cases h' with
      | cons hquery' hrest' =>
          rw [hquery] at hquery'
          obtain ⟨rfl, rfl⟩ := Prod.mk.inj (Outcome.ok.inj hquery')
          rw [ih hrest']

/-- The only thing that can go wrong behind queries that are answered. -/
theorem Answered.result {server : Server} {database : String}
    {tables : List String} {stream : Bytes} {values : List (List Draft)}
    (h : Answered server database tables stream values) (room : Room) :
    (snapshotTables server database tables room stream).result =
        .ok .snapshotDone ∨
      (snapshotTables server database tables room stream).result =
        .error (.other "snapshot sink closed") := by
  induction h generalizing room with
  | nil => exact .inl rfl
  | @cons table tables _ stream' rows values hquery _ ih =>
      by_cases hopen : room = some 0
      · rw [hopen, snapshotTables_closed]
        exact .inl rfl
      · by_cases hfits : room.Fits (tableDrafts database table rows).length
        · rw [snapshotTables_of_fits hopen hquery hfits]
          exact ih _
        · rw [snapshotTables_of_not_fits hopen hquery hfits]
          exact .inr rfl

/-- What a snapshot does whose receiver has some room, of tables with these
events. -/
structure SendsRows (run : SnapshotRun) (groups : List (List Draft))
    (room : Room) : Prop where
  sent : run.sent = room.taken groups.flatten
  done : run.result = .ok .snapshotDone ↔
    room.Fits groups.flatten.length ∨
      ∃ front, front <+: groups ∧ room = some front.flatten.length
  closed : run.result = .ok .snapshotDone ∨
    run.result = .error (.other "snapshot sink closed")

/-- A table with one row of two columns. -/
def usersSet : ResultSet where
  columns := [[], []]
  behindColumns := [0xfe, 0, 0, 0x22, 0]
  rows := [⟨[some "1", none], by decide, by decide⟩]
  behindRows := [0, 0, 0x22, 0]
  length_columns := by decide
  columns_lt := by decide
  behindColumns_lt := by decide
  length_cells := by decide
  isShort := by
    intro row hrow s hs
    rw [List.mem_singleton.mp hrow] at hs
    obtain rfl : s = "1" := by simpa using hs
    decide
  behindRows_lt := by decide

/-- A server that lets everybody in and gives every query one answer. -/
def Server.ofAnswer (answer : Bytes) : Server where
  greeting := frame 0 Greeting.usual.encode
  authReply := frame 2 [0, 0, 0, 2, 0, 0, 0]
  answer := fun _ => answer

end OpenCdc.Mysql
