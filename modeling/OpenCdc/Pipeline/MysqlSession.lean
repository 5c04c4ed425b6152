import OpenCdc.Mysql.Commands
import OpenCdc.Pipeline.Handoff
import OpenCdc.Pipeline.Reconnecting
import OpenCdc.Pipeline.SinkHistories

/-!
# The session of a MySQL stream

`MySqlConnector::stream` connects, registers as a replica, requests a dump from
where its context says, and reads events until something fails.  What the
server is asked for is not always what the context says.
-/

namespace OpenCdc.Mysql

open Foundation Pipeline

/-! ## Opening a stream -/

/-- A turn whose errors are labelled: `map_err`. -/
def labelled (label : String) (turn : Turn String) : Turn Error where
  message := turn.message
  read stream :=
    let (result, rest) := turn.read stream
    (result.mapError fun e => .other (label ++ e), rest)

def registerTurn (config : MySqlConnectorConfig) : Turn Error :=
  labelled "register slave: " (registerSlave config)

def dumpTurn (config : MySqlConnectorConfig) : DumpRequest → Turn Error
  | .gtid gtidSet => labelled "dump gtid: " (dumpGtid config gtidSet)
  | .binlog filename pos => labelled "dump binlog: " (dumpBinlog config filename pos)

/-- What `stream` does in front of its loop. -/
def openStream (sha1 : Sha1) (config : MySqlConnectorConfig)
    (network : ℕ → Except String Reached) (ctx : StreamContext) :
    Outcome Error Line :=
  match (connectWithRetry sha1 config network).2 with
  | .error e => .error e
  | .panicked => .panicked
  | .ok (peer, line) =>
      match runTurns peer
          [registerTurn config, dumpTurn config (dumpRequest ctx)] line with
      | (.ok _, line) => .ok line
      | (.error e, _) => .error e
      | (.panicked, _) => .panicked

/-- `MySqlConnector::stream` -/
def streamCall (json : JsonParser) (sha1 : Sha1)
    (config : Option MySqlConnectorConfig)
    (network : ℕ → Except String Reached) (ctx : StreamContext) (room : Room) :
    List (Observation Delivery Draft) × Outcome Error Unit :=
  match config with
  | none => ([], .error (.other "config not set"))
  | some config =>
      match openStream sha1 config network ctx with
      | .ok line => stream json ⟨line.arrived, {}⟩ room
      | .error e => ([], .error e)
      | .panicked => ([], .panicked)

variable {sha1 : Sha1} {config : MySqlConnectorConfig}
  {network : ℕ → Except String Reached} {ctx : StreamContext}

/-! ## The messages of a session -/

/-- A connected client has written its login. -/
theorem written_of_connect {reached : Except String Reached} {peer : Peer}
    {line : Line}
    (h : BinlogClient.connect sha1 config reached = .ok (peer, line)) :
    ∃ scramble, line.written = [sendAuth sha1 config scramble] := by
  unfold BinlogClient.connect at h
  rcases reached with e | reached
  · cases h
  · dsimp only at h
    rcases hshake : handshake sha1 config reached.peer ⟨reached.greeting, []⟩ with
      ⟨_ | _ | _, line'⟩ <;> simp only [hshake] at h
    · obtain ⟨rfl, rfl⟩ := Prod.mk.inj (Outcome.ok.inj h)
      unfold handshake at hshake
      split at hshake
      · dsimp only at hshake
        split at hshake
        · next scramble _ =>
            have hwritten := (runTurns_eq_ok_iff.mp hshake).written
            exact ⟨scramble, hwritten⟩
        · cases hshake
        · cases hshake
      · cases hshake
      · cases hshake
    · cases h
    · cases h

/-- A stream is open behind three messages, each written behind the reply that
the client wants to the one before. -/
theorem openStream_eq_ok_iff {line : Line} :
    openStream sha1 config network ctx = .ok line ↔
      ∃ peer connected,
        (connectWithRetry sha1 config network).2 = .ok (peer, connected) ∧
        Foundation.Answered peer
          [registerTurn config, dumpTurn config (dumpRequest ctx)]
          connected line := by
  unfold openStream
  rcases hconnect : (connectWithRetry sha1 config network).2 with
    ⟨peer, connected⟩ | e | _
  · constructor
    · intro h
      rcases hrun : runTurns peer [registerTurn config,
        dumpTurn config (dumpRequest ctx)] connected with ⟨⟨⟩ | _ | _, line'⟩ <;>
          simp only [hrun] at h
      · rw [← Outcome.ok.inj h]
        exact ⟨peer, connected, rfl, runTurns_eq_ok_iff.mp hrun⟩
      · cases h
      · cases h
    · rintro ⟨peer', connected', hsame, hanswered⟩
      obtain ⟨rfl, rfl⟩ := Prod.mk.inj (Outcome.ok.inj hsame)
      simp only [runTurns_eq_ok_iff.mpr hanswered]
  · apply iff_of_false (by simp)
    rintro ⟨peer, connected, hsame, -⟩
    cases hsame
  · apply iff_of_false (by simp)
    rintro ⟨peer, connected, hsame, -⟩
    cases hsame

theorem written_of_openStream {line : Line}
    (h : openStream sha1 config network ctx = .ok line) :
    ∃ scramble, line.written = [sendAuth sha1 config scramble,
      (registerTurn config).message,
      (dumpTurn config (dumpRequest ctx)).message] := by
  obtain ⟨peer, connected, hconnect, hanswered⟩ := openStream_eq_ok_iff.mp h
  obtain ⟨k, -, hattempt⟩ := connectWithRetry_eq_iff.mp hconnect
  rcases hclient : BinlogClient.connect sha1 config (network k) with
    reached | e | _
  · rw [hclient] at hattempt
    rw [Outcome.ok.inj hattempt] at hclient
    obtain ⟨scramble, hwritten⟩ := written_of_connect hclient
    refine ⟨scramble, ?_⟩
    rw [hanswered.written, hwritten]
    rfl
  · rw [hclient] at hattempt
    cases hattempt
  · rw [hclient] at hattempt
    cases hattempt

/-! ## What the server is asked for -/

/-- The context, as `MySqlConnector::stream` reads it. -/
def gtidOf (ctx : StreamContext) : String := (ctx.offset.bind (·.gtid)).getD ""

def fileOf (ctx : StreamContext) : String := (ctx.offset.bind (·.file)).getD ""

def posOf (ctx : StreamContext) : Int64 := (ctx.offset.bind (·.pos)).getD 4

/-- A dump that starts where the context says. -/
def Dump.Meets (config : MySqlConnectorConfig) (ctx : StreamContext) :
    Dump → Prop
  | .gtid gtidSet serverId =>
      gtidOf ctx ≠ "" ∧ gtidSet = asBytes (gtidOf ctx) ∧
        serverId = config.serverId.toNat
  | .binlog filename pos serverId =>
      gtidOf ctx = "" ∧ filename = asBytes (fileOf ctx) ∧
        (pos : ℤ) = (posOf ctx).toInt ∧ serverId = config.serverId.toNat

/-- The arguments of the dump command of a session. -/
def dumpArgs (config : MySqlConnectorConfig) : DumpRequest → Bytes
  | .gtid gtidSet => dumpGtidArgs config gtidSet
  | .binlog filename pos => dumpBinlogArgs config filename pos

theorem dumpRequest_eq (ctx : StreamContext) :
    dumpRequest ctx =
      if gtidOf ctx ≠ "" then .gtid (gtidOf ctx)
      else .binlog (fileOf ctx) (posOf ctx).toUInt64.toUInt32 :=
  rfl

/-- `as u32` keeps the positions that have 32 bits. -/
theorem toNat_toUInt32_eq_iff (pos : Int64) :
    (pos.toUInt64.toUInt32.toNat : ℤ) = pos.toInt ↔
      0 ≤ pos.toInt ∧ pos.toInt < 2 ^ 32 := by
  have hcond := BitVec.toInt_eq_toNat_cond pos.toBitVec
  have hlt := pos.toUInt64.toNat_lt
  have hint : pos.toBitVec.toInt = pos.toInt := rfl
  have hnat : pos.toBitVec.toNat = pos.toUInt64.toNat := rfl
  rw [hint, hnat] at hcond
  rw [UInt64.toNat_toUInt32]
  split_ifs at hcond with hsign
  · omega
  · omega

theorem asBytes_ne_nil {text : String} (h : text ≠ "") : asBytes text ≠ [] := by
  intro hnil
  have htext := fromUtf8Lossy_encodeUtf8 text
  rw [show encodeUtf8 text.toList = [] from hnil] at htext
  exact h (htext.symm.trans rfl)

/-- The server reads the dump that the context asks for exactly if there is no
GTID set, the file has no zero byte, and the position has 32 bits. -/
theorem readDump_dumpTurn_iff
    (hfits : (dumpArgs config (dumpRequest ctx)).length + 1 < 2 ^ 24) :
    (∃ dump, readDump (dumpTurn config (dumpRequest ctx)).message = some dump ∧
        dump.Meets config ctx) ↔
      gtidOf ctx = "" ∧ 0 ∉ asBytes (fileOf ctx) ∧
        0 ≤ (posOf ctx).toInt ∧ (posOf ctx).toInt < 2 ^ 32 := by
  rw [dumpRequest_eq] at hfits ⊢
  by_cases hgtid : gtidOf ctx = ""
  · rw [if_neg (by simpa using hgtid)] at hfits ⊢
    have hcommand : readDump (dumpTurn config (.binlog (fileOf ctx)
        (posOf ctx).toUInt64.toUInt32)).message =
          readDumpBinlog (dumpBinlogArgs config (fileOf ctx)
            (posOf ctx).toUInt64.toUInt32) := by
      have hread := @readCommand_writeCommand 0x12 _ hfits
      rw [dumpArgs] at hread
      simp only [readDump, dumpTurn, labelled, dumpBinlog, hread]
    rw [hcommand, ← toNat_toUInt32_eq_iff]
    constructor
    · rintro ⟨dump, hread, hmeets⟩
      cases dump with
      | gtid gtidSet serverId => exact absurd hgtid hmeets.1
      | binlog filename pos serverId =>
          obtain ⟨-, rfl, hpos, rfl⟩ := hmeets
          obtain ⟨hzero, rfl, -⟩ := (readDumpBinlog_iff config _ _ _ _).mp hread
          exact ⟨hgtid, hzero, hpos⟩
    · rintro ⟨-, hzero, hpos⟩
      refine ⟨.binlog (asBytes (fileOf ctx)) _ config.serverId.toNat,
        (readDumpBinlog_iff config _ _ _ _).mpr ⟨hzero, rfl, rfl⟩, ?_⟩
      exact ⟨hgtid, rfl, hpos, rfl⟩
  · rw [if_pos hgtid] at hfits ⊢
    apply iff_of_false _ (fun h => hgtid h.1)
    rintro ⟨dump, hread, hmeets⟩
    have hcommand : readDump (dumpTurn config (.gtid (gtidOf ctx))).message =
        readDumpGtid (dumpGtidArgs config (gtidOf ctx)) := by
      have hread := @readCommand_writeCommand 0x1e _ hfits
      rw [dumpArgs] at hread
      simp only [readDump, dumpTurn, labelled, dumpGtid, hread]
    rw [hcommand] at hread
    cases dump with
    | gtid gtidSet serverId =>
        obtain ⟨-, rfl, -⟩ := hmeets
        exact readDumpGtid_ne (asBytes_ne_nil hgtid) serverId hread
    | binlog filename pos serverId => exact hgtid hmeets.1

/-- What the server reads in the messages behind the login. -/
theorem openStream_asks {line : Line}
    (h : openStream sha1 config network ctx = .ok line)
    (hregister : (registerSlaveArgs config).length + 1 < 2 ^ 24)
    (hdump : (dumpArgs config (dumpRequest ctx)).length + 1 < 2 ^ 24) :
    ∃ login register dump, line.written = [login, register, dump] ∧
      ((readCommand register).bind (readRegistration ·.2) =
          some (registrationOf config) ↔
        (asBytes config.host).length < 256 ∧
          (asBytes config.user).length < 256 ∧
          (asBytes config.password).length < 256) ∧
      ((∃ request, readDump dump = some request ∧ request.Meets config ctx) ↔
        gtidOf ctx = "" ∧ 0 ∉ asBytes (fileOf ctx) ∧
          0 ≤ (posOf ctx).toInt ∧ (posOf ctx).toInt < 2 ^ 32) := by
  obtain ⟨scramble, hwritten⟩ := written_of_openStream h
  refine ⟨_, _, _, hwritten, ?_, readDump_dumpTurn_iff hdump⟩
  rw [← readRegistration_iff]
  simp only [registerTurn, labelled, registerSlave,
    readCommand_writeCommand hregister, Option.bind_some]

theorem openStream_asks_sample :
    ∃ line, openStream Sample.hasher Sample.config
        (fun _ => .ok ⟨frame 0 Greeting.usual.encode, fun _ => okReply⟩)
        ⟨some { file := some "binlog.000003", pos := some 157 }, []⟩ =
          .ok line ∧
      ∃ dump, line.written[2]? = some dump ∧
        ∃ request, readDump dump = some request ∧
          request.Meets Sample.config
            ⟨some { file := some "binlog.000003", pos := some 157 }, []⟩ := by
  obtain ⟨line, hline⟩ : ∃ line, openStream Sample.hasher Sample.config
      (fun _ => .ok ⟨frame 0 Greeting.usual.encode, fun _ => okReply⟩)
      ⟨some { file := some "binlog.000003", pos := some 157 }, []⟩ =
        .ok line := ⟨_, rfl⟩
  obtain ⟨login, register, dump, hwritten, -, hasks⟩ :=
    openStream_asks hline (by decide) (by decide)
  refine ⟨line, hline, dump, by rw [hwritten]; rfl, ?_⟩
  exact hasks.mpr ⟨rfl, by decide, by decide, by decide⟩

/-! ## The stream does not end well -/

theorem stream_ne_ok (json : JsonParser) (client : BinlogClient) (room : Room) :
    (stream json client room).2 ≠ .ok () := by
  induction hlength : client.stream.length using Nat.strong_induction_on
    generalizing client room with
  | _ length ih =>
      rw [stream_eq]
      rcases hnext : nextEvent json client with
        ⟨delivery | message | _, client'⟩
      · have hlt := hlength ▸ length_lt_of_nextEvent_eq_ok hnext
        rcases delivery with _ | ⟨header, event⟩
        · exact ih _ hlt client' room rfl
        · exact ih _ hlt client' _ rfl
      · simp
      · simp

/-- `MySqlConnector::stream` returns an error or nothing at all. -/
theorem streamCall_ne_ok (json : JsonParser) (sha1 : Sha1)
    (config : Option MySqlConnectorConfig)
    (network : ℕ → Except String Reached) (ctx : StreamContext) (room : Room) :
    (streamCall json sha1 config network ctx room).2 ≠ .ok () := by
  unfold streamCall
  rcases config with _ | config
  · simp
  · dsimp only
    rcases openStream sha1 config network ctx with line | e | _
    · exact stream_ne_ok json _ room
    · simp
    · simp

/-! ## In a pipeline -/

/-- What the calls of a connector meet, call by call; no call panics. -/
structure Surroundings where
  json : JsonParser
  sha1 : Sha1
  config : Option MySqlConnectorConfig
  network : ℕ → ℕ → Except String Reached
  server : ℕ → Server
  clock : ℕ → ℕ → ClockReading
  stream_ne_panicked : ∀ n ctx,
    (streamCall json sha1 config (network n) ctx none).2 ≠ .panicked
  snapshot_ne_panicked : ∀ n database tables,
    (Mysql.snapshot (server n) database tables none).result ≠ .panicked

/-- No server can be reached, or says anything. -/
def unreachable (json : JsonParser) (sha1 : Sha1)
    (config : MySqlConnectorConfig) : Surroundings where
  json := json
  sha1 := sha1
  config := some config
  network _ _ := .error "refused"
  server _ := ⟨[], [], fun _ => []⟩
  clock _ _ := ⟨0, 0⟩
  stream_ne_panicked n ctx := by
    obtain ⟨k, -, hattempt⟩ := connectWithRetry_eq_iff.mp
      (rfl : (connectWithRetry sha1 config fun _ => .error "refused").2 = _)
    have hfails : ∃ e,
        (connectWithRetry sha1 config fun _ => .error "refused").2 = .error e :=
      ⟨_, hattempt.symm⟩
    obtain ⟨e, he⟩ := hfails
    simp [streamCall, openStream, he]
  snapshot_ne_panicked n database tables := by
    have hsilent : ∃ e, Server.connect ⟨[], [], fun _ => []⟩ = .error e :=
      ⟨_, rfl⟩
    obtain ⟨e, he⟩ := hsilent
    by_cases htables : tables = []
    · simp [Mysql.snapshot, htables, discoverTables, he, bind, Outcome.bind]
    · simp [Mysql.snapshot, htables, he]

instance : Inhabited Surroundings :=
  ⟨unreachable ⟨fun _ => none, fun _ => none⟩ Sample.hasher Sample.config⟩

/-- The events that are built while the clock goes on. -/
def stamped (clock : ℕ → ClockReading) (drafts : List Draft) : List ChangeEvent :=
  drafts.zipIdx.map fun (draft, i) => draft (clock i)

/-- `MySqlConnector`, as a pipeline calls it; its state counts the calls. -/
def mysqlConnector (w : Surroundings) : Connector ℕ where
  snapshot n ctx :=
    match w.config with
    | none => ⟨[], .error (.other "config not set"), n + 1⟩
    | some config =>
        let run := Mysql.snapshot (w.server n) config.database ctx.tables none
        ⟨stamped (w.clock n) run.sent,
          run.result.toExcept (w.snapshot_ne_panicked n _ _), n + 1⟩
  stream n ctx :=
    let call := streamCall w.json w.sha1 w.config (w.network n) ctx none
    ⟨stamped (w.clock n) (sentOf call.1),
      call.2.toExcept (w.stream_ne_panicked n ctx), n + 1⟩
  stop n := (.ok (), n + 1)

theorem toExcept_eq_ok_iff {ε α : Type} {x : Outcome ε α} {a : α}
    (h : x ≠ .panicked) : x.toExcept h = .ok a ↔ x = .ok a := by
  cases x with
  | ok b => simp [Outcome.toExcept]
  | error e => simp [Outcome.toExcept]
  | panicked => exact absurd rfl h

/-- An event of a call that returns successfully is a row of a snapshot. -/
theorem marked_of_sentByCall {w : Surroundings} {event : ChangeEvent}
    (h : SentByCall (mysqlConnector w) event) :
    event.payload.op = .read := by
  rcases h with ⟨n, ctx, offset, -, hmem⟩ | ⟨n, ctx, hresult, -⟩
  · simp only [mysqlConnector] at hmem
    rcases hconfig : w.config with _ | config <;> simp only [hconfig] at hmem
    · exact absurd hmem List.not_mem_nil
    · obtain ⟨⟨draft, i⟩, hdraft, rfl⟩ := List.mem_map.mp hmem
      obtain ⟨db, tbl, row, rfl⟩ := exists_rowDraft_of_mem_snapshot
        (List.fst_mem_of_mem_zipIdx hdraft)
      rfl
  · exact absurd ((toExcept_eq_ok_iff _).mp hresult)
      (streamCall_ne_ok w.json w.sha1 w.config (w.network n) ctx none)

end OpenCdc.Mysql
