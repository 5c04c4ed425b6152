import OpenCdc.Foundation.Http
import OpenCdc.Mysql.Login

/-!
# Commands of the binlog client

Behind the login the client registers as a replica and requests a dump, and a
server reads the fields of both commands.
-/

namespace OpenCdc.Mysql

open Foundation

/-! ## Writing -/

/-- `BinlogClient::write_command` -/
def writeCommand (command : UInt8) (args : Bytes) : Bytes :=
  frame 0 (command :: args)

/-- A text behind its length, of which one byte is written. -/
def counted (text : Bytes) : Bytes := UInt8.ofNat text.length :: text

def registerSlaveArgs (config : MySqlConnectorConfig) : Bytes :=
  Bytes.toLe 4 config.serverId.toNat ++ counted (asBytes config.host) ++
    counted (asBytes config.user) ++ counted (asBytes config.password) ++
    Bytes.toLe 2 config.port.toNat ++ Bytes.toLe 4 0 ++ Bytes.toLe 4 0

/-- `BinlogClient::register_slave` -/
def registerSlave (config : MySqlConnectorConfig) : Turn String where
  message := writeCommand 0x15 (registerSlaveArgs config)
  read := readOkResponse

def dumpGtidArgs (config : MySqlConnectorConfig) (gtidSet : String) : Bytes :=
  Bytes.toLe 2 0 ++ Bytes.toLe 4 config.serverId.toNat ++ [0] ++
    Bytes.toLe 8 4 ++ Bytes.toLe 4 0 ++
    Bytes.toLe 4 (asBytes gtidSet).length ++ asBytes gtidSet

/-- `BinlogClient::dump_gtid`, which reads no reply. -/
def dumpGtid (config : MySqlConnectorConfig) (gtidSet : String) :
    Turn String where
  message := writeCommand 0x1e (dumpGtidArgs config gtidSet)
  read stream := (.ok (), stream)

def dumpBinlogArgs (config : MySqlConnectorConfig) (filename : String)
    (pos : UInt32) : Bytes :=
  Bytes.toLe 4 pos.toNat ++ Bytes.toLe 2 0 ++
    Bytes.toLe 4 config.serverId.toNat ++ asBytes filename ++ [0]

/-- `BinlogClient::dump_binlog` -/
def dumpBinlog (config : MySqlConnectorConfig) (filename : String)
    (pos : UInt32) : Turn String where
  message := writeCommand 0x12 (dumpBinlogArgs config filename pos)
  read := readOkResponse

/-! ## Reading -/

/-- What a server keeps of a replica. -/
structure Registration where
  serverId : ℕ
  host : Bytes
  user : Bytes
  password : Bytes
  port : ℕ
deriving DecidableEq, Repr

def readRegistration (args : Bytes) : Option Registration := do
  let (serverId, args) ← readWord 4 args
  let (host, args) ← readCounted args
  let (user, args) ← readCounted args
  let (password, args) ← readCounted args
  let (port, args) ← readWord 2 args
  let (_rank, args) ← readWord 4 args
  let (_masterId, _) ← readWord 4 args
  return ⟨serverId, host, user, password, port⟩

/-- A dump as a server reads it. -/
inductive Dump where
  | gtid (gtidSet : Bytes) (serverId : ℕ)
  | binlog (filename : Bytes) (pos : ℕ) (serverId : ℕ)
deriving DecidableEq, Repr

/-- The arguments of command `0x12`. -/
def readDumpBinlog (args : Bytes) : Option Dump := do
  let (pos, args) ← readWord 4 args
  let (_flags, args) ← readWord 2 args
  let (serverId, args) ← readWord 4 args
  let (filename, _) ← untilZero args
  return .binlog filename pos serverId

/-- The arguments of command `0x1e`: the length of the filename has four
bytes. -/
def readDumpGtid (args : Bytes) : Option Dump := do
  let (_flags, args) ← readWord 2 args
  let (serverId, args) ← readWord 4 args
  let (nameLength, args) ← readWord 4 args
  let (_filename, args) ← readChunk nameLength args
  let (_pos, args) ← readWord 8 args
  let (size, args) ← readWord 4 args
  let (gtidSet, _) ← readChunk size args
  return .gtid gtidSet serverId

/-- A command and its arguments. -/
def readCommand (message : Bytes) : Option (UInt8 × Bytes) :=
  match readPacket message with
  | (.ok (command :: args), _) => some (command, args)
  | _ => none

def readDump (message : Bytes) : Option Dump :=
  match readCommand message with
  | some (0x12, args) => readDumpBinlog args
  | some (0x1e, args) => readDumpGtid args
  | _ => none

theorem readCommand_writeCommand {command : UInt8} {args : Bytes}
    (h : args.length + 1 < 2 ^ 24) :
    readCommand (writeCommand command args) = some (command, args) := by
  have hpacket := @readPacket_frame 0 (command :: args) [] h
  rw [List.append_nil] at hpacket
  rw [readCommand, writeCommand, hpacket]

/-! ## What is read of what was written -/

def registrationOf (config : MySqlConnectorConfig) : Registration where
  serverId := config.serverId.toNat
  host := asBytes config.host
  user := asBytes config.user
  password := asBytes config.password
  port := config.port.toNat

/-- No text is read that is longer than its length can say. -/
theorem length_lt_of_readRegistration {args : Bytes} {r : Registration}
    (h : readRegistration args = some r) :
    r.host.length < 256 ∧ r.user.length < 256 ∧ r.password.length < 256 := by
  simp only [readRegistration, Option.bind_eq_bind, Option.bind_eq_some_iff,
    Option.pure_def, Option.some.injEq] at h
  obtain ⟨_, _, ⟨host, args⟩, hhost, ⟨user, args'⟩, huser,
    ⟨password, args''⟩, hpassword, _, _, _, _, _, _, rfl⟩ := h
  exact ⟨length_lt_of_readCounted hhost, length_lt_of_readCounted huser,
    length_lt_of_readCounted hpassword⟩

/-- The server reads the client's names exactly if each fits its length. -/
theorem readRegistration_iff (config : MySqlConnectorConfig) :
    readRegistration (registerSlaveArgs config) =
        some (registrationOf config) ↔
      (asBytes config.host).length < 256 ∧
        (asBytes config.user).length < 256 ∧
        (asBytes config.password).length < 256 := by
  constructor
  · exact length_lt_of_readRegistration
  · rintro ⟨hhost, huser, hpassword⟩
    have hserverId : config.serverId.toNat % 256 ^ 4 = config.serverId.toNat :=
      Nat.mod_eq_of_lt config.serverId.toNat_lt
    have hport : config.port.toNat % 256 ^ 2 = config.port.toNat :=
      Nat.mod_eq_of_lt config.port.toNat_lt
    have hlast := readWord_append 4 0 []
    rw [List.append_nil] at hlast
    simp only [readRegistration, registerSlaveArgs, counted, List.append_assoc,
      List.cons_append, readWord_append, readCounted_append hhost,
      readCounted_append huser, readCounted_append hpassword, hlast,
      Option.bind_eq_bind, Option.bind_some, Option.pure_def, hserverId, hport]
    rfl

/-- A filename is read up to its first zero byte. -/
theorem readDumpBinlog_iff (config : MySqlConnectorConfig) (filename : String)
    (pos : UInt32) (serverId n : ℕ) :
    readDumpBinlog (dumpBinlogArgs config filename pos) =
        some (.binlog (asBytes filename) n serverId) ↔
      0 ∉ asBytes filename ∧ n = pos.toNat ∧
        serverId = config.serverId.toNat := by
  have hserverId : config.serverId.toNat % 256 ^ 4 = config.serverId.toNat :=
    Nat.mod_eq_of_lt config.serverId.toNat_lt
  have hpos : pos.toNat % 256 ^ 4 = pos.toNat := Nat.mod_eq_of_lt pos.toNat_lt
  simp only [readDumpBinlog, dumpBinlogArgs, List.append_assoc, readWord_append,
    Option.bind_eq_bind, Option.bind_some, Option.pure_def, hserverId, hpos]
  constructor
  · intro h
    rw [Option.bind_eq_some_iff] at h
    obtain ⟨⟨text, rest⟩, hread, hdump⟩ := h
    obtain ⟨rfl, rfl, rfl⟩ := Dump.binlog.inj (Option.some.inj hdump)
    exact ⟨zero_notMem_of_untilZero hread, rfl, rfl⟩
  · rintro ⟨hzero, rfl, rfl⟩
    rw [untilZero_append hzero]
    rfl

/-- No set is read that was written: its length stands where the server takes
part of a filename of 1024 bytes. -/
theorem readDumpGtid_ne {config : MySqlConnectorConfig} {gtidSet : String}
    (h : asBytes gtidSet ≠ []) (serverId : ℕ) :
    readDumpGtid (dumpGtidArgs config gtidSet) ≠
      some (.gtid (asBytes gtidSet) serverId) := by
  have hname : [0] ++ Bytes.toLe 8 4 = Bytes.toLe 4 1024 ++ [0, 0, 0, 0, 0] := by
    decide
  have hargs : dumpGtidArgs config gtidSet =
      Bytes.toLe 2 0 ++ (Bytes.toLe 4 config.serverId.toNat ++
        (Bytes.toLe 4 1024 ++ ([0, 0, 0, 0, 0] ++ (Bytes.toLe 4 0 ++
          (Bytes.toLe 4 (asBytes gtidSet).length ++ asBytes gtidSet))))) := by
    rw [dumpGtidArgs, List.append_assoc _ [0] _, hname]
    simp only [List.append_assoc]
  intro hread
  simp only [hargs, readDumpGtid, readWord_append, Option.bind_eq_bind,
    Option.bind_some, Option.pure_def, Option.bind_eq_some_iff,
    Option.some.injEq] at hread
  obtain ⟨⟨name, args⟩, hname, ⟨pos, args'⟩, hpos, ⟨size, args''⟩, hsize,
    ⟨text, rest⟩, htext, hdump⟩ := hread
  obtain ⟨htext', -⟩ := Dump.gtid.inj hdump
  have hlength := (length_of_readChunk hname).2
  have hlength' := length_of_readWord hpos
  have hlength'' := length_of_readWord hsize
  have hall := length_of_readChunk htext
  have hne := List.length_pos_iff.mpr h
  dsimp only at htext' hlength' hlength'' hall
  rw [htext'] at hall
  simp only [List.length_append, Bytes.length_toLe, List.length_cons,
    List.length_nil] at hlength
  omega

/-! ## The snapshotter writes no command -/

/-- What `query_table` writes: the text of the query, without a command in
front of it. -/
def queryMessage (text : String) : Bytes := frame 0 (asBytes text)

/-- A server that carries out queries, command `0x03`, and refuses what else it
reads. -/
def commandServer (greeting authReply : Bytes) (resultSet : Bytes → Bytes)
    (refusal : UInt8 → Bytes) : Server where
  greeting := greeting
  authReply := authReply
  answer text :=
    match readCommand (queryMessage text) with
    | some (0x03, query) => resultSet query
    | some (command, _) => frame 1 (0xff :: refusal command)
    | none => []

/-- A refusal has an error code and fits a packet. -/
def WellFormed (refusal : UInt8 → Bytes) : Prop :=
  ∀ command, 2 ≤ (refusal command).length ∧
    (refusal command).length + 1 < 2 ^ 24

/-- The length in front of a packet may be cut down to three bytes; what is read
is the packet's beginning in any case. -/
theorem isPrefix_of_readPacket_frame {payload packet rest : Bytes} {seq : UInt8}
    (h : readPacket (frame seq payload) = (.ok packet, rest)) :
    packet <+: payload := by
  simp only [frame, Bytes.toLe, List.cons_append, List.nil_append,
    readPacket] at h
  split_ifs at h
  · cases h
  · rw [← Outcome.ok.inj (Prod.mk.inj h).1]
    exact List.take_prefix _ _

theorem readCommand_frame {payload args : Bytes} {seq command : UInt8}
    (h : readCommand (frame seq payload) = some (command, args)) :
    payload.head? = some command := by
  unfold readCommand at h
  rcases hread : readPacket (frame seq payload) with ⟨packet | _ | _, rest⟩ <;>
    rw [hread] at h
  · cases packet with
    | nil => cases h
    | cons first behind =>
        obtain ⟨rfl, rfl⟩ := Prod.mk.inj (Option.some.inj h)
        obtain ⟨tail, rfl⟩ := isPrefix_of_readPacket_frame hread
        rfl
  · cases h
  · cases h

theorem head?_asBytes_append {text : String} {b : UInt8}
    (h : (asBytes text).head? = some b) (text' : String) :
    (asBytes (text ++ text')).head? = some b := by
  rw [asBytes, String.toList_append, encodeUtf8_append, List.head?_append]
  rw [asBytes] at h
  rw [h]
  rfl

/-- The texts that the snapshotter sends begin with the letter of `SELECT`. -/
theorem head?_asBytes_discoverQuery (database : String) :
    (asBytes (discoverQuery database)).head? = some 0x53 := by
  unfold discoverQuery
  iterate 3 apply head?_asBytes_append
  decide

theorem head?_asBytes_tableQuery (database table : String) :
    (asBytes (tableQuery database table)).head? = some 0x53 := by
  unfold tableQuery selectQuery
  iterate 4 apply head?_asBytes_append
  decide

variable {greeting authReply : Bytes} {resultSet : Bytes → Bytes}
  {refusal : UInt8 → Bytes}

/-- The server refuses such a text, or does not understand the packet. -/
theorem query_commandServer {text : String}
    (hrefusal : WellFormed refusal)
    (htext : (asBytes text).head? = some 0x53) :
    ∃ e, (commandServer greeting authReply resultSet refusal).query [] text =
      .error e := by
  have hanswer : (commandServer greeting authReply resultSet refusal).answer
      text = frame 1 (0xff :: refusal 0x53) ∨
    (commandServer greeting authReply resultSet refusal).answer text = [] := by
    rcases hcommand : readCommand (queryMessage text) with _ | ⟨command, args⟩
    · right
      simp only [commandServer, hcommand]
    · left
      obtain rfl : (0x53 : UInt8) = command :=
        Option.some.inj (htext.symm.trans (readCommand_frame hcommand))
      simp only [commandServer, hcommand]
      rfl
  obtain ⟨hcode, hfits⟩ := hrefusal 0x53
  rw [Server.query, List.nil_append]
  rcases hanswer with h | h
  · have hpacket := @readMysqlPacket_frame 1 (0xff :: refusal 0x53) [] hfits
    rw [List.append_nil] at hpacket
    rw [h]
    simp only [queryTable, hpacket, Outcome.ok_bind, if_true]
    rw [Bytes.sliceFrom, if_pos (by simpa using hcode)]
    exact ⟨_, rfl⟩
  · rw [h]
    exact ⟨_, rfl⟩

/-- A snapshot of a server that looks for commands sends no row, and it succeeds
only for a receiver that is gone before the first table. -/
theorem snapshot_commandServer {database : String} {tables : List String}
    {room : Room} (hrefusal : WellFormed refusal)
    (hquiet : ∀ stream, (commandServer greeting authReply resultSet
      refusal).connect = .ok stream → stream = []) :
    (snapshot (commandServer greeting authReply resultSet refusal) database
        tables room).sent = [] ∧
      ∀ offset, (snapshot (commandServer greeting authReply resultSet refusal)
        database tables room).result = .ok offset → room = some 0 := by
  rcases hconnect : (commandServer greeting authReply resultSet
    refusal).connect with stream | e | _
  · obtain rfl := hquiet stream hconnect
    by_cases htables : tables = []
    · obtain ⟨e, hquery⟩ := @query_commandServer greeting authReply resultSet
        refusal _ hrefusal (head?_asBytes_discoverQuery database)
      have hdiscover : discoverTables (commandServer greeting authReply resultSet
          refusal) database = .error e := by
        simp [discoverTables, hconnect, hquery]
      simp [snapshot, htables, hdiscover]
    · obtain ⟨table, rest, rfl⟩ := List.exists_cons_of_ne_nil htables
      obtain ⟨e, hquery⟩ := @query_commandServer greeting authReply resultSet
        refusal _ hrefusal (head?_asBytes_tableQuery database table)
      by_cases hroom : room = some 0
      · simp [snapshot, hconnect, snapshotTables, hroom]
      · simp [snapshot, hconnect, snapshotTables, hroom, hquery]
  · by_cases htables : tables = []
    · simp [snapshot, htables, discoverTables, hconnect]
    · simp [snapshot, htables, hconnect]
  · by_cases htables : tables = []
    · simp [snapshot, htables, discoverTables, hconnect]
    · simp [snapshot, htables, hconnect]

/-- The server has the rows of a table, and none of them is sent. -/
theorem snapshot_commandServer_users :
    (snapshot (commandServer (frame 0 Greeting.usual.encode) okReply
        (fun _ => frame 1 [1]) (fun _ => [0x17, 0x04]))
      "shop" ["shop.users"] none).sent = [] := by
  have hconnect : (commandServer (frame 0 Greeting.usual.encode) okReply
      (fun _ => frame 1 [1]) (fun _ => [0x17, 0x04])).connect = .ok [] := by
    decide
  refine (snapshot_commandServer ?_ ?_).1
  · exact fun _ => by decide
  · intro stream h
    exact Outcome.ok.inj (h.symm.trans hconnect)

end OpenCdc.Mysql
