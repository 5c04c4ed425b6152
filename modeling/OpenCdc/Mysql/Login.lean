import OpenCdc.Foundation.Dialogue
import OpenCdc.Foundation.Fields
import OpenCdc.Foundation.Utf8
import OpenCdc.Mysql.Snapshot

/-!
# Logging in

The answer to a greeting, as the binlog client and the snapshotter write it,
and a server that keeps the hashed password of an account.  The server lets a
client in that hashes the scramble which it was challenged with.
-/

namespace OpenCdc.Mysql

open Foundation

/-- `MySqlConnectorConfig`, without what no session uses. -/
structure MySqlConnectorConfig where
  host : String
  port : UInt16
  user : String
  password : String
  database : String
  serverId : UInt32 := 1001
  tables : List String := []
  maxReconnectAttempts : UInt32 := 5

/-- `String::as_bytes` -/
def asBytes (text : String) : Bytes := encodeUtf8 text.toList

/-! ## The token -/

/-- `sha1::Sha1` -/
structure Sha1 where
  hash : Bytes → Bytes
  length_hash : ∀ bytes, (hash bytes).length = 20

/-- The bytes of two digests, one by one. -/
def xorBytes (a b : Bytes) : Bytes := List.zipWith (· ^^^ ·) a b

theorem xorBytes_cancel {a b : Bytes} (h : a.length = b.length) :
    xorBytes (xorBytes a b) b = a := by
  induction a generalizing b with
  | nil => rfl
  | cons x xs ih =>
      cases b with
      | nil => cases h
      | cons y ys =>
          have hhead : x ^^^ y ^^^ y = x := by
            rw [UInt8.xor_assoc, UInt8.xor_self, UInt8.xor_zero]
          exact congrArg₂ List.cons hhead (ih (Nat.succ.inj h))

theorem xorBytes_injective {a b c : Bytes} (hb : a.length = b.length)
    (hc : a.length = c.length) (h : xorBytes a b = xorBytes a c) : b = c := by
  induction a generalizing b c with
  | nil =>
      rw [List.length_eq_zero_iff.mp hb.symm, List.length_eq_zero_iff.mp hc.symm]
  | cons x xs ih =>
      cases b with
      | nil => cases hb
      | cons y ys =>
          cases c with
          | nil => cases hc
          | cons z zs =>
              obtain ⟨hhead, htail⟩ := List.cons.inj h
              have hyz : y = z := by
                have hcancel := congrArg (x ^^^ ·) hhead
                simpa [← UInt8.xor_assoc] using hcancel
              rw [hyz, ih (Nat.succ.inj hb) (Nat.succ.inj hc) htail]

variable (sha1 : Sha1)

/-- `mysql_native_password`; `send_auth_packet` does the same in place. -/
def mysqlNativePassword (password : String) (scramble : Bytes) : Bytes :=
  let hash1 := sha1.hash (asBytes password)
  let hash2 := sha1.hash hash1
  let hash3 := sha1.hash (scramble ++ hash2)
  xorBytes hash1 hash3

theorem length_mysqlNativePassword (password : String) (scramble : Bytes) :
    (mysqlNativePassword sha1 password scramble).length = 20 := by
  simp [mysqlNativePassword, xorBytes, sha1.length_hash]

/-! ## The login packet -/

def capabilities : UInt32 := 0x00a085 ||| 0x000008 ||| 0x000200

/-- What both clients write in answer to the greeting. -/
def loginFields (config : MySqlConnectorConfig) (authResponse : Bytes) :
    Bytes :=
  Bytes.toLe 4 capabilities.toNat ++ Bytes.toLe 4 16777215 ++ [33] ++
    List.replicate 23 0 ++ asBytes config.user ++ [0] ++
    [UInt8.ofNat authResponse.length] ++ authResponse ++
    asBytes config.database ++ [0]

def pluginName : Bytes := asBytes "mysql_native_password"

/-- `BinlogClient::send_auth` -/
def sendAuth (config : MySqlConnectorConfig) (scramble : Bytes) : Bytes :=
  frame 1 (loginFields config
      (mysqlNativePassword sha1 config.password scramble) ++
    [UInt8.ofNat pluginName.length] ++ pluginName)

/-- `send_auth_packet` of the snapshotter -/
def sendAuthPacket (config : MySqlConnectorConfig) (scramble : Bytes) : Bytes :=
  frame 1 (loginFields config
    (mysqlNativePassword sha1 config.password scramble))

/-! ## Reading a login -/

structure Login where
  capabilities : ℕ
  maxPacketSize : ℕ
  characterSet : UInt8
  user : Bytes
  token : Bytes
  database : Bytes
deriving DecidableEq, Repr

/-- The fields behind the fixed ones. -/
def readNames : Reading (Bytes × Bytes × Bytes) := fun bytes => do
  let (user, bytes) ← untilZero bytes
  let (token, bytes) ← readCounted bytes
  let (database, behind) ← untilZero bytes
  return ((user, token, database), behind)

/-- The flags of a login with a token of at most 255 bytes and a database. -/
def hasNames (capabilities : ℕ) : Bool :=
  capabilities.testBit 3 && capabilities.testBit 9 && capabilities.testBit 15

/-- A login as a server reads it, and what it leaves unread. -/
def readLogin (packet : Bytes) : Option (Login × Bytes) :=
  match packet.drop 8 with
  | characterSet :: rest =>
      let capabilities := Bytes.ofLe (packet.take 4)
      if hasNames capabilities then
        match readNames (rest.drop 23) with
        | some ((user, token, database), behind) =>
            some (⟨capabilities, Bytes.ofLe ((packet.drop 4).take 4),
              characterSet, user, token, database⟩, behind)
        | none => none
      else none
  | [] => none

/-- What the server is to read. -/
def loginOf (config : MySqlConnectorConfig) (token : Bytes) : Login where
  capabilities := capabilities.toNat
  maxPacketSize := 16777215
  characterSet := 33
  user := asBytes config.user
  token := token
  database := asBytes config.database

variable {sha1}

theorem readLogin_loginFields (config : MySqlConnectorConfig)
    (token behind : Bytes) :
    readLogin (loginFields config token ++ behind) =
      (readNames (asBytes config.user ++ 0 :: UInt8.ofNat token.length ::
        (token ++ (asBytes config.database ++ 0 :: behind)))).map fun names =>
          (⟨capabilities.toNat, 16777215, 33, names.1.1, names.1.2.1,
            names.1.2.2⟩, names.2) := by
  have hsplit : loginFields config token ++ behind =
      Bytes.toLe 4 capabilities.toNat ++ (Bytes.toLe 4 16777215 ++
        (33 :: (List.replicate 23 0 ++ (asBytes config.user ++
          0 :: UInt8.ofNat token.length :: (token ++
            (asBytes config.database ++ 0 :: behind)))))) := by
    simp [loginFields]
  rw [hsplit]
  generalize asBytes config.user ++ 0 :: UInt8.ofNat token.length :: (token ++
    (asBytes config.database ++ 0 :: behind)) = names
  have hcapabilities : Bytes.ofLe (Bytes.toLe 4 capabilities.toNat) =
      capabilities.toNat := by decide
  have hmaxPacketSize : Bytes.ofLe (Bytes.toLe 4 16777215) = 16777215 := by
    decide
  have hflags : hasNames capabilities.toNat = true := by decide
  have hfour : ∀ n, (Bytes.toLe 4 n).length = 4 := Bytes.length_toLe 4
  have height : ∀ rest : Bytes, (Bytes.toLe 4 capabilities.toNat ++
      (Bytes.toLe 4 16777215 ++ rest)).drop 8 = rest := by
    intro rest
    rw [← List.append_assoc]
    exact List.drop_left' rfl
  rw [readLogin, height]
  simp only [List.take_left' (hfour _), List.drop_left' (hfour _),
    hcapabilities, hmaxPacketSize, hflags, if_true]
  rw [List.drop_left' (List.length_replicate)]
  rcases readNames names with _ | ⟨⟨user, token, database⟩, rest⟩
  · rfl
  · rfl

theorem readNames_append {user token : Bytes} (huser : 0 ∉ user)
    (htoken : token.length < 256) (rest : Bytes) :
    readNames (user ++ 0 :: UInt8.ofNat token.length :: (token ++ rest)) =
      (untilZero rest).map fun names => ((user, token, names.1), names.2) := by
  simp only [readNames, untilZero_append huser, readCounted_append htoken,
    Option.bind_eq_bind, Option.bind_some]
  rcases untilZero rest with _ | ⟨database, behind⟩
  · rfl
  · rfl

/-- Neither name is read with a zero byte. -/
theorem zero_notMem_of_readNames {bytes user token database behind : Bytes}
    (h : readNames bytes = some ((user, token, database), behind)) :
    0 ∉ user ∧ 0 ∉ database := by
  simp only [readNames, Option.bind_eq_bind, Option.bind_eq_some_iff,
    Option.pure_def, Option.some.injEq] at h
  obtain ⟨⟨user', bytes⟩, huser, ⟨token', bytes'⟩, -, ⟨database', behind'⟩,
    hdatabase, hnames⟩ := h
  obtain ⟨⟨rfl, rfl, rfl⟩, rfl⟩ := by simpa using hnames
  exact ⟨zero_notMem_of_untilZero huser, zero_notMem_of_untilZero hdatabase⟩

/-- The server reads what was meant exactly if neither name has a zero byte. -/
theorem readLogin_iff {config : MySqlConnectorConfig} {token : Bytes}
    (htoken : token.length < 256) (behind : Bytes) :
    readLogin (loginFields config token ++ behind) =
        some (loginOf config token, behind) ↔
      0 ∉ asBytes config.user ∧ 0 ∉ asBytes config.database := by
  rw [readLogin_loginFields, Option.map_eq_some_iff]
  constructor
  · rintro ⟨⟨⟨user, token', database⟩, rest⟩, hread, hlogin⟩
    obtain ⟨hfields, rfl⟩ := Prod.mk.inj hlogin
    have huser : user = asBytes config.user := congrArg Login.user hfields
    have hdatabase : database = asBytes config.database :=
      congrArg Login.database hfields
    rw [← huser, ← hdatabase]
    exact zero_notMem_of_readNames hread
  · rintro ⟨huser, hdatabase⟩
    refine ⟨((asBytes config.user, token, asBytes config.database), behind),
      ?_, rfl⟩
    rw [readNames_append huser htoken, untilZero_append hdatabase]
    rfl

namespace Sample

def config : MySqlConnectorConfig where
  host := "db"
  port := 3306
  user := "cdc"
  password := "secret"
  database := "shop"

end Sample

theorem readLogin_sample :
    readLogin (loginFields Sample.config [1, 2, 3] ++ []) =
      some (loginOf Sample.config [1, 2, 3], []) :=
  (@readLogin_iff Sample.config [1, 2, 3] (by decide) []).mpr
    ⟨by decide, by decide⟩

/-! ## The server -/

/-- What a server keeps of an account: the user, and the password hashed
twice. -/
structure Account where
  user : Bytes
  stored : Bytes

variable (sha1)

/-- The token, freed from the hash of the challenge, is hashed to what is
stored. -/
def Account.Admits (account : Account) (challenge : Bytes) (login : Login) :
    Prop :=
  login.user = account.user ∧
    sha1.hash (xorBytes login.token
      (sha1.hash (challenge ++ account.stored))) = account.stored

instance (account : Account) (challenge : Bytes) (login : Login) :
    Decidable (account.Admits sha1 challenge login) :=
  inferInstanceAs (Decidable (_ ∧ _))

def okReply : Bytes := frame 2 [0, 0, 0, 2, 0, 0, 0]

def errReply : Bytes :=
  frame 2 ([0xff, 0x15, 0x04] ++ asBytes "#28000Access denied")

/-- What the server sends to a message that answers its challenge. -/
def loginReply (account : Account) (challenge message : Bytes) : Bytes :=
  match readPacket message with
  | (.ok packet, _) =>
      match readLogin packet with
      | some (login, _) =>
          if account.Admits sha1 challenge login then okReply else errReply
      | none => errReply
  | _ => errReply

/-! ## The two clients -/

/-- `read_ok_response` -/
def readOkResponse (stream : Bytes) : Outcome String Unit × Bytes :=
  match readPacket stream with
  | (.ok resp, rest) =>
      match resp with
      | [] => (.error "empty response", rest)
      | first :: _ =>
          if first = 0x00 ∨ first = 0xfe then (.ok (), rest)
          else if first = 0xff then
            match Bytes.sliceFrom (ε := String) resp 3 with
            | .ok errMsg => (.error ("mysql error: " ++ fromUtf8Lossy errMsg), rest)
            | .error e => (.error e, rest)
            | .panicked => (.panicked, rest)
          else (.error ("unexpected response: " ++ hexEncode [first]), rest)
  | (.error e, rest) => (.error e, rest)
  | (.panicked, rest) => (.panicked, rest)

def loginTurn (config : MySqlConnectorConfig) (scramble : Bytes) :
    Turn String where
  message := sendAuth sha1 config scramble
  read := readOkResponse

/-- `BinlogClient::handshake` -/
def handshake (config : MySqlConnectorConfig) (peer : Peer) (line : Line) :
    Outcome String Unit × Line :=
  match readPacket line.arrived with
  | (.ok greeting, rest) =>
      let line := { line with arrived := rest }
      match handshakeScramble greeting with
      | .ok scramble => runTurns peer [loginTurn sha1 config scramble] line
      | .error e => (.error e, line)
      | .panicked => (.panicked, line)
  | (.error e, rest) => (.error e, { line with arrived := rest })
  | (.panicked, rest) => (.panicked, { line with arrived := rest })

/-- A server with an account, which challenges with a greeting. -/
def challenger (account : Account) (challenge : Bytes) : Peer := fun written =>
  match written with
  | [message] => loginReply sha1 account challenge message
  | _ => []

variable {sha1}

theorem readOkResponse_okReply : readOkResponse okReply = (.ok (), []) := by
  decide

theorem readOkResponse_errReply :
    ∃ e, readOkResponse errReply = (.error e, []) :=
  ⟨_, rfl⟩

/-- The server says OK exactly to a login whose user it can read and whose
token fits its challenge; what the name of the database is cut down to plays no
part. -/
theorem loginReply_frame_iff {config : MySqlConnectorConfig}
    {account : Account} {token behind : Bytes}
    (huser : account.user = asBytes config.user) (htoken : token.length < 256)
    (hfits : (loginFields config token ++ behind).length < 2 ^ 24)
    (challenge : Bytes) :
    loginReply sha1 account challenge
        (frame 1 (loginFields config token ++ behind)) = okReply ↔
      0 ∉ asBytes config.user ∧
        sha1.hash (xorBytes token (sha1.hash (challenge ++ account.stored))) =
          account.stored := by
  have hpacket := @readPacket_frame 1 _ [] hfits
  rw [List.append_nil] at hpacket
  have hdiffer : errReply ≠ okReply := by decide
  rw [loginReply, hpacket]
  dsimp only
  rw [readLogin_loginFields]
  by_cases hzero : 0 ∈ asBytes config.user
  · apply iff_of_false _ (fun h => h.1 hzero)
    rcases hnames : readNames (asBytes config.user ++ 0 ::
      UInt8.ofNat token.length :: (token ++
        (asBytes config.database ++ 0 :: behind))) with _ | names
    · exact hdiffer
    · obtain ⟨⟨user, token', database⟩, rest⟩ := names
      have hread := (zero_notMem_of_readNames hnames).1
      have hrefused : ¬account.Admits sha1 challenge
          ⟨capabilities.toNat, 16777215, 33, user, token', database⟩ := by
        intro hadmits
        have hsame : user = asBytes config.user := hadmits.1.trans huser
        exact hread (hsame ▸ hzero)
      simp only [Option.map_some, if_neg hrefused]
      exact hdiffer
  · obtain ⟨database, hdatabase⟩ : ∃ names, untilZero
        (asBytes config.database ++ 0 :: behind) = some names :=
      ⟨_, if_pos (by simp)⟩
    rw [readNames_append hzero htoken, hdatabase]
    simp only [Option.map_some]
    constructor
    · intro hreply
      by_contra hrefused
      rw [if_neg (fun hadmits => hrefused ⟨hzero, hadmits.2⟩)] at hreply
      exact hdiffer hreply
    · rintro ⟨-, htoken⟩
      exact if_pos ⟨huser.symm, htoken⟩

/-- The replies of the server. -/
theorem loginReply_cases (account : Account) (challenge message : Bytes) :
    loginReply sha1 account challenge message = okReply ∨
      loginReply sha1 account challenge message = errReply := by
  unfold loginReply
  split
  · split
    · split_ifs
      · exact Or.inl rfl
      · exact Or.inr rfl
    · exact Or.inr rfl
  · exact Or.inr rfl

/-- The account of a user and a password. -/
def accountOf (sha1 : Sha1) (config : MySqlConnectorConfig) : Account where
  user := asBytes config.user
  stored := sha1.hash (sha1.hash (asBytes config.password))

/-- Nobody has found other bytes that are hashed to what the server stores. -/
def NoSecondPreimage (sha1 : Sha1) (password : String) : Prop :=
  ∀ bytes, bytes.length = 20 →
    sha1.hash bytes = sha1.hash (sha1.hash (asBytes password)) →
      bytes = sha1.hash (asBytes password)

/-- The right password fits a challenge through what is hashed with it. -/
theorem token_fits_iff {config : MySqlConnectorConfig}
    (hpreimage : NoSecondPreimage sha1 config.password)
    (scramble challenge : Bytes) :
    sha1.hash (xorBytes (mysqlNativePassword sha1 config.password scramble)
        (sha1.hash (challenge ++ (accountOf sha1 config).stored))) =
          (accountOf sha1 config).stored ↔
      sha1.hash (scramble ++ (accountOf sha1 config).stored) =
        sha1.hash (challenge ++ (accountOf sha1 config).stored) := by
  have hlength : ∀ a b, (sha1.hash a).length = (sha1.hash b).length :=
    fun a b => (sha1.length_hash a).trans (sha1.length_hash b).symm
  constructor
  · intro h
    have hsame := hpreimage _ (by simp [xorBytes, mysqlNativePassword,
      sha1.length_hash]) h
    have hcancel := congrArg (xorBytes · (sha1.hash (challenge ++
      (accountOf sha1 config).stored))) hsame
    rw [xorBytes_cancel] at hcancel
    · exact xorBytes_injective (hlength _ _) (hlength _ _) hcancel
    · rw [length_mysqlNativePassword, sha1.length_hash]
  · intro h
    rw [← h, mysqlNativePassword]
    exact congrArg sha1.hash (xorBytes_cancel (hlength _ _))

/-! ## Who is let in -/

theorem handshake_frame {config : MySqlConnectorConfig} {peer : Peer}
    {greeting scramble : Bytes} {seq : UInt8} (hfits : greeting.length < 2 ^ 24)
    (hscramble : handshakeScramble greeting = .ok scramble) :
    handshake sha1 config peer ⟨frame seq greeting, []⟩ =
      runTurns peer [loginTurn sha1 config scramble] ⟨[], []⟩ := by
  have hpacket := @readPacket_frame seq _ [] hfits
  rw [List.append_nil] at hpacket
  simp only [handshake, hpacket, hscramble]

theorem handshake_challenger_iff {config : MySqlConnectorConfig}
    {account : Account} {challenge greeting scramble : Bytes} {seq : UInt8}
    (hfits : greeting.length < 2 ^ 24)
    (hscramble : handshakeScramble greeting = .ok scramble) :
    (handshake sha1 config (challenger sha1 account challenge)
        ⟨frame seq greeting, []⟩).1 = .ok () ↔
      loginReply sha1 account challenge (sendAuth sha1 config scramble) =
        okReply := by
  rw [handshake_frame hfits hscramble, runTurns]
  have harrived : (Line.write ⟨[], []⟩ (challenger sha1 account challenge)
      (loginTurn sha1 config scramble).message).arrived =
        loginReply sha1 account challenge (sendAuth sha1 config scramble) := rfl
  rw [harrived]
  have hdiffer : errReply ≠ okReply := by decide
  rcases loginReply_cases account challenge (sendAuth sha1 config scramble) with
    hreply | hreply
  · rw [hreply]
    apply iff_of_true _ rfl
    simp only [loginTurn, readOkResponse_okReply]
    rfl
  · rw [hreply]
    apply iff_of_false _ hdiffer
    obtain ⟨e, herr⟩ := readOkResponse_errReply
    simp [loginTurn, herr]

/-- The twenty bytes that the server hashes; it sends a zero byte behind
them. -/
def Greeting.challenge (g : Greeting) : Bytes :=
  g.authData1 ++ g.authData2.take 12

/-- Different bytes with one hash. -/
def Collides (sha1 : Sha1) (a b : Bytes) : Prop :=
  a ≠ b ∧ sha1.hash a = sha1.hash b

/-- A server with an account, as the snapshotter that logs in meets it. -/
def accountServer (sha1 : Sha1) (account : Account) (g : Greeting)
    (config : MySqlConnectorConfig) : Server where
  greeting := frame 0 g.encode
  authReply :=
    match parseGreeting g.encode with
    | .ok scramble =>
        loginReply sha1 account g.challenge
          (sendAuthPacket sha1 config scramble)
    | _ => []
  answer _ := []

theorem length_challenge (g : Greeting) : g.challenge.length = 20 := by
  have hlen := g.le_authDataLen
  have hlen2 := g.le_authData2
  simp [Greeting.challenge, g.length_authData1]
  omega

/-- What a client hashes is longer than the challenge. -/
theorem collides_iff {g : Greeting} {behind stored : Bytes}
    (hlength : g.secondLength ≤ behind.length) :
    Collides sha1 (g.authData1 ++ behind.take g.secondLength ++ stored)
        (g.challenge ++ stored) ↔
      sha1.hash (g.authData1 ++ behind.take g.secondLength ++ stored) =
        sha1.hash (g.challenge ++ stored) := by
  refine and_iff_right ?_
  intro hsame
  have hlengths := congrArg List.length hsame
  have hlen := g.le_authDataLen
  simp only [List.length_append, length_challenge, g.length_authData1,
    List.length_take, Nat.min_eq_left hlength] at hlengths
  rw [Greeting.secondLength] at hlengths
  omega

theorem sendAuth_eq (config : MySqlConnectorConfig) (scramble : Bytes) :
    sendAuth sha1 config scramble = frame 1 (loginFields config
      (mysqlNativePassword sha1 config.password scramble) ++
        (UInt8.ofNat pluginName.length :: pluginName)) := by
  rw [sendAuth, List.append_assoc]
  rfl

/-- A login that the server answers says OK through a collision only. -/
theorem loginReply_greeting_iff {config : MySqlConnectorConfig} {g : Greeting}
    (hpreimage : NoSecondPreimage sha1 config.password) {second behind : Bytes}
    (hlength : g.secondLength ≤ second.length)
    (hfits : ∀ token : Bytes, token.length = 20 →
      (loginFields config token ++ behind).length < 2 ^ 24) :
    loginReply sha1 (accountOf sha1 config) g.challenge
        (frame 1 (loginFields config (mysqlNativePassword sha1 config.password
          (g.authData1 ++ second.take g.secondLength)) ++ behind)) = okReply ↔
      0 ∉ asBytes config.user ∧
        Collides sha1
          (g.authData1 ++ second.take g.secondLength ++
            (accountOf sha1 config).stored)
          (g.challenge ++ (accountOf sha1 config).stored) := by
  have htoken := length_mysqlNativePassword sha1 config.password
    (g.authData1 ++ second.take g.secondLength)
  rw [loginReply_frame_iff rfl (by rw [htoken]; decide) (hfits _ htoken),
    token_fits_iff hpreimage, collides_iff hlength]

/-- The snapshotter connects if the server said OK. -/
theorem connect_accountServer_iff {config : MySqlConnectorConfig}
    {account : Account} {g : Greeting} {scramble : Bytes}
    (hfits : g.encode.length < 2 ^ 24)
    (hscramble : parseGreeting g.encode = .ok scramble) :
    (∃ stream, (accountServer sha1 account g config).connect = .ok stream) ↔
      loginReply sha1 account g.challenge
        (sendAuthPacket sha1 config scramble) = okReply := by
  have hpacket : readMysqlPacket (frame 0 g.encode) = .ok (g.encode, []) := by
    have h := @readMysqlPacket_frame 0 _ [] hfits
    rwa [List.append_nil] at h
  have hdiffer : errReply ≠ okReply := by decide
  have hok : readOkPacket okReply = .ok [] := by decide
  obtain ⟨e, herr⟩ : ∃ e, readOkPacket errReply = .error e := ⟨_, rfl⟩
  simp only [Server.connect, accountServer, hpacket, hscramble, Outcome.ok_bind,
    List.nil_append]
  rcases loginReply_cases account g.challenge
    (sendAuthPacket sha1 config scramble) with hreply | hreply
  · rw [hreply, hok]
    exact iff_of_true ⟨[], rfl⟩ rfl
  · rw [hreply, herr]
    apply iff_of_false _ hdiffer
    rintro ⟨stream, h⟩
    cases h

theorem length_loginFields (config : MySqlConnectorConfig) (token : Bytes) :
    (loginFields config token).length = 35 + (asBytes config.user).length +
      token.length + (asBytes config.database).length := by
  simp [loginFields]
  omega

/-- A server that keeps the client's own password lets either client in through
a collision only: both hash more than the challenge. -/
theorem letsIn_iff {config : MySqlConnectorConfig} (g : Greeting) (seq : UInt8)
    (hpreimage : NoSecondPreimage sha1 config.password)
    (hfits : g.encode.length < 2 ^ 24)
    (hnames : (asBytes config.user).length +
      (asBytes config.database).length < 2 ^ 24 - 77) :
    ((handshake sha1 config
          (challenger sha1 (accountOf sha1 config) g.challenge)
          ⟨frame seq g.encode, []⟩).1 = .ok () ↔
        0 ∉ asBytes config.user ∧
          Collides sha1
            (g.authData1 ++ g.authData2.take g.secondLength ++
              (accountOf sha1 config).stored)
            (g.challenge ++ (accountOf sha1 config).stored)) ∧
      ((∃ stream, (accountServer sha1 (accountOf sha1 config) g
          config).connect = .ok stream) ↔
        0 ∉ asBytes config.user ∧
          Collides sha1
            (g.authData1 ++ (g.reserved ++ g.authData2).take g.secondLength ++
              (accountOf sha1 config).stored)
            (g.challenge ++ (accountOf sha1 config).stored)) := by
  have hlen2 : g.secondLength ≤ g.authData2.length := g.le_authData2
  have hlogin : ∀ token behind : Bytes, token.length = 20 →
      behind.length ≤ 22 →
        (loginFields config token ++ behind).length < 2 ^ 24 := by
    intro token behind htoken hbehind
    rw [List.length_append, length_loginFields, htoken]
    omega
  constructor
  · rw [handshake_challenger_iff hfits g.handshakeScramble_encode, sendAuth_eq]
    apply loginReply_greeting_iff hpreimage hlen2
    intro token htoken
    exact hlogin token _ htoken (by decide)
  · rw [connect_accountServer_iff hfits g.parseGreeting_encode]
    have h := @loginReply_greeting_iff sha1 config g hpreimage
      (g.reserved ++ g.authData2) [] (by rw [List.length_append]; omega)
      fun token htoken => hlogin token [] htoken (by simp)
    rw [List.append_nil] at h
    exact h

namespace Sample

def once : Bytes :=
  [229, 233, 250, 27, 163, 30, 205, 26, 232, 79, 117, 202, 170, 71, 79, 58,
   102, 63, 5, 244]

def twice : Bytes :=
  [20, 230, 85, 103, 171, 219, 81, 53, 208, 207, 217, 167, 11, 48, 50, 193,
   121, 164, 158, 231]

def withChallenge : Bytes :=
  [86, 194, 73, 190, 32, 255, 249, 22, 226, 94, 125, 31, 33, 92, 171, 173,
   231, 146, 137, 219]

def withZero : Bytes :=
  [23, 236, 17, 239, 24, 35, 218, 170, 52, 45, 116, 118, 115, 13, 52, 40,
   112, 64, 209, 27]

def withReserved : Bytes :=
  [214, 234, 73, 42, 91, 121, 158, 219, 190, 161, 6, 248, 80, 218, 131, 58,
   64, 42, 108, 185]

/-- The digests of what is hashed when `Greeting.usual` is answered. -/
def digest (bytes : Bytes) : Bytes :=
  if bytes = asBytes "secret" then once
  else if bytes = once then twice
  else if bytes = Greeting.usual.challenge ++ twice then withChallenge
  else if bytes = Greeting.usual.challenge ++ [0] ++ twice then withZero
  else if bytes = Greeting.usual.authData1 ++ List.replicate 10 0 ++
      [9, 10, 11] ++ twice then withReserved
  else List.replicate 20 0

def hasher : Sha1 where
  hash := digest
  length_hash bytes := by
    unfold digest
    split_ifs <;> rfl

theorem noSecondPreimage : NoSecondPreimage hasher config.password := by
  have hstored : hasher.hash (hasher.hash (asBytes config.password)) = twice := by
    decide
  have honce : hasher.hash (asBytes config.password) = once := by decide
  intro bytes hlength hhash
  rw [hstored] at hhash
  rw [honce]
  change digest bytes = twice at hhash
  unfold digest at hhash
  split_ifs at hhash with hsecret hfirst
  · rw [hsecret] at hlength
    exact absurd hlength (by decide)
  · exact hfirst
  · exact absurd hhash (by decide)
  · exact absurd hhash (by decide)
  · exact absurd hhash (by decide)
  · exact absurd hhash (by decide)

end Sample

theorem letsIn_neither :
    (handshake Sample.hasher Sample.config
        (challenger Sample.hasher (accountOf Sample.hasher Sample.config)
          Greeting.usual.challenge)
        ⟨frame 0 Greeting.usual.encode, []⟩).1 ≠ .ok () ∧
      ¬∃ stream, (accountServer Sample.hasher
        (accountOf Sample.hasher Sample.config) Greeting.usual
          Sample.config).connect = .ok stream := by
  have h := letsIn_iff Greeting.usual 0 Sample.noSecondPreimage (by decide)
    (by decide)
  constructor
  · intro hok
    exact absurd (h.1.mp hok).2.2 (by decide)
  · intro hok
    exact absurd (h.2.mp hok).2.2 (by decide)

end OpenCdc.Mysql
