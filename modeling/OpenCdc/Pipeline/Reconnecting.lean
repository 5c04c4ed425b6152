import OpenCdc.Core.Error
import OpenCdc.Foundation.Retry
import OpenCdc.Mysql.Login
import OpenCdc.Postgres.ConnectionString

/-!
# Connecting again

The three connectors connect in a loop: an attempt that fails is repeated after
a delay that grows, up to a configured number of attempts.
-/

namespace OpenCdc

open Foundation

/-! ## The loop -/

/-- The error that the loop keeps of a failed attempt. -/
def attemptError (what : String) (maxAttempts attempt : ℕ) (e : String) :
    Error :=
  .other (what ++ " attempt " ++ toString (attempt + 1) ++ "/" ++
    toString maxAttempts ++ " failed: " ++ e)

/-- The milliseconds behind an attempt. -/
def delay (attempt : ℕ) : ℕ := 500 * (attempt + 1)

def maxAttempts (maxReconnectAttempts : UInt32) : ℕ :=
  max maxReconnectAttempts.toNat 1

/-- The loop of `connect_with_retry`: the delays and the result. -/
def connectWithRetry {α : Type} (kind : String) (maxReconnectAttempts : UInt32)
    (attempt : ℕ → Outcome Error α) : List ℕ × Outcome Error α :=
  retry attempt delay (maxAttempts maxReconnectAttempts)
    (.other (kind ++ " connection failed"))

variable {α : Type}

theorem exists_decides_maxAttempts (maxReconnectAttempts : UInt32)
    (attempt : ℕ → Outcome Error α) :
    ∃ k, Decides attempt (maxAttempts maxReconnectAttempts) k :=
  exists_decides attempt (Nat.lt_of_lt_of_le Nat.one_pos (le_max_right _ _))

theorem connectWithRetry_of_decides (kind : String) {maxReconnectAttempts : UInt32}
    {attempt : ℕ → Outcome Error α} {k : ℕ}
    (h : Decides attempt (maxAttempts maxReconnectAttempts) k) :
    connectWithRetry kind maxReconnectAttempts attempt =
      ((List.range k).map delay, attempt k) :=
  retry_eq h

/-- Attempts are made up to the one that decides, and at least one is made: the
loop never ends without an attempt.  The delays in front of attempt `k` are
`250 k (k + 1)` milliseconds together. -/
theorem exists_connectWithRetry (kind : String) (maxReconnectAttempts : UInt32)
    (attempt : ℕ → Outcome Error α) :
    ∃ k, Decides attempt (maxAttempts maxReconnectAttempts) k ∧
      (connectWithRetry kind maxReconnectAttempts attempt).2 = attempt k ∧
      (connectWithRetry kind maxReconnectAttempts attempt).1.length = k ∧
      (connectWithRetry kind maxReconnectAttempts attempt).1.sum =
        250 * k * (k + 1) := by
  obtain ⟨k, hk⟩ := exists_decides_maxAttempts maxReconnectAttempts attempt
  have hsum := sum_pauses 500 k
  rw [connectWithRetry_of_decides kind hk]
  refine ⟨k, hk, rfl, by simp, ?_⟩
  have hhalf : 500 * k * (k + 1) = 2 * (250 * k * (k + 1)) := by ring
  apply Nat.eq_of_mul_eq_mul_left Nat.two_pos
  rw [← hhalf]
  exact hsum

theorem connectWithRetry_eq_iff {kind : String} {maxReconnectAttempts : UInt32}
    {attempt : ℕ → Outcome Error α} {result : Outcome Error α} :
    (connectWithRetry kind maxReconnectAttempts attempt).2 = result ↔
      ∃ k, Decides attempt (maxAttempts maxReconnectAttempts) k ∧
        attempt k = result := by
  obtain ⟨k, hk⟩ := exists_decides_maxAttempts maxReconnectAttempts attempt
  rw [connectWithRetry_of_decides kind hk]
  constructor
  · exact fun h => ⟨k, hk, h⟩
  · rintro ⟨l, hl, h⟩
    rw [hk.unique hl]
    exact h

/-! ## The three connectors -/

namespace Postgres

/-- `PostgresConnector::connect_with_retry`; `connect` is
`tokio_postgres::connect`, attempt by attempt. -/
def connectWithRetry {Client : Type} (config : PostgresConnectorConfig)
    (maxReconnectAttempts : UInt32)
    (connect : ℕ → String → Outcome String Client) :
    List ℕ × Outcome Error Client :=
  OpenCdc.connectWithRetry "postgres" maxReconnectAttempts fun i =>
    (connect i config.connectionString).mapError
      (attemptError "postgres connect" (maxAttempts maxReconnectAttempts) i)

end Postgres

namespace Mysql

/-- What an attempt reaches: the greeting of a server, and the server. -/
structure Reached where
  greeting : Bytes
  peer : Peer

/-- `BinlogClient::connect` -/
def BinlogClient.connect (sha1 : Sha1) (config : MySqlConnectorConfig)
    (reached : Except String Reached) : Outcome String (Peer × Line) :=
  match reached with
  | .error e => .error ("connect failed: " ++ e)
  | .ok reached =>
      match handshake sha1 config reached.peer ⟨reached.greeting, []⟩ with
      | (.ok _, line) => .ok (reached.peer, line)
      | (.error e, _) => .error e
      | (.panicked, _) => .panicked

/-- `MySqlConnector::connect_with_retry` -/
def connectWithRetry (sha1 : Sha1) (config : MySqlConnectorConfig)
    (network : ℕ → Except String Reached) :
    List ℕ × Outcome Error (Peer × Line) :=
  OpenCdc.connectWithRetry "mysql" config.maxReconnectAttempts fun i =>
    (BinlogClient.connect sha1 config (network i)).mapError
      (attemptError "mysql connect" (maxAttempts config.maxReconnectAttempts) i)

end Mysql

namespace Mongodb

/-- An attempt of `MongoDbConnector::connect_with_retry`: the client is pinged
before it is returned. -/
def connectAttempt {Client : Type} (maxAttempts : ℕ)
    (withUriStr : ℕ → Outcome String Client)
    (ping : ℕ → Client → Outcome String Unit) (i : ℕ) :
    Outcome Error Client := do
  let client ← (withUriStr i).mapError
    (attemptError "mongodb connect" maxAttempts i)
  let _ ← (ping i client).mapError (attemptError "mongodb ping" maxAttempts i)
  return client

/-- `MongoDbConnector::connect_with_retry` -/
def connectWithRetry {Client : Type} (maxReconnectAttempts : UInt32)
    (withUriStr : ℕ → Outcome String Client)
    (ping : ℕ → Client → Outcome String Unit) : List ℕ × Outcome Error Client :=
  OpenCdc.connectWithRetry "mongodb" maxReconnectAttempts
    (connectAttempt (maxAttempts maxReconnectAttempts) withUriStr ping)

end Mongodb
end OpenCdc
