import Mathlib.Data.UInt
import OpenCdc.Foundation.Conninfo
import OpenCdc.Foundation.Text

/-!
# Connection strings

The settings of a connection are put into the connection strings as they are.
Readers of keywords and values get them back if they need no quotes.
-/

namespace OpenCdc.Postgres

open Foundation Foundation.Conninfo

/-- The fields that the connection strings are made of. -/
structure PostgresConnectorConfig where
  host : String
  port : UInt16
  database : String
  username : String
  password : String
deriving DecidableEq, Repr

namespace PostgresConnectorConfig

def default : PostgresConnectorConfig where
  host := "localhost"
  port := 5432
  database := "postgres"
  username := "postgres"
  password := ""

def connectionString (config : PostgresConnectorConfig) : String :=
  "host=" ++ config.host ++ " port=" ++ toString config.port.toNat ++
    " dbname=" ++ config.database ++ " user=" ++ config.username ++
    " password=" ++ config.password

def replicationConnectionString (config : PostgresConnectorConfig) : String :=
  "host=" ++ config.host ++ " port=" ++ toString config.port.toNat ++
    " dbname=" ++ config.database ++ " user=" ++ config.username ++
    " password=" ++ config.password ++ " replication=database"

/-- The settings that are meant. -/
def settings (config : PostgresConnectorConfig) : List Setting :=
  [("host".toList, config.host.toList),
    ("port".toList, (toString config.port.toNat).toList),
    ("dbname".toList, config.database.toList),
    ("user".toList, config.username.toList),
    ("password".toList, config.password.toList)]

def replicationSettings (config : PostgresConnectorConfig) : List Setting :=
  config.settings ++ [("replication".toList, "database".toList)]

variable {d : Dialect} {config : PostgresConnectorConfig}

/-- The settings are written with spaces between them. -/
theorem toList_connectionString (config : PostgresConnectorConfig) :
    config.connectionString.toList = written config.settings := by
  have hend : config.password.toList = config.password.toList ++ [] :=
    (List.append_nil _).symm
  unfold connectionString
  simp only [String.toList_append, List.append_assoc]
  rw [hend]
  exact rfl

theorem toList_replicationConnectionString (config : PostgresConnectorConfig) :
    config.replicationConnectionString.toList =
      written config.replicationSettings := by
  unfold replicationConnectionString
  simp only [String.toList_append, List.append_assoc]
  exact rfl

theorem isKeyword_port (port : UInt16) :
    IsKeyword (toString port.toNat).toList := by
  have htext : (toString port.toNat).toList = Nat.toDigits 10 port.toNat :=
    Nat.toList_repr
  rw [htext]
  refine ⟨Nat.toDigits_ne_nil, ?_⟩
  intro c hc
  obtain ⟨n, hn, rfl⟩ := exists_digit_of_mem_toDigits (by decide) hc
  have hdigits : ∀ n < 10, (Nat.digitChar n).isAlphanum = true := by decide
  exact hdigits n hn

/-- The fields need no quotes. -/
structure PlainFields (d : Dialect) (config : PostgresConnectorConfig) :
    Prop where
  host : Plain d config.host.toList
  database : Plain d config.database.toList
  username : Plain d config.username.toList
  password : Plain d config.password.toList

theorem settings_keys (config : PostgresConnectorConfig) :
    config.settings.map Prod.fst = ["host".toList, "port".toList,
      "dbname".toList, "user".toList, "password".toList] :=
  rfl

theorem PlainFields.settings (h : PlainFields d config) :
    ∀ setting ∈ config.settings,
      IsKeyword setting.1 ∧ Plain d setting.2 := by
  simp only [PostgresConnectorConfig.settings, List.forall_mem_cons]
  exact ⟨⟨by decide, h.host⟩, ⟨by decide, (isKeyword_port config.port).plain⟩,
    ⟨by decide, h.database⟩, ⟨by decide, h.username⟩,
    ⟨by decide, h.password⟩, by simp⟩

theorem PlainFields.replicationSettings (h : PlainFields d config) :
    ∀ setting ∈ config.replicationSettings,
      IsKeyword setting.1 ∧ Plain d setting.2 := by
  intro setting hsetting
  rcases List.mem_append.mp hsetting with hmem | hlast
  · exact h.settings setting hmem
  · rw [List.mem_singleton.mp hlast]
    exact ⟨by decide, IsKeyword.plain (by decide)⟩

/-- In front of the last setting no value may be missing. -/
theorem getLast?_replicationConnectionString
    (config : PostgresConnectorConfig) :
    (written config.replicationSettings).getLast? = some 'e' := by
  rw [← toList_replicationConnectionString]
  unfold replicationConnectionString
  rw [String.toList_append, List.getLast?_append]
  rfl

/-- Both strings are read back exactly if no field needs quotes. -/
theorem givesBack_iff (d : Dialect) (config : PostgresConnectorConfig) :
    GivesBack d config.connectionString.toList config.settings ∧
        GivesBack d config.replicationConnectionString.toList
          config.replicationSettings ↔
      PlainFields d config := by
  rw [toList_connectionString, toList_replicationConnectionString]
  constructor
  · rintro ⟨-, h⟩
    have hplain : ∀ setting ∈ config.replicationSettings,
        Plain d setting.2 := by
      intro setting hsetting
      rcases plain_of_givesBack (by simp [replicationSettings])
        (by rw [replicationSettings, List.map_append, settings_keys]; decide)
        h setting hsetting with hplain | ⟨-, hend⟩
      · exact hplain
      · rw [getLast?_replicationConnectionString] at hend
        exact absurd hend (by decide)
    simp only [replicationSettings, settings, List.cons_append,
      List.forall_mem_cons] at hplain
    exact ⟨hplain.1, hplain.2.2.1, hplain.2.2.2.1, hplain.2.2.2.2.1⟩
  · intro h
    refine ⟨givesBack_of_plain ?_ h.settings,
      givesBack_of_plain ?_ h.replicationSettings⟩
    · rw [settings_keys]
      decide
    · rw [replicationSettings, List.map_append, settings_keys]
      decide

/-- Without a password the default configuration has the next setting read as
one. -/
theorem default_not_givesBack :
    parse libpq default.replicationConnectionString.toList = some [
        ("host".toList, "localhost".toList), ("port".toList, "5432".toList),
        ("dbname".toList, "postgres".toList), ("user".toList, "postgres".toList),
        ("password".toList, "replication=database".toList)] ∧
      ¬GivesBack libpq default.replicationConnectionString.toList
        default.replicationSettings := by
  have hparse : parse libpq default.replicationConnectionString.toList = some [
      ("host".toList, "localhost".toList), ("port".toList, "5432".toList),
      ("dbname".toList, "postgres".toList), ("user".toList, "postgres".toList),
      ("password".toList, "replication=database".toList)] := by
    decide +kernel
  refine ⟨hparse, ?_⟩
  rintro ⟨settings, hsettings, hlast⟩
  rw [hparse] at hsettings
  cases hsettings
  have hmissing := (hlast ("replication".toList, "database".toList)).mpr
    (by decide)
  exact absurd hmissing (by decide)

end PostgresConnectorConfig
end OpenCdc.Postgres
