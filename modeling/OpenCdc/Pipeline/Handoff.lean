import OpenCdc.Foundation.Handoff
import OpenCdc.Pipeline.Delivery
import OpenCdc.Postgres.Lsn

/-!
# From the snapshot to the stream

`Pipeline::run` with tables takes the connector's snapshot, drains its events,
and opens the connector's stream from the offset that the snapshot returned.
The source is an append-only log to which it commits at any time.  What the
three connectors record, and where they start from it, decides whether a
change can fall between the two phases.
-/

namespace OpenCdc.Pipeline

open Foundation Foundation.Handoff Postgres

/-! ## The calls of a run -/

/-- What `stream_from_offset` hands to the connector behind a snapshot. -/
def streamContext (offset : ConnectorOffset) : StreamContext :=
  ⟨some offset, []⟩

variable {κ σ : Type}

theorem drain_connector (p : Pipeline κ σ) (events : List ChangeEvent) :
    (p.drain events).2.connector = p.connector :=
  congrArg (fun q => q.2.connector)
    (drain_setConnector p p.connector p.running events)

theorem calls_of_streamFromOffset {p p' : Pipeline κ σ}
    {offset : Option ConnectorOffset} {result : Except PipelineError Unit}
    (h : p.streamFromOffset offset = some (result, p')) :
    p'.connector.calls = p.connector.calls ++ [.stream ⟨offset, []⟩] := by
  simp only [streamFromOffset] at h
  split_ifs at h with hfull
  rcases hcall : (p.connector.stream ⟨offset, []⟩).result with err | _
  · simp only [hcall, Option.some.injEq, Prod.mk.injEq] at h
    rw [← h.2]
    rfl
  · simp only [hcall, Option.some.injEq] at h
    have hconnector := drain_connector
      { p with connector := (p.connector.stream ⟨offset, []⟩).state }
      (p.connector.stream ⟨offset, []⟩).sent
    rw [h] at hconnector
    rw [hconnector]
    rfl

/-- A run calls the connector's stream at most once, from the offset that the
snapshot returned. -/
theorem calls_of_run {p p' : Pipeline κ σ} {tables : List String}
    {offset : ConnectorOffset} {result : Except PipelineError Unit}
    (hidle : p.running = false)
    (hresult : (p.connector.snapshot ⟨tables⟩).result = .ok offset)
    (hrun : p.run (some tables) = some (result, p')) :
    p'.connector.calls = p.connector.calls ++ [.snapshot ⟨tables⟩] ∨
      p'.connector.calls = p.connector.calls ++
        [.snapshot ⟨tables⟩, .stream (streamContext offset)] := by
  have hfits : (p.connector.snapshot ⟨tables⟩).sent.length ≤
      channelCapacity := by
    by_contra hfull
    rw [run_of_overfull hidle (by omega)] at hrun
    cases hrun
  rw [run_of_snapshot_ok hidle hresult hfits] at hrun
  rcases hdrain : p.drain (p.connector.snapshot ⟨tables⟩).sent with
    ⟨err | _, q⟩
  · left
    simp only [hdrain, Option.some.injEq, Prod.mk.injEq] at hrun
    rw [← hrun.2]
    rfl
  · right
    rw [hdrain] at hrun
    rw [calls_of_streamFromOffset hrun]
    simp [ConnectorCell.snapshot, streamContext]

/-! ## The connectors -/

/-- `Snapshotter::run` reads the current LSN before any table; the stream
starts where the server finds the LSN that `Streamer::run` renders. -/
def postgresReader : Reader ConnectorOffset where
  valid position := position < 2 ^ 64
  record tip := (snapshotOffset (lsnText tip)).toOption
  start offset :=
    match startPosition (streamContext offset).offset with
    | some position => .after position
    | none => .refused

/-- The dump that `MySqlConnector::stream` requests. -/
inductive DumpRequest where
  | gtid (gtidSet : String)
  | binlog (filename : String) (pos : UInt32)
deriving DecidableEq, Repr

def dumpRequest (ctx : StreamContext) : DumpRequest :=
  let gtidSet := (ctx.offset.bind (·.gtid)).getD ""
  if gtidSet ≠ "" then .gtid gtidSet
  else .binlog ((ctx.offset.bind (·.file)).getD "")
    ((ctx.offset.bind (·.pos)).getD 4).toUInt64.toUInt32

/-- `MySqlSnapshotter::run` records nothing.  A dump from position 4 of no file
starts at the oldest log; where another one starts is up to the server. -/
def mysqlReader (locate : DumpRequest → ℕ) : Reader ConnectorOffset where
  valid _ := True
  record _ := some .snapshotDone
  start offset :=
    let request := dumpRequest (streamContext offset)
    if request = .binlog "" 4 then .after 0 else .after (locate request)

/-- The token that `MongoDbConnector::stream` resumes behind, if the driver
reads one. -/
def resumeToken {Token : Type} (fromStr : String → Option Token)
    (ctx : StreamContext) : Option Token :=
  (ctx.offset.bind (·.resumeToken)).bind fromStr

/-- `MongoDbSnapshotter::run` records nothing.  Without a token the watch
delivers what is committed after it was opened. -/
def mongodbReader {Token : Type} (fromStr : String → Option Token)
    (locate : Token → ℕ) : Reader ConnectorOffset where
  valid _ := True
  record _ := some .snapshotDone
  start offset :=
    match resumeToken fromStr (streamContext offset) with
    | some token => .after (locate token)
    | none => .opening

/-! ## Where the streams start -/

/-- The position lies behind the one that the decimal halves of `begun` denote
in base 16. -/
def BeyondMisread (begun position : ℕ) : Prop :=
  reread 10 16 (begun / 2 ^ 32) < 2 ^ 32 ∧
    reread 10 16 (begun % 2 ^ 32) < 2 ^ 32 ∧
    2 ^ 32 * reread 10 16 (begun / 2 ^ 32) +
      reread 10 16 (begun % 2 ^ 32) < position

theorem snapshotOffset_lsnText_eq_ok {tip : ℕ} {offset : ConnectorOffset}
    (h : (snapshotOffset (lsnText tip)).toOption = some offset) :
    ∃ lsn, offset = .fromLsn lsn ∧ positionOf lsn = tip := by
  rcases hparse : parseLsn (lsnText tip) with e | lsn
  · simp [snapshotOffset, hparse, bind, Except.bind, Except.toOption] at h
  · have hoffset : ConnectorOffset.fromLsn lsn = offset := by
      simpa [snapshotOffset, hparse, bind, Except.bind, pure, Except.pure,
        Except.toOption] using h
    exact ⟨lsn, hoffset.symm, (parseLsn_lsnText_eq_ok_iff tip lsn).mp hparse⟩

theorem kept_postgres_iff {s : Progress String ConnectorOffset} {position : ℕ}
    (h : Invariant postgresReader s) (hreads : s.reads ≠ []) :
    Kept postgresReader s.phase position ↔
      BeyondMisread s.begun position := by
  obtain ⟨offset, hoffset, hrecord, -⟩ := h.exists_offset hreads
  obtain ⟨lsn, hlsn, hbegun⟩ := snapshotOffset_lsnText_eq_ok hrecord
  have hstart : ∀ p, postgresReader.start offset = .after p ↔
      startPosition (some (.fromLsn lsn)) = some p := by
    intro p
    rw [← hlsn]
    rcases hposition : startPosition (some offset) with _ | q
    · simp [postgresReader, streamContext, hposition]
    · simp [postgresReader, streamContext, hposition]
  have hne : postgresReader.start offset ≠ .opening := by
    rcases hposition : startPosition (some offset) with _ | q
    · simp [postgresReader, streamContext, hposition]
    · simp [postgresReader, streamContext, hposition]
  rw [kept_iff_after hoffset hne, BeyondMisread, ← hbegun]
  constructor
  · intro hkept
    obtain ⟨p, hafter, hlt⟩ := hkept
    obtain ⟨hhigh, hlow, hp⟩ :=
      startPosition_eq_some_iff.mp ((hstart p).mp hafter)
    rw [← hp] at hlt
    exact ⟨hhigh, hlow, hlt⟩
  · intro hbeyond
    obtain ⟨hhigh, hlow, hlt⟩ := hbeyond
    have hposition := startPosition_eq_some_iff.mpr ⟨hhigh, hlow, rfl⟩
    exact ⟨_, (hstart _).mpr hposition, hlt⟩

/-- Without a file and a position the dump starts at the oldest log. -/
theorem dumpRequest_snapshotDone :
    dumpRequest (streamContext .snapshotDone) = .binlog "" 4 := by
  decide

theorem kept_mysql {locate : DumpRequest → ℕ}
    {s : Progress String ConnectorOffset} {position : ℕ}
    (h : Invariant (mysqlReader locate) s) (hreads : s.reads ≠ [])
    (htip : s.log.tip < position) :
    Kept (mysqlReader locate) s.phase position := by
  obtain ⟨offset, hoffset, hrecord, -⟩ := h.exists_offset hreads
  have hdone : ConnectorOffset.snapshotDone = offset :=
    Option.some.inj hrecord
  have hstart : (mysqlReader locate).start offset = .after 0 := by
    rw [← hdone]
    simp [mysqlReader, dumpRequest_snapshotDone]
  rw [kept_iff_after hoffset (by rw [hstart]; simp)]
  exact ⟨0, hstart, Nat.zero_lt_of_lt htip⟩

theorem kept_mongodb_iff {Token : Type} {fromStr : String → Option Token}
    {locate : Token → ℕ} {s : Progress String ConnectorOffset} {position : ℕ}
    (h : Invariant (mongodbReader fromStr locate) s) (hreads : s.reads ≠ [])
    (htip : s.log.tip < position) :
    Kept (mongodbReader fromStr locate) s.phase position ↔
      ∃ offset opened, s.phase = .streaming offset opened := by
  obtain ⟨offset, hoffset, hrecord, -⟩ := h.exists_offset hreads
  have hdone : ConnectorOffset.snapshotDone = offset :=
    Option.some.inj hrecord
  have hstart : (mongodbReader fromStr locate).start offset = .opening := by
    rw [← hdone]
    rfl
  rw [kept_iff_opening hoffset hstart]
  constructor
  · intro hkept
    obtain ⟨opened, hphase, -⟩ := hkept
    exact ⟨offset, opened, hphase⟩
  · intro hopen
    obtain ⟨offset', opened, hphase⟩ := hopen
    have hsame : offset' = offset := by
      rw [hphase] at hoffset
      exact Option.some.inj hoffset
    rw [hsame] at hphase
    exact ⟨opened, hphase, (h.opened_le offset opened hphase).trans_lt htip⟩

/-! ## No gap -/

/-- A MongoDB reader whose snapshot reads `users` before a change of that table
is committed, and which opens its watch behind that change. -/
def usersRun : StreamRun (T := String)
    (mongodbReader (fun _ => none : String → Option Unit) fun _ => 0)
    ["users"] where
  log := ⟨[], 0, by simp⟩
  valid_tip := trivial
  trace := _
  final := _
  run := .step (.begin rfl rfl) <| .step (.list rfl (.inr rfl)) <|
    .step (.read rfl) <|
    .step (a := .commit "users" 1) (.commit (by decide) trivial) <|
    .step (.finish rfl) <| .step (.openStream rfl) <| .done _
  offset := .snapshotDone
  opened := 1
  phase_eq := rfl

theorem not_noGap_usersRun :
    ¬ NoGap (mongodbReader (fun _ => none : String → Option Unit) fun _ => 0)
      usersRun.final := by
  intro h
  have hlost : (1 : ℕ) < 1 :=
    h .snapshotDone 1 rfl ⟨1, "users"⟩ (List.mem_singleton.mpr rfl)
      ⟨0, List.mem_singleton.mpr rfl, by decide⟩
  exact absurd hlost (by decide)

/-- A Postgres run has no gap exactly if every change committed to a table that
was read lies behind the misread start LSN; a MySQL run never has one; a
MongoDB run has none exactly if no change is committed to a table that was read
before the watch is open. -/
theorem noGap_iff {Token : Type} (fromStr : String → Option Token)
    (locate : Token → ℕ) (locateDump : DumpRequest → ℕ)
    (tables : List String) :
    (∀ r : StreamRun (T := String) postgresReader tables,
      NoGap postgresReader r.final ↔
        ∀ m ∈ r.trace, ∀ table position, m.2 = .commit table position →
          table ∈ m.1.readTables → BeyondMisread m.1.begun position) ∧
    (∀ r : StreamRun (T := String) (mysqlReader locateDump) tables,
      NoGap (mysqlReader locateDump) r.final) ∧
    (∀ r : StreamRun (T := String) (mongodbReader fromStr locate) tables,
      NoGap (mongodbReader fromStr locate) r.final ↔
        ∀ m ∈ r.trace, ∀ table position, m.2 = .commit table position →
          table ∈ m.1.readTables →
            ∃ offset opened, m.1.phase = .streaming offset opened) := by
  refine ⟨?_, ?_, ?_⟩
  · intro r
    exact r.noGap_iff_of_kept_iff fun s position hs hreads _ =>
      kept_postgres_iff hs hreads
  · intro r
    have hiff := r.noGap_iff_of_kept_iff (P := fun _ _ => True)
      fun s position hs hreads htip =>
        iff_true_intro (kept_mysql hs hreads htip)
    exact hiff.mpr fun _ _ _ _ _ _ => trivial
  · intro r
    exact r.noGap_iff_of_kept_iff fun s position hs hreads htip =>
      kept_mongodb_iff hs hreads htip

end OpenCdc.Pipeline
