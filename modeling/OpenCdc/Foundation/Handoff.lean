import Mathlib.Order.Nat

/-!
# From a snapshot to a stream

A reader takes a snapshot of some tables and then streams the log of their
source from the offset that the snapshot returned.  The source commits changes
at any time.  The main result says in which runs no change falls between the
snapshot and the stream, by a condition on the single commits.
-/

namespace Foundation.Handoff

/-! ## Logs and readers -/

/-- A committed change: its position in the log, and its table. -/
structure Change (T : Type) where
  position : ℕ
  table : T

/-- An append-only log that is written up to `tip`. -/
structure Log (T : Type) where
  changes : List (Change T)
  tip : ℕ
  le_tip : ∀ c ∈ changes, c.position ≤ tip

namespace Log

variable {T : Type}

def commit (log : Log T) (table : T) (position : ℕ)
    (hposition : log.tip < position) : Log T where
  changes := log.changes ++ [⟨position, table⟩]
  tip := position
  le_tip := by
    intro c hc
    rcases List.mem_append.mp hc with hold | hnew
    · exact Nat.le_trans (log.le_tip c hold) hposition.le
    · have heq := List.mem_singleton.mp hnew
      simp [heq]

/-- The log is written on without a change of a table. -/
def advance (log : Log T) (position : ℕ) (hposition : log.tip < position) :
    Log T where
  changes := log.changes
  tip := position
  le_tip := fun c hc => Nat.le_trans (log.le_tip c hc) hposition.le

end Log

/-- What a stream delivers: what stands behind a position, or what is committed
after the stream was opened; or the stream is refused. -/
inductive StartPoint where
  | after (position : ℕ)
  | opening
  | refused
deriving DecidableEq

/-- Whether a stream opened when the log's tip was `opened` delivers the change
at `position`. -/
def StartPoint.Delivers (start : StartPoint) (opened position : ℕ) : Prop :=
  match start with
  | after p => p < position
  | opening => opened < position
  | refused => False

/-- The positions that the log may have, the offset that a snapshot returns by
the log's tip at its beginning, and where a stream from an offset starts. -/
structure Reader (O : Type) where
  valid : ℕ → Prop
  record : ℕ → Option O
  start : O → StartPoint

/-! ## Runs -/

/-- What the reader has done; `opened` is the log's tip when it opened the
stream. -/
inductive Phase (T O : Type) where
  | idle
  | listing (offset : O)
  | reading (offset : O) (todo : List T)
  | returned (offset : O)
  | streaming (offset : O) (opened : ℕ)

/-- The log, the log's tip when the snapshot began, and the tables that were
read, each with the log's tip at that time. -/
structure Progress (T O : Type) where
  log : Log T
  begun : ℕ := 0
  reads : List (T × ℕ) := []
  phase : Phase T O := .idle

inductive Action (T : Type) where
  | commit (table : T) (position : ℕ)
  | advance (position : ℕ)
  | begin
  | list (names : List T)
  | read
  | finish
  | openStream

variable {T O : Type}

/-- The steps of the source and of the reader.  Without requested tables the
reader reads whatever the source lists. -/
inductive Step (reader : Reader O) (tables : List T) :
    Progress T O → Action T → Progress T O → Prop where
  | commit {s : Progress T O} {table : T} {position : ℕ}
      (htip : s.log.tip < position) (hvalid : reader.valid position) :
      Step reader tables s (.commit table position)
        { s with log := s.log.commit table position htip }
  | advance {s : Progress T O} {position : ℕ}
      (htip : s.log.tip < position) (hvalid : reader.valid position) :
      Step reader tables s (.advance position)
        { s with log := s.log.advance position htip }
  | begin {s : Progress T O} {offset : O} (hphase : s.phase = .idle)
      (hrecord : reader.record s.log.tip = some offset) :
      Step reader tables s .begin
        { s with begun := s.log.tip, phase := .listing offset }
  | list {s : Progress T O} {offset : O} {names : List T}
      (hphase : s.phase = .listing offset)
      (hnames : tables = [] ∨ names = tables) :
      Step reader tables s (.list names)
        { s with phase := .reading offset names }
  | read {s : Progress T O} {offset : O} {table : T} {todo : List T}
      (hphase : s.phase = .reading offset (table :: todo)) :
      Step reader tables s .read
        { s with
          reads := s.reads ++ [(table, s.log.tip)]
          phase := .reading offset todo }
  | finish {s : Progress T O} {offset : O}
      (hphase : s.phase = .reading offset []) :
      Step reader tables s .finish { s with phase := .returned offset }
  | openStream {s : Progress T O} {offset : O}
      (hphase : s.phase = .returned offset) :
      Step reader tables s .openStream
        { s with phase := .streaming offset s.log.tip }

/-- A run with the actions it takes, each with the state before it. -/
inductive Run (reader : Reader O) (tables : List T) :
    Progress T O → List (Progress T O × Action T) → Progress T O → Prop where
  | done (s : Progress T O) : Run reader tables s [] s
  | step {s t u : Progress T O} {a : Action T}
      {trace : List (Progress T O × Action T)} (hstep : Step reader tables s a t)
      (hrest : Run reader tables t trace u) :
      Run reader tables s ((s, a) :: trace) u

/-- The tables read so far. -/
def Progress.readTables (s : Progress T O) : List T := s.reads.map Prod.fst

/-- The change was committed after its table was read. -/
def Progress.AfterRead (s : Progress T O) (c : Change T) : Prop :=
  ∃ tip, (c.table, tip) ∈ s.reads ∧ tip < c.position

/-- The open stream delivers every change that was committed after its table
was read. -/
def NoGap (reader : Reader O) (s : Progress T O) : Prop :=
  ∀ offset opened, s.phase = .streaming offset opened →
    ∀ c ∈ s.log.changes, s.AfterRead c →
      (reader.start offset).Delivers opened c.position

/-- A run from an idle reader until its stream is open. -/
structure StreamRun (reader : Reader O) (tables : List T) where
  log : Log T
  valid_tip : reader.valid log.tip
  trace : List (Progress T O × Action T)
  final : Progress T O
  run : Run reader tables { log := log } trace final
  offset : O
  opened : ℕ
  phase_eq : final.phase = .streaming offset opened

/-! ## The fate of a change -/

/-- The stream that is open, or that is opened later, delivers the change that
is now committed at the position. -/
def Kept (reader : Reader O) (phase : Phase T O) (position : ℕ) : Prop :=
  match phase with
  | .idle => False
  | .listing offset => ∃ p, reader.start offset = .after p ∧ p < position
  | .reading offset _ => ∃ p, reader.start offset = .after p ∧ p < position
  | .returned offset => ∃ p, reader.start offset = .after p ∧ p < position
  | .streaming offset opened => (reader.start offset).Delivers opened position

/-- Every change that was committed after its table was read is kept. -/
def AllKept (reader : Reader O) (s : Progress T O) : Prop :=
  ∀ c ∈ s.log.changes, s.AfterRead c → Kept reader s.phase c.position

/-- A commit to a table that was read is kept. -/
def Harmless (reader : Reader O) (s : Progress T O) (a : Action T) : Prop :=
  ∀ table position, a = .commit table position → table ∈ s.readTables →
    Kept reader s.phase position

/-- The offset of the snapshot, once it is known. -/
def Phase.offset? : Phase T O → Option O
  | idle => none
  | listing offset => some offset
  | reading offset _ => some offset
  | returned offset => some offset
  | streaming offset _ => some offset

/-- What holds in every state of a run. -/
structure Invariant (reader : Reader O) (s : Progress T O) : Prop where
  reads_le : ∀ r ∈ s.reads, r.2 ≤ s.log.tip
  opened_le : ∀ offset opened, s.phase = .streaming offset opened →
    opened ≤ s.log.tip
  recorded : ∀ offset, s.phase.offset? = some offset →
    reader.record s.begun = some offset ∧ reader.valid s.begun
  valid_tip : reader.valid s.log.tip
  nothing_read : s.phase.offset? = none → s.reads = []

variable {reader : Reader O} {tables : List T}

theorem invariant_start {log : Log T} (hvalid : reader.valid log.tip) :
    Invariant reader ({ log := log } : Progress T O) where
  reads_le := by simp
  opened_le := by simp
  recorded := by simp [Phase.offset?]
  valid_tip := hvalid
  nothing_read := by simp

/-- The log may grow. -/
theorem Invariant.withLog {s : Progress T O} (h : Invariant reader s)
    {log : Log T} (htip : s.log.tip < log.tip) (hvalid : reader.valid log.tip) :
    Invariant reader { s with log := log } where
  reads_le := fun r hr => (h.reads_le r hr).trans htip.le
  opened_le := fun offset opened hphase =>
    (h.opened_le offset opened hphase).trans htip.le
  recorded := h.recorded
  valid_tip := hvalid
  nothing_read := h.nothing_read

/-- Up to the opening of the stream the reader may go on with its offset. -/
theorem Invariant.withPhase {s : Progress T O} (h : Invariant reader s)
    {phase : Phase T O} {offset : O}
    (hbefore : s.phase.offset? = some offset)
    (hafter : phase.offset? = some offset)
    (hclosed : ∀ o opened, phase ≠ .streaming o opened) :
    Invariant reader { s with phase := phase } where
  reads_le := h.reads_le
  opened_le := fun o opened hphase => absurd hphase (hclosed o opened)
  recorded := by
    intro o ho
    have hsame : offset = o := Option.some.inj (hafter.symm.trans ho)
    rw [← hsame]
    exact h.recorded offset hbefore
  valid_tip := h.valid_tip
  nothing_read := by
    intro hnone
    have hcontra := hafter.symm.trans hnone
    simp at hcontra

theorem invariant_step {s t : Progress T O} {a : Action T}
    (h : Invariant reader s) (hstep : Step reader tables s a t) :
    Invariant reader t := by
  cases hstep with
  | commit htip hvalid => exact h.withLog htip hvalid
  | advance htip hvalid => exact h.withLog htip hvalid
  | begin hphase hrecord =>
      refine ⟨h.reads_le, by simp, ?_, h.valid_tip, by simp [Phase.offset?]⟩
      intro offset hoffset
      have heq := Option.some.inj hoffset
      rw [← heq]
      exact ⟨hrecord, h.valid_tip⟩
  | list hphase hnames =>
      exact h.withPhase (by rw [hphase]; rfl) rfl (by simp)
  | @read offset table todo hphase =>
      have hnext : Invariant reader { s with phase := .reading offset todo } :=
        h.withPhase (by rw [hphase]; rfl) rfl (by simp)
      refine ⟨?_, hnext.opened_le, hnext.recorded, hnext.valid_tip, ?_⟩
      · intro r hr
        rcases List.mem_append.mp hr with hold | hnew
        · exact h.reads_le r hold
        · have heq := List.mem_singleton.mp hnew
          rw [heq]
      · simp [Phase.offset?]
  | finish hphase =>
      exact h.withPhase (by rw [hphase]; rfl) rfl (by simp)
  | openStream hphase =>
      refine ⟨h.reads_le, ?_, ?_, h.valid_tip, by simp [Phase.offset?]⟩
      · intro offset opened heq
        have hopen : s.log.tip = opened := by
          simp only [Phase.streaming.injEq] at heq
          exact heq.2
        rw [← hopen]
      · intro offset hoffset
        exact h.recorded offset (by rw [hphase]; exact hoffset)

/-- Once a table was read, the snapshot's offset is known. -/
theorem Invariant.exists_offset {s : Progress T O} (h : Invariant reader s)
    (hreads : s.reads ≠ []) :
    ∃ offset, s.phase.offset? = some offset ∧
      reader.record s.begun = some offset ∧ reader.valid s.begun := by
  rcases hoffset : s.phase.offset? with _ | offset
  · exact absurd (h.nothing_read hoffset) hreads
  · exact ⟨offset, rfl, h.recorded offset hoffset⟩

/-- A change in the log was not committed after a read at the log's tip. -/
theorem afterRead_read_iff {s : Progress T O} {table : T} {phase : Phase T O}
    {c : Change T} (hc : c ∈ s.log.changes) :
    Progress.AfterRead { s with
        reads := s.reads ++ [(table, s.log.tip)]
        phase := phase } c ↔ s.AfterRead c := by
  have hle := s.log.le_tip c hc
  constructor
  · intro hafter
    obtain ⟨tip, hmem, hlt⟩ := hafter
    rcases List.mem_append.mp hmem with hold | hnew
    · exact ⟨tip, hold, hlt⟩
    · have heq := List.mem_singleton.mp hnew
      simp only [Prod.mk.injEq] at heq
      omega
  · intro hafter
    obtain ⟨tip, hmem, hlt⟩ := hafter
    exact ⟨tip, List.mem_append_left _ hmem, hlt⟩

/-- A change in the log is kept by opening the stream exactly when it was kept
before. -/
theorem kept_openStream_iff {s : Progress T O} {offset : O} {c : Change T}
    (hc : c ∈ s.log.changes) :
    Kept reader (.streaming offset s.log.tip : Phase T O) c.position ↔
      Kept reader (.returned offset : Phase T O) c.position := by
  have hle := s.log.le_tip c hc
  rcases hstart : reader.start offset with p | _ | _
  · simp [Kept, StartPoint.Delivers, hstart]
  · simp [Kept, StartPoint.Delivers, hstart, hle]
  · simp [Kept, StartPoint.Delivers, hstart]

theorem kept_iff_after {phase : Phase T O} {offset : O} {position : ℕ}
    (hoffset : phase.offset? = some offset)
    (hstart : reader.start offset ≠ .opening) :
    Kept reader phase position ↔
      ∃ p, reader.start offset = .after p ∧ p < position := by
  cases phase with
  | idle => simp [Phase.offset?] at hoffset
  | listing o => rw [← Option.some.inj hoffset]; rfl
  | reading o todo => rw [← Option.some.inj hoffset]; rfl
  | returned o => rw [← Option.some.inj hoffset]; rfl
  | streaming o opened =>
      rw [← Option.some.inj hoffset] at hstart ⊢
      rcases h : reader.start o with p | _ | _
      · simp [Kept, StartPoint.Delivers, h]
      · exact absurd h hstart
      · simp [Kept, StartPoint.Delivers, h]

theorem kept_iff_opening {phase : Phase T O} {offset : O} {position : ℕ}
    (hoffset : phase.offset? = some offset)
    (hstart : reader.start offset = .opening) :
    Kept reader phase position ↔
      ∃ opened, phase = .streaming offset opened ∧ opened < position := by
  cases phase with
  | idle => simp [Phase.offset?] at hoffset
  | listing o =>
      have heq := Option.some.inj hoffset
      simp [Kept, heq, hstart]
  | reading o todo =>
      have heq := Option.some.inj hoffset
      simp [Kept, heq, hstart]
  | returned o =>
      have heq := Option.some.inj hoffset
      simp [Kept, heq, hstart]
  | streaming o opened =>
      have heq := Option.some.inj hoffset
      simp [Kept, StartPoint.Delivers, heq, hstart]

theorem allKept_of_nothing_read {s : Progress T O} (h : s.reads = []) :
    AllKept reader s := by
  intro c hc hafter
  obtain ⟨tip, hmem, hlt⟩ := hafter
  rw [h] at hmem
  simp at hmem

theorem harmless_of_not_commit {s : Progress T O} {a : Action T}
    (h : ∀ table position, a ≠ .commit table position) :
    Harmless reader s a :=
  fun table position ha => absurd ha (h table position)

/-- A step that commits nothing is harmless, and changes nothing if it changes
the fate of no change. -/
theorem allKept_iff_of_not_commit {s t : Progress T O} {a : Action T}
    (hcommit : ∀ table position, a ≠ .commit table position)
    (hlog : t.log.changes = s.log.changes)
    (hread : ∀ c ∈ s.log.changes, t.AfterRead c ↔ s.AfterRead c)
    (hkept : ∀ c ∈ s.log.changes, s.AfterRead c →
      (Kept reader t.phase c.position ↔ Kept reader s.phase c.position)) :
    AllKept reader t ↔ AllKept reader s ∧ Harmless reader s a := by
  have hharmless : Harmless reader s a := harmless_of_not_commit hcommit
  constructor
  · intro h
    refine ⟨fun c hc hafter => ?_, hharmless⟩
    rw [← hkept c hc hafter]
    exact h c (by rwa [hlog]) ((hread c hc).mpr hafter)
  · intro h c hc hafter
    rw [hlog] at hc
    rw [hread c hc] at hafter
    rw [hkept c hc hafter]
    exact h.1 c hc hafter

/-- After a step every change is kept exactly if it was so before, and the step
is harmless. -/
theorem allKept_step_iff {s t : Progress T O} {a : Action T}
    (h : Invariant reader s) (hstep : Step reader tables s a t) :
    AllKept reader t ↔ AllKept reader s ∧ Harmless reader s a := by
  cases hstep with
  | @commit table position htip hnew =>
      constructor
      · intro hkept
        constructor
        · intro c hc hafter
          exact hkept c (List.mem_append_left _ hc) hafter
        · intro table' position' heq hread
          obtain ⟨htable, hposition⟩ := Action.commit.inj heq
          rw [← htable] at hread
          obtain ⟨r, hr, hrtable⟩ := List.mem_map.mp hread
          have hlast := hkept ⟨position, table⟩
            (List.mem_append_right _ (List.mem_singleton.mpr rfl))
          rw [← hposition]
          apply hlast
          refine ⟨r.2, ?_, (h.reads_le r hr).trans_lt htip⟩
          rw [← hrtable]
          exact hr
      · intro hboth
        obtain ⟨hkept, hharmless⟩ := hboth
        intro c hc hafter
        rcases List.mem_append.mp hc with hold | hlast
        · exact hkept c hold hafter
        · have heq := List.mem_singleton.mp hlast
          obtain ⟨tip, hmem, -⟩ := hafter
          rw [heq] at hmem ⊢
          exact hharmless table position rfl
            (List.mem_map.mpr ⟨_, hmem, rfl⟩)
  | advance htip hnew =>
      exact allKept_iff_of_not_commit (by simp) rfl (fun _ _ => Iff.rfl)
        (fun _ _ _ => Iff.rfl)
  | begin hphase hrecord =>
      have hreads := h.nothing_read (by rw [hphase]; rfl)
      have hafter : ∀ c, ¬ s.AfterRead c := by
        intro c hread
        obtain ⟨tip, hmem, -⟩ := hread
        simp [hreads] at hmem
      exact allKept_iff_of_not_commit (by simp) rfl (fun _ _ => Iff.rfl)
        (fun c _ hread => absurd hread (hafter c))
  | list hphase hnames =>
      exact allKept_iff_of_not_commit (by simp) rfl (fun _ _ => Iff.rfl)
        (fun _ _ _ => by rw [hphase]; rfl)
  | read hphase =>
      exact allKept_iff_of_not_commit (by simp) rfl
        (fun _ hc => afterRead_read_iff hc) (fun _ _ _ => by rw [hphase]; rfl)
  | finish hphase =>
      exact allKept_iff_of_not_commit (by simp) rfl (fun _ _ => Iff.rfl)
        (fun _ _ _ => by rw [hphase]; rfl)
  | openStream hphase =>
      exact allKept_iff_of_not_commit (by simp) rfl (fun _ _ => Iff.rfl)
        (fun _ hc _ => by rw [hphase]; exact kept_openStream_iff hc)

/-! ## Runs without a gap -/

/-- Every entry of a trace is a step from a state with the invariant. -/
theorem invariant_and_step_of_mem {s t : Progress T O}
    {trace : List (Progress T O × Action T)} (h : Invariant reader s)
    (hrun : Run reader tables s trace t) :
    ∀ m ∈ trace, Invariant reader m.1 ∧ ∃ u, Step reader tables m.1 m.2 u := by
  induction hrun with
  | done s => simp
  | step hstep hrest ih =>
      intro m hm
      rcases List.mem_cons.mp hm with hhead | htail
      · rw [hhead]
        exact ⟨h, _, hstep⟩
      · exact ih (invariant_step h hstep) m htail

theorem allKept_run_iff {s t : Progress T O}
    {trace : List (Progress T O × Action T)} (h : Invariant reader s)
    (hrun : Run reader tables s trace t) :
    AllKept reader t ↔
      AllKept reader s ∧ ∀ m ∈ trace, Harmless reader m.1 m.2 := by
  induction hrun with
  | done s => simp
  | step hstep hrest ih =>
      rw [ih (invariant_step h hstep), allKept_step_iff h hstep,
        List.forall_mem_cons, and_assoc]

namespace StreamRun

theorem noGap_iff_allKept (r : StreamRun (T := T) reader tables) :
    NoGap reader r.final ↔ AllKept reader r.final := by
  unfold NoGap AllKept
  rw [r.phase_eq]
  constructor
  · intro h
    exact h r.offset r.opened rfl
  · intro h offset opened hphase
    obtain ⟨hoffset, hopened⟩ := Phase.streaming.inj hphase
    rw [← hoffset, ← hopened]
    exact h

/-- Nothing falls between the snapshot and the stream exactly in the runs whose
steps are harmless. -/
theorem noGap_iff_harmless (r : StreamRun (T := T) reader tables) :
    NoGap reader r.final ↔ ∀ m ∈ r.trace, Harmless reader m.1 m.2 := by
  have hstart : AllKept reader ({ log := r.log } : Progress T O) :=
    allKept_of_nothing_read rfl
  rw [r.noGap_iff_allKept, allKept_run_iff (invariant_start r.valid_tip) r.run]
  exact and_iff_right hstart

/-- The condition on the commits may be put in the terms of a reader. -/
theorem noGap_iff_of_kept_iff (r : StreamRun (T := T) reader tables)
    {P : Progress T O → ℕ → Prop}
    (h : ∀ s position, Invariant reader s → s.reads ≠ [] →
      s.log.tip < position → (Kept reader s.phase position ↔ P s position)) :
    NoGap reader r.final ↔
      ∀ m ∈ r.trace, ∀ table position, m.2 = .commit table position →
        table ∈ m.1.readTables → P m.1 position := by
  rw [r.noGap_iff_harmless]
  apply forall₂_congr
  intro m hm
  obtain ⟨hinvariant, u, hstep⟩ :=
    invariant_and_step_of_mem (invariant_start r.valid_tip) r.run m hm
  apply forall₂_congr
  intro table position
  apply forall₂_congr
  intro haction hread
  have hreads : m.1.reads ≠ [] := by
    intro hnil
    simp [Progress.readTables, hnil] at hread
  have htip : m.1.log.tip < position := by
    rw [haction] at hstep
    cases hstep with
    | commit htip hvalid => exact htip
  exact h m.1 position hinvariant hreads htip

end StreamRun

end Foundation.Handoff
