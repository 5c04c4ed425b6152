import OpenCdc.Foundation.Format

/-!
# Where readers run over the end of their data

A reader that indexes past the end of its data panics.  The rules below follow
the way readers are composed, as the rules for recognised formats do, so that
the data on which a reader panics is read off from its sequence of steps.
-/

namespace Foundation

open Bytes

variable {ε α β : Type}

/-- `read` panics exactly at the offsets behind which the data is in `S`. -/
def Overruns (read : Bytes → Cursor ε α) (S : Bytes → Prop) : Prop :=
  ∀ data offset, offset ≤ data.length →
    ((read data).run offset = .panicked ↔ S (data.drop offset))

namespace Shortage

/-- Fewer bytes than a field has. -/
def shorter (width : ℕ) (rest : Bytes) : Prop := rest.length < width

/-- Too short for the first reader, or an encoding that it reads and behind
that too short for the second one. -/
def seq (S : Bytes → Prop) (F : Format α) (T : α → Bytes → Prop)
    (rest : Bytes) : Prop :=
  S rest ∨ ∃ a head tail, F a head ∧ T a tail ∧ rest = head ++ tail

theorem seq_ofEncode_iff {S : Bytes → Prop} {encode : α → Bytes}
    {T : α → Bytes → Prop} {rest : Bytes} :
    seq S (Format.ofEncode encode) T rest ↔
      S rest ∨ ∃ a tail, T a tail ∧ rest = encode a ++ tail := by
  constructor
  · rintro (h | ⟨a, head, tail, rfl, hT, rfl⟩)
    · exact .inl h
    · exact .inr ⟨a, tail, hT, rfl⟩
  · rintro (h | ⟨a, tail, hT, rfl⟩)
    · exact .inl h
    · exact .inr ⟨a, encode a, tail, rfl, hT, rfl⟩

/-- Too short for one of `n` values, behind the encodings of those before. -/
def list (S : Bytes → Prop) (F : Format α) (n : ℕ) (rest : Bytes) : Prop :=
  ∃ k, k < n ∧ ∃ values head tail, F.list k values head ∧ S tail ∧
    rest = head ++ tail

theorem list_zero {S : Bytes → Prop} {F : Format α} {rest : Bytes} :
    ¬ list S F 0 rest := by
  rintro ⟨k, hk, -⟩
  exact absurd hk (Nat.not_lt_zero k)

theorem list_succ {S : Bytes → Prop} {F : Format α} {n : ℕ} {rest : Bytes} :
    list S F (n + 1) rest ↔
      seq S F (fun _ => list S F n) rest := by
  constructor
  · rintro ⟨k, hk, values, head, tail, ⟨hlength, encs, hencs, rfl⟩, hS, rfl⟩
    cases hencs with
    | nil => exact .inl hS
    | cons hfirst hrest =>
        refine .inr ⟨_, _, _, hfirst, ?_, List.append_assoc _ _ _⟩
        refine ⟨k - 1, ?_, _, _, tail, ⟨?_, _, hrest, rfl⟩, hS, rfl⟩
        · simp only [List.length_cons] at hlength
          omega
        · simp only [List.length_cons] at hlength
          omega
  · rintro (hS | ⟨a, head, _, hF, ⟨k, hk, values, front, tail,
      ⟨hlength, encs, hencs, rfl⟩, hS, rfl⟩, rfl⟩)
    · exact ⟨0, by omega, [], [], rest, ⟨rfl, [], .nil, rfl⟩, hS, rfl⟩
    · exact ⟨k + 1, by omega, a :: values, _, tail,
        ⟨by simp [hlength], head :: encs, .cons hF hencs, rfl⟩, hS,
        by simp⟩

end Shortage

/-- The panic of reading bytes one after the other. -/
theorem Bytes.bytesAt_eq_panicked_iff {data : Bytes} {i width : ℕ}
    (hi : i ≤ data.length) :
    bytesAt (ε := ε) data i width = .panicked ↔
      (data.drop i).length < width := by
  induction width generalizing i with
  | zero => simp [bytesAt]
  | succ width ih =>
      rcases Nat.lt_or_eq_of_le hi with hlt | rfl
      · have hbyte : byteAt (ε := ε) data i = .ok data[i] := by
          simp [byteAt, hlt]
        rw [bytesAt, hbyte, Outcome.ok_bind]
        have hrest := ih (i := i + 1) hlt
        rw [List.length_drop] at hrest ⊢
        rcases hread : bytesAt (ε := ε) data (i + 1) width with bs | e | _
        · rw [hread] at hrest
          have hnot : ¬ data.length - (i + 1) < width :=
            fun h => by cases hrest.mpr h
          simp only [Outcome.ok_bind, Outcome.pure_eq, reduceCtorEq,
            false_iff]
          omega
        · rw [hread] at hrest
          have hnot : ¬ data.length - (i + 1) < width :=
            fun h => by cases hrest.mpr h
          simp only [Outcome.error_bind, reduceCtorEq, false_iff]
          omega
        · have hshort := hrest.mp hread
          simp only [Outcome.panicked_bind, true_iff]
          omega
      · simp [bytesAt, byteAt]

namespace Overruns

open Shortage

theorem congr {read : Bytes → Cursor ε α} {S T : Bytes → Prop}
    (h : Overruns read S) (hST : ∀ rest, S rest ↔ T rest) :
    Overruns read T :=
  fun data offset hoffset => (h data offset hoffset).trans (hST _)

theorem pure (a : α) :
    Overruns (ε := ε) (fun _ => Pure.pure a) (fun _ => False) :=
  fun _ _ _ => by simp

theorem throw (e : ε) :
    Overruns (fun _ => (MonadExcept.throw e : Cursor ε α))
      (fun _ => False) := by
  intro data offset _
  have hrun : (MonadExcept.throw e : Cursor ε α).run offset = .error e := rfl
  simp [hrun]

theorem readBytes (width : ℕ) :
    Overruns (ε := ε) (Cursor.readBytes width) (shorter width) := by
  intro data offset hoffset
  unfold shorter
  rw [← Bytes.bytesAt_eq_panicked_iff (ε := ε) hoffset]
  simp only [Cursor.readBytes, StateT.run]
  cases bytesAt (ε := ε) data offset width <;> simp

theorem nextByte : Overruns (ε := ε) Cursor.nextByte (shorter 1) := by
  intro data offset hoffset
  unfold shorter
  rw [← Bytes.bytesAt_eq_panicked_iff (ε := ε) hoffset]
  simp only [Cursor.nextByte, StateT.run, bytesAt]
  cases byteAt (ε := ε) data offset <;> simp

/-- A length that is checked first is never too long. -/
theorem takeSlice (e : ε) (len : ℕ) :
    Overruns (Cursor.takeSlice e len) (fun _ => False) := by
  intro data offset _
  simp only [Cursor.takeSlice, StateT.run, iff_false]
  by_cases hshort : data.length < offset + len
  · simp [hshort]
  · have hle : offset + len ≤ data.length := Nat.not_lt.mp hshort
    simp [hshort, slice, hle]

theorem bind {read : Bytes → Cursor ε α} {next : Bytes → α → Cursor ε β}
    {F : Format α} {S : Bytes → Prop} {T : α → Bytes → Prop}
    (hread : Recognises read F) (hS : Overruns read S)
    (hT : ∀ a, Overruns (fun data => next data a) (T a)) :
    Overruns (fun data => read data >>= next data) (seq S F T) := by
  intro data offset hoffset
  rw [StateT.run_bind]
  unfold seq
  rw [← hS data offset hoffset]
  have hok := hread data offset hoffset
  rcases hrun : (read data).run offset with ⟨a, middle⟩ | e | _
  · obtain ⟨head, hF, hhead, rfl⟩ := (hok a middle).mp hrun
    have hmiddle := end_le_of_isPrefix_drop hoffset hhead
    obtain ⟨tail, htail⟩ := hhead
    have hdrop : data.drop (offset + head.length) = tail := by
      rw [← List.drop_drop, ← htail, List.drop_left]
    rw [Outcome.ok_bind, hT a data _ hmiddle, hdrop]
    constructor
    · exact fun h => .inr ⟨a, head, tail, hF, h, htail.symm⟩
    · rintro (h | ⟨a', head', tail', hF', h, hsplit⟩)
      · cases h
      · have hsame := (hok a' (offset + head'.length)).mpr
          ⟨head', hF', ⟨tail', hsplit.symm⟩, rfl⟩
        rw [hrun] at hsame
        simp only [Outcome.ok.injEq, Prod.mk.injEq,
          Nat.add_left_cancel_iff] at hsame
        obtain ⟨rfl, hlength⟩ := hsame
        rw [← htail] at hsplit
        rwa [(List.append_inj hsplit hlength).2]
  · constructor
    · intro h
      cases h
    · rintro (h | ⟨a, head, tail, hF, -, hsplit⟩)
      · cases h
      · have hsame := (hok a (offset + head.length)).mpr
          ⟨head, hF, ⟨tail, hsplit.symm⟩, rfl⟩
        rw [hrun] at hsame
        cases hsame
  · simp

/-- What is made of a value afterwards reads nothing. -/
theorem map {read : Bytes → Cursor ε α} {S : Bytes → Prop}
    (hS : Overruns read S) (f : α → β) :
    Overruns (fun data => read data >>= fun a => Pure.pure (f a)) S := by
  intro data offset hoffset
  rw [StateT.run_bind, ← hS data offset hoffset]
  rcases (read data).run offset with ⟨a, middle⟩ | e | _ <;> simp

/-- A guard against the end of the data takes the panic of its first read. -/
theorem ensureMore_bind {e : ε} {read : Bytes → Cursor ε α}
    {S : Bytes → Prop} (hread : Overruns read S) :
    Overruns (fun data => Cursor.ensureMore e data >>= fun _ => read data)
      (fun rest => rest ≠ [] ∧ S rest) := by
  intro data offset hoffset
  rw [StateT.run_bind]
  by_cases hend : data.length ≤ offset
  · simp [Cursor.ensureMore, StateT.run, hend]
  · have hguard : (Cursor.ensureMore e data).run offset = .ok ((), offset) := by
      simp [Cursor.ensureMore, StateT.run, hend]
    have hne : data.drop offset ≠ [] := by simpa using hend
    rw [hguard, Outcome.ok_bind, hread data offset hoffset]
    exact (and_iff_right hne).symm

/-- A reader that is chosen by the next byte, with a guard in front. -/
theorem dispatch {e : ε} {next : Bytes → UInt8 → Cursor ε α}
    {T : UInt8 → Bytes → Prop}
    (hT : ∀ b, Overruns (fun data => next data b) (T b)) :
    Overruns
      (fun data => Cursor.ensureMore e data >>= fun _ =>
        Cursor.nextByte data >>= next data)
      (fun rest => ∃ b tail, T b tail ∧ rest = b :: tail) := by
  refine (ensureMore_bind (bind Recognises.nextByte nextByte hT)).congr
    fun rest => ?_
  rw [seq_ofEncode_iff]
  constructor
  · rintro ⟨hne, hshort | ⟨b, tail, h, rfl⟩⟩
    · exact absurd (List.length_eq_zero_iff.mp (Nat.lt_one_iff.mp hshort)) hne
    · exact ⟨b, tail, h, rfl⟩
  · rintro ⟨b, tail, h, rfl⟩
    exact ⟨List.cons_ne_nil _ _, .inr ⟨b, tail, h, rfl⟩⟩

theorem onRest {read : Bytes → Cursor ε α} {S : Bytes → Prop}
    (hread : Overruns read S) :
    Overruns (Cursor.onRest fun data => (read data).run 0) S := by
  intro data offset hoffset
  have hrest := hread (data.drop offset) 0 (Nat.zero_le _)
  rw [List.drop_zero] at hrest
  rw [← hrest]
  simp only [Cursor.onRest, StateT.run, sliceFrom]
  rw [if_pos hoffset, Outcome.ok_bind]
  rcases read (data.drop offset) 0 with ⟨a, consumed⟩ | e | _ <;> simp

theorem times {read : Bytes → Cursor ε α} {F : Format α} {S : Bytes → Prop}
    (hread : Recognises read F) (hS : Overruns read S) (n : ℕ) :
    Overruns (fun data => Cursor.times (read data) n) (list S F n) := by
  induction n with
  | zero => exact (pure []).congr fun rest => iff_of_false id list_zero
  | succ n ih =>
      exact (bind hread hS fun a => ih.map (a :: ·)).congr
        fun rest => list_succ.symm

end Overruns

/-! ## Fields of a fixed width -/

/-- `read` takes `width` bytes, whatever they are, and panics if there are
fewer. -/
def Takes (read : Bytes → Cursor ε α) (width : ℕ) : Prop :=
  ∀ data offset, offset ≤ data.length →
    if (data.drop offset).length < width then
      (read data).run offset = .panicked
    else ∃ a, (read data).run offset = .ok (a, offset + width)

namespace Takes

theorem overruns {read : Bytes → Cursor ε α} {width : ℕ}
    (h : Takes read width) : Overruns read (Shortage.shorter width) := by
  intro data offset hoffset
  have hread := h data offset hoffset
  unfold Shortage.shorter
  split_ifs at hread with hshort
  · exact iff_of_true hread hshort
  · obtain ⟨a, ha⟩ := hread
    refine iff_of_false ?_ hshort
    rw [ha]
    exact nofun

theorem pure (a : α) : Takes (ε := ε) (fun _ => Pure.pure a) 0 := by
  intro data offset _
  rw [if_neg (Nat.not_lt_zero _)]
  exact ⟨a, rfl⟩

theorem readBytes (width : ℕ) :
    Takes (ε := ε) (Cursor.readBytes width) width := by
  intro data offset hoffset
  split_ifs with hshort
  · exact (Overruns.readBytes width data offset hoffset).mpr hshort
  · have hle : width ≤ (data.drop offset).length := Nat.not_lt.mp hshort
    refine ⟨(data.drop offset).take width, ?_⟩
    have hread := Recognises.readBytes (ε := ε) width data offset hoffset
    exact (hread _ _).mpr ⟨_, ⟨rfl, List.length_take_of_le hle⟩,
      List.take_prefix _ _, by rw [List.length_take_of_le hle]⟩

theorem nextByte : Takes (ε := ε) Cursor.nextByte 1 := by
  intro data offset hoffset
  split_ifs with hshort
  · exact (Overruns.nextByte data offset hoffset).mpr hshort
  · obtain ⟨b, rest, hdrop⟩ := List.exists_cons_of_length_pos
      (Nat.not_lt.mp hshort : 0 < (data.drop offset).length)
    refine ⟨b, ?_⟩
    have hread := Recognises.nextByte (ε := ε) data offset hoffset
    exact (hread _ _).mpr ⟨[b], rfl, ⟨rest, by rw [hdrop]; rfl⟩, rfl⟩

theorem bind {read : Bytes → Cursor ε α} {next : Bytes → α → Cursor ε β}
    {m n : ℕ} (hread : Takes read m)
    (hnext : ∀ a, Takes (fun data => next data a) n) :
    Takes (fun data => read data >>= next data) (m + n) := by
  intro data offset hoffset
  have hfirst := hread data offset hoffset
  rw [StateT.run_bind]
  by_cases hm : (data.drop offset).length < m
  · rw [if_pos hm] at hfirst
    rw [if_pos (by omega), hfirst]
    rfl
  · rw [if_neg hm] at hfirst
    obtain ⟨a, ha⟩ := hfirst
    rw [List.length_drop] at hm ⊢
    have hsecond := hnext a data (offset + m) (by omega)
    rw [ha, Outcome.ok_bind]
    rw [List.length_drop] at hsecond
    split_ifs at hsecond ⊢ with hn hboth hboth
    · exact hsecond
    · omega
    · omega
    · rw [← Nat.add_assoc]
      exact hsecond

theorem times {read : Bytes → Cursor ε α} {width : ℕ}
    (hread : Takes read width) (n : ℕ) :
    Takes (fun data => Cursor.times (read data) n) (n * width) := by
  induction n with
  | zero =>
      rw [Nat.zero_mul]
      exact pure []
  | succ n ih =>
      have hboth := bind hread fun a => bind ih fun rest => pure (a :: rest)
      rwa [Nat.add_zero, Nat.add_comm, ← Nat.succ_mul] at hboth

end Takes

/-! ## The errors of a reader -/

/-- Every error that `read` returns satisfies `P`. -/
def RejectsAs (P : ε → Prop) (read : Cursor ε α) : Prop :=
  ∀ offset e, read.run offset = .error e → P e

/-- `read` returns no error: it succeeds or panics. -/
def NeverRejects (read : Cursor ε α) : Prop :=
  ∀ offset e, read.run offset ≠ .error e

theorem neverRejects_iff {read : Cursor ε α} :
    NeverRejects read ↔ RejectsAs (fun _ => False) read := Iff.rfl

theorem Bytes.bytesAt_ne_error (data : Bytes) (i width : ℕ) (e : ε) :
    bytesAt data i width ≠ .error e := by
  induction width generalizing i with
  | zero => simp [bytesAt]
  | succ width ih =>
      rw [bytesAt]
      unfold byteAt
      cases data[i]? with
      | none => simp
      | some b =>
          have hrest := ih (i + 1)
          rw [Outcome.ok_bind]
          cases hread : bytesAt (ε := ε) data (i + 1) width with
          | ok bs => simp
          | error e' =>
              rw [hread] at hrest
              simpa using hrest
          | panicked => simp

namespace RejectsAs

variable {P : ε → Prop}

theorem pure (a : α) : RejectsAs P (Pure.pure a) :=
  fun _ _ => nofun

theorem throw {e : ε} (he : P e) :
    RejectsAs P (MonadExcept.throw e : Cursor ε α) := by
  intro offset e' h
  have hrun : (MonadExcept.throw e : Cursor ε α).run offset = .error e := rfl
  rw [hrun] at h
  cases h
  exact he

theorem readBytes (width : ℕ) (data : Bytes) :
    RejectsAs P (Cursor.readBytes width data) := by
  intro offset e h
  have hread := Bytes.bytesAt_ne_error data offset width e
  simp only [Cursor.readBytes, StateT.run] at h
  cases hbytes : bytesAt (ε := ε) data offset width with
  | ok bs => simp [hbytes] at h
  | error e' =>
      rw [hbytes] at h hread
      exact absurd h (by simpa using hread)
  | panicked => simp [hbytes] at h

theorem nextByte (data : Bytes) : RejectsAs P (Cursor.nextByte data) := by
  intro offset e h
  simp only [Cursor.nextByte, StateT.run, byteAt] at h
  cases hbyte : data[offset]? <;> simp [hbyte] at h

theorem ensureMore {e : ε} (he : P e) (data : Bytes) :
    RejectsAs P (Cursor.ensureMore e data) := by
  intro offset e' h
  simp only [Cursor.ensureMore, StateT.run] at h
  split at h
  · cases h
    exact he
  · cases h

theorem takeSlice {e : ε} (he : P e) (len : ℕ) (data : Bytes) :
    RejectsAs P (Cursor.takeSlice e len data) := by
  intro offset e' h
  simp only [Cursor.takeSlice, StateT.run] at h
  split at h
  · cases h
    exact he
  · unfold slice at h
    split at h <;> simp at h

theorem bind {read : Cursor ε α} {next : α → Cursor ε β}
    (hread : RejectsAs P read) (hnext : ∀ a, RejectsAs P (next a)) :
    RejectsAs P (read >>= next) := by
  intro offset e h
  rw [StateT.run_bind] at h
  cases hrun : read.run offset with
  | ok result =>
      rw [hrun] at h
      exact hnext result.1 result.2 e h
  | error e' =>
      rw [hrun] at h
      cases h
      exact hread offset _ hrun
  | panicked =>
      rw [hrun] at h
      cases h

theorem times {read : Cursor ε α} (hread : RejectsAs P read) (n : ℕ) :
    RejectsAs P (Cursor.times read n) := by
  induction n with
  | zero => exact pure []
  | succ n ih => exact hread.bind fun a => ih.bind fun rest => pure (a :: rest)

theorem onRest {read : Bytes → Cursor ε α}
    (hread : ∀ data, RejectsAs P (read data)) (data : Bytes) :
    RejectsAs P (Cursor.onRest (fun data => (read data).run 0) data) := by
  intro offset e h
  simp only [Cursor.onRest, StateT.run, sliceFrom] at h
  split at h
  · rw [Outcome.ok_bind] at h
    cases hrun : read (data.drop offset) 0 with
    | ok result =>
        rw [hrun] at h
        cases h
    | error e' =>
        rw [hrun] at h
        cases h
        exact hread _ 0 _ hrun
    | panicked =>
        rw [hrun] at h
        cases h
  · cases h

end RejectsAs
end Foundation
