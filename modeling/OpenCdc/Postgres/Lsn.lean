import Mathlib.Data.List.Basic
import OpenCdc.Core.Error
import OpenCdc.Core.Offset
import OpenCdc.Foundation.Text

/-!
# Log sequence numbers as text

A snapshot reads its LSN from a text with two hexadecimal halves; the streamer
prints the LSN it starts at with two decimal halves.
-/

namespace OpenCdc.Postgres

open Foundation

/-! ## The two sides -/

/-- `(lsn >> 32) as u32` -/
def highHalf (lsn : Int64) : UInt32 := (lsn >>> 32).toUInt64.toUInt32

/-- `(lsn & 0xFFFF_FFFF) as u32` -/
def lowHalf (lsn : Int64) : UInt32 := (lsn &&& 0xFFFFFFFF).toUInt64.toUInt32

/-- `((high as i64) << 32) | (low as i64)` -/
def joinHalves (high low : UInt32) : Int64 :=
  (high.toUInt64.toInt64 <<< 32) ||| low.toUInt64.toInt64

/-- The start LSN that `Streamer::run` renders. -/
def startLsn (offset : Option ConnectorOffset) : String :=
  match offset.bind (·.lsn) with
  | some lsn => s!"{(highHalf lsn).toNat}/{(lowHalf lsn).toNat}"
  | none => "0/0"

/-- The command that opens the stream. -/
def startReplication (slotName publication : String)
    (offset : Option ConnectorOffset) : String :=
  "START_REPLICATION SLOT \"" ++ slotName ++ "\" LOGICAL " ++ startLsn offset ++
    " (proto_version '1', publication_names \"" ++ publication ++ "\")"

/-- One half, with the message of its error. -/
def parseHalf (which : String) (part : List Char) : Except Error UInt32 :=
  match parseU32 16 part with
  | .ok n => .ok (UInt32.ofNat n.toNat)
  | .error e => .error (.other
      (s!"invalid LSN {which} part '{String.ofList part}': " ++ e.message))

/-- How `get_snapshot_lsn` reads the text of an LSN. -/
def parseLsn (text : String) : Except Error Int64 :=
  match text.toList.splitOn '/' with
  | [highPart, lowPart] => do
      let high ← parseHalf "high" highPart
      let low ← parseHalf "low" lowPart
      return joinHalves high low
  | _ => .error (.other ("invalid WAL LSN format: " ++ text))

/-- The offset that a snapshot returns for the text of the current LSN. -/
def snapshotOffset (text : String) : Except Error ConnectorOffset := do
  let lsn ← parseLsn text
  return ConnectorOffset.fromLsn lsn

/-! ## The halves of a number -/

theorem toBitVec_highHalf (lsn : Int64) :
    (highHalf lsn).toBitVec = (lsn.toBitVec.sshiftRight 32).setWidth 32 :=
  rfl

theorem toBitVec_lowHalf (lsn : Int64) :
    (lowHalf lsn).toBitVec = lsn.toBitVec.setWidth 32 := by
  have hmask : (lowHalf lsn).toBitVec =
      (lsn.toBitVec &&& 0xFFFFFFFF#64).setWidth 32 := rfl
  rw [hmask, BitVec.setWidth_and]
  exact BitVec.and_allOnes

theorem toBitVec_joinHalves (high low : UInt32) :
    (joinHalves high low).toBitVec =
      high.toBitVec.setWidth 64 <<< 32 ||| low.toBitVec.setWidth 64 :=
  rfl

theorem highHalf_joinHalves (high low : UInt32) :
    highHalf (joinHalves high low) = high := by
  apply UInt32.toBitVec_inj.mp
  rw [toBitVec_highHalf, toBitVec_joinHalves]
  apply BitVec.eq_of_getLsbD_eq
  intro i hi
  have hinside : 32 + i < 64 := by omega
  have hlow : ¬64 ≤ i := by omega
  simp [BitVec.getLsbD_sshiftRight, hi, hinside, hlow]

theorem lowHalf_joinHalves (high low : UInt32) :
    lowHalf (joinHalves high low) = low := by
  apply UInt32.toBitVec_inj.mp
  rw [toBitVec_lowHalf, toBitVec_joinHalves]
  apply BitVec.eq_of_getLsbD_eq
  intro i hi
  simp [hi]

theorem joinHalves_halves (lsn : Int64) :
    joinHalves (highHalf lsn) (lowHalf lsn) = lsn := by
  apply Int64.toBitVec_inj.mp
  rw [toBitVec_joinHalves, toBitVec_highHalf, toBitVec_lowHalf]
  apply BitVec.eq_of_getLsbD_eq
  intro i hi
  by_cases hlow : i < 32
  · simp [hlow, hi]
  · have hback : 32 + (i - 32) = i := by omega
    have hinside : ¬64 ≤ i - 32 := by omega
    have hhalf : i - 32 < 32 := by omega
    simp [BitVec.getLsbD_sshiftRight, hlow, hi, hback, hinside, hhalf]

/-- The halves determine the number. -/
theorem joinHalves_eq_iff {high low : UInt32} {lsn : Int64} :
    joinHalves high low = lsn ↔ high = highHalf lsn ∧ low = lowHalf lsn := by
  constructor
  · rintro rfl
    exact ⟨(highHalf_joinHalves high low).symm,
      (lowHalf_joinHalves high low).symm⟩
  · rintro ⟨rfl, rfl⟩
    exact joinHalves_halves lsn

/-! ## Reading back what is printed -/

theorem slash_not_mem_toDigits (n : ℕ) : '/' ∉ Nat.toDigits 10 n := by
  intro hmem
  obtain ⟨d, hd, hslash⟩ := exists_digit_of_mem_toDigits (by norm_num) hmem
  revert hslash
  interval_cases d <;> decide

theorem startLsn_toList (offset : ConnectorOffset) (lsn : Int64) :
    (startLsn (some { offset with lsn := some lsn })).toList =
      Nat.toDigits 10 (highHalf lsn).toNat ++
        '/' :: Nat.toDigits 10 (lowHalf lsn).toNat := by
  simp [startLsn, toString, Nat.toList_repr]

/-- A half that is printed in another base is read as its hexadecimal value, if
that fits. -/
theorem parseHalf_digits (which : String) {base : ℕ} {style : Char → Char}
    (hbase : 1 < base) (hradix : base ≤ 16)
    (hstyle : ∀ d < base, charDigit (style (Nat.digitChar d)) = some d)
    (half : ℕ) (n : UInt32) :
    parseHalf which ((Nat.toDigits base half).map style) = .ok n ↔
      reread base 16 half = n.toNat := by
  have hparse : fromStrRadix 16 0 (2 ^ 32 - 1)
        ((Nat.toDigits base half).map style) =
      if reread base 16 half ≤ 2 ^ 32 - 1 then
        .ok (reread base 16 half : ℤ)
      else .error .posOverflow :=
    fromStrRadix_toDigits hbase hradix hstyle half
  have hlt := n.toNat_lt
  simp only [parseHalf, parseU32, hparse]
  by_cases hfit : reread base 16 half ≤ 2 ^ 32 - 1
  · simp only [if_pos hfit, Int.toNat_natCast, Except.ok.injEq]
    rw [← UInt32.toNat_inj, UInt32.toNat_ofNat', Nat.mod_eq_of_lt (by omega)]
  · simp only [if_neg hfit]
    constructor
    · intro h
      cases h
    · intro h
      omega

/-- A decimal half is read back as its hexadecimal value, if that fits. -/
theorem parseHalf_toDigits (which : String) (half : UInt32) (n : UInt32) :
    parseHalf which (Nat.toDigits 10 half.toNat) = .ok n ↔
      reread 10 16 half.toNat = n.toNat := by
  have h : parseHalf which ((Nat.toDigits 10 half.toNat).map id) = .ok n ↔
      reread 10 16 half.toNat = n.toNat :=
    parseHalf_digits which (by norm_num) (by norm_num)
      (fun d hd => charDigit_digitChar d (by omega)) half.toNat n
  rwa [List.map_id] at h

/-- A text of two halves is read half by half. -/
theorem parseLsn_eq_ok_iff {text : String} {highPart lowPart : List Char}
    (htext : text.toList = highPart ++ '/' :: lowPart)
    (hhighPart : '/' ∉ highPart) (hlowPart : '/' ∉ lowPart) (lsn : Int64) :
    parseLsn text = .ok lsn ↔
      parseHalf "high" highPart = .ok (highHalf lsn) ∧
        parseHalf "low" lowPart = .ok (lowHalf lsn) := by
  have hsplit : text.toList.splitOn '/' = [highPart, lowPart] := by
    rw [htext, List.splitOn_append_cons_self,
      List.splitOn_eq_singleton hhighPart, List.splitOn_eq_singleton hlowPart]
    rfl
  rw [parseLsn, hsplit]
  cases hhigh : parseHalf "high" highPart with
  | error e => simp [bind, Except.bind, hhigh]
  | ok high =>
      cases hlow : parseHalf "low" lowPart with
      | error e => simp [bind, Except.bind, hhigh, hlow]
      | ok low =>
          simp [bind, Except.bind, hhigh, hlow, pure, Except.pure,
            joinHalves_eq_iff]

theorem parseLsn_startLsn_eq_ok_iff (offset : ConnectorOffset)
    (lsn lsn' : Int64) :
    parseLsn (startLsn (some { offset with lsn := some lsn })) = .ok lsn' ↔
      reread 10 16 (highHalf lsn).toNat = (highHalf lsn').toNat ∧
        reread 10 16 (lowHalf lsn).toNat = (lowHalf lsn').toNat := by
  rw [parseLsn_eq_ok_iff (startLsn_toList offset lsn)
    (slash_not_mem_toDigits _) (slash_not_mem_toDigits _),
    parseHalf_toDigits, parseHalf_toDigits]

theorem not_parseLsn_startLsn_sixteen :
    parseLsn (startLsn (some (ConnectorOffset.fromLsn 16))) ≠ .ok 16 := by
  intro h
  have hhalves := (parseLsn_startLsn_eq_ok_iff {} 16 16).mp h
  revert hhalves
  decide

/-- A half is read back as itself exactly when it has one digit. -/
theorem reread_ten_eq_self_iff (n : ℕ) : reread 10 16 n = n ↔ n < 10 := by
  constructor
  · intro h
    by_contra hlarge
    have hgrow : n < reread 10 16 n :=
      lt_reread (by norm_num) (by norm_num) (by omega)
    omega
  · exact reread_of_lt

/-- A start LSN denotes the position it was rendered from exactly when both of
its halves have one digit. -/
theorem parseLsn_startLsn_eq_iff (offset : ConnectorOffset) (lsn : Int64) :
    parseLsn (startLsn (some { offset with lsn := some lsn })) = .ok lsn ↔
      (highHalf lsn).toNat < 10 ∧ (lowHalf lsn).toNat < 10 := by
  rw [parseLsn_startLsn_eq_ok_iff, reread_ten_eq_self_iff,
    reread_ten_eq_self_iff]

/-! ## Positions of the server's log -/

def upperHex (n : ℕ) : List Char := (Nat.toDigits 16 n).map Char.toUpper

/-- A position as `pg_current_wal_lsn()::text` renders it. -/
def lsnText (position : ℕ) : String :=
  String.ofList
    (upperHex (position / 2 ^ 32) ++ '/' :: upperHex (position % 2 ^ 32))

/-- The position that an LSN stands for. -/
def positionOf (lsn : Int64) : ℕ := lsn.toUInt64.toNat

/-- The position at which the server starts the stream of `Streamer::run`, if
it reads the text of the start LSN as it renders its own. -/
def startPosition (offset : Option ConnectorOffset) : Option ℕ :=
  match parseLsn (startLsn offset) with
  | .ok lsn => some (positionOf lsn)
  | .error _ => none

theorem toNat_highHalf (lsn : Int64) :
    (highHalf lsn).toNat = positionOf lsn / 2 ^ 32 := by
  have hbits : (lsn.toBitVec.sshiftRight 32).setWidth 32 =
      (lsn.toBitVec >>> 32).setWidth 32 := by
    apply BitVec.eq_of_getLsbD_eq
    intro i hi
    have hinside : 32 + i < 64 := by omega
    have hlow : ¬64 ≤ i := by omega
    simp [BitVec.getLsbD_sshiftRight, hi, hinside, hlow]
  have hlt : positionOf lsn < 2 ^ 64 := lsn.toUInt64.toNat_lt
  calc
    (highHalf lsn).toNat = (highHalf lsn).toBitVec.toNat := rfl
    _ = (positionOf lsn >>> 32) % 2 ^ 32 := by
      rw [toBitVec_highHalf, hbits, BitVec.toNat_setWidth,
        BitVec.toNat_ushiftRight]
      rfl
    _ = positionOf lsn / 2 ^ 32 := by
      rw [Nat.shiftRight_eq_div_pow]
      exact Nat.mod_eq_of_lt (by omega)

theorem toNat_lowHalf (lsn : Int64) :
    (lowHalf lsn).toNat = positionOf lsn % 2 ^ 32 := by
  calc
    (lowHalf lsn).toNat = (lowHalf lsn).toBitVec.toNat := rfl
    _ = positionOf lsn % 2 ^ 32 := by
      rw [toBitVec_lowHalf, BitVec.toNat_setWidth]
      rfl

theorem slash_not_mem_upperHex (n : ℕ) : '/' ∉ upperHex n := by
  intro hmem
  obtain ⟨c, hc, hslash⟩ := List.mem_map.mp hmem
  obtain ⟨d, hd, heq⟩ := exists_digit_of_mem_toDigits (by norm_num) hc
  rw [heq] at hslash
  revert hslash
  interval_cases d <;> decide

/-- A snapshot reads the position that the server renders. -/
theorem parseLsn_lsnText_eq_ok_iff (position : ℕ) (lsn : Int64) :
    parseLsn (lsnText position) = .ok lsn ↔ positionOf lsn = position := by
  have htext : (lsnText position).toList =
      upperHex (position / 2 ^ 32) ++ '/' :: upperHex (position % 2 ^ 32) := by
    simp [lsnText]
  have hhalf : ∀ (which : String) (half : ℕ) (n : UInt32),
      parseHalf which (upperHex half) = .ok n ↔ half = n.toNat := by
    intro which half n
    have h : parseHalf which (upperHex half) = .ok n ↔
        reread 16 16 half = n.toNat :=
      parseHalf_digits which (by norm_num) (by norm_num)
        charDigit_toUpper_digitChar half n
    rwa [reread_self] at h
  rw [parseLsn_eq_ok_iff htext (slash_not_mem_upperHex _)
    (slash_not_mem_upperHex _), hhalf, hhalf, toNat_highHalf, toNat_lowHalf]
  omega

theorem positionOf_eq (lsn : Int64) :
    positionOf lsn = 2 ^ 32 * (highHalf lsn).toNat + (lowHalf lsn).toNat := by
  rw [toNat_highHalf, toNat_lowHalf]
  exact (Nat.div_add_mod _ _).symm

/-- The stream starts at the position whose halves are read from the decimal
halves of the recorded position, if these fit. -/
theorem startPosition_eq_some_iff {lsn : Int64} {q : ℕ} :
    startPosition (some (.fromLsn lsn)) = some q ↔
      reread 10 16 (positionOf lsn / 2 ^ 32) < 2 ^ 32 ∧
        reread 10 16 (positionOf lsn % 2 ^ 32) < 2 ^ 32 ∧
        2 ^ 32 * reread 10 16 (positionOf lsn / 2 ^ 32) +
          reread 10 16 (positionOf lsn % 2 ^ 32) = q := by
  have hread := parseLsn_startLsn_eq_ok_iff {} lsn
  have hstart : startPosition (some (.fromLsn lsn)) = some q ↔
      ∃ lsn', parseLsn (startLsn (some (.fromLsn lsn))) = .ok lsn' ∧
        positionOf lsn' = q := by
    unfold startPosition
    rcases parseLsn (startLsn (some (.fromLsn lsn))) with e | lsn' <;> simp
  rw [hstart, ← toNat_highHalf, ← toNat_lowHalf]
  constructor
  · intro h
    obtain ⟨lsn', hparse, hposition⟩ := h
    obtain ⟨hhigh, hlow⟩ := (hread lsn').mp hparse
    rw [hhigh, hlow, ← positionOf_eq]
    exact ⟨(highHalf lsn').toNat_lt, (lowHalf lsn').toNat_lt, hposition⟩
  · intro h
    obtain ⟨hhigh, hlow, hposition⟩ := h
    let lsn' := joinHalves
      (UInt32.ofNat (reread 10 16 (highHalf lsn).toNat))
      (UInt32.ofNat (reread 10 16 (lowHalf lsn).toNat))
    have hhigh' : (highHalf lsn').toNat =
        reread 10 16 (highHalf lsn).toNat := by
      rw [highHalf_joinHalves, UInt32.toNat_ofNat', Nat.mod_eq_of_lt hhigh]
    have hlow' : (lowHalf lsn').toNat =
        reread 10 16 (lowHalf lsn).toNat := by
      rw [lowHalf_joinHalves, UInt32.toNat_ofNat', Nat.mod_eq_of_lt hlow]
    refine ⟨lsn', (hread lsn').mpr ⟨hhigh'.symm, hlow'.symm⟩, ?_⟩
    rw [positionOf_eq, hhigh', hlow', hposition]

end OpenCdc.Postgres
