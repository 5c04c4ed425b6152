import OpenCdc.Foundation.Overrun
import OpenCdc.Mysql.RowImage

/-!
# Length-encoded numbers

What `read_packed_int` and `read_bitset` make of any data: they panic on just
the data that end inside a number, and otherwise pass over its bytes.
-/

namespace OpenCdc.Mysql

open Foundation

variable {ε : Type}

/-- The bytes of a length-encoded number behind its first byte. -/
def packedWidth (first : UInt8) : ℕ :=
  if first = 252 then 2
  else if first = 253 then 3
  else if first = 254 then 8
  else 0

/-- The shortest form of a number. -/
def encodeLength (n : ℕ) : Bytes :=
  if n < 251 then [UInt8.ofNat n]
  else if n < 256 ^ 2 then 252 :: Bytes.toLe 2 n
  else if n < 256 ^ 3 then 253 :: Bytes.toLe 3 n
  else 254 :: Bytes.toLe 8 n

theorem lengthEncoded_encodeLength {n : ℕ} (h : n < 256 ^ 8) :
    LengthEncoded n (encodeLength n) := by
  unfold encodeLength
  split_ifs with hone htwo hthree
  · exact .one n hone
  · exact .two n htwo
  · exact .three n hthree
  · exact .eight n h

/-- The data end inside a length-encoded number. -/
def CutPacked (data : Bytes) : Prop :=
  ∃ first rest, data = first :: rest ∧ rest.length < packedWidth first

/-- The number at the start of the data, and what stands behind it.  Nothing is
a number too, and so is the byte that starts none. -/
inductive PackedInt : Bytes → ℕ → Bytes → Prop
  | nothing : PackedInt [] 0 []
  | encoded {n : ℕ} {count : Bytes} (h : LengthEncoded n count)
      (rest : Bytes) : PackedInt (count ++ rest) n rest
  | null (rest : Bytes) : PackedInt (251 :: rest) 0 rest
  | invalid (rest : Bytes) : PackedInt (255 :: rest) 0 (255 :: rest)

theorem packedAfterFirst_eq_panicked_iff {width : ℕ} {first : UInt8}
    {rest : Bytes} :
    packedAfterFirst (ε := ε) width (first :: rest) = .panicked ↔
      rest.length < width := by
  have hbytes : Bytes.bytesAt (ε := ε) (first :: rest) 1 width = .panicked ↔
      ((first :: rest).drop 1).length < width :=
    Bytes.bytesAt_eq_panicked_iff (by simp)
  rw [List.drop_succ_cons, List.drop_zero] at hbytes
  rw [packedAfterFirst, Outcome.bind_eq_panicked, hbytes]
  simp

theorem readPackedInt_eq_panicked_iff {data : Bytes} :
    readPackedInt (ε := ε) data = .panicked ↔ CutPacked data := by
  cases data with
  | nil => simp [readPackedInt, CutPacked]
  | cons first rest =>
      have hcut : CutPacked (first :: rest) ↔
          rest.length < packedWidth first := by
        simp [CutPacked]
      rw [hcut]
      by_cases htwo : first = 252
      · subst htwo
        exact packedAfterFirst_eq_panicked_iff
      by_cases hthree : first = 253
      · subst hthree
        exact packedAfterFirst_eq_panicked_iff
      by_cases height : first = 254
      · subst height
        exact packedAfterFirst_eq_panicked_iff
      rw [packedWidth, if_neg htwo, if_neg hthree, if_neg height]
      refine iff_of_false ?_ (Nat.not_lt_zero _)
      simp only [readPackedInt, htwo, hthree, height, if_false]
      split_ifs <;> simp

/-- Nine bytes are enough for any number. -/
theorem not_cutPacked_of_le {data : Bytes} (h : 9 ≤ data.length) :
    ¬ CutPacked data := by
  rintro ⟨first, rest, rfl, hcut⟩
  have hwidth : packedWidth first ≤ 8 := by
    unfold packedWidth
    split_ifs <;> decide
  rw [List.length_cons] at h
  omega

/-- A number is read, and its bytes are passed over. -/
theorem exists_readPackedInt {data rest : Bytes} {count : ℕ}
    (h : PackedInt data count rest) :
    ∃ n, readPackedInt (ε := ε) data = .ok (count, n) ∧ n ≤ data.length ∧
      data.drop n = rest ∧ (n = 0 → count = 0) := by
  cases h with
  | nothing => exact ⟨0, rfl, Nat.le_refl _, rfl, fun _ => rfl⟩
  | @encoded _ bytes hcount =>
      have hpositive := (lengthEncoded_length hcount).1
      refine ⟨bytes.length, readPackedInt_eq hcount rest, ?_, List.drop_left,
        fun h => ?_⟩
      · rw [List.length_append]
        omega
      · omega
  | null => exact ⟨1, rfl, by simp, rfl, fun _ => rfl⟩
  | invalid => exact ⟨0, rfl, Nat.zero_le _, rfl, fun _ => rfl⟩

theorem exists_lengthEncoded_append {first : UInt8} {rest : Bytes} {width : ℕ}
    (hform : ∀ n < 256 ^ width,
      LengthEncoded n (first :: Bytes.toLe width n))
    (hlength : width ≤ rest.length) :
    ∃ count rest', PackedInt (first :: rest) count rest' := by
  have htake : (rest.take width).length = width :=
    List.length_take_of_le hlength
  have hlt := Bytes.ofLe_lt (rest.take width)
  have hbytes := Bytes.toLe_ofLe (rest.take width)
  rw [htake] at hlt hbytes
  have hencoded := PackedInt.encoded (hform _ hlt) (rest.drop width)
  rw [hbytes, List.cons_append, List.take_append_drop] at hencoded
  exact ⟨_, _, hencoded⟩

theorem exists_packedInt {data : Bytes} (h : ¬ CutPacked data) :
    ∃ count rest, PackedInt data count rest := by
  cases data with
  | nil => exact ⟨0, [], .nothing⟩
  | cons first rest =>
      have hwidth : packedWidth first ≤ rest.length :=
        Nat.not_lt.mp fun hlt => h ⟨first, rest, rfl, hlt⟩
      by_cases hone : first < 251
      · have hlt : first.toNat < 251 := UInt8.lt_iff_toNat_lt.mp hone
        have hencoded := PackedInt.encoded (.one first.toNat hlt) rest
        rw [UInt8.ofNat_toNat] at hencoded
        exact ⟨_, _, hencoded⟩
      by_cases hnull : first = 251
      · subst hnull
        exact ⟨0, rest, .null rest⟩
      by_cases htwo : first = 252
      · subst htwo
        exact exists_lengthEncoded_append .two hwidth
      by_cases hthree : first = 253
      · subst hthree
        exact exists_lengthEncoded_append .three hwidth
      by_cases height : first = 254
      · subst height
        exact exists_lengthEncoded_append .eight hwidth
      obtain rfl : first = 255 := by
        rw [UInt8.lt_iff_toNat_lt] at hone
        have hmax := first.toNat_lt
        apply UInt8.toNat_inj.mp
        have hne : ∀ {k : UInt8}, first ≠ k → first.toNat ≠ k.toNat :=
          fun hk heq => hk (UInt8.toNat_inj.mp heq)
        have h251 := hne hnull
        have h252 := hne htwo
        have h253 := hne hthree
        have h254 := hne height
        simp only [UInt8.reduceToNat] at hone h251 h252 h253 h254 ⊢
        omega
      exact ⟨0, _, .invalid rest⟩

/-! ## Bit sets -/

/-- The bit set is passed over with its count; an empty one takes nothing. -/
theorem exists_readBitset {data rest : Bytes} {count : ℕ}
    (h : PackedInt data count rest) :
    ∃ bits m k, readBitset (ε := ε) data = .ok (bits, m, k) ∧
      data.drop k =
        if count = 0 then data else rest.drop ((count + 7) / 8) := by
  obtain ⟨n, hread, hn, rfl, hzero⟩ := exists_readPackedInt (ε := ε) h
  unfold readBitset
  rw [hread, Outcome.ok_bind]
  dsimp only
  by_cases hcount : count = 0
  · rw [if_pos (.inl hcount), if_pos hcount]
    exact ⟨[], 0, 0, rfl, rfl⟩
  · rw [if_neg (by omega), if_neg hcount, List.drop_drop]
    by_cases hshort : data.length < n + (count + 7) / 8
    · rw [if_pos hshort]
      exact ⟨[], count, _, rfl, rfl⟩
    · rw [if_neg hshort, Bytes.slice,
        if_pos ⟨Nat.le_add_right _ _, Nat.not_lt.mp hshort⟩]
      exact ⟨_, count, _, rfl, rfl⟩

theorem readBitset_eq_panicked_iff {data : Bytes} :
    readBitset (ε := ε) data = .panicked ↔ CutPacked data := by
  constructor
  · intro h
    by_contra hcut
    obtain ⟨count, rest, hcount⟩ := exists_packedInt hcut
    obtain ⟨bits, m, k, hread, -⟩ := exists_readBitset (ε := ε) hcount
    rw [hread] at h
    cases h
  · intro h
    rw [readBitset, readPackedInt_eq_panicked_iff.mpr h]
    rfl

/-! ## Round trips -/

/-- What is written in front of any bytes is read back, and its bytes are
counted: a number in its shortest form, and bits behind their number. -/
structure ReadsPacked (ε : Type) : Prop where
  packedInt : ∀ n < 2 ^ 64, ∀ rest : Bytes,
    readPackedInt (ε := ε) (encodeLength n ++ rest) =
      .ok (n, (encodeLength n).length)
  bitset : ∀ bits : List Bool, bits ≠ [] → bits.length < 2 ^ 32 →
    ∀ rest : Bytes, readBitset (ε := ε)
      (encodeLength bits.length ++ bitmapOf bits ++ rest) =
        .ok (bits, bits.length,
          (encodeLength bits.length ++ bitmapOf bits).length)

theorem readsPacked : ReadsPacked ε where
  packedInt n h rest := readPackedInt_eq (lengthEncoded_encodeLength h) rest
  bitset bits hne h rest := by
    have hlt : bits.length < 256 ^ 8 := Nat.lt_trans h (by norm_num)
    rw [List.append_assoc, List.length_append]
    exact readBitset_of_isBitmap (lengthEncoded_encodeLength hlt) hne
      (isBitmap_bitmapOf bits) rest

end OpenCdc.Mysql
