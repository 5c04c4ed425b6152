import Mathlib.Data.Nat.Digits.Defs
import OpenCdc.Foundation.Outcome

/-!
# Byte strings, bounds-checked access and fixed-width integers

An index or a slice outside the data is a panic, as for a slice of a systems
language.  Fixed-width integers are read through the digits of a number in
base 256, in either byte order.
-/

namespace Foundation

abbrev Bytes := List UInt8

namespace Bytes

universe v

variable {ε : Type v}

/-! ## Bounds-checked access -/

/-- `data[i]` -/
def byteAt (data : Bytes) (i : ℕ) : Outcome ε UInt8 :=
  match data[i]? with
  | some b => .ok b
  | none => .panicked

/-- `[data[i], data[i + 1], ..]`, `width` bytes from index `i` on. -/
def bytesAt (data : Bytes) (i : ℕ) : ℕ → Outcome ε Bytes
  | 0 => .ok []
  | width + 1 => do
      let b ← byteAt data i
      let bs ← bytesAt data (i + 1) width
      return b :: bs

/-- `&data[start..stop]` -/
def slice (data : Bytes) (start stop : ℕ) : Outcome ε Bytes :=
  if start ≤ stop ∧ stop ≤ data.length then
    .ok ((data.drop start).take (stop - start))
  else .panicked

/-- `&data[start..]` -/
def sliceFrom (data : Bytes) (start : ℕ) : Outcome ε Bytes :=
  if start ≤ data.length then .ok (data.drop start) else .panicked

theorem le_of_slice_eq_ok {data bs : Bytes} {start stop : ℕ}
    (h : slice (ε := ε) data start stop = .ok bs) : start ≤ stop := by
  unfold slice at h
  split_ifs at h with hbounds
  exact hbounds.1

/-- A slice is what stands at its start. -/
theorem slice_eq_ok {data bs : Bytes} {start : ℕ} (hstart : start ≤ data.length)
    (h : bs <+: data.drop start) :
    slice (ε := ε) data start (start + bs.length) = .ok bs := by
  have hlength := h.length_le
  rw [List.length_drop] at hlength
  have htake : (data.drop start).take bs.length = bs :=
    (List.prefix_iff_eq_take.mp h).symm
  unfold slice
  rw [if_pos ⟨Nat.le_add_right _ _, by omega⟩, Nat.add_sub_cancel_left, htake]

theorem byteAt_eq_ok_iff {data : Bytes} {i : ℕ} {b : UInt8} :
    byteAt (ε := ε) data i = .ok b ↔ [b] <+: data.drop i := by
  unfold byteAt
  cases h : data[i]? with
  | none =>
      have hdrop : data.drop i = [] :=
        List.drop_eq_nil_of_le (List.getElem?_eq_none_iff.mp h)
      simp [hdrop]
  | some c =>
      obtain ⟨hi, rfl⟩ := List.getElem?_eq_some_iff.mp h
      rw [List.drop_eq_getElem_cons hi]
      simp only [Outcome.ok.injEq, List.cons_prefix_cons, List.nil_prefix,
        and_true]
      exact eq_comm

/-- Two consecutive pieces stand at `i` exactly when the first stands there
and the second right behind it. -/
theorem append_isPrefix_drop_iff {α : Type*} {xs ys data : List α} {i : ℕ} :
    xs ++ ys <+: data.drop i ↔
      xs <+: data.drop i ∧ ys <+: data.drop (i + xs.length) := by
  constructor
  · rintro ⟨rest, h⟩
    rw [List.append_assoc] at h
    refine ⟨⟨ys ++ rest, h⟩, ⟨rest, ?_⟩⟩
    rw [← List.drop_drop, ← h, List.drop_left]
  · rintro ⟨⟨rest, h⟩, hys⟩
    rw [← List.drop_drop, ← h, List.drop_left] at hys
    rw [← h]
    exact (List.prefix_append_right_inj xs).mpr hys

theorem bytesAt_eq_ok_iff {data : Bytes} {i width : ℕ} {bs : Bytes} :
    bytesAt (ε := ε) data i width = .ok bs ↔
      bs.length = width ∧ bs <+: data.drop i := by
  induction width generalizing i bs with
  | zero =>
      simp only [bytesAt, Outcome.ok.injEq, List.length_eq_zero_iff]
      constructor
      · rintro rfl
        exact ⟨rfl, List.nil_prefix⟩
      · rintro ⟨rfl, -⟩
        rfl
  | succ width ih =>
      simp only [bytesAt, Outcome.bind_eq_ok, Outcome.pure_eq,
        Outcome.ok.injEq, byteAt_eq_ok_iff, ih]
      constructor
      · rintro ⟨b, hb, tail, ⟨hlen, htail⟩, rfl⟩
        refine ⟨by simp [hlen], ?_⟩
        exact append_isPrefix_drop_iff.mpr ⟨hb, htail⟩
      · rintro ⟨hlen, hbs⟩
        obtain ⟨b, tail, rfl⟩ :=
          List.exists_cons_of_length_eq_add_one hlen
        have hsplit : [b] <+: data.drop i ∧ tail <+: data.drop (i + 1) :=
          append_isPrefix_drop_iff.mp hbs
        exact ⟨b, hsplit.1, tail, ⟨by simpa using hlen, hsplit.2⟩, rfl⟩

theorem bytesAt_of_le {data : Bytes} {start width : ℕ}
    (h : start + width ≤ data.length) :
    bytesAt (ε := ε) data start width =
      .ok ((data.drop start).take width) := by
  rw [bytesAt_eq_ok_iff]
  refine ⟨?_, List.take_prefix _ _⟩
  rw [List.length_take, List.length_drop]
  omega

/-! ## Fixed-width integers -/

/-- The number a little-endian byte string denotes. -/
def ofLe (bs : Bytes) : ℕ := Nat.ofDigits 256 (bs.map UInt8.toNat)

/-- The number a big-endian byte string denotes. -/
def ofBe (bs : Bytes) : ℕ := ofLe bs.reverse

/-- The `width` low bytes of `n`, least significant first. -/
def toLe : ℕ → ℕ → Bytes
  | 0, _ => []
  | width + 1, n => UInt8.ofNat n :: toLe width (n / 256)

/-- The `width` low bytes of `n`, most significant first. -/
def toBe (width n : ℕ) : Bytes := (toLe width n).reverse

@[simp] theorem ofLe_nil : ofLe [] = 0 := rfl

@[simp] theorem ofLe_cons (b : UInt8) (bs : Bytes) :
    ofLe (b :: bs) = b.toNat + 256 * ofLe bs := by
  simp [ofLe, Nat.ofDigits_cons]

theorem ofLe_append (xs ys : Bytes) :
    ofLe (xs ++ ys) = ofLe xs + 256 ^ xs.length * ofLe ys := by
  simp [ofLe, Nat.ofDigits_append]

theorem ofLe_lt (bs : Bytes) : ofLe bs < 256 ^ bs.length := by
  have h := Nat.ofDigits_lt_base_pow_length (b := 256)
    (l := bs.map UInt8.toNat) (by norm_num) (by
      intro x hx
      obtain ⟨b, -, rfl⟩ := List.mem_map.mp hx
      exact b.toNat_lt)
  simpa [ofLe] using h

@[simp] theorem length_toLe (width n : ℕ) : (toLe width n).length = width := by
  induction width generalizing n with
  | zero => rfl
  | succ width ih => simp [toLe, ih]

theorem ofLe_toLe (width n : ℕ) : ofLe (toLe width n) = n % 256 ^ width := by
  induction width generalizing n with
  | zero => simp [toLe, Nat.mod_one]
  | succ width ih =>
      have hbyte : (UInt8.ofNat n).toNat = n % 256 := UInt8.toNat_ofNat'
      rw [toLe, ofLe_cons, ih, hbyte, pow_succ', Nat.mod_mul]

theorem toLe_ofLe (bs : Bytes) : toLe bs.length (ofLe bs) = bs := by
  induction bs with
  | nil => rfl
  | cons b bs ih =>
      have hb : b.toNat < 256 := b.toNat_lt
      rw [List.length_cons, toLe, ofLe_cons]
      congr 1
      · apply UInt8.toNat_inj.mp
        rw [UInt8.toNat_ofNat']
        omega
      · rw [Nat.add_mul_div_left _ _ (by norm_num), Nat.div_eq_of_lt hb,
          Nat.zero_add, ih]

theorem ofBe_lt (bs : Bytes) : ofBe bs < 256 ^ bs.length := by
  simpa [ofBe] using ofLe_lt bs.reverse

@[simp] theorem length_toBe (width n : ℕ) : (toBe width n).length = width := by
  simp [toBe]

theorem ofBe_toBe (width n : ℕ) : ofBe (toBe width n) = n % 256 ^ width := by
  simp [ofBe, toBe, ofLe_toLe]

theorem toBe_ofBe (bs : Bytes) : toBe bs.length (ofBe bs) = bs := by
  have h := toLe_ofLe bs.reverse
  rw [List.length_reverse] at h
  rw [toBe, ofBe, h, List.reverse_reverse]

/-- A fixed-width field keeps the number that its bytes denote. -/
theorem toBe_ofBe_mod {width : ℕ} {bs : Bytes} (hlen : bs.length = width) :
    toBe width (ofBe bs % 256 ^ width) = bs := by
  have hlt := ofBe_lt bs
  have hbytes := toBe_ofBe bs
  rw [hlen] at hlt hbytes
  rw [Nat.mod_eq_of_lt hlt, hbytes]

end Bytes
end Foundation
