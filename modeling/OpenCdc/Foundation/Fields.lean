import OpenCdc.Foundation.Bytes

/-!
# The fields of a message

Readers for the fields of a binary message: a word of fixed width, bytes behind
their length, bytes in front of a zero byte.  Each returns what it read and the
bytes behind it.
-/

namespace Foundation

abbrev Reading (α : Type) := Bytes → Option (α × Bytes)

/-- A number of a fixed width, the lowest byte first. -/
def readWord (width : ℕ) : Reading ℕ := fun bytes =>
  if width ≤ bytes.length then
    some (Bytes.ofLe (bytes.take width), bytes.drop width)
  else none

/-- A number of bytes. -/
def readChunk (length : ℕ) : Reading Bytes := fun bytes =>
  if length ≤ bytes.length then some (bytes.take length, bytes.drop length)
  else none

/-- Bytes behind their length, which has one byte. -/
def readCounted : Reading Bytes
  | [] => none
  | length :: bytes => readChunk length.toNat bytes

/-- The bytes in front of the first zero byte; it is read over. -/
def untilZero : Reading Bytes := fun bytes =>
  if 0 ∈ bytes then
    some (bytes.takeWhile (· != 0), (bytes.dropWhile (· != 0)).drop 1)
  else none

theorem readWord_append (width n : ℕ) (rest : Bytes) :
    readWord width (Bytes.toLe width n ++ rest) =
      some (n % 256 ^ width, rest) := by
  have hlength := Bytes.length_toLe width n
  rw [readWord, if_pos (by rw [List.length_append, hlength]; omega),
    List.take_left' hlength, List.drop_left' hlength, Bytes.ofLe_toLe]

theorem readChunk_append {chunk : Bytes} {length : ℕ}
    (h : chunk.length = length) (rest : Bytes) :
    readChunk length (chunk ++ rest) = some (chunk, rest) := by
  rw [readChunk, if_pos (by rw [List.length_append]; omega),
    List.take_left' h, List.drop_left' h]

theorem length_of_readWord {bytes rest : Bytes} {width n : ℕ}
    (h : readWord width bytes = some (n, rest)) :
    bytes.length = width + rest.length := by
  unfold readWord at h
  split_ifs at h with hle
  rw [← (Prod.mk.inj (Option.some.inj h)).2, List.length_drop]
  omega

theorem length_of_readChunk {bytes chunk rest : Bytes} {length : ℕ}
    (h : readChunk length bytes = some (chunk, rest)) :
    chunk.length = length ∧ bytes.length = length + rest.length := by
  unfold readChunk at h
  split_ifs at h with hle
  obtain ⟨hchunk, hrest⟩ := Prod.mk.inj (Option.some.inj h)
  rw [← hchunk, ← hrest, List.length_take, List.length_drop]
  omega

theorem readCounted_append {text : Bytes} (h : text.length < 256)
    (rest : Bytes) :
    readCounted (UInt8.ofNat text.length :: (text ++ rest)) =
      some (text, rest) := by
  apply readChunk_append
  rw [UInt8.toNat_ofNat', Nat.mod_eq_of_lt h]

/-- What is read has at most 255 bytes. -/
theorem length_lt_of_readCounted {bytes text rest : Bytes}
    (h : readCounted bytes = some (text, rest)) : text.length < 256 := by
  cases bytes with
  | nil => cases h
  | cons length bytes =>
      rw [(length_of_readChunk h).1]
      exact length.toNat_lt

theorem untilZero_append {text : Bytes} (h : 0 ∉ text) (rest : Bytes) :
    untilZero (text ++ 0 :: rest) = some (text, rest) := by
  have hall : ∀ b ∈ text, (b != 0) = true := fun b hb =>
    bne_iff_ne.mpr fun heq => h (heq ▸ hb)
  rw [untilZero, if_pos (by simp), List.takeWhile_append_of_pos hall,
    List.dropWhile_append_of_pos hall]
  simp

/-- What is read has no zero byte. -/
theorem zero_notMem_of_untilZero {bytes text rest : Bytes}
    (h : untilZero bytes = some (text, rest)) : 0 ∉ text := by
  unfold untilZero at h
  split_ifs at h
  rw [← (Prod.mk.inj (Option.some.inj h)).1]
  intro hmem
  have hall := List.all_eq_true.mp List.all_takeWhile 0 hmem
  exact absurd hall (by decide)

end Foundation
