import OpenCdc.Mysql.RowSpan
import OpenCdc.Mysql.Stream

/-!
# What the loops over rows rely on

The loops slice the data behind a row at the position that `read_row` returns,
without looking at the end of the data again.  That position lies within the
data unless these end inside the length of a BLOB.
-/

namespace OpenCdc.Mysql

open Foundation Json

variable {ε : Type}

/-- There is no row, or there is one value for each column and the row takes
some of the bytes of the data and no others. -/
def ReadsWithin (columns : ℕ) (data : Bytes) (row : List Value × ℕ) : Prop :=
  row = ([], 0) ∨ row.1.length = columns ∧ 1 ≤ row.2 ∧ row.2 ≤ data.length

/-- Only where there is no row, no bytes are taken. -/
theorem readRow_eq_of_imageSpan_eq_zero (json : JsonParser) {data : Bytes}
    {columnTypes : List UInt8} {columnMetas : List UInt16}
    (h : imageSpan columnTypes columnMetas data = 0) :
    readRow (ε := ε) json data columnTypes columnMetas = .ok ([], 0) := by
  unfold imageSpan at h
  unfold readRow
  dsimp only at h ⊢
  split_ifs at h ⊢ with hnone hshort
  · rfl
  · rfl
  · have hcolumns : columnTypes.length ≠ 0 := fun hlength =>
      hnone (.inr (List.eq_nil_of_length_eq_zero hlength))
    omega

/-- Whatever the types and the metadata are, a row is read within the data
exactly if these do not end inside the length of one of its BLOBs. -/
theorem readsWithin_readRow_iff (json : JsonParser) (data : Bytes)
    (columnTypes : List UInt8) (columnMetas : List UInt16) :
    (∃ row, readRow (ε := ε) json data columnTypes columnMetas = .ok row ∧
        ReadsWithin columnTypes.length data row) ↔
      ¬CutImage columnTypes columnMetas data := by
  obtain ⟨values, hread⟩ :=
    exists_readRow (ε := ε) json data columnTypes columnMetas
  rw [← length_lt_imageSpan_iff, Nat.not_lt]
  constructor
  · rintro ⟨row, hrow, hwithin⟩
    rw [hread] at hrow
    rw [← Outcome.ok.inj hrow] at hwithin
    rcases hwithin with hnone | ⟨-, -, hend⟩
    · rw [(Prod.mk.inj hnone).2]
      exact Nat.zero_le _
    · exact hend
  · intro hend
    refine ⟨_, hread, ?_⟩
    by_cases hzero : imageSpan columnTypes columnMetas data = 0
    · rw [readRow_eq_of_imageSpan_eq_zero json hzero] at hread
      exact .inl (Outcome.ok.inj hread).symm
    · exact .inr ⟨length_of_readRow hzero hread, Nat.pos_of_ne_zero hzero, hend⟩

/-- The data end behind the first of the two bytes of a BLOB's length. -/
theorem not_readsWithin_shortBlob :
    ¬∃ row, readRow (ε := String) ⟨fun _ => none, fun _ => none⟩ [0, 5]
        [mysqlTypeBlob] [] = .ok row ∧
      ReadsWithin 1 [0, 5] row := by
  have hread : readRow (ε := String) ⟨fun _ => none, fun _ => none⟩ [0, 5]
      [mysqlTypeBlob] [] = .ok ([.null], 3) := rfl
  rintro ⟨row, hrow, hwithin⟩
  rw [hread] at hrow
  rw [← Outcome.ok.inj hrow] at hwithin
  rcases hwithin with hnone | ⟨-, -, hend⟩
  · cases hnone
  · exact absurd hend (by decide)

end OpenCdc.Mysql
