import OpenCdc.Core.Record
import OpenCdc.Mysql.Emission
import OpenCdc.Mysql.PackedInt
import OpenCdc.Mysql.Snapshot

/-!
# Rows of the text protocol

A server writes a text behind its length, in the shortest length-encoded form.
The snapshotter takes the first byte for the length, so that it reads a row
whose texts are shorter than 251 bytes.  A longer text it cuts off, and the
bytes in front of the cut are not those of the text.
-/

namespace OpenCdc.Mysql

open Foundation Json

/-! ## Rows -/

/-- The number of bytes of a text. -/
def byteLength (s : String) : ℕ := (encodeUtf8 s.toList).length

/-- A column of a row: the mark of a null, or a text behind its length. -/
def encodeCell : Option String → Bytes
  | none => [0xfb]
  | some s => encodeLength (byteLength s) ++ encodeUtf8 s.toList

def encodeCells (cells : List (Option String)) : Bytes :=
  cells.flatMap encodeCell

def cellValue : Option String → Value
  | none => .null
  | some s => .string s

/-- The columns under their numbers, from a number on. -/
def cellEntries (i : ℕ) (cells : List (Option String)) : Map :=
  (cells.zipIdx i).map fun entry => (columnKey entry.2, cellValue entry.1)

/-- A row that fits in one packet; the longest packet is continued in the next
one. -/
structure TextRow where
  cells : List (Option String)
  hcolumns : 1 ≤ cells.length ∧ cells.length ≤ 250
  hfits : (encodeCells cells).length < 2 ^ 24 - 1

def LongText (s : String) : Prop := 251 ≤ byteLength s

instance (s : String) : Decidable (LongText s) :=
  inferInstanceAs (Decidable (_ ≤ _))

namespace TextRow

def encode (row : TextRow) : Bytes := encodeCells row.cells

def object (row : TextRow) : Map := cellEntries 0 row.cells

/-- Wherever the row stands in a result, the loop puts its object in front of
what it makes of the packets behind it. -/
def IsReadBack (row : TextRow) : Prop :=
  ∀ (seq : UInt8) (rest : Bytes),
    readResultRows row.cells.length (frame seq row.encode ++ rest) = (do
      let (rows, last) ← readResultRows row.cells.length rest
      return (row.object :: rows, last))

/-- No text needs more than one byte for its length. -/
def IsShort (row : TextRow) : Prop :=
  ∀ s, some s ∈ row.cells → ¬LongText s

/-- Which columns are null, and how long the texts of the others are. -/
def shape (row : TextRow) : List (Option ℕ) :=
  row.cells.map (Option.map byteLength)

end TextRow

/-- The first long text among the columns. -/
def firstLong (cells : List (Option String)) : Option String :=
  cells.findSome? fun cell => cell.filter fun s => LongText s

/-! ## The end of a result -/

theorem encodeLength_ne_nil (n : ℕ) : encodeLength n ≠ [] := by
  unfold encodeLength
  split_ifs <;> simp

theorem head?_encodeLength_ne {n : ℕ} (h : n < 2 ^ 24) :
    (encodeLength n).head? ≠ some 0xfe := by
  unfold encodeLength
  split_ifs with hone htwo hthree
  · intro hhead
    have hnat := congrArg UInt8.toNat (Option.some.inj hhead)
    rw [UInt8.toNat_ofNat', Nat.mod_eq_of_lt (by omega)] at hnat
    simp only [UInt8.reduceToNat] at hnat
    omega
  · simp
  · simp
  · omega

/-- No row is taken for the end of the result. -/
theorem TextRow.not_endsRows (row : TextRow) : ¬EndsRows row.encode := by
  obtain ⟨cells, ⟨hpos, -⟩, hfits⟩ := row
  unfold TextRow.encode
  dsimp only at hpos hfits ⊢
  cases cells with
  | nil => exact absurd hpos (by decide)
  | cons cell cells =>
      cases cell with
      | none => simp [encodeCells, encodeCell, EndsRows]
      | some s =>
          simp only [encodeCells, encodeCell, List.flatMap_cons,
            List.append_assoc, List.length_append] at hfits ⊢
          have hne := encodeLength_ne_nil (byteLength s)
          rintro (hnil | hhead)
          · exact hne (List.append_eq_nil_iff.mp hnil).1
          · rw [List.head?_append_of_ne_nil _ hne] at hhead
            apply head?_encodeLength_ne _ hhead
            have hlength : byteLength s = (encodeUtf8 s.toList).length := rfl
            omega

theorem TextRow.readResultRows_frame (row : TextRow) (seq : UInt8)
    (rest : Bytes) :
    readResultRows row.cells.length (frame seq row.encode ++ rest) = (do
      let (rows, last) ← readResultRows row.cells.length rest
      return (decodeColumns row.encode row.cells.length 0 0 [] :: rows,
        last)) := by
  have hfits : row.encode.length < 2 ^ 24 :=
    Nat.lt_of_lt_of_le row.hfits (Nat.sub_le _ _)
  rw [readResultRows_eq, readMysqlPacket_frame hfits, Outcome.ok_bind]
  dsimp only
  rw [if_neg row.not_endsRows]

theorem TextRow.isReadBack_iff_decodeColumns (row : TextRow) :
    row.IsReadBack ↔
      decodeColumns row.encode row.cells.length 0 0 [] = row.object := by
  constructor
  · intro h
    have hends : EndsRows [0xfe] := .inr rfl
    have hlast : readResultRows row.cells.length (frame 0 [0xfe]) =
        .ok ([], []) :=
      readResultRows_eq_ok_iff.mpr ⟨[0xfe], [], rfl, .inl ⟨hends, rfl, rfl⟩⟩
    have heq := (row.readResultRows_frame 0 (frame 0 [0xfe])).symm.trans
      (h 0 (frame 0 [0xfe]))
    rw [hlast, Outcome.ok_bind, Outcome.ok_bind] at heq
    exact (List.cons.inj (Prod.mk.inj (Outcome.ok.inj heq)).1).1
  · intro h seq rest
    rw [row.readResultRows_frame, h]

/-! ## Short texts -/

theorem encodeCell_of_not_longText {s : String} (h : ¬LongText s) :
    encodeCell (some s) = encodeText s := by
  rw [encodeCell, encodeLength, if_pos (Nat.not_le.mp h)]
  rfl

/-- One column that is null or has a short text. -/
theorem decodeColumns_cell {rowPacket rest : Bytes} {pos : ℕ}
    {cell : Option String} (hshort : ∀ s, cell = some s → ¬LongText s)
    (h : rowPacket.drop pos = encodeCell cell ++ rest) (count i : ℕ)
    (row : Map) :
    decodeColumns rowPacket (count + 1) i pos row =
      decodeColumns rowPacket count (i + 1) (pos + (encodeCell cell).length)
        (Map.insert row (columnKey i) (cellValue cell)) := by
  cases cell with
  | none =>
      have hcons : rowPacket.drop pos = 0xfb :: rest := h
      rw [decodeColumns, hcons]
      dsimp only
      rw [if_pos rfl]
      rfl
  | some s =>
      have hs := hshort s rfl
      rw [encodeCell_of_not_longText hs] at h ⊢
      exact @decodeColumns_text _ _ _ ⟨s, Nat.not_le.mp hs⟩ h count i row

/-- Columns without a long text are read one after the other. -/
theorem decodeColumns_cells {rowPacket rest : Bytes} {pos : ℕ}
    {cells : List (Option String)}
    (hshort : ∀ s, some s ∈ cells → ¬LongText s)
    (h : rowPacket.drop pos = encodeCells cells ++ rest) (count i : ℕ)
    (row : Map) :
    decodeColumns rowPacket (cells.length + count) i pos row =
      decodeColumns rowPacket count (i + cells.length)
        (pos + (encodeCells cells).length)
        ((cellEntries i cells).foldl
          (fun map entry => Map.insert map entry.1 entry.2) row) := by
  induction cells generalizing pos i row with
  | nil => simp [encodeCells, cellEntries]
  | cons cell cells ih =>
      rw [encodeCells, List.flatMap_cons, List.append_assoc] at h
      have hcell := decodeColumns_cell
        (fun s hs => hshort s (hs ▸ List.mem_cons_self)) h
        (cells.length + count) i row
      have hbehind : rowPacket.drop (pos + (encodeCell cell).length) =
          encodeCells cells ++ rest := by
        rw [← List.drop_drop, h, List.drop_left]
        rfl
      have hcells := ih (fun s hs => hshort s (List.mem_cons_of_mem _ hs))
        hbehind (i + 1) (Map.insert row (columnKey i) (cellValue cell))
      rw [List.length_cons, Nat.add_right_comm, hcell, hcells]
      have hlength : (encodeCells (cell :: cells)).length =
          (encodeCell cell).length + (encodeCells cells).length := by
        rw [encodeCells, List.flatMap_cons, List.length_append]
        rfl
      rw [hlength, Nat.add_right_comm i, Nat.add_assoc, Nat.add_assoc]
      rfl

theorem nodup_keys_cellEntries (i : ℕ) (cells : List (Option String)) :
    ((cellEntries i cells).map Prod.fst).Nodup := by
  have hkeys : (cellEntries i cells).map Prod.fst =
      (List.range' i cells.length).map columnKey := by
    rw [← List.zipIdx_map_snd, List.map_map, cellEntries, List.map_map]
    rfl
  rw [hkeys]
  exact (List.nodup_range').map columnKey_injective

/-- A row without a long text is read back. -/
theorem TextRow.isReadBack_of_isShort {row : TextRow} (h : row.IsShort) :
    row.IsReadBack := by
  have hcells := @decodeColumns_cells row.encode [] 0 row.cells h
    (List.append_nil _).symm 0 0 []
  rw [Map.foldl_insert (nodup_keys_cellEntries 0 row.cells)] at hcells
  exact row.isReadBack_iff_decodeColumns.mpr hcells

/-! ## Long texts -/

theorem decodeLengthStr_of_le {b : UInt8} {raw : Bytes}
    (h : b.toNat ≤ raw.length) :
    decodeLengthStr (b :: raw) =
      (1 + b.toNat, fromUtf8Lossy (raw.take b.toNat)) := by
  rw [decodeLengthStr, if_pos]
  rw [List.length_cons]
  omega

theorem encodeUtf8_of_fromUtf8Lossy_eq {s : String} {bytes : Bytes}
    (hchar : replacementChar ∉ s.toList) (h : fromUtf8Lossy bytes = s) :
    encodeUtf8 s.toList = bytes := by
  have hlist : utf8Lossy bytes = s.toList := by
    rw [← h, fromUtf8Lossy, String.toList_ofList]
  rw [← hlist] at hchar ⊢
  exact encodeUtf8_utf8Lossy bytes hchar

/-- The first byte of a long text is taken for its length, and what is read is
another text. -/
theorem exists_decodeLengthStr {s : String} (hlong : LongText s)
    (hfits : byteLength s < 2 ^ 24) (rest : Bytes) :
    ∃ b raw, encodeCell (some s) ++ rest = b :: raw ∧ b ≠ 0xfb ∧
      decodeLengthStr (b :: raw) =
        (1 + b.toNat, fromUtf8Lossy (raw.take b.toNat)) ∧
      (replacementChar ∉ s.toList →
        fromUtf8Lossy (raw.take b.toNat) ≠ s) := by
  unfold LongText at hlong
  have hlength : (encodeUtf8 s.toList).length = byteLength s := rfl
  rw [encodeCell, encodeLength, if_neg (Nat.not_lt.mpr hlong)]
  split_ifs with htwo hthree
  · refine ⟨252, Bytes.toLe 2 (byteLength s) ++ encodeUtf8 s.toList ++ rest,
      rfl, by decide, ?_, ?_⟩
    · apply decodeLengthStr_of_le
      simp only [UInt8.reduceToNat, List.length_append, Bytes.length_toLe,
        hlength]
      omega
    · intro hchar heq
      have hraw := encodeUtf8_of_fromUtf8Lossy_eq hchar heq
      have hcount : byteLength s = 252 := by
        rw [← hlength, hraw, List.length_take]
        simp only [UInt8.reduceToNat, List.length_append, Bytes.length_toLe,
          hlength]
        omega
      -- the low byte of the length starts no character
      apply hchar
      rw [← heq, hcount, fromUtf8Lossy, String.toList_ofList]
      have hbytes : Bytes.toLe 2 252 = [252, 0] := by decide
      have hwidth : (252 : UInt8).toNat = 251 + 1 := rfl
      rw [hbytes, hwidth, List.append_assoc, List.cons_append,
        List.take_succ_cons, utf8Lossy_cons_of_le (by decide)]
      exact List.mem_cons_self
  · refine ⟨253, Bytes.toLe 3 (byteLength s) ++ encodeUtf8 s.toList ++ rest,
      rfl, by decide, ?_, ?_⟩
    · apply decodeLengthStr_of_le
      simp only [UInt8.reduceToNat, List.length_append, Bytes.length_toLe,
        hlength]
      omega
    · intro hchar heq
      have hraw := congrArg List.length (encodeUtf8_of_fromUtf8Lossy_eq hchar heq)
      simp only [UInt8.reduceToNat, List.length_take, List.length_append,
        Bytes.length_toLe, hlength] at hraw
      omega
  · omega

theorem byteLength_lt {row : TextRow} {s : String} (h : some s ∈ row.cells) :
    byteLength s < 2 ^ 24 := by
  obtain ⟨front, back, hcells⟩ := List.append_of_mem h
  have hfits := row.hfits
  rw [hcells, encodeCells, List.flatMap_append, List.flatMap_cons,
    encodeCell] at hfits
  simp only [List.length_append] at hfits
  have hlength : (encodeUtf8 s.toList).length = byteLength s := rfl
  omega

theorem exists_of_firstLong {cells : List (Option String)} {s : String}
    (h : firstLong cells = some s) :
    ∃ front back, cells = front ++ some s :: back ∧ LongText s ∧
      ∀ t, some t ∈ front → ¬LongText t := by
  obtain ⟨front, cell, back, hcells, hcell, hfront⟩ :=
    List.findSome?_eq_some_iff.mp h
  obtain ⟨rfl, hlong⟩ := Option.filter_eq_some_iff.mp hcell
  refine ⟨front, back, hcells, of_decide_eq_true hlong, ?_⟩
  intro t ht hlong
  have hnone := Option.filter_eq_none_iff.mp (hfront _ ht) t rfl
  exact hnone (decide_eq_true hlong)

theorem isShort_of_firstLong_eq_none {row : TextRow}
    (h : firstLong row.cells = none) : row.IsShort := by
  intro s hs hlong
  have hnone := List.findSome?_eq_none_iff.mp h _ hs
  exact Option.filter_eq_none_iff.mp hnone s rfl (decide_eq_true hlong)

/-- The column of the first long text is read as something else. -/
theorem TextRow.not_isReadBack_of_firstLong {row : TextRow} {s : String}
    (hfirst : firstLong row.cells = some s)
    (hchar : replacementChar ∉ s.toList) : ¬row.IsReadBack := by
  rw [row.isReadBack_iff_decodeColumns]
  intro hread
  obtain ⟨front, back, hcells, hlong, hshort⟩ := exists_of_firstLong hfirst
  have hmem : some s ∈ row.cells := by
    rw [hcells]
    exact List.mem_append_right front List.mem_cons_self
  obtain ⟨b, raw, hraw, hb, htext, hne⟩ := exists_decodeLengthStr hlong
    (byteLength_lt hmem) (encodeCells back)
  have hencode : row.encode.drop 0 = encodeCells front ++ (b :: raw) := by
    rw [← hraw, TextRow.encode, hcells, encodeCells, List.flatMap_append,
      List.flatMap_cons]
    rfl
  have hbehind : row.encode.drop (0 + (encodeCells front).length) =
      b :: raw := by
    rw [← List.drop_drop, hencode, List.drop_left]
  have hcount : row.cells.length = front.length + (back.length + 1) := by
    rw [hcells, List.length_append, List.length_cons]
  have hget := congrArg (Map.get · (columnKey front.length)) hread
  have hlater : ∀ j, 0 + front.length + 1 ≤ j →
      columnKey j ≠ columnKey front.length := by
    intro j hj heq
    have hij := columnKey_injective heq
    omega
  rw [hcount, decodeColumns_cells hshort hencode, decodeColumns, hbehind] at hget
  dsimp only at hget
  rw [if_neg hb, htext, get_decodeColumns hlater, Nat.zero_add,
    Map.get_insert_self] at hget
  have hentry : (columnKey front.length, Value.string s) ∈ row.object := by
    apply List.mem_map.mpr
    refine ⟨(some s, front.length), List.mem_zipIdx_iff_getElem?.mpr ?_, rfl⟩
    rw [hcells, List.getElem?_append_right (Nat.le_refl _), Nat.sub_self]
    rfl
  have hobject : Map.get row.object (columnKey front.length) =
      some (.string s) :=
    (Map.get_eq_some_iff (nodup_keys_cellEntries 0 row.cells)).mpr hentry
  rw [hobject] at hget
  exact hne hchar (Value.string.inj (Option.some.inj hget))

/-! ## Rows of one shape -/

theorem TextRow.isShort_iff_shape {row : TextRow} :
    row.IsShort ↔ ∀ n, some n ∈ row.shape → n < 251 := by
  constructor
  · intro h n hn
    obtain ⟨cell, hcell, hlength⟩ := List.mem_map.mp hn
    obtain ⟨s, rfl, rfl⟩ := Option.map_eq_some_iff.mp hlength
    exact Nat.not_le.mp (h s hcell)
  · intro h s hs hlong
    exact Nat.not_lt.mpr hlong (h _ (List.mem_map_of_mem hs))

/-- The number of bytes of a column. -/
def cellLength : Option ℕ → ℕ
  | none => 1
  | some n => (encodeLength n).length + n

theorem length_encodeCells (cells : List (Option String)) :
    (encodeCells cells).length =
      ((cells.map (Option.map byteLength)).map cellLength).sum := by
  rw [encodeCells, List.length_flatMap, List.map_map]
  refine congrArg List.sum (List.map_congr_left fun cell _ => ?_)
  cases cell with
  | none => rfl
  | some s => exact List.length_append

/-- A text of `n` bytes. -/
def plainText (n : ℕ) : String := String.ofList (List.replicate n 'a')

theorem byteLength_plainText (n : ℕ) : byteLength (plainText n) = n := by
  rw [byteLength, plainText, String.toList_ofList]
  induction n with
  | zero => rfl
  | succ n ih =>
      rw [List.replicate_succ, encodeUtf8_cons, List.length_append, ih,
        Nat.add_comm]
      rfl

theorem notMem_plainText (n : ℕ) :
    replacementChar ∉ (plainText n).toList := by
  rw [plainText, String.toList_ofList]
  intro hmem
  have hchar : replacementChar = 'a' := List.eq_of_mem_replicate hmem
  exact absurd hchar (by decide)

def plainCells (cells : List (Option String)) : List (Option String) :=
  cells.map (Option.map fun s => plainText (byteLength s))

theorem map_byteLength_plainCells (cells : List (Option String)) :
    (plainCells cells).map (Option.map byteLength) =
      cells.map (Option.map byteLength) := by
  rw [plainCells, List.map_map]
  apply List.map_congr_left
  intro cell _
  cases cell with
  | none => rfl
  | some s => exact congrArg some (byteLength_plainText _)

/-- The row of the same shape with plain texts. -/
def TextRow.plain (row : TextRow) : TextRow where
  cells := plainCells row.cells
  hcolumns := by
    rw [plainCells, List.length_map]
    exact row.hcolumns
  hfits := by
    rw [length_encodeCells, map_byteLength_plainCells, ← length_encodeCells]
    exact row.hfits

theorem TextRow.shape_plain (row : TextRow) : row.plain.shape = row.shape :=
  map_byteLength_plainCells row.cells

theorem TextRow.isShort_of_isReadBack_plain {row : TextRow}
    (h : row.plain.IsReadBack) : row.IsShort := by
  rw [TextRow.isShort_iff_shape, ← row.shape_plain,
    ← TextRow.isShort_iff_shape]
  cases hfirst : firstLong row.plain.cells with
  | none => exact isShort_of_firstLong_eq_none hfirst
  | some s =>
      obtain ⟨front, back, hcells, -, -⟩ := exists_of_firstLong hfirst
      have hmem : some s ∈ plainCells row.cells := by
        have hcells : plainCells row.cells = front ++ some s :: back := hcells
        rw [hcells]
        exact List.mem_append_right front List.mem_cons_self
      obtain ⟨cell, -, hcell⟩ := List.mem_map.mp hmem
      obtain ⟨t, -, rfl⟩ := Option.map_eq_some_iff.mp hcell
      exact absurd h (TextRow.not_isReadBack_of_firstLong hfirst
        (notMem_plainText _))

/-- The rows of a shape are all read back exactly if no text of it has 251
bytes.  Of the other rows one is read back only if the first text that has is
written with replacement characters. -/
theorem TextRow.isReadBack_iff (row : TextRow) :
    ((∀ other : TextRow, other.shape = row.shape → other.IsReadBack) ↔
        row.IsShort) ∧
      (row.IsReadBack → row.IsShort ∨
        ∃ s, firstLong row.cells = some s ∧ replacementChar ∈ s.toList) := by
  refine ⟨⟨fun h => ?_, fun h other hshape => ?_⟩, fun h => ?_⟩
  · exact TextRow.isShort_of_isReadBack_plain (h row.plain row.shape_plain)
  · apply TextRow.isReadBack_of_isShort
    rw [TextRow.isShort_iff_shape, hshape, ← TextRow.isShort_iff_shape]
    exact h
  · cases hfirst : firstLong row.cells with
    | none => exact .inl (isShort_of_firstLong_eq_none hfirst)
    | some s =>
        refine .inr ⟨s, rfl, ?_⟩
        by_contra hchar
        exact TextRow.not_isReadBack_of_firstLong hfirst hchar h

/-! ## A long text -/

theorem firstLong_singleton {s : String} (h : LongText s) :
    firstLong [some s] = some s := by
  simp [firstLong, h]

/-- One column with a text of 251 bytes. -/
def longRow : TextRow where
  cells := [some (plainText 251)]
  hcolumns := by decide
  hfits := by
    rw [length_encodeCells, List.map_singleton, Option.map_some,
      byteLength_plainText]
    decide

theorem not_isReadBack_longRow : ¬longRow.IsReadBack := by
  have hlong : LongText (plainText 251) := by
    rw [LongText, byteLength_plainText]
  exact TextRow.not_isReadBack_of_firstLong (firstLong_singleton hlong)
    (notMem_plainText 251)

end OpenCdc.Mysql
