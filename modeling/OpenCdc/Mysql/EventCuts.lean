import OpenCdc.Mysql.PackedInt
import OpenCdc.Mysql.RowSpan
import OpenCdc.Mysql.TableMap

/-!
# Event bodies that end too early

The parsers of event bodies check some lengths and index without a check
elsewhere.  They panic on just the bodies that end inside a field that is read
unchecked.
-/

namespace OpenCdc.Mysql

open Foundation

variable {ε : Type}

/-! ## Cut bodies -/

/-- A table map that ends behind its names in a length-encoded number or in the
column types. -/
def CutColumnTypes (tail : Bytes) : Prop :=
  CutPacked tail ∨ ∃ count rest, PackedInt tail count rest ∧
    (rest.length < count ∨ CutPacked (rest.drop count))

def CutTableMap (body : Bytes) : Prop :=
  body.length < 8 ∨ ∃ (head : TableMapHead) (tail : Bytes),
    CutColumnTypes tail ∧ body = head.encode ++ tail

/-- The bytes of the post-header of a rows event. -/
def postHeaderLength (version : ℕ) : ℕ := if version = 2 then 10 else 8

/-- A rows event that ends in its post-header or in the count behind it. -/
def CutRows (version : ℕ) (body : Bytes) : Prop :=
  body.length < postHeaderLength version ∨
    CutPacked (body.drop (postHeaderLength version))

/-- The rows stand behind the count and a bitmap of as many bits. -/
def RowsBehind (version : ℕ) (body rows : Bytes) : Prop :=
  ∃ count rest, PackedInt (body.drop (postHeaderLength version)) count rest ∧
    rows = if count = 0 then body.drop (postHeaderLength version)
      else rest.drop ((count + 7) / 8)

/-- An update of a table that the parser remembers, in which the first image of
a pair is cut. -/
def CutUpdate (state : ParserState) (version : ℕ) (body : Bytes) : Prop :=
  CutRows version body ∨ ∃ rows, RowsBehind version body rows ∧
    CutPairs (columnTypesOf state (UInt64.ofNat (Bytes.ofLe (body.take 6))))
      (columnMetasOf state (UInt64.ofNat (Bytes.ofLe (body.take 6)))) rows

/-- The number of a transaction takes five bytes more than are checked. -/
def CutGtid (body : Bytes) : Prop := 20 ≤ body.length ∧ body.length < 25

/-- A body that ends inside a field that its parser reads without a check. -/
def CutBody (state : ParserState) (eventType : UInt8) (body : Bytes) : Prop :=
  if eventType = 0x13 then CutTableMap body
  else if eventType = 0x17 ∨ eventType = 0x19 then CutRows 1 body
  else if eventType = 0x18 then CutUpdate state 1 body
  else if eventType = 0x1e ∨ eventType = 0x20 then CutRows 2 body
  else if eventType = 0x1f then CutUpdate state 2 body
  else if eventType = 0x21 then CutGtid body
  else False

/-! ## Rows events -/

theorem bytesAt_flags_eq_panicked {data : Bytes} (h : data.length < 8) :
    Bytes.bytesAt (ε := ε) data (readPackedU48 data).2 2 = .panicked := by
  have hpos : (readPackedU48 data).2 ≤ data.length ∧
      data.length < (readPackedU48 data).2 + 2 := by
    unfold readPackedU48
    split_ifs with hshort
    · exact ⟨Nat.le_refl _, by omega⟩
    · exact ⟨Nat.not_lt.mp hshort, h⟩
  rw [Bytes.bytesAt_eq_panicked_iff hpos.1, List.length_drop]
  omega

theorem readPackedU48_of_le {data : Bytes} (h : 8 ≤ data.length) :
    readPackedU48 data = (UInt64.ofNat (Bytes.ofLe (data.take 6)), 6) := by
  unfold readPackedU48
  rw [if_neg (by omega)]

theorem le_postHeaderLength (version : ℕ) : 8 ≤ postHeaderLength version := by
  unfold postHeaderLength
  split_ifs <;> decide

theorem postHeaderLength_eq (version : ℕ) :
    (if version = 2 then 6 + 2 + 2 else 6 + 2) = postHeaderLength version :=
  rfl

/-- Behind a complete post-header. -/
theorem rowsHead_of_le {data : Bytes} {version : ℕ}
    (h : postHeaderLength version ≤ data.length) :
    rowsHead data version = (do
      let (_, _, n) ← readBitset (data.drop (postHeaderLength version))
      return (UInt64.ofNat (Bytes.ofLe (data.take 6)),
        postHeaderLength version + n)) := by
  have hle := le_postHeaderLength version
  unfold rowsHead
  rw [readPackedU48_of_le (hle.trans h)]
  dsimp only
  rw [Bytes.bytesAt_of_le (by omega), Outcome.ok_bind, postHeaderLength_eq,
    Bytes.sliceFrom, if_pos h, Outcome.ok_bind]

theorem rowsHead_eq_panicked_iff {data : Bytes} {version : ℕ} :
    rowsHead data version = .panicked ↔ CutRows version data := by
  unfold CutRows
  by_cases hle : postHeaderLength version ≤ data.length
  · rw [rowsHead_of_le hle, Outcome.bind_eq_panicked,
      readBitset_eq_panicked_iff, or_iff_right (Nat.not_lt.mpr hle)]
    apply or_iff_left
    rintro ⟨bitset, -, h⟩
    cases h
  · refine iff_of_true ?_ (.inl (Nat.not_le.mp hle))
    unfold rowsHead
    by_cases hflags : data.length < 8
    · dsimp only
      rw [bytesAt_flags_eq_panicked hflags]
      rfl
    · rw [readPackedU48_of_le (Nat.not_lt.mp hflags)]
      dsimp only
      rw [Bytes.bytesAt_of_le (Nat.not_lt.mp hflags), Outcome.ok_bind,
        postHeaderLength_eq, Bytes.sliceFrom, if_neg hle]
      rfl

/-- The rows are read where they stand. -/
theorem exists_rowsHead {data rows : Bytes} {version : ℕ}
    (hle : postHeaderLength version ≤ data.length)
    (h : RowsBehind version data rows) :
    ∃ pos, rowsHead data version =
        .ok (UInt64.ofNat (Bytes.ofLe (data.take 6)), pos) ∧
      data.drop pos = rows := by
  obtain ⟨count, rest, hcount, rfl⟩ := h
  obtain ⟨bits, m, k, hread, hdrop⟩ := exists_readBitset (ε := String) hcount
  rw [rowsHead_of_le hle, hread, Outcome.ok_bind]
  exact ⟨_, rfl, by rw [← List.drop_drop, hdrop]⟩

theorem parseRows_eq_panicked_iff {json : JsonParser} {state : ParserState}
    {data : Bytes} {version : ℕ} :
    parseRows json state data version = .panicked ↔ CutRows version data := by
  unfold parseRows
  rw [Outcome.bind_eq_panicked, rowsHead_eq_panicked_iff]
  apply or_iff_left
  rintro ⟨⟨tableId, pos⟩, -, h⟩
  obtain ⟨rows, hrows⟩ := exists_readRows (ε := String) json data
    (columnTypesOf state tableId) (columnMetasOf state tableId) pos
  dsimp only at h
  rw [hrows] at h
  cases h

/-- An insertion or deletion panics with its head. -/
theorem bind_parseRows_eq_panicked_iff {json : JsonParser}
    {state : ParserState} {data : Bytes} {version : ℕ}
    {make : UInt64 × List RowEvent → BinlogEvent} :
    (do
      let head ← parseRows json state data version
      return some (make head) : Outcome String (Option BinlogEvent)) =
        .panicked ↔ CutRows version data := by
  rw [Outcome.bind_eq_panicked, parseRows_eq_panicked_iff]
  apply or_iff_left
  rintro ⟨head, -, h⟩
  cases h

theorem parseUpdateRows_eq_panicked_iff {json : JsonParser}
    {state : ParserState} {data : Bytes} {version : ℕ} :
    parseUpdateRows json state data version = .panicked ↔
      CutUpdate state version data := by
  unfold parseUpdateRows CutUpdate
  rw [Outcome.bind_eq_panicked, rowsHead_eq_panicked_iff]
  by_cases hcut : CutRows version data
  · exact iff_of_true (.inl hcut) (.inl hcut)
  · rw [or_iff_right hcut, or_iff_right hcut]
    obtain ⟨hle, hpacked⟩ := not_or.mp hcut
    obtain ⟨count, rest, hcount⟩ := exists_packedInt hpacked
    have hpairs : ∀ tableId pos,
        (do
          let rows ← readRowPairs json data (columnTypesOf state tableId)
            (columnMetasOf state tableId) pos
          return some (.updateRows tableId rows) :
            Outcome String (Option BinlogEvent)) = .panicked ↔
          CutPairs (columnTypesOf state tableId) (columnMetasOf state tableId)
            (data.drop pos) := by
      intro tableId pos
      rw [Outcome.bind_eq_panicked, readRowPairs_eq_panicked_iff]
      apply or_iff_left
      rintro ⟨rows, -, h⟩
      cases h
    constructor
    · rintro ⟨⟨tableId, pos⟩, hhead, h⟩
      obtain ⟨pos', hhead', hdrop⟩ := exists_rowsHead (Nat.not_lt.mp hle)
        ⟨count, rest, hcount, rfl⟩
      rw [hhead'] at hhead
      obtain ⟨rfl, rfl⟩ := Prod.mk.inj (Outcome.ok.inj hhead)
      exact ⟨_, ⟨count, rest, hcount, rfl⟩, hdrop ▸ (hpairs _ pos').mp h⟩
    · rintro ⟨rows, hrows, h⟩
      obtain ⟨pos, hhead, rfl⟩ := exists_rowsHead (Nat.not_lt.mp hle) hrows
      exact ⟨_, hhead, (hpairs _ pos).mpr h⟩

/-! ## Table maps -/

/-- A name is read if it ends, and its missing end is an error. -/
theorem readName_cases (what : String) {data : Bytes} {p : ℕ}
    (hp : p ≤ data.length) :
    (∃ message, readName what data p = .error message) ∨
      ∃ name rest, 0 ∉ name ∧ data.drop p = name ++ 0 :: rest := by
  by_cases hzero : (0 : UInt8) ∈ data.drop p
  · obtain ⟨name, rest, hsplit, hname⟩ := List.eq_append_cons_of_mem hzero
    exact .inr ⟨name, rest, hname, hsplit⟩
  · left
    have hfind : (data.drop p).findIdx? (· == 0) = none := by
      rw [List.findIdx?_eq_none_iff]
      intro b hb
      have hne : b ≠ 0 := ne_of_mem_of_not_mem hb hzero
      simp [hne]
    unfold readName
    rw [Bytes.sliceFrom, if_pos hp, Outcome.ok_bind, hfind]
    exact ⟨_, rfl⟩

theorem exists_readMetas (data : Bytes) (columnTypes : List UInt8) (p : ℕ) :
    ∃ result, readMetas data columnTypes p = .ok result := by
  induction columnTypes generalizing p with
  | nil => exact ⟨_, rfl⟩
  | cons colType columnTypes ih =>
      unfold readMetas
      dsimp only
      split_ifs with hnone
      · exact exists_bind (ih p) fun _ => ⟨_, rfl⟩
      · rw [Bytes.bytesAt_of_le (by omega), Outcome.ok_bind]
        exact exists_bind (ih _) fun _ => ⟨_, rfl⟩

/-- What `parse_table_map` does behind the count of columns. -/
def parseColumnTypes (data : Bytes) (tableId : UInt64)
    (database table : String) (p columnCount : ℕ) :
    Outcome String TableMapEvent := do
  let columnTypes ← Bytes.slice data p (p + columnCount)
  let p := p + columnCount
  let (_, metaN) ← readPackedInt (← Bytes.sliceFrom data p)
  let (columnMetas, p) ← readMetas data columnTypes (p + metaN)
  let nullBytes := (columnCount + 7) / 8
  let nullBits ←
    if p + nullBytes ≤ data.length then do
      let bytes ← Bytes.slice data p (p + nullBytes)
      pure ((bitsOf bytes).take columnCount)
    else pure (List.replicate columnCount false)
  return ⟨tableId, database, table, columnTypes, columnMetas, nullBits⟩

/-- Behind the types only the length of the metadata is read without a
check. -/
theorem parseColumnTypes_eq_panicked_iff {data : Bytes} {tableId : UInt64}
    {database table : String} {p count : ℕ} (hp : p ≤ data.length) :
    parseColumnTypes data tableId database table p count = .panicked ↔
      (data.drop p).length < count ∨ CutPacked ((data.drop p).drop count) := by
  unfold parseColumnTypes
  rw [List.length_drop, List.drop_drop]
  by_cases htypes : p + count ≤ data.length
  · rw [or_iff_right (by omega), Bytes.slice,
      if_pos ⟨Nat.le_add_right _ _, htypes⟩, Outcome.ok_bind]
    dsimp only
    rw [Bytes.sliceFrom, if_pos htypes, Outcome.ok_bind,
      Outcome.bind_eq_panicked, readPackedInt_eq_panicked_iff]
    apply or_iff_left
    rintro ⟨⟨size, metaN⟩, -, h⟩
    obtain ⟨⟨metas, stop⟩, hmetas⟩ := exists_readMetas data
      ((data.drop p).take (p + count - p)) (p + count + metaN)
    dsimp only at h
    rw [hmetas, Outcome.ok_bind] at h
    dsimp only at h
    split_ifs at h with hfits
    · rw [Bytes.slice, if_pos ⟨Nat.le_add_right _ _, hfits⟩] at h
      cases h
    · cases h
  · refine iff_of_true ?_ (.inl (by omega))
    rw [Bytes.slice, if_neg fun h => htypes h.2]
    rfl

/-- What stands behind the names panics where a count or the types are cut. -/
theorem parseTableColumns_eq_panicked_iff {data : Bytes} {tableId : UInt64}
    {database table : String} {p : ℕ} (hp : p ≤ data.length) :
    parseTableColumns data tableId database table p = .panicked ↔
      CutColumnTypes (data.drop p) := by
  have hunfold : parseTableColumns data tableId database table p = (do
      let counted ← readPackedInt (← Bytes.sliceFrom data p)
      parseColumnTypes data tableId database table (p + counted.2)
        counted.1) := rfl
  rw [hunfold, CutColumnTypes, Bytes.sliceFrom, if_pos hp, Outcome.ok_bind,
    Outcome.bind_eq_panicked, readPackedInt_eq_panicked_iff]
  apply or_congr_right
  have htypes : ∀ {count rest n}, n ≤ (data.drop p).length →
      (data.drop p).drop n = rest →
      (parseColumnTypes data tableId database table (p + n) count =
          .panicked ↔ rest.length < count ∨ CutPacked (rest.drop count)) := by
    rintro count _ n hn rfl
    rw [List.length_drop] at hn
    rw [List.drop_drop]
    exact parseColumnTypes_eq_panicked_iff (by omega)
  constructor
  · rintro ⟨⟨count, n⟩, hread, h⟩
    have hcut : ¬ CutPacked (data.drop p) := by
      rw [← readPackedInt_eq_panicked_iff (ε := String), hread]
      exact Outcome.ok_ne_panicked _
    obtain ⟨count', rest, hcount⟩ := exists_packedInt hcut
    obtain ⟨n', hread', hn, hrest, -⟩ := exists_readPackedInt (ε := String)
      hcount
    rw [hread'] at hread
    obtain ⟨rfl, rfl⟩ := Prod.mk.inj (Outcome.ok.inj hread)
    exact ⟨count', rest, hcount, (htypes hn hrest).mp h⟩
  · rintro ⟨count, rest, hcount, h⟩
    obtain ⟨n, hread, hn, hrest, -⟩ := exists_readPackedInt (ε := String)
      hcount
    exact ⟨(count, n), hread, (htypes hn hrest).mpr h⟩

/-- The parts in front of the columns, if both names end. -/
theorem parseTableMap_cases {data : Bytes} (h : 8 ≤ data.length) :
    (∃ message, parseTableMap data = .error message) ∨
      ∃ (head : TableMapHead) (tail : Bytes), data = head.encode ++ tail := by
  have hstart : parseTableMap data = (do
      let database ← readName "database" data 8
      let table ← readName "table" data database.2
      parseTableColumns data (UInt64.ofNat (Bytes.ofLe (data.take 6)))
        database.1 table.1 table.2) := by
    unfold parseTableMap
    rw [readPackedU48_of_le h]
    dsimp only
    rw [Bytes.bytesAt_of_le h, Outcome.ok_bind]
    rfl
  rw [hstart]
  rcases readName_cases "database" h with
    ⟨message, herror⟩ | ⟨database, rest, hdatabase, hsplit⟩
  · rw [herror]
    exact .inl ⟨message, rfl⟩
  · have hbehind : 8 + database.length + 1 ≤ data.length := by
      have hlength := congrArg List.length hsplit
      rw [List.length_drop, List.length_append, List.length_cons] at hlength
      omega
    have hrest : data.drop (8 + database.length + 1) = rest := by
      rw [Nat.add_assoc, ← List.drop_drop, hsplit, ← List.drop_drop,
        List.drop_left]
      rfl
    rw [readName_eq "database" hdatabase h ⟨rest, by simp [hsplit]⟩,
      Outcome.ok_bind]
    dsimp only
    rcases readName_cases "table" hbehind with
      ⟨message, herror⟩ | ⟨table, tail, htable, hsplit'⟩
    · rw [herror]
      exact .inl ⟨message, rfl⟩
    · right
      refine ⟨⟨data.take 6, (data.drop 6).take 2, database, table,
        List.length_take_of_le (by omega), ?_, hdatabase, htable⟩, tail, ?_⟩
      · rw [List.length_take_of_le]
        rw [List.length_drop]
        omega
      · have height : (data.drop 6).drop 2 = data.drop 8 :=
          List.drop_drop
        rw [hrest] at hsplit'
        calc
          data = data.take 6 ++ ((data.drop 6).take 2 ++
              (data.drop 6).drop 2) := by
            rw [List.take_append_drop, List.take_append_drop]
          _ = data.take 6 ++ ((data.drop 6).take 2 ++
              (database ++ 0 :: (table ++ 0 :: tail))) := by
            rw [height, hsplit, hsplit']
          _ = _ := by simp [TableMapHead.encode]

theorem parseTableMap_eq_panicked_iff {data : Bytes} :
    parseTableMap data = .panicked ↔ CutTableMap data := by
  have hhead : ∀ (head : TableMapHead) (tail : Bytes),
      parseTableMap (head.encode ++ tail) = .panicked ↔
        CutColumnTypes tail := by
    intro head tail
    rw [TableMapHead.parseTableMap_append,
      parseTableColumns_eq_panicked_iff (by simp), List.drop_left]
  unfold CutTableMap
  by_cases hshort : data.length < 8
  · refine iff_of_true ?_ (.inl hshort)
    unfold parseTableMap
    dsimp only
    rw [bytesAt_flags_eq_panicked hshort]
    rfl
  · rw [or_iff_right hshort]
    constructor
    · intro h
      rcases parseTableMap_cases (Nat.not_lt.mp hshort) with
        ⟨message, herror⟩ | ⟨head, tail, rfl⟩
      · rw [h] at herror
        cases herror
      · exact ⟨head, tail, (hhead head tail).mp h, rfl⟩
    · rintro ⟨head, tail, h, rfl⟩
      exact (hhead head tail).mpr h

/-! ## One event -/

theorem parseGtid_eq_panicked_iff {data : Bytes} :
    parseGtid data = .panicked ↔ CutGtid data := by
  unfold parseGtid CutGtid
  by_cases hshort : data.length < 20
  · rw [if_pos hshort]
    exact iff_of_false (Outcome.ok_ne_panicked _) (by omega)
  · rw [if_neg hshort, Bytes.slice, if_pos (by omega), Outcome.ok_bind,
      Outcome.bind_eq_panicked, Bytes.bytesAt_eq_panicked_iff (by omega),
      List.length_drop]
    constructor
    · rintro (h | ⟨bytes, -, h⟩)
      · omega
      · cases h
    · intro h
      exact .inl (by omega)

theorem parseEvent_eq_panicked_iff (json : JsonParser) (state : ParserState)
    (header : EventHeader) (data : Bytes) :
    (parseEvent json state header data).1 = .panicked ↔
      CutBody state header.eventType data := by
  by_cases htable : header.eventType = 0x13
  · rw [parseEvent_tableMap json state data htable, htable]
    refine Iff.trans ?_ parseTableMap_eq_panicked_iff
    cases parseTableMap data <;> simp
  by_cases hgtid : header.eventType = 0x21
  · rw [parseEvent_gtid json state data hgtid, hgtid]
    refine Iff.trans ?_ parseGtid_eq_panicked_iff
    rcases parseGtid data with (_ | gtid) | message | _ <;> simp
  obtain ⟨timestamp, eventType, serverId, eventSize, logPos, flags⟩ := header
  dsimp only at htable hgtid ⊢
  by_cases hwrite : eventType = 0x17
  · subst hwrite
    exact bind_parseRows_eq_panicked_iff
  by_cases hupdate : eventType = 0x18
  · subst hupdate
    exact parseUpdateRows_eq_panicked_iff
  by_cases hdelete : eventType = 0x19
  · subst hdelete
    exact bind_parseRows_eq_panicked_iff
  by_cases hwrite2 : eventType = 0x1e
  · subst hwrite2
    exact bind_parseRows_eq_panicked_iff
  by_cases hupdate2 : eventType = 0x1f
  · subst hupdate2
    exact parseUpdateRows_eq_panicked_iff
  by_cases hdelete2 : eventType = 0x20
  · subst hdelete2
    exact bind_parseRows_eq_panicked_iff
  have hcut : ¬ CutBody state eventType data := by
    simp [CutBody, htable, hgtid, hwrite, hupdate, hdelete, hwrite2, hupdate2,
      hdelete2]
  refine iff_of_false ?_ hcut
  simp only [parseEvent, htable, hgtid, hwrite, hupdate, hdelete, hwrite2,
    hupdate2, hdelete2, if_false, parseRotate, parseXid]
  split_ifs <;> simp

end OpenCdc.Mysql
