import OpenCdc.Mysql.PackedInt

/-!
# Rows events of integer columns

Insertions and deletions are read back as they were written.  An update has a
second bitmap and may have extra data, which `parse_update_rows` does not
expect: it takes the bitmap for a row and the extra data for a count.
-/

namespace OpenCdc.Mysql

open Foundation Json

variable {ε : Type}

/-! ## The layout of a rows event -/

/-- The parser has a table of these integer columns in its cache.  A table id
has six bytes, and a vector is no longer than its length can tell. -/
structure CachesIntegers (state : ParserState) (tableId : UInt64)
    (types : List IntegerType) : Prop where
  tableId_lt : tableId.toNat < 256 ^ 6
  length_lt : types.length < 2 ^ 64
  cached : ∃ table, state.tables tableId = some table ∧
    table.columnTypes = types.map IntegerType.colType ∧
    ∀ colMeta ∈ table.columnMetas, colMeta = 0

/-- What stands in front of the extra data: table id, flags, and for version 2
the declared length of the extra data, this length included. -/
def postHeader (version : ℕ) (tableId : UInt64) (flags extraLength : UInt16) :
    Bytes :=
  Bytes.toLe 6 tableId.toNat ++ (Bytes.toLe 2 flags.toNat ++
    if version = 2 then Bytes.toLe 2 extraLength.toNat else [])

/-- The body of an insertion or a deletion of the rows. -/
def IsRowsBody (version : ℕ) (tableId : UInt64) {types : List IntegerType}
    (rows : List (IntegerRow types)) (body : Bytes) : Prop :=
  ∃ flags count present images, LengthEncoded types.length count ∧
    IsBitmap (List.replicate types.length true) present ∧
    List.Forall₂ IsRowImage rows images ∧
    body = postHeader version tableId flags 2 ++
      (count ++ (present ++ images.flatten))

/-- The rows of an update: before it and after it. -/
abbrev RowPair (types : List IntegerType) := IntegerRow types × IntegerRow types

def IsPairImage {types : List IntegerType} : Format (RowPair types) :=
  fun pair image => ∃ before after, IsRowImage pair.1 before ∧
    IsRowImage pair.2 after ∧ image = before ++ after

/-- The body of an update of the rows, with one bitmap for each image and, in
version 2, extra data of the declared length. -/
def IsUpdateBody (version : ℕ) (tableId : UInt64) (extraLength : UInt16)
    {types : List IntegerType} (pairs : List (RowPair types)) (body : Bytes) :
    Prop :=
  ∃ flags extra count before after images,
    (if version = 2 then extra.length + 2 = extraLength.toNat
      else extra = []) ∧
    LengthEncoded types.length count ∧
    IsBitmap (List.replicate types.length true) before ∧
    IsBitmap (List.replicate types.length true) after ∧
    List.Forall₂ IsPairImage pairs images ∧
    body = postHeader version tableId flags extraLength ++
      (extra ++ (count ++ (before ++ (after ++ images.flatten))))

/-! ## The head of a rows event -/

theorem columnTypesOf_eq {state : ParserState} {tableId : UInt64}
    {types : List IntegerType} (h : CachesIntegers state tableId types) :
    columnTypesOf state tableId = types.map IntegerType.colType := by
  obtain ⟨table, htable, htypes, -⟩ := h.cached
  simp [columnTypesOf, htable, htypes]

theorem columnMetasOf_eq_zero {state : ParserState} {tableId : UInt64}
    {types : List IntegerType} (h : CachesIntegers state tableId types) :
    ∀ colMeta ∈ columnMetasOf state tableId, colMeta = 0 := by
  obtain ⟨table, htable, -, hmetas⟩ := h.cached
  simpa [columnMetasOf, htable] using hmetas

@[simp] theorem length_postHeader (version : ℕ) (tableId : UInt64)
    (flags extraLength : UInt16) :
    (postHeader version tableId flags extraLength).length =
      if version = 2 then 10 else 8 := by
  by_cases hversion : version = 2 <;> simp [postHeader, hversion]

/-- The rows start behind what `read_bitset` passes over. -/
theorem rowsHead_eq {version : ℕ} {tableId : UInt64} {flags : UInt16}
    {extraLength : UInt16} {rest : Bytes} (hid : tableId.toNat < 256 ^ 6) :
    rowsHead (postHeader version tableId flags extraLength ++ rest) version =
      (do
        let (_, _, k) ← readBitset rest
        return (tableId,
          (postHeader version tableId flags extraLength).length + k)) := by
  have hpacked : readPackedU48
      (postHeader version tableId flags extraLength ++ rest) =
        (tableId, 6) := by
    have htake : (postHeader version tableId flags extraLength ++ rest).take 6 =
        Bytes.toLe 6 tableId.toNat := by
      rw [postHeader, List.append_assoc]
      exact List.take_left' (Bytes.length_toLe _ _)
    unfold readPackedU48
    rw [if_neg (by simp; split <;> omega), htake, Bytes.ofLe_toLe,
      Nat.mod_eq_of_lt hid, UInt64.ofNat_toNat]
  have hflags : Bytes.bytesAt (ε := String)
      (postHeader version tableId flags extraLength ++ rest) 6 2 =
        .ok (Bytes.toLe 2 flags.toNat) := by
    rw [postHeader, List.append_assoc, List.append_assoc]
    exact bytesAt_append (Bytes.length_toLe _ _) (Bytes.length_toLe _ _)
  have hrest : Bytes.sliceFrom (ε := String)
      (postHeader version tableId flags extraLength ++ rest)
      (if version = 2 then 6 + 2 + 2 else 6 + 2) = .ok rest := by
    have hskip : (if version = 2 then 6 + 2 + 2 else 6 + 2) =
        (postHeader version tableId flags extraLength).length := by
      rw [length_postHeader]
    unfold Bytes.sliceFrom
    rw [hskip, if_pos (by simp), List.drop_left]
  unfold rowsHead
  rw [hpacked]
  dsimp only
  rw [hflags, Outcome.ok_bind, hrest, Outcome.ok_bind, length_postHeader]

/-! ## Insertions and deletions -/

theorem length_pos_of_isRowImage {types : List IntegerType} (htypes : types ≠ [])
    {row : IntegerRow types} {image : Bytes} (h : IsRowImage row image) :
    0 < image.length := by
  obtain ⟨bitmap, hbitmap, rfl⟩ := h
  have hpos : 0 < types.length := List.length_pos_iff.mpr htypes
  have hlength := hbitmap.1
  rw [row.length_nulls] at hlength
  rw [List.length_append]
  omega

/-- The row loop reads the images one behind the other up to the end. -/
theorem readRows_eq (json : JsonParser) {types : List IntegerType}
    (htypes : types ≠ []) {metas : List UInt16} (hmetas : ∀ m ∈ metas, m = 0)
    {rows : List (IntegerRow types)} {images : List Bytes}
    (hreadable : ∀ row ∈ rows, row.Readable)
    (hrows : List.Forall₂ IsRowImage rows images) {data : Bytes} {pos : ℕ}
    (hpos : pos ≤ data.length) (hdata : data.drop pos = images.flatten) :
    readRows (ε := ε) json data (types.map IntegerType.colType) metas pos =
      .ok (rows.map IntegerRow.event) := by
  induction hrows generalizing pos with
  | nil =>
      have hend : data.length ≤ pos := List.drop_eq_nil_iff.mp hdata
      rw [readRows, dif_neg (by omega)]
      rfl
  | @cons row image rows images himage hrows ih =>
      have himagePos := length_pos_of_isRowImage htypes himage
      rw [List.flatten_cons] at hdata
      have hlength := congrArg List.length hdata
      rw [List.length_drop, List.length_append] at hlength
      have hrow : readRow (ε := ε) json (data.drop pos)
          (types.map IntegerType.colType) metas =
            .ok (row.values, image.length) :=
        readRow_eq json htypes hmetas (hreadable row List.mem_cons_self)
          himage ⟨images.flatten, hdata.symm⟩
      have hnext : data.drop (pos + image.length) = images.flatten := by
        rw [← List.drop_drop, hdata, List.drop_left]
      have hrest := ih (fun r hr => hreadable r (List.mem_cons_of_mem _ hr))
        (by omega) hnext
      rw [readRows, dif_pos (by omega)]
      simp only [Bytes.sliceFrom, if_pos hpos, Outcome.ok_bind, hrow]
      rw [dif_neg (by omega), hrest]
      rfl

theorem parseRows_eq (json : JsonParser) {state : ParserState}
    {version : ℕ} {tableId : UInt64} {types : List IntegerType}
    {rows : List (IntegerRow types)} {body : Bytes}
    (hcached : CachesIntegers state tableId types) (htypes : types ≠ [])
    (hreadable : ∀ row ∈ rows, row.Readable)
    (hbody : IsRowsBody version tableId rows body) :
    parseRows json state body version =
      .ok (tableId, rows.map IntegerRow.event) := by
  obtain ⟨flags, count, present, images, hcount, hpresent, hrows, rfl⟩ := hbody
  have hpos : 0 < types.length := List.length_pos_iff.mpr htypes
  have hlength : present.length = (types.length + 7) / 8 := by
    rw [hpresent.1, List.length_replicate]
  obtain ⟨bits, hbitset⟩ := readBitset_eq (ε := String) hcount hpos
    (present ++ images.flatten)
  have hdrop : (postHeader version tableId flags 2 ++
      (count ++ (present ++ images.flatten))).drop
        ((postHeader version tableId flags 2).length +
          (count.length + (types.length + 7) / 8)) = images.flatten := by
    rw [← List.drop_drop, List.drop_left, ← List.drop_drop, List.drop_left,
      ← hlength, List.drop_left]
  unfold parseRows
  rw [rowsHead_eq hcached.tableId_lt, hbitset]
  simp only [Outcome.ok_bind, Outcome.pure_eq]
  rw [columnTypesOf_eq hcached,
    readRows_eq json htypes (columnMetasOf_eq_zero hcached) hreadable hrows
      (by simp; omega) hdrop]
  rfl

/-- The rows of integer columns that the parser knows the width of are read
back from an insertion and from a deletion. -/
theorem parseIntegerRows (json : JsonParser) {state : ParserState}
    {version : ℕ} {tableId : UInt64} {types : List IntegerType}
    {rows : List (IntegerRow types)} {body : Bytes}
    (hcached : CachesIntegers state tableId types) (htypes : types ≠ [])
    (hint24 : .int24 ∉ types)
    (hbody : IsRowsBody version tableId rows body) :
    parseWriteRows json state body version =
        .ok (some (.writeRows tableId (rows.map IntegerRow.event))) ∧
      parseDeleteRows json state body version =
        .ok (some (.deleteRows tableId (rows.map IntegerRow.event))) := by
  have hrows := parseRows_eq json hcached htypes
    (fun row _ => row.readable_of_not_mem hint24) hbody
  unfold parseWriteRows parseDeleteRows
  rw [hrows]
  exact ⟨rfl, rfl⟩

/-- The table map of `db.t` with a TINY and a LONGLONG column has been read. -/
def twoColumnState : ParserState where
  tables := Function.update (fun _ => none) 7
    (some ⟨7, "db", "t", [1, 8], [0, 0], [true, true]⟩)

theorem cachesIntegers_twoColumnState :
    CachesIntegers twoColumnState 7 [.tiny, .longlong] where
  tableId_lt := by decide
  length_lt := by decide
  cached := ⟨_, rfl, rfl, by simp⟩

theorem parseIntegerRows_twoColumns :
    parseWriteRows ⟨fun _ => none, fun _ => none⟩ twoColumnState
        [7, 0, 0, 0, 0, 0, 1, 0, 2, 0, 2, 255, 2, 5, 1, 0, 0, 0, 0, 0, 0, 0,
          128] 2 =
        .ok (some (.writeRows 7 [⟨[.ofInt 5, .null]⟩,
          ⟨[.null, .string "9223372036854775808"]⟩])) ∧
      parseDeleteRows ⟨fun _ => none, fun _ => none⟩ twoColumnState
        [7, 0, 0, 0, 0, 0, 1, 0, 2, 0, 2, 255, 2, 5, 1, 0, 0, 0, 0, 0, 0, 0,
          128] 2 =
        .ok (some (.deleteRows 7 [⟨[.ofInt 5, .null]⟩,
          ⟨[.null, .string "9223372036854775808"]⟩])) := by
  have hbody : IsRowsBody 2 7
      [(.cons (some ⟨5, by decide⟩) (.cons none .nil) :
        IntegerRow [.tiny, .longlong]),
      .cons none (.cons (some ⟨2 ^ 63, by decide⟩) .nil)]
      [7, 0, 0, 0, 0, 0, 1, 0, 2, 0, 2, 255, 2, 5, 1, 0, 0, 0, 0, 0, 0, 0,
        128] := by
    refine ⟨1, [2], [255], [[2, 5], [1, 0, 0, 0, 0, 0, 0, 0, 128]],
      .one 2 (by decide), by decide, ?_, by decide⟩
    refine .cons ⟨[2], by decide, by decide⟩
      (.cons ⟨[1], by decide, by decide⟩ .nil)
  exact parseIntegerRows _ cachesIntegers_twoColumnState (by decide)
    (by decide) hbody

/-! ## Updates -/

/-- A pair of rows as the parser returns it. -/
def RowPair.event {types : List IntegerType} (pair : RowPair types) :
    RowEvent × RowEvent :=
  (pair.1.event, pair.2.event)

/-- The pair whose rows have no value. -/
def RowPair.null (types : List IntegerType) : RowPair types :=
  (IntegerRow.null types, IntegerRow.null types)

theorem event_eq_null_iff {types : List IntegerType} {row : IntegerRow types} :
    row.event = (IntegerRow.null types).event ↔ row = IntegerRow.null types := by
  constructor
  · intro h
    exact IntegerRow.eq_null_of_values_eq (by simpa [IntegerRow.event] using h)
  · rintro rfl
    rfl

theorem RowPair.null_event_eq_iff {types : List IntegerType}
    {pair : RowPair types} :
    (RowPair.null types).event = pair.event ↔ pair = RowPair.null types := by
  obtain ⟨before, after⟩ := pair
  rw [eq_comm]
  simp only [RowPair.event, RowPair.null, Prod.mk.injEq, event_eq_null_iff]

theorem bind_cons_eq_ok_iff {α : Type} {x : Outcome ε (List α)} {a b : α}
    {bs : List α} :
    (do let as ← x; return a :: as) = .ok (b :: bs) ↔ a = b ∧ x = .ok bs := by
  rw [Outcome.bind_eq_ok]
  simp [and_comm]

/-- The loop once the first row of a pair has been read. -/
theorem readRowPairs_of_before {json : JsonParser} {data : Bytes}
    {columnTypes : List UInt8} {metas : List UInt16} {pos n : ℕ}
    {before : List Value} (hn : n ≠ 0) (hpos : pos + n ≤ data.length)
    (hbefore : readRow (ε := ε) json (data.drop pos) columnTypes metas =
      .ok (before, n)) :
    readRowPairs (ε := ε) json data columnTypes metas pos = (do
      let (after, n2) ← readRow json (data.drop (pos + n)) columnTypes metas
      if n2 = 0 then return []
      else
        let rows ← readRowPairs json data columnTypes metas (pos + n + n2)
        return (⟨before⟩, ⟨after⟩) :: rows) := by
  rw [readRowPairs, dif_pos (by omega)]
  simp only [Bytes.sliceFrom, if_pos (Nat.le_of_add_right_le hpos), if_pos hpos,
    Outcome.ok_bind, hbefore, dif_neg hn]

section Shifted

variable {types : List IntegerType} {metas : List UInt16} {data : Bytes}

/-- Reading a row without values. -/
theorem readRow_null (json : JsonParser) (htypes : types ≠ [])
    (hmetas : ∀ m ∈ metas, m = 0) {image rest : Bytes} {pos : ℕ}
    (himage : IsRowImage (IntegerRow.null types) image)
    (hdata : data.drop pos = image ++ rest) :
    readRow (ε := ε) json (data.drop pos) (types.map IntegerType.colType)
      metas = .ok ((IntegerRow.null types).values, image.length) :=
  readRow_eq json htypes hmetas (IntegerRow.readable_null types) himage
    ⟨rest, hdata.symm⟩

theorem readRowPairs_null (json : JsonParser) (htypes : types ≠ [])
    (hmetas : ∀ m ∈ metas, m = 0) {before after rest : Bytes} {pos : ℕ}
    (hbefore : IsRowImage (IntegerRow.null types) before)
    (hafter : IsRowImage (IntegerRow.null types) after)
    (hdata : data.drop pos = before ++ (after ++ rest)) :
    readRowPairs (ε := ε) json data (types.map IntegerType.colType) metas pos =
      (do
        let rows ← readRowPairs json data (types.map IntegerType.colType) metas
          (pos + before.length + after.length)
        return (RowPair.null types).event :: rows) := by
  have hbeforePos := length_pos_of_isRowImage htypes hbefore
  have hafterPos := length_pos_of_isRowImage htypes hafter
  have hlength := congrArg List.length hdata
  rw [List.length_drop, List.length_append] at hlength
  have hdrop : data.drop (pos + before.length) = after ++ rest := by
    rw [← List.drop_drop, hdata, List.drop_left]
  rw [readRowPairs_of_before (by omega) (by omega)
    (readRow_null json htypes hmetas hbefore hdata),
    readRow_null json htypes hmetas hafter hdrop, Outcome.ok_bind]
  dsimp only
  rw [if_neg (by omega)]
  rfl

/-- A row without values in front of the pairs moves every row by one place:
the pairs are read back exactly when no row has a value. -/
theorem readRowPairs_shifted_iff (json : JsonParser) (htypes : types ≠ [])
    (hmetas : ∀ m ∈ metas, m = 0) {pairs : List (RowPair types)}
    {images : List Bytes} (hpairs : List.Forall₂ IsPairImage pairs images)
    {first : Bytes} {pos : ℕ}
    (hfirst : IsRowImage (IntegerRow.null types) first)
    (hdata : data.drop pos = first ++ images.flatten) :
    readRowPairs (ε := ε) json data (types.map IntegerType.colType) metas pos =
        .ok (pairs.map RowPair.event) ↔
      ∀ pair ∈ pairs, pair = RowPair.null types := by
  have hfirstPos := length_pos_of_isRowImage htypes hfirst
  induction hpairs generalizing first pos with
  | nil =>
      have hlength := congrArg List.length hdata
      simp only [List.length_drop, List.flatten_nil, List.append_nil] at hlength
      have hend : data.drop (pos + first.length) = [] :=
        List.drop_eq_nil_of_le (by omega)
      rw [readRowPairs_of_before (by omega) (by omega)
        (readRow_null json htypes hmetas hfirst hdata), hend]
      simp [readRow]
  | @cons pair image pairs images hpair hpairs ih =>
      obtain ⟨before, after⟩ := pair
      obtain ⟨beforeImage, afterImage, hbefore, hafter, rfl⟩ := hpair
      simp only [List.flatten_cons, List.append_assoc] at hdata
      have hlength := congrArg List.length hdata
      rw [List.length_drop, List.length_append] at hlength
      by_cases hnull : before = IntegerRow.null types
      · rw [hnull] at hbefore
        have hafterPos := length_pos_of_isRowImage htypes hafter
        have hdrop : data.drop (pos + first.length + beforeImage.length) =
            afterImage ++ images.flatten := by
          rw [← List.drop_drop, ← List.drop_drop, hdata, List.drop_left,
            List.drop_left]
        rw [readRowPairs_null json htypes hmetas hfirst hbefore hdata,
          List.map_cons, bind_cons_eq_ok_iff, RowPair.null_event_eq_iff,
          List.forall_mem_cons]
        apply and_congr_right
        intro hpair
        have hsame : after = IntegerRow.null types := congrArg Prod.snd hpair
        rw [hsame] at hafter
        exact ih hafter hdrop hafterPos
      · rw [readRowPairs_of_before (by omega) (by omega)
          (readRow_null json htypes hmetas hfirst hdata)]
        constructor
        · intro h
          obtain ⟨⟨after', n⟩, -, hrest⟩ := Outcome.bind_eq_ok.mp h
          dsimp only at hrest
          split at hrest
          · cases hrest
          · have hhead := (bind_cons_eq_ok_iff.mp hrest).1
            exact absurd (event_eq_null_iff.mp (congrArg Prod.fst hhead).symm)
              hnull
        · intro h
          exact absurd (congrArg Prod.fst (h _ List.mem_cons_self)) hnull

/-- Behind two rows without values the loop returns a pair too many. -/
theorem readRowPairs_ne_of_null (json : JsonParser) (htypes : types ≠ [])
    (hmetas : ∀ m ∈ metas, m = 0) {pairs : List (RowPair types)}
    {images : List Bytes} (hpairs : List.Forall₂ IsPairImage pairs images)
    {before after : Bytes} {pos : ℕ}
    (hbefore : IsRowImage (IntegerRow.null types) before)
    (hafter : IsRowImage (IntegerRow.null types) after)
    (hdata : data.drop pos = before ++ (after ++ images.flatten)) :
    readRowPairs (ε := ε) json data (types.map IntegerType.colType) metas pos ≠
      .ok (pairs.map RowPair.event) := by
  rw [readRowPairs_null json htypes hmetas hbefore hafter hdata]
  have hnext : data.drop (pos + before.length + after.length) =
      images.flatten := by
    rw [← List.drop_drop, ← List.drop_drop, hdata, List.drop_left,
      List.drop_left]
  induction hpairs generalizing before after pos with
  | nil =>
      intro h
      obtain ⟨rows, -, hrows⟩ := Outcome.bind_eq_ok.mp h
      cases hrows
  | @cons pair image pairs images hpair hpairs ih =>
      rw [List.map_cons]
      intro h
      obtain ⟨hhead, hrest⟩ := bind_cons_eq_ok_iff.mp h
      obtain ⟨nextBefore, nextAfter, hnextBefore, hnextAfter, rfl⟩ := hpair
      rw [RowPair.null_event_eq_iff] at hhead
      rw [hhead] at hnextBefore hnextAfter
      rw [List.flatten_cons, List.append_assoc] at hnext
      rw [readRowPairs_null json htypes hmetas hnextBefore hnextAfter hnext]
        at hrest
      refine ih hnextBefore hnextAfter hnext ?_ hrest
      rw [← List.drop_drop, ← List.drop_drop, hnext, List.drop_left,
        List.drop_left]

end Shifted

/-! ### Where the parser takes the rows to start -/

/-- A call returns what the loop reads from behind the count and the bitmap
that seem to stand behind the post-header. -/
theorem parseUpdateRows_eq_ok_iff (json : JsonParser) {state : ParserState}
    {version : ℕ} {tableId : UInt64} {flags extraLength : UInt16}
    {rest : Bytes} {bits : List Bool} {n k : ℕ}
    {rows : List (RowEvent × RowEvent)} (hid : tableId.toNat < 256 ^ 6)
    (hbitset : readBitset (ε := String) rest = .ok (bits, n, k)) :
    parseUpdateRows json state
        (postHeader version tableId flags extraLength ++ rest) version =
        .ok (some (.updateRows tableId rows)) ↔
      readRowPairs (ε := String) json
        (postHeader version tableId flags extraLength ++ rest)
        (columnTypesOf state tableId) (columnMetasOf state tableId)
        ((postHeader version tableId flags extraLength).length + k) =
          .ok rows := by
  unfold parseUpdateRows
  rw [rowsHead_eq hid, hbitset]
  simp only [Outcome.ok_bind, Outcome.pure_eq]
  rw [Outcome.bind_eq_ok]
  simp

/-- Without extra data the loop starts at the bitmap of the second image. -/
theorem parseUpdateRows_of_noExtra_iff (json : JsonParser)
    {state : ParserState} {version : ℕ} {tableId : UInt64}
    {flags extraLength : UInt16} {types : List IntegerType}
    {pairs : List (RowPair types)} {count before after : Bytes}
    {images : List Bytes} (hcached : CachesIntegers state tableId types)
    (htypes : types ≠ []) (hcount : LengthEncoded types.length count)
    (hbefore : IsBitmap (List.replicate types.length true) before)
    (hafter : IsBitmap (List.replicate types.length true) after)
    (hpairs : List.Forall₂ IsPairImage pairs images) :
    parseUpdateRows json state
        (postHeader version tableId flags extraLength ++
          (count ++ (before ++ (after ++ images.flatten)))) version =
        .ok (some (.updateRows tableId (pairs.map RowPair.event))) ↔
      ∀ pair ∈ pairs, pair = RowPair.null types := by
  have hlength : before.length = (types.length + 7) / 8 := by
    rw [hbefore.1, List.length_replicate]
  obtain ⟨bits, hbitset⟩ := readBitset_eq (ε := String) hcount
    (List.length_pos_iff.mpr htypes) (before ++ (after ++ images.flatten))
  have hfirst : IsRowImage (IntegerRow.null types) after :=
    ⟨after, by rw [IntegerRow.nulls_null]; exact hafter, by simp⟩
  rw [parseUpdateRows_eq_ok_iff json hcached.tableId_lt hbitset,
    columnTypesOf_eq hcached]
  refine readRowPairs_shifted_iff json htypes (columnMetasOf_eq_zero hcached)
    hpairs hfirst ?_
  rw [← List.drop_drop, List.drop_left, ← List.drop_drop, List.drop_left,
    ← hlength, List.drop_left]

/-- Extra data of any length can look like a count whose bitmap ends where the
count of the event ends. -/
theorem exists_fakeCount {k m : ℕ} (hk : 0 < k) (hkLt : k < 2 ^ 16)
    (hm : 0 < m) (hmLe : m ≤ 9) :
    ∃ c fake padding, LengthEncoded c fake ∧ 0 < c ∧
      (fake ++ padding).length = k ∧ fake.length + (c + 7) / 8 = k + m := by
  by_cases hshort : k < 4
  · refine ⟨8 * (k + m - 1), _, List.replicate (k - 1) 0,
      .one _ (by omega), by omega, ?_, ?_⟩
    · simp only [List.length_append, List.length_singleton,
        List.length_replicate]
      omega
    · rw [List.length_singleton]
      omega
  · refine ⟨8 * (k + m - 4), _, List.replicate (k - 4) 0,
      .three _ (by omega), by omega, ?_, ?_⟩
    · simp only [List.length_append, List.length_cons, Bytes.length_toLe,
        List.length_replicate]
      omega
    · simp only [List.length_cons, Bytes.length_toLe]
      omega

/-- Behind such extra data both bitmaps are taken for rows. -/
theorem parseUpdateRows_ne_of_fakeCount (json : JsonParser)
    {state : ParserState} {version : ℕ} {tableId : UInt64}
    {flags extraLength : UInt16} {types : List IntegerType}
    {pairs : List (RowPair types)} {count before after fake padding : Bytes}
    {images : List Bytes} {c : ℕ} (hcached : CachesIntegers state tableId types)
    (htypes : types ≠ [])
    (hbefore : IsBitmap (List.replicate types.length true) before)
    (hafter : IsBitmap (List.replicate types.length true) after)
    (hpairs : List.Forall₂ IsPairImage pairs images)
    (hfake : LengthEncoded c fake) (hc : 0 < c)
    (hskip : fake.length + (c + 7) / 8 =
      (fake ++ padding).length + count.length) :
    parseUpdateRows json state
        (postHeader version tableId flags extraLength ++ (fake ++ padding ++
          (count ++ (before ++ (after ++ images.flatten))))) version ≠
      .ok (some (.updateRows tableId (pairs.map RowPair.event))) := by
  have hnull : ∀ {bitmap : Bytes},
      IsBitmap (List.replicate types.length true) bitmap →
      IsRowImage (IntegerRow.null types) bitmap := fun {bitmap} h =>
    ⟨bitmap, by rw [IntegerRow.nulls_null]; exact h, by simp⟩
  obtain ⟨bits, hbitset⟩ := readBitset_eq (ε := String) hfake hc
    (padding ++ (count ++ (before ++ (after ++ images.flatten))))
  rw [← List.append_assoc] at hbitset
  intro h
  rw [parseUpdateRows_eq_ok_iff json hcached.tableId_lt hbitset,
    columnTypesOf_eq hcached] at h
  refine readRowPairs_ne_of_null json htypes (columnMetasOf_eq_zero hcached)
    hpairs (hnull hbefore) (hnull hafter) ?_ h
  rw [hskip, ← List.drop_drop, List.drop_left, ← List.drop_drop,
    List.drop_left, List.drop_left]

/-! ### Tables without columns -/

/-- Of a table without columns no pair is read, whatever stands behind the
post-header, if the count there can be read. -/
theorem parseUpdateRows_noColumns_iff (json : JsonParser)
    {state : ParserState} {version : ℕ} {tableId : UInt64}
    {flags extraLength : UInt16} {rest : Bytes}
    {rows : List (RowEvent × RowEvent)} (hcached : CachesIntegers state tableId [])
    (hcount : ¬ CutPacked rest) :
    parseUpdateRows json state
        (postHeader version tableId flags extraLength ++ rest) version =
        .ok (some (.updateRows tableId rows)) ↔ rows = [] := by
  obtain ⟨count, behind, hpacked⟩ := exists_packedInt hcount
  obtain ⟨bits, n, k, hbitset, -⟩ := exists_readBitset (ε := String) hpacked
  rw [parseUpdateRows_eq_ok_iff json hcached.tableId_lt hbitset,
    columnTypesOf_eq hcached, List.map_nil, readRowPairs_noColumns]
  simp [eq_comm]

/-- Extra data that looks like a count of eight bytes and ends too early. -/
theorem parseUpdateRows_ne_of_shortCount (json : JsonParser)
    {state : ParserState} {version : ℕ} {tableId : UInt64}
    {flags extraLength : UInt16} {rest : Bytes} (hid : tableId.toNat < 256 ^ 6)
    (hshort : rest.length < 8) (event : Option BinlogEvent) :
    parseUpdateRows json state
      (postHeader version tableId flags extraLength ++ 254 :: rest) version ≠
        .ok event := by
  intro h
  unfold parseUpdateRows at h
  rw [rowsHead_eq hid,
    readBitset_eq_panicked_iff.mpr ⟨254, rest, rfl, hshort⟩] at h
  cases h

/-! ### When an update is read back -/

theorem exists_forall₂_isPairImage {types : List IntegerType}
    (pairs : List (RowPair types)) :
    ∃ images, List.Forall₂ IsPairImage pairs images := by
  induction pairs with
  | nil => exact ⟨[], .nil⟩
  | cons pair pairs ih =>
      obtain ⟨images, himages⟩ := ih
      obtain ⟨before, hbefore⟩ := exists_isRowImage pair.1
      obtain ⟨after, hafter⟩ := exists_isRowImage pair.2
      exact ⟨_, .cons ⟨before, after, hbefore, hafter, rfl⟩ himages⟩

/-- Whatever the extra data is, the call returns the pairs of the body. -/
def ReturnsPairs (json : JsonParser) (state : ParserState) (version : ℕ)
    (tableId : UInt64) (extraLength : UInt16) {types : List IntegerType}
    (pairs : List (RowPair types)) : Prop :=
  ∀ body, IsUpdateBody version tableId extraLength pairs body →
    parseUpdateRows json state body version =
      .ok (some (.updateRows tableId (pairs.map RowPair.event)))

/-- A TINY column is changed from 5 to 6. -/
def fiveToSix : RowPair [.tiny, .longlong] :=
  (.cons (some ⟨5, by decide⟩) (.cons none .nil),
    .cons (some ⟨6, by decide⟩) (.cons none .nil))

/-- A pair of rows without values is returned instead of this update. -/
theorem not_returnsPairs_fiveToSix :
    ¬ReturnsPairs ⟨fun _ => none, fun _ => none⟩ twoColumnState 2 7 2
      [fiveToSix] := by
  intro h
  have hpairs : List.Forall₂ IsPairImage [fiveToSix] [[2, 5, 2, 6]] :=
    .cons ⟨[2, 5], [2, 6], ⟨[2], by decide, by decide⟩,
      ⟨[2], by decide, by decide⟩, by decide⟩ .nil
  have hall : IsBitmap (List.replicate 2 true) [255] := by decide
  have hbody := h _ ⟨1, [], [2], [255], [255], [[2, 5, 2, 6]], rfl,
    .one 2 (by decide), hall, hall, hpairs, rfl⟩
  have hnull := (parseUpdateRows_of_noExtra_iff _ cachesIntegers_twoColumnState
    (by decide) (.one 2 (by decide)) hall hall hpairs).mp hbody
  have hcells := congrArg (fun pair => pair.1.nulls)
    (hnull fiveToSix List.mem_cons_self)
  revert hcells
  decide

/-- Extra data of zero bytes, as long as it is declared. -/
def zeroExtra (version : ℕ) (extraLength : UInt16) : Bytes :=
  if version = 2 then List.replicate (extraLength.toNat - 2) 0 else []

theorem zeroExtra_length {version : ℕ} {extraLength : UInt16}
    (hlength : 2 ≤ extraLength.toNat) :
    if version = 2 then
      (zeroExtra version extraLength).length + 2 = extraLength.toNat
    else zeroExtra version extraLength = [] := by
  unfold zeroExtra
  by_cases hversion : version = 2
  · simp only [if_pos hversion, List.length_replicate]
    omega
  · simp only [if_neg hversion]

theorem zeroExtra_append_zero (version : ℕ) (extraLength : UInt16) :
    ∃ rest, zeroExtra version extraLength ++ [0] = 0 :: rest := by
  unfold zeroExtra
  by_cases hversion : version = 2
  · simp only [if_pos hversion]
    cases extraLength.toNat - 2 with
    | zero => exact ⟨[], rfl⟩
    | succ n => exact ⟨_, rfl⟩
  · exact ⟨[], by simp only [if_neg hversion]; rfl⟩

section NoColumns

variable {json : JsonParser} {state : ParserState} {version : ℕ}
  {tableId : UInt64} {extraLength : UInt16} {pairs : List (RowPair [])}

/-- Without columns no pair is returned. -/
theorem eq_nil_of_returnsPairs_noColumns
    (hcached : CachesIntegers state tableId [])
    (hlength : 2 ≤ extraLength.toNat)
    (h : ReturnsPairs json state version tableId extraLength pairs) :
    pairs = [] := by
  have hempty : IsBitmap (List.replicate 0 true) [] := by decide
  obtain ⟨images, himages⟩ := exists_forall₂_isPairImage pairs
  have hcount : ¬ CutPacked (zeroExtra version extraLength ++
      ([0] ++ ([] ++ ([] ++ images.flatten)))) := by
    obtain ⟨rest, hrest⟩ := zeroExtra_append_zero version extraLength
    rw [← List.append_assoc, hrest,
      ← readPackedInt_eq_panicked_iff (ε := String)]
    exact Outcome.ok_ne_panicked _
  have hbody := h _ ⟨0, zeroExtra version extraLength, [0], [], [], images,
    zeroExtra_length hlength, .one 0 (by decide), hempty, hempty, himages, rfl⟩
  simpa using (parseUpdateRows_noColumns_iff json hcached hcount).mp hbody

/-- Some bodies are rejected if the extra data has room for the first byte of a
count and not for all of it. -/
theorem extraLength_of_returnsPairs_noColumns
    (hcached : CachesIntegers state tableId [])
    (hlength : 2 ≤ extraLength.toNat) (hversion : version = 2)
    (h : ReturnsPairs json state version tableId extraLength
      ([] : List (RowPair []))) :
    extraLength.toNat = 2 ∨ 10 ≤ extraLength.toNat := by
  have hempty : IsBitmap (List.replicate 0 true) [] := by decide
  by_contra hbad
  refine parseUpdateRows_ne_of_shortCount json hcached.tableId_lt ?_ _
    (h _ ⟨0, 254 :: List.replicate (extraLength.toNat - 3) 0, [0], [], [], [],
      ?_, .one 0 (by decide), hempty, hempty, .nil, rfl⟩)
  · simp
    omega
  · rw [if_pos hversion]
    simp only [List.length_cons, List.length_replicate]
    omega

theorem returnsPairs_noColumns (hcached : CachesIntegers state tableId [])
    (hlong : version = 2 → extraLength.toNat = 2 ∨ 10 ≤ extraLength.toNat) :
    ReturnsPairs json state version tableId extraLength
      ([] : List (RowPair [])) := by
  rintro body
    ⟨flags, extra, count, before, after, images, hlen, hcount, -, -, -, rfl⟩
  refine (parseUpdateRows_noColumns_iff json hcached ?_).mpr rfl
  by_cases hnone : extra = []
  · rw [hnone, List.nil_append,
      ← readPackedInt_eq_panicked_iff (ε := String), readPackedInt_eq hcount]
    exact Outcome.ok_ne_panicked _
  · have hversion : version = 2 := by
      by_contra hversion
      rw [if_neg hversion] at hlen
      exact hnone hlen
    have hpos : 0 < extra.length := List.length_pos_iff.mpr hnone
    have hcountPos := (lengthEncoded_length hcount).1
    rw [if_pos hversion] at hlen
    have hextra := hlong hversion
    apply not_cutPacked_of_le
    simp only [List.length_append]
    omega

end NoColumns

theorem returnsPairs_noColumns_iff (json : JsonParser) {state : ParserState}
    {version : ℕ} {tableId : UInt64} {extraLength : UInt16}
    (pairs : List (RowPair [])) (hcached : CachesIntegers state tableId [])
    (hlength : 2 ≤ extraLength.toNat) :
    ReturnsPairs json state version tableId extraLength pairs ↔
      pairs = [] ∧
        (version = 2 → extraLength.toNat = 2 ∨ 10 ≤ extraLength.toNat) := by
  constructor
  · intro h
    have hpairs := eq_nil_of_returnsPairs_noColumns hcached hlength h
    rw [hpairs] at h
    exact ⟨hpairs, fun hversion =>
      extraLength_of_returnsPairs_noColumns hcached hlength hversion h⟩
  · rintro ⟨rfl, hlong⟩
    exact returnsPairs_noColumns hcached hlong

theorem returnsPairs_columns_iff (json : JsonParser) {state : ParserState}
    {version : ℕ} {tableId : UInt64} {extraLength : UInt16}
    {types : List IntegerType} (pairs : List (RowPair types))
    (hcached : CachesIntegers state tableId types) (htypes : types ≠ [])
    (hlength : 2 ≤ extraLength.toNat) :
    ReturnsPairs json state version tableId extraLength pairs ↔
      (version = 2 → extraLength.toNat = 2) ∧
        ∀ pair ∈ pairs, pair = RowPair.null types := by
  obtain ⟨images, himages⟩ := exists_forall₂_isPairImage pairs
  obtain ⟨count, hcount⟩ := exists_lengthEncoded hcached.length_lt
  have hall := isBitmap_bitmapOf (List.replicate types.length true)
  constructor
  · intro h
    have hnone : version = 2 → extraLength.toNat = 2 := by
      intro hversion
      by_contra hne
      have hlt := extraLength.toNat_lt
      obtain ⟨c, fake, padding, hfake, hc, hlen, hskip⟩ := exists_fakeCount
        (k := extraLength.toNat - 2) (by omega) (by omega)
        (lengthEncoded_length hcount).1 (lengthEncoded_length hcount).2
      refine parseUpdateRows_ne_of_fakeCount json hcached htypes hall hall
        himages hfake hc (by rw [hskip, hlen]) (h _ ⟨0, fake ++ padding,
          count, _, _, images, ?_, hcount, hall, hall, himages, rfl⟩)
      rw [if_pos hversion, hlen]
      omega
    refine ⟨hnone, ?_⟩
    refine (parseUpdateRows_of_noExtra_iff json hcached htypes hcount hall
      hall himages).mp (h _ ⟨0, [], count, _, _, images, ?_, hcount, hall,
        hall, himages, rfl⟩)
    by_cases hversion : version = 2
    · rw [if_pos hversion, hnone hversion]
      rfl
    · rw [if_neg hversion]
  · rintro ⟨hnone, hnull⟩ body
      ⟨flags, extra, count, before, after, images, hlen, hcount, hbefore,
        hafter, hpairs, rfl⟩
    have hextra : extra = [] := by
      by_cases hversion : version = 2
      · rw [if_pos hversion, hnone hversion] at hlen
        exact List.length_eq_zero_iff.mp (by omega)
      · rwa [if_neg hversion] at hlen
    rw [hextra]
    exact (parseUpdateRows_of_noExtra_iff json hcached htypes hcount hbefore
      hafter hpairs).mpr hnull

/-- An update is read back exactly when it has no extra data and no row of it
has a value; of a table without columns, when there is no pair and the extra
data cannot end within a count. -/
theorem returnsPairs_iff (json : JsonParser) {state : ParserState}
    {version : ℕ} {tableId : UInt64} {extraLength : UInt16}
    {types : List IntegerType} (pairs : List (RowPair types))
    (hcached : CachesIntegers state tableId types)
    (hlength : 2 ≤ extraLength.toNat) :
    ReturnsPairs json state version tableId extraLength pairs ↔
      if types = [] then
        pairs = [] ∧ (version = 2 →
          extraLength.toNat = 2 ∨ 10 ≤ extraLength.toNat)
      else
        (version = 2 → extraLength.toNat = 2) ∧
          ∀ pair ∈ pairs, pair = RowPair.null types := by
  by_cases htypes : types = []
  · subst htypes
    rw [if_pos rfl]
    exact returnsPairs_noColumns_iff json pairs hcached hlength
  · rw [if_neg htypes]
    exact returnsPairs_columns_iff json pairs hcached htypes hlength

/-- Two rows without values are read back. -/
theorem returnsPairs_twoNulls :
    ReturnsPairs ⟨fun _ => none, fun _ => none⟩ twoColumnState 2 7 2
      [RowPair.null [.tiny, .longlong]] :=
  (returnsPairs_iff _ _ cachesIntegers_twoColumnState (by decide)).mpr
    ⟨fun _ => rfl, by simp⟩

end OpenCdc.Mysql
