import OpenCdc.Foundation.Utf8
import OpenCdc.Postgres.CutOff

/-!
# Relation messages as the server sends them

In a relation message of the pgoutput plugin one byte tells the replica
identity.  The decoder takes two bytes for it, so that it reads everything
behind them one byte too far.
-/

namespace OpenCdc.Postgres

open Foundation

/-! ## The layout -/

def NulFree (s : String) : Prop := ∀ c ∈ s.toList, c.toNat ≠ 0

instance (s : String) : Decidable (NulFree s) :=
  inferInstanceAs (Decidable (∀ c ∈ s.toList, c.toNat ≠ 0))

/-- A relation message with what the decoded one leaves out. -/
structure SentRelation where
  message : RelationMessage
  replicaIdentity : UInt8
  schema_nulFree : NulFree message.schema
  name_nulFree : NulFree message.name
  columns_nulFree : ∀ column ∈ message.columns, NulFree column.name
  hcount : message.columns.length ≤ 65535

def encodeCString (s : String) : Bytes := encodeUtf8 s.toList ++ [0]

def RelationColumn.encode (column : RelationColumn) : Bytes :=
  column.flags.toUInt8 :: (encodeCString column.name ++
    (encodeU32 column.typeOid ++ encodeU32 column.typeModifier.toUInt32))

namespace SentRelation

/-- What stands in front of the replica identity. -/
def head (r : SentRelation) : Bytes :=
  encodeU32 r.message.oid ++ (encodeCString r.message.schema ++
    encodeCString r.message.name)

/-- A body with the bytes that stand for the replica identity. -/
def body (r : SentRelation) (identity : Bytes) : Bytes :=
  r.head ++ (identity ++ (Bytes.toBe 2 r.message.columns.length ++
    r.message.columns.flatMap (·.encode)))

/-- The layout of the plugin. -/
def encode (r : SentRelation) : Bytes :=
  tagByte 'R' :: r.body [r.replicaIdentity]

/-- The layout that the tests of the decoder build. -/
def encodeWide (r : SentRelation) : Bytes :=
  tagByte 'R' :: r.body [0, r.replicaIdentity]

end SentRelation

/-! ## Reading fields -/

theorem readString_encodeCString {data : Bytes} {offset : ℕ} {s : String}
    (hs : NulFree s) (h : encodeCString s <+: data.drop offset) :
    (readString data).run offset =
      .ok (s, offset + (encodeCString s).length) := by
  rw [readString_eq_ok (zero_notMem_encodeUtf8 hs) h, fromUtf8Lossy_encodeUtf8,
    encodeCString, List.length_append, List.length_singleton, Nat.add_assoc]

theorem le_of_isPrefix_drop {data enc : Bytes} {offset : ℕ} (henc : enc ≠ [])
    (h : enc <+: data.drop offset) : offset ≤ data.length := by
  by_contra hlt
  rw [List.drop_eq_nil_of_le (by omega)] at h
  exact henc (List.prefix_nil.mp h)

theorem readU16Be_eq_ok {data enc : Bytes} {offset : ℕ}
    (hlength : enc.length = 2) (h : enc <+: data.drop offset) :
    (readU16Be data).run offset =
      .ok (UInt16.ofNat (Bytes.ofBe enc), offset + 2) := by
  have hne : enc ≠ [] := by
    rintro rfl
    cases hlength
  have hvalue : encodeU16 (UInt16.ofNat (Bytes.ofBe enc)) = enc := by
    rw [encodeU16, UInt16.toNat_ofNat']
    exact Bytes.toBe_ofBe_mod hlength
  exact (recognises_readU16Be data offset (le_of_isPrefix_drop hne h) _ _).mpr
    ⟨enc, hvalue.symm, h, by rw [hlength]⟩

theorem readU32Be_eq_ok {data : Bytes} {offset : ℕ} {n : UInt32}
    (h : encodeU32 n <+: data.drop offset) :
    (readU32Be data).run offset = .ok (n, offset + 4) := by
  have hlength : (encodeU32 n).length = 4 := Bytes.length_toBe 4 _
  have hne : encodeU32 n ≠ [] := by
    intro hnil
    rw [hnil] at hlength
    cases hlength
  exact (recognises_readU32Be data offset (le_of_isPrefix_drop hne h) _ _).mpr
    ⟨_, rfl, h, by rw [hlength]⟩

/-! ## One byte too far -/

namespace SentRelation

theorem length_head (r : SentRelation) :
    r.head.length = 4 + (encodeCString r.message.schema).length +
      (encodeCString r.message.name).length := by
  simp [head, encodeU32, Nat.add_assoc]

theorem isPrefix_body (r : SentRelation) (identity : Bytes) :
    encodeU32 r.message.oid <+: (r.body identity).drop 0 ∧
      encodeCString r.message.schema <+: (r.body identity).drop 4 ∧
      encodeCString r.message.name <+: (r.body identity).drop
        (4 + (encodeCString r.message.schema).length) := by
  have hbody : r.head <+: (r.body identity).drop 0 := List.prefix_append _ _
  unfold head at hbody
  simp only [Bytes.append_isPrefix_drop_iff] at hbody
  have hword : (encodeU32 r.message.oid).length = 4 := Bytes.length_toBe 4 _
  rw [hword, Nat.zero_add] at hbody
  exact hbody

/-- Behind the names the decoder takes two bytes for the identity, whatever
they are. -/
theorem run_decodeRelation (r : SentRelation) (identity : Bytes) :
    (decodeRelation (r.body identity)).run 0 =
      (do
        let colCount ← readU16Be (r.body identity)
        let columns ← Cursor.times (decodeRelationColumn (r.body identity))
          colCount.toNat
        return ⟨r.message.oid, r.message.schema, r.message.name, columns⟩ :
          Cursor Error RelationMessage).run (r.head.length + 2) := by
  obtain ⟨hoid, hschema, hname⟩ := r.isPrefix_body identity
  have htwo := takes_readI16Be (r.body identity) r.head.length (by simp [body])
  have hfits : 2 ≤ ((r.body identity).drop r.head.length).length := by
    rw [body, List.drop_left]
    simp only [List.length_append, Bytes.length_toBe]
    omega
  rw [if_neg (Nat.not_lt.mpr hfits)] at htwo
  obtain ⟨replicaIdentity, htwo⟩ := htwo
  rw [length_head] at htwo ⊢
  simp only [decodeRelation, StateT.run_bind, readU32Be_eq_ok hoid,
    Outcome.ok_bind, Nat.zero_add,
    readString_encodeCString r.schema_nulFree hschema,
    readString_encodeCString r.name_nulFree hname, htwo]

/-- A column that is read from its name on is not the column that was sent:
its flags are the first byte of the name, and its name lacks this byte. -/
theorem run_decodeRelationColumn_ne {data : Bytes} {offset next : ℕ}
    {column : RelationColumn} (hname : NulFree column.name)
    (hflags : column.flags.toUInt8 ≠ 0)
    (h : encodeCString column.name <+: data.drop offset) :
    (decodeRelationColumn data).run offset ≠ .ok (column, next) := by
  intro hrun
  obtain ⟨⟨flags, behindFlags⟩, hreadFlags, hrun⟩ :=
    Outcome.bind_eq_ok.mp hrun
  obtain ⟨⟨name, behindName⟩, hreadName, hrun⟩ := Outcome.bind_eq_ok.mp hrun
  obtain ⟨⟨typeOid, behindOid⟩, -, hrun⟩ := Outcome.bind_eq_ok.mp hrun
  obtain ⟨⟨typeModifier, behindModifier⟩, -, hrun⟩ :=
    Outcome.bind_eq_ok.mp hrun
  have hcolumn : (⟨flags, name, typeOid, typeModifier⟩, behindModifier) =
      (column, next) := Outcome.ok.inj hrun
  obtain ⟨rfl, -⟩ := Prod.mk.inj hcolumn
  obtain ⟨_, rfl, hbyte, rfl⟩ := (recognises_readI8 data offset
    (le_of_isPrefix_drop (by simp [encodeCString]) h) flags behindFlags).mp
    hreadFlags
  cases hname' : encodeUtf8 name.toList with
  | nil =>
      -- the flags are the zero byte that ends the empty name
      rw [encodeCString, hname', List.nil_append] at h
      have hzero := (List.prefix_of_prefix_length_le hbyte h (by simp)).eq_of_length
        (by simp)
      exact hflags (List.singleton_inj.mp hzero)
  | cons b tail =>
      rw [encodeCString, hname', List.cons_append, ← List.singleton_append,
        Bytes.append_isPrefix_drop_iff] at h
      have htail : (0 : UInt8) ∉ tail := fun hmem =>
        zero_notMem_encodeUtf8 hname (hname' ▸ List.mem_cons_of_mem b hmem)
      have hread := (readString_eq_ok htail h.2).symm.trans hreadName
      have hlossy : fromUtf8Lossy tail = name :=
        (Prod.mk.inj (Outcome.ok.inj hread)).1
      have hne : name.toList ≠ [] := by
        intro hnil
        simp [hnil] at hname'
      apply utf8Lossy_tail_encodeUtf8_ne hne
      rw [hname', List.tail_cons, ← hlossy, fromUtf8Lossy, String.toList_ofList]

/-- The bytes behind those that are taken for the identity. -/
theorem drop_body (r : SentRelation) :
    (r.body [r.replicaIdentity]).drop (r.head.length + 2) =
      UInt8.ofNat r.message.columns.length ::
        r.message.columns.flatMap (·.encode) := by
  rw [body, ← List.drop_drop, List.drop_left]
  simp [Bytes.toBe, Bytes.toLe]

/-- The count that the decoder reads is the low byte of the count that was
sent, in front of the flags of the first column. -/
theorem exists_column_of_readU16Be {r : SentRelation} {colCount : UInt16}
    {next : ℕ}
    (h : (readU16Be (r.body [r.replicaIdentity])).run (r.head.length + 2) =
      .ok (colCount, next)) :
    ∃ column columns, r.message.columns = column :: columns ∧
      next = r.head.length + 4 ∧
      colCount.toNat = r.message.columns.length % 256 * 256 +
        column.flags.toUInt8.toNat := by
  have hdrop := r.drop_body
  have hstart : r.head.length + 2 ≤ (r.body [r.replicaIdentity]).length := by
    by_contra hlt
    rw [List.drop_eq_nil_of_le (by omega)] at hdrop
    cases hdrop
  obtain ⟨_, rfl, hbytes, rfl⟩ :=
    (recognises_readU16Be _ _ hstart colCount next).mp h
  rw [hdrop] at hbytes
  have hlength : (encodeU16 colCount).length = 2 := Bytes.length_toBe 2 _
  cases hcolumns : r.message.columns with
  | nil =>
      have hshort := hbytes.length_le
      simp [hcolumns, hlength] at hshort
  | cons column columns =>
      refine ⟨column, columns, rfl, by rw [hlength], ?_⟩
      have henc : encodeU16 colCount =
          [UInt8.ofNat r.message.columns.length, column.flags.toUInt8] := by
        rw [hcolumns, List.flatMap_cons, RelationColumn.encode] at hbytes
        have htake := List.prefix_iff_eq_take.mp hbytes
        rw [hlength] at htake
        simpa [hcolumns] using htake
      have hvalue := congrArg Bytes.ofBe henc
      have hlt : colCount.toNat < 256 ^ 2 := colCount.toNat_lt
      rw [encodeU16, Bytes.ofBe_toBe, Nat.mod_eq_of_lt hlt] at hvalue
      simp only [Bytes.ofBe, List.reverse_cons, List.reverse_nil,
        List.nil_append, List.singleton_append, Bytes.ofLe_cons,
        Bytes.ofLe_nil, UInt8.toNat_ofNat', hcolumns] at hvalue
      rw [hvalue]
      omega

/-- The decoder never returns the message that was sent. -/
theorem decode_encode_ne (r : SentRelation) (decoder : PgOutputDecoder) :
    (decoder.decode r.encode).1 ≠ .ok (some (.relation r.message)) := by
  intro hdecode
  have hrun : ∃ next, (decodeRelation (r.body [r.replicaIdentity])).run 0 =
      .ok (r.message, next) := by
    rw [encode, PgOutputDecoder.decode_relation] at hdecode
    split at hdecode
    next msg next hrun =>
      cases hdecode
      exact ⟨next, hrun⟩
    next => cases hdecode
    next => cases hdecode
  obtain ⟨next, hrun⟩ := hrun
  rw [run_decodeRelation, StateT.run_bind] at hrun
  obtain ⟨⟨colCount, behindCount⟩, hcount, hrun⟩ := Outcome.bind_eq_ok.mp hrun
  obtain ⟨⟨columns, behindColumns⟩, hcolumns, hrun⟩ :=
    Outcome.bind_eq_ok.mp hrun
  have hmessage : columns = r.message.columns :=
    congrArg (fun out => out.1.columns) (Outcome.ok.inj hrun)
  subst hmessage
  obtain ⟨column, rest, hsent, rfl, hvalue⟩ := exists_column_of_readU16Be hcount
  have hlength : r.message.columns.length = colCount.toNat :=
    Cursor.length_of_times_eq_ok hcolumns
  have hbound := r.hcount
  -- without flags the count would be a multiple of 256 and its own low byte
  have hflags : column.flags.toUInt8 ≠ 0 := by
    intro hzero
    rw [hzero, UInt8.toNat_zero] at hvalue
    rw [hsent, List.length_cons] at hvalue hlength hbound
    omega
  rw [← hlength, hsent, List.length_cons] at hcolumns
  obtain ⟨_, _, middle, hfirst, -, hcons⟩ :=
    Cursor.times_succ_eq_ok_iff.mp hcolumns
  obtain ⟨rfl, rfl⟩ := List.cons.inj hcons
  have hname := r.columns_nulFree column (hsent ▸ List.mem_cons_self)
  refine run_decodeRelationColumn_ne hname hflags ?_ hfirst
  have hdrop := r.drop_body
  rw [hsent, List.flatMap_cons, RelationColumn.encode] at hdrop
  have hbehind := congrArg (List.drop 2) hdrop
  rw [List.drop_drop] at hbehind
  exact ⟨_, by simpa using hbehind.symm⟩

/-- A table with one column. -/
def users : SentRelation where
  message := ⟨16384, "public", "users", [⟨1, "id", 23, -1⟩]⟩
  replicaIdentity := tagByte 'd'
  schema_nulFree := by simp [NulFree]
  name_nulFree := by simp [NulFree]
  columns_nulFree := by simp [NulFree]
  hcount := by decide

/-- Of one column the decoder makes 257, and panics on the second. -/
theorem decode_encode_users :
    (({} : PgOutputDecoder).decode users.encode).1 ≠
      .ok (some (.relation users.message)) := by
  decide

/-! ## The layout that is read -/

theorem run_decodeRelationColumn {data : Bytes} {offset : ℕ}
    {column : RelationColumn} (hname : NulFree column.name)
    (h : column.encode <+: data.drop offset) :
    (decodeRelationColumn data).run offset =
      .ok (column, offset + column.encode.length) := by
  have hlength : column.encode.length =
      1 + (encodeCString column.name).length + 4 + 4 := by
    simp [RelationColumn.encode, encodeU32]
    omega
  rw [RelationColumn.encode, ← List.singleton_append] at h
  simp only [Bytes.append_isPrefix_drop_iff] at h
  obtain ⟨hflags, hcstring, hoid, hmodifier⟩ := h
  have hword : (encodeU32 column.typeOid).length = 4 := Bytes.length_toBe 4 _
  rw [hword] at hmodifier
  have hreadFlags := (recognises_readI8 data offset
    (le_of_isPrefix_drop (List.cons_ne_nil _ _) hflags) _ _).mpr
      ⟨_, rfl, hflags, rfl⟩
  have hreadModifier := (recognises_readI32Be data _
    (le_of_isPrefix_drop (by simp [encodeU32, Bytes.toBe, Bytes.toLe])
      hmodifier) _ _).mpr ⟨_, rfl, hmodifier, rfl⟩
  simp only [decodeRelationColumn, StateT.run_bind, hreadFlags,
    Outcome.ok_bind, readString_encodeCString hname hcstring,
    readU32Be_eq_ok hoid, hreadModifier]
  rw [hlength]
  simp [encodeU32, Nat.add_assoc]

theorem run_times_decodeRelationColumn {data : Bytes} {offset : ℕ}
    {columns : List RelationColumn}
    (hnames : ∀ column ∈ columns, NulFree column.name)
    (h : columns.flatMap (·.encode) <+: data.drop offset) :
    ∃ next, (Cursor.times (decodeRelationColumn data) columns.length).run
      offset = .ok (columns, next) := by
  induction columns generalizing offset with
  | nil => exact ⟨offset, rfl⟩
  | cons column columns ih =>
      rw [List.flatMap_cons, Bytes.append_isPrefix_drop_iff] at h
      obtain ⟨hname, hnames⟩ := List.forall_mem_cons.mp hnames
      obtain ⟨next, hrest⟩ := ih hnames h.2
      exact ⟨next, Cursor.times_succ_eq_ok_iff.mpr
        ⟨column, columns, _, run_decodeRelationColumn hname h.1, hrest, rfl⟩⟩

/-- With an identity of two bytes the decoder returns the message. -/
theorem decode_encodeWide (r : SentRelation) (decoder : PgOutputDecoder) :
    (decoder.decode r.encodeWide).1 = .ok (some (.relation r.message)) := by
  have hbehind : Bytes.toBe 2 r.message.columns.length ++
      r.message.columns.flatMap (·.encode) <+:
        (r.body [0, r.replicaIdentity]).drop (r.head.length + 2) := by
    rw [body, ← List.drop_drop, List.drop_left]
    exact List.prefix_rfl
  obtain ⟨hcount, hcolumns⟩ := Bytes.append_isPrefix_drop_iff.mp hbehind
  have hread := readU16Be_eq_ok (Bytes.length_toBe 2 _) hcount
  have hbound := r.hcount
  rw [Bytes.ofBe_toBe, Nat.mod_eq_of_lt (by omega)] at hread
  have htoNat : (UInt16.ofNat r.message.columns.length).toNat =
      r.message.columns.length := by
    rw [UInt16.toNat_ofNat', Nat.mod_eq_of_lt (by omega)]
  rw [Bytes.length_toBe] at hcolumns
  obtain ⟨next, hcolumns⟩ :=
    run_times_decodeRelationColumn r.columns_nulFree hcolumns
  have hrun : (decodeRelation (r.body [0, r.replicaIdentity])).run 0 =
      .ok (r.message, next) := by
    rw [run_decodeRelation]
    simp only [StateT.run_bind, hread, Outcome.ok_bind, htoNat, hcolumns,
      StateT.run_pure, Outcome.pure_eq]
  rw [encodeWide, PgOutputDecoder.decode_relation, hrun]

end SentRelation
end OpenCdc.Postgres
