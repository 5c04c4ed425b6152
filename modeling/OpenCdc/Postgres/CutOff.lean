import OpenCdc.Foundation.Overrun
import OpenCdc.Postgres.RelationLayout

/-!
# Chunks that end too early

The decoder checks some lengths and indexes without a check elsewhere.  It
panics on just the chunks that end inside a field that it reads unchecked.
-/

namespace OpenCdc.Postgres

open Foundation

/-! ## Cut messages -/

/-- A tuple that ends in its count, or in the length of a text column. -/
def CutTuple (rest : Bytes) : Prop :=
  rest.length < 2 ∨ ∃ (count : UInt16) (columns : List WireColumn)
    (short : Bytes), columns.length < count.toNat ∧ short.length < 4 ∧
      rest = encodeU16 count ++
        (columns.flatMap (·.encode) ++ tagByte 't' :: short)

/-- The tuples of an update that end in one of them. -/
def CutUpdateTuples (rest : Bytes) : Prop :=
  (∃ tail, CutTuple tail ∧ rest = tagByte 'N' :: tail) ∨
    ∃ (tag : OldTag) (tail : Bytes), rest = tagByte tag.char :: tail ∧
      (CutTuple tail ∨ ∃ (old : WireTuple) (tail' : Bytes), CutTuple tail' ∧
        tail = old.encode ++ tagByte 'N' :: tail')

/-- The bodies of row messages that end too early, by what may stand behind
the relation. -/
def CutBehindOid (tuples : Bytes → Prop) (body : Bytes) : Prop :=
  body.length < 4 ∨ ∃ (oid : UInt32) (rest : Bytes), tuples rest ∧
    body = encodeU32 oid ++ rest

/-- A chunk that ends inside a field that is read without a check. -/
inductive CutOff : Bytes → Prop
  | begin (body : Bytes) (h : body.length < 20) : CutOff (tagByte 'B' :: body)
  | commit (body : Bytes) (h : body.length < 25) :
      CutOff (tagByte 'C' :: body)
  | relation (body : Bytes)
      (h : ∀ w : WireRelation, ¬ w.encode <+: tagByte 'R' :: body) :
      CutOff (tagByte 'R' :: body)
  | insert (body : Bytes)
      (h : CutBehindOid (fun rest => ∃ tail, CutTuple tail ∧
        rest = tagByte 'N' :: tail) body) :
      CutOff (tagByte 'I' :: body)
  | update (body : Bytes) (h : CutBehindOid CutUpdateTuples body) :
      CutOff (tagByte 'U' :: body)
  | delete (body : Bytes)
      (h : CutBehindOid (fun rest => ∃ (tag : OldTag) (tail : Bytes),
        CutTuple tail ∧ rest = tagByte tag.char :: tail) body) :
      CutOff (tagByte 'D' :: body)
  | truncate (body : Bytes)
      (h : body.length < 5 ∨ ∃ (numRels : UInt32) (options : UInt8)
        (oids : Bytes), oids.length < 4 * numRels.toNat ∧
          body = encodeU32 numRels ++ options :: oids) :
      CutOff (tagByte 'T' :: body)

/-! ## Fixed-width fields -/

theorem takes_readI8 : Takes readI8 1 :=
  Takes.nextByte.bind fun _ => Takes.pure _

theorem takes_readI16Be : Takes readI16Be 2 :=
  (Takes.readBytes 2).bind fun _ => Takes.pure _

theorem takes_readI32Be : Takes readI32Be 4 :=
  (Takes.readBytes 4).bind fun _ => Takes.pure _

theorem takes_readI64Be : Takes readI64Be 8 :=
  (Takes.readBytes 8).bind fun _ => Takes.pure _

theorem takes_readU16Be : Takes readU16Be 2 :=
  takes_readI16Be.bind fun _ => Takes.pure _

theorem takes_readU32Be : Takes readU32Be 4 :=
  takes_readI32Be.bind fun _ => Takes.pure _

theorem takes_decodeBegin : Takes decodeBegin 20 :=
  takes_readI64Be.bind fun _ => takes_readI64Be.bind fun _ =>
    takes_readU32Be.bind fun _ => Takes.pure _

theorem takes_decodeCommit : Takes decodeCommit 25 :=
  takes_readI8.bind fun _ => takes_readI64Be.bind fun _ =>
    takes_readI64Be.bind fun _ => takes_readI64Be.bind fun _ => Takes.pure _

/-! ## Tuples -/

theorem overruns_decodeTextValue :
    Overruns decodeTextValue (Shortage.shorter 4) := by
  refine (Overruns.bind recognises_readI32Be takes_readI32Be.overruns
    (T := fun _ _ => False) fun rawLen => ?_).congr fun rest => ?_
  · by_cases hneg : rawLen < 0
    · simp only [if_pos hneg]
      exact Overruns.throw _
    · simp only [if_neg hneg]
      exact (Overruns.takeSlice _ _).map textColumn
  · simp [Shortage.seq]

theorem overruns_decodeColumnOfKind (kind : UInt8) :
    Overruns (decodeColumnOfKind kind)
      (fun rest => kind = tagByte 't' ∧ rest.length < 4) := by
  unfold decodeColumnOfKind
  split
  case h_1 hchar =>
    obtain rfl := (toChar_eq_iff (by decide)).mp hchar
    exact (Overruns.pure _).congr fun rest =>
      iff_of_false id (fun h => absurd h.1 (by decide))
  case h_2 hchar =>
    obtain rfl := (toChar_eq_iff (by decide)).mp hchar
    exact (Overruns.pure _).congr fun rest =>
      iff_of_false id (fun h => absurd h.1 (by decide))
  case h_3 hchar =>
    obtain rfl := (toChar_eq_iff (by decide)).mp hchar
    exact overruns_decodeTextValue.congr fun rest =>
      (and_iff_right rfl).symm
  case h_4 _ _ htext =>
    refine (Overruns.throw _).congr fun rest => iff_of_false id ?_
    rintro ⟨rfl, -⟩
    exact htext rfl

theorem overruns_decodeTupleColumn :
    Overruns decodeTupleColumn
      (fun rest => ∃ short : Bytes, short.length < 4 ∧
        rest = tagByte 't' :: short) := by
  apply (Overruns.dispatch overruns_decodeColumnOfKind).congr
  intro rest
  constructor
  · rintro ⟨_, short, ⟨rfl, hshort⟩, rfl⟩
    exact ⟨short, hshort, rfl⟩
  · rintro ⟨short, hshort, rfl⟩
    exact ⟨_, short, ⟨rfl, hshort⟩, rfl⟩

theorem overruns_decodeTupleData : Overruns decodeTupleData CutTuple := by
  refine (Overruns.bind recognises_readU16Be takes_readU16Be.overruns
    fun colCount => Overruns.times recognises_decodeTupleColumn
      overruns_decodeTupleColumn colCount.toNat).congr fun rest => ?_
  rw [Shortage.seq_ofEncode_iff]
  apply or_congr_right
  constructor
  · rintro ⟨count, _, ⟨k, hk, _, _, _, hhead, ⟨short, hshort, rfl⟩, rfl⟩,
      rfl⟩
    obtain ⟨columns, rfl, rfl, rfl⟩ := Format.list_image_iff.mp hhead
    exact ⟨count, columns, short, hk, hshort, rfl⟩
  · rintro ⟨count, columns, short, hk, hshort, rfl⟩
    exact ⟨count, _, ⟨columns.length, hk, _, _, _,
      Format.list_image_iff.mpr ⟨columns, rfl, rfl, rfl⟩,
      ⟨short, hshort, rfl⟩, rfl⟩, rfl⟩

theorem overruns_tupleAt : Overruns tupleAt CutTuple :=
  overruns_decodeTupleData.onRest

/-! ## Message bodies -/

/-- Tuples behind the relation and a tag that selects how they are read. -/
theorem overruns_behindOid {α : Type} {e : Error}
    {next : UInt32 → Bytes → UInt8 → Cursor Error α}
    {T : UInt8 → Bytes → Prop} {tuples : Bytes → Prop}
    (hT : ∀ oid b, Overruns (fun data => next oid data b) (T b))
    (htuples : ∀ rest, (∃ b tail, T b tail ∧ rest = b :: tail) ↔
      tuples rest) :
    Overruns
      (fun data => readU32Be data >>= fun oid =>
        Cursor.ensureMore e data >>= fun _ =>
          Cursor.nextByte data >>= next oid data)
      (CutBehindOid tuples) := by
  refine (Overruns.bind recognises_readU32Be takes_readU32Be.overruns
    fun oid => Overruns.dispatch (hT oid)).congr fun rest => ?_
  rw [Shortage.seq_ofEncode_iff]
  simp only [htuples]
  rfl

theorem overruns_tagged {α : Type} {read : Bytes → Cursor Error α}
    {S : Bytes → Prop} (hread : Overruns read S) (tag : Char)
    (htag : tag.toNat < 256) (e : Error) (b : UInt8) :
    Overruns
      (fun data => if b.toChar ≠ tag then throw e else read data)
      (fun rest => b = tagByte tag ∧ S rest) := by
  by_cases hchar : b.toChar = tag
  · have hbyte := (toChar_eq_iff htag).mp hchar
    simp only [ne_eq, hchar, not_true, if_false]
    exact hread.congr fun rest => by simp [hbyte]
  · have hbyte := mt (toChar_eq_iff htag).mpr hchar
    simp only [ne_eq, hchar, not_false_iff, if_true]
    exact (Overruns.throw _).congr fun rest => by simp [hbyte]

theorem exists_tagged_iff {S : Bytes → Prop} {tag : Char} {rest : Bytes} :
    (∃ b tail, (b = tagByte tag ∧ S tail) ∧ rest = b :: tail) ↔
      ∃ tail, S tail ∧ rest = tagByte tag :: tail := by
  constructor
  · rintro ⟨_, tail, ⟨rfl, h⟩, rfl⟩
    exact ⟨tail, h, rfl⟩
  · rintro ⟨tail, h, rfl⟩
    exact ⟨_, tail, ⟨rfl, h⟩, rfl⟩

theorem overruns_decodeInsert :
    Overruns decodeInsert (CutBehindOid fun rest => ∃ tail, CutTuple tail ∧
      rest = tagByte 'N' :: tail) :=
  overruns_behindOid
    (fun oid b => overruns_tagged
      (overruns_tupleAt.map fun newTuple => InsertMessage.mk oid newTuple)
      'N' (by decide) _ b)
    fun _ => exists_tagged_iff

theorem overruns_decodeNewAfterOld (oldType : Char) :
    Overruns (decodeNewAfterOld oldType) (fun rest => ∃ tail, CutTuple tail ∧
      rest = tagByte 'N' :: tail) :=
  (Overruns.dispatch fun b => overruns_tagged overruns_tupleAt 'N'
    (by decide) _ b).congr fun _ => exists_tagged_iff

theorem overruns_oldAndNew (oldType : Char) :
    Overruns
      (fun data => do
        let oldTup ← tupleAt data
        let newTup ← decodeNewAfterOld oldType data
        return (some oldTup, newTup))
      (fun rest => CutTuple rest ∨ ∃ (old : WireTuple) (tail : Bytes),
        CutTuple tail ∧ rest = old.encode ++ tagByte 'N' :: tail) := by
  refine (Overruns.bind recognises_tupleAt overruns_tupleAt fun oldTup =>
    (overruns_decodeNewAfterOld oldType).map fun newTup =>
      (some oldTup, newTup)).congr fun rest => ?_
  apply or_congr_right
  constructor
  · rintro ⟨_, _, _, ⟨old, rfl, rfl⟩, ⟨tail, htail, rfl⟩, rfl⟩
    exact ⟨old, tail, htail, rfl⟩
  · rintro ⟨old, tail, htail, rfl⟩
    exact ⟨_, _, _, ⟨old, rfl, rfl⟩, ⟨tail, htail, rfl⟩, rfl⟩

/-- What an update panics on behind its first tag. -/
def CutUpdateBehind (b : UInt8) (tail : Bytes) : Prop :=
  b = tagByte 'N' ∧ CutTuple tail ∨
    (∃ tag : OldTag, b = tagByte tag.char) ∧
      (CutTuple tail ∨ ∃ (old : WireTuple) (tail' : Bytes), CutTuple tail' ∧
        tail = old.encode ++ tagByte 'N' :: tail')

theorem overruns_decodeUpdateTuples (b : UInt8) :
    Overruns (decodeUpdateTuples b) (CutUpdateBehind b) := by
  have hold : ∀ tag : OldTag, ∀ tail, CutUpdateBehind (tagByte tag.char) tail ↔
      (CutTuple tail ∨ ∃ (old : WireTuple) (tail' : Bytes), CutTuple tail' ∧
        tail = old.encode ++ tagByte 'N' :: tail') := by
    intro tag tail
    unfold CutUpdateBehind
    rw [or_iff_right fun h => tag.char_ne h.1]
    exact and_iff_right ⟨tag, rfl⟩
  unfold decodeUpdateTuples
  split
  case h_1 hchar =>
    obtain rfl := (toChar_eq_iff (by decide)).mp hchar
    exact (overruns_oldAndNew 'K').congr fun tail => (hold .key tail).symm
  case h_2 hchar =>
    obtain rfl := (toChar_eq_iff (by decide)).mp hchar
    exact (overruns_oldAndNew 'O').congr fun tail => (hold .old tail).symm
  case h_3 hchar =>
    obtain rfl := (toChar_eq_iff (by decide)).mp hchar
    refine (overruns_tupleAt.map fun newTup => (none, newTup)).congr
      fun tail => ?_
    constructor
    · exact fun h => .inl ⟨rfl, h⟩
    · rintro (⟨-, h⟩ | ⟨⟨tag, htag⟩, -⟩)
      · exact h
      · exact absurd htag.symm tag.char_ne
  case h_4 hkey hold hnew =>
    refine (Overruns.throw _).congr fun tail => iff_of_false id ?_
    rintro (⟨rfl, -⟩ | ⟨⟨tag, rfl⟩, -⟩)
    · exact hnew rfl
    · cases tag with
      | key => exact hkey rfl
      | old => exact hold rfl

theorem overruns_decodeUpdate :
    Overruns decodeUpdate (CutBehindOid CutUpdateTuples) := by
  refine overruns_behindOid
    (fun oid b => (overruns_decodeUpdateTuples b).map fun tuples =>
      UpdateMessage.mk oid tuples.1 tuples.2) fun rest => ?_
  constructor
  · rintro ⟨b, tail, ⟨rfl, h⟩ | ⟨⟨tag, rfl⟩, h⟩, rfl⟩
    · exact .inl ⟨tail, h, rfl⟩
    · exact .inr ⟨tag, tail, rfl, h⟩
  · rintro (⟨tail, h, rfl⟩ | ⟨tag, tail, rfl, h⟩)
    · exact ⟨_, tail, .inl ⟨rfl, h⟩, rfl⟩
    · exact ⟨_, tail, .inr ⟨⟨tag, rfl⟩, h⟩, rfl⟩

theorem overruns_decodeDeleteTuple (b : UInt8) :
    Overruns (decodeDeleteTuple b) (fun tail =>
      (∃ tag : OldTag, b = tagByte tag.char) ∧ CutTuple tail) := by
  unfold decodeDeleteTuple
  split
  case h_1 hchar =>
    obtain rfl := (toChar_eq_iff (by decide)).mp hchar
    exact overruns_tupleAt.congr fun tail => (and_iff_right ⟨.key, rfl⟩).symm
  case h_2 hchar =>
    obtain rfl := (toChar_eq_iff (by decide)).mp hchar
    exact overruns_tupleAt.congr fun tail => (and_iff_right ⟨.old, rfl⟩).symm
  case h_3 hkey hold =>
    refine (Overruns.throw _).congr fun tail => iff_of_false id ?_
    rintro ⟨⟨tag, rfl⟩, -⟩
    cases tag with
    | key => exact hkey rfl
    | old => exact hold rfl

theorem overruns_decodeDelete :
    Overruns decodeDelete (CutBehindOid fun rest =>
      ∃ (tag : OldTag) (tail : Bytes), CutTuple tail ∧
        rest = tagByte tag.char :: tail) := by
  refine overruns_behindOid
    (fun oid b => (overruns_decodeDeleteTuple b).map fun oldTuple =>
      DeleteMessage.mk oid oldTuple) fun rest => ?_
  constructor
  · rintro ⟨_, tail, ⟨⟨tag, rfl⟩, h⟩, rfl⟩
    exact ⟨tag, tail, h, rfl⟩
  · rintro ⟨tag, tail, h, rfl⟩
    exact ⟨_, tail, ⟨⟨tag, rfl⟩, h⟩, rfl⟩

theorem exists_encodeU32 {body : Bytes} (h : 4 ≤ body.length) :
    ∃ (n : UInt32) (tail : Bytes), body = encodeU32 n ++ tail := by
  have htakes := takes_readU32Be body 0 (Nat.zero_le _)
  rw [if_neg (by simpa using h)] at htakes
  obtain ⟨n, hn⟩ := htakes
  obtain ⟨_, rfl, ⟨tail, htail⟩, -⟩ :=
    (recognises_readU32Be body 0 (Nat.zero_le _) n _).mp hn
  exact ⟨n, tail, htail.symm⟩

theorem overruns_decodeTruncate :
    Overruns decodeTruncate (fun body => body.length < 5 ∨
      ∃ (numRels : UInt32) (options : UInt8) (oids : Bytes),
        oids.length < 4 * numRels.toNat ∧
          body = encodeU32 numRels ++ options :: oids) := by
  refine (Overruns.bind recognises_readU32Be takes_readU32Be.overruns
    fun numRels => (takes_readI8.bind fun options =>
      (takes_readU32Be.times numRels.toNat).bind fun relationOids =>
        Takes.pure (TruncateMessage.mk relationOids options)).overruns).congr
          fun body => ?_
  rw [Shortage.seq_ofEncode_iff]
  unfold Shortage.shorter
  constructor
  · rintro (h | ⟨numRels, tail, h, rfl⟩)
    · exact .inl (by omega)
    · rcases tail with _ | ⟨options, oids⟩
      · exact .inl (by simp [encodeU32])
      · refine .inr ⟨numRels, options, oids, ?_, rfl⟩
        simp only [List.length_cons] at h
        omega
  · rintro (h | ⟨numRels, options, oids, h, rfl⟩)
    · rcases Nat.lt_or_ge body.length 4 with hfour | hfour
      · exact .inl hfour
      · obtain ⟨numRels, tail, rfl⟩ := exists_encodeU32 hfour
        have hlength : (encodeU32 numRels).length = 4 := Bytes.length_toBe _ _
        rw [List.length_append] at h
        exact .inr ⟨numRels, tail, by omega, rfl⟩
    · refine .inr ⟨numRels, options :: oids, ?_, rfl⟩
      simp only [List.length_cons]
      omega

/-! ## Errors -/

section Errors

variable {P : Error → Prop} (data : Bytes)

theorem rejectsAs_readI8 : RejectsAs P (readI8 data) :=
  (RejectsAs.nextByte data).bind fun _ => RejectsAs.pure _

theorem rejectsAs_readI16Be : RejectsAs P (readI16Be data) :=
  (RejectsAs.readBytes 2 data).bind fun _ => RejectsAs.pure _

theorem rejectsAs_readI32Be : RejectsAs P (readI32Be data) :=
  (RejectsAs.readBytes 4 data).bind fun _ => RejectsAs.pure _

theorem rejectsAs_readI64Be : RejectsAs P (readI64Be data) :=
  (RejectsAs.readBytes 8 data).bind fun _ => RejectsAs.pure _

theorem rejectsAs_readU16Be : RejectsAs P (readU16Be data) :=
  (rejectsAs_readI16Be data).bind fun _ => RejectsAs.pure _

theorem rejectsAs_readU32Be : RejectsAs P (readU32Be data) :=
  (rejectsAs_readI32Be data).bind fun _ => RejectsAs.pure _

theorem rejectsAs_readString : RejectsAs P (readString data) := by
  intro offset e
  simp only [readString, StateT.run, Bytes.sliceFrom]
  split_ifs <;> simp

theorem rejectsAs_decodeRelation : RejectsAs P (decodeRelation data) := by
  have hoid : RejectsAs P (readU32Be data) := rejectsAs_readU32Be data
  have hstring : RejectsAs P (readString data) := rejectsAs_readString data
  have hcolumn : RejectsAs P (decodeRelationColumn data) :=
    (rejectsAs_readI8 data).bind fun _ => hstring.bind fun _ =>
      hoid.bind fun _ => (rejectsAs_readI32Be data).bind fun _ =>
        RejectsAs.pure _
  exact hoid.bind fun _ => hstring.bind fun _ => hstring.bind fun _ =>
    (rejectsAs_readI16Be data).bind fun _ =>
      (rejectsAs_readU16Be data).bind fun n => (hcolumn.times n.toNat).bind
        fun _ => RejectsAs.pure _

end Errors

/-- A relation message is never rejected. -/
theorem neverRejects_decodeRelation (data : Bytes) :
    NeverRejects (decodeRelation data) :=
  neverRejects_iff.mpr (rejectsAs_decodeRelation data)

namespace PgOutputDecoder

theorem readMessage_eq_panicked_iff {μ : Type}
    {decodeBody : Bytes → Cursor Error μ} {S : Bytes → Prop}
    (h : Overruns decodeBody S) (wrap : μ → PgOutputMessage) (rest : Bytes) :
    readMessage decodeBody wrap rest = .panicked ↔ S rest := by
  have hbody := h rest 0 (Nat.zero_le _)
  rw [List.drop_zero] at hbody
  rw [← hbody]
  unfold readMessage
  cases (decodeBody rest).run 0 <;> simp

/-- The decoder panics on a relation message unless it reads it whole. -/
theorem decode_relation (decoder : PgOutputDecoder) (rest : Bytes) :
    decoder.decode (tagByte 'R' :: rest) =
      match (decodeRelation rest).run 0 with
      | .ok (msg, _) =>
          (.ok (some (.relation msg)), ⟨decoder.relations ++ [msg]⟩)
      | .error e => (.error e, decoder)
      | .panicked => (.panicked, decoder) := rfl

theorem decode_relation_eq_panicked_iff (decoder : PgOutputDecoder)
    (rest : Bytes) :
    (decoder.decode (tagByte 'R' :: rest)).1 = .panicked ↔
      ∀ w : WireRelation, ¬ w.encode <+: tagByte 'R' :: rest := by
  have hreject := neverRejects_decodeRelation rest 0
  rw [← announcement_relation_eq_none_iff, decode_relation,
    announcement_relation]
  rcases h : (decodeRelation rest).run 0 with ⟨msg, _⟩ | e | _
  · simp
  · exact absurd h (hreject e)
  · simp

/-- The decoder panics on just the chunks that end too early. -/
theorem decode_eq_panicked_iff (decoder : PgOutputDecoder) (data : Bytes) :
    (decoder.decode data).1 = .panicked ↔ CutOff data := by
  have hbegin :=
    readMessage_eq_panicked_iff takes_decodeBegin.overruns .begin
  have hcommit :=
    readMessage_eq_panicked_iff takes_decodeCommit.overruns .commit
  have hinsert := readMessage_eq_panicked_iff overruns_decodeInsert .insert
  have hupdate := readMessage_eq_panicked_iff overruns_decodeUpdate .update
  have hdelete := readMessage_eq_panicked_iff overruns_decodeDelete .delete
  have htruncate :=
    readMessage_eq_panicked_iff overruns_decodeTruncate .truncate
  constructor
  · intro h
    unfold decode at h
    split at h
    case h_1 => cases h
    case h_2 msgType rest =>
      split at h
      case h_1 hchar =>
        obtain rfl := (toChar_eq_iff (by decide)).mp hchar
        exact .begin rest ((hbegin rest).mp h)
      case h_2 hchar =>
        obtain rfl := (toChar_eq_iff (by decide)).mp hchar
        exact .commit rest ((hcommit rest).mp h)
      case h_3 hchar =>
        obtain rfl := (toChar_eq_iff (by decide)).mp hchar
        exact .relation rest
          ((decode_relation_eq_panicked_iff decoder rest).mp h)
      case h_4 hchar =>
        obtain rfl := (toChar_eq_iff (by decide)).mp hchar
        exact .insert rest ((hinsert rest).mp h)
      case h_5 hchar =>
        obtain rfl := (toChar_eq_iff (by decide)).mp hchar
        exact .update rest ((hupdate rest).mp h)
      case h_6 hchar =>
        obtain rfl := (toChar_eq_iff (by decide)).mp hchar
        exact .delete rest ((hdelete rest).mp h)
      case h_7 hchar =>
        obtain rfl := (toChar_eq_iff (by decide)).mp hchar
        exact .truncate rest ((htruncate rest).mp h)
      case h_8 => cases h
  · intro h
    cases h with
    | begin body h => exact (hbegin body).mpr h
    | commit body h => exact (hcommit body).mpr h
    | relation body h =>
        exact (decode_relation_eq_panicked_iff decoder body).mpr h
    | insert body h => exact (hinsert body).mpr h
    | update body h => exact (hupdate body).mpr h
    | delete body h => exact (hdelete body).mpr h
    | truncate body h => exact (htruncate body).mpr h

end PgOutputDecoder
end OpenCdc.Postgres
