import Mathlib.Data.UInt
import OpenCdc.Postgres.Decoder

/-!
# The pgoutput wire format

The encodings that the protocol gives to a message, and that the decoder
recognises exactly these.  A wire message records the choices that the decoded
message forgets (the tag of an old tuple) and carries the protocol's bounds on
counts and lengths.
-/

namespace OpenCdc.Postgres

open Foundation

/-! ## Encodings -/

def tagByte (c : Char) : UInt8 := UInt8.ofNat c.toNat

def encodeU16 (n : UInt16) : Bytes := Bytes.toBe 2 n.toNat

def encodeU32 (n : UInt32) : Bytes := Bytes.toBe 4 n.toNat

def encodeI64 (n : Int64) : Bytes := Bytes.toBe 8 n.toUInt64.toNat

/-- A column of a tuple as it is sent. -/
inductive WireColumn where
  | null
  | unchanged
  | text (value : Bytes) (hlength : value.length < 2 ^ 31)
deriving DecidableEq

namespace WireColumn

def column : WireColumn → TupleColumn
  | null => nullColumn
  | unchanged => unchangedColumn
  | text value _ => textColumn value

def kind : WireColumn → UInt8
  | null => tagByte 'n'
  | unchanged => tagByte 'u'
  | text _ _ => tagByte 't'

/-- What stands behind the kind byte. -/
def content : WireColumn → Bytes
  | null => []
  | unchanged => []
  | text value _ => Bytes.toBe 4 value.length ++ value

def encode (w : WireColumn) : Bytes := w.kind :: w.content

end WireColumn

structure WireTuple where
  columns : List WireColumn
  hcount : columns.length ≤ 65535
deriving DecidableEq

namespace WireTuple

def tuple (w : WireTuple) : List TupleColumn := w.columns.map (·.column)

def encode (w : WireTuple) : Bytes :=
  Bytes.toBe 2 w.columns.length ++ w.columns.flatMap (·.encode)

end WireTuple

/-- The two tags an old tuple can have: the key columns or the whole row. -/
inductive OldTag where
  | key
  | old
deriving DecidableEq

def OldTag.char : OldTag → Char
  | key => 'K'
  | old => 'O'

inductive WireMessage where
  | begin (msg : BeginMessage)
  | commit (msg : CommitMessage)
  | insert (relationOid : UInt32) (newTuple : WireTuple)
  | update (relationOid : UInt32) (oldTuple : Option (OldTag × WireTuple))
      (newTuple : WireTuple)
  | delete (relationOid : UInt32) (tag : OldTag) (oldTuple : WireTuple)
  | truncate (relationOids : List UInt32) (options : Int8)
      (hcount : relationOids.length < 2 ^ 32)
deriving DecidableEq

namespace WireMessage

def message : WireMessage → PgOutputMessage
  | begin msg => .begin msg
  | commit msg => .commit msg
  | insert relationOid newTuple => .insert ⟨relationOid, newTuple.tuple⟩
  | update relationOid oldTuple newTuple =>
      .update ⟨relationOid, oldTuple.map (·.2.tuple), newTuple.tuple⟩
  | delete relationOid _ oldTuple => .delete ⟨relationOid, oldTuple.tuple⟩
  | truncate relationOids options _ => .truncate ⟨relationOids, options⟩

def tag : WireMessage → Char
  | begin _ => 'B'
  | commit _ => 'C'
  | insert _ _ => 'I'
  | update _ _ _ => 'U'
  | delete _ _ _ => 'D'
  | truncate _ _ _ => 'T'

def encodeBegin (msg : BeginMessage) : Bytes :=
  encodeI64 msg.lsn ++ encodeI64 msg.timestamp ++ encodeU32 msg.xid

def encodeCommit (msg : CommitMessage) : Bytes :=
  msg.flags.toUInt8 :: (encodeI64 msg.lsn ++ encodeI64 msg.endLsn ++
    encodeI64 msg.timestamp)

/-- A tuple behind its tag. -/
def encodeTagged (tag : Char) (tuple : WireTuple) : Bytes :=
  tagByte tag :: tuple.encode

def encodeOld : Option (OldTag × WireTuple) → Bytes
  | none => []
  | some (tag, tuple) => encodeTagged tag.char tuple

/-- What stands behind the tag byte. -/
def body : WireMessage → Bytes
  | begin msg => encodeBegin msg
  | commit msg => encodeCommit msg
  | insert relationOid newTuple =>
      encodeU32 relationOid ++ encodeTagged 'N' newTuple
  | update relationOid oldTuple newTuple =>
      encodeU32 relationOid ++ (encodeOld oldTuple ++
        encodeTagged 'N' newTuple)
  | delete relationOid tag oldTuple =>
      encodeU32 relationOid ++ encodeTagged tag.char oldTuple
  | truncate relationOids options _ =>
      Bytes.toBe 4 relationOids.length ++ options.toUInt8 ::
        relationOids.flatMap encodeU32

def encode (w : WireMessage) : Bytes := tagByte w.tag :: w.body

end WireMessage

/-! ## Fixed-width fields -/

theorem toChar_eq_iff {b : UInt8} {c : Char} (hc : c.toNat < 256) :
    b.toChar = c ↔ b = tagByte c := by
  have hb : b.toChar.toNat = b.toNat := rfl
  constructor
  · rintro rfl
    simp [tagByte, hb]
  · rintro rfl
    apply Char.toNat_inj.mp
    have hbyte : (tagByte c).toChar.toNat = (tagByte c).toNat := rfl
    rw [hbyte, tagByte, UInt8.toNat_ofNat', Nat.mod_eq_of_lt hc]

theorem recognises_readI8 :
    Recognises readI8 (Format.ofEncode fun n => [n.toUInt8]) := by
  refine (Recognises.nextByte.bind fun byte =>
    Recognises.pure byte.toInt8).congr ?_
  intro n enc
  rw [Format.seq_nothing_iff]
  constructor
  · rintro ⟨byte, rfl, rfl⟩
    rfl
  · rintro rfl
    exact ⟨n.toUInt8, rfl, rfl⟩

theorem recognises_readI16Be :
    Recognises readI16Be (Format.ofEncode fun n => encodeU16 n.toUInt16) := by
  refine Recognises.converted (by simp [encodeU16]) ?_ ?_
  · intro n
    simp [encodeU16, Bytes.ofBe_toBe]
  · intro bs hlen
    simpa [encodeU16] using Bytes.toBe_ofBe_mod hlen

theorem recognises_readI32Be :
    Recognises readI32Be (Format.ofEncode fun n => encodeU32 n.toUInt32) := by
  refine Recognises.converted (by simp [encodeU32]) ?_ ?_
  · intro n
    simp [encodeU32, Bytes.ofBe_toBe]
  · intro bs hlen
    simpa [encodeU32] using Bytes.toBe_ofBe_mod hlen

theorem recognises_readI64Be :
    Recognises readI64Be (Format.ofEncode encodeI64) := by
  refine Recognises.converted (by simp [encodeI64]) ?_ ?_
  · intro n
    simp [encodeI64, Bytes.ofBe_toBe]
  · intro bs hlen
    simpa [encodeI64] using Bytes.toBe_ofBe_mod hlen

theorem recognises_readU16Be :
    Recognises readU16Be (Format.ofEncode encodeU16) := by
  refine (recognises_readI16Be.bind fun raw =>
    Recognises.pure raw.toUInt16).congr ?_
  intro n enc
  rw [Format.seq_nothing_iff]
  constructor
  · rintro ⟨raw, rfl, rfl⟩
    rfl
  · rintro rfl
    exact ⟨n.toInt16, rfl, rfl⟩

theorem recognises_readU32Be :
    Recognises readU32Be (Format.ofEncode encodeU32) := by
  refine (recognises_readI32Be.bind fun raw =>
    Recognises.pure raw.toUInt32).congr ?_
  intro n enc
  rw [Format.seq_nothing_iff]
  constructor
  · rintro ⟨raw, rfl, rfl⟩
    rfl
  · rintro rfl
    exact ⟨n.toInt32, rfl, rfl⟩

/-! ## Tuples -/

/-- A non-negative length field is the length as the protocol writes it. -/
theorem encodeU32_of_nonneg {n : Int32} (hn : 0 ≤ n) :
    encodeU32 n.toUInt32 = Bytes.toBe 4 n.toNatClampNeg := by
  rw [encodeU32, Int32.toNat_toUInt32_of_le hn]

/-- A length below `2 ^ 31` is read back from its field. -/
theorem exists_length_field {len : ℕ} (hlen : len < 2 ^ 31) :
    ∃ n : Int32, 0 ≤ n ∧ n.toNatClampNeg = len := by
  refine ⟨Int32.ofNat len, ?_, Int32.toNatClampNeg_ofNat_of_lt hlen⟩
  exact (Int32.ofNat_le_iff_le (a := 0) (by norm_num) hlen).mpr (Nat.zero_le _)

theorem recognises_textValue (e e' : Error) (rawLen : Int32) :
    Recognises
      (fun data => if rawLen < 0 then throw e
        else do
          let value ← Cursor.takeSlice e' rawLen.toNatClampNeg data
          return textColumn value)
      (fun col enc => 0 ≤ rawLen ∧ enc.length = rawLen.toNatClampNeg ∧
        col = textColumn enc) := by
  by_cases hneg : rawLen < 0
  · simp only [if_pos hneg]
    apply (Recognises.throw e).congr
    intro col enc
    have hnot : ¬0 ≤ rawLen := Int32.not_le.mpr hneg
    simp [Format.none, hnot]
  · simp only [if_neg hneg]
    refine ((Recognises.takeSlice e' _).bind fun value =>
      Recognises.pure (textColumn value)).congr fun col enc => ?_
    rw [Format.seq_nothing_iff]
    have hnonneg : 0 ≤ rawLen := Int32.not_lt.mp hneg
    constructor
    · rintro ⟨value, ⟨rfl, hlen⟩, rfl⟩
      exact ⟨hnonneg, hlen, rfl⟩
    · rintro ⟨-, hlen, rfl⟩
      exact ⟨enc, ⟨rfl, hlen⟩, rfl⟩

theorem recognises_decodeTextValue :
    Recognises decodeTextValue (fun col enc => ∃ value : Bytes,
      value.length < 2 ^ 31 ∧ textColumn value = col ∧
        enc = Bytes.toBe 4 value.length ++ value) := by
  refine (recognises_readI32Be.bind fun rawLen =>
    recognises_textValue _ _ rawLen).congr fun col enc => ?_
  rw [Format.seq_ofEncode_iff]
  constructor
  · rintro ⟨rawLen, value, ⟨hnonneg, hlen, rfl⟩, rfl⟩
    refine ⟨value, hlen ▸ rawLen.toNatClampNeg_lt, rfl, ?_⟩
    rw [encodeU32_of_nonneg hnonneg, hlen]
  · rintro ⟨value, hlt, rfl, rfl⟩
    obtain ⟨rawLen, hnonneg, hlen⟩ := exists_length_field hlt
    refine ⟨rawLen, value, ⟨hnonneg, hlen.symm, rfl⟩, ?_⟩
    rw [encodeU32_of_nonneg hnonneg, hlen]

theorem recognises_decodeColumnOfKind (kind : UInt8) :
    Recognises (decodeColumnOfKind kind) (fun col enc => ∃ w : WireColumn,
      w.column = col ∧ w.kind = kind ∧ enc = w.content) := by
  unfold decodeColumnOfKind
  split
  case h_1 hchar =>
    obtain rfl := (toChar_eq_iff (by decide)).mp hchar
    apply (Recognises.pure nullColumn).congr
    intro col enc
    constructor
    · rintro ⟨rfl, rfl⟩
      exact ⟨.null, rfl, rfl, rfl⟩
    · rintro ⟨w, rfl, hkind, rfl⟩
      cases w with
      | null => exact ⟨rfl, rfl⟩
      | unchanged => exact absurd hkind (by decide)
      | text =>
          exact absurd hkind (show tagByte 't' ≠ tagByte 'n' by decide)
  case h_2 hchar =>
    obtain rfl := (toChar_eq_iff (by decide)).mp hchar
    apply (Recognises.pure unchangedColumn).congr
    intro col enc
    constructor
    · rintro ⟨rfl, rfl⟩
      exact ⟨.unchanged, rfl, rfl, rfl⟩
    · rintro ⟨w, rfl, hkind, rfl⟩
      cases w with
      | null => exact absurd hkind (by decide)
      | unchanged => exact ⟨rfl, rfl⟩
      | text =>
          exact absurd hkind (show tagByte 't' ≠ tagByte 'u' by decide)
  case h_3 hchar =>
    obtain rfl := (toChar_eq_iff (by decide)).mp hchar
    apply recognises_decodeTextValue.congr
    intro col enc
    constructor
    · rintro ⟨value, hlength, rfl, rfl⟩
      exact ⟨.text value hlength, rfl, rfl, rfl⟩
    · rintro ⟨w, rfl, hkind, rfl⟩
      cases w with
      | null => exact absurd hkind (by decide)
      | unchanged => exact absurd hkind (by decide)
      | text value hlength => exact ⟨value, hlength, rfl, rfl⟩
  case h_4 hnull hunchanged htext =>
    apply (Recognises.throw _).congr
    intro col enc
    refine ⟨False.elim, ?_⟩
    rintro ⟨w, rfl, rfl, rfl⟩
    cases w with
    | null => exact hnull rfl
    | unchanged => exact hunchanged rfl
    | text value hlength => exact htext rfl

theorem recognises_decodeTupleColumn :
    Recognises decodeTupleColumn
      (Format.image WireColumn.column WireColumn.encode) := by
  have hbytes : Recognises
      (fun data => Cursor.nextByte data >>= fun kind =>
        decodeColumnOfKind kind data)
      (Format.image WireColumn.column WireColumn.encode) := by
    refine (Recognises.nextByte.bind
      recognises_decodeColumnOfKind).congr fun col enc => ?_
    rw [Format.seq_ofEncode_iff]
    constructor
    · rintro ⟨_, _, ⟨w, rfl, rfl, rfl⟩, rfl⟩
      exact ⟨w, rfl, rfl⟩
    · rintro ⟨w, rfl, rfl⟩
      exact ⟨w.kind, w.content, ⟨w, rfl, rfl, rfl⟩, rfl⟩
  apply hbytes.ensureMore_bind
  rintro _ _ ⟨w, -, rfl⟩
  exact List.cons_ne_nil _ _

theorem recognises_decodeTupleData :
    Recognises decodeTupleData
      (Format.image WireTuple.tuple WireTuple.encode) := by
  refine (recognises_readU16Be.bind fun colCount =>
    recognises_decodeTupleColumn.times colCount.toNat).congr
      fun tuple enc => ?_
  rw [Format.seq_ofEncode_iff]
  simp only [Format.list_image_iff]
  constructor
  · rintro ⟨colCount, _, ⟨columns, hlen, rfl, rfl⟩, rfl⟩
    have hlt := colCount.toNat_lt
    refine ⟨⟨columns, by omega⟩, rfl, ?_⟩
    simp [WireTuple.encode, encodeU16, hlen]
  · rintro ⟨⟨columns, hcount⟩, rfl, rfl⟩
    have hfield : (UInt16.ofNat columns.length).toNat = columns.length := by
      rw [UInt16.toNat_ofNat', Nat.mod_eq_of_lt (by omega)]
    refine ⟨UInt16.ofNat columns.length, _,
      ⟨columns, hfield.symm, rfl, rfl⟩, ?_⟩
    rw [encodeU16, hfield, WireTuple.encode]

theorem recognises_tupleAt :
    Recognises tupleAt (Format.image WireTuple.tuple WireTuple.encode) :=
  recognises_decodeTupleData.onRest

/-! ## Message bodies -/

theorem recognises_decodeBegin :
    Recognises decodeBegin (Format.ofEncode WireMessage.encodeBegin) := by
  refine (recognises_readI64Be.bind fun lsn =>
    recognises_readI64Be.bind fun timestamp =>
      recognises_readU32Be.bind fun xid =>
        Recognises.pure (BeginMessage.mk lsn timestamp xid)).congr ?_
  intro msg enc
  simp only [Format.seq_ofEncode_iff, Format.nothing, Format.ofEncode,
    WireMessage.encodeBegin]
  constructor
  · rintro ⟨lsn, _, ⟨timestamp, _, ⟨xid, _, ⟨rfl, rfl⟩, rfl⟩, rfl⟩, rfl⟩
    simp
  · rintro rfl
    exact ⟨msg.lsn, _, ⟨msg.timestamp, _, ⟨msg.xid, _, ⟨rfl, rfl⟩, rfl⟩,
      rfl⟩, by simp⟩

theorem recognises_decodeCommit :
    Recognises decodeCommit (Format.ofEncode WireMessage.encodeCommit) := by
  refine (recognises_readI8.bind fun flags =>
    recognises_readI64Be.bind fun lsn =>
      recognises_readI64Be.bind fun endLsn =>
        recognises_readI64Be.bind fun timestamp => Recognises.pure
          (CommitMessage.mk flags lsn endLsn timestamp)).congr ?_
  intro msg enc
  simp only [Format.seq_ofEncode_iff, Format.nothing, Format.ofEncode,
    WireMessage.encodeCommit]
  constructor
  · rintro ⟨flags, _, ⟨lsn, _, ⟨endLsn, _, ⟨timestamp, _, ⟨rfl, rfl⟩, rfl⟩,
      rfl⟩, rfl⟩, rfl⟩
    simp
  · rintro rfl
    exact ⟨msg.flags, _, ⟨msg.lsn, _, ⟨msg.endLsn, _, ⟨msg.timestamp, _,
      ⟨rfl, rfl⟩, rfl⟩, rfl⟩, rfl⟩, by simp⟩

/-- A reader behind one fixed tag byte. -/
theorem recognises_tagged {α : Type} {read : Bytes → Cursor Error α}
    {F : Format α} (hread : Recognises read F) {tag : Char}
    (htag : tag.toNat < 256) (e : Error) (e' : UInt8 → Error) :
    Recognises
      (fun data => do
        Cursor.ensureMore e data
        let tupleType ← Cursor.nextByte data
        if tupleType.toChar ≠ tag then throw (e' tupleType)
        else read data)
      (fun a enc => ∃ tail, F a tail ∧ enc = tagByte tag :: tail) := by
  have hrest : ∀ tupleType, Recognises
      (fun data => if tupleType.toChar ≠ tag then throw (e' tupleType)
        else read data)
      (fun a enc => tupleType = tagByte tag ∧ F a enc) := by
    intro tupleType
    by_cases hchar : tupleType.toChar = tag
    · have hbyte := (toChar_eq_iff htag).mp hchar
      simp only [ne_eq, hchar, not_true, if_false]
      exact hread.congr fun a enc => by simp [hbyte]
    · have hbyte := mt (toChar_eq_iff htag).mpr hchar
      simp only [ne_eq, hchar, not_false_iff, if_true]
      exact (Recognises.throw _).congr fun a enc => by
        simp [hbyte, Format.none]
  have hbytes := (Recognises.nextByte.bind hrest).congr
    (G := fun a enc => ∃ tail, F a tail ∧ enc = tagByte tag :: tail) (by
      intro a enc
      rw [Format.seq_ofEncode_iff]
      constructor
      · rintro ⟨_, tail, ⟨rfl, htail⟩, rfl⟩
        exact ⟨tail, htail, rfl⟩
      · rintro ⟨tail, htail, rfl⟩
        exact ⟨_, tail, ⟨rfl, htail⟩, rfl⟩)
  apply hbytes.ensureMore_bind
  rintro _ _ ⟨tail, -, rfl⟩
  exact List.cons_ne_nil _ _

theorem recognises_decodeInsert :
    Recognises decodeInsert (fun msg enc => ∃ newTuple : WireTuple,
      msg.newTuple = newTuple.tuple ∧ enc = encodeU32 msg.relationOid ++
        WireMessage.encodeTagged 'N' newTuple) := by
  refine (recognises_readU32Be.bind fun relationOid =>
    recognises_tagged (recognises_tupleAt.bind fun newTuple =>
      Recognises.pure (InsertMessage.mk relationOid newTuple))
        (by decide) _ _).congr fun msg enc => ?_
  simp only [Format.seq_ofEncode_iff, Format.seq_nothing_iff]
  constructor
  · rintro ⟨oid, _, ⟨_, ⟨_, ⟨newTuple, rfl, rfl⟩, rfl⟩, rfl⟩, rfl⟩
    exact ⟨newTuple, rfl, rfl⟩
  · rintro ⟨newTuple, hnew, rfl⟩
    exact ⟨msg.relationOid, _, ⟨_, ⟨_, ⟨newTuple, rfl, rfl⟩, by
      rw [← hnew]⟩, rfl⟩, rfl⟩

theorem recognises_decodeNewAfterOld (oldType : Char) :
    Recognises (decodeNewAfterOld oldType)
      (Format.image WireTuple.tuple (WireMessage.encodeTagged 'N')) := by
  refine (recognises_tagged recognises_tupleAt (by decide) _ _).congr
    fun tuple enc => ?_
  constructor
  · rintro ⟨_, ⟨w, rfl, rfl⟩, rfl⟩
    exact ⟨w, rfl, rfl⟩
  · rintro ⟨w, rfl, rfl⟩
    exact ⟨_, ⟨w, rfl, rfl⟩, rfl⟩

theorem recognises_oldAndNew (oldType : Char) :
    Recognises
      (fun data => do
        let oldTup ← tupleAt data
        let newTup ← decodeNewAfterOld oldType data
        return (some oldTup, newTup))
      (fun tuples enc => ∃ old new : WireTuple,
        tuples = (some old.tuple, new.tuple) ∧
          enc = old.encode ++ WireMessage.encodeTagged 'N' new) := by
  refine (recognises_tupleAt.bind fun oldTup =>
    (recognises_decodeNewAfterOld oldType).bind fun newTup =>
      Recognises.pure (some oldTup, newTup)).congr fun tuples enc => ?_
  constructor
  · rintro ⟨_, _, _, ⟨old, rfl, rfl⟩, hnew, rfl⟩
    obtain ⟨_, ⟨new, rfl, rfl⟩, rfl⟩ := Format.seq_nothing_iff.mp hnew
    exact ⟨old, new, rfl, rfl⟩
  · rintro ⟨old, new, rfl, rfl⟩
    exact ⟨_, _, _, ⟨old, rfl, rfl⟩,
      Format.seq_nothing_iff.mpr ⟨_, ⟨new, rfl, rfl⟩, rfl⟩, rfl⟩

/-- The tuples of an update from their first tag byte on. -/
theorem cons_eq_encodeOld_iff {tupleType : UInt8} {enc : Bytes}
    {old : Option (OldTag × WireTuple)} {new : WireTuple} :
    tupleType :: enc = WireMessage.encodeOld old ++
        WireMessage.encodeTagged 'N' new ↔
      match old with
      | none => tupleType = tagByte 'N' ∧ enc = new.encode
      | some (tag, tuple) => tupleType = tagByte tag.char ∧
          enc = tuple.encode ++ WireMessage.encodeTagged 'N' new := by
  cases old with
  | none => simp [WireMessage.encodeOld, WireMessage.encodeTagged]
  | some tagged =>
      simp [WireMessage.encodeOld, WireMessage.encodeTagged]

theorem OldTag.char_ne (tag : OldTag) : tagByte tag.char ≠ tagByte 'N' := by
  cases tag <;> decide

theorem recognises_decodeUpdateTuples (tupleType : UInt8) :
    Recognises (decodeUpdateTuples tupleType) (fun tuples enc =>
      ∃ (old : Option (OldTag × WireTuple)) (new : WireTuple),
        tuples = (old.map (·.2.tuple), new.tuple) ∧
          tupleType :: enc = WireMessage.encodeOld old ++
            WireMessage.encodeTagged 'N' new) := by
  simp only [cons_eq_encodeOld_iff]
  unfold decodeUpdateTuples
  split
  case h_1 hchar =>
    obtain rfl := (toChar_eq_iff (by decide)).mp hchar
    apply (recognises_oldAndNew 'K').congr
    intro tuples enc
    constructor
    · rintro ⟨old, new, rfl, rfl⟩
      exact ⟨some (.key, old), new, rfl, rfl, rfl⟩
    · rintro ⟨_ | ⟨tag, old⟩, new, rfl, htag, rfl⟩
      · exact absurd htag (by decide)
      · exact ⟨old, new, rfl, rfl⟩
  case h_2 hchar =>
    obtain rfl := (toChar_eq_iff (by decide)).mp hchar
    apply (recognises_oldAndNew 'O').congr
    intro tuples enc
    constructor
    · rintro ⟨old, new, rfl, rfl⟩
      exact ⟨some (.old, old), new, rfl, rfl, rfl⟩
    · rintro ⟨_ | ⟨tag, old⟩, new, rfl, htag, rfl⟩
      · exact absurd htag (by decide)
      · exact ⟨old, new, rfl, rfl⟩
  case h_3 hchar =>
    obtain rfl := (toChar_eq_iff (by decide)).mp hchar
    refine (recognises_tupleAt.bind fun newTup =>
      Recognises.pure (none, newTup)).congr fun tuples enc => ?_
    rw [Format.seq_nothing_iff]
    constructor
    · rintro ⟨_, ⟨new, rfl, rfl⟩, rfl⟩
      exact ⟨none, new, rfl, rfl, rfl⟩
    · rintro ⟨_ | ⟨tag, old⟩, new, rfl, htag, rfl⟩
      · exact ⟨_, ⟨new, rfl, rfl⟩, rfl⟩
      · exact absurd htag.symm tag.char_ne
  case h_4 hkey hold hnew =>
    apply (Recognises.throw _).congr
    intro tuples enc
    refine ⟨False.elim, ?_⟩
    rintro ⟨_ | ⟨tag, old⟩, new, rfl, rfl, rfl⟩
    · exact hnew rfl
    · cases tag with
      | key => exact hkey rfl
      | old => exact hold rfl

theorem nonempty_seq_nextByte {α : Type} {G : UInt8 → Format α} :
    ((Format.ofEncode fun b : UInt8 => [b]).seq G).Nonempty := by
  apply Format.nonempty_seq_left
  rintro b _ rfl
  exact List.cons_ne_nil _ _

theorem recognises_decodeUpdate :
    Recognises decodeUpdate (fun msg enc =>
      ∃ (old : Option (OldTag × WireTuple)) (new : WireTuple),
        msg.oldTuple = old.map (·.2.tuple) ∧ msg.newTuple = new.tuple ∧
          enc = encodeU32 msg.relationOid ++ (WireMessage.encodeOld old ++
            WireMessage.encodeTagged 'N' new)) := by
  refine (recognises_readU32Be.bind fun relationOid =>
    (Recognises.nextByte.bind fun tupleType =>
      (recognises_decodeUpdateTuples tupleType).bind fun tuples =>
        Recognises.pure (UpdateMessage.mk relationOid tuples.1
          tuples.2)).ensureMore_bind
            nonempty_seq_nextByte).congr fun msg enc => ?_
  simp only [Format.seq_ofEncode_iff, Format.seq_nothing_iff]
  constructor
  · rintro ⟨oid, _, ⟨tupleType, _, ⟨_, ⟨old, new, rfl, htuples⟩, rfl⟩, rfl⟩,
      rfl⟩
    exact ⟨old, new, rfl, rfl, by rw [← htuples]; rfl⟩
  · rintro ⟨old, new, hold, hnew, rfl⟩
    obtain ⟨tupleType, rest, htuples⟩ : ∃ tupleType rest,
        tupleType :: rest = WireMessage.encodeOld old ++
          WireMessage.encodeTagged 'N' new := by
      cases old with
      | none => exact ⟨_, _, rfl⟩
      | some tagged => exact ⟨_, _, rfl⟩
    refine ⟨msg.relationOid, _, ⟨tupleType, rest,
      ⟨_, ⟨old, new, rfl, htuples⟩, ?_⟩, rfl⟩, by rw [← htuples]; rfl⟩
    rw [← hold, ← hnew]

theorem recognises_decodeDeleteTuple (tupleType : UInt8) :
    Recognises (decodeDeleteTuple tupleType) (fun tuple enc =>
      ∃ (tag : OldTag) (old : WireTuple), tuple = old.tuple ∧
        tupleType = tagByte tag.char ∧ enc = old.encode) := by
  unfold decodeDeleteTuple
  split
  case h_1 hchar =>
    obtain rfl := (toChar_eq_iff (by decide)).mp hchar
    apply recognises_tupleAt.congr
    intro tuple enc
    constructor
    · rintro ⟨old, rfl, rfl⟩
      exact ⟨.key, old, rfl, rfl, rfl⟩
    · rintro ⟨-, old, rfl, -, rfl⟩
      exact ⟨old, rfl, rfl⟩
  case h_2 hchar =>
    obtain rfl := (toChar_eq_iff (by decide)).mp hchar
    apply recognises_tupleAt.congr
    intro tuple enc
    constructor
    · rintro ⟨old, rfl, rfl⟩
      exact ⟨.old, old, rfl, rfl, rfl⟩
    · rintro ⟨-, old, rfl, -, rfl⟩
      exact ⟨old, rfl, rfl⟩
  case h_3 hkey hold =>
    apply (Recognises.throw _).congr
    intro tuple enc
    refine ⟨False.elim, ?_⟩
    rintro ⟨tag, old, rfl, rfl, rfl⟩
    cases tag with
    | key => exact hkey rfl
    | old => exact hold rfl

theorem recognises_decodeDelete :
    Recognises decodeDelete (fun msg enc =>
      ∃ (tag : OldTag) (old : WireTuple), msg.oldTuple = old.tuple ∧
        enc = encodeU32 msg.relationOid ++
          WireMessage.encodeTagged tag.char old) := by
  refine (recognises_readU32Be.bind fun relationOid =>
    (Recognises.nextByte.bind fun tupleType =>
      (recognises_decodeDeleteTuple tupleType).bind fun oldTuple =>
        Recognises.pure (DeleteMessage.mk relationOid
          oldTuple)).ensureMore_bind
            nonempty_seq_nextByte).congr fun msg enc => ?_
  simp only [Format.seq_ofEncode_iff, Format.seq_nothing_iff]
  constructor
  · rintro ⟨oid, _, ⟨_, _, ⟨_, ⟨tag, old, rfl, rfl, rfl⟩, rfl⟩, rfl⟩, rfl⟩
    exact ⟨tag, old, rfl, rfl⟩
  · rintro ⟨tag, old, hold, rfl⟩
    refine ⟨msg.relationOid, _, ⟨_, _,
      ⟨_, ⟨tag, old, rfl, rfl, rfl⟩, ?_⟩, rfl⟩, rfl⟩
    rw [← hold]

theorem recognises_decodeTruncate :
    Recognises decodeTruncate (fun msg enc =>
      msg.relationOids.length < 2 ^ 32 ∧
        enc = Bytes.toBe 4 msg.relationOids.length ++ msg.options.toUInt8 ::
          msg.relationOids.flatMap encodeU32) := by
  refine (recognises_readU32Be.bind fun numRels =>
    recognises_readI8.bind fun options =>
      (recognises_readU32Be.times numRels.toNat).bind fun relationOids =>
        Recognises.pure (TruncateMessage.mk relationOids options)).congr ?_
  intro msg enc
  simp only [Format.seq_ofEncode_iff, Format.seq_nothing_iff,
    Format.list_ofEncode_iff]
  constructor
  · rintro ⟨numRels, _, ⟨options, _, ⟨oids, ⟨hlen, rfl⟩, rfl⟩, rfl⟩, rfl⟩
    refine ⟨hlen ▸ numRels.toNat_lt, ?_⟩
    simp [encodeU32, hlen]
  · rintro ⟨hlt, rfl⟩
    have hfield : (UInt32.ofNat msg.relationOids.length).toNat =
        msg.relationOids.length := by
      rw [UInt32.toNat_ofNat', Nat.mod_eq_of_lt hlt]
    refine ⟨UInt32.ofNat msg.relationOids.length, _, ⟨msg.options, _,
      ⟨msg.relationOids, ⟨hfield.symm, rfl⟩, rfl⟩, rfl⟩, ?_⟩
    simp [encodeU32, hfield]

/-! ## The decoder -/

namespace PgOutputDecoder

/-- A message is read exactly if one of its encodings starts the data. -/
theorem readMessage_eq_ok_iff {μ : Type} {decodeBody : Bytes → Cursor Error μ}
    {F : Format μ} (h : Recognises decodeBody F) {wrap : μ → PgOutputMessage}
    {rest : Bytes} {r : Option PgOutputMessage} :
    readMessage decodeBody wrap rest = .ok r ↔
      ∃ msg enc, F msg enc ∧ enc <+: rest ∧ r = some (wrap msg) := by
  simp only [readMessage, Outcome.bind_eq_ok, Outcome.pure_eq,
    Outcome.ok.injEq, Prod.exists, h rest 0 (Nat.zero_le _), List.drop_zero]
  constructor
  · rintro ⟨msg, _, ⟨enc, henc, hprefix, -⟩, rfl⟩
    exact ⟨msg, enc, henc, hprefix, rfl⟩
  · rintro ⟨msg, enc, henc, hprefix, rfl⟩
    exact ⟨msg, _, ⟨enc, henc, hprefix, rfl⟩, rfl⟩

/-- Every message that is read, a relation apart, stands at the start of the
data in one of its encodings. -/
theorem decode_sound {decoder : PgOutputDecoder} {data : Bytes}
    {m : PgOutputMessage}
    (hdecode : (decoder.decode data).1 = .ok (some m))
    (hm : ∀ msg, m ≠ .relation msg) :
    ∃ w : WireMessage, w.message = m ∧ w.encode <+: data := by
  unfold decode at hdecode
  split at hdecode
  case h_1 => simp at hdecode
  case h_2 msgType rest =>
    split at hdecode
    case h_1 hchar =>
      obtain rfl := (toChar_eq_iff (by decide)).mp hchar
      obtain ⟨msg, _, rfl, hprefix, hmsg⟩ :=
        (readMessage_eq_ok_iff recognises_decodeBegin).mp hdecode
      cases hmsg
      exact ⟨.begin msg, rfl, List.cons_prefix_cons.mpr ⟨rfl, hprefix⟩⟩
    case h_2 hchar =>
      obtain rfl := (toChar_eq_iff (by decide)).mp hchar
      obtain ⟨msg, _, rfl, hprefix, hmsg⟩ :=
        (readMessage_eq_ok_iff recognises_decodeCommit).mp hdecode
      cases hmsg
      exact ⟨.commit msg, rfl, List.cons_prefix_cons.mpr ⟨rfl, hprefix⟩⟩
    case h_3 hchar =>
      split at hdecode
      · cases hdecode
        exact absurd rfl (hm _)
      · cases hdecode
      · cases hdecode
    case h_4 hchar =>
      obtain rfl := (toChar_eq_iff (by decide)).mp hchar
      obtain ⟨⟨oid, _⟩, _, ⟨newTuple, rfl, rfl⟩, hprefix, hmsg⟩ :=
        (readMessage_eq_ok_iff recognises_decodeInsert).mp hdecode
      cases hmsg
      exact ⟨.insert oid newTuple, rfl,
        List.cons_prefix_cons.mpr ⟨rfl, hprefix⟩⟩
    case h_5 hchar =>
      obtain rfl := (toChar_eq_iff (by decide)).mp hchar
      obtain ⟨⟨oid, _, _⟩, _, ⟨old, new, rfl, rfl, rfl⟩, hprefix, hmsg⟩ :=
        (readMessage_eq_ok_iff recognises_decodeUpdate).mp hdecode
      cases hmsg
      exact ⟨.update oid old new, rfl,
        List.cons_prefix_cons.mpr ⟨rfl, hprefix⟩⟩
    case h_6 hchar =>
      obtain rfl := (toChar_eq_iff (by decide)).mp hchar
      obtain ⟨⟨oid, _⟩, _, ⟨tag, old, rfl, rfl⟩, hprefix, hmsg⟩ :=
        (readMessage_eq_ok_iff recognises_decodeDelete).mp hdecode
      cases hmsg
      exact ⟨.delete oid tag old, rfl,
        List.cons_prefix_cons.mpr ⟨rfl, hprefix⟩⟩
    case h_7 hchar =>
      obtain rfl := (toChar_eq_iff (by decide)).mp hchar
      obtain ⟨⟨oids, options⟩, _, ⟨hcount, rfl⟩, hprefix, hmsg⟩ :=
        (readMessage_eq_ok_iff recognises_decodeTruncate).mp hdecode
      cases hmsg
      exact ⟨.truncate oids options hcount, rfl,
        List.cons_prefix_cons.mpr ⟨rfl, hprefix⟩⟩
    case h_8 => simp at hdecode

/-- Data that starts with an encoding of a message is read as the message. -/
theorem decode_complete (decoder : PgOutputDecoder) {data : Bytes}
    {w : WireMessage} (hw : w.encode <+: data) :
    (decoder.decode data).1 = .ok (some w.message) := by
  obtain ⟨rest, rfl⟩ := hw
  have hbody : w.body <+: w.body ++ rest := List.prefix_append _ _
  cases w with
  | begin msg =>
      exact (readMessage_eq_ok_iff recognises_decodeBegin).mpr
        ⟨msg, _, rfl, hbody, rfl⟩
  | commit msg =>
      exact (readMessage_eq_ok_iff recognises_decodeCommit).mpr
        ⟨msg, _, rfl, hbody, rfl⟩
  | insert oid newTuple =>
      exact (readMessage_eq_ok_iff recognises_decodeInsert).mpr
        ⟨⟨oid, newTuple.tuple⟩, _, ⟨newTuple, rfl, rfl⟩, hbody, rfl⟩
  | update oid old new =>
      exact (readMessage_eq_ok_iff recognises_decodeUpdate).mpr
        ⟨⟨oid, _, _⟩, _, ⟨old, new, rfl, rfl, rfl⟩, hbody, rfl⟩
  | delete oid tag old =>
      exact (readMessage_eq_ok_iff recognises_decodeDelete).mpr
        ⟨⟨oid, old.tuple⟩, _, ⟨tag, old, rfl, rfl⟩, hbody, rfl⟩
  | truncate oids options hcount =>
      exact (readMessage_eq_ok_iff recognises_decodeTruncate).mpr
        ⟨⟨oids, options⟩, _, ⟨hcount, rfl⟩, hbody, rfl⟩

/-- The decoder reads a message other than a relation exactly from the data
that start with an encoding of it. -/
theorem decode_eq_some_iff_encode_isPrefix (decoder : PgOutputDecoder)
    (data : Bytes) (m : PgOutputMessage) (hm : ∀ msg, m ≠ .relation msg) :
    (decoder.decode data).1 = .ok (some m) ↔
      ∃ w : WireMessage, w.message = m ∧ w.encode <+: data := by
  constructor
  · intro hdecode
    exact decode_sound hdecode hm
  · rintro ⟨w, rfl, hw⟩
    exact decode_complete decoder hw

theorem decode_eq_some_iff_encode_isPrefix_delete :
    ∃ w : WireMessage,
      w.message = .delete ⟨7, [textColumn [97], nullColumn]⟩ ∧
        w.encode <+:
          [68, 0, 0, 0, 7, 75, 0, 2, 116, 0, 0, 0, 1, 97, 110, 255] :=
  (decode_eq_some_iff_encode_isPrefix {} _ _ (by intro msg h; cases h)).mp
    (by decide)

end PgOutputDecoder
end OpenCdc.Postgres
