import OpenCdc.Core.Error
import OpenCdc.Foundation.Format
import OpenCdc.Foundation.Text

/-!
# The pgoutput decoder

The logical-replication messages and the decoder that reads them from the
payload of a replication chunk.  The decoder remembers every relation message
it has read.
-/

namespace OpenCdc.Postgres

open Foundation

/-! ## Messages -/

structure RelationColumn where
  flags : Int8
  name : String
  typeOid : UInt32
  typeModifier : Int32
deriving DecidableEq, Repr

structure RelationMessage where
  oid : UInt32
  schema : String
  name : String
  columns : List RelationColumn
deriving DecidableEq, Repr

structure BeginMessage where
  lsn : Int64
  timestamp : Int64
  xid : UInt32
deriving DecidableEq, Repr

structure CommitMessage where
  flags : Int8
  lsn : Int64
  endLsn : Int64
  timestamp : Int64
deriving DecidableEq, Repr

structure TupleColumn where
  isNull : Bool
  isUnchangedToast : Bool
  value : Option Bytes
deriving DecidableEq, Repr

structure InsertMessage where
  relationOid : UInt32
  newTuple : List TupleColumn
deriving DecidableEq, Repr

structure DeleteMessage where
  relationOid : UInt32
  oldTuple : List TupleColumn
deriving DecidableEq, Repr

structure UpdateMessage where
  relationOid : UInt32
  oldTuple : Option (List TupleColumn)
  newTuple : List TupleColumn
deriving DecidableEq, Repr

structure TruncateMessage where
  relationOids : List UInt32
  options : Int8
deriving DecidableEq, Repr

inductive PgOutputMessage where
  | begin (msg : BeginMessage)
  | commit (msg : CommitMessage)
  | relation (msg : RelationMessage)
  | insert (msg : InsertMessage)
  | update (msg : UpdateMessage)
  | delete (msg : DeleteMessage)
  | truncate (msg : TruncateMessage)
deriving DecidableEq, Repr

/-! ## Fixed-width fields and strings -/

def readI8 (data : Bytes) : Cursor Error Int8 := do
  let byte ← Cursor.nextByte data
  return byte.toInt8

def readI16Be (data : Bytes) : Cursor Error Int16 := do
  let bs ← Cursor.readBytes 2 data
  return (UInt16.ofNat (Bytes.ofBe bs)).toInt16

def readI32Be (data : Bytes) : Cursor Error Int32 := do
  let bs ← Cursor.readBytes 4 data
  return (UInt32.ofNat (Bytes.ofBe bs)).toInt32

def readI64Be (data : Bytes) : Cursor Error Int64 := do
  let bs ← Cursor.readBytes 8 data
  return (UInt64.ofNat (Bytes.ofBe bs)).toInt64

/-- `read_i16_be(..) as u16` -/
def readU16Be (data : Bytes) : Cursor Error UInt16 := do
  let raw ← readI16Be data
  return raw.toUInt16

/-- `read_i32_be(..) as u32` -/
def readU32Be (data : Bytes) : Cursor Error UInt32 := do
  let raw ← readI32Be data
  return raw.toUInt32

/-- `read_string`: up to the next zero byte or the end of the data.  The offset
moves one byte further in both cases. -/
def readString (data : Bytes) : Cursor Error String := fun offset => do
  let start ← Bytes.sliceFrom data offset
  let text := start.takeWhile (· ≠ 0)
  return (fromUtf8Lossy text, offset + text.length + 1)

/-! ## Tuples -/

def nullColumn : TupleColumn := ⟨true, false, none⟩

def unchangedColumn : TupleColumn := ⟨false, true, none⟩

def textColumn (value : Bytes) : TupleColumn := ⟨false, false, some value⟩

def decodeTextValue (data : Bytes) : Cursor Error TupleColumn := do
  let rawLen ← readI32Be data
  if rawLen < 0 then
    throw (.invalidMessageFormat "negative tuple value length")
  else
    let value ← Cursor.takeSlice
      (.invalidMessageFormat "tuple value exceeds data length")
      rawLen.toNatClampNeg data
    return textColumn value

/-- What follows the kind byte of a column. -/
def decodeColumnOfKind (kind : UInt8) (data : Bytes) :
    Cursor Error TupleColumn :=
  match kind.toChar with
  | 'n' => return nullColumn
  | 'u' => return unchangedColumn
  | 't' => decodeTextValue data
  | _ => throw (.invalidMessageFormat
      s!"unknown column kind '{kind.toChar}'")

/-- One round of the loop of `decode_tuple_data`. -/
def decodeTupleColumn (data : Bytes) : Cursor Error TupleColumn := do
  Cursor.ensureMore (.invalidMessageFormat "truncated tuple data") data
  let kind ← Cursor.nextByte data
  decodeColumnOfKind kind data

def decodeTupleData (data : Bytes) : Cursor Error (List TupleColumn) := do
  let colCount ← readU16Be data
  Cursor.times (decodeTupleColumn data) colCount.toNat

/-- `decode_tuple_data(&data[offset..])?` -/
def tupleAt (data : Bytes) : Cursor Error (List TupleColumn) :=
  Cursor.onRest (fun rest => (decodeTupleData rest).run 0) data

/-! ## One reader for each message -/

def decodeBegin (data : Bytes) : Cursor Error BeginMessage := do
  let lsn ← readI64Be data
  let timestamp ← readI64Be data
  let xid ← readU32Be data
  return ⟨lsn, timestamp, xid⟩

def decodeCommit (data : Bytes) : Cursor Error CommitMessage := do
  let flags ← readI8 data
  let lsn ← readI64Be data
  let endLsn ← readI64Be data
  let timestamp ← readI64Be data
  return ⟨flags, lsn, endLsn, timestamp⟩

def decodeRelationColumn (data : Bytes) : Cursor Error RelationColumn := do
  let flags ← readI8 data
  let colName ← readString data
  let typeOid ← readU32Be data
  let typeModifier ← readI32Be data
  return ⟨flags, colName, typeOid, typeModifier⟩

def decodeRelation (data : Bytes) : Cursor Error RelationMessage := do
  let oid ← readU32Be data
  let schema ← readString data
  let name ← readString data
  let _replicaIdentity ← readI16Be data
  let colCount ← readU16Be data
  let columns ← Cursor.times (decodeRelationColumn data)
    colCount.toNat
  return ⟨oid, schema, name, columns⟩

def decodeInsert (data : Bytes) : Cursor Error InsertMessage := do
  let relationOid ← readU32Be data
  Cursor.ensureMore (.invalidMessageFormat "truncated insert message") data
  let tupleType ← Cursor.nextByte data
  if tupleType.toChar ≠ 'N' then
    throw (.invalidMessageFormat
      s!"expected 'N' tuple type in insert, got '{tupleType.toChar}'")
  else
    let newTuple ← tupleAt data
    return ⟨relationOid, newTuple⟩

/-- The tuple behind `'N'` that has to follow an old tuple of kind `oldType`
in an update. -/
def decodeNewAfterOld (oldType : Char) (data : Bytes) :
    Cursor Error (List TupleColumn) := do
  Cursor.ensureMore (.invalidMessageFormat
    s!"truncated update: expected 'N' after '{oldType}'") data
  let tupleType ← Cursor.nextByte data
  if tupleType.toChar ≠ 'N' then
    throw (.invalidMessageFormat
      s!"expected 'N' after '{oldType}' in update, got '{tupleType.toChar}'")
  else
    tupleAt data

/-- Both tuples of an update, by the first tuple's type. -/
def decodeUpdateTuples (tupleType : UInt8) (data : Bytes) :
    Cursor Error (Option (List TupleColumn) × List TupleColumn) :=
  match tupleType.toChar with
  | 'K' => do
      let keyTuple ← tupleAt data
      let newTup ← decodeNewAfterOld 'K' data
      return (some keyTuple, newTup)
  | 'O' => do
      let oldTup ← tupleAt data
      let newTup ← decodeNewAfterOld 'O' data
      return (some oldTup, newTup)
  | 'N' => do
      let newTup ← tupleAt data
      return (none, newTup)
  | _ => throw (.invalidMessageFormat
      s!"unknown tuple type '{tupleType.toChar}' in update")

def decodeUpdate (data : Bytes) : Cursor Error UpdateMessage := do
  let relationOid ← readU32Be data
  Cursor.ensureMore (.invalidMessageFormat "truncated update message") data
  let tupleType ← Cursor.nextByte data
  let tuples ← decodeUpdateTuples tupleType data
  return ⟨relationOid, tuples.1, tuples.2⟩

def decodeDeleteTuple (tupleType : UInt8) (data : Bytes) :
    Cursor Error (List TupleColumn) :=
  match tupleType.toChar with
  | 'K' | 'O' => tupleAt data
  | _ => throw (.invalidMessageFormat
      s!"unknown tuple type '{tupleType.toChar}' in delete")

def decodeDelete (data : Bytes) : Cursor Error DeleteMessage := do
  let relationOid ← readU32Be data
  Cursor.ensureMore (.invalidMessageFormat "truncated delete message") data
  let tupleType ← Cursor.nextByte data
  let oldTuple ← decodeDeleteTuple tupleType data
  return ⟨relationOid, oldTuple⟩

def decodeTruncate (data : Bytes) : Cursor Error TruncateMessage := do
  let numRels ← readU32Be data
  let options ← readI8 data
  let relationOids ← Cursor.times (readU32Be data) numRels.toNat
  return ⟨relationOids, options⟩

/-! ## The decoder -/

/-- `PgOutputDecoder`; `{}` is a new one. -/
structure PgOutputDecoder where
  relations : List RelationMessage := []
deriving DecidableEq, Repr

namespace PgOutputDecoder

def getRelation (decoder : PgOutputDecoder) (oid : UInt32) :
    Option RelationMessage :=
  decoder.relations.find? fun r => r.oid = oid

/-- Read one message from the start of `rest`; bytes behind it are ignored. -/
def readMessage {μ : Type} (decodeBody : Bytes → Cursor Error μ)
    (wrap : μ → PgOutputMessage) (rest : Bytes) :
    Outcome Error (Option PgOutputMessage) := do
  let (msg, _) ← (decodeBody rest).run 0
  return some (wrap msg)

/-- The result of a call and the decoder after it. -/
def decode (decoder : PgOutputDecoder) (data : Bytes) :
    Outcome Error (Option PgOutputMessage) × PgOutputDecoder :=
  match data with
  | [] => (.ok none, decoder)
  | msgType :: rest =>
      match msgType.toChar with
      | 'B' => (readMessage decodeBegin .begin rest, decoder)
      | 'C' => (readMessage decodeCommit .commit rest, decoder)
      | 'R' =>
          match (decodeRelation rest).run 0 with
          | .ok (msg, _) =>
              (.ok (some (.relation msg)), ⟨decoder.relations ++ [msg]⟩)
          | .error e => (.error e, decoder)
          | .panicked => (.panicked, decoder)
      | 'I' => (readMessage decodeInsert .insert rest, decoder)
      | 'U' => (readMessage decodeUpdate .update rest, decoder)
      | 'D' => (readMessage decodeDelete .delete rest, decoder)
      | 'T' => (readMessage decodeTruncate .truncate rest, decoder)
      | _ => (.ok none, decoder)

end PgOutputDecoder
end OpenCdc.Postgres
