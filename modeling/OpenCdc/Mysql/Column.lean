import OpenCdc.Core.Json
import OpenCdc.Foundation.Text

/-!
# Column values of the binlog

A column value is decoded from its bytes by the type of the column and its
metadata.  An index outside the bytes is a panic.  The JSON parser of the host
library is a parameter.
-/

namespace OpenCdc.Mysql

open Foundation Json

/-- What is used of the JSON library: a whole document, and a document that is
one number (as the bit pattern of a double). -/
structure JsonParser where
  value : String → Option Value
  f64 : String → Option ℕ

/-! ## Column types -/

def mysqlTypeTiny : UInt8 := 1
def mysqlTypeShort : UInt8 := 2
def mysqlTypeLong : UInt8 := 3
def mysqlTypeFloat : UInt8 := 4
def mysqlTypeDouble : UInt8 := 5
def mysqlTypeTimestamp : UInt8 := 7
def mysqlTypeLonglong : UInt8 := 8
def mysqlTypeInt24 : UInt8 := 9
def mysqlTypeDate : UInt8 := 10
def mysqlTypeTime : UInt8 := 11
def mysqlTypeDatetime : UInt8 := 12
def mysqlTypeYear : UInt8 := 13
def mysqlTypeVarchar : UInt8 := 15
def mysqlTypeBit : UInt8 := 16
def mysqlTypeTimestamp2 : UInt8 := 17
def mysqlTypeDatetime2 : UInt8 := 18
def mysqlTypeTime2 : UInt8 := 19
def mysqlTypeJson : UInt8 := 245
def mysqlTypeNewdecimal : UInt8 := 246
def mysqlTypeEnum : UInt8 := 247
def mysqlTypeSet : UInt8 := 248
def mysqlTypeTinyBlob : UInt8 := 249
def mysqlTypeMediumBlob : UInt8 := 250
def mysqlTypeLongBlob : UInt8 := 251
def mysqlTypeBlob : UInt8 := 252
def mysqlTypeVarString : UInt8 := 253
def mysqlTypeString : UInt8 := 254

/-- The three types that hold a length-encoded string. -/
def isStringType (colType : UInt8) : Bool :=
  colType == mysqlTypeVarchar || colType == mysqlTypeVarString ||
    colType == mysqlTypeString

/-- The four BLOB types. -/
def isBlobType (colType : UInt8) : Bool :=
  colType == mysqlTypeBlob || colType == mysqlTypeTinyBlob ||
    colType == mysqlTypeMediumBlob || colType == mysqlTypeLongBlob

/-! ## Text -/

/-- `hex::encode` -/
def hexEncode (data : Bytes) : String :=
  String.ofList (data.flatMap fun b =>
    [Nat.digitChar (b.toNat / 16), Nat.digitChar (b.toNat % 16)])

def leftPad (width : ℕ) (digits : List Char) : List Char :=
  List.replicate (width - digits.length) '0' ++ digits

/-- A number padded with zeros behind its sign. -/
def padZero (width : ℕ) (n : ℤ) : String :=
  if n < 0 then
    String.ofList ('-' :: leftPad (width - 1) (Nat.toDigits 10 n.natAbs))
  else String.ofList (leftPad width (Nat.toDigits 10 n.natAbs))

/-- `as i32` -/
def asI32 (n : ℤ) : ℤ := (Int32.ofInt n).toInt

def formatDatetime (year month day hour minute second : ℤ) : String :=
  padZero 4 year ++ "-" ++ padZero 2 month ++ "-" ++ padZero 2 day ++ " " ++
    padZero 2 hour ++ ":" ++ padZero 2 minute ++ ":" ++ padZero 2 second

/-! ## Values -/

variable {ε : Type}

/-- The unsigned number in the first `width` bytes, least significant
first. -/
def readLe (width : ℕ) (data : Bytes) : Outcome ε ℕ := do
  let bs ← Bytes.bytesAt data 0 width
  return Bytes.ofLe bs

/-- A 64-bit value, as a text where it is too large for a signed integer. -/
def unsignedToJson (val : ℕ) : Value :=
  if 2 ^ 63 - 1 < val then .string (toString val) else Value.ofInt val

/-- `decode_length_encoded_string` -/
def decodeLengthEncodedString (data : Bytes) : ℕ × String :=
  match data with
  | [] => (1, "")
  | first :: rest =>
      if data.length < 1 + first.toNat then (1, "")
      else (1 + first.toNat, fromUtf8Lossy (rest.take first.toNat))

def decodeDate (data : Bytes) : Outcome ε Value := do
  let days ← readLe 4 data
  if days = 0 then return .string "0000-00-00"
  else
    let d : ℤ := days - 365 - 1
    let year := (d * 100 + 50).tdiv 36525 + 1970
    let yday := d - ((year - 1970) * 365 + (year - 1969).tdiv 4)
    return .string (toString year ++ "-" ++ padZero 2 (yday.tdiv 30 + 1) ++
      "-" ++ padZero 2 (yday.tmod 30 + 1))

def decodeDatetime (data : Bytes) : Outcome ε Value :=
  if data.length < 8 then return .string "0000-00-00 00:00:00"
  else do
    let raw ← readLe 8 data
    let packed := (UInt64.ofNat raw).toInt64.toInt
    if packed = 0 then return .string "0000-00-00 00:00:00"
    else
      let d := packed.tdiv 1000000
      let t := packed.tmod 1000000
      return .string (formatDatetime (asI32 (d.tdiv 10000))
        (asI32 ((d.tmod 10000).tdiv 100)) (asI32 (d.tmod 100))
        (asI32 (t.tdiv 10000)) (asI32 ((t.tmod 10000).tdiv 100))
        (asI32 (t.tmod 100)))

/-- The fraction bytes, most significant first, in 64 bits. -/
def decodeFraction (bytes : Bytes) : ℕ :=
  bytes.foldl (fun frac b => frac * 256 % 2 ^ 64 + b.toNat) 0

def decodeDatetime2 (data : Bytes) (fracSec : ℕ) : Outcome ε Value :=
  if data.length < 5 then return .string "0000-00-00 00:00:00"
  else do
    let high ← Bytes.bytesAt data 0 5
    let packed := Bytes.ofBe high
    let d := packed >>> 17
    let t := (packed >>> 5) &&& 0xfff
    let year := d / 13 / 32
    let month := d / 32 % 13
    let day := d % 32
    let hour := t >>> 7
    let minute := (t >>> 1) &&& 0x3f
    let second := ((t <<< 3) &&& 0x38) ||| ((packed &&& 0x1f) >>> 2)
    let text := formatDatetime year month day hour minute second
    let fracBytes := (fracSec + 1) / 2
    if 0 < fracSec ∧ 5 + fracBytes ≤ data.length then
      let fraction ← Bytes.slice data 5 (5 + fracBytes)
      return .string (text ++ "." ++ padZero 6 (decodeFraction fraction))
    else return .string text

def decodeTimestamp2 (data : Bytes) : Outcome ε Value :=
  if data.length < 4 then return Value.ofInt 0
  else do
    let secs ← readLe 4 data
    return Value.ofInt secs

def decodeDecimal (json : JsonParser) (data : Bytes) : Outcome ε Value :=
  if data = [] then return Value.ofInt 0
  else
    let text := fromUtf8Lossy data
    return match json.f64 text with
      | some pattern => Value.ofF64 pattern
      | none => .string text

/-- The bits of `BIT` in 64 bits; a shift takes its distance modulo 64. -/
def decodeBits (bytes : Bytes) : ℕ :=
  (bytes.zipIdx).foldl
    (fun val pair => val ||| (pair.1.toNat <<< (pair.2 * 8 % 64))) 0

def bitLength (colMeta : UInt16) : ℕ :=
  colMeta.toNat / 256 * 8 + colMeta.toNat % 256

def isSigned (colMeta : UInt16) : Bool := colMeta &&& 0x80 != 0

/-- `decode_binlog_value` -/
def decodeBinlogValue (json : JsonParser) (data : Bytes) (colType : UInt8)
    (colMeta : UInt16) : Outcome ε Value :=
  if colType = mysqlTypeTiny then do
    let b ← Bytes.byteAt data 0
    return if isSigned colMeta then Value.ofInt b.toInt8.toInt
      else Value.ofInt b.toNat
  else if colType = mysqlTypeShort then do
    let val ← readLe 2 data
    return if isSigned colMeta then
        Value.ofInt (UInt16.ofNat val).toInt16.toInt
      else Value.ofInt val
  else if colType = mysqlTypeLong ∨ colType = mysqlTypeInt24 then do
    let val ← readLe 4 data
    return Value.ofInt val
  else if colType = mysqlTypeLonglong then do
    let val ← readLe 8 data
    return unsignedToJson val
  else if colType = mysqlTypeFloat then do
    let val ← readLe 4 data
    return Value.ofF32 val
  else if colType = mysqlTypeDouble then do
    let val ← readLe 8 data
    return Value.ofF64 val
  else if colType = mysqlTypeDate then decodeDate data
  else if colType = mysqlTypeDatetime then decodeDatetime data
  else if colType = mysqlTypeDatetime2 then
    decodeDatetime2 data (colMeta.toNat % 256)
  else if colType = mysqlTypeTimestamp then do
    let secs ← readLe 4 data
    return Value.ofInt secs
  else if colType = mysqlTypeTimestamp2 then decodeTimestamp2 data
  else if isStringType colType then
    return .string (decodeLengthEncodedString data).2
  else if isBlobType colType then return .string (hexEncode data)
  else if colType = mysqlTypeBit then
    return unsignedToJson
      (decodeBits (data.take ((bitLength colMeta + 7) / 8)))
  else if colType = mysqlTypeJson then
    return (json.value (fromUtf8Lossy data)).getD
      (.string (fromUtf8Lossy data))
  else if colType = mysqlTypeEnum ∨ colType = mysqlTypeSet then do
    let b ← Bytes.byteAt data 0
    return Value.ofInt b.toNat
  else if colType = mysqlTypeNewdecimal then decodeDecimal json data
  else if colType = mysqlTypeYear then do
    let b ← Bytes.byteAt data 0
    return Value.ofInt (b.toNat + 1900)
  else return .string (hexEncode data)

/-- `column_data_length`; 0 for a type without a fixed length. -/
def columnDataLength (colType : UInt8) (colMeta : UInt16) : ℕ :=
  if colType = mysqlTypeTiny then 1
  else if colType = mysqlTypeShort ∨ colType = mysqlTypeYear then 2
  else if colType = mysqlTypeLong ∨ colType = mysqlTypeInt24 ∨
      colType = mysqlTypeFloat ∨ colType = mysqlTypeDate ∨
      colType = mysqlTypeTime ∨ colType = mysqlTypeTimestamp then 4
  else if colType = mysqlTypeLonglong ∨ colType = mysqlTypeDouble ∨
      colType = mysqlTypeDatetime then 8
  else if colType = mysqlTypeBit then (bitLength colMeta + 7) / 8
  else if colType = mysqlTypeNewdecimal then colMeta.toNat / 256 + 4
  else if colType = mysqlTypeTimestamp2 ∨ colType = mysqlTypeDatetime2 ∨
      colType = mysqlTypeTime2 then
    if 0 < colMeta.toNat % 256 then 5 + (colMeta.toNat % 256 + 1) / 2 else 5
  else 0

end OpenCdc.Mysql
