import OpenCdc.Core.Json
import OpenCdc.Foundation.Text

/-!
# Column values as JSON

The text of a column becomes a JSON value by the type OID of the column.  The
JSON parser of the host library is a parameter.
-/

namespace OpenCdc.Postgres

open Foundation Json

def boolOid : UInt32 := 16
def int2Oid : UInt32 := 21
def int4Oid : UInt32 := 23
def int8Oid : UInt32 := 20
def float4Oid : UInt32 := 700
def float8Oid : UInt32 := 701
def jsonOid : UInt32 := 114
def jsonbOid : UInt32 := 3802
def xidOid : UInt32 := 28
def oidOid : UInt32 := 26

/-- `.map(Value::from).unwrap_or(Value::Null)` on a parsed integer. -/
def intOrNull : Except ParseIntError ℤ → Value
  | .ok n => Value.ofInt n
  | .error _ => .null

/-- `pg_type_to_json`; every type without a branch of its own is a string. -/
def pgTypeToJson (parseJson : String → Option Value) (raw : Bytes)
    (typeOid : UInt32) : Value :=
  let s := fromUtf8Lossy raw
  if typeOid = boolOid then .bool (s == "t" || s == "true")
  else if typeOid = int2Oid ∨ typeOid = int4Oid then
    intOrNull (parseI32 s.toList)
  else if typeOid = int8Oid ∨ typeOid = xidOid then
    intOrNull (parseI64 s.toList)
  else if typeOid = float4Oid then
    match Ieee.parseF32 s.toList with
    | some pattern => Value.ofF32 pattern
    | none => .null
  else if typeOid = float8Oid then
    match Ieee.parseF64 s.toList with
    | some pattern => Value.ofF64 pattern
    | none => .null
  else if typeOid = jsonOid ∨ typeOid = jsonbOid then
    (parseJson s).getD (.string s)
  else if typeOid = oidOid then intOrNull (parseU32 10 s.toList)
  else .string s

end OpenCdc.Postgres
