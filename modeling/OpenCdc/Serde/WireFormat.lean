import OpenCdc.Core.Error
import OpenCdc.Foundation.Bytes
import OpenCdc.Foundation.Utf8Strict

/-!
# Wire format of the schema registry

A message is a zero byte, the id of its schema in four bytes, the most
significant one first, and the payload.
-/

namespace OpenCdc

open Foundation Bytes

def schemaRegistryMagicByte : UInt8 := 0x00

namespace SchemaRegistryWireFormat

def encode (schemaId : UInt32) (payload : Bytes) : Bytes :=
  schemaRegistryMagicByte :: (toBe 4 schemaId.toNat ++ payload)

def tooShort (length : ℕ) : Error :=
  .deserialization ("schema registry data too short: " ++ toString length ++
    " bytes")

/-- The byte stands in the text as `{:#x}` writes it. -/
def invalidMagicByte (b : UInt8) : Error :=
  .deserialization ("invalid magic byte: 0x" ++
    String.ofList (Nat.toDigits 16 b.toNat))

def decode (data : Bytes) : Outcome Error (UInt32 × Bytes) := do
  if data.length < 5 then throw (tooShort data.length)
  let magic ← byteAt data 0
  if magic ≠ schemaRegistryMagicByte then throw (invalidMagicByte magic)
  let schemaId ← bytesAt data 1 4
  let payload ← sliceFrom data 5
  return (UInt32.ofNat (ofBe schemaId), payload)

theorem decode_of_length_lt {data : Bytes} (h : data.length < 5) :
    decode data = .error (tooShort data.length) := by
  rw [decode, if_pos h]
  rfl

theorem decode_cons {magic : UInt8} {schemaId payload : Bytes}
    (h : schemaId.length = 4) :
    decode (magic :: (schemaId ++ payload)) =
      if magic = schemaRegistryMagicByte then
        .ok (UInt32.ofNat (ofBe schemaId), payload)
      else .error (invalidMagicByte magic) := by
  have hlength : ¬(magic :: (schemaId ++ payload)).length < 5 := by
    rw [List.length_cons, List.length_append]
    omega
  have hmagic : byteAt (ε := Error) (magic :: (schemaId ++ payload)) 0 =
      .ok magic := rfl
  have hid : bytesAt (ε := Error) (magic :: (schemaId ++ payload)) 1 4 =
      .ok schemaId :=
    bytesAt_eq_ok_iff.mpr ⟨h, List.prefix_append schemaId payload⟩
  have hpayload : sliceFrom (ε := Error) (magic :: (schemaId ++ payload)) 5 =
      .ok payload := by
    rw [sliceFrom, if_pos (Nat.not_lt.mp hlength), List.drop_succ_cons,
      List.drop_left' h]
  rw [decode, if_neg hlength, hmagic, hid, hpayload]
  by_cases hzero : magic = schemaRegistryMagicByte
  · simp [hzero]
  · simp [hzero]

/-- Data of sufficient length is a first byte, an id and a payload. -/
theorem exists_frame {data : Bytes} (h : 5 ≤ data.length) :
    ∃ magic schemaId payload, data = magic :: (schemaId ++ payload) ∧
      schemaId.length = 4 := by
  cases data with
  | nil => simp at h
  | cons magic rest =>
      refine ⟨magic, rest.take 4, rest.drop 4, ?_, ?_⟩
      · rw [List.take_append_drop]
      · rw [List.length_cons] at h
        rw [List.length_take]
        omega

theorem decode_encode (schemaId : UInt32) (payload : Bytes) :
    decode (encode schemaId payload) = .ok (schemaId, payload) := by
  have hid : ofBe (toBe 4 schemaId.toNat) = schemaId.toNat := by
    rw [ofBe_toBe]
    exact Nat.mod_eq_of_lt schemaId.toNat_lt
  rw [encode, decode_cons (length_toBe 4 _), if_pos rfl, hid,
    UInt32.ofNat_toNat]

theorem encode_of_length {schemaId : Bytes} (h : schemaId.length = 4)
    (payload : Bytes) :
    encode (UInt32.ofNat (ofBe schemaId)) payload =
      schemaRegistryMagicByte :: (schemaId ++ payload) := by
  have hbytes : toBe 4 (ofBe schemaId % 256 ^ 4) = schemaId := toBe_ofBe_mod h
  rw [encode, UInt32.toNat_ofNat']
  exact congrArg (fun bs => schemaRegistryMagicByte :: (bs ++ payload)) hbytes

/-- The format has one reading for each message, and one message for each
reading. -/
theorem decode_eq_ok_iff {data : Bytes} {schemaId : UInt32} {payload : Bytes} :
    decode data = .ok (schemaId, payload) ↔ data = encode schemaId payload := by
  constructor
  · intro h
    rcases Nat.lt_or_ge data.length 5 with hshort | hlong
    · rw [decode_of_length_lt hshort] at h
      cases h
    · obtain ⟨magic, idBytes, rest, rfl, hid⟩ := exists_frame hlong
      rw [decode_cons hid] at h
      split_ifs at h with hmagic
      cases h
      rw [encode_of_length hid, hmagic]
  · intro h
    rw [h, decode_encode]

theorem exists_decode_iff {data : Bytes} :
    (∃ message, decode data = .ok message) ↔
      5 ≤ data.length ∧ data.head? = some schemaRegistryMagicByte := by
  constructor
  · rintro ⟨message, hmessage⟩
    rw [decode_eq_ok_iff.mp hmessage]
    simp [encode]
  · rintro ⟨hlength, hhead⟩
    obtain ⟨magic, schemaId, payload, rfl, hid⟩ := exists_frame hlength
    rw [decode_cons hid, if_pos (Option.some.inj hhead)]
    exact ⟨_, rfl⟩

end SchemaRegistryWireFormat

namespace SchemaRegistryPayload

open SchemaRegistryWireFormat

def encodeJson (schemaId : UInt32) (jsonStr : String) : Bytes :=
  encode schemaId (encodeUtf8 jsonStr.toList)

def decodeJson (data : Bytes) : Outcome Error (UInt32 × String) := do
  let message ← decode data
  match fromUtf8 message.2 with
  | .ok jsonStr => return (message.1, jsonStr)
  | .error e =>
      throw (.deserialization ("invalid utf-8 in schema registry payload: " ++
        e.message))

/-- The bytes are the encoding of a text. -/
def ValidUtf8 (bytes : Bytes) : Prop := ∃ text, bytes = encodeUtf8 text

theorem decodeJson_eq_ok_iff {data : Bytes} {schemaId : UInt32}
    {jsonStr : String} :
    decodeJson data = .ok (schemaId, jsonStr) ↔
      data = encodeJson schemaId jsonStr := by
  rw [encodeJson, ← decode_eq_ok_iff, decodeJson, Outcome.bind_eq_ok]
  constructor
  · rintro ⟨message, hdecode, h⟩
    split at h
    next s hread =>
      cases h
      rw [hdecode, ← fromUtf8_eq_ok_iff.mp hread]
    next => cases h
  · intro h
    refine ⟨_, h, ?_⟩
    rw [fromUtf8_eq_ok_iff.mpr rfl]
    rfl

/-- The messages that are read as texts. -/
theorem exists_encodeJson_iff {data : Bytes} {schemaId : UInt32} :
    (∃ jsonStr, data = encodeJson schemaId jsonStr) ↔
      ∃ payload, decode data = .ok (schemaId, payload) ∧
        ValidUtf8 payload := by
  constructor
  · rintro ⟨jsonStr, rfl⟩
    exact ⟨_, decode_encode _ _, _, rfl⟩
  · rintro ⟨_, hdecode, text, rfl⟩
    refine ⟨String.ofList text, ?_⟩
    rw [encodeJson, String.toList_ofList]
    exact decode_eq_ok_iff.mp hdecode

/-- Frames and texts are read back, and read from nothing else. -/
theorem wireFormat_exact :
    (∀ schemaId payload,
        decode (encode schemaId payload) = .ok (schemaId, payload)) ∧
      (∀ data, (∃ message, decode data = .ok message) ↔
        5 ≤ data.length ∧ data.head? = some schemaRegistryMagicByte) ∧
      (∀ data schemaId payload,
        decode data = .ok (schemaId, payload) ↔
          encode schemaId payload = data) ∧
      (∀ data schemaId jsonStr,
        decodeJson data = .ok (schemaId, jsonStr) ↔
          data = encodeJson schemaId jsonStr) ∧
      ∀ data schemaId, (∃ jsonStr, data = encodeJson schemaId jsonStr) ↔
        ∃ payload, decode data = .ok (schemaId, payload) ∧
          ValidUtf8 payload := by
  refine ⟨decode_encode, fun _ => exists_decode_iff, ?_,
    fun _ _ _ => decodeJson_eq_ok_iff, fun _ _ => exists_encodeJson_iff⟩
  intro data schemaId payload
  exact decode_eq_ok_iff.trans eq_comm

end SchemaRegistryPayload
end OpenCdc
