import OpenCdc.Core.Error
import OpenCdc.Foundation.Text

/-!
# The scramble of a greeting

The server's greeting carries in two parts the bytes that the client has to
answer with its password.  The binlog client and the snapshotter each walk over
the greeting on their own; the second does not step over the ten reserved bytes
in front of the second part.
-/

namespace OpenCdc.Mysql

open Foundation

/-! ## The two walks -/

/-- The offset behind the zero byte of the server version. -/
def behindVersion (data : Bytes) : ℕ :=
  1 + ((data.drop 1).takeWhile (· ≠ 0)).length + 1

/-- The part of `BinlogClient::handshake` between reading the greeting and
answering it. -/
def handshakeScramble (greeting : Bytes) : Outcome String Bytes := do
  let protocolVersion ← Bytes.byteAt greeting 0
  if protocolVersion = 0xff then
    let errMsg ← Bytes.sliceFrom greeting 3
    throw ("mysql handshake error: " ++ fromUtf8Lossy errMsg)
  else if protocolVersion ≠ 10 then
    throw ("unsupported protocol version: " ++
      toString protocolVersion.toNat)
  else
    let pos := behindVersion greeting
    let _connectionId ← Bytes.bytesAt greeting pos 4
    let pos := pos + 4
    let authPluginDataPart1 ← Bytes.slice greeting pos (pos + 8)
    let pos := pos + 8
    let _filler ← Bytes.byteAt greeting pos
    let pos := pos + 1
    let _capabilityFlags1 ← Bytes.bytesAt greeting pos 2
    let pos := pos + 2
    let _characterSet ← Bytes.byteAt greeting pos
    let pos := pos + 1
    let _statusFlags ← Bytes.bytesAt greeting pos 2
    let pos := pos + 2
    let _capabilityFlags2 ← Bytes.bytesAt greeting pos 2
    let pos := pos + 2
    let authDataLen := (greeting[pos]?.map UInt8.toNat).getD 0
    let pos := if pos < greeting.length then pos + 1 else pos
    let pos := pos + 10
    if 8 < authDataLen then
      let stop := min (pos + (authDataLen - 8)) greeting.length
      let authPluginDataPart2 ← Bytes.slice greeting pos stop
      return authPluginDataPart1 ++ authPluginDataPart2
    else return authPluginDataPart1

/-- `parse_greeting` of the snapshotter. -/
def parseGreeting (data : Bytes) : Outcome Error Bytes :=
  if data = [] then throw (.other "empty greeting")
  else do
    let first ← Bytes.byteAt data 0
    if first = 0xff then
      let err ← Bytes.sliceFrom data 3
      throw (.other ("mysql greeting error: " ++ fromUtf8Lossy err))
    else if first ≠ 10 then
      throw (.other ("unsupported protocol: " ++ toString first.toNat))
    else
      let pos := behindVersion data
      let pos := pos + 4
      let auth1 ← Bytes.slice data pos (pos + 8)
      let pos := pos + (8 + 1 + 2 + 1 + 2)
      let _cap2 ← Bytes.bytesAt data pos 2
      let pos := pos + 2
      let authLen := (data[pos]?.map UInt8.toNat).getD 0
      let pos := pos + 1
      if 8 < authLen ∧ pos + (authLen - 8) ≤ data.length then
        let auth2 ← Bytes.slice data pos (pos + (authLen - 8))
        return auth1 ++ auth2
      else return auth1

/-! ## Greetings -/

/-- A greeting of protocol version 10. -/
structure Greeting where
  serverVersion : Bytes
  connectionId : UInt32
  authData1 : Bytes
  filler : UInt8
  capabilityFlags1 : UInt16
  characterSet : UInt8
  statusFlags : UInt16
  capabilityFlags2 : UInt16
  authDataLen : UInt8
  reserved : Bytes
  /-- The second part of the scramble and what the server sends behind it. -/
  authData2 : Bytes
  version_nulFree : (0 : UInt8) ∉ serverVersion
  length_authData1 : authData1.length = 8
  le_authDataLen : 21 ≤ authDataLen.toNat
  length_reserved : reserved.length = 10
  le_authData2 : authDataLen.toNat - 8 ≤ authData2.length

namespace Greeting

/-- The fields between the version and the reserved bytes. -/
def fixedFields (g : Greeting) : Bytes :=
  Bytes.toLe 4 g.connectionId.toNat ++ (g.authData1 ++ ([g.filler] ++
    (Bytes.toLe 2 g.capabilityFlags1.toNat ++ ([g.characterSet] ++
      (Bytes.toLe 2 g.statusFlags.toNat ++
        (Bytes.toLe 2 g.capabilityFlags2.toNat ++ [g.authDataLen]))))))

def encode (g : Greeting) : Bytes :=
  10 :: (g.serverVersion ++ 0 :: (g.fixedFields ++
    (g.reserved ++ g.authData2)))

/-- How many bytes of the scramble are in its second part. -/
def secondLength (g : Greeting) : ℕ := g.authDataLen.toNat - 8

/-- Where the fields behind the version start. -/
def start (g : Greeting) : ℕ := g.serverVersion.length + 2

theorem behindVersion_encode (g : Greeting) :
    behindVersion g.encode = g.start := by
  have htake : ((g.encode).drop 1).takeWhile (· ≠ 0) = g.serverVersion := by
    rw [encode, List.drop_succ_cons, List.drop_zero,
      List.takeWhile_append_of_pos, List.takeWhile_cons_of_neg (by simp),
      List.append_nil]
    intro b hb
    simpa using ne_of_mem_of_not_mem hb g.version_nulFree
  rw [behindVersion, htake, start]
  omega

theorem drop_encode (g : Greeting) :
    g.encode.drop g.start =
      g.fixedFields ++ (g.reserved ++ g.authData2) := by
  have hsplit : g.encode = (10 :: (g.serverVersion ++ [0])) ++
      (g.fixedFields ++ (g.reserved ++ g.authData2)) := by
    simp [encode]
  have hlength : (10 :: (g.serverVersion ++ [0])).length = g.start := by
    simp [start]
  rw [hsplit, ← hlength, List.drop_left]

theorem length_fixedFields (g : Greeting) : g.fixedFields.length = 21 := by
  simp [fixedFields, g.length_authData1]

/-- Where each field stands. -/
structure Placed (g : Greeting) : Prop where
  connectionId :
    Bytes.toLe 4 g.connectionId.toNat <+: g.encode.drop g.start
  authData1 : g.authData1 <+: g.encode.drop (g.start + 4)
  filler : [g.filler] <+: g.encode.drop (g.start + 12)
  capabilityFlags1 :
    Bytes.toLe 2 g.capabilityFlags1.toNat <+: g.encode.drop (g.start + 13)
  characterSet : [g.characterSet] <+: g.encode.drop (g.start + 15)
  statusFlags :
    Bytes.toLe 2 g.statusFlags.toNat <+: g.encode.drop (g.start + 16)
  capabilityFlags2 :
    Bytes.toLe 2 g.capabilityFlags2.toNat <+: g.encode.drop (g.start + 18)
  authDataLen : [g.authDataLen] <+: g.encode.drop (g.start + 20)

theorem placed (g : Greeting) : g.Placed := by
  have h : g.fixedFields <+: g.encode.drop g.start := by
    rw [drop_encode]
    exact List.prefix_append _ _
  unfold fixedFields at h
  simp only [Bytes.append_isPrefix_drop_iff, Bytes.length_toLe,
    List.length_singleton, g.length_authData1, Nat.add_assoc,
    Nat.reduceAdd] at h
  obtain ⟨h1, h2, h3, h4, h5, h6, h7, h8⟩ := h
  exact ⟨h1, h2, h3, h4, h5, h6, h7, h8⟩

theorem drop_behindFields (g : Greeting) :
    g.encode.drop (g.start + 21) = g.reserved ++ g.authData2 := by
  rw [← List.drop_drop, drop_encode, ← g.length_fixedFields, List.drop_left]

theorem length_encode (g : Greeting) :
    g.encode.length = g.start + 31 + g.authData2.length := by
  simp [encode, g.length_fixedFields, g.length_reserved, start]
  omega

theorem getElem?_authDataLen (g : Greeting) :
    g.encode[g.start + 20]? = some g.authDataLen := by
  have h := Bytes.byteAt_eq_ok_iff (ε := Unit).mpr g.placed.authDataLen
  unfold Bytes.byteAt at h
  split at h
  next b hb => rw [hb, Outcome.ok.inj h]
  next => cases h

theorem slice_authData1 {ε : Type} (g : Greeting) :
    Bytes.slice (ε := ε) g.encode (g.start + 4) (g.start + 12) =
      .ok g.authData1 := by
  have h := Bytes.slice_eq_ok (ε := ε) (by rw [length_encode]; omega)
    g.placed.authData1
  rw [g.length_authData1] at h
  exact h

/-- A slice behind the fixed fields. -/
theorem slice_behindFields {ε : Type} (g : Greeting) (offset length : ℕ)
    (h : offset + length ≤ 10 + g.authData2.length) :
    Bytes.slice (ε := ε) g.encode (g.start + 21 + offset)
        (g.start + 21 + offset + length) =
      .ok (((g.reserved ++ g.authData2).drop offset).take length) := by
  have hlength := g.length_encode
  unfold Bytes.slice
  rw [if_pos ⟨by omega, by omega⟩, ← List.drop_drop, drop_behindFields,
    Nat.add_sub_cancel_left]

/-- The binlog client steps over the reserved bytes. -/
theorem handshakeScramble_encode (g : Greeting) :
    handshakeScramble g.encode =
      .ok (g.authData1 ++ g.authData2.take g.secondLength) := by
  have hplaced := g.placed
  have hlen := g.le_authDataLen
  have hlen2 := g.le_authData2
  have htotal := g.length_encode
  have hfirst : Bytes.byteAt (ε := String) g.encode 0 = .ok 10 := rfl
  have hword : ∀ {offset width n : ℕ},
      Bytes.toLe width n <+: g.encode.drop offset →
      Bytes.bytesAt (ε := String) g.encode offset width =
        .ok (Bytes.toLe width n) := fun h =>
    Bytes.bytesAt_eq_ok_iff.mpr ⟨Bytes.length_toLe _ _, h⟩
  have hfiller := Bytes.byteAt_eq_ok_iff (ε := String).mpr hplaced.filler
  have hcharset :=
    Bytes.byteAt_eq_ok_iff (ε := String).mpr hplaced.characterSet
  have hstop : min (g.start + 21 + (10 + (g.authDataLen.toNat - 8)))
      g.encode.length = g.start + 21 + 10 + g.secondLength := by
    rw [htotal, secondLength]
    omega
  have hpart2 := g.slice_behindFields (ε := String) 10 g.secondLength
    (by rw [secondLength]; omega)
  rw [← g.length_reserved, List.drop_left, g.length_reserved] at hpart2
  have hnot : ¬(10 : UInt8) = 0xff := by decide
  unfold handshakeScramble
  simp only [hfirst, Outcome.ok_bind, if_neg hnot, ne_eq, not_true, if_false,
    behindVersion_encode, Nat.add_assoc, Nat.reduceAdd,
    hword hplaced.connectionId, slice_authData1, hfiller,
    hword hplaced.capabilityFlags1, hcharset, hword hplaced.statusFlags,
    hword hplaced.capabilityFlags2, getElem?_authDataLen, Option.map_some,
    Option.getD_some]
  rw [if_pos (by omega), if_pos (by omega), hstop, hpart2]
  rfl

/-- The snapshotter takes the reserved bytes for the first ones of the second
part. -/
theorem parseGreeting_encode (g : Greeting) :
    parseGreeting g.encode =
      .ok (g.authData1 ++
        (g.reserved ++ g.authData2).take g.secondLength) := by
  have hplaced := g.placed
  have hlen := g.le_authDataLen
  have hlen2 := g.le_authData2
  have htotal := g.length_encode
  have hcap2 := Bytes.bytesAt_eq_ok_iff (ε := Error).mpr
    ⟨Bytes.length_toLe 2 _, hplaced.capabilityFlags2⟩
  have hpart2 := g.slice_behindFields (ε := Error) 0 g.secondLength
    (by rw [secondLength]; omega)
  rw [List.drop_zero, Nat.add_zero] at hpart2
  have hnot : ¬(10 : UInt8) = 0xff := by decide
  have hfirst : Bytes.byteAt (ε := Error) g.encode 0 = .ok 10 := rfl
  have hne : g.encode ≠ [] := List.cons_ne_nil _ _
  unfold parseGreeting
  simp only [if_neg hne, hfirst, Outcome.ok_bind, if_neg hnot, ne_eq, not_true,
    if_false, behindVersion_encode, Nat.add_assoc, Nat.reduceAdd,
    slice_authData1, hcap2, getElem?_authDataLen, Option.map_some,
    Option.getD_some]
  rw [if_pos ⟨by omega, by omega⟩, ← secondLength, ← Nat.add_assoc, hpart2]
  rfl

/-! ## When the two agree -/

/-- A list shifted behind another one starts like itself as far as it repeats
that other one. -/
theorem take_append_eq_take_iff {α : Type*} {xs ys : List α} {n : ℕ}
    (hxs : xs ≠ []) :
    (xs ++ ys).take n = ys.take n ↔
      ∀ i < n, ys[i]? = xs[i % xs.length]? := by
  have hpos : 0 < xs.length := List.length_pos_iff.mpr hxs
  have hget : (xs ++ ys).take n = ys.take n ↔
      ∀ i < n, (xs ++ ys)[i]? = ys[i]? := by
    rw [List.ext_getElem?_iff]
    apply forall_congr'
    intro i
    rw [List.getElem?_take, List.getElem?_take]
    by_cases hi : i < n
    · simp [hi]
    · simp [hi]
  rw [hget]
  constructor
  · intro h i
    -- each element is the one that stands a whole repetition in front of it
    induction i using Nat.strong_induction_on with
    | _ i ih =>
        intro hi
        rcases Nat.lt_or_ge i xs.length with hlt | hge
        · rw [← h i hi, List.getElem?_append_left hlt, Nat.mod_eq_of_lt hlt]
        · rw [← h i hi, List.getElem?_append_right hge,
            ih (i - xs.length) (by omega) (by omega), Nat.mod_eq_sub_mod hge]
  · intro h i hi
    rcases Nat.lt_or_ge i xs.length with hlt | hge
    · rw [h i hi, List.getElem?_append_left hlt, Nat.mod_eq_of_lt hlt]
    · rw [h i hi, List.getElem?_append_right hge, h _ (by omega),
        Nat.mod_eq_sub_mod hge]

/-- The second part of the scramble repeats the reserved bytes. -/
def RepeatsReserved (g : Greeting) : Prop :=
  ∀ i < g.secondLength, g.authData2[i]? = g.reserved[i % 10]?

/-- Both connections answer the same scramble just for such greetings. -/
theorem same_scramble_iff (g : Greeting) :
    (∃ scramble, handshakeScramble g.encode = .ok scramble ∧
        parseGreeting g.encode = .ok scramble) ↔
      g.RepeatsReserved := by
  have hne : g.reserved ≠ [] := by
    intro hnil
    have hlength := g.length_reserved
    simp [hnil] at hlength
  have htake : (g.reserved ++ g.authData2).take g.secondLength =
      g.authData2.take g.secondLength ↔ g.RepeatsReserved := by
    rw [take_append_eq_take_iff hne, g.length_reserved]
    rfl
  rw [handshakeScramble_encode, parseGreeting_encode, ← htake]
  constructor
  · rintro ⟨scramble, hfirst, hsecond⟩
    rw [← Outcome.ok.inj hfirst] at hsecond
    exact List.append_cancel_left (Outcome.ok.inj hsecond)
  · intro h
    exact ⟨_, rfl, by rw [h]⟩

/-- A greeting as servers send it, with zero reserved bytes. -/
def usual : Greeting where
  serverVersion := [0x38, 0x2e, 0x30]
  connectionId := 7
  authData1 := [1, 2, 3, 4, 5, 6, 7, 8]
  filler := 0
  capabilityFlags1 := 0xf7ff
  characterSet := 33
  statusFlags := 2
  capabilityFlags2 := 0x807f
  authDataLen := 21
  reserved := List.replicate 10 0
  authData2 := [9, 10, 11, 12, 13, 14, 15, 16, 17, 18, 19, 20, 0]
  version_nulFree := by decide
  length_authData1 := rfl
  le_authDataLen := by decide
  length_reserved := rfl
  le_authData2 := by decide

theorem usual_scrambles_differ :
    ¬∃ scramble, handshakeScramble usual.encode = .ok scramble ∧
      parseGreeting usual.encode = .ok scramble := by
  have hfirst : handshakeScramble usual.encode =
      .ok [1, 2, 3, 4, 5, 6, 7, 8, 9, 10, 11, 12, 13, 14, 15, 16, 17, 18, 19,
        20, 0] := by decide
  have hsecond : parseGreeting usual.encode =
      .ok [1, 2, 3, 4, 5, 6, 7, 8, 0, 0, 0, 0, 0, 0, 0, 0, 0, 0, 9, 10,
        11] := by decide
  rintro ⟨scramble, h, h'⟩
  have hsame := Outcome.ok.inj (hfirst.symm.trans h)
  rw [← hsame, hsecond] at h'
  exact absurd h' (by decide)

end Greeting
end OpenCdc.Mysql
