import OpenCdc.Core.Record
import OpenCdc.Pipeline.Handoff

/-!
# Offsets that are saved

An offset has two forms to be saved in: the object that the derived serializer
writes, and the cursor map.  Only some offsets come back from the object as
they were, and the cursor map has what a connector starts from.
-/

namespace OpenCdc
namespace ConnectorOffset

open Foundation Json Postgres Pipeline

/-! ## The object -/

def jsonFields (o : ConnectorOffset) : List (String × Option Value) :=
  [("lsn", o.lsn.map ofI64),
    ("tx_id", o.txId.map ofI64),
    ("ts_ms", o.tsMs.map ofI64),
    ("snapshot", o.snapshot.map .bool),
    ("snapshot_completed", o.snapshotCompleted.map .bool),
    ("file", o.file.map .string),
    ("pos", o.pos.map ofI64),
    ("gtid", o.gtid.map .string),
    ("resume_token", o.resumeToken.map .string),
    ("source_partition", o.sourcePartition.map .string)]

def fieldNames : List String :=
  ["lsn", "tx_id", "ts_ms", "snapshot", "snapshot_completed", "file", "pos",
    "gtid", "resume_token", "source_partition"]

def toJson (o : ConnectorOffset) : Value :=
  .object (record o.jsonFields (o.extra.getD []))

/-- The flattened map collects every other key, and is there even if there are
none. -/
def ofJson : Value → Option ConnectorOffset
  | .object map => do
      let lsn ← Map.optional map "lsn" readI64
      let txId ← Map.optional map "tx_id" readI64
      let tsMs ← Map.optional map "ts_ms" readI64
      let snapshot ← Map.optional map "snapshot" readBool
      let snapshotCompleted ← Map.optional map "snapshot_completed" readBool
      let file ← Map.optional map "file" readString
      let pos ← Map.optional map "pos" readI64
      let gtid ← Map.optional map "gtid" readString
      let resumeToken ← Map.optional map "resume_token" readString
      let sourcePartition ← Map.optional map "source_partition" readString
      return {
        lsn, txId, tsMs, snapshot, snapshotCompleted, file, pos, gtid,
        resumeToken, sourcePartition,
        extra := some (Map.leftover map fieldNames) }
  | _ => none

/-- The flattened entries have different keys, and none that is the name of a
field. -/
def ExtraFits (extra : Map) : Prop := (fieldNames ++ extra.map Prod.fst).Nodup

/-- Such an offset comes back with a flattened map. -/
theorem ofJson_toJson {o : ConnectorOffset} (hfits : ExtraFits (o.extra.getD [])) :
    ofJson o.toJson = some { o with extra := some (o.extra.getD []) } := by
  have hnames : o.jsonFields.map Prod.fst = fieldNames := rfl
  have hnodup : (o.jsonFields.map Prod.fst ++
      (o.extra.getD []).map Prod.fst).Nodup := hfits
  have hnumber : ∀ key (a : Option Int64), (key, a.map ofI64) ∈
      o.jsonFields → Map.optional (record o.jsonFields (o.extra.getD [])) key
        readI64 = some a := fun _ _ hmem =>
    optional_record ofI64 hnodup hmem fun b _ => ofI64_spec b
  have hstring : ∀ key (a : Option String), (key, a.map Value.string) ∈
      o.jsonFields → Map.optional (record o.jsonFields (o.extra.getD [])) key
        readString = some a := fun _ _ hmem =>
    optional_record Value.string hnodup hmem fun b _ => string_spec b
  have hbool : ∀ key (a : Option Bool), (key, a.map Value.bool) ∈
      o.jsonFields → Map.optional (record o.jsonFields (o.extra.getD [])) key
        readBool = some a := fun _ _ hmem =>
    optional_record Value.bool hnodup hmem fun b _ => bool_spec b
  have hleft := leftover_record hnodup
  rw [hnames] at hleft
  rw [toJson]
  unfold ofJson
  dsimp only
  rw [hnumber "lsn" o.lsn (by simp [jsonFields]),
    hnumber "tx_id" o.txId (by simp [jsonFields]),
    hnumber "ts_ms" o.tsMs (by simp [jsonFields]),
    hbool "snapshot" o.snapshot (by simp [jsonFields]),
    hbool "snapshot_completed" o.snapshotCompleted (by simp [jsonFields]),
    hstring "file" o.file (by simp [jsonFields]),
    hnumber "pos" o.pos (by simp [jsonFields]),
    hstring "gtid" o.gtid (by simp [jsonFields]),
    hstring "resume_token" o.resumeToken (by simp [jsonFields]),
    hstring "source_partition" o.sourcePartition (by simp [jsonFields]), hleft]
  rfl

theorem extra_of_ofJson {map : Map} {o : ConnectorOffset}
    (h : ofJson (.object map) = some o) :
    o.extra = some (Map.leftover map fieldNames) := by
  simp only [ofJson, bind, Option.bind_eq_some_iff] at h
  obtain ⟨_, _, _, _, _, _, _, _, _, _, _, _, _, _, _, _, _, _, _, _, h⟩ := h
  rw [← Option.some.inj h]

theorem keys_insert (map : Map) (key : String) (value : Value) :
    (Map.insert map key value).map Prod.fst = map.map Prod.fst ∨
      key ∉ map.map Prod.fst ∧
        (Map.insert map key value).map Prod.fst = map.map Prod.fst ++ [key] := by
  by_cases hkey : key ∈ map.map Prod.fst
  · left
    induction map with
    | nil => exact absurd hkey List.not_mem_nil
    | cons entry map ih =>
        by_cases hsame : entry.1 = key
        · rw [Map.insert, if_pos hsame]
          rfl
        · rcases List.mem_cons.mp hkey with heq | hrest
          · exact absurd heq.symm hsame
          · rw [Map.insert, if_neg hsame]
            exact congrArg (entry.1 :: ·) (ih hrest)
  · right
    have hfresh : ∀ entry ∈ map, entry.1 ≠ key := by
      rintro entry hentry rfl
      exact hkey (List.mem_map_of_mem hentry)
    rw [Map.insert_of_fresh value hfresh]
    exact ⟨hkey, List.map_append⟩

/-- An object has each key once. -/
theorem nodup_record (fields : List (String × Option Value)) (extra : Map) :
    ((record fields extra).map Prod.fst).Nodup := by
  have hfold : ∀ (entries map : Map), (map.map Prod.fst).Nodup →
      ((entries.foldl (fun map entry => Map.insert map entry.1 entry.2)
        map).map Prod.fst).Nodup := by
    intro entries
    induction entries with
    | nil => exact fun _ hnodup => hnodup
    | cons entry entries ih =>
        intro map hnodup
        apply ih
        rcases keys_insert map entry.1 entry.2 with hsame | ⟨hfresh, hmore⟩
        · rw [hsame]
          exact hnodup
        · rw [hmore]
          exact List.nodup_append.mpr ⟨hnodup, List.nodup_singleton _,
            fun key hkey other hother heq =>
              hfresh (List.mem_singleton.mp hother ▸ heq ▸ hkey)⟩
  exact hfold _ [] List.nodup_nil

theorem extraFits_leftover {map : Map} (h : (map.map Prod.fst).Nodup) :
    ExtraFits (Map.leftover map fieldNames) := by
  apply List.nodup_append.mpr
  refine ⟨by decide, ?_, ?_⟩
  · exact h.sublist (List.filter_sublist.map Prod.fst)
  · rintro name hname key hkey rfl
    obtain ⟨entry, hentry, rfl⟩ := List.mem_map.mp hkey
    have hfresh := of_decide_eq_true (List.mem_filter.mp hentry).2
    exact hfresh hname

/-- An offset comes back with a flattened map exactly if no key of its own map
is the name of a field, and as it was exactly if it has such a map at all. -/
theorem ofJson_toJson_iff (o : ConnectorOffset) :
    (ofJson o.toJson = some { o with extra := some (o.extra.getD []) } ↔
        ExtraFits (o.extra.getD [])) ∧
      (ofJson o.toJson = some o ↔
        ∃ extra, o.extra = some extra ∧ ExtraFits extra) := by
  constructor
  · constructor
    · intro h
      have hleft := Option.some.inj (extra_of_ofJson h)
      rw [hleft]
      exact extraFits_leftover (nodup_record _ _)
    · exact ofJson_toJson
  · constructor
    · intro h
      exact ⟨_, extra_of_ofJson h, extraFits_leftover (nodup_record _ _)⟩
    · rintro ⟨extra, hextra, hfits⟩
      have hfits' : ExtraFits (o.extra.getD []) := by
        rwa [hextra]
      rw [ofJson_toJson hfits', hextra, Option.getD_some, ← hextra]

/-! ## The cursor map -/

/-- `{:#X}` of a signed integer, which shows its bits. -/
def alternateHex (n : Int64) : String :=
  "0x" ++ String.ofList (upperHex (positionOf n))

/-- What is inserted, in the order of the source. -/
def cursorFields (o : ConnectorOffset) : List (String × Option Value) :=
  [("lsn", o.lsn.map fun lsn => .string (alternateHex lsn)),
    ("file", o.file.map .string),
    ("pos", o.pos.map ofI64),
    ("gtid", o.gtid.map .string),
    ("resume_token", o.resumeToken.map .string)]

def toCursorMap (o : ConnectorOffset) : Map := record o.cursorFields []

theorem upperHex_injective {m n : ℕ} (h : upperHex m = upperHex n) : m = n := by
  have hread : ∀ k ≤ max m n,
      accumulate 16 (max m n) .posOverflow 0 (upperHex k) = .ok k := by
    intro k hk
    rw [upperHex, accumulate_toDigits (by decide) (Nat.le_refl 16)
      charDigit_toUpper_digitChar, reread_self, if_pos hk]
  have hm := hread m (Nat.le_max_left m n)
  rw [h, hread n (Nat.le_max_right m n)] at hm
  exact (Except.ok.inj hm).symm

theorem alternateHex_injective {m n : Int64}
    (h : alternateHex m = alternateHex n) : m = n := by
  have hdigits : upperHex (positionOf m) = upperHex (positionOf n) := by
    have hlist := congrArg String.toList h
    rw [alternateHex, alternateHex, String.toList_append, String.toList_append]
      at hlist
    simpa using List.append_cancel_left hlist
  have hposition := upperHex_injective hdigits
  rw [positionOf, positionOf, UInt64.toNat_inj] at hposition
  rw [← m.toInt64_toUInt64, hposition, n.toInt64_toUInt64]

/-! ## What is restored -/

/-- Where the three connectors start. -/
structure Starts (Token : Type) where
  postgres : Option ℕ
  mysql : DumpRequest
  mongodb : Option Token

/-- Where the connectors start from an offset. -/
def starts {Token : Type} (fromStr : String → Option Token)
    (offset : ConnectorOffset) : Starts Token where
  postgres := startPosition (streamContext offset).offset
  mysql := dumpRequest (streamContext offset)
  mongodb := Pipeline.resumeToken fromStr (streamContext offset)

/-- Offsets with the same positions, whatever else they carry. -/
structure SamePositions (o o' : ConnectorOffset) : Prop where
  lsn : o.lsn = o'.lsn
  file : o.file = o'.file
  pos : o.pos = o'.pos
  gtid : o.gtid = o'.gtid
  resumeToken : o.resumeToken = o'.resumeToken

theorem SamePositions.starts {Token : Type} (fromStr : String → Option Token)
    {o o' : ConnectorOffset} (h : SamePositions o o') :
    starts fromStr o = starts fromStr o' := by
  cases o
  cases o'
  obtain ⟨hlsn, hfile, hpos, hgtid, htoken⟩ := h
  dsimp only at hlsn hfile hpos hgtid htoken
  subst hlsn hfile hpos hgtid htoken
  rfl

theorem get_toCursorMap {o : ConnectorOffset} {key : String}
    {value : Option Value} (hmem : (key, value) ∈ o.cursorFields) :
    o.toCursorMap.get key = value := by
  refine get_record ?_ value hmem
  show (["lsn", "file", "pos", "gtid", "resume_token"] ++ []).Nodup
  decide

theorem samePositions_of_toCursorMap {o o' : ConnectorOffset}
    (h : o.toCursorMap = o'.toCursorMap) : SamePositions o o' := by
  have hsame : ∀ {α : Type} (key : String) (write : α → Value)
      (a a' : Option α), write.Injective → (key, a.map write) ∈ o.cursorFields →
        (key, a'.map write) ∈ o'.cursorFields → a = a' := by
    intro α key write a a' hwrite hmem hmem'
    apply Option.map_injective hwrite
    calc
      a.map write = o.toCursorMap.get key := (get_toCursorMap hmem).symm
      _ = o'.toCursorMap.get key := by rw [h]
      _ = a'.map write := get_toCursorMap hmem'
  have hstring : Function.Injective Value.string := fun _ _ heq =>
    Value.string.inj heq
  have hnumber : Function.Injective ofI64 := fun m n heq =>
    Option.some.inj (by rw [← readI64_ofI64 m, heq, readI64_ofI64])
  have hhex : Function.Injective fun lsn => Value.string (alternateHex lsn) :=
    fun _ _ heq => alternateHex_injective (Value.string.inj heq)
  constructor
  · exact hsame "lsn" _ _ _ hhex (by simp [cursorFields]) (by simp [cursorFields])
  · exact hsame "file" _ _ _ hstring (by simp [cursorFields])
      (by simp [cursorFields])
  · exact hsame "pos" _ _ _ hnumber (by simp [cursorFields])
      (by simp [cursorFields])
  · exact hsame "gtid" _ _ _ hstring (by simp [cursorFields])
      (by simp [cursorFields])
  · exact hsame "resume_token" _ _ _ hstring (by simp [cursorFields])
      (by simp [cursorFields])

/-- The cursor map has the positions and nothing else, and where the connectors
start from an offset depends on its cursor map only. -/
theorem toCursorMap_eq_iff {Token : Type} (fromStr : String → Option Token) :
    (∀ o o' : ConnectorOffset,
        o.toCursorMap = o'.toCursorMap ↔ SamePositions o o') ∧
      Function.FactorsThrough (starts fromStr) toCursorMap := by
  constructor
  · intro o o'
    refine ⟨samePositions_of_toCursorMap, ?_⟩
    intro h
    rw [toCursorMap, toCursorMap, cursorFields, cursorFields, h.lsn, h.file,
      h.pos, h.gtid, h.resumeToken]
  · intro o o' h
    exact (samePositions_of_toCursorMap h).starts fromStr

end ConnectorOffset
end OpenCdc
