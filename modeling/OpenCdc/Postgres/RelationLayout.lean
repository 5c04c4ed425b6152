import Mathlib.Data.List.TakeWhile
import OpenCdc.Postgres.Relations
import OpenCdc.Postgres.Wire

/-!
# The layout of a relation message

What the decoder reads as a relation message: names that end with a zero byte,
two bytes for the replica identity, and as many columns as their number says.
-/

namespace OpenCdc.Postgres

open Foundation

/-! ## The layout -/

/-- A column of a relation message, with the bytes of its name. -/
structure WireRelationColumn where
  flags : Int8
  name : Bytes
  typeOid : UInt32
  typeModifier : Int32
  name_nulFree : 0 ∉ name

/-- A relation message with the bytes of its names, in the layout that the
decoder reads. -/
structure WireRelation where
  oid : UInt32
  schema : Bytes
  name : Bytes
  replicaIdentity : UInt16
  columns : List WireRelationColumn
  schema_nulFree : 0 ∉ schema
  name_nulFree : 0 ∉ name
  hcount : columns.length ≤ 65535

namespace WireRelationColumn

def column (w : WireRelationColumn) : RelationColumn :=
  ⟨w.flags, fromUtf8Lossy w.name, w.typeOid, w.typeModifier⟩

def encode (w : WireRelationColumn) : Bytes :=
  w.flags.toUInt8 :: (w.name ++ [0] ++ (encodeU32 w.typeOid ++
    encodeU32 w.typeModifier.toUInt32))

end WireRelationColumn

namespace WireRelation

def message (w : WireRelation) : RelationMessage :=
  ⟨w.oid, fromUtf8Lossy w.schema, fromUtf8Lossy w.name,
    w.columns.map (·.column)⟩

/-- What stands behind the tag byte. -/
def body (w : WireRelation) : Bytes :=
  encodeU32 w.oid ++ (w.schema ++ [0] ++ (w.name ++ [0] ++
    (encodeU16 w.replicaIdentity ++ (Bytes.toBe 2 w.columns.length ++
      w.columns.flatMap (·.encode)))))

def encode (w : WireRelation) : Bytes := tagByte 'R' :: w.body

end WireRelation

/-! ## Names -/

theorem readString_eq_ok {data : Bytes} {offset : ℕ} {text : Bytes}
    (hzero : (0 : UInt8) ∉ text) (h : text ++ [0] <+: data.drop offset) :
    (readString data).run offset =
      .ok (fromUtf8Lossy text, offset + text.length + 1) := by
  obtain ⟨rest, hrest⟩ := h
  have hstart : offset ≤ data.length := by
    have hlength := congrArg List.length hrest
    simp only [List.length_append, List.length_drop, List.length_singleton]
      at hlength
    omega
  have htext : (text ++ [0] ++ rest).takeWhile (· ≠ 0) = text := by
    rw [List.append_assoc, List.takeWhile_append_of_pos, List.singleton_append,
      List.takeWhile_cons_of_neg (by simp), List.append_nil]
    intro b hb
    simpa using ne_of_mem_of_not_mem hb hzero
  simp only [readString, StateT.run, Bytes.sliceFrom, if_pos hstart,
    Outcome.ok_bind, Outcome.pure_eq, ← hrest]
  rw [htext]

/-! ## Behind the end -/

/-- A reader that never succeeds behind the end of the data. -/
def StopsAtEnd {α : Type} (read : Bytes → Cursor Error α) : Prop :=
  ∀ data offset, data.length < offset → ∀ r, (read data).run offset ≠ .ok r

namespace StopsAtEnd

theorem bind {α β : Type} {read : Bytes → Cursor Error α}
    {next : Bytes → α → Cursor Error β} (hread : StopsAtEnd read) :
    StopsAtEnd fun data => read data >>= next data := by
  intro data offset hoffset r h
  obtain ⟨first, hfirst, -⟩ := Outcome.bind_eq_ok.mp h
  exact hread data offset hoffset first hfirst

theorem readBytes {width : ℕ} (hwidth : 0 < width) :
    StopsAtEnd (Cursor.readBytes width) := by
  intro data offset hoffset r h
  obtain ⟨bs, hbytes, -⟩ := Outcome.bind_eq_ok.mp h
  obtain ⟨hlength, hstart⟩ := Bytes.bytesAt_eq_ok_iff.mp hbytes
  rw [List.drop_eq_nil_of_le hoffset.le, List.prefix_nil] at hstart
  subst hstart
  exact absurd hlength hwidth.ne

theorem readI16Be : StopsAtEnd Postgres.readI16Be :=
  (readBytes (by decide)).bind

theorem readU32Be : StopsAtEnd Postgres.readU32Be :=
  (readBytes (by decide : 0 < 4)).bind.bind

theorem readString : StopsAtEnd Postgres.readString := by
  intro data offset hoffset r h
  obtain ⟨start, hstart, -⟩ := Outcome.bind_eq_ok.mp h
  unfold Bytes.sliceFrom at hstart
  rw [if_neg (Nat.not_le.mpr hoffset)] at hstart
  cases hstart

end StopsAtEnd

/-- Without a zero byte the text is all that is left, and the position is behind
the end. -/
theorem readString_of_notMem {data : Bytes} {offset : ℕ}
    (hoffset : offset ≤ data.length) (hzero : (0 : UInt8) ∉ data.drop offset) :
    (readString data).run offset =
      .ok (fromUtf8Lossy (data.drop offset), data.length + 1) := by
  have htext : (data.drop offset).takeWhile (· ≠ 0) = data.drop offset := by
    apply List.takeWhile_eq_self_iff.mpr
    intro b hb
    simpa using ne_of_mem_of_not_mem hb hzero
  simp only [readString, StateT.run, Bytes.sliceFrom, if_pos hoffset,
    Outcome.ok_bind, Outcome.pure_eq]
  rw [htext, List.length_drop]
  congr 2
  omega

/-- The text of `read_string` ends with a zero byte if anything is read behind
it. -/
theorem recognises_readString_bind {α : Type}
    {next : Bytes → String → Cursor Error α} {G : String → Format α}
    (hnext : ∀ s, Recognises (fun data => next data s) (G s))
    (hend : ∀ s, StopsAtEnd fun data => next data s) :
    Recognises (fun data => readString data >>= next data) (fun a enc =>
      ∃ text tail, (0 : UInt8) ∉ text ∧ G (fromUtf8Lossy text) a tail ∧
        enc = text ++ [0] ++ tail) := by
  intro data offset hoffset a stop
  rw [StateT.run_bind]
  by_cases hzero : (0 : UInt8) ∈ data.drop offset
  · obtain ⟨text, tail, hsplit, htext⟩ := List.eq_append_cons_of_mem hzero
    have hstart : text ++ [0] <+: data.drop offset := by
      exact ⟨tail, by rw [hsplit, List.append_assoc, List.singleton_append]⟩
    have hbehind := end_le_of_isPrefix_drop hoffset hstart
    rw [List.length_append, List.length_singleton] at hbehind
    have hread := readString_eq_ok htext hstart
    rw [hread, Outcome.ok_bind]
    refine (hnext _ data _ hbehind a stop).trans ?_
    constructor
    · rintro ⟨enc, hG, henc, rfl⟩
      refine ⟨text ++ [0] ++ enc, ⟨text, enc, htext, hG, rfl⟩,
        Bytes.append_isPrefix_drop_iff.mpr ⟨hstart, ?_⟩, ?_⟩
      · simpa [Nat.add_assoc] using henc
      · simp only [List.length_append, List.length_singleton]
        omega
    · rintro ⟨_, ⟨text', enc, htext', hG, rfl⟩, henc, rfl⟩
      obtain ⟨hhead, henc⟩ := Bytes.append_isPrefix_drop_iff.mp henc
      have hsame := hread.symm.trans (readString_eq_ok htext' hhead)
      obtain ⟨hname, hlength⟩ := Prod.mk.inj (Outcome.ok.inj hsame)
      rw [List.length_append, List.length_singleton, ← Nat.add_assoc,
        ← hlength] at henc
      refine ⟨enc, hname ▸ hG, henc, ?_⟩
      simp only [List.length_append, List.length_singleton]
      omega
  · rw [readString_of_notMem hoffset hzero, Outcome.ok_bind]
    constructor
    · intro h
      exact absurd h (hend _ data _ (Nat.lt_succ_self _) _)
    · rintro ⟨_, ⟨text, enc, -, -, rfl⟩, henc, -⟩
      exact absurd (henc.subset (by simp)) hzero

theorem recognises_decodeRelationColumn :
    Recognises decodeRelationColumn
      (Format.image WireRelationColumn.column WireRelationColumn.encode) := by
  refine (recognises_readI8.bind fun flags =>
    recognises_readString_bind
      (fun name => recognises_readU32Be.bind fun typeOid =>
        recognises_readI32Be.bind fun typeModifier => Recognises.pure
          (RelationColumn.mk flags name typeOid typeModifier))
      fun name => StopsAtEnd.readU32Be.bind).congr fun column enc => ?_
  simp only [Format.seq_ofEncode_iff, Format.seq_nothing_iff]
  constructor
  · rintro ⟨flags, _, ⟨name, _, hname, ⟨typeOid, _, ⟨typeModifier, rfl, rfl⟩,
      rfl⟩, rfl⟩, rfl⟩
    exact ⟨⟨flags, name, typeOid, typeModifier, hname⟩, rfl, rfl⟩
  · rintro ⟨⟨flags, name, typeOid, typeModifier, hname⟩, rfl, rfl⟩
    exact ⟨flags, _, ⟨name, _, hname, ⟨typeOid, _, ⟨typeModifier, rfl, rfl⟩,
      rfl⟩, rfl⟩, rfl⟩

theorem recognises_decodeRelation :
    Recognises decodeRelation
      (Format.image WireRelation.message WireRelation.body) := by
  refine (recognises_readU32Be.bind fun oid =>
    recognises_readString_bind
      (fun schema => recognises_readString_bind
        (fun name => recognises_readI16Be.bind fun _ =>
          recognises_readU16Be.bind fun colCount =>
            (recognises_decodeRelationColumn.times colCount.toNat).bind
              fun columns => Recognises.pure
                (RelationMessage.mk oid schema name columns))
        fun name => StopsAtEnd.readI16Be.bind)
      fun schema => StopsAtEnd.readString.bind).congr fun msg enc => ?_
  simp only [Format.seq_ofEncode_iff, Format.seq_nothing_iff,
    Format.list_image_iff]
  constructor
  · rintro ⟨oid, _, ⟨schema, _, hschema, ⟨name, _, hname, ⟨identity, _,
      ⟨count, _, ⟨_, ⟨columns, hcount, rfl, rfl⟩, rfl⟩, rfl⟩, rfl⟩, rfl⟩,
      rfl⟩, rfl⟩
    have hlt := count.toNat_lt
    refine ⟨⟨oid, schema, name, identity.toUInt16, columns, hschema, hname,
      by omega⟩, rfl, ?_⟩
    simp [WireRelation.body, encodeU16, hcount]
  · rintro ⟨⟨oid, schema, name, identity, columns, hschema, hname, hcount⟩,
      rfl, rfl⟩
    have hfield : (UInt16.ofNat columns.length).toNat = columns.length := by
      rw [UInt16.toNat_ofNat', Nat.mod_eq_of_lt (by omega)]
    refine ⟨oid, _, ⟨schema, _, hschema, ⟨name, _, hname, ⟨identity.toInt16, _,
      ⟨UInt16.ofNat columns.length, _,
        ⟨_, ⟨columns, hfield.symm, rfl, rfl⟩, rfl⟩, rfl⟩, rfl⟩, rfl⟩,
      rfl⟩, ?_⟩
    simp [WireRelation.body, encodeU16, hfield]

/-! ## Announcements -/

namespace PgOutputDecoder

theorem announcement_relation (rest : Bytes) :
    announcement (tagByte 'R' :: rest) =
      match (decodeRelation rest).run 0 with
      | .ok (msg, _) => some msg
      | _ => none := rfl

/-- A relation message is read from just the data that start with one. -/
theorem announcement_relation_eq_none_iff (body : Bytes) :
    announcement (tagByte 'R' :: body) = none ↔
      ∀ w : WireRelation, ¬ w.encode <+: tagByte 'R' :: body := by
  have hread := recognises_decodeRelation body 0 (Nat.zero_le _)
  rw [List.drop_zero] at hread
  have hcons : ∀ w : WireRelation,
      w.encode <+: tagByte 'R' :: body ↔ w.body <+: body := by
    intro w
    simp [WireRelation.encode, List.cons_prefix_cons]
  simp only [hcons]
  rw [announcement_relation]
  constructor
  · intro hnone w hw
    rw [(hread w.message _).mpr ⟨_, ⟨w, rfl, rfl⟩, hw, rfl⟩] at hnone
    cases hnone
  · intro hnot
    split
    next msg offset hrun =>
      obtain ⟨_, ⟨w, -, rfl⟩, hw, -⟩ := (hread msg offset).mp hrun
      exact absurd hw (hnot w)
    next => rfl

end PgOutputDecoder
end OpenCdc.Postgres
