import OpenCdc.Postgres.RelationFormat

/-!
# Malformed messages

Whatever the decoder cannot read as a message should be an error.  It is one,
unless the data end inside a field that is read without a check.
-/

namespace OpenCdc.Postgres

open Foundation

/-! ## The property -/

/-- A message stands at the start of the data. -/
inductive StartsWithMessage (data : Bytes) : Prop
  | wire (w : WireMessage) (h : w.encode <+: data)
  | relation (w : WireRelation) (h : w.encode <+: data)

def messageTags : List Char := ['B', 'C', 'R', 'I', 'U', 'D', 'T']

/-- The data have the tag of a message. -/
def IsTagged (data : Bytes) : Prop :=
  ∃ tag ∈ messageTags, data.head? = some (tagByte tag)

/-- A call returns, with an error of the message format for everything that is
tagged as a message and is none, and with no message for everything else. -/
structure DecodesSafely (decoder : PgOutputDecoder) (data : Bytes) : Prop where
  returns : (decoder.decode data).1 ≠ .panicked
  rejects : IsTagged data → ¬ StartsWithMessage data →
    ∃ text, (decoder.decode data).1 = .error (.invalidMessageFormat text)
  ignores : ¬ IsTagged data → (decoder.decode data).1 = .ok none

/-- The data end inside a field that is read without a check: of a relation
message every field is, of the others those that `CutOff` names. -/
def EndsUnchecked (data : Bytes) : Prop :=
  if data.head? = some (tagByte 'R') then
    ∀ w : WireRelation, ¬ w.encode <+: data
  else CutOff data

/-! ## Errors of the message format -/

def IsFormatError (e : Error) : Prop :=
  ∃ text, e = .invalidMessageFormat text

theorem rejectsAs_decodeTextValue (data : Bytes) :
    RejectsAs IsFormatError (decodeTextValue data) := by
  refine (rejectsAs_readI32Be data).bind fun rawLen => ?_
  split_ifs
  · exact RejectsAs.throw ⟨_, rfl⟩
  · exact (RejectsAs.takeSlice ⟨_, rfl⟩ _ data).bind fun _ => RejectsAs.pure _

theorem rejectsAs_decodeColumnOfKind (kind : UInt8) (data : Bytes) :
    RejectsAs IsFormatError (decodeColumnOfKind kind data) := by
  unfold decodeColumnOfKind
  split
  · exact RejectsAs.pure _
  · exact RejectsAs.pure _
  · exact rejectsAs_decodeTextValue data
  · exact RejectsAs.throw ⟨_, rfl⟩

theorem rejectsAs_decodeTupleColumn (data : Bytes) :
    RejectsAs IsFormatError (decodeTupleColumn data) :=
  (RejectsAs.ensureMore ⟨_, rfl⟩ data).bind fun _ =>
    (RejectsAs.nextByte data).bind fun kind =>
      rejectsAs_decodeColumnOfKind kind data

theorem rejectsAs_tupleAt (data : Bytes) :
    RejectsAs IsFormatError (tupleAt data) :=
  RejectsAs.onRest (fun rest => (rejectsAs_readU16Be rest).bind fun colCount =>
    (rejectsAs_decodeTupleColumn rest).times colCount.toNat) data

theorem rejectsAs_decodeBegin (data : Bytes) :
    RejectsAs IsFormatError (decodeBegin data) :=
  (rejectsAs_readI64Be data).bind fun _ => (rejectsAs_readI64Be data).bind
    fun _ => (rejectsAs_readU32Be data).bind fun _ => RejectsAs.pure _

theorem rejectsAs_decodeCommit (data : Bytes) :
    RejectsAs IsFormatError (decodeCommit data) :=
  (rejectsAs_readI8 data).bind fun _ => (rejectsAs_readI64Be data).bind
    fun _ => (rejectsAs_readI64Be data).bind fun _ =>
      (rejectsAs_readI64Be data).bind fun _ => RejectsAs.pure _

theorem rejectsAs_decodeInsert (data : Bytes) :
    RejectsAs IsFormatError (decodeInsert data) := by
  refine (rejectsAs_readU32Be data).bind fun _ =>
    (RejectsAs.ensureMore ⟨_, rfl⟩ data).bind fun _ =>
      (RejectsAs.nextByte data).bind fun tupleType => ?_
  split_ifs
  · exact RejectsAs.throw ⟨_, rfl⟩
  · exact (rejectsAs_tupleAt data).bind fun _ => RejectsAs.pure _

theorem rejectsAs_decodeNewAfterOld (oldType : Char) (data : Bytes) :
    RejectsAs IsFormatError (decodeNewAfterOld oldType data) := by
  refine (RejectsAs.ensureMore ⟨_, rfl⟩ data).bind fun _ =>
    (RejectsAs.nextByte data).bind fun tupleType => ?_
  split_ifs
  · exact RejectsAs.throw ⟨_, rfl⟩
  · exact rejectsAs_tupleAt data

theorem rejectsAs_decodeUpdate (data : Bytes) :
    RejectsAs IsFormatError (decodeUpdate data) := by
  refine (rejectsAs_readU32Be data).bind fun _ =>
    (RejectsAs.ensureMore ⟨_, rfl⟩ data).bind fun _ =>
      (RejectsAs.nextByte data).bind fun tupleType =>
        RejectsAs.bind ?_ fun _ => RejectsAs.pure _
  unfold decodeUpdateTuples
  split
  · exact (rejectsAs_tupleAt data).bind fun _ =>
      (rejectsAs_decodeNewAfterOld 'K' data).bind fun _ => RejectsAs.pure _
  · exact (rejectsAs_tupleAt data).bind fun _ =>
      (rejectsAs_decodeNewAfterOld 'O' data).bind fun _ => RejectsAs.pure _
  · exact (rejectsAs_tupleAt data).bind fun _ => RejectsAs.pure _
  · exact RejectsAs.throw ⟨_, rfl⟩

theorem rejectsAs_decodeDelete (data : Bytes) :
    RejectsAs IsFormatError (decodeDelete data) := by
  refine (rejectsAs_readU32Be data).bind fun _ =>
    (RejectsAs.ensureMore ⟨_, rfl⟩ data).bind fun _ =>
      (RejectsAs.nextByte data).bind fun tupleType =>
        RejectsAs.bind ?_ fun _ => RejectsAs.pure _
  unfold decodeDeleteTuple
  split
  · exact rejectsAs_tupleAt data
  · exact rejectsAs_tupleAt data
  · exact RejectsAs.throw ⟨_, rfl⟩

theorem rejectsAs_decodeTruncate (data : Bytes) :
    RejectsAs IsFormatError (decodeTruncate data) :=
  (rejectsAs_readU32Be data).bind fun numRels =>
    (rejectsAs_readI8 data).bind fun _ =>
      ((rejectsAs_readU32Be data).times numRels.toNat).bind fun _ =>
        RejectsAs.pure _

namespace PgOutputDecoder

theorem readMessage_ne_ok_none {μ : Type}
    {decodeBody : Bytes → Cursor Error μ} {wrap : μ → PgOutputMessage}
    {rest : Bytes} : readMessage decodeBody wrap rest ≠ .ok none := by
  intro h
  obtain ⟨result, -, hmessage⟩ := Outcome.bind_eq_ok.mp h
  cases hmessage

theorem isFormatError_of_readMessage {μ : Type}
    {decodeBody : Bytes → Cursor Error μ} {wrap : μ → PgOutputMessage}
    {rest : Bytes} {e : Error}
    (hbody : RejectsAs IsFormatError (decodeBody rest))
    (h : readMessage decodeBody wrap rest = .error e) : IsFormatError e := by
  unfold readMessage at h
  cases hrun : (decodeBody rest).run 0 with
  | ok result =>
      rw [hrun] at h
      cases h
  | error e' =>
      rw [hrun] at h
      cases h
      exact hbody 0 _ hrun
  | panicked =>
      rw [hrun] at h
      cases h

/-- Every error is one of the message format. -/
theorem isFormatError_of_decode {decoder : PgOutputDecoder} {data : Bytes}
    {e : Error} (h : (decoder.decode data).1 = .error e) :
    IsFormatError e := by
  unfold decode at h
  split at h
  case h_1 => cases h
  case h_2 msgType rest =>
    split at h
    case h_1 => exact isFormatError_of_readMessage (rejectsAs_decodeBegin _) h
    case h_2 => exact isFormatError_of_readMessage (rejectsAs_decodeCommit _) h
    case h_3 =>
      split at h
      next => cases h
      next e' hrun =>
        exact absurd hrun (neverRejects_decodeRelation rest 0 e')
      next => cases h
    case h_4 => exact isFormatError_of_readMessage (rejectsAs_decodeInsert _) h
    case h_5 => exact isFormatError_of_readMessage (rejectsAs_decodeUpdate _) h
    case h_6 => exact isFormatError_of_readMessage (rejectsAs_decodeDelete _) h
    case h_7 =>
      exact isFormatError_of_readMessage (rejectsAs_decodeTruncate _) h
    case h_8 => cases h

theorem isTagged_cons_iff {msgType : UInt8} {rest : Bytes} :
    IsTagged (msgType :: rest) ↔ msgType.toChar ∈ messageTags := by
  have htag : ∀ tag ∈ messageTags, msgType.toChar = tag ↔
      msgType = tagByte tag := by
    have hlt : ∀ tag ∈ messageTags, tag.toNat < 256 := by
      simp [messageTags]
    intro tag hmem
    exact toChar_eq_iff (hlt tag hmem)
  unfold IsTagged
  rw [List.head?_cons]
  constructor
  · rintro ⟨tag, hmem, htype⟩
    rwa [(htag tag hmem).mpr (Option.some.inj htype)]
  · intro hmem
    exact ⟨_, hmem, congrArg some ((htag _ hmem).mp rfl)⟩

/-- No message is returned for just the data without a message tag. -/
theorem decode_eq_ok_none_iff (decoder : PgOutputDecoder) (data : Bytes) :
    (decoder.decode data).1 = .ok none ↔ ¬ IsTagged data := by
  cases data with
  | nil => simp [decode, IsTagged]
  | cons msgType rest =>
      rw [isTagged_cons_iff]
      unfold decode
      dsimp only
      split
      case h_8 hbegin hcommit hrelation hinsert hupdate hdelete htruncate =>
        have hmem : msgType.toChar ∉ messageTags := by
          simp only [messageTags, List.mem_cons, not_or]
          exact ⟨hbegin, hcommit, hrelation, hinsert, hupdate, hdelete,
            htruncate, List.not_mem_nil⟩
        simp [hmem]
      case h_3 hchar =>
        have hmem : msgType.toChar ∈ messageTags := by rw [hchar]; decide
        split <;> simp [hmem]
      all_goals
        next hchar =>
          refine iff_of_false readMessage_ne_ok_none (not_not.mpr ?_)
          rw [hchar]
          decide

/-! ## Safe calls -/

theorem endsUnchecked_iff (data : Bytes) :
    EndsUnchecked data ↔ CutOff data := by
  unfold EndsUnchecked
  split_ifs with htag
  · obtain ⟨body, rfl⟩ := List.head?_eq_some_iff.mp htag
    constructor
    · exact .relation body
    · intro h
      cases h with
      | relation _ h => exact h
  · rfl

/-- What is read as a message starts with one. -/
theorem startsWithMessage_of_decode {decoder : PgOutputDecoder} {data : Bytes}
    {m : PgOutputMessage} (h : (decoder.decode data).1 = .ok (some m)) :
    StartsWithMessage data := by
  by_cases hm : ∃ msg, m = .relation msg
  · obtain ⟨msg, rfl⟩ := hm
    have hannounced := (decode_relations decoder data).1
    rw [h] at hannounced
    cases data with
    | nil => cases hannounced
    | cons msgType body =>
        by_cases hchar : msgType.toChar = 'R'
        · obtain rfl := (toChar_eq_iff (by decide)).mp hchar
          by_contra hnot
          have hnone := (announcement_relation_eq_none_iff body).mpr
            fun w hw => hnot (.relation w hw)
          rw [hnone] at hannounced
          cases hannounced
        · rw [announcement_of_ne hchar] at hannounced
          cases hannounced
  · obtain ⟨w, -, hw⟩ := decode_sound h fun msg heq => hm ⟨msg, heq⟩
    exact .wire w hw

/-- The decoder reads or rejects exactly the data that do not end inside a
field that it reads without a check, and it panics on the others. -/
theorem decodesSafely_iff (decoder : PgOutputDecoder) (data : Bytes) :
    DecodesSafely decoder data ↔ ¬ EndsUnchecked data := by
  rw [endsUnchecked_iff, ← decode_eq_panicked_iff decoder data]
  constructor
  · exact DecodesSafely.returns
  · intro hreturns
    have hnone := decode_eq_ok_none_iff decoder data
    refine ⟨hreturns, fun htagged hmessage => ?_, hnone.mpr⟩
    cases hdecode : (decoder.decode data).1 with
    | ok message =>
        cases message with
        | none => exact absurd htagged (hnone.mp hdecode)
        | some m => exact absurd (startsWithMessage_of_decode hdecode) hmessage
    | error e =>
        obtain ⟨text, rfl⟩ := isFormatError_of_decode hdecode
        exact ⟨text, rfl⟩
    | panicked => exact absurd hdecode hreturns

/-- A begin message of which only the tag has arrived. -/
theorem not_decodesSafely_begin :
    ¬ DecodesSafely {} [66] := by
  intro h
  exact h.returns (by decide)

end PgOutputDecoder
end OpenCdc.Postgres
