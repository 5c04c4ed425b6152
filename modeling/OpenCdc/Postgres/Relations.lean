import OpenCdc.Foundation.Keyed
import OpenCdc.Postgres.Decoder

/-!
# The decoder's relation cache over a run

One decoder is fed a sequence of inputs.  Its cache is the log of the relation
messages it has decoded, and `getRelation` looks a relation up from the front
of that log.
-/

namespace OpenCdc.Postgres

open Foundation

namespace PgOutputDecoder

/-- The relation message that an input is: the tag `'R'` and a body that
`decode_relation` reads. -/
def announcement : Bytes → Option RelationMessage
  | [] => none
  | msgType :: rest =>
      if msgType.toChar = 'R' then
        match (decodeRelation rest).run 0 with
        | .ok (msg, _) => some msg
        | _ => none
      else none

/-- The relation message in the result of a call. -/
def decodedRelation :
    Outcome Error (Option PgOutputMessage) → Option RelationMessage
  | .ok (some (.relation msg)) => some msg
  | _ => none

/-! ## One call -/

theorem decodedRelation_readMessage {μ : Type}
    {decodeBody : Bytes → Cursor Error μ} {wrap : μ → PgOutputMessage}
    (hwrap : ∀ msg r, wrap msg ≠ .relation r) (rest : Bytes) :
    decodedRelation (readMessage decodeBody wrap rest) = none := by
  unfold readMessage
  cases (decodeBody rest).run 0 with
  | error e => rfl
  | panicked => rfl
  | ok result =>
      simp only [Outcome.ok_bind, Outcome.pure_eq, decodedRelation]
      split
      next msg heq =>
        simp only [Outcome.ok.injEq, Option.some.injEq] at heq
        exact absurd heq (hwrap _ _)
      next => rfl

theorem announcement_of_ne {msgType : UInt8} {rest : Bytes}
    (h : msgType.toChar ≠ 'R') : announcement (msgType :: rest) = none := by
  rw [announcement, if_neg h]

/-- What one call does to the cache: it appends the relation message that it
decodes, and leaves the cache alone if it decodes none. -/
theorem decode_relations (decoder : PgOutputDecoder) (data : Bytes) :
    decodedRelation (decoder.decode data).1 = announcement data ∧
      (decoder.decode data).2.relations =
        decoder.relations ++ (announcement data).toList := by
  have hother : ∀ {μ : Type} {decodeBody : Bytes → Cursor Error μ}
      {wrap : μ → PgOutputMessage} {msgType : UInt8} {rest : Bytes},
      (∀ msg r, wrap msg ≠ .relation r) → msgType.toChar ≠ 'R' →
      decodedRelation (readMessage decodeBody wrap rest) =
          announcement (msgType :: rest) ∧
        decoder.relations = decoder.relations ++
          (announcement (msgType :: rest)).toList := by
    intro μ decodeBody wrap msgType rest hwrap hchar
    rw [announcement_of_ne hchar, decodedRelation_readMessage hwrap]
    simp
  unfold decode
  split
  case h_1 => simp [decodedRelation, announcement]
  case h_2 msgType rest =>
    split
    case h_1 hchar => exact hother (by simp) (by rw [hchar]; decide)
    case h_2 hchar => exact hother (by simp) (by rw [hchar]; decide)
    case h_3 hchar =>
      rw [announcement, if_pos hchar]
      cases (decodeRelation rest).run 0 <;> simp [decodedRelation]
    case h_4 hchar => exact hother (by simp) (by rw [hchar]; decide)
    case h_5 hchar => exact hother (by simp) (by rw [hchar]; decide)
    case h_6 hchar => exact hother (by simp) (by rw [hchar]; decide)
    case h_7 hchar => exact hother (by simp) (by rw [hchar]; decide)
    case h_8 hrelation _ _ _ _ =>
      rw [announcement_of_ne hrelation]
      simp [decodedRelation]

/-- A call that decodes no relation message changes no lookup. -/
theorem getRelation_decode_of_none {decoder : PgOutputDecoder} {data : Bytes}
    (hnone : decodedRelation (decoder.decode data).1 = none) (oid : UInt32) :
    (decoder.decode data).2.getRelation oid = decoder.getRelation oid := by
  obtain ⟨hresult, hrelations⟩ := decode_relations decoder data
  rw [hresult] at hnone
  rw [getRelation, getRelation, hrelations, hnone]
  simp

/-! ## A run -/

/-- The results of feeding the inputs to the decoder in turn, and the decoder
at the end. -/
def decodeAll (decoder : PgOutputDecoder) :
    List Bytes →
      List (Outcome Error (Option PgOutputMessage)) × PgOutputDecoder
  | [] => ([], decoder)
  | data :: inputs =>
      let (result, decoder') := decoder.decode data
      let (results, final) := decodeAll decoder' inputs
      (result :: results, final)

/-- The relation message most recently decoded with `oid`. -/
def mostRecent (results : List (Outcome Error (Option PgOutputMessage)))
    (oid : UInt32) : Option RelationMessage :=
  lastEntry RelationMessage.oid oid (results.filterMap decodedRelation)

/-- After each call the cache holds what was decoded most recently, and a call
that decodes no relation message leaves it unchanged. -/
def CacheFollows (inputs : List Bytes) : Prop :=
  (∀ pre, pre <+: inputs → ∀ oid,
    (decodeAll {} pre).2.getRelation oid =
      mostRecent (decodeAll {} pre).1 oid) ∧
  ∀ pre data, pre ++ [data] <+: inputs →
    decodedRelation ((decodeAll {} pre).2.decode data).1 = none → ∀ oid,
      (decodeAll {} (pre ++ [data])).2.getRelation oid =
        (decodeAll {} pre).2.getRelation oid

/-- After a run the cache has grown by the relation messages of the inputs, in
the order in which they were decoded. -/
theorem decodeAll_relations (decoder : PgOutputDecoder)
    (inputs : List Bytes) :
    (decodeAll decoder inputs).1.filterMap decodedRelation =
        inputs.filterMap announcement ∧
      (decodeAll decoder inputs).2.relations =
        decoder.relations ++ inputs.filterMap announcement := by
  induction inputs generalizing decoder with
  | nil => simp [decodeAll]
  | cons data inputs ih =>
      obtain ⟨hresult, hrelations⟩ := decode_relations decoder data
      obtain ⟨hresults, hfinal⟩ := ih (decoder.decode data).2
      simp only [decodeAll, List.filterMap_cons, hresult, hresults, hfinal,
        hrelations]
      cases announcement data <;> simp

theorem decodeAll_append_singleton (decoder : PgOutputDecoder)
    (inputs : List Bytes) (data : Bytes) :
    (decodeAll decoder (inputs ++ [data])).2 =
      ((decodeAll decoder inputs).2.decode data).2 := by
  induction inputs generalizing decoder with
  | nil => rfl
  | cons data' inputs ih => exact ih (decoder.decode data').2

/-- The lookup finds the first announcement, the specification asks for the
last one. -/
theorem getRelation_eq_mostRecent_iff (inputs : List Bytes) (oid : UInt32) :
    (decodeAll {} inputs).2.getRelation oid =
        mostRecent (decodeAll {} inputs).1 oid ↔
      firstEntry RelationMessage.oid oid (inputs.filterMap announcement) =
        lastEntry RelationMessage.oid oid (inputs.filterMap announcement) := by
  obtain ⟨hresults, hfinal⟩ := decodeAll_relations {} inputs
  simp [getRelation, mostRecent, firstEntry, hresults, hfinal]

/-- Inputs that announce one relation in two different ways. -/
def relationV1 : Bytes :=
  [82, 0, 0, 0, 1, 97, 0, 98, 0, 0, 0, 0, 0]

def relationV2 : Bytes :=
  [82, 0, 0, 0, 1, 97, 0, 98, 0, 0, 0, 0, 1, 0, 99, 0, 0, 0, 0, 25, 255, 255,
    255, 255]

theorem not_cacheFollows_of_altered_relation :
    ¬CacheFollows [relationV1, relationV2] := by
  intro h
  have hlookup := h.1 _ (List.prefix_refl _) 1
  have hcount := congrArg
    (Option.map fun r : RelationMessage => r.columns.length) hlookup
  revert hcount
  decide

/-- The cache follows the decoded messages exactly when the inputs never
announce one oid in two different ways. -/
theorem cacheFollows_iff (inputs : List Bytes) :
    CacheFollows inputs ↔
      ∀ data ∈ inputs, ∀ data' ∈ inputs, ∀ r r',
        announcement data = some r → announcement data' = some r' →
          r.oid = r'.oid → r = r' := by
  have hunchanged : ∀ pre data, pre ++ [data] <+: inputs →
      decodedRelation ((decodeAll {} pre).2.decode data).1 = none → ∀ oid,
        (decodeAll {} (pre ++ [data])).2.getRelation oid =
          (decodeAll {} pre).2.getRelation oid := by
    intro pre data _ hnone oid
    rw [decodeAll_append_singleton]
    exact getRelation_decode_of_none hnone oid
  calc
    CacheFollows inputs ↔ ∀ pre, pre <+: inputs → ∀ oid,
        firstEntry RelationMessage.oid oid (pre.filterMap announcement) =
          lastEntry RelationMessage.oid oid
            (pre.filterMap announcement) := by
      simp only [CacheFollows, getRelation_eq_mostRecent_iff]
      exact and_iff_left hunchanged
    _ ↔ ∀ pre, pre <+: inputs.filterMap announcement → ∀ oid,
        firstEntry RelationMessage.oid oid pre =
          lastEntry RelationMessage.oid oid pre :=
      forall_prefix_filterMap (P := fun pre => ∀ oid,
        firstEntry RelationMessage.oid oid pre =
          lastEntry RelationMessage.oid oid pre)
    _ ↔ ∀ r ∈ inputs.filterMap announcement,
          ∀ r' ∈ inputs.filterMap announcement, r.oid = r'.oid → r = r' :=
      firstEntry_eq_lastEntry_iff
    _ ↔ _ := by
      simp only [List.mem_filterMap]
      constructor
      · intro h data hdata data' hdata' r r' hr hr' hoid
        exact h r ⟨data, hdata, hr⟩ r' ⟨data', hdata', hr'⟩ hoid
      · rintro h r ⟨data, hdata, hr⟩ r' ⟨data', hdata', hr'⟩ hoid
        exact h data hdata data' hdata' r r' hr hr' hoid

end PgOutputDecoder
end OpenCdc.Postgres
