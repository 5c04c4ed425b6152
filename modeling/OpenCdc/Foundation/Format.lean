import Mathlib.Data.List.Forall2
import OpenCdc.Foundation.Bytes

/-!
# Wire formats and the readers that recognise them

A format relates a value to the byte strings that encode it; one value may
have several encodings.  A reader moves an offset over fixed data.  It
recognises a format when, at every offset, it succeeds with a value exactly if
an encoding of that value stands at the offset, and then stops right behind
it.  The rules below follow the way readers are composed, so that the format
of a message is read off from the reader's own sequence of steps.
-/

namespace Foundation

/-- A reader over fixed data: it carries the offset of the next byte. -/
abbrev Cursor (ε α : Type) := StateT ℕ (Outcome ε) α

/-- A wire format: which byte strings encode which value. -/
abbrev Format (α : Type) := α → Bytes → Prop

variable {ε α β : Type}

namespace Format

/-- The format of an encoding function. -/
def ofEncode (encode : α → Bytes) : Format α := fun a enc => enc = encode a

/-- The one value `a`, encoded by nothing. -/
def nothing (a : α) : Format α := fun b enc => b = a ∧ enc = []

/-- First `F`, then the format that `F`'s value selects. -/
def seq (F : Format α) (G : α → Format β) : Format β := fun b enc =>
  ∃ a head tail, F a head ∧ G a b tail ∧ enc = head ++ tail

/-- Encodings of the values of a list of length `n`, one behind the other. -/
def list (F : Format α) (n : ℕ) : Format (List α) := fun values enc =>
  values.length = n ∧ ∃ encs, List.Forall₂ F values encs ∧ enc = encs.flatten

/-- The values `value w`, each encoded as `encode w`, for `w` in a type of
wire-level descriptions. -/
def image {ω : Type} (value : ω → α) (encode : ω → Bytes) : Format α :=
  fun a enc => ∃ w, value w = a ∧ enc = encode w

/-- No byte string is an encoding. -/
def none : Format α := fun _ _ => False

/-- Every encoding has at least one byte. -/
def Nonempty (F : Format α) : Prop := ∀ a enc, F a enc → enc ≠ []

theorem seq_ofEncode_iff {encode : α → Bytes} {G : α → Format β}
    {b : β} {enc : Bytes} :
    (ofEncode encode).seq G b enc ↔
      ∃ a tail, G a b tail ∧ enc = encode a ++ tail := by
  constructor
  · rintro ⟨a, head, tail, rfl, htail, henc⟩
    exact ⟨a, tail, htail, henc⟩
  · rintro ⟨a, tail, htail, henc⟩
    exact ⟨a, encode a, tail, rfl, htail, henc⟩

theorem seq_nothing_iff {F : Format α} {f : α → β} {b : β} {enc : Bytes} :
    F.seq (fun a => nothing (f a)) b enc ↔ ∃ a, F a enc ∧ b = f a := by
  constructor
  · rintro ⟨a, head, tail, hhead, ⟨rfl, rfl⟩, rfl⟩
    exact ⟨a, by simpa using hhead, rfl⟩
  · rintro ⟨a, henc, rfl⟩
    exact ⟨a, enc, [], henc, ⟨rfl, rfl⟩, by simp⟩

theorem list_image_iff {ω : Type} {value : ω → α} {encode : ω → Bytes}
    {n : ℕ} {values : List α} {enc : Bytes} :
    (image value encode).list n values enc ↔
      ∃ ws : List ω, ws.length = n ∧ ws.map value = values ∧
        enc = ws.flatMap encode := by
  constructor
  · rintro ⟨rfl, encs, hencs, rfl⟩
    induction hencs with
    | nil => exact ⟨[], rfl, rfl, rfl⟩
    | cons hhead _ ih =>
        obtain ⟨w, rfl, rfl⟩ := hhead
        obtain ⟨ws, hlen, rfl, hrest⟩ := ih
        exact ⟨w :: ws, by simp, rfl, by simp [hrest]⟩
  · rintro ⟨ws, rfl, rfl, rfl⟩
    refine ⟨by simp, ws.map encode, ?_, by rw [List.flatMap_def]⟩
    induction ws with
    | nil => exact List.Forall₂.nil
    | cons w ws ih => exact List.Forall₂.cons ⟨w, rfl, rfl⟩ ih

/-- A list of values that each have one encoding. -/
theorem list_ofEncode_iff {encode : α → Bytes} {n : ℕ} {values : List α}
    {enc : Bytes} :
    (ofEncode encode).list n values enc ↔
      values.length = n ∧ enc = values.flatMap encode := by
  have himage : ofEncode encode = image id encode := by
    funext a enc
    simp [ofEncode, image]
  rw [himage, list_image_iff]
  simp

theorem nonempty_seq_left {F : Format α} {G : α → Format β}
    (hF : F.Nonempty) : (F.seq G).Nonempty := by
  rintro b enc ⟨a, head, tail, hhead, -, rfl⟩ hnil
  exact hF a head hhead (List.append_eq_nil_iff.mp hnil).1

end Format

/-! ## Primitive readers -/

namespace Cursor

open Bytes

/-- Read `width` bytes and move the offset behind them. -/
def readBytes (width : ℕ) (data : Bytes) : Cursor ε Bytes := fun offset => do
  let bs ← bytesAt data offset width
  return (bs, offset + width)

/-- Read one byte: `data[offset]`, then `offset += 1`. -/
def nextByte (data : Bytes) : Cursor ε UInt8 := fun offset => do
  let b ← byteAt data offset
  return (b, offset + 1)

/-- Return the error `e` if the offset is not inside the data. -/
def ensureMore (e : ε) (data : Bytes) : Cursor ε Unit := fun offset =>
  if data.length ≤ offset then .error e else .ok ((), offset)

/-- Take `&data[offset..offset + len]`; the error `e` if the data ends before
that. -/
def takeSlice (e : ε) (len : ℕ) (data : Bytes) : Cursor ε Bytes :=
  fun offset =>
    if data.length < offset + len then .error e
    else do
      let value ← slice data offset (offset + len)
      return (value, offset + len)

/-- Run `read` on `&data[offset..]` and move the offset by what it consumed. -/
def onRest (read : Bytes → Outcome ε (α × ℕ)) (data : Bytes) : Cursor ε α :=
  fun offset => do
    let rest ← sliceFrom data offset
    let (a, consumed) ← read rest
    return (a, offset + consumed)

/-- Run `read` `n` times and collect what it returns. -/
def times (read : Cursor ε α) : ℕ → Cursor ε (List α)
  | 0 => pure []
  | n + 1 => do
      let a ← read
      let rest ← times read n
      return a :: rest

/-- One more repetition. -/
theorem times_succ_eq_ok_iff {read : Cursor ε α} {n offset next : ℕ}
    {values : List α} :
    (times read (n + 1)).run offset = .ok (values, next) ↔
      ∃ a rest middle, read.run offset = .ok (a, middle) ∧
        (times read n).run middle = .ok (rest, next) ∧ values = a :: rest := by
  simp only [times, StateT.run_bind, Outcome.bind_eq_ok, Prod.exists]
  constructor
  · rintro ⟨a, middle, hfirst, rest, stop, hrest, hvalues⟩
    obtain ⟨rfl, rfl⟩ := Prod.mk.inj (Outcome.ok.inj hvalues)
    exact ⟨a, rest, middle, hfirst, hrest, rfl⟩
  · rintro ⟨a, rest, middle, hfirst, hrest, rfl⟩
    exact ⟨a, middle, hfirst, rest, next, hrest, rfl⟩

theorem length_of_times_eq_ok {read : Cursor ε α} {n offset next : ℕ}
    {values : List α}
    (h : (times read n).run offset = .ok (values, next)) :
    values.length = n := by
  induction n generalizing offset values with
  | zero =>
      obtain ⟨rfl, -⟩ := Prod.mk.inj (Outcome.ok.inj h)
      rfl
  | succ n ih =>
      obtain ⟨a, rest, middle, -, hrest, rfl⟩ := times_succ_eq_ok_iff.mp h
      rw [List.length_cons, ih hrest]

end Cursor

/-! ## Recognising a format -/

/-- `read` succeeds exactly on the encodings of `F` and consumes just them,
from every offset inside the data. -/
def Recognises (read : Bytes → Cursor ε α) (F : Format α) : Prop :=
  ∀ data offset, offset ≤ data.length → ∀ a next,
    (read data).run offset = .ok (a, next) ↔
      ∃ enc, F a enc ∧ enc <+: data.drop offset ∧ next = offset + enc.length

/-- An encoding inside the data ends inside the data. -/
theorem end_le_of_isPrefix_drop {enc data : Bytes} {offset : ℕ}
    (hoffset : offset ≤ data.length) (henc : enc <+: data.drop offset) :
    offset + enc.length ≤ data.length := by
  have hlen := henc.length_le
  rw [List.length_drop] at hlen
  omega

namespace Recognises

open Bytes

theorem congr {read : Bytes → Cursor ε α} {F G : Format α}
    (h : Recognises read F) (hFG : ∀ a enc, F a enc ↔ G a enc) :
    Recognises read G := by
  intro data offset hoffset a next
  rw [h data offset hoffset a next]
  simp only [hFG]

theorem pure (a : α) :
    Recognises (ε := ε) (fun _ => Pure.pure a) (Format.nothing a) := by
  intro data offset _ b next
  simp only [StateT.run_pure, Outcome.pure_eq, Outcome.ok.injEq, Prod.mk.injEq]
  constructor
  · rintro ⟨rfl, rfl⟩
    exact ⟨[], ⟨rfl, rfl⟩, List.nil_prefix, rfl⟩
  · rintro ⟨enc, ⟨rfl, rfl⟩, -, rfl⟩
    exact ⟨rfl, rfl⟩

theorem throw (e : ε) :
    Recognises (fun _ => (MonadExcept.throw e : Cursor ε α)) Format.none := by
  intro data offset _ a next
  have hrun : (MonadExcept.throw e : Cursor ε α).run offset = .error e := rfl
  simp [hrun, Format.none]

theorem bind {read : Bytes → Cursor ε α} {next : Bytes → α → Cursor ε β}
    {F : Format α} {G : α → Format β}
    (hread : Recognises read F)
    (hnext : ∀ a, Recognises (fun data => next data a) (G a)) :
    Recognises (fun data => read data >>= next data) (F.seq G) := by
  intro data offset hoffset b stop
  rw [StateT.run_bind, Outcome.bind_eq_ok]
  constructor
  · rintro ⟨⟨a, middle⟩, hfirst, hsecond⟩
    obtain ⟨head, hF, hhead, rfl⟩ :=
      (hread data offset hoffset a middle).mp hfirst
    have hmiddle := end_le_of_isPrefix_drop hoffset hhead
    obtain ⟨tail, hG, htail, rfl⟩ :=
      (hnext a data _ hmiddle b stop).mp hsecond
    refine ⟨head ++ tail, ⟨a, head, tail, hF, hG, rfl⟩,
      append_isPrefix_drop_iff.mpr ⟨hhead, htail⟩, ?_⟩
    simp [Nat.add_assoc]
  · rintro ⟨enc, ⟨a, head, tail, hF, hG, rfl⟩, henc, rfl⟩
    obtain ⟨hhead, htail⟩ := append_isPrefix_drop_iff.mp henc
    have hmiddle := end_le_of_isPrefix_drop hoffset hhead
    refine ⟨(a, offset + head.length), ?_, ?_⟩
    · exact (hread data offset hoffset a _).mpr ⟨head, hF, hhead, rfl⟩
    · refine (hnext a data _ hmiddle b _).mpr ⟨tail, hG, htail, ?_⟩
      simp [Nat.add_assoc]

/-- A guard against the end of the data changes nothing in front of a reader
whose encodings are not empty. -/
theorem ensureMore_bind {e : ε} {read : Bytes → Cursor ε α} {F : Format α}
    (hread : Recognises read F) (hF : F.Nonempty) :
    Recognises (fun data => Cursor.ensureMore e data >>= fun _ => read data)
      F := by
  intro data offset hoffset a next
  rw [StateT.run_bind]
  by_cases hend : data.length ≤ offset
  · have hguard : (Cursor.ensureMore e data).run offset = .error e := by
      simp [Cursor.ensureMore, StateT.run, hend]
    rw [hguard, Outcome.error_bind]
    constructor
    · intro h
      cases h
    · rintro ⟨enc, henc, hprefix, -⟩
      rw [List.drop_eq_nil_of_le hend, List.prefix_nil] at hprefix
      exact (hF a enc henc hprefix).elim
  · have hguard : (Cursor.ensureMore e data).run offset = .ok ((), offset) := by
      simp [Cursor.ensureMore, StateT.run, hend]
    rw [hguard, Outcome.ok_bind]
    exact hread data offset hoffset a next

theorem readBytes (width : ℕ) :
    Recognises (ε := ε) (Cursor.readBytes width)
      (fun bs enc => enc = bs ∧ bs.length = width) := by
  intro data offset _ bs next
  simp only [Cursor.readBytes, StateT.run, Outcome.bind_eq_ok,
    bytesAt_eq_ok_iff, Outcome.pure_eq, Outcome.ok.injEq, Prod.mk.injEq]
  constructor
  · rintro ⟨_, ⟨rfl, hprefix⟩, rfl, rfl⟩
    exact ⟨_, ⟨rfl, rfl⟩, hprefix, rfl⟩
  · rintro ⟨_, ⟨rfl, rfl⟩, hprefix, rfl⟩
    exact ⟨_, ⟨rfl, hprefix⟩, rfl, rfl⟩

theorem nextByte :
    Recognises (ε := ε) Cursor.nextByte (Format.ofEncode fun b => [b]) := by
  intro data offset _ b next
  simp only [Cursor.nextByte, StateT.run, Outcome.bind_eq_ok,
    byteAt_eq_ok_iff, Outcome.pure_eq, Outcome.ok.injEq, Prod.mk.injEq]
  constructor
  · rintro ⟨_, hprefix, rfl, rfl⟩
    exact ⟨_, rfl, hprefix, rfl⟩
  · rintro ⟨_, rfl, hprefix, rfl⟩
    exact ⟨_, hprefix, rfl, rfl⟩

theorem takeSlice (e : ε) (len : ℕ) :
    Recognises (Cursor.takeSlice e len)
      (fun bs enc => enc = bs ∧ bs.length = len) := by
  intro data offset hoffset bs next
  simp only [Cursor.takeSlice, StateT.run]
  by_cases hshort : data.length < offset + len
  · rw [if_pos hshort]
    constructor
    · intro h
      cases h
    · rintro ⟨_, ⟨rfl, rfl⟩, hprefix, -⟩
      have hend := end_le_of_isPrefix_drop hoffset hprefix
      omega
  · have hslice : slice (ε := ε) data offset (offset + len) =
        .ok ((data.drop offset).take len) := by
      simp only [slice, Nat.add_sub_cancel_left]
      rw [if_pos ⟨by omega, by omega⟩]
    simp only [if_neg hshort, hslice, Outcome.ok_bind, Outcome.pure_eq,
      Outcome.ok.injEq, Prod.mk.injEq]
    constructor
    · rintro ⟨rfl, rfl⟩
      have hlen : ((data.drop offset).take len).length = len := by
        rw [List.length_take, List.length_drop]
        omega
      exact ⟨_, ⟨rfl, hlen⟩, List.take_prefix _ _, by rw [hlen]⟩
    · rintro ⟨_, ⟨rfl, rfl⟩, hprefix, rfl⟩
      exact ⟨(List.prefix_iff_eq_take.mp hprefix).symm, rfl⟩

/-- A conversion between values and the byte strings of one width turns a
reader of that many bytes into a reader of values. -/
theorem converted {width : ℕ} {decode : Bytes → α} {encode : α → Bytes}
    (hlength : ∀ a, (encode a).length = width)
    (hdecode : ∀ a, decode (encode a) = a)
    (hencode : ∀ bs, bs.length = width → encode (decode bs) = bs) :
    Recognises (ε := ε)
      (fun data => do
        let bs ← Cursor.readBytes width data
        Pure.pure (decode bs))
      (Format.ofEncode encode) := by
  apply (bind (readBytes width) fun bs => pure (decode bs)).congr
  intro a enc
  rw [Format.seq_nothing_iff]
  constructor
  · rintro ⟨bs, ⟨rfl, hlen⟩, rfl⟩
    exact (hencode _ hlen).symm
  · rintro rfl
    exact ⟨encode a, ⟨rfl, hlength a⟩, (hdecode a).symm⟩

/-- Reading from a slice that starts at the offset is reading at the
offset. -/
theorem onRest {read : Bytes → Cursor ε α} {F : Format α}
    (hread : Recognises read F) :
    Recognises (Cursor.onRest fun data => (read data).run 0) F := by
  intro data offset hoffset a next
  simp only [Cursor.onRest, StateT.run, sliceFrom]
  rw [if_pos hoffset, Outcome.ok_bind, Outcome.bind_eq_ok]
  constructor
  · rintro ⟨⟨b, consumed⟩, hrun, hstop⟩
    obtain ⟨enc, henc, hprefix, rfl⟩ :=
      (hread (data.drop offset) 0 (Nat.zero_le _) b consumed).mp hrun
    cases hstop
    exact ⟨enc, henc, by simpa using hprefix, by simp⟩
  · rintro ⟨enc, henc, hprefix, rfl⟩
    refine ⟨(a, enc.length), ?_, rfl⟩
    exact (hread (data.drop offset) 0 (Nat.zero_le _) a enc.length).mpr
      ⟨enc, henc, by simpa using hprefix, by simp⟩

theorem times {read : Bytes → Cursor ε α} {F : Format α}
    (hread : Recognises read F) (n : ℕ) :
    Recognises (fun data => Cursor.times (read data) n) (F.list n) := by
  induction n with
  | zero =>
      apply (pure []).congr
      intro values enc
      constructor
      · rintro ⟨rfl, rfl⟩
        exact ⟨rfl, [], List.Forall₂.nil, rfl⟩
      · rintro ⟨hlen, encs, hencs, rfl⟩
        cases List.length_eq_zero_iff.mp hlen
        cases hencs
        exact ⟨rfl, rfl⟩
  | succ n ih =>
      refine (bind hread fun a => bind ih fun rest => pure (a :: rest)).congr
        fun values enc => ?_
      constructor
      · rintro ⟨a, head, tail, hhead, htail, rfl⟩
        obtain ⟨rest, ⟨hlen, encs, hencs, rfl⟩, rfl⟩ :=
          Format.seq_nothing_iff.mp htail
        exact ⟨by simp [hlen], head :: encs, List.Forall₂.cons hhead hencs,
          rfl⟩
      · rintro ⟨hlen, encs, hencs, rfl⟩
        cases hencs with
        | nil => simp at hlen
        | cons hhead hrest =>
            refine ⟨_, _, _, hhead, Format.seq_nothing_iff.mpr
              ⟨_, ⟨by simpa using hlen, _, hrest, rfl⟩, rfl⟩, rfl⟩

end Recognises
end Foundation
