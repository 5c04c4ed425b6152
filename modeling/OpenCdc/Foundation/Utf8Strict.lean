import OpenCdc.Foundation.Utf8

/-!
# Strict UTF-8

Decoding that stops at the first ill-formed part.  It accepts exactly the
encodings of texts.
-/

namespace Foundation

/-- Where well-formed data ends, and how many bytes are ill-formed there; none
if the data ends in the middle of a character. -/
structure Utf8Error where
  validUpTo : ℕ
  errorLen : Option ℕ
deriving DecidableEq, Repr

/-- `Display for Utf8Error` -/
def Utf8Error.message (e : Utf8Error) : String :=
  match e.errorLen with
  | some len => "invalid utf-8 sequence of " ++ toString len ++
      " bytes from index " ++ toString e.validUpTo
  | none => "incomplete utf-8 byte sequence from index " ++
      toString e.validUpTo

/-- The text of data that stands at an index; bytes of a character that has
been read already are skipped. -/
def utf8Strict (index skip : ℕ) : Bytes → Except Utf8Error (List Char)
  | [] => .ok []
  | b :: rest =>
      match skip with
      | skip + 1 => utf8Strict (index + 1) skip rest
      | 0 =>
          match utf8Step b rest with
          | .ok (c, n) => (utf8Strict (index + 1) (n - 1) rest).map (c :: ·)
          | .error errorLen => .error ⟨index, errorLen⟩

/-- `String::from_utf8` -/
def fromUtf8 (bytes : Bytes) : Except Utf8Error String :=
  (utf8Strict 0 0 bytes).map String.ofList

example : (fromUtf8 [0xE2, 0x82, 0xAC]).toOption = some "€" := by decide

example : utf8Strict 0 0 [0x61, 0xE2, 0x82] = .error ⟨1, none⟩ := by rfl

example : utf8Strict 0 0 [0x61, 0xE2, 0x82, 0x61] = .error ⟨1, some 2⟩ := by rfl

theorem utf8Strict_append (index : ℕ) (skipped rest : Bytes) :
    utf8Strict index skipped.length (skipped ++ rest) =
      utf8Strict (index + skipped.length) 0 rest := by
  induction skipped generalizing index with
  | nil => rfl
  | cons b skipped ih =>
      rw [List.cons_append, List.length_cons, utf8Strict, ih, Nat.add_assoc,
        Nat.add_comm 1]

/-- A character is read, whatever stands behind it. -/
theorem utf8Strict_utf8EncodeChar_append (index : ℕ) (c : Char) (rest : Bytes) :
    utf8Strict index 0 (String.utf8EncodeChar c ++ rest) =
      (utf8Strict (index + (String.utf8EncodeChar c).length) 0 rest).map
        (c :: ·) := by
  obtain ⟨b, tail, henc, hstep⟩ :=
    utf8Step_of_encodedAs (encodedAs_utf8EncodeChar c) c.valid rest
  rw [Char.ofNat_toNat, henc] at hstep
  rw [henc, List.cons_append, utf8Strict, hstep]
  dsimp only
  rw [List.length_cons, Nat.add_sub_cancel, utf8Strict_append, Nat.add_assoc,
    Nat.add_comm 1]

theorem utf8Strict_encodeUtf8 (index : ℕ) (text : List Char) :
    utf8Strict index 0 (encodeUtf8 text) = .ok text := by
  induction text generalizing index with
  | nil => rfl
  | cons c text ih =>
      rw [encodeUtf8_cons, utf8Strict_utf8EncodeChar_append, ih]
      rfl

/-- A character in front of the rest is what a step reads. -/
theorem exists_of_encodedAs {enc back : Bytes} {v n : ℕ} {c : Char}
    (h : EncodedAs v enc) (hvalid : v.isValidChar) {b : UInt8} {rest : Bytes}
    (hsplit : b :: rest = enc ++ back) (hstep : utf8Step b rest = .ok (c, n)) :
    ∃ back, b :: rest = String.utf8EncodeChar c ++ back ∧
      (String.utf8EncodeChar c).length = n := by
  obtain ⟨b', tail, henc, hread⟩ := utf8Step_of_encodedAs h hvalid back
  rw [henc, List.cons_append] at hsplit
  obtain ⟨hb, hrest⟩ := List.cons.inj hsplit
  rw [hb, hrest, hread] at hstep
  cases hstep
  rw [hsplit, ← eq_utf8EncodeChar_of_encodedAs h hvalid, henc]
  exact ⟨back, rfl, rfl⟩

/-- What a step reads in front of the rest is the encoding of a character. -/
theorem utf8Step_eq_ok {b : UInt8} {rest : Bytes} {c : Char} {n : ℕ}
    (h : utf8Step b rest = .ok (c, n)) :
    ∃ back, b :: rest = String.utf8EncodeChar c ++ back ∧
      (String.utf8EncodeChar c).length = n := by
  have hread := h
  rw [utf8Step.eq_def] at hread
  simp only [UInt8.lt_iff_toNat_lt, UInt8.le_iff_toNat_le, UInt8.reduceToNat]
    at hread
  split_ifs at hread with hone htwo hthree hfour
  · have henc := EncodedAs.one hone
    rw [UInt8.ofNat_toNat] at henc
    exact exists_of_encodedAs henc (.inl (by omega)) rfl h
  · rcases rest with _ | ⟨c₁, rest⟩
    · cases hread
    · dsimp only at hread
      split_ifs at hread with hc₁
      have hbits := (isContinuation_iff c₁).mp hc₁
      exact exists_of_encodedAs (encodedAs_two htwo.1 htwo.2 hc₁)
        (.inl (by omega)) rfl h
  · rcases rest with _ | ⟨c₁, _ | ⟨c₂, rest⟩⟩
    · cases hread
    · dsimp only at hread
      split_ifs at hread
    · dsimp only at hread
      split_ifs at hread with hc₁ hc₂
      have hsecond := secondOfThree_eq_true hc₁
      have hthird := (isContinuation_iff c₂).mp hc₂
      apply exists_of_encodedAs (encodedAs_three hthree.1 hthree.2 hc₁ hc₂) _
        rfl h
      unfold Nat.isValidChar
      omega
  · rcases rest with _ | ⟨c₁, _ | ⟨c₂, _ | ⟨c₃, rest⟩⟩⟩
    · cases hread
    · dsimp only at hread
      split_ifs at hread
    · dsimp only at hread
      split_ifs at hread
    · dsimp only at hread
      split_ifs at hread with hc₁ hc₂ hc₃
      have hsecond := secondOfFour_eq_true hc₁
      have hthird := (isContinuation_iff c₂).mp hc₂
      have hfourth := (isContinuation_iff c₃).mp hc₃
      apply exists_of_encodedAs
        (encodedAs_four hfour.1 hfour.2 hc₁ hc₂ hc₃) _ rfl h
      unfold Nat.isValidChar
      omega

/-- Strict decoding reads what is the encoding of a text, and nothing else. -/
theorem utf8Strict_eq_ok_iff {index : ℕ} {bytes : Bytes} {text : List Char} :
    utf8Strict index 0 bytes = .ok text ↔ bytes = encodeUtf8 text := by
  constructor
  · intro h
    induction hn : bytes.length using Nat.strong_induction_on
      generalizing bytes index text with
    | _ n ih =>
        cases bytes with
        | nil =>
            cases h
            rfl
        | cons b rest =>
            cases hstep : utf8Step b rest with
            | error errorLen =>
                rw [utf8Strict, hstep] at h
                cases h
            | ok read =>
                obtain ⟨back, hsplit, -⟩ := utf8Step_eq_ok hstep
                have hlength := congrArg List.length hsplit
                rw [List.length_append] at hlength
                have hpos := List.length_pos_of_ne_nil
                  (String.utf8EncodeChar_ne_nil (c := read.1))
                rw [hsplit, utf8Strict_utf8EncodeChar_append] at h
                cases hback : utf8Strict
                    (index + (String.utf8EncodeChar read.1).length) 0 back with
                | error e =>
                    rw [hback] at h
                    cases h
                | ok text' =>
                    rw [hback] at h
                    cases h
                    rw [hsplit, encodeUtf8_cons,
                      ← ih back.length (by omega) hback rfl]
  · intro h
    rw [h, utf8Strict_encodeUtf8]

theorem fromUtf8_eq_ok_iff {bytes : Bytes} {s : String} :
    fromUtf8 bytes = .ok s ↔ bytes = encodeUtf8 s.toList := by
  rw [fromUtf8, ← @utf8Strict_eq_ok_iff 0]
  cases utf8Strict 0 0 bytes with
  | error e => exact iff_of_false (by rintro ⟨⟩) (by rintro ⟨⟩)
  | ok text =>
      constructor
      · intro h
        rw [← Except.ok.inj h, String.toList_ofList]
      · intro h
        rw [Except.ok.inj h]
        exact congrArg Except.ok String.ofList_toList

end Foundation
