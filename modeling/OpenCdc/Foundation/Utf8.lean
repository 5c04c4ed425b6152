import OpenCdc.Foundation.Text

/-!
# UTF-8

The encoding of a text and the lossy decoder that reads it back.  A text whose
first byte is missing is never read as the same text, nor one with a byte in
front.  Data is determined by what is read exactly when that has no replacement
character.
-/

namespace Foundation

/-- The UTF-8 encoding of a text. -/
def encodeUtf8 (text : List Char) : Bytes := text.flatMap String.utf8EncodeChar

@[simp] theorem encodeUtf8_nil : encodeUtf8 [] = [] := rfl

@[simp] theorem encodeUtf8_cons (c : Char) (text : List Char) :
    encodeUtf8 (c :: text) = String.utf8EncodeChar c ++ encodeUtf8 text :=
  List.flatMap_cons

/-! ## Bytes of a character -/

/-- The continuation byte that carries six bits. -/
def continuation (n : ℕ) : UInt8 := UInt8.ofNat (n % 64 + 128)

theorem toNat_continuation (n : ℕ) :
    (continuation n).toNat = n % 64 + 128 := by
  rw [continuation, UInt8.toNat_ofNat', Nat.mod_eq_of_lt (by omega)]

theorem isContinuation_continuation (n : ℕ) :
    isContinuation (continuation n) = true := by
  have h : ∀ k < 64, isContinuation (UInt8.ofNat (k + 128)) = true := by
    decide
  exact h _ (Nat.mod_lt n (by omega))

theorem payload_continuation (n : ℕ) : payload (continuation n) = n % 64 := by
  rw [payload, toNat_continuation]
  omega

/-- How a character is encoded, by the number of its bytes. -/
inductive EncodedAs (v : ℕ) : Bytes → Prop
  | one (h : v < 0x80) : EncodedAs v [UInt8.ofNat v]
  | two (hlow : 0x80 ≤ v) (hhigh : v < 0x800) :
      EncodedAs v [UInt8.ofNat (v / 64 + 0xC0), continuation v]
  | three (hlow : 0x800 ≤ v) (hhigh : v < 0x10000) :
      EncodedAs v [UInt8.ofNat (v / 4096 + 0xE0), continuation (v / 64),
        continuation v]
  | four (hlow : 0x10000 ≤ v) (hhigh : v < 0x110000) :
      EncodedAs v [UInt8.ofNat (v / 262144 + 0xF0), continuation (v / 4096),
        continuation (v / 64), continuation v]

theorem encodedAs_utf8EncodeChar (c : Char) :
    EncodedAs c.toNat (String.utf8EncodeChar c) := by
  have hvalid : c.toNat < 0x110000 := by
    rcases c.valid with h | ⟨-, h⟩
    · exact Nat.lt_trans h (by decide)
    · exact h
  have hval : c.val.toNat = c.toNat := rfl
  unfold String.utf8EncodeChar
  simp only [hval]
  split_ifs with hone htwo hthree
  · exact .one (by omega)
  · have hlead : c.toNat / 64 % 32 = c.toNat / 64 := by omega
    rw [hlead]
    exact .two (by omega) (by omega)
  · have hlead : c.toNat / 4096 % 16 = c.toNat / 4096 := by omega
    rw [hlead]
    exact .three (by omega) (by omega)
  · have hlead : c.toNat / 262144 % 8 = c.toNat / 262144 := by omega
    rw [hlead]
    exact .four (by omega) hvalid

/-! ## Decoding -/

/-- A continuation byte where a character should start is ill-formed. -/
theorem utf8Lossy_cons_continuation (n : ℕ) (rest : Bytes) :
    utf8Lossy (continuation n :: rest) = replacementChar :: utf8Lossy rest := by
  have hn := toNat_continuation n
  rw [utf8Lossy.eq_def]
  dsimp only
  rw [if_neg, if_neg, if_neg, if_neg]
  all_goals
    simp only [UInt8.lt_iff_toNat_lt, UInt8.le_iff_toNat_le, hn,
      UInt8.reduceToNat]
    omega

/-- What is left of a character without its first byte. -/
theorem utf8Lossy_tail_append {v : ℕ} {enc : Bytes} (h : EncodedAs v enc)
    (rest : Bytes) :
    utf8Lossy (enc.tail ++ rest) =
      List.replicate (enc.length - 1) replacementChar ++ utf8Lossy rest := by
  cases h <;> simp [utf8Lossy_cons_continuation, List.replicate]

/-- The value of a byte that starts a character. -/
theorem toNat_lead {n b : ℕ} (h : n + b < 256) :
    (UInt8.ofNat (n + b)).toNat = n + b := by
  rw [UInt8.toNat_ofNat', Nat.mod_eq_of_lt h]

/-- Neither an overlong form nor a surrogate is written. -/
theorem secondOfThree_continuation {v : ℕ} (hlow : 0x800 ≤ v)
    (hhigh : v < 0x10000) (hvalid : v.isValidChar) :
    secondOfThree (UInt8.ofNat (v / 4096 + 0xE0)) (continuation (v / 64)) =
      true := by
  have hlead := toNat_lead (n := v / 4096) (b := 0xE0) (by omega)
  have hnat := toNat_continuation (v / 64)
  unfold secondOfThree
  simp only [← UInt8.toNat_inj, hlead, UInt8.reduceToNat,
    UInt8.le_iff_toNat_le, hnat]
  split_ifs
  all_goals
    simp only [Bool.and_eq_true, decide_eq_true_eq]
    rcases hvalid with h | h <;> omega

/-- Neither an overlong form nor a value behind the last character. -/
theorem secondOfFour_continuation {v : ℕ} (hlow : 0x10000 ≤ v)
    (hhigh : v < 0x110000) :
    secondOfFour (UInt8.ofNat (v / 262144 + 0xF0)) (continuation (v / 4096)) =
      true := by
  have hlead := toNat_lead (n := v / 262144) (b := 0xF0) (by omega)
  have hnat := toNat_continuation (v / 4096)
  unfold secondOfFour
  simp only [← UInt8.toNat_inj, hlead, UInt8.reduceToNat,
    UInt8.le_iff_toNat_le, hnat]
  split_ifs
  all_goals
    simp only [Bool.and_eq_true, decide_eq_true_eq]
    omega

/-- The character that data starts with and the number of its bytes, or the
number of bytes that are ill-formed; none if the data ends before that is
known. -/
def utf8Step (b : UInt8) (rest : Bytes) : Except (Option ℕ) (Char × ℕ) :=
  if b < 0x80 then .ok (b.toChar, 1)
  else if 0xC2 ≤ b ∧ b ≤ 0xDF then
    match rest with
    | c :: _ =>
        if isContinuation c then
          .ok (Char.ofNat (b.toNat % 32 * 64 + payload c), 2)
        else .error (some 1)
    | [] => .error none
  else if 0xE0 ≤ b ∧ b ≤ 0xEF then
    match rest with
    | c :: rest' =>
        if secondOfThree b c then
          match rest' with
          | d :: _ =>
              if isContinuation d then
                .ok (Char.ofNat ((b.toNat % 16 * 64 + payload c) * 64
                  + payload d), 3)
              else .error (some 2)
          | [] => .error none
        else .error (some 1)
    | [] => .error none
  else if 0xF0 ≤ b ∧ b ≤ 0xF4 then
    match rest with
    | c :: rest' =>
        if secondOfFour b c then
          match rest' with
          | d :: rest'' =>
              if isContinuation d then
                match rest'' with
                | e :: _ =>
                    if isContinuation e then
                      .ok (Char.ofNat (((b.toNat % 8 * 64 + payload c) * 64
                        + payload d) * 64 + payload e), 4)
                    else .error (some 3)
                | [] => .error none
              else .error (some 2)
          | [] => .error none
        else .error (some 1)
    | [] => .error none
  else .error (some 1)

/-- A step reads a character, whatever stands behind it. -/
theorem utf8Step_of_encodedAs {v : ℕ} {enc : Bytes} (h : EncodedAs v enc)
    (hvalid : v.isValidChar) (rest : Bytes) :
    ∃ b tail, enc = b :: tail ∧
      utf8Step b (tail ++ rest) = .ok (Char.ofNat v, enc.length) := by
  cases h with
  | one h =>
      have hlead : (UInt8.ofNat v).toNat = v := by
        rw [UInt8.toNat_ofNat', Nat.mod_eq_of_lt (by omega)]
      have hchar : (UInt8.ofNat v).toChar = Char.ofNat v := by
        rw [← Char.ofNat_toNat (UInt8.ofNat v).toChar]
        exact congrArg Char.ofNat hlead
      refine ⟨_, _, rfl, ?_⟩
      rw [utf8Step.eq_def, if_pos, hchar]
      · rfl
      · simp only [UInt8.lt_iff_toNat_lt, hlead, UInt8.reduceToNat]
        omega
  | two hlow hhigh =>
      have hlead := toNat_lead (n := v / 64) (b := 0xC0) (by omega)
      have hvalue : (v / 64 + 0xC0) % 32 * 64 + v % 64 = v := by omega
      refine ⟨_, _, rfl, ?_⟩
      rw [List.singleton_append, utf8Step.eq_def, if_neg, if_pos]
      · dsimp only
        rw [if_pos (isContinuation_continuation v), hlead,
          payload_continuation, hvalue]
        rfl
      all_goals
        simp only [UInt8.lt_iff_toNat_lt, UInt8.le_iff_toNat_le, hlead,
          UInt8.reduceToNat]
        omega
  | three hlow hhigh =>
      have hlead := toNat_lead (n := v / 4096) (b := 0xE0) (by omega)
      have hvalue : ((v / 4096 + 0xE0) % 16 * 64 + v / 64 % 64) * 64 + v % 64 =
          v := by omega
      have hsecond := secondOfThree_continuation hlow hhigh hvalid
      refine ⟨_, _, rfl, ?_⟩
      rw [List.cons_append, List.singleton_append, utf8Step.eq_def, if_neg,
        if_neg, if_pos]
      · dsimp only
        rw [if_pos hsecond, if_pos (isContinuation_continuation v), hlead,
          payload_continuation, payload_continuation, hvalue]
        rfl
      all_goals
        simp only [UInt8.lt_iff_toNat_lt, UInt8.le_iff_toNat_le, hlead,
          UInt8.reduceToNat]
        omega
  | four hlow hhigh =>
      have hlead := toNat_lead (n := v / 262144) (b := 0xF0) (by omega)
      have hvalue : (((v / 262144 + 0xF0) % 8 * 64 + v / 4096 % 64) * 64 +
          v / 64 % 64) * 64 + v % 64 = v := by omega
      have hsecond := secondOfFour_continuation hlow hhigh
      refine ⟨_, _, rfl, ?_⟩
      rw [List.cons_append, List.cons_append, List.singleton_append,
        utf8Step.eq_def, if_neg, if_neg, if_neg, if_pos]
      · dsimp only
        rw [if_pos hsecond, if_pos (isContinuation_continuation _),
          if_pos (isContinuation_continuation v), hlead, payload_continuation,
          payload_continuation, payload_continuation, hvalue]
        rfl
      all_goals
        simp only [UInt8.lt_iff_toNat_lt, UInt8.le_iff_toNat_le, hlead,
          UInt8.reduceToNat]
        omega

/-- Lossy decoding takes the same steps. -/
theorem utf8Lossy_of_utf8Step {b : UInt8} {rest : Bytes} {c : Char} {n : ℕ}
    (h : utf8Step b rest = .ok (c, n)) :
    utf8Lossy (b :: rest) = c :: utf8Lossy (rest.drop (n - 1)) := by
  rw [utf8Lossy.eq_def]
  rcases rest with _ | ⟨c₁, _ | ⟨c₂, _ | ⟨c₃, rest⟩⟩⟩
  all_goals
    rw [utf8Step.eq_def] at h
    dsimp only at h ⊢
    split_ifs at h ⊢
    all_goals
      cases h
      rfl

/-- A character is read back, whatever stands behind it. -/
theorem utf8Lossy_append_of_encodedAs {v : ℕ} {enc : Bytes}
    (h : EncodedAs v enc) (hvalid : v.isValidChar) (rest : Bytes) :
    utf8Lossy (enc ++ rest) = Char.ofNat v :: utf8Lossy rest := by
  obtain ⟨b, tail, rfl, hstep⟩ := utf8Step_of_encodedAs h hvalid rest
  rw [List.cons_append, utf8Lossy_of_utf8Step hstep, List.length_cons,
    Nat.add_sub_cancel, List.drop_left]

theorem utf8Lossy_utf8EncodeChar_append (c : Char) (rest : Bytes) :
    utf8Lossy (String.utf8EncodeChar c ++ rest) = c :: utf8Lossy rest := by
  rw [utf8Lossy_append_of_encodedAs (encodedAs_utf8EncodeChar c) c.valid,
    Char.ofNat_toNat]

theorem utf8Lossy_encodeUtf8 (text : List Char) :
    utf8Lossy (encodeUtf8 text) = text := by
  induction text with
  | nil => rfl
  | cons c text ih =>
      rw [encodeUtf8_cons, utf8Lossy_utf8EncodeChar_append, ih]

/-- A text is read back from its encoding. -/
theorem fromUtf8Lossy_encodeUtf8 (s : String) :
    fromUtf8Lossy (encodeUtf8 s.toList) = s := by
  rw [fromUtf8Lossy, utf8Lossy_encodeUtf8, String.ofList_toList]

/-- The lost byte cannot be made up for: a replacement character stands for
each of the bytes that are left, and has three bytes itself. -/
theorem utf8Lossy_tail_encodeUtf8_ne {text : List Char} (h : text ≠ []) :
    utf8Lossy (encodeUtf8 text).tail ≠ text := by
  cases text with
  | nil => exact absurd rfl h
  | cons c text =>
      have henc := encodedAs_utf8EncodeChar c
      have hne : String.utf8EncodeChar c ≠ [] := String.utf8EncodeChar_ne_nil
      rw [encodeUtf8_cons, List.tail_append_of_ne_nil hne,
        utf8Lossy_tail_append henc, utf8Lossy_encodeUtf8,
        String.length_utf8EncodeChar]
      intro heq
      have hlength := congrArg List.length heq
      have hsize : c.utf8Size = 2 := by
        simp only [List.length_append, List.length_replicate,
          List.length_cons] at hlength
        omega
      rw [hsize] at heq
      have hchar : replacementChar = c := (List.cons.inj heq).1
      rw [← hchar] at hsize
      exact absurd hsize (by decide)

/-- Only the character zero has a zero byte. -/
theorem zero_notMem_encodeUtf8 {text : List Char}
    (h : ∀ c ∈ text, c.toNat ≠ 0) : (0 : UInt8) ∉ encodeUtf8 text := by
  intro hzero
  obtain ⟨c, hc, hmem⟩ := List.mem_flatMap.mp hzero
  have hpos := h c hc
  have henc := encodedAs_utf8EncodeChar c
  have hcontinuation : ∀ n, 0 ≠ continuation n := fun n hn => by
    have hnat := congrArg UInt8.toNat hn
    rw [toNat_continuation] at hnat
    simp at hnat
  generalize String.utf8EncodeChar c = enc at henc hmem
  generalize c.toNat = v at henc hpos
  cases henc with
  | one h =>
      have hnat := congrArg UInt8.toNat (List.mem_singleton.mp hmem)
      rw [UInt8.toNat_ofNat', Nat.mod_eq_of_lt (by omega)] at hnat
      exact hpos hnat.symm
  | _ =>
      simp only [List.mem_cons, List.not_mem_nil, or_false, hcontinuation]
        at hmem
      have hnat := congrArg UInt8.toNat hmem
      rw [toNat_lead (by omega)] at hnat
      simp at hnat

/-- The first byte of a text is not one that may continue a character. -/
theorem lt_or_le_head_encodeUtf8 {text : List Char} {b : UInt8} {rest : Bytes}
    (h : encodeUtf8 text = b :: rest) : b.toNat < 0x80 ∨ 0xC0 ≤ b.toNat := by
  cases text with
  | nil => simp at h
  | cons c text =>
      have henc := encodedAs_utf8EncodeChar c
      rw [encodeUtf8_cons] at h
      generalize String.utf8EncodeChar c = enc at h henc
      generalize c.toNat = v at henc
      cases henc with
      | one hv =>
          have hb : UInt8.ofNat v = b := (List.cons.inj h).1
          rw [← hb, UInt8.toNat_ofNat', Nat.mod_eq_of_lt (by omega)]
          exact .inl hv
      | two hlow hhigh =>
          have hb : UInt8.ofNat (v / 64 + 0xC0) = b := (List.cons.inj h).1
          rw [← hb, toNat_lead (by omega)]
          exact .inr (Nat.le_add_left _ _)
      | three hlow hhigh =>
          have hb : UInt8.ofNat (v / 4096 + 0xE0) = b := (List.cons.inj h).1
          rw [← hb, toNat_lead (by omega)]
          omega
      | four hlow hhigh =>
          have hb : UInt8.ofNat (v / 262144 + 0xF0) = b := (List.cons.inj h).1
          rw [← hb, toNat_lead (by omega)]
          omega

/-- A continuation byte has its upper bits fixed. -/
theorem isContinuation_iff (b : UInt8) :
    isContinuation b ↔ 0x80 ≤ b.toNat ∧ b.toNat < 0xC0 := by
  have h : ∀ k < 256, isContinuation (UInt8.ofNat k) = true ↔
      0x80 ≤ k ∧ k < 0xC0 := by
    decide +kernel
  have hb := h b.toNat b.toNat_lt
  rwa [UInt8.ofNat_toNat] at hb

/-- The second byte of three is a continuation byte. -/
theorem secondOfThree_eq_true {b c : UInt8} (h : secondOfThree b c) :
    0x80 ≤ c.toNat ∧ c.toNat < 0xC0 ∧
      (b.toNat = 0xE0 → 0xA0 ≤ c.toNat) ∧ (b.toNat = 0xED → c.toNat < 0xA0) := by
  unfold secondOfThree at h
  simp only [← UInt8.toNat_inj, UInt8.reduceToNat] at h
  split_ifs at h with hlow hhigh
  all_goals
    simp only [Bool.and_eq_true, decide_eq_true_eq, UInt8.le_iff_toNat_le,
      UInt8.reduceToNat] at h
    omega

/-- The second byte of four is a continuation byte. -/
theorem secondOfFour_eq_true {b c : UInt8} (h : secondOfFour b c) :
    0x80 ≤ c.toNat ∧ c.toNat < 0xC0 ∧
      (b.toNat = 0xF0 → 0x90 ≤ c.toNat) ∧ (b.toNat = 0xF4 → c.toNat < 0x90) := by
  unfold secondOfFour at h
  simp only [← UInt8.toNat_inj, UInt8.reduceToNat] at h
  split_ifs at h with hlow hhigh
  all_goals
    simp only [Bool.and_eq_true, decide_eq_true_eq, UInt8.le_iff_toNat_le,
      UInt8.reduceToNat] at h
    omega

/-- What a byte becomes in front of a text. -/
def strayChar (b : UInt8) : Char :=
  if b < 0x80 then b.toChar else replacementChar

/-- A byte in front of a text becomes one character more. -/
theorem utf8Lossy_cons_encodeUtf8 (b : UInt8) (text : List Char) :
    utf8Lossy (b :: encodeUtf8 text) = strayChar b :: text := by
  have htext := utf8Lossy_encodeUtf8 text
  unfold strayChar
  cases hrest : encodeUtf8 text with
  | nil =>
      rw [hrest] at htext
      rw [← htext, utf8Lossy.eq_def]
      dsimp only
      split_ifs <;> rfl
  | cons c rest =>
      have hhead := lt_or_le_head_encodeUtf8 hrest
      rw [hrest] at htext
      have hcontinuation : isContinuation c = false := by
        rw [Bool.eq_false_iff, ne_eq, isContinuation_iff]
        omega
      have hthree : secondOfThree b c = false := by
        rw [Bool.eq_false_iff]
        intro h
        have hc := secondOfThree_eq_true h
        omega
      have hfour : secondOfFour b c = false := by
        rw [Bool.eq_false_iff]
        intro h
        have hc := secondOfFour_eq_true h
        omega
      rw [utf8Lossy.eq_def]
      dsimp only
      rw [hcontinuation, hthree, hfour, htext]
      simp only [Bool.false_eq_true, if_false]
      split_ifs <;> rfl

/-! ## What is read first -/

theorem eq_utf8EncodeChar_of_encodedAs {v : ℕ} {enc : Bytes}
    (h : EncodedAs v enc) (hvalid : v.isValidChar) :
    enc = String.utf8EncodeChar (Char.ofNat v) := by
  have hchar := encodedAs_utf8EncodeChar (Char.ofNat v)
  have hnat : (Char.ofNat v).toNat = v := by
    have haux : Char.ofNat v = Char.ofNatAux v hvalid := dif_pos hvalid
    rw [haux]
    rfl
  rw [hnat] at hchar
  generalize String.utf8EncodeChar (Char.ofNat v) = enc' at hchar
  cases h <;> cases hchar <;> first | rfl | omega

theorem eq_continuation {b : UInt8} {n : ℕ} (hb : isContinuation b)
    (hn : n % 64 = b.toNat - 0x80) : b = continuation n := by
  rw [isContinuation_iff] at hb
  apply UInt8.toNat_inj.mp
  rw [toNat_continuation]
  omega

theorem eq_lead {b : UInt8} {n : ℕ} (hn : n = b.toNat) : b = UInt8.ofNat n := by
  rw [hn, UInt8.ofNat_toNat]

/-- The data starts with a character or an ill-formed part, and the rest is read
behind it. -/
def StartsWith (bytes : Bytes) (c : Char) (front back : Bytes) : Prop :=
  bytes = front ++ back ∧ front ≠ [] ∧
    utf8Lossy bytes = c :: utf8Lossy back ∧
    (c = replacementChar ∨ front = String.utf8EncodeChar c)

/-- A byte that does not start a character is ill-formed. -/
theorem utf8Lossy_cons_of_le {b : UInt8} (hb : 0xF5 ≤ b) (rest : Bytes) :
    utf8Lossy (b :: rest) = replacementChar :: utf8Lossy rest := by
  have hnat : 0xF5 ≤ b.toNat := hb
  rw [utf8Lossy.eq_def]
  dsimp only
  rw [if_neg, if_neg, if_neg, if_neg]
  all_goals
    simp only [UInt8.lt_iff_toNat_lt, UInt8.le_iff_toNat_le, UInt8.reduceToNat]
    omega

theorem startsWith_encoded {front back : Bytes} {v : ℕ} (h : EncodedAs v front)
    (hvalid : v.isValidChar) :
    StartsWith (front ++ back) (Char.ofNat v) front back := by
  have hne : front ≠ [] := by
    cases h <;> simp
  refine ⟨rfl, hne, utf8Lossy_append_of_encodedAs h hvalid back, .inr ?_⟩
  exact eq_utf8EncodeChar_of_encodedAs h hvalid

theorem encodedAs_two {b c : UInt8} (hlow : 0xC2 ≤ b.toNat)
    (hhigh : b.toNat ≤ 0xDF) (hc : isContinuation c) :
    EncodedAs ((b.toNat - 0xC0) * 64 + (c.toNat - 0x80)) [b, c] := by
  have hbits := (isContinuation_iff c).mp hc
  have hlead : b = UInt8.ofNat
      (((b.toNat - 0xC0) * 64 + (c.toNat - 0x80)) / 64 + 0xC0) :=
    eq_lead (by omega)
  have hlast : c = continuation ((b.toNat - 0xC0) * 64 + (c.toNat - 0x80)) :=
    eq_continuation hc (by omega)
  have henc := EncodedAs.two
    (v := (b.toNat - 0xC0) * 64 + (c.toNat - 0x80)) (by omega) (by omega)
  rwa [← hlead, ← hlast] at henc

theorem encodedAs_three {b c d : UInt8} (hlow : 0xE0 ≤ b.toNat)
    (hhigh : b.toNat ≤ 0xEF) (hc : secondOfThree b c) (hd : isContinuation d) :
    EncodedAs (((b.toNat - 0xE0) * 64 + (c.toNat - 0x80)) * 64 +
      (d.toNat - 0x80)) [b, c, d] := by
  have hsecond := secondOfThree_eq_true hc
  have hthird := (isContinuation_iff d).mp hd
  have hcontinuation : isContinuation c := by
    rw [isContinuation_iff]
    omega
  let v := ((b.toNat - 0xE0) * 64 + (c.toNat - 0x80)) * 64 + (d.toNat - 0x80)
  have hlead : b = UInt8.ofNat (v / 4096 + 0xE0) := eq_lead (by omega)
  have hmiddle : c = continuation (v / 64) :=
    eq_continuation hcontinuation (by omega)
  have hlast : d = continuation v := eq_continuation hd (by omega)
  have henc := EncodedAs.three (v := v) (by omega) (by omega)
  rwa [← hlead, ← hmiddle, ← hlast] at henc

theorem encodedAs_four {b c d e : UInt8} (hlow : 0xF0 ≤ b.toNat)
    (hhigh : b.toNat ≤ 0xF4) (hc : secondOfFour b c) (hd : isContinuation d)
    (he : isContinuation e) :
    EncodedAs ((((b.toNat - 0xF0) * 64 + (c.toNat - 0x80)) * 64 +
      (d.toNat - 0x80)) * 64 + (e.toNat - 0x80)) [b, c, d, e] := by
  have hsecond := secondOfFour_eq_true hc
  have hthird := (isContinuation_iff d).mp hd
  have hfourth := (isContinuation_iff e).mp he
  have hcontinuation : isContinuation c := by
    rw [isContinuation_iff]
    omega
  let v := (((b.toNat - 0xF0) * 64 + (c.toNat - 0x80)) * 64 +
    (d.toNat - 0x80)) * 64 + (e.toNat - 0x80)
  have hlead : b = UInt8.ofNat (v / 262144 + 0xF0) := eq_lead (by omega)
  have hmiddle : c = continuation (v / 4096) :=
    eq_continuation hcontinuation (by omega)
  have hmiddle' : d = continuation (v / 64) := eq_continuation hd (by omega)
  have hlast : e = continuation v := eq_continuation he (by omega)
  have henc := EncodedAs.four (v := v) (by omega) (by omega)
  rwa [← hlead, ← hmiddle, ← hmiddle', ← hlast] at henc

/-- An ill-formed part in front of what is read next. -/
theorem exists_startsWith_stray (front : Bytes) {back : Bytes} (hne : front ≠ [])
    (h : utf8Lossy (front ++ back) = replacementChar :: utf8Lossy back) :
    ∃ c front' back', StartsWith (front ++ back) c front' back' :=
  ⟨_, front, back, rfl, hne, h, .inl rfl⟩

/-- A character in front of what is read next. -/
theorem exists_startsWith_encoded {front : Bytes} (back : Bytes) {v : ℕ}
    (h : EncodedAs v front) (hvalid : v.isValidChar) :
    ∃ c front' back', StartsWith (front ++ back) c front' back' :=
  ⟨_, front, back, startsWith_encoded h hvalid⟩

/-- Reading takes off a character or an ill-formed part. -/
theorem exists_startsWith (b : UInt8) (rest : Bytes) :
    ∃ c front back, StartsWith (b :: rest) c front back := by
  have hread := utf8Lossy.eq_def (b :: rest)
  dsimp only at hread
  simp only [UInt8.lt_iff_toNat_lt, UInt8.le_iff_toNat_le, UInt8.reduceToNat]
    at hread
  split_ifs at hread with hone htwo hthree hfour
  · have henc := EncodedAs.one hone
    rw [UInt8.ofNat_toNat] at henc
    exact exists_startsWith_encoded rest henc (.inl (by omega))
  · rcases rest with _ | ⟨c, rest⟩
    · exact exists_startsWith_stray [b] (by simp) hread
    · by_cases hc : isContinuation c
      · have hbits := (isContinuation_iff c).mp hc
        exact exists_startsWith_encoded rest
          (encodedAs_two htwo.1 htwo.2 hc) (.inl (by omega))
      · simp only [hc, Bool.false_eq_true, if_false] at hread
        exact exists_startsWith_stray [b] (by simp) hread
  · rcases rest with _ | ⟨c, rest⟩
    · exact exists_startsWith_stray [b] (by simp) hread
    · by_cases hc : secondOfThree b c
      · rcases rest with _ | ⟨d, rest⟩
        · simp only [hc, if_true] at hread
          exact exists_startsWith_stray [b, c] (by simp) hread
        · by_cases hd : isContinuation d
          · have hsecond := secondOfThree_eq_true hc
            have hthird := (isContinuation_iff d).mp hd
            apply exists_startsWith_encoded rest
              (encodedAs_three hthree.1 hthree.2 hc hd)
            unfold Nat.isValidChar
            omega
          · simp only [hc, hd, if_true, Bool.false_eq_true, if_false] at hread
            exact exists_startsWith_stray [b, c] (by simp) hread
      · simp only [hc, Bool.false_eq_true, if_false] at hread
        exact exists_startsWith_stray [b] (by simp) hread
  · rcases rest with _ | ⟨c, rest⟩
    · exact exists_startsWith_stray [b] (by simp) hread
    · by_cases hc : secondOfFour b c
      · rcases rest with _ | ⟨d, rest⟩
        · simp only [hc, if_true] at hread
          exact exists_startsWith_stray [b, c] (by simp) hread
        · by_cases hd : isContinuation d
          · rcases rest with _ | ⟨e, rest⟩
            · simp only [hc, hd, if_true] at hread
              exact exists_startsWith_stray [b, c, d] (by simp) hread
            · by_cases he : isContinuation e
              · have hsecond := secondOfFour_eq_true hc
                have hthird := (isContinuation_iff d).mp hd
                have hfourth := (isContinuation_iff e).mp he
                apply exists_startsWith_encoded rest
                  (encodedAs_four hfour.1 hfour.2 hc hd he)
                unfold Nat.isValidChar
                omega
              · simp only [hc, hd, he, if_true, Bool.false_eq_true, if_false]
                  at hread
                exact exists_startsWith_stray [b, c, d] (by simp)
                  hread
          · simp only [hc, hd, if_true, Bool.false_eq_true, if_false] at hread
            exact exists_startsWith_stray [b, c] (by simp) hread
      · simp only [hc, Bool.false_eq_true, if_false] at hread
        exact exists_startsWith_stray [b] (by simp) hread
  · exact exists_startsWith_stray [b] (by simp) hread

/-- A byte outside ASCII is not read as a character of ASCII. -/
theorem exists_utf8Lossy_of_le {b : UInt8} (h : 0x80 ≤ b.toNat) (rest : Bytes) :
    ∃ c text, utf8Lossy (b :: rest) = c :: text ∧ 128 ≤ c.toNat := by
  obtain ⟨c, front, back, hsplit, hne, hread, hcase⟩ := exists_startsWith b rest
  refine ⟨c, utf8Lossy back, hread, ?_⟩
  rcases hcase with rfl | hfront
  · decide
  · by_contra hlow
    have henc := encodedAs_utf8EncodeChar c
    rw [← hfront] at henc
    cases henc with
    | one hone =>
        have hb : b = UInt8.ofNat c.toNat := (List.cons.inj hsplit).1
        rw [hb, UInt8.toNat_ofNat'] at h
        omega
    | _ => omega

theorem utf8Lossy_cons_of_lt {b : UInt8} (h : b.toNat < 0x80) (rest : Bytes) :
    utf8Lossy (b :: rest) = b.toChar :: utf8Lossy rest := by
  rw [utf8Lossy.eq_def]
  exact if_pos h

/-- Data that is read without a replacement character is the encoding of what is
read. -/
theorem encodeUtf8_utf8Lossy (bytes : Bytes)
    (h : replacementChar ∉ utf8Lossy bytes) :
    encodeUtf8 (utf8Lossy bytes) = bytes := by
  induction hn : bytes.length using Nat.strong_induction_on generalizing bytes with
  | _ n ih =>
      cases bytes with
      | nil => rfl
      | cons b rest =>
          obtain ⟨c, front, back, hsplit, hne, hread, hcase⟩ :=
            exists_startsWith b rest
          rw [hread, List.mem_cons, not_or] at h
          have hfront : front = String.utf8EncodeChar c :=
            hcase.resolve_left (Ne.symm h.1)
          have hpos := List.length_pos_of_ne_nil hne
          have hlength := congrArg List.length hsplit
          rw [List.length_append] at hlength
          have hback := ih back.length (by omega) back h.2 rfl
          rw [hread, encodeUtf8_cons, hback, ← hfront, ← hsplit]

/-- Data that is read with a replacement character shares what is read with
other data of no greater length. -/
theorem exists_utf8Lossy_eq (bytes : Bytes)
    (h : replacementChar ∈ utf8Lossy bytes) :
    ∃ other, other ≠ bytes ∧ other.length ≤ bytes.length ∧
      utf8Lossy other = utf8Lossy bytes := by
  induction hn : bytes.length using Nat.strong_induction_on generalizing bytes with
  | _ n ih =>
      cases bytes with
      | nil => simp [utf8Lossy] at h
      | cons b rest =>
          obtain ⟨c, front, back, hsplit, hne, hread, hcase⟩ :=
            exists_startsWith b rest
          have hpos := List.length_pos_of_ne_nil hne
          have hlength := congrArg List.length hsplit
          rw [List.length_append] at hlength
          by_cases hc : c = replacementChar
          · -- one ill-formed byte takes the place of what was read
            by_cases hb : b = 0xFF
            · refine ⟨0xFE :: rest, ?_, by simp [← hn], ?_⟩
              · simp [hb]
              · rw [hb, utf8Lossy_cons_of_le (by decide),
                  utf8Lossy_cons_of_le (by decide)]
            · refine ⟨0xFF :: back, ?_, ?_, ?_⟩
              · intro heq
                exact hb (List.cons.inj heq).1.symm
              · rw [List.length_cons]
                omega
              · rw [hread, hc, utf8Lossy_cons_of_le (by decide)]
          · have hfront : front = String.utf8EncodeChar c :=
              hcase.resolve_left hc
            rw [hread, List.mem_cons] at h
            have hback : replacementChar ∈ utf8Lossy back :=
              h.resolve_left (Ne.symm hc)
            obtain ⟨other, hother, hle, hsame⟩ :=
              ih back.length (by omega) back hback rfl
            refine ⟨front ++ other, ?_, ?_, ?_⟩
            · rw [hsplit]
              simpa using hother
            · rw [List.length_append]
              omega
            · rw [hread, hfront, utf8Lossy_utf8EncodeChar_append, hsame]

end Foundation
