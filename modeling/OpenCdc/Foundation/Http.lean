import OpenCdc.Foundation.Utf8

/-!
# HTTP messages

A message is a head of lines and a body.  A reader splits the head at its line
ends, up to the empty line, and asks the head how long the body is.
-/

namespace Foundation

theorem encodeUtf8_append (text text' : List Char) :
    encodeUtf8 (text ++ text') = encodeUtf8 text ++ encodeUtf8 text' :=
  List.flatMap_append

/-- A byte of ASCII in an encoding is one of the characters. -/
theorem toChar_mem_of_mem_encodeUtf8 {text : List Char} {b : UInt8}
    (hb : b.toNat < 0x80) (h : b ∈ encodeUtf8 text) : b.toChar ∈ text := by
  obtain ⟨c, hc, hmem⟩ := List.mem_flatMap.mp h
  have henc := encodedAs_utf8EncodeChar c
  have hcontinuation : ∀ n, b ≠ continuation n := fun n hn => by
    have hnat := congrArg UInt8.toNat hn
    rw [toNat_continuation] at hnat
    omega
  have hread := utf8Lossy_utf8EncodeChar_append c []
  generalize String.utf8EncodeChar c = enc at henc hmem hread
  cases henc with
  | one h =>
      rw [← List.mem_singleton.mp hmem, List.cons_append,
        utf8Lossy_cons_of_lt hb] at hread
      rw [(List.cons.inj hread).1]
      exact hc
  | _ =>
      simp only [List.mem_cons, List.not_mem_nil, or_false, hcontinuation]
        at hmem
      have hnat := congrArg UInt8.toNat hmem
      rw [toNat_lead (by omega)] at hnat
      omega

theorem utf8EncodeChar_of_lt {c : Char} (h : c.toNat < 0x80) :
    String.utf8EncodeChar c = [UInt8.ofNat c.toNat] := by
  have hle : c.val.toNat ≤ 127 := Nat.le_of_lt_succ h
  exact if_pos hle

theorem ofNat_toNat_eq_iff {c : Char} {b : UInt8} (hc : c.toNat < 0x80) :
    UInt8.ofNat c.toNat = b ↔ c = b.toChar := by
  have hb : b.toChar.toNat = b.toNat := UInt8.toNat_toUInt32 b
  rw [← UInt8.toNat_inj, UInt8.toNat_ofNat', Nat.mod_eq_of_lt (by omega), ← hb]
  constructor
  · intro h
    exact Char.ext (UInt32.toNat_inj.mp h)
  · exact congrArg Char.toNat

/-- Data begins with a text of ASCII exactly if what is read of it does. -/
theorem isPrefix_utf8Lossy_iff {text : List Char}
    (h : ∀ c ∈ text, c.toNat < 0x80) (bytes : Bytes) :
    text <+: utf8Lossy bytes ↔ encodeUtf8 text <+: bytes := by
  induction text generalizing bytes with
  | nil => exact iff_of_true List.nil_prefix List.nil_prefix
  | cons c text ih =>
      obtain ⟨hc, htext⟩ := List.forall_mem_cons.mp h
      rw [encodeUtf8_cons, utf8EncodeChar_of_lt hc, List.singleton_append]
      cases bytes with
      | nil => simp [utf8Lossy]
      | cons b rest =>
          rw [List.cons_prefix_cons, ← ih htext]
          by_cases hb : b.toNat < 0x80
          · rw [utf8Lossy_cons_of_lt hb, List.cons_prefix_cons,
              ofNat_toNat_eq_iff hc]
          · obtain ⟨c', text', hread, hc'⟩ :=
              exists_utf8Lossy_of_le (Nat.le_of_not_lt hb) rest
            rw [hread, List.cons_prefix_cons]
            apply iff_of_false
            · rintro ⟨rfl, -⟩
              omega
            · rintro ⟨rfl, -⟩
              rw [UInt8.toNat_ofNat'] at hb
              omega

/-- A number in decimal digits. -/
def readDecimal (text : List Char) : Option ℕ :=
  if text ≠ [] ∧ text.all Char.isDigit then some (Nat.ofDigitChars 10 text 0)
  else none

theorem readDecimal_toDigits (n : ℕ) :
    readDecimal (Nat.toDigits 10 n) = some n := by
  have hdigits : (Nat.toDigits 10 n).all Char.isDigit = true :=
    List.all_eq_true.mpr fun c hc =>
      Nat.isDigit_of_mem_toDigits (by decide) (by decide) hc
  rw [readDecimal, if_pos ⟨Nat.toDigits_ne_nil, hdigits⟩,
    Nat.ofDigitChars_ten_toDigits]

theorem toDigits_inj {m n : ℕ} :
    Nat.toDigits 10 m = Nat.toDigits 10 n ↔ m = n := by
  constructor
  · intro h
    have hread := congrArg readDecimal h
    rwa [readDecimal_toDigits, readDecimal_toDigits, Option.some_inj] at hread
  · rintro rfl
    rfl

namespace Http

/-- The end of a line. -/
def crlf : List Char := ['\r', '\n']

/-- A head of lines and a body behind an empty line. -/
def message (lines : List (List Char)) (body : Bytes) : Bytes :=
  encodeUtf8 (lines.flatMap (· ++ crlf)) ++ encodeUtf8 crlf ++ body

/-- The lines up to the empty one and what is behind it. -/
def readHead (line : Bytes) : Bytes → Option (List (List Char) × Bytes)
  | 13 :: 10 :: rest =>
      if line = [] then some ([], rest)
      else
        (readHead [] rest).map fun head => (utf8Lossy line :: head.1, head.2)
  | b :: rest => readHead (line ++ [b]) rest
  | [] => none

def contentLengthName : List Char := "Content-Length: ".toList

/-- The length that one of the headers gives for the body. -/
def contentLength (headers : List (List Char)) : Option ℕ :=
  headers.findSome? fun header =>
    if contentLengthName <+: header then
      readDecimal (header.drop contentLengthName.length)
    else none

structure Reply where
  status : List Char
  headers : List (List Char)
  body : Bytes
deriving DecidableEq, Repr

/-- A reply and what is behind it. -/
def readReply (bytes : Bytes) : Option (Reply × Bytes) :=
  match readHead [] bytes with
  | some (status :: headers, rest) =>
      match contentLength headers with
      | some length =>
          if length ≤ rest.length then
            some (⟨status, headers, rest.take length⟩, rest.drop length)
          else none
      | none => none
  | _ => none

/-- A text that can stand for a line of the head. -/
def IsLine (line : List Char) : Prop := line ≠ [] ∧ '\r' ∉ line

instance (line : List Char) : Decidable (IsLine line) :=
  inferInstanceAs (Decidable (_ ∧ _))

theorem IsLine.append {line text : List Char} (h : IsLine line)
    (htext : '\r' ∉ text) : IsLine (line ++ text) := by
  refine ⟨List.append_ne_nil_of_left_ne_nil h.1 text, ?_⟩
  rw [List.mem_append]
  exact not_or.mpr ⟨h.2, htext⟩

theorem readHead_cons_of_ne {b : UInt8} (h : b ≠ 13) (line rest : Bytes) :
    readHead line (b :: rest) = readHead (line ++ [b]) rest := by
  rw [readHead]
  intro rest' hb
  exact absurd hb h

theorem readHead_append {before line : Bytes} (h : 13 ∉ line) (rest : Bytes) :
    readHead before (line ++ 13 :: 10 :: rest) =
      readHead (before ++ line) (13 :: 10 :: rest) := by
  induction line generalizing before with
  | nil => rw [List.append_nil, List.nil_append]
  | cons b line ih =>
      obtain ⟨hb, hline⟩ := List.ne_and_not_mem_of_not_mem_cons h
      rw [List.cons_append, readHead_cons_of_ne (Ne.symm hb), ih hline,
        List.append_assoc]
      rfl

theorem readHead_line {line : List Char} (h : IsLine line) (rest : Bytes) :
    readHead [] (encodeUtf8 (line ++ crlf) ++ rest) =
      (readHead [] rest).map fun head => (line :: head.1, head.2) := by
  have hbytes : encodeUtf8 line ≠ [] := by
    intro hnil
    apply h.1
    rw [← utf8Lossy_encodeUtf8 line, hnil]
    rfl
  have hcr : (13 : UInt8) ∉ encodeUtf8 line := fun hmem =>
    h.2 (toChar_mem_of_mem_encodeUtf8 (by decide) hmem)
  have hsplit : encodeUtf8 (line ++ crlf) ++ rest =
      encodeUtf8 line ++ 13 :: 10 :: rest := by
    rw [encodeUtf8_append, List.append_assoc]
    rfl
  rw [hsplit, readHead_append hcr, List.nil_append, readHead, if_neg hbytes,
    utf8Lossy_encodeUtf8]

theorem readHead_message {lines : List (List Char)}
    (h : ∀ line ∈ lines, IsLine line) (body : Bytes) :
    readHead [] (message lines body) = some (lines, body) := by
  induction lines with
  | nil => rfl
  | cons line lines ih =>
      obtain ⟨hline, hlines⟩ := List.forall_mem_cons.mp h
      have hmessage : message (line :: lines) body =
          encodeUtf8 (line ++ crlf) ++ message lines body := by
        simp only [message, List.flatMap_cons, encodeUtf8_append,
          List.append_assoc]
      rw [hmessage, readHead_line hline, ih hlines]
      rfl

/-- A reply is read back, whatever its body and whatever follows it, if its
head tells the length of its body. -/
theorem readReply_message {status : List Char} {headers : List (List Char)}
    {body : Bytes} (hlines : ∀ line ∈ status :: headers, IsLine line)
    (hlength : contentLength headers = some body.length) (rest : Bytes) :
    readReply (message (status :: headers) body ++ rest) =
      some (⟨status, headers, body⟩, rest) := by
  have hbehind : message (status :: headers) body ++ rest =
      message (status :: headers) (body ++ rest) := List.append_assoc _ _ _
  rw [readReply, hbehind, readHead_message hlines]
  simp only [hlength, List.length_append]
  rw [if_pos (Nat.le_add_right _ _), List.take_left, List.drop_left]

/-- The header that gives the length of a body. -/
theorem contentLength_cons_length (length : ℕ) (headers : List (List Char)) :
    contentLength ((contentLengthName ++ Nat.toDigits 10 length) :: headers) =
      some length := by
  have hprefix : contentLengthName <+:
      contentLengthName ++ Nat.toDigits 10 length := List.prefix_append _ _
  rw [contentLength, List.findSome?_cons, if_pos hprefix, List.drop_left,
    readDecimal_toDigits]

theorem contentLength_cons_of_not_prefix {header : List Char}
    (h : ¬contentLengthName <+: header) (headers : List (List Char)) :
    contentLength (header :: headers) = contentLength headers := by
  rw [contentLength, List.findSome?_cons, if_neg h]
  rfl

end Http
end Foundation
