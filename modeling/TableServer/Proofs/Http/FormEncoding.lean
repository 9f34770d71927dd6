import TableServer.Client.FormEncoding
import TableServer.Proofs.Text.Utf8

/-! Form encoding keeps a list of pairs. Each byte is written so that it is read back, whatever
follows it, and without the marks that separate pairs and their parts. -/

namespace TableServer

theorem utf8EncodeChar_ofNat {code : Nat} (ascii : code < 0x80) :
    String.utf8EncodeChar (Char.ofNat code) = [UInt8.ofNat code] := by
  revert code
  decide

theorem utf8Bytes_append (text rest : List Char) :
    utf8Bytes (text ++ rest) = utf8Bytes text ++ utf8Bytes rest :=
  List.flatMap_append

namespace Query

def encodedBytes (byte : UInt8) : List UInt8 := utf8Bytes (encodeByte byte)

def hexByte (value : Nat) : UInt8 := UInt8.ofNat (upperHexDigit value).toNat

theorem hexByte_spec (value : Nat) (bound : value < 16) :
    String.utf8EncodeChar (upperHexDigit value) = [hexByte value] ∧
      hexNibble? (hexByte value) = some value ∧
      hexByte value ≠ 0x26 ∧ hexByte value ≠ 0x2B ∧ hexByte value ≠ 0x3D := by
  revert value
  decide

theorem isPlainByte_spec {byte : UInt8} (isPlain : isPlainByte byte = true) :
    byte.toNat < 0x80 ∧ byte ≠ 0x25 ∧ byte ≠ 0x26 ∧ byte ≠ 0x2B ∧ byte ≠ 0x3D := by
  simp only [isPlainByte, Bool.or_eq_true, Bool.and_eq_true, decide_eq_true_eq, beq_iff_eq]
    at isPlain
  refine ⟨by omega, ?_, ?_, ?_, ?_⟩ <;> rintro rfl <;> exact absurd isPlain (by decide)

theorem encodedBytes_of_plain {byte : UInt8} (isPlain : isPlainByte byte = true) :
    encodedBytes byte = [byte] := by
  rw [encodedBytes, encodeByte, if_pos isPlain, utf8Bytes, List.flatMap_singleton,
    utf8EncodeChar_ofNat (isPlainByte_spec isPlain).1, UInt8.ofNat_toNat]

theorem encodedBytes_of_space : encodedBytes 0x20 = [0x2B] := by decide

theorem encodedBytes_of_escaped {byte : UInt8} (notPlain : isPlainByte byte = false)
    (noSpace : byte ≠ 0x20) :
    encodedBytes byte = [0x25, hexByte (byte.toNat / 16), hexByte (byte.toNat % 16)] := by
  have bound := byte.toNat_lt
  have high := (hexByte_spec (byte.toNat / 16) (by omega)).1
  have low := (hexByte_spec (byte.toNat % 16) (by omega)).1
  have percent : String.utf8EncodeChar '%' = [0x25] := by decide
  rw [encodedBytes, encodeByte, notPlain, if_neg Bool.false_ne_true, if_neg noSpace, percentEncoded,
    utf8Bytes]
  simp only [List.flatMap_cons, List.flatMap_nil, percent, high, low]
  rfl

theorem encodedBytes_cases (byte : UInt8) :
    (isPlainByte byte = true ∧ encodedBytes byte = [byte]) ∨
      (byte = 0x20 ∧ encodedBytes byte = [0x2B]) ∨
      ∃ high < 16, ∃ low < 16, high * 16 + low = byte.toNat ∧
        encodedBytes byte = [0x25, hexByte high, hexByte low] := by
  have bound := byte.toNat_lt
  cases isPlain : isPlainByte byte with
  | true => exact Or.inl ⟨rfl, encodedBytes_of_plain isPlain⟩
  | false =>
    refine Or.inr ?_
    by_cases isSpace : byte = 0x20
    · exact Or.inl ⟨isSpace, isSpace ▸ encodedBytes_of_space⟩
    · refine Or.inr ⟨byte.toNat / 16, by omega, byte.toNat % 16, by omega, by omega, ?_⟩
      exact encodedBytes_of_escaped isPlain isSpace

theorem not_mem_encodedBytes {byte written : UInt8} (member : written ∈ encodedBytes byte) :
    written ≠ 0x26 ∧ written ≠ 0x3D := by
  have noMark (value : Nat) (bound : value < 16) :
      hexByte value ≠ 0x26 ∧ hexByte value ≠ 0x3D := by
    obtain ⟨_, _, noAmpersand, _, noEquals⟩ := hexByte_spec value bound
    exact ⟨noAmpersand, noEquals⟩
  rcases encodedBytes_cases byte with ⟨isPlain, bytes⟩ | ⟨_, bytes⟩ |
    ⟨high, isHigh, low, isLow, _, bytes⟩
  · rw [bytes, List.mem_singleton] at member
    obtain ⟨_, _, noAmpersand, _, noEquals⟩ := isPlainByte_spec isPlain
    exact member ▸ ⟨noAmpersand, noEquals⟩
  · rw [bytes, List.mem_singleton] at member
    subst member
    decide
  · simp only [bytes, List.mem_cons, List.not_mem_nil, or_false] at member
    rcases member with rfl | rfl | rfl
    · decide
    · exact noMark high isHigh
    · exact noMark low isLow

theorem percentDecode_cons_of_ne {byte : UInt8} (noPercent : byte ≠ 0x25) (rest : List UInt8) :
    percentDecode (byte :: rest) = byte :: percentDecode rest := by
  have noValue (high low : UInt8) : percentValue? byte high low = none := if_neg noPercent
  match rest with
  | [] => rfl
  | [_] => rfl
  | high :: low :: rest => simp only [percentDecode, noValue]

theorem percentDecode_escape {high low : Nat} (isHigh : high < 16) (isLow : low < 16)
    (rest : List UInt8) :
    percentDecode (0x25 :: hexByte high :: hexByte low :: rest) =
      UInt8.ofNat (high * 16 + low) :: percentDecode rest := by
  obtain ⟨_, highValue, _⟩ := hexByte_spec high isHigh
  obtain ⟨_, lowValue, _⟩ := hexByte_spec low isLow
  have value : percentValue? 0x25 (hexByte high) (hexByte low) =
      some (UInt8.ofNat (high * 16 + low)) := by
    simp only [percentValue?, if_pos, highValue, lowValue, Option.bind_eq_bind, Option.bind_some]
    rfl
  simp only [percentDecode, value]

/-- Spaces are made of plus signs before escapes are read, so an escaped plus sign stays one. -/
theorem percentDecode_encodedBytes (byte : UInt8) (rest : List UInt8) :
    percentDecode (plusToSpace (encodedBytes byte) ++ rest) = byte :: percentDecode rest := by
  rcases encodedBytes_cases byte with ⟨isPlain, bytes⟩ | ⟨isSpace, bytes⟩ |
    ⟨high, isHigh, low, isLow, digits, bytes⟩
  · obtain ⟨_, noPercent, _, noPlus, _⟩ := isPlainByte_spec isPlain
    have stays : plusToSpace [byte] = [byte] := by simp [plusToSpace, noPlus]
    rw [bytes, stays, List.singleton_append, percentDecode_cons_of_ne noPercent]
  · have space : plusToSpace [0x2B] = [0x20] := rfl
    rw [bytes, space, List.singleton_append, percentDecode_cons_of_ne (by decide), isSpace]
  · obtain ⟨_, _, _, highNoPlus, _⟩ := hexByte_spec high isHigh
    obtain ⟨_, _, _, lowNoPlus, _⟩ := hexByte_spec low isLow
    have stays : plusToSpace [0x25, hexByte high, hexByte low] =
        [0x25, hexByte high, hexByte low] := by
      simp [plusToSpace, highNoPlus, lowNoPlus]
    rw [bytes, stays, List.cons_append, List.cons_append, List.singleton_append,
      percentDecode_escape isHigh isLow, digits, UInt8.ofNat_toNat]

theorem percentDecode_flatMap (bytes : List UInt8) :
    percentDecode (plusToSpace (bytes.flatMap encodedBytes)) = bytes := by
  induction bytes with
  | nil => rfl
  | cons byte rest ih =>
    rw [plusToSpace] at ih
    rw [List.flatMap_cons, plusToSpace, List.map_append, ← plusToSpace,
      percentDecode_encodedBytes, ih]

theorem utf8Bytes_encodePart (text : String) :
    utf8Bytes (encodePart text) = (utf8Bytes text.toList).flatMap encodedBytes :=
  List.flatMap_assoc

theorem decodePart_encodePart (text : String) : decodePart (utf8Bytes (encodePart text)) = text := by
  rw [utf8Bytes_encodePart, decodePart, percentDecode_flatMap, decodeLossy_utf8Bytes,
    String.ofList_toList]

theorem not_mem_encodePart {text : String} {byte : UInt8}
    (member : byte ∈ utf8Bytes (encodePart text)) : byte ≠ 0x26 ∧ byte ≠ 0x3D := by
  rw [utf8Bytes_encodePart, List.mem_flatMap] at member
  obtain ⟨_, _, member⟩ := member
  exact not_mem_encodedBytes member

theorem utf8Bytes_encodePair (pair : String × String) :
    utf8Bytes (encodePair pair) =
      utf8Bytes (encodePart pair.1) ++ 0x3D :: utf8Bytes (encodePart pair.2) :=
  utf8Bytes_append _ _

theorem readPair_encodePair (pair : String × String) :
    readPair (utf8Bytes (encodePair pair)) = pair := by
  have key : ∀ byte ∈ utf8Bytes (encodePart pair.1), (byte != 0x3D) = true :=
    fun byte member => by simpa using (not_mem_encodePart member).2
  rw [utf8Bytes_encodePair, readPair, List.takeWhile_append_of_pos key,
    List.dropWhile_append_of_pos key, List.takeWhile_cons_of_neg (by decide),
    List.dropWhile_cons_of_neg (by decide), List.append_nil, List.drop_one, List.tail_cons,
    decodePart_encodePart, decodePart_encodePart]

theorem splitAt_ne_nil (isSeparator : UInt8 → Bool) (bytes : List UInt8) :
    splitAt isSeparator bytes ≠ [] := by
  fun_cases splitAt isSeparator bytes <;> simp

theorem splitAt_append_cons {isSeparator : UInt8 → Bool} {separator : UInt8}
    (separates : isSeparator separator = true) (before after : List UInt8) :
    splitAt isSeparator (before ++ separator :: after) =
      splitAt isSeparator before ++ splitAt isSeparator after := by
  induction before with
  | nil => simp [splitAt, separates]
  | cons byte rest ih =>
    obtain ⟨piece, pieces, split⟩ := List.exists_cons_of_ne_nil (splitAt_ne_nil isSeparator rest)
    rw [List.cons_append, splitAt, splitAt, ih, split]
    split <;> rfl

theorem splitAt_of_none {isSeparator : UInt8 → Bool} {bytes : List UInt8}
    (whole : ∀ byte ∈ bytes, isSeparator byte = false) : splitAt isSeparator bytes = [bytes] := by
  induction bytes with
  | nil => rfl
  | cons byte rest ih =>
    obtain ⟨here, later⟩ := List.forall_mem_cons.mp whole
    simp [splitAt, here, ih later]

theorem ofText_append (before after : String) :
    ofText (before ++ "&" ++ after) = ofText before ++ ofText after := by
  have joined : utf8Bytes (before ++ "&" ++ after).toList =
      utf8Bytes before.toList ++ 0x26 :: utf8Bytes after.toList := by
    rw [String.toList_append, String.toList_append, List.append_assoc, utf8Bytes_append,
      utf8Bytes_append]
    rfl
  rw [ofText, joined, splitAt_append_cons (by decide), List.filter_append, List.map_append]
  rfl

theorem ofText_pair (pair : String × String) :
    ofText (String.ofList (encodePair pair)) = [pair] := by
  have whole : ∀ byte ∈ utf8Bytes (encodePair pair), isAmpersand byte = false := by
    intro byte member
    rw [utf8Bytes_encodePair, List.mem_append, List.mem_cons] at member
    rw [isAmpersand, beq_eq_false_iff_ne]
    rcases member with member | rfl | member
    · exact (not_mem_encodePart member).1
    · decide
    · exact (not_mem_encodePart member).1
  have filled : (utf8Bytes (encodePair pair)).isEmpty = false := by
    simp [utf8Bytes_encodePair]
  rw [ofText, String.toList_ofList, splitAt_of_none whole]
  simp [filled, readPair_encodePair]

/-- A list of pairs is what its encoding is read as, whatever the keys and the values are. -/
theorem ofText_encode (pairs : List (String × String)) : ofText (encode pairs) = pairs := by
  rw [encode]
  fun_induction encodePairs pairs with
  | case1 => rfl
  | case2 pair => exact ofText_pair pair
  | case3 pair rest _ ih =>
    have joined : String.ofList (encodePair pair ++ '&' :: encodePairs rest) =
        String.ofList (encodePair pair) ++ "&" ++ String.ofList (encodePairs rest) := by
      simp [← String.toList_inj]
    rw [joined, ofText_append, ofText_pair, ih, List.singleton_append]

end Query

end TableServer
