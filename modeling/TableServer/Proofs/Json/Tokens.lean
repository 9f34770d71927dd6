import TableServer.Proofs.Json.Lexemes

/-! The tokens of a text in general, and those of a written document. -/

namespace TableServer

namespace JsonToken

theorem first?_length {text after : List Char} {token : JsonToken}
    (found : first? text = some (token, after)) : after.length < text.length := by
  obtain ⟨lexeme, rfl, spelling⟩ := first?_eq_some found
  obtain ⟨c, tail, rfl, _⟩ := first?_of_spelling spelling fun _ _ => JsonNumber.ends_nil
  simp only [List.cons_append, List.length_cons, List.length_append]
  omega

theorem scan_eq_ofText (fuel : Nat) (text : List Char) (enough : text.length ≤ fuel) :
    scan fuel text = ofText text := by
  -- Both sides go on with what the first token leaves, which may be shorter by any length; hence
  -- the strong induction.
  induction fuel using Nat.strongRecOn generalizing text with
  | ind fuel ih =>
    cases text with
    | nil => cases fuel <;> rfl
    | cons c rest =>
      cases fuel with
      | zero => simp at enough
      | succ fuel =>
        simp only [List.length_cons, Nat.add_le_add_iff_right] at enough
        have tail (after : List Char) (shorter : after.length ≤ rest.length) :
            scan fuel after = scan rest.length after := by
          rw [ih fuel (by omega) after (by omega)]
          by_cases least : rest.length < fuel + 1
          · exact (ih rest.length least after shorter).symm
          · omega
        simp only [ofText, List.length_cons, scan]
        split
        · exact tail rest (Nat.le_refl _)
        · cases found : first? (c :: rest) with
          | none => rfl
          | some read =>
            obtain ⟨token, after⟩ := read
            have shorter := first?_length found
            simp only [List.length_cons] at shorter
            simp only [tail after (by omega)]

@[simp] theorem ofText_nil : ofText [] = [] := rfl

theorem ofText_of_first? {c : Char} {rest after : List Char} {token : JsonToken}
    (noSpace : isSpace c = false) (found : first? (c :: rest) = some (token, after)) :
    ofText (c :: rest) = token :: ofText after := by
  have shorter := first?_length found
  simp only [List.length_cons] at shorter
  simp only [ofText, List.length_cons, scan, noSpace, found]
  simp [scan_eq_ofText rest.length after (by omega), ofText]

theorem ofText_of_no_first {c : Char} {rest : List Char} (noSpace : isSpace c = false)
    (stuck : first? (c :: rest) = none) : ofText (c :: rest) = [malformed] := by
  simp [ofText, scan, noSpace, stuck]

theorem hexValue?_hexDigit : ∀ value < 16, hexValue? (Json.hexDigit value) = some value := by
  decide

theorem charSpelling_control {code : Nat} (control : code < 0x20) :
    CharSpelling (Char.ofNat code)
      ['\\', 'u', '0', '0', Json.hexDigit (code / 16), Json.hexDigit (code % 16)] := by
  have quad : hexQuad? '0' '0' (Json.hexDigit (code / 16)) (Json.hexDigit (code % 16)) =
      some code := by
    have zero : hexValue? '0' = some 0 := by decide
    simp only [hexQuad?, zero, hexValue?_hexDigit (code / 16) (by omega),
      hexValue?_hexDigit (code % 16) (by omega), Option.bind_eq_bind, Option.bind_some,
      Option.pure_def, Option.some.injEq]
    omega
  exact .unit quad (by omega)

theorem charSpelling_writeChar (c : Char) : CharSpelling c (Json.writeChar c) := by
  unfold Json.writeChar
  split
  case isTrue same => exact .letter (by rw [same]; rfl)
  split
  case isTrue same => exact .letter (by rw [same]; rfl)
  split
  case isTrue same => exact .letter (by rw [same]; rfl)
  split
  case isTrue same => exact .letter (by rw [same]; rfl)
  split
  case isTrue same => exact .letter (by rw [same]; rfl)
  split
  case isTrue same => exact .letter (by rw [same]; rfl)
  split
  case isTrue same => exact .letter (by rw [same]; rfl)
  rename_i noQuote noBackslash _ _ _ _ _
  split
  · rename_i control
    have spelling := charSpelling_control control
    rwa [Char.ofNat_toNat] at spelling
  · rename_i noControl
    exact .plain noQuote noBackslash noControl

theorem textSpelling_write (text : List Char) :
    TextSpelling text (text.flatMap Json.writeChar) := by
  induction text with
  | nil => exact .nil
  | cons c text ih => exact .cons (charSpelling_writeChar c) ih

/-- The tokens of a text before `rest`, if all of it can be read; else the scan breaks off in it. -/
def Scans (text : List Char) (found : Option (List JsonToken)) (rest : List Char) : Prop :=
  match found with
  | some tokens => ofText (text ++ rest) = tokens ++ ofText rest
  | none => ∃ before, ofText (text ++ rest) = before ++ [malformed]

theorem Scans.append {first second rest : List Char} {found further : Option (List JsonToken)}
    (head : Scans first found (second ++ rest)) (tail : Scans second further rest) :
    Scans (first ++ second) (found.bind fun tokens => further.map (tokens ++ ·)) rest := by
  cases found with
  | none =>
    obtain ⟨before, broken⟩ := head
    exact ⟨before, by rw [List.append_assoc, broken]⟩
  | some tokens =>
    have begun : ofText (first ++ second ++ rest) = tokens ++ ofText (second ++ rest) := by
      rw [List.append_assoc]
      exact head
    cases further with
    | none =>
      obtain ⟨before, broken⟩ := tail
      exact ⟨tokens ++ before, by rw [begun, broken, List.append_assoc]⟩
    | some others =>
      have ended : ofText (second ++ rest) = others ++ ofText rest := tail
      change ofText (first ++ second ++ rest) = tokens ++ others ++ ofText rest
      rw [begun, ended, List.append_assoc]

theorem scans_first? {c : Char} {text rest : List Char} {token : JsonToken}
    (noSpace : isSpace c = false) (found : first? (c :: (text ++ rest)) = some (token, rest)) :
    Scans (c :: text) (some [token]) rest :=
  ofText_of_first? noSpace found

theorem scans_of_spelling {token : JsonToken} {lexeme rest : List Char}
    (spelling : Spelling token lexeme) (ends : EndsBefore token rest) :
    Scans lexeme (some [token]) rest := by
  obtain ⟨c, tail, rfl, noSpace, found⟩ := first?_of_spelling spelling ends
  exact ofText_of_first? noSpace found

theorem scans_writeString (text : String) (rest : List Char) :
    Scans (Json.writeString text) (some [string text]) rest := by
  have spelling := Spelling.string (textSpelling_write text.toList)
  rw [String.ofList_toList] at spelling
  exact scans_of_spelling spelling (by rintro _ ⟨⟩)

theorem first?_write (value : JsonNumber) (rest : List Char) :
    ∃ c tail, value.write = c :: tail ∧ isSpace c = false ∧
      first? (value.write ++ rest) =
        (JsonNumber.readSigned? (value.write ++ rest)).map fun (value, after) =>
          (number value, after) := by
  obtain ⟨negative, text, written, form⟩ := JsonNumber.write_eq_signed value
  have unsigned := JsonNumber.readSigned?_signed negative form rest
  rw [written]
  cases negative with
  | true => exact ⟨'-', text, rfl, by decide, rfl⟩
  | false =>
    obtain ⟨first, others, rfl, digit⟩ := JsonNumber.isLiteral_cons form
    obtain ⟨noSpace, found⟩ := first?_digit digit (others ++ rest)
    exact ⟨first, others, rfl, noSpace, by rw [unsigned]; exact found⟩

theorem scans_writeNumber (value : JsonNumber) {rest : List Char} (ends : JsonNumber.Ends rest) :
    Scans value.write (value.reread?.map fun read => [number read]) rest := by
  obtain ⟨c, tail, written, noSpace, found⟩ := first?_write value rest
  rw [JsonNumber.readSigned?_write value ends, written, List.cons_append] at found
  rw [written]
  cases read : value.reread? with
  | none =>
    rw [read] at found
    exact ⟨[], ofText_of_no_first noSpace found⟩
  | some other =>
    rw [read] at found
    exact ofText_of_first? noSpace found

end JsonToken

namespace Json

open JsonToken (Scans)

mutual

/-- The document with each number replaced by what its text stands for. -/
def reread? : Json → Option Json
  | .number value => value.reread?.map .number
  | .array items => (rereadItems? items).map .array
  | .object members => (rereadMembers? members).map .object
  | other => some other

def rereadItems? : List Json → Option (List Json)
  | [] => some []
  | item :: rest => do
    let item ← item.reread?
    let rest ← rereadItems? rest
    pure (item :: rest)

def rereadMembers? : List (String × Json) → Option (List (String × Json))
  | [] => some []
  | (key, value) :: rest => do
    let value ← value.reread?
    let rest ← rereadMembers? rest
    pure ((key, value) :: rest)

end

mutual

def tokens : Json → List JsonToken
  | .null => [.null]
  | .bool value => [.bool value]
  | .number value => [.number value]
  | .string text => [.string text]
  | .array items => .openArray :: tokensOfItems items
  | .object members => .openObject :: tokensOfMembers members

def tokensOfItems : List Json → List JsonToken
  | [] => [.closeArray]
  | [last] => last.tokens ++ [.closeArray]
  | item :: rest => item.tokens ++ .comma :: tokensOfItems rest

def tokensOfMembers : List (String × Json) → List JsonToken
  | [] => [.closeObject]
  | [(key, value)] => .string key :: .colon :: value.tokens ++ [.closeObject]
  | (key, value) :: rest =>
    .string key :: .colon :: value.tokens ++ .comma :: tokensOfMembers rest

end

theorem ends_closeArray (rest : List Char) : JsonNumber.Ends (']' :: rest) :=
  JsonNumber.ends_cons rest (by decide)

theorem ends_closeObject (rest : List Char) : JsonNumber.Ends ('}' :: rest) :=
  JsonNumber.ends_cons rest (by decide)

theorem ends_comma (rest : List Char) : JsonNumber.Ends (',' :: rest) :=
  JsonNumber.ends_cons rest (by decide)

theorem rereadItems?_ne_nil {items read : List Json} (someItems : items ≠ [])
    (found : rereadItems? items = some read) : read ≠ [] := by
  rintro rfl
  cases items with
  | nil => exact someItems rfl
  | cons item rest =>
    simp [rereadItems?, Option.bind_eq_some_iff] at found

theorem rereadMembers?_ne_nil {members read : List (String × Json)} (someMembers : members ≠ [])
    (found : rereadMembers? members = some read) : read ≠ [] := by
  rintro rfl
  cases members with
  | nil => exact someMembers rfl
  | cons member rest =>
    simp [rereadMembers?, Option.bind_eq_some_iff] at found

theorem tokensOfItems_cons (item : Json) {rest : List Json} (someItems : rest ≠ []) :
    tokensOfItems (item :: rest) = item.tokens ++ .comma :: tokensOfItems rest := by
  cases rest with
  | nil => exact absurd rfl someItems
  | cons => rfl

theorem tokensOfMembers_cons (key : String) (value : Json) {rest : List (String × Json)}
    (someMembers : rest ≠ []) :
    tokensOfMembers ((key, value) :: rest) =
      .string key :: .colon :: value.tokens ++ .comma :: tokensOfMembers rest := by
  cases rest with
  | nil => exact absurd rfl someMembers
  | cons => rfl

theorem scans_member (key : String) {text rest : List Char} {found : Option (List JsonToken)}
    (value : Scans text found rest) :
    Scans (writeString key ++ ':' :: text)
      (found.map fun tokens => .string key :: .colon :: tokens) rest := by
  have colon : Scans [':'] (some [.colon]) (text ++ rest) :=
    JsonToken.scans_first? (by decide) rfl
  have scanned := (JsonToken.scans_writeString key _).append (colon.append value)
  cases found <;> exact scanned

mutual

theorem scans_write : ∀ (document : Json) {rest : List Char}, JsonNumber.Ends rest →
    Scans document.write (document.reread?.map tokens) rest
  | .null, _, _ => JsonToken.scans_first? (by decide) rfl
  | .bool true, _, _ => JsonToken.scans_first? (by decide) rfl
  | .bool false, _, _ => JsonToken.scans_first? (by decide) rfl
  | .number value, _, ends => by
    have scanned := JsonToken.scans_writeNumber value ends
    simp only [write, reread?]
    cases read : value.reread? <;> simpa [read, tokens] using scanned
  | .string text, rest, _ => JsonToken.scans_writeString text rest
  | .array items, rest, _ => by
    have opened : Scans ['['] (some [.openArray]) (writeItems items ++ rest) :=
      JsonToken.scans_first? (by decide) rfl
    have scanned := opened.append (scans_writeItems items rest)
    simp only [write, reread?]
    cases read : rereadItems? items <;> simpa [read, tokens] using scanned
  | .object members, rest, _ => by
    have opened : Scans ['{'] (some [.openObject]) (writeMembers members ++ rest) :=
      JsonToken.scans_first? (by decide) rfl
    have scanned := opened.append (scans_writeMembers members rest)
    simp only [write, reread?]
    cases read : rereadMembers? members <;> simpa [read, tokens] using scanned

theorem scans_writeItems : ∀ (items : List Json) (rest : List Char),
    Scans (writeItems items) ((rereadItems? items).map tokensOfItems) rest
  | [], _ => JsonToken.scans_first? (by decide) rfl
  | [last], rest => by
    have closed : Scans [']'] (some [.closeArray]) rest :=
      JsonToken.scans_first? (by decide) rfl
    have scanned := (scans_write last (ends_closeArray rest)).append closed
    simp only [writeItems, rereadItems?]
    cases read : last.reread? <;> simpa [read, tokensOfItems] using scanned
  | item :: second :: others, rest => by
    have comma : Scans [','] (some [.comma]) (writeItems (second :: others) ++ rest) :=
      JsonToken.scans_first? (by decide) rfl
    have further := comma.append (scans_writeItems (second :: others) rest)
    have scanned := (scans_write item (ends_comma _)).append further
    change Scans (item.write ++ ',' :: writeItems (second :: others)) _ _
    rw [rereadItems?]
    cases read : item.reread? with
    | none => simpa [read] using scanned
    | some readItem =>
      cases readRest : rereadItems? (second :: others) with
      | none => simpa [read, readRest] using scanned
      | some readOthers =>
        have someItems := rereadItems?_ne_nil (by simp) readRest
        simpa [read, readRest, tokensOfItems_cons _ someItems] using scanned

theorem scans_writeMembers : ∀ (members : List (String × Json)) (rest : List Char),
    Scans (writeMembers members) ((rereadMembers? members).map tokensOfMembers) rest
  | [], _ => JsonToken.scans_first? (by decide) rfl
  | [(key, value)], rest => by
    have closed : Scans ['}'] (some [.closeObject]) rest :=
      JsonToken.scans_first? (by decide) rfl
    have scanned :=
      (scans_member key (scans_write value (ends_closeObject rest))).append closed
    simp only [writeMembers, rereadMembers?]
    cases read : value.reread? <;> simpa [read, tokensOfMembers] using scanned
  | (key, value) :: second :: others, rest => by
    have comma : Scans [','] (some [.comma]) (writeMembers (second :: others) ++ rest) :=
      JsonToken.scans_first? (by decide) rfl
    have further := comma.append (scans_writeMembers (second :: others) rest)
    have scanned := (scans_member key (scans_write value (ends_comma _))).append further
    change Scans (writeString key ++ ':' :: value.write ++
      ',' :: writeMembers (second :: others)) _ _
    rw [rereadMembers?]
    cases read : value.reread? with
    | none => simpa [read] using scanned
    | some readValue =>
      cases readRest : rereadMembers? (second :: others) with
      | none => simpa [read, readRest] using scanned
      | some readOthers =>
        have someMembers := rereadMembers?_ne_nil (by simp) readRest
        simpa [read, readRest, tokensOfMembers_cons _ _ someMembers] using scanned

end

end Json

end TableServer
