import TableServer.Json.Token
import TableServer.Proofs.Json.Literals

/-! How tokens are spelled. What reads a token from the beginning of a text finds exactly the
spellings of tokens, each to its end; only a number must not run on in the text after it. -/

namespace TableServer

namespace JsonToken

/-- A character in a string: as itself, by a letter, by its unit or by its two units. -/
inductive CharSpelling : Char → List Char → Prop where
  | plain {c : Char} (noQuote : c ≠ '"') (noBackslash : c ≠ '\\') (noControl : ¬c.toNat < 0x20) :
      CharSpelling c [c]
  | letter {mark c : Char} (escape : escapeValue? mark = some c) : CharSpelling c ['\\', mark]
  | unit {a b c d : Char} {code : Nat} (quad : hexQuad? a b c d = some code)
      (alone : ¬(0xD800 ≤ code ∧ code ≤ 0xDFFF)) :
      CharSpelling (Char.ofNat code) ['\\', 'u', a, b, c, d]
  | pair {a b c d e f g h : Char} {high low : Nat} (first : hexQuad? a b c d = some high)
      (isHigh : 0xD800 ≤ high ∧ high ≤ 0xDBFF) (second : hexQuad? e f g h = some low)
      (isLow : 0xDC00 ≤ low ∧ low ≤ 0xDFFF) :
      CharSpelling (Char.ofNat (0x10000 + (high - 0xD800) * 0x400 + (low - 0xDC00)))
        ['\\', 'u', a, b, c, d, '\\', 'u', e, f, g, h]

inductive TextSpelling : List Char → List Char → Prop where
  | nil : TextSpelling [] []
  | cons {c : Char} {text spelling rest : List Char} (first : CharSpelling c spelling)
      (further : TextSpelling text rest) : TextSpelling (c :: text) (spelling ++ rest)

inductive Spelling : JsonToken → List Char → Prop where
  | openArray : Spelling .openArray ['[']
  | closeArray : Spelling .closeArray [']']
  | openObject : Spelling .openObject ['{']
  | closeObject : Spelling .closeObject ['}']
  | comma : Spelling .comma [',']
  | colon : Spelling .colon [':']
  | null : Spelling .null ['n', 'u', 'l', 'l']
  | isTrue : Spelling (.bool true) ['t', 'r', 'u', 'e']
  | isFalse : Spelling (.bool false) ['f', 'a', 'l', 's', 'e']
  | number {negative : Bool} {value : JsonNumber} {literal : List Char}
      (form : JsonNumber.Spelling negative value literal) :
      Spelling (.number value) (JsonNumber.signed negative literal)
  | string {body spelling : List Char} (form : TextSpelling body spelling) :
      Spelling (.string (String.ofList body)) ('"' :: (spelling ++ ['"']))

theorem CharSpelling.body {c : Char} {spelling : List Char} (form : CharSpelling c spelling)
    (rest : List Char) :
    stringBody (spelling ++ rest) =
      (stringBody rest).map fun (text, after) => (c :: text, after) := by
  cases form with
  | plain noQuote noBackslash noControl =>
    have plain : ¬(c.toNat < 0x20 ∨ c = '\\') := by
      rintro (control | backslash)
      · exact noControl control
      · exact noBackslash backslash
    rw [List.singleton_append, stringBody.eq_def]
    split
    case h_5 =>
      rename_i same
      cases same
      rw [if_neg plain]
    all_goals simp_all
  | @letter mark c escape =>
    have noUnit : mark ≠ 'u' := by
      rintro rfl
      cases escape
    rw [List.cons_append, List.singleton_append, stringBody.eq_def]
    split
    case h_5 =>
      rename_i noEscape same
      cases same
      exact absurd rfl (noEscape mark rest rfl)
    all_goals simp_all
  | @unit a b c d code quad alone =>
    have noLow : ¬(0xDC00 ≤ code ∧ code ≤ 0xDFFF) := by omega
    have noHigh : ¬(0xD800 ≤ code ∧ code ≤ 0xDBFF) := by omega
    simp only [List.cons_append, List.nil_append, stringBody, quad, noLow, noHigh, if_false]
  | @pair a b c d e f g h high low first isHigh second isLow =>
    have noLow : ¬(0xDC00 ≤ high ∧ high ≤ 0xDFFF) := by omega
    simp only [List.cons_append, List.nil_append, stringBody, first, second, noLow, isHigh, isLow,
      if_false, and_self, if_true]

theorem TextSpelling.body {text spelling : List Char} (form : TextSpelling text spelling)
    (rest : List Char) : stringBody (spelling ++ '"' :: rest) = some (text, rest) := by
  induction form with
  | nil => rfl
  | cons first further ih =>
    rw [List.append_assoc, first.body, ih]
    rfl

theorem after_of_map {α β : Type} {found : Option (α × List Char)} {value : β}
    {after : List Char} (make : α → β)
    (mapped : (found.map fun (item, after) => (make item, after)) = some (value, after)) :
    ∃ item, found = some (item, after) ∧ make item = value := by
  rw [Option.map_eq_some_iff] at mapped
  obtain ⟨⟨item, remaining⟩, present, same⟩ := mapped
  cases same
  exact ⟨item, present, rfl⟩

theorem exists_spelling_cons {c : Char} {spelling text body after : List Char}
    (first : CharSpelling c spelling)
    (further : ∃ rest, text = rest ++ '"' :: after ∧ TextSpelling body rest) :
    ∃ longer, spelling ++ text = longer ++ '"' :: after ∧ TextSpelling (c :: body) longer := by
  obtain ⟨rest, rfl, form⟩ := further
  exact ⟨spelling ++ rest, (List.append_assoc _ _ _).symm, .cons first form⟩

theorem stringBody_eq_some {text body after : List Char}
    (found : stringBody text = some (body, after)) :
    ∃ spelling, text = spelling ++ '"' :: after ∧ TextSpelling body spelling := by
  fun_induction stringBody text generalizing body after with
  | case1 | case3 | case4 | case5 | case7 | case8 | case10 | case12 => cases found
  | case2 =>
    cases found
    exact ⟨[], rfl, .nil⟩
  | case6 a b c d high quad noLow isHigh e f g h rest low quadLow isLow ih =>
    obtain ⟨inner, read, rfl⟩ :=
      after_of_map (Char.ofNat (0x10000 + (high - 0xD800) * 0x400 + (low - 0xDC00)) :: ·) found
    exact exists_spelling_cons (.pair quad isHigh quadLow isLow) (ih read)
  | case9 a b c d rest code quad noLow noHigh ih =>
    obtain ⟨inner, read, rfl⟩ := after_of_map (Char.ofNat code :: ·) found
    exact exists_spelling_cons (.unit quad (by omega)) (ih read)
  | case11 mark rest noUnit c escape ih =>
    obtain ⟨inner, read, rfl⟩ := after_of_map (c :: ·) found
    exact exists_spelling_cons (.letter escape) (ih read)
  | case13 c rest noQuote noUnit noEscape plain ih =>
    obtain ⟨inner, read, rfl⟩ := after_of_map (c :: ·) found
    rw [not_or] at plain
    exact exists_spelling_cons (.plain noQuote plain.2 plain.1) (ih read)

theorem first?_eq_some {text after : List Char} {token : JsonToken}
    (found : first? text = some (token, after)) :
    ∃ lexeme, text = lexeme ++ after ∧ Spelling token lexeme := by
  have unsigned {negative : Bool} {text : List Char}
      (found : ((JsonNumber.read? negative text).map fun read => (number read.1, read.2)) =
        some (token, after)) :
      ∃ lexeme, JsonNumber.signed negative text = lexeme ++ after ∧ Spelling token lexeme := by
    obtain ⟨value, read, rfl⟩ := after_of_map number found
    obtain ⟨literal, rfl, form⟩ := JsonNumber.read?_eq_some read
    refine ⟨JsonNumber.signed negative literal, ?_, .number form⟩
    cases negative <;> rfl
  unfold first? at found
  split at found
  case h_10 =>
    obtain ⟨body, read, rfl⟩ := after_of_map (fun body => string (String.ofList body)) found
    obtain ⟨spelling, rfl, form⟩ := stringBody_eq_some read
    exact ⟨'"' :: (spelling ++ ['"']), by simp, .string form⟩
  case h_11 => exact unsigned found
  case h_12 => exact unsigned found
  case h_1 => cases found; exact ⟨_, rfl, .openArray⟩
  case h_2 => cases found; exact ⟨_, rfl, .closeArray⟩
  case h_3 => cases found; exact ⟨_, rfl, .openObject⟩
  case h_4 => cases found; exact ⟨_, rfl, .closeObject⟩
  case h_5 => cases found; exact ⟨_, rfl, .comma⟩
  case h_6 => cases found; exact ⟨_, rfl, .colon⟩
  case h_7 => cases found; exact ⟨_, rfl, .null⟩
  case h_8 => cases found; exact ⟨_, rfl, .isTrue⟩
  case h_9 => cases found; exact ⟨_, rfl, .isFalse⟩

/-- A number may end only where nothing goes on a literal. -/
def EndsBefore (token : JsonToken) (rest : List Char) : Prop :=
  ∀ value, token = number value → JsonNumber.Ends rest

theorem first?_digit {c : Char} (digit : isDigit c = true) (rest : List Char) :
    isSpace c = false ∧
      first? (c :: rest) =
        (JsonNumber.read? false (c :: rest)).map fun (value, after) => (number value, after) := by
  have other (mark : Char) (noDigit : isDigit mark = false) : c ≠ mark := by
    rintro rfl
    rw [noDigit] at digit
    cases digit
  constructor
  · simp [isSpace, other ' ' (by decide), other '\t' (by decide), other '\n' (by decide),
      other '\r' (by decide)]
  · simp [first?, other '[' (by decide), other ']' (by decide), other '{' (by decide),
      other '}' (by decide), other ',' (by decide), other ':' (by decide), other 'n' (by decide),
      other 't' (by decide), other 'f' (by decide), other '"' (by decide), other '-' (by decide)]

theorem first?_of_spelling {token : JsonToken} {lexeme rest : List Char}
    (spelling : Spelling token lexeme) (ends : EndsBefore token rest) :
    ∃ c tail, lexeme = c :: tail ∧ isSpace c = false ∧
      first? (lexeme ++ rest) = some (token, rest) := by
  cases spelling with
  | @number negative value literal form =>
    have read := JsonNumber.read?_append negative literal (ends value rfl)
    rw [form.read] at read
    cases negative with
    | true =>
      have found := congrArg (Option.map fun (value, after) => (number value, after)) read
      exact ⟨'-', literal, rfl, rfl, found⟩
    | false =>
      obtain ⟨isWhole, _, _, _⟩ := form
      obtain ⟨first, others, rfl⟩ := List.exists_cons_of_ne_nil isWhole.1.1
      obtain ⟨noSpace, found⟩ := first?_digit (isWhole.1.2 first List.mem_cons_self) _
      refine ⟨first, _, rfl, noSpace, found.trans ?_⟩
      exact congrArg (Option.map fun (value, after) => (number value, after)) read
  | string form =>
    refine ⟨'"', _, rfl, rfl, ?_⟩
    simp [first?, form.body]
  | openArray | closeArray | openObject | closeObject | comma | colon | null | isTrue | isFalse =>
    exact ⟨_, _, rfl, rfl, rfl⟩

end JsonToken

end TableServer
