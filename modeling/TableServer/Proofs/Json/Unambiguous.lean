import TableServer.Proofs.Json.Objects
import TableServer.Proofs.Json.Recognition
import TableServer.Proofs.Json.Written

/-! A text is of one document at most. A number ends where none of its characters go on, so what
follows a value tells where the value ends; and two values whose texts begin alike begin with the same
token. -/

namespace TableServer

namespace JsonNumber

section Parts

variable {plain otherPlain : Bool} {magnitude otherMagnitude : ℚ} {text : List Char}

theorem MagnitudeSpelling.unique (spelling : MagnitudeSpelling plain magnitude text)
    (other : MagnitudeSpelling otherPlain otherMagnitude text) :
    plain = otherPlain ∧ magnitude = otherMagnitude := by
  generalize same : text = otherText at other
  cases spelling with
  | parts isWhole isFraction isExponent form =>
    cases other with
    | parts otherWhole otherFraction otherExponent otherForm =>
      have wholes := span_digits _ isWhole.1.2 (isFraction.stops isExponent)
      rw [same, span_digits _ otherWhole.1.2 (otherFraction.stops otherExponent)] at wholes
      obtain ⟨rfl, sameRest⟩ := Prod.mk.inj wholes
      have fractions := isFraction.read isExponent.stops
      rw [← sameRest, otherFraction.read otherExponent.stops] at fractions
      obtain ⟨rfl, rfl⟩ := Prod.mk.inj (Option.some.inj fractions)
      have exponents := otherExponent.read
      rw [isExponent.read] at exponents
      obtain ⟨rfl, _⟩ := Prod.mk.inj (Option.some.inj exponents)
      exact ⟨form.trans otherForm.symm, rfl⟩

theorem MagnitudeSpelling.begins (spelling : MagnitudeSpelling plain magnitude text) :
    ∃ first rest, text = first :: rest ∧ isDigit first = true := by
  cases spelling with
  | parts isWhole =>
    obtain ⟨first, rest, rfl⟩ := List.exists_cons_of_ne_nil isWhole.1.1
    exact ⟨first, _, rfl, isWhole.1.2 first List.mem_cons_self⟩

theorem MagnitudeSpelling.continues (spelling : MagnitudeSpelling plain magnitude text) :
    ∀ c ∈ text, continues c = true := by
  have digit (c : Char) (isDigit : isDigit c = true) : JsonNumber.continues c = true := by
    simp [JsonNumber.continues, isDigit]
  cases spelling with
  | parts isWhole isFraction isExponent =>
    simp only [List.forall_mem_append]
    refine ⟨fun c member => digit c (isWhole.1.2 c member), ?_, ?_⟩
    · cases isFraction with
      | absent => simp
      | present form =>
        exact List.forall_mem_cons.mpr ⟨by decide, fun c member => digit c (form.2 c member)⟩
    · cases isExponent with
      | absent => simp
      | present isMark signed form =>
        refine List.forall_mem_cons.mpr ⟨?_, List.forall_mem_append.mpr
          ⟨?_, fun c member => digit c (form.2 c member)⟩⟩
        · rcases isMark with rfl | rfl <;> decide
        · cases signed <;> simp [JsonNumber.continues]

theorem signed_inj {negative otherNegative : Bool} {otherText : List Char}
    (spelling : MagnitudeSpelling plain magnitude text)
    (other : MagnitudeSpelling otherPlain otherMagnitude otherText)
    (same : signed negative text = signed otherNegative otherText) :
    negative = otherNegative ∧ text = otherText := by
  obtain ⟨first, rest, rfl, digit⟩ := spelling.begins
  obtain ⟨otherFirst, otherRest, rfl, otherDigit⟩ := other.begins
  have noMinus {c : Char} (digit : isDigit c = true) : c ≠ '-' := by
    rintro rfl
    exact absurd digit (by decide)
  cases negative with
  | true =>
    cases otherNegative with
    | true => exact ⟨rfl, (List.cons.inj same).2⟩
    | false => exact absurd (List.cons.inj same).1.symm (noMinus otherDigit)
  | false =>
    cases otherNegative with
    | true => exact absurd (List.cons.inj same).1 (noMinus digit)
    | false => exact ⟨rfl, same⟩

end Parts

theorem Literal.unique {first second : JsonNumber} {text : List Char}
    (literal : Literal first text) (other : Literal second text) : first = second := by
  generalize same : text = otherText at other
  cases literal with
  | @integer whole _ exact =>
    cases other with
    | @integer otherWhole _ otherExact =>
      obtain ⟨sameSign, rfl⟩ := signed_inj exact otherExact same
      have sameMagnitude := (exact.unique otherExact).2
      have sameNat : whole.value.natAbs = otherWhole.value.natAbs := by exact_mod_cast sameMagnitude
      have sameSign : whole.value < 0 ↔ otherWhole.value < 0 := by simpa using sameSign
      have sameValue : whole.value = otherWhole.value := by omega
      obtain ⟨value, lower, upper⟩ := whole
      cases sameValue
      rfl
    | double spelling =>
      obtain ⟨_, rfl⟩ := signed_inj exact spelling same
      exact nomatch (exact.unique spelling).1
  | @double value magnitude _ spelling nearest =>
    cases other with
    | integer exact =>
      obtain ⟨_, rfl⟩ := signed_inj spelling exact same
      exact nomatch (spelling.unique exact).1
    | double otherSpelling otherNearest =>
      obtain ⟨sameSign, rfl⟩ := signed_inj spelling otherSpelling same
      obtain ⟨_, rfl⟩ := spelling.unique otherSpelling
      rw [← sameSign] at otherNearest
      exact congrArg JsonNumber.double (nearest.unique otherNearest sameSign)

theorem Literal.exists_spelling {number : JsonNumber} {text : List Char} (literal : Literal number text) :
    ∃ negative plain magnitude body, text = signed negative body ∧
      MagnitudeSpelling plain magnitude body := by
  cases literal with
  | integer exact => exact ⟨_, _, _, _, rfl, exact⟩
  | double spelling => exact ⟨_, _, _, _, rfl, spelling⟩

theorem Literal.begins {number : JsonNumber} {text : List Char} (literal : Literal number text) :
    ∃ first rest, text = first :: rest ∧ continues first = true := by
  obtain ⟨negative, _, _, body, rfl, spelling⟩ := literal.exists_spelling
  cases negative with
  | true => exact ⟨'-', body, rfl, by decide⟩
  | false =>
    obtain ⟨first, rest, rfl, digit⟩ := spelling.begins
    exact ⟨first, rest, rfl, by simp [continues, digit]⟩

theorem Literal.not_ends {number : JsonNumber} {text : List Char} (literal : Literal number text)
    (rest : List Char) : ¬Ends (text ++ rest) := by
  intro ends
  obtain ⟨first, further, rfl, goesOn⟩ := literal.begins
  rw [ends first rfl] at goesOn
  cases goesOn

theorem Literal.takeWhile {number : JsonNumber} {text rest : List Char}
    (literal : Literal number text) (ends : Ends rest) :
    (text ++ rest).takeWhile continues = text := by
  have goesOn : ∀ c ∈ text, continues c = true := by
    obtain ⟨negative, _, _, body, rfl, spelling⟩ := literal.exists_spelling
    cases negative with
    | false => exact spelling.continues
    | true => exact List.forall_mem_cons.mpr ⟨by decide, spelling.continues⟩
  rw [List.takeWhile_append_of_pos goesOn]
  cases rest with
  | nil => simp
  | cons c rest => simp [ends c rfl]

end JsonNumber

namespace JsonToken

open JsonNumber (Ends Literal)

theorem isNumber_false {token : JsonToken} (noNumber : ∀ value, token ≠ .number value) :
    token.isNumber = false := by
  cases token with
  | number value => exact absurd rfl (noNumber value)
  | _ => rfl

theorem endsBefore_of_noNumber {token : JsonToken} (noNumber : token.isNumber = false)
    (rest : List Char) : EndsBefore token rest := by
  rintro value rfl
  cases noNumber

theorem cut_number {number : JsonNumber} {other : JsonToken}
    {lexeme otherLexeme rest otherRest : List Char} (literal : Literal number lexeme)
    (spelled : Lexeme other otherLexeme) (ends : Ends rest) (otherEnds : EndsBefore other otherRest)
    (same : lexeme ++ rest = otherLexeme ++ otherRest) :
    JsonToken.number number = other ∧ rest = otherRest := by
  cases spelled with
  | @number value _ otherLiteral =>
    have cut := literal.takeWhile ends
    rw [same, otherLiteral.takeWhile (otherEnds value rfl)] at cut
    rw [cut] at same otherLiteral
    exact ⟨congrArg JsonToken.number (literal.unique otherLiteral), List.append_cancel_left same⟩
  | other noNumber spelling =>
    have stops := spelling.stops (isNumber_false noNumber) otherRest
    exact absurd (same ▸ stops) (literal.not_ends rest)

theorem Lexeme.cut {token other : JsonToken} {lexeme otherLexeme rest otherRest : List Char}
    (first : Lexeme token lexeme) (second : Lexeme other otherLexeme) (ends : EndsBefore token rest)
    (otherEnds : EndsBefore other otherRest) (same : lexeme ++ rest = otherLexeme ++ otherRest) :
    token = other ∧ rest = otherRest := by
  cases first with
  | @number value _ literal => exact cut_number literal second (ends value rfl) otherEnds same
  | other noNumber spelling =>
    cases second with
    | @number value _ literal =>
      have turned := cut_number literal (.other noNumber spelling) (otherEnds value rfl) ends same.symm
      exact ⟨turned.1.symm, turned.2.symm⟩
    | other noNumberToo otherSpelling =>
      obtain ⟨_, _, _, _, found⟩ := first?_of_spelling spelling ends
      obtain ⟨_, _, _, _, otherFound⟩ := first?_of_spelling otherSpelling otherEnds
      rw [same, otherFound] at found
      obtain ⟨rfl, rfl⟩ := Prod.mk.inj (Option.some.inj found)
      exact ⟨rfl, rfl⟩

theorem Written.split {tokens others : List JsonToken} {text : List Char}
    (written : Written (tokens ++ others) text) :
    ∃ before after, text = before ++ after ∧ Written tokens before ∧ Written others after := by
  induction tokens generalizing text with
  | nil => exact ⟨[], text, rfl, .nil, written⟩
  | cons token tokens ih =>
    cases written with
    | cons first further =>
      obtain ⟨before, after, rfl, writtenBefore, writtenAfter⟩ := ih further
      exact ⟨_, after, (List.append_assoc _ _ _).symm, .cons first writtenBefore, writtenAfter⟩

theorem Written.cut {token other : JsonToken} {tokens others : List JsonToken}
    {text otherText rest otherRest : List Char} (written : Written (token :: tokens) text)
    (otherWritten : Written (other :: others) otherText)
    (ends : ∀ further, Written tokens further → EndsBefore token (further ++ rest))
    (otherEnds : ∀ further, Written others further → EndsBefore other (further ++ otherRest))
    (same : text ++ rest = otherText ++ otherRest) :
    token = other ∧ ∃ further otherFurther, Written tokens further ∧ Written others otherFurther ∧
      further ++ rest = otherFurther ++ otherRest := by
  cases written with
  | @cons _ lexeme further _ first writtenFurther =>
    cases otherWritten with
    | @cons _ otherLexeme otherFurther _ second otherWrittenFurther =>
      rw [List.append_assoc, List.append_assoc] at same
      obtain ⟨sameToken, sameRest⟩ :=
        first.cut second (ends _ writtenFurther) (otherEnds _ otherWrittenFurther) same
      exact ⟨sameToken, further, otherFurther, writtenFurther, otherWrittenFurther, sameRest⟩

theorem Written.cut_mark {token other : JsonToken} {tokens others : List JsonToken}
    {text otherText rest otherRest : List Char} (written : Written (token :: tokens) text)
    (otherWritten : Written (other :: others) otherText) (isMark : token.isNumber = false)
    (otherIsMark : other.isNumber = false) (same : text ++ rest = otherText ++ otherRest) :
    token = other ∧ ∃ further otherFurther, Written tokens further ∧ Written others otherFurther ∧
      further ++ rest = otherFurther ++ otherRest :=
  written.cut otherWritten (fun _ _ => endsBefore_of_noNumber isMark _)
    (fun _ _ => endsBefore_of_noNumber otherIsMark _) same

theorem Written.stops {token : JsonToken} {tokens : List JsonToken} {text : List Char}
    (written : Written (token :: tokens) text) (isMark : token.isNumber = false) (rest : List Char) :
    Ends (text ++ rest) := by
  cases written with
  | cons first further =>
    cases first with
    | number => cases isMark
    | other _ spelling =>
      rw [List.append_assoc]
      exact spelling.stops isMark _

/-- The text of the item ends where something follows that goes on no number, and it is of no other
item. -/
def Apart {α : Type} (tokensOf : α → List JsonToken) (item : α) : Prop :=
  ∀ other text otherText rest otherRest, Written (tokensOf item) text →
    Written (tokensOf other) otherText → Ends rest → Ends otherRest →
    text ++ rest = otherText ++ otherRest → item = other ∧ rest = otherRest

section Joined

variable {α : Type} (tokensOf : α → List JsonToken) (close : JsonToken)

def joined : List α → List JsonToken
  | [] => [close]
  | [last] => tokensOf last ++ [close]
  | item :: rest => tokensOf item ++ .comma :: joined rest

/-- What follows an item. -/
def behind : List α → List JsonToken
  | [] => [close]
  | rest => .comma :: joined tokensOf close rest

theorem joined_cons (item : α) (rest : List α) :
    joined tokensOf close (item :: rest) = tokensOf item ++ behind tokensOf close rest := by
  cases rest <;> rfl

variable {tokensOf close}

theorem behind_stops (isMark : close.isNumber = false) {items : List α} {text : List Char}
    (written : Written (behind tokensOf close items) text) (rest : List Char) :
    Ends (text ++ rest) := by
  cases items with
  | nil => exact written.stops isMark rest
  | cons => exact written.stops rfl rest

theorem behind_apart (isMark : close.isNumber = false) (noComma : close ≠ .comma)
    {items : List α} (apart : Apart (joined tokensOf close) items) :
    Apart (behind tokensOf close) items := by
  intro others text otherText rest otherRest written otherWritten ends otherEnds same
  cases items with
  | nil =>
    cases others with
    | nil =>
      obtain ⟨_, _, _, ⟨⟩, ⟨⟩, same⟩ := written.cut_mark otherWritten isMark isMark same
      exact ⟨rfl, same⟩
    | cons => exact absurd (written.cut_mark otherWritten isMark rfl same).1 noComma
  | cons =>
    cases others with
    | nil => exact absurd (written.cut_mark otherWritten rfl isMark same).1.symm noComma
    | cons =>
      obtain ⟨_, _, _, further, otherFurther, same⟩ := written.cut_mark otherWritten rfl rfl same
      exact apart _ _ _ _ _ further otherFurther ends otherEnds same

theorem joined_apart (isMark : close.isNumber = false) (noComma : close ≠ .comma)
    (opens : ∀ {item tokens text closed rest otherRest}, Written (tokensOf item ++ tokens) text →
      Written [close] closed → text ++ rest ≠ closed ++ otherRest) {items : List α}
    (each : ∀ item ∈ items, Apart tokensOf item) : Apart (joined tokensOf close) items := by
  induction items with
  | nil =>
    intro others text otherText rest otherRest written otherWritten _ _ same
    cases others with
    | nil =>
      obtain ⟨_, _, _, ⟨⟩, ⟨⟩, same⟩ := written.cut_mark otherWritten isMark isMark same
      exact ⟨rfl, same⟩
    | cons =>
      rw [joined_cons] at otherWritten
      exact absurd same.symm (opens otherWritten written)
  | cons item items ih =>
    rw [List.forall_mem_cons] at each
    intro others text otherText rest otherRest written otherWritten ends otherEnds same
    rw [joined_cons] at written
    cases others with
    | nil => exact absurd same (opens written otherWritten)
    | cons other others =>
      rw [joined_cons] at otherWritten
      obtain ⟨_, _, rfl, first, further⟩ := written.split
      obtain ⟨_, _, rfl, otherFirst, otherFurther⟩ := otherWritten.split
      rw [List.append_assoc, List.append_assoc] at same
      obtain ⟨rfl, same⟩ := each.1 other _ _ _ _ first otherFirst (behind_stops isMark further _)
        (behind_stops isMark otherFurther _) same
      obtain ⟨rfl, same⟩ := behind_apart isMark noComma (ih each.2) others _ _ _ _ further
        otherFurther ends otherEnds same
      exact ⟨rfl, same⟩

end Joined

end JsonToken

namespace Json

open JsonNumber (Ends)
open JsonToken (Apart EndsBefore Written endsBefore_of_noNumber joined joined_apart)

theorem tokensOfItems_eq_joined (items : List Json) :
    tokensOfItems items = joined tokens .closeArray items := by
  induction items with
  | nil => rfl
  | cons item rest ih =>
    cases rest with
    | nil => rfl
    | cons => exact congrArg (fun further => item.tokens ++ .comma :: further) ih

theorem tokensOfMembers_eq_joined (members : List (String × Json)) :
    tokensOfMembers members = joined memberTokens .closeObject members := by
  induction members with
  | nil => rfl
  | cons member rest ih =>
    cases rest with
    | nil => rfl
    | cons => exact congrArg (fun further => memberTokens member ++ .comma :: further) ih

theorem item_opens {item : Json} {tokens : List JsonToken} {text closed rest otherRest : List Char}
    (written : Written (item.tokens ++ tokens) text) (isClosed : Written [.closeArray] closed) :
    text ++ rest ≠ closed ++ otherRest := by
  intro same
  cases item with
  | number value =>
    cases written with
    | cons first further =>
      cases first with
      | other noNumber => exact noNumber value rfl
      | number literal =>
        have stops := isClosed.stops rfl otherRest
        rw [← same, List.append_assoc] at stops
        exact absurd stops (literal.not_ends _)
  | null | bool | string | array | object =>
    exact nomatch (written.cut_mark isClosed rfl rfl same).1

theorem member_opens {member : String × Json} {tokens : List JsonToken}
    {text closed rest otherRest : List Char} (written : Written (memberTokens member ++ tokens) text)
    (isClosed : Written [.closeObject] closed) : text ++ rest ≠ closed ++ otherRest :=
  fun same => nomatch (written.cut_mark isClosed rfl rfl same).1

theorem member_apart {member : String × Json} (apart : Apart tokens member.2) :
    Apart memberTokens member := by
  intro other text otherText rest otherRest written otherWritten ends otherEnds same
  obtain ⟨key, value⟩ := member
  obtain ⟨otherKey, otherValue⟩ := other
  obtain ⟨sameKey, _, _, colon, otherColon, same⟩ := written.cut_mark otherWritten rfl rfl same
  obtain ⟨_, _, _, further, otherFurther, same⟩ := colon.cut_mark otherColon rfl rfl same
  obtain ⟨rfl, same⟩ := apart otherValue _ _ _ _ further otherFurther ends otherEnds same
  cases sameKey
  exact ⟨rfl, same⟩

def opening : Json → JsonToken
  | .null => .null
  | .bool value => .bool value
  | .number value => .number value
  | .string text => .string text
  | .array _ => .openArray
  | .object _ => .openObject

def remaining : Json → List JsonToken
  | .array items => tokensOfItems items
  | .object members => tokensOfMembers members
  | _ => []

theorem tokens_eq (document : Json) : document.tokens = document.opening :: document.remaining := by
  cases document <;> rfl

theorem endsBefore_opening {document : Json} {rest : List Char} (ends : Ends rest) :
    ∀ further, Written document.remaining further →
      EndsBefore document.opening (further ++ rest) := by
  intro further written
  cases document with
  | number value =>
    cases written
    exact fun _ _ => ends
  | null | bool | string | array | object => exact endsBefore_of_noNumber rfl _

theorem apart_of_remaining {document : Json}
    (remains : ∀ other, document.opening = other.opening → ∀ text otherText rest otherRest,
      Written document.remaining text → Written other.remaining otherText → Ends rest →
      Ends otherRest → text ++ rest = otherText ++ otherRest → document = other ∧ rest = otherRest) :
    Apart tokens document := by
  intro other text otherText rest otherRest written otherWritten ends otherEnds same
  rw [tokens_eq] at written otherWritten
  obtain ⟨opens, _, _, further, otherFurther, same⟩ :=
    written.cut otherWritten (endsBefore_opening ends) (endsBefore_opening otherEnds) same
  exact remains other opens _ _ _ _ further otherFurther ends otherEnds same

theorem apart (document : Json) : Apart tokens document := by
  induction document using Json.induct with
  | null | bool | number | string =>
    refine apart_of_remaining fun other opens _ _ _ _ written otherWritten _ _ same => ?_
    cases other <;> cases opens
    cases written
    cases otherWritten
    exact ⟨rfl, same⟩
  | array items ih =>
    refine apart_of_remaining fun other opens _ _ _ _ written otherWritten ends otherEnds same => ?_
    cases other <;> cases opens
    rw [remaining, tokensOfItems_eq_joined] at written otherWritten
    obtain ⟨rfl, same⟩ := joined_apart rfl (by simp) item_opens ih _ _ _ _ _ written otherWritten
      ends otherEnds same
    exact ⟨rfl, same⟩
  | object members ih =>
    refine apart_of_remaining fun other opens _ _ _ _ written otherWritten ends otherEnds same => ?_
    cases other <;> cases opens
    rw [remaining, tokensOfMembers_eq_joined] at written otherWritten
    have each := fun member isMember => member_apart (ih member isMember)
    obtain ⟨rfl, same⟩ := joined_apart rfl (by simp) member_opens each _ _ _ _ _ written otherWritten
      ends otherEnds same
    exact ⟨rfl, same⟩

theorem eq_of_hasText {first second : Json} {text : List Char} (isText : first.HasText text)
    (isTextToo : second.HasText text) : first = second :=
  (first.apart second text text [] [] isText isTextToo JsonNumber.ends_nil JsonNumber.ends_nil rfl).1

end Json

end TableServer
