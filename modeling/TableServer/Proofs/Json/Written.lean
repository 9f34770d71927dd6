import TableServer.Proofs.Json.Tokens
import TableServer.Proofs.Number.Layouts
import TableServer.Proofs.Number.ReadBack

/-! The texts of a document. A number is told from its digits, and not from how a reader with 64 bits
takes them; a double is the one next to the number that its text stands for. What is written for a
document is one of its texts, with no white space in it. -/

namespace TableServer

namespace JsonNumber

/-- Literals without their sign, with the magnitude that the digits stand for; a plain one has neither
a fraction nor an exponent. -/
inductive MagnitudeSpelling (plain : Bool) : ℚ → List Char → Prop where
  | parts {whole fractionText exponentText : List Char} {fraction : Option (List Char)}
      {exponent : Option ℤ} (isWhole : IsWhole whole)
      (isFraction : FractionSpelling fraction fractionText)
      (isExponent : ExponentSpelling exponent exponentText)
      (form : plain = (fraction.isNone && exponent.isNone)) :
      MagnitudeSpelling plain
        (digitsValue (whole ++ fraction.getD []) *
          10 ^ (exponent.getD 0 - (fraction.getD []).length))
        (whole ++ (fractionText ++ exponentText))

inductive Literal : JsonNumber → List Char → Prop where
  | integer {whole : JsonInteger} {text : List Char}
      (exact : MagnitudeSpelling true whole.value.natAbs text) :
      Literal (.integer whole) (signed (decide (whole.value < 0)) text)
  | double {value : FiniteDouble} {magnitude : ℚ} {text : List Char}
      (spelling : MagnitudeSpelling false magnitude text)
      (nearest : value.IsNearest (TableServer.signed value.negative magnitude)) :
      Literal (.double value) (signed value.negative text)

theorem isWhole_zero : IsWhole ['0'] :=
  ⟨⟨by simp, zeros_digits 1⟩, fun _ => rfl⟩

theorem isWhole_of_head {digits : List Char} (form : IsDigits digits)
    (noZero : digits.head? ≠ some '0') : IsWhole digits :=
  ⟨form, fun zero => absurd zero noZero⟩

theorem isDigits_digitsOf (value : ℕ) : IsDigits (digitsOf value) :=
  ⟨digitsOf_ne_nil value, digitsOf_digits value⟩

theorem isWhole_digitsOf (value : ℕ) : IsWhole (digitsOf value) := by
  rcases Nat.eq_zero_or_pos value with rfl | positive
  · exact isWhole_zero
  · exact isWhole_of_head (isDigits_digitsOf value) (digitsOf_head_ne_zero positive)

theorem exponentSpelling_power (exponent : ℤ) :
    ExponentSpelling (some exponent)
      ('e' :: (if exponent < 0 then '-' else '+') :: digitsOf exponent.natAbs) := by
  have form := isDigits_digitsOf exponent.natAbs
  by_cases below : exponent < 0
  · have spelled := ExponentSpelling.present (Or.inl rfl) .minus form
    have worth : -(exponent.natAbs : ℤ) = exponent := by omega
    rw [if_pos rfl, digitsValue_digitsOf, worth] at spelled
    rw [if_pos below]
    exact spelled
  · have spelled := ExponentSpelling.present (Or.inl rfl) .plus form
    have worth : (exponent.natAbs : ℤ) = exponent := by omega
    rw [if_neg Bool.false_ne_true, digitsValue_digitsOf, worth] at spelled
    rw [if_neg below]
    exact spelled

section LaidOut

variable {layout : Layout} {digits body : List Char} {ending : Option (List Char)} {point : ℤ}

theorem spelling_of_laidOut (laid : layout.LaidOut digits point body)
    (ends : FractionSpelling ending layout.whole) (nothing : digitsValue (ending.getD []) = 0)
    (form : IsDigits digits) (noZero : digits.head? ≠ some '0') :
    ∃ plain, MagnitudeSpelling plain (digitsValue digits * 10 ^ (point - digits.length)) body ∧
      (plain = true → ending = none) := by
  obtain ⟨someDigits, allDigits⟩ := form
  cases laid with
  | padded zeros position _ =>
    have isWhole : IsWhole (digits ++ List.replicate zeros '0') := by
      refine isWhole_of_head ⟨by simp [someDigits], ?_⟩ ?_
      · exact List.forall_mem_append.mpr ⟨allDigits, zeros_digits zeros⟩
      · rwa [List.head?_append_of_ne_nil _ someDigits]
    have spelled := MagnitudeSpelling.parts isWhole ends .absent rfl
    have worth : (digitsValue (digits ++ List.replicate zeros '0' ++ ending.getD []) : ℚ) *
        10 ^ ((none : Option ℤ).getD 0 - (ending.getD []).length) =
          digitsValue digits * 10 ^ (point - digits.length) := by
      have power : point - digits.length = zeros := by omega
      rw [digitsValue_append, nothing, digitsValue_append_zeros, power]
      simp [zpow_neg]
    rw [worth, List.append_nil] at spelled
    exact ⟨_, spelled, by simp⟩
  | @divided whole fraction split someWhole someFraction position _ =>
    subst split
    rw [List.forall_mem_append] at allDigits
    have isWhole : IsWhole whole := by
      refine isWhole_of_head ⟨someWhole, allDigits.1⟩ ?_
      rwa [List.head?_append_of_ne_nil _ someWhole] at noZero
    have spelled := MagnitudeSpelling.parts isWhole (.present ⟨someFraction, allDigits.2⟩) .absent rfl
    have power : point - (whole ++ fraction).length = 0 - fraction.length := by
      rw [List.length_append]
      omega
    rw [power]
    exact ⟨_, by simpa using spelled, by simp⟩
  | leading zeros position _ =>
    have fractionDigits : IsDigits (List.replicate zeros '0' ++ digits) :=
      ⟨by simp [someDigits], List.forall_mem_append.mpr ⟨zeros_digits zeros, allDigits⟩⟩
    have spelled := MagnitudeSpelling.parts isWhole_zero (.present fractionDigits) .absent rfl
    have power : point - digits.length = 0 - (List.replicate zeros '0' ++ digits).length := by
      rw [List.length_append, List.length_replicate]
      omega
    have noZero : digitsValue (['0'] ++ (List.replicate zeros '0' ++ digits)) = digitsValue digits :=
      (digitsValue_zeros_append 1 _).trans (digitsValue_zeros_append zeros digits)
    rw [power, ← noZero]
    exact ⟨_, by simpa using spelled, by simp⟩
  | @scientific first rest split _ =>
    subst split
    rw [List.forall_mem_cons] at allDigits
    have isWhole : IsWhole [first] :=
      isWhole_of_head ⟨by simp, by simpa using allDigits.1⟩ (by simpa using noZero)
    have power : point - (first :: rest).length = point - 1 - rest.length := by
      rw [List.length_cons]
      omega
    have exponent := exponentSpelling_power (point - 1)
    rw [power]
    by_cases noRest : rest = []
    · subst noRest
      exact ⟨_, by simpa using MagnitudeSpelling.parts isWhole .absent exponent rfl, by simp⟩
    · rw [if_neg noRest]
      exact ⟨_, MagnitudeSpelling.parts isWhole (.present ⟨noRest, allDigits.2⟩) exponent rfl, by simp⟩

theorem spelling_place {value : Decimal} (nonzero : value.coefficient ≠ 0)
    (ends : FractionSpelling ending layout.whole) (nothing : digitsValue (ending.getD []) = 0) :
    ∃ plain, MagnitudeSpelling plain value.magnitude
        (layout.place (digitsOf value.coefficient)
          (value.exponent + (digitsOf value.coefficient).length)) ∧
      (plain = true → ending = none) := by
  have form := isDigits_digitsOf value.coefficient
  have laid := layout.laidOut_place form.1 (value.exponent + (digitsOf value.coefficient).length)
  have spelled := spelling_of_laidOut laid ends nothing form
    (digitsOf_head_ne_zero (Nat.pos_of_ne_zero nonzero))
  rwa [digitsValue_digitsOf, add_sub_cancel_right] at spelled

end LaidOut

theorem literal_integer (whole : JsonInteger) : Literal (.integer whole) (write (.integer whole)) := by
  have spelled := MagnitudeSpelling.parts (isWhole_digitsOf whole.value.natAbs) .absent .absent rfl
  have worth : (digitsValue (digitsOf whole.value.natAbs ++ (none : Option (List Char)).getD []) : ℚ) *
      10 ^ ((none : Option ℤ).getD 0 - ((none : Option (List Char)).getD []).length) =
        whole.value.natAbs := by
    simp [digitsValue_digitsOf]
  rw [worth] at spelled
  have written : write (.integer whole) =
      signed (decide (whole.value < 0)) (digitsOf whole.value.natAbs) := by
    simp [write, signed]
  rw [written]
  exact .integer (by simpa using spelled)

theorem literal_zero {value : FiniteDouble} (zero : value.significand = 0) :
    Literal (.double value) (write (.double value)) := by
  have spelled : MagnitudeSpelling false 0 ['0', '.', '0'] := by
    have parts := MagnitudeSpelling.parts isWhole_zero
      (.present ⟨List.cons_ne_nil '0' [], zeros_digits 1⟩) .absent rfl
    simpa [digitsValue, digitValue] using parts
  have exact : value.toRat = TableServer.signed value.negative 0 := by
    rw [FiniteDouble.toRat_eq_signed, FiniteDouble.units_eq, zero, Nat.zero_mul, Nat.cast_zero,
      zero_mul]
  have written : write (.double value) = signed value.negative ['0', '.', '0'] := by
    simp only [write, zero, if_true, signed]
  rw [written]
  exact .double spelled (exact ▸ value.isNearest_toRat)

theorem literal_double {value : FiniteDouble} (nonzero : 0 < value.significand) :
    Literal (.double value) (write (.double value)) := by
  have caught := value.catches_shortest .even
  have ends : FractionSpelling (some ['0']) jsonLayout.whole :=
    .present ⟨List.cons_ne_nil '0' [], zeros_digits 1⟩
  obtain ⟨plain, spelled, whole⟩ := spelling_place
    (Decimal.coefficient_ne_zero_of_caught nonzero caught) ends (by decide)
  have notPlain : plain = false := Bool.eq_false_iff.mpr fun isPlain => nomatch whole isPlain
  have nearest : value.IsNearest (value.shortest .even).toRat := Decimal.isNearest_of_caught caught rfl
  have written : write (.double value) = jsonLayout.write (value.shortest .even) :=
    if_neg nonzero.ne'
  rw [notPlain] at spelled
  rw [written]
  exact .double spelled nearest

theorem literal_write (number : JsonNumber) : Literal number number.write := by
  cases number with
  | integer whole => exact literal_integer whole
  | double value =>
    rcases Nat.eq_zero_or_pos value.significand with zero | nonzero
    · exact literal_zero zero
    · exact literal_double nonzero

end JsonNumber

namespace JsonToken

inductive Lexeme : JsonToken → List Char → Prop where
  | number {value : JsonNumber} {text : List Char} (literal : JsonNumber.Literal value text) :
      Lexeme (.number value) text
  | other {token : JsonToken} {text : List Char} (noNumber : ∀ value, token ≠ .number value)
      (spelling : Spelling token text) : Lexeme token text

/-- The tokens stand one behind the other, and nothing between them. -/
inductive Written : List JsonToken → List Char → Prop where
  | nil : Written [] []
  | cons {token : JsonToken} {lexeme text : List Char} {tokens : List JsonToken}
      (first : Lexeme token lexeme) (further : Written tokens text) :
      Written (token :: tokens) (lexeme ++ text)

theorem Written.append {tokens others : List JsonToken} {text rest : List Char}
    (first : Written tokens text) (further : Written others rest) :
    Written (tokens ++ others) (text ++ rest) := by
  induction first with
  | nil => exact further
  | cons lexeme _ ih =>
    rw [List.append_assoc]
    exact .cons lexeme ih

theorem Written.single {token : JsonToken} {text : List Char} (lexeme : Lexeme token text) :
    Written [token] text := by
  rw [← List.append_nil text]
  exact .cons lexeme .nil

theorem lexeme_writeString (text : String) : Lexeme (.string text) (Json.writeString text) := by
  have spelling := Spelling.string (textSpelling_write text.toList)
  rw [String.ofList_toList] at spelling
  exact .other (by simp) spelling

theorem written_member (key : String) {tokens : List JsonToken} {text : List Char}
    (value : Written tokens text) :
    Written (.string key :: .colon :: tokens) (Json.writeString key ++ ':' :: text) :=
  .cons (lexeme_writeString key) (.cons (.other (by simp) .colon) value)

end JsonToken

namespace Json

open JsonToken (Written)

/-- The document is what the text says. -/
def HasText (document : Json) (text : List Char) : Prop :=
  Written document.tokens text

mutual

theorem hasText_write : ∀ document : Json, document.HasText document.write
  | .null => .single (.other (by simp) .null)
  | .bool true => .single (.other (by simp) .isTrue)
  | .bool false => .single (.other (by simp) .isFalse)
  | .number value => .single (.number (JsonNumber.literal_write value))
  | .string text => .single (JsonToken.lexeme_writeString text)
  | .array items => .cons (.other (by simp) .openArray) (written_writeItems items)
  | .object members => .cons (.other (by simp) .openObject) (written_writeMembers members)

theorem written_writeItems : ∀ items : List Json, Written (tokensOfItems items) (writeItems items)
  | [] => .single (.other (by simp) .closeArray)
  | [last] => (hasText_write last).append (.single (.other (by simp) .closeArray))
  | item :: second :: others =>
    (hasText_write item).append
      (.cons (.other (by simp) .comma) (written_writeItems (second :: others)))

theorem written_writeMembers : ∀ members : List (String × Json),
    Written (tokensOfMembers members) (writeMembers members)
  | [] => .single (.other (by simp) .closeObject)
  | [(key, value)] =>
    (JsonToken.written_member key (hasText_write value)).append
      (.single (.other (by simp) .closeObject))
  | (key, value) :: second :: others =>
    (JsonToken.written_member key (hasText_write value)).append
      (.cons (.other (by simp) .comma) (written_writeMembers (second :: others)))

end

end Json

end TableServer
