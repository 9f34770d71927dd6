import TableServer.Proofs.Json.Written
import TableServer.Proofs.Where.Integers
import TableServer.Proofs.Where.Numerals

/-! The text of a number and the number of that text. Wherever the layout puts the point, the text is a
decimal literal of the value laid out; the shortest digits of a double are among those that read back
as the double; so a number equals its text, and an array of it. -/

namespace TableServer

namespace NumberText

open JsonNumber (SignSpelling FractionSpelling MagnitudeSpelling)

theorem pointSpelling_of_fraction {fraction : Option (List Char)} {text : List Char}
    (spelling : FractionSpelling fraction text) : PointSpelling (fraction.getD []) text := by
  cases spelling with
  | absent => exact .absent
  | present form => exact .present form.2

theorem decimal_of_spelling {plain negative : Bool} {magnitude : ℚ} {sign text : List Char}
    (spelling : MagnitudeSpelling plain magnitude text) (signed : SignSpelling negative sign) :
    ∃ literal, DecimalSpelling literal (sign ++ text) ∧ literal.negative = negative ∧
      literal.magnitude = magnitude := by
  cases spelling with
  | parts isWhole isFraction isExponent _ =>
    exact ⟨_, .parts signed isWhole.1.2 (pointSpelling_of_fraction isFraction) (Or.inl isWhole.1.1)
      isExponent, rfl, rfl⟩

theorem spelling_write {value : Decimal} (nonzero : value.coefficient ≠ 0) :
    ∃ literal, DecimalSpelling literal (comparedLayout.write value) ∧
      literal.negative = value.negative ∧ literal.magnitude = value.magnitude := by
  have ends : FractionSpelling none comparedLayout.whole := .absent
  have nothing : digitsValue ((none : Option (List Char)).getD []) = 0 := rfl
  obtain ⟨plain, spelled, _⟩ := JsonNumber.spelling_place nonzero ends nothing
  rw [Layout.write]
  cases value.negative with
  | false => exact decimal_of_spelling spelled .unsigned
  | true => exact decimal_of_spelling spelled .minus

theorem read_write {value : FiniteDouble} (nonzero : 0 < value.significand) :
    read (comparedLayout.write (value.shortest .up)) = .finite value := by
  have caught := value.catches_shortest .up
  obtain ⟨literal, spelling, sameSign, sameMagnitude⟩ :=
    spelling_write (Decimal.coefficient_ne_zero_of_caught nonzero caught)
  rw [read_literal spelling]
  rw [← sameMagnitude] at caught
  exact Decimal.toDouble_of_caught nonzero caught sameSign

/-- Reading the text of a double gives the double back, up to the sign of a zero. -/
theorem read_text (value : FiniteDouble) :
    ∃ back, read (Double.finite value).text = .finite back ∧ back.toRat = value.toRat := by
  by_cases zero : value.significand = 0
  · have text : (Double.finite value).text = ['0'] := if_pos zero
    have reads : read ['0'] = .finite (.zero false) := by decide
    refine ⟨.zero false, text ▸ reads, ?_⟩
    rw [FiniteDouble.toRat_eq_signed, FiniteDouble.toRat_eq_signed, FiniteDouble.units_zero,
      FiniteDouble.units_eq, zero, Nat.zero_mul, Nat.cast_zero, zero_mul, signed_zero, signed_zero]
  · have text : (Double.finite value).text = comparedLayout.write (value.shortest .up) := if_neg zero
    exact ⟨value, text ▸ read_write (Nat.pos_of_ne_zero zero), rfl⟩

end NumberText

namespace JsonNumber

def forms (number : JsonNumber) : List Json :=
  [.string (String.ofList (Json.number number).text), .array [.number number],
    .array [.array [.number number]]]

theorem primitive_of_mem_forms {number : JsonNumber} {form : Json} (member : form ∈ number.forms) :
    (Operand.ofJson form).primitive = .string (String.ofList (Json.number number).text) := by
  simp only [forms, List.mem_cons, List.not_mem_nil, or_false] at member
  rcases member with rfl | rfl | rfl
  · rfl
  · rfl
  · rfl

theorem equal_of_mem_forms {number : JsonNumber} {form : Json} (member : form ∈ number.forms) :
    Condition.Answers .equal (some (.number number)) form := by
  obtain ⟨value, found⟩ := number.exists_toDouble
  obtain ⟨back, reads, same⟩ := NumberText.read_text value
  have notBoth : ¬((Json.number number).IsContainer ∧ form.IsContainer) := fun both => nomatch both.1
  have asNumbers : (Primitive.number number.toDouble).equal
      (.string (String.ofList (Json.number number).text)) =
        number.toDouble.sameNumber (NumberText.read number.toDouble.text) := by
    rw [Json.text, Primitive.equal, Primitive.toNumber, Primitive.toNumber, String.toList_ofList]
    all_goals simp
  rw [Condition.answers_equal_iff]
  refine (Condition.equal_of_not_containers notBoth).trans ?_
  rw [primitive_of_mem_forms member]
  refine asNumbers.trans ?_
  rw [found, reads, Double.sameNumber_finite, same]
  exact decide_eq_true rfl

end JsonNumber

namespace NumberText

theorem write_ofDigits {first : Char} {rest : List Char} (negative : Bool) (exponent : ℤ)
    (digit : isDigit first = true) (notZero : first ≠ '0') (restDigits : ∀ c ∈ rest, isDigit c = true) :
    comparedLayout.write (.ofDigits negative [first] rest exponent) =
      JsonNumber.signed negative (comparedLayout.place (first :: rest) (exponent + 1)) := by
  have digits := digitsOf_digitsValue rest digit notZero restDigits
  have point : exponent - rest.length + (first :: rest).length = exponent + 1 := by
    rw [List.length_cons]
    omega
  rw [Layout.write, Decimal.ofDigits, List.singleton_append, digits, point]
  rfl

theorem magnitude_ofDigits_eq (negative : Bool) (first : Char) (rest : List Char) (exponent : ℤ) :
    (Decimal.ofDigits negative [first] rest exponent).magnitude =
      digitsValue (first :: rest) / 10 ^ rest.length * 10 ^ exponent := by
  rw [Decimal.magnitude, Decimal.ofDigits, List.singleton_append, zpow_sub₀ (by decide), zpow_natCast]
  ring

/-- A number other than zero is laid out as a decimal literal of its exact value, which is read as a
number; and every number of a document equals its text, an array of it and an array of that, on either
side of the comparison. -/
theorem text_reads_back :
    (∀ (negative : Bool) (first : Char) (rest : List Char) (exponent : ℤ), isDigit first = true →
      first ≠ '0' → (∀ c ∈ rest, isDigit c = true) →
      ∃ body literal,
        comparedLayout.write (.ofDigits negative [first] rest exponent) =
          JsonNumber.signed negative body ∧
        comparedLayout.LaidOut (first :: rest) (exponent + 1) body ∧
        DecimalSpelling literal (JsonNumber.signed negative body) ∧
        literal.toRat =
          signed negative (digitsValue (first :: rest) / 10 ^ rest.length * 10 ^ exponent) ∧
        read (JsonNumber.signed negative body) = literal.toDouble ∧
        literal.toDouble ≠ .nan) ∧
    ∀ (number : JsonNumber), ∀ form ∈ number.forms,
      Condition.Answers .equal (some (.number number)) form ∧
      Condition.Answers .equal (some form) (.number number) := by
  constructor
  · intro negative first rest exponent digit notZero restDigits
    have laid := comparedLayout.laidOut_place (List.cons_ne_nil first rest) (exponent + 1)
    have written := write_ofDigits negative exponent digit notZero restDigits
    have nonzero : (Decimal.ofDigits negative [first] rest exponent).coefficient ≠ 0 :=
      (digitsValue_pos rest digit notZero).ne'
    obtain ⟨literal, spelling, sameSign, sameMagnitude⟩ := spelling_write nonzero
    rw [written] at spelling
    have exact : literal.toRat =
        signed negative (digitsValue (first :: rest) / 10 ^ rest.length * 10 ^ exponent) := by
      rw [Decimal.toRat, sameSign, sameMagnitude, magnitude_ofDigits_eq]
      rfl
    exact ⟨_, literal, written, laid, spelling, exact, read_literal spelling,
      Decimal.toDouble_ne_nan literal⟩
  · intro number form member
    have equal := JsonNumber.equal_of_mem_forms member
    exact ⟨equal, (Condition.compare?_swap form (.number number)).1.trans equal⟩

end NumberText

end TableServer
