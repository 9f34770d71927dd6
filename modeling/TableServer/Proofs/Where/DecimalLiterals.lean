import TableServer.Proofs.Json.Literals
import TableServer.Where.NumberText

/-! The texts that are decimal literals. A point may stand before, among or behind the digits, so these
are more than the literals of a document; sign and exponent are spelled as there. -/

namespace TableServer

namespace NumberText

open JsonNumber (IsDigits SignSpelling ExponentSpelling exponentSign)

inductive PointSpelling : List Char → List Char → Prop where
  | absent : PointSpelling [] []
  | present {digits : List Char} (allDigits : ∀ c ∈ digits, isDigit c = true) :
      PointSpelling digits ('.' :: digits)

/-- The decimal literals: a sign, digits with a point somewhere around them or none, an exponent. Sign
and exponent may be left out, and there is at least one digit. -/
inductive DecimalSpelling : Decimal → List Char → Prop where
  | parts {negative : Bool} {sign whole fraction fractionText exponentText : List Char}
      {exponent : Option Int} (signed : SignSpelling negative sign)
      (wholeDigits : ∀ c ∈ whole, isDigit c = true) (pointed : PointSpelling fraction fractionText)
      (someDigits : whole ≠ [] ∨ fraction ≠ []) (scaled : ExponentSpelling exponent exponentText) :
      DecimalSpelling (.ofDigits negative whole fraction (exponent.getD 0))
        (sign ++ (whole ++ (fractionText ++ exponentText)))

theorem isSign_iff (c : Char) : isSign c = true ↔ c = '+' ∨ c = '-' := by
  simp [isSign]

theorem exponentSign_cons (c : Char) (rest : List Char) :
    exponentSign (c :: rest) = (decide (c = '-'), if isSign c then rest else c :: rest) := by
  by_cases plus : c = '+'
  · subst plus
    rfl
  · by_cases minus : c = '-'
    · subst minus
      rfl
    · simp [exponentSign, isSign, plus, minus]

theorem exponentSign_of_unsigned {sign text : List Char} {negative : Bool}
    (signed : SignSpelling negative sign)
    (unsigned : ∀ c, text.head? = some c → isSign c = false) :
    exponentSign (sign ++ text) = (negative, text) := by
  cases signed with
  | plus => rfl
  | minus => rfl
  | unsigned =>
    cases text with
    | nil => rfl
    | cons c rest =>
      have noSign := unsigned c rfl
      have notMinus : c ≠ '-' := by
        rintro rfl
        exact absurd noSign (by decide)
      rw [List.nil_append, exponentSign_cons, noSign, if_neg Bool.false_ne_true,
        decide_eq_false notMinus]

theorem isDigits_iff (digits : List Char) :
    IsDigits digits ↔ ¬(digits.isEmpty = true ∨ (!digits.all isDigit) = true) := by
  simp [IsDigits]

theorem exponent?_cons_eq_some_iff (mark : Char) (rest : List Char) (value : Int) :
    exponent? (mark :: rest) = some value ↔ (mark = 'e' ∨ mark = 'E') ∧
      IsDigits (exponentSign rest).2 ∧
      (if (exponentSign rest).1 then -(digitsValue (exponentSign rest).2 : Int)
        else digitsValue (exponentSign rest).2) = value := by
  by_cases isMark : mark = 'e' ∨ mark = 'E'
  · cases rest with
    | nil => simp [exponent?, isMark, exponentSign, isDigits_iff]
    | cons c rest =>
      simp only [exponent?, isMark, if_true, exponentSign_cons, List.head?_cons, Option.some.injEq,
        decide_eq_true_eq, isDigits_iff, true_and, Option.ite_none_left_eq_some]
  · simp [exponent?, isMark]

theorem exponent?_eq_some_iff (text : List Char) (value : Int) :
    exponent? text = some value ↔
      ∃ exponent, ExponentSpelling exponent text ∧ exponent.getD 0 = value := by
  cases text with
  | nil =>
    constructor
    · intro found
      cases found
      exact ⟨none, .absent, rfl⟩
    · rintro ⟨exponent, spelling, rfl⟩
      cases spelling
      rfl
  | cons mark rest =>
    rw [exponent?_cons_eq_some_iff]
    constructor
    · rintro ⟨isMark, form, rfl⟩
      obtain ⟨sign, split, signed⟩ := JsonNumber.exponentSign_eq rest
      have spelling := ExponentSpelling.present isMark signed form
      rw [← split] at spelling
      exact ⟨_, spelling, rfl⟩
    · rintro ⟨exponent, spelling, rfl⟩
      cases spelling with
      | present isMark signed form =>
        rw [signed.read form]
        exact ⟨isMark, form, rfl⟩

def fractionOf : List Char → List Char × List Char
  | '.' :: after => after.span isDigit
  | rest => ([], rest)

theorem fractionOf_cons {c : Char} (notPoint : c ≠ '.') (rest : List Char) :
    fractionOf (c :: rest) = ([], c :: rest) := by
  simp [fractionOf, notPoint]

theorem decimal?_eq (text : List Char) {whole after fraction tail : List Char}
    (spanned : (exponentSign text).2.span isDigit = (whole, after))
    (found : fractionOf after = (fraction, tail)) :
    decimal? text =
      if whole.isEmpty ∧ fraction.isEmpty then none
      else (exponent? tail).map (.ofDigits (exponentSign text).1 whole fraction) := by
  cases text with
  | nil =>
    cases spanned
    cases found
    rfl
  | cons c rest =>
    rw [exponentSign_cons] at spanned ⊢
    have asBind : decimal? (c :: rest) = if whole.isEmpty ∧ fraction.isEmpty then none
        else exponent? tail >>= fun power =>
          some (.ofDigits (decide (c = '-')) whole fraction power) := by
      cases after with
      | nil =>
        cases found
        simp only [decimal?, spanned, List.head?_cons, Option.some.injEq]
        split <;> rfl
      | cons d after =>
        by_cases point : d = '.'
        · subst point
          have found : after.span isDigit = (fraction, tail) := found
          simp only [decimal?, spanned, found, List.head?_cons, Option.some.injEq]
          split <;> rfl
        · rw [fractionOf_cons point] at found
          cases found
          simp only [decimal?, spanned, List.head?_cons, Option.some.injEq]
          simp [point]
    rw [asBind, Option.map_eq_bind]
    rfl

theorem fractionOf_eq (text : List Char) :
    ∃ spelling, text = spelling ++ (fractionOf text).2 ∧
      PointSpelling (fractionOf text).1 spelling := by
  unfold fractionOf
  split
  · rename_i after
    obtain ⟨split, allDigits⟩ := JsonNumber.span_isDigits (after.span isDigit).eta.symm
    exact ⟨'.' :: (after.span isDigit).1, congrArg ('.' :: ·) split, .present allDigits⟩
  · exact ⟨[], rfl, .absent⟩

theorem PointSpelling.read {fraction spelling after : List Char}
    (pointed : PointSpelling fraction spelling)
    (stops : ∀ c, after.head? = some c → isDigit c = false ∧ c ≠ '.') :
    fractionOf (spelling ++ after) = (fraction, after) := by
  cases pointed with
  | absent =>
    cases after with
    | nil => rfl
    | cons c after => simp [fractionOf, (stops c rfl).2]
  | present allDigits =>
    exact JsonNumber.span_digits fraction allDigits fun c head => (stops c head).1

theorem PointSpelling.stops {fraction spelling after : List Char}
    (pointed : PointSpelling fraction spelling)
    (stops : ∀ c, after.head? = some c → isDigit c = false ∧ c ≠ '.') :
    ∀ c, (spelling ++ after).head? = some c → isDigit c = false := by
  intro c head
  cases pointed with
  | absent => exact (stops c head).1
  | present =>
    cases head
    decide

theorem isSign_of_isDigit {c : Char} (digit : isDigit c = true) : isSign c = false := by
  rw [Bool.eq_false_iff, ne_eq, isSign_iff]
  rintro (rfl | rfl)
  · exact absurd digit (by decide)
  · exact absurd digit (by decide)

theorem unsigned_of_digits {whole fraction spelling : List Char} (after : List Char)
    (wholeDigits : ∀ c ∈ whole, isDigit c = true) (pointed : PointSpelling fraction spelling)
    (someDigits : whole ≠ [] ∨ fraction ≠ []) :
    ∀ c, (whole ++ (spelling ++ after)).head? = some c → isSign c = false := by
  intro c head
  cases whole with
  | cons first others =>
    cases head
    exact isSign_of_isDigit (wholeDigits c List.mem_cons_self)
  | nil =>
    cases pointed with
    | absent => simp at someDigits
    | present =>
      cases head
      decide

theorem decimal?_eq_some_iff (text : List Char) (value : Decimal) :
    decimal? text = some value ↔ DecimalSpelling value text := by
  constructor
  · intro read
    cases spanned : (exponentSign text).2.span isDigit with
    | mk whole after =>
    cases found : fractionOf after with
    | mk fraction tail =>
    rw [decimal?_eq text spanned found, Option.ite_none_left_eq_some, Option.map_eq_some_iff] at read
    obtain ⟨someDigits, power, foundPower, rfl⟩ := read
    rw [not_and_or, List.isEmpty_iff, List.isEmpty_iff] at someDigits
    obtain ⟨sign, splitSign, signed⟩ := JsonNumber.exponentSign_eq text
    obtain ⟨splitWhole, wholeDigits⟩ := JsonNumber.span_isDigits spanned
    obtain ⟨spelling, splitFraction, pointed⟩ := fractionOf_eq after
    obtain ⟨exponent, scaled, rfl⟩ := (exponent?_eq_some_iff _ _).mp foundPower
    rw [found] at splitFraction pointed
    have spelled := DecimalSpelling.parts signed wholeDigits pointed someDigits scaled
    rwa [← splitFraction, ← splitWhole, ← splitSign] at spelled
  · intro spelling
    obtain @⟨negative, sign, whole, fraction, fractionText, exponentText, exponent, signed,
      wholeDigits, pointed, someDigits, scaled⟩ := spelling
    have stops := scaled.stops
    have signRead := exponentSign_of_unsigned signed
      (unsigned_of_digits exponentText wholeDigits pointed someDigits)
    have spanned : (exponentSign (sign ++ (whole ++ (fractionText ++ exponentText)))).2.span isDigit =
        (whole, fractionText ++ exponentText) := by
      rw [signRead]
      exact JsonNumber.span_digits whole wholeDigits (pointed.stops stops)
    rw [decimal?_eq _ spanned (pointed.read stops), signRead, if_neg,
      (exponent?_eq_some_iff _ _).mpr ⟨exponent, scaled, rfl⟩]
    · rfl
    · rw [not_and_or, List.isEmpty_iff, List.isEmpty_iff]
      exact someDigits

end NumberText

end TableServer
