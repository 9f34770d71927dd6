import Mathlib.Data.List.TakeDrop
import Mathlib.Data.List.TakeWhile
import TableServer.Json.NumberLiteral
import TableServer.Json.Writer

/-! Number literals in the middle of a text. A literal is read the same whatever follows it, so
long as that cannot go on a literal; every number is written as one literal; and a whole number
reads back as itself. -/

namespace TableServer

namespace JsonNumber

def continues (c : Char) : Bool :=
  isDigit c || c == '.' || c == 'e' || c == 'E' || c == '+' || c == '-'

def Ends (rest : List Char) : Prop :=
  ∀ c, rest.head? = some c → continues c = false

theorem ends_nil : Ends [] := by
  intro c impossible
  cases impossible

theorem ends_cons {c : Char} (rest : List Char) (stops : continues c = false) :
    Ends (c :: rest) := by
  intro first same
  simp only [List.head?_cons, Option.some.injEq] at same
  rw [← same]
  exact stops

theorem continues_false_iff (c : Char) :
    continues c = false ↔
      isDigit c = false ∧ c ≠ '.' ∧ c ≠ 'e' ∧ c ≠ 'E' ∧ c ≠ '+' ∧ c ≠ '-' := by
  simp [continues, and_assoc]

theorem span_append_of_ends (text : List Char) {rest : List Char} (ends : Ends rest) :
    (text ++ rest).span isDigit =
      ((text.span isDigit).1, (text.span isDigit).2 ++ rest) := by
  simp only [List.span_eq_takeWhile_dropWhile]
  induction text with
  | nil =>
    cases rest with
    | nil => rfl
    | cons c rest =>
      have noDigit := ((continues_false_iff c).mp (ends c rfl)).1
      simp [noDigit]
  | cons c text ih =>
    simp only [Prod.mk.injEq] at ih
    by_cases digit : isDigit c = true
    · simp [digit, ih]
    · simp [digit]

theorem span_digits (digits : List Char) {rest : List Char}
    (allDigits : ∀ c ∈ digits, isDigit c = true)
    (stops : ∀ c, rest.head? = some c → isDigit c = false) :
    (digits ++ rest).span isDigit = (digits, rest) := by
  simp only [List.span_eq_takeWhile_dropWhile]
  rw [List.takeWhile_append_of_pos allDigits, List.dropWhile_append_of_pos allDigits]
  cases rest with
  | nil => simp
  | cons c rest => simp [stops c rfl]

theorem span_digits_alone (digits : List Char) (allDigits : ∀ c ∈ digits, isDigit c = true) :
    digits.span isDigit = (digits, []) := by
  have stops : ∀ c, ([] : List Char).head? = some c → isDigit c = false := by
    intro c impossible
    cases impossible
  simpa using span_digits digits allDigits stops

theorem fractionPart_append (text : List Char) {rest : List Char} (ends : Ends rest) :
    fractionPart (text ++ rest) =
      (fractionPart text).map fun found => (found.1, found.2 ++ rest) := by
  cases text with
  | nil =>
    cases rest with
    | nil => rfl
    | cons c rest =>
      have noPoint := ((continues_false_iff c).mp (ends c rfl)).2.1
      simp [fractionPart, noPoint]
  | cons c text =>
    by_cases point : c = '.'
    · subst point
      simp only [List.cons_append, fractionPart, span_append_of_ends text ends]
      obtain ⟨digits, after⟩ := text.span isDigit
      cases digits with
      | nil => rfl
      | cons digit digits => rfl
    · simp [fractionPart, point]

def exponentSign : List Char → Bool × List Char
  | '+' :: after => (false, after)
  | '-' :: after => (true, after)
  | after => (false, after)

def exponentDigits (negative : Bool) (unsigned : List Char) : Option (Option Int × List Char) :=
  match unsigned.span isDigit with
  | ([], _) => none
  | (digits, after) =>
    let magnitude : Int := digitsValue digits
    some (some (if negative then -magnitude else magnitude), after)

theorem exponentPart_cons (mark : Char) (text : List Char) (isMark : mark = 'e' ∨ mark = 'E') :
    exponentPart (mark :: text) =
      exponentDigits (exponentSign text).1 (exponentSign text).2 := by
  simp only [exponentPart, isMark, if_true]
  rfl

theorem exponentSign_append (text : List Char) {rest : List Char} (ends : Ends rest) :
    exponentSign (text ++ rest) =
      ((exponentSign text).1, (exponentSign text).2 ++ rest) := by
  cases text with
  | nil =>
    cases rest with
    | nil => rfl
    | cons c rest =>
      obtain ⟨_, _, _, _, noPlus, noMinus⟩ := (continues_false_iff c).mp (ends c rfl)
      simp [exponentSign, noPlus, noMinus]
  | cons c text =>
    by_cases plus : c = '+'
    · subst plus
      rfl
    · by_cases minus : c = '-'
      · subst minus
        rfl
      · simp [exponentSign, plus, minus]

theorem exponentPart_append (text : List Char) {rest : List Char} (ends : Ends rest) :
    exponentPart (text ++ rest) =
      (exponentPart text).map fun found => (found.1, found.2 ++ rest) := by
  cases text with
  | nil =>
    cases rest with
    | nil => rfl
    | cons c rest =>
      obtain ⟨_, _, lower, upper, _⟩ := (continues_false_iff c).mp (ends c rfl)
      simp [exponentPart, lower, upper]
  | cons c text =>
    by_cases isMark : c = 'e' ∨ c = 'E'
    · rw [List.cons_append, exponentPart_cons c _ isMark, exponentPart_cons c _ isMark,
        exponentSign_append text ends]
      simp only [exponentDigits, span_append_of_ends _ ends]
      obtain ⟨digits, after⟩ := (exponentSign text).2.span isDigit
      cases digits with
      | nil => rfl
      | cons digit digits => rfl
    · simp [exponentPart, isMark]

theorem read?_append (negative : Bool) (text : List Char) {rest : List Char} (ends : Ends rest) :
    read? negative (text ++ rest) =
      (read? negative text).map fun found => (found.1, found.2 ++ rest) := by
  simp only [read?, span_append_of_ends text ends]
  obtain ⟨whole, afterWhole⟩ := text.span isDigit
  simp only [fractionPart_append _ ends]
  split
  · rfl
  · cases fractionPart afterWhole with
    | none => rfl
    | some found =>
      obtain ⟨fraction, afterFraction⟩ := found
      simp only [Option.map_some, Option.bind_eq_bind, Option.bind_some,
        exponentPart_append _ ends]
      cases exponentPart afterFraction with
      | none => rfl
      | some found =>
        obtain ⟨exponent, afterExponent⟩ := found
        simp only [Option.map_some, Option.bind_some]
        cases ofParts? negative whole fraction exponent <;> rfl

def IsDigits (digits : List Char) : Prop :=
  digits ≠ [] ∧ ∀ c ∈ digits, isDigit c = true

/-- The digits before the point. A zero is the only digit then. -/
def IsWhole (digits : List Char) : Prop :=
  IsDigits digits ∧ (digits.head? = some '0' → digits = ['0'])

inductive FractionSpelling : Option (List Char) → List Char → Prop where
  | absent : FractionSpelling none []
  | present {digits : List Char} (form : IsDigits digits) :
      FractionSpelling (some digits) ('.' :: digits)

inductive SignSpelling : Bool → List Char → Prop where
  | unsigned : SignSpelling false []
  | plus : SignSpelling false ['+']
  | minus : SignSpelling true ['-']

inductive ExponentSpelling : Option Int → List Char → Prop where
  | absent : ExponentSpelling none []
  | present {mark : Char} {negative : Bool} {sign digits : List Char}
      (isMark : mark = 'e' ∨ mark = 'E') (signed : SignSpelling negative sign)
      (form : IsDigits digits) :
      ExponentSpelling (some (if negative then -(digitsValue digits : Int) else digitsValue digits))
        (mark :: (sign ++ digits))

/-- The literals of a number, their sign aside. A literal beyond the doubles is one of no number. -/
inductive Spelling (negative : Bool) : JsonNumber → List Char → Prop where
  | parts {whole : List Char} {fraction : Option (List Char)} {fractionText : List Char}
      {exponent : Option Int} {exponentText : List Char} {value : JsonNumber}
      (isWhole : IsWhole whole) (isFraction : FractionSpelling fraction fractionText)
      (isExponent : ExponentSpelling exponent exponentText)
      (worth : ofParts? negative whole fraction exponent = some value) :
      Spelling negative value (whole ++ (fractionText ++ exponentText))

theorem isWhole_iff (digits : List Char) :
    IsWhole digits ↔ (∀ c ∈ digits, isDigit c = true) ∧
      ¬(digits.isEmpty ∨ (1 < digits.length ∧ digits.head? = some '0')) := by
  cases digits with
  | nil => simp [IsWhole, IsDigits]
  | cons first others =>
    cases others with
    | nil => simp [IsWhole, IsDigits]
    | cons second others => simp [IsWhole, IsDigits]

theorem span_isDigits {text digits after : List Char}
    (spanned : text.span isDigit = (digits, after)) :
    text = digits ++ after ∧ ∀ c ∈ digits, isDigit c = true := by
  rw [List.span_eq_takeWhile_dropWhile, Prod.mk.injEq] at spanned
  obtain ⟨rfl, rfl⟩ := spanned
  exact ⟨List.takeWhile_append_dropWhile.symm, fun c member => List.mem_takeWhile_imp member⟩

theorem fractionPart_eq_some {text after : List Char} {fraction : Option (List Char)}
    (found : fractionPart text = some (fraction, after)) :
    ∃ spelling, text = spelling ++ after ∧ FractionSpelling fraction spelling := by
  unfold fractionPart at found
  split at found
  · split at found
    · cases found
    · rename_i rest digits remaining someDigits spanned
      cases found
      obtain ⟨rfl, allDigits⟩ := span_isDigits spanned
      exact ⟨'.' :: digits, rfl, .present ⟨someDigits, allDigits⟩⟩
  · cases found
    exact ⟨[], rfl, .absent⟩

theorem exponentSign_eq (text : List Char) :
    ∃ sign, text = sign ++ (exponentSign text).2 ∧ SignSpelling (exponentSign text).1 sign := by
  unfold exponentSign
  split
  · exact ⟨['+'], rfl, .plus⟩
  · exact ⟨['-'], rfl, .minus⟩
  · exact ⟨[], rfl, .unsigned⟩

theorem exponentPart_eq_some {text after : List Char} {exponent : Option Int}
    (found : exponentPart text = some (exponent, after)) :
    ∃ spelling, text = spelling ++ after ∧ ExponentSpelling exponent spelling := by
  cases text with
  | nil =>
    cases found
    exact ⟨[], rfl, .absent⟩
  | cons mark text =>
    by_cases isMark : mark = 'e' ∨ mark = 'E'
    · rw [exponentPart_cons mark text isMark, exponentDigits] at found
      obtain ⟨sign, split, signed⟩ := exponentSign_eq text
      split at found
      · cases found
      · rename_i digits remaining someDigits spanned
        cases found
        obtain ⟨unsigned, allDigits⟩ := span_isDigits spanned
        refine ⟨mark :: (sign ++ digits), ?_, .present isMark signed ⟨someDigits, allDigits⟩⟩
        rw [List.cons_append, List.append_assoc, ← unsigned, ← split]
    · simp only [exponentPart, isMark, if_false] at found
      cases found
      exact ⟨[], rfl, .absent⟩

theorem read?_eq_some {negative : Bool} {text after : List Char} {value : JsonNumber}
    (found : read? negative text = some (value, after)) :
    ∃ literal, text = literal ++ after ∧ Spelling negative value literal := by
  simp only [read?] at found
  split at found
  · cases found
  · rename_i wellFormed
    obtain ⟨split, allDigits⟩ := span_isDigits (text.span isDigit).eta.symm
    have isWhole := (isWhole_iff _).mpr ⟨allDigits, wellFormed⟩
    simp only [Option.bind_eq_bind, Option.bind_eq_some_iff, Option.pure_def, Option.some.injEq,
      Prod.mk.injEq, Prod.exists] at found
    obtain ⟨fraction, afterFraction, foundFraction, exponent, afterExponent, foundExponent, worth,
      foundWorth, rfl, rfl⟩ := found
    obtain ⟨fractionText, splitFraction, isFraction⟩ := fractionPart_eq_some foundFraction
    obtain ⟨exponentText, splitExponent, isExponent⟩ := exponentPart_eq_some foundExponent
    refine ⟨_, split.trans ?_, .parts isWhole isFraction isExponent foundWorth⟩
    rw [splitFraction, splitExponent, List.append_assoc, List.append_assoc]

theorem FractionSpelling.read {fraction : Option (List Char)} {text after : List Char}
    (spelling : FractionSpelling fraction text)
    (stops : ∀ c, after.head? = some c → isDigit c = false ∧ c ≠ '.') :
    fractionPart (text ++ after) = some (fraction, after) := by
  cases spelling with
  | absent =>
    cases after with
    | nil => rfl
    | cons c after => simp [fractionPart, (stops c rfl).2]
  | @present digits form =>
    obtain ⟨first, others, rfl⟩ := List.exists_cons_of_ne_nil form.1
    have spanned := span_digits (first :: others) form.2 fun c head => (stops c head).1
    simp only [List.cons_append, fractionPart] at spanned ⊢
    rw [spanned]

theorem SignSpelling.read {negative : Bool} {sign digits : List Char}
    (spelling : SignSpelling negative sign) (form : IsDigits digits) :
    exponentSign (sign ++ digits) = (negative, digits) := by
  cases spelling with
  | plus => rfl
  | minus => rfl
  | unsigned =>
    obtain ⟨first, others, rfl⟩ := List.exists_cons_of_ne_nil form.1
    have digit := form.2 first List.mem_cons_self
    have noPlus : first ≠ '+' := by
      rintro rfl
      exact absurd digit (by decide)
    have noMinus : first ≠ '-' := by
      rintro rfl
      exact absurd digit (by decide)
    simp [exponentSign, noPlus, noMinus]

theorem ExponentSpelling.read {exponent : Option Int} {text : List Char}
    (spelling : ExponentSpelling exponent text) : exponentPart text = some (exponent, []) := by
  cases spelling with
  | absent => rfl
  | @present mark negative sign digits isMark signed form =>
    rw [exponentPart_cons mark _ isMark, signed.read form]
    obtain ⟨first, others, rfl⟩ := List.exists_cons_of_ne_nil form.1
    simp only [exponentDigits, span_digits_alone _ form.2]

theorem ExponentSpelling.stops {exponent : Option Int} {text : List Char}
    (spelling : ExponentSpelling exponent text) :
    ∀ c, text.head? = some c → isDigit c = false ∧ c ≠ '.' := by
  intro c head
  cases spelling with
  | absent => cases head
  | present isMark =>
    cases head
    rcases isMark with rfl | rfl <;> decide

theorem FractionSpelling.stops {fraction : Option (List Char)} {exponent : Option Int}
    {text after : List Char} (spelling : FractionSpelling fraction text)
    (follows : ExponentSpelling exponent after) :
    ∀ c, (text ++ after).head? = some c → isDigit c = false := by
  intro c head
  cases spelling with
  | absent => exact (follows.stops c head).1
  | present =>
    cases head
    decide

theorem Spelling.read {negative : Bool} {value : JsonNumber} {text : List Char}
    (spelling : Spelling negative value text) : read? negative text = some (value, []) := by
  obtain ⟨isWhole, isFraction, isExponent, worth⟩ := spelling
  have wellFormed := (isWhole_iff _).mp isWhole
  simp only [read?, span_digits _ wellFormed.1 (isFraction.stops isExponent), wellFormed.2,
    if_false, isFraction.read isExponent.stops, isExponent.read, worth, Option.bind_eq_bind,
    Option.bind_some, Option.pure_def]

def IsFraction (text : List Char) : Prop :=
  text = [] ∨ ∃ digits, text = '.' :: digits ∧ digits ≠ [] ∧ ∀ c ∈ digits, isDigit c = true

def IsExponent (text : List Char) : Prop :=
  text = [] ∨ ∃ sign digits, text = 'e' :: sign :: digits ∧ (sign = '+' ∨ sign = '-') ∧
    digits ≠ [] ∧ ∀ c ∈ digits, isDigit c = true

def IsLiteral (text : List Char) : Prop :=
  ∃ whole fraction exponent, text = whole ++ (fraction ++ exponent) ∧
    whole ≠ [] ∧ (∀ c ∈ whole, isDigit c = true) ∧ IsFraction fraction ∧ IsExponent exponent

theorem spelling_of_isExponent {text : List Char} (form : IsExponent text) :
    ∃ exponent, ExponentSpelling exponent text := by
  rcases form with rfl | ⟨sign, digits, rfl, rfl | rfl, someDigits, allDigits⟩
  · exact ⟨none, .absent⟩
  · exact ⟨_, .present (Or.inl rfl) .plus ⟨someDigits, allDigits⟩⟩
  · exact ⟨_, .present (Or.inl rfl) .minus ⟨someDigits, allDigits⟩⟩

theorem spelling_of_isFraction {text : List Char} (form : IsFraction text) :
    ∃ fraction, FractionSpelling fraction text := by
  rcases form with rfl | ⟨digits, rfl, someDigits, allDigits⟩
  · exact ⟨none, .absent⟩
  · exact ⟨some digits, .present ⟨someDigits, allDigits⟩⟩

theorem read?_of_isLiteral (negative : Bool) {text : List Char} (form : IsLiteral text) :
    read? negative text = none ∨ ∃ value, read? negative text = some (value, []) := by
  obtain ⟨whole, fractionText, exponentText, rfl, someDigits, allDigits, isFraction, isExponent⟩ :=
    form
  obtain ⟨fraction, isFraction⟩ := spelling_of_isFraction isFraction
  obtain ⟨exponent, isExponent⟩ := spelling_of_isExponent isExponent
  simp only [read?, span_digits whole allDigits (isFraction.stops isExponent),
    isFraction.read isExponent.stops]
  split
  · exact Or.inl rfl
  · simp only [Option.bind_eq_bind, Option.bind_some, isExponent.read]
    cases ofParts? negative whole fraction exponent with
    | none => exact Or.inl rfl
    | some value => exact Or.inr ⟨value, rfl⟩

theorem isDigit_of_isDigit {c : Char} (digit : c.isDigit = true) : isDigit c = true := by
  simp only [Char.isDigit, Bool.and_eq_true, decide_eq_true_eq] at digit
  simp only [isDigit, Bool.and_eq_true, decide_eq_true_eq]
  exact digit

theorem digitsOf_digits (value : Nat) : ∀ c ∈ digitsOf value, isDigit c = true := by
  intro c member
  exact isDigit_of_isDigit (Nat.isDigit_of_mem_toDigits (by decide) (by decide) member)

theorem digitsOf_ne_nil (value : Nat) : digitsOf value ≠ [] :=
  Nat.toDigits_ne_nil

theorem zeros_digits (count : Nat) : ∀ c ∈ List.replicate count '0', isDigit c = true := by
  intro c member
  rw [List.eq_of_mem_replicate member]
  decide

theorem isLiteral_digits {digits : List Char} (someDigits : digits ≠ [])
    (allDigits : ∀ c ∈ digits, isDigit c = true) : IsLiteral digits :=
  ⟨digits, [], [], by simp, someDigits, allDigits, Or.inl rfl, Or.inl rfl⟩

theorem isExponent_power (exponent : Int) :
    IsExponent ('e' :: (if exponent < 0 then '-' else '+') :: digitsOf exponent.natAbs) := by
  refine Or.inr ⟨_, _, rfl, ?_, digitsOf_ne_nil _, digitsOf_digits _⟩
  split
  · exact Or.inr rfl
  · exact Or.inl rfl

theorem isLiteral_exponentForm {digits : List Char} (exponent : Int) (someDigits : digits ≠ [])
    (allDigits : ∀ c ∈ digits, isDigit c = true) :
    IsLiteral (Layout.exponentForm digits exponent) := by
  have power := isExponent_power exponent
  obtain ⟨first, others, rfl⟩ := List.exists_cons_of_ne_nil someDigits
  have firstDigit : ∀ c ∈ [first], isDigit c = true := by
    simpa using allDigits first (by simp)
  cases others with
  | nil => exact ⟨[first], [], _, rfl, by simp, firstDigit, Or.inl rfl, power⟩
  | cons second others =>
    refine ⟨[first], '.' :: second :: others, _, rfl, by simp, firstDigit, ?_, power⟩
    exact Or.inr ⟨_, rfl, by simp, fun c member => allDigits c (List.mem_cons_of_mem _ member)⟩

theorem isLiteral_place (layout : Layout) {digits : List Char} (point : Int)
    (ending : IsFraction layout.whole) (someDigits : digits ≠ [])
    (allDigits : ∀ c ∈ digits, isDigit c = true) : IsLiteral (layout.place digits point) := by
  unfold Layout.place
  dsimp only
  split
  · refine ⟨digits ++ List.replicate (point - digits.length).toNat '0', layout.whole, [], by simp,
      by simp [someDigits], ?_, ending, Or.inl rfl⟩
    intro c member
    rcases List.mem_append.mp member with member | member
    · exact allDigits c member
    · exact zeros_digits _ c member
  · split
    · rename_i notWhole inside
      have within : point.toNat < digits.length := by omega
      refine ⟨digits.take point.toNat, '.' :: digits.drop point.toNat, [], by simp, ?_,
        fun c member => allDigits c (List.mem_of_mem_take member),
        Or.inr ⟨_, rfl, ?_, fun c member => allDigits c (List.mem_of_mem_drop member)⟩,
        Or.inl rfl⟩
      · rw [← List.length_pos_iff, List.length_take]
        omega
      · rw [← List.length_pos_iff, List.length_drop]
        omega
    · split
      · refine ⟨['0'], '.' :: (List.replicate (-point).toNat '0' ++ digits), [], by simp,
          by simp, zeros_digits 1, Or.inr ⟨_, rfl, by simp [someDigits], ?_⟩, Or.inl rfl⟩
        intro c member
        rcases List.mem_append.mp member with member | member
        · exact zeros_digits _ c member
        · exact allDigits c member
      · exact isLiteral_exponentForm _ someDigits allDigits

def signed (negative : Bool) (text : List Char) : List Char :=
  if negative then '-' :: text else text

theorem write_eq_signed (number : JsonNumber) :
    ∃ negative text, number.write = signed negative text ∧ IsLiteral text := by
  cases number with
  | integer whole =>
    have form := isLiteral_digits (digitsOf_ne_nil whole.value.natAbs) (digitsOf_digits _)
    by_cases negative : whole.value < 0
    · exact ⟨true, _, by simp [write, signed, negative], form⟩
    · exact ⟨false, _, by simp [write, signed, negative], form⟩
  | double value =>
    simp only [write]
    split
    · have form : IsLiteral ['0', '.', '0'] :=
        ⟨['0'], ['.', '0'], [], rfl, by simp, zeros_digits 1,
          Or.inr ⟨['0'], rfl, by simp, zeros_digits 1⟩, Or.inl rfl⟩
      split
      · exact ⟨true, _, rfl, form⟩
      · exact ⟨false, _, rfl, form⟩
    · have ending : IsFraction jsonLayout.whole := Or.inr ⟨['0'], rfl, by simp, zeros_digits 1⟩
      simp only [Layout.write]
      exact ⟨_, _, rfl, isLiteral_place jsonLayout _ ending (digitsOf_ne_nil _) (digitsOf_digits _)⟩

def readSigned? (text : List Char) : Option (JsonNumber × List Char) :=
  match text with
  | '-' :: unsigned => read? true unsigned
  | unsigned => read? false unsigned

def reread? (number : JsonNumber) : Option JsonNumber :=
  (readSigned? number.write).map Prod.fst

theorem isLiteral_cons {text : List Char} (form : IsLiteral text) :
    ∃ first others, text = first :: others ∧ isDigit first = true := by
  obtain ⟨whole, fraction, exponent, rfl, someDigits, allDigits, _⟩ := form
  obtain ⟨first, others, rfl⟩ := List.exists_cons_of_ne_nil someDigits
  exact ⟨first, others ++ (fraction ++ exponent), by simp, allDigits first (by simp)⟩

theorem readSigned?_signed (negative : Bool) {text : List Char} (form : IsLiteral text)
    (rest : List Char) :
    readSigned? (signed negative text ++ rest) = read? negative (text ++ rest) := by
  cases negative with
  | true => rfl
  | false =>
    obtain ⟨first, others, rfl, digit⟩ := isLiteral_cons form
    have noSign : first ≠ '-' := by
      rintro rfl
      exact absurd digit (by decide)
    simp [signed, readSigned?, noSign]

theorem readSigned?_write (number : JsonNumber) {rest : List Char} (ends : Ends rest) :
    readSigned? (number.write ++ rest) = number.reread?.map fun value => (value, rest) := by
  obtain ⟨negative, text, written, form⟩ := write_eq_signed number
  have alone := readSigned?_signed negative form []
  simp only [List.append_nil] at alone
  rw [reread?, written, readSigned?_signed negative form rest, alone,
    read?_append negative text ends]
  rcases read?_of_isLiteral negative form with failed | ⟨value, found⟩
  · simp [failed]
  · simp [found]

theorem le_digitsFold (digits : List Char) (start : Nat) :
    start ≤ digits.foldl (fun value digit => value * 10 + digitValue digit) start := by
  induction digits generalizing start with
  | nil => exact Nat.le_refl start
  | cons digit rest ih =>
    have further := ih (start * 10 + digitValue digit)
    simp only [List.foldl_cons]
    omega

theorem fillSignificand_of_le (digits : List Char) (start : Nat)
    (fits : digits.foldl (fun value digit => value * 10 + digitValue digit) start ≤
      maxSignificand) :
    fillSignificand start digits =
      (digits.foldl (fun value digit => value * 10 + digitValue digit) start, 0) := by
  induction digits generalizing start with
  | nil => rfl
  | cons digit rest ih =>
    have longer := le_digitsFold rest (start * 10 + digitValue digit)
    simp only [List.foldl_cons] at fits ⊢
    rw [fillSignificand, if_pos (Nat.le_trans longer fits)]
    exact ih _ fits

theorem digitsFold_digitsOf (value : Nat) :
    (digitsOf value).foldl (fun value digit => value * 10 + digitValue digit) 0 = value := by
  have same : Nat.ofDigitChars 10 (Nat.toDigits 10 value) 0 = value :=
    Nat.ofDigitChars_ten_toDigits
  rw [Nat.ofDigitChars_eq_foldl] at same
  simpa only [digitsOf, digitValue, Nat.mul_comm 10] using same

theorem digitsOf_head_ne_zero {value : Nat} (positive : 0 < value) :
    (digitsOf value).head? ≠ some '0' := by
  induction value using Nat.strongRecOn with
  | ind value ih =>
    by_cases single : value < 10
    · rw [digitsOf, Nat.toDigits_of_lt_base single]
      intro zero
      have smallDigits : ∀ digit < 10, 0 < digit → Nat.digitChar digit ≠ '0' := by decide
      exact smallDigits value single positive (by simpa using zero)
    · have shorter := ih (value / 10) (by omega) (by omega)
      obtain ⟨first, others, digits⟩ := List.exists_cons_of_ne_nil (digitsOf_ne_nil (value / 10))
      rw [digits] at shorter
      rw [digitsOf] at digits
      rw [digitsOf, Nat.toDigits_of_base_le (by decide) (by omega), digits]
      exact shorter

theorem digitsOf_noLeadingZero (value : Nat) :
    ¬(1 < (digitsOf value).length ∧ (digitsOf value).head? = some '0') := by
  rintro ⟨several, zero⟩
  have notPositive : ¬0 < value := fun positive => digitsOf_head_ne_zero positive zero
  have zeroValue : value = 0 := by omega
  rw [zeroValue, digitsOf, Nat.toDigits_zero] at several
  simp at several

theorem fillSignificand_digitsOf (whole : JsonInteger) :
    fillSignificand 0 (digitsOf whole.value.natAbs) = (whole.value.natAbs, 0) := by
  have lower := whole.lower
  have upper := whole.upper
  have fits : (digitsOf whole.value.natAbs).foldl
      (fun value digit => value * 10 + digitValue digit) 0 ≤ maxSignificand := by
    rw [digitsFold_digitsOf, maxSignificand]
    omega
  rw [fillSignificand_of_le _ 0 fits, digitsFold_digitsOf]

theorem ofParts?_digitsOf (whole : JsonInteger) :
    ofParts? (decide (whole.value < 0)) (digitsOf whole.value.natAbs) none none =
      some (.integer whole) := by
  have noNegativeZero : (decide (whole.value < 0) && whole.value.natAbs == 0) = false := by
    simp only [Bool.and_eq_false_imp, decide_eq_true_eq, beq_eq_false_iff_ne]
    omega
  have signedValue :
      (if whole.value < 0 then -(whole.value.natAbs : Int) else whole.value.natAbs) =
        whole.value := by
    split <;> omega
  have inRange : JsonInteger.ofInt? whole.value = some whole := by
    simp [JsonInteger.ofInt?, whole.lower, whole.upper]
  have isWhole : wholeOf? (decide (whole.value < 0)) true whole.value.natAbs 0 = some whole := by
    simp only [wholeOf?, noNegativeZero, beq_self_eq_true, Bool.and_self, Bool.not_false, if_true,
      decide_eq_true_eq, signedValue, inRange]
  simp only [ofParts?, fillSignificand_digitsOf, Option.isNone_none, Bool.and_self, isWhole]

theorem read?_digitsOf (whole : JsonInteger) :
    read? (decide (whole.value < 0)) (digitsOf whole.value.natAbs) =
      some (.integer whole, []) := by
  have wellFormed : ¬((digitsOf whole.value.natAbs).isEmpty = true ∨
      1 < (digitsOf whole.value.natAbs).length ∧
        (digitsOf whole.value.natAbs).head? = some '0') := by
    rw [not_or, List.isEmpty_iff]
    exact ⟨digitsOf_ne_nil _, digitsOf_noLeadingZero _⟩
  simp only [read?, span_digits_alone _ (digitsOf_digits _), wellFormed, if_false, fractionPart,
    exponentPart, Option.bind_eq_bind, Option.bind_some, ofParts?_digitsOf]
  rfl

theorem reread?_integer (whole : JsonInteger) :
    (JsonNumber.integer whole).reread? = some (.integer whole) := by
  have form := isLiteral_digits (digitsOf_ne_nil whole.value.natAbs) (digitsOf_digits _)
  have written : (JsonNumber.integer whole).write =
      signed (decide (whole.value < 0)) (digitsOf whole.value.natAbs) := by
    simp [write, signed]
  have read := readSigned?_signed (decide (whole.value < 0)) form []
  simp only [List.append_nil, read?_digitsOf whole] at read
  rw [reread?, written, read]
  rfl

end JsonNumber

end TableServer
