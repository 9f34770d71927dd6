import TableServer.Proofs.Where.DecimalLiterals

/-! The texts that stand for a number. Of a text, the white space at its ends is dropped; what is left
must be nothing, or a numeral. The white space is that of Unicode, and ECMAScript has another: a text
stands for a number under one and not under the other exactly when a byte order mark or a next-line
character, not both, is at its ends. -/

namespace TableServer

theorem trimBlanks_eq (text : List Char) :
    ∃ before after, text = before ++ (trimBlanks text ++ after) ∧
      ∀ c ∈ before ++ after, isBlank c = true := by
  refine ⟨text.takeWhile isBlank, ((text.dropWhile isBlank).reverse.takeWhile isBlank).reverse, ?_, ?_⟩
  · rw [trimBlanks, ← List.reverse_append, List.takeWhile_append_dropWhile, List.reverse_reverse,
      List.takeWhile_append_dropWhile]
  · intro c member
    rcases List.mem_append.mp member with first | last
    · exact List.mem_takeWhile_imp first
    · exact List.mem_takeWhile_imp (List.mem_reverse.mp last)

theorem dropBlanks_append {before text : List Char} (blank : ∀ c ∈ before, isBlank c = true)
    (stops : ∀ c, text.head? = some c → isBlank c = false) :
    (before ++ text).dropWhile isBlank = text := by
  rw [List.dropWhile_append_of_pos blank]
  cases text with
  | nil => rfl
  | cons c rest => rw [List.dropWhile_cons_of_neg (ne_true_of_eq_false (stops c rfl))]

theorem trimBlanks_append {before body after : List Char}
    (blank : ∀ c ∈ before ++ after, isBlank c = true) (clean : ∀ c ∈ body, isBlank c = false) :
    trimBlanks (before ++ (body ++ after)) = body := by
  have blankBefore c (member : c ∈ before) := blank c (List.mem_append_left after member)
  have blankAfter c (member : c ∈ after) := blank c (List.mem_append_right before member)
  rw [trimBlanks]
  cases body with
  | nil =>
    have none : (before ++ ([] ++ after)).dropWhile isBlank = [] :=
      List.dropWhile_eq_nil_iff.mpr blank
    rw [none]
    rfl
  | cons first rest =>
    have stopsFirst : ∀ c, ((first :: rest) ++ after).head? = some c → isBlank c = false := by
      rintro c ⟨⟩
      exact clean _ List.mem_cons_self
    have stopsLast : ∀ c, (first :: rest).reverse.head? = some c → isBlank c = false := by
      intro c head
      exact clean c (List.mem_reverse.mp (List.mem_of_mem_head? head))
    rw [dropBlanks_append blankBefore stopsFirst, List.reverse_append,
      dropBlanks_append (fun c member => blankAfter c (List.mem_reverse.mp member)) stopsLast,
      List.reverse_reverse]

namespace Double

theorem ofRatio_ne_nan (negative : Bool) (numerator denominator : ℕ) :
    ofRatio negative numerator denominator ≠ .nan := by
  have parts (significand scale : ℕ) : ofParts negative significand scale ≠ .nan := by
    rw [ofParts]
    split <;> simp
  simp only [ofRatio, ofUnits, ofRounded]
  split
  · exact parts _ _
  · exact parts _ _

end Double

theorem Decimal.toDouble_ne_nan (value : Decimal) : value.toDouble ≠ .nan := by
  rw [toDouble]
  split
  · simp
  · split
    · simp
    · split
      · simp
      · exact Double.ofRatio_ne_nan _ _ _

namespace NumberText

open JsonNumber (SignSpelling ExponentSpelling IsDigits continues)

inductive Radix where
  | binary
  | octal
  | hexadecimal

namespace Radix

def base : Radix → ℕ
  | binary => 2
  | octal => 8
  | hexadecimal => 16

def marks : Radix → List Char
  | binary => ['b', 'B']
  | octal => ['o', 'O']
  | hexadecimal => ['x', 'X']

def digits : Radix → List Char
  | binary => "01".toList
  | octal => "01234567".toList
  | hexadecimal => "0123456789abcdefABCDEF".toList

end Radix

/-- The literals of a number: an infinity, digits behind the mark of their radix, a decimal literal. -/
inductive Numeral : List Char → Prop where
  | infinity {negative : Bool} {sign : List Char} (signed : SignSpelling negative sign) :
      Numeral (sign ++ "Infinity".toList)
  | radix {mark : Char} {digits : List Char} (radix : Radix) (isMark : mark ∈ radix.marks)
      (someDigits : digits ≠ []) (allDigits : ∀ c ∈ digits, c ∈ radix.digits) :
      Numeral ('0' :: mark :: digits)
  | decimal {value : Decimal} {text : List Char} (spelling : DecimalSpelling value text) :
      Numeral text

def Framed (edges text : List Char) : Prop :=
  ∃ before body after, text = before ++ (body ++ after) ∧ edges = before ++ after ∧
    (body = [] ∨ Numeral body)

/-- A text that stands for a number, given what counts as a space. -/
def IsNumeric (space : Char → Bool) (text : List Char) : Prop :=
  ∃ edges, Framed edges text ∧ ∀ c ∈ edges, space c = true

/-- The white space and the line ends of ECMAScript. -/
def isScriptSpace (c : Char) : Bool :=
  let code := c.toNat
  (decide (0x9 ≤ code) && decide (code ≤ 0xD)) || code == 0x20 || code == 0xA0 || code == 0x1680 ||
    (decide (0x2000 ≤ code) && decide (code ≤ 0x200A)) || code == 0x2028 || code == 0x2029 ||
    code == 0x202F || code == 0x205F || code == 0x3000 || code == 0xFEFF

def byteOrderMark : Char := Char.ofNat 0xFEFF

def nextLine : Char := Char.ofNat 0x85

section Spaces

theorem isBlank_iff (c : Char) : isBlank c = true ↔
    (0x9 ≤ c.toNat ∧ c.toNat ≤ 0xD) ∨ c.toNat = 0x20 ∨ c.toNat = 0x85 ∨ c.toNat = 0xA0 ∨
      c.toNat = 0x1680 ∨ (0x2000 ≤ c.toNat ∧ c.toNat ≤ 0x200A) ∨ c.toNat = 0x2028 ∨
      c.toNat = 0x2029 ∨ c.toNat = 0x202F ∨ c.toNat = 0x205F ∨ c.toNat = 0x3000 := by
  simp [isBlank, or_assoc]

theorem isScriptSpace_iff (c : Char) : isScriptSpace c = true ↔
    (0x9 ≤ c.toNat ∧ c.toNat ≤ 0xD) ∨ c.toNat = 0x20 ∨ c.toNat = 0xA0 ∨ c.toNat = 0x1680 ∨
      (0x2000 ≤ c.toNat ∧ c.toNat ≤ 0x200A) ∨ c.toNat = 0x2028 ∨ c.toNat = 0x2029 ∨
      c.toNat = 0x202F ∨ c.toNat = 0x205F ∨ c.toNat = 0x3000 ∨ c.toNat = 0xFEFF := by
  simp [isScriptSpace, or_assoc]

theorem eq_byteOrderMark_iff (c : Char) : c = byteOrderMark ↔ c.toNat = 0xFEFF := by
  rw [← Char.toNat_inj]
  rfl

theorem eq_nextLine_iff (c : Char) : c = nextLine ↔ c.toNat = 0x85 := by
  rw [← Char.toNat_inj]
  rfl

def IsSpace (c : Char) : Prop := isBlank c = true ∨ isScriptSpace c = true

theorem IsSpace.kinds {c : Char} (space : IsSpace c) :
    (isBlank c = true ↔ c ≠ byteOrderMark) ∧ (isScriptSpace c = true ↔ c ≠ nextLine) := by
  rw [IsSpace, isBlank_iff, isScriptSpace_iff] at space
  rw [isBlank_iff, isScriptSpace_iff, ne_eq, ne_eq, eq_byteOrderMark_iff, eq_nextLine_iff]
  omega

def isPlain (c : Char) : Bool := decide (0x21 ≤ c.toNat) && decide (c.toNat ≤ 0x7E)

theorem IsSpace.not_plain {c : Char} (space : IsSpace c) : isPlain c = false := by
  rw [IsSpace, isBlank_iff, isScriptSpace_iff] at space
  rw [isPlain, Bool.and_eq_false_iff, decide_eq_false_iff_not, decide_eq_false_iff_not]
  omega

end Spaces

section Plain

theorem continues_of_digit {c : Char} (digit : isDigit c = true) : continues c = true := by
  simp [continues, digit]

theorem continues_of_sign {negative : Bool} {sign : List Char} (signed : SignSpelling negative sign) :
    ∀ c ∈ sign, continues c = true := by
  cases signed <;> simp [continues]

theorem continues_of_point {fraction text : List Char} (pointed : PointSpelling fraction text) :
    ∀ c ∈ text, continues c = true := by
  cases pointed with
  | absent => simp
  | present allDigits =>
    rw [List.forall_mem_cons]
    exact ⟨by decide, fun c member => continues_of_digit (allDigits c member)⟩

theorem continues_of_exponent {exponent : Option ℤ} {text : List Char}
    (scaled : ExponentSpelling exponent text) : ∀ c ∈ text, continues c = true := by
  cases scaled with
  | absent => simp
  | present isMark signed form =>
    rw [List.forall_mem_cons, List.forall_mem_append]
    refine ⟨?_, continues_of_sign signed, fun c member => continues_of_digit (form.2 c member)⟩
    rcases isMark with rfl | rfl <;> decide

theorem DecimalSpelling.continues {value : Decimal} {text : List Char}
    (spelling : DecimalSpelling value text) : ∀ c ∈ text, continues c = true := by
  cases spelling with
  | parts signed wholeDigits pointed _ scaled =>
    rw [List.forall_mem_append, List.forall_mem_append, List.forall_mem_append]
    exact ⟨continues_of_sign signed, fun c member => continues_of_digit (wholeDigits c member),
      continues_of_point pointed, continues_of_exponent scaled⟩

theorem DecimalSpelling.ne_nil {value : Decimal} {text : List Char}
    (spelling : DecimalSpelling value text) : text ≠ [] := by
  cases spelling with
  | parts _ _ pointed someDigits _ =>
    cases pointed with
    | absent =>
      have someWhole := someDigits.resolve_right (fun noFraction => noFraction rfl)
      simp [someWhole]
    | present => simp

theorem ascii_forall {P : Char → Prop} (all : ∀ code < 128, P (Char.ofNat code)) (c : Char)
    (ascii : c.toNat < 128) : P c := by
  rw [← Char.ofNat_toNat c]
  exact all c.toNat ascii

theorem isPlain_of_continues {c : Char} (isPart : continues c = true) : isPlain c = true := by
  have ascii : c.toNat < 128 := by
    simp only [JsonNumber.continues, isDigit, Bool.or_eq_true, Bool.and_eq_true, decide_eq_true_eq,
      beq_iff_eq, Char.le_def, UInt32.le_iff_toNat_le] at isPart
    rcases isPart with ((((⟨_, high⟩ | rfl) | rfl) | rfl) | rfl) | rfl
    · have high : c.toNat ≤ 57 := high
      omega
    all_goals decide
  exact ascii_forall (P := fun c => continues c = true → isPlain c = true) (by decide) c ascii isPart

theorem Radix.isPlain_of_mem (radix : Radix) :
    (∀ mark ∈ radix.marks, isPlain mark = true) ∧ ∀ c ∈ radix.digits, isPlain c = true := by
  rw [← List.all_eq_true, ← List.all_eq_true]
  cases radix <;> decide

theorem Numeral.isPlain {text : List Char} (numeral : Numeral text) :
    ∀ c ∈ text, isPlain c = true := by
  cases numeral with
  | infinity signed =>
    have plainWord : "Infinity".toList.all NumberText.isPlain = true := by decide
    rw [List.forall_mem_append, ← List.all_eq_true (l := "Infinity".toList)]
    exact ⟨fun c member => isPlain_of_continues (continues_of_sign signed c member), plainWord⟩
  | radix radix isMark _ allDigits =>
    rw [List.forall_mem_cons, List.forall_mem_cons]
    obtain ⟨plainMarks, plainDigits⟩ := radix.isPlain_of_mem
    exact ⟨by decide, plainMarks _ isMark, fun c member => plainDigits c (allDigits c member)⟩
  | decimal spelling => exact fun c member => isPlain_of_continues (spelling.continues c member)

theorem isPlain_of_body {body : List Char} (isBody : body = [] ∨ Numeral body) :
    ∀ c ∈ body, NumberText.isPlain c = true := by
  rcases isBody with rfl | numeral
  · simp
  · exact numeral.isPlain

theorem trimBlanks_body {before body after : List Char} (isBody : body = [] ∨ Numeral body)
    (blank : ∀ c ∈ before ++ after, isBlank c = true) : trimBlanks (before ++ (body ++ after)) = body := by
  refine trimBlanks_append blank fun c member => ?_
  rw [Bool.eq_false_iff]
  intro isSpace
  have plain := isPlain_of_body isBody c member
  rw [IsSpace.not_plain (Or.inl isSpace)] at plain
  cases plain

theorem filter_of_edges {before body after : List Char} (plain : ∀ c ∈ body, isPlain c = true)
    (spaces : ∀ c ∈ before ++ after, isPlain c = false) :
    (before ++ (body ++ after)).filter (!isPlain ·) = before ++ after := by
  have keeps {edge : List Char} (spaces : ∀ c ∈ edge, isPlain c = false) :
      edge.filter (!isPlain ·) = edge := by
    rw [List.filter_eq_self]
    intro c member
    rw [spaces c member]
    rfl
  have drops : body.filter (!isPlain ·) = [] := by
    rw [List.filter_eq_nil_iff]
    intro c member
    rw [plain c member]
    decide
  rw [List.filter_append, List.filter_append, drops,
    keeps fun c member => spaces c (List.mem_append_left after member),
    keeps fun c member => spaces c (List.mem_append_right before member), List.nil_append]

end Plain

theorem isNumeric_iff_of_framed {edges text : List Char} (framed : Framed edges text)
    (spaces : ∀ c ∈ edges, IsSpace c) {space : Char → Bool} (isSpace : ∀ c, space c = true → IsSpace c) :
    IsNumeric space text ↔ ∀ c ∈ edges, space c = true := by
  constructor
  · rintro ⟨edges', ⟨before', body', after', split', rfl, isBody'⟩, spaces'⟩
    obtain ⟨before, body, after, rfl, rfl, isBody⟩ := framed
    have same := filter_of_edges (isPlain_of_body isBody) fun c member => (spaces c member).not_plain
    rw [split', filter_of_edges (isPlain_of_body isBody')
      fun c member => (isSpace c (spaces' c member)).not_plain] at same
    rwa [← same]
  · intro spaces
    exact ⟨edges, framed, spaces⟩

section Difference

variable {edges text : List Char}

theorem isNumeric_isBlank_iff (framed : Framed edges text) (spaces : ∀ c ∈ edges, IsSpace c) :
    IsNumeric isBlank text ↔ byteOrderMark ∉ edges := by
  rw [isNumeric_iff_of_framed framed spaces fun _ => Or.inl]
  constructor
  · intro blank member
    exact (spaces _ member).kinds.1.mp (blank _ member) rfl
  · intro absent c member
    refine (spaces c member).kinds.1.mpr ?_
    rintro rfl
    exact absent member

theorem isNumeric_isScriptSpace_iff (framed : Framed edges text) (spaces : ∀ c ∈ edges, IsSpace c) :
    IsNumeric isScriptSpace text ↔ nextLine ∉ edges := by
  rw [isNumeric_iff_of_framed framed spaces fun _ => Or.inr]
  constructor
  · intro script member
    exact (spaces _ member).kinds.2.mp (script _ member) rfl
  · intro absent c member
    refine (spaces c member).kinds.2.mpr ?_
    rintro rfl
    exact absent member

theorem isNumeric_differ_iff (text : List Char) :
    ¬(IsNumeric isBlank text ↔ IsNumeric isScriptSpace text) ↔
      ∃ edges, Framed edges text ∧ (∀ c ∈ edges, IsSpace c) ∧
        (byteOrderMark ∈ edges ↔ nextLine ∉ edges) := by
  constructor
  · intro differ
    obtain ⟨edges, framed, spaces⟩ : ∃ edges, Framed edges text ∧ ∀ c ∈ edges, IsSpace c := by
      by_contra noEdges
      refine differ (iff_of_false ?_ ?_)
      · rintro ⟨edges, framed, blank⟩
        exact noEdges ⟨edges, framed, fun c member => Or.inl (blank c member)⟩
      · rintro ⟨edges, framed, script⟩
        exact noEdges ⟨edges, framed, fun c member => Or.inr (script c member)⟩
    rw [isNumeric_isBlank_iff framed spaces, isNumeric_isScriptSpace_iff framed spaces, not_iff,
      not_not] at differ
    exact ⟨edges, framed, spaces, differ⟩
  · rintro ⟨edges, framed, spaces, oneOnly⟩
    rw [isNumeric_isBlank_iff framed spaces, isNumeric_isScriptSpace_iff framed spaces, not_iff,
      not_not]
    exact oneOnly

end Difference

section Reading

theorem toNat_lt_of_isPlain {c : Char} (plain : NumberText.isPlain c = true) : c.toNat < 128 := by
  rw [NumberText.isPlain, Bool.and_eq_true, decide_eq_true_eq, decide_eq_true_eq] at plain
  omega

theorem digit?_of_not_ascii (radix : ℕ) {c : Char} (wide : 128 ≤ c.toNat) : digit? radix c = none := by
  have above (last : Char) (ascii : last.toNat < 128) : ¬c ≤ last := by
    rw [Char.le_def, UInt32.le_iff_toNat_le]
    exact Nat.not_le.mpr (Nat.lt_of_lt_of_le ascii wide)
  simp [digit?, above '9' (by decide), above 'f' (by decide), above 'F' (by decide)]

theorem digit?_eq_none_iff (radix : Radix) (c : Char) :
    digit? radix.base c = none ↔ c ∉ radix.digits := by
  by_cases ascii : c.toNat < 128
  · refine ascii_forall (P := fun c => digit? radix.base c = none ↔ c ∉ radix.digits) ?_ c ascii
    cases radix <;> decide +kernel
  · refine iff_of_true (digit?_of_not_ascii _ (Nat.not_lt.mp ascii)) fun member => ascii ?_
    exact toNat_lt_of_isPlain (radix.isPlain_of_mem.2 c member)

theorem append_ne_nan (radix : ℕ) {value : Double} (number : value ≠ .nan) (digit : ℕ) :
    append radix value digit ≠ .nan := by
  cases value with
  | nan => exact absurd rfl number
  | infinite => simp [append]
  | finite => exact Double.ofRatio_ne_nan _ _ _

theorem foldl_append_ne_nan (radix : ℕ) (values : List ℕ) {start : Double} (number : start ≠ .nan) :
    values.foldl (append radix) start ≠ .nan := by
  induction values generalizing start with
  | nil => exact number
  | cons digit rest ih => exact ih (append_ne_nan radix number digit)

theorem mapM_eq_none_iff {α β : Type} (find? : α → Option β) (items : List α) :
    items.mapM find? = none ↔ ∃ item ∈ items, find? item = none := by
  induction items with
  | nil => simp
  | cons item rest ih =>
    simp only [List.mem_cons, exists_eq_or_imp, ← ih, List.mapM_cons]
    cases find? item with
    | none => simp
    | some value => cases rest.mapM find? <;> simp

theorem readRadix_eq_nan_iff (radix : Radix) (digits : List Char) :
    readRadix radix.base digits = .nan ↔ digits = [] ∨ ∃ c ∈ digits, c ∉ radix.digits := by
  simp only [← digit?_eq_none_iff, ← mapM_eq_none_iff, readRadix, List.isEmpty_iff]
  by_cases noDigits : digits = []
  · simp [noDigits]
  · rw [if_neg noDigits]
    cases digits.mapM (digit? radix.base) with
    | none => simp
    | some values =>
      have number : values.foldl (append radix.base) .zero ≠ .nan :=
        foldl_append_ne_nan radix.base values (by simp [Double.zero])
      simp [noDigits, number]

theorem read_of_nil {text : List Char} (trimmed : trimBlanks text = []) : read text = .zero := by
  simp [read, trimmed]

theorem read_of_infinity {text sign : List Char} {negative : Bool} (signed : SignSpelling negative sign)
    (trimmed : trimBlanks text = sign ++ "Infinity".toList) : read text = .infinite negative := by
  cases signed <;> simp [read, trimmed]

theorem read_of_radix {text digits : List Char} {mark : Char} (radix : Radix)
    (isMark : mark ∈ radix.marks) (trimmed : trimBlanks text = '0' :: mark :: digits) :
    read text = readRadix radix.base digits := by
  cases radix <;> simp only [Radix.marks, List.mem_cons, List.not_mem_nil, or_false] at isMark <;>
    rcases isMark with rfl | rfl <;> simp [read, trimmed, Radix.base]

theorem read_of_other {text : List Char} (notNil : trimBlanks text ≠ [])
    (notInfinity : ∀ negative sign, SignSpelling negative sign →
      trimBlanks text ≠ sign ++ "Infinity".toList)
    (notRadix : ∀ (radix : Radix) mark digits, mark ∈ radix.marks →
      trimBlanks text ≠ '0' :: mark :: digits) :
    read text = ((decimal? (trimBlanks text)).map Decimal.toDouble).getD .nan := by
  have notPlain : ¬(trimBlanks text = "Infinity".toList ∨ trimBlanks text = "+Infinity".toList) :=
    not_or.mpr ⟨notInfinity false [] .unsigned, notInfinity false ['+'] .plus⟩
  have notMinus : trimBlanks text ≠ "-Infinity".toList := notInfinity true ['-'] .minus
  simp only [read, List.isEmpty_iff, notNil, notPlain, notMinus, if_false]
  split
  · exact absurd ‹_› (notRadix .hexadecimal 'x' _ (by decide))
  · exact absurd ‹_› (notRadix .hexadecimal 'X' _ (by decide))
  · exact absurd ‹_› (notRadix .octal 'o' _ (by decide))
  · exact absurd ‹_› (notRadix .octal 'O' _ (by decide))
  · exact absurd ‹_› (notRadix .binary 'b' _ (by decide))
  · exact absurd ‹_› (notRadix .binary 'B' _ (by decide))
  · cases decimal? (trimBlanks text) <;> rfl

theorem read_of_spelling {text body : List Char} {value : Decimal}
    (spelling : DecimalSpelling value body) (trimmed : trimBlanks text = body) :
    read text = value.toDouble := by
  subst trimmed
  have parts := spelling.continues
  rw [read_of_other spelling.ne_nil, (decimal?_eq_some_iff _ _).mpr spelling]
  · rfl
  · intro negative sign _ infinity
    have letter : JsonNumber.continues 'I' = true := parts 'I' (by simp [infinity])
    exact absurd letter (by decide)
  · intro radix mark digits isMark prefixed
    have letter : JsonNumber.continues mark = true := parts mark (by simp [prefixed])
    have noPart : radix.marks.all (!JsonNumber.continues ·) = true := by
      cases radix <;> decide
    have notLetter := List.all_eq_true.mp noPart mark isMark
    rw [letter] at notLetter
    cases notLetter

theorem read_literal {text : List Char} {value : Decimal} (spelling : DecimalSpelling value text) :
    read text = value.toDouble := by
  refine read_of_spelling spelling ?_
  have trimmed : trimBlanks ([] ++ (text ++ [])) = text :=
    trimBlanks_body (Or.inr (.decimal spelling)) (by simp)
  rwa [List.nil_append, List.append_nil] at trimmed

theorem read_ne_nan_of_numeral {text : List Char} (numeral : Numeral (trimBlanks text)) :
    read text ≠ .nan := by
  generalize trimmed : trimBlanks text = body at numeral
  cases numeral with
  | infinity signed =>
    rw [read_of_infinity signed trimmed]
    simp
  | radix radix isMark someDigits allDigits =>
    rw [read_of_radix radix isMark trimmed, ne_eq, readRadix_eq_nan_iff]
    push Not
    exact ⟨someDigits, allDigits⟩
  | decimal spelling =>
    rw [read_of_spelling spelling trimmed]
    exact Decimal.toDouble_ne_nan _

theorem numeral_of_read_ne_nan {text : List Char} (notNil : trimBlanks text ≠ [])
    (number : read text ≠ .nan) : Numeral (trimBlanks text) := by
  by_contra noNumeral
  refine number ?_
  by_cases prefixed : ∃ (radix : Radix) (mark : Char) (digits : List Char),
      mark ∈ radix.marks ∧ trimBlanks text = '0' :: mark :: digits
  · obtain ⟨radix, mark, digits, isMark, trimmed⟩ := prefixed
    rw [read_of_radix radix isMark trimmed, readRadix_eq_nan_iff]
    by_contra! isNumber
    rw [trimmed] at noNumeral
    exact noNumeral (.radix radix isMark isNumber.1 isNumber.2)
  · rw [read_of_other notNil]
    · cases found : decimal? (trimBlanks text) with
      | none => rfl
      | some value => exact absurd (.decimal ((decimal?_eq_some_iff _ _).mp found)) noNumeral
    · intro negative sign signed trimmed
      rw [trimmed] at noNumeral
      exact noNumeral (.infinity signed)
    · intro radix mark digits isMark trimmed
      exact prefixed ⟨radix, mark, digits, isMark, trimmed⟩

theorem read_ne_nan_iff (text : List Char) :
    read text ≠ .nan ↔ trimBlanks text = [] ∨ Numeral (trimBlanks text) := by
  constructor
  · intro number
    by_cases isNil : trimBlanks text = []
    · exact Or.inl isNil
    · exact Or.inr (numeral_of_read_ne_nan isNil number)
  · rintro (isNil | numeral)
    · rw [read_of_nil isNil]
      simp [Double.zero]
    · exact read_ne_nan_of_numeral numeral

theorem isNumeric_isBlank_iff_trimBlanks (text : List Char) :
    IsNumeric isBlank text ↔ trimBlanks text = [] ∨ Numeral (trimBlanks text) := by
  constructor
  · rintro ⟨edges, ⟨before, body, after, rfl, rfl, isBody⟩, blank⟩
    rwa [trimBlanks_body isBody blank]
  · intro isBody
    obtain ⟨before, after, split, blank⟩ := trimBlanks_eq text
    exact ⟨before ++ after, ⟨before, _, after, split, rfl, isBody⟩, blank⟩

/-- A text is read as a number exactly when it is a numeral or nothing within white space of Unicode.
ECMAScript has the byte order mark as white space and the next-line character not, so it takes another
view of the texts that have exactly one of the two at their ends, and of no other text. -/
theorem read_isNumber_iff (text : List Char) :
    (read text ≠ .nan ↔ IsNumeric isBlank text) ∧
    (¬(read text ≠ .nan ↔ IsNumeric isScriptSpace text) ↔
      ∃ edges, Framed edges text ∧ (∀ c ∈ edges, IsSpace c) ∧
        (byteOrderMark ∈ edges ↔ nextLine ∉ edges)) := by
  have isNumber := (read_ne_nan_iff text).trans (isNumeric_isBlank_iff_trimBlanks text).symm
  refine ⟨isNumber, ?_⟩
  rw [isNumber]
  exact isNumeric_differ_iff text

end Reading

end NumberText

end TableServer
