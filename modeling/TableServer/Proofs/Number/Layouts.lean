import Mathlib.Data.List.Induction
import Mathlib.Tactic.Ring
import TableServer.Proofs.Json.Literals

/-! Digits as numbers, and the four forms in which digits and a point are laid out. The forms are stated
with the zeros counted and the digits split, without subtraction. -/

namespace TableServer

theorem digitsFold_eq (digits : List Char) (start : ℕ) :
    digits.foldl (fun value digit => value * 10 + digitValue digit) start =
      start * 10 ^ digits.length + digitsValue digits := by
  induction digits generalizing start with
  | nil => simp [digitsValue]
  | cons digit rest ih =>
    rw [digitsValue, List.foldl_cons, List.foldl_cons, ih, ih (0 * 10 + digitValue digit),
      List.length_cons, Nat.pow_succ]
    ring

theorem digitsValue_append (first second : List Char) :
    digitsValue (first ++ second) = digitsValue first * 10 ^ second.length + digitsValue second := by
  rw [digitsValue, List.foldl_append, digitsFold_eq]
  rfl

theorem digitsValue_zeros (count : ℕ) : digitsValue (List.replicate count '0') = 0 := by
  induction count with
  | zero => rfl
  | succ count ih => rw [List.replicate_succ', digitsValue_append, ih]; rfl

theorem digitsValue_zeros_append (count : ℕ) (digits : List Char) :
    digitsValue (List.replicate count '0' ++ digits) = digitsValue digits := by
  rw [digitsValue_append, digitsValue_zeros, Nat.zero_mul, Nat.zero_add]

theorem digitsValue_append_zeros (digits : List Char) (count : ℕ) :
    digitsValue (digits ++ List.replicate count '0') = digitsValue digits * 10 ^ count := by
  rw [digitsValue_append, digitsValue_zeros, List.length_replicate, Nat.add_zero]

theorem digitsValue_digitsOf (value : ℕ) : digitsValue (digitsOf value) = value :=
  JsonNumber.digitsFold_digitsOf value

theorem digitChar_digitValue {c : Char} (digit : isDigit c = true) :
    digitValue c < 10 ∧ Nat.digitChar (digitValue c) = c := by
  simp only [isDigit, Bool.and_eq_true, decide_eq_true_eq, Char.le_def, UInt32.le_iff_toNat_le]
    at digit
  have low : 48 ≤ c.toNat := digit.1
  have high : c.toNat ≤ 57 := digit.2
  have same : c = Char.ofNat c.toNat := (Char.ofNat_toNat c).symm
  have all : ∀ code < 58, 48 ≤ code → digitValue (Char.ofNat code) < 10 ∧
      Nat.digitChar (digitValue (Char.ofNat code)) = Char.ofNat code := by decide
  rw [same]
  exact all c.toNat (by omega) low

theorem digitsValue_pos {first : Char} (rest : List Char) (digit : isDigit first = true)
    (notZero : first ≠ '0') : 0 < digitsValue (first :: rest) := by
  have split := digitsValue_append [first] rest
  have single : digitsValue [first] = digitValue first := by simp [digitsValue]
  have positive : 0 < digitValue first := by
    refine Nat.pos_of_ne_zero fun zero => notZero ?_
    have back := (digitChar_digitValue digit).2
    rw [zero] at back
    exact back.symm
  rw [List.singleton_append, single] at split
  rw [split]
  have power := Nat.mul_pos positive (Nat.pow_pos (n := rest.length) (show 0 < 10 by decide))
  omega

theorem digitsOf_digitsValue {first : Char} (rest : List Char) (digit : isDigit first = true)
    (notZero : first ≠ '0') (restDigits : ∀ c ∈ rest, isDigit c = true) :
    digitsOf (digitsValue (first :: rest)) = first :: rest := by
  induction rest using List.reverseRecOn with
  | nil =>
    obtain ⟨small, back⟩ := digitChar_digitValue digit
    have single : digitsValue [first] = digitValue first := by simp [digitsValue]
    rw [single, digitsOf, Nat.toDigits_of_lt_base small, back]
  | append_singleton rest last ih =>
    have shorter := ih fun c member => restDigits c (List.mem_append_left _ member)
    obtain ⟨small, back⟩ := digitChar_digitValue (restDigits last (by simp))
    have positive := digitsValue_pos rest digit notZero
    have value : digitsValue (first :: (rest ++ [last])) =
        digitsValue (first :: rest) * 10 + digitValue last := by
      have split := digitsValue_append (first :: rest) [last]
      have single : digitsValue [last] = digitValue last := by simp [digitsValue]
      rwa [single, List.cons_append, List.length_singleton, Nat.pow_one] at split
    rw [value, digitsOf, Nat.toDigits_of_base_le (by decide) (by omega)]
    have quotient : (digitsValue (first :: rest) * 10 + digitValue last) / 10 =
        digitsValue (first :: rest) := by omega
    have remainder : (digitsValue (first :: rest) * 10 + digitValue last) % 10 = digitValue last := by
      omega
    rw [quotient, remainder, back]
    rw [digitsOf] at shorter
    rw [shorter, List.cons_append]

namespace Layout

/-- The four forms of a number, by where the point stands: behind the digits and some zeros, among the
digits, in front of some zeros and the digits; or there is an exponent. -/
inductive LaidOut (layout : Layout) (digits : List Char) (point : ℤ) : List Char → Prop where
  | padded (zeros : ℕ) (position : point = digits.length + zeros) (low : point ≤ layout.highest) :
      LaidOut layout digits point (digits ++ List.replicate zeros '0' ++ layout.whole)
  | divided {whole fraction : List Char} (split : digits = whole ++ fraction)
      (someWhole : whole ≠ []) (someFraction : fraction ≠ []) (position : point = whole.length)
      (low : point ≤ layout.highest) : LaidOut layout digits point (whole ++ '.' :: fraction)
  | leading (zeros : ℕ) (position : point = -zeros) (high : layout.lowest < point) :
      LaidOut layout digits point ('0' :: '.' :: (List.replicate zeros '0' ++ digits))
  | scientific {first : Char} {rest : List Char} (split : digits = first :: rest)
      (outside : point ≤ layout.lowest ∨ layout.highest < point) :
      LaidOut layout digits point
        (first :: ((if rest = [] then [] else '.' :: rest) ++
          'e' :: (if point - 1 < 0 then '-' else '+') :: digitsOf (point - 1).natAbs))

theorem laidOut_place (layout : Layout) {digits : List Char} (someDigits : digits ≠ []) (point : ℤ) :
    LaidOut layout digits point (layout.place digits point) := by
  have count := List.length_pos_iff.mpr someDigits
  simp only [place]
  split
  · exact .padded (point - digits.length).toNat (by omega) (by omega)
  · split
    · have split := (List.take_append_drop point.toNat digits).symm
      refine .divided split ?_ ?_ ?_ (by omega)
      · rw [← List.length_pos_iff, List.length_take]
        omega
      · rw [← List.length_pos_iff, List.length_drop]
        omega
      · rw [List.length_take]
        omega
    · split
      · exact .leading (-point).toNat (by omega) (by omega)
      · obtain ⟨first, rest, rfl⟩ := List.exists_cons_of_ne_nil someDigits
        have outside : point ≤ layout.lowest ∨ layout.highest < point := by omega
        cases rest with
        | nil => exact .scientific rfl outside
        | cons second others => exact .scientific rfl outside

end Layout

end TableServer
