import TableServer.Proofs.Text.UnitOrder
import TableServer.Text.Utf8

/-! Decoding undoes encoding. The bytes of a character are never broken: the first one tells how
many follow, and each that follows is within the bounds that are set for it. -/

namespace TableServer

def continuation (bits : Nat) : UInt8 := UInt8.ofNat (bits % 0x40 + 0x80)

theorem toNat_continuation (bits : Nat) : (continuation bits).toNat = bits % 0x40 + 0x80 := by
  rw [continuation, UInt8.toNat_ofNat']
  omega

namespace Utf8State

theorem run_continuation {left low high code bits : Nat}
    (fits : low ≤ bits % 0x40 + 0x80 ∧ bits % 0x40 + 0x80 ≤ high) (rest : List UInt8) :
    (pending left low high code).run (continuation bits :: rest) =
      if left ≤ 1 then Char.ofNat (code * 0x40 + bits % 0x40) :: ready.run rest
      else (pending (left - 1) 0x80 0xBF (code * 0x40 + bits % 0x40)).run rest := by
  have sixBits : (bits % 0x40 + 0x80) % 0x40 = bits % 0x40 := by omega
  simp only [run, step, toNat_continuation, if_pos fits, sixBits]
  split <;> rfl

theorem run_continuation_free {left code : Nat} (bits : Nat) (rest : List UInt8) :
    (pending left 0x80 0xBF code).run (continuation bits :: rest) =
      if left ≤ 1 then Char.ofNat (code * 0x40 + bits % 0x40) :: ready.run rest
      else (pending (left - 1) 0x80 0xBF (code * 0x40 + bits % 0x40)).run rest :=
  run_continuation (by omega) rest

theorem run_begin_one {code : Nat} (bound : code < 0x80) (rest : List UInt8) :
    ready.run (UInt8.ofNat code :: rest) = Char.ofNat code :: ready.run rest := by
  have small : code < 0x100 := by omega
  simp only [run, step, UInt8.toNat_ofNat_of_lt' small, begin, if_pos bound]
  rfl

theorem run_begin_two {bits : Nat} (bound : 2 ≤ bits ∧ bits < 0x20) (rest : List UInt8) :
    ready.run (UInt8.ofNat (bits + 0xC0) :: rest) = (pending 1 0x80 0xBF bits).run rest := by
  have small : bits + 0xC0 < 0x100 := by omega
  have begins : begin (bits + 0xC0) = (pending 1 0x80 0xBF bits, []) := by
    rw [begin, if_neg (by omega), if_pos (by omega), Nat.add_sub_cancel]
  simp only [run, step, UInt8.toNat_ofNat_of_lt' small, begins, List.nil_append]

theorem run_begin_three {bits : Nat} (bound : bits < 0x10) (rest : List UInt8) :
    ready.run (UInt8.ofNat (bits + 0xE0) :: rest) =
      (pending 2 (if bits = 0 then 0xA0 else 0x80) (if bits = 0xD then 0x9F else 0xBF) bits).run
        rest := by
  have small : bits + 0xE0 < 0x100 := by omega
  have begins : begin (bits + 0xE0) = (pending 2 (if bits = 0 then 0xA0 else 0x80)
      (if bits = 0xD then 0x9F else 0xBF) bits, []) := by
    rw [begin, if_neg (by omega), if_neg (by omega), if_pos (by omega), Nat.add_sub_cancel]
    simp
  simp only [run, step, UInt8.toNat_ofNat_of_lt' small, begins, List.nil_append]

theorem run_begin_four {bits : Nat} (bound : bits < 5) (rest : List UInt8) :
    ready.run (UInt8.ofNat (bits + 0xF0) :: rest) =
      (pending 3 (if bits = 0 then 0x90 else 0x80) (if bits = 4 then 0x8F else 0xBF) bits).run
        rest := by
  have small : bits + 0xF0 < 0x100 := by omega
  have begins : begin (bits + 0xF0) = (pending 3 (if bits = 0 then 0x90 else 0x80)
      (if bits = 4 then 0x8F else 0xBF) bits, []) := by
    rw [begin, if_neg (by omega), if_neg (by omega), if_neg (by omega), if_pos (by omega),
      Nat.add_sub_cancel]
    simp
  simp only [run, step, UInt8.toNat_ofNat_of_lt' small, begins, List.nil_append]

/-- The bytes of a character are read as this character, whatever follows them. -/
theorem run_utf8EncodeChar (c : Char) (rest : List UInt8) :
    ready.run (String.utf8EncodeChar c ++ rest) = c :: ready.run rest := by
  have noSurrogate := not_surrogate c
  have bound := toNat_lt c
  have decoded {code : Nat} (isCode : code = c.toNat) : Char.ofNat code = c := by
    rw [isCode, Char.ofNat_toNat]
  have isCode : c.val.toNat = c.toNat := rfl
  have follows (bits : Nat) : UInt8.ofNat (bits % 64 + 128) = continuation bits := rfl
  simp only [String.utf8EncodeChar, isCode, follows]
  split
  · rw [List.singleton_append, run_begin_one (by omega), decoded rfl]
  split
  · have lead : c.toNat / 64 % 32 = c.toNat / 64 := by omega
    rw [lead, List.cons_append, run_begin_two (by omega), List.singleton_append,
      run_continuation_free, if_pos (by omega), decoded (by omega)]
  split
  · have lead : c.toNat / 4096 % 16 = c.toNat / 4096 := by omega
    rw [lead, List.cons_append, run_begin_three (by omega), List.cons_append,
      run_continuation (by constructor <;> split <;> omega), if_neg (by omega),
      List.singleton_append, run_continuation_free, if_pos (by omega), decoded (by omega)]
  · have lead : c.toNat / 262144 % 8 = c.toNat / 262144 := by omega
    rw [lead, List.cons_append, run_begin_four (by omega), List.cons_append,
      run_continuation (by constructor <;> split <;> omega), if_neg (by omega),
      List.cons_append, run_continuation_free, if_neg (by omega),
      List.singleton_append, run_continuation_free, if_pos (by omega), decoded (by omega)]

end Utf8State

theorem decodeLossy_utf8Bytes (text : List Char) : decodeLossy (utf8Bytes text) = text := by
  induction text with
  | nil => rfl
  | cons c rest ih =>
    rw [decodeLossy, utf8Bytes, List.flatMap_cons, Utf8State.run_utf8EncodeChar]
    exact congrArg (c :: ·) ih

end TableServer
