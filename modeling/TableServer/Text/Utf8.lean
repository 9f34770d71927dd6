/-! Reading bytes as UTF-8 when they may be broken. Each longest beginning of a sequence that
cannot be completed becomes one replacement character, and reading goes on at the byte that broke
it. -/

namespace TableServer

def utf8Bytes (text : List Char) : List UInt8 :=
  text.flatMap String.utf8EncodeChar

def replacement : Char := Char.ofNat 0xFFFD

inductive Utf8State where
  | ready
  /-- Bytes are still missing: `left` of them, the next one between `low` and `high`; `code`
  holds the bits read so far. -/
  | pending (left low high code : Nat)

namespace Utf8State

/-- The byte that begins a sequence. The bounds on the byte after it leave out overlong forms,
the surrogate range and codes above `10FFFF`. -/
def begin (byte : Nat) : Utf8State × List Char :=
  if byte < 0x80 then (ready, [Char.ofNat byte])
  else if 0xC2 ≤ byte ∧ byte ≤ 0xDF then (pending 1 0x80 0xBF (byte - 0xC0), [])
  else if 0xE0 ≤ byte ∧ byte ≤ 0xEF then
    (pending 2 (if byte = 0xE0 then 0xA0 else 0x80) (if byte = 0xED then 0x9F else 0xBF)
      (byte - 0xE0), [])
  else if 0xF0 ≤ byte ∧ byte ≤ 0xF4 then
    (pending 3 (if byte = 0xF0 then 0x90 else 0x80) (if byte = 0xF4 then 0x8F else 0xBF)
      (byte - 0xF0), [])
  else (ready, [replacement])

def step : Utf8State → Nat → Utf8State × List Char
  | ready, byte => begin byte
  | pending left low high code, byte =>
    if low ≤ byte ∧ byte ≤ high then
      let next := code * 0x40 + byte % 0x40
      if left ≤ 1 then (ready, [Char.ofNat next])
      else (pending (left - 1) 0x80 0xBF next, [])
    else
      let restarted := begin byte
      (restarted.1, replacement :: restarted.2)

def run : Utf8State → List UInt8 → List Char
  | ready, [] => []
  | pending _ _ _ _, [] => [replacement]
  | state, byte :: rest =>
    let stepped := state.step byte.toNat
    stepped.2 ++ run stepped.1 rest

end Utf8State

def decodeLossy (bytes : List UInt8) : List Char :=
  Utf8State.ready.run bytes

end TableServer
