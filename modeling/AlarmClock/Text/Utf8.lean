import AlarmClock.Record

set_option autoImplicit false

namespace AlarmClock.Utf8

def replacement : Char := '\ufffd'

structure Begun where
  missing : Nat
  low : Nat
  high : Nat
  bits : Nat
deriving DecidableEq, Repr

inductive Lead where
  | whole (c : Char)
  | begun (b : Begun)
  | invalid
deriving DecidableEq, Repr

def lead (byte : Nat) : Lead :=
  if byte < 0x80 then .whole (Char.ofNat byte)
  -- bytes that go on with a character, and two that could begin overlong forms only
  else if byte < 0xc2 then .invalid
  else if byte < 0xe0 then .begun ⟨1, 0x80, 0xbf, byte - 0xc0⟩
  else if byte = 0xe0 then .begun ⟨2, 0xa0, 0xbf, 0⟩
  -- from 0xa0 on these would be surrogates
  else if byte = 0xed then .begun ⟨2, 0x80, 0x9f, 13⟩
  else if byte < 0xf0 then .begun ⟨2, 0x80, 0xbf, byte - 0xe0⟩
  else if byte = 0xf0 then .begun ⟨3, 0x90, 0xbf, 0⟩
  else if byte < 0xf4 then .begun ⟨3, 0x80, 0xbf, byte - 0xf0⟩
  else if byte = 0xf4 then .begun ⟨3, 0x80, 0x8f, 4⟩
  else .invalid

def chars : Option Begun → Bytes → List Char
  | none, [] => []
  | some _, [] => [replacement]
  | none, byte :: rest => start byte rest
  | some b, byte :: rest =>
      if b.low ≤ byte.toNat ∧ byte.toNat ≤ b.high then
        let bits := b.bits * 64 + byte.toNat % 64
        if b.missing = 1 then Char.ofNat bits :: chars none rest
        else chars (some ⟨b.missing - 1, 0x80, 0xbf, bits⟩) rest
      else replacement :: start byte rest
where
  start (byte : UInt8) (rest : Bytes) : List Char :=
    match lead byte.toNat with
    | .whole c => c :: chars none rest
    | .begun b => chars (some b) rest
    | .invalid => replacement :: chars none rest

def shown (bytes : Bytes) : String := String.ofList (chars none bytes)

end AlarmClock.Utf8
