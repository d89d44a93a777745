import Quorum.Bytes
import Quorum.Text.Quoted

/-! Bytes as hexadecimal text. Writing uses lower case; reading takes either case and says
what the first thing wrong with a text is.
-/

namespace Quorum.Hex

/-- Why a text is not hexadecimal. The position counts bytes. -/
inductive Fault where
  | oddLength
  | invalidCharacter (byte : UInt8) (position : Nat)
  deriving DecidableEq

/-- A byte outside ASCII is shown as the character of the same code. -/
def Fault.message : Fault → String
  | .oddLength => "Odd number of digits"
  | .invalidCharacter byte position =>
      "Invalid character " ++ Text.quotedCharacter (Char.ofNat byte.toNat) ++ " at position "
        ++ toString position

def digit (value : UInt8) : Char :=
  if value < 10 then Char.ofNat (48 + value.toNat) else Char.ofNat (87 + value.toNat)

/-- Two digits for each byte. -/
def encode (bytes : Bytes) : String :=
  String.ofList (bytes.flatMap fun byte => [digit (byte / 16), digit (byte % 16)])

/-- The value of a digit, given as an ASCII byte. -/
def value? (byte : UInt8) : Option UInt8 :=
  if 48 ≤ byte ∧ byte ≤ 57 then some (byte - 48)
  else if 97 ≤ byte ∧ byte ≤ 102 then some (byte - 87)
  else if 65 ≤ byte ∧ byte ≤ 70 then some (byte - 55)
  else none

def value (position : Nat) (byte : UInt8) : Except Fault UInt8 :=
  match value? byte with
  | some value => .ok value
  | none => .error (.invalidCharacter byte position)

/-- Reads pairs of digits, of which the first stands at `position`. -/
def decodePairs (position : Nat) : Bytes → Except Fault Bytes
  | high :: low :: rest => do
      let upper ← value position high
      let lower ← value (position + 1) low
      return (16 * upper + lower) :: (← decodePairs (position + 2) rest)
  | _ => .ok []

/-- Reads the UTF-8 bytes of a text. An odd number of them is noticed first. -/
def decode (text : Bytes) : Except Fault Bytes :=
  if text.length % 2 = 1 then .error .oddLength else decodePairs 0 text

end Quorum.Hex
