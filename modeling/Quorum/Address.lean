import Quorum.Text.Digit
import Quorum.Text.Parser
import Quorum.Word

/-! Addresses that a node can listen on: a host, and the number of a socket there. -/

namespace Quorum

inductive Host where
  /-- Four bytes. -/
  | v4 (bytes : List Nat)
  /-- Eight groups of two bytes, on the network with this number. Zero stands for no network. -/
  | v6 (groups : List Nat) (zone : Nat)
  | name (text : String)
  deriving DecidableEq

inductive AddressDefect where
  | noNumber
  | badNumber
  /-- A name with a character that ends names. -/
  | zeroByte
  /-- A star, which names no host. -/
  | noHost
  | unknownHost
  /-- Low numbers are for privileged users. -/
  | forbidden
  /-- No node can listen there. -/
  | unusable
  /-- There is no network with the number. -/
  | noNetwork
  /-- The host is not this machine. -/
  | remote
  /-- Another reason, in the words of the system. -/
  | other (reason : String)
  deriving DecidableEq

def AddressDefect.message : AddressDefect → String
  | .noNumber => "invalid socket address"
  | .badNumber => "invalid port value"
  | .zeroByte => "file name contained an unexpected NUL byte"
  | .noHost => "failed to lookup address information: Name or service not known"
  | .unknownHost =>
      "failed to lookup address information: Temporary failure in name resolution"
  | .forbidden => "Permission denied (os error 13)"
  | .unusable => "Invalid argument (os error 22)"
  | .noNetwork => "No such device (os error 19)"
  | .remote => "Cannot assign requested address (os error 99)"
  | .other reason => reason

/-- A parser of a part of an address. It fails without a cause. -/
abbrev AddressParser := Text.Parser Empty

namespace Host

open Text Text.Parser

/-- A number with digits of a base, below a limit. -/
def numberBelow (limit base : Nat) (digit : Char → Bool) : AddressParser Nat := do
  let value := numberOf base (← takeSome digit)
  if value < limit then
    return value
  else
    failure

/-- A decimal number below 256 without leading zeros. -/
def byte : AddressParser Nat :=
  (do char '0'; return 0) <|> (do
    let _ ← ahead (satisfy (· ≠ '0'))
    numberBelow 256 10 Char.isDigit)

/-- Four decimal bytes between dots. -/
def fourBytes : AddressParser (List Nat) := do
  let bytes ← separated byte (char '.')
  if bytes.length = 4 then
    return bytes
  else
    failure

/-- A part of a host of four bytes. The digits of base 16 follow a mark, those of base 8 a zero. -/
def part : AddressParser Nat :=
  (do
    char '0'
    let _ ← satisfy fun mark => mark = 'x' || mark = 'X'
    numberBelow (256 ^ 4) 16 hexDigit)
  <|> (do
    let _ ← ahead (char '0')
    numberBelow (256 ^ 4) 8 fun digit => '0' ≤ digit && digit ≤ '7')
  <|> numberBelow (256 ^ 4) 10 Char.isDigit

/-- Up to four parts between dots. The last one fills the bytes that the others leave. -/
def parts : AddressParser Host := do
  let parts ← separated part (char '.')
  let front := parts.dropLast
  let left := 4 - front.length
  match parts.getLast? with
  | none => failure
  | some last =>
      if front.length < 4 ∧ front.all (· < 256) ∧ last < 256 ^ left then
        return .v4 (front ++ (List.range left).reverse.map fun place => last / 256 ^ place % 256)
      else
        failure

/-- Up to four hexadecimal digits, with no dot behind them. -/
def group : AddressParser Nat := do
  let digits ← takeSome hexDigit
  if digits.length ≤ 4 ∧ (← next?) ≠ some '.' then
    return numberOf 16 digits
  else
    failure

/-- Groups between colons, and whether the last two are written as four bytes. -/
def groups : AddressParser (List Nat × Bool) := do
  let front ← separated group (char ':')
  let bytes ← maybe do
    unless front.isEmpty do
      char ':'
    fourBytes
  match bytes with
  | some [a, b, c, d] => return (front ++ [256 * a + b, 256 * c + d], true)
  | _ => return (front, false)

/-- Eight groups; two colons stand for one group of zero or more. -/
def eightGroups : AddressParser (List Nat) := do
  let (front, closed) ← groups
  match ← maybe (chars [':', ':']) with
  | none => if front.length = 8 then return front else failure
  | some () =>
      let (back, _) ← groups
      let missing := 8 - front.length - back.length
      if ¬ closed ∧ 0 < missing then
        return front ++ List.replicate missing 0 ++ back
      else
        failure

/-- Eight groups, and the number of a network behind a percent sign. -/
def zoned : AddressParser Host := do
  let groups ← eightGroups
  let zone ← maybe (char '%')
  match zone with
  | none => return .v6 groups 0
  | some () => return .v6 groups (← numberBelow (2 ^ 32) 10 Char.isDigit)

/-- A host by its bytes or its groups, or else by its name. -/
def ofText (text : List Char) : Host :=
  (parse? (parts <|> zoned) text).getD (.name (String.ofList text))

end Host

structure Address where
  host : Host
  number : UInt16
  deriving DecidableEq

namespace Address

open Text Text.Parser

/-- A number of two bytes. -/
def socketNumber : AddressParser UInt16 :=
  UInt16.ofNat <$> Host.numberBelow UInt16.size 10 Char.isDigit

/-- Groups in brackets, and the number behind a colon. -/
def bracketed : AddressParser Address := do
  char '['
  let host ← Host.zoned
  chars [']', ':']
  return ⟨host, ← socketNumber⟩

/-- A host, and the number behind the last colon, which may have a plus sign. -/
def ofParts (text : List Char) : Except AddressDefect Address :=
  let (digits, before) := text.reverse.span (· ≠ ':')
  match before with
  | [] => .error .noNumber
  | _ :: host =>
      match parse? (do let _ ← maybe (char '+'); socketNumber) digits.reverse with
      | none => .error .badNumber
      | some number =>
          if '\x00' ∈ host then .error .zeroByte else .ok ⟨.ofText host.reverse, number⟩

/-- The address that a text names. -/
def ofText (text : String) : Except AddressDefect Address :=
  match parse? bracketed text.toList with
  | some address => .ok address
  | none => ofParts text.toList

/-- Why a machine that has no network cannot listen on an address for a user without privileges.
Hosts of four bytes are taken as its own, also where they are written as groups; of all others
only the one that stands for every host is.
-/
def offlineDefect? (address : Address) : Option AddressDefect :=
  let reserved := if 0 < address.number ∧ address.number < 1024 then some .forbidden else none
  match address.host with
  | .name text =>
      if text.toLower = "localhost" then reserved
      else some (if text = "*" then .noHost else .unknownHost)
  | .v4 _ => reserved
  | .v6 groups zone =>
      let first := groups.headD 0
      if 0xff00 ≤ first then some .unusable
      else if reserved.isSome ∨ groups = List.replicate 8 0
          ∨ groups.take 6 = [0, 0, 0, 0, 0, 0xffff] then reserved
      else if 0xfe80 ≤ first ∧ first < 0xfec0 then
        match zone with
        | 0 => some .unusable
        | 1 => some .remote
        | _ => some .noNetwork
      else some .remote

end Address

end Quorum
