import Mathlib.Algebra.Group.Nat.Defs
import Mathlib.Data.List.Basic

/-! Literal socket addresses: the parser of `SocketAddr::from_str` in Rust's standard library, on
the bytes of the text. A reader takes something from the front of a text or leaves the text. -/
namespace SocketAddr

inductive IpAddr where
  | v4 (octets : List ℕ)
  | v6 (segments : List ℕ)
deriving DecidableEq, Repr

structure Addr where
  ip : IpAddr
  port : ℕ
deriving DecidableEq, Repr

abbrev Text := List UInt8

abbrev Reader (α : Type) := Text → Option (α × Text)

/-- `char::to_digit`. -/
def toDigit (radix : ℕ) (c : UInt8) : Option ℕ :=
  let n := c.toNat
  let digit :=
    if 48 ≤ n ∧ n ≤ 57 then n - 48
    else if 97 ≤ n ∧ n ≤ 122 then n - 97 + 10
    else if 65 ≤ n ∧ n ≤ 90 then n - 65 + 10
    else radix
  if digit < radix then some digit else none

def readDigits (radix : ℕ) : Text → List ℕ × Text
  | [] => ([], [])
  | c :: text =>
    match toDigit radix c with
    | none => ([], c :: text)
    | some digit => (digit :: (readDigits radix text).1, (readDigits radix text).2)

/-- `read_number`, of a type whose values are below `bound`. -/
def readNumber (radix : ℕ) (maxDigits : Option ℕ) (allowZeroPrefix : Bool) (bound : ℕ) :
    Reader ℕ := fun text =>
  let digits := (readDigits radix text).1
  let value := digits.foldl (fun n digit => n * radix + digit) 0
  if digits.isEmpty || maxDigits.any (· < digits.length) ||
      (!allowZeroPrefix && digits.head? == some 0 && 1 < digits.length) || bound ≤ value then none
  else some (value, (readDigits radix text).2)

def readGivenChar (c : UInt8) : Reader Unit
  | [] => none
  | c' :: text => if c' = c then some ((), text) else none

/-- `read_separator`: what `inner` reads, behind a separator unless it is the first. -/
def readSeparator {α : Type} (separator : UInt8) (index : ℕ) (inner : Reader α) : Reader α :=
  fun text =>
    if index = 0 then inner text
    else (readGivenChar separator text).bind fun p => inner p.2

def readOctets : (left index : ℕ) → Reader (List ℕ)
  | 0, _ => fun text => some ([], text)
  | left + 1, index => fun text =>
    (readSeparator 46 index (readNumber 10 (some 3) false 256) text).bind fun octet =>
      (readOctets left (index + 1) octet.2).map fun rest => (octet.1 :: rest.1, rest.2)

def readIpv4Addr : Reader (List ℕ) := readOctets 4 0

/-- The segments that four octets make. -/
def segments : List ℕ → List ℕ
  | [one, two, three, four] => [one * 256 + two, three * 256 + four]
  | _ => []

/-- `read_groups`: the groups, whether an IPv4 address ended them, and the text after them. -/
def readGroups : (left index : ℕ) → Text → List ℕ × Bool × Text
  | 0, _, text => ([], false, text)
  | left + 1, index, text =>
    match if left = 0 then none else readSeparator 58 index readIpv4Addr text with
    | some (octets, rest) => (segments octets, true, rest)
    | none =>
      match readSeparator 58 index (readNumber 16 (some 4) true 65536) text with
      | none => ([], false, text)
      | some (group, rest) =>
        let (groups, ipv4, rest) := readGroups left (index + 1) rest
        (group :: groups, ipv4, rest)

def readIpv6Addr : Reader (List ℕ) := fun text =>
  let (head, headIpv4, rest) := readGroups 8 0 text
  if head.length = 8 then some (head, rest)
  else if headIpv4 then none
  else
    (readGivenChar 58 rest).bind fun p =>
      (readGivenChar 58 p.2).map fun p =>
        let (tail, _, rest) := readGroups (8 - (head.length + 1)) 0 p.2
        (head ++ List.replicate (8 - head.length - tail.length) 0 ++ tail, rest)

def readPort : Reader ℕ := fun text =>
  (readGivenChar 58 text).bind fun p => readNumber 10 none true 65536 p.2

/-- A scope id that is missing or malformed is left in the text. -/
def skipScopeId (text : Text) : Text :=
  match (readGivenChar 37 text).bind fun p => readNumber 10 none true (2 ^ 32) p.2 with
  | some (_, rest) => rest
  | none => text

def readSocketAddrV4 : Reader Addr := fun text =>
  (readIpv4Addr text).bind fun ip =>
    (readPort ip.2).map fun port => (⟨.v4 ip.1, port.1⟩, port.2)

def readSocketAddrV6 : Reader Addr := fun text =>
  (readGivenChar 91 text).bind fun p =>
    (readIpv6Addr p.2).bind fun ip =>
      (readGivenChar 93 (skipScopeId ip.2)).bind fun p =>
        (readPort p.2).map fun port => (⟨.v6 ip.1, port.1⟩, port.2)

/-- The whole text is an address. -/
def parse (text : Text) : Option Addr :=
  match (readSocketAddrV4 text).or (readSocketAddrV6 text) with
  | some (addr, []) => some addr
  | _ => none

namespace IpAddr

def isUnspecified : IpAddr → Bool
  | v4 octets => octets.all (· == 0)
  | v6 segments => segments.all (· == 0)

def isLoopback : IpAddr → Bool
  | v4 octets => octets.head? == some 127
  | v6 segments => segments == [0, 0, 0, 0, 0, 0, 0, 1]

def isMulticast : IpAddr → Bool
  | v4 octets => octets.head?.any fun first => 224 ≤ first && first ≤ 239
  | v6 segments => segments.head?.any fun first => first / 256 == 255

end IpAddr

theorem parse_nil : parse [] = none := rfl

/-- `[2001:db8::7]:443` and `192.0.2.1:443`. -/
example : parse [91, 50, 48, 48, 49, 58, 100, 98, 56, 58, 58, 55, 93, 58, 52, 52, 51] =
    some ⟨.v6 [0x2001, 0xdb8, 0, 0, 0, 0, 0, 7], 443⟩ := by decide

example : parse [49, 57, 50, 46, 48, 46, 50, 46, 49, 58, 52, 52, 51] =
    some ⟨.v4 [192, 0, 2, 1], 443⟩ := by decide

end SocketAddr
