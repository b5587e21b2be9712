import WorkflowPolicy.Text.Digits
import WorkflowPolicy.Text.Split

/-!
# Address blocks

A block of addresses is an address and the length of a prefix: `10.0.0.0/8`, `2001:db8::/32`. The
bits after the prefix are kept as they are written.

`Cidr.parse?` reads a block. An IPv4 address is four decimal numbers of at most three digits. An
IPv6 address is eight groups of at most four hexadecimal digits, where two colons stand for as many
zero groups as are needed and an IPv4 address may take the place of the last two groups.

`Cidr.text` writes a block in its one canonical form: IPv6 groups in small letters without leading
zeros, the longest run of at least two zero groups as two colons, and the addresses that stand for
IPv4 ones with their decimal part.
-/

namespace WorkflowPolicy.Net

/-- An address of the Internet Protocol. -/
inductive Address where
  | v4 (octets : Vector UInt8 4)
  | v6 (groups : Vector UInt16 8)
  deriving DecidableEq, Repr

/-- **A block of addresses.** -/
structure Cidr where
  address : Address
  /-- The number of leading bits that all addresses of the block share. -/
  bits : Nat
  deriving DecidableEq, Repr

namespace Cidr

/-! ### Reading -/

/-- A number of at most `maxDigits` digits below `limit`, with all digits that there are. -/
def readNumber? (base maxDigits limit : Nat) (s : List Char) : Option (Nat × List Char) :=
  let isDigit := fun c => (Text.digitValue? base c).isSome
  let digits := s.takeWhile isDigit
  match Text.digits? base digits with
  | some n =>
    if digits.length ≤ maxDigits && n < limit then some (n, s.dropWhile isDigit) else none
  | none => none

/-- What follows the given character at the front. -/
def after? (c : Char) : List Char → Option (List Char)
  | d :: rest => if d = c then some rest else none
  | [] => none

/-- One number of an IPv4 address. -/
def readOctet? : List Char → Option (Nat × List Char) := readNumber? 10 3 256

/-- Four numbers with points between them. -/
def readV4? (s : List Char) : Option (Vector UInt8 4 × List Char) := do
  let (a, s) ← readOctet? s
  let (b, s) ← readOctet? (← after? '.' s)
  let (c, s) ← readOctet? (← after? '.' s)
  let (d, s) ← readOctet? (← after? '.' s)
  return (#v[.ofNat a, .ofNat b, .ofNat c, .ofNat d], s)

/-- An IPv4 address as two groups. -/
def groupsOfV4 (octets : Vector UInt8 4) : List UInt16 :=
  let pair := fun (high low : UInt8) => high.toUInt16 * 256 + low.toUInt16
  [pair octets[0] octets[1], pair octets[2] octets[3]]

/-- The groups at the front of a text, at most as many as there is room for: the groups, whether
the last two are an IPv4 address, and what follows. -/
def readGroups (isFirst : Bool) : Nat → List Char → List UInt16 × Bool × List Char
  | 0, s => ([], false, s)
  | room + 1, s =>
    match if isFirst then some s else after? ':' s with
    | none => ([], false, s)
    | some t =>
      match if 0 < room then readV4? t else none with
      | some (octets, rest) => (groupsOfV4 octets, true, rest)
      | none =>
        match readNumber? 16 4 (Nat.pow 2 16) t with
        | none => ([], false, s)
        | some (group, rest) =>
          let (groups, mixed, rest) := readGroups false room rest
          (.ofNat group :: groups, mixed, rest)

/-- Eight groups as an address; groups beyond the eighth do not count. -/
def addressOfGroups (groups : List UInt16) : Address := .v6 (.ofFn fun i => groups.getD i 0)

/-- An IPv6 address. -/
def readV6? (s : List Char) : Option (Address × List Char) :=
  let (front, mixed, rest) := readGroups true 8 s
  if front.length = 8 then some (addressOfGroups front, rest)
  else if mixed then none
  else
    match rest with
    | ':' :: ':' :: rest =>
      let (back, _, rest) := readGroups true (8 - front.length) rest
      let zeros := List.replicate (8 - front.length - back.length) 0
      some (addressOfGroups (front ++ zeros ++ back), rest)
    | _ => none

/-- The length of a prefix, which ends the text. -/
def readBits? (maxDigits limit : Nat) (s : List Char) : Option Nat := do
  let (n, rest) ← readNumber? 10 maxDigits (limit + 1) (← after? '/' s)
  if rest.isEmpty then some n else none

/-- **Reads a block.** -/
def parse? (text : String) : Option Cidr :=
  match readV4? text.toList with
  | some (octets, rest) => (readBits? 2 32 rest).map fun bits => ⟨.v4 octets, bits⟩
  | none => do
    let (address, rest) ← readV6? text.toList
    return ⟨address, ← readBits? 3 128 rest⟩

/-! ### Writing -/

/-- Numbers with points between them. -/
def textOfV4 (octets : Vector UInt8 4) : String :=
  Text.joined "." (octets.toList.map fun o => toString o.toNat)

/-- A group in hexadecimal. -/
def textOfGroup (group : UInt16) : String := String.ofList (Nat.toDigits 16 group.toNat)

/-- Groups with colons between them. -/
def textOfGroups (groups : List UInt16) : String := Text.joined ":" (groups.map textOfGroup)

/-- How many zero groups a list begins with. -/
def leadingZeros (groups : List UInt16) : Nat := (groups.takeWhile (· == 0)).length

/-- Where the first of the longest runs of zero groups begins, and its length; `index` groups have
gone before. -/
def longestZeros (index : Nat) : List UInt16 → Nat × Nat
  | [] => (index, 0)
  | group :: groups =>
    let here := leadingZeros (group :: groups)
    let later := longestZeros (index + 1) groups
    if here < later.2 then later else (index, here)

/-- An IPv6 address. -/
def textOfV6 (groups : List UInt16) : String :=
  match groups with
  | [0, 0, 0, 0, 0, 0xFFFF, high, low] =>
    "::ffff:" ++ Text.joined "." ([high / 256, high % 256, low / 256, low % 256].map fun o =>
      toString o.toNat)
  | groups =>
    let (start, count) := longestZeros 0 groups
    if 1 < count then
      textOfGroups (groups.take start) ++ "::" ++ textOfGroups (groups.drop (start + count))
    else textOfGroups groups

/-- An address. -/
def textOfAddress : Address → String
  | .v4 octets => textOfV4 octets
  | .v6 groups => textOfV6 groups.toList

/-- **Writes a block.** -/
def text (c : Cidr) : String := textOfAddress c.address ++ "/" ++ toString c.bits

theorem slash_mem_text (c : Cidr) : '/' ∈ c.text.toList := by simp [text]

end Cidr

end WorkflowPolicy.Net
