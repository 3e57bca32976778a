import OpenELB.EipTypes

/-! # Address ranges

`pkg/util/iprange`: the second reader of a pool's address string, which
`Manager.AssignIP` uses to find the family of a pool.  It accepts an address, a
range, a CIDR block and an IPv4 block with a subnet mask. -/
namespace OpenELB.IpRange
open Go

/-- `iprange.Family`. -/
inductive Family where
  | v4Family
  | v6Family
  deriving DecidableEq

/-- `iprange.Range`: a `v4Range` or a `v6Range`. -/
structure Range where
  family : Family
  start : IP
  last : IP
  deriving DecidableEq

/-- `isV4IP`. -/
def isV4IP (ip : IP) : Bool := (to4 ip).isSome

/-- `isV6IP`. -/
def isV6IP (ip : IP) : Bool := ¬ isV4IP ip ∧ to16 ip ≠ []

/-- `isV4RangeValid`; `bytes.Compare` is the lexicographic order. -/
def isV4RangeValid (start last : IP) : Bool := isV4IP start ∧ isV4IP last ∧ start ≤ last

/-- `isV6RangeValid`. -/
def isV6RangeValid (start last : IP) : Bool := isV6IP start ∧ isV6IP last ∧ start ≤ last

/-- `New`. -/
def new (start last : IP) : Option Range :=
  if isV4RangeValid start last then some ⟨.v4Family, start, last⟩
  else if isV6RangeValid start last then some ⟨.v6Family, start, last⟩
  else none

/-- `parseRange`: one address, or two around the first dash. -/
def parseAddrs (s : String) : Option Range :=
  match splitTwo '-' s with
  | [first, second] => new ((parseIP first).getD []) ((parseIP second).getD [])
  | _ => new ((parseIP s).getD []) ((parseIP s).getD [])

/-- The first and the last address of a network. -/
def addressRange (network : IPNet) : IP × IP :=
  let (ones, bits) := maskSize network.mask
  (network.ip, beBytes network.ip.length (beNat network.ip ||| (2 ^ (bits - ones) - 1)))

/-- `parseCIDR`.  `cidr.AddressRange` is of another package, and a parameter here; what is assumed of
it is `AddressRanges`, and `parseRange_eq` says that then it may be taken for `addressRange`. -/
def parseNetwork (s : String) (range : IPNet → IP × IP := addressRange) : Option Range :=
  match parseCIDR s with
  | none => none
  | some (_, network) =>
    let (start, last) := range network
    parseAddrs (ipString start ++ "-" ++ ipString last)

/-- What stands before and after the last slash. -/
def cutLastSlash (s : String) : Option (String × String) :=
  match s.toList.reverse.span (· != '/') with
  | (_, []) => none
  | (after, _ :: before) => some (String.ofList before.reverse, String.ofList after.reverse)

/-- `parseSubnetMask`. -/
def parseSubnetMask (s : String) (range : IPNet → IP × IP := addressRange) : Option Range :=
  match cutLastSlash s with
  | none => none
  | some (address, mask) =>
    match (parseIP mask).bind to4 with
    | none => none
    | some ip =>
      let (prefixLen, bits) := maskSize ip
      if prefixLen + bits = 0 then none
      else parseNetwork (address ++ "/" ++ toString prefixLen) range

/-- `Contains`, for both families: `bytes.Compare` with the ends. -/
def Range.contains (r : Range) (ip : IP) : Bool := r.start ≤ ip ∧ ip ≤ r.last

/-- `v4ToInt`; the address is an IPv4 address. -/
def v4ToInt (ip : IP) : Int := beNat ((to4 ip).getD [])

/-- `Size`. -/
def Range.size (r : Range) : Int :=
  match r.family with
  | .v4Family => v4ToInt r.last - v4ToInt r.start + 1
  | .v6Family => beNat r.last - beNat r.start + 1

/-- `String`. -/
def Range.text (r : Range) : String := ipString r.start ++ "-" ++ ipString r.last

/-! ### The three patterns -/

/-- A digit. -/
def isDigit (c : Char) : Bool := '0' ≤ c ∧ c ≤ '9'

/-- A digit, a letter `a` to `f`, a dot or a colon. -/
def isAddrChar (c : Char) : Bool := isDigit c ∨ ('a' ≤ c ∧ c ≤ 'f') ∨ c = '.' ∨ c = ':'

/-- `reRange`: `^[0-9a-f.:-]+$`. -/
def reRange (s : String) : Bool := s ≠ "" ∧ s.toList.all fun c => isAddrChar c || c == '-'

/-- `reCIDR`: `^[0-9a-f.:]+/[0-9]{1,3}$`. -/
def reCIDR (s : String) : Bool :=
  match split '/' s with
  | [addr, len] =>
    addr ≠ "" ∧ addr.toList.all isAddrChar ∧ len ≠ "" ∧ len.length ≤ 3 ∧ len.toList.all isDigit
  | _ => false

/-- `reSubnetMask`: `^[0-9.]+/[0-9.]{7,}$`. -/
def reSubnetMask (s : String) : Bool :=
  match split '/' s with
  | [addr, mask] =>
    addr ≠ "" ∧ addr.toList.all (fun c => isDigit c || c == '.') ∧ 7 ≤ mask.length ∧
      mask.toList.all fun c => isDigit c || c == '.'
  | _ => false

/-- `ParseRange`.  The empty string is no error, and gives no range. -/
def parseRange (s : String) (range : IPNet → IP × IP := addressRange) :
    Except String (Option Range) :=
  let s := toLower s
  if s = "" then .ok none
  else
    let r :=
      if reRange s then parseAddrs s
      else if reCIDR s then parseNetwork s range
      else if reSubnetMask s then parseSubnetMask s range
      else none
    match r with
    | none => .error ("ip range (" ++ s ++ ") invalid syntax")
    | some r => .ok (some r)

example : (parseRange "192.0.2.0/255.255.255.0").toOption =
    some (some ⟨.v4Family, v4InV6Prefix ++ [192, 0, 2, 0], v4InV6Prefix ++ [192, 0, 2, 255]⟩) := by
  decide +kernel

end OpenELB.IpRange
