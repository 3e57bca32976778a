import OpenELB.Objects
import OpenELB.GoNetText

/-! # Address arithmetic and the `Eip` type

`pkg/util/net/ip.go` and `api/v1alpha2/eip_types.go`: how an address string is
read as a pool (`Eip.getSize`), where an address stands in it
(`Eip.ipToOrdinal`), and the admission webhook (`Eip.validateCreate`,
`Eip.validateUpdate`).

Sizes are Go `int64`s.  They are kept as integers, and every operation that can
overflow is followed by `int64`, which wraps. -/
namespace OpenELB
open Go

/-! ## `pkg/util/net` -/

/-- The value of an integer after wrapping to 64 bits; also `big.Int.Int64`. -/
def int64 (x : Int) : Int := x.bmod (2 ^ 64)

/-- `cnet.ParseIP`: IPv4 addresses in four bytes. -/
def cnetParseIP (s : String) : Option IP := (parseIP s).map fun ip => (to4 ip).getD ip

/-- `IPToBigInt`. -/
def ipToBigInt (ip : IP) : Nat :=
  match to4 ip with
  | some p => beNat p
  | none => beNat (to16 ip)

/-- `BigIntToIP`; `none` when `FillBytes` panics, as the number does not fit. -/
def bigIntToIP (ipInt : Int) (v6 : Bool) : Option IP :=
  let len := if v6 then 16 else 4
  if ipInt.natAbs < 256 ^ len then some (beBytes len ipInt.natAbs) else none

/-- `IncrementIP`; `none` when it panics. -/
def incrementIP (ip : IP) (increment : Int) : Option IP :=
  bigIntToIP (ipToBigInt ip + increment) (to4 ip).isNone

/-- The number of bytes `IncrementIP` gives its result: four for an IPv4 address. -/
def ipWidth (ip : IP) : Nat := if (to4 ip).isSome then 4 else 16

/-- Moving forward in the addresses is adding to the number. -/
theorem incrementIP_natCast (ip : IP) (k : Nat) :
    incrementIP ip k =
      if ipToBigInt ip + k < 256 ^ ipWidth ip then some (beBytes (ipWidth ip) (ipToBigInt ip + k))
      else none := by
  have habs : ((ipToBigInt ip : Int) + (k : Int)).natAbs = ipToBigInt ip + k := by omega
  have hlen : (if (to4 ip).isNone = true then 16 else 4) = ipWidth ip := by
    cases h : to4 ip <;> simp [ipWidth, h]
  simp only [incrementIP, bigIntToIP, habs, hlen]

/-- Reading the text of an address gives an address that counts the same. -/
theorem cnetParseIP_ipString {ip : IP} (h : IsAddr ip) :
    ∃ first, cnetParseIP (ipString ip) = some first ∧ incrementIP first = incrementIP ip := by
  rw [cnetParseIP, parseIP_ipString h, Option.map_some]
  cases hv : to4 ip with
  | some p =>
    have hp := to4_length hv
    refine ⟨p, by rw [to16_of_to4 hv, to4_prefix hp, Option.getD_some], funext fun k => ?_⟩
    simp [incrementIP, ipToBigInt, hv, to4_of_length_four hp]
  | none =>
    have h16 : ip.length = 16 := by
      rcases h with h | h
      · rw [to4_of_length_four h] at hv
        cases hv
      · exact h
    exact ⟨ip, by rw [to16_of_to4_none h16, hv, Option.getD_none], rfl⟩

/-! ## `api/v1alpha2/eip_types.go` -/

namespace Eip

/-- `Eip.GetSize`: the first address of the pool and its size. -/
def getSize (e : Eip) : Except String (IP × Int) :=
  match parseIP e.spec.address with
  | some ip => .ok (ip, 1)
  | none =>
    match parseCIDR e.spec.address with
    | some (_, cidr) =>
      let (ones, size) := maskSize cidr.mask
      -- `1 << uint(size-ones)` is a 64-bit shift
      .ok (cidr.ip, int64 (2 ^ (size - ones)))
    | none =>
      match splitTwo '-' e.spec.address with
      | [first, second] =>
        match cnetParseIP first, cnetParseIP second with
        | some base, some last =>
          let ord := int64 (ipToBigInt last - ipToBigInt base)
          if ord < 0 then .error "invalid eip address format" else .ok (base, int64 (ord + 1))
        | _, _ => .error "invalid eip address format"
      | _ => .error "invalid eip address format"

/-- `base, size, _ := e.GetSize()`: the nil address and zero when it fails. -/
def baseAndSize (e : Eip) : IP × Int :=
  match e.getSize with
  | .ok p => p
  | .error _ => ([], 0)

/-- `Eip.IPToOrdinal`. -/
def ipToOrdinal (e : Eip) (ip : IP) : Int :=
  match e.getSize with
  | .error _ => -1
  | .ok (base, size) =>
    let ord := int64 (ipToBigInt ip - ipToBigInt base)
    if ord < 0 ∨ size ≤ ord then -1 else ord

/-- The last number of the pool, `base + (size - 1)`. -/
def lastInt (e : Eip) : Int := ipToBigInt e.baseAndSize.1 + int64 (e.baseAndSize.2 - 1)

/-- `Eip.IsOverlap`. -/
def isOverlap (e eip : Eip) : Bool :=
  ¬ ((ipToBigInt e.baseAndSize.1 : Int) > eip.lastInt ∨
    (ipToBigInt eip.baseAndSize.1 : Int) > e.lastInt)

/-- `Eip.Contains`. -/
def contains (e : Eip) (ip : IP) : Bool :=
  (ipToBigInt ip : Int) ≥ ipToBigInt e.baseAndSize.1 ∧ (ipToBigInt ip : Int) ≤ e.lastInt

/-- `Eip.IsDefault`. -/
def isDefault (e : Eip) : Bool := e.annotations.get openELBEIPAnnotationDefaultPool = some "true"

/-- The interface check shared by creation and update. -/
def validateInterface (e : Eip) : Except String Unit :=
  if (e.spec.protocol = openELBProtocolLayer2 ∨ e.spec.protocol = openELBProtocolVip) ∧
      e.spec.interface = "" then
    .error "if protocol is layer2 or vip, interface should not be empty"
  else .ok ()

/-- `Eip.validateDefault`. -/
def validateDefault (e : Eip) (eips : List Eip) : Except String Unit :=
  if ¬ hasOpenELBDefaultEipAnnotation e.annotations then .ok ()
  else if eips.any fun eip => eip.name ≠ e.name && hasOpenELBDefaultEipAnnotation eip.annotations then
    .error "already exists a default EIP"
  else .ok ()

/-- `Eip.validateOverlap`: the first pool that overlaps is named. -/
def validateOverlap (e : Eip) (eips : List Eip) : Except String Unit :=
  match eips.find? fun eip => eip.name ≠ e.name && e.isOverlap eip with
  | some eip => .error ("eip address overlap with " ++ eip.name)
  | none => .ok ()

/-- `Eip.validate`, against the list the API answers with. -/
def validate (e : Eip) (overlap : Bool) (list : Except String (List Eip)) : Except String Unit := do
  let eips ← list
  if overlap then e.validateOverlap eips
  e.validateDefault eips

/-- `Eip.ValidateCreate`. -/
def validateCreate (e : Eip) (list : Except String (List Eip)) : Except String Unit := do
  let _ ← e.getSize
  e.validateInterface
  e.validate true list

/-- `Eip.ValidateUpdate`. -/
def validateUpdate (e oldE : Eip) (list : Except String (List Eip)) : Except String Unit := do
  if e.annotations ≠ oldE.annotations then e.validate false list
  if e.spec ≠ oldE.spec ∧ e.spec.address ≠ oldE.spec.address then
    throw "the address field is not allowed to be modified"
  e.validateInterface

end Eip
end OpenELB
