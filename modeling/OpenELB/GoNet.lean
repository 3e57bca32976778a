import OpenELB.GoText
import Mathlib.Data.List.Induction
import Mathlib.Tactic.Ring

/-! # Go's `net` package: IP addresses and their text

An `IP` is a list of bytes, as in Go: four bytes, sixteen bytes, or none for the
nil address.  A sixteen-byte address with the prefix `::ffff:0:0/96` is an IPv4
address (`to4`), and prints as one.  `ipString` is `IP.String`, `parseIP` is
`ParseIP`, `parseCIDR` is `ParseCIDR`; the text functions work on lists of
characters.

`beNat` and `beBytes` are the big-endian conversions of `big.Int.SetBytes` and
`big.Int.FillBytes`. -/
namespace Go

/-! ## Big-endian numbers -/

/-- The number whose big-endian bytes are `bs` (`SetBytes`). -/
def beNat (bs : List UInt8) : Nat := bs.foldl (fun n b => n * 256 + b.toNat) 0

/-- The last `k` big-endian bytes of `n` (`FillBytes` into a buffer of length `k`). -/
def beBytes : Nat → Nat → List UInt8
  | 0, _ => []
  | k + 1, n => beBytes k (n / 256) ++ [UInt8.ofNat (n % 256)]

@[simp] theorem beNat_nil : beNat [] = 0 := rfl

theorem beNat_concat (bs : List UInt8) (b : UInt8) :
    beNat (bs ++ [b]) = beNat bs * 256 + b.toNat := by
  simp [beNat]

@[simp] theorem length_beBytes (k n : Nat) : (beBytes k n).length = k := by
  induction k generalizing n with
  | zero => rfl
  | succ k ih => simp [beBytes, ih]

theorem beNat_lt (bs : List UInt8) : beNat bs < 256 ^ bs.length := by
  induction bs using List.reverseRecOn with
  | nil => simp
  | append_singleton bs b ih =>
    have hb := b.toNat_lt
    rw [beNat_concat, List.length_append, List.length_singleton, Nat.pow_succ]
    omega

theorem beNat_beBytes (k n : Nat) : beNat (beBytes k n) = n % 256 ^ k := by
  induction k generalizing n with
  | zero => simp [beBytes, Nat.mod_one]
  | succ k ih =>
    rw [beBytes, beNat_concat, ih, Nat.pow_succ, Nat.mul_comm (256 ^ k) 256, Nat.mod_mul]
    have h : (UInt8.ofNat (n % 256)).toNat = n % 256 := by
      rw [UInt8.toNat_ofNat', Nat.mod_eq_of_lt (Nat.mod_lt _ (by norm_num))]
    rw [h]
    ring

theorem beNat_beBytes_of_lt {k n : Nat} (h : n < 256 ^ k) : beNat (beBytes k n) = n := by
  rw [beNat_beBytes, Nat.mod_eq_of_lt h]

theorem beBytes_beNat (bs : List UInt8) : beBytes bs.length (beNat bs) = bs := by
  induction bs using List.reverseRecOn with
  | nil => rfl
  | append_singleton bs b ih =>
    have hb := b.toNat_lt
    rw [List.length_append, List.length_singleton, beBytes, beNat_concat]
    have h1 : (beNat bs * 256 + b.toNat) / 256 = beNat bs := by omega
    have h2 : (beNat bs * 256 + b.toNat) % 256 = b.toNat := by omega
    rw [h1, h2, ih, UInt8.ofNat_toNat]

/-- Byte strings of one length are determined by their number. -/
theorem beNat_inj {bs bs' : List UInt8} (hlen : bs.length = bs'.length)
    (h : beNat bs = beNat bs') : bs = bs' := by
  rw [← beBytes_beNat bs, ← beBytes_beNat bs', hlen, h]

/-! ## Addresses -/

/-- `net.IP`; the empty list is the nil address. -/
abbrev IP := List UInt8

/-- The prefix of an IPv4 address in sixteen-byte form. -/
def v4InV6Prefix : List UInt8 := [0, 0, 0, 0, 0, 0, 0, 0, 0, 0, 0xff, 0xff]

/-- `IP.To4`: the four bytes of an IPv4 address in either form, `none` for nil. -/
def to4 (ip : IP) : Option IP :=
  if ip.length = 4 then some ip
  else if ip.length = 16 ∧ ip.take 12 = v4InV6Prefix then some (ip.drop 12)
  else none

/-- `IP.To16`: the sixteen-byte form; nil for anything that is not an address. -/
def to16 (ip : IP) : IP :=
  if ip.length = 4 then v4InV6Prefix ++ ip
  else if ip.length = 16 then ip
  else []

theorem to4_length {ip p : IP} (h : to4 ip = some p) : p.length = 4 := by
  rw [to4] at h
  split at h
  · cases h; assumption
  · split at h
    · rename_i hip
      cases h
      rw [List.length_drop, hip.1]
    · cases h

/-- A four-byte address is its own IPv4 form. -/
@[simp] theorem to4_of_length_four {ip : IP} (h : ip.length = 4) : to4 ip = some ip := by
  simp [to4, h]

theorem to16_of_to4 {ip p : IP} (h : to4 ip = some p) : to16 ip = v4InV6Prefix ++ p := by
  rw [to4] at h
  split at h
  · rename_i h4
    cases h
    simp [to16, h4]
  · split at h
    · rename_i hip
      cases h
      rw [to16, if_neg (by omega), if_pos hip.1, ← hip.2, List.take_append_drop]
    · cases h

theorem to16_of_to4_none {ip : IP} (h16 : ip.length = 16) : to16 ip = ip := by
  simp [to16, h16]

theorem to4_prefix {p : IP} (h : p.length = 4) : to4 (v4InV6Prefix ++ p) = some p := by
  simp [to4, v4InV6Prefix, h]

/-! ## Text of an address -/

/-- `appendDecimal`: the decimal digits of a byte. -/
def appendDecimal (x : Nat) : List Char :=
  (if 100 ≤ x then [Nat.digitChar (x / 100)] else []) ++
    (if 10 ≤ x then [Nat.digitChar (x / 10 % 10)] else []) ++ [Nat.digitChar (x % 10)]

/-- `appendHex`: the hexadecimal digits of a sixteen-bit group. -/
def appendHex (x : Nat) : List Char :=
  (if 0x1000 ≤ x then [Nat.digitChar (x / 0x1000 % 16)] else []) ++
    (if 0x100 ≤ x then [Nat.digitChar (x / 0x100 % 16)] else []) ++
    (if 0x10 ≤ x then [Nat.digitChar (x / 0x10 % 16)] else []) ++ [Nat.digitChar (x % 16)]

/-- The dotted quad of four bytes. -/
def formatIPv4 (p : IP) : List Char := ['.'].intercalate (p.map fun b => appendDecimal b.toNat)

/-- The sixteen-bit groups of a byte string. -/
def groups : List UInt8 → List Nat
  | a :: b :: bs => (a.toNat * 256 + b.toNat) :: groups bs
  | _ => []

/-- The byte string of sixteen-bit groups. -/
def ofGroups : List Nat → List UInt8
  | [] => []
  | g :: gs => UInt8.ofNat (g / 256) :: UInt8.ofNat (g % 256) :: ofGroups gs

/-- The number of zeros a list starts with. -/
def leadingZeros (gs : List Nat) : Nat := (gs.takeWhile (· = 0)).length

/-- The first longest run of at least two zero groups, as its start and length;
length zero when there is none. -/
def zeroRun (gs : List Nat) : Nat × Nat :=
  (List.range gs.length).foldl (fun best i =>
    if 2 ≤ leadingZeros (gs.drop i) ∧ best.2 < leadingZeros (gs.drop i)
    then (i, leadingZeros (gs.drop i)) else best) (0, 0)

/-- Groups in hexadecimal, separated by colons. -/
def colonHex (gs : List Nat) : List Char := [':'].intercalate (gs.map appendHex)

/-- The text of an IPv6 address: the first longest run of zero groups is written `::`. -/
def formatIPv6 (gs : List Nat) : List Char :=
  if (zeroRun gs).2 = 0 then colonHex gs
  else colonHex (gs.take (zeroRun gs).1) ++ [':', ':'] ++
    colonHex (gs.drop ((zeroRun gs).1 + (zeroRun gs).2))

/-- `IP.String`. -/
def ipString (ip : IP) : String :=
  match to4 ip with
  | some p => String.ofList (formatIPv4 p)
  | none =>
    if ip.length = 16 then String.ofList (formatIPv6 (groups ip))
    else if ip = [] then "<nil>"
    else "?" ++ String.ofList (ip.flatMap fun b =>
      [Nat.digitChar (b.toNat / 16), Nat.digitChar (b.toNat % 16)])

/-! ## Parsing -/

/-- The value of a decimal digit. -/
def decVal (c : Char) : Option Nat :=
  if '0' ≤ c ∧ c ≤ '9' then some (c.toNat - '0'.toNat) else none

/-- The value of a hexadecimal digit, of either case. -/
def hexVal (c : Char) : Option Nat :=
  if '0' ≤ c ∧ c ≤ '9' then some (c.toNat - '0'.toNat)
  else if 'a' ≤ c ∧ c ≤ 'f' then some (c.toNat - 'a'.toNat + 10)
  else if 'A' ≤ c ∧ c ≤ 'F' then some (c.toNat - 'A'.toNat + 10)
  else none

/-- The number with the given digits in base `b`. -/
def digitsVal (b : Nat) (ds : List Nat) : Nat := ds.foldl (fun n d => n * b + d) 0

/-- A field of a dotted quad: decimal, without leading zeros, at most 255. -/
def parseOctet (cs : List Char) : Option UInt8 :=
  match cs.mapM decVal with
  | none => none
  | some ds =>
    if ds = [] ∨ (ds.head? = some 0 ∧ ds.length ≠ 1) ∨ 255 < digitsVal 10 ds then none
    else some (UInt8.ofNat (digitsVal 10 ds))

/-- A dotted quad. -/
def parseIPv4 (cs : List Char) : Option IP :=
  match (cs.splitOn '.').mapM parseOctet with
  | some [a, b, c, d] => some [a, b, c, d]
  | _ => none

/-- A group of an IPv6 address: one to four hexadecimal digits. -/
def parseGroup (cs : List Char) : Option Nat :=
  match cs.mapM hexVal with
  | none => none
  | some ds => if ds = [] ∨ 4 < ds.length then none else some (digitsVal 16 ds)

/-- Groups separated by colons; no group at all for the empty text. -/
def parseGroups (cs : List Char) : Option (List Nat) :=
  if cs = [] then some [] else (cs.splitOn ':').mapM parseGroup

/-- Groups separated by colons, of which the last may be a dotted quad that
stands for two. -/
def parseTail (cs : List Char) : Option (List Nat) :=
  match (cs.splitOn ':').getLast? with
  | some last =>
    if '.' ∈ last then
      match (cs.splitOn ':').dropLast.mapM parseGroup, parseIPv4 last with
      | some hs, some q => some (hs ++ groups q)
      | _, _ => none
    else parseGroups cs
  | none => none

/-- The text before and after the first `::`. -/
def cutEllipsis : List Char → Option (List Char × List Char)
  | [] => none
  | [_] => none
  | a :: b :: cs =>
    if a = ':' ∧ b = ':' then some ([], cs)
    else (cutEllipsis (b :: cs)).map fun p => (a :: p.1, p.2)

/-- An IPv6 address: eight groups, or fewer with one `::` that stands for the
missing zero groups. -/
def parseIPv6 (cs : List Char) : Option IP :=
  match cutEllipsis cs with
  | none =>
    match parseTail cs with
    | some gs => if gs.length = 8 then some (ofGroups gs) else none
    | none => none
  | some (l, r) =>
    match parseGroups l, parseTail r with
    | some ls, some rs =>
      if ls.length + rs.length ≤ 7
      then some (ofGroups (ls ++ List.replicate (8 - (ls.length + rs.length)) 0 ++ rs)) else none
    | _, _ => none

/-- The two kinds of address text, which decide how long a prefix may be. -/
inductive AddrForm where
  | v4
  | v6
  deriving DecidableEq

/-- The number of bits of an address of the given form. -/
def AddrForm.bitLen : AddrForm → Nat
  | .v4 => 32
  | .v6 => 128

/-- `netip.ParseAddr`, without zones: the first dot or colon decides the form; the
address is given in sixteen bytes. -/
def parseAddr (cs : List Char) : Option (AddrForm × IP) :=
  match cs.find? (fun c => c = '.' ∨ c = ':' ∨ c = '%') with
  | some '.' => (parseIPv4 cs).map fun p => (.v4, v4InV6Prefix ++ p)
  | some ':' => (parseIPv6 cs).map fun p => (.v6, p)
  | _ => none

/-- `net.ParseIP`; `none` is the nil address. -/
def parseIP (s : String) : Option IP := (parseAddr s.toList).map Prod.snd

/-! ## CIDR blocks -/

/-- `net.IPNet`. -/
structure IPNet where
  ip : IP
  mask : List UInt8
  deriving DecidableEq

/-- `net.CIDRMask(ones, 8 * len)`, as its bytes. -/
def cidrMask : Nat → Nat → List UInt8
  | 0, _ => []
  | l + 1, n => if 8 ≤ n then 0xff :: cidrMask l (n - 8) else ~~~((0xff : UInt8) >>> UInt8.ofNat n) :: cidrMask l 0

/-- The number of leading ones of a byte that consists of ones followed by zeros. -/
def byteOnes (b : UInt8) : Option Nat :=
  if b = 0xff then some 8 else if b = 0xfe then some 7 else if b = 0xfc then some 6
  else if b = 0xf8 then some 5 else if b = 0xf0 then some 4 else if b = 0xe0 then some 3
  else if b = 0xc0 then some 2 else if b = 0x80 then some 1 else if b = 0 then some 0
  else none

/-- The number of leading ones of a mask, `none` if it has a one after a zero. -/
def maskOnes : List UInt8 → Option Nat
  | [] => some 0
  | b :: bs =>
    match byteOnes b with
    | none => none
    | some 8 => (maskOnes bs).map (8 + ·)
    | some n => if bs.all (· = 0) then some n else none

/-- `IPMask.Size`: the leading ones and the total bits, zeros for a mask that is
not canonical. -/
def maskSize (m : List UInt8) : Nat × Nat :=
  match maskOnes m with
  | some n => (n, 8 * m.length)
  | none => (0, 0)

/-- `IP.Mask`; nil when the lengths do not fit. -/
def maskIP (ip : IP) (m : List UInt8) : IP :=
  let m := if m.length = 16 ∧ ip.length = 4 ∧ m.take 12 = List.replicate 12 0xff then m.drop 12 else m
  let ip := if m.length = 4 ∧ ip.length = 16 ∧ ip.take 12 = v4InV6Prefix then ip.drop 12 else ip
  if ip.length = m.length then List.zipWith (· &&& ·) ip m else []

/-- A prefix length: decimal digits, leading zeros allowed. -/
def dtoi (cs : List Char) : Option Nat :=
  match cs.mapM decVal with
  | none => none
  | some ds => if ds = [] ∨ 0xFFFFFF ≤ digitsVal 10 ds then none else some (digitsVal 10 ds)

/-- The text of a CIDR block: an address and a prefix length that fits its form. -/
def parsePrefix (s : String) : Option (AddrForm × IP × Nat) :=
  match s.toList.span (· != '/') with
  | (_, []) => none
  | (addr, _ :: mask) =>
    match parseAddr addr, dtoi mask with
    | some (form, ip), some n => if n ≤ form.bitLen then some (form, ip, n) else none
    | _, _ => none

/-- `net.ParseCIDR`: the address and its network, `none` for an error. -/
def parseCIDR (s : String) : Option (IP × IPNet) :=
  (parsePrefix s).map fun (form, ip, n) =>
    (ip, ⟨maskIP ip (cidrMask (form.bitLen / 8) n), cidrMask (form.bitLen / 8) n⟩)

/-- `networkNumberAndMask`: the number and the mask of a network, of one length; nil if
they do not fit. -/
def networkNumberAndMask (n : IPNet) : IP × List UInt8 :=
  let ip := (to4 n.ip).getD n.ip
  if ip.length ≠ 4 ∧ ip.length ≠ 16 then ([], [])
  else if n.mask.length = 4 then (if ip.length = 4 then (ip, n.mask) else ([], []))
  else if n.mask.length = 16 then (ip, if ip.length = 4 then n.mask.drop 12 else n.mask)
  else ([], [])

/-- `IPNet.Contains`. -/
def IPNet.contains (n : IPNet) (ip : IP) : Bool :=
  let (nn, m) := networkNumberAndMask n
  let ip := (to4 ip).getD ip
  ip.length = nn.length ∧ List.zipWith (· &&& ·) nn m = List.zipWith (· &&& ·) ip m

end Go
