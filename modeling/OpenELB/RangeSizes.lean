import OpenELB.Layer2Ranges
import OpenELB.PoolSizes

/-! # Membership in a range and its size

`Contains` compares addresses byte by byte, and `Size` subtracts numbers: those of the last
four bytes, in 64 bits, for an IPv4 range, and those of all sixteen for an IPv6 range.

A range that `ParseRange` gives has two addresses of one family in order (`Ordered`), and for
such a range both speak of the interval of numbers between its ends: an address is in it
exactly if its number is (`Ordered.contains_iff`), and the size is how many there are
(`range_size_eq_ncard`).  The family matters: the two ends of an IPv4 range have the same first
twelve bytes, which `Size` leaves out. -/
namespace OpenELB
open Go IpRange

namespace IpRange

/-! ## The bytes of an IPv4 address as one number -/

/-- `v4ToInt` as it is written: the four bytes, shifted and joined. -/
def v4Word (ip : IP) : Nat :=
  match to4 ip with
  | some [a, b, c, d] => a.toNat <<< 24 ||| b.toNat <<< 16 ||| c.toNat <<< 8 ||| d.toNat
  | _ => 0

theorem joined_eq_beNat (a b c d : UInt8) :
    a.toNat <<< 24 ||| b.toNat <<< 16 ||| c.toNat <<< 8 ||| d.toNat = beNat [a, b, c, d] := by
  have hb := b.toNat_lt
  have hc := c.toNat_lt
  have hd := d.toNat_lt
  -- from the right, each byte stands before a number that has room below it
  have hcd : c.toNat <<< 8 ||| d.toNat = c.toNat * 2 ^ 8 + d.toNat := by
    rw [← Nat.shiftLeft_add_eq_or_of_lt hd, Nat.shiftLeft_eq]
  have hbcd : b.toNat <<< 16 ||| (c.toNat * 2 ^ 8 + d.toNat) =
      b.toNat * 2 ^ 16 + (c.toNat * 2 ^ 8 + d.toNat) := by
    rw [← Nat.shiftLeft_add_eq_or_of_lt (by omega), Nat.shiftLeft_eq]
  have habcd : a.toNat <<< 24 ||| (b.toNat * 2 ^ 16 + (c.toNat * 2 ^ 8 + d.toNat)) =
      a.toNat * 2 ^ 24 + (b.toNat * 2 ^ 16 + (c.toNat * 2 ^ 8 + d.toNat)) := by
    rw [← Nat.shiftLeft_add_eq_or_of_lt (by omega), Nat.shiftLeft_eq]
  rw [Nat.or_assoc, Nat.or_assoc, hcd, hbcd, habcd]
  simp only [beNat_cons, List.length_cons, List.length_nil]
  rw [show beNat [] = 0 from rfl]
  omega

theorem v4Word_eq {ip : IP} (h : isV4IP ip = true) : (v4Word ip : Int) = v4ToInt ip := by
  obtain ⟨p, hp⟩ := Option.isSome_iff_exists.mp h
  obtain ⟨a, b, c, d, rfl⟩ := List.length_eq_four.mp (to4_length hp)
  rw [v4Word, v4ToInt, hp, Option.getD_some, ← joined_eq_beNat]

theorem v4Word_lt (ip : IP) : v4Word ip < 2 ^ 32 := by
  rw [v4Word]
  split
  · rename_i a b c d hp
    rw [joined_eq_beNat]
    calc beNat [a, b, c, d] < 256 ^ 4 := beNat_lt _
      _ = 2 ^ 32 := by norm_num
  · decide

/-- `Size` of a `v4Range`, with each operation in 64 bits. -/
def Range.v4Size (r : Range) : Int := int64 (int64 (v4Word r.last - v4Word r.start) + 1)

/-! ## Ranges in order -/

/-- The ends of a range are sixteen-byte addresses of its family, in order. -/
structure Range.Ordered (r : Range) : Prop where
  start_length : r.start.length = 16
  last_length : r.last.length = 16
  start_family : isV4IP r.start = true ↔ r.family = .v4Family
  last_family : isV4IP r.last = true ↔ r.family = .v4Family
  start_le_last : beNat r.start ≤ beNat r.last

/-- The addresses that the range contains. -/
def Range.addresses (r : Range) : Set IP := {ip | ip.length = 16 ∧ r.contains ip = true}

section Ordered
variable {r : Range}

/-- **What `ParseRange` gives is in order.** -/
theorem Range.Parsed.ordered (h : r.Parsed) : r.Ordered := by
  obtain ⟨x, y, hx, hy, hnew⟩ := h.exists_new
  rw [new_eq hx hy] at hnew
  split at hnew
  · rename_i hends
    obtain ⟨hfam, hle⟩ := hends
    obtain rfl := Option.some.inj hnew
    have hfamily : (to4 x).isSome = true ↔
        (if (to4 x).isSome then Family.v4Family else .v6Family) = .v4Family := by
      by_cases hx4 : (to4 x).isSome
      · rw [if_pos hx4]
        exact iff_of_true hx4 rfl
      · rw [if_neg hx4]
        exact iff_of_false hx4 (nomatch ·)
    exact ⟨hx, hy, hfamily, hfam ▸ hfamily, hle⟩
  · exact nomatch hnew

/-- **The order of the bytes is that of the numbers.** -/
theorem Range.Ordered.contains_iff (h : r.Ordered) {ip : IP} (hip : ip.length = 16) :
    r.contains ip = true ↔ beNat r.start ≤ beNat ip ∧ beNat ip ≤ beNat r.last := by
  rw [Range.contains, decide_eq_true_iff, le_iff_beNat_le (h.start_length.trans hip.symm),
    le_iff_beNat_le (hip.trans h.last_length.symm)]

theorem Range.Ordered.ncard_addresses (h : r.Ordered) :
    r.addresses.ncard = beNat r.last + 1 - beNat r.start := by
  have hwf : (PoolText.range r.start r.last).Wf := by
    refine ⟨fun ip hip => ?_, fun _ _ he => nomatch he⟩
    rcases List.mem_pair.mp hip with rfl | rfl
    · exact h.start_length
    · exact h.last_length
  have hset : r.addresses = {x | (PoolText.range r.start r.last).Has x} :=
    Set.ext fun ip => and_congr_right h.contains_iff
  rw [hset, hwf.ncard]
  rfl

/-- The two ways to count give the difference of the numbers. -/
theorem Range.Ordered.size_eq_sub (h : r.Ordered) :
    r.size = (beNat r.last : Int) - beNat r.start + 1 := by
  have hfam : (to4 r.start).isSome = (to4 r.last).isSome :=
    Bool.eq_iff_iff.mpr (h.start_family.trans h.last_family.symm)
  have hr : r = ⟨if (to4 r.start).isSome then .v4Family else .v6Family, r.start, r.last⟩ := by
    obtain ⟨family, start, last⟩ := r
    congr 1
    split
    · exact h.start_family.mp ‹_›
    · rename_i hnot
      have hne := mt h.start_family.mpr hnot
      rcases family with _ | _
      · exact absurd rfl hne
      · rfl
  rw [hr]
  exact size_eq h.start_length h.last_length hfam

theorem Range.Ordered.size_eq_ncard (h : r.Ordered) : r.size = r.addresses.ncard := by
  have hle := h.start_le_last
  rw [h.size_eq_sub, h.ncard_addresses]
  omega

/-- In 64 bits nothing is lost. -/
theorem Range.Ordered.v4Size_eq (h : r.Ordered) (hv4 : r.family = .v4Family) :
    r.v4Size = r.size := by
  have hstart := v4Word_lt r.start
  have hlast := v4Word_lt r.last
  have hsize : r.size = (v4Word r.last : Int) - v4Word r.start + 1 := by
    rw [v4Word_eq (h.start_family.mpr hv4), v4Word_eq (h.last_family.mpr hv4), Range.size, hv4]
  have hpos : 0 ≤ (v4Word r.last : Int) - v4Word r.start := by
    have hle := h.start_le_last
    rw [h.size_eq_sub] at hsize
    omega
  rw [Range.v4Size, int64_of_lt hpos (by omega), int64_of_lt (by omega) (by omega), hsize]

end Ordered

end IpRange

/-- **Membership and size agree.**  For every text that `ParseRange` reads, the ends are
addresses of one family in order, an address is in the range exactly if its number is between
theirs, and `Size` is how many addresses are in it, also when it is computed in 64 bits. -/
theorem range_size_eq_ncard {s : String} {r : Range} (h : parseRange s = .ok (some r)) :
    r.Ordered ∧
      (∀ ip : IP, ip.length = 16 →
        (r.contains ip = true ↔ beNat r.start ≤ beNat ip ∧ beNat ip ≤ beNat r.last)) ∧
      r.size = r.addresses.ncard ∧
      (r.family = .v4Family → r.v4Size = r.size) := by
  have hordered : r.Ordered := Range.Parsed.ordered ⟨s, h⟩
  exact ⟨hordered, fun ip => hordered.contains_iff, hordered.size_eq_ncard, hordered.v4Size_eq⟩

theorem range_size_eq_ncard_block :
    ∃ r, parseRange "192.0.2.0/30" = .ok (some r) ∧ r.addresses.ncard = 4 ∧ r.v4Size = 4 := by
  let r : Range := ⟨.v4Family, v4InV6Prefix ++ [192, 0, 2, 0], v4InV6Prefix ++ [192, 0, 2, 3]⟩
  have heval : parseRange "192.0.2.0/30" = .ok (some r) ∧ r.size = 4 := by decide +kernel
  obtain ⟨hread, hfour⟩ := heval
  obtain ⟨-, -, hcount, hsize⟩ := range_size_eq_ncard hread
  rw [hfour] at hcount hsize
  exact ⟨r, hread, by omega, hsize rfl⟩

end OpenELB
