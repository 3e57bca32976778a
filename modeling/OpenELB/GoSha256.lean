import OpenELB.GoNet

/-! # SHA-256

`crypto/sha256.Sum256`, on the bytes of a string.  Words are natural numbers below
`2 ^ 32`, so that digests of short strings can be computed in the kernel.  Nothing is
proved about the function but the length of its result (`length_sum256`): what the
code relies on beyond that, that two given texts do not collide, is an assumption
where it is used. -/
namespace Go
namespace Sha256

/-- The constants of the rounds. -/
def constants : List Nat := [
  0x428a2f98, 0x71374491, 0xb5c0fbcf, 0xe9b5dba5, 0x3956c25b, 0x59f111f1, 0x923f82a4, 0xab1c5ed5,
  0xd807aa98, 0x12835b01, 0x243185be, 0x550c7dc3, 0x72be5d74, 0x80deb1fe, 0x9bdc06a7, 0xc19bf174,
  0xe49b69c1, 0xefbe4786, 0x0fc19dc6, 0x240ca1cc, 0x2de92c6f, 0x4a7484aa, 0x5cb0a9dc, 0x76f988da,
  0x983e5152, 0xa831c66d, 0xb00327c8, 0xbf597fc7, 0xc6e00bf3, 0xd5a79147, 0x06ca6351, 0x14292967,
  0x27b70a85, 0x2e1b2138, 0x4d2c6dfc, 0x53380d13, 0x650a7354, 0x766a0abb, 0x81c2c92e, 0x92722c85,
  0xa2bfe8a1, 0xa81a664b, 0xc24b8b70, 0xc76c51a3, 0xd192e819, 0xd6990624, 0xf40e3585, 0x106aa070,
  0x19a4c116, 0x1e376c08, 0x2748774c, 0x34b0bcb5, 0x391c0cb3, 0x4ed8aa4a, 0x5b9cca4f, 0x682e6ff3,
  0x748f82ee, 0x78a5636f, 0x84c87814, 0x8cc70208, 0x90befffa, 0xa4506ceb, 0xbef9a3f7, 0xc67178f2]

/-- The eight working words. -/
structure Words where
  a : Nat
  b : Nat
  c : Nat
  d : Nat
  e : Nat
  f : Nat
  g : Nat
  h : Nat

/-- The initial hash value. -/
def init : Words :=
  ⟨0x6a09e667, 0xbb67ae85, 0x3c6ef372, 0xa54ff53a, 0x510e527f, 0x9b05688c, 0x1f83d9ab, 0x5be0cd19⟩

/-- A number as a word. -/
def word (n : Nat) : Nat := n % 2 ^ 32

/-- The word rotated to the right. -/
def rotate (k x : Nat) : Nat := word (x >>> k ||| x <<< (32 - k))

/-- The message schedule, the last word first, after `n` more words. -/
def schedule : Nat → List Nat → List Nat
  | 0, ws => ws
  | n + 1, ws =>
    let w2 := ws.getD 1 0
    let w15 := ws.getD 14 0
    let s0 := rotate 7 w15 ^^^ rotate 18 w15 ^^^ (w15 >>> 3)
    let s1 := rotate 17 w2 ^^^ rotate 19 w2 ^^^ (w2 >>> 10)
    schedule n (word (ws.getD 15 0 + s0 + ws.getD 6 0 + s1) :: ws)

/-- One round, with its constant and its word of the schedule. -/
def round (r : Words) (kw : Nat × Nat) : Words :=
  let s1 := rotate 6 r.e ^^^ rotate 11 r.e ^^^ rotate 25 r.e
  let ch := (r.e &&& r.f) ^^^ ((r.e ^^^ 0xffffffff) &&& r.g)
  let t1 := r.h + s1 + ch + kw.1 + kw.2
  let s0 := rotate 2 r.a ^^^ rotate 13 r.a ^^^ rotate 22 r.a
  let maj := (r.a &&& r.b) ^^^ (r.a &&& r.c) ^^^ (r.b &&& r.c)
  ⟨word (t1 + s0 + maj), r.a, r.b, r.c, word (r.d + t1), r.e, r.f, r.g⟩

/-- The compression of one block of sixteen words. -/
def block (r : Words) (ws : List Nat) : Words :=
  let s := (constants.zip (schedule 48 ws.reverse).reverse).foldl round r
  ⟨word (r.a + s.a), word (r.b + s.b), word (r.c + s.c), word (r.d + s.d), word (r.e + s.e),
    word (r.f + s.f), word (r.g + s.g), word (r.h + s.h)⟩

/-- Bytes as words. -/
def words : List UInt8 → List Nat
  | a :: b :: c :: d :: l => beNat [a, b, c, d] :: words l
  | _ => []

/-- The first `n` blocks. -/
def blocks : Nat → List Nat → List (List Nat)
  | 0, _ => []
  | n + 1, ws => ws.take 16 :: blocks n (ws.drop 16)

/-- The message with its padding. -/
def padded (msg : List UInt8) : List UInt8 :=
  msg ++ [0x80] ++ List.replicate ((119 - msg.length % 64) % 64) 0 ++ beBytes 8 (8 * msg.length)

end Sha256

/-- The bytes of a string. -/
def bytesOf (s : String) : List UInt8 := s.toList.flatMap String.utf8EncodeChar

open Sha256 in
/-- `sha256.Sum256([]byte(s))`. -/
def sum256 (s : String) : List UInt8 :=
  let ws := words (padded (bytesOf s))
  let r := (blocks (ws.length / 16) ws).foldl block init
  [r.a, r.b, r.c, r.d, r.e, r.f, r.g, r.h].flatMap (beBytes 4)

theorem length_sum256 (s : String) : (sum256 s).length = 32 := by
  simp [sum256, length_beBytes]

example : sum256 "abc" = [
    186, 120, 22, 191, 143, 1, 207, 234, 65, 65, 64, 222, 93, 174, 34, 35,
    176, 3, 97, 163, 150, 23, 122, 156, 180, 16, 255, 97, 242, 0, 21, 173] := by decide +kernel

/-- The digit of a number below sixteen, in lower case. -/
def hexDigit (n : Nat) : Char := "0123456789abcdef".toList.getD n '0'

/-- `hex.EncodeToString`. -/
def hexEncode (bs : List UInt8) : String :=
  String.ofList (bs.flatMap fun b => [hexDigit (b.toNat / 16), hexDigit (b.toNat % 16)])

theorem hexDigit_inj {m n : Nat} (hm : m < 16) (hn : n < 16) (h : hexDigit m = hexDigit n) :
    m = n := by
  have key : ∀ a b : Fin 16, hexDigit a = hexDigit b → a = b := by decide
  exact congrArg Fin.val (key ⟨m, hm⟩ ⟨n, hn⟩ h)

/-- Two texts that begin with encodings of the same length have the same parts. -/
theorem hexEncode_append_inj {bs bs' : List UInt8} {s s' : String} (hlen : bs.length = bs'.length)
    (h : hexEncode bs ++ s = hexEncode bs' ++ s') : bs = bs' ∧ s = s' := by
  replace h := congrArg String.toList h
  simp only [hexEncode, String.toList_append, String.toList_ofList] at h
  induction bs generalizing bs' with
  | nil =>
    obtain rfl := List.length_eq_zero_iff.mp hlen.symm
    exact ⟨rfl, String.toList_inj.mp (by simpa using h)⟩
  | cons b bs ih =>
    obtain _ | ⟨b', bs'⟩ := bs'
    · cases hlen
    · simp only [List.flatMap_cons, List.cons_append, List.nil_append, List.cons.injEq] at h
      obtain ⟨hhigh, hlow, hrest⟩ := h
      obtain ⟨rfl, hs⟩ := ih (Nat.succ.inj hlen) hrest
      have hb := b.toNat_lt
      have hb' := b'.toNat_lt
      have h1 := hexDigit_inj (by omega) (by omega) hhigh
      have h2 := hexDigit_inj (by omega) (by omega) hlow
      refine ⟨congrArg (· :: bs) (UInt8.toNat_inj.mp ?_), hs⟩
      omega

end Go
