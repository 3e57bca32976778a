import OpenELB.GoNet

/-! # Numbers in texts

`strconv.ParseUint` and `strconv.ParseInt` in base ten, and the search of a text for numbers.

`ParseUint` reads one digit after the other and gives up at the first character that is not a
digit, with 0, or as soon as the number leaves its width, with the greatest number of that width.
The value comes with the error in both cases, so a caller that drops the error goes on with it.
On digits that is one equation (`parseUint_of_digits`).

A regular expression is a function that matches at the start of a text, and `leftmost` tries it at
one position after the other.  `rangeAt` is `(\d+)\.\.(\d+)` and `signedAt` is `([+-]?)(\d+)`.  The
expressions are not anchored: what `rangeAt` finds is the first range in the text, whatever stands
around it (`leftmost_rangeAt_iff`). -/
namespace GoNumber
open Go

/-! ## Digits -/

/-- `\d`. -/
def isDecimal (c : Char) : Bool := (decVal c).isSome

/-- The number that is written after the digits of `n`. -/
def natFrom (n : Nat) (cs : List Char) : Nat :=
  cs.foldl (fun n c => n * 10 + (decVal c).getD 0) n

/-- The number that is written. -/
def natOf (cs : List Char) : Nat := natFrom 0 cs

/-- One or more digits. -/
def IsNumber (cs : List Char) : Prop := cs ≠ [] ∧ cs.all isDecimal = true

instance (cs : List Char) : Decidable (IsNumber cs) :=
  inferInstanceAs (Decidable (_ ∧ _))

@[simp] theorem natFrom_cons (n : Nat) (c : Char) (cs : List Char) :
    natFrom n (c :: cs) = natFrom (n * 10 + (decVal c).getD 0) cs := rfl

theorem le_natFrom (n : Nat) (cs : List Char) : n ≤ natFrom n cs := by
  induction cs generalizing n with
  | nil => exact Nat.le_refl n
  | cons c cs ih =>
    have := ih (n * 10 + (decVal c).getD 0)
    rw [natFrom_cons]
    omega

theorem isDecimal_dot : isDecimal '.' = false := by decide

/-! ## `strconv` -/

/-- `strconv.ErrSyntax` and `strconv.ErrRange`. -/
inductive NumError where
  | form
  | range
  deriving DecidableEq

/-- The loop of `ParseUint`. -/
def parseDigits (max : Nat) : Nat → List Char → Nat × Option NumError
  | n, [] => (n, none)
  | n, c :: cs =>
    match decVal c with
    | none => (0, some .form)
    | some d =>
      if max < n * 10 + d then (max, some .range) else parseDigits max (n * 10 + d) cs

/-- `strconv.ParseUint(s, 10, bits)`. -/
def parseUint (bits : Nat) (cs : List Char) : Nat × Option NumError :=
  if cs = [] then (0, some .form) else parseDigits (2 ^ bits - 1) 0 cs

/-- What `ParseInt` makes of the number after the sign. -/
def withSign (bits : Nat) (neg : Bool) : Nat × Option NumError → Int × Option NumError
  | (_, some .form) => (0, some .form)
  | (un, _) =>
    let cutoff := 2 ^ (bits - 1)
    if neg = false ∧ cutoff ≤ un then (cutoff - 1, some .range)
    else if neg = true ∧ cutoff < un then (-cutoff, some .range)
    else (if neg then -un else un, none)

/-- `strconv.ParseInt(s, 10, bits)`. -/
def parseInt (bits : Nat) (cs : List Char) : Int × Option NumError :=
  match cs with
  | [] => (0, some .form)
  | c :: digits =>
    if c = '+' then withSign bits false (parseUint bits digits)
    else if c = '-' then withSign bits true (parseUint bits digits)
    else withSign bits false (parseUint bits cs)

theorem parseDigits_of_digits {max n : Nat} {cs : List Char} (hn : n ≤ max)
    (hcs : cs.all isDecimal = true) :
    parseDigits max n cs =
      if natFrom n cs ≤ max then (natFrom n cs, none) else (max, some .range) := by
  induction cs generalizing n with
  | nil => rw [parseDigits, natFrom, List.foldl_nil, if_pos hn]
  | cons c cs ih =>
    rw [List.all_cons, Bool.and_eq_true] at hcs
    obtain ⟨hc, hcs⟩ := hcs
    obtain ⟨d, hd⟩ := Option.isSome_iff_exists.mp hc
    simp only [parseDigits, hd, natFrom_cons, Option.getD_some]
    by_cases hmax : max < n * 10 + d
    · -- the number only grows from here
      have hle := le_natFrom (n * 10 + d) cs
      rw [if_pos hmax, if_neg (by omega)]
    · rw [if_neg hmax]
      exact ih (by omega) hcs

/-- **Digits that are too many are read as the greatest number of the width.** -/
theorem parseUint_of_digits {bits : Nat} {cs : List Char} (h : IsNumber cs) :
    parseUint bits cs =
      if natOf cs ≤ 2 ^ bits - 1 then (natOf cs, none) else (2 ^ bits - 1, some .range) := by
  rw [parseUint, if_neg h.1]
  exact parseDigits_of_digits (Nat.zero_le _) h.2

/-- A text that is no number is not read. -/
theorem parseDigits_of_not_digits {max n : Nat} {cs : List Char} (hcs : cs.all isDecimal = false) :
    (parseDigits max n cs).2 ≠ none := by
  induction cs generalizing n with
  | nil => cases hcs
  | cons c cs ih =>
    rw [List.all_cons] at hcs
    cases hd : decVal c with
    | none => simp [parseDigits, hd]
    | some d =>
      have hc : isDecimal c = true := by rw [isDecimal, hd]; rfl
      rw [hc, Bool.true_and] at hcs
      simp only [parseDigits, hd]
      split
      · simp
      · exact ih hcs

theorem parseUint_ok_iff {bits n : Nat} {cs : List Char} :
    parseUint bits cs = (n, none) ↔ IsNumber cs ∧ natOf cs ≤ 2 ^ bits - 1 ∧ n = natOf cs := by
  by_cases h : IsNumber cs
  · rw [parseUint_of_digits h]
    by_cases hle : natOf cs ≤ 2 ^ bits - 1
    · simp [h, hle, eq_comm]
    · simp [hle]
  · refine iff_of_false (fun heq => ?_) fun hn => h hn.1
    by_cases hnil : cs = []
    · rw [parseUint, if_pos hnil] at heq
      cases heq
    · have hall : cs.all isDecimal = false := by
        by_contra hall
        exact h ⟨hnil, by simpa using hall⟩
      rw [parseUint, if_neg hnil] at heq
      exact parseDigits_of_not_digits hall (congrArg Prod.snd heq)

/-- What a sign and digits stand for. -/
def signedVal (sign digits : List Char) : Int :=
  if sign = ['-'] then -(natOf digits : Int) else natOf digits

/-- A sign that may stand before a number. -/
def IsSign (sign : List Char) : Prop := sign = [] ∨ sign = ['+'] ∨ sign = ['-']

theorem IsNumber.head {c : Char} {cs : List Char} (h : IsNumber (c :: cs)) : isDecimal c = true :=
  (Bool.and_eq_true .. ▸ List.all_cons .. ▸ h.2).1

/-- A number does not begin with a sign. -/
theorem IsNumber.not_sign {c : Char} {cs : List Char} (h : IsNumber (c :: cs)) :
    ¬ (c = '+' ∨ c = '-') := by
  have hsigns : isDecimal '+' = false ∧ isDecimal '-' = false := by decide
  rintro (rfl | rfl)
  · exact absurd h.head (by rw [hsigns.1]; decide)
  · exact absurd h.head (by rw [hsigns.2]; decide)

/-- A number after its sign is read if it fits. -/
theorem withSign_ok_iff {bits : Nat} (hbits : 1 < bits) {neg : Bool} {digits : List Char} {v : Int}
    (h : IsNumber digits) :
    withSign bits neg (parseUint bits digits) = (v, none) ↔
      v = (if neg then -(natOf digits : Int) else natOf digits) ∧
        -(2 ^ (bits - 1) : Nat) ≤ v ∧ v < (2 ^ (bits - 1) : Nat) := by
  have hpow : 2 ^ bits = 2 * 2 ^ (bits - 1) := by
    rw [← Nat.pow_succ', Nat.succ_eq_add_one, Nat.sub_add_cancel (by omega)]
  have hpos : 2 ^ 0 < 2 ^ (bits - 1) := Nat.pow_lt_pow_right (by omega) (by omega)
  rw [parseUint_of_digits h, hpow]
  generalize hcut : 2 ^ (bits - 1) = cut at *
  by_cases hle : natOf digits ≤ 2 * cut - 1
  · rw [if_pos hle]
    cases neg with
    | false => by_cases hlt : cut ≤ natOf digits <;> simp [withSign, hcut, hlt] <;> omega
    | true => by_cases hlt : cut < natOf digits <;> simp [withSign, hcut, hlt] <;> omega
  · -- the number is cut to the greatest one, which does not fit either
    rw [if_neg hle]
    cases neg with
    | false =>
      have hlt : cut ≤ 2 * cut - 1 := by omega
      simp [withSign, hcut, hlt]
      omega
    | true =>
      have hlt : cut < 2 * cut - 1 := by omega
      simp [withSign, hcut, hlt]
      omega

/-- A signed number is read if it fits, and as what it stands for. -/
theorem parseInt_ok_iff {bits : Nat} (hbits : 1 < bits) {sign digits : List Char} {v : Int}
    (hsign : IsSign sign) (h : IsNumber digits) :
    parseInt bits (sign ++ digits) = (v, none) ↔
      v = signedVal sign digits ∧ -(2 ^ (bits - 1) : Nat) ≤ v ∧ v < (2 ^ (bits - 1) : Nat) := by
  rcases hsign with rfl | rfl | rfl
  · obtain ⟨c, cs, rfl⟩ := List.exists_cons_of_ne_nil h.1
    obtain ⟨hplus, hminus⟩ := not_or.mp h.not_sign
    rw [List.nil_append, parseInt, if_neg hplus, if_neg hminus, withSign_ok_iff hbits h]
    rfl
  · exact withSign_ok_iff hbits h
  · exact withSign_ok_iff hbits h

/-! ## Searching a text -/

section Leftmost
variable {β : Type} (m : List Char → Option β)

/-- The first match, from one position after the other. -/
def leftmost : List Char → Option β
  | [] => m []
  | c :: cs =>
    match m (c :: cs) with
    | some b => some b
    | none => leftmost cs

variable {m}

theorem leftmost_of_match {cs : List Char} {b : β} (h : m cs = some b) :
    leftmost m cs = some b := by
  cases cs with
  | nil => exact h
  | cons c cs => rw [leftmost, h]

theorem leftmost_of_none {c : Char} {cs : List Char} (h : m (c :: cs) = none) :
    leftmost m (c :: cs) = leftmost m cs := by
  rw [leftmost, h]

end Leftmost

/-- `(\d+)\.\.(\d+)` at the start of a text, with its two numbers. -/
def rangeAt (cs : List Char) : Option (List Char × List Char) :=
  match cs.takeWhile isDecimal, cs.dropWhile isDecimal with
  | a, '.' :: '.' :: cs =>
    let b := cs.takeWhile isDecimal
    if a = [] ∨ b = [] then none else some (a, b)
  | _, _ => none

/-- `([+-]?)(\d+)` at the start of a text, with the sign and the number. -/
def signedAt : List Char → Option (List Char × List Char)
  | [] => none
  | c :: cs =>
    let sign := if c = '+' ∨ c = '-' then [c] else []
    let digits := (if c = '+' ∨ c = '-' then cs else c :: cs).takeWhile isDecimal
    if digits = [] then none else some (sign, digits)

/-- A range stands somewhere in the text. -/
def HasRange (cs : List Char) : Prop :=
  ∃ pre a b post, cs = pre ++ a ++ '.' :: '.' :: (b ++ post) ∧ IsNumber a ∧ IsNumber b

/-- The first range of a text: both numbers are as long as they can be, and no range is complete
before the dots. -/
structure FirstRange (cs a b : List Char) : Prop where
  number_left : IsNumber a
  number_right : IsNumber b
  first : ∃ pre post, cs = pre ++ a ++ '.' :: '.' :: (b ++ post) ∧
    (∀ c, pre.getLast? = some c → isDecimal c = false) ∧
    (∀ c, post.head? = some c → isDecimal c = false) ∧ ¬ HasRange (pre ++ a)

theorem span_number {a r : List Char} (ha : a.all isDecimal = true)
    (hr : ∀ c, r.head? = some c → isDecimal c = false) :
    (a ++ r).takeWhile isDecimal = a ∧ (a ++ r).dropWhile isDecimal = r := by
  have hall := List.all_eq_true.mp ha
  rw [List.takeWhile_append_of_pos hall, List.dropWhile_append_of_pos hall]
  cases r with
  | nil => exact ⟨List.append_nil a, rfl⟩
  | cons c r =>
    have hc := hr c rfl
    simp [hc]

theorem head_dropWhile {cs : List Char} {c : Char}
    (h : (cs.dropWhile isDecimal).head? = some c) : isDecimal c = false := by
  have hnot := List.head?_dropWhile_not isDecimal cs
  rw [h] at hnot
  simpa using hnot

/-- What `rangeAt` matches. -/
theorem rangeAt_iff {cs a b : List Char} : rangeAt cs = some (a, b) ↔
    IsNumber a ∧ IsNumber b ∧ ∃ post, cs = a ++ '.' :: '.' :: (b ++ post) ∧
      ∀ c, post.head? = some c → isDecimal c = false := by
  constructor
  · intro h
    rw [rangeAt] at h
    split at h
    · rename_i rest hdrop
      dsimp only at h
      split at h
      · cases h
      · rename_i hne
        rw [not_or] at hne
        cases h
        refine ⟨⟨hne.1, List.all_takeWhile⟩, ⟨hne.2, List.all_takeWhile⟩,
          rest.dropWhile isDecimal, ?_, fun c hc => head_dropWhile hc⟩
        rw [List.takeWhile_append_dropWhile, ← hdrop, List.takeWhile_append_dropWhile]
    · cases h
  · rintro ⟨ha, hb, post, rfl, hpost⟩
    obtain ⟨htake, hdrop⟩ := span_number (r := '.' :: '.' :: (b ++ post)) ha.2 (by
      rintro c ⟨⟩
      exact isDecimal_dot)
    rw [rangeAt, htake, hdrop]
    simp only [(span_number hb.2 hpost).1, ha.1, hb.1, or_self, if_false]

/-- A range at the start is found, however far its second number goes. -/
theorem rangeAt_isSome {a b : List Char} (ha : IsNumber a) (hb : IsNumber b) (r : List Char) :
    (rangeAt (a ++ '.' :: '.' :: (b ++ r))).isSome = true := by
  have hsplit : r.takeWhile isDecimal ++ r.dropWhile isDecimal = r :=
    List.takeWhile_append_dropWhile
  have hb' : IsNumber (b ++ r.takeWhile isDecimal) := by
    refine ⟨fun h => hb.1 (List.append_eq_nil_iff.mp h).1, ?_⟩
    rw [List.all_append, hb.2, List.all_takeWhile, Bool.and_self]
  have h := rangeAt_iff.mpr
    ⟨ha, hb', r.dropWhile isDecimal, rfl, fun c hc => head_dropWhile hc⟩
  rw [List.append_assoc, hsplit] at h
  rw [h]
  rfl

theorem HasRange.cons {c : Char} {cs : List Char} (h : HasRange cs) : HasRange (c :: cs) := by
  obtain ⟨pre, a, b, post, rfl, ha, hb⟩ := h
  exact ⟨c :: pre, a, b, post, rfl, ha, hb⟩

theorem not_hasRange_of_number {a : List Char} (ha : a.all isDecimal = true) : ¬ HasRange a := by
  rintro ⟨pre, x, y, post, rfl, -, -⟩
  have hdot := List.all_eq_true.mp ha '.' (by simp)
  rw [isDecimal_dot] at hdot
  cases hdot

/-- If no range begins with the first character, the first range is in the rest. -/
theorem FirstRange.of_tail {c : Char} {cs a b : List Char} (hnone : rangeAt (c :: cs) = none)
    (h : FirstRange cs a b) : FirstRange (c :: cs) a b := by
  obtain ⟨ha, hb, pre, post, rfl, hlast, hpost, hfirst⟩ := h
  refine ⟨ha, hb, c :: pre, post, rfl, fun d hd => ?_, hpost, ?_⟩
  · cases pre with
    | cons p pre => exact hlast d (by simpa using hd)
    | nil =>
      -- the digit would belong to the first number
      cases hd
      by_contra hc
      have hca : IsNumber (c :: a) := by
        refine ⟨List.cons_ne_nil _ _, ?_⟩
        rw [List.all_cons, ha.2, Bool.and_true]
        simpa using hc
      have hsome := rangeAt_isSome hca hb post
      rw [List.cons_append, ← List.nil_append a, hnone] at hsome
      cases hsome
  · rintro ⟨pre', x, y, post', heq, hx, hy⟩
    cases pre' with
    | cons p pre' =>
      refine hfirst ⟨pre', x, y, post', ?_, hx, hy⟩
      exact (List.cons.inj heq).2
    | nil =>
      have hsome := rangeAt_isSome hx hy (post' ++ '.' :: '.' :: (b ++ post))
      have hcs : c :: (pre ++ a ++ '.' :: '.' :: (b ++ post)) =
          x ++ '.' :: '.' :: (y ++ (post' ++ '.' :: '.' :: (b ++ post))) := by
        rw [List.nil_append] at heq
        calc c :: (pre ++ a ++ '.' :: '.' :: (b ++ post))
            = (c :: pre ++ a) ++ '.' :: '.' :: (b ++ post) := rfl
          _ = _ := by rw [heq]; simp
      rw [← hcs, hnone] at hsome
      cases hsome

/-- If the dots after `x` begin before the number `a`, a range is complete at its first digit. -/
theorem hasRange_of_dots {x y a t rest tail : List Char} (hx : IsNumber x) (hy : IsNumber y)
    (ha : IsNumber a) (h : '.' :: '.' :: (y ++ rest) = t ++ (a ++ tail)) :
    HasRange (x ++ t ++ a) := by
  obtain ⟨e, y', rfl⟩ := List.exists_cons_of_ne_nil hy.1
  obtain ⟨d, a', rfl⟩ := List.exists_cons_of_ne_nil ha.1
  have hd := ha.head
  rcases t with _ | ⟨p, _ | ⟨q, t⟩⟩
  · simp only [List.nil_append, List.cons_append, List.cons.injEq] at h
    rw [← h.1, isDecimal_dot] at hd
    cases hd
  · simp only [List.nil_append, List.cons_append, List.cons.injEq] at h
    rw [← h.2.1, isDecimal_dot] at hd
    cases hd
  · simp only [List.cons_append, List.cons.injEq] at h
    obtain ⟨rfl, rfl, h⟩ := h
    have he : IsNumber [e] := ⟨List.cons_ne_nil _ _, by simpa using hy.head⟩
    rcases t with _ | ⟨s, t⟩
    · simp only [List.nil_append, List.cons.injEq] at h
      obtain ⟨rfl, -⟩ := h
      exact ⟨[], x, [e], a', by simp, hx, he⟩
    · simp only [List.cons_append, List.cons.injEq] at h
      obtain ⟨rfl, -⟩ := h
      exact ⟨[], x, [e], t ++ d :: a', by simp, hx, he⟩

/-- Before the first range no range begins. -/
theorem rangeAt_before {c : Char} {pre a : List Char} (ha : IsNumber a)
    (hlast : ∀ d, (c :: pre).getLast? = some d → isDecimal d = false)
    (hfirst : ¬ HasRange (c :: pre ++ a)) (b post : List Char) :
    rangeAt (c :: pre ++ a ++ '.' :: '.' :: (b ++ post)) = none := by
  by_contra hsome
  obtain ⟨⟨x, y⟩, hxy⟩ := Option.ne_none_iff_exists'.mp hsome
  obtain ⟨hx, hy, rest, heq, -⟩ := rangeAt_iff.mp hxy
  rw [List.append_assoc, List.append_eq_append_iff] at heq
  rcases heq with ⟨t, rfl, -⟩ | ⟨t, hpre, hrest⟩
  · -- the first number goes over the end of `pre`
    have hd := List.getLast?_eq_getLast_of_ne_nil (List.cons_ne_nil c pre)
    have hmem := List.all_eq_true.mp hx.2 _ (List.mem_append_left t (List.mem_of_getLast? hd))
    rw [hlast _ hd] at hmem
    cases hmem
  · rw [hpre] at hfirst
    exact hfirst (hasRange_of_dots hx hy ha hrest)

/-- **The search finds the first range of a text, and finds one if there is any.** -/
theorem leftmost_rangeAt_iff {cs a b : List Char} :
    leftmost rangeAt cs = some (a, b) ↔ FirstRange cs a b := by
  constructor
  · intro h
    induction cs with
    | nil => cases h
    | cons c cs ih =>
      cases hat : rangeAt (c :: cs) with
      | none =>
        rw [leftmost_of_none hat] at h
        exact (ih h).of_tail hat
      | some ab =>
        rw [leftmost_of_match hat, Option.some_inj] at h
        subst h
        obtain ⟨ha, hb, post, hcs, hpost⟩ := rangeAt_iff.mp hat
        exact ⟨ha, hb, [], post, hcs, by simp, hpost, not_hasRange_of_number ha.2⟩
  · rintro ⟨ha, hb, pre, post, rfl, hlast, hpost, hfirst⟩
    induction pre with
    | nil => exact leftmost_of_match (rangeAt_iff.mpr ⟨ha, hb, post, rfl, hpost⟩)
    | cons c pre ih =>
      have hnone := rangeAt_before ha hlast hfirst b post
      rw [List.cons_append, List.cons_append] at hnone ⊢
      rw [leftmost_of_none hnone]
      refine ih (fun d hd => hlast d ?_) fun hrange => hfirst hrange.cons
      rw [List.getLast?_cons, hd]
      rfl

theorem FirstRange.ne_nil {cs a b : List Char} (h : FirstRange cs a b) : cs ≠ [] := by
  rintro rfl
  obtain ⟨pre, post, hnil, -⟩ := h.first
  simp at hnil

theorem FirstRange.unique {cs a b a' b' : List Char} (h : FirstRange cs a b)
    (h' : FirstRange cs a' b') : a = a' ∧ b = b' := by
  have hfind := leftmost_rangeAt_iff.mpr h
  rw [leftmost_rangeAt_iff.mpr h'] at hfind
  cases hfind
  exact ⟨rfl, rfl⟩

/-- A text that is a signed number. -/
theorem signedAt_exact {sign digits : List Char} (hsign : IsSign sign) (h : IsNumber digits) :
    signedAt (sign ++ digits) = some (sign, digits) := by
  have hall : digits.takeWhile isDecimal = digits := by
    have := (span_number (r := []) h.2 fun c hc => by cases hc).1
    rwa [List.append_nil] at this
  rcases hsign with rfl | rfl | rfl
  · obtain ⟨c, cs, rfl⟩ := List.exists_cons_of_ne_nil h.1
    rw [List.nil_append, signedAt]
    simp only [if_neg h.not_sign, hall, if_neg h.1]
  · rw [List.cons_append, List.nil_append, signedAt]
    simp only [true_or, if_true, hall, if_neg h.1]
  · rw [List.cons_append, List.nil_append, signedAt]
    simp only [or_true, if_true, hall, if_neg h.1]

/-- What `signedAt` matches is a sign and a number. -/
theorem signedAt_some {cs sign digits : List Char} (h : signedAt cs = some (sign, digits)) :
    IsSign sign ∧ IsNumber digits := by
  cases cs with
  | nil => cases h
  | cons c cs =>
    rw [signedAt] at h
    by_cases hc : c = '+' ∨ c = '-'
    · simp only [if_pos hc] at h
      split at h
      · cases h
      · rename_i hne
        cases h
        refine ⟨.inr ?_, hne, List.all_takeWhile⟩
        rcases hc with rfl | rfl
        · exact .inl rfl
        · exact .inr rfl
    · simp only [if_neg hc] at h
      split at h
      · cases h
      · rename_i hne
        cases h
        exact ⟨.inl rfl, hne, List.all_takeWhile⟩

/-- `unicode.IsSpace`. -/
def isSpace (c : Char) : Bool :=
  let n := c.toNat
  (9 ≤ n ∧ n ≤ 13) || n = 0x20 || n = 0x85 || n = 0xa0 || n = 0x1680 || (0x2000 ≤ n ∧ n ≤ 0x200a) ||
    n = 0x2028 || n = 0x2029 || n = 0x202f || n = 0x205f || n = 0x3000

/-- `strings.TrimSpace`. -/
def trimSpace (cs : List Char) : List Char :=
  ((cs.dropWhile isSpace).reverse.dropWhile isSpace).reverse

end GoNumber
