import Mathlib.Data.Set.Insert
import Mathlib.Data.Finset.Card
import Mathlib.Order.Interval.Finset.Nat

/-! # Linear probing

There are `n` slots in a circle, and some, `U`, are reserved.  A key is inserted at the
first slot that is free from its start on (`FirstFree`), once: a key that has a slot
keeps it.  A table gives the slots of the keys, and `Fills` is what inserting a list of
keys, each with its start, can lead to.

The slot a key would get in an empty table is its first slot.  If the first slots of
the keys differ, then every key gets its own, whatever the order (`Fills.of_distinct`).
If two keys have the same first slot, then the one that is inserted first gets it, and
the table depends on the order (`Fills.ne_of_clash`).

A search whose sum of start and round wraps around at `W` looks at other slots than the
circle has (`wrapped`).  What it finds is still the first free slot
(`FirstFree.of_wrapped`), but some slots it never looks at (`exists_wrapped_iff`). -/
namespace Probing

/-- `id` is the first of the `n` slots that is not in `U`, in cyclic order from `start`. -/
def FirstFree (U : Set Nat) (n start id : Nat) : Prop :=
  ∃ i < n, id = (start + i) % n ∧ id ∉ U ∧ ∀ j < i, (start + j) % n ∈ U

namespace FirstFree
variable {U V : Set Nat} {n start id id' : Nat}

theorem unique (h : FirstFree U n start id) (h' : FirstFree U n start id') : id = id' := by
  obtain ⟨i, -, rfl, hfree, hbefore⟩ := h
  obtain ⟨i', -, rfl, hfree', hbefore'⟩ := h'
  rcases Nat.lt_trichotomy i i' with hlt | rfl | hlt
  · exact absurd (hbefore' i hlt) hfree
  · rfl
  · exact absurd (hbefore i' hlt) hfree'

theorem lt (h : FirstFree U n start id) : id < n := by
  obtain ⟨i, hi, rfl, -, -⟩ := h
  exact Nat.mod_lt _ (Nat.zero_lt_of_lt hi)

theorem notMem (h : FirstFree U n start id) : id ∉ U := by
  obtain ⟨i, -, rfl, hfree, -⟩ := h
  exact hfree

/-- A start that is free is found. -/
theorem of_free (hn : start < n) (h : start ∉ U) : FirstFree U n start start := by
  have hmod : (start + 0) % n = start := Nat.mod_eq_of_lt hn
  exact ⟨0, Nat.zero_lt_of_lt hn, hmod.symm, h, fun j hj => absurd hj (Nat.not_lt_zero j)⟩

/-- It stays the first one when others are taken. -/
theorem mono (h : FirstFree U n start id) (hUV : U ⊆ V) (hid : id ∉ V) :
    FirstFree V n start id := by
  obtain ⟨i, hi, rfl, -, hbefore⟩ := h
  exact ⟨i, hi, rfl, hid, fun j hj => hUV (hbefore j hj)⟩

end FirstFree

/-! ## A search with a sum that wraps around -/

section Wrapped
variable {U : Set Nat} {W n start i id : Nat}

/-- The slot of the `i`th round when the sum of the start and the round is kept below `W`. -/
def wrapped (W n start i : Nat) : Nat := (start + i) % W % n

/-- The slots before the start that the rounds before the wrap do not come to, and the
rounds after it, which begin at 0 again, do not come to either. -/
def Skipped (W n start id : Nat) : Prop := id < start ∧ W ≤ id + n ∧ n + start ≤ id + W

theorem wrapped_of_lt (h : start + i < W) : wrapped W n start i = (start + i) % n := by
  rw [wrapped, Nat.mod_eq_of_lt h]

theorem wrapped_of_le (hn : n ≤ W) (hstart : start < n) (hi : i < n) (h : W ≤ start + i) :
    wrapped W n start i = start + i - W := by
  rw [wrapped, Nat.mod_eq_sub_mod h, Nat.mod_eq_of_lt (show start + i - W < W by omega),
    Nat.mod_eq_of_lt (by omega)]

/-- A slot of the circle is passed once in a round. -/
theorem add_mod_of_le (h : n ≤ start + i) (hlt : start + i < n + n) :
    (start + i) % n = start + i - n := by
  rw [Nat.mod_eq_sub_mod h, Nat.mod_eq_of_lt (by omega)]

/-- **The slots that a search looks at** are those that it does not skip. -/
theorem exists_wrapped_iff (hn : n ≤ W) (hstart : start < n) (hid : id < n) :
    (∃ i < n, wrapped W n start i = id) ↔ ¬ Skipped W n start id := by
  constructor
  · rintro ⟨i, hi, hat⟩ ⟨hbefore, hlong, hshort⟩
    by_cases hW : start + i < W
    · rw [wrapped_of_lt hW] at hat
      by_cases hturn : start + i < n
      · rw [Nat.mod_eq_of_lt hturn] at hat
        omega
      · rw [add_mod_of_le (by omega) (by omega)] at hat
        omega
    · rw [wrapped_of_le hn hstart hi (by omega)] at hat
      omega
  · intro hseen
    by_cases hbefore : start ≤ id
    · refine ⟨id - start, by omega, ?_⟩
      rw [wrapped_of_lt (by omega), Nat.add_sub_cancel' hbefore, Nat.mod_eq_of_lt hid]
    · by_cases hlong : W ≤ id + n
      · have hshort : ¬ n + start ≤ id + W := fun h => hseen ⟨by omega, hlong, h⟩
        refine ⟨id + W - start, by omega, ?_⟩
        rw [wrapped_of_le hn hstart (by omega) (by omega)]
        omega
      · refine ⟨id + n - start, by omega, ?_⟩
        rw [wrapped_of_lt (by omega), add_mod_of_le (by omega) (by omega)]
        omega

/-- In a half of the range nothing is skipped. -/
theorem not_skipped (h : 2 * n ≤ W) (hstart : start < n) : ¬ Skipped W n start id := by
  rintro ⟨hbefore, hlong, -⟩
  omega

/-- **What the search finds first is the first free slot of the circle**: when it has
wrapped, it has come back to the slots from 0 on, in order. -/
theorem FirstFree.of_wrapped (hn : n ≤ W) (hstart : start < n) (hi : i < n)
    (hfree : wrapped W n start i ∉ U) (hbefore : ∀ j < i, wrapped W n start j ∈ U) :
    FirstFree U n start (wrapped W n start i) := by
  by_cases hW : start + i < W
  · refine ⟨i, hi, wrapped_of_lt hW, hfree, fun j hj => ?_⟩
    rw [← wrapped_of_lt (show start + j < W by omega)]
    exact hbefore j hj
  · have hat := wrapped_of_le hn hstart hi (Nat.le_of_not_lt hW)
    -- the place of the slot in the circle
    refine ⟨start + i - W + n - start, by omega, ?_, hfree, fun j hj => ?_⟩
    · rw [hat, add_mod_of_le (by omega) (by omega)]
      omega
    · by_cases hj' : start + j < W
      · rw [← wrapped_of_lt hj']
        exact hbefore j (by omega)
      · rw [add_mod_of_le (by omega) (by omega)]
        have hearlier := hbefore (start + j - n + W - start) (by omega)
        rw [wrapped_of_le hn hstart (by omega) (by omega)] at hearlier
        rwa [show start + (start + j - n + W - start) - W = start + j - n by omega] at hearlier

end Wrapped

variable {κ : Type} {U : Set Nat} {n : Nat}

/-- The slots that are not free: the reserved ones and those of the keys. -/
def taken (U : Set Nat) (t : κ → Option Nat) : Set Nat := U ∪ {id | ∃ k, t k = some id}

/-- Inserting a key. -/
inductive Insert (U : Set Nat) (n : Nat) (key : κ) (start : Nat) (t t' : κ → Option Nat) : Prop
  | present : (t key).isSome → (∀ k, t' k = t k) → Insert U n key start t t'
  | placed (id : Nat) : t key = none → FirstFree (taken U t) n start id → t' key = some id →
      (∀ k, k ≠ key → t' k = t k) → Insert U n key start t t'

/-- Inserting keys, one after the other. -/
inductive Fills (U : Set Nat) (n : Nat) : (κ → Option Nat) → List (κ × Nat) → (κ → Option Nat) → Prop
  | nil {t : κ → Option Nat} : Fills U n t [] t
  | cons {t t' t'' : κ → Option Nat} {key : κ} {start : Nat} {l : List (κ × Nat)} :
      Insert U n key start t t' → Fills U n t' l t'' → Fills U n t ((key, start) :: l) t''

/-- No slot is given twice, and only slots that exist and are not reserved are given. -/
structure Proper (U : Set Nat) (n : Nat) (t : κ → Option Nat) : Prop where
  inj : ∀ k k' id, t k = some id → t k' = some id → k = k'
  range : ∀ k id, t k = some id → id < n ∧ id ∉ U

theorem Proper.empty : Proper U n (fun _ : κ => none) :=
  ⟨fun _ _ _ h => (by cases h), fun _ _ h => (by cases h)⟩

namespace Insert
variable {key : κ} {start : Nat} {t t' : κ → Option Nat}

theorem keep (h : Insert U n key start t t') {k : κ} {id : Nat} (hk : t k = some id) :
    t' k = some id := by
  cases h with
  | present _ hsame => rw [hsame, hk]
  | placed _ hnone _ _ hother =>
    have hne : k ≠ key := by
      rintro rfl
      cases hnone.symm.trans hk
    rw [hother k hne, hk]

theorem isSome_iff (h : Insert U n key start t t') (k : κ) :
    (t' k).isSome ↔ k = key ∨ (t k).isSome := by
  cases h with
  | present hkey hsame =>
    rw [hsame]
    exact ⟨.inr, fun hk => hk.elim (fun he => he ▸ hkey) id⟩
  | placed _ _ _ hnew hother =>
    by_cases hk : k = key
    · rw [hk, hnew]
      simp
    · rw [hother k hk]
      simp [hk]

theorem proper (h : Insert U n key start t t') (ht : Proper U n t) : Proper U n t' := by
  cases h with
  | present _ hsame =>
    obtain rfl : t' = t := funext hsame
    exact ht
  | placed slot hnone hfree hnew hother =>
    have hcase : ∀ k id, t' k = some id → k = key ∧ id = slot ∨ k ≠ key ∧ t k = some id := by
      intro k id hk
      by_cases he : k = key
      · subst he
        exact .inl ⟨rfl, Option.some.inj (hk.symm.trans hnew)⟩
      · exact .inr ⟨he, (hother k he).symm.trans hk⟩
    have hslot : ∀ k, t k ≠ some slot := fun k hk => hfree.notMem (.inr ⟨k, hk⟩)
    refine ⟨fun k k' id hk hk' => ?_, fun k id hk => ?_⟩
    · rcases hcase k id hk with ⟨he, hid⟩ | ⟨-, hold⟩
      · rcases hcase k' id hk' with ⟨he', -⟩ | ⟨-, hold'⟩
        · rw [he, he']
        · exact absurd (hid ▸ hold') (hslot k')
      · rcases hcase k' id hk' with ⟨-, hid'⟩ | ⟨-, hold'⟩
        · exact absurd (hid' ▸ hold) (hslot k)
        · exact ht.inj k k' id hold hold'
    · rcases hcase k id hk with ⟨-, rfl⟩ | ⟨-, hold⟩
      · exact ⟨hfree.lt, fun hU => hfree.notMem (.inl hU)⟩
      · exact ht.range k id hold

end Insert

namespace Fills
variable {t t' : κ → Option Nat} {l : List (κ × Nat)}

theorem keep (h : Fills U n t l t') {k : κ} {id : Nat} (hk : t k = some id) : t' k = some id := by
  induction h with
  | nil => exact hk
  | cons hins _ ih => exact ih (hins.keep hk)

theorem isSome_iff (h : Fills U n t l t') (k : κ) :
    (t' k).isSome ↔ (t k).isSome ∨ k ∈ l.map Prod.fst := by
  induction h with
  | nil => simp
  | cons hins _ ih =>
    rw [ih, hins.isSome_iff, List.map_cons, List.mem_cons]
    exact or_assoc.trans or_left_comm

theorem proper (h : Fills U n t l t') (ht : Proper U n t) : Proper U n t' := by
  induction h with
  | nil => exact ht
  | cons hins _ ih => exact ih (hins.proper ht)

/-- The key that is inserted first gets its first slot. -/
theorem head {key : κ} {start slot : Nat} (hslot : FirstFree U n start slot)
    (h : Fills U n (fun _ => none) ((key, start) :: l) t') : t' key = some slot := by
  cases h with
  | cons hins hrest =>
    cases hins with
    | present hsome _ => cases hsome
    | placed id _ hfree hnew _ =>
      have hnone : taken U (fun _ : κ => none) = U := by
        simp [taken]
      rw [hnone] at hfree
      rw [hslot.unique hfree]
      exact hrest.keep hnew

section Distinct
variable {L : List (κ × Nat)} {slot : Nat → Nat}

/-- Every key has the slot that `slot` gives its start. -/
def Own (L : List (κ × Nat)) (slot : Nat → Nat) (t : κ → Option Nat) : Prop :=
  ∀ k id, t k = some id → ∃ p ∈ L, p.1 = k ∧ slot p.2 = id

theorem own (hslot : ∀ p ∈ L, FirstFree U n p.2 (slot p.2))
    (hdistinct : ∀ p ∈ L, ∀ q ∈ L, p.1 ≠ q.1 → slot p.2 ≠ slot q.2) (h : Fills U n t l t')
    (hl : ∀ p ∈ l, p ∈ L) (ht : Own L slot t) : Own L slot t' := by
  induction h with
  | nil => exact ht
  | @cons t t' _ key start _ hins _ ih =>
    obtain ⟨hkey, hrest⟩ := List.forall_mem_cons.mp hl
    refine ih hrest ?_
    cases hins with
    | present _ hsame =>
      obtain rfl : t' = t := funext hsame
      exact ht
    | placed id hnone hfree hnew hother =>
      -- the first slot is free: the other keys are at theirs
      have hown : slot start ∉ taken U t := by
        rintro (hU | ⟨k, hk⟩)
        · exact (hslot _ hkey).notMem hU
        · obtain ⟨q, hq, rfl, hslotq⟩ := ht k _ hk
          refine hdistinct q hq _ hkey ?_ hslotq
          intro he
          cases hnone.symm.trans (he ▸ hk)
      have hfirst := (hslot _ hkey).mono Set.subset_union_left hown
      intro k id' hk
      by_cases he : k = key
      · subst he
        rw [hnew, hfree.unique hfirst] at hk
        exact ⟨_, hkey, rfl, Option.some.inj hk⟩
      · rw [hother k he] at hk
        exact ht k id' hk

/-- **Keys with different first slots get them**, in whichever order they come. -/
theorem of_distinct (hslot : ∀ p ∈ l, FirstFree U n p.2 (slot p.2))
    (hsame : ∀ p ∈ l, ∀ q ∈ l, p.1 = q.1 → p.2 = q.2)
    (hdistinct : ∀ p ∈ l, ∀ q ∈ l, p.1 ≠ q.1 → slot p.2 ≠ slot q.2)
    (h : Fills U n (fun _ => none) l t') {p : κ × Nat} (hp : p ∈ l) :
    t' p.1 = some (slot p.2) := by
  have hsome := (h.isSome_iff p.1).mpr (.inr (List.mem_map_of_mem hp))
  obtain ⟨id, hid⟩ := Option.isSome_iff_exists.mp hsome
  obtain ⟨q, hq, hkey, rfl⟩ := h.own hslot hdistinct (fun _ hp => hp) (fun _ _ hk => by cases hk) _ _ hid
  rw [hid, hsame q hq p hp hkey]

end Distinct

/-- **Two keys with the same first slot.**  The table depends on which of them is
inserted first. -/
theorem ne_of_clash {t₁ t₂ : κ → Option Nat} {l₁ l₂ : List (κ × Nat)} {k₁ k₂ : κ} {s₁ s₂ slot : Nat}
    (hne : k₁ ≠ k₂) (hslot₁ : FirstFree U n s₁ slot) (hslot₂ : FirstFree U n s₂ slot)
    (h₁ : Fills U n (fun _ => none) ((k₁, s₁) :: l₁) t₁)
    (h₂ : Fills U n (fun _ => none) ((k₂, s₂) :: l₂) t₂) : t₁ k₁ ≠ t₂ k₁ := by
  intro he
  have hfirst := h₂.head hslot₂
  have hsecond : t₂ k₁ = some slot := he.symm.trans (h₁.head hslot₁)
  exact hne ((h₂.proper .empty).inj k₁ k₂ slot hsecond hfirst)

end Fills

/-! ## How many keys fit -/

section Count
variable {t : κ → Option Nat} {S : Finset κ} {F : Finset Nat}

/-- Keys that all have a slot are at most as many as the slots. -/
theorem Proper.card_le (ht : Proper U n t) (hS : ∀ k ∈ S, (t k).isSome)
    (hF : ∀ id < n, id ∉ U → id ∈ F) : S.card ≤ F.card := by
  have hget : ∀ k ∈ S, t k = some ((t k).getD 0) := by
    intro k hk
    obtain ⟨id, hid⟩ := Option.isSome_iff_exists.mp (hS k hk)
    rw [hid, Option.getD_some]
  refine Finset.card_le_card_of_injOn (fun k => (t k).getD 0) ?_ ?_
  · intro k hk
    obtain ⟨hlt, hU⟩ := ht.range k _ (hget k hk)
    exact hF _ hlt hU
  · intro k hk k' hk' he
    refine ht.inj k k' _ (hget k hk) ?_
    rw [show (t k).getD 0 = (t k').getD 0 from he]
    exact hget k' hk'

/-- A table in which no slot is free has as many keys as there are slots. -/
theorem card_le_of_full (hfull : ∀ id < n, id ∈ taken U t) (hF : ∀ id ∈ F, id < n ∧ id ∉ U)
    (hS : ∀ k, (t k).isSome → k ∈ S) : F.card ≤ S.card := by
  refine (Finset.card_le_card fun id hid => ?_).trans
    (Finset.card_image_le (s := S) (f := fun k => (t k).getD 0))
  obtain ⟨hlt, hU⟩ := hF id hid
  obtain ⟨k, hk⟩ := (hfull id hlt).resolve_left hU
  rw [Finset.mem_image]
  exact ⟨k, hS k (Option.isSome_iff_exists.mpr ⟨id, hk⟩), by rw [hk, Option.getD_some]⟩

end Count
end Probing
