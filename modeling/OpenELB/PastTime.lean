import Mathlib.Data.List.Induction

/-! # Past time

A machine takes a list of inputs one after the other.  `Since` is the operator *since* of
past-time temporal logic: some step of the run had a property, and from then on every
state has had another one.  It is decided by the last step and what held before it
(`since_concat`), so that a law about the past is proved by induction on the last step. -/
namespace PastTime
variable {σ ι : Type} (step : σ → ι → σ) (P : σ → ι → Prop) (Q : σ → Prop) (s : σ)

/-- Some step had the property `P`, and every state since has had `Q`. -/
def Since (xs : List ι) : Prop :=
  ∃ before x rest, xs = before ++ x :: rest ∧ P (before.foldl step s) x ∧
    ∀ mid, mid <+: rest → Q ((before ++ x :: mid).foldl step s)

variable {step P Q s}

theorem not_since_nil : ¬ Since step P Q s [] := by
  rintro ⟨before, x, rest, h, -⟩
  exact List.append_ne_nil_of_right_ne_nil before (List.cons_ne_nil x rest) h.symm

/-- The last state is one of those since. -/
theorem Since.last {xs : List ι} (h : Since step P Q s xs) : Q (xs.foldl step s) := by
  obtain ⟨before, x, rest, rfl, -, hQ⟩ := h
  exact hQ rest (List.prefix_refl rest)

theorem foldl_concat (xs : List ι) (x : ι) :
    (xs ++ [x]).foldl step s = step (xs.foldl step s) x := by
  rw [List.foldl_append, List.foldl_cons, List.foldl_nil]

/-- The last step has the property, or it was had before and still holds. -/
theorem since_concat {xs : List ι} {x : ι} :
    Since step P Q s (xs ++ [x]) ↔
      Q (step (xs.foldl step s) x) ∧ (P (xs.foldl step s) x ∨ Since step P Q s xs) := by
  constructor
  · intro h
    have hlast := h.last
    rw [foldl_concat] at hlast
    refine ⟨hlast, ?_⟩
    obtain ⟨before, y, rest, he, hP, hQ⟩ := h
    rcases List.eq_nil_or_concat rest with rfl | ⟨rest, z, rfl⟩
    · obtain ⟨rfl, hx⟩ := List.append_inj' he rfl
      cases hx
      exact .inl hP
    · rw [List.concat_eq_append] at he hQ
      have hsplit : xs ++ [x] = (before ++ y :: rest) ++ [z] := by
        rw [he, List.append_assoc, List.cons_append]
      obtain ⟨rfl, -⟩ := List.append_inj' hsplit rfl
      refine .inr ⟨before, y, rest, rfl, hP, fun mid hmid => hQ mid ?_⟩
      exact hmid.trans (List.prefix_append rest [z])
  · rintro ⟨hQx, hP | ⟨before, y, rest, rfl, hP, hQ⟩⟩
    · refine ⟨xs, x, [], rfl, hP, fun mid hmid => ?_⟩
      rw [List.prefix_nil.mp hmid, foldl_concat]
      exact hQx
    · refine ⟨before, y, rest ++ [x], by simp, hP, fun mid hmid => ?_⟩
      rcases List.prefix_concat_iff.mp hmid with rfl | hmid
      · have hsame : before ++ y :: (rest ++ [x]) = (before ++ y :: rest) ++ [x] := by simp
        rw [hsame, foldl_concat]
        exact hQx
      · exact hQ mid hmid

/-- **Two pasts that exclude each other.**  When a state starts to have `Q`, the step has
exactly one of two properties, and no other step has either; then in every state with `Q`
exactly one of the two has been since. -/
theorem since_iff_not_since {P' : σ → ι → Prop} (hinit : ¬ Q s)
    (hnew : ∀ t x, ¬ Q t → Q (step t x) → (P t x ↔ ¬ P' t x))
    (hold : ∀ t x, Q t → ¬ P t x ∧ ¬ P' t x) (xs : List ι) (hQ : Q (xs.foldl step s)) :
    Since step P Q s xs ↔ ¬ Since step P' Q s xs := by
  induction xs using List.reverseRecOn with
  | nil => exact absurd hQ hinit
  | append_singleton xs x ih =>
    rw [foldl_concat] at hQ
    rw [since_concat, since_concat, and_iff_right hQ, and_iff_right hQ]
    by_cases hbefore : Q (xs.foldl step s)
    · obtain ⟨hP, hP'⟩ := hold _ x hbefore
      rw [or_iff_right hP, or_iff_right hP']
      exact ih hbefore
    · rw [or_iff_left fun h => hbefore h.last, or_iff_left fun h => hbefore h.last]
      exact hnew _ x hbefore hQ

end PastTime
