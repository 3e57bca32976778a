import Mathlib.Data.List.Forall2

/-! # Rules for routes

A policy is a list of rules.  A rule that a route meets performs its effects on the route and may
give a verdict; without one, the route goes on to the next rule as the effects have left it.
Nothing is said of what a requirement or an effect means: `holds` and `perform` are arbitrary, so
two policies that evaluate alike do so under every meaning.

Two rules are `Alike` if they have the same effects and verdict and, unless they do nothing at all,
the same requirements.  That is what the meaning of a rule comes down to (`alike_iff`).

A rule is often written as fields that may be left out.  A `Reading` is what one such field says:
nothing, something, or something that cannot be read.  Rules that are read from fields agree in
meaning exactly if the fields are read alike (`agree_iff`), which reduces the comparison of two
notations to one fact for each field. -/
namespace RoutePolicy
variable {κ ε ρ : Type}

/-- What is required of a route, what is done to it, and the verdict, if there is one. -/
structure Rule (κ ε : Type) where
  requires : List κ
  effects : List ε
  verdict : Option Bool
  deriving DecidableEq

section Evaluation
variable (holds : κ → ρ → Bool) (perform : ε → ρ → ρ)

/-- The route meets what the rule requires. -/
def Rule.fires (r : Rule κ ε) (x : ρ) : Bool := r.requires.all (holds · x)

/-- The route as the effects leave it. -/
def Rule.apply (r : Rule κ ε) (x : ρ) : ρ := r.effects.foldl (fun x e => perform e x) x

/-- The route after the rules, and the verdict. -/
def evaluate : List (Rule κ ε) → ρ → ρ × Option Bool
  | [], x => (x, none)
  | r :: rs, x =>
    if r.fires holds x then
      match r.verdict with
      | some v => (r.apply perform x, some v)
      | none => evaluate rs (r.apply perform x)
    else evaluate rs x

end Evaluation

/-- A rule that leaves every route as it is. -/
def Rule.Idle (r : Rule κ ε) : Prop := r.effects = [] ∧ r.verdict = none

/-- Rules that do the same. -/
def Rule.Alike (r r' : Rule κ ε) : Prop :=
  r.effects = r'.effects ∧ r.verdict = r'.verdict ∧
    (r.Idle ∨ ∀ q, q ∈ r.requires ↔ q ∈ r'.requires)

theorem fires_congr {r r' : Rule κ ε} (h : ∀ q, q ∈ r.requires ↔ q ∈ r'.requires)
    (holds : κ → ρ → Bool) (x : ρ) : r.fires holds x = r'.fires holds x := by
  rw [Bool.eq_iff_iff, Rule.fires, Rule.fires, List.all_eq_true, List.all_eq_true]
  exact forall_congr' fun q => by rw [h q]

/-- A rule that does nothing can be left out. -/
theorem evaluate_idle {r : Rule κ ε} (h : r.Idle) (holds : κ → ρ → Bool) (perform : ε → ρ → ρ)
    (rs : List (Rule κ ε)) (x : ρ) :
    evaluate holds perform (r :: rs) x = evaluate holds perform rs x := by
  have happly : r.apply perform x = x := by rw [Rule.apply, h.1, List.foldl_nil]
  rw [evaluate, h.2, happly, ite_self]

/-- **Rules that are alike one by one evaluate alike**, whatever they mean. -/
theorem evaluate_congr {rs rs' : List (Rule κ ε)} (h : List.Forall₂ Rule.Alike rs rs')
    (holds : κ → ρ → Bool) (perform : ε → ρ → ρ) (x : ρ) :
    evaluate holds perform rs x = evaluate holds perform rs' x := by
  induction h generalizing x with
  | nil => rfl
  | @cons r r' rs rs' hr _ ih =>
    obtain ⟨heff, hverdict, hidle | hreq⟩ := hr
    · have hidle' : r'.Idle := ⟨heff ▸ hidle.1, hverdict ▸ hidle.2⟩
      rw [evaluate_idle hidle, evaluate_idle hidle', ih]
    · have happly : r.apply perform x = r'.apply perform x := by rw [Rule.apply, Rule.apply, heff]
      rw [evaluate, evaluate, fires_congr hreq, hverdict, happly]
      split
      · split
        · rfl
        · exact ih _
      · exact ih x

/-- The same evaluation under every meaning of requirements and effects. -/
def SameMeaning (r r' : Rule κ ε) : Prop :=
  ∀ (ρ : Type) (holds : κ → ρ → Bool) (perform : ε → ρ → ρ) (x : ρ),
    evaluate holds perform [r] x = evaluate holds perform [r'] x

theorem SameMeaning.symm {r r' : Rule κ ε} (h : SameMeaning r r') : SameMeaning r' r :=
  fun ρ holds perform x => (h ρ holds perform x).symm

/-- Routes that are records of what has been done to them. -/
theorem evaluate_record (r : Rule κ ε) (holds : κ → List ε → Bool) :
    evaluate holds (fun e x => x ++ [e]) [r] [] =
      if r.fires holds [] then (r.effects, r.verdict) else ([], none) := by
  have hrecord : ∀ (es x : List ε), es.foldl (fun x e => x ++ [e]) x = x ++ es := by
    intro es
    induction es with
    | nil => intro x; exact (List.append_nil x).symm
    | cons e es ih => intro x; rw [List.foldl_cons, ih, List.append_assoc]; rfl
  have happly : r.apply (fun e x => x ++ [e]) [] = r.effects := by
    rw [Rule.apply, hrecord, List.nil_append]
  simp only [evaluate, happly]
  cases r.verdict <;> rfl

/-- A requirement of one rule is one of the other, unless the rules do nothing. -/
theorem SameMeaning.requires [DecidableEq κ] {r r' : Rule κ ε} (h : SameMeaning r r')
    (hidle : ¬ r'.Idle) {q : κ} (hq : q ∈ r.requires) : q ∈ r'.requires := by
  by_contra hq'
  -- a route that meets everything but `q`
  have heval := h (List ε) (fun k _ => k != q) (fun e x => x ++ [e]) []
  have hfires : r.fires (fun k (_ : List ε) => k != q) [] = false := by
    rw [Rule.fires, List.all_eq_false]
    exact ⟨q, hq, by simp⟩
  have hfires' : r'.fires (fun k (_ : List ε) => k != q) [] = true := by
    rw [Rule.fires, List.all_eq_true]
    intro k hk
    simpa using fun hkq : k = q => hq' (hkq ▸ hk)
  rw [evaluate_record, evaluate_record, hfires, hfires', if_pos rfl, if_neg Bool.false_ne_true,
    Prod.mk.injEq] at heval
  exact hidle ⟨heval.1.symm, heval.2.symm⟩

/-- **What the meaning of a rule comes down to.** -/
theorem alike_iff [DecidableEq κ] {r r' : Rule κ ε} : SameMeaning r r' ↔ r.Alike r' := by
  constructor
  · intro h
    have heval := h (List ε) (fun _ _ => true) (fun e x => x ++ [e]) []
    have hfires : ∀ r : Rule κ ε, r.fires (fun _ (_ : List ε) => true) [] = true := fun r =>
      List.all_eq_true.mpr fun _ _ => rfl
    rw [evaluate_record, evaluate_record, hfires, hfires, if_pos rfl, if_pos rfl,
      Prod.mk.injEq] at heval
    obtain ⟨heff, hverdict⟩ := heval
    refine ⟨heff, hverdict, or_iff_not_imp_left.mpr fun hidle q => ?_⟩
    have hidle' : ¬ r'.Idle := fun h' => hidle ⟨heff.trans h'.1, hverdict.trans h'.2⟩
    exact ⟨h.requires hidle', h.symm.requires hidle⟩
  · intro h ρ holds perform x
    exact evaluate_congr (.cons h .nil) holds perform x

/-! ## Rules that are read from fields -/

/-- What a field says: nothing, something, or nothing that can be read. -/
inductive Reading (α : Type) where
  | absent
  | asks (a : α)
  | refused
  deriving DecidableEq

/-- What is asked for, if anything is. -/
def Reading.asked {α : Type} : Reading α → Option α
  | .asks a => some a
  | .absent | .refused => none

/-- The field cannot be read. -/
def Reading.isRefused {α : Type} : Reading α → Bool
  | .refused => true
  | .absent | .asks _ => false

theorem Reading.asked_iff {α : Type} {x : Reading α} {a : α} : x.asked = some a ↔ x = .asks a := by
  cases x <;> simp [asked]

/-- A field that is left out under a condition only. -/
theorem Reading.ite_absent_iff {α : Type} {p : Prop} [Decidable p] {x : Reading α}
    (hx : x ≠ .absent) : (if p then .absent else x) = .absent ↔ p := by
  split
  · rename_i h
    exact iff_of_true rfl h
  · rename_i h
    exact iff_of_false hx h

/-- Readings that can be read are the same if they ask for the same. -/
theorem Reading.ext_asked {α : Type} {x y : Reading α} (hx : x.isRefused = false)
    (hy : y.isRefused = false) (h : ∀ a, x = .asks a ↔ y = .asks a) : x = y := by
  cases x with
  | refused => cases hx
  | asks a => exact ((h a).mp rfl).symm
  | absent =>
    cases y with
    | refused => cases hy
    | absent => rfl
    | asks a => exact (h a).mpr rfl

/-- The fields of a rule: the conditions and the actions, by what they are about, and the
verdict. -/
@[ext] structure Fields (S T κ ε : Type) where
  conditions : S → Reading κ
  actions : T → Reading ε
  verdict : Reading Bool

namespace Fields
variable {S T : Type} (conds : List S) (acts : List T) (f : Fields S T κ ε)

/-- The rule that the fields describe, if all of them can be read. -/
def rule : Option (Rule (S × κ) (T × ε)) :=
  if conds.any (fun s => (f.conditions s).isRefused) ||
      acts.any (fun t => (f.actions t).isRefused) || f.verdict.isRefused then none
  else some
    { requires := conds.filterMap fun s => (f.conditions s).asked.map (s, ·)
      effects := acts.filterMap fun t => (f.actions t).asked.map (t, ·)
      verdict := f.verdict.asked }

/-- The rule is to do something. -/
def Acts : Prop := (∃ t, f.actions t ≠ .absent) ∨ f.verdict ≠ .absent

variable {conds acts f} {f' : Fields S T κ ε} {r r' : Rule (S × κ) (T × ε)}

/-- What a rule has of its fields. -/
theorem rule_eq_some (h : f.rule conds acts = some r) :
    (∀ s ∈ conds, (f.conditions s).isRefused = false) ∧
    (∀ t ∈ acts, (f.actions t).isRefused = false) ∧ f.verdict.isRefused = false ∧
    r.requires = (conds.filterMap fun s => (f.conditions s).asked.map (s, ·)) ∧
    r.effects = (acts.filterMap fun t => (f.actions t).asked.map (t, ·)) ∧
    r.verdict = f.verdict.asked := by
  rw [rule] at h
  split at h
  · cases h
  · rename_i hread
    cases h
    simp only [Bool.or_eq_true, List.any_eq_true, not_or, not_exists, not_and,
      Bool.not_eq_true] at hread
    exact ⟨hread.1.1, hread.1.2, hread.2, rfl, rfl, rfl⟩

theorem mem_requires (h : f.rule conds acts = some r) {s : S} {q : κ} :
    (s, q) ∈ r.requires ↔ s ∈ conds ∧ f.conditions s = .asks q := by
  rw [(rule_eq_some h).2.2.2.1]
  simp [List.mem_filterMap, Reading.asked_iff]

theorem mem_effects (h : f.rule conds acts = some r) {t : T} {e : ε} :
    (t, e) ∈ r.effects ↔ t ∈ acts ∧ f.actions t = .asks e := by
  rw [(rule_eq_some h).2.2.2.2.1]
  simp [List.mem_filterMap, Reading.asked_iff]

/-- A rule that is to do something does something. -/
theorem not_idle (hacts : ∀ t, t ∈ acts) (h : f.rule conds acts = some r) (hf : f.Acts) :
    ¬ r.Idle := by
  rintro ⟨heff, hverdict⟩
  obtain ⟨-, hread, hreadv, -, -, hv⟩ := rule_eq_some h
  rcases hf with ⟨t, ht⟩ | hv'
  · have hr := hread t (hacts t)
    cases hget : f.actions t with
    | absent => exact ht hget
    | refused => rw [hget] at hr; cases hr
    | asks e =>
      have hmem : (t, e) ∈ r.effects := (mem_effects h).mpr ⟨hacts t, hget⟩
      rw [heff] at hmem
      cases hmem
  · rw [hv] at hverdict
    cases hget : f.verdict with
    | absent => exact hv' hget
    | refused => rw [hget] at hreadv; cases hreadv
    | asks v => rw [hget] at hverdict; cases hverdict

/-- Both are refused, or both are rules with one meaning. -/
def Agree : Option (Rule κ ε) → Option (Rule κ ε) → Prop
  | none, none => True
  | some r, some r' => SameMeaning r r'
  | _, _ => False

/-- **A rule means the same in two notations exactly if every field is read alike**, if it is to
do something and the second notation can be read. -/
theorem agree_iff [DecidableEq S] [DecidableEq κ] (hconds : ∀ s, s ∈ conds) (hacts : ∀ t, t ∈ acts)
    (hf : f.Acts) (hr' : f'.rule conds acts = some r') :
    Agree (f.rule conds acts) (f'.rule conds acts) ↔
      (∀ s, f.conditions s = f'.conditions s) ∧ (∀ t, f.actions t = f'.actions t) ∧
        f.verdict = f'.verdict := by
  constructor
  · intro h
    cases hr : f.rule conds acts with
    | none => rw [hr, hr'] at h; cases h
    | some r =>
      rw [hr, hr'] at h
      obtain ⟨heff, hverdict, hidle | hreq⟩ := alike_iff.mp h
      · exact absurd hidle (not_idle hacts hr hf)
      obtain ⟨hc, ha, hv, -, -, hverd⟩ := rule_eq_some hr
      obtain ⟨hc', ha', hv', -, -, hverd'⟩ := rule_eq_some hr'
      refine ⟨fun s => ?_, fun t => ?_, ?_⟩
      · refine Reading.ext_asked (hc s (hconds s)) (hc' s (hconds s)) fun q => ?_
        have := hreq (s, q)
        rw [mem_requires hr, mem_requires hr'] at this
        simpa [hconds s] using this
      · refine Reading.ext_asked (ha t (hacts t)) (ha' t (hacts t)) fun e => ?_
        have : (t, e) ∈ r.effects ↔ (t, e) ∈ r'.effects := by rw [heff]
        rw [mem_effects hr, mem_effects hr'] at this
        simpa [hacts t] using this
      · refine Reading.ext_asked hv hv' fun v => ?_
        rw [← Reading.asked_iff, ← Reading.asked_iff, ← hverd, ← hverd', hverdict]
  · rintro ⟨hc, ha, hv⟩
    rw [Fields.ext (funext hc) (funext ha) hv, hr']
    exact fun _ _ _ _ => rfl

end Fields
end RoutePolicy
