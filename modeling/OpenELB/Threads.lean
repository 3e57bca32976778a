import OpenELB.Prog
import Mathlib.Logic.Function.Basic

/-! # Threads over a shared state

Any number of threads, indexed by `ι`, run operations against one state.  A
thread that is idle may start an operation; a thread inside one makes the next
call of its program, or is done once the program has returned.  Between any two
of these steps the environment may move the state on its own, and what it may do
can depend on what the threads are up to.

`RelyGuarantee` collects what has to be shown of each kind of step once, and
`RelyGuarantee.safe` is what it gives: in every reachable configuration the
invariant holds, and every thread's remaining program is safe.  So every call
that can be made next does what its guarantee says
(`RelyGuarantee.call_guarantee`). -/

namespace Threads
open Prog

variable (ι Op Call : Type) (Reply : Call → Type) (α σ : Type)

/-- What a thread is doing: the operation, the calls it has made, and the rest of
its program. -/
structure Task where
  op : Op
  log : List (Event Call Reply)
  rest : Prog Call Reply α

/-- The shared state and what each thread is doing. -/
structure Conf where
  state : σ
  task : ι → Option (Task Op Call Reply α)

/-- A system of threads. -/
structure System where
  /-- The program of an operation. -/
  body : Op → Prog Call Reply α
  /-- What a call may answer and do to the state. -/
  exec : (c : Call) → σ → Reply c → σ → Prop
  /-- Thread `i` may start an operation. -/
  start : ι → Op → σ → σ → Prop
  /-- Thread `i` is done with an operation that returned a value. -/
  done : ι → Op → α → σ → σ → Prop
  /-- The environment moves the state. -/
  env : (ι → Option (Task Op Call Reply α)) → σ → σ → Prop

variable {ι Op Call Reply α σ} [DecidableEq ι]

namespace System
variable (S : System ι Op Call Reply α σ)

/-- One step of one thread, or of the environment. -/
inductive Step : Conf ι Op Call Reply α σ → Conf ι Op Call Reply α σ → Prop
  | start {c : Conf ι Op Call Reply α σ} (i : ι) (op : Op) (s : σ) :
      c.task i = none → S.start i op c.state s →
      Step c ⟨s, Function.update c.task i (some ⟨op, [], S.body op⟩)⟩
  | call {c : Conf ι Op Call Reply α σ} (i : ι) (op : Op) (log : List (Event Call Reply))
      (x : Call) (k : Reply x → Prog Call Reply α) (r : Reply x) (s : σ) :
      c.task i = some ⟨op, log, .call x k⟩ → S.exec x c.state r s →
      Step c ⟨s, Function.update c.task i (some ⟨op, log ++ [⟨x, r⟩], k r⟩)⟩
  | done {c : Conf ι Op Call Reply α σ} (i : ι) (op : Op) (log : List (Event Call Reply))
      (a : α) (s : σ) :
      c.task i = some ⟨op, log, .ret a⟩ → S.done i op a c.state s →
      Step c ⟨s, Function.update c.task i none⟩
  | env {c : Conf ι Op Call Reply α σ} (s : σ) :
      S.env c.task c.state s → Step c ⟨s, c.task⟩

/-- The configurations reached from a state with all threads idle. -/
inductive Reach (init : σ → Prop) : Conf ι Op Call Reply α σ → Prop
  | init {s : σ} : init s → Reach init ⟨s, fun _ => none⟩
  | step {c d : Conf ι Op Call Reply α σ} : Reach init c → S.Step c d → Reach init d

variable {S}

/-- A thread that makes its next calls alone, with a function that answers them. -/
theorem Reach.advance {init : σ → Prop} {answer : (c : Call) → σ → Option (Reply c × σ)}
    (hans : ∀ x s r s', answer x s = some (r, s') → S.exec x s r s') {n : Nat} {i : ι} {op : Op}
    {log l : List (Event Call Reply)} {p p' : Prog Call Reply α} {s' : σ}
    {c : Conf ι Op Call Reply α σ} (hc : S.Reach init c) (hi : c.task i = some ⟨op, log, p⟩)
    (h : p.advance answer n c.state = some (l, p', s')) :
    S.Reach init ⟨s', Function.update c.task i (some ⟨op, log ++ l, p'⟩)⟩ := by
  induction n generalizing c log p l with
  | zero =>
    cases h
    rw [List.append_nil, ← hi, Function.update_eq_self]
    exact hc
  | succ n ih =>
    cases p with
    | ret a => cases h
    | call x k =>
      rw [Prog.advance] at h
      split at h
      · cases h
      · rename_i r s₁ hr
        obtain ⟨⟨l', p'', s''⟩, hy, he⟩ := Option.map_eq_some_iff.mp h
        cases he
        have hstep := Reach.step hc (Step.call i op log x k r s₁ hi (hans _ _ _ _ hr))
        have hrest := ih hstep (Function.update_self ..) hy
        rw [Function.update_idem, List.append_assoc] at hrest
        exact hrest

/-- An idle thread starts an operation and makes the first calls of it alone. -/
theorem Reach.launch {init : σ → Prop} {answer : (c : Call) → σ → Option (Reply c × σ)}
    (hans : ∀ x s r s', answer x s = some (r, s') → S.exec x s r s') {n : Nat} {i : ι} {op : Op}
    {l : List (Event Call Reply)} {p : Prog Call Reply α} {s s' : σ}
    {c : Conf ι Op Call Reply α σ} (hc : S.Reach init c) (hi : c.task i = none)
    (hst : S.start i op c.state s) (h : (S.body op).advance answer n s = some (l, p, s')) :
    S.Reach init ⟨s', Function.update c.task i (some ⟨op, l, p⟩)⟩ := by
  have hrun := (hc.step (.start i op s hi hst)).advance hans (Function.update_self ..) h
  rwa [Function.update_idem] at hrun

/-- A thread that makes all its calls alone. -/
theorem Reach.eval {init : σ → Prop} {answer : (c : Call) → σ → Option (Reply c × σ)}
    (hans : ∀ x s r s', answer x s = some (r, s') → S.exec x s r s') {i : ι} {op : Op}
    {log : List (Event Call Reply)} {p : Prog Call Reply α} {a : α} {s' : σ}
    {c : Conf ι Op Call Reply α σ} (hc : S.Reach init c) (hi : c.task i = some ⟨op, log, p⟩)
    (h : p.eval answer c.state = some (a, s')) :
    ∃ log', S.Reach init ⟨s', Function.update c.task i (some ⟨op, log', .ret a⟩)⟩ := by
  induction p generalizing c log with
  | ret b =>
    cases h
    refine ⟨log, ?_⟩
    rw [← hi, Function.update_eq_self]
    exact hc
  | call x k ih =>
    rw [Prog.eval] at h
    split at h
    · rename_i r s₁ hr
      have hstep := Reach.step hc (Step.call i op log x k r s₁ hi (hans _ _ _ _ hr))
      obtain ⟨log', hrest⟩ := ih r hstep (Function.update_self ..) h
      rw [Function.update_idem] at hrest
      exact ⟨log', hrest⟩
    · cases h

/-- An idle thread carries out a whole operation alone. -/
theorem Reach.perform {init : σ → Prop} {answer : (c : Call) → σ → Option (Reply c × σ)}
    (hans : ∀ x s r s', answer x s = some (r, s') → S.exec x s r s') {i : ι} {op : Op} {a : α}
    {s s' s'' : σ} {c : Conf ι Op Call Reply α σ} (hc : S.Reach init c) (hi : c.task i = none)
    (hst : S.start i op c.state s) (h : (S.body op).eval answer s = some (a, s'))
    (hd : S.done i op a s' s'') : S.Reach init ⟨s'', c.task⟩ := by
  obtain ⟨log, hrun⟩ :=
    (hc.step (.start i op s hi hst)).eval hans (Function.update_self ..) h
  have hdone := hrun.step (.done i op log a s'' (Function.update_self ..) hd)
  rw [Function.update_idem, Function.update_idem, ← hi, Function.update_eq_self] at hdone
  exact hdone

variable (S)

/-- The system in which operations are only started, and calls only made, where it is
allowed. -/
def restrict (mayStart : ι → Op → σ → Prop) (mayCall : Call → σ → Prop) :
    System ι Op Call Reply α σ :=
  { S with
    start := fun i op s s' => S.start i op s s' ∧ mayStart i op s
    exec := fun c s r s' => S.exec c s r s' ∧ mayCall c s }

/-- What has to hold of each kind of step: an invariant of the state, and for each
thread a rely that every step of the others keeps to. -/
structure RelyGuarantee (Inv : σ → Prop) (R : ι → σ → σ → Prop)
    (G : ι → Op → List (Event Call Reply) → (c : Call) → Reply c → Prog Call Reply α →
      σ → σ → Prop)
    (Q : ι → Op → List (Event Call Reply) → α → σ → Prop) : Prop where
  refl : ∀ i s, R i s s
  trans : ∀ i a b c, R i a b → R i b c → R i a c
  start : ∀ i op s s', Inv s → S.start i op s s' →
    Inv s' ∧ Safe S.exec (R i) (G i op) (Q i op) [] (S.body op) s' ∧ ∀ j, j ≠ i → R j s s'
  call : ∀ i op log c r q s s', Inv s → G i op log c r q s s' →
    Inv s' ∧ ∀ j, j ≠ i → R j s s'
  done : ∀ i op log a s s', Inv s → Q i op log a s → S.done i op a s s' →
    Inv s' ∧ ∀ j, j ≠ i → R j s s'
  env : ∀ tasks s s', Inv s → S.env tasks s s' → Inv s' ∧ ∀ j, R j s s'

namespace RelyGuarantee
variable {S} {Inv : σ → Prop} {R : ι → σ → σ → Prop}
  {G : ι → Op → List (Event Call Reply) → (c : Call) → Reply c → Prog Call Reply α → σ → σ → Prop}
  {Q : ι → Op → List (Event Call Reply) → α → σ → Prop}

/-- The invariant holds of the state, and every thread inside an operation is safe. -/
def Good (S : System ι Op Call Reply α σ) (Inv : σ → Prop) (R : ι → σ → σ → Prop)
    (G : ι → Op → List (Event Call Reply) → (c : Call) → Reply c → Prog Call Reply α →
      σ → σ → Prop)
    (Q : ι → Op → List (Event Call Reply) → α → σ → Prop) (c : Conf ι Op Call Reply α σ) : Prop :=
  Inv c.state ∧ ∀ i t, c.task i = some t →
    Safe S.exec (R i) (G i t.op) (Q i t.op) t.log t.rest c.state

/-- **One step keeps every thread safe.** -/
theorem good_step (h : S.RelyGuarantee Inv R G Q) {c d : Conf ι Op Call Reply α σ}
    (hs : S.Step c d) (hc : Good S Inv R G Q c) : Good S Inv R G Q d := by
  obtain ⟨hinv, hsafe⟩ := hc
  -- the threads that do not move only see their rely
  have others : ∀ (i : ι) (s : σ) (o : Option (Task Op Call Reply α)),
      (∀ j, j ≠ i → R j c.state s) →
      (∀ t, o = some t → Safe S.exec (R i) (G i t.op) (Q i t.op) t.log t.rest s) →
      ∀ j t, Function.update c.task i o j = some t →
        Safe S.exec (R j) (G j t.op) (Q j t.op) t.log t.rest s := by
    intro i s o hR ho j t hj
    by_cases hji : j = i
    · subst hji
      rw [Function.update_self] at hj
      exact ho t hj
    · rw [Function.update_of_ne hji] at hj
      exact (hsafe j t hj).rely (h.trans j) (hR j hji)
  cases hs with
  | start i op s hi hst =>
    obtain ⟨hinv', hbody, hR⟩ := h.start i op _ s hinv hst
    refine ⟨hinv', others i s _ hR ?_⟩
    intro t ht
    cases ht
    exact hbody
  | call i op log x k r s hi he =>
    obtain ⟨hg, hk⟩ := hsafe i _ hi c.state r s (h.refl i _) he
    obtain ⟨hinv', hR⟩ := h.call i op _ _ _ _ _ s hinv hg
    refine ⟨hinv', others i s _ hR ?_⟩
    intro t ht
    cases ht
    exact hk
  | done i op log a s hi hd =>
    have hq := hsafe i _ hi c.state (h.refl i _)
    obtain ⟨hinv', hR⟩ := h.done i op _ a _ s hinv hq hd
    refine ⟨hinv', others i s _ hR ?_⟩
    intro t ht
    cases ht
  | env s he =>
    obtain ⟨hinv', hR⟩ := h.env _ _ s hinv he
    exact ⟨hinv', fun i t hi => (hsafe i t hi).rely (h.trans i) (hR i)⟩

/-- **Every reachable configuration is good.** -/
theorem safe (h : S.RelyGuarantee Inv R G Q) {init : σ → Prop} (hinit : ∀ s, init s → Inv s)
    {c : Conf ι Op Call Reply α σ} (hc : S.Reach init c) : Good S Inv R G Q c := by
  induction hc with
  | init hs => exact ⟨hinit _ hs, fun i t hi => by cases hi⟩
  | step _ hs ih => exact h.good_step hs ih

omit [DecidableEq ι] in
/-- In a good configuration, the next call of a thread does what its guarantee
says. -/
theorem call_guarantee (h : S.RelyGuarantee Inv R G Q) {c : Conf ι Op Call Reply α σ}
    (hc : Good S Inv R G Q c) {i : ι} {op : Op} {log : List (Event Call Reply)} {x : Call}
    {k : Reply x → Prog Call Reply α} {r : Reply x} {s : σ}
    (hi : c.task i = some ⟨op, log, .call x k⟩) (he : S.exec x c.state r s) :
    G i op log x r (k r) c.state s :=
  (hc.2 i _ hi c.state r s (h.refl i _) he).1

end RelyGuarantee
end System
end Threads
