import OpenELB.Prog
import Mathlib.Control.Basic

/-! # Preconditions of programs, and programs that fail

`Wp exec Q p s` says that the program `p`, started alone in the state `s`, returns
with `Q` whatever its calls answer: programs are finite, so this is the weakest
precondition of `Q`.  `wp_iff_run` ties it to runs, `wp_bind` takes a program
apart, and `Wp.of_answers` is for the stretches of a program that only ask and
whose answers are fixed.  `Wp.safe` goes from there to programs among others, and
`wp_interp` to programs whose calls are programs themselves.

A program that can fail is one in `ExceptT ε (Prog Call Reply)`.  `ask` makes a call
and `must` goes on with a result or fails with its error; `Wp.except_bind` is the
rule for sequencing, in which a failure of the first part is the failure of the
whole. -/

namespace Prog
variable {Call : Type} {Reply : Call → Type} {α β ε σ : Type}

/-! ## Weakest preconditions -/

section Wp
variable (exec : (c : Call) → σ → Reply c → σ → Prop)

/-- Whatever its calls answer, the program returns with `Q`. -/
def Wp (Q : α → σ → Prop) : Prog Call Reply α → σ → Prop
  | ret a, s => Q a s
  | call c k, s => ∀ r s', exec c s r s' → Wp Q (k r) s'

variable {exec} {Q Q' : α → σ → Prop} {p : Prog Call Reply α} {s : σ}

@[simp] theorem wp_ret {a : α} : Wp exec Q (.ret a : Prog Call Reply α) s ↔ Q a s := Iff.rfl

@[simp] theorem wp_call {c : Call} {k : Reply c → Prog Call Reply α} :
    Wp exec Q (.call c k) s ↔ ∀ r s', exec c s r s' → Wp exec Q (k r) s' := Iff.rfl

/-- A program has the precondition when all its runs end with `Q`. -/
theorem wp_iff_run : Wp exec Q p s ↔ ∀ l a s', Run exec s p l a s' → Q a s' := by
  induction p generalizing s with
  | ret a =>
    constructor
    · rintro h l b s' hr
      obtain ⟨-, rfl, rfl⟩ := run_ret_iff.mp hr
      exact h
    · exact fun h => h [] a s Run.ret
  | call c k ih =>
    constructor
    · rintro h l a s' hr
      obtain ⟨r, s₁, l', he, hr', -⟩ := run_call_iff.mp hr
      exact (ih r).mp (h r s₁ he) l' a s' hr'
    · exact fun h r s₁ he => (ih r).mpr fun l a s' hr => h _ a s' (Run.call he hr)

theorem Wp.of_run {l : List (Event Call Reply)} {a : α} {s' : σ} (h : Wp exec Q p s)
    (hr : Run exec s p l a s') : Q a s' :=
  wp_iff_run.mp h l a s' hr

theorem Wp.mono (h : Wp exec Q p s) (hQ : ∀ a s, Q a s → Q' a s) : Wp exec Q' p s := by
  induction p generalizing s with
  | ret a => exact hQ a s h
  | call c k ih => exact fun r s' he => ih r (h r s' he)

theorem wp_bind {f : α → Prog Call Reply β} {Q : β → σ → Prop} :
    Wp exec Q (p >>= f) s ↔ Wp exec (fun a s => Wp exec Q (f a) s) p s := by
  induction p generalizing s with
  | ret a => exact Iff.rfl
  | call c k ih => exact forall_congr' fun r => forall_congr' fun s' => imp_congr_right fun _ => ih r

/-- What every call of a program keeps, the program keeps. -/
theorem Wp.of_all {P : Call → Prop} {I : σ → Prop} (hp : p.All P)
    (hcall : ∀ c s r s', P c → exec c s r s' → I s → I s') (hs : I s) :
    Wp exec (fun _ s' => I s') p s := by
  induction p generalizing s with
  | ret a => exact hs
  | call c k ih => exact fun r s' he => ih r (hp.2 r) (hcall c s r s' hp.1 he hs)

theorem wp_true : Wp exec (fun _ _ => True) p s := by
  induction p generalizing s with
  | ret a => trivial
  | call c k ih => exact fun r s' _ => ih r

/-- The result of a program whose calls are answered by a function. -/
def answered (answer : (c : Call) → Reply c) : Prog Call Reply α → α
  | ret a => a
  | call c k => answered answer (k (answer c))

theorem Wp.answered {answer : (c : Call) → Reply c} (hans : ∀ c, exec c s (answer c) s)
    (h : Wp exec Q p s) : Q (p.answered answer) s := by
  induction p with
  | ret a => exact h
  | call c k ih => exact ih _ (h _ s (hans c))

/-- A program that only makes calls with a fixed answer. -/
theorem Wp.of_answers {P : Call → Prop} {I : σ → Prop} {answer : (c : Call) → Reply c}
    (hp : p.All P) (hcall : ∀ c s r s', P c → exec c s r s' → I s → r = answer c ∧ I s')
    (hs : I s) (hQ : ∀ s', I s' → Q (p.answered answer) s') : Wp exec Q p s := by
  induction p generalizing s with
  | ret a => exact hQ s hs
  | call c k ih =>
    intro r s' he
    obtain ⟨rfl, hs'⟩ := hcall c s r s' hp.1 he hs
    exact ih _ (hp.2 _) hs' hQ

theorem Wp.and (h : Wp exec Q p s) (h' : Wp exec Q' p s) :
    Wp exec (fun a s => Q a s ∧ Q' a s) p s := by
  induction p generalizing s with
  | ret a => exact ⟨h, h'⟩
  | call c k ih => exact fun r s' he => ih r (h r s' he) (h' r s' he)

/-- A semantics that does less, as long as an invariant holds. -/
theorem Wp.of_exec {exec' : (c : Call) → σ → Reply c → σ → Prop} {I : σ → Prop}
    (hsub : ∀ c s r s', exec' c s r s' → I s → exec c s r s' ∧ I s') (h : Wp exec Q p s)
    (hs : I s) : Wp exec' (fun a s => Q a s ∧ I s) p s := by
  induction p generalizing s with
  | ret a => exact ⟨h, hs⟩
  | call c k ih =>
    intro r s' he
    obtain ⟨he', hs'⟩ := hsub c s r s' he hs
    exact ih r (h r s' he') hs'

/-! ## The calls of a program, for some answers -/

/-- Every call the program makes satisfies `P`, as long as the answers satisfy `H`. -/
def Asks (H : (c : Call) → Reply c → Prop) (P : Call → Prop) : Prog Call Reply α → Prop
  | ret _ => True
  | call c k => P c ∧ ∀ r, H c r → Asks H P (k r)

/-- A call with a given answer is the beginning of a trace, when every call has some. -/
theorem exists_trace_call {H : (c : Call) → Reply c → Prop} (hH : ∀ c, ∃ r, H c r) {c : Call}
    (k : Reply c → Prog Call Reply α) {r : Reply c} (hr : H c r) :
    ∃ l a, Trace H (.call c k) (⟨c, r⟩ :: l) a := by
  obtain ⟨l, a, _, hl⟩ : ∃ l a s', Run (fun c (_ : Unit) r _ => H c r) () (k r) l a s' :=
    exists_run (fun c _ => let ⟨r, hr⟩ := hH c; ⟨r, (), hr⟩) (k r) ()
  exact ⟨l, a, Run.call hr hl⟩

/-- If every call has an answer, these are the calls of the traces. -/
theorem asks_iff_trace {H : (c : Call) → Reply c → Prop} {P : Call → Prop}
    (hH : ∀ c, ∃ r, H c r) :
    p.Asks H P ↔ ∀ l a, Trace H p l a → ∀ ev ∈ l, P ev.call := by
  induction p with
  | ret a =>
    refine ⟨fun _ l b ht ev hev => ?_, fun _ => trivial⟩
    obtain ⟨rfl, -, -⟩ := run_ret_iff.mp ht
    exact absurd hev List.not_mem_nil
  | call c k ih =>
    constructor
    · rintro ⟨hc, hk⟩ l a ht
      obtain ⟨r, s₁, l', hr, ht', rfl⟩ := run_call_iff.mp ht
      exact List.forall_mem_cons.mpr ⟨hc, (ih r).mp (hk r hr) l' a ht'⟩
    · intro h
      have hstep : ∀ r, H c r → (k r).Asks H P := fun r hr => (ih r).mpr fun l a ht ev hev =>
        h _ a (Run.call hr ht) ev (List.mem_cons_of_mem _ hev)
      -- some answer ends in a trace, which begins with the call
      obtain ⟨r, hr⟩ := hH c
      obtain ⟨l, a, ht⟩ := exists_trace_call hH k hr
      exact ⟨h _ a ht _ List.mem_cons_self, hstep⟩

/-! ## Among others -/

/-- The calls of a program among others, which may move the state before each of them. -/
def among (R : σ → σ → Prop) (exec : (c : Call) → σ → Reply c → σ → Prop) :
    (c : Call) → σ → Reply c → σ → Prop :=
  fun c s r s' => ∃ s₁, R s s₁ ∧ exec c s₁ r s'

theorem among_eq : among Eq exec = exec := by
  funext c s r s'
  simp [among]

/-- A program that has the precondition on a part of the state, with what the others do
to that part before each call, is safe among them.  `π` is that part, and `I` what the
calls of the program, and the others, keep of the rest. -/
theorem Wp.safe {τ : Type} (π : τ → σ) (I : τ → Prop) {R₀ : σ → σ → Prop}
    {exec' : (c : Call) → τ → Reply c → τ → Prop} {R : τ → τ → Prop} {P : Call → Prop}
    (hp : p.All P) (hR : ∀ a b, R a b → I a → R₀ (π a) (π b) ∧ I b)
    (hcall : ∀ c t r t', P c → exec' c t r t' → I t → exec c (π t) r (π t') ∧ I t')
    (hQ : ∀ a s s', Q a s → R₀ s s' → Q a s')
    {log : List (Event Call Reply)} {t : τ} (h : Wp (among R₀ exec) Q p (π t)) (ht : I t) :
    Safe exec' R (fun _ _ _ _ _ t' => I t') (fun _ a t' => Q a (π t') ∧ I t') log p t := by
  induction p generalizing t log with
  | ret a =>
    intro t' hR'
    obtain ⟨hπ, hI⟩ := hR t t' hR' ht
    exact ⟨hQ a _ _ h hπ, hI⟩
  | call c k ih =>
    intro t₁ r t₂ hR' he
    obtain ⟨hπ, hI⟩ := hR t t₁ hR' ht
    obtain ⟨he', hI'⟩ := hcall c t₁ r t₂ hp.1 he hI
    exact ⟨hI', ih r (hp.2 r) (h r _ ⟨_, hπ, he'⟩) hI'⟩

/-! ## Programs for the calls of a program -/

section Interp
variable {Call' : Type} {Reply' : Call' → Type}
  (f : (c : Call) → Prog Call' Reply' (Reply c))

/-- A program with each of its calls replaced by a program. -/
def interp : Prog Call Reply α → Prog Call' Reply' α
  | ret a => ret a
  | call c k => f c >>= fun r => interp (k r)

theorem All.interp {P : Call → Prop} {P' : Call' → Prop} (hp : p.All P)
    (hf : ∀ c, P c → (f c).All P') : (p.interp f).All P' := by
  induction p with
  | ret a => trivial
  | call c k ih => exact (hf c hp.1).bind fun r => ih r (hp.2 r)

/-- What a call does when it is replaced by a program. -/
def ran (exec : (c : Call') → σ → Reply' c → σ → Prop) : (c : Call) → σ → Reply c → σ → Prop :=
  fun c s r s' => ∃ l, Run exec s (f c) l r s'

theorem wp_interp {exec : (c : Call') → σ → Reply' c → σ → Prop} :
    Wp exec Q (p.interp f) s ↔ Wp (ran f exec) Q p s := by
  induction p generalizing s with
  | ret a => exact Iff.rfl
  | call c k ih =>
    rw [interp, wp_bind, wp_iff_run]
    constructor
    · rintro h r s' ⟨l, hl⟩
      exact ih r |>.mp (h l r s' hl)
    · exact fun h l r s' hl => (ih r).mpr (h r s' ⟨l, hl⟩)

end Interp

end Wp

/-! ## Programs that fail -/

section Except
variable {exec : (c : Call) → σ → Reply c → σ → Prop}

/-- Make a call, in a program that may fail. -/
def ask (c : Call) : ExceptT ε (Prog Call Reply) (Reply c) :=
  ExceptT.mk (.call c fun r => .ret (.ok r))

/-- Go on with a result, or fail with its error. -/
def must (r : Except ε α) : ExceptT ε (Prog Call Reply) α := ExceptT.mk (.ret r)

/-- Run a program whose error the caller looks at. -/
def attempt (x : ExceptT ε (Prog Call Reply) α) : ExceptT ε (Prog Call Reply) (Except ε α) :=
  ExceptT.mk (x.run >>= fun r => .ret (.ok r))

/-- A condition on a result by cases: `P` of a value, `E` of an error. -/
def either (P : α → σ → Prop) (E : ε → σ → Prop) : Except ε α → σ → Prop
  | .ok a, s => P a s
  | .error e, s => E e s

@[simp] theorem either_ok {P : α → σ → Prop} {E : ε → σ → Prop} {a : α} {s : σ} :
    either P E (.ok a) s ↔ P a s := Iff.rfl

@[simp] theorem either_error {P : α → σ → Prop} {E : ε → σ → Prop} {e : ε} {s : σ} :
    either P E (.error e) s ↔ E e s := Iff.rfl

@[simp] theorem run_pure (a : α) :
    (pure a : ExceptT ε (Prog Call Reply) α).run = .ret (.ok a) := rfl

@[simp] theorem run_throw (e : ε) :
    (throw e : ExceptT ε (Prog Call Reply) α).run = .ret (.error e) := rfl

@[simp] theorem ask_bind (c : Call) (f : Reply c → ExceptT ε (Prog Call Reply) β) :
    (ask c >>= f).run = .call c fun r => (f r).run := rfl

@[simp] theorem run_ask (c : Call) :
    (ask c : ExceptT ε (Prog Call Reply) (Reply c)).run = .call c fun r => .ret (.ok r) := rfl

@[simp] theorem run_must (r : Except ε α) :
    (must r : ExceptT ε (Prog Call Reply) α).run = .ret r := rfl

@[simp] theorem must_ok_bind (a : α) (f : α → ExceptT ε (Prog Call Reply) β) :
    (must (.ok a) >>= f).run = (f a).run := rfl

@[simp] theorem must_error_bind (e : ε) (f : α → ExceptT ε (Prog Call Reply) β) :
    (must (.error e) >>= f).run = .ret (.error e) := rfl

variable {x : ExceptT ε (Prog Call Reply) α} {f : α → ExceptT ε (Prog Call Reply) β}
  {Q : Except ε β → σ → Prop} {s : σ}

/-- **Sequencing**: the second part starts where the first one ends well, and where
that fails the whole has failed. -/
theorem wp_except_bind : Wp exec Q (x >>= f).run s ↔
    Wp exec (either (fun a s => Wp exec Q (f a).run s) fun e s => Q (.error e) s) x.run s := by
  have hrun : (x >>= f).run = x.run >>= ExceptT.bindCont f := rfl
  rw [hrun, wp_bind]
  constructor
  · refine fun h => h.mono fun r s hr => ?_
    cases r <;> exact hr
  · refine fun h => h.mono fun r s hr => ?_
    cases r <;> exact hr

theorem wp_attempt {Q : Except ε (Except ε α) → σ → Prop} :
    Wp exec Q (attempt x).run s ↔ Wp exec (fun r s => Q (.ok r) s) x.run s :=
  wp_bind

/-- Sequencing among others, if the guarantee does not look at what is left. -/
theorem Safe.except_bind {R : σ → σ → Prop} (hrefl : ∀ a, R a a)
    {G : List (Event Call Reply) → (c : Call) → Reply c → σ → σ → Prop}
    {Q : List (Event Call Reply) → Except ε β → σ → Prop} {log : List (Event Call Reply)}
    (hx : Safe exec R (fun log c r _ => G log c r)
      (fun log => either (fun a => Safe exec R (fun log c r _ => G log c r) Q log (f a).run)
        fun e s => ∀ s', R s s' → Q log (.error e) s') log x.run s) :
    Safe exec R (fun log c r _ => G log c r) Q log (x >>= f).run s := by
  have hrun : (x >>= f).run = x.run >>= ExceptT.bindCont f := rfl
  rw [hrun]
  refine Safe.bind hrefl (hx.mono (fun _ _ _ _ _ _ h => h) fun log r s h => ?_)
  cases r with
  | ok a => exact h
  | error e => exact h

theorem all_attempt {P : Call → Prop} (hx : x.run.All P) : (attempt x).run.All P :=
  hx.bind fun _ => trivial

theorem all_except_bind {P : Call → Prop} (hx : x.run.All P) (hf : ∀ a, (f a).run.All P) :
    (x >>= f).run.All P := by
  have hrun : (x >>= f).run = x.run >>= ExceptT.bindCont f := rfl
  rw [hrun]
  refine hx.bind fun r => ?_
  cases r with
  | ok a => exact hf a
  | error e => trivial

end Except

end Prog
