import Mathlib.Logic.Basic

/-! # Programs that make calls

A program is a finite tree: it returns, or it makes a call and goes on with the
reply.  `Call` is the type of calls and `Reply c` the type of what a call may
answer, so a `Prog` is code from which every interaction with its surroundings
has been made explicit, and nothing is said about what the calls do.

That is the part of a semantics: a relation `exec c s r s'`, read "in state `s`
the call `c` may answer `r` and leave the state `s'`".  One program can be run
under several semantics.

* `Run` executes a program alone, and records the calls it made.
* `Safe` is for programs that share their state with others.  `R` bounds what
  happens to the state between two of the program's calls (the *rely*), `G` is
  what each call of the program does (the *guarantee*), and `Q` holds when it
  returns.  `G` sees the calls made so far and the program that is left, so it
  can speak of what the program has read and of what it will return.

The rules `Safe.bind`, `Safe.mono` and `Safe.rely` are all that the proofs about
a concrete program need; `Safe.of_run` brings the result back to a run. -/

/-- Programs with result in `α` that make calls `c : Call` answered in `Reply c`. -/
inductive Prog (Call : Type) (Reply : Call → Type) (α : Type) where
  | ret (a : α)
  | call (c : Call) (k : Reply c → Prog Call Reply α)

namespace Prog
variable {Call : Type} {Reply : Call → Type} {α β σ : Type}

/-- A call and its answer. -/
structure Event (Call : Type) (Reply : Call → Type) where
  call : Call
  reply : Reply call

/-- Sequencing. -/
def bind : Prog Call Reply α → (α → Prog Call Reply β) → Prog Call Reply β
  | ret a, f => f a
  | call c k, f => call c fun r => (k r).bind f

instance : Monad (Prog Call Reply) where
  pure := ret
  bind := bind

@[simp] theorem pure_eq (a : α) : (pure a : Prog Call Reply α) = ret a := rfl

@[simp] theorem ret_bind (a : α) (f : α → Prog Call Reply β) : (ret a >>= f) = f a := rfl

@[simp] theorem call_bind (c : Call) (k : Reply c → Prog Call Reply α) (f : α → Prog Call Reply β) :
    (call c k >>= f) = call c fun r => k r >>= f := rfl

theorem bind_assoc {γ : Type} (p : Prog Call Reply α) (f : α → Prog Call Reply β)
    (g : β → Prog Call Reply γ) : (p >>= f) >>= g = p >>= fun a => f a >>= g := by
  induction p with
  | ret a => rfl
  | call c k ih => exact congrArg (call c) (funext fun r => ih r)

/-! ## Calls a program can make -/

/-- Every call the program can make, whatever the answers, satisfies `P`. -/
def All (P : Call → Prop) : Prog Call Reply α → Prop
  | ret _ => True
  | call c k => P c ∧ ∀ r, (k r).All P

theorem All.bind {P : Call → Prop} {p : Prog Call Reply α} {f : α → Prog Call Reply β}
    (hp : p.All P) (hf : ∀ a, (f a).All P) : (p >>= f).All P := by
  induction p with
  | ret a => exact hf a
  | call c k ih => exact ⟨hp.1, fun r => ih r (hp.2 r)⟩

theorem all_true (p : Prog Call Reply α) : p.All fun _ => True := by
  induction p with
  | ret a => trivial
  | call c k ih => exact ⟨trivial, ih⟩

theorem All.mono {P P' : Call → Prop} {p : Prog Call Reply α} (hp : p.All P)
    (h : ∀ c, P c → P' c) : p.All P' := by
  induction p with
  | ret a => trivial
  | call c k ih => exact ⟨h c hp.1, fun r => ih r (hp.2 r)⟩

/-! ## Runs -/

section Semantics
variable (exec : (c : Call) → σ → Reply c → σ → Prop)

/-- The program, run alone from the first state, makes the calls of the list,
returns the value and leaves the last state. -/
inductive Run : σ → Prog Call Reply α → List (Event Call Reply) → α → σ → Prop
  | ret {s : σ} {a : α} : Run s (.ret a) [] a s
  | call {s s₁ s₂ : σ} {c : Call} {k : Reply c → Prog Call Reply α} {r : Reply c}
      {l : List (Event Call Reply)} {a : α} :
      exec c s r s₁ → Run s₁ (k r) l a s₂ → Run s (.call c k) (⟨c, r⟩ :: l) a s₂

variable {exec}

theorem Run.bind {p : Prog Call Reply α} {f : α → Prog Call Reply β} {s s₁ s₂ : σ}
    {l l' : List (Event Call Reply)} {a : α} {b : β} (h : Run exec s p l a s₁)
    (h' : Run exec s₁ (f a) l' b s₂) : Run exec s (p >>= f) (l ++ l') b s₂ := by
  induction h with
  | ret => exact h'
  | call he _ ih => exact Run.call he (ih h')

/-- When every call has some answer, every program has some run. -/
theorem exists_run (h : ∀ c s, ∃ r s', exec c s r s') (p : Prog Call Reply α) (s : σ) :
    ∃ l a s', Run exec s p l a s' := by
  induction p generalizing s with
  | ret a => exact ⟨[], a, s, Run.ret⟩
  | call c k ih =>
    obtain ⟨r, s₁, he⟩ := h c s
    obtain ⟨l, a, s₂, hr⟩ := ih r s₁
    exact ⟨⟨c, r⟩ :: l, a, s₂, Run.call he hr⟩

/-- A run of the first part then is the beginning of a run. -/
theorem Run.exists_bind (h : ∀ c s, ∃ r s', exec c s r s') {p : Prog Call Reply α} {s s₁ : σ}
    {l : List (Event Call Reply)} {a : α} (hp : Run exec s p l a s₁)
    (f : α → Prog Call Reply β) : ∃ l' b s', Run exec s (p >>= f) (l ++ l') b s' := by
  obtain ⟨l', b, s', hrest⟩ := exists_run h (f a) s₁
  exact ⟨l', b, s', hp.bind hrest⟩

/-- Every call of a run is one that the program can make. -/
theorem All.of_run {P : Call → Prop} {p : Prog Call Reply α} {s s' : σ}
    {l : List (Event Call Reply)} {a : α} (hp : p.All P) (h : Run exec s p l a s') :
    ∀ ev ∈ l, P ev.call := by
  induction h with
  | ret => exact fun _ hev => absurd hev List.not_mem_nil
  | call _ _ ih => exact List.forall_mem_cons.mpr ⟨hp.1, ih (hp.2 _)⟩

@[simp] theorem run_ret_iff {s s' : σ} {a b : α} {l : List (Event Call Reply)} :
    Run exec s (.ret a : Prog Call Reply α) l b s' ↔ l = [] ∧ b = a ∧ s' = s := by
  constructor
  · intro h
    cases h
    exact ⟨rfl, rfl, rfl⟩
  · rintro ⟨rfl, rfl, rfl⟩
    exact Run.ret

theorem run_call_iff {s s' : σ} {c : Call} {k : Reply c → Prog Call Reply α} {a : α}
    {l : List (Event Call Reply)} :
    Run exec s (.call c k) l a s' ↔
      ∃ r s₁ l', exec c s r s₁ ∧ Run exec s₁ (k r) l' a s' ∧ l = ⟨c, r⟩ :: l' := by
  constructor
  · intro h
    cases h with
    | call he hr => exact ⟨_, _, _, he, hr, rfl⟩
  · rintro ⟨r, s₁, l', he, hr, rfl⟩
    exact Run.call he hr

theorem run_bind_iff {p : Prog Call Reply α} {f : α → Prog Call Reply β} {s s' : σ} {b : β}
    {l : List (Event Call Reply)} :
    Run exec s (p >>= f) l b s' ↔
      ∃ l₁ l₂ a s₁, Run exec s p l₁ a s₁ ∧ Run exec s₁ (f a) l₂ b s' ∧ l = l₁ ++ l₂ := by
  constructor
  · intro h
    induction p generalizing s l with
    | ret a => exact ⟨[], l, a, s, Run.ret, h, rfl⟩
    | call c k ih =>
      obtain ⟨r, s₁, l', he, hr, rfl⟩ := run_call_iff.mp h
      obtain ⟨l₁, l₂, a, s₂, h₁, h₂, rfl⟩ := ih r hr
      exact ⟨⟨c, r⟩ :: l₁, l₂, a, s₂, Run.call he h₁, h₂, rfl⟩
  · rintro ⟨l₁, l₂, a, s₁, h₁, h₂, rfl⟩
    exact h₁.bind h₂

/-- The program may make the calls of the list, with these answers, and return the
value: a run without a state, in which every answer satisfies `P`. -/
def Trace (P : (c : Call) → Reply c → Prop) (p : Prog Call Reply α)
    (l : List (Event Call Reply)) (a : α) : Prop :=
  Run (fun c (_ : Unit) r _ => P c r) () p l a ()

theorem Run.trace {P : (c : Call) → Reply c → Prop} (hP : ∀ c s r s', exec c s r s' → P c r)
    {p : Prog Call Reply α} {s s' : σ} {l : List (Event Call Reply)} {a : α}
    (h : Run exec s p l a s') : Trace P p l a := by
  induction h with
  | ret => exact Run.ret
  | call he _ ih => exact Run.call (hP _ _ _ _ he) ih

/-- Run a program with a function that answers its calls, as long as it does. -/
def eval (answer : (c : Call) → σ → Option (Reply c × σ)) : Prog Call Reply α → σ → Option (α × σ)
  | ret a, s => some (a, s)
  | call c k, s =>
    match answer c s with
    | some (r, s') => eval answer (k r) s'
    | none => none

/-- What a sound function evaluates a program to, the program may return. -/
theorem run_eval {answer : (c : Call) → σ → Option (Reply c × σ)}
    (h : ∀ c s r s', answer c s = some (r, s') → exec c s r s') {p : Prog Call Reply α} {s s' : σ}
    {a : α} (he : eval answer p s = some (a, s')) : ∃ l, Run exec s p l a s' := by
  induction p generalizing s with
  | ret b =>
    cases he
    exact ⟨[], Run.ret⟩
  | call c k ih =>
    rw [eval] at he
    split at he
    · rename_i r s₁ hr
      obtain ⟨l, hl⟩ := ih r he
      exact ⟨⟨c, r⟩ :: l, Run.call (h c s r s₁ hr) hl⟩
    · cases he

/-- What a program is evaluated to, if all its calls are answered. -/
def returns (answer : (c : Call) → σ → Option (Reply c × σ)) (p : Prog Call Reply α) (s : σ) :
    Option α :=
  (eval answer p s).map (·.1)

/-- The state it leaves. -/
def after (answer : (c : Call) → σ → Option (Reply c × σ)) (p : Prog Call Reply α) (s : σ) : σ :=
  ((eval answer p s).map (·.2)).getD s

theorem eval_of_returns {answer : (c : Call) → σ → Option (Reply c × σ)} {p : Prog Call Reply α}
    {s : σ} {a : α} (h : p.returns answer s = some a) :
    eval answer p s = some (a, p.after answer s) := by
  obtain ⟨⟨b, s'⟩, he, rfl⟩ := Option.map_eq_some_iff.mp h
  rw [after, he]
  rfl

/-! ## Rely and guarantee -/

variable (exec)

/-- In a state `s`, with the calls `log` made, and with the rest of the system
moving the state only by `R`: every call of the program does what `G` says, and
the program returns with `Q`. -/
def Safe (R : σ → σ → Prop)
    (G : List (Event Call Reply) → (c : Call) → Reply c → Prog Call Reply α → σ → σ → Prop)
    (Q : List (Event Call Reply) → α → σ → Prop) :
    List (Event Call Reply) → Prog Call Reply α → σ → Prop
  | log, .ret a, s => ∀ s', R s s' → Q log a s'
  | log, .call c k, s => ∀ s' r s'', R s s' → exec c s' r s'' →
      G log c r (k r) s' s'' ∧ Safe R G Q (log ++ [⟨c, r⟩]) (k r) s''

variable {exec} {R : σ → σ → Prop}
  {G G' : List (Event Call Reply) → (c : Call) → Reply c → Prog Call Reply α → σ → σ → Prop}
  {Q Q' : List (Event Call Reply) → α → σ → Prop} {log : List (Event Call Reply)}
  {p : Prog Call Reply α} {s s' : σ}

/-- Weaker guarantees and postconditions. -/
theorem Safe.mono (h : Safe exec R G Q log p s)
    (hG : ∀ log c r q s s', G log c r q s s' → G' log c r q s s')
    (hQ : ∀ log a s, Q log a s → Q' log a s) : Safe exec R G' Q' log p s := by
  induction p generalizing log s with
  | ret a => exact fun s' hs => hQ _ _ _ (h s' hs)
  | call c k ih =>
    intro s' r s'' hs he
    obtain ⟨hg, hk⟩ := h s' r s'' hs he
    exact ⟨hG _ _ _ _ _ _ hg, ih r hk⟩

/-- The calls of a safe program are calls, besides what is guaranteed of them. -/
theorem Safe.executed (h : Safe exec R G Q log p s) :
    Safe exec R (fun log c r q s s' => G log c r q s s' ∧ exec c s r s') Q log p s := by
  induction p generalizing log s with
  | ret a => exact h
  | call c k ih =>
    intro s' r s'' hs he
    obtain ⟨hg, hk⟩ := h s' r s'' hs he
    exact ⟨⟨hg, he⟩, ih r hk⟩

/-- A program that is safe among others is safe when these do less. -/
theorem Safe.strengthen {R' : σ → σ → Prop} (hR : ∀ a b, R' a b → R a b)
    (h : Safe exec R G Q log p s) : Safe exec R' G Q log p s := by
  induction p generalizing log s with
  | ret a => exact fun s' hs => h s' (hR _ _ hs)
  | call c k ih =>
    intro s' r s'' hs he
    obtain ⟨hg, hk⟩ := h s' r s'' (hR _ _ hs) he
    exact ⟨hg, ih r hk⟩

/-- What others do does not make a safe program unsafe. -/
theorem Safe.rely (htrans : ∀ a b c, R a b → R b c → R a c) (h : Safe exec R G Q log p s)
    (hs : R s s') : Safe exec R G Q log p s' := by
  cases p with
  | ret a => exact fun s'' hs' => h s'' (htrans _ _ _ hs hs')
  | call c k => exact fun s'' r s''' hs' he => h s'' r s''' (htrans _ _ _ hs hs') he

/-- Sequencing: the second program is safe wherever the first one returns. -/
theorem Safe.bind (hrefl : ∀ a, R a a) {f : α → Prog Call Reply β}
    {G : List (Event Call Reply) → (c : Call) → Reply c → Prog Call Reply β → σ → σ → Prop}
    {Q : List (Event Call Reply) → β → σ → Prop}
    (h : Safe exec R (fun log c r q => G log c r (q >>= f))
      (fun log a s => Safe exec R G Q log (f a) s) log p s) :
    Safe exec R G Q log (p >>= f) s := by
  induction p generalizing log s with
  | ret a => exact h s (hrefl s)
  | call c k ih =>
    intro s' r s'' hs he
    obtain ⟨hg, hk⟩ := h s' r s'' hs he
    exact ⟨hg, ih r hk⟩

/-- A program whose calls all do what `G` and `J` say is safe, and what has happened
when it returns is in `J`. -/
theorem Safe.of_all {P : Call → Prop} {J : σ → σ → Prop} (htrans : ∀ a b c, J a b → J b c → J a c)
    (hR : ∀ a b, R a b → J a b)
    (hcall : ∀ log c r q s s', P c → exec c s r s' → G log c r q s s' ∧ J s s') (hp : p.All P) :
    Safe exec R G (fun _ _ s' => J s s') log p s := by
  induction p generalizing log s with
  | ret a => exact hR s
  | call c k ih =>
    intro s₁ r s₂ hs he
    obtain ⟨hg, hj⟩ := hcall log c r (k r) s₁ s₂ hp.1 he
    refine ⟨hg, (ih r (hp.2 r)).mono (fun _ _ _ _ _ _ h => h) ?_⟩
    exact fun _ _ s₃ h => htrans _ _ _ (htrans _ _ _ (hR _ _ hs) hj) h

/-- The same for what holds of the state from the start on. -/
theorem Safe.of_all_inv {P : Call → Prop} {I : σ → Prop} (hR : ∀ a b, R a b → I a → I b)
    (hcall : ∀ log c r q s s', P c → exec c s r s' → I s → G log c r q s s' ∧ I s')
    (hp : p.All P) (hs : I s) : Safe exec R G (fun _ _ s' => I s') log p s := by
  induction p generalizing log s with
  | ret a => exact fun s' h => hR s s' h hs
  | call c k ih =>
    intro s₁ r s₂ hs₁ he
    obtain ⟨hg, hI⟩ := hcall log c r (k r) s₁ s₂ hp.1 he (hR _ _ hs₁ hs)
    exact ⟨hg, ih r (hp.2 r) hI⟩

/-- What a safe program returns is the end of one of its traces. -/
theorem Safe.trace {P : (c : Call) → Reply c → Prop} (hP : ∀ c s r s', exec c s r s' → P c r)
    (h : Safe exec R G Q log p s) :
    Safe exec R G (fun log' a s' => Q log' a s' ∧ ∃ l, log' = log ++ l ∧ Trace P p l a) log p s := by
  induction p generalizing log s with
  | ret a => exact fun s' hs => ⟨h s' hs, [], (List.append_nil _).symm, Run.ret⟩
  | call c k ih =>
    intro s' r s'' hs he
    obtain ⟨hg, hk⟩ := h s' r s'' hs he
    refine ⟨hg, (ih r hk).mono (fun _ _ _ _ _ _ h => h) ?_⟩
    rintro log' a s₁ ⟨hq, l, rfl, ht⟩
    exact ⟨hq, ⟨c, r⟩ :: l, by simp, Run.call (hP _ _ _ _ he) ht⟩

/-- A safe program, run alone, keeps what each of its calls keeps. -/
theorem Safe.keeps (hrefl : ∀ a, R a a) {I : σ → Prop} {l : List (Event Call Reply)} {a : α}
    (hI : ∀ log c r q s s', G log c r q s s' → I s → I s')
    (hr : Run exec s p l a s') (h : Safe exec R G Q log p s) (hs : I s) : I s' := by
  induction hr generalizing log with
  | ret => exact hs
  | @call s s₁ s₂ c k r l a he _ ih =>
    obtain ⟨hg, hk⟩ := h s r s₁ (hrefl s) he
    exact ih hk (hI _ _ _ _ _ _ hg hs)

end Semantics

/-! ## Running a program for some calls -/

/-- The next call of a program. -/
def nextCall : Prog Call Reply α → Option Call
  | ret _ => none
  | call c _ => some c

theorem exists_of_nextCall {p : Prog Call Reply α} {c : Call} (h : p.nextCall = some c) :
    ∃ k, p = call c k := by
  cases p with
  | ret a => cases h
  | call c' k =>
    cases h
    exact ⟨k, rfl⟩

/-- What a program returns, if it has returned. -/
def result : Prog Call Reply α → Option α
  | ret a => some a
  | call _ _ => none

theorem eq_ret_of_result {p : Prog Call Reply α} {a : α} (h : p.result = some a) : p = ret a := by
  cases p with
  | ret b =>
    cases h
    rfl
  | call c k => cases h

/-- The first `n` calls of a program, with a function that answers them: the calls,
the program that is left and the state. -/
def advance (answer : (c : Call) → σ → Option (Reply c × σ)) :
    Nat → Prog Call Reply α → σ → Option (List (Event Call Reply) × Prog Call Reply α × σ)
  | 0, p, s => some ([], p, s)
  | _ + 1, ret _, _ => none
  | n + 1, call c k, s =>
    match answer c s with
    | none => none
    | some (r, s₁) => (advance answer n (k r) s₁).map fun x => (⟨c, r⟩ :: x.1, x.2)

theorem advance_one {answer : (c : Call) → σ → Option (Reply c × σ)} {c : Call}
    {k : Reply c → Prog Call Reply α} {s s' : σ} {l : List (Event Call Reply)}
    {p : Prog Call Reply α} (h : advance answer 1 (call c k) s = some (l, p, s')) :
    ∃ r, answer c s = some (r, s') ∧ p = k r := by
  rw [advance] at h
  split at h
  · cases h
  · rename_i r s₁ hr
    cases h
    exact ⟨r, hr, rfl⟩

end Prog
