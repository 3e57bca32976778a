import OpenELB.ProgLogic
import OpenELB.Threads

/-! # How far a program has got

`Leads p log q` says that the program `p`, after the calls of `log`, has become `q`.  Every
task of a system of threads is what the program of its operation has become
(`Threads.System.Reach.leads`), so what is shown of a call at its place in the program holds
whenever a thread makes it, and `AtMost` bounds the calls that are left.  `Moves` counts the
steps of the threads in a run, for bounds on how long something can take.

`logged` adds the calls so far to the state, for preconditions that speak of them. -/

namespace Prog
variable {Call : Type} {Reply : Call → Type} {α : Type}

/-- After these calls the first program has become the second. -/
inductive Leads : Prog Call Reply α → List (Event Call Reply) → Prog Call Reply α → Prop
  | refl (p : Prog Call Reply α) : Leads p [] p
  | call {c : Call} {k : Reply c → Prog Call Reply α} {r : Reply c} {log : List (Event Call Reply)}
      {q : Prog Call Reply α} : Leads (k r) log q → Leads (.call c k) (⟨c, r⟩ :: log) q

theorem Leads.concat {p : Prog Call Reply α} {log : List (Event Call Reply)} {c : Call}
    {k : Reply c → Prog Call Reply α} (h : Leads p log (.call c k)) (r : Reply c) :
    Leads p (log ++ [⟨c, r⟩]) (k r) := by
  generalize hq : Prog.call c k = q at h
  induction h with
  | refl p =>
    subst hq
    exact .call (.refl _)
  | call _ ih => exact .call (ih hq)

theorem leads_ret_iff {a : α} {log : List (Event Call Reply)} {q : Prog Call Reply α} :
    Leads (.ret a) log q ↔ log = [] ∧ q = .ret a := by
  constructor
  · intro h
    cases h
    exact ⟨rfl, rfl⟩
  · rintro ⟨rfl, rfl⟩
    exact .refl _

theorem leads_call_iff {c : Call} {k : Reply c → Prog Call Reply α} {log : List (Event Call Reply)}
    {q : Prog Call Reply α} :
    Leads (.call c k) log q ↔
      log = [] ∧ q = .call c k ∨ ∃ r l, log = ⟨c, r⟩ :: l ∧ Leads (k r) l q := by
  constructor
  · intro h
    cases h with
    | refl => exact .inl ⟨rfl, rfl⟩
    | call h => exact .inr ⟨_, _, rfl, h⟩
  · rintro (⟨rfl, rfl⟩ | ⟨r, l, rfl, h⟩)
    · exact .refl _
    · exact .call h

/-- A program that has come to another call has made its first one. -/
theorem Leads.of_ne {c c' : Call} {k : Reply c → Prog Call Reply α} {k' : Reply c' → Prog Call Reply α}
    {log : List (Event Call Reply)} (h : Leads (.call c k) log (.call c' k')) (hne : c ≠ c') :
    ∃ r l, log = ⟨c, r⟩ :: l ∧ Leads (k r) l (.call c' k') := by
  rcases leads_call_iff.mp h with ⟨-, he⟩ | hmade
  · exact absurd (Option.some.inj (congrArg nextCall he)).symm hne
  · exact hmade

theorem Leads.not_ret {a : α} {c : Call} {k : Reply c → Prog Call Reply α}
    {log : List (Event Call Reply)} : ¬ Leads (.ret a) log (.call c k) := by
  intro h
  obtain ⟨-, he⟩ := leads_ret_iff.mp h
  exact absurd (congrArg nextCall he) (by simp [nextCall])

theorem Leads.of_ret {a : α} {c : Call} {k : Reply c → Prog Call Reply α}
    {log : List (Event Call Reply)} (h : Leads (.call c k) log (.ret a)) :
    ∃ r l, log = ⟨c, r⟩ :: l ∧ Leads (k r) l (.ret a) := by
  rcases leads_call_iff.mp h with ⟨-, he⟩ | hmade
  · exact absurd (congrArg nextCall he) (by simp [nextCall])
  · exact hmade

/-- The program makes at most `n` calls. -/
def AtMost : Nat → Prog Call Reply α → Prop
  | _, ret _ => True
  | 0, call _ _ => False
  | n + 1, call _ k => ∀ r, AtMost n (k r)

theorem AtMost.of_leads {n : Nat} {p q : Prog Call Reply α} (hp : p.AtMost n)
    {log : List (Event Call Reply)} (h : Leads p log q) :
    log.length ≤ n ∧ q.AtMost (n - log.length) := by
  induction h generalizing n with
  | refl p => exact ⟨Nat.zero_le n, hp⟩
  | call _ ih =>
    cases n with
    | zero => exact hp.elim
    | succ n =>
      obtain ⟨hlen, hq⟩ := ih (hp _)
      refine ⟨Nat.succ_le_succ hlen, ?_⟩
      rw [List.length_cons, Nat.add_sub_add_right]
      exact hq

/-- A program that still has a call to make has not made its last one. -/
theorem AtMost.lt_of_leads {n : Nat} {p : Prog Call Reply α} (hp : p.AtMost n)
    {log : List (Event Call Reply)} {c : Call} {k : Reply c → Prog Call Reply α}
    (h : Leads p log (.call c k)) : log.length < n := by
  obtain ⟨hlen, hq⟩ := hp.of_leads h
  by_contra hle
  rw [Nat.sub_eq_zero_of_le (by omega)] at hq
  exact hq

/-- Whatever its calls answer, the program returns with `P`. -/
def Returns (P : α → Prop) : Prog Call Reply α → Prop
  | ret a => P a
  | call _ k => ∀ r, Returns P (k r)

theorem Returns.of_leads {P : α → Prop} {p : Prog Call Reply α} (hp : p.Returns P)
    {log : List (Event Call Reply)} {a : α} (h : Leads p log (.ret a)) : P a := by
  generalize hq : Prog.ret a = q at h
  induction h with
  | refl p =>
    subst hq
    exact hp
  | call _ ih => exact ih (hp _) hq

/-- The calls, over a state that also keeps what they were and what they answered. -/
def logged {σ : Type} (exec : (c : Call) → σ → Reply c → σ → Prop) :
    (c : Call) → σ × List (Event Call Reply) → Reply c → σ × List (Event Call Reply) → Prop :=
  fun c x r x' => exec c x.1 r x'.1 ∧ x'.2 = x.2 ++ [⟨c, r⟩]

theorem Run.logged {σ : Type} {exec : (c : Call) → σ → Reply c → σ → Prop} {p : Prog Call Reply α}
    {s s' : σ} {l : List (Event Call Reply)} {a : α} (h : Run exec s p l a s')
    (l₀ : List (Event Call Reply)) : Run (Prog.logged exec) (s, l₀) p l a (s', l₀ ++ l) := by
  induction h generalizing l₀ with
  | ret =>
    rw [List.append_nil]
    exact .ret
  | @call s s₁ s₂ c k r l a he _ ih =>
    have hrest := ih (l₀ ++ [⟨c, r⟩])
    rw [List.append_assoc, List.singleton_append] at hrest
    exact .call ⟨he, rfl⟩ hrest

theorem mem_logged_of_ne {l : List (Event Call Reply)} {c : Call} {r : Reply c}
    {ev : Event Call Reply} (hne : ev.call ≠ c) : ev ∈ l ++ [⟨c, r⟩] ↔ ev ∈ l := by
  rw [List.mem_append, List.mem_singleton]
  exact or_iff_left fun h => hne (congrArg Event.call h)

end Prog

namespace Threads.System
open Prog
variable {ι Op Call : Type} {Reply : Call → Type} {α σ : Type} [DecidableEq ι]
  {S : System ι Op Call Reply α σ} {init : σ → Prop} {c : Conf ι Op Call Reply α σ}

/-- What a thread is doing is what the program of its operation has become. -/
theorem Reach.leads (hc : S.Reach init c) {i : ι} {t : Task Op Call Reply α}
    (ht : c.task i = some t) : Leads (S.body t.op) t.log t.rest := by
  induction hc generalizing i t with
  | init _ => cases ht
  | step _ hs ih =>
    -- one thread has moved, and for the others it is as before
    have others : ∀ {j : ι} {o : Option (Task Op Call Reply α)} {task},
        (∀ {i t}, task i = some t → Leads (S.body t.op) t.log t.rest) →
        (∀ t, o = some t → Leads (S.body t.op) t.log t.rest) →
        Function.update task j o i = some t → Leads (S.body t.op) t.log t.rest := by
      intro j o task hold hnew hi
      by_cases hij : i = j
      · subst hij
        rw [Function.update_self] at hi
        exact hnew t hi
      · rw [Function.update_of_ne hij] at hi
        exact hold hi
    cases hs with
    | start j op s hj _ =>
      refine others ih (fun t ht => ?_) ht
      obtain rfl := Option.some.inj ht
      exact .refl _
    | call j op log x k r s hj _ =>
      refine others ih (fun t ht => ?_) ht
      obtain rfl := Option.some.inj ht
      exact (ih hj).concat r
    | done j op log a s hj _ => exact others ih (fun t ht => by cases ht) ht
    | env s _ => exact ih ht

/-- What is asked of an operation when it starts holds of those that are under way. -/
theorem Reach.started {P : ι → Op → Prop} (hstart : ∀ i op s s', S.start i op s s' → P i op)
    (hc : S.Reach init c) {i : ι} {t : Task Op Call Reply α} (ht : c.task i = some t) : P i t.op := by
  induction hc generalizing i t with
  | init _ => cases ht
  | @step c d hc hs ih =>
    have others : ∀ {j : ι} {o : Option (Task Op Call Reply α)}, (∀ t, o = some t → P j t.op) →
        Function.update c.task j o i = some t → P i t.op := by
      intro j o hnew hi
      by_cases hij : i = j
      · subst hij
        rw [Function.update_self] at hi
        exact hnew t hi
      · rw [Function.update_of_ne hij] at hi
        exact ih hi
    cases hs with
    | start j op s hj hst =>
      refine others (fun t ht => ?_) ht
      obtain rfl := Option.some.inj ht
      exact hstart j op _ s hst
    | call j op log x k r s hj _ =>
      refine others (fun t ht => ?_) ht
      obtain rfl := Option.some.inj ht
      exact (ih hj : P j op)
    | done j op log a s hj _ => exact others (fun t ht => by cases ht) ht
    | env s _ => exact ih ht

/-- What holds of a call when it has been answered, and goes on to hold, holds of all calls
that the threads have made. -/
theorem Reach.events {P : σ → Event Call Reply → Prop}
    (hcall : ∀ x s r s', S.exec x s r s' → P s' ⟨x, r⟩)
    (hkeep : ∀ {c d : Conf ι Op Call Reply α σ}, S.Step c d → ∀ ev, P c.state ev → P d.state ev)
    (hc : S.Reach init c) {i : ι} {t : Task Op Call Reply α} (ht : c.task i = some t) :
    ∀ ev ∈ t.log, P c.state ev := by
  induction hc generalizing i t with
  | init _ => cases ht
  | @step c d hc hs ih =>
    have hold : ∀ {j : ι} {t : Task Op Call Reply α}, c.task j = some t → ∀ ev ∈ t.log, P d.state ev :=
      fun hj ev hev => hkeep hs ev (ih hj ev hev)
    -- the thread that has moved has made no call, or one more
    have others : ∀ {j : ι} {o : Option (Task Op Call Reply α)},
        (∀ t, o = some t → ∀ ev ∈ t.log, P d.state ev) →
        Function.update c.task j o i = some t → ∀ ev ∈ t.log, P d.state ev := by
      intro j o hnew hi
      by_cases hij : i = j
      · subst hij
        rw [Function.update_self] at hi
        exact hnew t hi
      · rw [Function.update_of_ne hij] at hi
        exact hold hi
    cases hs with
    | start j op s hj _ =>
      refine others (fun t ht ev hev => ?_) ht
      obtain rfl := Option.some.inj ht
      exact absurd hev List.not_mem_nil
    | call j op log x k r s hj he =>
      refine others (fun t ht ev hev => ?_) ht
      obtain rfl := Option.some.inj ht
      rcases List.mem_append.mp hev with hev | hev
      · exact hold hj ev hev
      · obtain rfl := List.mem_singleton.mp hev
        exact hcall x _ r s he
    | done j op log a s hj _ => exact others (fun t ht => by cases ht) ht
    | env s _ => exact hold ht

variable (S) in
/-- From the first configuration the system gets to the last one, with `n` steps of threads and
any number of steps of the environment. -/
inductive Moves (c : Conf ι Op Call Reply α σ) : Nat → Conf ι Op Call Reply α σ → Prop
  | refl : Moves c 0 c
  | env {n : Nat} {d e : Conf ι Op Call Reply α σ} :
      Moves c n d → S.Step d e → e.task = d.task → Moves c n e
  | thread {n : Nat} {d e : Conf ι Op Call Reply α σ} :
      Moves c n d → S.Step d e → e.task ≠ d.task → Moves c (n + 1) e

theorem Moves.reach {n : Nat} {d : Conf ι Op Call Reply α σ} (h : S.Moves c n d)
    (hc : S.Reach init c) : S.Reach init d := by
  induction h with
  | refl => exact hc
  | env _ hs _ ih => exact ih.step hs
  | thread _ hs _ ih => exact ih.step hs

end Threads.System
