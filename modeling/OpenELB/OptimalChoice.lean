import OpenELB.Evaluation
import OpenELB.PoolChoice

/-! # The choice of `getDefaultEIP` among a list

`PoolChoice` says which Eips of a cluster may be chosen.  Here the Eips are any list,
in any order, with repetitions if the server should send them: `Listed` fixes what the
two reads of `getDefaultEIP` are answered with, and `trace_getDefaultEIP` says what it
returns.  The choice is the best one among the Eips that count, so its rank depends on
which Eips these are and not on where they stand (`rank_unique`). -/
namespace OpenELB
open Go Code

/-- The answers: the namespace, the Eips in their order, and a sorted list. -/
def Listed (ns : Namespace) (eips : List (Version Eip)) : (c : Call) → Reply c → Prop
  | .getNamespace _, r => r = .ok ns
  | .listEips, r => r = .ok eips
  | .sortEips l, r => EipsSorted l r
  | _, _ => True

/-- The Eip is one of the list, counts, and is bound to the namespace. -/
def EligibleIn (name : String) (labels : Map String String) (l : List Eip) (e : Eip) : Prop :=
  e ∈ l ∧ e.usable ∧ e.boundTo name labels

/-- The best of the Eips that count and are bound. -/
def BestIn (name : String) (labels : Map String String) (l : List Eip) (e : Eip) : Prop :=
  EligibleIn name labels l e ∧ ∀ e', EligibleIn name labels l e' → ¬ e'.less e

/-- What the order of `getDefaultEIP` looks at. -/
def Eip.rank (e : Eip) : Bool × Int := (e.status.occupied, e.spec.priority)

/-- The Eip that is taken if none is bound. -/
def firstDefault (l : List Eip) : Option Eip := l.find? fun e => e.usable && e.isDefault

/-- Neither of two Eips precedes the other only if they have one rank. -/
theorem Eip.rank_eq {a b : Eip} (hab : ¬ a.less b) (hba : ¬ b.less a) : a.rank = b.rank := by
  rw [less_iff] at hab hba
  refine Prod.ext ?_ ?_
  · show a.status.occupied = b.status.occupied
    grind
  · show a.spec.priority = b.spec.priority
    grind

section Lists
variable {env : Env} {name : String} {labels : Map String String} {ns : Namespace}
  {l l' : List Eip} {eips : List (Version Eip)} {e e' : Eip}

/-- The first of a sorted list precedes all others or ties with them. -/
theorem bestIn_head {sorted : List Eip}
    (h : EipsSorted (l.flatMap (Eip.copies name labels)) (e :: sorted)) :
    BestIn name labels l e := by
  obtain ⟨hperm, hsorted⟩ := h
  refine ⟨Eip.mem_flatMap_copies_iff.mp (hperm.mem_iff.mp List.mem_cons_self), fun e' he' => ?_⟩
  rcases List.mem_cons.mp (hperm.mem_iff.mpr (Eip.mem_flatMap_copies_iff.mpr he')) with rfl | hmem
  · exact (Eip.not_less_total e' e').elim id id
  · exact (List.pairwise_cons.mp hsorted).1 e' hmem

/-- **Two best Eips have the same rank**, whatever the orders of the two lists. -/
theorem BestIn.rank_unique (hperm : ∀ e, e ∈ l' ↔ e ∈ l) (h : BestIn name labels l e)
    (h' : BestIn name labels l' e') : e.rank = e'.rank := by
  have hl : EligibleIn name labels l e' := ⟨(hperm e').mp h'.1.1, h'.1.2⟩
  have hl' : EligibleIn name labels l' e := ⟨(hperm e).mpr h.1.1, h.1.2⟩
  exact Eip.rank_eq (h'.2 e hl') (h.2 e' hl)

theorem usable_of_firstDefault (h : firstDefault l = some e) : e ∈ l ∧ e.usable ∧ e.isDefault := by
  refine ⟨List.mem_of_find?_eq_some h, ?_⟩
  simpa using List.find?_some h

/-- `getDefaultEIP` on a list, once its reads are answered. -/
theorem trace_getDefaultEIP_iff (hvalid : ∀ e ∈ eips.map Version.obj, e.SelectorValid env ns.labels)
    {log : List (Prog.Event Call Reply)} {o : Outcome Eip} :
    Prog.Trace (Listed ns eips) (getDefaultEIP env name) log o ↔
      ∃ log', log = ⟨.getNamespace name, .ok ns⟩ :: ⟨.listEips, .ok eips⟩ :: log' ∧
        Prog.Trace (Listed ns eips) (pickEip ((eips.map Version.obj).flatMap
          (Eip.copies name ns.labels)) (firstDefault (eips.map Version.obj))) log' o := by
  have hcollect : collectEips env name ns.labels (eips.map Version.obj) [] none = _ :=
    collectEips_eq hvalid
  constructor
  · intro h
    obtain ⟨r, s₁, l₁, rfl, h₁, rfl⟩ := run_api h
    rw [must_ok, Code.pure_bind] at h₁
    obtain ⟨r, s₂, l₂, rfl, h₂, rfl⟩ := run_api h₁
    rw [must_ok, Code.pure_bind, hcollect] at h₂
    exact ⟨l₂, rfl, h₂⟩
  · rintro ⟨log', rfl, h⟩
    refine trace_of_api rfl (trace_of_api rfl ?_)
    rw [must_ok, Code.pure_bind, hcollect]
    exact h

/-- **What `getDefaultEIP` returns**: a best Eip if any is bound, and otherwise the first
default one. -/
theorem trace_getDefaultEIP (hvalid : ∀ e ∈ eips.map Version.obj, e.SelectorValid env ns.labels)
    {log : List (Prog.Event Call Reply)} {o : Outcome Eip}
    (h : Prog.Trace (Listed ns eips) (getDefaultEIP env name) log o) :
    (∃ e, o = .ok e ∧ BestIn name ns.labels (eips.map Version.obj) e) ∨
      (∀ e, ¬ EligibleIn name ns.labels (eips.map Version.obj) e) ∧
        o = (firstDefault (eips.map Version.obj)).elim
          (.err (.text "no available default eip found")) .ok := by
  obtain ⟨log', -, hpick⟩ := (trace_getDefaultEIP_iff hvalid).mp h
  unfold pickEip at hpick
  split at hpick
  · rename_i hne
    obtain ⟨sorted, s₁, l₁, hsorted, hrun, -⟩ := run_api hpick
    replace hsorted : EipsSorted _ sorted := hsorted
    cases sorted with
    | nil => exact absurd (List.nil_perm.mp hsorted.1) hne
    | cons e sorted => exact .inl ⟨e, (run_pure_iff.mp hrun).2.1, bestIn_head hsorted⟩
  · rename_i hnil
    refine .inr ⟨fun e he => ?_, ?_⟩
    · have hmem := Eip.mem_flatMap_copies_iff.mpr he
      rw [not_not.mp hnil] at hmem
      exact absurd hmem List.not_mem_nil
    · split at hpick
      · rename_i e he
        rw [he]
        exact (run_pure_iff.mp hpick).2.1
      · rename_i he
        rw [he]
        exact (run_fail_iff.mp hpick).2.1

/-- `getDefaultEIP` ends, with some way of sorting the Eips. -/
theorem exists_trace_getDefaultEIP
    (hvalid : ∀ e ∈ eips.map Version.obj, e.SelectorValid env ns.labels) :
    ∃ log o, Prog.Trace (Listed ns eips) (getDefaultEIP env name) log o := by
  suffices hpick : ∃ log o, Prog.Trace (Listed ns eips) (pickEip ((eips.map Version.obj).flatMap
      (Eip.copies name ns.labels)) (firstDefault (eips.map Version.obj))) log o by
    obtain ⟨log, o, hpick⟩ := hpick
    exact ⟨_, o, (trace_getDefaultEIP_iff hvalid).mpr ⟨log, rfl, hpick⟩⟩
  unfold pickEip
  split
  · rename_i hne
    obtain ⟨sorted, hsorted⟩ := exists_eipsSorted ((eips.map Version.obj).flatMap
      (Eip.copies name ns.labels))
    cases sorted with
    | nil => exact absurd (List.nil_perm.mp hsorted.1) hne
    | cons e sorted =>
      exact ⟨_, .ok e, trace_of_api hsorted (run_pure_iff.mpr ⟨rfl, rfl, rfl⟩)⟩
  · split
    · exact ⟨[], _, run_pure_iff.mpr ⟨rfl, rfl, rfl⟩⟩
    · exact ⟨[], _, run_fail_iff.mpr ⟨rfl, rfl, rfl⟩⟩

/-- **The automatic choice is optimal.**  On every list of Eips `getDefaultEIP` returns an
Eip of the list that counts: one that no other bound Eip precedes, or if none is bound the
first default one.  It fails only when there is neither.  For the same Eips in another
order, the Eip chosen among the bound ones has the same rank. -/
theorem default_choice_optimal
    (hvalid : ∀ e ∈ eips.map Version.obj, e.SelectorValid env ns.labels) :
    (∃ log o, Prog.Trace (Listed ns eips) (getDefaultEIP env name) log o) ∧
      ∀ log o, Prog.Trace (Listed ns eips) (getDefaultEIP env name) log o →
        (∀ e, o = .ok e → e ∈ eips.map Version.obj ∧
          e.deletionTimestamp = false ∧ e.spec.disable = false) ∧
        ((∃ e, EligibleIn name ns.labels (eips.map Version.obj) e) →
          ∃ e, o = .ok e ∧ BestIn name ns.labels (eips.map Version.obj) e ∧
            ∀ eips' : List (Version Eip), eips'.Perm eips →
              ∀ log' o', Prog.Trace (Listed ns eips') (getDefaultEIP env name) log' o' →
                ∃ e', o' = .ok e' ∧ e'.rank = e.rank) ∧
        ((∀ e, ¬ EligibleIn name ns.labels (eips.map Version.obj) e) →
          o = (firstDefault (eips.map Version.obj)).elim
            (.err (.text "no available default eip found")) .ok) := by
  refine ⟨exists_trace_getDefaultEIP hvalid, fun log o h => ⟨?_, ?_, ?_⟩⟩
  · rintro e rfl
    have hmem : e ∈ eips.map Version.obj ∧ e.usable := by
      rcases trace_getDefaultEIP hvalid h with ⟨e', ho, hbest⟩ | ⟨-, ho⟩
      · cases ho
        exact ⟨hbest.1.1, hbest.1.2.1⟩
      · cases hd : firstDefault (eips.map Version.obj) with
        | none =>
          rw [hd] at ho
          cases ho
        | some e' =>
          rw [hd] at ho
          cases ho
          exact ⟨(usable_of_firstDefault hd).1, (usable_of_firstDefault hd).2.1⟩
    refine ⟨hmem.1, ?_⟩
    simpa [Eip.usable] using hmem.2
  · rintro ⟨e₀, he₀⟩
    rcases trace_getDefaultEIP hvalid h with ⟨e, ho, hbest⟩ | ⟨hnone, -⟩
    · refine ⟨e, ho, hbest, fun eips' hperm log' o' h' => ?_⟩
      have hmem : ∀ x, x ∈ eips'.map Version.obj ↔ x ∈ eips.map Version.obj :=
        fun x => (hperm.map Version.obj).mem_iff
      rcases trace_getDefaultEIP (fun x hx => hvalid x ((hmem x).mp hx)) h' with
        ⟨e', ho', hbest'⟩ | ⟨hnone, -⟩
      · exact ⟨e', ho', (hbest.rank_unique hmem hbest').symm⟩
      · exact absurd ⟨(hmem e₀).mpr he₀.1, he₀.2⟩ (hnone e₀)
    · exact absurd he₀ (hnone e₀)
  · intro hnone
    rcases trace_getDefaultEIP hvalid h with ⟨e, -, hbest⟩ | ⟨-, ho⟩
    · exact absurd hbest.1 (hnone e)
    · exact ho

end Lists

/-- A pool for the namespace `web` that is full. -/
def fullPool : Eip where
  name := "full"
  spec := { address := "192.0.2.0/24", namespaces := ["web"] }
  status := { occupied := true }

/-- Another one, with a larger priority number, that is not. -/
def freePool : Eip where
  name := "free"
  spec := { address := "198.51.100.0/24", namespaces := ["web"], priority := 5 }

theorem default_choice_optimal_webPools :
    EligibleIn "web" Map.nil [fullPool, freePool] freePool ∧
      ∀ log o, Prog.Trace (Listed { name := "web" } [⟨1, fullPool⟩, ⟨2, freePool⟩])
          (getDefaultEIP plainEnv "web") log o →
        ∃ e, o = .ok e ∧ e.rank = (false, 5) := by
  have hvalid : ∀ e ∈ ([⟨1, fullPool⟩, ⟨2, freePool⟩] : List (Version Eip)).map Version.obj,
      e.SelectorValid plainEnv (Namespace.labels { name := "web" }) := by
    unfold Eip.SelectorValid
    decide +kernel
  have hfree : EligibleIn "web" Map.nil [fullPool, freePool] freePool := by
    unfold EligibleIn
    decide +kernel
  have hbest : BestIn "web" Map.nil [fullPool, freePool] freePool := by
    refine ⟨hfree, fun e he => ?_⟩
    have hless : ∀ e ∈ [fullPool, freePool], ¬ e.less freePool := by decide +kernel
    exact hless e he.1
  refine ⟨hfree, fun log o h => ?_⟩
  obtain ⟨e, ho, hbest', -⟩ := ((default_choice_optimal hvalid).2 log o h).2.1 ⟨_, hfree⟩
  exact ⟨e, ho, hbest'.rank_unique (fun _ => Iff.rfl) hbest⟩

end OpenELB
