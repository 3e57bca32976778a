import OpenELB.Records

/-! # Code that writes to Eips

What a piece of code may write is a relation `W e clone` between the version of
an Eip it has read and the status it sends; `EipStep W` is what one of its calls
then does.  `SafeSteps` is safety of code for these steps, when all that is known
of the others is that the server forgets no version.

The Eip controller writes what a sync makes of the version it has read
(`safe_reconcileEip`).  What the service controller writes is in the modules
about it. -/
namespace OpenELB
open Go Code

section Steps
variable {f : Faults} {W W' : Eip → Eip → Prop} {c : Call} {r : Reply c} {s s' : Cluster}

/-- What a call does to the statuses. -/
def StatusEffect (W : Eip → Eip → Prop) : (c : Call) → Reply c → Cluster → Cluster → Prop
  | .updateEipStatus v, r, s, s' =>
    s' = s ∧ (∃ e, r = .error e) ∨ ∃ e, StatusWritten s e v.obj s' ∧ W e v.obj
  | _, _, s, s' => StatusKept s s'

/-- One call, by code that writes what `W` says. -/
structure EipStep (W : Eip → Eip → Prop) (c : Call) (r : Reply c) (s s' : Cluster) : Prop where
  later : VStore.Later s.eips s'.eips
  effect : StatusEffect W c r s s'

/-- A step keeps every status, or it writes one. -/
theorem EipStep.cases (h : EipStep W c r s s') :
    StatusKept s s' ∨ ∃ e clone, StatusWritten s e clone s' ∧ W e clone := by
  cases c with
  | updateEipStatus v =>
    rcases h.effect with ⟨rfl, -⟩ | ⟨e, hw, hW⟩
    · exact .inl (.of_eips_eq rfl)
    · exact .inr ⟨e, v.obj, hw, hW⟩
  | _ => exact .inl h.effect

theorem EipStep.mono (h : EipStep W c r s s') (hW : ∀ e clone, W e clone → W' e clone) :
    EipStep W' c r s s' := by
  refine ⟨h.later, ?_⟩
  cases c with
  | updateEipStatus v =>
    rcases h.effect with h | ⟨e, hw, he⟩
    · exact .inl h
    · exact .inr ⟨e, hw, hW e _ he⟩
  | _ => exact h.effect

theorem EipStep.of_exec (hc : ∀ v, c ≠ .updateEipStatus v) (h : exec f c s r s') :
    EipStep W c r s s' := by
  refine ⟨later_of_exec h, ?_⟩
  have hk := statusKept_of_exec hc h
  cases c with
  | updateEipStatus v => exact absurd rfl (hc v)
  | _ => exact hk

theorem EipStep.of_keepsEips (hc : c.KeepsEips) (h : exec f c s r s') : EipStep W c r s s' := by
  refine .of_exec ?_ h
  rintro v rfl
  exact hc

/-- The status update of code that has read the version `v`. -/
theorem EipStep.of_write {v : Version Eip} {clone : Eip} (hv : v ∈ s.eips.log)
    (hname : clone.name = v.obj.name) (hW : W v.obj clone)
    {u : Reply (.updateEipStatus ⟨v.rv, clone⟩)}
    (h : exec f (.updateEipStatus ⟨v.rv, clone⟩) s u s') :
    EipStep W (.updateEipStatus ⟨v.rv, clone⟩) u s s' := by
  refine ⟨later_of_exec h, ?_⟩
  rcases exec_updateEipStatus hv hname h with h | h
  · exact .inl h
  · exact .inr ⟨v.obj, h, hW⟩

end Steps

section Safety
variable {α : Type} {f : Faults} {W : List (Prog.Event Call Reply) → Eip → Eip → Prop}
  {log : List (Prog.Event Call Reply)} {s : Cluster}

/-- The server forgets no version of an Eip. -/
def EipsLater (s s' : Cluster) : Prop := VStore.Later s.eips s'.eips

theorem EipsLater.refl (s : Cluster) : EipsLater s s := VStore.Later.refl _

theorem EipsLater.trans {s s' s'' : Cluster} (h : EipsLater s s') (h' : EipsLater s' s'') :
    EipsLater s s'' := VStore.Later.trans h h'

/-- Safety of code whose status updates are as `W` says. -/
abbrev SafeSteps (f : Faults) (W : List (Prog.Event Call Reply) → Eip → Eip → Prop)
    (Q : List (Prog.Event Call Reply) → Outcome α → Cluster → Prop)
    (log : List (Prog.Event Call Reply)) (p : Code α) (s : Cluster) : Prop :=
  Prog.Safe (exec f) EipsLater (fun log c r _ => EipStep (W log) c r) Q log p s

/-- Code that does not write to Eips. -/
theorem safe_keepsEips {p : Code α} (hp : Prog.All Call.KeepsEips p) :
    SafeSteps f W (fun log' o s' => EipsLater s s' ∧
      ∃ l, log' = log ++ l ∧ Prog.Trace Honest p l o) log p s := by
  refine Prog.Safe.trace honest_of_exec ?_
  refine Prog.Safe.of_all (fun _ _ _ => EipsLater.trans) (fun _ _ h => h) ?_ hp
  intro log c r q s₁ s₂ hc he
  exact ⟨.of_keepsEips hc he, later_of_exec he⟩

/-- The status update at the end of some code. -/
theorem safe_statusUpdate {v : Version Eip} {clone : Eip} (hv : v ∈ s.eips.log)
    (hname : clone.name = v.obj.name) (hW : W log v.obj clone) :
    SafeSteps f W (fun _ _ _ => True) log (do
      let _ ← must (← api (.updateEipStatus ⟨v.rv, clone⟩))
      pure ()) s := by
  refine safe_api fun s₁ r s₂ hR he => ⟨.of_write (hR v hv) hname hW he, ?_⟩
  cases r <;> exact fun _ _ => trivial

/-! ## The Eip controller -/

/-- What the Eip controller writes: a sync of the version it has read, whose status
it may have filled in. -/
def SyncWrite (log : List (Prog.Event Call Reply)) (e clone : Eip) : Prop :=
  ∃ e₁, e₁.status.used = e.status.used ∧ Synced log e₁ clone

theorem SyncWrite.kept {e clone : Eip} (h : SyncWrite log e clone) (addr : String) :
    Kept log (e.listed addr) (clone.listed addr) := by
  obtain ⟨e₁, hused, hs⟩ := h
  have hlisted : e₁.listed addr = e.listed addr := by rw [Eip.listed, Eip.listed, hused]
  exact hlisted ▸ hs.kept addr

theorem safe_refreshEip {v : Version Eip} (hv : v ∈ s.eips.log) :
    SafeSteps f SyncWrite (fun _ _ _ => True) log (refreshEip v) s := by
  rw [refreshEip]
  refine safe_bind EipsLater.refl ((safe_keepsEips (all_updateEip v.obj)).mono
    (fun _ _ _ _ _ _ h => h) ?_)
  rintro log' o s' ⟨hR, l, rfl, ht⟩
  cases o with
  | err e => exact fun _ _ => trivial
  | panic => exact fun _ _ => trivial
  | ok clone =>
    obtain ⟨e₁, he₁, hs⟩ := trace_updateEip ht
    have he₁' : e₁.name = v.obj.name ∧ e₁.status.used = v.obj.status.used := by
      rcases he₁ with rfl | ⟨-, he₁⟩
      · exact ⟨rfl, rfl⟩
      · exact ⟨(initStatus_some he₁).1, (initStatus_some he₁).2.1⟩
    show SafeSteps _ _ _ _ (if clone.status = v.obj.status then pure () else _) _
    split
    · exact safe_pure fun _ _ => trivial
    · refine safe_statusUpdate (hR v hv) ?_
        ⟨e₁, he₁'.2, hs.mono (List.subset_append_right _ _)⟩
      rw [hs.same]
      exact he₁'.1

/-- **The Eip controller writes nothing but syncs** of versions it has read. -/
theorem safe_reconcileEip (name : String) :
    SafeSteps f SyncWrite (fun _ _ _ => True) [] (reconcileEip name) s := by
  rw [reconcileEip]
  refine safe_api fun s₁ r s₂ _ he => ⟨.of_exec (by simp) he, ?_⟩
  rcases r with (_ | _ | msg) | v
  · exact safe_pure fun _ _ => trivial
  · exact safe_fail fun _ _ => trivial
  · exact safe_fail fun _ _ => trivial
  · obtain ⟨hv, -⟩ := he.2.mem_log
    rw [← he.1] at hv
    simp only
    split
    · -- the Eip is being deleted: services are unlabelled, then the finalizer goes
      refine safe_bind EipsLater.refl ((safe_keepsEips (all_removeEip v.obj)).mono
        (fun _ _ _ _ _ _ h => h) ?_)
      rintro log' o s' -
      cases o with
      | err e => exact fun _ _ => trivial
      | panic => exact fun _ _ => trivial
      | ok _ =>
        refine safe_api fun s₃ r s₄ _ he' => ⟨.of_exec (by simp) he', ?_⟩
        cases r <;> exact fun _ _ => trivial
    · split
      · refine safe_api fun s₃ r s₄ _ he' => ⟨.of_exec (by simp) he', ?_⟩
        rcases r with e | v'
        · exact safe_fail fun _ _ => trivial
        · obtain ⟨eips, hw, hs⟩ := he'
          subst hs
          exact safe_refreshEip hw.mem_log
      · exact safe_refreshEip hv

end Safety

end OpenELB
