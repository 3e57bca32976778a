import OpenELB.SpeakerSteps
import Mathlib.Tactic.Tauto

/-! # Announcements that a failed call leaves behind

`HandleEIP` puts a version on record only when every speaker call for it has succeeded;
what the calls before a failing one have announced or withdrawn stays.  The next call
compares its version with the one on record, not with what is announced.

So after a call that returns nil the speaker announces what the version lists exactly
when nothing was announced before it that neither the record nor the version lists, and
everything that both list was announced (`announced_exactly_iff`).  A call that fails
after its first address, followed by a version without that address, leaves the address
announced (`stray_announcement`). -/
namespace OpenELB
open Go Prog

/-- A version of one Eip that is not being deleted, with its protocol and interface. -/
structure SameSetup (name address protocol interface : String) (w : Eip) : Prop where
  name : w.name = name
  address : w.spec.address = address
  protocol : w.spec.protocol = protocol
  interface : w.spec.interface = interface
  live : w.deletionTimestamp = false

/-- Every service that a `Used` map lists has a node. -/
def ClusterView.Hosts (cl : ClusterView) (usage : Map String String) : Prop :=
  ∀ ip svcs, usage.get ip = some svcs → (cl.targets svcs).Nonempty

instance (cl : ClusterView) (usage : Map String String) : Decidable (cl.Hosts usage) :=
  decidable_of_iff _ Map.forall_entries.symm

/-- The `Used` map on record for an Eip. -/
def SpeakerState.recorded (s : SpeakerState) (name : String) : Map String String :=
  match s.pools.get name with
  | some oldData => oldData.status.used
  | none => Map.nil

variable {cl : ClusterView} {speakers : List String} {name address protocol interface : String}
  {w : Eip} {s s' : SpeakerState} {fails : Bool}

/-! ## What is on record -/

/-- A call leaves the record as it is, deletes it, or makes it the new version. -/
theorem pool_of_handleEIP {l : List (Event SpeakerCall SpeakerReply)} {r : Except Err Unit}
    (h : Run (cl.exec fails) s (handleEIP speakers w).run l r s') {o : Eip}
    (ho : s'.pools.get w.name = some o) : o = w ∨ s.pools.get w.name = some o := by
  have hset : ∀ m : Map String Eip, (m.set w.name w).get w.name = some o → o = w := by
    intro m hm
    rw [Map.get_set_self] at hm
    exact (Option.some.inj hm).symm
  have hdel : (s.pools.delete w.name).get w.name ≠ some o := by
    rw [Map.get_delete_self]
    exact Option.some_ne_none o ∘ Eq.symm
  have hspec := wp_handleEIP.of_run h
  cases r with
  | error e =>
    obtain ⟨hp | hp, -⟩ := hspec
    · exact Or.inr (hp ▸ ho)
    · exact absurd (hp ▸ ho) hdel
  | ok _ =>
    rcases hspec with ⟨-, -, rfl⟩ | ⟨old, hold, rfl⟩
    · exact Or.inl (hset _ ho)
    · rw [SpeakerState.updated] at ho
      split at ho
      · exact absurd ho hdel
      split at ho
      · exact Or.inl (hset _ ho)
      split at ho
      · exact Or.inl (hset _ ho)
      · exact Or.inr ho

/-- Whatever fails, what is on record is one of the versions. -/
theorem sameSetup_of_handled {ws : List (ClusterView × Eip)}
    (hws : ∀ w ∈ ws, SameSetup name address protocol interface w.2)
    (hs : ∀ o, s.pools.get name = some o → SameSetup name address protocol interface o)
    (h : Handled fails speakers s ws s') {o : Eip} (ho : s'.pools.get name = some o) :
    SameSetup name address protocol interface o := by
  induction h with
  | nil => exact hs o ho
  | cons hrun _ ih =>
    obtain ⟨hw, hrest⟩ := List.forall_mem_cons.mp hws
    refine ih hrest (fun o' ho' => ?_) ho
    rw [← hw.name] at ho'
    rcases pool_of_handleEIP hrun ho' with rfl | hold
    · exact hw
    · exact hs o' (hw.name ▸ hold)

/-! ## What a successful call leaves announced -/

theorem table_isSome (h : cl.Hosts w.status.used) (ip : String) :
    (cl.table w.status.used ip).isSome ↔ (w.status.used.get ip).isSome := by
  rw [ClusterView.table]
  cases hip : w.status.used.get ip with
  | none => simp
  | some svcs => simp [h ip svcs hip]

/-- The versions have one configuration, so a version is compared with the record by
its addresses alone. -/
theorem not_update {o : Eip} (hw : SameSetup name address protocol interface w)
    (ho : SameSetup name address protocol interface o) :
    isSpeakerConfigUpdate w.spec o.spec = false := by
  rw [isSpeakerConfigUpdate, hw.protocol, ho.protocol, hw.interface, ho.interface]
  simp

/-- After a call that returns nil, the addresses announced are those that come, and
those announced before that do not go. -/
theorem announced_after {l : List (Event SpeakerCall SpeakerReply)}
    (hw : SameSetup name address protocol interface w)
    (hs : ∀ o, s.pools.get name = some o → SameSetup name address protocol interface o)
    (hhosts : cl.Hosts w.status.used)
    (h : Run (cl.exec fails) s (handleEIP speakers w).run l (.ok ()) s') (ip : String) :
    (s'.announced w.getProtocol ip).isSome ↔
      (w.status.used.get ip).isSome ∧ ¬ ((s.recorded name).get ip).isSome ∨
      (s.announced w.getProtocol ip).isSome ∧
        ¬ (((s.recorded name).get ip).isSome ∧ ¬ (w.status.used.get ip).isSome) := by
  have htable := table_isSome hhosts ip
  rcases wp_handleEIP.of_run h with ⟨hnone, -, rfl⟩ | ⟨o, ho, rfl⟩
  · rw [hw.name] at hnone
    simp only [SpeakerState.added, SpeakerState.announce, if_pos, Option.isSome_or,
      Bool.or_eq_true, SpeakerState.recorded, hnone, htable, Map.get_nil]
    simp
  · rw [hw.name] at ho
    have hrec : s.recorded name = o.status.used := by rw [SpeakerState.recorded, ho]
    rw [SpeakerState.updated, hw.live, not_update hw (hs o ho), hrec]
    simp only [Bool.false_eq_true, if_false]
    split
    · simp only [SpeakerState.announce, SpeakerState.withdraw, if_pos, Option.isSome_or,
        Bool.or_eq_true, ClusterView.table, Map.get_without, true_and]
      rw [ClusterView.table] at htable
      cases hr : o.status.used.get ip with
      | none =>
        simpa using or_congr_left htable
      | some a =>
        cases hu : w.status.used.get ip with
        | none => simp
        | some b => simp
    · rename_i hused
      rw [not_not.mp hused]
      tauto

/-- **When a successful call announces exactly what its version lists.**  The calls
before it may have failed at any speaker call; what counts is what they left announced
and on record. -/
theorem announced_exactly_iff {ws : List (ClusterView × Eip)}
    (hws : ∀ w ∈ ws, SameSetup name address protocol interface w.2)
    (hw : SameSetup name address protocol interface w) (hhosts : cl.Hosts w.status.used)
    (hs : Handled true speakers {} ws s) {l : List (Event SpeakerCall SpeakerReply)}
    (h : Run (cl.exec true) s (handleEIP speakers w).run l (.ok ()) s') :
    (∀ ip, (s'.announced w.getProtocol ip).isSome ↔ (w.status.used.get ip).isSome) ↔
      (∀ ip, (s.announced w.getProtocol ip).isSome →
        ((s.recorded name).get ip).isSome ∨ (w.status.used.get ip).isSome) ∧
      ∀ ip, ((s.recorded name).get ip).isSome → (w.status.used.get ip).isSome →
        (s.announced w.getProtocol ip).isSome := by
  have hrec : ∀ o, s.pools.get name = some o → SameSetup name address protocol interface o := by
    intro o ho
    refine sameSetup_of_handled hws (fun o ho => ?_) hs ho
    rw [Map.get_empty] at ho
    cases ho
  rw [← forall_and]
  refine forall_congr' fun ip => ?_
  rw [announced_after hw hrec hhosts h ip]
  tauto

/-- One address, and then a second one. -/
theorem announced_exactly_grown :
    let v := edgeEip [("192.0.2.1", "ns/a")]
    let w := edgeEip [("192.0.2.1", "ns/a"), ("192.0.2.2", "ns/b")]
    ∃ s l s', Handled true ["layer2"] {} [(twoHosts, v)] s ∧
      Run (twoHosts.exec true) s (handleEIP ["layer2"] w).run l (.ok ()) s' ∧
      ∀ ip, (s'.announced w.getProtocol ip).isSome ↔ (w.status.used.get ip).isSome := by
  intro v w
  have h₁ : twoHosts.returns edgeOrder noneFails ["layer2"] {} v = some (.ok ()) := by
    decide +kernel
  have h₂ : twoHosts.returns edgeOrder noneFails ["layer2"]
      (twoHosts.after edgeOrder noneFails ["layer2"] {} v) w = some (.ok ()) := by
    decide +kernel
  obtain ⟨l₁, hrun₁⟩ := @ClusterView.run_after _ _ _ true noneFails_imp _ _ _ _ h₁
  obtain ⟨l, hrun⟩ := @ClusterView.run_after _ _ _ true noneFails_imp _ _ _ _ h₂
  have hv : SameSetup "edge" "192.0.2.0/24" "layer2" "eth0" v := ⟨rfl, rfl, rfl, rfl, rfl⟩
  have hw : SameSetup "edge" "192.0.2.0/24" "layer2" "eth0" w := ⟨rfl, rfl, rfl, rfl, rfl⟩
  -- what the first call leaves announced is what it leaves on record
  have hann : ∀ ip, ((twoHosts.after edgeOrder noneFails ["layer2"] {} v).announced
      w.getProtocol ip).isSome ↔ (v.status.used.get ip).isSome := by
    intro ip
    have hfresh : ∀ o, ({} : SpeakerState).pools.get "edge" = some o →
        SameSetup "edge" "192.0.2.0/24" "layer2" "eth0" o := by
      intro o ho
      rw [Map.get_empty] at ho
      cases ho
    have hafter := announced_after hv hfresh (by decide +kernel) hrun₁ ip
    have hproto : w.getProtocol = v.getProtocol := rfl
    rw [hproto]
    simpa [SpeakerState.recorded] using hafter
  have hrec : (twoHosts.after edgeOrder noneFails ["layer2"] {} v).recorded "edge" =
      v.status.used := by
    decide +kernel
  have hs := Handled.cons hrun₁ Handled.nil
  refine ⟨_, l, _, hs, hrun, ?_⟩
  refine (announced_exactly_iff ?_ hw ?_ hs hrun).mpr ⟨?_, ?_⟩
  · exact fun u hu => List.mem_singleton.mp hu ▸ hv
  · decide +kernel
  · intro ip hip
    rw [hrec]
    exact Or.inl ((hann ip).mp hip)
  · intro ip hip _
    rw [hrec] at hip
    exact (hann ip).mpr hip

/-- The speaker fails to announce the second address. -/
def secondFails : SpeakerCall → Bool
  | .setBalancer _ ip _ => ip = "192.0.2.2"
  | _ => false

/-- **A stray announcement.**  The second address of the first version fails; the
version that follows no longer lists the first address, is handled without an error,
and the first address is still announced. -/
theorem stray_announcement :
    let v := edgeEip [("192.0.2.1", "ns/a"), ("192.0.2.2", "ns/b")]
    let w := edgeEip [("192.0.2.2", "ns/b")]
    (∀ u ∈ [v, w], SameSetup "edge" "192.0.2.0/24" "layer2" "eth0" u ∧
      twoHosts.Hosts u.status.used) ∧
    ∃ s l s', Handled true ["layer2"] {} [(twoHosts, v)] s ∧
      Run (twoHosts.exec true) s (handleEIP ["layer2"] w).run l (.ok ()) s' ∧
      (s'.announced w.getProtocol "192.0.2.1").isSome ∧
      w.status.used.get "192.0.2.1" = none := by
  intro v w
  have h₁ : twoHosts.returns edgeOrder secondFails ["layer2"] {} v =
      some (.error (.text "failed")) := by
    decide +kernel
  have h₂ : twoHosts.returns edgeOrder noneFails ["layer2"]
      (twoHosts.after edgeOrder secondFails ["layer2"] {} v) w = some (.ok ()) := by
    decide +kernel
  obtain ⟨l, hrun⟩ := @ClusterView.run_after _ _ _ true noneFails_imp _ _ _ _ h₂
  refine ⟨?_, _, l, _, .cons_after (fun _ _ => rfl) h₁ .nil, hrun, ?_, ?_⟩
  · intro u hu
    rcases List.mem_pair.mp hu with rfl | rfl
    · exact ⟨⟨rfl, rfl, rfl, rfl, rfl⟩, by decide +kernel⟩
    · exact ⟨⟨rfl, rfl, rfl, rfl, rfl⟩, by decide +kernel⟩
  · decide +kernel
  · decide +kernel

end OpenELB
