import OpenELB.SpeakerSteps

/-! # Eips that are being deleted

`HandleEIP` looks for the Eip in its pools before it looks at the deletion timestamp.  An
Eip that is being deleted and has no entry is therefore announced and put on record like a
new one.  One that has an entry is withdrawn as it was recorded, and the entry is deleted;
the next call for it finds no entry (`deleting_iff`).  Only a call that fails for an Eip without
an entry may leave nothing too: how far it comes depends on the order in which the loop visits
the addresses. -/
namespace OpenELB
open Go Prog

/-- The manager has no entry for the Eip, and its speaker announces none of its
addresses. -/
def SpeakerState.Gone (s : SpeakerState) (eip : Eip) : Prop :=
  s.pools.get eip.name = none ∧
    ∀ ip, (eip.status.used.get ip).isSome → s.announced eip.getProtocol ip = none

/-- Everything that is announced of the Eip is on record for it, under an address that can be
read. -/
def SpeakerState.Covers (s : SpeakerState) (eip : Eip) : Prop :=
  ∃ o, s.pools.get eip.name = some o ∧ o.Readable ∧
    ∀ ip, (eip.status.used.get ip).isSome → s.announced eip.getProtocol ip ≠ none →
      eip.getProtocol = o.getProtocol ∧ (o.status.used.get ip).isSome

section Deleting
variable {cl : ClusterView} {speakers : List String} {s s' : SpeakerState} {eip o : Eip}
  {l : List (Event SpeakerCall SpeakerReply)} {r : Except Err Unit}

/-- An Eip on record is withdrawn as it was recorded, unless that cannot be read. -/
theorem wp_handleEIP_recorded (hdel : eip.deletionTimestamp = true)
    (hproto : eip.getProtocol ∈ speakers) (ho : s.pools.get eip.name = some o) :
    Wp (cl.exec false)
      (either (fun _ s' => o.Readable ∧ s' =
          { s.withdraw o.getProtocol o.status.used with pools := s.pools.delete eip.name })
        fun _ s' => s'.pools = s.pools ∧ ¬ o.Readable)
      (handleEIP speakers eip).run s := by
  rw [handleEIP, if_neg (not_not.mpr hproto)]
  simp only [ask_bind, wp_call]
  rintro entry s₁ ⟨rfl, rfl⟩
  rw [ho]
  dsimp only
  rw [handleKnownEIP, if_pos hdel]
  refine wp_except_bind.mpr (wp_delBalancerWithEIP.mono fun r s₂ hr => ?_)
  cases r with
  | error e => exact ⟨hr.1, hr.2.resolve_left Bool.false_ne_true⟩
  | ok _ =>
    obtain ⟨hread, rfl⟩ := hr
    rintro _ s₃ rfl
    exact ⟨hread, rfl⟩

/-- An address is not announced after the withdrawal: it was not announced before, or it is
one of those withdrawn. -/
theorem withdraw_eq_none_iff {usage : Map String String} {protocol protocol' ip : String} :
    (s.withdraw protocol usage).announced protocol' ip = none ↔
      (s.announced protocol' ip ≠ none → protocol' = protocol ∧ (usage.get ip).isSome) := by
  simp only [SpeakerState.withdraw]
  by_cases h : protocol' = protocol ∧ (usage.get ip).isSome = true
  · rw [if_pos h]
    exact iff_of_true rfl fun _ => h
  · rw [if_neg h]
    constructor
    · exact fun hnone hne => absurd hnone hne
    · intro himp
      by_contra hne
      exact h (himp hne)

/-- Handled with an entry. -/
theorem gone_iff_of_recorded (hdel : eip.deletionTimestamp = true)
    (hproto : eip.getProtocol ∈ speakers) (ho : s.pools.get eip.name = some o)
    (hrun : Run (cl.exec false) s (handleEIP speakers eip).run l r s') :
    s'.Gone eip ↔ o.Readable ∧ ∀ ip, (eip.status.used.get ip).isSome →
      s.announced eip.getProtocol ip ≠ none →
        eip.getProtocol = o.getProtocol ∧ (o.status.used.get ip).isSome := by
  have hspec := (wp_handleEIP_recorded hdel hproto ho).of_run hrun
  cases r with
  | error e =>
    refine iff_of_false (fun hgone => ?_) fun h => hspec.2 h.1
    have hnone := hgone.1
    rw [hspec.1, ho] at hnone
    cases hnone
  | ok _ =>
    obtain ⟨hread, rfl⟩ := hspec
    have hpool : (s.pools.delete eip.name).get eip.name = none := Map.get_delete_self _ _
    rw [SpeakerState.Gone, and_iff_right hpool, and_iff_right hread]
    exact forall_congr' fun ip => imp_congr_right fun _ => withdraw_eq_none_iff

/-- Handled without an entry: the Eip is put on record. -/
theorem recorded_of_unknown (hnone : s.pools.get eip.name = none)
    (hrun : Run (cl.exec false) s (handleEIP speakers eip).run l (.ok ()) s') :
    s'.pools.get eip.name = some eip := by
  rcases wp_handleEIP.of_run hrun with ⟨-, -, rfl⟩ | ⟨o, ho, -⟩
  · exact Map.get_set_self _ _ _
  · rw [hnone] at ho
    cases ho

/-- **What becomes of an Eip that is being deleted**, in whatever state of the manager.  It
is gone after `HandleEIP` if it was on record under an address that can be read, and what is
announced of its addresses was on record for the same speaker; and if it was on record at all,
or the call returns nil, only then.  Once it is gone, the next call that returns nil puts it on
record. -/
theorem deleting_iff (hdel : eip.deletionTimestamp = true) (hproto : eip.getProtocol ∈ speakers)
    (hrun : Run (cl.exec false) s (handleEIP speakers eip).run l r s') :
    (s.Covers eip → s'.Gone eip) ∧
    ((s.pools.get eip.name).isSome ∨ r = .ok () → s'.Gone eip → s.Covers eip) ∧
    (s'.Gone eip → ∀ (cl' : ClusterView) l' s'',
      Run (cl'.exec false) s' (handleEIP speakers eip).run l' (.ok ()) s'' →
        s''.pools.get eip.name = some eip) := by
  refine ⟨?_, ?_, fun hgone cl' l' s'' hrun' => recorded_of_unknown hgone.1 hrun'⟩
  · rintro ⟨o, ho, hcover⟩
    exact (gone_iff_of_recorded hdel hproto ho hrun).mpr hcover
  · intro hhandled hgone
    cases hentry : s.pools.get eip.name with
    | some o => exact ⟨o, hentry, (gone_iff_of_recorded hdel hproto hentry hrun).mp hgone⟩
    | none =>
      -- without an entry the call has put the Eip on record
      rcases hhandled with hsome | rfl
      · rw [hentry] at hsome
        cases hsome
      · cases (recorded_of_unknown hentry hrun).symm.trans hgone.1

end Deleting

/-! ## An Eip comes and goes -/

/-- A version of the Eip that is being deleted. -/
def edgeEipDeleting (used : List (String × String)) : Eip :=
  { edgeEip used with deletionTimestamp := true }

/-- An Eip is announced, and then deleted. -/
theorem deleting_iff_announced :
    let v := edgeEip [("192.0.2.1", "ns/a")]
    let w := edgeEipDeleting [("192.0.2.1", "ns/a")]
    ∃ s l s', Handled false ["layer2"] {} [(twoHosts, v)] s ∧
      Run (twoHosts.exec false) s (handleEIP ["layer2"] w).run l (.ok ()) s' ∧ s'.Gone w := by
  intro v w
  let s := twoHosts.after edgeOrder noneFails ["layer2"] {} v
  have heval : twoHosts.returns edgeOrder noneFails ["layer2"] {} v = some (.ok ()) ∧
      twoHosts.returns edgeOrder noneFails ["layer2"] s w = some (.ok ()) ∧
      s.pools.get "edge" = some v ∧ IpRange.parseRange "192.0.2.0/24" = .ok (some ⟨.v4Family,
        v4InV6Prefix ++ [192, 0, 2, 0], v4InV6Prefix ++ [192, 0, 2, 255]⟩) := by
    decide +kernel
  obtain ⟨h₁, h₂, hentry, hread⟩ := heval
  obtain ⟨l, hrun⟩ := @ClusterView.run_after _ _ _ false noneFails_imp _ _ _ _ h₂
  refine ⟨s, l, _, .cons_after noneFails_imp h₁ .nil, hrun, ?_⟩
  refine (deleting_iff rfl (by decide) hrun).1 ⟨v, hentry, ⟨_, hread⟩, ?_⟩
  exact fun ip hip _ => ⟨rfl, hip⟩

/-- **An Eip that is being deleted is announced.**  The Eip is announced, then deleted, and
then an event for the deleting version comes once more: the manager puts it on record and
announces its address. -/
theorem deleting_announced :
    let v := edgeEip [("192.0.2.1", "ns/a")]
    let w := edgeEipDeleting [("192.0.2.1", "ns/a")]
    ∃ s l s', Handled false ["layer2"] {} [(twoHosts, v), (twoHosts, w)] s ∧
      s.pools.get w.name = none ∧ s.announced w.getProtocol "192.0.2.1" = none ∧
      Run (twoHosts.exec false) s (handleEIP ["layer2"] w).run l (.ok ()) s' ∧
      s'.pools.get w.name = some w ∧
      s'.announced w.getProtocol "192.0.2.1" = some {{ name := "n1" }} := by
  intro v w
  let s₁ := twoHosts.after edgeOrder noneFails ["layer2"] {} v
  let s₂ := twoHosts.after edgeOrder noneFails ["layer2"] s₁ w
  let s₃ := twoHosts.after edgeOrder noneFails ["layer2"] s₂ w
  have heval : twoHosts.returns edgeOrder noneFails ["layer2"] {} v = some (.ok ()) ∧
      twoHosts.returns edgeOrder noneFails ["layer2"] s₁ w = some (.ok ()) ∧
      twoHosts.returns edgeOrder noneFails ["layer2"] s₂ w = some (.ok ()) := by
    decide +kernel
  obtain ⟨h₁, h₂, h₃⟩ := heval
  obtain ⟨l, hrun⟩ := @ClusterView.run_after _ _ _ false noneFails_imp _ _ _ _ h₃
  have hstate : s₂.pools.get w.name = none ∧ s₂.announced w.getProtocol "192.0.2.1" = none ∧
      s₃.pools.get w.name = some w ∧
      s₃.announced w.getProtocol "192.0.2.1" = some {{ name := "n1" }} := by
    decide +kernel
  obtain ⟨hpool, hann, hpool', hann'⟩ := hstate
  exact ⟨s₂, l, s₃, .cons_after noneFails_imp h₁ (.cons_after noneFails_imp h₂ .nil), hpool, hann,
    hrun, hpool', hann'⟩

end OpenELB
