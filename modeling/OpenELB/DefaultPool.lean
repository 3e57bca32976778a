import OpenELB.Admission
import OpenELB.Stability

/-! # The default pool

The webhook lets at most one stored Eip carry the annotation of a default pool, whatever
edits are made (`OneDefault`).  It reads the annotation without regard to case, and
`getDefaultEIP` reads it with `IsDefault`, which wants exactly `true`.  So the webhook may
know a default pool that is never given out (`default_pool_ignored`); `default_pool_iff`
says when it is. -/
namespace OpenELB
open Go Code

/-- The Eip is a default one for the webhook. -/
def Eip.claimsDefault (e : Eip) : Bool := hasOpenELBDefaultEipAnnotation e.annotations

/-- What `getDefaultEIP` takes for a default pool, the webhook does too. -/
theorem Eip.claimsDefault_of_isDefault {e : Eip} (h : e.isDefault) : e.claimsDefault := by
  have hget : e.annotations.get openELBEIPAnnotationDefaultPool = some "true" := by
    simpa [isDefault] using h
  rw [claimsDefault, hasOpenELBDefaultEipAnnotation, hget]
  decide

/-! ## One edit -/

/-- At most one stored Eip is a default one for the webhook. -/
def OneDefault (s : VStore Eip.name) : Prop :=
  ∀ a b v w, s.get a = some v → s.get b = some w → v.obj.claimsDefault → w.obj.claimsDefault → a = b

section Steps
variable {s s' : VStore Eip.name} {k : String} {e old : Eip} {l : List Eip}

/-- Only one Eip changes, and if it becomes a default one there was no other. -/
theorem OneDefault.change (h : OneDefault s) (hother : ∀ a, a ≠ k → s'.get a = s.get a)
    (hnew : ∀ v', s'.get k = some v' → v'.obj.claimsDefault →
      (∃ v, s.get k = some v ∧ v.obj.claimsDefault) ∨
        ∀ a v, a ≠ k → s.get a = some v → ¬ v.obj.claimsDefault) : OneDefault s' := by
  -- one of the two is the Eip that changed
  have hside : ∀ a v v', a ≠ k → s'.get a = some v → s'.get k = some v' → v.obj.claimsDefault →
      ¬ v'.obj.claimsDefault := by
    intro a v v' ha hv hv' hd hd'
    rw [hother a ha] at hv
    rcases hnew v' hv' hd' with ⟨w, hw, hdw⟩ | hnone
    · exact ha (h a k v w hv hw hd hdw)
    · exact hnone a v ha hv hd
  intro a b v w hv hw hdv hdw
  by_cases ha : a = k
  · by_cases hb : b = k
    · rw [ha, hb]
    · subst ha
      exact absurd hdv (hside b w v hb hw hv hdw)
  · by_cases hb : b = k
    · subst hb
      exact absurd hdw (hside a v w ha hv hw hdv)
    · rw [hother a ha] at hv
      rw [hother b hb] at hw
      exact h a b v w hv hw hdv hdw

/-- The same, for a change of the object under one key. -/
theorem OneDefault.modify {change : Eip → Option Eip} (h : OneDefault s)
    (hkey : ∀ a b, change a = some b → b.name = a.name)
    (hnew : ∀ v b, s.get k = some v → change v.obj = some b → b.claimsDefault →
      v.obj.claimsDefault ∨ ∀ a w, a ≠ k → s.get a = some w → ¬ w.obj.claimsDefault) :
    OneDefault (s.modify k change) := by
  refine h.change (fun a ha => VStore.get_modify_ne hkey ha) fun v' hv' hd => ?_
  have hobj := VStore.obj_modify (s := s) (k := k) hkey
  rw [hv', Option.map_some] at hobj
  obtain ⟨o, ho, hc⟩ := Option.bind_eq_some_iff.mp hobj.symm
  obtain ⟨v, hv, rfl⟩ := Option.map_eq_some_iff.mp ho
  rcases hnew v v'.obj hv hc hd with hold | hnone
  · exact .inl ⟨v, hv, hold⟩
  · exact .inr hnone

/-- An admitted default Eip is the only one. -/
theorem Eip.alone_of_validateDefault (h : e.validateDefault l = .ok ()) (hd : e.claimsDefault) :
    ∀ e' ∈ l, e'.name ≠ e.name → ¬ e'.claimsDefault := by
  intro e' he' hne hd'
  unfold claimsDefault at hd
  rw [validateDefault, if_neg (not_not.mpr hd)] at h
  split at h
  · nomatch h
  · rename_i hnone
    apply hnone
    apply List.any_eq_true.mpr
    exact ⟨e', he', by rw [Bool.and_eq_true]; exact ⟨decide_eq_true hne, hd'⟩⟩

theorem Eip.validateDefault_of_validate {overlap : Bool} (h : e.validate overlap (.ok l) = .ok ()) :
    e.validateDefault l = .ok () := by
  obtain ⟨eips, hlist, hrest⟩ := exists_ok_of_bind h
  obtain rfl := Except.ok.inj hlist
  cases overlap with
  | true =>
    obtain ⟨u, -, hdefault⟩ := exists_ok_of_bind hrest
    exact hdefault
  | false => exact hrest

theorem Eip.validateDefault_of_create (h : e.validateCreate (.ok l) = .ok ()) :
    e.validateDefault l = .ok () := by
  obtain ⟨size, -, hrest⟩ := exists_ok_of_bind h
  obtain ⟨u, -, hvalidate⟩ := exists_ok_of_bind hrest
  exact validateDefault_of_validate hvalidate

/-- An update is checked unless the annotations stay as they are. -/
theorem Eip.validateDefault_of_update (h : e.validateUpdate old (.ok l) = .ok ()) :
    e.annotations = old.annotations ∨ e.validateDefault l = .ok () := by
  by_cases hsame : e.annotations = old.annotations
  · exact .inl hsame
  · rw [validateUpdate, if_pos hsame] at h
    obtain ⟨u, hvalidate, -⟩ := exists_ok_of_bind h
    exact .inr (validateDefault_of_validate hvalidate)

/-- What is stored of the annotations says the same. -/
theorem Eip.claimsDefault_applyUpdate {e' : Eip} (h : e.applyUpdate old = some e') :
    e'.claimsDefault = e.claimsDefault := by
  unfold applyUpdate at h
  split at h
  · contradiction
  · obtain rfl := Option.some.inj h
    rw [claimsDefault, claimsDefault, hasOpenELBDefaultEipAnnotation,
      hasOpenELBDefaultEipAnnotation, Map.get_omitEmpty]

/-- The Eips of a listing other than `e`. -/
theorem notClaimed_of_lists {lv : List (Version Eip)} (hl : s.Lists lv)
    (h : ∀ e' ∈ lv.map Version.obj, e'.name ≠ e.name → ¬ e'.claimsDefault) :
    ∀ a v, a ≠ e.name → s.get a = some v → ¬ v.obj.claimsDefault := by
  intro a v ha hv
  have hname := VStore.key_of_get hv
  exact h v.obj (List.mem_map_of_mem (hl.mem_iff.mpr (hname.symm ▸ hv))) (hname ▸ ha)

/-- **One edit leaves at most one default pool.** -/
theorem OneDefault.step {C : Eip → Prop} (h : OneDefault s) (hs : PoolEdit C s s') :
    OneDefault s' := by
  rcases hs with ⟨e, -, hl, hval, -⟩ | ⟨e, hold, hl, hval⟩ | ⟨e⟩ | ⟨name⟩
  · refine h.change (fun a ha => by rw [VStore.get_put, if_neg ha]) fun v' hv' hd => .inr ?_
    rw [VStore.get_put_self] at hv'
    obtain rfl := Option.some.inj hv'
    exact notClaimed_of_lists hl
      (Eip.alone_of_validateDefault (Eip.validateDefault_of_create hval) hd)
  · refine h.modify (fun a b hab => (Eip.applyUpdate_some hab).1) fun v b hv hb hd => ?_
    rw [Eip.claimsDefault_applyUpdate hb] at hd
    rcases Eip.validateDefault_of_update hval with hsame | hdefault
    · left
      obtain rfl := Option.some.inj (hold.symm.trans hv)
      rwa [Eip.claimsDefault, ← hsame]
    · exact .inr (notClaimed_of_lists hl (Eip.alone_of_validateDefault hdefault hd))
  · refine h.modify (fun a b hab => by cases hab; rfl) fun v b hv hb hd => .inl ?_
    obtain rfl := Option.some.inj hb
    exact hd
  · refine h.modify (fun a b hab => (Eip.applyDelete_some hab).1) fun v b hv hb hd => .inl ?_
    unfold Eip.applyDelete at hb
    split at hb
    · contradiction
    · obtain rfl := Option.some.inj hb
      exact hd

/-- **Every run of edits leaves at most one default pool.** -/
theorem oneDefault_of_run {C : Eip → Prop}
    (hs : Relation.ReflTransGen (PoolEdit C) VStore.empty s) : OneDefault s := by
  induction hs with
  | refl => exact fun a b v w hv => nomatch hv
  | tail _ hstep ih => exact ih.step hstep

end Steps

/-! ## What is given out -/

/-- **Who agrees on the default pool.**  After any edits that the webhook admits, at most one
stored Eip is a default one in its sense.  If that Eip counts, `getDefaultEIP` returns it for
a namespace to which no Eip is bound exactly if the annotation is spelled `true` and the
selectors that are compared with the labels of the namespace are valid. -/
theorem default_pool_iff {C : Eip → Prop} {s : Cluster}
    (hrun : Relation.ReflTransGen (PoolEdit C) VStore.empty s.eips) :
    OneDefault s.eips ∧
      ∀ e, s.eip e.name = some e → e.claimsDefault → e.usable →
        ∀ env name ns, s.namespaces.get name = some ns →
          (∀ e', ¬ s.HasBound name ns.labels e') →
          ((∀ l o s', Prog.Run (exec {}) s (getDefaultEIP env name) l o s' → o = .ok e) ↔
            e.annotations.get openELBEIPAnnotationDefaultPool = some "true" ∧
              ∀ e', s.eip e'.name = some e' → e'.SelectorValid env ns.labels) := by
  have hone := oneDefault_of_run hrun
  refine ⟨hone, fun e he hclaims hu env name ns hns hnone => ?_⟩
  have hlabels : ∀ {labels}, CanChoose env name labels s → labels = ns.labels := by
    rintro labels ⟨⟨ns', hns', rfl⟩, -, -⟩
    rw [Option.some.inj (hns.symm.trans hns')]
  constructor
  · intro hall
    obtain ⟨l, o, s', hget⟩ := Prog.exists_run exec_total (getDefaultEIP env name) s
    have ho := hall l o s' hget
    rcases run_getDefaultEIP rfl hget with ⟨e', labels, ho', hcan, hchoice⟩ | ⟨err, ho', -⟩
    · obtain rfl := Outcome.ok.inj (ho.symm.trans ho')
      obtain rfl := hlabels hcan
      rcases hchoice with ⟨hb, -⟩ | ⟨-, -, -, hd⟩
      · exact absurd hb (hnone e)
      · exact ⟨by simpa [Eip.isDefault] using hd, hcan.valid⟩
    · nomatch ho.symm.trans ho'
  · rintro ⟨htrue, hvalid⟩ l o s' hget
    have hd : s.HasDefault e := ⟨he, hu, by simpa [Eip.isDefault] using htrue⟩
    rcases run_getDefaultEIP rfl hget with ⟨e', labels, rfl, hcan, hchoice⟩ | ⟨err, -, hfail | hno⟩
    · obtain rfl := hlabels hcan
      rcases hchoice with ⟨hb, -⟩ | ⟨-, he', -, hd'⟩
      · exact absurd hb (hnone e')
      · -- there is only one default pool
        obtain ⟨v, hv, hobj⟩ := Option.map_eq_some_iff.mp he
        obtain ⟨v', hv', hobj'⟩ := Option.map_eq_some_iff.mp he'
        have hname : e'.name = e.name := hone _ _ v' v hv' hv
          (by rw [hobj']; exact Eip.claimsDefault_of_isDefault hd') (by rw [hobj]; exact hclaims)
        rw [hname] at he'
        rw [Option.some.inj (he.symm.trans he')]
    · nomatch hfail
    · exact absurd ⟨⟨ns, hns, rfl⟩, hvalid, e, .inr hd⟩ (hno ns.labels)

/-- A pool with this value for the annotation of a default pool. -/
def markedPool (value : String) : Eip where
  name := "pool"
  annotations := Map.ofList [(openELBEIPAnnotationDefaultPool, value)]
  spec := { address := "10.0.0.0/24" }

/-- A cluster with this pool and a namespace. -/
def markedCluster (value : String) : Cluster :=
  { clusterOf [markedPool value] [] with
    namespaces := Map.ofList [("ns", { name := "ns" })] }

/-- The pool can be created if the webhook admits it. -/
theorem run_markedCluster {value : String}
    (h : (markedPool value).validateCreate (.ok []) = .ok ()) :
    Relation.ReflTransGen (PoolEdit fun _ => True) VStore.empty (markedCluster value).eips := by
  have hnil : (VStore.empty : VStore Eip.name).Lists [] := ⟨[], by decide, rfl⟩
  exact .single (.create (markedPool value) rfl hnil h trivial)

theorem not_hasBound_markedCluster (value : String) (e : Eip) :
    ¬ (markedCluster value).HasBound "ns" Map.nil e := by
  rintro ⟨he, -, hb⟩
  rw [List.mem_singleton.mp (Cluster.mem_of_eip rfl he)] at hb
  nomatch hb

/-- The value `true` is read by all in the same way. -/
theorem default_pool_iff_true :
    (markedPool "true").claimsDefault ∧
      ∀ l o s', Prog.Run (exec {}) (markedCluster "true") (getDefaultEIP plainEnv "ns") l o s' →
        o = .ok (markedPool "true") := by
  have hclaims : (markedPool "true").claimsDefault := by decide +kernel
  refine ⟨hclaims, ((default_pool_iff (run_markedCluster (by decide +kernel))).2
    (markedPool "true") (by rfl) hclaims (by rfl) plainEnv "ns" { name := "ns" } (by rfl)
    (not_hasBound_markedCluster "true")).mpr ⟨by decide +kernel, fun e he => ?_⟩⟩
  rw [List.mem_singleton.mp (Cluster.mem_of_eip rfl he)]
  exact fun _ _ => rfl

/-- The webhook takes `True` for a default pool, so it admits no other one, and
`getDefaultEIP` finds none. -/
theorem default_pool_ignored :
    Relation.ReflTransGen (PoolEdit fun _ => True) VStore.empty (markedCluster "True").eips ∧
      (markedPool "True").claimsDefault ∧ (markedPool "True").usable ∧
      (∀ e, ¬ (markedCluster "True").HasBound "ns" Map.nil e) ∧
      ∃ l s', Prog.Run (exec {}) (markedCluster "True") (getDefaultEIP plainEnv "ns") l
        (.err (.text "no available default eip found")) s' := by
  have heval : Prog.returns (answer inOrder) (getDefaultEIP plainEnv "ns") (markedCluster "True") =
      some (.err (.text "no available default eip found")) := by
    decide +kernel
  obtain ⟨l, hrun⟩ := Prog.run_eval exec_of_inOrder (Prog.eval_of_returns heval)
  exact ⟨run_markedCluster (by decide +kernel), by decide +kernel, rfl,
    not_hasBound_markedCluster "True", l, _, hrun⟩

end OpenELB
