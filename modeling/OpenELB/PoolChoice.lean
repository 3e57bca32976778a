import OpenELB.Requests

/-! # The Eip that `getDefaultEIP` chooses

For a service that asks for neither an Eip nor an address, `getDefaultEIP` takes
the best Eip bound to the namespace, and if there is none a default one.  Which
Eips count is decided by their specs; which of the bound ones is best, also by
whether they are full.  Ties are left to the order in which the Eips are listed
and to the sorting.  `IsChoice` says which Eips may come out, `run_getDefaultEIP`
that nothing else does, and `exists_run_getDefaultEIP` that each of them may. -/
namespace OpenELB
open Go Code

/-! ## The order -/

namespace Eip
variable {a b c : Eip}

theorem less_iff : a.less b ↔ (a.status.occupied = false ∧ b.status.occupied = true) ∨
    a.status.occupied = b.status.occupied ∧ a.spec.priority < b.spec.priority := by
  rw [less]
  cases a.status.occupied <;> cases b.status.occupied <;> simp

theorem not_less_trans (hab : ¬ b.less a) (hbc : ¬ c.less b) : ¬ c.less a := by
  rw [less_iff] at *
  grind

theorem not_less_total (a b : Eip) : ¬ b.less a ∨ ¬ a.less b := by
  simp only [less_iff]
  grind

end Eip

/-- Every list of Eips can be sorted. -/
theorem exists_eipsSorted (l : List Eip) : ∃ l', EipsSorted l l' := by
  refine ⟨l.mergeSort fun a b => !b.less a, List.mergeSort_perm .., ?_⟩
  have htrans : ∀ a b c : Eip, !b.less a → !c.less b → !c.less a := by
    intro a b c hab hbc
    simpa using Eip.not_less_trans (by simpa using hab) (by simpa using hbc)
  have htotal : ∀ a b : Eip, !b.less a || !a.less b := by
    intro a b
    simpa using Eip.not_less_total a b
  exact (List.pairwise_mergeSort htrans htotal l).imp fun h => by simpa using h

/-- The best Eip of a list may come first. -/
theorem exists_eipsSorted_cons {l : List Eip} {e : Eip} (he : e ∈ l) (hmin : ∀ e' ∈ l, ¬ e'.less e) :
    ∃ l', EipsSorted l (e :: l') := by
  obtain ⟨l', hperm, hsorted⟩ := exists_eipsSorted (l.erase e)
  refine ⟨l', (hperm.cons e).trans (List.perm_cons_erase he).symm, List.pairwise_cons.mpr ⟨?_, hsorted⟩⟩
  intro e' he'
  exact hmin e' (List.mem_of_mem_erase (hperm.mem_iff.mp he'))

/-- A list of Eips has a best one. -/
theorem exists_best {l : List Eip} (hne : l ≠ []) : ∃ e ∈ l, ∀ e' ∈ l, ¬ e'.less e := by
  obtain ⟨l', hperm, hsorted⟩ := exists_eipsSorted l
  cases l' with
  | nil => exact absurd (List.nil_perm.mp hperm) hne
  | cons e l' =>
    refine ⟨e, hperm.mem_iff.mp List.mem_cons_self, fun e' he' => ?_⟩
    rcases List.mem_cons.mp (hperm.mem_iff.mpr he') with rfl | hmem
    · rcases Eip.not_less_total e' e' with h | h <;> exact h
    · exact (List.pairwise_cons.mp hsorted).1 e' hmem

/-! ## The Eips that count -/

namespace Eip

/-- `getDefaultEIP` passes over Eips that are being deleted or disabled. -/
def usable (e : Eip) : Bool := !e.deletionTimestamp && !e.spec.disable

/-- The selector of the Eip is compared with the labels of the namespace. -/
def selects (labels : Map String String) (e : Eip) : Bool :=
  !labels.isNil && !e.spec.namespaceSelector.isNil

/-- The Eip is bound to the namespace, by its name or by its labels. -/
def boundTo (name : String) (labels : Map String String) (e : Eip) : Bool :=
  name ∈ e.spec.namespaces || e.selects labels && selectorMatches e.spec.namespaceSelector labels

/-- What the loop of `getDefaultEIP` appends for an Eip: a copy for the name and one
for the labels. -/
def copies (name : String) (labels : Map String String) (e : Eip) : List Eip :=
  if e.usable then
    (if name ∈ e.spec.namespaces then [e] else []) ++
      if e.selects labels && selectorMatches e.spec.namespaceSelector labels then [e] else []
  else []

theorem mem_copies {name : String} {labels : Map String String} {e e' : Eip} :
    e' ∈ e.copies name labels ↔ e' = e ∧ e.usable ∧ e.boundTo name labels := by
  rw [copies, boundTo]
  split
  · split <;> split <;> simp_all
  · simp_all

/-- The candidates of a list are those of its Eips that count and are bound. -/
theorem mem_flatMap_copies_iff {name : String} {labels : Map String String} {l : List Eip}
    {e : Eip} : e ∈ l.flatMap (copies name labels) ↔ e ∈ l ∧ e.usable ∧ e.boundTo name labels := by
  rw [List.mem_flatMap]
  constructor
  · rintro ⟨e', he', hmem⟩
    obtain ⟨rfl, hu, hb⟩ := mem_copies.mp hmem
    exact ⟨he', hu, hb⟩
  · rintro ⟨he, hu, hb⟩
    exact ⟨e, he, mem_copies.mpr ⟨rfl, hu, hb⟩⟩

/-- A selector that is compared with the labels is a valid one. -/
def SelectorValid (env : Env) (labels : Map String String) (e : Eip) : Prop :=
  e.usable → e.selects labels → env.validSelector e.spec.namespaceSelector

end Eip

section Collect
variable {env : Env} {name : String} {labels : Map String String} {l nseips : List Eip}
  {defaultEip : Option Eip}

/-- **What the loop of `getDefaultEIP` collects**, if all selectors are valid. -/
theorem collectEips_eq (h : ∀ e ∈ l, e.SelectorValid env labels) :
    collectEips env name labels l nseips defaultEip =
      .ok (nseips ++ l.flatMap (Eip.copies name labels),
        defaultEip.or (l.find? fun e => e.usable && e.isDefault)) := by
  induction l generalizing nseips defaultEip with
  | nil => simp [collectEips]
  | cons e l ih =>
    obtain ⟨he, hl⟩ := List.forall_mem_cons.mp h
    rw [collectEips]
    split
    · rename_i hskip
      have hu : e.usable = false := by
        rcases hskip with h | h <;> simp [Eip.usable, h]
      rw [ih hl]
      simp [Eip.copies, hu]
    · rename_i hskip
      have hu : e.usable = true := by simpa [Eip.usable] using hskip
      have hvalid : (e.selects labels && !env.validSelector e.spec.namespaceSelector) = false := by
        cases hs : e.selects labels with
        | false => rfl
        | true => simp [he hu hs]
      rw [if_neg (by simpa [Eip.selects] using hvalid), ih hl,
        List.flatMap_cons, List.find?_cons, Eip.copies, if_pos hu]
      refine congrArg Except.ok (Prod.ext ?_ ?_)
      · show _ ++ _ = _
        rw [Eip.selects]
        split <;> split <;> simp
      · cases defaultEip <;> cases hd : e.isDefault <;> simp [hu]

/-- If the loop comes to its end, all selectors are valid. -/
theorem selectorValid_of_collectEips {r : List Eip × Option Eip}
    (h : collectEips env name labels l nseips defaultEip = .ok r) :
    ∀ e ∈ l, e.SelectorValid env labels := by
  induction l generalizing nseips defaultEip with
  | nil => exact fun _ he => absurd he List.not_mem_nil
  | cons e l ih =>
    rw [collectEips] at h
    split at h
    · rename_i hskip
      refine List.forall_mem_cons.mpr ⟨fun hu => ?_, ih h⟩
      rcases hskip with h | h <;> simp [Eip.usable, h] at hu
    · dsimp only at h
      split at h
      · cases h
      · rename_i hvalid
        refine List.forall_mem_cons.mpr ⟨fun _ hs => ?_, ih h⟩
        rw [Eip.selects] at hs
        simpa [hs] using hvalid

end Collect

/-! ## The choice -/

/-- The Eip is stored, counts, and is bound to the namespace. -/
def Cluster.HasBound (s : Cluster) (name : String) (labels : Map String String) (e : Eip) : Prop :=
  s.eip e.name = some e ∧ e.usable ∧ e.boundTo name labels

/-- The Eip is stored, counts, and is a default one. -/
def Cluster.HasDefault (s : Cluster) (e : Eip) : Prop :=
  s.eip e.name = some e ∧ e.usable ∧ e.isDefault

/-- The Eips that `getDefaultEIP` may choose: the best bound ones, or if there are
none, the default ones. -/
inductive IsChoice (name : String) (labels : Map String String) (s : Cluster) (e : Eip) : Prop
  | bound : s.HasBound name labels e → (∀ e', s.HasBound name labels e' → ¬ e'.less e) →
      IsChoice name labels s e
  | default : (∀ e', ¬ s.HasBound name labels e') → s.HasDefault e → IsChoice name labels s e

/-- What `getDefaultEIP` needs to choose an Eip. -/
structure CanChoose (env : Env) (name : String) (labels : Map String String) (s : Cluster) :
    Prop where
  found : ∃ ns, s.namespaces.get name = some ns ∧ ns.labels = labels
  valid : ∀ e, s.eip e.name = some e → e.SelectorValid env labels
  candidate : ∃ e, s.HasBound name labels e ∨ s.HasDefault e

section Choice
variable {f : Faults} {env : Env} {name : String} {labels : Map String String} {s s' : Cluster}
  {l : List (Prog.Event Call Reply)}

theorem mem_map_obj {eips : List (Version Eip)} {e : Eip} (hl : s.eips.Lists eips) :
    e ∈ eips.map Version.obj ↔ s.eip e.name = some e := by
  rw [List.mem_map]
  constructor
  · rintro ⟨v, hv, rfl⟩
    exact Cluster.eip_of_get (hl.mem_iff.mp hv)
  · intro he
    obtain ⟨v, hv, rfl⟩ := Option.map_eq_some_iff.mp he
    exact ⟨v, hl.mem_iff.mpr hv, rfl⟩

theorem mem_flatMap_copies {eips : List (Version Eip)} {e : Eip} (hl : s.eips.Lists eips) :
    e ∈ (eips.map Version.obj).flatMap (Eip.copies name labels) ↔ s.HasBound name labels e := by
  rw [Eip.mem_flatMap_copies_iff, mem_map_obj hl]
  rfl

/-- **`pickEip`** takes one of the choices, or finds no candidate. -/
theorem run_pickEip {eips : List (Version Eip)} (hl : s.eips.Lists eips) {o : Outcome Eip}
    (h : Prog.Run (exec f) s (pickEip ((eips.map Version.obj).flatMap (Eip.copies name labels))
      ((eips.map Version.obj).find? fun e => e.usable && e.isDefault)) l o s') :
    (∃ e, o = .ok e ∧ (s.HasBound name labels e ∨ s.HasDefault e) ∧ IsChoice name labels s e) ∨
      ∃ err, o = .err err ∧ ∀ e, ¬ (s.HasBound name labels e ∨ s.HasDefault e) := by
  unfold pickEip at h
  split at h
  · rename_i hne
    obtain ⟨sorted, s₁, l₁, ⟨rfl, hperm, hsorted⟩, hrun, rfl⟩ := run_api h
    cases sorted with
    | nil => exact absurd (List.nil_perm.mp hperm) hne
    | cons e sorted =>
      have hb := (mem_flatMap_copies hl).mp (hperm.mem_iff.mp List.mem_cons_self)
      refine .inl ⟨e, (run_pure_iff.mp hrun).2.1, .inl hb, .bound hb fun e' he' => ?_⟩
      have hmem := hperm.mem_iff.mpr ((mem_flatMap_copies hl).mpr he')
      rcases List.mem_cons.mp hmem with rfl | hmem
      · rcases Eip.not_less_total e' e' with h | h <;> exact h
      · exact (List.pairwise_cons.mp hsorted).1 e' hmem
  · rename_i hnil
    have hnone : ∀ e, ¬ s.HasBound name labels e := by
      intro e hb
      have hmem := (mem_flatMap_copies hl).mpr hb
      rw [not_not.mp hnil] at hmem
      exact absurd hmem List.not_mem_nil
    split at h
    · rename_i e he
      have hd : s.HasDefault e := by
        refine ⟨(mem_map_obj hl).mp (List.mem_of_find?_eq_some he), ?_⟩
        simpa using List.find?_some he
      exact .inl ⟨e, (run_pure_iff.mp h).2.1, .inr hd, .default hnone hd⟩
    · rename_i he
      refine .inr ⟨_, (run_fail_iff.mp h).2.1, ?_⟩
      rintro e (hb | ⟨hst, hu, hd⟩)
      · exact hnone e hb
      · refine List.find?_eq_none.mp he e ((mem_map_obj hl).mpr hst) ?_
        simp [hu, hd]

/-- **What `getDefaultEIP` returns** is one of the choices, if there are any. -/
theorem run_getDefaultEIP (hf : f.stale = false) {o : Outcome Eip}
    (h : Prog.Run (exec f) s (getDefaultEIP env name) l o s') :
    (∃ e labels, o = .ok e ∧ CanChoose env name labels s ∧ IsChoice name labels s e) ∨
      ∃ err, o = .err err ∧ (f.readFail = true ∨ ∀ labels, ¬ CanChoose env name labels s) := by
  rw [getDefaultEIP] at h
  obtain ⟨r, s₁, l₁, ⟨rfl, hns⟩, hrun, rfl⟩ := run_api h
  rcases r with (_ | _ | _) | ns
  · refine .inr ⟨_, (run_fail_iff.mp hrun).2.1, .inr ?_⟩
    rintro labels ⟨⟨ns, hget, -⟩, -, -⟩
    rcases hns with hnone | hstale
    · rw [hnone] at hget
      cases hget
    · rw [hf] at hstale
      cases hstale
  · exact .inr ⟨_, (run_fail_iff.mp hrun).2.1, .inl hns⟩
  · exact .inr ⟨_, (run_fail_iff.mp hrun).2.1, .inl hns⟩
  · replace hns : s₁.namespaces.get name = some ns := by simpa [hf] using hns
    -- there is only one set of labels to speak of
    have hlabels : ∀ {labels}, CanChoose env name labels s₁ → labels = ns.labels := by
      rintro labels ⟨⟨ns', hget, rfl⟩, -, -⟩
      rw [hns] at hget
      cases hget
      rfl
    rw [must_ok, Code.pure_bind] at hrun
    obtain ⟨r, s₂, l₂, ⟨rfl, hread⟩, hrun₂, rfl⟩ := run_api hrun
    rcases r with _ | eips
    · exact .inr ⟨_, (run_fail_iff.mp hrun₂).2.1, .inl hread⟩
    · have hl := hread.lists hf
      have hcollect : (∀ e, s₂.eip e.name = some e → e.SelectorValid env ns.labels) →
          collectEips env name ns.labels (eips.map Version.obj) [] none =
            .ok ((eips.map Version.obj).flatMap (Eip.copies name ns.labels),
              (eips.map Version.obj).find? fun e => e.usable && e.isDefault) := by
        intro hvalid
        exact collectEips_eq fun e he => hvalid e ((mem_map_obj hl).mp he)
      rw [must_ok, Code.pure_bind] at hrun₂
      split at hrun₂
      · rename_i e he
        refine .inr ⟨_, (run_fail_iff.mp hrun₂).2.1, .inr fun labels hcan => ?_⟩
        obtain rfl := hlabels hcan
        rw [hcollect hcan.valid] at he
        cases he
      · rename_i nseips defaultEip he
        have hvalid : ∀ e, s₂.eip e.name = some e → e.SelectorValid env ns.labels :=
          fun e hst => selectorValid_of_collectEips he e ((mem_map_obj hl).mpr hst)
        rw [hcollect hvalid] at he
        cases he
        rcases run_pickEip hl hrun₂ with ⟨e, ho, hcand, hchoice⟩ | ⟨err, ho, hno⟩
        · exact .inl ⟨e, ns.labels, ho, ⟨⟨ns, hns, rfl⟩, hvalid, e, hcand⟩, hchoice⟩
        · refine .inr ⟨err, ho, .inr fun labels hcan => ?_⟩
          obtain rfl := hlabels hcan
          obtain ⟨e, hcand⟩ := hcan.candidate
          exact hno e hcand

/-- **Each of the choices may be returned.** -/
theorem exists_run_getDefaultEIP {e : Eip} (hcan : CanChoose env name labels s)
    (hchoice : IsChoice name labels s e) :
    ∃ l, Prog.Run (exec {}) s (getDefaultEIP env name) l (.ok e) s := by
  obtain ⟨⟨ns, hns, rfl⟩, hvalid, -⟩ := hcan
  have hst : s.eip e.name = some e := by
    cases hchoice with
    | bound hb _ => exact hb.1
    | default _ hd => exact hd.1
  -- the Eip is listed first
  obtain ⟨v, hv, hobj⟩ := Option.map_eq_some_iff.mp hst
  obtain ⟨eips, hl⟩ := VStore.exists_lists_cons hv
  have hread : exec {} .listEips s (.ok (v :: eips)) s := ⟨rfl, hl⟩
  have hget : exec {} (.getNamespace name) s (.ok ns) s := ⟨rfl, .inl hns⟩
  suffices hrest : ∃ l, Prog.Run (exec {}) s (pickEip
      (((v :: eips).map Version.obj).flatMap (Eip.copies name ns.labels))
      (((v :: eips).map Version.obj).find? fun e => e.usable && e.isDefault)) l (.ok e) s by
    obtain ⟨l, hrest⟩ := hrest
    refine ⟨_, run_of_api hget (run_of_api (l := l) hread ?_)⟩
    rw [must_ok, Code.pure_bind, collectEips_eq fun e he => hvalid e ((mem_map_obj hl).mp he)]
    exact hrest
  unfold pickEip
  cases hchoice with
  | bound hb hbest =>
    have hmem := (mem_flatMap_copies hl).mpr hb
    obtain ⟨sorted, hsorted⟩ := exists_eipsSorted_cons hmem
      fun e' he' => hbest e' ((mem_flatMap_copies hl).mp he')
    rw [if_pos (List.ne_nil_of_mem hmem)]
    have hsort : exec {} (.sortEips _) s (e :: sorted) s := ⟨rfl, hsorted⟩
    exact ⟨_, run_of_api hsort (run_pure_iff.mpr ⟨rfl, rfl, rfl⟩)⟩
  | default hnone hd =>
    have hnil : ((v :: eips).map Version.obj).flatMap (Eip.copies name ns.labels) = [] :=
      List.eq_nil_iff_forall_not_mem.mpr fun e' he' => hnone e' ((mem_flatMap_copies hl).mp he')
    rw [if_neg (not_not.mpr hnil), List.map_cons, hobj, List.find?_cons_of_pos (by simp [hd.2])]
    exact ⟨[], run_pure_iff.mpr ⟨rfl, rfl, rfl⟩⟩

end Choice

/-! ## Runs without failures -/

/-- Without failures, every request is answered. -/
theorem exec_total (c : Call) (s : Cluster) : ∃ r s', exec {} c s r s' := by
  have hread : ∀ {κ α : Type} [DecidableEq κ] {key : α → κ} (t : VStore key) (k : κ),
      ∃ r, VStore.Reads {} t k r := by
    intro κ α _ key t k
    cases hk : t.get k with
    | some v => exact ⟨.ok v, hk⟩
    | none => exact ⟨.error .notFound, .inl hk⟩
  have hlist : ∀ {κ α : Type} [DecidableEq κ] {key : α → κ} (t : VStore key),
      ∃ l, VStore.ReadsAll {} t (.ok l) := fun t => t.exists_lists
  have hunit : ∀ done : Except ApiErr Cluster, ∃ r s', WritesUnit {} s done r s' := by
    intro done
    cases done with
    | error e => exact ⟨.error e, s, rfl, rfl⟩
    | ok s₁ => exact ⟨.ok (), s₁, .inl ⟨rfl, rfl⟩⟩
  cases c with
  | getEip name =>
    obtain ⟨r, hr⟩ := hread s.eips name
    exact ⟨r, s, rfl, hr⟩
  | getService k =>
    obtain ⟨r, hr⟩ := hread s.services k
    exact ⟨r, s, rfl, hr⟩
  | getWorkload k =>
    obtain ⟨r, hr⟩ := hread s.workloads k
    exact ⟨r, s, rfl, hr⟩
  | listEips =>
    obtain ⟨l, hl⟩ := hlist s.eips
    exact ⟨.ok l, s, rfl, hl⟩
  | listServices label value =>
    obtain ⟨l, hl⟩ := hlist s.services
    exact ⟨_, s, rfl, .ok l, hl, rfl⟩
  | listNodes =>
    obtain ⟨l, hl⟩ := hlist s.nodes
    exact ⟨.ok l, s, rfl, hl⟩
  | updateEip v => exact ⟨_, _, _, .inl rfl, rfl⟩
  | updateEipStatus v => exact ⟨_, _, _, .inl rfl, rfl⟩
  | updateService v => exact ⟨_, _, _, .inl rfl, rfl⟩
  | updateServiceStatus v => exact ⟨_, _, _, .inl rfl, rfl⟩
  | updateNode v => exact ⟨_, _, _, .inl rfl, rfl⟩
  | createWorkload w => exact hunit _
  | updateWorkload w => exact hunit _
  | deleteWorkload k => exact hunit _
  | getNamespace name =>
    cases hk : s.namespaces.get name with
    | some ns => exact ⟨.ok ns, s, rfl, .inl hk⟩
    | none => exact ⟨.error .notFound, s, rfl, .inl hk⟩
  | getConfigMap k =>
    cases hk : s.configMaps.get k with
    | some data => exact ⟨.ok data, s, rfl, .inl hk⟩
    | none => exact ⟨.error .notFound, s, rfl, .inl hk⟩
  | listPods ns label value phase => exact ⟨.ok _, s, rfl, .inr (.refl _)⟩
  | rangeUsed m =>
    obtain ⟨ks, hks⟩ := m.exists_ranges
    exact ⟨ks, s, rfl, hks⟩
  | sortEips l =>
    obtain ⟨l', hl'⟩ := exists_eipsSorted l
    exact ⟨l', s, rfl, hl'⟩

end OpenELB
