import OpenELB.SpeakerSteps
import Mathlib.Data.List.Chain

/-! # Announcing an Eip from version to version

`HandleEIP` compares each version of an Eip with the one on record and changes only
what it finds different.  Over a fixed cluster, with speakers that do not fail, the
announcements after a sequence of versions should be those of the last version handled
alone.

The comparison is by address: an address that stays in `Used` is left alone, even if
the services behind it are others.  So the two tables agree as long as such an address
keeps its nodes (`ClusterView.Keeps`); sharing an address with a service that runs on
another node is a case where it does not. -/
namespace OpenELB
open Go Prog

/-- A version of the Eip of this name and address that `HandleEIP` is called with. -/
structure IsVersion (speakers : List String) (name address : String) (w : Eip) : Prop where
  name : w.name = name
  address : w.spec.address = address
  live : w.deletionTimestamp = false
  registered : w.getProtocol ∈ speakers

namespace ClusterView
variable (cl : ClusterView)

/-- What the speakers announce for a version of an Eip alone. -/
def announcements (eip : Eip) : Announcements := fun p ip =>
  if p = eip.getProtocol then cl.table eip.status.used ip else none

/-- From `v` to `w` the speaker is configured anew, or an address that both list has the
same nodes. -/
def Keeps (v w : Eip) : Prop :=
  isSpeakerConfigUpdate w.spec v.spec = true ∨
    ∀ ip a b, v.status.used.get ip = some a → w.status.used.get ip = some b →
      cl.targets a = cl.targets b

instance (v w : Eip) : Decidable (cl.Keeps v w) :=
  decidable_of_iff (isSpeakerConfigUpdate w.spec v.spec = true ∨
      ∀ ip ∈ (Option.getD v.status.used ∅).keys, ∀ a ∈ v.status.used.get ip,
        ∀ b ∈ w.status.used.get ip, cl.targets a = cl.targets b) (by
    rw [Keeps, ← Map.forall_entries]
    exact or_congr_right ⟨fun h ip a b ha hb => h ip a ha b hb, fun h ip a ha b hb => h ip a b ha hb⟩)

end ClusterView

variable {cl : ClusterView} {speakers : List String} {name address : String} {v w o : Eip}
  {s s' : SpeakerState}

/-! ## The version on record -/

/-- The version on record is `v`, up to what makes no difference to the speakers. -/
structure Records (v o : Eip) : Prop where
  address : o.spec.address = v.spec.address
  protocol : o.spec.protocol = v.spec.protocol
  interface : o.spec.protocol = openELBProtocolBGP ∨ o.spec.interface = v.spec.interface
  used : o.status.used = v.status.used

namespace Records

theorem refl (v : Eip) : Records v v := ⟨rfl, rfl, Or.inr rfl, rfl⟩

theorem getProtocol_eq (h : Records v o) : o.getProtocol = v.getProtocol := by
  rw [Eip.getProtocol, Eip.getProtocol, h.protocol]

theorem readable_iff (h : Records v o) : o.Readable ↔ v.Readable := by
  rw [Eip.Readable, Eip.Readable, h.address]

/-- It is the same to compare a version with `v` or with the record of `v`. -/
theorem configUpdate_eq (h : Records v o) :
    isSpeakerConfigUpdate w.spec o.spec = isSpeakerConfigUpdate w.spec v.spec := by
  rw [isSpeakerConfigUpdate, isSpeakerConfigUpdate, h.protocol]
  rcases h.interface with hb | hi
  · rw [h.protocol] at hb
    simp [hb]
  · rw [hi]

end Records

theorem getProtocol_of_not_update (h : isSpeakerConfigUpdate w.spec o.spec = false) :
    w.spec.protocol = o.spec.protocol ∧
      (o.spec.protocol = openELBProtocolBGP ∨ o.spec.interface = w.spec.interface) := by
  rw [isSpeakerConfigUpdate] at h
  split at h
  · cases h
  · rename_i hp
    refine ⟨not_not.mp hp, ?_⟩
    rw [decide_eq_false_iff_not, not_and_or, not_not, not_not] at h
    exact h.imp_right Eq.symm

/-! ## The table from one version to the next -/

/-- Everything announced for a version is withdrawn with its `Used`. -/
theorem withdraw_announcements (h : s.announced = cl.announcements v) :
    (s.withdraw v.getProtocol v.status.used).announced = fun _ _ => none := by
  funext p ip
  simp only [SpeakerState.withdraw, h, ClusterView.announcements]
  by_cases hp : p = v.getProtocol
  · cases hip : v.status.used.get ip with
    | none => simp [hp, ClusterView.table, hip]
    | some svcs => simp [hp]
  · simp [hp]

/-- What is announced where nothing was is the table of the version. -/
theorem announce_empty (h : s.announced = fun _ _ => none) :
    (s.announce cl v.getProtocol v.status.used).announced = cl.announcements v := by
  funext p ip
  simp only [SpeakerState.announce, h, ClusterView.announcements, Option.or_none]

/-- The addresses that go are withdrawn, those that come are announced, and those that
stay have the nodes they should have. -/
theorem diff_announcements (h : s.announced = cl.announcements v)
    (hp : w.getProtocol = v.getProtocol)
    (hkeep : ∀ ip a b, v.status.used.get ip = some a → w.status.used.get ip = some b →
      cl.targets a = cl.targets b) :
    ((s.withdraw w.getProtocol (v.status.used.without w.status.used)).announce cl
      w.getProtocol (w.status.used.without v.status.used)).announced = cl.announcements w := by
  funext p ip
  simp only [SpeakerState.announce, SpeakerState.withdraw, h, ClusterView.announcements,
    ClusterView.table, Map.get_without, hp]
  by_cases hpv : p = v.getProtocol
  · cases hv : v.status.used.get ip with
    | none =>
      cases hw : w.status.used.get ip with
      | none => simp [hpv]
      | some b => simp [hpv]
    | some a =>
      cases hw : w.status.used.get ip with
      | none => simp [hpv]
      | some b => simp [hpv, hkeep ip a b hv hw]
  · simp [hpv]

/-! ## Runs -/

/-- What the manager and the speakers are like once `v` has been handled: they hold
nothing if the address is no range, and otherwise `v` is on record and announced. -/
def Tracks (cl : ClusterView) (name : String) (v : Eip) (s : SpeakerState) : Prop :=
  ¬ v.Readable ∧ s.pools.get name = none ∧ (s.announced = fun _ _ => none) ∨
    v.Readable ∧ s.announced = cl.announcements v ∧
      ∃ o, s.pools.get name = some o ∧ Records v o

/-- Handling the first version. -/
theorem tracks_first (hv : IsVersion speakers name address v)
    (hres : cl.Resolves v.status.used) (hpool : s.pools.get name = none)
    (hann : s.announced = fun _ _ => none) {l : List (Event SpeakerCall SpeakerReply)}
    {r : Except Err Unit} (h : Run (cl.exec false) s (handleEIP speakers v).run l r s') :
    Tracks cl name v s' := by
  have hspec := wp_handleEIP.of_run h
  rw [← hv.name] at hpool
  cases r with
  | ok _ =>
    rcases hspec with ⟨-, hread, rfl⟩ | ⟨o, ho, -⟩
    · refine Or.inr ⟨hread, announce_empty hann, v, ?_, Records.refl v⟩
      rw [← hv.name]
      exact Map.get_set_self ..
    · rw [hpool] at ho
      cases ho
  | error e =>
    obtain ⟨-, hf | hno | hproto | ⟨-, hread, rfl⟩ | ⟨o, ho, -⟩⟩ := hspec
    · cases hf
    · exact absurd hres hno
    · exact absurd hv.registered hproto
    · exact Or.inl ⟨hread, hv.name ▸ hpool, hann⟩
    · rw [hpool] at ho
      cases ho

/-- **One version after another**: if the addresses they share keep their nodes, the
later one is announced. -/
theorem tracks_step (hv : IsVersion speakers name address v) (hw : IsVersion speakers name address w)
    (hres : cl.Resolves w.status.used) (hkeep : cl.Keeps v w) (hs : Tracks cl name v s)
    {l : List (Event SpeakerCall SpeakerReply)} {r : Except Err Unit}
    (h : Run (cl.exec false) s (handleEIP speakers w).run l r s') : Tracks cl name w s' := by
  have hsame : v.Readable ↔ w.Readable := by
    rw [Eip.Readable, Eip.Readable, hv.address, hw.address]
  rcases hs with ⟨-, hpool, hann⟩ | ⟨hread, hann, o, ho, hrec⟩
  · exact tracks_first hw hres hpool hann h
  have hspec := wp_handleEIP.of_run h
  rw [hw.name, ho] at hspec
  cases r with
  | error e =>
    obtain ⟨-, hf | hno | hproto | ⟨hnone, -⟩ | ⟨o', ho', hr⟩⟩ := hspec
    · cases hf
    · exact absurd hres hno
    · exact absurd hw.registered hproto
    · cases hnone
    · cases ho'
      exact absurd hread (hr.elim (fun h => fun h' => h (hrec.readable_iff.mpr h'))
        fun h => fun h' => h (hsame.mp h'))
  | ok _ =>
    rcases hspec with ⟨hnone, -⟩ | ⟨o', ho', rfl⟩
    · cases hnone
    cases ho'
    refine Or.inr ⟨hsame.mp hread, ?_⟩
    rw [SpeakerState.updated, hw.live, if_neg Bool.false_ne_true]
    split
    · -- the speaker is configured anew: everything is withdrawn and announced again
      refine ⟨?_, w, ?_, Records.refl w⟩
      · apply announce_empty
        rw [hrec.getProtocol_eq, hrec.used]
        exact withdraw_announcements hann
      · rw [← hw.name]
        exact Map.get_set_self ..
    rename_i hup
    rw [Bool.not_eq_true] at hup
    obtain ⟨hp, hi⟩ := getProtocol_of_not_update hup
    have hpv : w.getProtocol = v.getProtocol := by
      rw [Eip.getProtocol, Eip.getProtocol, hp, hrec.protocol]
    have hkeep' := hkeep.resolve_left (by rw [← hrec.configUpdate_eq, hup]; exact Bool.false_ne_true)
    split
    · refine ⟨?_, w, ?_, Records.refl w⟩
      · rw [hrec.used]
        exact diff_announcements hann hpv hkeep'
      · rw [← hw.name]
        exact Map.get_set_self ..
    · rename_i hused
      have hused : w.status.used = v.status.used := (not_not.mp hused).trans hrec.used
      refine ⟨?_, o, ho, ?_⟩
      · rw [hann]
        funext p ip
        rw [ClusterView.announcements, ClusterView.announcements, hpv, hused]
      · exact ⟨by rw [hrec.address, hv.address, hw.address], hp.symm, hi,
          hrec.used.trans hused.symm⟩

/-- Every version of a run of this kind is announced once it has been handled. -/
theorem tracks_run {vs : List Eip} (hv : IsVersion speakers name address v)
    (hvs : ∀ w ∈ vs, IsVersion speakers name address w)
    (hres : ∀ w ∈ vs, cl.Resolves w.status.used) (hkeep : (v :: vs).IsChain cl.Keeps)
    (hs : Tracks cl name v s) (h : Handled false speakers s (vs.map (cl, ·)) s') :
    Tracks cl name ((v :: vs).getLast (List.cons_ne_nil v vs)) s' := by
  induction vs generalizing v s with
  | nil =>
    cases h
    exact hs
  | cons w vs ih =>
    rw [List.map_cons] at h
    cases h with
    | cons hrun hrest =>
      obtain ⟨hw, hws⟩ := List.forall_mem_cons.mp hvs
      obtain ⟨hrw, hrws⟩ := List.forall_mem_cons.mp hres
      obtain ⟨hvw, hchain⟩ := List.isChain_cons_cons.mp hkeep
      rw [List.getLast_cons_cons]
      exact ih hw hws hrws hchain (tracks_step hv hw hrw hvw hs hrun) hrest

/-- The same from a manager and speakers that hold nothing. -/
theorem tracks_fresh {vs : List Eip} (hvs : ∀ w ∈ vs ++ [v], IsVersion speakers name address w)
    (hres : ∀ w ∈ vs ++ [v], cl.Resolves w.status.used) (hkeep : (vs ++ [v]).IsChain cl.Keeps)
    (h : Handled false speakers {} ((vs ++ [v]).map (cl, ·)) s) : Tracks cl name v s := by
  obtain ⟨u, us, hus⟩ := List.exists_cons_of_ne_nil (List.concat_ne_nil v vs)
  have hlast : (u :: us).getLast (List.cons_ne_nil u us) = v := by
    simp only [← hus, List.getLast_concat]
  rw [hus] at hvs hres hkeep h
  rw [List.map_cons] at h
  cases h with
  | cons hrun hrest =>
    obtain ⟨hu, hus'⟩ := List.forall_mem_cons.mp hvs
    obtain ⟨hru, hrus⟩ := List.forall_mem_cons.mp hres
    have hfirst := tracks_first hu hru (Map.get_empty name) rfl hrun
    rw [← hlast]
    exact tracks_run hu hus' hrus hkeep hfirst hrest

theorem Tracks.announced_eq (h : Tracks cl name v s) (h' : Tracks cl name v s') :
    s.announced = s'.announced := by
  rcases h with ⟨hread, -, ha⟩ | ⟨hread, ha, -⟩
  · rcases h' with ⟨-, -, ha'⟩ | ⟨hread', -⟩
    · rw [ha, ha']
    · exact absurd hread' hread
  · rcases h' with ⟨hread', -⟩ | ⟨-, ha', -⟩
    · exact absurd hread hread'
    · rw [ha, ha']

/-- **Announcing from version to version is announcing the last version**, in every run
in which the services that the versions list exist, and in which an address that a
version takes over from the one before, with the speaker's configuration, keeps its
nodes. -/
theorem announced_as_last_version {vs : List Eip}
    (hvs : ∀ w ∈ vs ++ [v], IsVersion speakers name address w)
    (hres : ∀ w ∈ vs ++ [v], cl.Resolves w.status.used) (hkeep : (vs ++ [v]).IsChain cl.Keeps)
    (h : Handled false speakers {} ((vs ++ [v]).map (cl, ·)) s)
    (h' : Handled false speakers {} [(cl, v)] s') : s.announced = s'.announced := by
  have hv : v ∈ vs ++ [v] := List.mem_append_right vs (List.mem_singleton_self v)
  have hone : Tracks cl name v s' := by
    refine @tracks_fresh cl speakers name address v s' [] ?_ ?_ (List.isChain_singleton v) h'
    · exact fun w hw => List.mem_singleton.mp hw ▸ hvs v hv
    · exact fun w hw => List.mem_singleton.mp hw ▸ hres v hv
  exact (tracks_fresh hvs hres hkeep h).announced_eq hone

/-- The layer 2 Eip handled with one address in use, and then with two. -/
theorem announced_as_last_version_grown :
    let v := edgeEip [("192.0.2.1", "ns/a")]
    let w := edgeEip [("192.0.2.1", "ns/a"), ("192.0.2.2", "ns/b")]
    ∃ s s', Handled false ["layer2"] {} [(twoHosts, v), (twoHosts, w)] s ∧
      Handled false ["layer2"] {} [(twoHosts, w)] s' ∧ s.announced = s'.announced := by
  intro v w
  have h₁ : twoHosts.returns edgeOrder noneFails ["layer2"] {} v = some (.ok ()) := by
    decide +kernel
  have h₂ : twoHosts.returns edgeOrder noneFails ["layer2"]
      (twoHosts.after edgeOrder noneFails ["layer2"] {} v) w = some (.ok ()) := by
    decide +kernel
  have h₃ : twoHosts.returns edgeOrder noneFails ["layer2"] {} w = some (.ok ()) := by
    decide +kernel
  have hrun := @Handled.cons_after _ _ _ false noneFails_imp _ _ _ _ _ _ h₁
    (.cons_after noneFails_imp h₂ .nil)
  have hone := @Handled.cons_after _ _ _ false noneFails_imp _ _ _ _ _ _ h₃ .nil
  refine ⟨_, _, hrun, hone, ?_⟩
  refine @announced_as_last_version twoHosts ["layer2"] "edge" "192.0.2.0/24" w _ _ [v]
    ?_ ?_ ?_ hrun hone
  · intro u hu
    rcases List.mem_pair.mp hu with rfl | rfl
    · exact ⟨rfl, rfl, rfl, by decide⟩
    · exact ⟨rfl, rfl, rfl, by decide⟩
  · decide +kernel
  · exact List.isChain_pair.mpr (by decide +kernel)

/-- **Sharing an address is not announced.**  The services of the address are hosted on
two nodes; the version that adds the second one to its entry leaves the announcement
towards the first node only. -/
theorem sharing_not_announced :
    let v := edgeEip [("192.0.2.1", "ns/a")]
    let w := edgeEip [("192.0.2.1", "ns/a;ns/b")]
    (∀ u ∈ [v, w], IsVersion ["layer2"] "edge" "192.0.2.0/24" u) ∧
    ∃ s s', Handled false ["layer2"] {} [(twoHosts, v), (twoHosts, w)] s ∧
      Handled false ["layer2"] {} [(twoHosts, w)] s' ∧
      s.announced "layer2" "192.0.2.1" = some {{ name := "n1" }} ∧
      s'.announced "layer2" "192.0.2.1" = some {{ name := "n1" }, { name := "n2" }} := by
  intro v w
  have h₁ : twoHosts.returns edgeOrder noneFails ["layer2"] {} v = some (.ok ()) := by
    decide +kernel
  have h₂ : twoHosts.returns edgeOrder noneFails ["layer2"]
      (twoHosts.after edgeOrder noneFails ["layer2"] {} v) w = some (.ok ()) := by
    decide +kernel
  have h₃ : twoHosts.returns edgeOrder noneFails ["layer2"] {} w = some (.ok ()) := by
    decide +kernel
  refine ⟨?_, _, _, .cons_after noneFails_imp h₁ (.cons_after noneFails_imp h₂ .nil),
    .cons_after noneFails_imp h₃ .nil, ?_, ?_⟩
  · intro u hu
    rcases List.mem_pair.mp hu with rfl | rfl
    · exact ⟨rfl, rfl, rfl, by decide⟩
    · exact ⟨rfl, rfl, rfl, by decide⟩
  · decide +kernel
  · decide +kernel

end OpenELB
