import OpenELB.PastTime
import OpenELB.SingleAnnouncer

/-! # What has been sent for an announced address

`AddAnnouncedIP` sends the gratuitous packets of an address that has no mark yet: both
operations of ARP, or one neighbour advertisement.  The mark is set before the packets
are sent and stays when a packet fails, so the next call finds it and returns nil without
sending.  A call that returns nil therefore means that the packets have been sent, since
the address was last unmarked, exactly if they did not fail to be sent
(`announcement_sent_iff`). -/
namespace OpenELB
open Go PastTime

/-- `DelAnnouncedIP` announces nothing. -/
theorem Announcer.announced_of_delAnnouncedIP {a : Announcer} {wire : Wire} {ip : IP} {t : String}
    (h : (a.delAnnouncedIP wire ip).2.Announced t) :
    a.Announced t := by
  rcases delAnnouncedIP_cases a wire ip with he | he
  · rwa [he] at h
  · rw [he, Announced, Map.get_delete] at h
    by_cases ht : t = ipString ip
    · rw [if_pos ht] at h
      cases h
    · rwa [if_neg ht] at h

/-! ## Runs -/

/-- A call of an announcer, with what becomes of its packets. -/
inductive AnnounceCall where
  | add (wire : Wire) (ip : IP)
  | del (wire : Wire) (ip : IP)

namespace AnnounceCall

/-- The announcer after a call. -/
def step (a : Announcer) : AnnounceCall → Announcer
  | .add wire ip => (a.addAnnouncedIP wire ip).2
  | .del wire ip => (a.delAnnouncedIP wire ip).2

/-- The call sends all gratuitous packets of the address with this text. -/
def Sends (t : String) (a : Announcer) (c : AnnounceCall) : Prop :=
  ∃ wire ip, c = .add wire ip ∧ ipString ip = t ∧ a.Reaches wire ip ∧ wire.Delivers a.kind

/-- The call fails to send one of them. -/
def FailsToSend (t : String) (a : Announcer) (c : AnnounceCall) : Prop :=
  ∃ wire ip, c = .add wire ip ∧ ipString ip = t ∧ a.Reaches wire ip ∧ ¬ wire.Delivers a.kind

variable {a : Announcer} {c : AnnounceCall} {t : String}

/-- An address comes to be announced by a call for it, which sends its packets or fails
to. -/
theorem sends_iff_of_new (hold : ¬ a.Announced t) (hnew : (step a c).Announced t) :
    Sends t a c ↔ ¬ FailsToSend t a c := by
  cases c with
  | del wire ip => exact absurd (Announcer.announced_of_delAnnouncedIP hnew) hold
  | add wire ip =>
    have hreaches : a.Reaches wire ip := by
      by_contra hnot
      rw [step, (Announcer.addAnnouncedIP_of_not_reaches hnot).1] at hnew
      exact hold hnew
    rw [step, (Announcer.addAnnouncedIP_of_reaches hreaches).1, Announcer.announced_setMac] at hnew
    have htext : ipString ip = t := (hnew.resolve_right hold).symm
    constructor
    · rintro ⟨wire', ip', he, -, -, hsent⟩ ⟨wire'', ip'', he', -, -, hfail⟩
      cases he
      cases he'
      exact hfail hsent
    · intro hnofail
      refine ⟨wire, ip, rfl, htext, hreaches, ?_⟩
      by_contra hfail
      exact hnofail ⟨wire, ip, rfl, htext, hreaches, hfail⟩

/-- For an announced address nothing is sent. -/
theorem not_sends_of_announced (h : a.Announced t) : ¬ Sends t a c ∧ ¬ FailsToSend t a c := by
  constructor
  · rintro ⟨wire, ip, -, rfl, hreaches, -⟩
    exact hreaches.1 h
  · rintro ⟨wire, ip, -, rfl, hreaches, -⟩
    exact hreaches.1 h

end AnnounceCall

open AnnounceCall

/-- In the run, all gratuitous packets of the address have been sent since it was last not
announced. -/
def SentSince (t : String) (a : Announcer) (calls : List AnnounceCall) : Prop :=
  Since step (Sends t) (·.Announced t) a calls

/-- In the run, a call has failed to send them since then. -/
def FailedSince (t : String) (a : Announcer) (calls : List AnnounceCall) : Prop :=
  Since step (FailsToSend t) (·.Announced t) a calls

/-- **When a successful announcement was really sent.**  In every run of `AddAnnouncedIP`
and `DelAnnouncedIP` of a new announcer: when `AddAnnouncedIP` returns nil, all gratuitous
packets of the address have been sent since it was last not announced, exactly if since
then no call has failed to send them.  A call that fails to send returns an error and
leaves the address announced. -/
theorem announcement_sent_iff {a : Announcer} (hfresh : ∀ t, ¬ a.Announced t)
    (calls : List AnnounceCall) (wire : Wire) (ip : IP) :
    (((calls.foldl step a).addAnnouncedIP wire ip).1 = .ok () →
      (SentSince (ipString ip) a (calls ++ [.add wire ip]) ↔
        ¬ FailedSince (ipString ip) a calls)) ∧
    (FailsToSend (ipString ip) (calls.foldl step a) (.add wire ip) →
      ((calls.foldl step a).addAnnouncedIP wire ip).1 ≠ .ok () ∧
      ((calls.foldl step a).addAnnouncedIP wire ip).2.Announced (ipString ip)) := by
  constructor
  · intro hok
    rw [SentSince, FailedSince, since_concat]
    by_cases hreaches : (calls.foldl step a).Reaches wire ip
    · -- the packets are sent now
      obtain ⟨hstate, hsent⟩ := Announcer.addAnnouncedIP_of_reaches hreaches
      refine iff_of_true ⟨?_, .inl ⟨wire, ip, rfl, rfl, hreaches, hsent.mp hok⟩⟩ ?_
      · rw [step, hstate, Announcer.announced_setMac]
        exact .inl rfl
      · exact fun hsince => hreaches.1 hsince.last
    · -- the mark is there, so the call sends nothing
      obtain ⟨hstate, hmark⟩ := Announcer.addAnnouncedIP_of_not_reaches hreaches
      have hann := hmark hok
      rw [step, hstate, and_iff_right hann, or_iff_right (not_sends_of_announced hann).1]
      exact since_iff_not_since (Q := fun b => Announcer.Announced b _) (hfresh _)
        (fun b c => sends_iff_of_new) (fun b c => not_sends_of_announced) calls hann
  · rintro ⟨wire', ip', he, -, hreaches, hfail⟩
    cases he
    obtain ⟨hstate, hsent⟩ := Announcer.addAnnouncedIP_of_reaches hreaches
    refine ⟨fun hok => hfail (hsent.mp hok), ?_⟩
    rw [hstate, Announcer.announced_setMac]
    exact .inl rfl

/-! ## A packet is lost -/

/-- A new ARP announcer of an interface. -/
def freshAnnouncer : Announcer where
  kind := .arp
  hardwareAddr := [2, 0, 0, 0, 0, 1]
  ip2mac := Map.empty
  ipranges := Map.empty

theorem freshAnnouncer_announced (t : String) : ¬ freshAnnouncer.Announced t := by
  rw [Announcer.Announced, freshAnnouncer, Map.get_empty]
  exact Bool.false_ne_true

/-- The reply of ARP cannot be written. -/
def replyLost : Wire := { reply := .error "network is down" }

/-- The reply is lost, the address is taken back and then announced again: now its packets
have been sent. -/
theorem announcement_sent_iff_again :
    (freshAnnouncer.addAnnouncedIP replyLost [192, 0, 2, 1]).1 = .error "network is down" ∧
    SentSince (ipString [192, 0, 2, 1]) freshAnnouncer
      ([.add replyLost [192, 0, 2, 1], .del {} [192, 0, 2, 1]] ++ [.add {} [192, 0, 2, 1]]) := by
  have hgone : ¬ (([.add replyLost [192, 0, 2, 1], .del {} [192, 0, 2, 1]] :
      List AnnounceCall).foldl step freshAnnouncer).Announced (ipString [192, 0, 2, 1]) := by
    decide +kernel
  refine ⟨by decide +kernel, ((announcement_sent_iff freshAnnouncer_announced _ {} _).1
    (by decide +kernel)).mpr fun hfailed => ?_⟩
  exact hgone hfailed.last

/-- **A retry that sends nothing.**  The reply of the first call is lost, and the call
returns the error.  The second call returns nil, and the packets have not been sent. -/
theorem retry_sends_nothing :
    (freshAnnouncer.addAnnouncedIP replyLost [192, 0, 2, 1]).1 = .error "network is down" ∧
    (((([.add replyLost [192, 0, 2, 1]] : List AnnounceCall).foldl step freshAnnouncer)
      ).addAnnouncedIP {} [192, 0, 2, 1]).1 = .ok () ∧
    ¬ SentSince (ipString [192, 0, 2, 1]) freshAnnouncer
      ([.add replyLost [192, 0, 2, 1]] ++ [.add {} [192, 0, 2, 1]]) := by
  refine ⟨by decide +kernel, by decide +kernel, fun hsent => ?_⟩
  have hann : (([.add replyLost [192, 0, 2, 1]] : List AnnounceCall).foldl step
      freshAnnouncer).Announced (ipString [192, 0, 2, 1]) := by decide +kernel
  rcases (since_concat.mp hsent).2 with hnow | hbefore
  · exact (not_sends_of_announced hann).1 hnow
  · rw [← List.nil_append [AnnounceCall.add replyLost _]] at hbefore
    rcases (since_concat.mp hbefore).2 with ⟨wire, ip, he, -, -, hsends⟩ | hnil
    · cases he
      cases hsends.2
    · exact not_since_nil hnil

end OpenELB
