import OpenELB.Responder

/-! # The goroutine of an announcer

`Start` of an announcer runs `processRequest` again and again.  Meanwhile its methods are
called: each of them marks or unmarks addresses, one write to the map at a time
(`ApiCall.step_marks`), and `Stop` closes the socket and then sends on a channel without a
buffer, which the goroutine looks at between two requests.  All of this can happen between
any two calls of `processRequest`.

What has been written so far is a list of happenings, the newest first.  A packet is only
written for an address that was marked before, and once the mark is gone at most one more
packet is (`answers_follow_marks`): the request that was being answered.  `Stop` gets
through unless the goroutine has ended because a read came to the end of the file
(`stop_returns_unless_ended`); then nobody is left to receive. -/
namespace OpenELB
open Go Prog Threads

/-- Where a call of `Stop` is: not begun, the socket closed, at the channel, or done. -/
inductive StopPhase where
  | running
  | closed
  | waiting
  | returned
  deriving DecidableEq

/-- What happens to the marks and on the wire. -/
inductive Happening (k : AnnouncerKind) where
  | marked (t : String)
  | unmarked (t : String)
  | wrote (o : Outgoing k)

/-- The marks, `Stop`, whether the goroutine has ended, and what has happened. -/
structure ServeState (k : AnnouncerKind) where
  marks : Map String (List UInt8)
  stop : StopPhase
  gone : Bool
  history : List (Happening k)

namespace ServeState
variable {k : AnnouncerKind} (s : ServeState k)

/-- An announcer that has been started. -/
def init : ServeState k := ⟨Map.empty, .running, false, []⟩

/-- A method marks an address. -/
def mark (hw : List UInt8) (t : String) : ServeState k :=
  { s with marks := s.marks.set t hw, history := .marked t :: s.history }

/-- A method unmarks an address. -/
def unmark (t : String) : ServeState k :=
  { s with marks := s.marks.delete t, history := .unmarked t :: s.history }

end ServeState

/-- The answers of the map of marks and of the network.  A socket that is closed has nothing
more to read. -/
def serveExec (k : AnnouncerKind) (hw : List UInt8) :
    (c : NetCall k) → ServeState k → NetReply c → ServeState k → Prop
  | .read, s, r, s' => s' = s ∧ (s.stop = .running ∨ ∃ e, r = .error e)
  | .writeTo o, s, _, s' => s' = { s with history := .wrote o :: s.history }
  | .getMac t, s, mac, s' => mac = s.marks.get t ∧ s' = s
  | .setMac t, s, _, s' => s' = s.mark hw t
  | .updateRequestsReceived _, s, _, s' | .updateResponsesSent _, s, _, s' => s' = s

/-- What else happens, when the goroutine is inside `processRequest` or not (`busy`): the
methods write to the marks, and `Stop` goes on.  Its send is received between two requests. -/
inductive ServeEnv {k : AnnouncerKind} (hw : List UInt8) (busy : Bool) :
    ServeState k → ServeState k → Prop
  | mark (s : ServeState k) (t : String) : ServeEnv hw busy s (s.mark hw t)
  | unmark (s : ServeState k) (t : String) : ServeEnv hw busy s (s.unmark t)
  | close (s : ServeState k) : s.stop = .running → ServeEnv hw busy s { s with stop := .closed }
  | send (s : ServeState k) : s.stop = .closed → ServeEnv hw busy s { s with stop := .waiting }
  | receive (s : ServeState k) : s.stop = .waiting → busy = false → s.gone = false →
      ServeEnv hw busy s { s with stop := .returned, gone := true }

/-- `Start`: the loop of the goroutine, which takes the send of `Stop` if there is one and
goes on with the next request if not, and ends when the socket is at its end. -/
def serving (codec : Arp.Codec) (k : AnnouncerKind) (hw : List UInt8) :
    System Unit Unit (NetCall k) NetReply DropReason (ServeState k) where
  body _ := processRequest codec hw k
  exec := serveExec k hw
  start _ _ s s' := s' = s ∧ s.gone = false ∧ s.stop ≠ .waiting
  done _ _ reason s s' := s' = { s with gone := s.gone || decide (reason = .closed) }
  env tasks := ServeEnv hw (tasks ()).isSome

/-- The configurations of an announcer that has been started. -/
abbrev ServeReach (codec : Arp.Codec) (k : AnnouncerKind) (hw : List UInt8) :=
  (serving codec k hw).Reach (· = ServeState.init)

/-! ## What is written at which place -/

/-- An answer to an ARP request tells where the address is. -/
theorem bindingOf_generateArp {codec : Arp.Codec} (hcodec : codec.Faithful) {hw mac fb : List UInt8}
    {pkt : Arp.Packet} (hhw : hw.length = 6) (hmac : mac.length = 6)
    (h : generateArp codec hw .reply mac pkt.targetIP pkt.senderHardwareAddr pkt.senderIP = .ok fb) :
    bindingOf codec (k := .arp) (fb, pkt.senderHardwareAddr) = some (ipString pkt.targetIP, mac) := by
  obtain ⟨src, dst, hs, -, -, hreceive⟩ := generateArp_eq_ok hcodec hhw hmac h
  show (codec.receive fb).map _ = _
  rw [hreceive, Option.map_some, ← ipString_to4 hs]

theorem arp_leads_writeTo {codec : Arp.Codec} (hcodec : codec.Faithful) {hw : List UInt8}
    (hhw : hw.length = 6)
    {log : List (Event (NetCall .arp) NetReply)} {o : Outgoing .arp}
    {κ : NetReply (.writeTo o) → Prog (NetCall .arp) NetReply DropReason}
    (h : Leads (arpProcessRequest codec hw) log (.call (.writeTo o) κ)) :
    writes log = [] ∧ ∃ t mac, ⟨.getMac t, some mac⟩ ∈ log ∧
      (mac.length = 6 → bindingOf codec o = some (t, mac)) := by
  obtain ⟨r, l₁, rfl, h₁⟩ := h.of_ne (by simp)
  rcases r with (- | e) | pkt
  · exact (h₁.not_ret).elim
  · exact (h₁.not_ret).elim
  by_cases hop : Arp.Packet.operation pkt ≠ .request
  · simp only [if_pos hop] at h₁
    exact (h₁.not_ret).elim
  simp only [if_neg hop] at h₁
  obtain ⟨mac, l₂, rfl, h₂⟩ := h₁.of_ne (by simp)
  rcases mac with - | mac
  · exact (h₂.not_ret).elim
  obtain ⟨_, l₃, rfl, h₃⟩ := h₂.of_ne (by simp)
  rcases hgen : generateArp codec hw .reply mac (Arp.Packet.targetIP pkt)
      (Arp.Packet.senderHardwareAddr pkt) (Arp.Packet.senderIP pkt) with e | fb <;> simp only [hgen] at h₃
  · exact (h₃.not_ret).elim
  rcases leads_call_iff.mp h₃ with ⟨rfl, he⟩ | ⟨r, l₄, rfl, h₄⟩
  · obtain rfl := NetCall.writeTo.inj (Option.some.inj (congrArg nextCall he))
    refine ⟨rfl, ipString (Arp.Packet.targetIP pkt), mac, ?_,
      fun hmac => bindingOf_generateArp hcodec hhw hmac hgen⟩
    exact List.mem_cons_of_mem _ List.mem_cons_self
  · -- after a write there is no other
    rcases r with e | u
    · exact (h₄.not_ret).elim
    · obtain ⟨_, l₅, rfl, h₅⟩ := h₄.of_ne (by simp)
      exact (h₅.not_ret).elim

theorem ndp_leads_writeTo {codec : Arp.Codec}
    {log : List (Event (NetCall .ndp) NetReply)} {o : Outgoing .ndp}
    {κ : NetReply (.writeTo o) → Prog (NetCall .ndp) NetReply DropReason}
    (h : Leads ndpProcessRequest log (.call (.writeTo o) κ)) :
    writes log = [] ∧ ∃ t mac, ⟨.getMac t, some mac⟩ ∈ log ∧ bindingOf codec o = some (t, mac) := by
  obtain ⟨r, l₁, rfl, h₁⟩ := h.of_ne (by simp)
  rcases r with (- | e) | ⟨(⟨targetAddress, options⟩ | -), nsSenderIP⟩
  · exact (h₁.not_ret).elim
  · exact (h₁.not_ret).elim
  · rcases hll : linkLayerAddr .source options with - | addr <;> simp only [hll] at h₁
    · exact (h₁.not_ret).elim
    obtain ⟨mac, l₂, rfl, h₂⟩ := h₁.of_ne (by simp)
    rcases mac with - | mac
    · exact (h₂.not_ret).elim
    obtain ⟨_, l₃, rfl, h₃⟩ := h₂.of_ne (by simp)
    rcases leads_call_iff.mp h₃ with ⟨rfl, he⟩ | ⟨r, l₄, rfl, h₄⟩
    · obtain rfl := NetCall.writeTo.inj (Option.some.inj (congrArg nextCall he))
      exact ⟨rfl, addrString targetAddress, mac, List.mem_cons_of_mem _ List.mem_cons_self, rfl⟩
    · rcases r with e | u
      · exact (h₄.not_ret).elim
      · obtain ⟨_, l₅, rfl, h₅⟩ := h₄.of_ne (by simp)
        exact (h₅.not_ret).elim
  · exact (h₁.not_ret).elim

/-- **A packet is written after the mark of its address was found**, and for that address and
mark; and it is the first of the request. -/
theorem leads_writeTo {codec : Arp.Codec} (hcodec : codec.Faithful) {k : AnnouncerKind}
    {hw : List UInt8} (hhw : hw.length = 6)
    {log : List (Event (NetCall k) NetReply)} {o : Outgoing k}
    {κ : NetReply (.writeTo o) → Prog (NetCall k) NetReply DropReason}
    (h : Leads (processRequest codec hw k) log (.call (.writeTo o) κ)) :
    writes log = [] ∧ ∃ t mac, ⟨.getMac t, some mac⟩ ∈ log ∧
      (mac.length = 6 → bindingOf codec o = some (t, mac)) := by
  cases k with
  | arp => exact arp_leads_writeTo hcodec hhw h
  | ndp =>
    obtain ⟨hfirst, t, mac, hlog, hbind⟩ := ndp_leads_writeTo h
    exact ⟨hfirst, t, mac, hlog, fun _ => hbind⟩

/-! ## The marks and the packets -/

section Marks
variable {codec : Arp.Codec} {k : AnnouncerKind} {hw : List UInt8} {t : String}

/-- The address is marked, after these happenings. -/
def Happening.marks (t : String) : List (Happening k) → Bool
  | [] => false
  | .marked t' :: h => if t' = t then true else marks t h
  | .unmarked t' :: h => if t' = t then false else marks t h
  | .wrote _ :: h => marks t h

/-- The happening is a packet for the address. -/
def Happening.isAnswer (codec : Arp.Codec) (t : String) : Happening k → Bool
  | .wrote o => (bindingOf codec o).any fun b => b.1 == t
  | .marked _ | .unmarked _ => false

open Happening

theorem Happening.mem_of_marks {h : List (Happening k)} (hm : marks t h = true) : .marked t ∈ h := by
  induction h with
  | nil => cases hm
  | cons e h ih =>
    cases e with
    | marked t' =>
      by_cases ht : t' = t
      · subst ht
        exact List.mem_cons_self
      · rw [marks, if_neg ht] at hm
        exact List.mem_cons_of_mem _ (ih hm)
    | unmarked t' =>
      by_cases ht : t' = t
      · rw [marks, if_pos ht] at hm
        contradiction
      · rw [marks, if_neg ht] at hm
        exact List.mem_cons_of_mem _ (ih hm)
    | wrote o => exact List.mem_cons_of_mem _ (ih hm)

/-- An address that was unmarked, and not marked since, is not marked. -/
theorem Happening.marks_of_unmarked {later earlier : List (Happening k)} (h : .marked t ∉ later) :
    marks t (later ++ .unmarked t :: earlier) = false := by
  induction later with
  | nil => exact if_pos rfl
  | cons e later ih =>
    obtain ⟨hne, hlater⟩ := not_or.mp fun hor => h (List.mem_cons.mpr hor)
    cases e with
    | marked t' =>
      rw [List.cons_append, marks, if_neg fun ht => hne (by rw [ht])]
      exact ih hlater
    | unmarked t' =>
      rw [List.cons_append, marks]
      by_cases ht : t' = t
      · exact if_pos ht
      · rw [if_neg ht]
        exact ih hlater
    | wrote o => exact ih hlater

/-- The request that is being answered has found the mark of the address, and nothing has been
written for it yet. -/
def Pending (t : String) (log : List (Event (NetCall k) NetReply)) : Prop :=
  (∃ mac, ⟨.getMac t, some mac⟩ ∈ log) ∧ writes log = []

/-- What holds whenever the goroutine has made these calls of a request. -/
structure ServeSound (codec : Arp.Codec) (hw : List UInt8) (s : ServeState k)
    (log : List (Event (NetCall k) NetReply)) : Prop where
  marks : ∀ t, s.marks.get t = if Happening.marks t s.history then some hw else none
  found : ∀ t mac, ⟨.getMac t, some mac⟩ ∈ log → mac = hw ∧ .marked t ∈ s.history
  wrote : ∀ later o earlier, s.history = later ++ .wrote o :: earlier →
    ∃ t, bindingOf codec o = some (t, hw) ∧ .marked t ∈ earlier
  quiet : ∀ t later earlier, s.history = later ++ .unmarked t :: earlier → .marked t ∉ later →
    later.countP (isAnswer codec t) ≤ 1 ∧ (Pending t log → later.countP (isAnswer codec t) = 0)

variable {s : ServeState k} {log : List (Event (NetCall k) NetReply)}

theorem ServeSound.idle (h : ServeSound codec hw s log) : ServeSound codec hw s [] :=
  ⟨h.marks, fun _ _ hmem => absurd hmem List.not_mem_nil, h.wrote, fun t later earlier he hno =>
    ⟨(h.quiet t later earlier he hno).1, fun hp => absurd hp.1.choose_spec List.not_mem_nil⟩⟩

/-- A method changes the marks. -/
theorem ServeSound.record (h : ServeSound codec hw s log) {marks : Map String (List UInt8)}
    {x : Happening k} (hx : ∀ o, x ≠ .wrote o) (hmarks : ∀ t, marks.get t =
      if Happening.marks t (x :: s.history) then some hw else none) :
    ServeSound codec hw { s with marks, history := x :: s.history } log where
  marks := hmarks
  found t mac hmem := ⟨(h.found t mac hmem).1, List.mem_cons_of_mem _ (h.found t mac hmem).2⟩
  wrote later o earlier he := by
    rcases List.cons_eq_append_iff.mp he with ⟨rfl, he'⟩ | ⟨later', rfl, he'⟩
    · exact absurd (List.cons.inj he').1.symm (hx o)
    · exact h.wrote later' o earlier he'
  quiet t later earlier he hno := by
    rcases List.cons_eq_append_iff.mp he with ⟨rfl, -⟩ | ⟨later', rfl, he'⟩
    · exact ⟨Nat.zero_le _, fun _ => rfl⟩
    · obtain ⟨hone, hzero⟩ := h.quiet t later' earlier he' fun hmem =>
        hno (List.mem_cons_of_mem _ hmem)
      rw [List.countP_cons_of_neg]
      · exact ⟨hone, hzero⟩
      · cases x with
        | wrote o => exact absurd rfl (hx o)
        | _ => exact Bool.false_ne_true

theorem ServeSound.mark (h : ServeSound codec hw s log) (t : String) :
    ServeSound codec hw (s.mark hw t) log := by
  refine h.record (by rintro _ ⟨⟩) fun t' => ?_
  rw [Map.get_set, Happening.marks]
  by_cases ht : t' = t
  · rw [if_pos ht, if_pos ht.symm, if_pos rfl]
  · rw [if_neg ht, if_neg (Ne.symm ht)]
    exact h.marks t'

theorem ServeSound.unmark (h : ServeSound codec hw s log) (t : String) :
    ServeSound codec hw (s.unmark t) log := by
  refine h.record (by rintro _ ⟨⟩) fun t' => ?_
  rw [Map.get_delete, Happening.marks]
  by_cases ht : t' = t
  · rw [if_pos ht, if_pos ht.symm]
    rfl
  · rw [if_neg ht, if_neg (Ne.symm ht)]
    exact h.marks t'

/-- A call that neither finds a mark nor writes makes nothing pending. -/
theorem ServeSound.other (h : ServeSound codec hw s log) {ev : Event (NetCall k) NetReply}
    (hnew : ∀ t mac, ev ≠ ⟨.getMac t, some mac⟩) : ServeSound codec hw s (log ++ [ev]) := by
  have hold : ∀ {t mac}, ⟨.getMac t, some mac⟩ ∈ log ++ [ev] → ⟨.getMac t, some mac⟩ ∈ log := by
    intro t mac hmem
    rcases List.mem_append.mp hmem with hmem | hmem
    · exact hmem
    · exact absurd (List.mem_singleton.mp hmem).symm (hnew t mac)
  refine ⟨h.marks, fun t mac hmem => h.found t mac (hold hmem), h.wrote, ?_⟩
  intro t later earlier he hno
  refine ⟨(h.quiet t later earlier he hno).1, ?_⟩
  rintro ⟨⟨mac, hmem⟩, hw⟩
  refine (h.quiet t later earlier he hno).2 ⟨⟨mac, hold hmem⟩, ?_⟩
  rw [writes_append, List.append_eq_nil_iff] at hw
  exact hw.1

/-- A mark is looked up.  If it is there the address was not withdrawn, so no packet for it is
out of place. -/
theorem ServeSound.lookup (h : ServeSound codec hw s log) (t : String) :
    ServeSound codec hw s (log ++ [⟨.getMac t, s.marks.get t⟩]) := by
  have hcases : ∀ {t' mac}, ⟨.getMac t', some mac⟩ ∈ log ++ [⟨.getMac t, s.marks.get t⟩] →
      ⟨.getMac t', some mac⟩ ∈ log ∨ t' = t ∧ s.marks.get t = some mac := by
    intro t' mac hmem
    rcases List.mem_append.mp hmem with hmem | hmem
    · exact .inl hmem
    · obtain ⟨ht, hr⟩ := Event.mk.inj (List.mem_singleton.mp hmem)
      obtain rfl := NetCall.getMac.inj ht
      exact .inr ⟨rfl, (eq_of_heq hr).symm⟩
  refine ⟨h.marks, ?_, h.wrote, ?_⟩
  · intro t' mac hmem
    rcases hcases hmem with hmem | ⟨rfl, hget⟩
    · exact h.found t' mac hmem
    · rw [h.marks t'] at hget
      obtain ⟨hm, he⟩ := Option.ite_none_right_eq_some.mp hget
      exact ⟨(Option.some.inj he).symm, mem_of_marks hm⟩
  · intro t' later earlier he hno
    refine ⟨(h.quiet t' later earlier he hno).1, ?_⟩
    rintro ⟨⟨mac, hmem⟩, hw⟩
    rw [writes_append, List.append_eq_nil_iff] at hw
    rcases hcases hmem with hmem | ⟨rfl, hget⟩
    · exact (h.quiet t' later earlier he hno).2 ⟨⟨mac, hmem⟩, hw.1⟩
    · rw [h.marks t', he, marks_of_unmarked hno] at hget
      contradiction

/-- The packet of a pending request is written. -/
theorem ServeSound.write (h : ServeSound codec hw s log) {o : Outgoing k}
    {r : NetReply (.writeTo o)} {mac : List UInt8} (hfirst : writes log = [])
    (hfound : ⟨.getMac t, some mac⟩ ∈ log) (hbind : bindingOf codec o = some (t, hw)) :
    ServeSound codec hw { s with history := .wrote o :: s.history } (log ++ [⟨.writeTo o, r⟩]) := by
  have hold : ∀ {t mac}, ⟨.getMac t, some mac⟩ ∈ log ++ [⟨.writeTo o, r⟩] →
      ⟨.getMac t, some mac⟩ ∈ log := by
    intro t mac hmem
    rcases List.mem_append.mp hmem with hmem | hmem
    · exact hmem
    · exact absurd (Event.mk.inj (List.mem_singleton.mp hmem)).1 (by simp)
  refine ⟨h.marks, ?_, ?_, ?_⟩
  · intro t mac hmem
    obtain ⟨hmac, hmarked⟩ := h.found t mac (hold hmem)
    exact ⟨hmac, List.mem_cons_of_mem _ hmarked⟩
  · intro later o' earlier he
    rcases List.cons_eq_append_iff.mp he with ⟨rfl, he'⟩ | ⟨later', rfl, he'⟩
    · obtain ⟨ho, rfl⟩ := List.cons.inj he'
      obtain rfl := Happening.wrote.inj ho
      exact ⟨t, hbind, (h.found t mac hfound).2⟩
    · exact h.wrote later' o' earlier he'
  · intro t' later earlier he hno
    rcases List.cons_eq_append_iff.mp he with ⟨rfl, he'⟩ | ⟨later', rfl, he'⟩
    · cases he'
    · obtain ⟨hone, hzero⟩ := h.quiet t' later' earlier he' fun hmem => hno (List.mem_cons_of_mem _ hmem)
      constructor
      · rw [List.countP_cons]
        by_cases ht : t' = t
        · -- it was pending, so none was written before
          subst ht
          rw [hzero ⟨⟨mac, hfound⟩, hfirst⟩]
          split <;> omega
        · have hno : isAnswer codec t' (.wrote o) = false := by
            rw [isAnswer, hbind]
            simp [Ne.symm ht]
          rw [hno]
          exact hone
      · rintro ⟨-, hw⟩
        rw [writes_append, List.append_eq_nil_iff] at hw
        exact absurd hw.2 (by simp [writes])

/-- **One call of the goroutine.** -/
theorem ServeSound.call (h : ServeSound codec hw s log) (hcodec : codec.Faithful)
    (hhw : hw.length = 6) {c : NetCall k} {r : NetReply c} {s' : ServeState k}
    {κ : NetReply c → Prog (NetCall k) NetReply DropReason}
    (hleads : Leads (processRequest codec hw k) log (.call c κ)) (he : serveExec k hw c s r s') :
    ServeSound codec hw s' (log ++ [⟨c, r⟩]) := by
  cases c with
  | read =>
    obtain ⟨rfl, -⟩ := he
    exact h.other fun t mac heq => absurd (Event.mk.inj heq).1 (by simp)
  | writeTo o =>
    obtain rfl := he
    obtain ⟨hfirst, t, mac, hfound, hbind⟩ := leads_writeTo hcodec hhw hleads
    obtain ⟨rfl, -⟩ := h.found t mac hfound
    exact h.write hfirst hfound (hbind hhw)
  | getMac t =>
    obtain ⟨rfl, rfl⟩ := he
    exact h.lookup t
  | setMac t =>
    obtain rfl := he
    exact (h.mark t).other fun t mac heq => absurd (Event.mk.inj heq).1 (by simp)
  | updateRequestsReceived t =>
    obtain rfl := he
    exact h.other fun t mac heq => absurd (Event.mk.inj heq).1 (by simp)
  | updateResponsesSent t =>
    obtain rfl := he
    exact h.other fun t mac heq => absurd (Event.mk.inj heq).1 (by simp)

/-- The calls that the goroutine has made of the request it is at. -/
def callsMade (c : Conf Unit Unit (NetCall k) NetReply DropReason (ServeState k)) :
    List (Event (NetCall k) NetReply) :=
  ((c.task ()).map (·.log)).getD []

theorem callsMade_update (s : ServeState k)
    (task : Unit → Option (Task Unit (NetCall k) NetReply DropReason)) (i : Unit)
    (o : Option (Task Unit (NetCall k) NetReply DropReason)) :
    callsMade ⟨s, Function.update task i o⟩ = (o.map (·.log)).getD [] := by
  rw [callsMade]
  simp

/-- **The invariant of a whole run.** -/
theorem sound_of_reach (hcodec : codec.Faithful) (hhw : hw.length = 6)
    {c : Conf Unit Unit (NetCall k) NetReply DropReason (ServeState k)} (hc : ServeReach codec k hw c) :
    ServeSound codec hw c.state (callsMade c) := by
  induction hc with
  | init hs =>
    subst hs
    refine ⟨fun t => ?_, fun _ _ hmem => absurd hmem List.not_mem_nil, ?_, ?_⟩
    · exact Map.get_empty t
    · intro later o earlier he
      exact absurd he (by simp [ServeState.init])
    · intro t later earlier he
      exact absurd he (by simp [ServeState.init])
  | @step c d hc hs ih =>
    cases hs with
    | start i op s hi hst =>
      obtain ⟨rfl, -⟩ := hst
      rw [callsMade_update]
      exact ih.idle
    | call i op log x κ r s hi he =>
      have hleads := hc.leads hi
      rw [callsMade, hi] at ih
      rw [callsMade_update]
      exact ih.call hcodec hhw hleads he
    | done i op log a s hi hd =>
      obtain rfl := hd
      rw [callsMade_update]
      exact ⟨ih.idle.marks, ih.idle.found, ih.idle.wrote, ih.idle.quiet⟩
    | env s he =>
      cases he with
      | mark t => exact ih.mark t
      | unmark t => exact ih.unmark t
      | close _ => exact ⟨ih.marks, ih.found, ih.wrote, ih.quiet⟩
      | send _ => exact ⟨ih.marks, ih.found, ih.wrote, ih.quiet⟩
      | receive _ _ _ => exact ⟨ih.marks, ih.found, ih.wrote, ih.quiet⟩

/-- **Answers follow the marks.**  However the methods of an announcer on an Ethernet interface
interleave with its goroutine: every packet that answers a request says that an address is
at the interface which was marked before; and once the mark is deleted and as long as it is
not set again, at most one more packet is written for the address. -/
theorem answers_follow_marks (hcodec : codec.Faithful) (hhw : hw.length = 6)
    {c : Conf Unit Unit (NetCall k) NetReply DropReason (ServeState k)} (hc : ServeReach codec k hw c) :
    (∀ later o earlier, c.state.history = later ++ .wrote o :: earlier →
      ∃ t, bindingOf codec o = some (t, hw) ∧ .marked t ∈ earlier) ∧
    (∀ t later earlier, c.state.history = later ++ .unmarked t :: earlier → .marked t ∉ later →
      later.countP (isAnswer codec t) ≤ 1) := by
  have hsound := sound_of_reach hcodec hhw hc
  exact ⟨hsound.wrote, fun t later earlier he hno => (hsound.quiet t later earlier he hno).1⟩

/-- A neighbour asks for an address, its mark is found and then deleted, and the answer is
written: this is the one packet more. -/
theorem answers_follow_marks_late :
    ∃ (c : Conf Unit Unit (NetCall .ndp) NetReply DropReason (ServeState .ndp)) (t : String)
      (o : Outgoing .ndp), ServeReach plainCodec .ndp [2, 0, 0, 0, 0, 1] c ∧
      c.state.history = [.wrote o, .unmarked t, .marked t] ∧
      bindingOf plainCodec o = some (t, [2, 0, 0, 0, 0, 1]) ∧
      [Happening.wrote o].countP (isAnswer plainCodec t) ≤ 1 := by
  let hw : List UInt8 := [2, 0, 0, 0, 0, 1]
  let target : IP := [0x20, 0x01, 0x0d, 0xb8, 0, 0, 0, 0, 0, 0, 0, 0, 0, 0, 0, 1]
  let t := addrString target
  let asked : NetReply (k := .ndp) .read :=
    .ok (.neighborSolicitation target [.linkLayerAddress .source [2, 0, 0, 0, 0, 9]], [])
  let answer : Outgoing .ndp := (generateNDP false hw target, [])
  have h₀ : ServeReach plainCodec .ndp hw ⟨ServeState.init, fun _ => none⟩ := .init rfl
  have h₁ := h₀.step (.env _ (.mark _ t))
  have h₂ := h₁.step (.start () () _ rfl ⟨rfl, rfl, by decide⟩)
  have h₃ := h₂.step (.call () () _ NetCall.read _ asked _ rfl ⟨rfl, .inl rfl⟩)
  have h₄ := h₃.step (.call () () _ (NetCall.getMac t) _ (some hw) _ rfl
    ⟨(Map.get_set_self _ _ _).symm, rfl⟩)
  have h₅ := h₄.step (.env _ (.unmark _ t))
  have h₆ := h₅.step (.call () () _ (NetCall.updateRequestsReceived t) _ () _ rfl rfl)
  have h₇ := h₆.step (.call () () _ (NetCall.writeTo answer) _ (.ok ()) _ rfl rfl)
  refine ⟨_, t, answer, h₇, rfl, rfl, ?_⟩
  exact (answers_follow_marks faithful_plainCodec rfl h₇).2 t [_] [_] rfl (by simp)

end Marks

/-! ## `Stop` -/

section Stop
variable {codec : Arp.Codec} {k : AnnouncerKind} {hw : List UInt8}
  {c d e : Conf Unit Unit (NetCall k) NetReply DropReason (ServeState k)}

/-- A request takes at most five calls. -/
theorem processRequest_atMost (codec : Arp.Codec) (hw : List UInt8) (k : AnnouncerKind) :
    (processRequest codec hw k).AtMost 5 := by
  cases k with
  | arp =>
    intro r
    rcases r with (- | e) | pkt
    · trivial
    · trivial
    by_cases hop : Arp.Packet.operation pkt ≠ .request
    · simp only [if_pos hop]
      trivial
    simp only [if_neg hop]
    rintro (- | mac)
    · trivial
    intro _
    split
    · trivial
    · rintro (e | u)
      · trivial
      · exact fun _ => trivial
  | ndp =>
    intro r
    rcases r with (- | e) | ⟨(⟨targetAddress, options⟩ | -), nsSenderIP⟩
    · trivial
    · trivial
    · dsimp only
      split
      · trivial
      · rintro (- | mac)
        · trivial
        rintro _ (e | u)
        · trivial
        · exact fun _ => trivial
    · trivial

/-- A request ends the goroutine only at the end of the file. -/
theorem leads_closed {log : List (Event (NetCall k) NetReply)}
    (h : Leads (processRequest codec hw k) log (.ret .closed)) : log = [⟨.read, .error .eof⟩] := by
  cases k with
  | arp =>
    obtain ⟨r, l, rfl, h₁⟩ := Leads.of_ret h
    rcases r with (- | e) | pkt
    · obtain ⟨rfl, -⟩ := leads_ret_iff.mp h₁
      rfl
    · exact absurd (Prog.ret.inj (leads_ret_iff.mp h₁).2) (by decide)
    refine absurd rfl (Returns.of_leads (P := (· ≠ .closed)) ?_ h₁)
    by_cases hop : Arp.Packet.operation pkt ≠ .request
    · simp only [if_pos hop, Returns, ne_eq, reduceCtorEq, not_false_eq_true]
    simp only [if_neg hop]
    rintro (- | mac)
    · exact fun h => by contradiction
    intro _
    split
    · exact fun h => by contradiction
    · rintro (e | u)
      · exact fun h => by contradiction
      · exact fun _ h => by contradiction
  | ndp =>
    obtain ⟨r, l, rfl, h₁⟩ := Leads.of_ret h
    rcases r with (- | e) | ⟨(⟨targetAddress, options⟩ | -), nsSenderIP⟩
    · obtain ⟨rfl, -⟩ := leads_ret_iff.mp h₁
      rfl
    · exact absurd (Prog.ret.inj (leads_ret_iff.mp h₁).2) (by decide)
    · refine absurd rfl (Returns.of_leads (P := (· ≠ .closed)) ?_ h₁)
      dsimp only
      split
      · exact fun h => by contradiction
      · rintro (- | mac)
        · exact fun h => by contradiction
        rintro _ (e | u)
        · exact fun h => by contradiction
        · exact fun _ h => by contradiction
    · exact absurd (Prog.ret.inj (leads_ret_iff.mp h₁).2) (by decide)

/-- The calls of a request leave `Stop` and the goroutine's end alone. -/
theorem serveExec_same {x : NetCall k} {s s' : ServeState k} {r : NetReply x}
    (he : serveExec k hw x s r s') : s'.stop = s.stop ∧ s'.gone = s.gone := by
  cases x with
  | read =>
    obtain ⟨rfl, -⟩ := he
    exact ⟨rfl, rfl⟩
  | getMac t =>
    obtain ⟨-, rfl⟩ := he
    exact ⟨rfl, rfl⟩
  | writeTo o =>
    obtain rfl := he
    exact ⟨rfl, rfl⟩
  | setMac t =>
    obtain rfl := he
    exact ⟨rfl, rfl⟩
  | updateRequestsReceived t =>
    obtain rfl := he
    exact ⟨rfl, rfl⟩
  | updateResponsesSent t =>
    obtain rfl := he
    exact ⟨rfl, rfl⟩

/-- How many steps of the goroutine are left of a request, at most. -/
def stepsLeft (c : Conf Unit Unit (NetCall k) NetReply DropReason (ServeState k)) : Nat :=
  match c.task () with
  | none => 0
  | some task => 6 - task.log.length

/-- **One step while `Stop` waits**: its send is received, or it goes on waiting, and then the
goroutine comes closer to the end of its request if it moves. -/
theorem waiting_step (hc : ServeReach codec k hw c) (hs : (serving codec k hw).Step c d)
    (hstop : c.state.stop = .waiting) :
    (d.state.stop = .returned ∧ c.state.gone = false ∧ d.state.gone = true ∧ d.task = c.task) ∨
    (d.state.stop = .waiting ∧ (c.state.gone = true → d.state.gone = true) ∧
      (d.task = c.task ∨ stepsLeft d < stepsLeft c)) := by
  cases hs with
  | start i op s hi hst => exact absurd hstop hst.2.2
  | call i op log x κ r s hi he =>
    have hlog : log.length < 5 := (processRequest_atMost codec hw k).lt_of_leads (hc.leads hi)
    have hleft : stepsLeft ⟨s, Function.update c.task i (some ⟨op, log ++ [⟨x, r⟩], κ r⟩)⟩ < stepsLeft c := by
      simp only [stepsLeft, hi, Function.update_self, List.length_append, List.length_singleton]
      omega
    have hsame := serveExec_same he
    exact .inr ⟨hsame.1.trans hstop, fun hgone => hsame.2.trans hgone, .inr hleft⟩
  | done i op log a s hi hd =>
    obtain rfl := hd
    have hlog : log.length ≤ 5 := ((processRequest_atMost codec hw k).of_leads (hc.leads hi)).1
    have hleft : stepsLeft ⟨{ c.state with gone := c.state.gone || decide (a = .closed) },
        Function.update c.task i none⟩ < stepsLeft c := by
      simp only [stepsLeft, hi, Function.update_self]
      omega
    refine .inr ⟨hstop, fun hgone => ?_, .inr hleft⟩
    simp only [hgone, Bool.true_or]
  | env s he =>
    cases he with
    | mark t => exact .inr ⟨hstop, id, .inl rfl⟩
    | unmark t => exact .inr ⟨hstop, id, .inl rfl⟩
    | close hrun => exact absurd (hstop.symm.trans hrun) (by decide)
    | send hclosed => exact absurd (hstop.symm.trans hclosed) (by decide)
    | receive _ _ hgone => exact .inl ⟨rfl, hgone, rfl, rfl⟩

/-- A goroutine that has ended is not at a request. -/
theorem idle_of_gone (hc : ServeReach codec k hw c) (hgone : c.state.gone = true) : c.task () = none := by
  induction hc with
  | init _ => rfl
  | @step c d hc hs ih =>
    cases hs with
    | start i op s hi hst =>
      obtain ⟨rfl, hrun, -⟩ := hst
      rw [hrun] at hgone
      contradiction
    | call i op log x κ r s hi he =>
      -- a call does not end the goroutine, and it was at a request
      have hold : c.state.gone = true := (serveExec_same he).2.symm.trans hgone
      rw [ih hold] at hi
      contradiction
    | done i op log a s hi hd => exact Function.update_self () none c.task
    | env s he =>
      cases he with
      | mark t => exact ih hgone
      | unmark t => exact ih hgone
      | close _ => exact ih hgone
      | send _ => exact ih hgone
      | receive _ hidle _ =>
        rw [Option.isSome_eq_false_iff, Option.isNone_iff_eq_none] at hidle
        exact hidle

/-- A goroutine that has ended makes no step, and does not come back. -/
theorem gone_step (hc : ServeReach codec k hw c) (hs : (serving codec k hw).Step c d)
    (hgone : c.state.gone = true) :
    d.state.gone = true ∧ d.task = c.task ∧ (c.state.stop = .waiting → d.state.stop = .waiting) := by
  have hidle := idle_of_gone hc hgone
  cases hs with
  | start i op s hi hst =>
    rw [hst.2.1] at hgone
    contradiction
  | call i op log x κ r s hi he =>
    rw [hidle] at hi
    contradiction
  | done i op log a s hi hd =>
    rw [hidle] at hi
    contradiction
  | env s he =>
    cases he with
    | mark t => exact ⟨hgone, rfl, id⟩
    | unmark t => exact ⟨hgone, rfl, id⟩
    | close hrun => exact ⟨hgone, rfl, fun hwait => absurd (hwait.symm.trans hrun) (by decide)⟩
    | send hclosed => exact ⟨hgone, rfl, fun hwait => absurd (hwait.symm.trans hclosed) (by decide)⟩
    | receive _ _ hnot =>
      rw [hnot] at hgone
      contradiction

/-- The goroutine moves at most as often as its request has steps left. -/
theorem waiting_moves (hc : ServeReach codec k hw c) (hstop : c.state.stop = .waiting) {n : Nat}
    (hm : (serving codec k hw).Moves c n d) (hrun : d.state.gone = false) :
    d.state.stop = .waiting ∧ n + stepsLeft d ≤ stepsLeft c := by
  -- before the last step the goroutine had not ended either
  have hback : ∀ {d e : Conf Unit Unit (NetCall k) NetReply DropReason (ServeState k)},
      ServeReach codec k hw d → (serving codec k hw).Step d e → e.state.gone = false → d.state.gone = false := by
    intro d e hd hs he
    by_contra hgone
    rw [Bool.not_eq_false] at hgone
    rw [(gone_step hd hs hgone).1] at he
    contradiction
  induction hm with
  | refl => exact ⟨hstop, by omega⟩
  | @env n d e hm hs htask ih =>
    have hd := hm.reach hc
    obtain ⟨hwait, hle⟩ := ih (hback hd hs hrun)
    have hsame : stepsLeft e = stepsLeft d := by rw [stepsLeft, stepsLeft, htask]
    rcases waiting_step hd hs hwait with ⟨-, -, hgone, -⟩ | ⟨hwait', -, -⟩
    · rw [hgone] at hrun
      contradiction
    · exact ⟨hwait', by omega⟩
  | @thread n d e hm hs htask ih =>
    have hd := hm.reach hc
    obtain ⟨hwait, hle⟩ := ih (hback hd hs hrun)
    rcases waiting_step hd hs hwait with ⟨-, -, hgone, -⟩ | ⟨hwait', -, hsame | hless⟩
    · rw [hgone] at hrun
      contradiction
    · exact absurd hsame htask
    · exact ⟨hwait', by omega⟩

/-- A goroutine that has not ended can move, or take the send. -/
theorem exists_step (hstop : c.state.stop = .waiting) (hrun : c.state.gone = false) :
    ∃ d, (serving codec k hw).Step c d ∧ (d.state.stop = .returned ∨ d.task ≠ c.task) := by
  rcases htask : c.task () with - | ⟨op, log, _ | ⟨x, κ⟩⟩
  · refine ⟨_, .env _ (.receive _ hstop ?_ hrun), .inl rfl⟩
    rw [htask]
    rfl
  · rename_i reason
    refine ⟨_, .done () op log reason _ htask rfl, .inr fun hsame => ?_⟩
    have hnone : Function.update c.task () none () = c.task () := congrFun hsame ()
    rw [Function.update_self, htask] at hnone
    contradiction
  · obtain ⟨r, s, he⟩ : ∃ r s, serveExec k hw x c.state r s := by
      cases x with
      | read => exact ⟨.error .eof, _, rfl, .inr ⟨_, rfl⟩⟩
      | writeTo o => exact ⟨.ok (), _, rfl⟩
      | getMac t => exact ⟨_, _, rfl, rfl⟩
      | setMac t => exact ⟨(), _, rfl⟩
      | updateRequestsReceived t => exact ⟨(), _, rfl⟩
      | updateResponsesSent t => exact ⟨(), _, rfl⟩
    refine ⟨_, .call () op log x κ r s htask he, .inr fun hsame => ?_⟩
    have hlog : Function.update c.task () (some ⟨op, log ++ [⟨x, r⟩], κ r⟩) () = c.task () :=
      congrFun hsame ()
    rw [Function.update_self, htask] at hlog
    have hlen := congrArg (fun t => t.log.length) (Option.some.inj hlog)
    simp at hlen

/-- **`Stop` returns unless the goroutine has ended.**  However the methods of an announcer
interleave with its goroutine:

* A goroutine that has ended makes no step any more, and a call of `Stop` that waits then
  waits for ever.
* While `Stop` waits and the goroutine has not ended, it makes at most six steps, and there
  is always a step: the next one of its request, or the one that lets `Stop` return.
* It ends when `Stop` returns, or else when a read came to the end of the file. -/
theorem stop_returns_unless_ended (hc : ServeReach codec k hw c) :
    (c.state.gone = true → ∀ n d, (serving codec k hw).Moves c n d →
      n = 0 ∧ (c.state.stop = .waiting → d.state.stop = .waiting)) ∧
    (c.state.stop = .waiting → ∀ n d, (serving codec k hw).Moves c n d → d.state.gone = false →
      n ≤ 6 ∧ ∃ e, (serving codec k hw).Step d e ∧ (e.state.stop = .returned ∨ e.task ≠ d.task)) ∧
    (∀ d, (serving codec k hw).Step c d → c.state.gone = false → d.state.gone = true →
      d.state.stop = .returned ∨
        ∃ op, c.task () = some ⟨op, [⟨.read, .error .eof⟩], .ret .closed⟩) := by
  refine ⟨?_, ?_, ?_⟩
  · intro hgone n d hm
    have hall : d.state.gone = true ∧ n = 0 ∧ (c.state.stop = .waiting → d.state.stop = .waiting) := by
      induction hm with
      | refl => exact ⟨hgone, rfl, id⟩
      | env hm hs _ ih =>
        obtain ⟨hg, hn, hw⟩ := ih
        obtain ⟨hg', -, hw'⟩ := gone_step (hm.reach hc) hs hg
        exact ⟨hg', hn, fun h => hw' (hw h)⟩
      | thread hm hs htask ih => exact absurd (gone_step (hm.reach hc) hs ih.1).2.1 htask
    exact hall.2
  · intro hstop n d hm hrun
    obtain ⟨hwait, hle⟩ := waiting_moves hc hstop hm hrun
    have hsix : stepsLeft c ≤ 6 := by
      rw [stepsLeft]
      split <;> omega
    exact ⟨by omega, exists_step hwait hrun⟩
  · intro d hs hrun hgone
    cases hs with
    | start i op s hi hst =>
      obtain ⟨rfl, -⟩ := hst
      rw [hrun] at hgone
      contradiction
    | call i op log x κ r s hi he =>
      rw [(serveExec_same he).2, hrun] at hgone
      contradiction
    | done i op log a s hi hd =>
      obtain rfl := hd
      rw [hrun, Bool.false_or, decide_eq_true_iff] at hgone
      subst hgone
      exact .inr ⟨op, by rw [← leads_closed (hc.leads hi)]; exact hi⟩
    | env s he =>
      cases he with
      | mark t => rw [ServeState.mark, hrun] at hgone; contradiction
      | unmark t => rw [ServeState.unmark, hrun] at hgone; contradiction
      | close _ => rw [hrun] at hgone; contradiction
      | send _ => rw [hrun] at hgone; contradiction
      | receive _ _ _ => exact .inl rfl

/-- A read comes to the end of the file, and then `Stop` is called: it waits for ever. -/
theorem stop_returns_unless_ended_blocked :
    ∃ c, ServeReach plainCodec .arp [] c ∧ c.state.stop = .waiting ∧
      ∀ n d, (serving plainCodec .arp []).Moves c n d → d.state.stop = .waiting := by
  have h₀ : ServeReach plainCodec .arp [] ⟨ServeState.init, fun _ => none⟩ := .init rfl
  have h₁ := h₀.step (.start () () _ rfl ⟨rfl, rfl, by decide⟩)
  have h₂ := h₁.step (.call () () _ NetCall.read _ (.error .eof) _ rfl ⟨rfl, .inl rfl⟩)
  have h₃ := h₂.step (.done () () _ .closed _ rfl rfl)
  have h₄ := h₃.step (.env _ (.close _ rfl))
  have h₅ := h₄.step (.env _ (.send _ rfl))
  exact ⟨_, h₅, rfl, fun n d hm => ((stop_returns_unless_ended h₅).1 rfl n d hm).2 rfl⟩

end Stop

end OpenELB
