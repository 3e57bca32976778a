import OpenELB.ProgSteps
import OpenELB.SingleAnnouncer

/-! # Answering requests for announced addresses

An announcer has a goroutine that reads the requests of its interface, one after the
other, and answers those for the addresses it has marked: `processRequest` of
`arp_announcer.go` and `ndp_announcer.go`.  `AddAnnouncedIP` sends packets nobody asked
for (`gratuitous`).  Here are the programs of both, with each access to the map of marks and
to the network as a call.

ARP packets and Ethernet frames are made and written by packages that are no part of the
repository.  They are a parameter (`Arp.Codec`), and so is what a receiver makes of a frame; what
is assumed of them, on Ethernet, is `Arp.Codec.Faithful`.

What a host on the network does with a packet is to read it and to remember the hardware
address it names for an address (`bindingOf`).  An ARP request is answered exactly if it
asks for a marked address and can be answered at all, and what the answer says is that the
address is at the interface (`arp_answer_exact`). -/
namespace OpenELB
open Go Prog

/-- `dropReason`: why a packet was not responded to. -/
inductive DropReason where
  | none
  | closed
  | error
  | arpReply
  | unknowTargetIP
  | leader
  | notNeighborSolicitation
  | notSourceDirection
  deriving DecidableEq

/-! ## Packets -/

/-- `arp.Operation`. -/
inductive Arp.Operation where
  | request
  | reply
  | other
  deriving DecidableEq

/-- The fields of `arp.Packet` that the announcer gives or reads. -/
structure Arp.Packet where
  operation : Arp.Operation
  senderHardwareAddr : List UInt8
  senderIP : IP
  targetHardwareAddr : List UInt8
  targetIP : IP
  deriving DecidableEq

/-- The fields of `ethernet.Frame` that the announcer gives; the type is always ARP. -/
structure Arp.Frame where
  destination : List UInt8
  source : List UInt8
  payload : List UInt8

/-- What the announcer uses of the packages `arp` and `ethernet`, and what a receiver reads from
the bytes of a frame: the packet, and the frame's destination and source. -/
structure Arp.Codec where
  broadcast : List UInt8
  newPacket : Arp.Operation → List UInt8 → IP → List UInt8 → IP → Except String Arp.Packet
  marshalPacket : Arp.Packet → Except String (List UInt8)
  marshalFrame : Arp.Frame → Except String (List UInt8)
  receive : List UInt8 → Option (Arp.Packet × List UInt8 × List UInt8)

/-- `generateArp`. -/
def generateArp (codec : Arp.Codec) (intfHW : List UInt8) (op : Arp.Operation) (srcHW : List UInt8)
    (srcIP : IP) (dstHW : List UInt8) (dstIP : IP) : Except String (List UInt8) := do
  let pkt ← codec.newPacket op srcHW srcIP dstHW dstIP
  let pb ← codec.marshalPacket pkt
  codec.marshalFrame { destination := dstHW, source := intfHW, payload := pb }

/-- What is assumed of the packages for an interface with an Ethernet address: a packet is only
made for another one and for IPv4 addresses, and then it arrives as it was made. -/
structure Arp.Codec.Faithful (codec : Arp.Codec) : Prop where
  broadcast : codec.broadcast.length = 6
  refuses : ∀ {op srcHW srcIP dstHW dstIP pkt}, srcHW.length = 6 →
    codec.newPacket op srcHW srcIP dstHW dstIP = .ok pkt →
    dstHW.length = 6 ∧ (to4 srcIP).isSome ∧ (to4 dstIP).isSome
  delivers : ∀ {hw srcHW dstHW : List UInt8} {srcIP dstIP src dst : IP} (op : Arp.Operation),
    hw.length = 6 → srcHW.length = 6 → dstHW.length = 6 → to4 srcIP = some src →
    to4 dstIP = some dst → ∃ fb, generateArp codec hw op srcHW srcIP dstHW dstIP = .ok fb ∧
      codec.receive fb = some (⟨op, srcHW, src, dstHW, dst⟩, dstHW, hw)

/-- `ndp.Direction`. -/
inductive Direction where
  | source
  | target
  deriving DecidableEq

/-- `ndp.Option`: only link-layer addresses are looked at. -/
inductive NdpOption where
  | linkLayerAddress (direction : Direction) (addr : List UInt8)
  | other
  deriving DecidableEq

/-- `ndp.NeighborAdvertisement`. -/
structure NeighborAdvertisement where
  router : Bool
  solicited : Bool
  override : Bool
  targetAddress : IP
  options : List NdpOption
  deriving DecidableEq

/-- `ndp.Message`. -/
inductive NdpMessage where
  | neighborSolicitation (targetAddress : IP) (options : List NdpOption)
  | other

/-- `generateNDP`. -/
def generateNDP (gratuitous : Bool) (srcHW : List UInt8) (srcIP : IP) : NeighborAdvertisement where
  router := false
  solicited := !gratuitous
  override := gratuitous
  targetAddress := srcIP
  options := [.linkLayerAddress .target srcHW]

/-- `Addr.String` of `netip`, of sixteen bytes: an IPv4 address in them shows as one. -/
def addrString (addr : IP) : String :=
  match to4 addr with
  | some p => "::ffff:" ++ ipString p
  | none => ipString addr

/-- What the goroutine reads: an ARP packet, or an NDP message and its sender. -/
def Incoming : AnnouncerKind → Type
  | .arp => Arp.Packet
  | .ndp => NdpMessage × IP

/-- What is written, and to whom. -/
def Outgoing : AnnouncerKind → Type
  | .arp => List UInt8 × List UInt8
  | .ndp => NeighborAdvertisement × IP

/-- The address of the first link-layer option with a direction. -/
def linkLayerAddr (direction : Direction) (options : List NdpOption) : Option (List UInt8) :=
  options.findSome? fun
    | .linkLayerAddress d addr => if d = direction then some addr else none
    | .other => none

/-- What a host learns from a packet: the text of an address, and where it is. -/
def bindingOf (codec : Arp.Codec) : {k : AnnouncerKind} → Outgoing k → Option (String × List UInt8)
  | .arp, o => (codec.receive o.1).map fun p => (ipString p.1.senderIP, p.1.senderHardwareAddr)
  | .ndp, o => (linkLayerAddr .target o.1.options).map fun hw => (addrString o.1.targetAddress, hw)

/-! ## Programs -/

/-- An error of a read. -/
inductive ReadErr where
  | eof
  | other (e : String)
  deriving DecidableEq

/-- What the code of an announcer calls: its socket, its map of marks, the metrics. -/
inductive NetCall (k : AnnouncerKind) where
  | read
  | writeTo (o : Outgoing k)
  | getMac (ip : String)
  | setMac (ip : String)
  | updateRequestsReceived (ip : String)
  | updateResponsesSent (ip : String)

/-- What it is answered. -/
def NetReply {k : AnnouncerKind} : NetCall k → Type
  | .read => Except ReadErr (Incoming k)
  | .writeTo _ => Except String Unit
  | .getMac _ => Option (List UInt8)
  | .setMac _ | .updateRequestsReceived _ | .updateResponsesSent _ => Unit

/-- `processRequest` of `arpAnnouncer`, on an interface with this hardware address. -/
def arpProcessRequest (codec : Arp.Codec) (hw : List UInt8) :
    Prog (NetCall .arp) NetReply DropReason :=
  .call .read fun
    | .error .eof => .ret .closed
    | .error (.other _) => .ret .error
    | .ok pkt =>
      let pkt : Arp.Packet := pkt
      if pkt.operation ≠ .request then .ret .arpReply
      else .call (.getMac (ipString pkt.targetIP)) fun
        | none => .ret .unknowTargetIP
        | some hwAddr => .call (.updateRequestsReceived (ipString pkt.targetIP)) fun _ =>
          match generateArp codec hw .reply hwAddr pkt.targetIP pkt.senderHardwareAddr pkt.senderIP with
          | .error _ => .ret .error
          | .ok fb => .call (.writeTo (fb, pkt.senderHardwareAddr)) fun
            | .error _ => .ret .error
            | .ok () => .call (.updateResponsesSent (ipString pkt.targetIP)) fun _ => .ret .none

/-- `processRequest` of `ndpAnnouncer`. -/
def ndpProcessRequest : Prog (NetCall .ndp) NetReply DropReason :=
  .call .read fun
    | .error .eof => .ret .closed
    | .error (.other _) => .ret .error
    | .ok (.other, _) => .ret .notNeighborSolicitation
    | .ok (.neighborSolicitation targetAddress options, nsSenderIP) =>
      match linkLayerAddr .source options with
      | none => .ret .notSourceDirection
      | some _ => .call (.getMac (addrString targetAddress)) fun
        | none => .ret .unknowTargetIP
        | some hwAddr => .call (.updateRequestsReceived (addrString targetAddress)) fun _ =>
          .call (.writeTo (generateNDP false hwAddr targetAddress, nsSenderIP)) fun
            | .error _ => .ret .error
            | .ok () => .call (.updateResponsesSent (addrString targetAddress)) fun _ => .ret .none

/-- `processRequest`. -/
def processRequest (codec : Arp.Codec) (hw : List UInt8) :
    (k : AnnouncerKind) → Prog (NetCall k) NetReply DropReason
  | .arp => arpProcessRequest codec hw
  | .ndp => ndpProcessRequest

/-- The body of the loop of `gratuitous`: one packet to everybody. -/
def gratuitousPacket (codec : Arp.Codec) (hw : List UInt8) (ip : IP) (op : Arp.Operation) :
    ExceptT String (Prog (NetCall .arp) NetReply) Unit := do
  let fb ← must (generateArp codec hw op hw ip codec.broadcast ip)
  let r : Except String Unit ← ask (NetCall.writeTo (k := .arp) (fb, codec.broadcast))
  must r

/-- `gratuitous` of `arpAnnouncer`: one packet with each operation. -/
def gratuitous (codec : Arp.Codec) (hw : List UInt8) (ip : IP) :
    ExceptT String (Prog (NetCall .arp) NetReply) Unit := do
  let mac : Option (List UInt8) ← ask (NetCall.getMac (ipString ip))
  if mac.isSome then pure ()
  else
    let _ ← ask (NetCall.setMac (ipString ip))
    [Arp.Operation.request, .reply].forM (gratuitousPacket codec hw ip)

/-! ## What is sent -/

/-- The IPv4 form of an address has the text of the address. -/
theorem ipString_to4 {ip p : IP} (h : to4 ip = some p) : ipString p = ipString ip := by
  rw [ipString, ipString, h, to4_of_length_four (to4_length h)]

/-- `generateArp` on an Ethernet interface: an error, or a frame that is received as the packet
it was made for. -/
theorem generateArp_eq_ok {codec : Arp.Codec} (hcodec : codec.Faithful)
    {hw srcHW dstHW : List UInt8} {op : Arp.Operation} {srcIP dstIP : IP} {fb : List UInt8}
    (hhw : hw.length = 6) (hsrc : srcHW.length = 6)
    (h : generateArp codec hw op srcHW srcIP dstHW dstIP = .ok fb) :
    ∃ src dst, to4 srcIP = some src ∧ to4 dstIP = some dst ∧ dstHW.length = 6 ∧
      codec.receive fb = some (⟨op, srcHW, src, dstHW, dst⟩, dstHW, hw) := by
  obtain ⟨pkt, hpkt⟩ : ∃ pkt, codec.newPacket op srcHW srcIP dstHW dstIP = .ok pkt := by
    rw [generateArp] at h
    rcases hp : codec.newPacket op srcHW srcIP dstHW dstIP with e | pkt
    · rw [hp] at h
      contradiction
    · exact ⟨pkt, rfl⟩
  obtain ⟨hdst, hs, hd⟩ := hcodec.refuses hsrc hpkt
  obtain ⟨src, hs⟩ := Option.isSome_iff_exists.mp hs
  obtain ⟨dst, hd⟩ := Option.isSome_iff_exists.mp hd
  obtain ⟨fb', hfb, hreceive⟩ := hcodec.delivers op hhw hsrc hdst hs hd
  obtain rfl := Except.ok.inj (h.symm.trans hfb)
  exact ⟨src, dst, hs, hd, hdst, hreceive⟩

/-! ## The marks -/

/-- A call of an announcer's methods. -/
inductive ApiCall where
  | addAnnouncedIP (wire : Wire) (ip : IP)
  | delAnnouncedIP (wire : Wire) (ip : IP)
  | registerIPRange (name : String) (r : IpRange.Range)
  | unregisterIPRange (order : List String) (name : String)

/-- The announcer after a call. -/
def ApiCall.step (a : Announcer) : ApiCall → Announcer
  | .addAnnouncedIP wire ip => (a.addAnnouncedIP wire ip).2
  | .delAnnouncedIP wire ip => (a.delAnnouncedIP wire ip).2
  | .registerIPRange name r => a.registerIPRange name r
  | .unregisterIPRange order name => a.unregisterIPRange order name

/-- One write to the map of marks, on an interface with this hardware address. -/
inductive MarkStep (hw : List UInt8) : Map String (List UInt8) → Map String (List UInt8) → Prop
  | set (m : Map String (List UInt8)) (t : String) : MarkStep hw m (m.set t hw)
  | delete (m : Map String (List UInt8)) (t : String) : MarkStep hw m (m.delete t)

/-- A loop that deletes some of the marks it visits deletes one after the other. -/
theorem markSteps_visit {hw : List UInt8} {f : String → List UInt8 → Option (List UInt8)}
    (hf : ∀ t mac, f t mac = none ∨ f t mac = some mac) (order : List String)
    (m : Map String (List UInt8)) :
    Relation.ReflTransGen (MarkStep hw) m (order.foldl (Map.visit f) m) := by
  induction order generalizing m with
  | nil => exact .refl
  | cons t rest ih =>
    have hone : Relation.ReflTransGen (MarkStep hw) m (m.visit f t) := by
      rw [Map.visit]
      rcases hget : m.get t with - | mac
      · exact .refl
      · rcases hf t mac with he | he <;> simp only [he]
        · exact .single (.delete m t)
        · rw [Map.set_of_get hget]
    exact hone.trans (ih _)

/-- **Whatever a method does to the marks, it does by single writes**, each of which gives an
address the hardware address of the interface or deletes it. -/
theorem ApiCall.step_marks (a : Announcer) (c : ApiCall) :
    Relation.ReflTransGen (MarkStep a.hardwareAddr) a.ip2mac (step a c).ip2mac ∧
      (step a c).hardwareAddr = a.hardwareAddr ∧ (step a c).kind = a.kind := by
  cases c with
  | addAnnouncedIP wire ip =>
    by_cases h : a.Reaches wire ip
    · rw [step, (Announcer.addAnnouncedIP_of_reaches h).1]
      exact ⟨.single (.set _ _), rfl, rfl⟩
    · rw [step, (Announcer.addAnnouncedIP_of_not_reaches h).1]
      exact ⟨.refl, rfl, rfl⟩
  | delAnnouncedIP wire ip =>
    rcases Announcer.delAnnouncedIP_cases a wire ip with he | he <;> rw [step, he]
    · exact ⟨.refl, rfl, rfl⟩
    · exact ⟨.single (.delete _ _), rfl, rfl⟩
  | registerIPRange name r => exact ⟨.refl, rfl, rfl⟩
  | unregisterIPRange order name =>
    rw [step, Announcer.unregisterIPRange]
    rcases a.ipranges.get name with - | r
    · exact ⟨.refl, rfl, rfl⟩
    · refine ⟨markSteps_visit (fun t mac => ?_) order _, rfl, rfl⟩
      by_cases hc : r.contains ((parseIP t).getD []) = true
      · exact .inl (if_pos hc)
      · exact .inr (if_neg hc)

/-- Every mark is the hardware address of the interface. -/
def MarksAre (hw : List UInt8) (m : Map String (List UInt8)) : Prop :=
  ∀ t mac, m.get t = some mac → mac = hw

theorem MarkStep.marksAre {hw : List UInt8} {m m' : Map String (List UInt8)} (h : MarkStep hw m m')
    (hm : MarksAre hw m) : MarksAre hw m' := by
  cases h with
  | set t => exact Map.forall_get_set rfl fun t' mac _ => hm t' mac
  | delete t => exact Map.forall_get_delete fun t' mac _ => hm t' mac

theorem marksAre_of_steps {hw : List UInt8} {m m' : Map String (List UInt8)}
    (h : Relation.ReflTransGen (MarkStep hw) m m') (hm : MarksAre hw m) : MarksAre hw m' := by
  induction h with
  | refl => exact hm
  | tail _ hstep ih => exact hstep.marksAre ih

/-- The marks after any calls of the methods of a new announcer. -/
theorem marksAre_of_calls {wire : Wire} {netif : Interface} {family : IpRange.Family} {a : Announcer}
    (hnew : newAnnouncer wire netif family = .ok a) (calls : List ApiCall) :
    MarksAre netif.hardwareAddr (calls.foldl ApiCall.step a).ip2mac ∧
      (calls.foldl ApiCall.step a).hardwareAddr = netif.hardwareAddr := by
  obtain ⟨hmarks, hhw⟩ : MarksAre netif.hardwareAddr a.ip2mac ∧
      a.hardwareAddr = netif.hardwareAddr := by
    rw [newAnnouncer] at hnew
    rcases hl : wire.listen with e | u <;> rw [hl] at hnew
    · contradiction
    · obtain rfl := Except.ok.inj hnew
      exact ⟨fun t mac h => by simp at h, rfl⟩
  clear hnew
  induction calls generalizing a with
  | nil => exact ⟨hmarks, hhw⟩
  | cons c rest ih =>
    obtain ⟨hsteps, hhw', -⟩ := ApiCall.step_marks a c
    rw [hhw] at hsteps hhw'
    exact ih (marksAre_of_steps hsteps hmarks) hhw'

/-! ## One request -/

/-- The map of marks answers as it is, and the network as it may. -/
def NetAnswers {k : AnnouncerKind} (marks : Map String (List UInt8)) : (c : NetCall k) → NetReply c → Prop
  | .getMac t, mac => mac = marks.get t
  | .read, _ | .writeTo _, _ | .setMac _, _ | .updateRequestsReceived _, _ |
    .updateResponsesSent _, _ => True

/-- The packets that are written, in order. -/
def writes {k : AnnouncerKind} (l : List (Event (NetCall k) NetReply)) : List (Outgoing k) :=
  l.filterMap fun ev => match ev.call with
    | .writeTo o => some o
    | .read | .getMac _ | .setMac _ | .updateRequestsReceived _ | .updateResponsesSent _ => none

/-- The packet is a request for an announced address, and both its parties can be named
in an ARP packet over Ethernet: `src` is the address it asks for and `dst` who asks. -/
structure Answerable (a : Announcer) (pkt : Arp.Packet) (src dst : IP) : Prop where
  request : pkt.operation = .request
  announced : a.Announced (ipString pkt.targetIP)
  target : to4 pkt.targetIP = some src
  sender : to4 pkt.senderIP = some dst
  senderHW : pkt.senderHardwareAddr.length = 6

/-- What is written for a packet, when its target has this mark. -/
def arpReplies (codec : Arp.Codec) (hw : List UInt8) (mac : Option (List UInt8)) (pkt : Arp.Packet) :
    List (Outgoing .arp) :=
  if pkt.operation ≠ .request then []
  else
    match mac with
    | none => []
    | some hwAddr =>
      match generateArp codec hw .reply hwAddr pkt.targetIP pkt.senderHardwareAddr pkt.senderIP with
      | .error _ => []
      | .ok fb => [(fb, pkt.senderHardwareAddr)]

/-- The calls after a packet was read. -/
theorem writes_arpProcessRequest {codec : Arp.Codec} {hw : List UInt8}
    {marks : Map String (List UInt8)} {pkt : Arp.Packet}
    {l : List (Event (NetCall .arp) NetReply)} {reason : DropReason}
    (ht : Trace (NetAnswers marks) (arpProcessRequest codec hw) (⟨.read, .ok pkt⟩ :: l) reason) :
    writes l = arpReplies codec hw (marks.get (ipString pkt.targetIP)) pkt := by
  obtain ⟨r, _, l₁, -, ht, he⟩ := run_call_iff.mp ht
  obtain ⟨hev, rfl⟩ := List.cons.inj he
  obtain rfl : Except.ok pkt = r := eq_of_heq (Event.mk.inj hev).2
  unfold arpReplies
  by_cases hop : pkt.operation ≠ .request
  · simp only [if_pos hop] at ht ⊢
    obtain ⟨rfl, -, -⟩ := run_ret_iff.mp ht
    rfl
  simp only [if_neg hop] at ht ⊢
  obtain ⟨mac, _, l₂, hmac, h₂, rfl⟩ := run_call_iff.mp ht
  obtain rfl : mac = marks.get (ipString pkt.targetIP) := hmac
  rcases hget : marks.get (ipString pkt.targetIP) with - | hwAddr <;> simp only [hget] at h₂ ⊢
  · obtain ⟨rfl, -, -⟩ := run_ret_iff.mp h₂
    rfl
  obtain ⟨_, _, l₃, -, h₃, rfl⟩ := run_call_iff.mp h₂
  rcases hgen : generateArp codec hw .reply hwAddr pkt.targetIP pkt.senderHardwareAddr
      pkt.senderIP with e | fb <;> simp only [hgen] at h₃ ⊢
  · obtain ⟨rfl, -, -⟩ := run_ret_iff.mp h₃
    rfl
  obtain ⟨r, _, l₄, -, h₄, rfl⟩ := run_call_iff.mp h₃
  rcases r with e | u
  · obtain ⟨rfl, -, -⟩ := run_ret_iff.mp h₄
    rfl
  · obtain ⟨_, _, l₅, -, h₅, rfl⟩ := run_call_iff.mp h₄
    obtain ⟨rfl, -, -⟩ := run_ret_iff.mp h₅
    rfl

/-- **An ARP request is answered exactly if it asks for an announced address.**  On an
Ethernet interface, after any calls of the announcer's methods: for a packet that is a
request for an announced IPv4 address, from a host with an IPv4 and an Ethernet address, one
frame is written, to the sender of the request, which is received there as the reply that the
address is at the interface; for any other packet none is written. -/
theorem arp_answer_exact {codec : Arp.Codec} (hcodec : codec.Faithful) {wire : Wire}
    {netif : Interface} {family : IpRange.Family} {a : Announcer}
    (hnew : newAnnouncer wire netif family = .ok a) (hhw : netif.hardwareAddr.length = 6)
    (calls : List ApiCall) {pkt : Arp.Packet} {l : List (Event (NetCall .arp) NetReply)}
    {reason : DropReason}
    (ht : Trace (NetAnswers (calls.foldl ApiCall.step a).ip2mac)
      (arpProcessRequest codec netif.hardwareAddr) (⟨.read, .ok pkt⟩ :: l) reason) :
    (∀ src dst, Answerable (calls.foldl ApiCall.step a) pkt src dst →
      ∃ fb, writes l = [(fb, pkt.senderHardwareAddr)] ∧ codec.receive fb =
        some (⟨.reply, netif.hardwareAddr, src, pkt.senderHardwareAddr, dst⟩,
          pkt.senderHardwareAddr, netif.hardwareAddr)) ∧
    ((∀ src dst, ¬ Answerable (calls.foldl ApiCall.step a) pkt src dst) → writes l = []) := by
  obtain ⟨hmarks, -⟩ := marksAre_of_calls hnew calls
  generalize calls.foldl ApiCall.step a = a at ht hmarks ⊢
  have hwrites := writes_arpProcessRequest ht
  unfold arpReplies at hwrites
  constructor
  · rintro src dst ⟨hop, hann, htarget, hsender, hsenderHW⟩
    obtain ⟨mac, hmac⟩ := Option.isSome_iff_exists.mp hann
    obtain rfl := hmarks _ _ hmac
    obtain ⟨fb, hfb, hreceive⟩ := hcodec.delivers .reply hhw hhw hsenderHW htarget hsender
    rw [if_neg (not_not.mpr hop), hmac] at hwrites
    simp only [hfb] at hwrites
    exact ⟨fb, hwrites, hreceive⟩
  · intro hnot
    by_cases hop : pkt.operation ≠ .request
    · rw [if_pos hop] at hwrites
      exact hwrites
    rw [if_neg hop] at hwrites
    rcases hmac : a.ip2mac.get (ipString pkt.targetIP) with - | mac <;> rw [hmac] at hwrites
    · exact hwrites
    obtain rfl := hmarks _ _ hmac
    -- a frame that is generated has both addresses, and then the packet is answerable
    rcases hgen : generateArp codec netif.hardwareAddr .reply netif.hardwareAddr pkt.targetIP
        pkt.senderHardwareAddr pkt.senderIP with e | fb <;> simp only [hgen] at hwrites
    · exact hwrites
    · obtain ⟨src, dst, hs, hd, hlen, -⟩ := generateArp_eq_ok hcodec hhw hhw hgen
      refine absurd ⟨not_not.mp hop, ?_, hs, hd, hlen⟩ (hnot src dst)
      rw [Announcer.Announced, hmac]
      rfl

theorem exists_answer {k : AnnouncerKind} (marks : Map String (List UInt8)) (c : NetCall k) :
    ∃ r, NetAnswers marks c r := by
  cases c with
  | read => exact ⟨.error .eof, trivial⟩
  | writeTo o => exact ⟨.ok (), trivial⟩
  | getMac t => exact ⟨marks.get t, rfl⟩
  | setMac t => exact ⟨(), trivial⟩
  | updateRequestsReceived t => exact ⟨(), trivial⟩
  | updateResponsesSent t => exact ⟨(), trivial⟩

/-- A codec that writes the fields one after the other. -/
def plainCodec : Arp.Codec where
  broadcast := List.replicate 6 0xff
  newPacket op srcHW srcIP dstHW dstIP :=
    match to4 srcIP, to4 dstIP with
    | some src, some dst =>
      if srcHW.length = 6 ∧ dstHW.length = 6 then .ok ⟨op, srcHW, src, dstHW, dst⟩
      else .error "invalid hardware address"
    | _, _ => .error "invalid IPv4 address"
  marshalPacket p :=
    .ok ((match p.operation with | .request => 1 | .reply => 2 | .other => 0) ::
      (p.senderHardwareAddr ++ p.senderIP ++ p.targetHardwareAddr ++ p.targetIP))
  marshalFrame f := .ok (f.destination ++ f.source ++ f.payload)
  receive bs :=
    some (⟨if bs.getD 12 0 = 1 then .request else if bs.getD 12 0 = 2 then .reply else .other,
      (bs.drop 13).take 6, (bs.drop 19).take 4, (bs.drop 23).take 6, (bs.drop 29).take 4⟩,
      bs.take 6, (bs.drop 6).take 6)

theorem faithful_plainCodec : plainCodec.Faithful where
  broadcast := rfl
  refuses := by
    intro op srcHW srcIP dstHW dstIP pkt hsrc h
    simp only [plainCodec] at h
    split at h
    · rename_i src dst hs hd
      split at h
      · rename_i hlen
        exact ⟨hlen.2, by rw [hs]; rfl, by rw [hd]; rfl⟩
      · cases h
    · cases h
  delivers := by
    intro hw srcHW dstHW srcIP dstIP src dst op hhw hsrc hdst hs hd
    have h4 := to4_length hs
    have h4' := to4_length hd
    refine ⟨_, by simp [generateArp, plainCodec, hs, hd, hsrc, hdst]; rfl, ?_⟩
    -- each field is cut out of the bytes at its own place
    simp [plainCodec, List.drop_append, List.drop_eq_nil_of_le,
      List.take_of_length_le, hhw, hsrc, hdst, h4, h4']
    cases op <;> simp

/-- A host asks for 10.0.0.1, which is announced, and is told where it is. -/
theorem arp_answer_exact_asked : ∃ l reason fb,
    Trace (NetAnswers ((⟨.arp, [2, 0, 0, 0, 0, 1], Map.empty, Map.empty⟩ :
        Announcer).addAnnouncedIP {} [10, 0, 0, 1]).2.ip2mac)
      (arpProcessRequest plainCodec [2, 0, 0, 0, 0, 1])
      (⟨.read, .ok ⟨.request, [2, 0, 0, 0, 0, 9], [10, 0, 0, 9], plainCodec.broadcast,
        [10, 0, 0, 1]⟩⟩ :: l) reason ∧
    writes l = [(fb, [2, 0, 0, 0, 0, 9])] ∧ plainCodec.receive fb =
      some (⟨.reply, [2, 0, 0, 0, 0, 1], [10, 0, 0, 1], [2, 0, 0, 0, 0, 9], [10, 0, 0, 9]⟩,
        [2, 0, 0, 0, 0, 9], [2, 0, 0, 0, 0, 1]) := by
  let netif : Interface := { name := "eth0", hardwareAddr := [2, 0, 0, 0, 0, 1], addrs := .ok [] }
  have hnew : newAnnouncer {} netif .v4Family =
    .ok ⟨.arp, netif.hardwareAddr, Map.empty, Map.empty⟩ := rfl
  let calls := [ApiCall.addAnnouncedIP {} [10, 0, 0, 1]]
  obtain ⟨l, reason, ht⟩ : ∃ l reason, Trace (NetAnswers (calls.foldl ApiCall.step _).ip2mac)
      (arpProcessRequest plainCodec netif.hardwareAddr) (⟨.read, .ok ⟨.request, [2, 0, 0, 0, 0, 9],
        [10, 0, 0, 9], plainCodec.broadcast, [10, 0, 0, 1]⟩⟩ :: l) reason :=
    exists_trace_call (exists_answer _) _ trivial
  obtain ⟨fb, hwrites, h⟩ := (arp_answer_exact faithful_plainCodec hnew rfl calls ht).1 [10, 0, 0, 1]
    [10, 0, 0, 9] ⟨rfl, by decide +kernel, rfl, rfl, rfl⟩
  exact ⟨l, reason, fb, ht, hwrites, h⟩

/-! ## Packets that nobody asked for -/

/-- What a call does to an announcer that nobody else uses. -/
def Announcer.exec : (c : NetCall .arp) → Announcer → NetReply c → Announcer → Prop
  | .getMac t, a, mac, a' => mac = a.ip2mac.get t ∧ a' = a
  | .setMac t, a, _, a' => a' = a.setMac t
  | .read, a, _, a' | .writeTo _, a, _, a' | .updateRequestsReceived _, a, _, a' |
    .updateResponsesSent _, a, _, a' => a' = a

/-- The frame tells everybody that the address is at the interface. -/
def Carries (codec : Arp.Codec) (hw : List UInt8) (p : IP) (op : Arp.Operation)
    (o : Outgoing .arp) : Prop :=
  o.2 = codec.broadcast ∧
    codec.receive o.1 = some (⟨op, hw, p, codec.broadcast, p⟩, codec.broadcast, hw)

section Gratuitous
variable {codec : Arp.Codec} {a a' : Announcer} {ip p : IP} {op : Arp.Operation}
  {r : Except String Unit}
  {l : List (Event (NetCall .arp) NetReply)}

/-- One packet of an IPv4 address. -/
theorem run_gratuitousPacket (hcodec : codec.Faithful) (hhw : a.hardwareAddr.length = 6)
    (hip : to4 ip = some p)
    (hrun : Run Announcer.exec a (gratuitousPacket codec a.hardwareAddr ip op).run l r a') :
    a' = a ∧ ∃ o, Carries codec a.hardwareAddr p op o ∧ writes l = [o] := by
  obtain ⟨fb, hfb, hreceive⟩ := hcodec.delivers op hhw hhw hcodec.broadcast hip hip
  rw [gratuitousPacket, hfb] at hrun
  have hcall : Run Announcer.exec a (.call (.writeTo (fb, codec.broadcast)) fun w => .ret w) l r a' :=
    hrun
  obtain ⟨w, _, l', rfl, hrest, rfl⟩ := run_call_iff.mp hcall
  obtain ⟨rfl, -, rfl⟩ := run_ret_iff.mp hrest
  exact ⟨rfl, _, ⟨rfl, hreceive⟩, rfl⟩

/-- For any other address no packet can be made. -/
theorem run_gratuitousPacket_of_none (hcodec : codec.Faithful) (hhw : a.hardwareAddr.length = 6)
    (hip : to4 ip = none)
    (hrun : Run Announcer.exec a (gratuitousPacket codec a.hardwareAddr ip op).run l r a') :
    a' = a ∧ (∃ e, r = .error e) ∧ l = [] := by
  rw [gratuitousPacket] at hrun
  rcases hgen : generateArp codec a.hardwareAddr op a.hardwareAddr ip codec.broadcast ip with e | fb
  · rw [hgen, must_error_bind] at hrun
    obtain ⟨rfl, rfl, rfl⟩ := run_ret_iff.mp hrun
    exact ⟨rfl, ⟨_, rfl⟩, rfl⟩
  · obtain ⟨src, dst, hs, -⟩ := generateArp_eq_ok hcodec hhw hhw hgen
    cases hip.symm.trans hs

/-- The loop of `gratuitous`: the second packet is for when the first was sent. -/
theorem run_gratuitousPackets
    (hrun : Run Announcer.exec a
      ([Arp.Operation.request, .reply].forM (gratuitousPacket codec a.hardwareAddr ip)).run l r a') :
    ∃ l₁ r₁ a₁,
      Run Announcer.exec a (gratuitousPacket codec a.hardwareAddr ip .request).run l₁ r₁ a₁ ∧
      ((∃ e, r₁ = .error e ∧ r = .error e ∧ l = l₁ ∧ a' = a₁) ∨
        r₁ = .ok () ∧ ∃ l₂,
          Run Announcer.exec a₁ (gratuitousPacket codec a.hardwareAddr ip .reply).run l₂ r a' ∧
          l = l₁ ++ l₂) := by
  obtain ⟨l₁, l₂, r₁, a₁, h₁, h₂, rfl⟩ := run_bind_iff.mp hrun
  refine ⟨l₁, r₁, a₁, h₁, ?_⟩
  rcases r₁ with e | u
  · obtain ⟨rfl, rfl, rfl⟩ := run_ret_iff.mp h₂
    exact .inl ⟨e, rfl, rfl, List.append_nil _, rfl⟩
  · obtain ⟨l₃, l₄, r₂, a₂, h₃, h₄, rfl⟩ := run_bind_iff.mp h₂
    -- nothing is left to do after the second packet
    have hend : l₄ = [] ∧ r = r₂ ∧ a' = a₂ := by
      rcases r₂ with e | u
      · exact run_ret_iff.mp h₄
      · exact run_ret_iff.mp h₄
    obtain ⟨rfl, rfl, rfl⟩ := hend
    exact .inr ⟨rfl, l₃, h₃, by rw [List.append_nil]⟩

theorem writes_append {k : AnnouncerKind} (l l' : List (Event (NetCall k) NetReply)) :
    writes (l ++ l') = writes l ++ writes l' :=
  List.filterMap_append

/-- **The packets of `AddAnnouncedIP`.**  On an Ethernet interface `gratuitous` for an address
that is not announced sets the mark, and does what the announcer's model says for some fate
of its packets.  For an IPv4 address they are a request and a reply, which tell everybody
that the address is at the interface, and only a failure ends the call after the first.  For any
other address it fails with no packet sent, and the mark stays. -/
theorem gratuitous_exact (hcodec : codec.Faithful) (hhw : a.hardwareAddr.length = 6)
    (hnew : ¬ a.Announced (ipString ip))
    (hrun : Run Announcer.exec a (gratuitous codec a.hardwareAddr ip).run l r a') :
    a' = a.setMac (ipString ip) ∧ (∃ wire : Wire, (r, a') = a.arpGratuitous wire (ipString ip)) ∧
    (to4 ip = none → (∃ e, r = .error e) ∧ writes l = []) ∧
    (∀ p, to4 ip = some p → ∃ o₁, Carries codec a.hardwareAddr p .request o₁ ∧
      (writes l = [o₁] ∧ r ≠ .ok () ∨
        ∃ o₂, Carries codec a.hardwareAddr p .reply o₂ ∧ writes l = [o₁, o₂])) := by
  obtain ⟨mac, a₀, l₀, ⟨rfl, hsame⟩, hmark, rfl⟩ := run_call_iff.mp hrun
  rw [Announcer.Announced, Bool.not_eq_true, Option.isSome_eq_false_iff, Option.isNone_iff_eq_none] at hnew
  rw [hnew, hsame] at hmark
  obtain ⟨_, _, l₁, rfl, hsend, rfl⟩ := run_call_iff.mp hmark
  have hloop : Run Announcer.exec (a.setMac (ipString ip))
      ([Arp.Operation.request, .reply].forM
        (gratuitousPacket codec (a.setMac (ipString ip)).hardwareAddr ip)).run l₁ r a' := hsend
  have hhw' : (a.setMac (ipString ip)).hardwareAddr.length = 6 := hhw
  obtain ⟨l₂, r₁, a₁, h₁, hrest⟩ := run_gratuitousPackets hloop
  -- the two calls before the loop write nothing
  have hwrites : writes (⟨.getMac (ipString ip), a.ip2mac.get (ipString ip)⟩ ::
      (⟨.setMac (ipString ip), ()⟩ :: l₁)) = writes l₁ := rfl
  have hgrat : ∀ wire : Wire, a.arpGratuitous wire (ipString ip) =
      (wire.request >>= fun _ => wire.reply, a.setMac (ipString ip)) := by
    intro wire
    rw [Announcer.arpGratuitous, hnew]
    rfl
  have hstate : a' = a.setMac (ipString ip) := by
    rcases hip : to4 ip with - | p
    · obtain ⟨rfl, ⟨e, rfl⟩, -⟩ := run_gratuitousPacket_of_none hcodec hhw' hip h₁
      rcases hrest with ⟨e, -, -, -, rfl⟩ | ⟨hok, -⟩
      · rfl
      · contradiction
    · obtain ⟨rfl, -⟩ := run_gratuitousPacket hcodec hhw' hip h₁
      rcases hrest with ⟨e, -, -, -, rfl⟩ | ⟨-, l₃, h₂, -⟩
      · rfl
      · exact (run_gratuitousPacket hcodec hhw' hip h₂).1
  refine ⟨hstate, ?_, ?_, ?_⟩
  · refine ⟨{ request := r₁, reply := r }, ?_⟩
    rw [hgrat, hstate]
    rcases hrest with ⟨e, rfl, rfl, -⟩ | ⟨rfl, -⟩
    · rfl
    · rfl
  · intro hip
    obtain ⟨-, ⟨e, rfl⟩, rfl⟩ := run_gratuitousPacket_of_none hcodec hhw' hip h₁
    rcases hrest with ⟨e', -, rfl, rfl, -⟩ | ⟨hok, -⟩
    · exact ⟨⟨e', rfl⟩, hwrites⟩
    · contradiction
  · intro p hip
    obtain ⟨rfl, o₁, ho₁, hw₁⟩ := run_gratuitousPacket hcodec hhw' hip h₁
    refine ⟨o₁, ho₁, ?_⟩
    rcases hrest with ⟨e, -, rfl, rfl, -⟩ | ⟨-, l₃, h₂, rfl⟩
    · exact .inl ⟨hwrites.trans hw₁, fun h => by contradiction⟩
    · obtain ⟨-, o₂, ho₂, hw₂⟩ := run_gratuitousPacket hcodec hhw' hip h₂
      exact .inr ⟨o₂, ho₂, hwrites.trans (by rw [writes_append, hw₁, hw₂]; rfl)⟩

/-- For a new announcer 10.0.0.1 is not announced: the mark is set, and a request is sent. -/
theorem gratuitous_exact_new : ∃ l r a' o,
    Run Announcer.exec ⟨.arp, [2, 0, 0, 0, 0, 1], Map.empty, Map.empty⟩
      (gratuitous plainCodec [2, 0, 0, 0, 0, 1] [10, 0, 0, 1]).run l r a' ∧
    a'.Announced "10.0.0.1" ∧ o ∈ writes l ∧
    Carries plainCodec [2, 0, 0, 0, 0, 1] [10, 0, 0, 1] .request o := by
  let a : Announcer := ⟨.arp, [2, 0, 0, 0, 0, 1], Map.empty, Map.empty⟩
  have hexec : ∀ c a, ∃ r a', Announcer.exec c a r a' := by
    intro c a
    cases c with
    | read => exact ⟨.error .eof, a, rfl⟩
    | writeTo o => exact ⟨.ok (), a, rfl⟩
    | getMac t => exact ⟨a.ip2mac.get t, a, rfl, rfl⟩
    | setMac t => exact ⟨(), a.setMac t, rfl⟩
    | updateRequestsReceived t => exact ⟨(), a, rfl⟩
    | updateResponsesSent t => exact ⟨(), a, rfl⟩
  obtain ⟨l, r, a', hrun⟩ :=
    exists_run hexec (gratuitous plainCodec a.hardwareAddr [10, 0, 0, 1]).run a
  have hnew : ¬ a.Announced (ipString [10, 0, 0, 1]) := by decide +kernel
  obtain ⟨rfl, -, -, hsent⟩ := gratuitous_exact faithful_plainCodec rfl hnew hrun
  obtain ⟨o, ho, hwrites⟩ := hsent [10, 0, 0, 1] rfl
  refine ⟨l, r, _, o, hrun, by decide +kernel, ?_, ho⟩
  rcases hwrites with ⟨hl, -⟩ | ⟨o', -, hl⟩ <;> rw [hl] <;> exact List.mem_cons_self

end Gratuitous

end OpenELB
