import OpenELB.GoSha256
import OpenELB.SpeakerConfig

/-! # The layer2 speaker

`pkg/speaker/layer2`: on every network interface that serves a pool there is one
announcer, which answers ARP or NDP requests for the addresses it has announced.  The
speakers of the nodes find each other by a member list, and every speaker elects for
itself the node that announces an address: the one whose name has the least hash among
the nodes that are members.

A method returns its error and the state it leaves.  What the network answers to a call
is the argument `Wire`; `order` is the order in which a loop visits a map, and `sorted`
what `sort.Slice` makes of the candidates, which is not a stable sort (`Sorts`). -/
namespace OpenELB
open Go

/-- `arpAnnouncer` or `ndpAnnouncer`. -/
inductive AnnouncerKind where
  | arp
  | ndp
  deriving DecidableEq

/-- What becomes of the packets and the sockets of one call. -/
structure Wire where
  /-- The gratuitous ARP request, generated and written. -/
  request : Except String Unit := .ok ()
  /-- The gratuitous ARP reply. -/
  reply : Except String Unit := .ok ()
  joinGroup : Except String Unit := .ok ()
  leaveGroup : Except String Unit := .ok ()
  /-- The unsolicited neighbour advertisement. -/
  advertise : Except String Unit := .ok ()
  /-- The socket of a new announcer. -/
  listen : Except String Unit := .ok ()

/-- `arpAnnouncer` and `ndpAnnouncer`, which have the same data. -/
structure Announcer where
  kind : AnnouncerKind
  hardwareAddr : List UInt8
  ip2mac : Map String (List UInt8)
  ipranges : Map String IpRange.Range

namespace Announcer
variable (a : Announcer)

/-- `ContainsIP`. -/
def containsIP (ip : IP) : Bool := a.ipranges.any fun _ r => r.contains ip

/-- `Size`. -/
def size : Nat := a.ipranges.len

/-- `RegisterIPRange`. -/
def registerIPRange (name : String) (r : IpRange.Range) : Announcer :=
  { a with ipranges := a.ipranges.set name r }

/-- `UnregisterIPRange`: the addresses of the range are no longer announced. -/
def unregisterIPRange (order : List String) (name : String) : Announcer :=
  match a.ipranges.get name with
  | none => a
  | some r =>
    { a with
      ip2mac := order.foldl (Map.visit fun ip mac =>
        if r.contains ((parseIP ip).getD []) then none else some mac) a.ip2mac
      ipranges := a.ipranges.delete name }

/-- `setMac`, with the address of the interface. -/
def setMac (ip : String) : Announcer := { a with ip2mac := a.ip2mac.set ip a.hardwareAddr }

/-- `gratuitous`: the mark is set before the packets are sent. -/
def arpGratuitous (wire : Wire) (ip : String) : Except String Unit × Announcer :=
  if (a.ip2mac.get ip).isSome then (.ok (), a)
  else (wire.request >>= fun _ => wire.reply, a.setMac ip)

/-- `Gratuitous`. -/
def ndpGratuitous (wire : Wire) (ip : String) : Except String Unit × Announcer :=
  if (a.ip2mac.get ip).isSome then (.ok (), a)
  else (wire.advertise, a.setMac ip)

/-- `netip.ParseAddr(ip.String())`. -/
def parseServiceIP (ip : IP) : Except String (AddrForm × IP) :=
  match parseAddr (ipString ip).toList with
  | none => .error ("parse service ip error : ParseAddr(\"" ++ ipString ip ++ "\"): unable to parse IP")
  | some svcIP => .ok svcIP

/-- `AddAnnouncedIP`. -/
def addAnnouncedIP (wire : Wire) (ip : IP) : Except String Unit × Announcer :=
  match a.kind with
  | .arp => a.arpGratuitous wire (ipString ip)
  | .ndp =>
    match parseServiceIP ip with
    | .error e => (.error e, a)
    | .ok (form, svcIP) =>
      -- `JoinMulticastGroup` wants an IPv6 address
      if form = .v4 ∨ wire.joinGroup ≠ .ok () then
        (.error (" ip: " ++ ipString ip ++ " join multicastgroup err"), a)
      else a.ndpGratuitous wire (ipString svcIP)

/-- `DelAnnouncedIP`. -/
def delAnnouncedIP (wire : Wire) (ip : IP) : Except String Unit × Announcer :=
  match a.kind with
  | .arp => (.ok (), { a with ip2mac := a.ip2mac.delete (ipString ip) })
  | .ndp =>
    match parseServiceIP ip with
    | .error e => (.error e, a)
    | .ok (form, _) =>
      if form = .v4 ∨ wire.leaveGroup ≠ .ok () then
        (.error (" ip: " ++ ipString ip ++ " leave multicastgroup err"), a)
      else (.ok (), { a with ip2mac := a.ip2mac.delete (ipString ip) })

end Announcer

/-- `newAnnouncer`: the kind goes by the family of the first range. -/
def newAnnouncer (wire : Wire) (netif : Interface) (family : IpRange.Family) : Except String Announcer := do
  wire.listen
  pure {
    kind := if family = .v4Family then .arp else .ndp
    hardwareAddr := netif.hardwareAddr
    ip2mac := Map.empty
    ipranges := Map.empty }

/-! ## The election -/

/-- `sha256.Sum256([]byte(node + "#" + ip))`. -/
def electionHash (ip node : String) : List UInt8 := sum256 (node ++ "#" ++ ip)

/-- The nodes that take part: those that are members. -/
def candidates (members : List String) (clusterNodes : List Node) : List String :=
  (clusterNodes.map Node.name).filter (· ∈ members)

/-- What `sort.Slice` guarantees: the same nodes, and none before one with a lesser
hash. -/
def Sorts (ip : String) (nodes sorted : List String) : Prop :=
  sorted.Perm nodes ∧ sorted.Pairwise fun m n => ¬ electionHash ip n < electionHash ip m

instance (ip : String) (nodes sorted : List String) : Decidable (Sorts ip nodes sorted) :=
  inferInstanceAs (Decidable (_ ∧ _))

/-! ## The speaker -/

/-- `layer2Speaker`: the names of the members, and the announcer of each interface. -/
structure Layer2 where
  members : List String
  announcers : Map String Announcer

namespace Layer2
variable (l : Layer2)

/-- The first announcer that has the address in a range. -/
def announcerOf (order : List String) (ip : IP) : Option (String × Announcer) :=
  (order.filterMap fun netif => (l.announcers.get netif).map (netif, ·)).find? fun p => p.2.containsIP ip

/-- `SetBalancer`, on the node with this name. -/
def setBalancer (nodeName : String) (order sorted : List String) (wire : Wire) (ip : String)
    (clusterNodes : List Node) : Except String Unit × Layer2 :=
  match l.announcerOf order ((parseIP ip).getD []) with
  | none => (.ok (), l)
  | some (netif, a) =>
    if candidates l.members clusterNodes = [] then (.ok (), l)
    else if sorted.head? ≠ some nodeName then (.ok (), l)
    else
      let (r, a) := a.addAnnouncedIP wire ((parseIP ip).getD [])
      (r, { l with announcers := l.announcers.set netif a })

/-- `DelBalancer`. -/
def delBalancer (order : List String) (wire : Wire) (ip : String) : Except String Unit × Layer2 :=
  match l.announcerOf order ((parseIP ip).getD []) with
  | none => (.ok (), l)
  | some (netif, a) =>
    let (r, a) := a.delAnnouncedIP wire ((parseIP ip).getD [])
    (r, { l with announcers := l.announcers.set netif a })

/-- `registerAnnouncer`. -/
def registerAnnouncer (wire : Wire) (eipName : String) (netif : Interface) (r : IpRange.Range) :
    Except String Unit × Layer2 :=
  match l.announcers.get netif.name with
  | some a => (.ok (), { l with announcers := l.announcers.set netif.name (a.registerIPRange eipName r) })
  | none =>
    match newAnnouncer wire netif r.family with
    | .error e => (.error ("new Announcer error. interface " ++ netif.name ++ ", error " ++ e), l)
    | .ok a =>
      (.ok (), { l with announcers := l.announcers.set netif.name (a.registerIPRange eipName r) })

/-- `unregisterAnnouncer`; `order` is that of the loop over the announced addresses. -/
def unregisterAnnouncer (order : List String) (eipName netifName : String) : Layer2 :=
  match l.announcers.get netifName with
  | none => l
  | some a =>
    let a := a.unregisterIPRange order eipName
    { l with
      announcers :=
        if a.size = 0 then l.announcers.delete netifName else l.announcers.set netifName a }

/-- `ConfigureWithEIP`. -/
def configureWithEIP (host : Host) (wire : Wire) (order : List String) (config : Config)
    (deleted : Bool) : Except String Unit × Layer2 :=
  match parseInterface host config.iface with
  | .error e => (.error e, l)
  | .ok netif =>
    match validateInterface netif config.ipRange with
    | .error e => (.error e, l)
    | .ok () =>
      if deleted then (.ok (), l.unregisterAnnouncer order config.name netif.name)
      else l.registerAnnouncer wire config.name netif config.ipRange

end Layer2
end OpenELB
