import OpenELB.IpRange

/-! # How a speaker is configured with an Eip

`pkg/speaker/interface.go` and `pkg/speaker/utils.go`: the configuration a speaker is
given for an Eip, and how it finds the network interface to use.  What the operating
system answers is a parameter (`Host`), which may be another one for each call. -/
namespace OpenELB
open Go

/-- `speaker.Config`. -/
structure Config where
  name : String
  ipRange : IpRange.Range
  iface : String
  deriving DecidableEq

/-- `net.Interface`, with the texts of its addresses. -/
structure Interface where
  name : String
  hardwareAddr : List UInt8 := []
  addrs : Except String (List String)

/-- What the operating system knows of interfaces and routes. -/
structure Host where
  /-- `net.InterfaceByName`. -/
  interfaceByName : String → Except String Interface
  /-- `netlink.RouteGet`: the link of the first route. -/
  routeGet : IP → Except String Nat
  /-- `net.InterfaceByIndex`. -/
  interfaceByIndex : Nat → Except String Interface

/-- `ParseInterface`. -/
def parseInterface (h : Host) (ifaceName : String) : Except String Interface :=
  match splitTwo ':' ifaceName with
  | [kind, addr] =>
    if kind = "can_reach" then
      match parseIP addr with
      | none => .error ("invalid can_reach address " ++ addr)
      | some ip => do
        let link ← h.routeGet ip
        let iface ← h.interfaceByIndex link
        if iface.name = "lo" then throw "invalid interface lo"
        pure iface
    else .error "invalid interface string, now only support can_reach"
  | _ => h.interfaceByName ifaceName

/-- The loop of `ValidateInterface`: some address is in one network with both ends of
the range. -/
def validateAddrs (name : String) (r : IpRange.Range) : List String → Except String Unit
  | [] => .error (name ++ "'s ip and the eip[" ++ r.text ++ "] are not in the same network segment")
  | addr :: addrs =>
    match parseCIDR addr with
    | none => .error ("invalid CIDR address: " ++ addr)
    | some (_, cidrnet) =>
      if cidrnet.contains r.start ∧ cidrnet.contains r.last then .ok ()
      else validateAddrs name r addrs

/-- `ValidateInterface`. -/
def validateInterface (netif : Interface) (r : IpRange.Range) : Except String Unit := do
  let addrs ← netif.addrs
  validateAddrs netif.name r addrs

end OpenELB
