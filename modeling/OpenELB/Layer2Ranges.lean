import OpenELB.ParserAgreement
import OpenELB.SingleAnnouncer

/-! # The ranges of the layer2 announcers

`ConfigureWithEIP` registers the range of an Eip with the announcer of an interface, and
makes one if the interface has none.  The announcers are found by the name of the
interface alone.

So a range goes to the announcer that is there, of whatever kind it is: the ranges are
held by announcers of their family as long as every Eip finds one of its kind or none
(`ranges_right`).  And an Eip is taken from the interface that its configuration resolves
to now, not from the one it was registered on: it is gone exactly if no other interface
has it (`unconfigured_iff`). -/
namespace OpenELB
open Go IpRange

/-! ## Calls -/

/-- The calls of the layer2 speaker. -/
inductive Layer2Call where
  | setBalancer (nodeName : String) (order sorted : List String) (wire : Wire) (ip : String)
      (clusterNodes : List Node)
  | delBalancer (order : List String) (wire : Wire) (ip : String)
  | configureWithEIP (host : Host) (wire : Wire) (order : List String) (config : Config)
      (deleted : Bool)

/-- What a call returns and leaves. -/
def Layer2Call.exec (l : Layer2) : Layer2Call → Except String Unit × Layer2
  | .setBalancer nodeName order sorted wire ip clusterNodes =>
    l.setBalancer nodeName order sorted wire ip clusterNodes
  | .delBalancer order wire ip => l.delBalancer order wire ip
  | .configureWithEIP host wire order config deleted =>
    l.configureWithEIP host wire order config deleted

/-- The speaker reaches this state by calls that have a property in the state before them,
while its list of members changes. -/
inductive Layer2Reach (P : Layer2 → Layer2Call → Prop) : Layer2 → Prop
  | new (members : List String) : Layer2Reach P ⟨members, Map.empty⟩
  | members {l : Layer2} (members : List String) : Layer2Reach P l →
      Layer2Reach P { l with members := members }
  | call {l : Layer2} {c : Layer2Call} : Layer2Reach P l → P l c → Layer2Reach P (c.exec l).2

namespace Layer2
variable {l : Layer2} {P : Announcer → Prop}

/-- Every announcer has a property. -/
def Each (P : Announcer → Prop) (l : Layer2) : Prop :=
  ∀ netif a, l.announcers.get netif = some a → P a

theorem Each.set (h : l.Each P) {netif : String} {a : Announcer} (ha : P a) :
    Each P { l with announcers := l.announcers.set netif a } :=
  Map.forall_get_set ha fun m b _ => h m b

theorem Each.delete (h : l.Each P) (netif : String) :
    Each P { l with announcers := l.announcers.delete netif } :=
  Map.forall_get_delete fun m b _ => h m b

theorem get_of_announcerOf {order : List String} {ip : IP} {netif : String} {a : Announcer}
    (h : l.announcerOf order ip = some (netif, a)) :
    l.announcers.get netif = some a ∧ a.containsIP ip = true := by
  rw [announcerOf] at h
  have hcontains := List.find?_some h
  refine ⟨?_, hcontains⟩
  obtain ⟨m, -, hm⟩ := List.mem_filterMap.mp (List.mem_of_find?_eq_some h)
  obtain ⟨b, hb, he⟩ := Option.map_eq_some_iff.mp hm
  cases he
  exact hb

/-- **A property of all announcers is kept** if it speaks of the kind and the ranges only,
survives the unregistering of a range as long as another one is left, and the range that a
call registers brings no announcer that does not have it. -/
theorem Each.exec (hsame : ∀ a b : Announcer, b.kind = a.kind → b.ipranges = a.ipranges → P a → P b)
    (hunreg : ∀ a order name, P a → (Announcer.unregisterIPRange a order name).size ≠ 0 →
      P (a.unregisterIPRange order name)) {c : Layer2Call}
    (hreg : ∀ host wire order config, c = .configureWithEIP host wire order config false →
      ∀ netif a, parseInterface host config.iface = .ok netif →
        (l.announcers.get netif.name = some a ∨ l.announcers.get netif.name = none ∧
          newAnnouncer wire netif config.ipRange.family = .ok a) →
        P (a.registerIPRange config.name config.ipRange))
    (h : l.Each P) : Each P (c.exec l).2 := by
  cases c with
  | setBalancer nodeName order sorted wire ip clusterNodes =>
    rw [Layer2Call.exec, setBalancer]
    split
    · exact h
    · rename_i netif a hof
      obtain ⟨hkind, hranges⟩ := a.addAnnouncedIP_same wire ((parseIP ip).getD [])
      split
      · exact h
      split
      · exact h
      · exact h.set (hsame a _ hkind hranges (h netif a (get_of_announcerOf hof).1))
  | delBalancer order wire ip =>
    rw [Layer2Call.exec, delBalancer]
    split
    · exact h
    · rename_i netif a hof
      have ha := h netif a (get_of_announcerOf hof).1
      refine h.set ?_
      rcases a.delAnnouncedIP_cases wire ((parseIP ip).getD []) with he | he
      · rw [he]
        exact ha
      · rw [he]
        exact hsame a _ rfl rfl ha
  | configureWithEIP host wire order config deleted =>
    rw [Layer2Call.exec, configureWithEIP]
    split
    · exact h
    rename_i netif hnetif
    split
    · exact h
    cases deleted with
    | true =>
      rw [if_pos rfl, unregisterAnnouncer]
      split
      · exact h
      · rename_i a hget
        dsimp only
        by_cases hsize : (a.unregisterIPRange order config.name).size = 0
        · rw [if_pos hsize]
          exact h.delete netif.name
        · rw [if_neg hsize]
          exact h.set (hunreg a order config.name (h netif.name a hget) hsize)
    | false =>
      have hreg := hreg host wire order config rfl netif
      rw [if_neg Bool.false_ne_true, registerAnnouncer]
      split
      · rename_i a hget
        exact h.set (hreg a hnetif (.inl hget))
      · rename_i hnone
        split
        · exact h
        · rename_i a hnew
          exact h.set (hreg a hnetif (.inr ⟨hnone, hnew⟩))

/-- The run lemma of `Each.exec`. -/
theorem Each.of_reach {Q : Layer2 → Layer2Call → Prop}
    (hexec : ∀ l c, l.Each P → Q l c → Each P (Layer2Call.exec l c).2)
    (h : Layer2Reach Q l) : l.Each P := by
  induction h with
  | new members =>
    intro netif a hget
    rw [Map.get_empty] at hget
    cases hget
  | members ms _ ih => exact ih
  | call _ hc ih => exact hexec _ _ ih hc

end Layer2

/-! ## Families -/

/-- The kind of announcer for a family, as `newAnnouncer` chooses it. -/
def AnnouncerKind.ofFamily (family : Family) : AnnouncerKind :=
  if family = .v4Family then .arp else .ndp

/-- The kind of announcer for an address. -/
def AnnouncerKind.ofIP (ip : IP) : AnnouncerKind := if isV4IP ip then .arp else .ndp

/-- The range is one that `ParseRange` reads from some text. -/
def IpRange.Range.Parsed (r : Range) : Prop := ∃ s, parseRange s = .ok (some r)

/-- The range has addresses of its family only. -/
def IpRange.Range.OneFamily (r : Range) : Prop :=
  ∀ x : IP, x.length = 16 → r.contains x = true →
    AnnouncerKind.ofIP x = AnnouncerKind.ofFamily r.family

/-- If it is an IPv6 range, there is no IPv4 address in it. -/
def IpRange.Range.NoV4InV6 (r : Range) : Prop :=
  r.family = .v6Family → ∀ x : IP, x.length = 16 → r.contains x = true → isV4IP x = false

section Parsed
variable {r : Range} {s : String}

theorem length_of_new {a b : String} (h : new ((parseIP a).getD []) ((parseIP b).getD []) = some r) :
    ∃ x y, x.length = 16 ∧ y.length = 16 ∧ new x y = some r := by
  have hsides : ∀ y, new [] y = none ∧ new y [] = none := by
    intro y
    simp [new, isV4RangeValid, isV6RangeValid, isV4IP, isV6IP, to4, to16]
  cases ha : parseIP a with
  | none =>
    rw [ha, Option.getD_none, (hsides _).1] at h
    cases h
  | some x =>
    cases hb : parseIP b with
    | none =>
      rw [hb, Option.getD_none, (hsides _).2] at h
      cases h
    | some y =>
      rw [ha, hb] at h
      exact ⟨x, y, length_parseIP ha, length_parseIP hb, h⟩

theorem exists_new_of_parseAddrs (h : parseAddrs s = some r) :
    ∃ x y, x.length = 16 ∧ y.length = 16 ∧ new x y = some r := by
  rw [parseAddrs] at h
  split at h
  · exact length_of_new h
  · exact length_of_new h

theorem exists_new_of_parseNetwork (h : parseNetwork s = some r) :
    ∃ x y, x.length = 16 ∧ y.length = 16 ∧ new x y = some r := by
  rw [parseNetwork] at h
  split at h
  · cases h
  · exact exists_new_of_parseAddrs h

/-- A range that was read is one between two addresses. -/
theorem IpRange.Range.Parsed.exists_new (h : r.Parsed) :
    ∃ x y, x.length = 16 ∧ y.length = 16 ∧ new x y = some r := by
  obtain ⟨s, hs⟩ := h
  have hne : toLower s ≠ "" := by
    intro he
    rw [parseRange] at hs
    dsimp only at hs
    rw [if_pos he] at hs
    cases hs
  have hchosen := (parseRange_ok hne).mp hs
  rw [chosen] at hchosen
  split at hchosen
  · exact exists_new_of_parseAddrs hchosen
  split at hchosen
  · exact exists_new_of_parseNetwork hchosen
  split at hchosen
  · rw [parseSubnetMask] at hchosen
    split at hchosen
    · cases hchosen
    split at hchosen
    · cases hchosen
    dsimp only at hchosen
    split at hchosen
    · cases hchosen
    · exact exists_new_of_parseNetwork hchosen
  · cases hchosen

/-- An IPv4 range has IPv4 addresses only. -/
theorem IpRange.Range.Parsed.oneFamily_v4 (h : r.Parsed) (hv4 : r.family = .v4Family) :
    r.OneFamily := by
  obtain ⟨a, b, ha, hb, hnew⟩ := h.exists_new
  rw [new_eq ha hb] at hnew
  split at hnew
  · rename_i hfam
    cases hnew
    have ha4 : (to4 a).isSome = true := by
      by_contra hnot
      rw [if_neg hnot] at hv4
      cases hv4
    have hb4 : (to4 b).isSome = true := hfam.1 ▸ ha4
    intro x hx hcontains
    -- the mapped addresses are a block, and the range lies in it
    rw [Range.contains, decide_eq_true_eq, le_iff_beNat_le (ha.trans hx.symm),
      le_iff_beNat_le (hx.trans hb.symm)] at hcontains
    rw [to4_isSome_iff ha] at ha4
    rw [to4_isSome_iff hb] at hb4
    have hx4 : (to4 x).isSome = true := by
      rw [to4_isSome_iff hx]
      omega
    rw [AnnouncerKind.ofIP, isV4IP, if_pos hx4, hv4]
    rfl
  · cases hnew

theorem IpRange.Range.Parsed.oneFamily_iff (h : r.Parsed) : r.OneFamily ↔ r.NoV4InV6 := by
  cases hfam : r.family with
  | v4Family =>
    refine iff_of_true (h.oneFamily_v4 hfam) fun hv6 => ?_
    rw [hfam] at hv6
    cases hv6
  | v6Family =>
    have hkind : ∀ x, AnnouncerKind.ofIP x = AnnouncerKind.ofFamily .v6Family ↔
        isV4IP x = false := by
      intro x
      rw [AnnouncerKind.ofIP, AnnouncerKind.ofFamily]
      cases isV4IP x <;> simp
    simp only [Range.OneFamily, Range.NoV4InV6, hfam, hkind, forall_const]

end Parsed

/-! ## Ranges of the right kind -/

namespace Layer2
variable {l : Layer2}

/-- Every range is held by an announcer of its family, and every address is announced by
one of its own. -/
structure Right (l : Layer2) : Prop where
  held : ∀ netif a name r, l.announcers.get netif = some a → a.ipranges.get name = some r →
    a.kind = AnnouncerKind.ofFamily r.family
  used : ∀ order ip x netif a, l.announcers.Ranges order → parseIP ip = some x →
    l.announcerOf order x = some (netif, a) → a.kind = AnnouncerKind.ofIP x

/-- The range of an Eip fits where it is registered: the announcer of the interface is of
its kind, if there is one, and no IPv4 address lies in an IPv6 range. -/
def Fits (l : Layer2) (host : Host) (config : Config) : Prop :=
  config.ipRange.NoV4InV6 ∧ ∀ netif a, parseInterface host config.iface = .ok netif →
    l.announcers.get netif.name = some a →
    a.kind = AnnouncerKind.ofFamily config.ipRange.family

/-- Every Eip that a call registers has a range that was read, and it fits. -/
def FittingCall (l : Layer2) (c : Layer2Call) : Prop :=
  ∀ host wire order config, c = .configureWithEIP host wire order config false →
    (c.exec l).1 = .ok () → config.ipRange.Parsed ∧ l.Fits host config

end Layer2

/-- The ranges of an announcer are of its kind, and have no other addresses. -/
def Announcer.Pure (a : Announcer) : Prop :=
  ∀ name r, a.ipranges.get name = some r →
    a.kind = AnnouncerKind.ofFamily r.family ∧ r.OneFamily

namespace Announcer
variable {a : Announcer} {name : String} {order : List String}

theorem Pure.unregister (h : a.Pure) : (a.unregisterIPRange order name).Pure := by
  rw [unregisterIPRange]
  split
  · exact h
  · exact Map.forall_get_delete fun m r _ => h m r

theorem Pure.register (h : a.Pure) {r : Range} (hkind : a.kind = AnnouncerKind.ofFamily r.family)
    (hr : r.OneFamily) : (a.registerIPRange name r).Pure :=
  Map.forall_get_set ⟨hkind, hr⟩ fun m r _ => h m r

theorem Pure.ofIP (h : a.Pure) {x : IP} (hx : x.length = 16) (hcontains : a.containsIP x = true) :
    a.kind = AnnouncerKind.ofIP x := by
  rw [containsIP, Map.any_iff] at hcontains
  obtain ⟨name, r, hget, hr⟩ := hcontains
  obtain ⟨hkind, hone⟩ := h name r hget
  rw [hkind, hone x hx hr]

end Announcer

/-- A new announcer is of the kind of the family it is made for, and has no range. -/
theorem newAnnouncer_kind {wire : Wire} {netif : Interface} {family : Family} {a : Announcer}
    (h : newAnnouncer wire netif family = .ok a) :
    a.kind = AnnouncerKind.ofFamily family ∧ a.ipranges = Map.empty := by
  rw [newAnnouncer] at h
  cases hlisten : wire.listen with
  | error e =>
    rw [hlisten] at h
    cases h
  | ok _ =>
    rw [hlisten] at h
    cases h
    exact ⟨rfl, rfl⟩

namespace Layer2
variable {l : Layer2}

theorem right_of_pure (h : l.Each Announcer.Pure) : l.Right where
  held netif a name r hget hr := (h netif a hget name r hr).1
  used order ip x netif a _ hx hof := by
    obtain ⟨hget, hcontains⟩ := get_of_announcerOf hof
    exact (h netif a hget).ofIP (length_parseIP hx) hcontains

/-- A registration that fails changes nothing. -/
theorem configureWithEIP_failed {host : Host} {wire : Wire} {order : List String} {config : Config}
    (h : (l.configureWithEIP host wire order config false).1 ≠ .ok ()) :
    (l.configureWithEIP host wire order config false).2 = l := by
  rw [configureWithEIP] at h ⊢
  split at h
  · rfl
  · split at h
    · rfl
    · rw [if_neg Bool.false_ne_true, registerAnnouncer] at h ⊢
      split at h
      · exact absurd rfl h
      · split at h
        · rfl
        · exact absurd rfl h

theorem pure_exec {c : Layer2Call} (hc : l.FittingCall c) (h : l.Each Announcer.Pure) :
    Each Announcer.Pure (c.exec l).2 := by
  by_cases hfails : ∃ host wire order config, c = .configureWithEIP host wire order config false ∧
      (c.exec l).1 ≠ .ok ()
  · obtain ⟨host, wire, order, config, rfl, hne⟩ := hfails
    have hsame : (Layer2Call.exec l (.configureWithEIP host wire order config false)).2 = l :=
      configureWithEIP_failed hne
    rw [hsame]
    exact h
  have hfits : ∀ host wire order config, c = .configureWithEIP host wire order config false →
      config.ipRange.Parsed ∧ l.Fits host config := fun host wire order config he =>
    hc host wire order config he (not_not.mp fun hne => hfails ⟨host, wire, order, config, he, hne⟩)
  refine h.exec (fun a b hkind hranges ha => ?_) (fun a order name ha _ => ha.unregister) ?_
  · intro name r hr
    rw [hkind]
    exact ha name r (hranges ▸ hr)
  · rintro host wire order config he netif a hnetif (hget | ⟨-, hnew⟩)
    · obtain ⟨hparsed, hno, hkind⟩ := hfits host wire order config he
      have hone := hparsed.oneFamily_iff.mpr hno
      exact (h netif.name a hget).register (hkind netif a hnetif hget) hone
    · obtain ⟨hparsed, hno, -⟩ := hfits host wire order config he
      have hone := hparsed.oneFamily_iff.mpr hno
      obtain ⟨hkind, hempty⟩ := newAnnouncer_kind hnew
      refine Announcer.Pure.register (fun name r hr => ?_) hkind hone
      rw [hempty, Map.get_empty] at hr
      cases hr

/-- The first announcer of the order that has the address is taken. -/
theorem announcerOf_cons {netif : String} {a : Announcer} {order : List String} {x : IP}
    (hget : l.announcers.get netif = some a) (hcontains : a.containsIP x = true) :
    l.announcerOf (netif :: order) x = some (netif, a) := by
  rw [announcerOf, List.filterMap_cons, hget]
  exact List.find?_cons_of_pos hcontains

/-- A configuration that succeeds has resolved the interface, and is carried out there. -/
theorem configureWithEIP_ok {host : Host} {wire : Wire} {order : List String} {config : Config}
    {deleted : Bool} (hok : (l.configureWithEIP host wire order config deleted).1 = .ok ()) :
    ∃ netif, parseInterface host config.iface = .ok netif ∧
      l.configureWithEIP host wire order config deleted =
        if deleted then (.ok (), l.unregisterAnnouncer order config.name netif.name)
        else l.registerAnnouncer wire config.name netif config.ipRange := by
  rw [configureWithEIP] at hok ⊢
  cases hnetif : parseInterface host config.iface with
  | error e =>
    rw [hnetif] at hok
    cases hok
  | ok netif =>
    rw [hnetif] at hok
    dsimp only at hok ⊢
    cases hvalid : validateInterface netif config.ipRange with
    | error e =>
      rw [hvalid] at hok
      cases hok
    | ok _ => exact ⟨netif, rfl, rfl⟩

/-- What a registration that succeeds leaves on its interface. -/
theorem configureWithEIP_registered {host : Host} {wire : Wire} {order : List String}
    {config : Config} (hok : (l.configureWithEIP host wire order config false).1 = .ok ()) :
    ∃ netif b, parseInterface host config.iface = .ok netif ∧
      (l.configureWithEIP host wire order config false).2.announcers.get netif.name =
        some (Announcer.registerIPRange b config.name config.ipRange) ∧
      ∀ a, l.announcers.get netif.name = some a → b = a := by
  obtain ⟨netif, hnetif, heq⟩ := configureWithEIP_ok hok
  rw [heq, if_neg Bool.false_ne_true, registerAnnouncer] at hok ⊢
  cases hget : l.announcers.get netif.name with
  | some a =>
    refine ⟨netif, a, hnetif, Map.get_set_self .., fun b hb => ?_⟩
    rw [hget] at hb
    exact Option.some.inj hb
  | none =>
    rw [hget] at hok
    dsimp only at hok ⊢
    cases hnew : newAnnouncer wire netif config.ipRange.family with
    | error e =>
      rw [hnew] at hok
      cases hok
    | ok a =>
      refine ⟨netif, a, hnetif, Map.get_set_self .., fun b hb => ?_⟩
      rw [hget] at hb
      cases hb

/-- A registration after which the ranges are right was one that fits. -/
theorem Right.fits {host : Host} {wire : Wire} {order : List String} {config : Config}
    (hparsed : config.ipRange.Parsed)
    (hok : (l.configureWithEIP host wire order config false).1 = .ok ())
    (h : (l.configureWithEIP host wire order config false).2.Right) : l.Fits host config := by
  obtain ⟨netif, b, hnetif, hget, hsame⟩ := configureWithEIP_registered hok
  have hentry : (b.registerIPRange config.name config.ipRange).ipranges.get config.name =
      some config.ipRange := Map.get_set_self ..
  have hkind : b.kind = AnnouncerKind.ofFamily config.ipRange.family :=
    h.held netif.name (b.registerIPRange config.name config.ipRange) config.name _ hget hentry
  refine ⟨hparsed.oneFamily_iff.mp fun x hx hcontains => ?_, fun netif' a hnetif' ha => ?_⟩
  · -- an address of the other family would be announced by this announcer
    have hany : (b.registerIPRange config.name config.ipRange).containsIP x = true := by
      rw [Announcer.containsIP, Map.any_iff]
      exact ⟨config.name, config.ipRange, hentry, hcontains⟩
    obtain ⟨rest, hrest⟩ := Map.exists_ranges_cons (by rw [hget]; rfl :
      ((l.configureWithEIP host wire order config false).2.announcers.get netif.name).isSome)
    have hread : parseIP (ipString x) = some x := by
      rw [parseIP_ipString (.inr hx), to16_of_to4_none hx]
    have hused := h.used _ _ x netif.name _ hrest hread (announcerOf_cons hget hany)
    rw [← hkind]
    exact hused.symm
  · rw [hnetif] at hnetif'
    cases hnetif'
    rw [← hsame a ha]
    exact hkind

end Layer2

/-- **When the ranges are with the right announcers.**  In every run whose registrations
that return nil all fit, every range is held by an announcer of its family and every address
is announced by one of its own.  From there the next registration that returns nil keeps
this exactly if it fits. -/
theorem ranges_right {l : Layer2} (h : Layer2Reach Layer2.FittingCall l) :
    l.Right ∧ ∀ host wire order config, config.ipRange.Parsed →
      (l.configureWithEIP host wire order config false).1 = .ok () →
      ((l.configureWithEIP host wire order config false).2.Right ↔ l.Fits host config) := by
  have hpure : l.Each Announcer.Pure :=
    Layer2.Each.of_reach (fun l c hl hc => Layer2.pure_exec hc hl) h
  refine ⟨Layer2.right_of_pure hpure, fun host wire order config hparsed hok => ⟨?_, ?_⟩⟩
  · exact Layer2.Right.fits hparsed hok
  · intro hfits
    refine Layer2.right_of_pure (Layer2.pure_exec
      (c := .configureWithEIP host wire order config false) ?_ hpure)
    intro host' wire' order' config' he _
    cases he
    exact ⟨hparsed, hfits⟩

/-- A host with two interfaces in one network of each family, on which every address is
reached by the link with the given number. -/
def dualHost (link : Nat) : Host where
  interfaceByName name :=
    .ok { name := name, addrs := .ok ["192.0.2.10/24", "2001:db8::10/64"] }
  routeGet _ := .ok link
  interfaceByIndex i :=
    .ok { name := if i = 0 then "eth0" else "eth1",
          addrs := .ok ["192.0.2.10/24", "2001:db8::10/64"] }

/-- The range 192.0.2.1-192.0.2.9. -/
def range4 : Range := ⟨.v4Family, v4InV6Prefix ++ [192, 0, 2, 1], v4InV6Prefix ++ [192, 0, 2, 9]⟩

/-- The range 2001:db8::1-2001:db8::9. -/
def range6 : Range := ⟨.v6Family,
  [0x20, 1, 0xd, 0xb8, 0, 0, 0, 0, 0, 0, 0, 0, 0, 0, 0, 1],
  [0x20, 1, 0xd, 0xb8, 0, 0, 0, 0, 0, 0, 0, 0, 0, 0, 0, 9]⟩

theorem range4_parsed : range4.Parsed := ⟨"192.0.2.1-192.0.2.9", by decide +kernel⟩

/-- An Eip on eth0. -/
def onEth0 (name : String) (r : Range) : Config := { name := name, ipRange := r, iface := "eth0" }

theorem range6_parsed : range6.Parsed := ⟨"2001:db8::1-2001:db8::9", by decide +kernel⟩

theorem range6_noV4InV6 : range6.NoV4InV6 := by
  intro _ x hx hcontains
  rw [Range.contains, decide_eq_true_eq, le_iff_beNat_le (hx ▸ rfl)] at hcontains
  have hstart : beNat range6.start = 42540766411282592856903984951653826561 := by decide +kernel
  refine Bool.eq_false_iff.mpr fun hv4 => ?_
  rw [isV4IP, to4_isSome_iff hx] at hv4
  omega

/-- A speaker with one member, and no Eips. -/
def soloSpeaker : Layer2 := ⟨["node1"], Map.empty⟩

/-- An IPv4 Eip is registered on eth0, and then an IPv6 one on eth1. -/
theorem ranges_right_bothFamilies :
    let l := (soloSpeaker.configureWithEIP (dualHost 0) {} [] (onEth0 "pool4" range4) false).2
    (l.announcers.get "eth0").map Announcer.kind = some .arp ∧
    (l.configureWithEIP (dualHost 0) {} [] ⟨"pool6", range6, "eth1"⟩ false).2.Right := by
  intro l
  have hreach : Layer2Reach Layer2.FittingCall l := by
    refine .call (c := .configureWithEIP (dualHost 0) {} [] (onEth0 "pool4" range4) false)
      (.new ["node1"]) ?_
    intro host wire order config he _
    cases he
    refine ⟨range4_parsed, fun hv6 => ?_, fun netif a _ hget => ?_⟩
    · cases hv6
    · rw [soloSpeaker, Map.get_empty] at hget
      cases hget
  have hfree : (l.announcers.get "eth0").map Announcer.kind = some .arp ∧
      l.announcers.get "eth1" = none ∧
      (parseInterface (dualHost 0) "eth1").map Interface.name = .ok "eth1" ∧
      (l.configureWithEIP (dualHost 0) {} [] ⟨"pool6", range6, "eth1"⟩ false).1 = .ok () := by
    decide +kernel
  obtain ⟨hkind, hnone, hname, hok⟩ := hfree
  refine ⟨hkind, ((ranges_right hreach).2 _ _ _ _ range6_parsed hok).mpr ⟨range6_noV4InV6, ?_⟩⟩
  intro netif a hnetif hget
  rw [show parseInterface (dualHost 0) "eth1" = .ok netif from hnetif] at hname
  have heth1 : netif.name = "eth1" := Except.ok.inj hname
  rw [heth1, hnone] at hget
  cases hget

/-- **An IPv6 range with an ARP announcer.**  An IPv4 Eip is registered on eth0, and then
an IPv6 one.  Both calls return nil, and the IPv6 range is held by the ARP announcer. -/
theorem wrong_announcer :
    let l := (soloSpeaker.configureWithEIP (dualHost 0) {} [] (onEth0 "pool4" range4) false).2
    parseRange "2001:db8::1-2001:db8::9" = .ok (some range6) ∧
    (soloSpeaker.configureWithEIP (dualHost 0) {} [] (onEth0 "pool4" range4) false).1 = .ok () ∧
    (l.configureWithEIP (dualHost 0) {} [] (onEth0 "pool6" range6) false).1 = .ok () ∧
    ((l.configureWithEIP (dualHost 0) {} [] (onEth0 "pool6" range6) false).2.announcers.get
      "eth0").map (fun a => (a.kind, a.ipranges.get "pool6")) = some (.arp, some range6) := by
  decide +kernel

/-! ## Unconfiguring an Eip -/

namespace Layer2
variable {l : Layer2}

/-- Some announcer holds this range under the name. -/
def HoldsUnder (l : Layer2) (name : String) (r : Range) : Prop :=
  ∃ netif a, l.announcers.get netif = some a ∧ a.ipranges.get name = some r

/-- The announcer has nothing of the Eip: no range under its name, and none of the
addresses of its ranges announced. -/
def Free (l : Layer2) (name : String) (a : Announcer) : Prop :=
  a.ipranges.get name = none ∧ ∀ r t, l.HoldsUnder name r → a.Announced t →
    r.contains ((parseIP t).getD []) = false

/-- A range is held wherever there is an announcer. -/
theorem size_pos (h : Layer2Reach (fun _ _ => True) l) : l.Each fun a => 0 < a.size := by
  refine Each.of_reach (fun l c hl _ => hl.exec ?_ ?_ ?_) h
  · intro a b _ hranges ha
    rw [Announcer.size, hranges]
    exact ha
  · exact fun a order name _ hsize => Nat.pos_of_ne_zero hsize
  · intro host wire order config _ netif a _ _
    refine Nat.pos_of_ne_zero fun hzero => ?_
    have hnone := Map.len_eq_zero.mp hzero config.name
    rw [Announcer.registerIPRange, Map.get_set_self] at hnone
    cases hnone

/-- What a deletion that succeeds leaves. -/
theorem configureWithEIP_deleted {host : Host} {wire : Wire} {order : List String}
    {config : Config} {netif : Interface} (hnetif : parseInterface host config.iface = .ok netif)
    (hok : (l.configureWithEIP host wire order config true).1 = .ok ()) :
    (l.configureWithEIP host wire order config true).2 =
      l.unregisterAnnouncer order config.name netif.name := by
  obtain ⟨netif', hnetif', heq⟩ := configureWithEIP_ok hok
  cases hnetif.symm.trans hnetif'
  rw [heq, if_pos rfl]

/-- The announcers of other interfaces are left alone. -/
theorem get_unregisterAnnouncer_ne {order : List String} {name netif m : String} (hm : m ≠ netif) :
    (l.unregisterAnnouncer order name netif).announcers.get m = l.announcers.get m := by
  rw [unregisterAnnouncer]
  split
  · rfl
  · dsimp only
    split
    · rw [Map.get_delete, if_neg hm]
    · exact Map.get_set_ne _ _ hm

/-- The announcer of the interface itself, if it stays. -/
theorem get_unregisterAnnouncer_self {order : List String} {name netif : String} {b : Announcer}
    (hb : (l.unregisterAnnouncer order name netif).announcers.get netif = some b) :
    ∃ a, l.announcers.get netif = some a ∧ b = a.unregisterIPRange order name := by
  rw [unregisterAnnouncer] at hb
  split at hb
  · rename_i hnone
    rw [hnone] at hb
    cases hb
  · rename_i a hget
    refine ⟨a, hget, ?_⟩
    dsimp only at hb
    split at hb
    · rw [Map.get_delete_self] at hb
      cases hb
    · rw [Map.get_set_self] at hb
      exact (Option.some.inj hb).symm

end Layer2

/-- A range that is unregistered is gone from the announcer, with its addresses. -/
theorem Announcer.unregisterIPRange_gone {a : Announcer} {order : List String} {name t : String}
    (horder : a.ip2mac.Ranges order) :
    (a.unregisterIPRange order name).ipranges.get name = none ∧
    ∀ r, a.ipranges.get name = some r → (a.unregisterIPRange order name).Announced t →
      r.contains ((parseIP t).getD []) = false := by
  rw [unregisterIPRange]
  cases hget : a.ipranges.get name with
  | none =>
    refine ⟨hget, fun r hr => ?_⟩
    cases hr
  | some r =>
    refine ⟨Map.get_delete_self .., fun r' hr hann => ?_⟩
    cases hr
    rw [Announced, Map.get_rangeUpdate _ horder] at hann
    by_contra hcontains
    rw [Bool.not_eq_false] at hcontains
    obtain ⟨mac, hmac⟩ := Option.isSome_iff_exists.mp hann
    obtain ⟨mac', -, hkept⟩ := Option.bind_eq_some_iff.mp hmac
    rw [if_pos hcontains] at hkept
    cases hkept

/-- **When an Eip is gone from the speaker.**  `ConfigureWithEIP` with `deleted` returns
nil, and the configuration resolves to the interface.  Then no announcer has anything of
the Eip, and each holds a range, exactly if no announcer of another interface had anything
of it before. -/
theorem unconfigured_iff {l : Layer2} (h : Layer2Reach (fun _ _ => True) l) {host : Host}
    {wire : Wire} {order : List String} {config : Config} {netif : Interface}
    (hnetif : parseInterface host config.iface = .ok netif)
    (horder : ∀ a, l.announcers.get netif.name = some a → a.ip2mac.Ranges order)
    (hok : (l.configureWithEIP host wire order config true).1 = .ok ()) :
    (∀ m a, (l.configureWithEIP host wire order config true).2.announcers.get m = some a →
      l.Free config.name a ∧ 0 < a.size) ↔
    ∀ m a, m ≠ netif.name → l.announcers.get m = some a → l.Free config.name a := by
  have hsize : (l.configureWithEIP host wire order config true).2.Each fun a => 0 < a.size :=
    Layer2.size_pos (.call (c := .configureWithEIP host wire order config true) h trivial)
  rw [Layer2.configureWithEIP_deleted hnetif hok] at hsize ⊢
  constructor
  · intro hall m a hm hget
    refine (hall m a ?_).1
    rw [Layer2.get_unregisterAnnouncer_ne hm]
    exact hget
  · intro hothers m b hb
    refine ⟨?_, hsize m b hb⟩
    by_cases hm : m = netif.name
    · subst hm
      obtain ⟨a, hget, rfl⟩ := Layer2.get_unregisterAnnouncer_self hb
      refine ⟨(Announcer.unregisterIPRange_gone (t := "") (horder a hget)).1, ?_⟩
      -- no other announcer holds a range under the name, so it is this one's
      rintro r t ⟨m', a', hget', hr⟩ hann
      by_cases hm' : m' = netif.name
      · rw [hm', hget] at hget'
        cases hget'
        exact (Announcer.unregisterIPRange_gone (horder a hget)).2 r hr hann
      · rw [(hothers m' a' hm' hget').1] at hr
        cases hr
    · rw [Layer2.get_unregisterAnnouncer_ne hm] at hb
      exact hothers m b hm hb

/-- An Eip on the interface that reaches 192.0.2.254. -/
def routedEip : Config := { name := "pool", ipRange := range4, iface := "can_reach:192.0.2.254" }

/-- The speaker with the Eip on eth0, and one of its addresses announced. -/
def announcingSpeaker : Layer2 :=
  ((soloSpeaker.configureWithEIP (dualHost 0) {} [] routedEip false).2.setBalancer "node1" ["eth0"]
    ["node1"] {} "192.0.2.1" [{ name := "node1" }]).2

theorem announcingSpeaker_reach : Layer2Reach (fun _ _ => True) announcingSpeaker :=
  .call (c := .setBalancer "node1" ["eth0"] ["node1"] {} "192.0.2.1" [{ name := "node1" }])
    (.call (c := .configureWithEIP (dualHost 0) {} [] routedEip false) (.new ["node1"]) trivial)
    trivial

/-- The route is as it was. -/
theorem unconfigured_iff_sameRoute :
    (announcingSpeaker.configureWithEIP (dualHost 0) {} ["192.0.2.1"] routedEip true).1 = .ok () ∧
    ∀ m a, (announcingSpeaker.configureWithEIP (dualHost 0) {} ["192.0.2.1"] routedEip
        true).2.announcers.get m = some a → announcingSpeaker.Free "pool" a ∧ 0 < a.size := by
  have heth0 : ∀ m a, announcingSpeaker.announcers.get m = some a →
      m = "eth0" ∧ a.ip2mac.Ranges ["192.0.2.1"] :=
    Map.forall_entries.mpr (by decide +kernel)
  have hok : (announcingSpeaker.configureWithEIP (dualHost 0) {} ["192.0.2.1"] routedEip true).1 =
      .ok () := by decide +kernel
  refine ⟨hok, (unconfigured_iff announcingSpeaker_reach rfl ?_ hok).mpr ?_⟩
  · exact fun a hget => (heth0 _ a hget).2
  · exact fun m a hm hget => absurd (heth0 m a hget).1 hm

/-- **An Eip stays where it was registered.**  It is registered on eth0, and its address
192.0.2.1 is announced there.  Then the route changes to eth1.  The deletion of the Eip
returns nil, and eth0 has its range and announces its address as before. -/
theorem stale_registration :
    Layer2Reach (fun _ _ => True) announcingSpeaker ∧
    (announcingSpeaker.configureWithEIP (dualHost 1) {} [] routedEip true).1 = .ok () ∧
    ((announcingSpeaker.configureWithEIP (dualHost 1) {} [] routedEip true).2.announcers.get
      "eth0").map (fun a => (a.ipranges.get "pool", decide (a.Announced "192.0.2.1"),
        range4.contains ((parseIP "192.0.2.1").getD []))) = some (some range4, true, true) := by
  refine ⟨announcingSpeaker_reach, ?_⟩
  decide +kernel

end OpenELB
