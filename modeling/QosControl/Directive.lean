import QosControl.Command
import QosControl.Qmap
import QosControl.Rule
import QosControl.Wred

/-! # Directives

Typed commands. A port directive is one line of the configuration of an interface,
an instruction is a port directive for a named interface or a line for the whole
dataplane. Rendering an instruction gives the command that is sent.
-/
namespace QosControl

/-- What a profile map line matches on. -/
inductive Classifier where
  | dscpGroup (group : String)
  | dscp (codePoint : Nat)
  /-- A PCP value, with the key that spells it. -/
  | pcp (key : String) (value : Nat)
  | designation (key : String)
deriving DecidableEq, Repr

namespace Classifier

/-- The node of the map that a classifier comes from. -/
def path : Classifier → String
  | .dscpGroup g => s!"dscp-group/{g}"
  | .dscp n => s!"dscp/{n}"
  | .pcp key _ => s!"pcp/{key}"
  | .designation key => s!"designation/{key}"

def text (c : Classifier) (qmap : Nat) : String :=
  match c with
  | .dscpGroup g => s!"dscp-group {g} {Qmap.text qmap}"
  | .dscp n => s!"dscp {n} {Qmap.text qmap}"
  | .pcp _ n => s!"pcp {n} {Qmap.text qmap}"
  | .designation key => s!"designation {key} queue {Qmap.text qmap}"

end Classifier

/-- Maps that ports and VLANs bind. -/
inductive PortMapKind where
  | ingress
  | egress
deriving DecidableEq, Repr

def PortMapKind.keyword : PortMapKind → String
  | .ingress => "ingress-map"
  | .egress => "egress-map"

/-- One line of the configuration of an interface. -/
inductive PortDirective where
  | header (subports pipes profiles overhead : Nat) (limits : LimitCapability)
  | subport (subport : Nat) (meter : Meter) (period : Nat)
  | subportClass (subport cls : Nat) (meter : Meter)
  | subportLimit (subport cls : Nat) (limit : QueueLimit) (wred : Option Wred)
  | vlan (vlan subport : Nat)
  | markMap (subport : Nat) (map : String)
  | profile (profile : Nat) (meter : Meter) (period : Nat)
  | profileClass (profile cls : Nat) (meter : Meter)
  | queue (profile qmap weight : Nat) (priorityLocal : Bool)
  | queueLimit (profile qmap : Nat) (limit : QueueLimit) (wred : List WredMap)
  | classify (profile : Nat) (classifier : Classifier) (qmap : Nat)
  | pipe (subport pipe profile : Nat)
  | rule (subport cls : Nat) (rule : Rule)
  | bind (kind : PortMapKind) (map : String) (vlan : Nat)
  | unbind (kind : PortMapKind) (map : String) (vlan : Nat)
  | enable
  | disable
deriving DecidableEq, Repr

namespace PortDirective

def operation : PortDirective → Operation
  | .unbind .. | .disable => .delete
  | _ => .set

/-- The steps of the configuration path below the interface. -/
def pathSteps : PortDirective → List String
  | .header .. => ["port"]
  | .subport s .. => [s!"subport/{s}"]
  | .subportClass s c _ => [s!"subport/{s}/queue/{c}"]
  | .subportLimit s c .. => [s!"param/subport/{s}/{c}"]
  | .vlan v _ => [s!"vlan/{v}"]
  | .markMap s _ => [s!"subport/{s}/mark-map"]
  | .profile p .. => [s!"profile/{p}"]
  | .profileClass p c _ => [s!"profile/{p}/queue/{c}"]
  | .queue p q .. => [s!"profile/{p}/queue/{Qmap.tableText q}"]
  | .queueLimit p q .. => [s!"param/{p}/{Qmap.tableText q}"]
  | .classify p c _ => [s!"profile/{p}/map/{c.path}"]
  | .pipe s p _ => [s!"pipe/{s}/{p}"]
  | .rule s c r => [s!"match/{s}/{c}/{r.id}"]
  | .bind k m v | .unbind k m v => [s!"{k.keyword}/{m}/vlan/{v}"]
  | .enable => ["enable"]
  | .disable => []

/-- The text after the name of the interface. -/
def text : PortDirective → String
  | .header n m k o limits =>
    s!"port subports {n} pipes {m} profiles {k} overhead {o} {limits.portText}"
  | .subport s m t => s!"subport {s}{m.text} period {t}"
  | .subportClass s c m => s!"subport {s} queue {c}{m.text}"
  | .subportLimit s c l w => s!"param subport {s} {c} {l.text}" ++ (w.map Wred.text).getD ""
  | .vlan v s => s!"vlan {v} {s}"
  | .markMap s m => s!"subport {s} mark-map {m}"
  | .profile p m t => s!"profile {p}{m.text} period {t}"
  | .profileClass p c m => s!"profile {p} queue {c}{m.text}"
  | .queue p q w priorityLocal =>
    s!"profile {p} queue {Qmap.tableText q} wrr-weight {w}" ++ if priorityLocal then " prio-loc" else ""
  | .queueLimit p q l ws =>
    s!"param {p} {Qmap.tableText q} {l.text}" ++ String.join (ws.map WredMap.text)
  | .classify p c q => s!"profile {p} {c.text q}"
  | .pipe s p k => s!"pipe {s} {p} {k}"
  | .rule s c r => s!"match {s} {c} {r.text c}"
  | .bind k m v => s!"{k.keyword} {m} vlan {v}"
  | .unbind k m v => s!"{k.keyword} {m} vlan {v} delete"
  | .enable => "enable"
  | .disable => "disable"

def command (d : PortDirective) (ifname : String) : Command where
  operation := d.operation
  target := ifname
  text := s!"qos {ifname} {d.text}"
  path := String.intercalate "/" ("qos" :: ifname :: d.pathSteps)

end PortDirective

/-- Objects that are provisioned under a name of their own. -/
inductive ObjectKind where
  | markMap
  | ingressMap
  | egressMap
  | actionGroup
deriving DecidableEq, Repr

def ObjectKind.keyword : ObjectKind → String
  | .markMap => "mark-map"
  | .ingressMap => PortMapKind.ingress.keyword
  | .egressMap => PortMapKind.egress.keyword
  | .actionGroup => "action-group"

/-- Switches of the whole platform. -/
inductive PlatformSwitch where
  | bufferThreshold
  | localPriority
deriving DecidableEq, Repr

def PlatformSwitch.keyword : PlatformSwitch → String
  | .bufferThreshold => "buf-threshold"
  | .localPriority => "lp-des"

/-- One typed command. -/
inductive Instruction where
  | port (ifname : String) (directive : PortDirective)
  /-- One line of the definition of an object. -/
  | define (kind : ObjectKind) (name body : String)
  | remove (kind : ObjectKind) (name : String)
  | setSwitch (switch : PlatformSwitch) (value : Nat)
  | clearSwitch (switch : PlatformSwitch)
  | commit
deriving DecidableEq, Repr

namespace Instruction

def objectPath (kind : ObjectKind) (name : String) : String :=
  s!"qos/global-object/{kind.keyword}/{name}"

def switchPath (switch : PlatformSwitch) : String := s!"qos/global-object/{switch.keyword}"

def command : Instruction → Command
  | .port ifname d => d.command ifname
  | .define kind name body =>
    ⟨.set, everyTarget, s!"qos global-object-cmd {kind.keyword} {name} {body}", objectPath kind name⟩
  | .remove kind name =>
    ⟨.delete, everyTarget, s!"qos global-object-cmd {kind.keyword} {name} delete", objectPath kind name⟩
  | .setSwitch switch value =>
    ⟨.set, everyTarget, s!"qos global-object-cmd {switch.keyword} {value}", switchPath switch⟩
  | .clearSwitch switch =>
    ⟨.delete, everyTarget, s!"qos global-object-cmd {switch.keyword} delete", switchPath switch⟩
  | .commit => ⟨.set, everyTarget, "qos commit", "qos/commit"⟩

end Instruction

/-- Where an object is used: an interface and a VLAN of it, the trunk being VLAN 0. -/
structure Binding where
  ifname : String
  vlan : Nat
deriving DecidableEq, Repr

def Binding.text (b : Binding) : String := s!"{b.ifname} vlan {b.vlan}"

end QosControl
