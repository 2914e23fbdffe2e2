/-! # Schema names

The qualified names of the containers of a configuration tree.
-/
namespace QosControl.Schema

def policy : String := "vyatta-policy-v1:policy"
def qos : String := "vyatta-policy-qos-v1:qos"
def action : String := "vyatta-policy-action-v1:action"
def resources : String := "vyatta-resources-v1:resources"
def resourceGroup : String := "vyatta-resources-group-misc-v1:group"
def dscpGroup : String := "vyatta-resources-dscp-group-v1:dscp-group"
def interfaces : String := "vyatta-interfaces-v1:interfaces"
def dataplane : String := "vyatta-interfaces-dataplane-v1:dataplane"
def bonding : String := "vyatta-interfaces-bonding-v1:bonding"
def interfacePolicy : String := "vyatta-interfaces-policy-v1:policy"
def ingressMap : String := "vyatta-policy-qos-v1:ingress-map"
def egressMap : String := "vyatta-policy-qos-v1:egress-map"

end QosControl.Schema
