import QosControl.Text.Blank
import QosControl.Text.Caseless
import QosControl.Text.Numeral

/-! # Packet markings

DSCP code points by number or name, ranges of them, PCP values and IP protocols.
White space around a value is dropped, and names are compared without ASCII case.
-/
namespace QosControl
open Text

def maxCodePoint : Nat := 63

def maxPcp : Nat := 7

def codePointNames : List (String × Nat) :=
  [("default", 0), ("cs0", 0), ("cs1", 8), ("cs2", 16), ("cs3", 24), ("cs4", 32), ("cs5", 40),
   ("cs6", 48), ("cs7", 56), ("af11", 10), ("af12", 12), ("af13", 14), ("af21", 18), ("af22", 20),
   ("af23", 22), ("af31", 26), ("af32", 28), ("af33", 30), ("af41", 34), ("af42", 36),
   ("af43", 38), ("va", 44), ("ef", 46)]

def protocolNames : List (String × Nat) :=
  [("icmp", 1), ("igmp", 2), ("tcp", 6), ("udp", 17), ("gre", 47), ("esp", 50), ("ah", 51),
   ("ipv6-icmp", 58), ("icmpv6", 58), ("ospf", 89), ("pim", 103), ("vrrp", 112), ("l2tp", 115),
   ("sctp", 132)]

def lookupName (names : List (String × Nat)) (cs : List Char) : Option Nat :=
  (names.find? fun n => n.1.toList = lowerAscii cs).map (·.2)

/-- The code point of a number or a name. A number of one byte is never a name. -/
def codePoint? (cs : List Char) : Option Nat :=
  match readByte (trim cs) with
  | some n => if n ≤ maxCodePoint then some n else none
  | none => lookupName codePointNames (trim cs)

/-- The parts before and after the first hyphen. -/
def splitHyphen (cs : List Char) : Option (List Char × List Char) :=
  match cs.dropWhile (· ≠ '-') with
  | [] => none
  | _ :: rest => some (cs.takeWhile (· ≠ '-'), rest)

/-- The code points from `low` to `high`, both included. -/
def codePointsFromTo (low high : Nat) : List Nat := List.range' low (high + 1 - low)

/-- The code points of a single value or of an inclusive range. -/
def codePoints? (s : String) : Option (List Nat) :=
  match splitHyphen s.toList with
  | some (a, b) => do
    let low ← codePoint? a
    let high ← codePoint? b
    if low ≤ high then some (codePointsFromTo low high) else none
  | none => (codePoint? s.toList).map fun n => [n]

def protocolNumber? (s : String) : Option Nat :=
  match readByte (trim s.toList) with
  | some n => some n
  | none => lookupName protocolNames (trim s.toList)

def codePointList (ns : List Nat) : String := String.intercalate "," (ns.map decimal)

end QosControl
