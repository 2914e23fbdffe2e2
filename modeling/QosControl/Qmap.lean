import QosControl.Text.Numeral

/-! # Queue numbers

A hardware queue number packs a traffic class, the position of a queue among the
queues of its class, and a drop precedence: class in two bits, position in three,
and the precedence above them.
-/
namespace QosControl.Qmap

def encode (cls wrr precedence : Nat) : Nat := precedence * 32 + wrr % 8 * 4 + cls % 4

/-- Class, position and precedence of a queue number. -/
def decode (q : Nat) : Nat × Nat × Nat := (q % 4, q / 4 % 8, q / 32 % 256)

/-- The number of a queue that is not configured: its pipe queue id, a word of 32
bits, in place of class and position. -/
def ofUnconfigured (id precedence : Nat) : Nat := precedence <<< 5 ||| id % twoTo 32

def text (q : Nat) : String := Text.hexadecimal q

/-- The number as the queue table writes it, where zero is a bare digit. -/
def tableText (q : Nat) : String := if q = 0 then "0" else text q

end QosControl.Qmap
