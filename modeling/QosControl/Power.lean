/-! # Powers

Powers of the two bases in which words and numerals are counted.
-/
namespace QosControl

def twoTo (n : Nat) : Nat := Nat.pow 2 n

def tenTo (n : Nat) : Nat := Nat.pow 10 n

end QosControl
