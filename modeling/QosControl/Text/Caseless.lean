/-! # Letter case

Lowering and comparison of keywords. Names are lowered over ASCII alone.
Rate suffixes are compared under simple case folding, where two letters outside
ASCII fold to a letter that occurs in a keyword: the Kelvin sign and the long s.
-/
namespace QosControl.Text

/-- Lowers the letters A to Z and keeps every other character. -/
def lowerAscii (cs : List Char) : List Char := cs.map Char.toLower

def kelvinSign : Char := '\u212a'

def longS : Char := '\u017f'

/-- Simple case folding, exact on every character that folds to an ASCII letter. -/
def foldChar (c : Char) : Char :=
  if c = kelvinSign then 'k' else if c = longS then 's' else c.toLower

def fold (cs : List Char) : List Char := cs.map foldChar

/-- Full lower case, exact on every character whose lower case is an ASCII letter. -/
def lowerFull (cs : List Char) : List Char :=
  cs.map fun c => if c = kelvinSign then 'k' else c.toLower

end QosControl.Text
