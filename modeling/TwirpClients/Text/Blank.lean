/-!
# Blank and control characters

Two character classes of the Unicode standard, each as its list of ranges, and
trimming: a text without the blank characters at its two ends.
-/

namespace TwirpClients.Text

/-- The ranges of code points with the Unicode property White_Space. -/
def blankRanges : List (Nat × Nat) :=
  [(0x09, 0x0D), (0x20, 0x20), (0x85, 0x85), (0xA0, 0xA0), (0x1680, 0x1680), (0x2000, 0x200A),
    (0x2028, 0x2029), (0x202F, 0x202F), (0x205F, 0x205F), (0x3000, 0x3000)]

/-- The ranges of code points of general category Cc. -/
def controlRanges : List (Nat × Nat) :=
  [(0x00, 0x1F), (0x7F, 0x9F)]

def inRanges (ranges : List (Nat × Nat)) (c : Char) : Bool :=
  ranges.any fun (first, last) => first ≤ c.toNat && c.toNat ≤ last

def isBlank (c : Char) : Bool := inRanges blankRanges c

def isControl (c : Char) : Bool := inRanges controlRanges c

def trim (cs : List Char) : List Char :=
  ((cs.dropWhile isBlank).reverse.dropWhile isBlank).reverse

end TwirpClients.Text
