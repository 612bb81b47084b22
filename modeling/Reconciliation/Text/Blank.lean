/-! # White space -/
namespace Reconciliation.Text

/-- The characters of general white space, the four information separators among them. -/
def isBlank (c : Char) : Bool :=
  let n := c.toNat
  (9 ≤ n && n ≤ 13) || (28 ≤ n && n ≤ 32) || n == 0x85 || n == 0xA0 || n == 0x1680 ||
    (0x2000 ≤ n && n ≤ 0x200A) || n == 0x2028 || n == 0x2029 || n == 0x202F || n == 0x205F ||
    n == 0x3000

def trimLeft (cs : List Char) : List Char := cs.dropWhile isBlank

def trim (s : String) : String :=
  String.ofList (trimLeft (trimLeft s.toList).reverse).reverse

def blank (s : String) : Bool := s.toList.all isBlank

end Reconciliation.Text
