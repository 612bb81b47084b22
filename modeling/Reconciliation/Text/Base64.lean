/-! # Bytes written in base 64

Four characters stand for three bytes. Characters that are no digits are passed over.
-/
namespace Reconciliation.Text.Base64

def digits : List Char :=
  "ABCDEFGHIJKLMNOPQRSTUVWXYZabcdefghijklmnopqrstuvwxyz0123456789+/".toList

/-- How many digits of a group are read, the bits of the last one that are left, and how many
padding marks in a row came after it. -/
structure Group where
  read : Nat := 0
  left : Nat := 0
  pads : Nat := 0

def Group.next (g : Group) (d : Nat) : Option UInt8 × Group :=
  match g.read with
  | 0 => (none, ⟨1, d, 0⟩)
  | 1 => (some (UInt8.ofNat (g.left * 4 + d / 16)), ⟨2, d % 16, 0⟩)
  | 2 => (some (UInt8.ofNat (g.left * 16 + d / 4)), ⟨3, d % 4, 0⟩)
  | _ => (some (UInt8.ofNat (g.left * 64 + d)), {})

/-- A group of two or three digits is completed by padding, which ends the bytes. -/
def decodeFrom (g : Group) : List Char → Option (List UInt8)
  | [] => if g.read = 0 then some [] else none
  | c :: cs =>
    if c = '=' then
      if g.read < 2 then decodeFrom g cs
      else if 4 ≤ g.read + g.pads + 1 then some []
      else decodeFrom { g with pads := g.pads + 1 } cs
    else match digits.idxOf? c with
      | none => decodeFrom g cs
      | some d =>
        let (byte, g) := g.next d
        (decodeFrom g cs).map (byte.toList ++ ·)

def decode? (cs : List Char) : Option (List UInt8) := decodeFrom {} cs

end Reconciliation.Text.Base64
