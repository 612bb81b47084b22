/-! # The 32-bit cyclic redundancy check of a text -/
namespace Reconciliation.Crc32

/-- One bit of polynomial division, lowest bit first. -/
def shift (r : UInt32) : UInt32 :=
  if r &&& 1 = 1 then (r >>> 1) ^^^ 0xEDB88320 else r >>> 1

def feed (r : UInt32) (byte : UInt8) : UInt32 :=
  shift (shift (shift (shift (shift (shift (shift (shift (r ^^^ byte.toUInt32))))))))

def ofBytes (bytes : List UInt8) : UInt32 :=
  bytes.foldl feed 0xFFFFFFFF ^^^ 0xFFFFFFFF

def ofText (s : String) : UInt32 := ofBytes s.toUTF8.data.toList

end Reconciliation.Crc32
