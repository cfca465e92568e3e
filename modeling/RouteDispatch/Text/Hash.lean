/-!
# Segment hash

The 64-bit FNV-1a hash of the UTF-8 form of a text.  Path segments and parameter names are indexed
by it; a look-up always compares the texts as well, so two texts with one hash are never confused.
-/

namespace RouteDispatch
namespace Text

/-- One step of the hash: the byte is mixed in first, then the product wraps at 64 bits. -/
def hashStep (h : UInt64) (byte : UInt8) : UInt64 :=
  (h ^^^ byte.toUInt64) * 0x100000001b3

def segmentHash (s : String) : UInt64 :=
  s.toUTF8.toList.foldl hashStep 0xcbf29ce484222325

end Text
end RouteDispatch
