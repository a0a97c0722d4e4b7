import Gem5.Base.AddrRangeMap

/-!
# Inclusion in an interleaved range

`AddrRange::isSubset` looks at the first and the last address of a plain range and
compares its size with the granularity of the other range.  The masks select bits above
the granularity only, so a granule is contained as a whole or not at all, and a range that
is no larger touches at most two granules.  A larger range is always refused, but two
neighbouring granules can have the same parities.
-/

namespace Gem5

namespace AddrRange

variable {q r : AddrRange} {a b : Addr}

section

variable (nonzero : r.combinedMask ≠ 0)

include nonzero

end

section

variable (plain : q.interleaved = false) (inhabited : q.Inhabited)

include plain inhabited

end

/-- Two granules whose selecting bits are 01 and 10. -/
def paired : AddrRange := ⟨0, 0x400, [0xC0], 1, by decide⟩

end AddrRange

end Gem5
