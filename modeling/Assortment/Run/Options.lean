/-!
# Options of runs

A run may leave out optional fields that have no valid candidate, which would otherwise empty the
whole product, and it may be refused when it would produce more variations than a limit.  A limit
is an unsigned word of 64 bits.
-/

namespace Assortment

/-- The choices that govern how a run treats empty fields and large products. -/
structure Options where
  /-- Leave optional fields without a valid candidate out of the product. -/
  dropEmptyOptional : Bool := false
  /-- The largest number of variations that a run may produce, if there is a limit. -/
  limit : Option UInt64 := none
  deriving DecidableEq

end Assortment
