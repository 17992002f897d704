/-!
# Powers

Powers of natural numbers and integers are those of the core library.  Where these instances are
opened a power is the same term whichever algebra is imported beside it.
-/

namespace PlaneReport
namespace Power

scoped instance natural : HPow Nat Nat Nat :=
  @instHPow Nat Nat (@instPowNat Nat instNatPowNat)

scoped instance integer : HPow Int Nat Int :=
  @instHPow Int Nat (@instPowNat Int Int.instNatPow)

end Power
end PlaneReport
