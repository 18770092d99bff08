/-!
# Supply

Buffers and pages are reserved from the system, which may refuse. Which sizes it grants is a
parameter of the allocators. No call makes more than one reservation, so a supply is what the
system answers during one call, and it may be another one from call to call.
-/

namespace HandleAlloc

/-- No reservation is ever larger than the largest signed machine word. -/
def maxReservation : Nat := 9223372036854775807

/-- Which reservations the system grants at the time of a call, by their number of bytes. -/
structure Supply where
  grants : Nat → Bool
  refuses : ∀ size, maxReservation < size → grants size = false

/-- A system that grants every reservation below four exbibytes. -/
def Supply.ample : Supply where
  grants size := size < 4611686018427387904
  refuses size hsize := by
    rw [maxReservation] at hsize
    simp
    omega

/-- A system that has nothing to give. -/
def Supply.exhausted : Supply where
  grants _ := false
  refuses _ _ := rfl

end HandleAlloc
