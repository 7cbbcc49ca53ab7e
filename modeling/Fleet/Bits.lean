/-!
Numbers of a fixed width.
-/

namespace Fleet

/-- Numbers of so many bits lie below this one. -/
def bitBound (bits : Nat) : Nat := Nat.pow 2 bits

@[simp] theorem bitBound_31 : bitBound 31 = 2147483648 := rfl
@[simp] theorem bitBound_63 : bitBound 63 = 9223372036854775808 := rfl
@[simp] theorem bitBound_64 : bitBound 64 = 18446744073709551616 := rfl

end Fleet
