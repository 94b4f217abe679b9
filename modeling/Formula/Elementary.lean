import Formula.Binary64.Basic

/-!
# Elementary functions

The sine and the power of floating-point numbers are not computed by this library: they belong to
the machine.  `Elementary` is what the machine has to offer, and everything that depends on it takes
it as an argument.  What has to be known of the two functions is then a hypothesis about an
`Elementary`, and never a property of a particular machine.

`Elementary.native` is the machine that the program runs on.
-/

set_option autoImplicit false

namespace Formula

/-- The elementary functions of a machine. -/
structure Elementary where
  /-- The sine of an angle in radians. -/
  sin : Binary64 → Binary64
  /-- The first number to the power of the second. -/
  pow : Binary64 → Binary64 → Binary64

namespace Elementary

/-- The number as the machine holds it. -/
def load (x : Binary64) : Float := Float.ofBits x.bits

/-- A number that the machine holds. -/
def store (x : Float) : Binary64 := ⟨x.toBits⟩

/-- The elementary functions of the machine that the program runs on. -/
def native : Elementary where
  sin x := store (load x).sin
  pow x y := store ((load x).pow (load y))

end Elementary

end Formula
