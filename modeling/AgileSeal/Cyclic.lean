set_option autoImplicit false

/-! # Reading a vector around its end

Several primitives index a state by sums and products that run past its size and mean the
remainder. `cyclic` reads a non-empty vector that way, so no index is ever out of bounds.
-/

namespace AgileSeal

/-- The entry at `i`, counted from the start again past the end. -/
@[inline] def cyclic {α : Type} {n : Nat} (v : Vector α (n + 1)) (i : Nat) : α :=
  v.get (Fin.ofNat (n + 1) i)

end AgileSeal
