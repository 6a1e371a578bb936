set_option autoImplicit false

/-! # Mixing a square of sixteen words

Several primitives keep sixteen words as a four by four square and mix it four words at a
time: first the four columns, then the four diagonals. They differ only in how four words
are mixed. This file holds the pattern.
-/

namespace AgileSeal

/-- Four places of the square. -/
structure Quartet where
  a : Fin 16
  b : Fin 16
  c : Fin 16
  d : Fin 16

namespace Quartet

/-- The four columns of the square, then its four diagonals. -/
def columnsThenDiagonals : List Quartet := [
  ⟨0, 4, 8, 12⟩, ⟨1, 5, 9, 13⟩, ⟨2, 6, 10, 14⟩, ⟨3, 7, 11, 15⟩,
  ⟨0, 5, 10, 15⟩, ⟨1, 6, 11, 12⟩, ⟨2, 7, 8, 13⟩, ⟨3, 4, 9, 14⟩]

/-- Replaces the four words at the places of the quartet by their mix. -/
@[inline] def update {W : Type} (q : Quartet) (mix : W → W → W → W → W × W × W × W)
    (square : Vector W 16) : Vector W 16 :=
  match mix (square.get q.a) (square.get q.b) (square.get q.c) (square.get q.d) with
  | (a, b, c, d) => (((square.set q.a a).set q.b b).set q.c c).set q.d d

end Quartet

/-- Mixes the whole square once: every column, then every diagonal. -/
@[inline] def mixSquare {W : Type} (mix : W → W → W → W → W × W × W × W)
    (square : Vector W 16) : Vector W 16 :=
  Quartet.columnsThenDiagonals.foldl (fun s q => q.update mix s) square

end AgileSeal
