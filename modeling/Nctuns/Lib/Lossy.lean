import Mathlib.Data.List.Basic

/-!
# Lossy channels

`Survives k n l r` says that the messages `r` arrive of the messages `l` sent, in order, when fewer
than `k` in a row are ever lost and `n` were lost in a row before `l`.
-/

namespace Lossy

variable {α : Type*} {k n : Nat} {l r : List α} {a : α}

/-- What survives of a list where never `k` elements behind one another are lost. -/
inductive Survives (k : Nat) : Nat → List α → List α → Prop
  | nil (n : Nat) : Survives k n [] []
  | keep {n : Nat} {a : α} {l r : List α} : Survives k 0 l r → Survives k n (a :: l) (a :: r)
  | lose {n : Nat} {a : α} {l r : List α} : n + 1 < k → Survives k (n + 1) l r →
      Survives k n (a :: l) r

end Lossy
