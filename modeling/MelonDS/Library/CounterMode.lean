import Mathlib.Logic.Function.Iterate
import Mathlib.Data.List.Basic

/-!
# Counter mode and block chaining

A block cipher is any function on blocks. Counter mode adds the encryption of a running
counter to each block, and so undoes itself when addition does. Chaining folds the blocks into
one value.
-/

namespace MelonDS

variable {B : Type*} (encrypt : B → B) (next : B → B) (add : B → B → B)

def counterMode : B → List B → List B
  | _, [] => []
  | counter, b :: bs => add b (encrypt counter) :: counterMode (next counter) bs

/-- The chaining value after the blocks. -/
def chain (value : B) (blocks : List B) : B :=
  blocks.foldl (fun value b => encrypt (add value b)) value

variable {encrypt next add}

@[simp] theorem length_counterMode (counter : B) (blocks : List B) :
    (counterMode encrypt next add counter blocks).length = blocks.length := by
  induction blocks generalizing counter with
  | nil => rfl
  | cons b bs ih => simp [counterMode, ih]

theorem counterMode_concat (counter : B) (blocks : List B) (b : B) :
    counterMode encrypt next add counter (blocks ++ [b]) =
      counterMode encrypt next add counter blocks ++
        [add b (encrypt (next^[blocks.length] counter))] := by
  induction blocks generalizing counter with
  | nil => rfl
  | cons a bs ih =>
    rw [List.cons_append, counterMode, ih]
    rfl

theorem chain_concat (value : B) (blocks : List B) (b : B) :
    chain encrypt add value (blocks ++ [b]) = encrypt (add (chain encrypt add value blocks) b) := by
  simp [chain]

/-- Counter mode with the same counter gives the blocks back. -/
theorem counterMode_involutive (hadd : ∀ a b, add (add a b) b = a) (counter : B) (blocks : List B) :
    counterMode encrypt next add counter (counterMode encrypt next add counter blocks) = blocks := by
  induction blocks generalizing counter with
  | nil => rfl
  | cons b bs ih => simp only [counterMode, hadd, ih]

end MelonDS
