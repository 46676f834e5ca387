import Mathlib.Data.BitVec

/-!
# Feistel networks with whitened output

A round xors a key into the right half, mixes the result into the left half and swaps. After the
rounds two more keys are xored in. Such a network run with its keys in the opposite order undoes
itself, whatever the mixing function is.
-/

namespace MelonDS.Feistel

variable {w : ℕ}

/-- A round on the halves `(x, y)`. -/
def round (mix : BitVec w → BitVec w) (key : BitVec w) (s : BitVec w × BitVec w) :
    BitVec w × BitVec w :=
  let z := key ^^^ s.1
  (mix z ^^^ s.2, z)

def rounds (mix : BitVec w → BitVec w) (key : ℕ → BitVec w) (n : ℕ) (s : BitVec w × BitVec w) :
    BitVec w × BitVec w :=
  (List.range n).foldl (fun s i => round mix (key i) s) s

/-- The halves come in swapped, and go out under two more keys. -/
def crypt (mix : BitVec w → BitVec w) (key : ℕ → BitVec w) (n : ℕ) (d : BitVec w × BitVec w) :
    BitVec w × BitVec w :=
  let s := rounds mix key n (d.2, d.1)
  (s.1 ^^^ key n, s.2 ^^^ key (n + 1))

/-- The keys of `n` rounds and of the whitening, last one first. -/
def flip (key : ℕ → BitVec w) (n i : ℕ) : BitVec w := key (n + 1 - i)

variable {mix : BitVec w → BitVec w} {key : ℕ → BitVec w}

@[simp] theorem rounds_zero (s : BitVec w × BitVec w) : rounds mix key 0 s = s := rfl

theorem rounds_succ (n : ℕ) (s : BitVec w × BitVec w) :
    rounds mix key (n + 1) s = round mix (key n) (rounds mix key n s) := by
  simp [rounds, List.range_succ]

theorem rounds_congr {key' : ℕ → BitVec w} {n : ℕ} (h : ∀ i < n, key i = key' i)
    (s : BitVec w × BitVec w) : rounds mix key n s = rounds mix key' n s := by
  induction n with
  | zero => rfl
  | succ n ih =>
    have hrest := ih fun i hi => h i (Nat.lt_succ_of_lt hi)
    rw [rounds_succ, rounds_succ, h n (Nat.lt_succ_self n), hrest]

theorem crypt_congr {key' : ℕ → BitVec w} {n : ℕ} (h : ∀ i < n + 2, key i = key' i)
    (d : BitVec w × BitVec w) : crypt mix key n d = crypt mix key' n d := by
  have hbelow : ∀ i < n, key i = key' i := fun i hi => h i (by omega)
  have hrounds : rounds mix key n (d.2, d.1) = rounds mix key' n (d.2, d.1) :=
    rounds_congr hbelow _
  rw [crypt, crypt, hrounds, h n (by omega), h (n + 1) (by omega)]

/-- Where the opposite run stands when `m` rounds are left to undo. -/
def undone (a b : BitVec w) (s : BitVec w × BitVec w) : BitVec w × BitVec w :=
  (s.2 ^^^ b, s.1 ^^^ a)

theorem round_undone (a b k : BitVec w) (s : BitVec w × BitVec w) :
    round mix b (undone a b (round mix k s)) = undone k a s := by
  simp only [round, undone, Prod.mk.injEq]
  constructor
  · have hz : b ^^^ (k ^^^ s.1 ^^^ b) = k ^^^ s.1 := by
      rw [BitVec.xor_comm, BitVec.xor_assoc, BitVec.xor_self, BitVec.xor_zero]
    rw [hz, BitVec.xor_assoc, ← BitVec.xor_assoc, BitVec.xor_self, BitVec.zero_xor]
  · rw [BitVec.xor_comm b, BitVec.xor_assoc, BitVec.xor_self, BitVec.xor_zero, BitVec.xor_comm]

/-- `m` rounds of the opposite run undo the last `m` rounds. -/
theorem rounds_flip {n m : ℕ} (hm : m ≤ n) (s : BitVec w × BitVec w) :
    rounds mix (flip key n) m (undone (key n) (key (n + 1)) (rounds mix key n s)) =
      undone (key (n - m)) (key (n - m + 1)) (rounds mix key (n - m) s) := by
  induction m with
  | zero => rfl
  | succ m ih =>
    obtain ⟨j, rfl⟩ : ∃ j, n = j + m + 1 := ⟨n - m - 1, by omega⟩
    have hleft : j + m + 1 - m = j + 1 := by omega
    have hrest : j + m + 1 - (m + 1) = j := by omega
    have hkey : flip key (j + m + 1) m = key (j + 1 + 1) := by
      rw [flip]
      congr 1
      omega
    rw [rounds_succ, ih (by omega), hleft, hrest, hkey, rounds_succ, round_undone]

/-- The network with its keys in the opposite order undoes it. -/
theorem crypt_flip (n : ℕ) (d : BitVec w × BitVec w) :
    crypt mix (flip key n) n (crypt mix key n d) = d := by
  have hback := @rounds_flip w mix key n n (le_refl n) (d.2, d.1)
  have hfirst : flip key n n = key 1 := by simp [flip]
  have hlast : flip key n (n + 1) = key 0 := by simp [flip]
  rw [Nat.sub_self, rounds_zero, undone, undone] at hback
  simp only [crypt, hback, hfirst, hlast, BitVec.xor_assoc, BitVec.xor_self, BitVec.xor_zero]

theorem flip_flip {n i : ℕ} (hi : i < n + 2) : flip (flip key n) n i = key i := by
  rw [flip, flip]
  congr 1
  omega

/-- And the other way round. -/
theorem crypt_unflip (n : ℕ) (d : BitVec w × BitVec w) :
    crypt mix key n (crypt mix (flip key n) n d) = d := by
  have hsame : ∀ i < n + 2, key i = flip (flip key n) n i := fun i hi => (flip_flip hi).symm
  rw [crypt_congr hsame, crypt_flip]

end MelonDS.Feistel
