import MelonDS.Types

/-!
# Memories

Byte-addressed memories, their accesses, and passes that work on them block by block.
-/

/-!
## Byte-addressed memories

An access of `n` bytes is kept as those bytes in memory order. A `*(T*)&mem[a]` is
then `load` and an assignment through it is `store`; `copyBlocks` is the loop that
fills `m` consecutive blocks of `n` bytes.
-/

namespace MelonDS

abbrev Mem := ℕ → U8

/-- The bytes of a value of `n` bytes, in memory order. -/
abbrev Bytes (n : ℕ) := Fin n → U8

namespace Mem

def load (n : ℕ) (mem : Mem) (a : ℕ) : Bytes n := fun k => mem (a + k)

def store {n : ℕ} (mem : Mem) (a : ℕ) (v : Bytes n) : Mem := fun x =>
  if h : a ≤ x ∧ x - a < n then v ⟨x - a, h.2⟩ else mem x

theorem store_of_mem {n : ℕ} (mem : Mem) (a : ℕ) (v : Bytes n) (k : Fin n) :
    mem.store a v (a + k) = v k := by
  have h : a ≤ a + k ∧ a + k - a < n := ⟨Nat.le_add_right _ _, by omega⟩
  rw [store, dif_pos h]
  exact congrArg v (Fin.ext (Nat.add_sub_cancel_left a k))

theorem store_of_not_mem {n : ℕ} (mem : Mem) {a x : ℕ} (v : Bytes n) (h : x < a ∨ a + n ≤ x) :
    mem.store a v x = mem x := by
  apply dif_neg
  omega

/-- `for (i = 0; i < m; i++) *(T*)&mem[a + n*i] = f(i)` -/
def copyBlocks {n : ℕ} (mem : Mem) (a m : ℕ) (f : ℕ → Bytes n) : Mem :=
  (List.range m).foldl (fun mem i => mem.store (a + n * i) (f i)) mem

theorem copyBlocks_succ {n : ℕ} (mem : Mem) (a m : ℕ) (f : ℕ → Bytes n) :
    mem.copyBlocks a (m + 1) f = (mem.copyBlocks a m f).store (a + n * m) (f m) := by
  simp only [copyBlocks, List.range_succ, List.foldl_append, List.foldl_cons, List.foldl_nil]

theorem copyBlocks_of_not_mem {n : ℕ} (mem : Mem) {a m x : ℕ} (f : ℕ → Bytes n)
    (h : x < a ∨ a + n * m ≤ x) : mem.copyBlocks a m f x = mem x := by
  induction m with
  | zero => rfl
  | succ m ih =>
    rw [Nat.mul_succ] at h
    rw [copyBlocks_succ, store_of_not_mem _ _ (by omega), ih (by omega)]

theorem copyBlocks_of_mem {n : ℕ} (mem : Mem) (a : ℕ) {m i : ℕ} (f : ℕ → Bytes n) (h : i < m)
    (k : Fin n) : mem.copyBlocks a m f (a + n * i + k) = f i k := by
  induction m with
  | zero => exact absurd h (Nat.not_lt_zero i)
  | succ m ih =>
    rw [copyBlocks_succ]
    rcases Nat.lt_succ_iff_lt_or_eq.mp h with hlt | rfl
    · have hblock : n * i + n ≤ n * m := by
        rw [← Nat.mul_succ]
        exact Nat.mul_le_mul_left n hlt
      have hk := k.isLt
      rw [store_of_not_mem _ _ (by omega), ih hlt]
    · exact store_of_mem _ _ _ _

end Mem
end MelonDS

/-!
## Working on a memory block by block

`mapBlocks` passes over `m` consecutive blocks of `n` bytes and replaces each by a function of
itself. The blocks do not overlap, so each sees what was there before the pass.
-/

namespace MelonDS.Mem

variable {n : ℕ}

/-- `f(&mem[a])` -/
def mapBlock (f : Bytes n → Bytes n) (a : ℕ) (mem : Mem) : Mem := mem.store a (f (mem.load n a))

/-- `for (i = 0; i < m; i++) f(&mem[a + n*i])` -/
def mapBlocks (f : Bytes n → Bytes n) (a m : ℕ) (mem : Mem) : Mem :=
  (List.range m).foldl (fun mem i => mem.mapBlock f (a + n * i)) mem

theorem load_store (mem : Mem) (a : ℕ) (v : Bytes n) : (mem.store a v).load n a = v := by
  funext k
  exact store_of_mem mem a v k

theorem load_store_of_disjoint (mem : Mem) {a b : ℕ} (v : Bytes n) (h : a + n ≤ b ∨ b + n ≤ a) :
    (mem.store a v).load n b = mem.load n b := by
  funext k
  have hk := k.isLt
  exact store_of_not_mem mem v (by omega)

theorem load_copyBlocks (mem : Mem) (a : ℕ) {m i : ℕ} (f : ℕ → Bytes n) (h : i < m) :
    (mem.copyBlocks a m f).load n (a + n * i) = f i := by
  funext k
  exact copyBlocks_of_mem mem a f h k

theorem load_copyBlocks_of_le (mem : Mem) (a : ℕ) {m i : ℕ} (f : ℕ → Bytes n) (h : m ≤ i) :
    (mem.copyBlocks a m f).load n (a + n * i) = mem.load n (a + n * i) := by
  funext k
  have hrow : n * m ≤ n * i := Nat.mul_le_mul_left n h
  exact copyBlocks_of_not_mem mem f (by omega)

/-- The pass in place is a copy of what each block becomes. -/
theorem mapBlocks_eq_copyBlocks (f : Bytes n → Bytes n) (a m : ℕ) (mem : Mem) :
    mem.mapBlocks f a m = mem.copyBlocks a m fun i => f (mem.load n (a + n * i)) := by
  induction m with
  | zero => rfl
  | succ m ih =>
    have hpass : mem.mapBlocks f a (m + 1) = (mem.mapBlocks f a m).mapBlock f (a + n * m) := by
      simp [mapBlocks, List.range_succ]
    rw [hpass, ih, mapBlock, load_copyBlocks_of_le _ _ _ (le_refl m), copyBlocks_succ]

theorem load_mapBlocks (f : Bytes n → Bytes n) (a : ℕ) {m i : ℕ} (mem : Mem) (h : i < m) :
    (mem.mapBlocks f a m).load n (a + n * i) = f (mem.load n (a + n * i)) := by
  rw [mapBlocks_eq_copyBlocks, load_copyBlocks _ _ _ h]

@[simp] theorem load_mapBlock (f : Bytes n → Bytes n) (a : ℕ) (mem : Mem) :
    (mem.mapBlock f a).load n a = f (mem.load n a) := load_store mem a _

/-- A byte of a row of blocks is a byte of a block. -/
theorem eq_of_load_eq {mem mem' : Mem} {a b m : ℕ} (hn : 0 < n)
    (h : ∀ i < m, mem.load n (a + n * i) = mem'.load n (b + n * i)) :
    ∀ x < n * m, mem (a + x) = mem' (b + x) := by
  intro x hx
  have hblock : x / n < m := Nat.div_lt_of_lt_mul hx
  have hsplit := Nat.div_add_mod x n
  have hbyte := congrFun (h (x / n) hblock) ⟨x % n, Nat.mod_lt x hn⟩
  simp only [load, Nat.add_assoc, hsplit] at hbyte
  exact hbyte

end MelonDS.Mem
