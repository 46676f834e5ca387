import Mathlib.Tactic.FinCases
import MelonDS.ARM.Architecture

/-!
# The banks refine the architectural registers

`place` says which cell holds an architectural register while a bank is selected. The
swaps of a mode change move every register to its new place, so that what the arrays
show of the architectural registers does not change.
-/

namespace MelonDS.ARM

variable {σ : Type*} {core : Core σ}

/-! Where the registers are -/

def place (b : Bank) : ArchReg → Cell
  | .low i => .r (i.castLE (by decide))
  | .usr i =>
    match b with
    | .usr => .r (Fin.ofNat 16 (8 + i))
    | .fiq => .rFIQ (Fin.ofNat 8 i)
    | .exc m => if i.val < 5 then .r (Fin.ofNat 16 (8 + i)) else .rExc m (Fin.ofNat 3 (i - 5))
  | .fiq i => if b = .fiq then .r (Fin.ofNat 16 (8 + i)) else .rFIQ (Fin.ofNat 8 i)
  | .exc m i => if b = .exc m then .r (Fin.ofNat 16 (13 + i)) else .rExc m (Fin.ofNat 3 i)
  | .pc => .r 15
  | .spsrFIQ => .rFIQ 7
  | .spsr m => .rExc m 2

/-- The register that a cell holds. -/
def held (b : Bank) : Cell → ArchReg
  | .r i => named b i
  | .rFIQ i =>
    if i = 7 then .spsrFIQ
    else if b = .fiq then .usr (Fin.ofNat 7 i) else .fiq (Fin.ofNat 7 i)
  | .rExc m i =>
    if i = 2 then .spsr m
    else if b = .exc m then .usr (Fin.ofNat 7 (5 + i)) else .exc m (Fin.ofNat 2 i)

theorem held_place (b : Bank) (x : ArchReg) : held b (place b x) = x := by
  cases x with
  | low i =>
    cases b with
    | usr => revert i; decide
    | fiq => revert i; decide
    | exc m => cases m <;> revert i <;> decide
  | pc => rfl
  | spsrFIQ => rfl
  | spsr m => rfl
  | usr i =>
    cases b with
    | usr => revert i; decide
    | fiq => revert i; decide
    | exc m => cases m <;> revert i <;> decide
  | fiq i =>
    cases b with
    | usr => revert i; decide
    | fiq => revert i; decide
    | exc m => cases m <;> revert i <;> decide
  | exc m i =>
    cases b with
    | usr => cases m <;> revert i <;> decide
    | fiq => cases m <;> revert i <;> decide
    | exc m' => cases m <;> cases m' <;> revert i <;> decide

theorem place_injective (b : Bank) : Function.Injective (place b) :=
  Function.LeftInverse.injective (held_place b)

theorem place_named (b : Bank) (i : Fin 16) : place b (named b i) = .r i := by
  cases b with
  | usr => revert i; decide
  | fiq => revert i; decide
  | exc m => cases m <;> revert i <;> decide

/-! Mode changes -/

/-- The swaps that select a bank, and put it back. -/
def swapFor (b : Bank) (c : CPU σ) : CPU σ :=
  match b with
  | .usr => c
  | .fiq => ((((((c.swap (.r 8) (.rFIQ 0)).swap (.r 9) (.rFIQ 1)).swap (.r 10) (.rFIQ 2)).swap
      (.r 11) (.rFIQ 3)).swap (.r 12) (.rFIQ 4)).swap (.r 13) (.rFIQ 5)).swap (.r 14) (.rFIQ 6)
  | .exc m => (c.swap (.r 13) (.rExc m 0)).swap (.r 14) (.rExc m 1)

theorem mode_cases (psr : U32) : ∃ n : Fin 32, psr &&& 0x1F = BitVec.ofNat 32 n := by
  have hlt : (psr &&& 0x1F).toNat < 32 := by
    rw [BitVec.toNat_and]
    exact Nat.and_lt_two_pow (n := 5) psr.toNat (by decide)
  refine ⟨⟨_, hlt⟩, ?_⟩
  rw [BitVec.ofNat_toNat, BitVec.setWidth_eq]

theorem swapBank_eq (mode : U32) (c : CPU σ) : swapBank mode c = swapFor (bankOf mode) c := by
  obtain ⟨n, hn⟩ := mode_cases mode
  rw [swapBank, bankOf, hn]
  fin_cases n <;> rfl

theorem swapFor_keeps (b : Bank) (c : CPU σ) : (swapFor b c).cpsr = c.cpsr ∧
    (swapFor b c).highVectors = c.highVectors ∧ (swapFor b c).bus = c.bus := by
  cases b with
  | usr | fiq | exc m => exact ⟨rfl, rfl, rfl⟩

theorem swapFor_place (b : Bank) (c : CPU σ) (x : ArchReg) :
    (swapFor b c).cells (place b x) = c.cells (place .usr x) ∧
      (swapFor b c).cells (place .usr x) = c.cells (place b x) := by
  cases b with
  | usr => exact ⟨rfl, rfl⟩
  | fiq =>
    cases x with
    | low i => fin_cases i <;> exact ⟨rfl, rfl⟩
    | usr i => fin_cases i <;> exact ⟨rfl, rfl⟩
    | fiq i => fin_cases i <;> exact ⟨rfl, rfl⟩
    | exc m i => fin_cases i <;> exact ⟨rfl, rfl⟩
    | pc | spsrFIQ | spsr m => exact ⟨rfl, rfl⟩
  | exc m =>
    cases x with
    | low i => fin_cases i <;> exact ⟨rfl, rfl⟩
    | usr i => cases m <;> fin_cases i <;> exact ⟨rfl, rfl⟩
    | fiq i => fin_cases i <;> exact ⟨rfl, rfl⟩
    | exc m' i => cases m <;> cases m' <;> fin_cases i <;> exact ⟨rfl, rfl⟩
    | pc | spsrFIQ => exact ⟨rfl, rfl⟩
    | spsr m' => cases m <;> cases m' <;> exact ⟨rfl, rfl⟩

/-- What a change of bank moves where the registers now are. -/
theorem swapBank_place (oldmode newmode : U32) (c : CPU σ) (x : ArchReg) :
    (swapBank newmode (swapBank oldmode c)).cells (place (bankOf newmode) x) =
      c.cells (place (bankOf oldmode) x) := by
  rw [swapBank_eq, swapBank_eq, (swapFor_place _ _ x).1, (swapFor_place _ _ x).2]

theorem bankOf_congr {psr psr' : U32} (h : psr &&& 0x1F = psr' &&& 0x1F) :
    bankOf psr = bankOf psr' := by
  rw [bankOf, bankOf, h]

theorem updateMode_place (oldmode newmode : U32) (phony : Bool) (c : CPU σ) (x : ArchReg) :
    (updateMode core oldmode newmode phony c).cells (place (bankOf newmode) x) =
      c.cells (place (bankOf oldmode) x) := by
  rw [updateMode]
  split
  · next h => rw [bankOf_congr h]
  · dsimp only
    split
    · exact swapBank_place oldmode newmode c x
    · exact swapBank_place oldmode newmode c x

theorem swapBank_keeps (mode : U32) (c : CPU σ) : (swapBank mode c).cpsr = c.cpsr ∧
    (swapBank mode c).highVectors = c.highVectors ∧ (swapBank mode c).bus = c.bus := by
  rw [swapBank_eq]
  exact swapFor_keeps _ c

theorem updateMode_keeps (core : Core σ) (oldmode newmode : U32) (phony : Bool) (c : CPU σ) :
    (updateMode core oldmode newmode phony c).cpsr = c.cpsr ∧
      (updateMode core oldmode newmode phony c).highVectors = c.highVectors ∧
      (updateMode core oldmode newmode phony c).bus =
        if oldmode &&& 0x1F ≠ newmode &&& 0x1F ∧ phony = false ∧ core.num = .arm9 then
          core.selectMap (newmode &&& 0x1F = 0x10) c.bus
        else c.bus := by
  obtain ⟨hcpsr, hvec, hbus⟩ := swapBank_keeps oldmode c
  obtain ⟨hcpsr', hvec', hbus'⟩ := swapBank_keeps newmode (swapBank oldmode c)
  rw [updateMode]
  by_cases hmode : oldmode &&& 0x1F = newmode &&& 0x1F
  · rw [if_pos hmode, if_neg (fun h => h.1 hmode)]
    exact ⟨rfl, rfl, rfl⟩
  · rw [if_neg hmode]
    have hiff : (!phony && decide (core.num = .arm9)) = true ↔
        phony = false ∧ core.num = .arm9 := by
      cases phony <;> simp
    by_cases hsel : phony = false ∧ core.num = .arm9
    · rw [if_pos (hiff.mpr hsel), if_pos ⟨hmode, hsel⟩]
      refine ⟨hcpsr'.trans hcpsr, hvec'.trans hvec, ?_⟩
      dsimp only
      rw [hbus', hbus]
    · rw [if_neg (fun h => hsel (hiff.mp h)), if_neg (fun h => hsel h.2)]
      exact ⟨hcpsr'.trans hcpsr, hvec'.trans hvec, hbus'.trans hbus⟩

/-! The architectural view -/

def view (c : CPU σ) : Arch σ where
  regs x := c.cells (place (bankOf c.cpsr) x)
  cpsr := c.cpsr
  highVectors := c.highVectors
  bus := c.bus

theorem view_set (c : CPU σ) (x : ArchReg) (v : U32) :
    view (c.set (place (bankOf c.cpsr) x) v) = (view c).set x v := by
  have hregs : (fun y => Function.update c.cells (place (bankOf c.cpsr) x) v
      (place (bankOf c.cpsr) y)) = Function.update (view c).regs x v :=
    Function.update_comp_eq_of_injective c.cells (place_injective _) x v
  rw [Arch.set, ← hregs]
  rfl

theorem get_reg (c : CPU σ) (i : Fin 16) : c.get (.r i) = (view c).get ((view c).reg i) :=
  congrArg c.cells (place_named (bankOf c.cpsr) i).symm

theorem view_set_reg (c : CPU σ) (i : Fin 16) (v : U32) :
    view (c.set (.r i) v) = (view c).set ((view c).reg i) v := by
  rw [← place_named (bankOf c.cpsr) i, view_set]
  rfl

/-- Writing the status register within a bank writes nothing else. -/
theorem view_setCPSR {c : CPU σ} {psr : U32} (h : bankOf psr = bankOf c.cpsr) :
    view { c with cpsr := psr } = { view c with cpsr := psr } := by
  rw [view, view]
  dsimp only
  rw [h]

theorem view_changeMode (core : Core σ) (psr : U32) (c : CPU σ) :
    view (changeMode core psr c) = (view c).changeMode core psr := by
  obtain ⟨hcpsr, hvec, hbus⟩ := updateMode_keeps core c.cpsr psr false
    { c with cpsr := psr }
  have hregs : (fun x => (changeMode core psr c).cells (place (bankOf psr) x)) = (view c).regs :=
    funext (updateMode_place c.cpsr psr false { c with cpsr := psr })
  rw [changeMode] at hregs ⊢
  rw [view, Arch.changeMode, hcpsr, hvec, hbus, hregs]
  simp only [true_and]
  rfl

end MelonDS.ARM
