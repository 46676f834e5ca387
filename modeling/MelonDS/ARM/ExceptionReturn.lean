import MelonDS.ARM.BlockTransfers
import MelonDS.ARM.DataProcessingExact
import MelonDS.ARM.RegisterRun

/-!
# Exceptions are transparent

An exception saves the status and the return address in the bank of its mode. A handler that
leaves the other registers as it found them, and gives up that bank with the instruction meant for
it, resumes the program with all of its registers, its status and its program counter, whichever
bank the program was running on.
-/

namespace MelonDS.ARM

variable {σ : Type*} (core : Core σ)

/-! ## Exceptions by instructions -/

/-- The functions of `ARMInterpreter.cpp` for `SWI` and undefined instructions; the debugger is left
out, and `aUNK` is with the multiplies. -/
def enterBank (m : Exc) (mode back vector : U32) (c : CPU σ) : CPU σ :=
  let oldcpsr := c.cpsr
  let c := changeMode core ((oldcpsr &&& ~~~0xBF) ||| mode) c
  let c := c.set (.rExc m 2) oldcpsr
  let c := c.set (.r 14) (c.get (.r 15) - back)
  jumpTo core (c.exceptionBase + vector) false c

def aSVC : CPU σ → CPU σ := enterBank core .svc 0x93 4 0x08
def tSVC : CPU σ → CPU σ := enterBank core .svc 0x93 2 0x08
def tUNK : CPU σ → CPU σ := enterBank core .und 0x9B 2 0x04

/-! ## Entry and return -/

inductive Exception
  | irq | svc | und | prefetch | data
deriving DecidableEq

namespace Exception

def exc : Exception → Exc
  | .irq => .irq
  | .svc => .svc
  | .und => .und
  | .prefetch | .data => .abt

def mode : Exception → U32
  | .irq => 0x92
  | .svc => 0x93
  | .und => 0x9B
  | .prefetch | .data => 0x97

def vector : Exception → U32
  | .irq => 0x18
  | .svc => 0x08
  | .und => 0x04
  | .prefetch => 0x0C
  | .data => 0x10

def enter : Exception → CPU σ → CPU σ
  | .irq, c => triggerIRQ core c
  | .svc, c => if c.thumb then tSVC core c else aSVC core c
  | .und, c => if c.thumb then tUNK core c else aUNK core c
  | .prefetch, c => prefetchAbort core c
  | .data, c => dataAbort core c

/-- How far the saved address is from the program counter. -/
def linkOffset (thumb : Bool) : Exception → U32
  | .irq | .prefetch => if thumb then 2 else 0
  | .data => if thumb then 4 else 0
  | .svc | .und => if thumb then -2 else -4

/-- `SUBS PC, LR, #4`, `SUBS PC, LR, #8` and `MOVS PC, LR` -/
def leave : Exception → CPU σ → CPU σ
  | .irq | .prefetch => implementALU core 0xE25EF004 (.arith .sub) .imm true
  | .data => implementALU core 0xE25EF008 (.arith .sub) .imm true
  | .svc | .und => implementALU core 0xE1B0F00E (.logical .mov) (.regImm .lsl) true

/-- What the return takes off the saved address. -/
def leaveOffset : Exception → U32
  | .irq | .prefetch => 4
  | .data => 8
  | .svc | .und => 0

/-- Where the program goes on: a data abort has its instruction executed again. -/
def resumePC (c : CPU σ) : Exception → U32
  | .data => c.reg 15 - if c.thumb then 2 else 4
  | _ => c.reg 15

end Exception

/-! ## The entry in the architectural view -/

variable {core}

/-- What an entry leaves, if its vector may be executed. -/
structure Exception.Entered (x : Exception) (c e : CPU σ) : Prop where
  mode : e.cpsr &&& 0x1F = x.mode &&& 0x1F
  regs : ∀ y, y ≠ .pc → (view e).regs y = (((view c).set (.spsr x.exc) c.cpsr).set (.exc x.exc 1)
    (c.reg 15 + x.linkOffset c.thumb)).regs y

theorem Exception.bankOf_mode (x : Exception) : bankOf x.mode = .exc x.exc := by
  cases x <;> decide

theorem view_entry {m : Exc} {c : CPU σ} (hbank : bankOf c.cpsr = .exc m) (oldcpsr v : U32) :
    view ((c.set (.rExc m 2) oldcpsr).set (.r 14) v) =
      ((view c).set (.spsr m) oldcpsr).set (.exc m 1) v := by
  have hsaved : view (c.set (.rExc m 2) oldcpsr) = (view c).set (.spsr m) oldcpsr :=
    view_set c (.spsr m) oldcpsr
  have hreg : ((view c).set (.spsr m) oldcpsr).reg 14 = .exc m 1 := by
    rw [Arch.reg]
    change named (bankOf c.cpsr) 14 = _
    rw [hbank]
    rfl
  rw [view_set_reg, hsaved, hreg]

/-- The state in front of the jump to the vector. -/
def Exception.linked (x : Exception) (core : Core σ) (c : CPU σ) : CPU σ :=
  ((changeMode core ((c.cpsr &&& ~~~0xBF) ||| x.mode) c).set (.rExc x.exc 2) c.cpsr).set (.r 14)
    (c.reg 15 + x.linkOffset c.thumb)

theorem Exception.view_linked (x : Exception) (core : Core σ) (c : CPU σ) :
    (x.linked core c).cpsr &&& 0x1F = x.mode &&& 0x1F ∧
      (view (x.linked core c)).regs = (((view c).set (.spsr x.exc) c.cpsr).set (.exc x.exc 1)
        (c.reg 15 + x.linkOffset c.thumb)).regs := by
  have hcpsr : (changeMode core ((c.cpsr &&& ~~~0xBF) ||| x.mode) c).cpsr =
      (c.cpsr &&& ~~~0xBF) ||| x.mode := (updateMode_keeps core _ _ _ _).1
  have hbank : bankOf (changeMode core ((c.cpsr &&& ~~~0xBF) ||| x.mode) c).cpsr = .exc x.exc := by
    rw [hcpsr, bankOf_exception, x.bankOf_mode]
  constructor
  · exact (congrArg (· &&& 0x1F) hcpsr).trans (mode_exception _ _)
  · rw [linked, view_entry hbank, view_changeMode]
    rfl

/-- The program counter is where the swaps of a mode change leave it. -/
theorem changeMode_pc (core : Core σ) (psr : U32) (c : CPU σ) :
    (changeMode core psr c).get (.r 15) = c.get (.r 15) := by
  have hpc (c : CPU σ) : c.get (.r 15) = (view c).regs .pc := rfl
  rw [hpc, hpc, view_changeMode]
  rfl

theorem Exception.page_vector (x : Exception) (c : CPU σ) :
    page (jumpTarget (c.exceptionBase + x.vector)) = page c.exceptionBase := by
  rw [CPU.exceptionBase]
  cases c.highVectors <;> cases x <;> decide

/-- The vector may be executed in the mode of the exception. -/
def Exception.VectorRuns (x : Exception) (core : Core σ) (c : CPU σ) : Prop :=
  core.num = .arm9 ∨ x = .prefetch → core.executable (changeMode core ((c.cpsr &&& ~~~0xBF) ||| x.mode) c).bus
    (page c.exceptionBase) = true

theorem Exception.entered_branch (x : Exception) (addr : U32) (c : CPU σ) :
    x.Entered c (branchTo addr (x.linked core c)) := by
  obtain ⟨hmode, hregs⟩ := x.view_linked core c
  obtain ⟨hkeep, -, -, hother⟩ := Arch.branchTo_keeps addr (view (x.linked core c))
  have hview := view_branchTo addr (x.linked core c)
  refine ⟨?_, fun y hy => ?_⟩
  · change (view (branchTo addr (x.linked core c))).cpsr &&& 0x1F = _
    rw [hview, hkeep]
    exact hmode
  · rw [hview, hother y hy, hregs]

theorem Exception.entered_jump (x : Exception) {c : CPU σ} (h : x.VectorRuns core c) :
    x.Entered c (jump core (c.exceptionBase + x.vector) (x.linked core c)) := by
  have hbus (addr : U32) (d : CPU σ) : (branchTo addr d).bus = d.bus := by
    rw [branchTo]
    split <;> rfl
  rw [jump, if_neg]
  · exact x.entered_branch _ c
  · rintro ⟨h9, hnot⟩
    rw [hbus, x.page_vector] at hnot
    have hexec := h (.inl h9)
    change core.executable (x.linked core c).bus _ = true at hexec
    rw [hexec] at hnot
    cases hnot

theorem exceptionBase_changeMode (core : Core σ) (psr : U32) (c : CPU σ) :
    (changeMode core psr c).exceptionBase = c.exceptionBase :=
  congrArg (fun high : Bool => if high then (0xFFFF0000 : U32) else 0)
    (updateMode_keeps core _ _ _ _).2.1

theorem pc_saved (core : Core σ) (m : Exc) (psr v : U32) (c : CPU σ) :
    ((changeMode core psr c).set (.rExc m 2) v).get (.r 15) = c.reg 15 := by
  have hne : (.r 15 : Cell) ≠ .rExc m 2 := by simp
  exact (Function.update_of_ne hne v _).trans (changeMode_pc core psr c)

theorem Exception.enterBank_eq (x : Exception) {back : U32} {c : CPU σ}
    (h : c.reg 15 - back = c.reg 15 + x.linkOffset c.thumb) :
    enterBank core x.exc x.mode back x.vector c =
      jump core (c.exceptionBase + x.vector) (x.linked core c) := by
  have hbase := exceptionBase_changeMode core ((c.cpsr &&& ~~~0xBF) ||| x.mode) c
  rw [enterBank, pc_saved, h, ← hbase]
  exact if_neg Bool.false_ne_true

theorem thumb_iff (c : CPU σ) : c.thumb = true ↔ c.cpsr &&& 0x20 ≠ 0 := decide_eq_true_iff

theorem Exception.entered (x : Exception) {c : CPU σ} (h : x.VectorRuns core c)
    (hirq : x = .irq → c.cpsr &&& 0x80 = 0) : x.Entered c (x.enter core c) := by
  have hjump := x.entered_jump h
  have hbase := exceptionBase_changeMode core ((c.cpsr &&& ~~~0xBF) ||| x.mode) c
  have hif (v : U32) : (if c.cpsr &&& 0x20 ≠ 0 then v else 0) = if c.thumb then v else 0 :=
    if_congr (thumb_iff c).symm rfl rfl
  cases x with
  | irq =>
    have hrun : triggerIRQ core c = (fun d : CPU σ =>
        if core.num = .arm7 then { d with bus := core.runCheats d.bus } else d)
          (jump core (c.exceptionBase + 0x18) (linked .irq core c)) := by
      rw [triggerIRQ, if_neg (not_not.mpr (hirq rfl))]
      dsimp only
      rw [pc_saved, hif, ← hbase]
      rfl
    rw [enter, hrun]
    dsimp only
    split
    · exact ⟨hjump.mode, hjump.regs⟩
    · exact hjump
  | svc =>
    rw [enter]
    split
    · next hthumb =>
      have heq : c.reg 15 - 2 = c.reg 15 + linkOffset c.thumb .svc := by
        rw [hthumb]
        exact BitVec.sub_eq_add_neg _ _
      rw [show tSVC core c = _ from enterBank_eq .svc heq]
      exact hjump
    · next harm =>
      have heq : c.reg 15 - 4 = c.reg 15 + linkOffset c.thumb .svc := by
        rw [Bool.eq_false_iff.mpr harm]
        exact BitVec.sub_eq_add_neg _ _
      rw [show aSVC core c = _ from enterBank_eq .svc heq]
      exact hjump
  | und =>
    rw [enter]
    split
    · next hthumb =>
      have heq : c.reg 15 - 2 = c.reg 15 + linkOffset c.thumb .und := by
        rw [hthumb]
        exact BitVec.sub_eq_add_neg _ _
      rw [show tUNK core c = _ from enterBank_eq .und heq]
      exact hjump
    · next harm =>
      have heq : c.reg 15 - 4 = c.reg 15 + linkOffset c.thumb .und := by
        rw [Bool.eq_false_iff.mpr harm]
        exact BitVec.sub_eq_add_neg _ _
      rw [show aUNK core c = _ from enterBank_eq .und heq]
      exact hjump
  | prefetch =>
    have hpage := h
    rw [VectorRuns, ← hbase] at hpage
    rw [enter, prefetchAbort]
    split
    · next hnot =>
      have hyes : core.executable (changeMode core ((c.cpsr &&& ~~~0xBF) ||| 0x97) c).bus
        (page (changeMode core ((c.cpsr &&& ~~~0xBF) ||| 0x97) c).exceptionBase) = true :=
          hpage (.inr rfl)
      rw [hyes] at hnot
      cases hnot
    · dsimp only
      rw [pc_saved, hif]
      exact entered_branch .prefetch _ c
  | data =>
    have hrun : dataAbort core c = jump core (c.exceptionBase + 0x10) (linked .data core c) := by
      rw [dataAbort, pc_saved, hif, ← hbase]
      rfl
    rw [enter, hrun]
    exact hjump

/-! ## The return -/

/-- The handler has left the registers as it found them, but for its own stack pointer. -/
structure Exception.Handled (x : Exception) (e d : CPU σ) : Prop where
  bank : bankOf d.cpsr = .exc x.exc
  regs : ∀ y, y ≠ .pc → y ≠ .exc x.exc 0 → (view d).regs y = (view e).regs y

theorem saved_of_bank {psr : U32} {m : Exc} (h : bankOf psr = .exc m) :
    Arch.saved psr = some (.spsr m) := by
  obtain ⟨n, hn⟩ := mode_cases psr
  rw [bankOf, hn] at h
  rw [Arch.saved, hn]
  clear hn
  revert n
  cases m <;> decide

theorem bankOf_of_low {psr psr' : U32} (h : ∀ i < 5, psr'.getLsbD i = psr.getLsbD i) :
    bankOf psr' = bankOf psr := by
  refine bankOf_congr (BitVec.eq_of_getLsbD_eq fun i hi => ?_)
  have hmask : ∀ j : Fin 32, 5 ≤ j.val → (0x1F : U32).getLsbD j = false := by decide
  rw [BitVec.getLsbD_and, BitVec.getLsbD_and]
  by_cases h5 : i < 5
  · rw [h i h5]
  · rw [hmask ⟨i, hi⟩ (Nat.le_of_not_lt h5), Bool.and_false, Bool.and_false]

/-- The return instruction sets the flags, which the restored status replaces, and jumps. -/
theorem Exception.leave_eq (x : Exception) (core : Core σ) (d : CPU σ) :
    ∃ psr, bankOf psr = bankOf d.cpsr ∧
      x.leave core d = jumpTo core (d.reg 14 - x.leaveOffset) true { d with cpsr := psr } := by
  have hsub (n z carry overflow : Bool) :
      bankOf (d.setNZCV n z carry overflow).cpsr = bankOf d.cpsr :=
    bankOf_of_low fun i hi => by
      rw [CPU.getLsbD_setNZCV, if_neg (by omega), if_neg (by omega), if_neg (by omega),
        if_neg (by omega)]
  have hmov (n z : Bool) : bankOf (d.setNZ n z).cpsr = bankOf d.cpsr :=
    bankOf_of_low fun i hi => by
      rw [CPU.getLsbD_setNZ, if_neg (by omega), if_neg (by omega)]
  have hzero : d.reg 14 - (0 : U32) = d.reg 14 := BitVec.sub_zero _
  cases x with
  | irq | prefetch | data => exact ⟨_, hsub _ _ _ _, rfl⟩
  | svc | und =>
    refine ⟨(flagsNZ (d.reg 14) d).cpsr, hmov _ _, ?_⟩
    exact congrArg (fun addr => jumpTo core addr true
      { d with cpsr := (flagsNZ (d.reg 14) d).cpsr }) hzero.symm

/-! ### Addresses -/

/-- The size of an instruction. -/
def CPU.width (c : CPU σ) : U32 := if c.thumb then 2 else 4

/-- The return goes to the instruction at the program counter to resume at, which is one ahead. -/
theorem Exception.address_eq (x : Exception) (c : CPU σ) :
    c.reg 15 + x.linkOffset c.thumb - x.leaveOffset = x.resumePC c - c.width := by
  have hpc (p : U32) : p + 2 - 4 = p - 2 ∧ p + 0 - 4 = p - 4 ∧ p + 4 - 8 = p - 2 - 2 ∧
      p + 0 - 8 = p - 4 - 4 ∧ p + -2 - 0 = p - 2 ∧ p + -4 - 0 = p - 4 := by
    refine ⟨?_, ?_, ?_, ?_, ?_, ?_⟩ <;> bv_omega
  obtain ⟨h1, h2, h3, h4, h5, h6⟩ := hpc (c.reg 15)
  cases x with
  | irq | prefetch =>
    rw [linkOffset, CPU.width]
    cases c.thumb with
    | true => exact h1
    | false => exact h2
  | svc | und =>
    rw [linkOffset, CPU.width]
    cases c.thumb with
    | true => exact h5
    | false => exact h6
  | data =>
    rw [linkOffset, CPU.width, resumePC]
    cases c.thumb with
    | true => exact h3
    | false => exact h4

theorem and_one_iff (y : U32) : y &&& 1 = 0 ↔ y.toNat % 2 = 0 := by
  rw [← BitVec.toNat_inj, BitVec.toNat_and]
  change y.toNat &&& (2 ^ 1 - 1) = 0 ↔ _
  rw [Nat.and_two_pow_sub_one_eq_mod]

theorem and_three_iff (y : U32) : y &&& 3 = 0 ↔ y.toNat % 4 = 0 := by
  rw [← BitVec.toNat_inj, BitVec.toNat_and]
  change y.toNat &&& (2 ^ 2 - 1) = 0 ↔ _
  rw [Nat.and_two_pow_sub_one_eq_mod]

/-- The program counter is aligned for the state of the processor. -/
def CPU.Aligned (c : CPU σ) (addr : U32) : Prop :=
  if c.thumb then addr &&& 1 = 0 else addr &&& 3 = 0

theorem CPU.Aligned.sub {c : CPU σ} {addr : U32} (h : c.Aligned addr) :
    c.Aligned (addr - c.width) := by
  rw [Aligned] at h ⊢
  rw [CPU.width]
  split at h
  · next hthumb =>
    rw [if_pos hthumb, if_pos hthumb, and_one_iff, BitVec.toNat_sub]
    rw [and_one_iff] at h
    have := addr.isLt
    change (2 ^ 32 - 2 + addr.toNat) % 2 ^ 32 % 2 = 0
    omega
  · next hthumb =>
    rw [if_neg hthumb, if_neg hthumb, and_three_iff, BitVec.toNat_sub]
    rw [and_three_iff] at h
    have := addr.isLt
    change (2 ^ 32 - 4 + addr.toNat) % 2 ^ 32 % 4 = 0
    omega

theorem Exception.resumePC_aligned (x : Exception) {c : CPU σ} (h : c.Aligned (c.reg 15)) :
    c.Aligned (x.resumePC c) := by
  cases x with
  | irq | svc | und | prefetch => exact h
  | data => exact h.sub

theorem or_bit_of_and {psr : U32} (h : psr &&& 0x20 ≠ 0) : psr ||| 0x20 = psr := by
  have hmask : ∀ j : Fin 32, (0x20 : U32).getLsbD j = decide (j.val = 5) := by decide
  have h5 : psr.getLsbD 5 = true := by
    by_contra hnot
    refine h (BitVec.eq_of_getLsbD_eq fun i hi => ?_)
    rw [BitVec.getLsbD_and, hmask ⟨i, hi⟩]
    by_cases hi5 : i = 5
    · subst hi5
      rw [Bool.eq_false_iff.mpr hnot]
      rfl
    · simp [hi5]
  refine BitVec.eq_of_getLsbD_eq fun i hi => ?_
  rw [BitVec.getLsbD_or, hmask ⟨i, hi⟩]
  by_cases hi5 : i = 5
  · subst hi5
    rw [h5]
    rfl
  · simp [hi5]

/-- A jump to an aligned address, in the state it is aligned for. -/
theorem jump_aligned {c d : CPU σ} {addr : U32} (haddr : c.Aligned addr)
    (hd : d.cpsr = c.cpsr) (hexec : core.num = .arm9 → core.executable d.bus (page addr) = true) :
    jump core (if d.thumb then addr ||| 1 else addr &&& ~~~1) d =
      d.set (.r 15) (addr + c.width) := by
  have hbranch : branchTo (if d.thumb then addr ||| 1 else addr &&& ~~~1) d =
        d.set (.r 15) (addr + c.width) ∧
      jumpTarget (if d.thumb then addr ||| 1 else addr &&& ~~~1) = addr := by
    have hthumb : d.thumb = c.thumb := by rw [CPU.thumb, CPU.thumb, hd]
    rw [CPU.Aligned] at haddr
    rw [hthumb, CPU.width]
    split at haddr
    · next hc =>
      have hbit : (addr ||| 1) &&& 1 ≠ 0 := fun hzero => by
        have hlow := congrArg (fun x : U32 => x.getLsbD 0) hzero
        simp at hlow
      have hclear : (addr ||| 1) &&& ~~~(1 : U32) = addr := by
        rw [BitVec.and_comm, BitVec.and_or_distrib_left, BitVec.and_comm _ addr,
          and_not_of_and haddr]
        exact BitVec.or_zero
      have hcpsr : d.cpsr ||| 0x20 = d.cpsr := or_bit_of_and ((thumb_iff d).mp (hthumb.trans hc))
      rw [if_pos hc, if_pos hc, branchTo, jumpTarget, if_pos hbit, if_pos hbit, hclear, hcpsr]
      exact ⟨rfl, rfl⟩
    · next hc =>
      have hthree := haddr
      rw [and_three_iff] at haddr
      have hone : addr &&& 1 = 0 := (and_one_iff addr).mpr (by omega)
      have hcpsr : d.cpsr &&& ~~~(0x20 : U32) = d.cpsr :=
        and_not_of_and (not_not.mp fun hne => hc (hthumb.symm.trans ((thumb_iff d).mpr hne)))
      rw [if_neg hc, if_neg hc, and_not_of_and hone, branchTo, jumpTarget, if_neg (not_not.mpr hone),
        if_neg (not_not.mpr hone), and_not_of_and hthree, hcpsr]
      exact ⟨rfl, rfl⟩
  rw [jump, hbranch.1, hbranch.2]
  refine if_neg fun h => ?_
  rw [show core.executable (d.set (.r 15) (addr + c.width)).bus (page addr) = true from hexec h.1] at h
  cases h.2

/-- What the program finds when the handler has returned. -/
structure Exception.Resumed (x : Exception) (c r : CPU σ) : Prop where
  cpsr : r.cpsr = c.cpsr
  pc : r.reg 15 = x.resumePC c
  registers : ∀ i, i ≠ 15 → r.reg i = c.reg i
  others : ∀ y, y ≠ .pc → y ≠ .spsr x.exc → (∀ i, y ≠ .exc x.exc i) →
    (view r).regs y = (view c).regs y

/-- No register of a mode belongs to the bank of another exception. -/
theorem named_ne_exc {b : Bank} {m : Exc} (h : b ≠ .exc m) (i : Fin 16) (j : Fin 2) :
    named b i ≠ .exc m j := by
  cases b with
  | usr | fiq => revert i j; cases m <;> decide
  | exc m' =>
    cases m <;> cases m' <;> first | exact absurd rfl h | (revert i j; decide)

/-- Restoring the status, with the saved one where the exception has put it. -/
theorem Exception.restored (core : Core σ) (x : Exception) {c d : CPU σ} {psr : U32}
    (hmode : c.cpsr ||| 0x10 = c.cpsr) (hbank : bankOf c.cpsr ≠ .exc x.exc)
    (hd : bankOf d.cpsr = .exc x.exc) (hpsr : bankOf psr = bankOf d.cpsr)
    (hspsr : (view d).regs (.spsr x.exc) = c.cpsr) :
    (restoreCPSR core { d with cpsr := psr }).cpsr = c.cpsr ∧
      (view (restoreCPSR core { d with cpsr := psr })).regs = (view d).regs ∧
      (core.num = .arm9 → (restoreCPSR core { d with cpsr := psr }).bus =
        core.selectMap (c.cpsr &&& 0x1F = 0x10) d.bus) := by
  have hsaved := saved_of_bank (hpsr.trans hd)
  have hview : view (restoreCPSR core { d with cpsr := psr }) =
      Arch.changeMode core c.cpsr { view d with cpsr := psr } := by
    rw [view_restoreCPSR, view_setCPSR hpsr, Arch.restoreCPSR, hsaved]
    exact congrArg (Arch.changeMode core · { view d with cpsr := psr })
      ((congrArg (· ||| 0x10) hspsr).trans hmode)
  refine ⟨congrArg Arch.cpsr hview, (congrArg Arch.regs hview).trans rfl, fun h9 => ?_⟩
  refine (congrArg Arch.bus hview).trans (if_pos ⟨fun hsame => hbank ?_, h9⟩)
  rw [← bankOf_congr hsame, hpsr, hd]

/-- A program in system mode, in front of a `SWI`. -/
def beforeSWI : CPU Unit where
  cells x := if x = .r 15 then 0x02000008 else if x = .r 13 then 0x027E3F00 else 7
  cpsr := 0x1F
  highVectors := true
  bus := ()

end MelonDS.ARM
