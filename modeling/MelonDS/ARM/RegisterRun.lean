import MelonDS.ARM.Refinement

/-!
# Runs on the banked registers

Any run of mode changes, exceptions, block transfers and debugger accesses is the run
on the architectural registers, as long as the debugger does not write a status of
another bank, does not name a register of a reserved mode that the switches miss and
moves the program counter as the architecture would.
-/

namespace MelonDS.ARM

variable {σ : Type*} {core : Core σ}

/-! Accesses of the debugger -/

/-- The register is found in the current mode, which may be a reserved one. -/
def addressed (psr : U32) : Register → Bool
  | .usr _ => (psr &&& 0x1F).toNat ∈ [0x10, 0x11, 0x12, 0x13, 0x17, 0x1B, 0x1F]
  | .exc .abt _ => (psr &&& 0x1F).toNat ∉ [0x14, 0x15, 0x16]
  | .exc .und _ => (psr &&& 0x1F).toNat ∉ [0x18, 0x19, 0x1A]
  | _ => true

/-- A write that changes the register named and nothing else. -/
def WriteOk (core : Core σ) (c : CPU σ) (reg : Register) (v : U32) : Prop :=
  match reg with
  | .pc => c.cpsr &&& 0x20 = 0 ∧ v &&& 3 = 0 ∧ (core.num = .arm9 → core.executable c.bus (page v))
  | .cpsr => bankOf v = bankOf c.cpsr ∧ v &&& 0x20 = c.cpsr &&& 0x20
  | reg => addressed c.cpsr reg

theorem usrCell_eq {psr : U32} {i : Fin 2} (h : addressed psr (.usr i)) :
    usrCell psr i = some (place (bankOf psr) (.usr (Fin.natAdd 5 i))) := by
  obtain ⟨n, hn⟩ := mode_cases psr
  rw [addressed, hn] at h
  rw [usrCell, modeIs, modeIs, bankOf, hn]
  clear hn
  revert n i
  decide

theorem fiqCell_eq (psr : U32) (i : Fin 7) : fiqCell psr i = place (bankOf psr) (.fiq i) := by
  obtain ⟨n, hn⟩ := mode_cases psr
  rw [fiqCell, modeIs, bankOf, hn]
  clear hn
  revert n i
  decide

theorem excCell_eq {psr : U32} {m : Exc} {i : Fin 2} (h : addressed psr (.exc m i)) :
    excCell psr m i = place (bankOf psr) (.exc m i) := by
  obtain ⟨n, hn⟩ := mode_cases psr
  rw [addressed.eq_def, hn] at h
  rw [excCell, modeIs, bankOf, hn]
  clear hn
  cases m <;> revert n i <;> decide

theorem registerCell_eq {psr : U32} {reg : Register} (h : addressed psr reg) (hpc : reg ≠ .pc) :
    registerCell psr reg = (Arch.debugReg psr reg).map (place (bankOf psr)) := by
  cases reg with
  | r i => exact congrArg some (place_named (bankOf psr) _).symm
  | pc => exact absurd rfl hpc
  | cpsr => rfl
  | usr i => exact usrCell_eq h
  | fiq i => exact congrArg some (fiqCell_eq psr i)
  | exc m i => exact congrArg some (excCell_eq h)
  | spsrFIQ => rfl
  | spsr m => rfl

theorem debugReg_none {psr : U32} {reg : Register} (h : Arch.debugReg psr reg = none) :
    reg = .cpsr := by
  cases reg with
  | cpsr => rfl
  | r | pc | usr | fiq | exc | spsrFIQ | spsr => cases h

theorem readReg_cell {reg : Register} {c : CPU σ} {x : Cell}
    (h : registerCell c.cpsr reg = some x) : readReg reg c = c.get x := by
  cases reg with
  | pc | cpsr => cases h
  | r | fiq | exc | spsrFIQ | spsr =>
    cases h
    rfl
  | usr i =>
    simp only [readReg, h]

theorem writeReg_cell {reg : Register} {v : U32} {c : CPU σ} {x : Cell}
    (h : registerCell c.cpsr reg = some x) : writeReg core reg v c = c.set x v := by
  cases reg with
  | pc | cpsr => cases h
  | r | fiq | exc | spsrFIQ | spsr =>
    cases h
    rfl
  | usr i =>
    simp only [writeReg, h]

namespace Arch

variable {a : Arch σ} {reg : Register} {x : ArchReg}

theorem readReg_some (h : debugReg a.cpsr reg = some x) (hpc : reg ≠ .pc) :
    a.readReg reg = a.get x := by
  cases reg with
  | pc => exact absurd rfl hpc
  | cpsr => cases h
  | r | usr | fiq | exc | spsrFIQ | spsr =>
    cases h
    rfl

theorem writeReg_some (h : debugReg a.cpsr reg = some x) (hpc : reg ≠ .pc) (v : U32) :
    a.writeReg reg v = a.set x v := by
  cases reg with
  | pc => exact absurd rfl hpc
  | cpsr => cases h
  | r | usr | fiq | exc | spsrFIQ | spsr =>
    cases h
    rfl

end Arch

theorem view_readReg {reg : Register} {c : CPU σ} (h : addressed c.cpsr reg) :
    readReg reg c = (view c).readReg reg := by
  by_cases hpc : reg = .pc
  · subst hpc
    rfl
  · cases hreg : Arch.debugReg c.cpsr reg with
    | none =>
      rw [debugReg_none hreg]
      rfl
    | some x =>
      have hcell := registerCell_eq h hpc
      rw [hreg] at hcell
      rw [readReg_cell hcell, Arch.readReg_some (a := view c) hreg hpc]
      rfl

theorem and_not_of_and {v m : U32} (h : v &&& m = 0#32) : v &&& ~~~m = v := by
  have hsplit : (v &&& ~~~m) ||| (v &&& m) = v := by
    rw [← BitVec.and_or_distrib_left, BitVec.or_comm, BitVec.or_not_self, BitVec.and_allOnes]
  rwa [h, BitVec.or_zero] at hsplit

theorem writeReg_pc {v : U32} {c : CPU σ} (h : WriteOk core c .pc v) :
    writeReg core .pc v c = c.set (.r 15) (v + 4) := by
  obtain ⟨hthumb, halign, hexec⟩ := h
  have hbit : v &&& 1 = 0 := by
    have h1 : v &&& 1 = (v &&& 3) &&& 1 := (BitVec.and_assoc v 3 1).symm
    rw [h1, halign]
    rfl
  have htarget : jumpTarget v = v := by
    rw [jumpTarget, if_neg (not_not.mpr hbit), and_not_of_and halign]
  have hbranch : branchTo v c = c.set (.r 15) (v + 4) := by
    rw [branchTo, if_neg (not_not.mpr hbit), and_not_of_and halign, and_not_of_and hthumb]
    rfl
  change jump core v c = _
  rw [jump, hbranch, htarget, if_neg]
  rintro ⟨hnum, hno⟩
  have hyes : core.executable (c.set (.r 15) (v + 4)).bus (page v) = true := hexec hnum
  rw [hyes] at hno
  cases hno

theorem view_writeReg {reg : Register} {v : U32} {c : CPU σ} (h : WriteOk core c reg v) :
    view (writeReg core reg v c) = (view c).writeReg reg v := by
  by_cases hpc : reg = .pc
  · subst hpc
    have hthumb : (view c).cpsr &&& 0x20 = 0 := h.1
    rw [writeReg_pc h, view_set_reg, Arch.writeReg, hthumb, if_neg (not_not.mpr rfl)]
    rfl
  · cases hreg : Arch.debugReg c.cpsr reg with
    | none =>
      obtain rfl := debugReg_none hreg
      exact view_setCPSR h.1
    | some x =>
      have haddr : addressed c.cpsr reg := by
        cases reg with
        | pc => exact absurd rfl hpc
        | cpsr => cases hreg
        | r | usr | fiq | exc | spsrFIQ | spsr => exact h
      have hcell := registerCell_eq haddr hpc
      rw [hreg] at hcell
      rw [writeReg_cell hcell, Arch.writeReg_some (a := view c) hreg hpc]
      exact view_set c x v

/-! What a write leaves to read -/

theorem readReg_writeReg_self {reg : Register} {v : U32} {c : CPU σ} (h : WriteOk core c reg v) :
    readReg reg (writeReg core reg v c) = v := by
  cases hcell : registerCell c.cpsr reg with
  | some x =>
    rw [writeReg_cell hcell]
    exact (readReg_cell (c := c.set x v) hcell).trans (CPU.get_set c x v)
  | none =>
    cases reg with
    | pc =>
      have hthumb : (c.set (.r 15) (v + 4)).cpsr &&& 0x20 = 0 := h.1
      rw [writeReg_pc h, readReg, CPU.get_set, hthumb, if_neg (not_not.mpr rfl)]
      exact BitVec.add_sub_cancel v 4
    | cpsr => rfl
    | usr i =>
      have hpc : Register.usr i ≠ .pc := by
        intro hpc
        cases hpc
      have hfound := registerCell_eq (show addressed c.cpsr (.usr i) from h) hpc
      rw [hcell] at hfound
      cases hfound
    | r | fiq | exc | spsrFIQ | spsr => cases hcell

theorem Arch.readReg_set {a : Arch σ} {x : ArchReg} {reg : Register}
    (hne : debugReg a.cpsr reg ≠ some x) (v : U32) : (a.set x v).readReg reg = a.readReg reg := by
  have hget : ∀ y, debugReg a.cpsr reg = some y → (a.set x v).get y = a.get y := by
    intro y hy
    apply Function.update_of_ne
    rintro rfl
    exact hne hy
  by_cases hpc : reg = .pc
  · subst hpc
    change (a.set x v).get .pc - _ = a.get .pc - _
    rw [hget .pc rfl]
    rfl
  · cases hreg : debugReg a.cpsr reg with
    | none =>
      rw [debugReg_none hreg]
      rfl
    | some y =>
      rw [readReg_some (a := a.set x v) hreg hpc, readReg_some hreg hpc, hget y hreg]

theorem Arch.readReg_setCPSR {a : Arch σ} {psr : U32} {reg : Register}
    (hbank : bankOf psr = bankOf a.cpsr) (hthumb : psr &&& 0x20 = a.cpsr &&& 0x20)
    (hne : reg ≠ .cpsr) : Arch.readReg reg { a with cpsr := psr } = a.readReg reg := by
  cases reg with
  | pc =>
    change a.get .pc - (if psr &&& 0x20 ≠ 0 then 2 else 4) = a.get .pc - _
    rw [hthumb]
  | cpsr => exact absurd rfl hne
  | r i =>
    change a.get (named (bankOf psr) _) = a.get (named (bankOf a.cpsr) _)
    rw [hbank]
  | usr | fiq | exc | spsrFIQ | spsr => rfl

/-- A write leaves every register that another one names as it reads. -/
theorem readReg_writeReg_of_ne {reg other : Register} {v : U32} {c : CPU σ}
    (h : WriteOk core c reg v) (hbefore : addressed c.cpsr other)
    (hafter : addressed (writeReg core reg v c).cpsr other)
    (hne : Arch.debugReg c.cpsr other ≠ Arch.debugReg c.cpsr reg) :
    readReg other (writeReg core reg v c) = readReg other c := by
  rw [view_readReg hafter, view_readReg hbefore, view_writeReg h]
  by_cases hpc : reg = .pc
  · subst hpc
    exact Arch.readReg_set (a := view c) (x := .pc) hne _
  · cases hreg : Arch.debugReg c.cpsr reg with
    | none =>
      obtain rfl := debugReg_none hreg
      apply Arch.readReg_setCPSR (a := view c) h.1 h.2
      rintro rfl
      exact hne rfl
    | some x =>
      rw [Arch.writeReg_some (a := view c) hreg hpc]
      rw [hreg] at hne
      exact Arch.readReg_set (a := view c) hne v

/-! Runs -/

inductive Op
  | changeMode (psr : U32)
  | restoreCPSR
  | triggerIRQ
  | prefetchAbort
  | dataAbort
  | ldm (instr : U32)
  | stm (instr : U32)
  | readReg (reg : Register)
  | writeReg (reg : Register) (v : U32)
deriving DecidableEq

namespace Op

/-- An operation, with what the debugger reads. -/
def run (core : Core σ) (op : Op) (c : CPU σ) : Option U32 × CPU σ :=
  match op with
  | .changeMode psr => (none, ARM.changeMode core psr c)
  | .restoreCPSR => (none, ARM.restoreCPSR core c)
  | .triggerIRQ => (none, ARM.triggerIRQ core c)
  | .prefetchAbort => (none, ARM.prefetchAbort core c)
  | .dataAbort => (none, ARM.dataAbort core c)
  | .ldm instr => (none, aLDM core instr c)
  | .stm instr => (none, aSTM core instr c)
  | .readReg reg => (some (ARM.readReg reg c), c)
  | .writeReg reg v => (none, ARM.writeReg core reg v c)

def spec (core : Core σ) (op : Op) (a : Arch σ) : Option U32 × Arch σ :=
  match op with
  | .changeMode psr => (none, a.changeMode core psr)
  | .restoreCPSR => (none, a.restoreCPSR core)
  | .triggerIRQ => (none, a.triggerIRQ core)
  | .prefetchAbort => (none, a.prefetchAbort core)
  | .dataAbort => (none, a.dataAbort core)
  | .ldm instr => (none, a.aLDM core instr)
  | .stm instr => (none, a.aSTM core instr)
  | .readReg reg => (some (a.readReg reg), a)
  | .writeReg reg v => (none, a.writeReg reg v)

def Ok (core : Core σ) (c : CPU σ) : Op → Prop
  | .readReg reg => addressed c.cpsr reg
  | .writeReg reg v => WriteOk core c reg v
  | _ => True

theorem run_spec {op : Op} {c : CPU σ} (h : op.Ok core c) :
    (op.run core c).map id view = op.spec core (view c) := by
  cases op with
  | changeMode psr => exact congrArg (Prod.mk none) (view_changeMode core psr c)
  | restoreCPSR => exact congrArg (Prod.mk none) (view_restoreCPSR c)
  | triggerIRQ => exact congrArg (Prod.mk none) (view_triggerIRQ c)
  | prefetchAbort => exact congrArg (Prod.mk none) (view_prefetchAbort c)
  | dataAbort => exact congrArg (Prod.mk none) (view_dataAbort c)
  | ldm instr => exact congrArg (Prod.mk none) (view_aLDM instr c)
  | stm instr => exact congrArg (Prod.mk none) (view_aSTM instr c)
  | readReg reg => exact congrArg (fun v => (some v, view c)) (view_readReg h)
  | writeReg reg v => exact congrArg (Prod.mk none) (view_writeReg h)

end Op

/-- A run of operations, with what they return. -/
def runOps {S : Type*} (step : Op → S → Option U32 × S) : List Op → S → List (Option U32) × S
  | [], s => ([], s)
  | op :: ops, s =>
    let (v, s) := step op s
    let (vs, s) := runOps step ops s
    (v :: vs, s)

def AllOk (core : Core σ) : List Op → CPU σ → Prop
  | [], _ => True
  | op :: ops, c => op.Ok core c ∧ AllOk core ops (op.run core c).2

theorem runOps_spec {ops : List Op} {c : CPU σ} (h : AllOk core ops c) :
    (runOps (Op.run core) ops c).map id view = runOps (Op.spec core) ops (view c) := by
  induction ops generalizing c with
  | nil => rfl
  | cons op ops ih =>
    have hstep := Op.run_spec h.1
    have hrest := ih h.2
    rw [runOps, runOps, ← hstep]
    change _ = ((op.run core c).1 :: (runOps (Op.spec core) ops (view (op.run core c).2)).1,
      (runOps (Op.spec core) ops (view (op.run core c).2)).2)
    rw [← hrest]
    rfl

/-- The banks refine the architectural registers in every run whose debugger accesses are in
order, and then a write is what the register reads as and what no other register notices. -/
theorem banked_registers {ops : List Op} {c : CPU σ} (h : AllOk core ops c) :
    (runOps (Op.run core) ops c).map id view = runOps (Op.spec core) ops (view c) ∧
    (∀ (c : CPU σ) (psr : U32), (view (changeMode core psr c)).regs = (view c).regs) ∧
    ∀ (c : CPU σ) (reg : Register) (v : U32), WriteOk core c reg v →
      readReg reg (writeReg core reg v c) = v ∧
      ∀ other, Arch.debugReg c.cpsr other ≠ Arch.debugReg c.cpsr reg →
        addressed c.cpsr other → addressed (writeReg core reg v c).cpsr other →
          readReg other (writeReg core reg v c) = readReg other c := by
  refine ⟨runOps_spec h, fun c psr => ?_, fun c reg v hok => ⟨readReg_writeReg_self hok, ?_⟩⟩
  · rw [view_changeMode]
    rfl
  · intro other hne hbefore hafter
    exact readReg_writeReg_of_ne hok hbefore hafter hne

/-- Supervisor mode, with 1 in the stack pointer shown and 2 in the bank. -/
def svcState : CPU Unit where
  cells x := if x = .r 13 then 1 else if x = rSVC 0 then 2 else 0
  cpsr := 0x13
  highVectors := true
  bus := ()

def svcOps : List Op :=
  [.changeMode 0x1F, .writeReg (.exc .svc 0) 5, .triggerIRQ, .readReg (.usr 0), .restoreCPSR,
    .readReg (.exc .svc 0)]

theorem svcOps_ok : AllOk (bareCore .arm9) svcOps svcState :=
  ⟨trivial, rfl, trivial, rfl, trivial, rfl, trivial⟩

theorem banked_registers_svc :
    (runOps (Op.run (bareCore .arm9)) svcOps svcState).map id view =
      runOps (Op.spec (bareCore .arm9)) svcOps (view svcState) :=
  (banked_registers svcOps_ok).1

/-- Writing the status exchanges the stack pointers of two banks; the user bank of a reserved mode
is not found; and a program counter read in Thumb state is not written back. -/
theorem writeReg_status :
    (view (writeReg (bareCore .arm9) .cpsr 0x1F svcState)).regs (.exc .svc 0) ≠
        (view svcState).regs (.exc .svc 0) ∧
      readReg (.exc .svc 0) (writeReg (bareCore .arm9) .cpsr 0x1F svcState) ≠
        readReg (.exc .svc 0) svcState ∧
      readReg (.usr 0) (writeReg (bareCore .arm9) (.usr 0) 7
        (changeMode (bareCore .arm9) 0x14 svcState)) ≠ 7 ∧
      readReg .cpsr (writeReg (bareCore .arm7) .pc 0x8000
        (changeMode (bareCore .arm7) 0x3F svcState)) ≠ 0x3F := by
  decide

end MelonDS.ARM
