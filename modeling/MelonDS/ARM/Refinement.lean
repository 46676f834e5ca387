import MelonDS.ARM.BankedRegisters

/-!
# Exceptions and block transfers on the architectural registers

Each operation on the arrays shows, in the architectural view, as the operation on the
architectural registers.
-/

namespace MelonDS.ARM

variable {σ : Type*} {core : Core σ}

/-! Bits of the status register -/

theorem mode_or_thumb (psr : U32) : (psr ||| 0x20) &&& 0x1F = psr &&& 0x1F := by
  rw [BitVec.and_comm, BitVec.and_or_distrib_left, BitVec.and_comm 0x1F psr]
  exact BitVec.or_zero

theorem mode_and_not_thumb (psr : U32) : psr &&& ~~~0x20 &&& 0x1F = psr &&& 0x1F :=
  BitVec.and_assoc _ _ _

theorem mode_exception (psr mode : U32) :
    (psr &&& ~~~0xBF ||| mode) &&& 0x1F = mode &&& 0x1F := by
  rw [BitVec.and_comm, BitVec.and_or_distrib_left, BitVec.and_comm 0x1F mode,
    BitVec.and_comm 0x1F, BitVec.and_assoc]
  exact (congrArg (· ||| mode &&& 0x1F) (BitVec.and_zero (x := psr))).trans BitVec.zero_or

theorem bankOf_exception (psr : U32) (mode : U32) :
    bankOf (psr &&& ~~~0xBF ||| mode) = bankOf mode :=
  bankOf_congr (mode_exception psr mode)

/-! Jumps and exceptions -/

theorem view_branchTo (addr : U32) (c : CPU σ) : view (branchTo addr c) = (view c).branchTo addr := by
  rw [branchTo, Arch.branchTo]
  split
  · have hbank : bankOf (c.cpsr ||| 0x20) = bankOf (c.set (.r 15) ((addr &&& ~~~1) + 2)).cpsr :=
      bankOf_congr (mode_or_thumb c.cpsr)
    rw [view_setCPSR hbank, view_set_reg]
    rfl
  · have hbank : bankOf (c.cpsr &&& ~~~0x20) = bankOf (c.set (.r 15) ((addr &&& ~~~3) + 4)).cpsr :=
      bankOf_congr (mode_and_not_thumb c.cpsr)
    rw [view_setCPSR hbank, view_set_reg]
    rfl

theorem savedCell_eq (b : Bank) (psr : U32) : savedCell psr = (Arch.saved psr).map (place b) := by
  obtain ⟨n, hn⟩ := mode_cases psr
  rw [savedCell, Arch.saved, hn]
  fin_cases n <;> rfl

theorem view_restoreCPSR (c : CPU σ) :
    view (restoreCPSR core c) = (view c).restoreCPSR core := by
  rw [restoreCPSR, Arch.restoreCPSR, savedCell_eq (bankOf c.cpsr),
    show (view c).cpsr = c.cpsr from rfl]
  cases Arch.saved c.cpsr with
  | none => exact view_changeMode core _ c
  | some x => exact view_changeMode core _ c

/-- The saved status and the return address of an exception just entered. -/
theorem view_link {m : Exc} {c : CPU σ} (hbank : bankOf c.cpsr = .exc m) (oldcpsr offset : U32) :
    view ((c.set (.rExc m 2) oldcpsr).set (.r 14) ((c.set (.rExc m 2) oldcpsr).get (.r 15) +
      if oldcpsr &&& 0x20 ≠ 0 then offset else 0)) = (view c).link m oldcpsr offset := by
  have hsaved : view (c.set (.rExc m 2) oldcpsr) = (view c).set (.spsr m) oldcpsr :=
    view_set c (.spsr m) oldcpsr
  have hreg : ((view c).set (.spsr m) oldcpsr).reg 14 = .exc m 1 := by
    rw [Arch.reg]
    change named (bankOf c.cpsr) 14 = _
    rw [hbank]
    rfl
  rw [view_set_reg, get_reg, hsaved, hreg, Arch.link]
  rfl

theorem view_prefetchAbort (c : CPU σ) :
    view (prefetchAbort core c) = (view c).prefetchAbort core := by
  have hview := view_changeMode core ((c.cpsr &&& ~~~0xBF) ||| 0x97) c
  have hbank : bankOf (changeMode core ((c.cpsr &&& ~~~0xBF) ||| 0x97) c).cpsr = .exc .abt := by
    rw [changeMode, (updateMode_keeps core _ _ _ _).1]
    exact bankOf_exception c.cpsr 0x97
  have hcpsr : (view c).cpsr = c.cpsr := rfl
  rw [prefetchAbort, Arch.prefetchAbort, hcpsr, ← hview]
  generalize changeMode core ((c.cpsr &&& ~~~0xBF) ||| 0x97) c = c1 at hbank
  change _ = if !core.executable c1.bus (page c1.exceptionBase) then view c1 else _
  dsimp only
  split
  · rfl
  · rw [view_branchTo, view_link hbank]
    rfl

theorem view_jump (core : Core σ) (addr : U32) (c : CPU σ) : view (jump core addr c) = (view c).jump core addr := by
  rw [jump, Arch.jump, ← view_branchTo]
  change _ = if core.num = .arm9 ∧ !core.executable (branchTo addr c).bus _ then _ else _
  split
  · exact view_prefetchAbort _
  · rfl

theorem view_jumpTo (addr : U32) (restorecpsr : Bool) (c : CPU σ) :
    view (jumpTo core addr restorecpsr c) = (view c).jumpTo core addr restorecpsr := by
  rw [jumpTo, Arch.jumpTo]
  cases restorecpsr with
  | true =>
    rw [if_pos rfl, if_pos rfl, ← view_restoreCPSR]
    dsimp only
    rw [view_jump, CPU.thumb]
    simp only [decide_eq_true_eq]
    rfl
  | false => exact view_jump core addr c

theorem view_dataAbort (c : CPU σ) : view (dataAbort core c) = (view c).dataAbort core := by
  have hview := view_changeMode core ((c.cpsr &&& ~~~0xBF) ||| 0x97) c
  have hbank : bankOf (changeMode core ((c.cpsr &&& ~~~0xBF) ||| 0x97) c).cpsr = .exc .abt := by
    rw [changeMode, (updateMode_keeps core _ _ _ _).1]
    exact bankOf_exception c.cpsr 0x97
  have hcpsr : (view c).cpsr = c.cpsr := rfl
  rw [dataAbort, Arch.dataAbort, hcpsr, ← hview, view_jump, view_link hbank]
  rfl

theorem view_triggerIRQ (c : CPU σ) : view (triggerIRQ core c) = (view c).triggerIRQ core := by
  have hview := view_changeMode core ((c.cpsr &&& ~~~0xBF) ||| 0x92) c
  have hbank : bankOf (changeMode core ((c.cpsr &&& ~~~0xBF) ||| 0x92) c).cpsr = .exc .irq := by
    rw [changeMode, (updateMode_keeps core _ _ _ _).1]
    exact bankOf_exception c.cpsr 0x92
  have hcpsr : (view c).cpsr = c.cpsr := rfl
  rw [triggerIRQ, Arch.triggerIRQ, hcpsr]
  split
  · rfl
  · dsimp only
    rw [← hview]
    generalize changeMode core ((c.cpsr &&& ~~~0xBF) ||| 0x92) c = c1 at hbank
    have hjump := view_jump core (c1.exceptionBase + 0x18)
      ((c1.set (.rExc .irq 2) c.cpsr).set (.r 14) ((c1.set (.rExc .irq 2) c.cpsr).get (.r 15) +
        if c.cpsr &&& 0x20 ≠ 0 then 2 else 0))
    rw [view_link hbank] at hjump
    split
    · exact congrArg (fun a : Arch σ => { a with bus := core.runCheats a.bus }) hjump
    · exact hjump

/-! Data accesses -/

theorem view_dataRead32 (addr : U32) (c : CPU σ) :
    (dataRead32 core addr c).map id view = (view c).dataRead32 core addr := by
  rw [dataRead32, Arch.dataRead32]
  change _ = if core.num = .arm9 ∧ !core.readable c.bus (page addr) then _ else _
  split
  · exact Prod.ext rfl (view_dataAbort c)
  · rfl

theorem view_dataWrite32 (addr v : U32) (c : CPU σ) :
    (dataWrite32 core addr v c).map id view = (view c).dataWrite32 core addr v := by
  rw [dataWrite32, Arch.dataWrite32]
  change _ = if core.num = .arm9 ∧ !core.writable c.bus (page addr) then _ else _
  split
  · exact Prod.ext rfl (view_dataAbort c)
  · rfl

/-! Block transfers -/

theorem userTransferReg_eq (psr : U32) (i : Fin 16) :
    userTransferReg psr i = place (bankOf psr) (named .usr i) := by
  obtain ⟨n, hn⟩ := mode_cases psr
  rw [userTransferReg, bankOf, hn]
  clear hn
  revert n i
  decide

theorem view_restoreTransferBase (reg : Fin 16) (base oldcpsr : U32) (c : CPU σ) :
    view (restoreTransferBase core reg base oldcpsr c) =
      (view c).restoreTransferBase reg base oldcpsr := by
  rw [restoreTransferBase, Arch.restoreTransferBase]
  split
  · rfl
  · obtain ⟨hcpsr, hvec, hbus⟩ := updateMode_keeps core c.cpsr oldcpsr true c
    generalize hc1 : updateMode core c.cpsr oldcpsr true c = c1 at hcpsr hvec hbus
    obtain ⟨hcpsr', hvec', hbus'⟩ :=
      updateMode_keeps core oldcpsr c1.cpsr true (c1.set (.r reg) base)
    have hregs : (fun x => (updateMode core oldcpsr c1.cpsr true (c1.set (.r reg) base)).cells
        (place (bankOf c1.cpsr) x)) =
        Function.update (view c).regs (named (bankOf oldcpsr) reg) base := by
      funext x
      have hplace := Function.update_comp_eq_of_injective c1.cells (place_injective (bankOf oldcpsr))
        (named (bankOf oldcpsr) reg) base
      rw [place_named] at hplace
      rw [updateMode_place]
      refine (congrFun hplace x).trans ?_
      have hview : (fun y => c1.cells (place (bankOf oldcpsr) y)) = (view c).regs := by
        funext y
        rw [← hc1, updateMode_place]
        rfl
      exact congrArg (fun f => Function.update f (named (bankOf oldcpsr) reg) base x) hview
    have hphony : ∀ p : Prop, ¬(p ∧ true = false ∧ core.num = .arm9) := by
      intro p h
      cases h.2.1
    rw [if_neg (hphony _)] at hbus hbus'
    change view (updateMode core oldcpsr c1.cpsr true (c1.set (.r reg) base)) = _
    generalize updateMode core oldcpsr c1.cpsr true (c1.set (.r reg) base) = c2 at *
    rw [view, hcpsr', hvec', hbus']
    change Arch.mk (fun x => c2.cells (place (bankOf c1.cpsr) x)) c1.cpsr c1.highVectors c1.bus = _
    rw [hregs, hcpsr, hvec, hbus]
    rfl

theorem dataRead32_cpsr {addr v : U32} {c c' : CPU σ} (h : dataRead32 core addr c = (some v, c')) :
    c'.cpsr = c.cpsr := by
  rw [dataRead32] at h
  split at h
  · cases h
  · cases h
    rfl

/-- The register a block transfer addresses. -/
theorem view_set_transfer (user : Bool) (psr : U32) (i : Fin 16) (v : U32) {c : CPU σ}
    (hpsr : c.cpsr = psr) :
    view (c.set (if user then userTransferReg psr i else .r i) v) =
      (view c).set (if user then named .usr i else (view c).reg i) v := by
  cases user with
  | true =>
    rw [if_pos rfl, if_pos rfl, userTransferReg_eq, ← hpsr]
    exact view_set c (named .usr i) v
  | false => exact view_set_reg c i v

theorem get_transfer (user : Bool) (c : CPU σ) (i : Fin 16) :
    c.get (if user then userTransferReg c.cpsr i else .r i) =
      (view c).get (if user then named .usr i else (view c).reg i) := by
  cases user with
  | true =>
    rw [if_pos rfl, if_pos rfl, userTransferReg_eq]
    rfl
  | false => exact get_reg c i

theorem view_loadRegs (preinc user : Bool) (regs : List (Fin 16)) (base : U32) (c : CPU σ) :
    (loadRegs core preinc user regs base c).map id view =
      (view c).loadRegs core preinc user regs base := by
  induction regs generalizing base c with
  | nil => rfl
  | cons i regs ih =>
    rw [loadRegs, Arch.loadRegs, ← view_dataRead32]
    cases h : dataRead32 core (if preinc = true then base + 4 else base) c with
    | mk v c' =>
      cases v with
      | none => rfl
      | some v =>
        have hstep := ih (if preinc then (if preinc then base + 4 else base)
          else (if preinc then base + 4 else base) + 4)
          (c'.set (if user then userTransferReg c.cpsr i else .r i) v)
        rw [view_set_transfer user c.cpsr i v (dataRead32_cpsr h)] at hstep
        exact hstep

theorem view_storeRegs (instr oldbase : U32) (preinc isbanked : Bool) (regs : List (Fin 16))
    (base : U32) (c : CPU σ) :
    (storeRegs core instr oldbase preinc isbanked regs base c).map id view =
      (view c).storeRegs core instr oldbase preinc isbanked regs base := by
  induction regs generalizing base c with
  | nil => rfl
  | cons i regs ih =>
    rw [storeRegs, Arch.storeRegs, ← get_transfer, ← view_dataWrite32]
    cases h : dataWrite32 core _ _ c with
    | mk ok c' =>
      cases ok with
      | false => rfl
      | true => exact ih _ c'

theorem view_setIf (p : Prop) [Decidable p] (i : Fin 16) (v : U32) (c : CPU σ) :
    view (if p then c.set (.r i) v else c) =
      if p then (view c).set ((view c).reg i) v else view c := by
  split
  · exact view_set_reg c i v
  · rfl

theorem view_emptyBlockTransfer (instr : U32) (load : Bool) (c : CPU σ) :
    view (emptyBlockTransfer core instr load c) =
      (view c).emptyBlockTransfer core instr load := by
  rw [emptyBlockTransfer, Arch.emptyBlockTransfer, ← get_reg]
  dsimp only
  split
  · exact view_setIf _ _ _ c
  · split
    · rw [← view_dataRead32]
      cases h : dataRead32 core _ c with
      | mk v c' =>
        cases v with
        | none => rfl
        | some v =>
          dsimp only [Prod.map, id]
          rw [view_jumpTo, view_setIf]
    · have hpc : (view c).get .pc = c.get (.r 15) := rfl
      rw [hpc, ← view_dataWrite32]
      exact view_setIf _ _ _ _

theorem view_writeback (p q r : Prop) [Decidable p] [Decidable q] [Decidable r] (i : Fin 16)
    (v : U32) (c : CPU σ) :
    view (if p then if q then if r then c.set (.r i) v else c else c.set (.r i) v else c) =
      if p then
        if q then if r then (view c).set ((view c).reg i) v else view c
        else (view c).set ((view c).reg i) v
      else view c := by
  split
  · split
    · exact view_setIf r i v c
    · exact view_set_reg c i v
  · rfl

theorem view_aLDM (instr : U32) (c : CPU σ) :
    view (aLDM core instr c) = (view c).aLDM core instr := by
  rw [aLDM, Arch.aLDM]
  split
  · exact view_emptyBlockTransfer instr true c
  · dsimp only
    rw [← get_reg, ← view_loadRegs]
    cases h : loadRegs core _ _ _ _ c with
    | mk base c1 =>
      cases base with
      | none => exact view_restoreTransferBase _ _ _ c1
      | some base =>
        dsimp only [Prod.map, id]
        split
        · rw [← view_dataRead32]
          cases hpc : dataRead32 core _ c1 with
          | mk pc c2 =>
            cases pc with
            | none => exact view_restoreTransferBase _ _ _ c2
            | some pc =>
              dsimp only [Prod.map, id]
              rw [view_jumpTo, view_writeback]
        · exact view_writeback _ _ _ _ _ c1

theorem view_aSTM (instr : U32) (c : CPU σ) :
    view (aSTM core instr c) = (view c).aSTM core instr := by
  rw [aSTM, Arch.aSTM]
  split
  · exact view_emptyBlockTransfer instr false c
  · dsimp only
    have hcpsr : (view c).cpsr = c.cpsr := rfl
    rw [hcpsr, ← get_reg, ← view_storeRegs]
    cases h : storeRegs core instr _ _ _ _ _ c with
    | mk base c1 =>
      cases base with
      | none => rfl
      | some base => exact view_setIf _ _ _ c1

end MelonDS.ARM
