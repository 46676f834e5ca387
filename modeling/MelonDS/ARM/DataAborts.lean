import Mathlib.Logic.Relation
import MelonDS.ARM.LoadStore
import MelonDS.ARM.Refinement

/-!
# Data aborts

An instruction whose access fails leaves the processor in the abort handler as if it had not
started: its base and, where it loads single registers, its destinations are what they were, and
the bus has only seen the accesses in front of the one that failed.
-/

namespace MelonDS.ARM

variable {σ : Type*} {core : Core σ}

/-! ## The exception -/

theorem bankOf_abt_iff (psr : U32) : bankOf psr = .exc .abt ↔ psr &&& 0x1F = 0x17 := by
  obtain ⟨n, hn⟩ := mode_cases psr
  rw [bankOf, hn]
  clear hn
  revert n
  decide

theorem named_ne_spsr (b : Bank) (i : Fin 16) (m : Exc) : named b i ≠ .spsr m := by
  cases b with
  | usr => revert i; cases m <;> decide
  | fiq => revert i; cases m <;> decide
  | exc m' => revert i; cases m <;> cases m' <;> decide

theorem named_eq_pc {b : Bank} {i : Fin 16} (h : named b i = .pc) : i = 15 := by
  cases b with
  | usr => revert i; decide
  | fiq => revert i; decide
  | exc m => revert i; cases m <;> decide

theorem named_eq_link {b : Bank} {i : Fin 16} (h : named b i = .exc .abt 1) :
    b = .exc .abt ∧ i = 14 := by
  cases b with
  | usr => revert i; decide
  | fiq => revert i; decide
  | exc m => revert i; cases m <;> decide

namespace Arch

theorem branchTo_keeps (addr : U32) (a : Arch σ) :
    (branchTo addr a).cpsr &&& 0x1F = a.cpsr &&& 0x1F ∧
      (branchTo addr a).highVectors = a.highVectors ∧ (branchTo addr a).bus = a.bus ∧
      ∀ x, x ≠ .pc → (branchTo addr a).regs x = a.regs x := by
  rw [branchTo]
  split
  · exact ⟨mode_or_thumb _, rfl, rfl, fun x hx => Function.update_of_ne hx _ _⟩
  · exact ⟨mode_and_not_thumb _, rfl, rfl, fun x hx => Function.update_of_ne hx _ _⟩

/-- The vector lies in the page of the exception base. -/
theorem page_vector (a : Arch σ) :
    page (jumpTarget (a.exceptionBase + 0x10)) = page a.exceptionBase := by
  rw [exceptionBase]
  cases a.highVectors <;> decide

/-- The jump to the vector, in the abort mode: a page that is not executable does not get as far
as saving the status again. -/
theorem jump_vector {a : Arch σ} (hmode : a.cpsr &&& 0x1F = 0x17) :
    (a.jump core (a.exceptionBase + 0x10)).cpsr &&& 0x1F = 0x17 ∧
      (a.jump core (a.exceptionBase + 0x10)).bus = a.bus ∧
      ∀ x, x ≠ .pc → (a.jump core (a.exceptionBase + 0x10)).regs x = a.regs x := by
  obtain ⟨hcpsr, hvectors, hbus, hregs⟩ := branchTo_keeps (a.exceptionBase + 0x10) a
  rw [jump]
  split
  · next hpage =>
    have hmode' : ((branchTo (a.exceptionBase + 0x10) a).cpsr &&& ~~~0xBF ||| 0x97) &&& 0x1F =
        0x17 := mode_exception _ _
    have hbase : (changeMode core ((branchTo (a.exceptionBase + 0x10) a).cpsr &&& ~~~0xBF ||| 0x97)
        (branchTo (a.exceptionBase + 0x10) a)).exceptionBase = a.exceptionBase :=
      congrArg (fun h : Bool => if h then (0xFFFF0000 : U32) else 0) hvectors
    have hsame : (changeMode core ((branchTo (a.exceptionBase + 0x10) a).cpsr &&& ~~~0xBF ||| 0x97)
        (branchTo (a.exceptionBase + 0x10) a)).bus = (branchTo (a.exceptionBase + 0x10) a).bus :=
      if_neg fun h => h.1 (by rw [hmode', hcpsr, hmode])
    rw [prefetchAbort, if_pos]
    · exact ⟨hmode', hsame.trans hbus, hregs⟩
    · rw [hsame, hbase, ← page_vector]
      exact hpage.2
  · exact ⟨hcpsr.trans hmode, hbus, hregs⟩

/-- A data abort writes the link register, the saved status and the program counter. -/
theorem dataAbort_spec (a : Arch σ) : (a.dataAbort core).cpsr &&& 0x1F = 0x17 ∧
    (a.dataAbort core).regs (.spsr .abt) = a.cpsr ∧
    (a.dataAbort core).bus =
      (if a.cpsr &&& 0x1F ≠ 0x17 ∧ core.num = .arm9 then core.selectMap false a.bus else a.bus) ∧
    ∀ x, x ≠ .pc → x ≠ .spsr .abt → x ≠ .exc .abt 1 →
      (a.dataAbort core).regs x = a.regs x := by
  have hmode : ((a.cpsr &&& ~~~0xBF) ||| 0x97) &&& 0x1F = 0x17 := mode_exception _ _
  generalize hl : (changeMode core ((a.cpsr &&& ~~~0xBF) ||| 0x97) a).link .abt a.cpsr 4 = l
  have hcpsr : l.cpsr = (a.cpsr &&& ~~~0xBF) ||| 0x97 := by rw [← hl]; rfl
  have hbus : l.bus = if a.cpsr &&& 0x1F ≠ 0x17 ∧ core.num = .arm9 then
      core.selectMap false a.bus else a.bus := by
    rw [← hl]
    change (changeMode core ((a.cpsr &&& ~~~0xBF) ||| 0x97) a).bus = _
    rw [changeMode, hmode]
    rfl
  have hjump : a.dataAbort core = l.jump core (l.exceptionBase + 0x10) := by
    rw [← hl]
    rfl
  obtain ⟨hmode', hbus', hregs⟩ := @jump_vector _ core l (hcpsr ▸ hmode)
  rw [hjump]
  refine ⟨hmode', ?_, hbus'.trans hbus, fun x hpc hspsr hlink => ?_⟩
  · rw [hregs (.spsr .abt) (by decide), ← hl]
    rfl
  · rw [hregs _ hpc, ← hl, link, set, set]
    exact (Function.update_of_ne hlink _ _).trans (Function.update_of_ne hspsr _ _)

end Arch

/-! ## Instructions -/

section
variable (port : Port σ)

/-- One access that succeeds. -/
inductive Access : σ → σ → Prop
  | read8 (addr : U32) (s : σ) (h : port.num = .arm9 → port.readable s (page addr) = true) :
      Access s (port.read8 addr s).2
  | read16 (addr : U32) (s : σ) (h : port.num = .arm9 → port.readable s (page addr) = true) :
      Access s (port.read16 (addr &&& ~~~1) s).2
  | read32 (addr : U32) (s : σ) (h : port.num = .arm9 → port.readable s (page addr) = true) :
      Access s (port.read32 (addr &&& ~~~3) s).2
  | write8 (addr : U32) (v : U8) (s : σ)
      (h : port.num = .arm9 → port.writable s (page addr) = true) :
      Access s (port.write8 addr v s)
  | write16 (addr : U32) (v : U16) (s : σ)
      (h : port.num = .arm9 → port.writable s (page addr) = true) :
      Access s (port.write16 (addr &&& ~~~1) v s)
  | write32 (addr v : U32) (s : σ) (h : port.num = .arm9 → port.writable s (page addr) = true) :
      Access s (port.write32 (addr &&& ~~~3) v s)

/-- An access fails here, in the selected map or in the user map. -/
def Refused (s : σ) : Prop :=
  port.num = .arm9 ∧ ∃ addr, ∃ s' ∈ [s, port.selectMap true s],
    port.readable s' (page addr) = false ∨ port.writable s' (page addr) = false

/-- What an instruction has changed at one of its accesses: cells among `w`, and the bus by the
accesses in front of it. -/
structure Reached (w : Cell → Prop) (c d : CPU σ) : Prop where
  cells : ∀ x, ¬w x → d.cells x = c.cells x
  cpsr : d.cpsr = c.cpsr
  bus : Relation.ReflTransGen (Access port) c.bus d.bus

variable {α β : Type*} (w : Cell → Prop)

/-- A part of an instruction that fails only by a data abort at an access. -/
def Faults (m : Transfer σ α) : Prop := ∀ c d d', Reached port w c d → m d = (none, d') →
  ∃ e, Reached port w c e ∧ Refused port e.bus ∧ d' = dataAbort port.toCore e

/-- A part that accesses the bus and writes cells among `w`. -/
def Keeps (m : Transfer σ α) : Prop := ∀ c d a d', Reached port w c d → m d = (some a, d') →
  Reached port w c d'

end

section
variable {port : Port σ} {instr : U32} {w : Cell → Prop} {α β : Type*}

theorem Reached.refl (c : CPU σ) : Reached port w c c := ⟨fun _ _ => rfl, rfl, .refl⟩

theorem Faults.andThen {m : Transfer σ α} {f : α → Transfer σ β} (hm : Faults port w m)
    (hk : Keeps port w m) (hf : ∀ a, Faults port w (f a)) : Faults port w (m.andThen f) := by
  intro c d d' hd h
  rw [Transfer.andThen] at h
  cases hm' : m d with
  | mk r e =>
    rw [hm'] at h
    cases r with
    | none =>
      cases h
      exact hm c d _ hd hm'
    | some a => exact hf a c e d' (hk c d a e hd hm') h

theorem Keeps.andThen {m : Transfer σ α} {f : α → Transfer σ β} (hm : Keeps port w m)
    (hf : ∀ a, Keeps port w (f a)) : Keeps port w (m.andThen f) := by
  intro c d b d' hd h
  rw [Transfer.andThen] at h
  cases hm' : m d with
  | mk r e =>
    rw [hm'] at h
    cases r with
    | none => cases h
    | some a => exact hf a c e b d' (hm c d a e hd hm') h

theorem Faults.finish (update : CPU σ → CPU σ) : Faults port w (.finish update) :=
  fun _ _ _ _ h => by cases h

/-- The first thing an instruction does is to read its registers. -/
theorem Faults.dep {f : CPU σ → Transfer σ α} (h : ∀ c, Faults port w (f c)) :
    Faults port w fun c => f c c :=
  fun c d d' hd heq => h d c d d' hd heq

/-! Accesses -/

theorem mayRead_iff {addr : U32} {c : CPU σ} : mayRead port addr c = true ↔
    (port.num = .arm9 → port.readable c.bus (page addr) = true) := by
  rw [mayRead, Bool.or_eq_true, decide_eq_true_iff]
  exact imp_iff_not_or.symm

theorem mayWrite_iff {addr : U32} {c : CPU σ} : mayWrite port addr c = true ↔
    (port.num = .arm9 → port.writable c.bus (page addr) = true) := by
  rw [mayWrite, Bool.or_eq_true, decide_eq_true_iff]
  exact imp_iff_not_or.symm

theorem refused_read {addr : U32} {c : CPU σ} (h : ¬mayRead port addr c = true) :
    Refused port c.bus := by
  rw [mayRead_iff, Classical.not_imp, Bool.not_eq_true] at h
  exact ⟨h.1, addr, c.bus, List.mem_cons_self, .inl h.2⟩

theorem refused_write {addr : U32} {c : CPU σ} (h : ¬mayWrite port addr c = true) :
    Refused port c.bus := by
  rw [mayWrite_iff, Classical.not_imp, Bool.not_eq_true] at h
  exact ⟨h.1, addr, c.bus, List.mem_cons_self, .inr h.2⟩

/-- Both halves of an access: it succeeds with one step of the bus, or aborts where it is. -/
structure Clean (port : Port σ) (m : Transfer σ α) : Prop where
  fails : ∀ d d', m d = (none, d') → Refused port d.bus ∧ d' = dataAbort port.toCore d
  serves : ∀ d a d', m d = (some a, d') →
    d' = { d with bus := d'.bus } ∧ Relation.ReflTransGen (Access port) d.bus d'.bus

theorem Clean.faults {m : Transfer σ α} (h : Clean port m) : Faults port w m :=
  fun _ d d' hd heq => ⟨d, hd, h.fails d d' heq⟩

theorem Clean.keeps {m : Transfer σ α} (h : Clean port m) : Keeps port w m := by
  intro c d a d' hd heq
  obtain ⟨hsame, hbus⟩ := h.serves d a d' heq
  rw [hsame]
  exact ⟨hd.cells, hd.cpsr, hd.bus.trans hbus⟩

theorem clean_of_read {m : Transfer σ α} {addr : U32} (read : σ → α × σ)
    (hm : ∀ c, m c = if mayRead port addr c then
      (some (read c.bus).1, { c with bus := (read c.bus).2 }) else (none, dataAbort port.toCore c))
    (hstep : ∀ c, mayRead port addr c = true → Access port c.bus (read c.bus).2) :
    Clean port m := by
  refine ⟨fun d d' h => ?_, fun d a d' h => ?_⟩
  · rw [hm] at h
    split at h
    · cases h
    · next hno =>
      cases h
      exact ⟨refused_read hno, rfl⟩
  · rw [hm] at h
    split at h
    · next hyes =>
      cases h
      exact ⟨rfl, .single (hstep d hyes)⟩
    · cases h

theorem clean_of_write {m : Transfer σ Unit} {addr : U32} (write : σ → σ)
    (hm : ∀ c, m c = if mayWrite port addr c then (some (), { c with bus := write c.bus })
      else (none, dataAbort port.toCore c))
    (hstep : ∀ c, mayWrite port addr c = true → Access port c.bus (write c.bus)) :
    Clean port m := by
  refine ⟨fun d d' h => ?_, fun d a d' h => ?_⟩
  · rw [hm] at h
    split at h
    · cases h
    · next hno =>
      cases h
      exact ⟨refused_write hno, rfl⟩
  · rw [hm] at h
    split at h
    · next hyes =>
      cases h
      exact ⟨rfl, .single (hstep d hyes)⟩
    · cases h

theorem clean_dataRead8 (addr : U32) : Clean port (dataRead8 port addr) :=
  clean_of_read (fun s => ((port.read8 addr s).1.setWidth 32, (port.read8 addr s).2))
    (fun _ => rfl) fun c h => .read8 addr c.bus (mayRead_iff.mp h)

theorem clean_dataRead16 (addr : U32) : Clean port (dataRead16 port addr) :=
  clean_of_read (fun s => ((port.read16 (addr &&& ~~~1) s).1.setWidth 32,
    (port.read16 (addr &&& ~~~1) s).2)) (fun _ => rfl)
    fun c h => .read16 addr c.bus (mayRead_iff.mp h)

theorem clean_dataWrite8 (addr v : U32) : Clean port (dataWrite8 port addr v) :=
  clean_of_write (port.write8 addr (v.setWidth 8)) (fun _ => rfl)
    fun c h => .write8 addr _ c.bus (mayWrite_iff.mp h)

theorem clean_dataWrite16 (addr v : U32) : Clean port (dataWrite16 port addr v) :=
  clean_of_write (port.write16 (addr &&& ~~~1) (v.setWidth 16)) (fun _ => rfl)
    fun c h => .write16 addr _ c.bus (mayWrite_iff.mp h)

theorem clean_readWord (addr : U32) : Clean port (readWord port.toCore addr) := by
  refine clean_of_read (port.read32 (addr &&& ~~~3)) (fun c => ?_)
    fun c h => .read32 addr c.bus (mayRead_iff.mp h)
  rw [readWord, dataRead32, mayRead]
  by_cases h : port.num = .arm9
  · cases port.readable c.bus (page addr) <;> simp [h]
  · simp [h]

theorem clean_writeWord (addr v : U32) : Clean port (writeWord port.toCore addr v) := by
  refine clean_of_write (port.write32 (addr &&& ~~~3) v) (fun c => ?_)
    fun c h => .write32 addr v c.bus (mayWrite_iff.mp h)
  rw [writeWord, dataWrite32, mayWrite]
  by_cases h : port.num = .arm9
  · cases port.writable c.bus (page addr) <;> simp [h]
  · simp [h]

theorem clean_checkUserTransfer (addr : U32) (store : Bool) :
    Clean port (checkUserTransfer port instr addr store) := by
  have hcases (d : CPU σ) : checkUserTransfer port instr addr store d = (some (), d) ∨
      (checkUserTransfer port instr addr store d = (none, dataAbort port.toCore d) ∧
        Refused port d.bus) := by
    rw [checkUserTransfer]
    split
    · exact .inl rfl
    · next hchecked =>
      rw [not_or, not_not] at hchecked
      dsimp only
      by_cases hperm : (if store then port.writable (port.selectMap true d.bus) (page addr)
          else port.readable (port.selectMap true d.bus) (page addr)) = true
      · rw [if_pos hperm]
        exact .inl rfl
      · rw [if_neg hperm]
        refine .inr ⟨rfl, hchecked.1, addr, port.selectMap true d.bus, by simp, ?_⟩
        cases store with
        | false => exact .inl (Bool.not_eq_true _ ▸ hperm)
        | true => exact .inr (Bool.not_eq_true _ ▸ hperm)
  refine ⟨fun d d' h => ?_, fun d a d' h => ?_⟩
  · rcases hcases d with heq | ⟨heq, hrefused⟩
    · cases heq.symm.trans h
    · cases heq.symm.trans h
      exact ⟨hrefused, rfl⟩
  · rcases hcases d with heq | ⟨heq, -⟩
    · cases heq.symm.trans h
      exact ⟨rfl, .refl⟩
    · cases heq.symm.trans h

/-! Loops -/

theorem Reached.set {c d : CPU σ} {x : Cell} (h : Reached port w c d) (hx : w x) (v : U32) :
    Reached port w c (d.set x v) := by
  refine ⟨fun y hy => ?_, h.cpsr, h.bus⟩
  have hne : y ≠ x := fun heq => hy (heq ▸ hx)
  exact (Function.update_of_ne hne _ _).trans (h.cells y hy)

theorem loadRegs_cons (core : Core σ) (preinc user : Bool) (i : Fin 16) (regs : List (Fin 16))
    (base : U32) : loadRegs core preinc user (i :: regs) base = fun c =>
      (readWord core (if preinc then base + 4 else base)).andThen (fun v d =>
        loadRegs core preinc user regs
          (if preinc then (if preinc then base + 4 else base)
            else (if preinc then base + 4 else base) + 4)
          (d.set (if user then userTransferReg c.cpsr i else .r i) v)) c := by
  funext c
  rw [loadRegs, Transfer.andThen, readWord]
  rcases dataRead32 core (if preinc then base + 4 else base) c with ⟨_ | v, d⟩
  · rfl
  · rfl

theorem loadRegs_clean (preinc user : Bool) {regs : List (Fin 16)}
    (hw : ∀ psr, ∀ i ∈ regs, w (if user then userTransferReg psr i else .r i)) (base : U32) :
    Faults port w (loadRegs port.toCore preinc user regs base) ∧
      Keeps port w (loadRegs port.toCore preinc user regs base) := by
  induction regs generalizing base with
  | nil => exact ⟨fun _ _ _ _ h => (by cases h), fun _ _ _ _ hd h => (by cases h; exact hd)⟩
  | cons i regs ih =>
    obtain ⟨hfaults, hkeeps⟩ :=
      ih (fun psr j hj => hw psr j (List.mem_cons_of_mem i hj))
        (if preinc then (if preinc then base + 4 else base)
          else (if preinc then base + 4 else base) + 4)
    have hread := @clean_readWord _ port (if preinc then base + 4 else base)
    have hi (psr : U32) := hw psr i List.mem_cons_self
    rw [loadRegs_cons]
    refine ⟨.dep fun c₀ => .andThen hread.faults hread.keeps fun v c d d' hd h => ?_, ?_⟩
    · exact hfaults c _ d' (hd.set (hi _) v) h
    · intro c d a d' hd h
      refine (hread.keeps.andThen fun v c d b d' hd h => ?_) c d a d' hd h
      exact hkeeps c _ b d' (hd.set (hi _) v) h

/-- The word that `A_STM` stores for a register at an address. -/
def storedWord (core : Core σ) (instr oldbase : U32) (isbanked : Bool) (i : Fin 16) (addr : U32)
    (c : CPU σ) : U32 :=
  if i = baseId instr ∧ !isbanked then
    if core.num = .arm9 ∨ instr &&& ((1 <<< i.val) - 1) = 0 then oldbase else addr
  else
    c.get (if instr.getLsbD 22 then userTransferReg c.cpsr i else .r i) +
      if i = 15 ∧ core.num = .arm7 then 4 else 0

theorem storeRegs_cons (core : Core σ) (oldbase : U32) (preinc isbanked : Bool) (i : Fin 16)
    (regs : List (Fin 16)) (base : U32) :
    storeRegs core instr oldbase preinc isbanked (i :: regs) base = fun c =>
      (writeWord core (if preinc then base + 4 else base) (storedWord core instr oldbase isbanked i
        (if preinc then base + 4 else base) c)).andThen (fun _ =>
          storeRegs core instr oldbase preinc isbanked regs
            (if preinc then (if preinc then base + 4 else base)
              else (if preinc then base + 4 else base) + 4)) c := by
  funext c
  rw [storeRegs, Transfer.andThen, writeWord]
  dsimp only [storedWord]
  rcases dataWrite32 core (if preinc then base + 4 else base) _ c with ⟨_ | _, d⟩
  · rfl
  · rfl

theorem storeRegs_clean (oldbase : U32) (preinc isbanked : Bool) (regs : List (Fin 16))
    (base : U32) :
    Faults port w (storeRegs port.toCore instr oldbase preinc isbanked regs base) := by
  induction regs generalizing base with
  | nil => exact fun _ _ _ _ h => by cases h
  | cons i regs ih =>
    rw [storeRegs_cons]
    exact .dep (f := fun _ => Transfer.andThen _ _) fun c =>
      .andThen (clean_writeWord _ _).faults (clean_writeWord _ _).keeps fun _ => ih _

theorem storeLow_clean (regs : List (Fin 16)) (base : U32) :
    Faults port w (storeLow port.toCore regs base) ∧ Keeps port w (storeLow port.toCore regs base) := by
  induction regs generalizing base with
  | nil => exact ⟨fun _ _ _ _ h => (by cases h), fun _ _ _ _ hd h => (by cases h; exact hd)⟩
  | cons i regs ih =>
    obtain ⟨hfaults, hkeeps⟩ := ih (base + 4)
    have hwrite (v : U32) := @clean_writeWord _ port base v
    refine ⟨.dep (f := fun _ => Transfer.andThen _ _) fun c =>
      .andThen (hwrite _).faults (hwrite _).keeps fun _ => hfaults, ?_⟩
    exact fun c d a d' hd h =>
      ((hwrite (d.get (.r i))).keeps.andThen fun _ => hkeeps) c d a d' hd h

end

/-! ## What is left after an abort -/

/-- A register of the old mode holds what it held; the program counter and the link register of
the exception are the handler's. -/
def Intact (c c' : CPU σ) (i : Fin 16) : Prop :=
  i ≠ 15 → ¬(i = 14 ∧ c.cpsr &&& 0x1F = 0x17) →
    (view c').get (named (bankOf c.cpsr) i) = c.reg i

structure Aborted (port : Port σ) (base : Fin 16) (dests : List (Fin 16)) (c c' : CPU σ) :
    Prop where
  mode : c'.cpsr &&& 0x1F = 0x17
  status : (view c').get (.spsr .abt) = c.cpsr
  base : Intact c c' base
  dests : ∀ rd ∈ dests, Intact c c' rd
  /-- Behind the access that failed only the map has changed, with the mode. -/
  bus : ∃ s, Relation.ReflTransGen (Access port) c.bus s ∧ Refused port s ∧
    c'.bus = if c.cpsr &&& 0x1F ≠ 0x17 ∧ port.num = .arm9 then port.selectMap false s else s

section
variable {port : Port σ} {instr : U32} {w : Cell → Prop} {c e : CPU σ}

theorem dataAbort_bus (e : CPU σ) : (dataAbort core e).bus =
    if e.cpsr &&& 0x1F ≠ 0x17 ∧ core.num = .arm9 then core.selectMap false e.bus else e.bus := by
  have h := congrArg Arch.bus (@view_dataAbort _ core e)
  exact h.trans (Arch.dataAbort_spec (view e)).2.2.1

theorem intact_dataAbort (he : Reached port w c e) {i : Fin 16} (hi : ¬w (.r i)) :
    Intact c (dataAbort port.toCore e) i := by
  intro hpc hlink
  rw [view_dataAbort, ← he.cpsr]
  refine ((Arch.dataAbort_spec (view e)).2.2.2 _ (fun h => hpc (named_eq_pc h))
    (named_ne_spsr _ _ _) fun h => ?_).trans ?_
  · obtain ⟨hbank, h14⟩ := named_eq_link h
    rw [he.cpsr, bankOf_abt_iff] at hbank
    exact hlink ⟨h14, hbank⟩
  · exact (get_reg e i).symm.trans (he.cells _ hi)

theorem aborted_dataAbort {base : Fin 16} {dests : List (Fin 16)} (he : Reached port w c e)
    (hrefused : Refused port e.bus) (hbase : ¬w (.r base)) (hdests : ∀ rd ∈ dests, ¬w (.r rd)) :
    Aborted port base dests c (dataAbort port.toCore e) := by
  obtain ⟨hmode, hstatus, -, -⟩ := @Arch.dataAbort_spec _ port.toCore (view e)
  rw [← view_dataAbort] at hmode hstatus
  refine ⟨hmode, hstatus.trans he.cpsr, intact_dataAbort he hbase,
    fun rd hrd => intact_dataAbort he (hdests rd hrd), e.bus, he.bus, hrefused, ?_⟩
  rw [dataAbort_bus, he.cpsr]

/-- A block load gives its base back, wherever it has been loaded before. -/
theorem aborted_restored {base : Fin 16} (he : Reached port w c e) (hrefused : Refused port e.bus) :
    Aborted port base [] c
      (restoreTransferBase port.toCore base (c.reg base) c.cpsr (dataAbort port.toCore e)) := by
  obtain ⟨hmode, hstatus, -, -⟩ := @Arch.dataAbort_spec _ port.toCore (view e)
  have hview := @view_restoreTransferBase _ port.toCore base (c.reg base) c.cpsr
    (dataAbort port.toCore e)
  rw [← view_dataAbort] at hmode hstatus
  rw [Arch.restoreTransferBase] at hview
  split at hview
  · next hexcepted =>
    refine ⟨(congrArg (Arch.cpsr · &&& 0x1F) hview).trans hmode, ?_, fun hpc hlink => ?_,
      fun _ hmem => absurd hmem List.not_mem_nil, e.bus, he.bus, hrefused, ?_⟩
    · rw [hview]
      exact hstatus.trans he.cpsr
    · exact absurd hexcepted (not_or.mpr ⟨hpc, hlink⟩)
    · refine (congrArg Arch.bus hview).trans ?_
      change (dataAbort port.toCore e).bus = _
      rw [dataAbort_bus, he.cpsr]
  · refine ⟨(congrArg (Arch.cpsr · &&& 0x1F) hview).trans hmode, ?_, fun _ _ => ?_,
      fun _ hmem => absurd hmem List.not_mem_nil, e.bus, he.bus, hrefused, ?_⟩
    · rw [hview]
      refine (Function.update_of_ne (named_ne_spsr _ _ _).symm _ _).trans ?_
      exact hstatus.trans he.cpsr
    · rw [hview]
      exact Function.update_self _ _ _
    · refine (congrArg Arch.bus hview).trans ?_
      change (dataAbort port.toCore e).bus = _
      rw [dataAbort_bus, he.cpsr]

end

/-! ## Every instruction -/

namespace LoadStore

/-- The register that holds the base. -/
def base (instr : U32) : LoadStore → Fin 16
  | .ldm | .stm => baseId instr
  | .tLdrPcrel => 15
  | .tStrReg | .tStrbReg | .tLdrReg | .tLdrbReg | .tStrhReg | .tLdrsbReg | .tLdrhReg | .tLdrshReg
  | .tStrImm | .tLdrImm | .tStrbImm | .tLdrbImm | .tStrhImm | .tLdrhImm => low instr 3
  | .tStrSprel | .tLdrSprel | .tPush | .tPop => 13
  | .tStmia | .tLdmia => low instr 8
  | _ => field instr 16

/-- The destinations of the loads of one or two registers and of the swaps. -/
def dests (instr : U32) : LoadStore → List (Fin 16)
  | .ldr _ | .ldrPost _ | .ldrb _ | .ldrbPost _ | .ldrh _ | .ldrhPost _ | .ldrsb _ | .ldrsbPost _
  | .ldrsh _ | .ldrshPost _ | .swp | .swpb => [field instr 12]
  | .ldrd _ | .ldrdPost _ => [pairReg instr, pairReg instr + 1]
  | .tLdrReg | .tLdrbReg | .tLdrsbReg | .tLdrhReg | .tLdrshReg | .tLdrImm | .tLdrbImm
  | .tLdrhImm => [low instr 0]
  | .tLdrPcrel | .tLdrSprel => [low instr 8]
  | _ => []

end LoadStore

section
variable {port : Port σ} {instr : U32} {w : Cell → Prop}

/-- A part of an instruction that may be followed by others. -/
def Good (port : Port σ) (w : Cell → Prop) {α : Type*} (m : Transfer σ α) : Prop :=
  Faults port w m ∧ Keeps port w m

theorem Clean.good {α : Type*} {m : Transfer σ α} (h : Clean port m) : Good port w m :=
  ⟨h.faults, h.keeps⟩

theorem Good.andThen {α β : Type*} {m : Transfer σ α} {f : α → Transfer σ β}
    (hm : Good port w m) (hf : ∀ a, Good port w (f a)) : Good port w (m.andThen f) :=
  ⟨hm.1.andThen hm.2 fun a => (hf a).1, hm.2.andThen fun a => (hf a).2⟩

theorem Good.last {α : Type*} {m : Transfer σ α} {f : α → Transfer σ Unit}
    (hm : Good port w m) (hf : ∀ a, Faults port w (f a)) : Faults port w (m.andThen f) :=
  hm.1.andThen hm.2 hf

theorem good_userStore {access : U32 → U32 → Transfer σ Unit}
    (h : ∀ a v, Good port w (access a v)) (addr v : U32) :
    Good port w (userStore port instr access addr v) :=
  (clean_checkUserTransfer addr true).good.andThen fun _ => h addr v

theorem good_userLoad {access : U32 → Transfer σ U32} (h : ∀ a, Good port w (access a))
    (addr : U32) : Good port w (userLoad port instr access addr) :=
  (clean_checkUserTransfer addr false).good.andThen fun _ => h addr

theorem faults_storePre {access : U32 → U32 → Transfer σ Unit}
    (h : ∀ a v, Good port w (access a v)) (val : CPU σ → U32) (offset : U32) :
    Faults port w (storePre instr access val offset) :=
  .dep (f := fun _ => Transfer.andThen _ _) fun _ => (h _ _).last fun _ => .finish _

theorem faults_storePost {access : U32 → U32 → Transfer σ Unit}
    (h : ∀ a v, Good port w (access a v)) (val : CPU σ → U32) (offset : U32) :
    Faults port w (storePost instr access val offset) :=
  .dep (f := fun _ => Transfer.andThen _ _) fun _ => (h _ _).last fun _ => .finish _

theorem faults_loadPre {access : U32 → Transfer σ U32} (h : ∀ a, Good port w (access a))
    (use : U32 → U32 → CPU σ → CPU σ) (offset : U32) :
    Faults port w (loadPre instr access use offset) :=
  .dep (f := fun _ => Transfer.andThen _ _) fun _ => (h _).last fun _ => .finish _

theorem faults_loadPost {access : U32 → Transfer σ U32} (h : ∀ a, Good port w (access a))
    (use : U32 → U32 → CPU σ → CPU σ) (offset : U32) :
    Faults port w (loadPost instr access use offset) :=
  .dep (f := fun _ => Transfer.andThen _ _) fun _ => (h _).last fun _ => .finish _

theorem faults_loadPair (addr : U32) (writeback : CPU σ → CPU σ) :
    Faults port w (loadPair port instr addr writeback) := by
  rw [loadPair]
  split
  · exact .finish _
  · exact (clean_readWord addr).good.last fun _ =>
      (clean_readWord (addr + 4)).good.last fun _ => .finish _

theorem faults_storePair (addr : U32) (writeback : CPU σ → CPU σ) :
    Faults port w (storePair port instr addr writeback) := by
  rw [storePair]
  split
  · exact .finish _
  · exact .dep (f := fun _ => Transfer.andThen _ _) fun _ =>
      (clean_writeWord addr _).good.last fun _ =>
        .dep (f := fun _ => Transfer.andThen _ _) fun _ =>
          (clean_writeWord (addr + 4) _).good.last fun _ => .finish _

theorem faults_tLoad {access : U32 → Transfer σ U32} (h : ∀ a, Good port w (access a))
    (addr : CPU σ → U32) (rd : Fin 16) (value : U32 → U32 → U32) :
    Faults port w (tLoad access addr rd value) :=
  .dep (f := fun _ => Transfer.andThen _ _) fun _ => (h _).last fun _ => .finish _

theorem faults_tStore {access : U32 → U32 → Transfer σ Unit}
    (h : ∀ a v, Good port w (access a v)) (addr : CPU σ → U32) (rd : Fin 16) :
    Faults port w (tStore access addr rd) :=
  .dep (f := fun c => access (addr c) (c.reg rd)) fun _ => (h _ _).1

theorem Good.skip : Good port w (.finish id) :=
  ⟨.finish _, fun _ _ _ _ hd h => by cases h; exact hd⟩

theorem faults_stm : Faults port w (storeMultiple instr port.toCore) := by
  intro c d d' hd h
  rw [storeMultiple] at h
  split at h
  · next hfails =>
    cases h
    rw [stmFails, Bool.and_eq_true, decide_eq_true_iff] at hfails
    obtain ⟨hne, hnone⟩ := hfails
    rw [aSTM, if_neg hne]
    dsimp only at hnone ⊢
    generalize hr : storeRegs port.toCore instr _ _ _ _ _ d = r at hnone ⊢
    obtain ⟨_ | b, d'⟩ := r
    · exact storeRegs_clean _ _ _ _ _ c d d' hd hr
    · cases hnone
  · cases h

theorem faults_tPUSH : Faults port w (tPUSH instr port.toCore) := by
  refine .dep (f := fun _ => Transfer.andThen _ _) fun _ => Good.last (storeLow_clean _ _) fun _ => ?_
  refine .dep (f := fun _ => Transfer.andThen _ _) fun c => Good.last ?_ fun _ => .finish _
  split
  · exact (clean_writeWord _ _).good
  · exact .skip

theorem faults_tSTMIA : Faults port w (tSTMIA instr port.toCore) := by
  intro c d d' hd h
  rw [tSTMIA] at h
  split at h
  · dsimp only at h
    split at h
    · cases h
    · cases h
  · refine (Good.last (storeLow_clean _ _) fun _ => ?_) c d d' hd h
    exact .finish _

theorem faults_tPOP (hw : ∀ i ∈ lowList instr, w (.r i)) :
    Faults port w (tPOP instr port.toCore) := by
  refine .dep (f := fun _ => Transfer.andThen _ _) fun _ =>
    Good.last (loadRegs_clean false false (fun _ i hi => hw i hi) _) fun _ => ?_
  split
  · exact (clean_readWord _).good.last fun _ => .finish _
  · exact .finish _

/-- The loads of `A_LDM` abort before the base is given back. -/
theorem faults_ldm {c c' : CPU σ} (h : loadMultiple instr port.toCore c = (none, c')) :
    ∃ e, Reached port (fun _ => True) c e ∧ Refused port e.bus ∧
      c' = restoreTransferBase port.toCore (baseId instr) (c.reg (baseId instr)) c.cpsr
        (dataAbort port.toCore e) := by
  rw [loadMultiple] at h
  split at h
  · next hfails =>
    cases h
    rw [ldmFails, Bool.and_eq_true, decide_eq_true_iff] at hfails
    obtain ⟨hne, hnone⟩ := hfails
    rw [aLDM, if_neg hne]
    dsimp only at hnone ⊢
    generalize hr : loadRegs port.toCore _ _ _ _ c = r at hnone ⊢
    obtain ⟨hloads, hkeeps⟩ := @loadRegs_clean _ port (fun _ => True) _ _ _
      (fun _ _ _ => trivial) _
    obtain ⟨_ | b, d⟩ := r
    · obtain ⟨e, he, hrefused, rfl⟩ := hloads c c d (.refl c) hr
      exact ⟨e, he, hrefused, rfl⟩
    · have hd := hkeeps c c b d (.refl c) hr
      rw [Bool.and_eq_true] at hnone
      obtain ⟨hpc, hnone⟩ := hnone
      dsimp only
      rw [if_pos hpc]
      generalize hq : dataRead32 port.toCore _ d = q at hnone ⊢
      obtain ⟨_ | v, e⟩ := q
      · obtain ⟨hrefused, rfl⟩ := (clean_readWord _).fails d e hq
        exact ⟨d, hd, hrefused, rfl⟩
      · cases hnone
  · cases h

theorem faults_tLDMIA {c c' : CPU σ} (h : tLDMIA instr port.toCore c = (none, c')) :
    ∃ e, Reached port (fun _ => True) c e ∧ Refused port e.bus ∧
      c' = restoreTransferBase port.toCore (low instr 8) (c.reg (low instr 8)) c.cpsr
        (dataAbort port.toCore e) := by
  rw [tLDMIA] at h
  split at h
  · dsimp only at h
    split at h
    · next h7 =>
      -- the ARM7 does not abort
      rw [Transfer.andThen, readWord, dataRead32,
        if_neg fun h9 => absurd (h7.symm.trans h9.1) (by decide)] at h
      cases h
    · cases h
  · generalize hr : loadRegs port.toCore _ _ _ _ c = r at h
    obtain ⟨_ | b, d⟩ := r
    · cases h
      obtain ⟨e, he, hrefused, rfl⟩ := (loadRegs_clean (w := fun _ => True) _ _
        (fun _ _ _ => trivial) _).1 c c d (.refl c) hr
      exact ⟨e, he, hrefused, rfl⟩
    · cases h

end

namespace LoadStore
variable {port : Port σ} {instr : U32} {c c' : CPU σ}

/-- The cells an instruction may have written before an access fails. -/
def written (instr : U32) : LoadStore → Cell → Prop
  | .ldm | .tLdmia => fun _ => True
  | .tPop => fun x => ∃ i ∈ lowList instr, x = .r i
  | _ => fun _ => False

theorem run_faults (i : LoadStore) (hldm : i ≠ .ldm) (hldmia : i ≠ .tLdmia) :
    Faults port (i.written instr) (i.run port instr) := by
  have hr8 (a : U32) := (@clean_dataRead8 _ port a).good (w := i.written instr)
  have hr16 (a : U32) := (@clean_dataRead16 _ port a).good (w := i.written instr)
  have hr32 (a : U32) := (@clean_readWord _ port a).good (w := i.written instr)
  have hw8 (a v : U32) := (@clean_dataWrite8 _ port a v).good (w := i.written instr)
  have hw16 (a v : U32) := (@clean_dataWrite16 _ port a v).good (w := i.written instr)
  have hw32 (a v : U32) := (@clean_writeWord _ port a v).good (w := i.written instr)
  cases i with
  | str form => exact fun c d d' hd h => faults_storePre hw32 _ _ c d d' hd h
  | strPost form => exact fun c d d' hd h => faults_storePost (good_userStore hw32) _ _ c d d' hd h
  | strb form => exact fun c d d' hd h => faults_storePre hw8 _ _ c d d' hd h
  | strbPost form => exact fun c d d' hd h => faults_storePost (good_userStore hw8) _ _ c d d' hd h
  | ldr form => exact fun c d d' hd h => faults_loadPre hr32 _ _ c d d' hd h
  | ldrPost form => exact fun c d d' hd h => faults_loadPost (good_userLoad hr32) _ _ c d d' hd h
  | ldrb form => exact fun c d d' hd h => faults_loadPre hr8 _ _ c d d' hd h
  | ldrbPost form => exact fun c d d' hd h => faults_loadPost (good_userLoad hr8) _ _ c d d' hd h
  | strh reg => exact fun c d d' hd h => faults_storePre hw16 _ _ c d d' hd h
  | strhPost reg => exact fun c d d' hd h => faults_storePost hw16 _ _ c d d' hd h
  | ldrd reg => exact fun c d d' hd h => faults_loadPair _ _ c d d' hd h
  | ldrdPost reg => exact fun c d d' hd h => faults_loadPair _ _ c d d' hd h
  | strd reg => exact fun c d d' hd h => faults_storePair _ _ c d d' hd h
  | strdPost reg => exact fun c d d' hd h => faults_storePair _ _ c d d' hd h
  | ldrh reg => exact fun c d d' hd h => faults_loadPre hr16 _ _ c d d' hd h
  | ldrhPost reg => exact fun c d d' hd h => faults_loadPost hr16 _ _ c d d' hd h
  | ldrsb reg => exact fun c d d' hd h => faults_loadPre hr8 _ _ c d d' hd h
  | ldrsbPost reg => exact fun c d d' hd h => faults_loadPost hr8 _ _ c d d' hd h
  | ldrsh reg => exact fun c d d' hd h => faults_loadPre hr16 _ _ c d d' hd h
  | ldrshPost reg => exact fun c d d' hd h => faults_loadPost hr16 _ _ c d d' hd h
  | swp =>
    exact .dep (f := fun _ => Transfer.andThen _ _) fun _ =>
      (hr32 _).last fun _ => (hw32 _ _).last fun _ => .finish _
  | swpb =>
    exact .dep (f := fun _ => Transfer.andThen _ _) fun _ =>
      (hr8 _).last fun _ => (hw8 _ _).last fun _ => .finish _
  | ldm => exact absurd rfl hldm
  | stm => exact faults_stm
  | tLdrPcrel =>
    rw [run, tLDR_PCREL]
    exact faults_tLoad hr32 _ _ _
  | tStrReg => exact faults_tStore hw32 _ _
  | tStrbReg => exact faults_tStore hw8 _ _
  | tLdrReg => exact faults_tLoad hr32 _ _ _
  | tLdrbReg =>
    rw [run, tLDRB_REG]
    exact faults_tLoad hr8 _ _ _
  | tStrhReg => exact faults_tStore hw16 _ _
  | tLdrsbReg =>
    rw [run, tLDRSB_REG]
    exact faults_tLoad hr8 _ _ _
  | tLdrhReg =>
    rw [run, tLDRH_REG]
    exact faults_tLoad hr16 _ _ _
  | tLdrshReg =>
    rw [run, tLDRSH_REG]
    exact faults_tLoad hr16 _ _ _
  | tStrImm => exact faults_tStore hw32 _ _
  | tLdrImm => exact faults_tLoad hr32 _ _ _
  | tStrbImm => exact faults_tStore hw8 _ _
  | tLdrbImm =>
    rw [run, tLDRB_IMM]
    exact faults_tLoad hr8 _ _ _
  | tStrhImm => exact faults_tStore hw16 _ _
  | tLdrhImm =>
    rw [run, tLDRH_IMM]
    exact faults_tLoad hr16 _ _ _
  | tStrSprel => exact faults_tStore hw32 _ _
  | tLdrSprel =>
    rw [run, tLDR_SPREL]
    exact faults_tLoad hr32 _ _ _
  | tPush => exact faults_tPUSH
  | tPop => exact faults_tPOP fun i hi => ⟨i, hi, rfl⟩
  | tStmia => exact faults_tSTMIA
  | tLdmia => exact absurd rfl hldmia

/-- `T_POP` loads low registers only. -/
theorem not_written {i : LoadStore} (hldm : i ≠ .ldm) (hldmia : i ≠ .tLdmia) :
    ¬i.written instr (.r (i.base instr)) ∧ ∀ rd ∈ i.dests instr, ¬i.written instr (.r rd) := by
  by_cases hpop : i = .tPop
  · subst hpop
    refine ⟨fun ⟨j, hj, heq⟩ => ?_, nofun⟩
    cases heq
    have hlow := (List.mem_filter.mp hj).2
    rw [Bool.and_eq_true, decide_eq_true_iff] at hlow
    exact absurd (show 13 < 8 from hlow.1) (by decide)
  · have hnone (x : Cell) : ¬i.written instr x := by
      cases i <;> first | exact not_false | contradiction
    exact ⟨hnone _, fun rd _ => hnone _⟩

/-- Whatever access of whatever load or store fails, from whatever mode. -/
theorem aborts_precise (port : Port σ) (instr : U32) (i : LoadStore)
    (h : i.run port instr c = (none, c')) :
    Aborted port (i.base instr) (i.dests instr) c c' := by
  by_cases hldm : i = .ldm
  · subst hldm
    obtain ⟨e, he, hrefused, rfl⟩ := faults_ldm h
    exact aborted_restored he hrefused
  · by_cases hldmia : i = .tLdmia
    · subst hldmia
      obtain ⟨e, he, hrefused, rfl⟩ := faults_tLDMIA h
      exact aborted_restored he hrefused
    · obtain ⟨e, he, hrefused, rfl⟩ := run_faults i hldm hldmia c c c' (.refl c) h
      obtain ⟨hbase, hdests⟩ := @not_written instr _ hldm hldmia
      exact aborted_dataAbort he hrefused hbase hdests

/-- A processor no access of which is permitted. -/
def sealed : Port Unit where
  num := .arm9
  readable _ _ := false
  writable _ _ := false
  executable _ _ := true
  selectMap _ s := s
  read32 _ s := (0, s)
  write32 _ _ s := s
  runCheats s := s
  read8 _ s := (0, s)
  read16 _ s := (0, s)
  write8 _ _ s := s
  write16 _ _ s := s

/-- User mode, and every register with a number of its own. -/
def numbered : CPU Unit where
  cells
    | .r i => 0x02000000 + 4 * BitVec.ofNat 32 i
    | _ => 0
  cpsr := 0x10
  highVectors := true
  bus := ()

/-- `ldmia r1!, {r0, r1, r2}` -/
theorem aborts_precise_sealed :
    Aborted sealed 1 [] numbered (LoadStore.ldm.run sealed 0xE8B10007 numbered).2 :=
  aborts_precise sealed 0xE8B10007 .ldm (Prod.ext (by decide) rfl)

/-- `ldr r0, [pc]`: the base is the program counter, which is at the vector now. -/
theorem pc_base_moved : ∃ c', (LoadStore.ldr none).run sealed 0xE59F0000 numbered = (none, c') ∧
    LoadStore.base 0xE59F0000 (.ldr none) = 15 ∧
    (view c').get (named (bankOf numbered.cpsr) 15) ≠ numbered.reg 15 := by
  refine ⟨_, Prod.ext (by decide) rfl, by decide, ?_⟩
  decide

end LoadStore

end MelonDS.ARM
