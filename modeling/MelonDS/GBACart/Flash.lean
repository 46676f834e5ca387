import MelonDS.Library.Overwrite
import MelonDS.Types

/-!
# The flash save of a GBA cart

A flash chip takes its commands as byte writes: an unlock sequence, a command byte, and for an
erase a second unlock sequence. `state` tells how far a sequence has come and `cmd` is the last
command byte, which for a byte program and for a bank switch makes the next write its operand.
-/

namespace MelonDS.GBACart

inductive FlashType
  | flash512K
  | flash1M
deriving DecidableEq

/-- `SRAMFlashState` -/
structure FlashState where
  state : U8
  cmd : U8
  device : U8
  manufacturer : U8
  bank : U8

/-- `reported` lists the offset and length of each save callback, the latest first. -/
structure FlashCart where
  sramType : FlashType
  flash : FlashState
  sram : List U8
  reported : List (ℕ × ℕ)

namespace FlashType

def flashLength : FlashType → ℕ
  | flash512K => 0x10000
  | flash1M => 0x20000

end FlashType

namespace FlashCart

/-- A cart with a fresh save, as `SetupSave` leaves it. -/
def setup (sramType : FlashType) (save : List U8) : FlashCart where
  sramType := sramType
  flash :=
    match sramType with
    | .flash512K => ⟨0, 0, 0x1B, 0x32, 0⟩
    | .flash1M => ⟨0, 0, 0x13, 0x62, 0⟩
  sram := save
  reported := []

variable (c : FlashCart)

def setState (state : U8) (c : FlashCart) : FlashCart :=
  { c with flash := { c.flash with state := state } }

def setCmd (cmd : U8) (c : FlashCart) : FlashCart :=
  { c with flash := { c.flash with cmd := cmd } }

def setBank (bank : U8) (c : FlashCart) : FlashCart :=
  { c with flash := { c.flash with bank := bank } }

/-- Back to reading the array. -/
def endCommand (c : FlashCart) : FlashCart := (c.setState 0).setCmd 0

/-- `Platform::WriteGBASave` on part of the save. -/
def report (offset length : ℕ) (c : FlashCart) : FlashCart :=
  { c with reported := (offset, length) :: c.reported }

def sramReadSRAM (addr : ℕ) : U8 := c.sram.getD addr 0xFF

def sramWriteSRAM (addr : ℕ) (val : U8) : FlashCart :=
  if c.sram.length ≤ addr then c
  else if c.sram.getD addr 0 ≠ val then { c with sram := c.sram.set addr val }.report addr 1
  else c

/-- `memset` to FF, reported. -/
def erase (start length : ℕ) : FlashCart :=
  { c with sram := overwrite c.sram start (List.replicate length 0xFF) }.report start length

def bankOffset : ℕ := 0x10000 * c.flash.bank.toNat

/-- The state a command byte leads to. -/
def commandState (val : U8) : U8 := if val = 0x80 then 0x80 else if val = 0x90 then 0x90 else 0

/-- A byte write that is not the operand of a command. -/
def sequenceWrite (addr : ℕ) (val : U8) : FlashCart :=
  let flashLength := c.sramType.flashLength
  if c.flash.state = 0x00 then
    if addr = 0x5555 ∧ val = 0xF0 then c.endCommand
    else if addr = 0x5555 ∧ val = 0xAA then c.setState 1
    else c
  else if c.flash.state = 0x01 then
    if addr = 0x2AAA ∧ val = 0x55 then c.setState 2 else c.setState 0
  else if c.flash.state = 0x02 then
    if addr = 0x5555 then
      (c.setState (commandState val)).setCmd val
    else c.setState 0
  else if c.flash.state = 0x80 then
    if addr = 0x5555 ∧ val = 0xAA then c.setState 0x81 else c.setState 0
  else if c.flash.state = 0x81 then
    if addr = 0x2AAA ∧ val = 0x55 then c.setState 0x82 else c.setState 0
  else if c.flash.state = 0x82 then
    if val = 0x10 ∧ addr = 0x5555 then
      if flashLength ≤ c.sram.length then (c.erase 0 flashLength).endCommand else c.endCommand
    else if val = 0x30 then
      let start := addr / 0x1000 * 0x1000 + c.bankOffset
      if start < flashLength ∧ start + 0x1000 ≤ c.sram.length then
        (c.erase start 0x1000).endCommand
      else c.endCommand
    else c.endCommand
  else if c.flash.state = 0x90 then
    if addr = 0x5555 ∧ val = 0xAA then c.setState 0x91 else c.setState 0
  else if c.flash.state = 0x91 then
    if addr = 0x2AAA ∧ val = 0x55 then c.setState 0x92 else c.setState 0
  else if c.flash.state = 0x92 then c.endCommand
  else c

def sramWriteFlash (addr : ℕ) (val : U8) : FlashCart :=
  if c.flash.cmd = 0xA0 then
    let offset := addr + c.bankOffset
    if offset < c.sramType.flashLength then (c.sramWriteSRAM offset val).endCommand
    else c.endCommand
  else if c.flash.cmd = 0xB0 then
    if addr = 0 ∧ (val = 0 ∨ (val = 1 ∧ c.sramType = .flash1M)) then (c.setBank val).endCommand
    else c.endCommand
  else c.sequenceWrite addr val

def sramReadFlash (addr : ℕ) : U8 × FlashCart :=
  if c.flash.cmd = 0 then
    let offset := addr + c.bankOffset
    (if offset < c.sramType.flashLength then c.sramReadSRAM offset else 0xFF, c)
  else if c.flash.cmd = 0x90 then
    (if addr = 0x0000 then c.flash.manufacturer
      else if addr = 0x0001 then c.flash.device else 0xFF, c)
  else if c.flash.cmd = 0xF0 then (0xFF, c.endCommand)
  else (0xFF, c)

/-- `SRAMRead` -/
def sramRead (addr : U32) : U8 × FlashCart := c.sramReadFlash (addr &&& 0xFFFF).toNat

/-- `SRAMWrite` -/
def sramWrite (addr : U32) (val : U8) : FlashCart := c.sramWriteFlash (addr &&& 0xFFFF).toNat val

end FlashCart

/-! ## Runs -/

/-- A reset of the console keeps the flash as it is. -/
inductive FlashOp
  | write (addr : U32) (val : U8)
  | read (addr : U32)
  | reset

def FlashCart.step (c : FlashCart) : FlashOp → FlashCart
  | .write addr val => c.sramWrite addr val
  | .read addr => (c.sramRead addr).2
  | .reset => c

def FlashCart.run (c : FlashCart) (ops : List FlashOp) : FlashCart := ops.foldl step c

/-- The byte writes of a run on the 64 KB the chip sees, the latest first. -/
def byteWrites (ops : List FlashOp) : List (ℕ × U8) :=
  (ops.filterMap fun
    | .write addr val => some ((addr &&& 0xFFFF).toNat, val)
    | .read _ | .reset => none).reverse

/-! ## The commands of the chip -/

/-- The commands that change the save. -/
inductive FlashCommand
  | program (addr : ℕ) (val : U8)
  | eraseSector (addr : ℕ)
  | eraseChip

namespace FlashCommand

def unlock : List (ℕ × U8) := [(0x2AAA, 0x55), (0x5555, 0xAA)]

/-- The byte writes of a command, the latest first. -/
def sequence : FlashCommand → List (ℕ × U8)
  | program addr val => (addr, val) :: (0x5555, 0xA0) :: unlock
  | eraseSector addr => (addr, 0x30) :: (unlock ++ (0x5555, 0x80) :: unlock)
  | eraseChip => (0x5555, 0x10) :: (unlock ++ (0x5555, 0x80) :: unlock)

/-- The first byte and the number of bytes a command changes, on the bank at `base`. -/
def range (t : FlashType) (base : ℕ) : FlashCommand → ℕ × ℕ
  | program addr _ => (addr + base, 1)
  | eraseSector addr => (addr / 0x1000 * 0x1000 + base, 0x1000)
  | eraseChip => (0, t.flashLength)

/-- What the bytes of the range become. -/
def value : FlashCommand → U8
  | program _ val => val
  | eraseSector _ | eraseChip => 0xFF

def apply (t : FlashType) (base : ℕ) (cmd : FlashCommand) (save : List U8) : List U8 :=
  overwrite save (cmd.range t base).1 (List.replicate (cmd.range t base).2 cmd.value)

end FlashCommand

/-!
## The flash changes only by its commands

`state` and `cmd` remember the latest byte writes: each value is reached by one sequence of
writes and kept by none, so the chip that accepts an operand has seen the whole command.
-/

open FlashCommand (unlock)

/-- The byte writes `state` stands for. -/
def stateWrites (state : U8) : List (ℕ × U8) :=
  if state = 0x01 then [(0x5555, 0xAA)]
  else if state = 0x02 then unlock
  else if state = 0x80 then (0x5555, 0x80) :: unlock
  else if state = 0x81 then (0x5555, 0xAA) :: (0x5555, 0x80) :: unlock
  else if state = 0x82 then unlock ++ (0x5555, 0x80) :: unlock
  else []

/-- The byte writes before the operand of `cmd`. -/
def cmdWrites (cmd : U8) : List (ℕ × U8) :=
  if cmd = 0xA0 ∨ cmd = 0xB0 then (0x5555, cmd) :: unlock else []

structure FlashCart.Tracks (c : FlashCart) (writes : List (ℕ × U8)) : Prop where
  state : stateWrites c.flash.state <+: writes
  cmd : cmdWrites c.flash.cmd <+: writes

/-- What a byte write can do. -/
inductive FlashOutcome (c : FlashCart) (writes : List (ℕ × U8)) : FlashCart → Prop
  | ignored (hstate : stateWrites c.flash.state = []) (hcmd : cmdWrites c.flash.cmd = []) :
      FlashOutcome c writes c
  | moved (state : U8) (hstate : stateWrites state <+: writes)
      (hcmd : cmdWrites c.flash.cmd = []) : FlashOutcome c writes (c.setState state)
  | command (state cmd : U8) (hstate : stateWrites state <+: writes)
      (hcmd : cmdWrites cmd <+: writes) : FlashOutcome c writes ((c.setState state).setCmd cmd)
  | ended : FlashOutcome c writes c.endCommand
  | switched (bank : U8) (hseq : (0, bank) :: (0x5555, 0xB0) :: unlock <+: writes)
      (hbank : bank = 0 ∨ (bank = 1 ∧ c.sramType = .flash1M)) :
      FlashOutcome c writes (c.setBank bank).endCommand
  | changed (cmd : FlashCommand) (hseq : cmd.sequence <+: writes)
      (hflash : (cmd.range c.sramType c.bankOffset).1 + (cmd.range c.sramType c.bankOffset).2 ≤
        c.sramType.flashLength)
      (hsave : (cmd.range c.sramType c.bankOffset).1 + (cmd.range c.sramType c.bankOffset).2 ≤
        c.sram.length) :
      FlashOutcome c writes
        ({ c with sram := cmd.apply c.sramType c.bankOffset c.sram }.report
          (cmd.range c.sramType c.bankOffset).1 (cmd.range c.sramType c.bankOffset).2).endCommand

namespace FlashCart

variable {c : FlashCart} {writes : List (ℕ × U8)} {ops : List FlashOp} {addr : ℕ} {val : U8}

/-- A command byte after the unlock sequence. -/
theorem outcome_command (h : unlock <+: writes) :
    FlashOutcome c ((0x5555, val) :: writes) ((c.setState (commandState val)).setCmd val) := by
  have hsent (cmd : U8) (hval : val = cmd) :
      (0x5555, cmd) :: unlock <+: (0x5555, val) :: writes := by
    subst hval
    exact List.prefix_cons_inj _ |>.mpr h
  refine .command _ val ?_ ?_
  · rw [commandState]
    split_ifs with h80 h90
    · exact hsent 0x80 h80
    · exact List.nil_prefix
    · exact List.nil_prefix
  · rw [cmdWrites]
    split_ifs
    · exact hsent val rfl
    · exact List.nil_prefix

/-- A sector that begins in the flash ends in it. -/
theorem sector_le (c : FlashCart)
    (h : addr / 0x1000 * 0x1000 + c.bankOffset < c.sramType.flashLength) :
    addr / 0x1000 * 0x1000 + c.bankOffset + 0x1000 ≤ c.sramType.flashLength := by
  have hdvd : 0x1000 ∣ c.sramType.flashLength := by cases c.sramType <;> decide
  obtain ⟨n, hn⟩ := hdvd
  rw [hn, bankOffset] at h ⊢
  omega

theorem outcome_sequenceWrite (h : c.Tracks writes) (hcmd : cmdWrites c.flash.cmd = []) :
    FlashOutcome c ((addr, val) :: writes) (c.sequenceWrite addr val) := by
  have hidle (state : U8) (hnone : stateWrites state = []) :
      FlashOutcome c ((addr, val) :: writes) (c.setState state) :=
    .moved state (hnone ▸ List.nil_prefix) hcmd
  have hstate := h.state
  rw [sequenceWrite]
  dsimp only
  by_cases h0 : c.flash.state = 0x00
  · rw [if_pos h0]
    split_ifs with hreset hunlock
    · exact .ended
    · obtain ⟨rfl, rfl⟩ := hunlock
      exact .moved 1 (List.prefix_append _ _) hcmd
    · exact .ignored (by rw [h0]; rfl) hcmd
  rw [if_neg h0]
  by_cases h1 : c.flash.state = 0x01
  · rw [if_pos h1]
    split_ifs with hsecond
    · obtain ⟨rfl, rfl⟩ := hsecond
      rw [h1] at hstate
      exact .moved 2 (List.prefix_cons_inj _ |>.mpr hstate) hcmd
    · exact hidle 0 rfl
  rw [if_neg h1]
  by_cases h2 : c.flash.state = 0x02
  · rw [if_pos h2]
    split_ifs with hcommand
    · subst hcommand
      rw [h2] at hstate
      exact outcome_command hstate
    · exact hidle 0 rfl
  rw [if_neg h2]
  by_cases h80 : c.flash.state = 0x80
  · rw [if_pos h80]
    split_ifs with hunlock
    · obtain ⟨rfl, rfl⟩ := hunlock
      rw [h80] at hstate
      exact .moved 0x81 (List.prefix_cons_inj _ |>.mpr hstate) hcmd
    · exact hidle 0 rfl
  rw [if_neg h80]
  by_cases h81 : c.flash.state = 0x81
  · rw [if_pos h81]
    split_ifs with hsecond
    · obtain ⟨rfl, rfl⟩ := hsecond
      rw [h81] at hstate
      exact .moved 0x82 (List.prefix_cons_inj _ |>.mpr hstate) hcmd
    · exact hidle 0 rfl
  rw [if_neg h81]
  by_cases h82 : c.flash.state = 0x82
  · rw [if_pos h82]
    rw [h82] at hstate
    split_ifs with hchip hlarge hsector hinside
    · obtain ⟨rfl, rfl⟩ := hchip
      exact .changed .eraseChip (List.prefix_cons_inj _ |>.mpr hstate)
        (Nat.zero_add _).le ((Nat.zero_add _).trans_le hlarge)
    · exact .ended
    · subst hsector
      exact .changed (.eraseSector addr) (List.prefix_cons_inj _ |>.mpr hstate)
        (c.sector_le hinside.1) hinside.2
    · exact .ended
    · exact .ended
  rw [if_neg h82]
  by_cases h90 : c.flash.state = 0x90
  · rw [if_pos h90]
    split_ifs with hunlock
    · exact hidle 0x91 rfl
    · exact hidle 0 rfl
  rw [if_neg h90]
  by_cases h91 : c.flash.state = 0x91
  · rw [if_pos h91]
    split_ifs with hsecond
    · exact hidle 0x92 rfl
    · exact hidle 0 rfl
  rw [if_neg h91]
  split_ifs with h92
  · exact .ended
  · refine .ignored ?_ hcmd
    simp only [stateWrites, h1, h2, h80, h81, h82, if_false]

theorem outcome_sramWriteFlash (h : c.Tracks writes) :
    FlashOutcome c ((addr, val) :: writes) (c.sramWriteFlash addr val) := by
  have hcmd := h.cmd
  rw [sramWriteFlash]
  dsimp only
  split_ifs with hprogram hinside hswitch hbank
  · rw [hprogram] at hcmd
    have hrange : (FlashCommand.program addr val).range c.sramType c.bankOffset =
        (addr + c.bankOffset, 1) := rfl
    rw [sramWriteSRAM]
    split_ifs with hshort hnew
    · exact .ended
    · have happly : (FlashCommand.program addr val).apply c.sramType c.bankOffset c.sram =
          c.sram.set (addr + c.bankOffset) val := overwrite_singleton (not_le.mp hshort) val
      rw [← happly]
      have hsave : addr + c.bankOffset + 1 ≤ c.sram.length := by omega
      exact .changed (.program addr val) (List.prefix_cons_inj _ |>.mpr hcmd)
        (by rw [hrange]; omega) hsave
    · exact .ended
  · exact .ended
  · rw [hswitch] at hcmd
    obtain ⟨rfl, hval⟩ := hbank
    exact .switched val (List.prefix_cons_inj _ |>.mpr hcmd) hval
  · exact .ended
  · refine outcome_sequenceWrite h ?_
    rw [cmdWrites, if_neg (not_or.mpr ⟨hprogram, hswitch⟩)]

/-! ## Runs -/

theorem Tracks.endCommand (c : FlashCart) (writes : List (ℕ × U8)) :
    c.endCommand.Tracks writes := ⟨List.nil_prefix, List.nil_prefix⟩

theorem tracks_of_outcome {c' : FlashCart} (h : FlashOutcome c writes c') : c'.Tracks writes := by
  cases h with
  | ignored hstate hcmd => exact ⟨hstate ▸ List.nil_prefix, hcmd ▸ List.nil_prefix⟩
  | moved state hstate hcmd => exact ⟨hstate, hcmd ▸ List.nil_prefix⟩
  | command state cmd hstate hcmd => exact ⟨hstate, hcmd⟩
  | ended => exact .endCommand c writes
  | switched bank hseq hbank => exact .endCommand _ writes
  | changed cmd hseq hflash hsave => exact .endCommand _ writes

theorem read_eq (c : FlashCart) (addr : U32) :
    (c.sramRead addr).2 = c ∨ (c.sramRead addr).2 = c.endCommand := by
  rw [sramRead, sramReadFlash]
  dsimp only
  by_cases h0 : c.flash.cmd = 0
  · rw [if_pos h0]
    exact .inl rfl
  rw [if_neg h0]
  by_cases hid : c.flash.cmd = 0x90
  · rw [if_pos hid]
    exact .inl rfl
  rw [if_neg hid]
  split_ifs
  · exact .inr rfl
  · exact .inl rfl

theorem byteWrites_concat_write (ops : List FlashOp) (addr : U32) (val : U8) :
    byteWrites (ops ++ [.write addr val]) =
      ((addr &&& 0xFFFF).toNat, val) :: byteWrites ops := by
  simp only [byteWrites, List.filterMap_append, List.reverse_append]
  rfl

theorem byteWrites_concat_read (ops : List FlashOp) (addr : U32) :
    byteWrites (ops ++ [.read addr]) = byteWrites ops := by
  simp only [byteWrites, List.filterMap_append, List.reverse_append]
  rfl

theorem byteWrites_concat_reset (ops : List FlashOp) :
    byteWrites (ops ++ [.reset]) = byteWrites ops := by
  simp only [byteWrites, List.filterMap_append, List.reverse_append]
  rfl

theorem run_concat (ops : List FlashOp) (op : FlashOp) :
    c.run (ops ++ [op]) = (c.run ops).step op := by
  simp only [run, List.foldl_append, List.foldl_cons, List.foldl_nil]

/-- The save and what was reported stay, and so does the selected bank. -/
structure Quiet (c c' : FlashCart) : Prop where
  sram : c'.sram = c.sram
  reported : c'.reported = c.reported
  sramType : c'.sramType = c.sramType
  bank : c'.flash.bank = c.flash.bank

theorem step_outcome (h : c.Tracks (byteWrites ops)) (op : FlashOp) :
    Quiet c (c.step op) ∧ (c.step op).Tracks (byteWrites (ops ++ [op])) ∨
      FlashOutcome c (byteWrites (ops ++ [op])) (c.step op) := by
  cases op with
  | write addr val =>
    rw [byteWrites_concat_write]
    exact .inr (outcome_sramWriteFlash h)
  | read addr =>
    rw [byteWrites_concat_read]
    refine .inl ?_
    change Quiet c (c.sramRead addr).2 ∧ (c.sramRead addr).2.Tracks _
    rcases c.read_eq addr with heq | heq
    · rw [heq]
      exact ⟨⟨rfl, rfl, rfl, rfl⟩, h⟩
    · rw [heq]
      exact ⟨⟨rfl, rfl, rfl, rfl⟩, .endCommand c _⟩
  | reset =>
    rw [byteWrites_concat_reset]
    exact .inl ⟨⟨rfl, rfl, rfl, rfl⟩, h⟩

theorem tracks_run (h : c.Tracks []) (ops : List FlashOp) :
    (c.run ops).Tracks (byteWrites ops) := by
  induction ops using List.reverseRecOn with
  | nil => exact h
  | append_singleton ops op ih =>
    rw [run_concat]
    rcases step_outcome ih op with hquiet | houtcome
    · exact hquiet.2
    · exact tracks_of_outcome houtcome

theorem tracks_setup (t : FlashType) (save : List U8) : (setup t save).Tracks [] := by
  cases t <;> exact ⟨List.nil_prefix, List.nil_prefix⟩

end FlashCart

/-! ## The result -/

/-- A command that lies in the flash and in the save, just issued, changed and reported it. -/
structure FlashCommand.Done (cmd : FlashCommand) (writes : List (ℕ × U8))
    (c c' : FlashCart) : Prop where
  issued : cmd.sequence <+: writes
  flash : (cmd.range c.sramType c.bankOffset).1 + (cmd.range c.sramType c.bankOffset).2 ≤
    c.sramType.flashLength
  save : (cmd.range c.sramType c.bankOffset).1 + (cmd.range c.sramType c.bankOffset).2 ≤
    c.sram.length
  sram : c'.sram = cmd.apply c.sramType c.bankOffset c.sram
  reported : c'.reported = cmd.range c.sramType c.bankOffset :: c.reported

variable {c c' : FlashCart} {writes : List (ℕ × U8)} {ops : List FlashOp}

theorem FlashCommand.Done.outside {cmd : FlashCommand} (h : cmd.Done writes c c') {i : ℕ}
    (hi : ¬((cmd.range c.sramType c.bankOffset).1 ≤ i ∧ i <
      (cmd.range c.sramType c.bankOffset).1 + (cmd.range c.sramType c.bankOffset).2)) :
    c'.sram[i]? = c.sram[i]? := by
  have hsave := h.save
  rw [h.sram, FlashCommand.apply,
    getElem?_overwrite (by rw [List.length_replicate]; exact hsave), List.length_replicate,
    if_neg hi]

/-- A byte write, a read or a reset changes the save by a command only. -/
theorem FlashOutcome.done (h : FlashOutcome c writes c') :
    (c'.sram = c.sram ∨ ∃ cmd : FlashCommand, cmd.Done writes c c') ∧
      c'.sramType = c.sramType ∧
      (c'.flash.bank = c.flash.bank ∨
        ((0, c'.flash.bank) :: (0x5555, 0xB0) :: unlock <+: writes ∧
          (c'.flash.bank = 0 ∨ (c'.flash.bank = 1 ∧ c.sramType = .flash1M)))) := by
  cases h with
  | ignored hstate hcmd => exact ⟨.inl rfl, rfl, .inl rfl⟩
  | moved state hstate hcmd => exact ⟨.inl rfl, rfl, .inl rfl⟩
  | command state cmd hstate hcmd => exact ⟨.inl rfl, rfl, .inl rfl⟩
  | ended => exact ⟨.inl rfl, rfl, .inl rfl⟩
  | switched bank hseq hbank => exact ⟨.inl rfl, rfl, .inr ⟨hseq, hbank⟩⟩
  | changed cmd hseq hflash hsave =>
    exact ⟨.inr ⟨cmd, hseq, hflash, hsave, rfl, rfl⟩, rfl, .inl rfl⟩

theorem FlashCart.step_done (hc : c.Tracks (byteWrites ops)) (op : FlashOp) :
    ((c.step op).sram = c.sram ∨
        ∃ cmd : FlashCommand, cmd.Done (byteWrites (ops ++ [op])) c (c.step op)) ∧
      (c.step op).sramType = c.sramType ∧
      ((c.step op).flash.bank = c.flash.bank ∨
        ((0, (c.step op).flash.bank) :: (0x5555, 0xB0) :: unlock <+: byteWrites (ops ++ [op]) ∧
          ((c.step op).flash.bank = 0 ∨
            ((c.step op).flash.bank = 1 ∧ c.sramType = .flash1M)))) := by
  rcases step_outcome hc op with hquiet | houtcome
  · exact ⟨.inl hquiet.1.sram, hquiet.1.sramType, .inl hquiet.1.bank⟩
  · exact houtcome.done

theorem FlashCart.sramType_run (t : FlashType) (save : List U8) (ops : List FlashOp) :
    ((setup t save).run ops).sramType = t := by
  induction ops using List.reverseRecOn with
  | nil => rfl
  | append_singleton ops op ih =>
    rw [run_concat, (step_done (tracks_run (tracks_setup t save) ops) op).2.1, ih]

/-- The bytes behind the flash array stay. -/
theorem FlashCart.trailer_run (t : FlashType) (save : List U8) (ops : List FlashOp) {i : ℕ}
    (hi : t.flashLength ≤ i) : ((setup t save).run ops).sram[i]? = save[i]? := by
  induction ops using List.reverseRecOn with
  | nil => rfl
  | append_singleton ops op ih =>
    rw [run_concat, ← ih]
    rcases (step_done (tracks_run (tracks_setup t save) ops) op).1 with hsame | ⟨cmd, hdone⟩
    · rw [hsame]
    · have hflash := hdone.flash
      have htype := sramType_run t save ops
      rw [htype] at hflash
      refine hdone.outside ?_
      rw [htype]
      omega

/-- In every run on a flash save, what a byte write, a read or a reset changes is what the
command just issued changes, it lies in the flash, and it is reported. -/
theorem flash_changes_by_command (t : FlashType) (save : List U8) (ops : List FlashOp)
    (op : FlashOp) :
    let c := (FlashCart.setup t save).run ops
    let c' := (FlashCart.setup t save).run (ops ++ [op])
    (c'.sram = c.sram ∨ ∃ cmd : FlashCommand, cmd.Done (byteWrites (ops ++ [op])) c c') ∧
      (∀ i, c'.sram[i]? ≠ c.sram[i]? → i < t.flashLength ∧
        ∃ offset length, c'.reported = (offset, length) :: c.reported ∧
          offset ≤ i ∧ i < offset + length) ∧
      (∀ i, t.flashLength ≤ i → c'.sram[i]? = save[i]?) ∧
      (c'.flash.bank = c.flash.bank ∨
        ((0, c'.flash.bank) :: (0x5555, 0xB0) :: unlock <+: byteWrites (ops ++ [op]) ∧
          (c'.flash.bank = 0 ∨ (c'.flash.bank = 1 ∧ t = .flash1M)))) := by
  intro c c'
  have htracks : c.Tracks (byteWrites ops) :=
    FlashCart.tracks_run (FlashCart.tracks_setup t save) ops
  have htype : c.sramType = t := FlashCart.sramType_run t save ops
  have hstep : c' = c.step op := FlashCart.run_concat ops op
  obtain ⟨hdone, -, hbank⟩ := FlashCart.step_done htracks op
  rw [← hstep] at hdone hbank
  refine ⟨hdone, fun i hi => ?_, fun i => FlashCart.trailer_run t save _, htype ▸ hbank⟩
  rcases hdone with hsame | ⟨cmd, hdone⟩
  · exact absurd (congrArg (·[i]?) hsame) hi
  · have hin := not_imp_comm.mp hdone.outside hi
    have hflash := (hin.2.trans_le hdone.flash).trans_eq (congrArg FlashType.flashLength htype)
    exact ⟨hflash, _, _, hdone.reported, hin⟩

end MelonDS.GBACart
