import MelonDS.NDS.IPC
import MelonDS.NDSCart.RomBus

/-!
# The cartridge slot

`NDSCartSlot` with its two interfaces, one for each CPU, over any type of cart with the
virtual functions that the slot calls. An access carries the time of the CPU that makes it.
The events of the scheduler are kept with what they belong to. `log` is what the slot has
done to the cart and the interrupts it has raised, newest first.
-/

namespace MelonDS.NDSCart

open NDS (otherCPU)

/-- The virtual functions of `CartCommon`. -/
class VirtualCart (C : Type*) where
  reset : C → C
  setResetState : Bool → C → C
  romCommandStart : (U32 × U32 → U32 × U32) → (Fin 8 → U8) → C → C
  romCommandReceive : C → U32 × C
  romCommandTransmit : U32 → C → C
  romCommandFinish : C → C
  spiSelect : C → C
  spiRelease : C → C
  spiTransmitReceive : U8 → C → U8 × C
  getSaveDelay : C → ℕ
  completeSave : C → C
  cancelSave : Bool → C → C
  setSaveMemory : List U8 → C → C

/-- `ROMTransfer_ReceiveData`, `ROMTransfer_SendData`, `ROMTransfer_End` -/
inductive ROMEvent
  | receiveData
  | sendData
  | end
deriving DecidableEq

structure Interface where
  spiCnt : U16
  spiData : U8
  spiOut : U8
  spiPending : Bool
  spiToCart : Bool
  spiHold : Bool
  spiOwnsCS : Bool
  spiSelected : Bool
  spiEvent : Option ℕ
  romCnt : U32
  romCommand : Fin 8 → U8
  romTransferPos : ℕ
  romTransferLen : ℕ
  romData : Bool → U32
  romDataPosCPU : Bool
  romDataPosCart : Bool
  romDataCount : ℕ
  romDataLate : Bool
  romEvent : Option (ROMEvent × ℕ)

namespace Interface

def reset : Interface where
  spiCnt := 0
  spiData := 0
  spiOut := 0
  spiPending := false
  spiToCart := false
  spiHold := false
  spiOwnsCS := false
  spiSelected := false
  spiEvent := none
  romCnt := 0
  romCommand := fun _ => 0
  romTransferPos := 0
  romTransferLen := 0
  romData := fun _ => 0
  romDataPosCPU := false
  romDataPosCart := false
  romDataCount := 0
  romDataLate := false
  romEvent := none

def detachSPI (i : Interface) : Interface :=
  { i with spiToCart := false, spiOwnsCS := false, spiSelected := false }

/-- Bit 13 of AUXSPICNT, SPI mode. -/
def spiMode (i : Interface) : Bool := i.spiCnt.getLsbD 13

/-- A byte starts: the interface is on, in SPI mode and not busy. -/
def startsByte (i : Interface) : Bool := i.spiCnt.getLsbD 15 && i.spiMode && !i.spiCnt.getLsbD 7

/-- AUXSPICNT after a write; the busy bit stays. -/
def newSPICnt (val mask : U16) (i : Interface) : U16 :=
  i.spiCnt &&& (~~~mask ||| 0x0080) ||| val &&& mask &&& 0xE043

/-- Bit 29 of ROMCTRL releases the reset of the cart. -/
def resetReleased (i : Interface) : Bool := i.romCnt.getLsbD 29

end Interface

/-- What the slot does to the cart, with the interface it does it for. -/
inductive SlotCall
  | spiSelect (n : ARM.Num)
  | spiRelease (n : ARM.Num) (time : ℕ)
  | spiTransmitReceive (n : ARM.Num) (val : U8) (time : ℕ)
  | scheduleSave (timestamp delay : ℕ)
  | completeSave (deadline : ℕ)
  | cancelSave (powerOff : Bool)
  | romCommandStart (n : ARM.Num)
  | romCommandReceive (n : ARM.Num) (data : U32)
  | romCommandTransmit (n : ARM.Num) (data : U32)
  | romCommandFinish (n : ARM.Num)
  | transferIRQ (n : ARM.Num)
deriving DecidableEq

structure Slot (C : Type*) where
  interfaces : ARM.Num → Interface
  cpuSelect : ARM.Num
  powerState : ℕ
  cartActive : Bool
  cart : Option C
  saveEvent : Option ℕ
  log : List SlotCall

namespace Slot

variable {C : Type*}

def modify (n : ARM.Num) (f : Interface → Interface) (s : Slot C) : Slot C :=
  { s with interfaces := Function.update s.interfaces n (f (s.interfaces n)) }

/-- A call on the cart, if there is one. -/
def onCart (call : SlotCall) (f : C → C) (s : Slot C) : Slot C :=
  match s.cart with
  | some c => { s with cart := some (f c), log := call :: s.log }
  | none => s

@[simp] theorem interfaces_modify (n : ARM.Num) (f : Interface → Interface) (s : Slot C) :
    (s.modify n f).interfaces n = f (s.interfaces n) := Function.update_self ..

theorem onCart_some {s : Slot C} {c : C} (hc : s.cart = some c) (call : SlotCall) (f : C → C) :
    s.onCart call f = { s with cart := some (f c), log := call :: s.log } := by
  rw [onCart, hc]

theorem interfaces_onCart (call : SlotCall) (f : C → C) (s : Slot C) :
    (s.onCart call f).interfaces = s.interfaces := by
  rw [onCart]
  split <;> rfl

theorem cartActive_onCart (call : SlotCall) (f : C → C) (s : Slot C) :
    (s.onCart call f).cartActive = s.cartActive := by
  rw [onCart]
  split <;> rfl

variable [VirtualCart C]

def spiSelect (n : ARM.Num) (s : Slot C) : Slot C :=
  s.onCart (.spiSelect n) VirtualCart.spiSelect

def spiRelease (n : ARM.Num) (time : ℕ) (s : Slot C) : Slot C :=
  s.onCart (.spiRelease n time) VirtualCart.spiRelease

def updateCartState (s : Slot C) : Slot C :=
  match s.cart with
  | none => s
  | some c =>
    let active := decide (s.powerState = 2)
    { s with
      cartActive := active
      cart := some (VirtualCart.setResetState
        (!active || !(s.interfaces s.cpuSelect).resetReleased) c) }

/-! ## The internal write of the cart -/

def completeSave (deadline : ℕ) (s : Slot C) : Slot C :=
  s.onCart (.completeSave deadline) VirtualCart.completeSave

def advanceSave (timestamp : ℕ) (s : Slot C) : Slot C :=
  match s.saveEvent with
  | none => s
  | some deadline =>
    if deadline ≤ timestamp then { s with saveEvent := none }.completeSave deadline else s

def scheduleSave (timestamp : ℕ) (s : Slot C) : Slot C :=
  match s.cart with
  | none => s
  | some c =>
    if s.saveEvent.isSome then s
    else
      let delay := VirtualCart.getSaveDelay c
      if delay = 0 then s
      else if timestamp + delay > 2 ^ 64 - 1 then
        s.onCart (.cancelSave true) (VirtualCart.cancelSave true)
      else
        { s with
          saveEvent := some (timestamp + delay)
          log := .scheduleSave timestamp delay :: s.log }

def saveDelay (s : Slot C) : ℕ :=
  match s.cart with
  | some c => VirtualCart.getSaveDelay c
  | none => 0

def setSaveMemory (savedata : List U8) (s : Slot C) : Slot C :=
  let s := { s with cart := s.cart.map (VirtualCart.setSaveMemory savedata) }
  if s.saveDelay = 0 then { s with saveEvent := none, log := .cancelSave false :: s.log } else s

/-! ## Registers of the serial interface -/

def writeSPICnt (n : ARM.Num) (time : ℕ) (val mask : U16) (s : Slot C) : Slot C :=
  let s := s.advanceSave time
  let i := s.interfaces n
  let owner := s.cpuSelect = n
  let newCnt := i.newSPICnt val mask
  let s :=
    if i.spiSelected ∧ s.cartActive then
      if i.spiMode ∧ newCnt.getLsbD 13 = false ∧ (owner ∨ i.spiOwnsCS) then
        let s := s.modify n fun i => { i with spiToCart := false }
        let s :=
          if owner ∨ (s.interfaces s.cpuSelect).spiSelected = false then
            (s.spiRelease n time).scheduleSave time
          else s
        if owner then s else s.modify n Interface.detachSPI
      else if i.spiMode = false ∧ newCnt.getLsbD 13 then
        if owner then s.spiSelect n else s.modify n Interface.detachSPI
      else s
    else s
  s.modify n fun i => { i with spiCnt := newCnt }

def writeSPIData (n : ARM.Num) (time : ℕ) (val : U8) (s : Slot C) : Slot C :=
  let s := s.advanceSave time
  let i := s.interfaces n
  if i.startsByte = false then s
  else
    let s := s.modify n fun i =>
      { i with
        spiCnt := i.spiCnt ||| 0x0080
        spiOut := val
        spiPending := true
        spiToCart := false
        spiHold := i.spiCnt.getLsbD 6
        spiOwnsCS := false }
    let s :=
      if s.cartActive then
        if s.cpuSelect = n then
          (if i.spiSelected then s else s.spiSelect n).modify n fun i =>
            { i with spiSelected := true, spiToCart := true, spiOwnsCS := true }
        else s.modify n fun i => { i with spiData := 0xFF }
      else s.modify n fun i => { i with spiData := if s.powerState = 1 then 0xFF else 0 }
    let delay := 8 * (8 * 2 ^ (i.spiCnt &&& 3).toNat)
    s.modify n fun i => { i with spiEvent := i.spiEvent.or (some (time + delay)) }

/-- The cart takes the byte that was written and answers. -/
def deliver (n : ARM.Num) (time : ℕ) (s : Slot C) : Slot C :=
  match s.cart with
  | none => s
  | some c =>
    let val := (s.interfaces n).spiOut
    let answer := VirtualCart.spiTransmitReceive val c
    { s with
      cart := some answer.2
      log := .spiTransmitReceive n val time :: s.log }.modify n fun i =>
        { i with spiData := answer.1 }

/-- The event of an interface, at its time. -/
def spiTransferDone (n : ARM.Num) (s : Slot C) : Slot C :=
  match (s.interfaces n).spiEvent with
  | none => s
  | some timestamp =>
    let s := (s.modify n fun i => { i with spiEvent := none }).advanceSave timestamp
    let i := s.interfaces n
    let s := s.modify n fun i =>
      { i with spiPending := false, spiToCart := false, spiHold := false, spiOwnsCS := false }
    let s := if i.spiToCart ∧ s.cartActive then s.deliver n timestamp else s
    let s :=
      if i.spiOwnsCS ∧ i.spiHold = false then
        let s := if i.spiSelected ∧ s.cartActive ∧ i.spiMode then s.spiRelease n timestamp else s
        (s.modify n fun i => { i with spiSelected := false }).scheduleSave timestamp
      else s
    s.modify n fun i => { i with spiCnt := i.spiCnt &&& ~~~0x0080 }

/-! ## Ownership, power and carts -/

def setCPUSelect (sel : ARM.Num) (s : Slot C) : Slot C :=
  let s := { s with cpuSelect := sel }
  if (s.interfaces .arm9).resetReleased ≠ (s.interfaces .arm7).resetReleased then s.updateCartState
  else s

def detachBoth (s : Slot C) : Slot C :=
  { s with interfaces := fun n => (s.interfaces n).detachSPI }

def setPowerState (power : ℕ) (s : Slot C) : Slot C :=
  if power = s.powerState then s
  else
    let s := { (if power ≠ 2 then s.detachBoth else s) with powerState := power }
    let s :=
      if power = 0 then
        let s := { s with saveEvent := none }.onCart (.cancelSave true)
          (VirtualCart.cancelSave true)
        { s with interfaces := fun n =>
          { s.interfaces n with
            romCnt := (s.interfaces n).romCnt &&& ~~~0x20000000 } }.updateCartState
      else s
    { s with cartActive := s.cart.isSome && decide (power = 2) }

def ejectCart (s : Slot C) : Slot C :=
  match s.cart with
  | none => s
  | some _ =>
    let s := { s with saveEvent := none }.onCart (.cancelSave true) (VirtualCart.cancelSave true)
    { s.detachBoth with cartActive := false, cart := none }

def setCart (cart : Option C) (s : Slot C) : Slot C :=
  let s := { s.ejectCart with cart := cart.map VirtualCart.reset }
  match cart with
  | none => { s with cartActive := false }
  | some _ => { s with cartActive := true }.updateCartState

/-- `Reset`; the console has dropped all events before. -/
def reset (dsi : Bool) (s : Slot C) : Slot C :=
  { s with
    saveEvent := none
    powerState := if dsi then 0 else 2
    interfaces := fun _ => .reset
    cart := s.cart.map VirtualCart.reset
    log := .cancelSave true :: s.log }

end Slot

/-! ## Operations -/

inductive SlotOp (C : Type*)
  | writeSPICnt (n : ARM.Num) (time : ℕ) (val mask : U16)
  | writeSPIData (n : ARM.Num) (time : ℕ) (val : U8)
  | spiTransferDone (n : ARM.Num)
  | completeSave
  | setCPUSelect (sel : ARM.Num)
  | setPowerState (power : ℕ)
  | setSaveMemory (savedata : List U8)
  | setCart (cart : Option C)
  | ejectCart
  | reset (dsi : Bool)

namespace SlotOp

variable {C : Type*} [VirtualCart C]

def apply (s : Slot C) : SlotOp C → Slot C
  | .writeSPICnt n time val mask => s.writeSPICnt n time val mask
  | .writeSPIData n time val => s.writeSPIData n time val
  | .spiTransferDone n => s.spiTransferDone n
  | .completeSave =>
    match s.saveEvent with
    | none => s
    | some deadline => { s with saveEvent := none }.completeSave deadline
  | .setCPUSelect sel => s.setCPUSelect sel
  | .setPowerState power => s.setPowerState power
  | .setSaveMemory savedata => s.setSaveMemory savedata
  | .setCart cart => s.setCart cart
  | .ejectCart => s.ejectCart
  | .reset dsi => s.reset dsi

end SlotOp

/-!
## Carts for the slot

A cart with its ROM: `CartCommon`, whose serial interface does nothing, and `CartRetail` with
its save chip.
-/

namespace CartCommon

def spiSelect (c : CartCommon) : CartCommon := { c with spiSelected := true }

def spiRelease (c : CartCommon) : CartCommon := { c with spiSelected := false }

end CartCommon

instance : VirtualCart (CartROM × CartCommon) where
  reset c := (c.1, c.2.reset)
  setResetState reset c := (c.1, c.2.setResetState reset)
  romCommandStart decrypt cmd c := (c.1, c.2.romCommandStart decrypt cmd c.1)
  romCommandReceive c := ((c.2.romCommandReceive c.1).1, c.1, (c.2.romCommandReceive c.1).2)
  romCommandTransmit _ c := c
  romCommandFinish c := c
  spiSelect c := (c.1, c.2.spiSelect)
  spiRelease c := (c.1, c.2.spiRelease)
  spiTransmitReceive _ c := (0xFF, c)
  getSaveDelay _ := 0
  completeSave c := c
  cancelSave _ c := c
  setSaveMemory _ c := c

instance : VirtualCart (CartROM × CartRetail) where
  reset c := (c.1, c.2.reset)
  setResetState reset c := (c.1, { c.2 with common := c.2.common.setResetState reset })
  romCommandStart decrypt cmd c :=
    (c.1, { c.2 with common := c.2.common.romCommandStart decrypt cmd c.1 })
  romCommandReceive c :=
    let data := c.2.common.romCommandReceive c.1
    (data.1, c.1, { c.2 with common := data.2 })
  romCommandTransmit _ c := c
  romCommandFinish c := c
  spiSelect c := (c.1, c.2.spiSelect)
  spiRelease c := (c.1, c.2.spiRelease)
  spiTransmitReceive val c :=
    let answer := c.2.spiTransmitReceive val
    (answer.1, c.1, answer.2)
  getSaveDelay c := c.2.getSaveDelay
  completeSave c := (c.1, c.2.completeSave)
  cancelSave powerOff c := (c.1, c.2.cancelSave powerOff)
  setSaveMemory savedata c := (c.1, c.2.setSaveMemory savedata)

/-- A cart of one kind or the other. -/
instance {A B : Type*} [VirtualCart A] [VirtualCart B] : VirtualCart (A ⊕ B) where
  reset := Sum.map VirtualCart.reset VirtualCart.reset
  setResetState state := Sum.map (VirtualCart.setResetState state) (VirtualCart.setResetState state)
  romCommandStart decrypt cmd :=
    Sum.map (VirtualCart.romCommandStart decrypt cmd) (VirtualCart.romCommandStart decrypt cmd)
  romCommandReceive := Sum.elim
    (fun a => ((VirtualCart.romCommandReceive a).1, .inl (VirtualCart.romCommandReceive a).2))
    (fun b => ((VirtualCart.romCommandReceive b).1, .inr (VirtualCart.romCommandReceive b).2))
  romCommandTransmit val :=
    Sum.map (VirtualCart.romCommandTransmit val) (VirtualCart.romCommandTransmit val)
  romCommandFinish := Sum.map VirtualCart.romCommandFinish VirtualCart.romCommandFinish
  spiSelect := Sum.map VirtualCart.spiSelect VirtualCart.spiSelect
  spiRelease := Sum.map VirtualCart.spiRelease VirtualCart.spiRelease
  spiTransmitReceive val := Sum.elim
    (fun a => ((VirtualCart.spiTransmitReceive val a).1,
      .inl (VirtualCart.spiTransmitReceive val a).2))
    (fun b => ((VirtualCart.spiTransmitReceive val b).1,
      .inr (VirtualCart.spiTransmitReceive val b).2))
  getSaveDelay := Sum.elim VirtualCart.getSaveDelay VirtualCart.getSaveDelay
  completeSave := Sum.map VirtualCart.completeSave VirtualCart.completeSave
  cancelSave powerOff :=
    Sum.map (VirtualCart.cancelSave powerOff) (VirtualCart.cancelSave powerOff)
  setSaveMemory savedata :=
    Sum.map (VirtualCart.setSaveMemory savedata) (VirtualCart.setSaveMemory savedata)

/-- An empty ROM. -/
def blankROM : CartROM where
  rom := fun _ => 0
  romLength := 0x200
  chipID := 0
  isDSi := false
  dsiBase := 0
  lenientAddressing := false

/-- A slot with a cart in it, after a reset. -/
def freshSlot : Slot (CartROM × CartCommon) where
  interfaces := fun _ => .reset
  cpuSelect := .arm9
  powerState := 2
  cartActive := true
  cart := some (blankROM, .build true)
  saveEvent := none
  log := []

end MelonDS.NDSCart
