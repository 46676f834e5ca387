import MelonDS.GPU3D.CommandStream
import MelonDS.GPU3D.VBlank

/-!
# The registers of the 3D engine

`Read8`, `Read16`, `Read32`, `Write8`, `Write16` and `Write32`. The bus functions align the
address to the access before they call them. Reads of the status register run the engine up
to the present first.
-/

namespace MelonDS
namespace GPU3D

/-! ## The rendering registers -/

namespace Registers

def updateAlphaRef (r : Registers) : Registers :=
  { r with alphaRef := if r.dispCnt.getLsbD 2 then r.alphaRefVal else 0 }

/-- The bits of buffer overflow and underflow are acknowledged by writing them. -/
def writeDispCnt (val : U32) (r : Registers) : Registers :=
  let dispCnt := (val &&& 0x4FFF) ||| (r.dispCnt &&& 0x3000)
  let dispCnt := if val.getLsbD 12 then dispCnt &&& ~~~bit 32 12 else dispCnt
  let dispCnt := if val.getLsbD 13 then dispCnt &&& ~~~bit 32 13 else dispCnt
  { r with dispCnt := dispCnt }.updateAlphaRef

def writeAlphaRef (val : U8) (r : Registers) : Registers :=
  { r with alphaRefVal := val &&& 0x1F }.updateAlphaRef

def writeEdge (i : ℕ) (val : U16) (r : Registers) : Registers :=
  { r with edgeTable := Function.update r.edgeTable (Fin.ofNat 8 i) val }

def writeToon (i : ℕ) (val : U16) (r : Registers) : Registers :=
  { r with toonTable := Function.update r.toonTable (Fin.ofNat 32 i) val }

def writeFog (i : ℕ) (val : U8) (r : Registers) : Registers :=
  { r with fogDensityTable := Function.update r.fogDensityTable (Fin.ofNat 32 i) (val &&& 0x7F) }

/-- `((u8*)&x)[k] = val` -/
def setByte (x : U16) (k : ℕ) (val : U8) : U16 :=
  if k = 0 then (x &&& 0xFF00) ||| val.setWidth 16 else (x &&& 0x00FF) ||| (val.setWidth 16 <<< 8)

def writeEdgeByte (i : ℕ) (val : U8) (r : Registers) : Registers :=
  r.writeEdge (i / 2) (setByte (r.edgeTable (Fin.ofNat 8 (i / 2))) (i % 2) val)

def writeToonByte (i : ℕ) (val : U8) (r : Registers) : Registers :=
  r.writeToon (i / 2) (setByte (r.toonTable (Fin.ofNat 32 (i / 2))) (i % 2) val)

/-- The low half of a 32-bit register. -/
def setLow (x : U32) (val : U16) : U32 := (x &&& 0xFFFF0000) ||| val.setWidth 32

def setHigh (x : U32) (val : U16) : U32 := (x &&& 0xFFFF) ||| (val.setWidth 32 <<< 16)

end Registers

def setRegisters (f : Registers → Registers) (g : GPU3D) : GPU3D :=
  { g with registers := f g.registers }

/-- Acknowledging a stack error also resets two of the stack pointers. -/
def ackStackError (g : GPU3D) : GPU3D :=
  (g.setStat (· &&& ~~~(0x8000 : U32))).setMatrices fun m =>
    { m with projMatrixStackPointer := 0, texMatrixStackPointer := 0 }

/-- The condition of the FIFO interrupt, checked again at once. -/
def writeFIFOMode (bits : U32) (g : GPU3D) : GPU3D :=
  let g := g.setStat fun stat => (stat &&& 0x3FFFFFFF) ||| bits
  { g with queue := g.queue.checkFIFOIRQ }

def writeZeroDotWLimit (val : U32) (g : GPU3D) : GPU3D :=
  { g with zeroDotWLimit := (val &&& 0x7FFF) * 0x200 + 0x1FF }

/-- Each half of the engine ignores its registers while it is off. -/
def ignores (g : GPU3D) (addr : U32) : Bool :=
  (!g.renderingEnabled && decide (0x04000320 ≤ addr ∧ addr < 0x04000400)) ||
    (!g.geometryEnabled && decide (0x04000400 ≤ addr ∧ addr < 0x04000700))

def write8 (addr : U32) (val : U8) (g : GPU3D) : GPU3D :=
  if g.ignores addr then g
  else if addr = 0x04000340 then g.setRegisters (.writeAlphaRef val)
  else if addr = 0x04000601 then (if val.getLsbD 7 then g.ackStackError else g)
  else if addr = 0x04000603 then g.writeFIFOMode ((val &&& 0xC0).setWidth 32 <<< 24)
  else if 0x04000330 ≤ addr ∧ addr < 0x04000340 then
    g.setRegisters (.writeEdgeByte (addr - 0x04000330).toNat val)
  else if 0x04000360 ≤ addr ∧ addr < 0x04000380 then
    g.setRegisters (.writeFog (addr - 0x04000360).toNat val)
  else if 0x04000380 ≤ addr ∧ addr < 0x040003C0 then
    g.setRegisters (.writeToonByte (addr - 0x04000380).toNat val)
  else g

def write16 (addr : U32) (val : U16) (g : GPU3D) : GPU3D :=
  if g.ignores addr then g
  else if addr = 0x04000060 then g.setRegisters (.writeDispCnt (val.setWidth 32))
  else if addr = 0x04000340 then g.setRegisters (.writeAlphaRef (val.setWidth 8))
  else if addr = 0x04000350 then
    g.setRegisters fun r => { r with clearAttr1 := Registers.setLow r.clearAttr1 val }
  else if addr = 0x04000352 then
    g.setRegisters fun r => { r with clearAttr1 := Registers.setHigh r.clearAttr1 val }
  else if addr = 0x04000354 then
    g.setRegisters fun r => { r with clearAttr2 := Registers.setLow r.clearAttr2 val }
  else if addr = 0x04000356 then
    g.setRegisters fun r => { r with clearAttr2 := Registers.setHigh r.clearAttr2 val }
  else if addr = 0x04000358 then
    g.setRegisters fun r => { r with fogColor := Registers.setLow r.fogColor val }
  else if addr = 0x0400035A then
    g.setRegisters fun r => { r with fogColor := Registers.setHigh r.fogColor val }
  else if addr = 0x0400035C then
    g.setRegisters fun r => { r with fogOffset := (val &&& 0x7FFF).setWidth 32 }
  else if addr = 0x04000600 then (if val.getLsbD 15 then g.ackStackError else g)
  else if addr = 0x04000602 then g.writeFIFOMode ((val &&& 0xC000).setWidth 32 <<< 16)
  else if addr = 0x04000610 then g.writeZeroDotWLimit (val.setWidth 32)
  else if 0x04000330 ≤ addr ∧ addr < 0x04000340 then
    g.setRegisters (.writeEdge ((addr - 0x04000330) >>> 1).toNat val)
  else if 0x04000360 ≤ addr ∧ addr < 0x04000380 then
    let i := (addr - 0x04000360).toNat
    g.setRegisters fun r =>
      (r.writeFog i (val.setWidth 8)).writeFog (i + 1) ((val >>> 8).setWidth 8)
  else if 0x04000380 ≤ addr ∧ addr < 0x040003C0 then
    g.setRegisters (.writeToon ((addr - 0x04000380) >>> 1).toNat val)
  else g

def write32 (addr : U32) (val : U32) (g : GPU3D) : GPU3D :=
  if g.ignores addr then g
  else if addr = 0x04000060 then g.setRegisters (.writeDispCnt val)
  else if addr = 0x04000340 then g.setRegisters (.writeAlphaRef (val.setWidth 8))
  else if addr = 0x04000350 then g.setRegisters fun r => { r with clearAttr1 := val }
  else if addr = 0x04000354 then g.setRegisters fun r => { r with clearAttr2 := val }
  else if addr = 0x04000358 then g.setRegisters fun r => { r with fogColor := val }
  else if addr = 0x0400035C then g.setRegisters fun r => { r with fogOffset := val &&& 0x7FFF }
  else if addr = 0x04000600 then
    (if val.getLsbD 15 then g.ackStackError else g).writeFIFOMode (val &&& 0xC0000000)
  else if addr = 0x04000610 then g.writeZeroDotWLimit val
  else if 0x04000400 ≤ addr ∧ addr < 0x040005CC then
    -- the packed port and the command ports
    { g with queue := g.queue.write32 addr val }
  else if 0x04000330 ≤ addr ∧ addr < 0x04000340 then
    let i := ((addr - 0x04000330) >>> 1).toNat
    g.setRegisters fun r =>
      (r.writeEdge i (val.setWidth 16)).writeEdge (i + 1) ((val >>> 16).setWidth 16)
  else if 0x04000360 ≤ addr ∧ addr < 0x04000380 then
    let i := (addr - 0x04000360).toNat
    g.setRegisters fun r =>
      (((r.writeFog i (val.setWidth 8)).writeFog (i + 1) ((val >>> 8).setWidth 8)).writeFog (i + 2)
        ((val >>> 16).setWidth 8)).writeFog (i + 3) ((val >>> 24).setWidth 8)
  else if 0x04000380 ≤ addr ∧ addr < 0x040003C0 then
    let i := ((addr - 0x04000380) >>> 1).toNat
    g.setRegisters fun r =>
      (r.writeToon i (val.setWidth 16)).writeToon (i + 1) ((val >>> 16).setWidth 16)
  else g

/-! ## Reads -/

/-- `CmdFIFO.Level()` -/
def fifoLevel (g : GPU3D) : U32 := BitVec.ofNat 32 g.queue.cmdFIFO.level

/-- The FIFO is less than half full, and empty, as bits from `shift` on. -/
def fifoFlags (g : GPU3D) (shift : ℕ) : U32 :=
  (if g.fifoLevel < 128 then bit 32 shift else 0) |||
    (if g.fifoLevel = 0 then bit 32 (shift + 1) else 0)

def posLevel (g : GPU3D) : U32 := g.matrices.posMatrixStackPointer &&& 0x1F
def projLevel (g : GPU3D) : U32 := g.matrices.projMatrixStackPointer &&& 0x1

def read8 (now : U64) (addr : U32) (g : GPU3D) : U8 × GPU3D :=
  if addr = 0x04000600 then
    let g := g.run now
    (g.queue.gxStat.setWidth 8, g)
  else if addr = 0x04000601 then
    let g := g.run now
    ((((g.queue.gxStat >>> 8) &&& 0xFF) ||| g.posLevel ||| (g.projLevel <<< 5)).setWidth 8, g)
  else if addr = 0x04000602 then
    let g := g.run now
    (g.fifoLevel.setWidth 8, g)
  else if addr = 0x04000603 then
    let g := g.run now
    ((((g.queue.gxStat >>> 24) &&& 0xFF) ||| (g.fifoLevel >>> 8) ||| g.fifoFlags 1).setWidth 8, g)
  else (0, g)

def read16 (now : U64) (addr : U32) (g : GPU3D) : U16 × GPU3D :=
  if addr = 0x04000060 then (g.registers.dispCnt.setWidth 16, g)
  else if addr = 0x04000320 then (46, g)
  else if addr = 0x04000600 then
    let g := g.run now
    (((g.queue.gxStat &&& 0xFFFF) ||| (g.posLevel <<< 8) ||| (g.projLevel <<< 13)).setWidth 16, g)
  else if addr = 0x04000602 then
    let g := g.run now
    (((g.queue.gxStat >>> 16) ||| g.fifoLevel ||| g.fifoFlags 9).setWidth 16, g)
  else if addr = 0x04000604 then (BitVec.ofNat 16 g.scene.numPolygons, g)
  else if addr = 0x04000606 then (BitVec.ofNat 16 g.scene.numVertices, g)
  else if addr = 0x04000630 then (g.tests.vecTestResult 0, g)
  else if addr = 0x04000632 then (g.tests.vecTestResult 1, g)
  else if addr = 0x04000634 then (g.tests.vecTestResult 2, g)
  else (0, g)

def read32 (now : U64) (addr : U32) (g : GPU3D) : U32 × GPU3D :=
  if addr = 0x04000060 then (g.registers.dispCnt, g)
  else if addr = 0x04000320 then (46, g)
  else if addr = 0x04000600 then
    let g := g.run now
    (g.queue.gxStat ||| (g.posLevel <<< 8) ||| (g.projLevel <<< 13) ||| (g.fifoLevel <<< 16) |||
      g.fifoFlags 25, g)
  else if addr = 0x04000604 then
    (BitVec.ofNat 32 g.scene.numPolygons ||| (BitVec.ofNat 32 g.scene.numVertices <<< 16), g)
  else if addr = 0x04000620 then (g.tests.posTestResult 0, g)
  else if addr = 0x04000624 then (g.tests.posTestResult 1, g)
  else if addr = 0x04000628 then (g.tests.posTestResult 2, g)
  else if addr = 0x0400062C then (g.tests.posTestResult 3, g)
  else if addr = 0x04000680 then (elem g.matrices.vecMatrix 0, g)
  else if addr = 0x04000684 then (elem g.matrices.vecMatrix 1, g)
  else if addr = 0x04000688 then (elem g.matrices.vecMatrix 2, g)
  else if addr = 0x0400068C then (elem g.matrices.vecMatrix 4, g)
  else if addr = 0x04000690 then (elem g.matrices.vecMatrix 5, g)
  else if addr = 0x04000694 then (elem g.matrices.vecMatrix 6, g)
  else if addr = 0x04000698 then (elem g.matrices.vecMatrix 8, g)
  else if addr = 0x0400069C then (elem g.matrices.vecMatrix 9, g)
  else if addr = 0x040006A0 then (elem g.matrices.vecMatrix 10, g)
  else if 0x04000640 ≤ addr ∧ addr < 0x04000680 then
    let g := g.updateClipMatrix
    (elem g.derived.clipMatrix ((addr &&& 0x3C) >>> 2).toNat, g)
  else (0, g)

end GPU3D
end MelonDS
