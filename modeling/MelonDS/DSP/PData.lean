import Mathlib.Tactic.Common
import MelonDS.FIFO
import MelonDS.Types

/-!
# The PDATA read stream

`DSi_DSP.cpp`: a PCFG write starts or cancels a transfer, which fetches words from the DSP's side
ahead of the reads into a FIFO of 16. The core behind it is a parameter. Beside the registers the
state keeps all words fetched, whether one of them met a full FIFO, and the words that have left
the FIFO, each with whether a PDATA read took it.
-/

namespace MelonDS.DSP

/-- The core and the system behind it: what `PDataDMARead` reads in each region, and what the bits
of PCFG that power the core do. -/
structure Source (δ : Type) where
  dstHigh : δ → U16
  dataReadA32 : U32 → δ → U16 × δ
  mmioRead : U16 → δ → U16 × δ
  programRead : U32 → δ → U16 × δ
  ahbmConfigured : δ → Bool
  ahbmUnitSize : δ → U16
  arm9Read8 : U32 → δ → U8 × δ
  ahbmRead16 : U32 → δ → U16 × δ
  ahbmRead32 : U32 → δ → U32 × δ
  power : U16 → U16 → Bool × δ → Bool × δ

/-- The transfer last started: its length and how many words had been fetched before it. -/
inductive Stream
  | none
  | fixed (length mark : ℕ)
  | endless

structure PData (δ : Type) where
  padr : U16
  pcfg : U16
  pDataDMALen : ℤ
  readFifo : FIFO U16 16
  hasCore : Bool
  system : δ
  irq : Bool
  fetched : List U16
  overrun : Bool
  gone : List (U16 × Bool)
  /-- The address when it was last set, and the words fetched until then. -/
  base : U16
  mark : ℕ
  stream : Stream

namespace PData

variable {δ : Type} (src : Source δ)

def reset (system : δ) : PData δ :=
  ⟨0, 0, 0, .empty 0, false, system, false, [], false, [], 0, 0, .none⟩

/-- The memory region of PCFG. -/
def region (s : PData δ) : ℕ := ((s.pcfg >>> 12) &&& 7).toNat

def autoIncrement (s : PData δ) : Bool := s.pcfg.getLsbD 1

/-- The regions `PDataDMARead` knows. -/
def served (s : PData δ) : Bool :=
  !s.hasCore || s.region == 0 || s.region == 1 || s.region == 5 || s.region == 7

def ahbmRead (addr : U32) (d : δ) : U16 × δ :=
  if src.ahbmConfigured d then
    match (src.ahbmUnitSize d).toNat with
    | 0 => let (v, d) := src.arm9Read8 addr d; (v.setWidth 16, d)
    | 1 => src.ahbmRead16 addr d
    | 2 => let (v, d) := src.ahbmRead32 addr d; (v.setWidth 16, d)
    | _ => (0, d)
  else (0, d)

/-- The word at the address, in the regions with one. -/
def word (s : PData δ) : U16 × δ :=
  let addr : U32 := s.padr.setWidth 32
  let addrHigh := addr ||| (src.dstHigh s.system).setWidth 32 <<< 16
  if s.hasCore then
    match s.region with
    | 0 => src.dataReadA32 addrHigh s.system
    | 1 => src.mmioRead (s.padr &&& 0x7FF) s.system
    | 5 => src.programRead addrHigh s.system
    | 7 => ahbmRead src addrHigh s.system
    | _ => (0, s.system)
  else (0, s.system)

def pDataDMARead (s : PData δ) : U16 × PData δ :=
  let (r, d) := s.word src
  (r, { s with
    system := d
    padr := if s.served && s.autoIncrement then s.padr + 1 else s.padr
    fetched := s.fetched ++ [r] })

def pDataDMAFetch (s : PData δ) : PData δ :=
  if s.pDataDMALen = 0 then s
  else
    let (r, s) := s.pDataDMARead src
    { s with
      readFifo := s.readFifo.write r
      overrun := s.overrun || s.readFifo.isFull
      pDataDMALen := if 0 < s.pDataDMALen then s.pDataDMALen - 1 else s.pDataDMALen }

def checkPDataReadIRQ (s : PData δ) : PData δ :=
  { s with
    irq := s.irq || (s.pcfg.getLsbD 5 && s.readFifo.isFull) ||
      (s.pcfg.getLsbD 6 && !s.readFifo.isEmpty) }

/-- The length in bits 2 and 3 of PCFG. -/
def lengthOf (pcfg : U16) : ℤ :=
  match ((pcfg &&& 0xC) >>> 2).toNat with
  | 0 => 1
  | 1 => 8
  | 2 => 16
  | _ => -1

/-- The words fetched ahead. -/
def prefetch (pcfg : U16) : ℕ := if lengthOf pcfg < 0 then 16 else (lengthOf pcfg).toNat

def streamOf (pcfg : U16) (fetched : ℕ) : Stream :=
  if lengthOf pcfg < 0 then .endless else .fixed (lengthOf pcfg).toNat fetched

def pDataDMAStart (s : PData δ) : PData δ :=
  let s := { s with
    pDataDMALen := lengthOf s.pcfg
    base := s.padr
    mark := s.fetched.length
    stream := streamOf s.pcfg s.fetched.length }
  checkPDataReadIRQ ((pDataDMAFetch src)^[prefetch s.pcfg] s)

def pDataDMACancel (s : PData δ) : PData δ :=
  { s with
    pDataDMALen := 0
    readFifo := s.readFifo.clear 0
    gone := s.gone ++ s.readFifo.contents.map fun w => (w, false)
    base := s.padr
    mark := s.fetched.length
    stream := .none }

/-- The fetches after a read: as many as there is room for, or as many as are left. -/
def refill (s : PData δ) : ℕ :=
  let left : ℤ := 16 - s.readFifo.level
  (if 0 < s.pDataDMALen ∧ s.pDataDMALen < left then s.pDataDMALen else left).toNat

def pDataDMAReadMMIO (s : PData δ) : U16 × PData δ :=
  let (ret, s) :=
    if s.readFifo.isEmpty then ((0 : U16), s)
    else
      let (w, fifo) := s.readFifo.read
      (w, { s with readFifo := fifo, gone := s.gone ++ [(w, true)] })
  let s := if s.pDataDMALen ≠ 0 then (pDataDMAFetch src)^[s.refill] s else s
  (ret, s.checkPDataReadIRQ)

inductive PDataOp
  | writePCFG (val : U16)
  /-- One half of PCFG, which neither starts nor cancels. -/
  | writePCFG8 (high : Bool) (val : U8)
  | writePADR (val : U16)
  | readPDATA

/-- A 16-bit write to PCFG powers the core, and starts or cancels. -/
def writePCFG (val : U16) (s : PData δ) : PData δ :=
  let (core, d) := src.power s.pcfg val (s.hasCore, s.system)
  let s := { s with hasCore := core, system := d, pcfg := val }
  if val.getLsbD 4 then s.pDataDMAStart src else s.pDataDMACancel

def setAddress (padr : U16) (s : PData δ) : PData δ :=
  { s with padr := padr, base := padr, mark := s.fetched.length }

def writePCFG8 (high : Bool) (val : U8) (s : PData δ) : PData δ :=
  let pcfg : U16 := if high then (s.pcfg &&& 0x00FF) ||| val.setWidth 16 <<< 8
    else (s.pcfg &&& 0xFF00) ||| val.setWidth 16
  setAddress s.padr { s with pcfg := pcfg }

def step (s : PData δ) : PDataOp → PData δ
  | .writePCFG val => s.writePCFG src val
  | .writePCFG8 high val => s.writePCFG8 high val
  | .writePADR val => s.setAddress val
  | .readPDATA => (s.pDataDMAReadMMIO src).2

end PData
end MelonDS.DSP
