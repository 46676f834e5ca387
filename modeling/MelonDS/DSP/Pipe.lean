import MelonDS.Library.PhaseCursor
import MelonDS.Types

/-!
# Pipes of the DSP

`UcodeBase.cpp`: a pipe is five words in the DSP's data memory (buffer address, length
in bytes, read pointer, write pointer, index), and the top bit of each pointer is
flipped when it wraps. Memory is reached page by page, as `GetDataMemPointer` does; the
reply and the semaphore that follow every transfer are its outputs.
-/

namespace MelonDS.DSP

/-- The eight pages of 0x4000 words. -/
abbrev DataMem := Fin 8 → ℕ → U16

structure MemPointer where
  page : Fin 8
  offset : ℕ
deriving DecidableEq

def getDataMemPointer (addr : U32) : MemPointer where
  page := (addr.extractLsb' 14 3).toFin
  offset := (addr &&& 0x3FFF).toNat

def DataMem.get (mem : DataMem) (p : MemPointer) (i : ℕ) : U16 := mem p.page (p.offset + i)

def DataMem.set (mem : DataMem) (p : MemPointer) (i : ℕ) (v : U16) : DataMem :=
  Function.update mem p.page (Function.update (mem p.page) (p.offset + i) v)

def kPipeMonitorAddr : U32 := 0x0800
def kPipeBufferAddr : U32 := 0x1000

def loadPipe (index : U8) : MemPointer :=
  getDataMemPointer (kPipeMonitorAddr + index.setWidth 32 * 5)

/-- The five words of pipe `i`. -/
def startPipe (pipe : MemPointer) (mem : DataMem) (i : ℕ) : DataMem :=
  ((((mem.set pipe (5 * i) (BitVec.ofNat 16 (kPipeBufferAddr.toNat + 0x100 * i))).set
    pipe (5 * i + 1) 0x200).set pipe (5 * i + 2) 0).set pipe (5 * i + 3) 0).set
    pipe (5 * i + 4) (BitVec.ofNat 16 i)

/-- The pipes as `Start` leaves them. -/
def start (mem : DataMem) : DataMem :=
  (List.range 16).foldl (startPipe (getDataMemPointer kPipeMonitorAddr)) mem

variable (mem : DataMem) (pipe : MemPointer)

def getPipeLength : U32 :=
  let rdptr := (mem.get pipe 2 &&& 0x7FFF).setWidth 32
  let wrptr := (mem.get pipe 3 &&& 0x7FFF).setWidth 32
  let ret :=
    if (mem.get pipe 2 ^^^ mem.get pipe 3) &&& 0x8000 ≠ 0 then
      wrptr + (mem.get pipe 1).setWidth 32 - rdptr
    else wrptr - rdptr
  ret >>> 1

/-- A pointer word: twice the position, and the phase on top. -/
def cursorOf (w : U16) : Cursor := ⟨((w &&& 0x7FFF) >>> 1).toNat, w.getLsbD 15⟩

def pointerOf (c : Cursor) : U16 :=
  (BitVec.ofNat 16 c.pos <<< 1) ||| if c.phase then 0x8000 else 0

def pipeLen : ℕ := (mem.get pipe 1 >>> 1).toNat
def pipeBuf : MemPointer := getDataMemPointer ((mem.get pipe 0).setWidth 32)
def readCursor : Cursor := cursorOf (mem.get pipe 2)
def writeCursor : Cursor := cursorOf (mem.get pipe 3)

def readLoop (pipebuf : MemPointer) (pipelen wrptr : ℕ) : ℕ → Cursor → List U16 × Cursor
  | 0, rd => ([], rd)
  | len + 1, rd =>
    let rd' := rd.next pipelen
    if rd'.pos = wrptr then ([mem.get pipebuf rd.pos], rd')
    else
      let (data, rd'') := readLoop pipebuf pipelen wrptr len rd'
      (mem.get pipebuf rd.pos :: data, rd'')

/-- What a transfer leaves: the memory and the reply it sends. -/
structure Transfer where
  mem : DataMem
  reply : U16

/-- The words copied to `data`, as many as the function returns. -/
def readPipe (len : ℕ) : List U16 × Transfer :=
  let (data, rd) := readLoop mem (pipeBuf mem pipe) (pipeLen mem pipe)
    (writeCursor mem pipe).pos len (readCursor mem pipe)
  let mem' := mem.set pipe 2 (pointerOf rd)
  (data, ⟨mem', mem'.get pipe 4⟩)

def writeLoop (pipebuf : MemPointer) (pipelen rdptr : ℕ) :
    List U16 → Cursor → DataMem → ℕ × Cursor × DataMem
  | [], wr, mem => (0, wr, mem)
  | v :: data, wr, mem =>
    let mem' := mem.set pipebuf wr.pos v
    let wr' := wr.next pipelen
    if wr'.pos = rdptr then (1, wr', mem')
    else
      let (wrlen, r) := writeLoop pipebuf pipelen rdptr data wr' mem'
      (wrlen + 1, r)

/-- The number of words accepted. -/
def writePipe (data : List U16) : ℕ × Transfer :=
  let (wrlen, wr, mem) := writeLoop (pipeBuf mem pipe) (pipeLen mem pipe)
    (readCursor mem pipe).pos data (writeCursor mem pipe) mem
  let mem' := mem.set pipe 3 (pointerOf wr)
  (wrlen, ⟨mem', mem'.get pipe 4⟩)

inductive PipeOp
  | read (len : ℕ)
  | write (data : List U16)

/-- What an operation moved: the words returned and the words accepted. -/
structure Moved where
  mem : DataMem
  returned : List U16
  accepted : List U16

def PipeOp.run (op : PipeOp) : Moved :=
  match op with
  | .read len => ⟨(readPipe mem pipe len).2.mem, (readPipe mem pipe len).1, []⟩
  | .write data =>
    ⟨(writePipe mem pipe data).2.mem, [], data.take (writePipe mem pipe data).1⟩

/-- The memory, all words returned and all words accepted. -/
def runOps : List PipeOp → Moved → Moved
  | [], m => m
  | op :: ops, m =>
    let m' := op.run m.mem pipe
    runOps ops ⟨m'.mem, m.returned ++ m'.returned, m.accepted ++ m'.accepted⟩

def Moved.start (mem : DataMem) : Moved := ⟨mem, [], []⟩

end MelonDS.DSP
