import MelonDS.Types

/-!
# A DMA channel

`WriteCnt`, `Start` and `Run` of `DMA.cpp`. A channel moves units of 2 or 4
bytes until it has used up `IterCount`, the time of its CPU is up or the
geometry engine stalls it. What decides the second and third is not the
channel's: a `Slice` gives one call of `Run` its clock, the cost of each unit
and the units that stall it.
-/

namespace MelonDS.DMA

/-- `units`, `irqs` and the three fields behind them are history, which the
channel never reads. -/
structure Channel where
  cpu : Fin 2
  num : Fin 4
  srcAddr : U32
  dstAddr : U32
  cnt : U32
  startMode : U32
  curSrcAddr : U32
  curDstAddr : U32
  remCount : U32
  iterCount : U32
  srcAddrInc : S32
  dstAddrInc : S32
  running : U32
  inProgress : Bool
  executing : Bool
  stall : Bool
  isGXFIFODMA : Bool
  units : List (U32 × U32)
  irqs : ℕ
  programmed : ℕ
  transferred : ℕ
  completed : ℕ

/-- One call of `Run`. `restarts` says that the check made when the channel
stops (`CheckFIFODMA` or the cartridge's `CheckDMA`) finds it may start again. -/
structure Slice where
  timestamp : U64
  target : U64
  cost : ℕ → U64
  stalls : ℕ → Bool
  restarts : Bool

namespace Channel

def reset (cpu : Fin 2) (num : Fin 4) : Channel where
  cpu := cpu
  num := num
  srcAddr := 0
  dstAddr := 0
  cnt := 0
  startMode := 0
  curSrcAddr := 0
  curDstAddr := 0
  remCount := 0
  iterCount := 0
  srcAddrInc := 0
  dstAddrInc := 0
  running := 0
  inProgress := false
  executing := false
  stall := false
  isGXFIFODMA := false
  units := []
  irqs := 0
  programmed := 0
  transferred := 0
  completed := 0

def countMask (cpu : Fin 2) (num : Fin 4) : U32 :=
  if cpu = 0 then 0x001FFFFF else if num = 3 then 0x0000FFFF else 0x00003FFF

/-- A count of zero is the longest one. -/
def programmedCount (d : Channel) : U32 :=
  let count := d.cnt &&& countMask d.cpu d.num
  if count = 0 then countMask d.cpu d.num + 1 else count

/-- The count is loaded unless a transfer is waiting for its next part. -/
def loadCount (d : Channel) : Channel :=
  if d.inProgress then d
  else
    { d with
      remCount := d.programmedCount
      programmed := d.programmedCount.toNat
      transferred := 0 }

/-- The rest of `Start`: how much is done before the next start, and the reloads of mode 3. -/
def launch (d : Channel) : Channel :=
  let src := if d.cnt &&& 0x01800000 = 0x01800000 then d.srcAddr else d.curSrcAddr
  let dst := if d.cnt &&& 0x00600000 = 0x00600000 then d.dstAddr else d.curDstAddr
  { d with
    iterCount := if d.startMode = 0x07 && (112 : U32).ult d.remCount then 112 else d.remCount
    curSrcAddr := src
    curDstAddr := dst
    isGXFIFODMA := d.cpu = 0 && src >>> 24 = 0x02 && dst = 0x04000400 && d.dstAddrInc = 0
    running := 2
    inProgress := true }

def start (d : Channel) : Channel :=
  if d.running ≠ 0 then d else d.loadCount.launch

/-- `StartIfNeeded` for the channel's own mode. -/
def trigger (d : Channel) : Channel := if d.cnt.getLsbD 31 then d.start else d

/-- The step of an address, from the two bits of the control word that give it. -/
def addrInc (mode : U32) : S32 := if mode = 1 then -1 else if mode = 2 then 0 else 1

/-- `WriteCnt`. The checks it makes in the other modes are triggers of their own. -/
def writeCnt (d : Channel) (val : U32) : Channel :=
  let old := d.cnt
  let d := { d with cnt := val }
  if !old.getLsbD 31 && val.getLsbD 31 then
    let d :=
      { d with
        curSrcAddr := d.srcAddr
        curDstAddr := d.dstAddr
        dstAddrInc := addrInc ((val >>> 21) &&& 3)
        srcAddrInc := addrInc ((val >>> 23) &&& 3)
        startMode := if d.cpu = 0 then (val >>> 27) &&& 7 else ((val >>> 28) &&& 3) ||| 0x10 }
    if d.startMode &&& 7 = 0 then d.start else d
  else d

/-- The channel's two address registers and its control word are written in turn. -/
def program (d : Channel) (src dst val : U32) : Channel :=
  { d with srcAddr := src, dstAddr := dst }.writeCnt val

/-- The body of the unit loops: one halfword or word. -/
def unit (d : Channel) : Channel :=
  let shift := if d.cnt.getLsbD 26 then 2 else 1
  { d with
    units := d.units ++ [(d.curSrcAddr, d.curDstAddr)]
    curSrcAddr := d.curSrcAddr + d.srcAddrInc <<< shift
    curDstAddr := d.curDstAddr + d.dstAddrInc <<< shift
    iterCount := d.iterCount - 1
    remCount := d.remCount - 1
    transferred := d.transferred + 1 }

/-- `StallIfRunning`, called from inside the write of a unit. -/
def stallIf (d : Channel) (stalls : Bool) : Channel :=
  { d with stall := d.stall || (d.executing && stalls) }

/-- The unit loop. The first argument bounds it by `IterCount`; `k` numbers the units. -/
def unitLoop (e : Slice) : ℕ → ℕ → U64 → Channel → Channel
  | 0, _, _, d => d
  | n + 1, k, timestamp, d =>
    if d.iterCount ≠ 0 ∧ d.stall = false then
      let d := d.unit.stallIf (e.stalls k)
      if e.target ≤ timestamp + e.cost k then d
      else unitLoop e n (k + 1) (timestamp + e.cost k) d
    else d

/-- The end of a transfer. -/
def complete (d : Channel) : Channel :=
  { d with
    cnt := if d.cnt.getLsbD 25 then d.cnt else d.cnt &&& ~~~(0x80000000 : U32)
    irqs := if d.cnt.getLsbD 30 then d.irqs + 1 else d.irqs
    running := 0
    inProgress := false
    completed := d.completed + 1 }

/-- What is left of `Run` after the loop, up to the checks that may start the channel again. -/
def settle (d : Channel) : Channel :=
  if d.remCount ≠ 0 then
    if d.iterCount = 0 then { d with running := 0 } else d
  else d.complete

/-- The check made on stopping, in the modes that make one. -/
def recheck (d : Channel) (partMode doneMode : Option U32) (restarts : Bool) : Channel :=
  let checked := if d.inProgress then partMode else doneMode
  if d.running = 0 && checked = some d.startMode && restarts then d.trigger else d

/-- The body that `Run9` and `Run7` share. -/
def runSlice (partMode doneMode : Option U32) (d : Channel) (e : Slice) : Channel :=
  if e.target ≤ e.timestamp then d
  else
    let d := unitLoop e d.iterCount.toNat 0 e.timestamp { d with executing := true, running := 1 }
    ({ d with executing := false, stall := false }.settle).recheck partMode doneMode e.restarts

def run9 : Channel → Slice → Channel := runSlice (some 0x07) (some 0x05)

def run7 : Channel → Slice → Channel := runSlice none (some 0x12)

def run (d : Channel) (e : Slice) : Channel :=
  if d.running = 0 then d else if d.cpu = 0 then d.run9 e else d.run7 e

end Channel
end MelonDS.DMA
