import MelonDS.Types

/-!
# A channel of the new DMA

`WriteCnt`, `Start` and `Run` of `DSi_NDMA.cpp`. Three counts run down together: the units of the
burst, of the block and of the whole transfer. What a unit costs and whether it stalls the
channel is not the channel's: a `Slice` says so for one call of `Run`.
-/

namespace MelonDS.DSi.NDMA

/-- History of one `Start`: what was left of the block and of the transfer, and the units moved
since. -/
structure Burst where
  left : U32
  remaining : U32
  moved : ℕ
deriving DecidableEq

/-- `units`, `bursts` and `irqs` are history of the transfer, which the channel never reads. A
unit has no source where it is a fill. -/
structure Channel where
  cpu : Fin 2
  num : Fin 4
  srcAddr : U32
  dstAddr : U32
  totalLength : U32
  blockLength : U32
  cnt : U32
  startMode : U32
  curSrcAddr : U32
  curDstAddr : U32
  remCount : U32
  iterCount : U32
  totalRemCount : U32
  srcAddrInc : S32
  dstAddrInc : S32
  running : U32
  inProgress : Bool
  executing : Bool
  stall : Bool
  units : List (Option U32 × U32)
  bursts : List Burst
  irqs : ℕ

/-- One call of `Run`. `restarts` says that the checks made when the channel stops find that it
may start again, and `others` that other channels run then. -/
structure Slice where
  timestamp : U64
  target : U64
  cost : ℕ → U64
  stalls : ℕ → Bool
  restarts : Bool
  others : Bool

namespace Channel

def reset (cpu : Fin 2) (num : Fin 4) : Channel where
  cpu := cpu
  num := num
  srcAddr := 0
  dstAddr := 0
  totalLength := 0
  blockLength := 0
  cnt := 0
  startMode := 0
  curSrcAddr := 0
  curDstAddr := 0
  remCount := 0
  iterCount := 0
  totalRemCount := 0
  srcAddrInc := 0
  dstAddrInc := 0
  running := 0
  inProgress := false
  executing := false
  stall := false
  units := []
  bursts := []
  irqs := 0

/-- Started at once when it is enabled, and never repeated. -/
def immediate (d : Channel) : Bool := d.startMode &&& 0x1F = 0x10

/-- Bit 29: without it the transfer is repeated until the total count is reached. -/
def repeats (d : Channel) : Bool := d.cnt.getLsbD 29

/-- A block length of zero is the longest one. -/
def blockUnits (d : Channel) : U32 := if d.blockLength = 0 then 0x1000000 else d.blockLength

/-- The block is loaded unless one is waiting for its next burst. -/
def loadBlock (d : Channel) : Channel :=
  if d.inProgress then d else { d with remCount := d.blockUnits }

/-- The length of a burst before the total count is looked at. -/
def burstCount (d : Channel) : U32 :=
  if d.startMode = 0x0A && (112 : U32).ult d.remCount then 112 else d.remCount

/-- A burst that is longer than what remains is cut, and the block with it. -/
def cutsShort (d : Channel) : Bool :=
  !d.immediate && !d.repeats && d.totalRemCount.ult d.burstCount

/-- The rest of `Start`. -/
def launch (others : Bool) (d : Channel) : Channel :=
  { d with
    iterCount := if d.cutsShort then d.totalRemCount else d.burstCount
    remCount := if d.cutsShort then d.totalRemCount else d.remCount
    curDstAddr := if d.cnt.getLsbD 12 then d.dstAddr else d.curDstAddr
    curSrcAddr := if d.cnt.getLsbD 15 then d.srcAddr else d.curSrcAddr
    running := if others then 1 else 2
    inProgress := true
    bursts := ⟨d.remCount, d.totalRemCount, 0⟩ :: d.bursts }

def start (others : Bool) (d : Channel) : Channel :=
  if d.running ≠ 0 then d else d.loadBlock.launch others

/-- `StartIfNeeded` for the channel's own mode. -/
def trigger (others : Bool) (d : Channel) : Channel :=
  if d.cnt.getLsbD 31 then d.start others else d

def dstInc (mode : U32) : S32 := if mode = 1 then -1 else if mode = 2 then 0 else 1

/-- Mode 3 fills. -/
def srcInc (mode : U32) : S32 := if mode = 0 then 1 else if mode = 1 then -1 else 0

/-- The start mode in a control word; the ARM7's modes have bit 5 set. -/
def modeOf (cpu : Fin 2) (val : U32) : U32 :=
  let mode := val >>> 24 &&& 0x1F
  let mode := if (0x10 : U32).ult mode then 0x10 else mode
  if cpu = 1 then mode ||| 0x20 else mode

/-- `WriteCnt`. The checks it makes in the other modes are triggers of their own. -/
def writeCnt (val : U32) (others : Bool) (d : Channel) : Channel :=
  let old := d.cnt
  let d := { d with cnt := val }
  if !old.getLsbD 31 && val.getLsbD 31 then
    let d :=
      { d with
        curSrcAddr := d.srcAddr
        curDstAddr := d.dstAddr
        totalRemCount := d.totalLength
        dstAddrInc := dstInc (val >>> 10 &&& 3)
        srcAddrInc := srcInc (val >>> 13 &&& 3)
        startMode := modeOf d.cpu val
        units := []
        bursts := []
        irqs := 0 }
    if d.immediate then d.start others else d
  else d

/-- The source of a unit; a fill has none. -/
def unitSource (d : Channel) : Option U32 :=
  if d.cnt >>> 13 &&& 3 = 3 then none else some d.curSrcAddr

/-- A unit counts for the burst it belongs to. -/
def countMoved : List Burst → List Burst
  | [] => []
  | b :: bs => { b with moved := b.moved + 1 } :: bs

/-- The body of the unit loops. -/
def unit (d : Channel) : Channel :=
  { d with
    units := d.units ++ [(d.unitSource, d.curDstAddr)]
    bursts := countMoved d.bursts
    curSrcAddr := d.curSrcAddr + d.srcAddrInc <<< 2
    curDstAddr := d.curDstAddr + d.dstAddrInc <<< 2
    iterCount := d.iterCount - 1
    remCount := d.remCount - 1
    totalRemCount := d.totalRemCount - 1 }

/-- `StallIfRunning`, which reaches the channels of the ARM9 from inside the write of a unit. -/
def stallIf (stalls : Bool) (d : Channel) : Channel :=
  { d with stall := d.stall || (d.executing && d.cpu = 0 && stalls) }

/-- The unit loop. The first argument bounds it by `IterCount`; `k` numbers the units. -/
def unitLoop (e : Slice) : ℕ → ℕ → U64 → Channel → Channel
  | 0, _, _, d => d
  | n + 1, k, timestamp, d =>
    if d.iterCount ≠ 0 ∧ d.stall = false then
      let d := d.unit.stallIf (e.stalls k)
      if e.target ≤ timestamp + e.cost k then d
      else unitLoop e n (k + 1) (timestamp + e.cost k) d
    else d

/-- `Cnt & (1<<30)` asks for an interrupt. -/
def raiseIRQ (d : Channel) : Channel :=
  { d with irqs := if d.cnt.getLsbD 30 then d.irqs + 1 else d.irqs }

def disable (d : Channel) : Channel := { d with cnt := d.cnt &&& ~~~(0x80000000 : U32) }

/-- The end of a block. -/
def complete (d : Channel) : Channel :=
  let d :=
    if d.immediate then d.disable.raiseIRQ
    else if d.repeats then d.raiseIRQ
    else if d.totalRemCount = 0 then d.disable.raiseIRQ
    else d
  { d with running := 0, inProgress := false }

/-- What is left of `Run` after the loop, up to the checks that may start the channel again. -/
def settle (d : Channel) : Channel :=
  if d.remCount ≠ 0 then
    if d.iterCount = 0 then { d with running := 0 } else d
  else d.complete

/-- The checks made on stopping, in the modes that they concern. -/
def recheck (burstModes blockModes : List U32) (e : Slice) (d : Channel) : Channel :=
  let checked := if d.inProgress then burstModes else blockModes
  if d.running = 0 ∧ d.startMode ∈ checked ∧ e.restarts = true then d.trigger e.others else d

/-- The body that `Run9` and `Run7` share. -/
def runSlice (burstModes blockModes : List U32) (e : Slice) (d : Channel) : Channel :=
  if e.target ≤ e.timestamp then d
  else
    let d := unitLoop e d.iterCount.toNat 0 e.timestamp { d with executing := true, running := 1 }
    ({ d with executing := false, stall := false }.settle).recheck burstModes blockModes e

/-- The geometry engine checks after a burst, the cart slots after a block. -/
def run9 : Slice → Channel → Channel := runSlice [0x0A] [0x04, 0x05]

/-- The AES engine checks after both, the cart slots after a block. -/
def run7 : Slice → Channel → Channel := runSlice [0x2A, 0x2B] [0x2A, 0x2B, 0x24, 0x25]

def run (e : Slice) (d : Channel) : Channel :=
  if d.running = 0 then d else if d.cpu = 0 then d.run9 e else d.run7 e

end Channel

/-! ## Events -/

inductive Event
  | trigger (others : Bool)
  | run (e : Slice)

namespace Channel

def apply (d : Channel) : Event → Channel
  | .trigger others => d.trigger others
  | .run e => d.run e

def runAll (d : Channel) (es : List Event) : Channel := es.foldl apply d

end Channel
end MelonDS.DSi.NDMA
