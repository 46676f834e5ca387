import MelonDS.FIFO
import MelonDS.Library.LittleEndian

/-!
# The receive mailboxes of the DSi wifi

`DSi_NWifi.cpp`: records for the guest are written to mailbox 8, and `DrainRXBuffer`
moves them to mailbox 4, from which the guest reads. The words of a frame are copied
from one byte buffer to the other, so they are kept here as bytes.
-/

namespace MelonDS

/-- An Ethernet frame of the host, of 14 to 2048 bytes. -/
structure HostFrame where
  bytes : List U8
  length_ge : 14 ≤ bytes.length
  length_le : bytes.length ≤ 2048

namespace HostFrame

variable (frame : HostFrame)

def dst : List U8 := frame.bytes.take 6
def src : List U8 := (frame.bytes.drop 6).take 6
def ethertype : List U8 := (frame.bytes.drop 12).take 2
def payload : List U8 := frame.bytes.drop 14

/-- Addressed to `mac` or to everybody, and not sent by `mac`. -/
def accepted (mac : List U8) : Bool :=
  (frame.dst = List.replicate 6 0xFF || frame.dst = mac) && frame.src ≠ mac

@[simp] theorem length_dst : frame.dst.length = 6 := by
  have h := frame.length_ge
  rw [dst, List.length_take]
  omega

@[simp] theorem length_src : frame.src.length = 6 := by
  have h := frame.length_ge
  rw [src, List.length_take, List.length_drop]
  omega

@[simp] theorem length_ethertype : frame.ethertype.length = 2 := by
  have h := frame.length_ge
  rw [ethertype, List.length_take, List.length_drop]
  omega

@[simp] theorem length_payload : frame.payload.length = frame.bytes.length - 14 :=
  List.length_drop

end HostFrame
end MelonDS

namespace MelonDS.NWifi

instance neZero_mailbox4 : NeZero 0x600 := ⟨Nat.succ_ne_zero 0x5FF⟩
instance neZero_mailbox8 : NeZero 0x8000 := ⟨Nat.succ_ne_zero 0x7FFF⟩

structure RXMailboxes where
  mailbox4 : DynamicFIFO U8 0x600
  mailbox8 : DynamicFIFO U8 0x8000

def RXMailboxes.reset : RXMailboxes := ⟨FIFO.empty 0, FIFO.empty 0⟩

/-- What the device knows beside its mailboxes: the address in the EEPROM, the access point's,
and whether beacons are reported. -/
structure Device where
  mac : List U8
  apMac : List U8
  sendBSSInfo : Bool
  length_mac : mac.length = 6
  length_apMac : apMac.length = 6

/-- Bytes moved one by one. -/
def moveBytes : ℕ → RXMailboxes → RXMailboxes
  | 0, s => s
  | i + 1, s =>
    let (b, mailbox8) := DynamicFIFO.read s.mailbox8
    moveBytes i ⟨s.mailbox4.write b, mailbox8⟩

/-- The length field of the record at the head. -/
def headLength (s : RXMailboxes) : ℕ :=
  ((DynamicFIFO.peekAt s.mailbox8 2).setWidth 16 |||
    (DynamicFIFO.peekAt s.mailbox8 3).setWidth 16 <<< 8 : U16).toNat

/-- `(totallen + 0x7F) & ~0x7F` -/
def required (totallen : ℕ) : ℕ := (totallen + 0x7F) / 0x80 * 0x80

theorem level_read_le (f : DynamicFIFO U8 0x8000) : (DynamicFIFO.read f).2.level ≤ f.level := by
  rw [FIFO.level_eq_length, FIFO.level_eq_length]
  cases h : f.contents with
  | nil => rw [DynamicFIFO.read_of_nil h, h]
  | cons b rest =>
    rw [(DynamicFIFO.read_of_cons h).2]
    exact Nat.le_succ _

theorem level_moveBytes_le (i : ℕ) (s : RXMailboxes) :
    (moveBytes i s).mailbox8.level ≤ s.mailbox8.level := by
  induction i generalizing s with
  | zero => exact Nat.le_refl _
  | succ i ih => exact (ih _).trans (level_read_le s.mailbox8)

theorem level_moveBytes_lt (i : ℕ) {s : RXMailboxes} (h : 6 ≤ s.mailbox8.level) :
    (moveBytes (i + 1) s).mailbox8.level < s.mailbox8.level := by
  refine (level_moveBytes_le i _).trans_lt ?_
  change (DynamicFIFO.read s.mailbox8).2.level < _
  rw [FIFO.level_eq_length] at h
  rw [FIFO.level_eq_length, FIFO.level_eq_length]
  cases hc : s.mailbox8.contents with
  | nil =>
    rw [hc] at h
    exact absurd h (by decide)
  | cons b rest =>
    rw [(DynamicFIFO.read_of_cons hc).2]
    exact Nat.lt_succ_self _

def drainRXBuffer (s : RXMailboxes) : RXMailboxes :=
  if h : s.mailbox8.level ≥ 6 then
    let totallen := headLength s + 6
    if s.mailbox4.canFit (required totallen) then
      let s' := moveBytes totallen s
      drainRXBuffer
        { s' with
          mailbox4 :=
            DynamicFIFO.writeAll s'.mailbox4 (List.replicate (required totallen - totallen) 0) }
    else s
  else s
termination_by s.mailbox8.level
decreasing_by exact level_moveBytes_lt _ h

/-- A record is written behind the others and moved on as far as there is room; `room` is what
the sender asks for. -/
def send (room : ℕ) (record : List U8) (s : RXMailboxes) : RXMailboxes :=
  if s.mailbox8.canFit room then
    drainRXBuffer { s with mailbox8 := DynamicFIFO.writeAll s.mailbox8 record }
  else s

/-! The records -/

def eventRecord (ep : U8) (id : U16) (data : List U8) : List U8 :=
  [ep, 0x02] ++ toBytes 2 (data.length + 2 + 8) ++ [8, 0] ++ toBytes 2 id.toNat ++ data ++
    [0x02, 0x06, 0, 0, 0, 0, 0, 0]

def ackRecord (ep : U8) : List U8 :=
  [0, 0x02] ++ toBytes 2 0xC ++ [0xC, 0] ++ [0x01, 0x02, ep, 0x01] ++
    [0x02, 0x06, 0, 0, 0, 0, 0, 0]

def bssInfoRecord (apMac : List U8) (type : U8) (data : List U8) : List U8 :=
  [1, 0x00] ++ toBytes 2 (data.length + 2 + 16) ++ [0xFF, 0xFF] ++ toBytes 2 0x1004 ++
    toBytes 2 2437 ++ [type, 0x1B] ++ toBytes 2 0xFFBC ++ apMac ++ toBytes 4 0 ++ data

/-- The frame without its Ethernet header, behind an HTC, a WMI and an LLC header. -/
def frameRecord (frame : HostFrame) : List U8 :=
  let datalen := frame.bytes.length - 14
  [2, 0x00] ++ toBytes 2 (16 + 8 + datalen) ++ [0, 0] ++ toBytes 2 0x80 ++
    frame.dst ++ frame.src ++ (toBytes 2 (datalen + 8)).reverse ++
    toBytes 2 0xAAAA ++ toBytes 2 0x0003 ++ toBytes 2 0 ++ frame.ethertype ++ frame.payload

variable (dev : Device)

def sendWMIEvent (ep : U8) (id : U16) (data : List U8) : RXMailboxes → RXMailboxes :=
  send (6 + data.length + 2 + 8) (eventRecord ep id data)

def sendWMIAck (ep : U8) : RXMailboxes → RXMailboxes := send (6 + 12) (ackRecord ep)

def sendWMIBSSInfo (type : U8) (data : List U8) (s : RXMailboxes) : RXMailboxes :=
  if dev.sendBSSInfo then send (6 + data.length + 2 + 16) (bssInfoRecord dev.apMac type data) s
  else s

/-- `frames` are those the host would hand over one after the other. -/
def checkRX (frames : List HostFrame) (s : RXMailboxes) : RXMailboxes :=
  match frames.find? (HostFrame.accepted · dev.mac) with
  | none => s
  | some frame => send 2048 (frameRecord frame) s

/-- The addresses that read mailbox 4. -/
def readsMailbox4 (addr : ℕ) : Bool :=
  addr < 0x100 || (0x800 ≤ addr && addr < 0x1000) || 0x2800 ≤ addr

/-- The last address of each window. -/
def endAddress (addr : ℕ) : Bool := addr = 0xFF || addr = 0xFFF || addr = 0x3FFF

/-- `F1_Read` as far as mailbox 4 is concerned. -/
def f1Read (addr : ℕ) (s : RXMailboxes) : Option U8 × RXMailboxes :=
  if readsMailbox4 addr then
    let (ret, mailbox4) := DynamicFIFO.read s.mailbox4
    let s' := { s with mailbox4 := mailbox4 }
    (some ret, if endAddress addr then drainRXBuffer s' else s')
  else (none, s)

inductive Op
  | event (ep : U8) (id : U16) (data : List U8)
  | ack (ep : U8)
  | bssInfo (type : U8) (data : List U8)
  | checkRX (frames : List HostFrame)
  | read (addr : ℕ)

def Op.run (s : RXMailboxes) : Op → RXMailboxes
  | .event ep id data => sendWMIEvent ep id data s
  | .ack ep => sendWMIAck ep s
  | .bssInfo type data => sendWMIBSSInfo dev type data s
  | .checkRX frames => NWifi.checkRX dev frames s
  | .read addr => (f1Read addr s).2

def runOps (s : RXMailboxes) : List Op → RXMailboxes
  | [] => s
  | op :: ops => runOps (op.run dev s) ops

/-- Each operation of a run with the mailboxes it starts from. -/
def trace (s : RXMailboxes) : List Op → List (RXMailboxes × Op)
  | [] => []
  | op :: ops => (s, op) :: trace (op.run dev s) ops

end MelonDS.NWifi
