import MelonDS.Net.Reader

/-!
# `LocalMP`

Up to sixteen instances exchange frames through one ring everybody reads and one
reply ring for each command host. All instances run at once; the steps here are
the critical sections under `MPQueueLock` and the semaphore waits outside it, so
that a list of actions is an interleaving. The early exits of `RecvHostPacket`
and `RecvReplies` only stop a caller between two steps.
-/

namespace MelonDS.LocalMP

structure State where
  connectedBitmask : U16
  activeHosts : U16
  packetQueue : Queue
  replyQueue : Inst → Queue
  replyAllocated : Inst → Bool
  lastHostID : Inst → Option Inst
  replyHostID : Inst → Option Inst
  hostAddress : Inst → List U8
  hostChannel : Inst → U8
  reader : Fifo → Inst → Reader
  /-- how often an `INVALID … FIFO RECORD` was logged -/
  warnings : ℕ

def emptyQueue : Queue := ⟨fun _ => 0, 0, Nat.succ_pos _⟩

def init : State where
  connectedBitmask := 0
  activeHosts := 0
  packetQueue := emptyQueue
  replyQueue _ := emptyQueue
  replyAllocated _ := false
  lastHostID _ := none
  replyHostID _ := none
  hostAddress _ := List.replicate 6 0
  hostChannel _ := 0
  reader _ _ := ⟨0, 0, 0, [], []⟩
  warnings := 0

def writeRecord (q : Queue) (r : Record) : Queue :=
  (q.write r.header.encode (by rw [MPPacketHeader.length_encode]; decide)).write r.payload
    (r.length_le.trans (by decide))

/-- A TX header of twelve bytes, then an 802.11 header of twenty-four. -/
def hasWifiHeader (packet : List U8) : Bool :=
  packet.length ≥ 36 ∧ byteAt packet 9 ≥ 1 ∧ byteAt packet 9 ≤ 14 ∧
    (byteAt packet 10).toNat ||| (byteAt packet 11).toNat <<< 8 = packet.length - 12

/-- The loops of `FindReplyHost`: the only host with the property, if there is one. -/
def onlyHost (p : Inst → Bool) : Option Inst :=
  match (List.finRange 16).filter p with
  | [host] => some host
  | _ => none

namespace State

def connected (s : State) (i : Inst) : Bool := s.connectedBitmask.getLsbD i

def active (s : State) (i : Inst) : Bool := s.activeHosts.getLsbD i

def queue (s : State) : Fifo → Inst → Queue
  | .packets, _ => s.packetQueue
  | .replies, i => s.replyQueue i

/-- Packets are for connected instances; a reply ring is followed at all times. -/
def reads (s : State) : Fifo → Inst → Bool
  | .packets, i => s.connected i
  | .replies, _ => true

def modify (s : State) (fifo : Fifo) (inst : Inst) (g : Reader → Reader) : State :=
  { s with reader := fun f i => if f = fifo ∧ i = inst then g (s.reader f i) else s.reader f i }

def resetFIFO (s : State) (inst : Inst) (fifo : Fifo) : State :=
  s.modify fifo inst (·.resetFIFO (s.queue fifo inst))

def beginMP (s : State) (inst : Inst) : State :=
  { (s.resetFIFO inst .packets).resetFIFO inst .replies with
    lastHostID := Function.update s.lastHostID inst none
    replyHostID := Function.update s.replyHostID inst none
    activeHosts := s.activeHosts &&& ~~~bit 16 inst
    hostChannel := Function.update s.hostChannel inst 0
    connectedBitmask := s.connectedBitmask ||| bit 16 inst }

def endMP (s : State) (inst : Inst) : State :=
  { (s.resetFIFO inst .packets).resetFIFO inst .replies with
    lastHostID := Function.update s.lastHostID inst none
    replyHostID := Function.update s.replyHostID inst none
    activeHosts := s.activeHosts &&& ~~~bit 16 inst
    hostChannel := Function.update s.hostChannel inst 0
    connectedBitmask := s.connectedBitmask &&& ~~~bit 16 inst }

def findReplyHost (s : State) (inst : Inst) (packet : List U8) : Option Inst :=
  let hosts := s.activeHosts &&& s.connectedBitmask &&& ~~~bit 16 inst
  if hasWifiHeader packet then
    onlyHost fun host => hosts.getLsbD host ∧ s.hostChannel host = byteAt packet 9 ∧
      s.hostAddress host = (packet.drop 16).take 6
  else
    match s.lastHostID inst with
    | some observed => if hosts.getLsbD observed then some observed else none
    | none => onlyHost fun host => hosts.getLsbD host

/-- A reply: room is made at its host, then it is written there and posted. -/
def sendToHost (s : State) (destination : Inst) (r : Record) : State :=
  let q := s.replyQueue destination
  { s.modify .replies destination fun x =>
      (x.makeRoom q (MPPacketHeader.size + r.payload.length)).post r with
    replyQueue := Function.update s.replyQueue destination (writeRecord q r)
    replyHostID := Function.update s.replyHostID r.sender (some destination) }

/-- Any other frame: room is made at every connected reader, the sender's own
included, then it is written once and posted to all of them. -/
def sendToAll (s : State) (r : Record) : State :=
  { s with
    packetQueue := writeRecord s.packetQueue r
    reader := fun fifo i =>
      if fifo = .packets ∧ s.connected i then
        ((s.reader fifo i).makeRoom s.packetQueue (MPPacketHeader.size + r.payload.length)).post r
      else s.reader fifo i }

/-- What a command changes besides: its sender becomes a host. -/
def becomeHost (s : State) (inst : Inst) (packet : List U8) : State :=
  { s.resetFIFO inst .replies with
    replyAllocated := Function.update s.replyAllocated inst true
    activeHosts := s.activeHosts ||| bit 16 inst
    hostChannel := Function.update s.hostChannel inst
      (if hasWifiHeader packet then byteAt packet 9 else 0)
    hostAddress := if hasWifiHeader packet then
      Function.update s.hostAddress inst ((packet.drop 22).take 6) else s.hostAddress }

/-- `allocated` is whether a reply ring can be had if there is none yet. -/
def sendPacketGeneric (s : State) (inst : Inst) (type : U32) (packet : List U8) (timestamp : U64)
    (allocated : Bool) : State :=
  let kind := type &&& 0xFFFF
  let aid := type >>> 16
  if kind > 3 ∨ (if kind = 2 then aid > 15 ∨ (aid = 0 ∧ packet ≠ []) else aid ≠ 0) then s
  else if hlen : packet.length > kMaxFrameSize then s
  else if ¬s.connected inst then s
  else
    let r : Record := ⟨inst, type, packet, timestamp, Nat.not_lt.mp hlen⟩
    if kind = 2 then
      match s.findReplyHost inst packet with
      | none => s
      | some destination => s.sendToHost destination r
    else if kind = 1 then
      if ¬s.replyAllocated inst ∧ ¬allocated then s else (s.sendToAll r).becomeHost inst packet
    else s.sendToAll r

/-- The critical section of `RecvPacketGeneric`, entered with a permit. -/
def recvPacketGeneric (s : State) (inst : Inst) (capacity : ℕ) : State :=
  let x := s.reader .packets inst
  if capacity = 0 ∨ x.permits = 0 then s
  else if ¬s.connected inst ∨ x.readOffset = s.packetQueue.writeOffset then
    s.modify .packets inst (·.enter.resetFIFO s.packetQueue)
  else
    let got := x.enter.receive s.packetQueue (packetVerdict inst) capacity
    { s.modify .packets inst fun _ => got.2.2 with
      lastHostID := if got.1 = .deliver ∧ got.2.1.length ≠ 0 ∧ got.2.1.type = 1 then
        Function.update s.lastHostID inst (some (Fin.ofNat 16 got.2.1.senderID.toNat))
        else s.lastHostID
      warnings := s.warnings + if got.1 = .invalid then 1 else 0 }

/-- The second critical section of `RecvReplies`, entered with a permit. Each AID
has 1024 bytes in the caller's buffer. -/
def recvReplies (s : State) (inst : Inst) (timestamp : U64) : State :=
  let x := s.reader .replies inst
  let q := s.replyQueue inst
  if x.permits = 0 then s
  else if ¬s.active inst ∨ x.readOffset = q.writeOffset then
    s.modify .replies inst (·.enter.resetFIFO q)
  else
    let got := x.enter.receive q (replyVerdict inst timestamp) 1024
    { s.modify .replies inst fun _ => got.2.2 with
      warnings := s.warnings + if got.1 = .invalid then 1 else 0 }

/-- `Semaphore_TryWait`; without a permit to take it times out. -/
def tryWait (s : State) (fifo : Fifo) (inst : Inst) : State :=
  if (s.reader fifo inst).semPool = 0 then s else s.modify fifo inst .take

end State

inductive Action
  | beginMP (inst : Inst)
  | endMP (inst : Inst)
  | send (inst : Inst) (type : U32) (packet : List U8) (timestamp : U64) (allocated : Bool)
  | tryWait (fifo : Fifo) (inst : Inst)
  | recvPacket (inst : Inst) (capacity : ℕ)
  | recvReplies (inst : Inst) (timestamp : U64)

namespace Action

def sendPacket (inst : Inst) (packet : List U8) (timestamp : U64) : Action :=
  .send inst 0 packet timestamp true

def sendCmd (inst : Inst) (packet : List U8) (timestamp : U64) (allocated : Bool) : Action :=
  .send inst 1 packet timestamp allocated

def sendReply (inst : Inst) (packet : List U8) (timestamp : U64) (aid : U16) : Action :=
  .send inst (2 ||| aid.setWidth 32 <<< 16) packet timestamp true

def sendAck (inst : Inst) (packet : List U8) (timestamp : U64) : Action :=
  .send inst 3 packet timestamp true

/-- The record an action sends. -/
def Sends : Action → Record → Prop
  | .send inst type packet timestamp _, r =>
      r.sender = inst ∧ r.type = type ∧ r.payload = packet ∧ r.timestamp = timestamp
  | _, _ => False

end Action

def State.step (s : State) : Action → State
  | .beginMP inst => s.beginMP inst
  | .endMP inst => s.endMP inst
  | .send inst type packet timestamp allocated =>
      s.sendPacketGeneric inst type packet timestamp allocated
  | .tryWait fifo inst => s.tryWait fifo inst
  | .recvPacket inst capacity => s.recvPacketGeneric inst capacity
  | .recvReplies inst timestamp => s.recvReplies inst timestamp

def run (acts : List Action) : State := acts.foldl State.step init

end MelonDS.LocalMP
