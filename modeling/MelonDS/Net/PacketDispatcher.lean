import MelonDS.Library.LittleEndian
import MelonDS.Library.Queues
import MelonDS.RingBuffer

/-!
# `PacketDispatcher`

Sixteen instances exchange packets through one byte ring each. A packet is a
sixteen-byte header and the two blocks it gives the lengths of; to make room, a
sender reads headers back out of the ring and skips what they announce. Every
call holds the mutex throughout, so a list of calls is an interleaving. `none`
stands for what the source has no meaning for: a header read from too few bytes,
a loop that does not end, a null queue.
-/

namespace MelonDS

structure PacketHeader where
  magic : U32
  senderID : U32
  headerLength : U32
  dataLength : U32
deriving DecidableEq

namespace PacketHeader

/-- `sizeof(PacketHeader)` -/
def size : ℕ := 16

def encode (h : PacketHeader) : List U8 :=
  toBytes 4 h.magic.toNat ++ (toBytes 4 h.senderID.toNat ++ (toBytes 4 h.headerLength.toNat ++
    toBytes 4 h.dataLength.toNat))

def decode (bytes : List U8) : PacketHeader where
  magic := BitVec.ofNat 32 (ofBytes (bytes.take 4))
  senderID := BitVec.ofNat 32 (ofBytes ((bytes.drop 4).take 4))
  headerLength := BitVec.ofNat 32 (ofBytes (((bytes.drop 4).drop 4).take 4))
  dataLength := BitVec.ofNat 32 (ofBytes (((bytes.drop 4).drop 4).drop 4))

@[simp] theorem length_encode (h : PacketHeader) : h.encode.length = size := by
  simp only [encode, List.length_append, length_toBytes]
  rfl

theorem decode_encode (h : PacketHeader) : decode h.encode = h := by
  have htake (v : ℕ) (rest : List U8) : (toBytes 4 v ++ rest).take 4 = toBytes 4 v :=
    List.take_left' (length_toBytes 4 v)
  have hdrop (v : ℕ) (rest : List U8) : (toBytes 4 v ++ rest).drop 4 = rest :=
    List.drop_left' (length_toBytes 4 v)
  simp only [decode, encode, htake, hdrop, ofNat_ofBytes_toBytes (show 32 = 8 * 4 from rfl)]

end PacketHeader

namespace PacketDispatcher

abbrev Inst := Fin 16

def kPacketMagic : U32 := 0x4B504C4D

instance neZero_packetQueueSize : NeZero 0x8000 := ⟨Nat.succ_ne_zero 0x7FFF⟩

abbrev PacketQueue := RingBuffer 0x8000

/-- A packet `sendPacket` accepts. -/
structure Packet where
  sender : Fin 17
  header : List U8
  data : List U8
  length_lt : PacketHeader.size + header.length + data.length < 0x8000

namespace Packet

def phdr (p : Packet) : PacketHeader where
  magic := kPacketMagic
  senderID := BitVec.ofNat 32 p.sender
  headerLength := BitVec.ofNat 32 p.header.length
  dataLength := BitVec.ofNat 32 p.data.length

def totallen (p : Packet) : ℕ := PacketHeader.size + p.header.length + p.data.length

def bytes (p : Packet) : List U8 := p.phdr.encode ++ (p.header ++ p.data)

theorem length_bytes (p : Packet) : p.bytes.length = p.totallen := by
  rw [bytes, List.length_append, List.length_append, PacketHeader.length_encode, totallen,
    Nat.add_assoc]

theorem header_toNat (p : Packet) : p.phdr.headerLength.toNat = p.header.length := by
  have hlt := p.length_lt
  change (BitVec.ofNat 32 p.header.length).toNat = _
  rw [BitVec.toNat_ofNat, Nat.mod_eq_of_lt (by omega)]

theorem data_toNat (p : Packet) : p.phdr.dataLength.toNat = p.data.length := by
  have hlt := p.length_lt
  change (BitVec.ofNat 32 p.data.length).toNat = _
  rw [BitVec.toNat_ofNat, Nat.mod_eq_of_lt (by omega)]

end Packet

structure State where
  instanceMask : U16
  packetQueues : Inst → Option PacketQueue

def init : State := ⟨0, fun _ => none⟩

/-- The `len` bytes behind a pointer. -/
def bytesAt (p : ℕ → U8) (len : ℕ) : List U8 := (List.range len).map p

/-- One turn of the eviction loop. -/
def discard (queue : PacketQueue) : Option PacketQueue :=
  match queue.read PacketHeader.size with
  | none => none
  | some (bytes, rest) =>
      let tmp := PacketHeader.decode bytes
      some (rest.skip (tmp.headerLength + tmp.dataLength).toNat).2

def evict (totallen : ℕ) : ℕ → PacketQueue → Option PacketQueue
  | 0, _ => none
  | fuel + 1, queue =>
      if queue.canFit totallen then some queue
      else
        match discard queue with
        | none => none
        | some rest => evict totallen fuel rest

/-- Each turn takes sixteen bytes or more, so this many turns are never exceeded. -/
def makeRoomFor (totallen : ℕ) (queue : PacketQueue) : Option PacketQueue :=
  evict totallen (queue.numOccupied + 1) queue

def enqueue (p : Packet) (queue : PacketQueue) : PacketQueue :=
  let queue := (queue.write p.phdr.encode).2
  let queue := if p.header.length ≠ 0 then (queue.write p.header).2 else queue
  if p.data.length ≠ 0 then (queue.write p.data).2 else queue

/-- What a receiver passes in: which of its four pointers are not null. -/
structure Buffers where
  header : Bool
  headerlen : Bool
  data : Bool
  datalen : Bool
deriving DecidableEq

/-- What is stored through them. A part of length zero is not stored at all. -/
structure Stored where
  header : Option (List U8)
  headerlen : Option U32
  data : Option (List U8)
  datalen : Option U32
deriving DecidableEq

inductive Outcome
  | refused
  | badMagic
  | packet (stored : Stored)
deriving DecidableEq

/-- One of the two parts: `Read` into the buffer or `Skip`. -/
def receivePart (wanted : Bool) (len : U32) (queue : PacketQueue) :
    Option (List U8) × PacketQueue :=
  if len = 0 then (none, queue)
  else if wanted then
    match queue.read len.toNat with
    | none => (none, queue)
    | some (bytes, rest) => (some bytes, rest)
  else (none, (queue.skip len.toNat).2)

def storedLength (wanted : Bool) (len : U32) : Option U32 :=
  if len ≠ 0 ∧ wanted then some len else none

def receive (b : Buffers) (queue : PacketQueue) : Outcome × PacketQueue :=
  match queue.read PacketHeader.size with
  | none => (.refused, queue)
  | some (bytes, rest) =>
      let phdr := PacketHeader.decode bytes
      if phdr.magic ≠ kPacketMagic then (.badMagic, rest)
      else
        let header := receivePart b.header phdr.headerLength rest
        let data := receivePart b.data phdr.dataLength header.2
        (.packet ⟨header.1, storedLength b.headerlen phdr.headerLength, data.1,
          storedLength b.datalen phdr.dataLength⟩, data.2)

/-- `inst < 0 || inst >= 16` is refused by every entry point. -/
def instOf (inst : ℤ) : Option Inst :=
  if h : inst < 0 ∨ inst ≥ 16 then none else some ⟨inst.toNat, by omega⟩

/-- The argument checks `sendPacket` makes before it takes the lock. -/
def packetOf (header : Option (ℕ → U8)) (headerlen : ℤ) (data : Option (ℕ → U8)) (datalen : ℤ)
    (sender : ℤ) : Option Packet :=
  let headerlen := if header.isNone then 0 else headerlen
  let datalen := if data.isNone then 0 else datalen
  let headerBytes := bytesAt (header.getD fun _ => 0) headerlen.toNat
  let dataBytes := bytesAt (data.getD fun _ => 0) datalen.toNat
  if headerlen < 0 ∨ datalen < 0 then none
  else if headerlen = 0 ∧ datalen = 0 then none
  else if hlen : PacketHeader.size + headerBytes.length + dataBytes.length ≥ 0x8000 then none
  else if hsender : sender < 0 ∨ sender > 16 then none
  else some ⟨⟨sender.toNat, by omega⟩, headerBytes, dataBytes, Nat.not_le.mp hlen⟩

namespace State

def setQueue (s : State) (i : Inst) (queue : Option PacketQueue) : State :=
  { s with packetQueues := Function.update s.packetQueues i queue }

def registerInstance (s : State) (inst : ℤ) : State :=
  match instOf inst with
  | none => s
  | some i =>
      { s.setQueue i (some RingBuffer.clear) with
        instanceMask := s.instanceMask ||| bit 16 i }

def unregisterInstance (s : State) (inst : ℤ) : State :=
  match instOf inst with
  | none => s
  | some i => { s.setQueue i none with instanceMask := s.instanceMask &&& ~~~bit 16 i }

def clearAt (s : State) (i : Inst) : Option State :=
  if s.instanceMask.getLsbD i then
    match s.packetQueues i with
    | none => none
    | some _ => some (s.setQueue i (some RingBuffer.clear))
  else some s

def clear (s : State) : Option State := (List.finRange 16).foldlM clearAt s

def postAt (p : Packet) (recvMask : U16) (s : State) (i : Inst) : Option State :=
  if recvMask.getLsbD i then
    match s.packetQueues i with
    | none => none
    | some queue =>
        match makeRoomFor p.totallen queue with
        | none => none
        | some room => some (s.setQueue i (some (enqueue p room)))
  else some s

/-- `recv_mask` without the instances that are not registered and the sender;
a sender of 16 is nobody's own number. -/
def targets (s : State) (p : Packet) (recvMask : U16) : U16 :=
  let mask := recvMask &&& s.instanceMask
  if p.sender < 16 then mask &&& ~~~bit 16 p.sender else mask

def sendPacket (s : State) (header : Option (ℕ → U8)) (headerlen : ℤ) (data : Option (ℕ → U8))
    (datalen : ℤ) (sender : ℤ) (recvMask : U16) : Option State :=
  match packetOf header headerlen data datalen sender with
  | none => some s
  | some p =>
      let mask := s.targets p recvMask
      if mask = 0 then some s else (List.finRange 16).foldlM (postAt p mask) s

def recvPacket (s : State) (b : Buffers) (receiver : ℤ) : Outcome × State :=
  if ¬b.header ∧ ¬b.data then (.refused, s)
  else
    match instOf receiver with
    | none => (.refused, s)
    | some i =>
        match s.packetQueues i with
        | none => (.refused, s)
        | some queue => ((receive b queue).1, s.setQueue i (some (receive b queue).2))

end State

inductive Call
  | registerInstance (inst : ℤ)
  | unregisterInstance (inst : ℤ)
  | clear
  | sendPacket (header : Option (ℕ → U8)) (headerlen : ℤ) (data : Option (ℕ → U8)) (datalen : ℤ)
      (sender : ℤ) (recvMask : U16)
  | recvPacket (b : Buffers) (receiver : ℤ)

/-- A call's return value, where it has one, and the state it leaves. -/
def State.step (s : State) : Call → Option (List Outcome × State)
  | .registerInstance inst => some ([], s.registerInstance inst)
  | .unregisterInstance inst => some ([], s.unregisterInstance inst)
  | .clear => s.clear.map fun s => ([], s)
  | .sendPacket header headerlen data datalen sender recvMask =>
      (s.sendPacket header headerlen data datalen sender recvMask).map fun s => ([], s)
  | .recvPacket b receiver => some ([(s.recvPacket b receiver).1], (s.recvPacket b receiver).2)

def State.runFrom (s : State) : List Call → Option (List Outcome × State)
  | [] => some ([], s)
  | c :: cs =>
      match s.step c with
      | none => none
      | some (out, next) => (runFrom next cs).map fun rest => (out ++ rest.1, rest.2)

def run (calls : List Call) : Option (List Outcome × State) := init.runFrom calls

end PacketDispatcher
end MelonDS
