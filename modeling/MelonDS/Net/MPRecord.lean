import MelonDS.Library.LittleEndian

/-!
# Records of the multiplayer queues

A frame travels as a record: the header of `MPInterface.h`, laid out as the
struct is in memory, and the frame behind it.
-/

namespace MelonDS.LocalMP

abbrev Inst := Fin 16

def kMaxFrameSize : ℕ := 0x948

def magic : U32 := 0x4946494E

structure MPPacketHeader where
  magic : U32
  senderID : U32
  type : U32
  length : U32
  timestamp : U64
deriving DecidableEq

namespace MPPacketHeader

/-- `sizeof(MPPacketHeader)` -/
def size : ℕ := 24

def zero : MPPacketHeader := ⟨0, 0, 0, 0, 0⟩

def encode (h : MPPacketHeader) : List U8 :=
  toBytes 4 h.magic.toNat ++ (toBytes 4 h.senderID.toNat ++ (toBytes 4 h.type.toNat ++
    (toBytes 4 h.length.toNat ++ toBytes 8 h.timestamp.toNat)))

def decode (bytes : List U8) : MPPacketHeader where
  magic := BitVec.ofNat 32 (ofBytes (bytes.take 4))
  senderID := BitVec.ofNat 32 (ofBytes ((bytes.drop 4).take 4))
  type := BitVec.ofNat 32 (ofBytes (((bytes.drop 4).drop 4).take 4))
  length := BitVec.ofNat 32 (ofBytes ((((bytes.drop 4).drop 4).drop 4).take 4))
  timestamp := BitVec.ofNat 64 (ofBytes ((((bytes.drop 4).drop 4).drop 4).drop 4))

@[simp] theorem length_encode (h : MPPacketHeader) : h.encode.length = size := by
  simp only [encode, List.length_append, length_toBytes]
  rfl

theorem decode_encode (h : MPPacketHeader) : decode h.encode = h := by
  simp only [decode, encode, take_toBytes_append, drop_toBytes_append,
    ofNat_ofBytes_toBytes (show 32 = 8 * 4 from rfl), ofNat_ofBytes_toBytes (show 64 = 8 * 8 from rfl)]

end MPPacketHeader

/-- `data[i]`, zero past the end. -/
def byteAt (data : List U8) (i : ℕ) : U8 := data.getD i 0

/-- The two queues an instance reads. -/
inductive Fifo
  | packets
  | replies
deriving DecidableEq

structure Record where
  sender : Inst
  type : U32
  payload : List U8
  timestamp : U64
  length_le : payload.length ≤ kMaxFrameSize
deriving DecidableEq

namespace Record

def header (r : Record) : MPPacketHeader where
  magic := LocalMP.magic
  senderID := BitVec.ofNat 32 r.sender
  type := r.type
  length := BitVec.ofNat 32 r.payload.length
  timestamp := r.timestamp

def bytes (r : Record) : List U8 := r.header.encode ++ r.payload

/-- What a sender may put in each queue. -/
def For (r : Record) : Fifo → Prop
  | .packets => r.type ≤ 3 ∧ r.type ≠ 2
  | .replies => r.type &&& 0xFFFF = 2 ∧ r.type >>> 16 ≤ 15 ∧ (r.type >>> 16 = 0 → r.payload = [])

theorem length_bytes (r : Record) : r.bytes.length = MPPacketHeader.size + r.payload.length := by
  rw [bytes, List.length_append, MPPacketHeader.length_encode]

@[simp] theorem header_length_toNat (r : Record) : r.header.length.toNat = r.payload.length := by
  have hle := r.length_le
  rw [kMaxFrameSize] at hle
  change (BitVec.ofNat 32 r.payload.length).toNat = _
  rw [BitVec.toNat_ofNat, Nat.mod_eq_of_lt (by omega)]

@[simp] theorem header_senderID_toNat (r : Record) : r.header.senderID.toNat = r.sender.val := by
  have hlt := r.sender.isLt
  change (BitVec.ofNat 32 r.sender.val).toNat = _
  rw [BitVec.toNat_ofNat, Nat.mod_eq_of_lt (by omega)]

theorem header_senderID_eq_iff (r : Record) (me : Inst) :
    r.header.senderID = BitVec.ofNat 32 me ↔ r.sender = me := by
  have hlt := me.isLt
  rw [← BitVec.toNat_inj, header_senderID_toNat, BitVec.toNat_ofNat, Nat.mod_eq_of_lt (by omega),
    Fin.ext_iff]

end Record

/-- A type with nothing above its low half is one of the kinds. -/
theorem le_three_of_kind {type : U32} (hkind : type &&& 0xFFFF ≤ 3) (haid : type >>> 16 = 0) :
    type ≤ 3 ∧ type &&& 0xFFFF = type := by
  have hhigh : type.toNat / 65536 = 0 := by
    have h := congrArg BitVec.toNat haid
    simpa [BitVec.toNat_ushiftRight, Nat.shiftRight_eq_div_pow] using h
  have hsame : type &&& 0xFFFF = type := by
    have hmask : type.toNat &&& 65535 = type.toNat % 65536 := Nat.and_two_pow_sub_one_eq_mod _ 16
    apply BitVec.eq_of_toNat_eq
    rw [BitVec.toNat_and]
    change type.toNat &&& 65535 = type.toNat
    omega
  exact ⟨hsame ▸ hkind, hsame⟩

end MelonDS.LocalMP
