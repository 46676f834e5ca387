import MelonDS.NWifi.SendPacket

/-!
# The access point of the DS wifi

`WifiAP::SendPacket` and `WifiAP::RecvPacket` as far as data frames are concerned. A frame
in the wifi's buffer starts with a hardware header of 12 bytes, followed by the 802.11 header
of 24, the LLC header of 6, the ethertype and the payload, and ends in a checksum of 4.
-/

namespace MelonDS
namespace WifiAP

def apMac : List U8 := [0x00, 0xF0, 0x77, 0x77, 0x77, 0x77]
def apChannel : U8 := 6

/-- `data` reads on behind the frame. -/
def bytesAt (data : ℕ → U8) (offset n : ℕ) : List U8 :=
  (List.range n).map (fun i => data (offset + i))

def read16 (data : ℕ → U8) (offset : ℕ) : U16 := BitVec.ofNat 16 (ofBytes (bytesAt data offset 2))
def read32 (data : ℕ → U8) (offset : ℕ) : U32 := BitVec.ofNat 32 (ofBytes (bytesAt data offset 4))

/-- What `SendPacket` gives to the host. -/
def sendPacket (clientStatus : ℕ) (data : ℕ → U8) (len : ℤ) : Option LanFrame :=
  if data 9 ≠ apChannel then none
  else
    let framectl := read16 data 12
    if (framectl >>> 2) &&& 0x3 = 2 then
      if framectl &&& 0x0300 ≠ 0x0100 then none
      else if read32 data (12 + 24) = 0x0003AAAA ∧ read16 data (12 + 28) = 0x0000 then
        if clientStatus ≠ 2 then none
        else
          let lanLen : ℤ := (len - 30 - 4) + 14
          some
            { lanLen := lanLen
              header := bytesAt data (12 + 16) 6 ++ bytesAt data (12 + 10) 6 ++
                bytesAt data (12 + 30) 2
              body := bytesAt data (12 + 32) (lanLen - 14).toNat }
      else none
    else none

/-- A data frame for the access point, with an LLC header, of an associated client. -/
def Forwarded (clientStatus : ℕ) (data : ℕ → U8) : Prop :=
  data 9 = apChannel ∧ (read16 data 12 >>> 2) &&& 0x3 = 2 ∧
    read16 data 12 &&& 0x0300 = 0x0100 ∧
    (read32 data (12 + 24) = 0x0003AAAA ∧ read16 data (12 + 28) = 0x0000) ∧ clientStatus = 2

/-- The guest's frame, if there is room for its headers and checksum. -/
def guestFrame (data : ℕ → U8) (len : ℤ) : Option (List U8) :=
  if 48 ≤ len then
    some (bytesAt data 28 6 ++ bytesAt data 22 6 ++ bytesAt data 42 2 ++
      bytesAt data 44 (len - 48).toNat)
  else none

/-- Nothing is sent, or the guest's frame. -/
def SendFaithful (clientStatus : ℕ) (data : ℕ → U8) (len : ℤ) : Prop :=
  ∀ sent, sendPacket clientStatus data len = some sent → sent.Faithful (guestFrame data len)

theorem length_bytesAt (data : ℕ → U8) (offset n : ℕ) : (bytesAt data offset n).length = n := by
  rw [bytesAt, List.length_map, List.length_range]

/-- The frame as it is forwarded, 14 bytes longer than the guest's. -/
theorem sendPacket_of_forwarded {clientStatus : ℕ} {data : ℕ → U8} (len : ℤ)
    (h : Forwarded clientStatus data) :
    sendPacket clientStatus data len =
      some ⟨len - 30 - 4 + 14, bytesAt data 28 6 ++ bytesAt data 22 6 ++ bytesAt data 42 2,
        bytesAt data 44 (len - 30 - 4 + 14 - 14).toNat⟩ := by
  obtain ⟨hchannel, htype, hds, hllc, hstatus⟩ := h
  rw [sendPacket, if_neg (not_not.mpr hchannel)]
  dsimp only
  rw [if_pos htype, if_neg (not_not.mpr hds), if_pos hllc, if_neg (not_not.mpr hstatus)]

theorem forwarded_of_sent {clientStatus : ℕ} {data : ℕ → U8} {len : ℤ} {sent : LanFrame}
    (h : sendPacket clientStatus data len = some sent) : Forwarded clientStatus data := by
  rw [sendPacket] at h
  dsimp only at h
  split_ifs at h with hchannel htype hds hllc hstatus
  exact ⟨not_not.mp hchannel, htype, not_not.mp hds, hllc, not_not.mp hstatus⟩

theorem not_faithful_of_forwarded {clientStatus : ℕ} {data : ℕ → U8} (len : ℤ)
    (h : Forwarded clientStatus data) : ¬ SendFaithful clientStatus data len := by
  intro hfaithful
  obtain ⟨-, -, hguest⟩ := hfaithful _ (sendPacket_of_forwarded len h)
  rw [guestFrame] at hguest
  by_cases hlen : 48 ≤ len
  · rw [if_pos hlen] at hguest
    have hlength := congrArg List.length (Option.some.inj hguest)
    simp only [List.length_append, length_bytesAt] at hlength
    omega
  · rw [if_neg hlen] at hguest
    cases hguest

theorem sendFaithful_iff (clientStatus : ℕ) (data : ℕ → U8) (len : ℤ) :
    SendFaithful clientStatus data len ↔ ¬ Forwarded clientStatus data :=
  ⟨fun h hforwarded => not_faithful_of_forwarded len hforwarded h,
    fun h _ hsent => absurd (forwarded_of_sent hsent) h⟩

/-! ## Frames of the host -/

structure AccessPoint where
  clientStatus : ℕ
  seqNo : U16
  clientMac : List U8
  length_clientMac : clientMac.length = 6

def txHeader (len : ℕ) (rate : U8) : List U8 :=
  toBytes 2 0 ++ toBytes 2 0 ++ toBytes 2 0 ++ toBytes 2 0 ++ [rate, apChannel] ++ toBytes 2 len

/-- `PALIGN_4` -/
def align4 (bs : List U8) : List U8 := bs ++ List.replicate ((4 - bs.length % 4) % 4) 0xFF

def frameHeader (seqNo : U16) (frame : HostFrame) : List U8 :=
  toBytes 2 0x0208 ++ toBytes 2 0x0000 ++ frame.dst ++ apMac ++ frame.src ++
    toBytes 2 seqNo.toNat ++ toBytes 4 0x0003AAAA ++ toBytes 2 0x0000 ++ frame.ethertype

def dataFrame (seqNo : U16) (frame : HostFrame) : List U8 :=
  let body := align4 (frameHeader seqNo frame ++ frame.payload) ++ toBytes 4 0xDEADBEEF
  txHeader body.length 20 ++ body

/-- `RecvPacket` when neither a beacon nor a reply is due; `frames` are those the host would
hand over one after the other. -/
def recvPacket (ap : AccessPoint) (frames : List HostFrame) : Option (List U8) × AccessPoint :=
  if ap.clientStatus < 2 then (none, ap)
  else
    match frames.find? (HostFrame.accepted · ap.clientMac) with
    | none => (none, ap)
    | some frame => (some (dataFrame ap.seqNo frame), { ap with seqNo := ap.seqNo + 0x10 })

/-- The fields of the 802.11 frame are those of the host's. -/
def Carries (out : List U8) (frame : HostFrame) : Prop :=
  field out 16 6 = frame.dst ∧ field out 28 6 = frame.src ∧ field out 42 2 = frame.ethertype ∧
    field out 44 frame.payload.length = frame.payload

/-- What is received fits the buffer of the caller and carries the frame accepted. -/
def RecvFaithful (ap : AccessPoint) (frames : List HostFrame) : Prop :=
  ∀ frame out, frames.find? (HostFrame.accepted · ap.clientMac) = some frame →
    (recvPacket ap frames).1 = some out → out.length ≤ 2048 ∧ Carries out frame

theorem length_txHeader (len : ℕ) (rate : U8) : (txHeader len rate).length = 12 := rfl

theorem length_frameHeader (seqNo : U16) (frame : HostFrame) :
    (frameHeader seqNo frame).length = 32 := by
  simp only [frameHeader, List.length_append, length_toBytes, HostFrame.length_dst,
    HostFrame.length_src, HostFrame.length_ethertype]
  rfl

theorem length_dataFrame (seqNo : U16) (frame : HostFrame) :
    (dataFrame seqNo frame).length = (frame.bytes.length + 18 + 3) / 4 * 4 + 16 := by
  have h := frame.length_ge
  rw [dataFrame]
  simp only [List.length_append, length_txHeader, align4, List.length_replicate, length_toBytes,
    length_frameHeader, HostFrame.length_payload]
  omega

/-- The frame's own header comes behind the hardware's. -/
theorem field_dataFrame (seqNo : U16) (frame : HostFrame) {a n : ℕ}
    (h : a + n ≤ 32 + frame.payload.length) :
    field (dataFrame seqNo frame) (12 + a) n =
      field (frameHeader seqNo frame ++ frame.payload) a n := by
  have hlen : a + n ≤ (frameHeader seqNo frame ++ frame.payload).length := by
    rwa [List.length_append, length_frameHeader]
  rw [dataFrame, field_skip (length_txHeader _ _) (Nat.le_add_right 12 a), Nat.add_sub_cancel_left, align4,
    List.append_assoc, field_append_left hlen]

theorem field_dataFrame_header (seqNo : U16) (frame : HostFrame) {a n : ℕ} (h : a + n ≤ 32) :
    field (dataFrame seqNo frame) (12 + a) n = field (frameHeader seqNo frame) a n := by
  rw [field_dataFrame seqNo frame (h.trans (Nat.le_add_right _ _)), field_append_left]
  rwa [length_frameHeader]

theorem field_frameHeader_dst (seqNo : U16) (frame : HostFrame) :
    field (frameHeader seqNo frame) 4 6 = frame.dst := by
  simp only [frameHeader, List.append_assoc]
  rw [field_skip (length_toBytes 2 _) (by decide), field_skip (length_toBytes 2 _) (by decide)]
  exact field_head _ frame.length_dst

theorem field_frameHeader_src (seqNo : U16) (frame : HostFrame) :
    field (frameHeader seqNo frame) 16 6 = frame.src := by
  simp only [frameHeader, List.append_assoc]
  rw [field_skip (length_toBytes 2 _) (by decide), field_skip (length_toBytes 2 _) (by decide),
    field_skip frame.length_dst (by decide), field_skip (k := 6) rfl (by decide)]
  exact field_head _ frame.length_src

theorem field_frameHeader_ethertype (seqNo : U16) (frame : HostFrame) :
    field (frameHeader seqNo frame) 30 2 = frame.ethertype := by
  have hlast := field_head [] frame.length_ethertype
  rw [List.append_nil] at hlast
  simp only [frameHeader, List.append_assoc]
  rw [field_skip (length_toBytes 2 _) (by decide), field_skip (length_toBytes 2 _) (by decide),
    field_skip frame.length_dst (by decide), field_skip (k := 6) rfl (by decide),
    field_skip frame.length_src (by decide), field_skip (length_toBytes 2 _) (by decide),
    field_skip (length_toBytes 4 _) (by decide), field_skip (length_toBytes 2 _) (by decide)]
  exact hlast

theorem carries_dataFrame (seqNo : U16) (frame : HostFrame) :
    Carries (dataFrame seqNo frame) frame := by
  have hpayload := field_head [] (Eq.refl frame.payload.length)
  rw [List.append_nil] at hpayload
  refine ⟨?_, ?_, ?_, ?_⟩
  · rw [← field_frameHeader_dst seqNo frame]
    exact field_dataFrame_header (a := 4) seqNo frame (by decide)
  · rw [← field_frameHeader_src seqNo frame]
    exact field_dataFrame_header (a := 16) seqNo frame (by decide)
  · rw [← field_frameHeader_ethertype seqNo frame]
    exact field_dataFrame_header (a := 30) seqNo frame (by decide)
  · refine (field_dataFrame (a := 32) seqNo frame (Nat.le_refl _)).trans ?_
    rw [field_skip (length_frameHeader seqNo frame) (Nat.le_refl _)]
    exact hpayload

theorem recvPacket_of_accepted {ap : AccessPoint} {frames : List HostFrame} {frame : HostFrame}
    (hstatus : 2 ≤ ap.clientStatus)
    (h : frames.find? (HostFrame.accepted · ap.clientMac) = some frame) :
    (recvPacket ap frames).1 = some (dataFrame ap.seqNo frame) := by
  rw [recvPacket, if_neg (not_lt.mpr hstatus), h]

theorem recvFaithful_iff (ap : AccessPoint) (frames : List HostFrame) :
    RecvFaithful ap frames ↔
      (2 ≤ ap.clientStatus → ∀ frame,
        frames.find? (HostFrame.accepted · ap.clientMac) = some frame →
          frame.bytes.length ≤ 2014) := by
  constructor
  · intro h hstatus frame hfind
    obtain ⟨hfits, -⟩ := h frame _ hfind (recvPacket_of_accepted hstatus hfind)
    rw [length_dataFrame] at hfits
    omega
  · intro h frame out hfind hout
    rcases Nat.lt_or_ge ap.clientStatus 2 with hlow | hstatus
    · rw [recvPacket, if_pos hlow] at hout
      cases hout
    · have hle := h hstatus frame hfind
      rw [recvPacket_of_accepted hstatus hfind] at hout
      obtain rfl := Option.some.inj hout
      refine ⟨?_, carries_dataFrame ap.seqNo frame⟩
      rw [length_dataFrame]
      omega

end WifiAP

theorem frame_conversion (clientStatus : ℕ) (data : ℕ → U8) (len : ℤ) (connected : Bool)
    (mboxLen : U16) (mbox : NWifi.TXMailbox) (ap : WifiAP.AccessPoint) (frames : List HostFrame) :
    (WifiAP.SendFaithful clientStatus data len ↔ ¬ WifiAP.Forwarded clientStatus data) ∧
    (NWifi.SendFaithful connected mboxLen mbox ↔
      (NWifi.Forwarded connected mboxLen mbox →
        8 ≤ NWifi.payloadLength mbox ∧
          16 + NWifi.payloadLength mbox ≤ mbox.contents.length)) ∧
    (WifiAP.RecvFaithful ap frames ↔
      (2 ≤ ap.clientStatus → ∀ frame,
        frames.find? (HostFrame.accepted · ap.clientMac) = some frame →
          frame.bytes.length ≤ 2014)) :=
  ⟨WifiAP.sendFaithful_iff clientStatus data len,
    NWifi.sendFaithful_iff connected mboxLen mbox, WifiAP.recvFaithful_iff ap frames⟩

/-- A data frame with a payload of 4 bytes, to the broadcast address. -/
def fourByteFrame : List U8 :=
  [0, 0, 0, 0, 0, 0, 0, 0, 20, 6, 40, 0,
    0x08, 0x01, 0, 0, 0x00, 0xF0, 0x77, 0x77, 0x77, 0x77, 2, 2, 2, 2, 2, 2,
    0xFF, 0xFF, 0xFF, 0xFF, 0xFF, 0xFF, 0, 0, 0xAA, 0xAA, 0x03, 0, 0, 0, 0x08, 0x00,
    1, 2, 3, 4, 0xEF, 0xBE, 0xAD, 0xDE]

theorem frame_conversion_payload :
    ¬ ((∀ clientStatus data len, WifiAP.SendFaithful clientStatus data len) ∧
      (∀ connected len mbox, NWifi.SendFaithful connected len mbox) ∧
      ∀ ap frames, WifiAP.RecvFaithful ap frames) := by
  rintro ⟨h, -, -⟩
  have hforwarded : WifiAP.Forwarded 2 (fourByteFrame.getD · 0) := by
    refine ⟨rfl, ?_, ?_, ⟨?_, ?_⟩, rfl⟩ <;> decide
  exact WifiAP.not_faithful_of_forwarded 52 hforwarded (h 2 (fourByteFrame.getD · 0) 52)

end MelonDS
