import MelonDS.NWifi.Mailbox

/-!
# Frames sent by the DSi wifi

`DSi_NWifi::WMI_SendPacket`: the guest's frame is read from mailbox 0, whose empty reads
return whatever lies at the read position, and an Ethernet frame is made of it.
-/

namespace MelonDS

/-- A frame given to `Net_SendPacket`: the length as computed, the header, the bytes copied after
it. The length may be negative, and a copy has as many bytes as it asks for. -/
structure LanFrame where
  lanLen : ℤ
  header : List U8
  body : List U8

/-- Within the bounds of an Ethernet frame and of `LANBuffer`, and the frame expected. -/
def LanFrame.Faithful (sent : LanFrame) (expected : Option (List U8)) : Prop :=
  14 ≤ sent.lanLen ∧ sent.lanLen ≤ 2048 ∧ expected = some (sent.header ++ sent.body)

namespace NWifi

abbrev TXMailbox := DynamicFIFO U8 0x600

def mbReadBytes : ℕ → TXMailbox → List U8 × TXMailbox
  | 0, f => ([], f)
  | n + 1, f =>
    let (b, f) := DynamicFIFO.read f
    let (bs, f) := mbReadBytes n f
    (b :: bs, f)

def mbRead16 (f : TXMailbox) : U16 × TXMailbox :=
  let (bs, f) := mbReadBytes 2 f
  (BitVec.ofNat 16 (ofBytes bs), f)

def mbRead32 (f : TXMailbox) : U32 × TXMailbox :=
  let (bs, f) := mbReadBytes 4 f
  (BitVec.ofNat 32 (ofBytes bs), f)

def swap16 (v : U16) : U16 := ((v &&& 0xFF00) >>> 8) ||| ((v &&& 0x00FF) <<< 8)

/-- From the LLC header on; `plen` is its length and the payload's. -/
def sendPayload (dstmac srcmac : List U8) (plen : ℕ) (mbox : TXMailbox) :
    Option LanFrame × TXMailbox :=
  let (h0, mbox) := mbRead32 mbox
  let (h1, mbox) := mbRead16 mbox
  if h0 ≠ 0x0003AAAA ∨ h1 ≠ 0x0000 then (none, mbox)
  else
    let (ethertype, mbox) := mbReadBytes 2 mbox
    let lanLen : ℤ := (plen - 8) + 14
    let (body, mbox) := mbReadBytes (lanLen - 14).toNat mbox
    (some ⟨lanLen, dstmac ++ srcmac ++ ethertype, body⟩, mbox)

/-- From the addresses on. -/
def sendDataFrame (len : U16) (mbox : TXMailbox) : Option LanFrame × TXMailbox :=
  let (dstmac, mbox) := mbReadBytes 6 mbox
  let (srcmac, mbox) := mbReadBytes 6 mbox
  let (plen, mbox) := mbRead16 mbox
  let plen := (swap16 plen).toNat
  if (plen : ℤ) > len.toNat - 16 then (none, mbox)
  else sendPayload dstmac srcmac plen mbox

/-- `len` is the length of the HTC record; its header has been read. -/
def wmiSendPacket (connected : Bool) (len : U16) (mbox : TXMailbox) : Option LanFrame × TXMailbox :=
  if !connected then (none, mbox)
  else
    let (hdr, mbox) := mbRead16 mbox
    let type := swap16 hdr &&& 0x0003
    if type = 2 then (none, mbox)
    else if type ≠ 0 then (none, (mbReadBytes (len.toNat - 2) mbox).2)
    else sendDataFrame len mbox

/-! The header of 24 bytes that is read before the payload -/

def headerBytes (mbox : TXMailbox) : List U8 := (mbReadBytes 24 mbox).1

def field16 (bs : List U8) (offset : ℕ) : U16 := BitVec.ofNat 16 (ofBytes (field bs offset 2))

/-- The length in the frame's own header, of the LLC header and the payload. -/
def payloadLength (mbox : TXMailbox) : ℕ := (swap16 (field16 (headerBytes mbox) 14)).toNat

/-- The frame passes every check. -/
def Forwarded (connected : Bool) (len : U16) (mbox : TXMailbox) : Prop :=
  connected = true ∧ swap16 (field16 (headerBytes mbox) 0) &&& 0x0003 = 0 ∧
    (payloadLength mbox : ℤ) ≤ len.toNat - 16 ∧
    BitVec.ofNat 32 (ofBytes (field (headerBytes mbox) 16 4)) = (0x0003AAAA : U32) ∧
    field16 (headerBytes mbox) 20 = 0

/-- The guest's frame, if the mailbox holds all of it: addresses, ethertype, payload. -/
def guestFrame (mbox : TXMailbox) : Option (List U8) :=
  let m := mbox.contents
  if 8 ≤ payloadLength mbox ∧ 16 + payloadLength mbox ≤ m.length then
    some (field m 2 12 ++ field m 22 2 ++ field m 24 (payloadLength mbox - 8))
  else none

/-- Nothing is sent, or the guest's frame. -/
def SendFaithful (connected : Bool) (len : U16) (mbox : TXMailbox) : Prop :=
  ∀ sent, (wmiSendPacket connected len mbox).1 = some sent → sent.Faithful (guestFrame mbox)

theorem length_mbReadBytes (n : ℕ) (f : TXMailbox) : (mbReadBytes n f).1.length = n := by
  induction n generalizing f with
  | zero => rfl
  | succ n ih => exact congrArg Nat.succ (ih _)

theorem mbReadBytes_add (a b : ℕ) (f : TXMailbox) :
    mbReadBytes (a + b) f =
      ((mbReadBytes a f).1 ++ (mbReadBytes b (mbReadBytes a f).2).1,
        (mbReadBytes b (mbReadBytes a f).2).2) := by
  induction a generalizing f with
  | zero => rw [Nat.zero_add]; rfl
  | succ a ih =>
    rw [Nat.succ_add, mbReadBytes]
    dsimp only
    rw [ih]
    rfl

/-- As long as the mailbox lasts, its contents are read. -/
theorem mbReadBytes_of_le {n : ℕ} {f : TXMailbox} (h : n ≤ f.contents.length) :
    (mbReadBytes n f).1 = f.contents.take n := by
  induction n generalizing f with
  | zero => rfl
  | succ n ih =>
    cases hc : f.contents with
    | nil =>
      rw [hc] at h
      exact absurd h (Nat.not_succ_le_zero n)
    | cons b rest =>
      obtain ⟨hval, hrest⟩ := DynamicFIFO.read_of_cons hc
      rw [hc] at h
      have htail := ih (f := (DynamicFIFO.read f).2) (by rw [hrest]; exact Nat.le_of_succ_le_succ h)
      rw [mbReadBytes]
      dsimp only
      rw [hval, htail, hrest, List.take_succ_cons]

/-- A field of what was read is what a read at its place returns. -/
theorem field_mbReadBytes (a b c : ℕ) (f : TXMailbox) :
    field (mbReadBytes (a + b + c) f).1 a b = (mbReadBytes b (mbReadBytes a f).2).1 := by
  rw [mbReadBytes_add, mbReadBytes_add]
  dsimp only
  rw [field, List.append_assoc, List.drop_left' (length_mbReadBytes a f),
    List.take_left' (length_mbReadBytes b _)]

/-- A read after `a` bytes returns a field of the header. -/
theorem mbReadBytes_step {a b : ℕ} (h : a + b ≤ 24) (f : TXMailbox) :
    mbReadBytes b (mbReadBytes a f).2 = (field (headerBytes f) a b, (mbReadBytes (a + b) f).2) := by
  have hsplit : 24 = a + b + (24 - (a + b)) := (Nat.add_sub_of_le h).symm
  have hfield : field (headerBytes f) a b = (mbReadBytes b (mbReadBytes a f).2).1 := by
    rw [headerBytes, hsplit, field_mbReadBytes]
  rw [hfield, mbReadBytes_add]

/-- The reads of the header, one after the other. -/
theorem header_reads (f : TXMailbox) : ∃ f2 f8 f14 f16 f20 f22,
    mbReadBytes 2 f = (field (headerBytes f) 0 2, f2) ∧
    mbReadBytes 6 f2 = (field (headerBytes f) 2 6, f8) ∧
    mbReadBytes 6 f8 = (field (headerBytes f) 8 6, f14) ∧
    mbReadBytes 2 f14 = (field (headerBytes f) 14 2, f16) ∧
    mbReadBytes 4 f16 = (field (headerBytes f) 16 4, f20) ∧
    mbReadBytes 2 f20 = (field (headerBytes f) 20 2, f22) ∧
    mbReadBytes 2 f22 = (field (headerBytes f) 22 2, (mbReadBytes 24 f).2) :=
  ⟨_, _, _, _, _, _, mbReadBytes_step (a := 0) (by decide) f, mbReadBytes_step (by decide) f,
    mbReadBytes_step (by decide) f, mbReadBytes_step (by decide) f,
    mbReadBytes_step (by decide) f, mbReadBytes_step (by decide) f,
    mbReadBytes_step (by decide) f⟩

def forwardedFrame (mbox : TXMailbox) : LanFrame where
  lanLen := (payloadLength mbox - 8) + 14
  header := field (headerBytes mbox) 2 6 ++ field (headerBytes mbox) 8 6 ++
    field (headerBytes mbox) 22 2
  body := (mbReadBytes (payloadLength mbox - 8) (mbReadBytes 24 mbox).2).1

section

variable {f f2 f8 f14 f16 f20 f22 f24 : TXMailbox} {dst src type : List U8} {hdr n h1 : U16}
variable {h0 : U32} {plen : ℕ}

theorem sendPayload_eq (e16 : mbRead32 f16 = (h0, f20)) (e20 : mbRead16 f20 = (h1, f22))
    (e22 : mbReadBytes 2 f22 = (type, f24)) :
    (sendPayload dst src plen f16).1 =
      if h0 = 0x0003AAAA ∧ h1 = 0 then
        some ⟨(plen - 8) + 14, dst ++ src ++ type, (mbReadBytes (plen - 8) f24).1⟩
      else none := by
  have hlen : ((plen : ℤ) - 8 + 14 - 14).toNat = plen - 8 := by omega
  rw [sendPayload, e16]
  dsimp only
  rw [e20]
  dsimp only
  rw [e22]
  dsimp only
  rw [hlen]
  by_cases hllc : h0 = 0x0003AAAA ∧ h1 = 0
  · rw [if_pos hllc, if_neg (not_or.mpr ⟨not_not.mpr hllc.1, not_not.mpr hllc.2⟩)]
  · rw [if_neg hllc, if_pos (not_and_or.mp hllc)]

theorem sendDataFrame_eq (len : U16) (e2 : mbReadBytes 6 f2 = (dst, f8))
    (e8 : mbReadBytes 6 f8 = (src, f14)) (e14 : mbRead16 f14 = (n, f16)) :
    (sendDataFrame len f2).1 =
      if ((swap16 n).toNat : ℤ) ≤ len.toNat - 16 then
        (sendPayload dst src (swap16 n).toNat f16).1
      else none := by
  rw [sendDataFrame, e2]
  dsimp only
  rw [e8]
  dsimp only
  rw [e14]
  dsimp only
  by_cases hle : ((swap16 n).toNat : ℤ) ≤ len.toNat - 16
  · rw [if_pos hle, if_neg (not_lt.mpr hle)]
  · rw [if_neg hle, if_pos (not_le.mp hle)]

theorem wmiSendPacket_eq (connected : Bool) (len : U16) (e0 : mbRead16 f = (hdr, f2)) :
    (wmiSendPacket connected len f).1 =
      if connected = true ∧ swap16 hdr &&& 0x0003 = 0 then (sendDataFrame len f2).1 else none := by
  cases connected with
  | false => rfl
  | true =>
    rw [wmiSendPacket, e0]
    dsimp only
    by_cases htype2 : swap16 hdr &&& 0x0003 = 2
    · have htype : ¬ (true = true ∧ swap16 hdr &&& 0x0003 = 0) := by
        rw [htype2]
        decide
      rw [if_neg htype, htype2]
      rfl
    · by_cases htype : swap16 hdr &&& 0x0003 = 0
      · rw [if_pos (And.intro (Eq.refl true) htype), if_neg (by decide), if_neg htype2,
          if_neg (not_not.mpr htype)]
      · rw [if_neg (fun h : true = true ∧ _ => htype h.2), if_neg (by decide), if_neg htype2,
          if_pos htype]

end

/-- What is sent, by the checks on the header. -/
theorem wmiSendPacket_fst (connected : Bool) (len : U16) (mbox : TXMailbox) :
    (wmiSendPacket connected len mbox).1 =
      if connected = true ∧ swap16 (field16 (headerBytes mbox) 0) &&& 0x0003 = 0 then
        if (payloadLength mbox : ℤ) ≤ len.toNat - 16 then
          if BitVec.ofNat 32 (ofBytes (field (headerBytes mbox) 16 4)) = 0x0003AAAA ∧
              field16 (headerBytes mbox) 20 = 0 then
            some (forwardedFrame mbox)
          else none
        else none
      else none := by
  obtain ⟨f2, f8, f14, f16, f20, f22, e0, e2, e8, e14, e16, e20, e22⟩ := header_reads mbox
  have r0 : mbRead16 mbox = (field16 (headerBytes mbox) 0, f2) := by rw [mbRead16, e0, field16]
  have r14 : mbRead16 f14 = (field16 (headerBytes mbox) 14, f16) := by rw [mbRead16, e14, field16]
  have r16 : mbRead32 f16 = (BitVec.ofNat 32 (ofBytes (field (headerBytes mbox) 16 4)), f20) := by
    rw [mbRead32, e16]
  have r20 : mbRead16 f20 = (field16 (headerBytes mbox) 20, f22) := by rw [mbRead16, e20, field16]
  rw [wmiSendPacket_eq connected len r0, sendDataFrame_eq len e2 e8 r14,
    sendPayload_eq r16 r20 e22]
  rfl

theorem wmiSendPacket_of_forwarded {connected : Bool} {len : U16} {mbox : TXMailbox}
    (h : Forwarded connected len mbox) :
    (wmiSendPacket connected len mbox).1 = some (forwardedFrame mbox) := by
  obtain ⟨hconn, htype, hplen, hllc⟩ := h
  rw [wmiSendPacket_fst, if_pos ⟨hconn, htype⟩, if_pos hplen, if_pos hllc]

theorem forwarded_of_sent {connected : Bool} {len : U16} {mbox : TXMailbox} {sent : LanFrame}
    (h : (wmiSendPacket connected len mbox).1 = some sent) : Forwarded connected len mbox := by
  rw [wmiSendPacket_fst] at h
  by_cases htype : connected = true ∧ swap16 (field16 (headerBytes mbox) 0) &&& 0x0003 = 0
  · rw [if_pos htype] at h
    by_cases hplen : (payloadLength mbox : ℤ) ≤ len.toNat - 16
    · rw [if_pos hplen] at h
      by_cases hllc : BitVec.ofNat 32 (ofBytes (field (headerBytes mbox) 16 4)) = 0x0003AAAA ∧
          field16 (headerBytes mbox) 20 = 0
      · exact ⟨htype.1, htype.2, hplen, hllc⟩
      · rw [if_neg hllc] at h
        cases h
    · rw [if_neg hplen] at h
      cases h
  · rw [if_neg htype] at h
    cases h

/-- While the mailbox lasts, a read returns the field of its contents at that place. -/
theorem mbReadBytes_contents {a b : ℕ} {f : TXMailbox} (h : a + b ≤ f.contents.length) :
    (mbReadBytes b (mbReadBytes a f).2).1 = field f.contents a b := by
  rw [← field_mbReadBytes a b 0, Nat.add_zero, mbReadBytes_of_le h, field_take (Nat.le_refl _)]

/-- When the mailbox holds the frame, what is read is the frame. -/
theorem guestFrame_eq {mbox : TXMailbox} (h8 : 8 ≤ payloadLength mbox)
    (hlen : 16 + payloadLength mbox ≤ mbox.contents.length) :
    guestFrame mbox = some ((forwardedFrame mbox).header ++ (forwardedFrame mbox).body) := by
  have hhead : headerBytes mbox = mbox.contents.take 24 :=
    mbReadBytes_of_le (by omega)
  have hbody := mbReadBytes_contents (a := 24) (b := payloadLength mbox - 8) (f := mbox) (by omega)
  have hfields {a b : ℕ} (h : a + b ≤ 24) : field (headerBytes mbox) a b = field mbox.contents a b := by
    rw [hhead, field_take h]
  have hmac := field_append mbox.contents 2 6 6
  rw [guestFrame, if_pos ⟨h8, hlen⟩, ← hmac, forwardedFrame, hbody, hfields (by decide),
    hfields (by decide), hfields (by decide)]

theorem sendFaithful_iff (connected : Bool) (len : U16) (mbox : TXMailbox) :
    SendFaithful connected len mbox ↔
      (Forwarded connected len mbox →
        8 ≤ payloadLength mbox ∧ 16 + payloadLength mbox ≤ mbox.contents.length) := by
  constructor
  · intro h hf
    obtain ⟨-, -, hguest⟩ := h _ (wmiSendPacket_of_forwarded hf)
    by_contra hbad
    rw [guestFrame, if_neg hbad] at hguest
    cases hguest
  · intro h sent hsent
    have hf := forwarded_of_sent hsent
    obtain ⟨h8, hlen⟩ := h hf
    rw [wmiSendPacket_of_forwarded hf] at hsent
    obtain rfl := Option.some.inj hsent
    have hcap := mbox.contents_length_le
    refine ⟨?_, ?_, guestFrame_eq h8 hlen⟩
    · change (14 : ℤ) ≤ payloadLength mbox - 8 + 14
      omega
    · change (payloadLength mbox : ℤ) - 8 + 14 ≤ 2048
      omega

end NWifi
end MelonDS
