import MelonDS.Library.ByteRing
import MelonDS.Net.MPRecord

/-!
# One reader of a queue

Everything `LocalMP` keeps for one instance and one queue: the read cursor, the
semaphore, and the permits taken from it whose receiver has not entered the lock
yet. The last two fields are the history of the reader, which no operation looks
at: the records posted to it and what became of each, in order.
-/

namespace MelonDS

abbrev kPacketQueueSize : ℕ := 0x10000
abbrev kReplyQueueSize : ℕ := 0x10000

instance neZero_queueSize : NeZero 0x10000 := ⟨Nat.succ_ne_zero 0xFFFF⟩

namespace LocalMP

/-- The two queues have the same size. -/
abbrev Queue := Ring U8 kPacketQueueSize

/-- What becomes of a record: returned to a caller with room for `capacity`
bytes, passed over, or dropped with the backlog it stood in. -/
inductive Fate
  | delivered (type : U32) (bytes : List U8) (capacity : ℕ) (timestamp : U64)
  | own
  | stale (now : U64)
  | dropped
deriving DecidableEq

structure Reader where
  readOffset : ℕ
  semPool : ℕ
  permits : ℕ
  sentTo : List Record
  fates : List Fate

inductive Verdict
  | invalid
  | skip (fate : Fate)
  | deliver
deriving DecidableEq

namespace Reader

def resetFIFO (q : Queue) (x : Reader) : Reader :=
  { x with
    readOffset := q.writeOffset
    semPool := 0
    fates := x.fates ++ List.replicate (x.sentTo.length - x.fates.length) .dropped }

def makeRoom (q : Queue) (len : ℕ) (x : Reader) : Reader :=
  if len ≥ kPacketQueueSize - q.used x.readOffset then x.resetFIFO q else x

def moveTo (x : Reader) (offset : ℕ) : Reader := { x with readOffset := offset }

def fifoRead (q : Queue) (len : ℕ) (x : Reader) : List U8 × Reader :=
  (q.read x.readOffset len, x.moveTo (Ring.advance kPacketQueueSize x.readOffset len))

/-- `Semaphore_Post`, after a record is complete. -/
def post (r : Record) (x : Reader) : Reader :=
  { x with semPool := x.semPool + 1, sentTo := x.sentTo ++ [r] }

/-- A successful `Semaphore_TryWait`. -/
def take (x : Reader) : Reader := { x with semPool := x.semPool - 1, permits := x.permits + 1 }

/-- The receiver behind a permit enters the lock. -/
def enter (x : Reader) : Reader := { x with permits := x.permits - 1 }

def settle (fate : Fate) (x : Reader) : Reader := { x with fates := x.fates ++ [fate] }

/-- The header at the cursor, left all zero when no whole one is there. -/
def readHeader (q : Queue) (x : Reader) : MPPacketHeader × Reader :=
  if q.used x.readOffset ≥ MPPacketHeader.size then
    (.decode (x.fifoRead q MPPacketHeader.size).1, (x.fifoRead q MPPacketHeader.size).2)
  else (.zero, x)

def deliver (q : Queue) (h : MPPacketHeader) (capacity : ℕ) (x : Reader) : Reader :=
  let len := min h.length.toNat capacity
  let got := x.fifoRead q len
  (got.2.fifoRead q (h.length.toNat - len)).2.settle
    (.delivered h.type got.1 capacity h.timestamp)

/-- The part of the two receive functions behind the empty check: one record is
read and, unless it is malformed, used up. -/
def receive (q : Queue) (verdict : ℕ → MPPacketHeader → Verdict) (capacity : ℕ) (x : Reader) :
    Verdict × MPPacketHeader × Reader :=
  let available := q.used x.readOffset
  let read := x.readHeader q
  let v := verdict available read.1
  (v, read.1,
    match v with
    | .invalid => read.2.resetFIFO q
    | .skip fate => ((read.2.fifoRead q read.1.length.toNat).2).settle fate
    | .deliver => read.2.deliver q read.1 capacity)

end Reader

/-- The checks of `RecvPacketGeneric` on a record. -/
def packetVerdict (inst : Inst) (available : ℕ) (h : MPPacketHeader) : Verdict :=
  if h.magic ≠ magic ∨ h.length.toNat > kMaxFrameSize ∨ h.senderID ≥ 16 ∨ h.type > 3 ∨ h.type = 2 ∨
      available < MPPacketHeader.size + h.length.toNat then .invalid
  else if h.senderID = BitVec.ofNat 32 inst then .skip .own
  else .deliver

/-- A reply too far behind the frame it should answer. -/
def Stale (now sent : U64) : Prop := sent < now ∧ now - sent > 32

instance (now sent : U64) : Decidable (Stale now sent) := inferInstanceAs (Decidable (_ ∧ _))

/-- The checks of `RecvReplies` on a record. -/
def replyVerdict (inst : Inst) (timestamp : U64) (available : ℕ) (h : MPPacketHeader) : Verdict :=
  if h.magic ≠ magic ∨ h.length.toNat > kMaxFrameSize ∨ h.senderID ≥ 16 ∨ h.type &&& 0xFFFF ≠ 2 ∨
      h.type >>> 16 > 15 ∨ (h.type >>> 16 = 0 ∧ h.length ≠ 0) ∨
      available < MPPacketHeader.size + h.length.toNat then .invalid
  else if h.senderID = BitVec.ofNat 32 inst then .skip .own
  else if Stale timestamp h.timestamp then .skip (.stale timestamp)
  else .deliver

/-- What a fate says about the record it is the fate of. -/
def Fate.Settles (me : Inst) : Fate → Record → Prop
  | .delivered type bytes capacity timestamp, r =>
      r.sender ≠ me ∧ type = r.type ∧ bytes = r.payload.take capacity ∧ timestamp = r.timestamp
  | .own, r => r.sender = me
  | .stale now, r => Stale now r.timestamp
  | .dropped, _ => True

/-- The invariant of a reader: the records posted to it are those settled and,
behind them, those still in the ring from the cursor on, each with a permit. -/
structure Reader.Follows (x : Reader) (fifo : Fifo) (me : Inst) (q : Queue) (reads : Bool) : Prop where
  readOffset_lt : x.readOffset < kPacketQueueSize
  kinds : ∀ r ∈ x.sentTo, r.For fifo
  split : ∃ settled pending, x.sentTo = settled ++ pending ∧
    List.Forall₂ (Fate.Settles me) x.fates settled ∧
    (reads = true → q.unread x.readOffset = pending.flatMap Record.bytes) ∧
    (reads = false → pending = []) ∧ pending.length ≤ x.semPool + x.permits

/-- One step settles nothing, the oldest pending record, or the whole backlog. -/
inductive Reader.Progress (x y : Reader) : Prop
  | none (h : y.fates = x.fates)
  | one (fate : Fate) (hd : fate ≠ .dropped) (h : y.fates = x.fates ++ [fate])
  | backlog (h : y.fates = x.fates ++ List.replicate (x.sentTo.length - x.fates.length) .dropped)

namespace Reader

variable {fifo : Fifo} {me : Inst} {q : Queue} {reads : Bool} {x : Reader}

theorem unread_fifoRead (len : ℕ) (hx : x.readOffset < kPacketQueueSize)
    (hl : len ≤ q.used x.readOffset) :
    (x.fifoRead q len).1 = (q.unread x.readOffset).take len ∧
      (x.fifoRead q len).2.readOffset < kPacketQueueSize ∧
      q.unread (x.fifoRead q len).2.readOffset = (q.unread x.readOffset).drop len := by
  have hu := (hl.trans (q.used_lt x.readOffset).le)
  obtain ⟨hread, hadv⟩ := q.unread_advance hx hl
  exact ⟨hread, Ring.advance_lt hx hu, hadv⟩

/-- With the records `r :: rest` unread, the header read is that of `r`. -/
theorem readHeader_eq {r : Record} {rest : List U8} (hx : x.readOffset < kPacketQueueSize)
    (hu : q.unread x.readOffset = r.bytes ++ rest) :
    (x.readHeader q).1 = r.header ∧ ∃ offset, (x.readHeader q).2 = x.moveTo offset ∧
      offset < kPacketQueueSize ∧ q.unread offset = r.payload ++ rest := by
  have hused : q.used x.readOffset = MPPacketHeader.size + (r.payload.length + rest.length) := by
    rw [← q.length_unread, hu, List.length_append, r.length_bytes, Nat.add_assoc]
  have hle : MPPacketHeader.size ≤ q.used x.readOffset := hused ▸ Nat.le_add_right _ _
  obtain ⟨hbytes, hlt, hrest⟩ := unread_fifoRead _ hx hle
  rw [hu, Record.bytes, List.append_assoc, List.take_left' r.header.length_encode] at hbytes
  rw [hu, Record.bytes, List.append_assoc, List.drop_left' r.header.length_encode] at hrest
  rw [readHeader, if_pos hle, hbytes, MPPacketHeader.decode_encode]
  exact ⟨rfl, _, rfl, hlt, hrest⟩

/-- Reading a payload and what follows it apart. -/
theorem fifoRead_payload {payload rest : List U8} (hx : x.readOffset < kPacketQueueSize)
    (hu : q.unread x.readOffset = payload ++ rest) :
    ∃ offset, (x.fifoRead q payload.length).2 = x.moveTo offset ∧ offset < kPacketQueueSize ∧
      q.unread offset = rest := by
  have hle : payload.length ≤ q.used x.readOffset := by
    rw [← q.length_unread, hu, List.length_append]
    omega
  obtain ⟨-, hlt, hrest⟩ := unread_fifoRead _ hx hle
  rw [hu, List.drop_left] at hrest
  exact ⟨_, rfl, hlt, hrest⟩

/-- A delivery copies what the caller has room for and reads past the rest. -/
theorem deliver_eq {r : Record} {rest : List U8} (hx : x.readOffset < kPacketQueueSize)
    (hu : q.unread x.readOffset = r.payload ++ rest) (capacity : ℕ) :
    ∃ offset, x.deliver q r.header capacity =
        (x.moveTo offset).settle (.delivered r.type (r.payload.take capacity) capacity r.timestamp) ∧
      offset < kPacketQueueSize ∧ q.unread offset = rest := by
  have hle : min r.payload.length capacity ≤ q.used x.readOffset := by
    rw [← q.length_unread, hu, List.length_append]
    omega
  have hsplit : r.payload = r.payload.take capacity ++ r.payload.drop capacity :=
    (List.take_append_drop _ _).symm
  have hmin : min r.payload.length capacity = (r.payload.take capacity).length := by
    rw [List.length_take, Nat.min_comm]
  have hleft : r.payload.length - (r.payload.take capacity).length =
      (r.payload.drop capacity).length := by
    rw [List.length_drop, List.length_take]
    omega
  rw [hsplit, List.append_assoc] at hu
  obtain ⟨hgot, hlt, hrest⟩ := unread_fifoRead _ hx hle
  rw [hu, hmin, List.take_left] at hgot
  rw [hu, hmin, List.drop_left] at hrest
  obtain ⟨offset, hmove, hoffset, hlast⟩ := fifoRead_payload (hmin ▸ hlt) hrest
  refine ⟨offset, ?_, hoffset, hlast⟩
  simp only [deliver, r.header_length_toNat, hmin, hleft, hmove, hgot]
  rfl

theorem resetFIFO_progress (q : Queue) (x : Reader) : x.Progress (x.resetFIFO q) := .backlog rfl

theorem makeRoom_progress (q : Queue) (len : ℕ) (x : Reader) : x.Progress (x.makeRoom q len) := by
  unfold makeRoom
  split_ifs
  · exact resetFIFO_progress q x
  · exact .none rfl

@[simp] theorem makeRoom_sentTo (len : ℕ) : (x.makeRoom q len).sentTo = x.sentTo := by
  unfold makeRoom
  split_ifs <;> rfl

theorem forall₂_dropped (rs : List Record) :
    List.Forall₂ (Fate.Settles me) (List.replicate rs.length .dropped) rs := by
  induction rs with
  | nil => exact .nil
  | cons r rs ih => exact .cons trivial ih

/-- Whatever the ring holds, a reset reader has nothing pending. -/
theorem Follows.resetFIFO (hf : x.Follows fifo me q reads) {y : Reader} (hs : y.sentTo = x.sentTo)
    (hy : y.fates = x.fates) (q' : Queue) (reads' : Bool) :
    (y.resetFIFO q').Follows fifo me q' reads' := by
  obtain ⟨settled, pending, hsent, hfates, -, -, -⟩ := hf.split
  have hlen : y.sentTo.length - y.fates.length = pending.length := by
    rw [hs, hy, hsent, List.length_append, hfates.length_eq, Nat.add_sub_cancel_left]
  refine ⟨q'.writeOffset_lt, ?_, y.sentTo, [], (List.append_nil _).symm, ?_, fun _ => q'.unread_self,
    fun _ => rfl, Nat.zero_le _⟩
  · change ∀ r ∈ y.sentTo, _
    rw [hs]
    exact hf.kinds
  · change List.Forall₂ _ (y.fates ++ List.replicate _ Fate.dropped) y.sentTo
    rw [hlen, hs, hy, hsent]
    exact List.rel_append hfates (forall₂_dropped pending)

theorem Follows.makeRoom (hf : x.Follows fifo me q reads) {len : ℕ} (hl : len < kPacketQueueSize) :
    (x.makeRoom q len).Follows fifo me q reads ∧
      q.used (x.makeRoom q len).readOffset + len < kPacketQueueSize := by
  unfold Reader.makeRoom
  split_ifs with hfull
  · refine ⟨hf.resetFIFO rfl rfl q reads, ?_⟩
    change q.used q.writeOffset + len < _
    rwa [q.used_self, Nat.zero_add]
  · exact ⟨hf, by omega⟩

/-- Moving the write cursor under a reader that does not read changes nothing. -/
theorem Follows.of_not_reads (hf : x.Follows fifo me q false) (q' : Queue) :
    x.Follows fifo me q' false := by
  obtain ⟨settled, pending, hsent, hfates, -, hnone, hpermits⟩ := hf.split
  exact ⟨hf.readOffset_lt, hf.kinds, settled, pending, hsent, hfates, nofun, hnone, hpermits⟩

/-- A record written with room for it and then posted. -/
theorem Follows.post (hf : x.Follows fifo me q true) {q' : Queue} {r : Record} (hr : r.For fifo)
    (hq : q'.unread x.readOffset = q.unread x.readOffset ++ r.bytes) :
    (x.post r).Follows fifo me q' true := by
  obtain ⟨settled, pending, hsent, hfates, hunread, -, hpermits⟩ := hf.split
  refine ⟨hf.readOffset_lt, ?_, settled, pending ++ [r], ?_, hfates, ?_, nofun, ?_⟩
  · intro r' hr'
    rcases List.mem_append.mp hr' with h | h
    · exact hf.kinds r' h
    · rw [List.mem_singleton.mp h]
      exact hr
  · change x.sentTo ++ [r] = _
    rw [hsent, List.append_assoc]
  · intro _
    change q'.unread x.readOffset = _
    rw [hq, hunread rfl, List.flatMap_append, List.flatMap_singleton]
  · change (pending ++ [r]).length ≤ x.semPool + 1 + x.permits
    rw [List.length_append, List.length_singleton]
    omega

theorem Follows.take (hf : x.Follows fifo me q reads) (hs : 0 < x.semPool) :
    x.take.Follows fifo me q reads := by
  obtain ⟨settled, pending, hsent, hfates, hunread, hnone, hpermits⟩ := hf.split
  refine ⟨hf.readOffset_lt, hf.kinds, settled, pending, hsent, hfates, hunread, hnone, ?_⟩
  change pending.length ≤ x.semPool - 1 + (x.permits + 1)
  omega

/-- A pending record is taken off once its bytes are read. -/
theorem Follows.settle {y : Reader} {fate : Fate} {r : Record} {settled rest : List Record}
    (hy : y.readOffset < kPacketQueueSize) (hkinds : ∀ r ∈ y.sentTo, r.For fifo)
    (hsent : y.sentTo = settled ++ r :: rest) (hfates : List.Forall₂ (Fate.Settles me) y.fates settled)
    (hfate : fate.Settles me r) (hunread : q.unread y.readOffset = rest.flatMap Record.bytes)
    (hpermits : rest.length ≤ y.semPool + y.permits) :
    (y.settle fate).Follows fifo me q true := by
  refine ⟨hy, hkinds, settled ++ [r], rest, ?_, ?_, fun _ => hunread, nofun, hpermits⟩
  · change y.sentTo = _
    rw [hsent, List.append_assoc, List.singleton_append]
  · exact List.rel_append hfates (.cons hfate .nil)

/-- A record that passes its checks is returned or passed over, never refused. -/
def Accepts (me : Inst) (fifo : Fifo) (verdict : ℕ → MPPacketHeader → Verdict) : Prop :=
  ∀ (r : Record) (available : ℕ), r.For fifo → MPPacketHeader.size + r.payload.length ≤ available →
    (verdict available r.header = .deliver ∧ r.sender ≠ me) ∨
      ∃ fate, verdict available r.header = .skip fate ∧ fate.Settles me r ∧ fate ≠ .dropped

theorem packetVerdict_accepts (me : Inst) : Accepts me .packets (packetVerdict me) := by
  rintro r available ⟨hle, hne⟩ hav
  have hlen := r.length_le
  have hlt := r.sender.isLt
  have hvalid : ¬(r.header.magic ≠ magic ∨ r.header.length.toNat > kMaxFrameSize ∨
      r.header.senderID ≥ 16 ∨ r.header.type > 3 ∨ r.header.type = 2 ∨
      available < MPPacketHeader.size + r.header.length.toNat) := by
    rw [r.header_length_toNat, ge_iff_le, BitVec.le_def, r.header_senderID_toNat]
    rintro (h | h | h | h | h | h)
    · exact h rfl
    · exact absurd h (by omega)
    · exact absurd h (Nat.not_le.mpr hlt)
    · exact absurd hle (BitVec.not_le.mpr h)
    · exact hne h
    · omega
  rw [packetVerdict, if_neg hvalid]
  split_ifs with hown
  · exact .inr ⟨.own, rfl, (r.header_senderID_eq_iff me).mp hown, nofun⟩
  · exact .inl ⟨rfl, fun h => hown ((r.header_senderID_eq_iff me).mpr h)⟩

theorem replyVerdict_accepts (me : Inst) (timestamp : U64) :
    Accepts me .replies (replyVerdict me timestamp) := by
  rintro r available ⟨hkind, haid, hempty⟩ hav
  have hlen := r.length_le
  have hlt := r.sender.isLt
  have hvalid : ¬(r.header.magic ≠ magic ∨ r.header.length.toNat > kMaxFrameSize ∨
      r.header.senderID ≥ 16 ∨ r.header.type &&& 0xFFFF ≠ 2 ∨ r.header.type >>> 16 > 15 ∨
      (r.header.type >>> 16 = 0 ∧ r.header.length ≠ 0) ∨
      available < MPPacketHeader.size + r.header.length.toNat) := by
    rw [r.header_length_toNat, ge_iff_le, BitVec.le_def, r.header_senderID_toNat]
    rintro (h | h | h | h | h | ⟨h, h'⟩ | h)
    · exact h rfl
    · exact absurd h (by omega)
    · exact absurd h (Nat.not_le.mpr hlt)
    · exact h hkind
    · exact absurd haid (BitVec.not_le.mpr h)
    · refine h' (BitVec.eq_of_toNat_eq ?_)
      rw [r.header_length_toNat, hempty h]
      rfl
    · omega
  rw [replyVerdict, if_neg hvalid]
  split_ifs with hown hstale
  · exact .inr ⟨.own, rfl, (r.header_senderID_eq_iff me).mp hown, nofun⟩
  · exact .inr ⟨.stale timestamp, rfl, hstale, nofun⟩
  · exact .inl ⟨rfl, fun h => hown ((r.header_senderID_eq_iff me).mpr h)⟩

/-- A receiver with a permit at a nonempty queue uses up exactly the oldest
pending record. -/
theorem Follows.receive (hf : x.Follows fifo me q true) (hp : 0 < x.permits)
    (hne : x.readOffset ≠ q.writeOffset) {verdict : ℕ → MPPacketHeader → Verdict}
    (hv : Accepts me fifo verdict) (capacity : ℕ) :
    (x.enter.receive q verdict capacity).2.2.Follows fifo me q true ∧
      (x.enter.receive q verdict capacity).1 ≠ .invalid ∧
      x.Progress (x.enter.receive q verdict capacity).2.2 ∧
      (x.enter.receive q verdict capacity).2.2.sentTo = x.sentTo := by
  obtain ⟨settled, pending, hsent, hfates, hunread, -, hpermits⟩ := hf.split
  have hu := hunread rfl
  cases pending with
  | nil => exact absurd ((Ring.unread_eq_nil_iff hf.readOffset_lt).mp hu) hne
  | cons r rest =>
    rw [List.flatMap_cons] at hu
    obtain ⟨hhdr, offset, hmove, hlt, hbody⟩ :=
      readHeader_eq (x := x.enter) hf.readOffset_lt hu
    have hkind := hf.kinds r (by rw [hsent]; simp)
    have hused : MPPacketHeader.size + r.payload.length ≤ q.used x.enter.readOffset := by
      change _ ≤ q.used x.readOffset
      rw [← q.length_unread, hu, List.length_append, r.length_bytes]
      omega
    have hrest : rest.length ≤ x.semPool + (x.permits - 1) := by
      rw [List.length_cons] at hpermits
      omega
    have hsettle : ∀ (cursor : ℕ) (fate : Fate), cursor < kPacketQueueSize →
        q.unread cursor = rest.flatMap Record.bytes → fate.Settles me r → fate ≠ .dropped →
        ((x.enter.moveTo cursor).settle fate).Follows fifo me q true ∧
          x.Progress ((x.enter.moveTo cursor).settle fate) := by
      intro cursor fate hc hcu hfate hd
      exact ⟨.settle hc hf.kinds hsent hfates hfate hcu hrest, .one fate hd rfl⟩
    simp only [Reader.receive, hhdr, hmove]
    rcases hv r _ hkind hused with ⟨hverdict, hother⟩ | ⟨fate, hverdict, hfate, hd⟩
    · obtain ⟨cursor, hdeliver, hc, hcu⟩ := deliver_eq (x := x.enter.moveTo offset) hlt hbody capacity
      have h := hsettle cursor (.delivered r.type _ capacity r.timestamp) hc hcu
        ⟨hother, rfl, rfl, rfl⟩ nofun
      rw [hverdict, hdeliver]
      exact ⟨h.1, nofun, h.2, rfl⟩
    · obtain ⟨cursor, hskip, hc, hcu⟩ := fifoRead_payload (x := x.enter.moveTo offset) hlt hbody
      have h := hsettle cursor fate hc hcu hfate hd
      rw [hverdict, r.header_length_toNat, hskip]
      exact ⟨h.1, nofun, h.2, rfl⟩

end Reader
end LocalMP
end MelonDS
