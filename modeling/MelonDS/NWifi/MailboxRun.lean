import MelonDS.NWifi.Mailbox

/-!
# Runs of the receive mailboxes

As long as no record is longer than mailbox 4 and the guest takes its last byte at the
end of a window, mailbox 4 shows the records of mailbox 8 in order, whole and padded,
and an empty mailbox 4 means that none is waiting.
-/

namespace MelonDS.NWifi

/-- A record whose length field is its own. -/
def Framed (r : List U8) : Prop := 6 ≤ r.length ∧ ofBytes ((r.drop 2).take 2) + 6 = r.length

/-- A record as it lies in mailbox 4. -/
def pad (r : List U8) : List U8 := r ++ List.replicate (required r.length - r.length) 0

theorem le_required (n : ℕ) : n ≤ required n := by
  rw [required]
  omega

theorem required_le {n : ℕ} (h : n ≤ 0x600) : required n ≤ 0x600 := by
  rw [required]
  omega

section Drain

variable {s : RXMailboxes}

theorem moveBytes_spec {a rest : List U8} (h : s.mailbox8.contents = a ++ rest)
    (hfits : s.mailbox4.contents.length + a.length ≤ 0x600) :
    (moveBytes a.length s).mailbox4.contents = s.mailbox4.contents ++ a ∧
      (moveBytes a.length s).mailbox8.contents = rest := by
  induction a generalizing s with
  | nil => exact ⟨(List.append_nil _).symm, h⟩
  | cons b a ih =>
    obtain ⟨hval, hrest⟩ := DynamicFIFO.read_of_cons h
    rw [List.length_cons] at hfits
    have hwrite : (s.mailbox4.write b).contents = s.mailbox4.contents ++ [b] :=
      s.mailbox4.write_contents_of_lt b (by omega)
    rw [List.length_cons, moveBytes]
    dsimp only
    rw [hval]
    have hroom : (s.mailbox4.write b).contents.length + a.length ≤ 0x600 := by
      rw [hwrite, List.length_append]
      simp only [List.length_singleton]
      omega
    obtain ⟨h4, h8⟩ := ih (s := ⟨s.mailbox4.write b, (DynamicFIFO.read s.mailbox8).2⟩) hrest hroom
    refine ⟨?_, h8⟩
    rw [h4, hwrite, List.append_assoc]
    rfl

theorem headLength_eq {r rest : List U8} (hr : Framed r) (h : s.mailbox8.contents = r ++ rest) :
    headLength s + 6 = r.length := by
  obtain ⟨hlen, hfield⟩ := hr
  obtain ⟨b0, b1, b2, b3, r', rfl⟩ : ∃ b0 b1 b2 b3 r', r = b0 :: b1 :: b2 :: b3 :: r' := by
    rcases r with _ | ⟨b0, _ | ⟨b1, _ | ⟨b2, _ | ⟨b3, r'⟩⟩⟩⟩
    · exact absurd hlen (by simp)
    · exact absurd hlen (by simp)
    · exact absurd hlen (by simp)
    · exact absurd hlen (by simp)
    · exact ⟨b0, b1, b2, b3, r', rfl⟩
  have h2 : DynamicFIFO.peekAt s.mailbox8 2 = b2 := DynamicFIFO.peekAt_eq (by rw [h]; rfl)
  have h3 : DynamicFIFO.peekAt s.mailbox8 3 = b3 := DynamicFIFO.peekAt_eq (by rw [h]; rfl)
  have hword : headLength s = b2.toNat + 256 * b3.toNat := by
    rw [headLength, h2, h3, BitVec.toNat_or, BitVec.toNat_shiftLeft, BitVec.toNat_setWidth,
      BitVec.toNat_setWidth, Nat.shiftLeft_eq]
    have hb2 := b2.isLt
    have hb3 := b3.isLt
    rw [Nat.mod_eq_of_lt (by omega), Nat.mod_eq_of_lt (b := 2 ^ 16) (a := b3.toNat) (by omega),
      Nat.mod_eq_of_lt (by omega), Nat.or_comm, Nat.mul_comm b3.toNat,
      ← Nat.two_pow_add_eq_or_of_lt hb2]
    omega
  rw [hword, ← hfield]
  change b2.toNat + 256 * b3.toNat + 6 = b2.toNat + 256 * (b3.toNat + 256 * 0) + 6
  omega

/-- A record at the head that fits is moved and padded. -/
theorem drainRXBuffer_fits {r rest : List U8} (hr : Framed r)
    (h : s.mailbox8.contents = r ++ rest)
    (hfits : s.mailbox4.contents.length + required r.length ≤ 0x600) :
    ∃ s', drainRXBuffer s = drainRXBuffer s' ∧
      s'.mailbox4.contents = s.mailbox4.contents ++ pad r ∧ s'.mailbox8.contents = rest := by
  have hlevel : s.mailbox8.level ≥ 6 := by
    rw [FIFO.level_eq_length, h, List.length_append]
    exact hr.1.trans (Nat.le_add_right _ _)
  have hle := le_required r.length
  obtain ⟨h4, h8⟩ := moveBytes_spec h (by omega)
  rw [drainRXBuffer, dif_pos hlevel, headLength_eq hr h]
  dsimp only
  rw [if_pos ((DynamicFIFO.canFit_iff _ _).mpr hfits)]
  refine ⟨_, rfl, ?_, h8⟩
  dsimp only
  rw [DynamicFIFO.writeAll_contents_of_fits, h4, List.append_assoc, pad]
  rw [h4, List.length_append, List.length_replicate]
  omega

theorem drainRXBuffer_stuck {r rest : List U8} (hr : Framed r)
    (h : s.mailbox8.contents = r ++ rest)
    (hfull : ¬ s.mailbox4.contents.length + required r.length ≤ 0x600) :
    drainRXBuffer s = s := by
  rw [drainRXBuffer]
  split_ifs with hlevel
  · rw [headLength_eq hr h]
    dsimp only
    rw [if_neg fun hfit => hfull ((DynamicFIFO.canFit_iff _ _).mp hfit)]
  · rfl

theorem drainRXBuffer_nil (h : s.mailbox8.contents = []) : drainRXBuffer s = s := by
  rw [drainRXBuffer, dif_neg]
  rw [FIFO.level_eq_length, h]
  decide

/-- Some of the waiting records are moved, all of them unless the next one has to wait. -/
theorem drainRXBuffer_spec {rs : List (List U8)} (hrs : ∀ r ∈ rs, Framed r)
    (h : s.mailbox8.contents = rs.flatten) :
    ∃ moved waiting, rs = moved ++ waiting ∧
      (drainRXBuffer s).mailbox4.contents = s.mailbox4.contents ++ moved.flatMap pad ∧
      (drainRXBuffer s).mailbox8.contents = waiting.flatten ∧
      ∀ r ∈ waiting.head?,
        ¬ (drainRXBuffer s).mailbox4.contents.length + required r.length ≤ 0x600 := by
  induction rs generalizing s with
  | nil =>
    refine ⟨[], [], rfl, ?_, ?_, fun r hr => by cases hr⟩
    · rw [drainRXBuffer_nil h]
      exact (List.append_nil _).symm
    · rw [drainRXBuffer_nil h, h]
  | cons r rs ih =>
    have hr := hrs r (List.mem_cons_self ..)
    rw [List.flatten_cons] at h
    by_cases hfits : s.mailbox4.contents.length + required r.length ≤ 0x600
    · obtain ⟨s', heq, h4, h8⟩ := drainRXBuffer_fits hr h hfits
      obtain ⟨moved, waiting, rfl, h4', h8', hstop⟩ :=
        ih (fun x hx => hrs x (List.mem_cons_of_mem _ hx)) h8
      refine ⟨r :: moved, waiting, rfl, ?_, ?_, ?_⟩
      · rw [heq, h4', h4, List.flatMap_cons, List.append_assoc]
      · rw [heq, h8']
      · rw [heq]
        exact hstop
    · rw [drainRXBuffer_stuck hr h hfits]
      refine ⟨[], r :: rs, rfl, (List.append_nil _).symm, h, fun x hx => ?_⟩
      cases hx
      exact hfits

end Drain

/-! The records are framed -/

/-- The length field of a record stands at its third byte. -/
theorem framed_of_field {a b : U8} {v : ℕ} {body : List U8} (hv : v < 0x10000)
    (hlen : body.length = v + 2) : Framed ([a, b] ++ toBytes 2 v ++ body) := by
  have hfield : (([a, b] ++ toBytes 2 v ++ body).drop 2).take 2 = toBytes 2 v := by
    rw [List.append_assoc]
    exact take_toBytes_append 2 v body
  constructor
  · simp only [List.length_append, length_toBytes, hlen, List.length_cons, List.length_nil]
    omega
  · rw [hfield, ofBytes_toBytes, Nat.mod_eq_of_lt (show v < 256 ^ 2 from hv)]
    simp only [List.length_append, length_toBytes, hlen, List.length_cons, List.length_nil]
    omega

theorem length_eventRecord (ep : U8) (id : U16) (data : List U8) :
    (eventRecord ep id data).length = 6 + data.length + 2 + 8 := by
  simp only [eventRecord, List.length_append, length_toBytes, List.length_cons, List.length_nil]
  omega

theorem framed_eventRecord (ep : U8) (id : U16) {data : List U8} (h : data.length + 10 < 0x10000) :
    Framed (eventRecord ep id data) := by
  have hsplit : eventRecord ep id data = [ep, 0x02] ++ toBytes 2 (data.length + 2 + 8) ++
      ([8, 0] ++ toBytes 2 id.toNat ++ data ++ [0x02, 0x06, 0, 0, 0, 0, 0, 0]) := by
    simp only [eventRecord, List.append_assoc]
  rw [hsplit]
  apply framed_of_field (by omega)
  simp only [List.length_append, length_toBytes, List.length_cons, List.length_nil]
  omega

theorem length_ackRecord (ep : U8) : (ackRecord ep).length = 6 + 12 := rfl

theorem framed_ackRecord (ep : U8) : Framed (ackRecord ep) := by
  have hsplit : ackRecord ep = [0, 0x02] ++ toBytes 2 0xC ++
      ([0xC, 0] ++ [0x01, 0x02, ep, 0x01] ++ [0x02, 0x06, 0, 0, 0, 0, 0, 0]) := by
    simp only [ackRecord, List.append_assoc]
  rw [hsplit]
  exact framed_of_field (by decide) rfl

theorem length_bssInfoRecord (dev : Device) (type : U8) (data : List U8) :
    (bssInfoRecord dev.apMac type data).length = 6 + data.length + 2 + 16 := by
  simp only [bssInfoRecord, List.length_append, length_toBytes, List.length_cons, List.length_nil,
    dev.length_apMac]
  omega

theorem framed_bssInfoRecord (dev : Device) (type : U8) {data : List U8}
    (h : data.length + 18 < 0x10000) : Framed (bssInfoRecord dev.apMac type data) := by
  have hsplit : bssInfoRecord dev.apMac type data =
      [1, 0x00] ++ toBytes 2 (data.length + 2 + 16) ++
      ([0xFF, 0xFF] ++ toBytes 2 0x1004 ++ toBytes 2 2437 ++ [type, 0x1B] ++ toBytes 2 0xFFBC ++
        dev.apMac ++ toBytes 4 0 ++ data) := by
    simp only [bssInfoRecord, List.append_assoc]
  rw [hsplit]
  apply framed_of_field (by omega)
  simp only [List.length_append, length_toBytes, List.length_cons, List.length_nil,
    dev.length_apMac]
  omega

theorem length_frameRecord (frame : HostFrame) :
    (frameRecord frame).length = frame.bytes.length + 16 := by
  have hge := frame.length_ge
  simp only [frameRecord, List.length_append, length_toBytes, List.length_cons, List.length_nil,
    List.length_reverse, HostFrame.length_dst, HostFrame.length_src, HostFrame.length_ethertype,
    HostFrame.length_payload]
  omega

theorem framed_frameRecord (frame : HostFrame) : Framed (frameRecord frame) := by
  have hge := frame.length_ge
  have hle := frame.length_le
  have hsplit : frameRecord frame =
      [2, 0x00] ++ toBytes 2 (16 + 8 + (frame.bytes.length - 14)) ++
      ([0, 0] ++ toBytes 2 0x80 ++ frame.dst ++ frame.src ++
        (toBytes 2 (frame.bytes.length - 14 + 8)).reverse ++ toBytes 2 0xAAAA ++
        toBytes 2 0x0003 ++ toBytes 2 0 ++ frame.ethertype ++ frame.payload) := by
    simp only [frameRecord, List.append_assoc]
  rw [hsplit]
  apply framed_of_field (by omega)
  simp only [List.length_append, length_toBytes, List.length_cons, List.length_nil,
    List.length_reverse, HostFrame.length_dst, HostFrame.length_src, HostFrame.length_ethertype,
    HostFrame.length_payload]
  omega

/-! Runs -/

variable (dev : Device)

/-- The record an operation has for the guest, and the room it asks for. -/
def Op.offered : Op → Option (ℕ × List U8)
  | .event ep id data => some (6 + data.length + 2 + 8, eventRecord ep id data)
  | .ack ep => some (6 + 12, ackRecord ep)
  | .bssInfo type data =>
    if dev.sendBSSInfo then
      some (6 + data.length + 2 + 16, bssInfoRecord dev.apMac type data)
    else none
  | .checkRX frames => (frames.find? (HostFrame.accepted · dev.mac)).map fun frame => (2048, frameRecord frame)
  | .read _ => none

/-- The record an operation writes to mailbox 8. -/
def Op.admitted (s : RXMailboxes) (op : Op) : Option (List U8) :=
  (op.offered dev).bind fun p => if s.mailbox8.canFit p.1 then some p.2 else none

/-- The byte of mailbox 4 that a read takes. -/
def Op.taken (s : RXMailboxes) : Op → Option U8
  | .read addr => if s.mailbox4.isEmpty then none else (f1Read addr s).1
  | _ => none

/-- The record, if there is one, is no longer than mailbox 4, and a read that takes the last byte
while records are waiting is one of the last address of a window. -/
def StepOk (s : RXMailboxes) (op : Op) : Prop :=
  (∀ r, op.admitted dev s = some r → r.length ≤ 0x600) ∧
    ∀ addr, op = .read addr → readsMailbox4 addr → s.mailbox4.contents.length = 1 →
      s.mailbox8.contents ≠ [] → endAddress addr

/-- What the guest has been given of the records written so far. -/
structure Delivered (s : RXMailboxes) (records : List (List U8)) (taken : List U8) : Prop where
  /-- Mailbox 4 got the records in order, whole and padded; mailbox 8 holds the others. -/
  order : ∃ moved waiting, records = moved ++ waiting ∧
    taken ++ s.mailbox4.contents = moved.flatMap pad ∧ s.mailbox8.contents = waiting.flatten
  /-- An empty mailbox 4 has taken every record. -/
  moved : s.mailbox4.contents = [] → s.mailbox8.contents = []

def records (es : List (RXMailboxes × Op)) : List (List U8) :=
  es.filterMap fun e => e.2.admitted dev e.1

def taken (es : List (RXMailboxes × Op)) : List U8 := es.filterMap fun e => e.2.taken e.1

structure MailboxSpec (ops : List Op) : Prop where
  /-- No record is written in part. -/
  whole : ∀ e ∈ trace dev .reset ops, ∀ r, e.2.admitted dev e.1 = some r →
    (DynamicFIFO.writeAll e.1.mailbox8 r).contents = e.1.mailbox8.contents ++ r
  delivered : Delivered (runOps dev .reset ops) (records dev (trace dev .reset ops))
    (taken (trace dev .reset ops))

variable {dev} {s : RXMailboxes} {recs : List (List U8)} {got : List U8}

/-- Delivered so far, all records being well formed and short enough for mailbox 4. -/
structure Good (s : RXMailboxes) (recs : List (List U8)) (got : List U8) : Prop
    extends Delivered s recs got where
  framed : ∀ r ∈ recs, Framed r ∧ r.length ≤ 0x600

/-- A record that asked for the room it needs. -/
theorem offered_framed {op : Op} {room : ℕ} {r : List U8} (h : op.offered dev = some (room, r))
    (hroom : room ≤ 0x8000) : Framed r ∧ (r.length = room ∨ room = 2048) := by
  cases op with
  | event ep id data =>
    cases h
    exact ⟨framed_eventRecord ep id (by omega), Or.inl (length_eventRecord ep id data)⟩
  | ack ep =>
    cases h
    exact ⟨framed_ackRecord ep, Or.inl rfl⟩
  | bssInfo type data =>
    rw [Op.offered] at h
    split_ifs at h
    cases h
    exact ⟨framed_bssInfoRecord dev type (by omega), Or.inl (length_bssInfoRecord dev type data)⟩
  | checkRX frames =>
    rw [Op.offered, Option.map_eq_some_iff] at h
    obtain ⟨frame, -, h⟩ := h
    cases h
    exact ⟨framed_frameRecord frame, Or.inr rfl⟩
  | read addr => cases h

theorem admitted_spec {op : Op} {r : List U8} (h : op.admitted dev s = some r) :
    Framed r ∧ (r.length ≤ 0x600 → s.mailbox8.contents.length + r.length ≤ 0x8000) ∧
      op.run dev s = drainRXBuffer { s with mailbox8 := DynamicFIFO.writeAll s.mailbox8 r } := by
  rw [Op.admitted, Option.bind_eq_some_iff] at h
  obtain ⟨⟨room, r'⟩, hoff, h⟩ := h
  dsimp only at h
  split_ifs at h with hfit
  cases h
  have hroom := (DynamicFIFO.canFit_iff _ _).mp hfit
  obtain ⟨hframed, hlen⟩ := offered_framed hoff (by omega)
  refine ⟨hframed, fun hle => by omega, ?_⟩
  cases op with
  | event ep id data =>
    cases hoff
    exact if_pos hfit
  | ack ep =>
    cases hoff
    exact if_pos hfit
  | bssInfo type data =>
    rw [Op.offered] at hoff
    split_ifs at hoff with hsend
    cases hoff
    rw [Op.run, sendWMIBSSInfo, if_pos hsend]
    exact if_pos hfit
  | checkRX frames =>
    rw [Op.offered, Option.map_eq_some_iff] at hoff
    obtain ⟨frame, hfind, hoff⟩ := hoff
    cases hoff
    rw [Op.run, checkRX, hfind]
    exact if_pos hfit
  | read addr => cases hoff

theorem not_admitted {op : Op} (h : op.admitted dev s = none) (hread : ∀ addr, op ≠ .read addr) :
    op.run dev s = s := by
  cases op with
  | event ep id data =>
    have hfit : ¬ s.mailbox8.canFit (6 + data.length + 2 + 8) = true := fun hfit => by
      rw [Op.admitted, Op.offered, Option.bind_some, if_pos hfit] at h
      cases h
    exact if_neg hfit
  | ack ep =>
    have hfit : ¬ s.mailbox8.canFit (6 + 12) = true := fun hfit => by
      rw [Op.admitted, Op.offered, Option.bind_some, if_pos hfit] at h
      cases h
    exact if_neg hfit
  | bssInfo type data =>
    rw [Op.run, sendWMIBSSInfo]
    split_ifs with hsend
    · have hfit : ¬ s.mailbox8.canFit (6 + data.length + 2 + 16) = true := fun hfit => by
        rw [Op.admitted, Op.offered, if_pos hsend, Option.bind_some, if_pos hfit] at h
        cases h
      exact if_neg hfit
    · rfl
  | checkRX frames =>
    rw [Op.run, checkRX]
    cases hfind : frames.find? (HostFrame.accepted · dev.mac) with
    | none => rfl
    | some frame =>
      have hfit : ¬ s.mailbox8.canFit 2048 = true := fun hfit => by
        rw [Op.admitted, Op.offered, hfind, Option.map_some, Option.bind_some, if_pos hfit] at h
        cases h
      exact if_neg hfit
  | read addr => exact absurd rfl (hread addr)

/-- Draining keeps what was delivered and leaves an empty mailbox 4 with nothing behind it. -/
theorem Good.drain (hframed : ∀ r ∈ recs, Framed r ∧ r.length ≤ 0x600)
    {moved waiting : List (List U8)} (hrecs : recs = moved ++ waiting)
    (h4 : got ++ s.mailbox4.contents = moved.flatMap pad)
    (h8 : s.mailbox8.contents = waiting.flatten) : Good (drainRXBuffer s) recs got := by
  have hwaiting : ∀ r ∈ waiting, Framed r ∧ r.length ≤ 0x600 := fun r hr =>
    hframed r (hrecs ▸ List.mem_append_right _ hr)
  obtain ⟨moved', waiting', rfl, h4', h8', hstop⟩ :=
    drainRXBuffer_spec (fun r hr => (hwaiting r hr).1) h8
  refine ⟨⟨⟨moved ++ moved', waiting', ?_, ?_, h8'⟩, fun hempty => ?_⟩, hframed⟩
  · rw [hrecs, List.append_assoc]
  · rw [h4', ← List.append_assoc, h4, List.flatMap_append]
  · cases waiting' with
    | nil => rw [h8']; rfl
    | cons r waiting' =>
      have hle := (hwaiting r (List.mem_append_right _ (List.mem_cons_self ..))).2
      refine absurd ?_ (hstop r rfl)
      rw [hempty, List.length_nil, Nat.zero_add]
      exact required_le hle

theorem Good.send (h : Good s recs got) {op : Op} {r : List U8}
    (hframe : op.admitted dev s = some r) (hle : r.length ≤ 0x600) :
    Good (op.run dev s) (recs ++ [r]) got := by
  obtain ⟨hframed, hfits, hrun⟩ := admitted_spec hframe
  obtain ⟨moved, waiting, rfl, h4, h8⟩ := h.order
  rw [hrun]
  refine Good.drain ?_ (List.append_assoc moved waiting [r]) h4 ?_
  · intro x hx
    rcases List.mem_append.mp hx with hx | hx
    · exact h.framed x hx
    · rw [List.mem_singleton.mp hx]
      exact ⟨hframed, hle⟩
  · rw [DynamicFIFO.writeAll_contents_of_fits _ (hfits hle), h8, List.flatten_append,
      List.flatten_singleton]

/-- Taking the byte at the head of mailbox 4. -/
theorem Good.read (h : Good s recs got) {addr : ℕ} (hok : StepOk dev s (.read addr)) :
    Good (f1Read addr s).2 recs (got ++ ((Op.read addr).taken s).toList) := by
  obtain ⟨moved, waiting, hrecs, h4, h8⟩ := h.order
  rw [f1Read]
  by_cases hwin : readsMailbox4 addr = true
  · rw [if_pos hwin]
    have htaken : got ++ ((Op.read addr).taken s).toList ++
        (DynamicFIFO.read s.mailbox4).2.contents = moved.flatMap pad := by
      rw [Op.taken, f1Read, if_pos hwin, ← h4]
      cases hc : s.mailbox4.contents with
      | nil =>
        rw [if_pos (s.mailbox4.isEmpty_iff.mpr hc), DynamicFIFO.read_of_nil hc, hc]
        rw [Option.toList_none, List.append_nil]
      | cons b rest =>
        obtain ⟨hval, hrest⟩ := DynamicFIFO.read_of_cons hc
        have hne : ¬ s.mailbox4.isEmpty = true := by
          rw [s.mailbox4.isEmpty_iff, hc]
          exact List.cons_ne_nil b rest
        rw [if_neg hne, hrest, List.append_assoc]
        dsimp only
        rw [hval]
        rfl
    dsimp only
    split_ifs with hend
    · exact Good.drain h.framed hrecs htaken h8
    · refine ⟨⟨⟨moved, waiting, hrecs, htaken, h8⟩, fun hempty => ?_⟩, h.framed⟩
      dsimp only at hempty ⊢
      cases hc : s.mailbox4.contents with
      | nil => exact h.moved hc
      | cons b rest =>
        obtain ⟨-, hrest⟩ := DynamicFIFO.read_of_cons hc
        have hlen : s.mailbox4.contents.length = 1 := by
          rw [hc, List.length_cons, ← hrest, hempty, List.length_nil]
        by_contra hne
        exact hend (hok.2 addr rfl hwin hlen hne)
  · have htaken : ((Op.read addr).taken s).toList = [] := by
      rw [Op.taken, f1Read, if_neg hwin]
      split_ifs <;> rfl
    rw [if_neg hwin, htaken, List.append_nil]
    exact h

theorem Good.step (h : Good s recs got) {op : Op} (hok : StepOk dev s op) :
    Good (op.run dev s) (recs ++ (op.admitted dev s).toList) (got ++ (op.taken s).toList) := by
  cases hframe : op.admitted dev s with
  | some r =>
    have hnone : op.taken s = none := by
      cases op with
      | read addr => cases hframe
      | event | ack | bssInfo | checkRX => rfl
    rw [hnone, Option.toList_none, List.append_nil]
    exact h.send hframe (hok.1 r hframe)
  | none =>
    rw [Option.toList_none, List.append_nil]
    cases op with
    | read addr => exact h.read hok
    | event | ack | bssInfo | checkRX =>
      rw [not_admitted hframe fun addr heq => by cases heq]
      exact (List.append_nil got).symm ▸ h

theorem Good.run (h : Good s recs got) {ops : List Op}
    (hok : ∀ e ∈ trace dev s ops, StepOk dev e.1 e.2) :
    Good (runOps dev s ops) (recs ++ records dev (trace dev s ops))
      (got ++ taken (trace dev s ops)) := by
  induction ops generalizing s recs got with
  | nil =>
    rw [trace, records, taken, List.filterMap_nil, List.filterMap_nil, List.append_nil,
      List.append_nil]
    exact h
  | cons op ops ih =>
    have hstep := h.step (hok (s, op) (List.mem_cons_self ..))
    have hrun := ih hstep fun e he => hok e (List.mem_cons_of_mem _ he)
    have hrecs : records dev (trace dev s (op :: ops)) =
        (op.admitted dev s).toList ++ records dev (trace dev (op.run dev s) ops) := by
      rw [records, trace, List.filterMap_cons]
      cases op.admitted dev s <;> rfl
    have htaken : taken (trace dev s (op :: ops)) =
        (op.taken s).toList ++ taken (trace dev (op.run dev s) ops) := by
      rw [taken, trace, List.filterMap_cons]
      cases op.taken s <;> rfl
    rw [hrecs, htaken, ← List.append_assoc, ← List.append_assoc]
    exact hrun

theorem good_reset : Good .reset [] [] :=
  ⟨⟨⟨[], [], rfl, rfl, rfl⟩, fun _ => rfl⟩, fun _ h => absurd h List.not_mem_nil⟩

theorem mailbox_run (dev : Device) (ops : List Op)
    (h : ∀ e ∈ trace dev .reset ops, StepOk dev e.1 e.2) : MailboxSpec dev ops := by
  constructor
  · intro e he r hr
    obtain ⟨-, hfits, -⟩ := admitted_spec hr
    exact DynamicFIFO.writeAll_contents_of_fits _ (hfits ((h e he).1 r hr))
  · exact (good_reset.run h).toDelivered

def plainDevice : Device := ⟨List.replicate 6 0, List.replicate 6 0, true, rfl, rfl⟩

theorem mailbox_run_acks : MailboxSpec plainDevice [.ack 1, .ack 2] := by
  refine mailbox_run plainDevice _ fun e he => ?_
  have hack : ∀ s ep, StepOk plainDevice s (.ack ep) := by
    refine fun s ep => ⟨fun r hr => ?_, fun addr h => by cases h⟩
    rw [Op.admitted, Op.offered, Option.bind_some] at hr
    split_ifs at hr
    cases hr
    rw [length_ackRecord]
    decide
  rcases List.mem_cons.mp he with rfl | he
  · exact hack _ 1
  · rw [trace, trace, List.mem_singleton] at he
    rw [he]
    exact hack _ 2

/-- A broadcast whose record is one byte longer than mailbox 4. -/
def longFrame : HostFrame where
  bytes := List.replicate 1521 0xFF
  length_ge := by
    rw [List.length_replicate]
    decide
  length_le := by
    rw [List.length_replicate]
    decide

theorem accepted_longFrame : longFrame.accepted plainDevice.mac = true := by
  rw [HostFrame.accepted, HostFrame.dst, HostFrame.src, longFrame, List.drop_replicate,
    List.take_replicate, List.take_replicate]
  decide

/-- A frame of more than 1520 bytes is never moved to mailbox 4. -/
theorem wedged_of_long {dev : Device} {frame : HostFrame} (hacc : frame.accepted dev.mac = true)
    (hlong : 1520 < frame.bytes.length) : ¬ MailboxSpec dev [.checkRX [frame]] := by
  intro h
  have hge := frame.length_le
  have hlen := length_frameRecord frame
  have hfind : [frame].find? (HostFrame.accepted · dev.mac) = some frame := List.find?_cons_of_pos hacc
  have hroom : RXMailboxes.reset.mailbox8.canFit 2048 = true := by
    rw [DynamicFIFO.canFit_iff, RXMailboxes.reset, FIFO.empty_contents, List.length_nil]
    omega
  have hframe : (Op.checkRX [frame]).admitted dev .reset = some (frameRecord frame) := by
    rw [Op.admitted, Op.offered, hfind, Option.map_some, Option.bind_some, if_pos hroom]
  obtain ⟨hframed, -, hrun⟩ := admitted_spec hframe
  have h4 : RXMailboxes.reset.mailbox4.contents = [] := FIFO.empty_contents 0
  have h8 : RXMailboxes.reset.mailbox8.contents = [] := FIFO.empty_contents 0
  have hmoved := h.delivered.moved
  rw [runOps, runOps, hrun] at hmoved
  generalize RXMailboxes.reset = s at h4 h8 hmoved
  have hwritten : (DynamicFIFO.writeAll s.mailbox8 (frameRecord frame)).contents =
      frameRecord frame := by
    rw [DynamicFIFO.writeAll_contents_of_fits, h8, List.nil_append]
    rw [h8, hlen, List.length_nil]
    omega
  generalize ht : { s with mailbox8 := DynamicFIFO.writeAll s.mailbox8 (frameRecord frame) } = t
    at hmoved
  have ht4 : t.mailbox4.contents = [] := by rw [← ht, h4]
  have ht8 : t.mailbox8.contents = frameRecord frame := by rw [← ht, hwritten]
  have hfull : ¬ t.mailbox4.contents.length + required (frameRecord frame).length ≤ 0x600 := by
    rw [ht4, hlen, List.length_nil, required]
    omega
  rw [drainRXBuffer_stuck hframed (ht8.trans (List.append_nil _).symm) hfull] at hmoved
  have hzero := congrArg List.length (ht8.symm.trans (hmoved ht4))
  rw [hlen, List.length_nil] at hzero
  omega

theorem mailbox_run_long : ¬ MailboxSpec plainDevice [.checkRX [longFrame]] :=
  wedged_of_long accepted_longFrame (by
    rw [longFrame, List.length_replicate]
    decide)

end MelonDS.NWifi
