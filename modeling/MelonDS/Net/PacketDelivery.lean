import MelonDS.Net.PacketDispatcher

/-!
# Delivery through `PacketDispatcher`

A registered instance has a mailbox of packets; its ring is that mailbox written
out in bytes. Since every ring is a whole number of packets, a header read back
out of one is the header that was written, so an eviction skips one packet, its
loop ends, and no receiver meets a bad magic.
-/

namespace MelonDS.PacketDispatcher

abbrev Box := Mailbox Packet.totallen 0x8000

/-- What a receiver stores of a packet. -/
def Packet.stored (p : Packet) (b : Buffers) : Stored where
  header := if p.header ≠ [] ∧ b.header then some p.header else none
  headerlen := if p.header ≠ [] ∧ b.headerlen then some (BitVec.ofNat 32 p.header.length) else none
  data := if p.data ≠ [] ∧ b.data then some p.data else none
  datalen := if p.data ≠ [] ∧ b.datalen then some (BitVec.ofNat 32 p.data.length) else none

def Holds (q : PacketQueue) (ps : List Packet) : Prop := q.contents = ps.flatMap Packet.bytes

theorem length_flatMap_bytes (ps : List Packet) :
    (ps.flatMap Packet.bytes).length = totalSize Packet.totallen ps := by
  induction ps with
  | nil => rfl
  | cons p ps ih =>
    rw [List.flatMap_cons, List.length_append, Packet.length_bytes, ih, totalSize_cons]

theorem Holds.length {q : PacketQueue} {ps : List Packet} (h : Holds q ps) :
    q.contents.length = totalSize Packet.totallen ps := by
  rw [h, length_flatMap_bytes]

theorem Packet.totallen_le (p : Packet) : p.totallen ≤ 0x8000 := Nat.le_of_lt p.length_lt

theorem length_le_totalSize (ps : List Packet) : ps.length ≤ totalSize Packet.totallen ps := by
  induction ps with
  | nil => exact Nat.le_refl _
  | cons p ps ih =>
    have hp : 1 ≤ p.totallen := by
      rw [Packet.totallen, PacketHeader.size]
      omega
    rw [totalSize_cons, List.length_cons]
    omega

theorem Holds.clear : Holds RingBuffer.clear [] := RingBuffer.contents_clear

/-- The oldest header of a ring that holds packets is the oldest packet's. -/
theorem Holds.read_header {q : PacketQueue} {p : Packet} {ps : List Packet}
    (h : Holds q (p :: ps)) :
    ∃ rest, q.read PacketHeader.size = some (p.phdr.encode, rest) ∧
      rest.contents = p.header ++ (p.data ++ ps.flatMap Packet.bytes) := by
  have hcontents : q.contents = p.phdr.encode ++ (p.header ++ (p.data ++ ps.flatMap Packet.bytes)) := by
    rw [h, List.flatMap_cons, Packet.bytes, List.append_assoc, List.append_assoc]
  have hlen : PacketHeader.size ≤ q.contents.length := by
    rw [hcontents, List.length_append, PacketHeader.length_encode]
    exact Nat.le_add_right _ _
  obtain ⟨rest, hread, hrest⟩ := RingBuffer.read_spec hlen
  refine ⟨rest, ?_, ?_⟩
  · rw [hread, hcontents, List.take_left' (PacketHeader.length_encode _)]
  · rw [hrest, hcontents, List.drop_left' (PacketHeader.length_encode _)]

theorem Holds.discard {q : PacketQueue} {p : Packet} {ps : List Packet} (h : Holds q (p :: ps)) :
    ∃ rest, discard q = some rest ∧ Holds rest ps := by
  obtain ⟨rest, hread, hcontents⟩ := h.read_header
  have hsum : (p.phdr.headerLength + p.phdr.dataLength).toNat = (p.header ++ p.data).length := by
    have hlt := p.length_lt
    rw [BitVec.toNat_add, p.header_toNat, p.data_toNat, List.length_append,
      Nat.mod_eq_of_lt (by omega)]
  rw [← List.append_assoc] at hcontents
  refine ⟨(rest.skip (p.header ++ p.data).length).2, ?_, ?_⟩
  · simp only [PacketDispatcher.discard, hread, PacketHeader.decode_encode, hsum]
  · have hlen : (p.header ++ p.data).length ≤ rest.contents.length := by
      simp only [hcontents, List.length_append]
      omega
    rw [Holds, RingBuffer.contents_skip hlen, hcontents, List.drop_left' rfl]

/-- The eviction loop ends, with the oldest packets gone that were in the way. -/
theorem Holds.evict {room fuel : ℕ} (hroom : room ≤ 0x8000) {ps : List Packet} :
    ∀ {q : PacketQueue}, Holds q ps → ps.length < fuel →
      ∃ rest, evict room fuel q = some rest ∧
        Holds rest (makeRoom Packet.totallen 0x8000 room ps) := by
  induction fuel generalizing ps with
  | zero => exact fun _ hfuel => absurd hfuel (Nat.not_lt_zero _)
  | succ fuel ih =>
    intro q h hfuel
    by_cases hfits : totalSize Packet.totallen ps + room ≤ 0x8000
    · have hcan : q.canFit room = true := by rwa [RingBuffer.canFit_iff, h.length]
      refine ⟨q, ?_, ?_⟩
      · rw [PacketDispatcher.evict, if_pos hcan]
      · rwa [makeRoom_of_fits hfits]
    · have hcan : ¬q.canFit room = true := by rwa [RingBuffer.canFit_iff, h.length]
      cases ps with
      | nil => exact absurd (by rwa [totalSize_nil, Nat.zero_add]) hfits
      | cons p ps =>
        obtain ⟨rest, hdiscard, hrest⟩ := h.discard
        obtain ⟨last, hevict, hlast⟩ := ih hrest (Nat.lt_of_succ_lt_succ hfuel)
        refine ⟨last, ?_, ?_⟩
        · simp only [PacketDispatcher.evict, if_neg hcan, hdiscard, hevict]
        · rwa [makeRoom, if_neg hfits]

theorem Holds.makeRoomFor {q : PacketQueue} {ps : List Packet} (h : Holds q ps) {room : ℕ}
    (hroom : room ≤ 0x8000) :
    ∃ rest, makeRoomFor room q = some rest ∧
      Holds rest (makeRoom Packet.totallen 0x8000 room ps) := by
  have hcount := length_le_totalSize ps
  rw [← h.length, RingBuffer.length_contents] at hcount
  exact h.evict hroom (Nat.lt_succ_of_le hcount)

/-- Writing a part only when it is not empty is writing it. -/
theorem contents_writePart (q : PacketQueue) (part : List U8)
    (h : q.contents.length + part.length ≤ 0x8000) :
    (if part.length ≠ 0 then (q.write part).2 else q).contents = q.contents ++ part := by
  split_ifs with hpart
  · exact RingBuffer.contents_write h
  · rw [List.length_eq_zero_iff.mp (not_not.mp hpart), List.append_nil]

theorem Holds.enqueue {q : PacketQueue} {ps : List Packet} (h : Holds q ps) {p : Packet}
    (hfits : totalSize Packet.totallen ps + p.totallen ≤ 0x8000) :
    Holds (enqueue p q) (ps ++ [p]) := by
  have hlen := h.length
  have hp := p.length_bytes
  rw [Packet.bytes, List.length_append, List.length_append] at hp
  have h1 : (q.write p.phdr.encode).2.contents = q.contents ++ p.phdr.encode :=
    RingBuffer.contents_write (by omega)
  have h2 := contents_writePart (q.write p.phdr.encode).2 p.header (by
    rw [h1, List.length_append]
    omega)
  have h3 := contents_writePart (if p.header.length ≠ 0 then
      ((q.write p.phdr.encode).2.write p.header).2 else (q.write p.phdr.encode).2) p.data (by
    rw [h2, h1, List.length_append, List.length_append]
    omega)
  rw [Holds, PacketDispatcher.enqueue]
  rw [h3, h2, h1, h, List.flatMap_append, List.flatMap_singleton, Packet.bytes,
    List.append_assoc, List.append_assoc]

theorem ofNat_length_eq_zero_iff {part : List U8} (h : part.length < 0x8000) :
    BitVec.ofNat 32 part.length = 0 ↔ part = [] := by
  rw [← BitVec.toNat_inj, BitVec.toNat_ofNat, Nat.mod_eq_of_lt (by omega)]
  exact List.length_eq_zero_iff

theorem receivePart_spec {q : PacketQueue} {part rest : List U8} (h : q.contents = part ++ rest)
    (hlt : part.length < 0x8000) (wanted : Bool) :
    (receivePart wanted (BitVec.ofNat 32 part.length) q).1 =
        (if part ≠ [] ∧ wanted then some part else none) ∧
      (receivePart wanted (BitVec.ofNat 32 part.length) q).2.contents = rest := by
  have hle : part.length ≤ q.contents.length := by
    rw [h, List.length_append]
    exact Nat.le_add_right _ _
  have hnat : (BitVec.ofNat 32 part.length).toNat = part.length := by
    rw [BitVec.toNat_ofNat, Nat.mod_eq_of_lt (by omega)]
  rw [receivePart]
  by_cases hpart : part = []
  · rw [if_pos ((ofNat_length_eq_zero_iff hlt).mpr hpart), if_neg (fun hc => hc.1 hpart)]
    rw [hpart, List.nil_append] at h
    exact ⟨rfl, h⟩
  · rw [if_neg (fun hz => hpart ((ofNat_length_eq_zero_iff hlt).mp hz)), hnat]
    by_cases hw : wanted = true
    · obtain ⟨q', hread, hq'⟩ := RingBuffer.read_spec hle
      rw [if_pos hw, if_pos ⟨hpart, hw⟩, hread]
      rw [h, List.take_left' rfl, List.drop_left' rfl] at *
      exact ⟨rfl, hq'⟩
    · rw [if_neg hw, if_neg (fun hc => hw hc.2)]
      refine ⟨rfl, ?_⟩
      rw [RingBuffer.contents_skip hle, h, List.drop_left' rfl]

theorem storedLength_eq (part : List U8) (hlt : part.length < 0x8000) (wanted : Bool) :
    storedLength wanted (BitVec.ofNat 32 part.length) =
      if part ≠ [] ∧ wanted then some (BitVec.ofNat 32 part.length) else none := by
  rw [storedLength]
  simp only [ne_eq, ofNat_length_eq_zero_iff hlt]

/-- A receiver stores the oldest packet. -/
theorem Holds.receive_cons {q : PacketQueue} {p : Packet} {ps : List Packet}
    (h : Holds q (p :: ps)) (b : Buffers) :
    (receive b q).1 = .packet (p.stored b) ∧ Holds (receive b q).2 ps := by
  have hlt := p.length_lt
  obtain ⟨rest, hread, hcontents⟩ := h.read_header
  obtain ⟨hheader, hafter⟩ := receivePart_spec hcontents (by omega) b.header
  obtain ⟨hdata, hlast⟩ := receivePart_spec hafter (by omega) b.data
  have hmagic : ¬p.phdr.magic ≠ kPacketMagic := not_not.mpr rfl
  have hlenH := storedLength_eq p.header (by omega) b.headerlen
  have hlenD := storedLength_eq p.data (by omega) b.datalen
  simp only [receive, hread, PacketHeader.decode_encode, if_neg hmagic]
  refine ⟨?_, hlast⟩
  change Outcome.packet ⟨(receivePart b.header (BitVec.ofNat 32 p.header.length) rest).1,
    storedLength b.headerlen (BitVec.ofNat 32 p.header.length), _,
    storedLength b.datalen (BitVec.ofNat 32 p.data.length)⟩ = _
  rw [hheader, hlenH, hlenD]
  exact congrArg (fun d => Outcome.packet ⟨_, _, d, _⟩) hdata

theorem Holds.receive_nil {q : PacketQueue} (h : Holds q []) (b : Buffers) :
    receive b q = (.refused, q) := by
  have hread : q.read PacketHeader.size = none := RingBuffer.read_eq_none (by
    rw [h]
    decide)
  simp only [receive, hread]

/-! ### Mailboxes of all instances -/

abbrev Boxes := Inst → Option Box

def Boxes.init : Boxes := fun _ => none

/-- Whether a packet is for an instance: in the mask, and not the sender's own. -/
def Addresses (p : Packet) (recvMask : U16) (i : Inst) : Prop :=
  recvMask.getLsbD i = true ∧ p.sender.val ≠ i.val

instance (p : Packet) (recvMask : U16) (i : Inst) : Decidable (Addresses p recvMask i) :=
  inferInstanceAs (Decidable (_ ∧ _))

def postTo (p : Packet) (recvMask : U16) (i : Inst) (b : Box) : Box :=
  if Addresses p recvMask i then b.post p p.totallen_le else b

/-- What a call does to the mailboxes. -/
def Boxes.deliver (boxes : Boxes) : Call → Boxes
  | .registerInstance inst =>
      match instOf inst with
      | none => boxes
      | some i => Function.update boxes i (some Mailbox.empty)
  | .unregisterInstance inst =>
      match instOf inst with
      | none => boxes
      | some i => Function.update boxes i none
  | .clear => fun i => (boxes i).map Mailbox.clear
  | .sendPacket header headerlen data datalen sender recvMask =>
      match packetOf header headerlen data datalen sender with
      | none => boxes
      | some p => fun i => (boxes i).map (postTo p recvMask i)
  | .recvPacket b receiver =>
      if ¬b.header ∧ ¬b.data then boxes
      else
        match instOf receiver with
        | none => boxes
        | some i => Function.update boxes i ((boxes i).map Mailbox.take)

/-- What a receiver stores: the oldest packet its mailbox holds. -/
def Boxes.outcome (boxes : Boxes) : Call → List Outcome
  | .recvPacket b receiver =>
      if ¬b.header ∧ ¬b.data then [.refused]
      else
        match (instOf receiver).bind fun i => (boxes i).bind fun box => box.held.head? with
        | none => [.refused]
        | some p => [.packet (p.stored b)]
  | _ => []

def Boxes.deliverAll (boxes : Boxes) (calls : List Call) : Boxes := calls.foldl Boxes.deliver boxes

def Boxes.outcomes (boxes : Boxes) : List Call → List Outcome
  | [] => []
  | c :: cs => boxes.outcome c ++ Boxes.outcomes (boxes.deliver c) cs

def State.Represents (s : State) (boxes : Boxes) : Prop :=
  ∀ i : Inst, s.instanceMask.getLsbD i = (boxes i).isSome ∧
    Option.Rel (fun q (b : Box) => Holds q b.held) (s.packetQueues i) (boxes i)

theorem State.Represents.init : PacketDispatcher.init.Represents Boxes.init := by
  intro i
  exact ⟨BitVec.getLsbD_zero, .none⟩

theorem State.Represents.setQueue {s : State} {boxes : Boxes} (h : s.Represents boxes) {i : Inst}
    {q : PacketQueue} {b : Box} (hi : (boxes i).isSome = true) (hq : Holds q b.held) :
    (s.setQueue i (some q)).Represents (Function.update boxes i (some b)) := by
  intro j
  obtain ⟨hmask, hrel⟩ := h j
  by_cases hj : j = i
  · subst hj
    simp only [State.setQueue, Function.update_self]
    exact ⟨hmask.trans hi, .some hq⟩
  · simp only [State.setQueue, Function.update_of_ne hj]
    exact ⟨hmask, hrel⟩

/-- A pass over the instances that treats each mailbox on its own. -/
theorem foldlM_represents {f : State → Inst → Option State} {g : Inst → Box → Box} {mask : U16}
    (hf : ∀ s boxes i, s.instanceMask = mask → s.Represents boxes →
      ∃ s', f s i = some s' ∧ s'.instanceMask = mask ∧
        s'.Represents (Function.update boxes i ((boxes i).map (g i))))
    {is : List Inst} (his : is.Nodup) {s : State} {boxes : Boxes} (hs : s.instanceMask = mask)
    (h : s.Represents boxes) :
    ∃ s', is.foldlM f s = some s' ∧ s'.instanceMask = mask ∧
      s'.Represents fun i => if i ∈ is then (boxes i).map (g i) else boxes i := by
  induction is generalizing s boxes with
  | nil => exact ⟨s, rfl, hs, by simpa using h⟩
  | cons i is ih =>
    obtain ⟨hnot, hnodup⟩ := List.nodup_cons.mp his
    obtain ⟨s₁, hstep, hs₁, h₁⟩ := hf s boxes i hs h
    obtain ⟨s₂, hrest, hs₂, h₂⟩ := ih hnodup hs₁ h₁
    refine ⟨s₂, ?_, hs₂, ?_⟩
    · rw [List.foldlM_cons, hstep]
      exact hrest
    · convert h₂ using 2 with j
      by_cases hj : j = i
      · subst hj
        simp [hnot]
      · simp [hj]

theorem State.Represents.caseAt {s : State} {boxes : Boxes} (h : s.Represents boxes) (i : Inst) :
    (s.instanceMask.getLsbD i = false ∧ s.packetQueues i = none ∧ boxes i = none) ∨
      ∃ q b, s.instanceMask.getLsbD i = true ∧ s.packetQueues i = some q ∧ boxes i = some b ∧
        Holds q b.held := by
  obtain ⟨hmask, hrel⟩ := h i
  rw [hmask]
  generalize s.packetQueues i = queue at hrel ⊢
  generalize boxes i = box at hrel ⊢
  cases hrel with
  | none => exact .inl ⟨rfl, rfl, rfl⟩
  | some hq => exact .inr ⟨_, _, rfl, rfl, rfl, hq⟩

theorem State.Represents.clearAt {s : State} {boxes : Boxes} (h : s.Represents boxes) (i : Inst) :
    ∃ s', s.clearAt i = some s' ∧ s'.instanceMask = s.instanceMask ∧
      s'.Represents (Function.update boxes i ((boxes i).map Mailbox.clear)) := by
  rcases h.caseAt i with ⟨hmask, -, hbox⟩ | ⟨q, b, hmask, hqueue, hbox, -⟩
  · refine ⟨s, ?_, rfl, ?_⟩
    · rw [State.clearAt, hmask, if_neg Bool.false_ne_true]
    · rwa [hbox, Option.map_none, ← hbox, Function.update_eq_self]
  · refine ⟨s.setQueue i (some RingBuffer.clear), ?_, rfl, ?_⟩
    · rw [State.clearAt, hmask, if_pos rfl, hqueue]
    · rw [hbox, Option.map_some]
      exact h.setQueue (by rw [hbox]; rfl) Holds.clear

theorem State.Represents.clear {s : State} {boxes : Boxes} (h : s.Represents boxes) :
    ∃ s', s.clear = some s' ∧ s'.Represents (boxes.deliver .clear) := by
  obtain ⟨s', hrun, -, h'⟩ := foldlM_represents (f := State.clearAt) (g := fun _ => Mailbox.clear)
    (fun s boxes i hs h => hs ▸ h.clearAt i) (List.nodup_finRange 16) rfl h
  simp only [List.mem_finRange, if_true] at h'
  exact ⟨s', hrun, h'⟩

theorem Holds.post {q : PacketQueue} {b : Box} (h : Holds q b.held) (p : Packet) :
    ∃ room, PacketDispatcher.makeRoomFor p.totallen q = some room ∧
      Holds (PacketDispatcher.enqueue p room) (b.post p p.totallen_le).held := by
  obtain ⟨room, hroom, hheld⟩ := h.makeRoomFor p.totallen_le
  exact ⟨room, hroom, hheld.enqueue (makeRoom_fits p.totallen_le _)⟩

theorem getLsbD_targets (s : State) (p : Packet) (recvMask : U16) (i : Inst) :
    (s.targets p recvMask).getLsbD i = true ↔
      Addresses p recvMask i ∧ s.instanceMask.getLsbD i = true := by
  have hi := i.isLt
  rw [State.targets, Addresses]
  split_ifs with hsender
  · simp [hi]
    tauto
  · have hne : p.sender.val ≠ i.val := by
      intro he
      exact hsender (by rw [Fin.lt_def, he]; exact hi)
    simp [hne]

theorem State.Represents.postAt {s : State} {boxes : Boxes} (h : s.Represents boxes) (p : Packet)
    {recvMask mask : U16} (i : Inst)
    (htargets : mask.getLsbD i = true ↔
      Addresses p recvMask i ∧ s.instanceMask.getLsbD i = true) :
    ∃ s', s.postAt p mask i = some s' ∧ s'.instanceMask = s.instanceMask ∧
      s'.Represents (Function.update boxes i ((boxes i).map (postTo p recvMask i))) := by
  rcases h.caseAt i with ⟨hmask, -, hbox⟩ | ⟨q, b, hmask, hqueue, hbox, hq⟩
  · have hnot : ¬mask.getLsbD i = true := fun hm => by
      rw [(htargets.mp hm).2] at hmask
      exact Bool.noConfusion hmask
    refine ⟨s, ?_, rfl, ?_⟩
    · rw [State.postAt, if_neg hnot]
    · rwa [hbox, Option.map_none, ← hbox, Function.update_eq_self]
  · have hiff : mask.getLsbD i = true ↔ Addresses p recvMask i := by
      rw [htargets, hmask]
      exact and_iff_left rfl
    rw [State.postAt, hbox, Option.map_some, postTo]
    by_cases ha : Addresses p recvMask i
    · obtain ⟨room, hroom, hheld⟩ := hq.post p
      refine ⟨s.setQueue i (some (enqueue p room)), ?_, rfl, ?_⟩
      · simp only [if_pos (hiff.mpr ha), hqueue, hroom]
      · rw [if_pos ha]
        exact h.setQueue (by rw [hbox]; rfl) hheld
    · refine ⟨s, ?_, rfl, ?_⟩
      · rw [if_neg (fun hm => ha (hiff.mp hm))]
      · rwa [if_neg ha, ← hbox, Function.update_eq_self]

theorem State.Represents.registerInstance {s : State} {boxes : Boxes} (h : s.Represents boxes)
    (inst : ℤ) : (s.registerInstance inst).Represents (boxes.deliver (.registerInstance inst)) := by
  simp only [State.registerInstance, Boxes.deliver]
  cases instOf inst with
  | none => exact h
  | some i =>
    intro j
    obtain ⟨hmask, hrel⟩ := h j
    by_cases hj : j = i
    · subst hj
      simp only [State.setQueue, Function.update_self, BitVec.getLsbD_or, getLsbD_bit]
      exact ⟨by simp [j.isLt], .some Holds.clear⟩
    · have hbit : (bit 16 i).getLsbD j = false := by simp [Fin.val_ne_of_ne (Ne.symm hj)]
      simp only [State.setQueue, Function.update_of_ne hj, BitVec.getLsbD_or, hbit, Bool.or_false]
      exact ⟨hmask, hrel⟩

theorem State.Represents.unregisterInstance {s : State} {boxes : Boxes} (h : s.Represents boxes)
    (inst : ℤ) :
    (s.unregisterInstance inst).Represents (boxes.deliver (.unregisterInstance inst)) := by
  simp only [State.unregisterInstance, Boxes.deliver]
  cases instOf inst with
  | none => exact h
  | some i =>
    intro j
    obtain ⟨hmask, hrel⟩ := h j
    by_cases hj : j = i
    · subst hj
      simp only [State.setQueue, Function.update_self, BitVec.getLsbD_and, BitVec.getLsbD_not,
        getLsbD_bit]
      exact ⟨by simp, .none⟩
    · have hbit : (bit 16 i).getLsbD j = false := by simp [Fin.val_ne_of_ne (Ne.symm hj)]
      simp only [State.setQueue, Function.update_of_ne hj, BitVec.getLsbD_and, BitVec.getLsbD_not,
        hbit, Bool.not_false, j.isLt, decide_true, Bool.and_true]
      exact ⟨hmask, hrel⟩

theorem State.Represents.sendPacket {s : State} {boxes : Boxes} (h : s.Represents boxes)
    (header : Option (ℕ → U8)) (headerlen : ℤ) (data : Option (ℕ → U8)) (datalen sender : ℤ)
    (recvMask : U16) :
    ∃ s', s.sendPacket header headerlen data datalen sender recvMask = some s' ∧
      s'.Represents (boxes.deliver (.sendPacket header headerlen data datalen sender recvMask)) := by
  simp only [State.sendPacket, Boxes.deliver]
  cases packetOf header headerlen data datalen sender with
  | none => exact ⟨s, rfl, h⟩
  | some p =>
    have hpass := foldlM_represents (f := State.postAt p (s.targets p recvMask))
      (g := postTo p recvMask)
      (fun s₁ boxes₁ i (hs₁ : s₁.instanceMask = s.instanceMask) h₁ => by
        have htargets := getLsbD_targets s p recvMask i
        rw [← hs₁] at htargets ⊢
        exact h₁.postAt p i htargets)
      (List.nodup_finRange 16) rfl h
    simp only [List.mem_finRange, if_true] at hpass
    obtain ⟨s', hrun, -, h'⟩ := hpass
    by_cases hzero : s.targets p recvMask = 0
    · -- nobody to post to: the loop would not have changed anything
      refine ⟨s, if_pos hzero, ?_⟩
      have hsame : ∀ i, (boxes i).map (postTo p recvMask i) = boxes i := by
        intro i
        have hnone := getLsbD_targets s p recvMask i
        simp only [hzero, BitVec.ofNat_eq_ofNat, BitVec.getLsbD_zero] at hnone
        rcases h.caseAt i with ⟨-, -, hbox⟩ | ⟨q, b, hmask, -, hbox, -⟩
        · rw [hbox, Option.map_none]
        · have hnot : ¬Addresses p recvMask i := fun ha => Bool.noConfusion (hnone.mpr ⟨ha, hmask⟩)
          rw [hbox, Option.map_some, postTo, if_neg hnot]
      simpa only [hsame] using h
    · exact ⟨s', by simp only [if_neg hzero, hrun], h'⟩

theorem State.Represents.recvPacket {s : State} {boxes : Boxes} (h : s.Represents boxes)
    (b : Buffers) (receiver : ℤ) :
    [(s.recvPacket b receiver).1] = boxes.outcome (.recvPacket b receiver) ∧
      (s.recvPacket b receiver).2.Represents (boxes.deliver (.recvPacket b receiver)) := by
  simp only [State.recvPacket, Boxes.deliver, Boxes.outcome]
  by_cases hnull : ¬b.header = true ∧ ¬b.data = true
  · simp only [if_pos hnull]
    exact ⟨trivial, h⟩
  · simp only [if_neg hnull]
    cases instOf receiver with
    | none => exact ⟨rfl, h⟩
    | some i =>
      rcases h.caseAt i with ⟨-, hqueue, hbox⟩ | ⟨q, box, -, hqueue, hbox, hq⟩
      · simp only [hqueue, hbox, Option.bind_some, Option.bind_none, Option.map_none]
        refine ⟨trivial, ?_⟩
        rwa [← hbox, Function.update_eq_self]
      · have hsome : (boxes i).isSome = true := by rw [hbox]; rfl
        simp only [hqueue, hbox, Option.bind_some, Option.map_some]
        cases hheld : box.held with
        | nil =>
          rw [hheld] at hq
          rw [hq.receive_nil]
          have htake : Holds q box.take.held := by
            change Holds q box.held.tail
            rwa [hheld]
          exact ⟨rfl, h.setQueue hsome htake⟩
        | cons p ps =>
          rw [hheld] at hq
          obtain ⟨hout, hrest⟩ := hq.receive_cons b
          have htake : Holds (receive b q).2 box.take.held := by
            change Holds _ box.held.tail
            rwa [hheld]
          rw [hout]
          exact ⟨rfl, h.setQueue hsome htake⟩

/-- One call on rings does what it does on mailboxes. -/
theorem State.Represents.step {s : State} {boxes : Boxes} (h : s.Represents boxes) (c : Call) :
    ∃ s', s.step c = some (boxes.outcome c, s') ∧ s'.Represents (boxes.deliver c) := by
  cases c with
  | registerInstance inst => exact ⟨_, rfl, h.registerInstance inst⟩
  | unregisterInstance inst => exact ⟨_, rfl, h.unregisterInstance inst⟩
  | clear =>
    obtain ⟨s', hrun, h'⟩ := h.clear
    exact ⟨s', by rw [State.step, hrun]; rfl, h'⟩
  | sendPacket header headerlen data datalen sender recvMask =>
    obtain ⟨s', hrun, h'⟩ := h.sendPacket header headerlen data datalen sender recvMask
    exact ⟨s', by rw [State.step, hrun]; rfl, h'⟩
  | recvPacket b receiver =>
    obtain ⟨hout, h'⟩ := h.recvPacket b receiver
    exact ⟨_, by rw [State.step, hout], h'⟩

theorem State.Represents.runFrom {s : State} {boxes : Boxes} (h : s.Represents boxes)
    (calls : List Call) :
    ∃ s', s.runFrom calls = some (boxes.outcomes calls, s') ∧
      s'.Represents (boxes.deliverAll calls) := by
  induction calls generalizing s boxes with
  | nil => exact ⟨s, rfl, h⟩
  | cons c cs ih =>
    obtain ⟨s₁, hstep, h₁⟩ := h.step c
    obtain ⟨s₂, hrest, h₂⟩ := ih h₁
    refine ⟨s₂, ?_, h₂⟩
    rw [State.runFrom, hstep]
    simp only [hrest, Option.map_some, Boxes.outcomes]

theorem Boxes.outcome_ne_badMagic (boxes : Boxes) (c : Call) : .badMagic ∉ boxes.outcome c := by
  cases c with
  | recvPacket b receiver =>
    rw [Boxes.outcome]
    split
    · simp
    · split <;> simp
  | _ => simp [Boxes.outcome]

theorem Boxes.outcomes_ne_badMagic (boxes : Boxes) (calls : List Call) :
    .badMagic ∉ boxes.outcomes calls := by
  induction calls generalizing boxes with
  | nil => exact List.not_mem_nil
  | cons c cs ih =>
    rw [Boxes.outcomes, List.mem_append]
    exact not_or.mpr ⟨boxes.outcome_ne_badMagic c, ih _⟩

/-- Every sequence of calls runs to its end, returns what mailboxes return, and
leaves each registered instance the ring its mailbox reads as. -/
theorem run_delivers (calls : List Call) :
    ∃ s, run calls = some (Boxes.init.outcomes calls, s) ∧
      .badMagic ∉ Boxes.init.outcomes calls ∧
      ∀ i : Inst,
        (s.instanceMask.getLsbD i = true ↔ (s.packetQueues i).isSome = true) ∧
        Option.Rel (fun q (b : Box) =>
            q.contents = b.held.flatMap Packet.bytes ∧ (b.received ++ b.held).Sublist b.sent ∧
            ∀ p : Packet, ∃ k, (b.post p p.totallen_le).held = b.held.drop k ++ [p] ∧
              ∀ j < k, 0x8000 < totalSize Packet.totallen (b.held.drop j) + p.totallen)
          (s.packetQueues i) (Boxes.init.deliverAll calls i) := by
  obtain ⟨s, hrun, h⟩ := State.Represents.init.runFrom calls
  refine ⟨s, hrun, Boxes.outcomes_ne_badMagic _ _, fun i => ?_⟩
  rcases h.caseAt i with ⟨hmask, hqueue, hbox⟩ | ⟨q, b, hmask, hqueue, hbox, hq⟩
  · rw [hmask, hqueue, hbox]
    exact ⟨by simp, .none⟩
  · rw [hmask, hqueue, hbox]
    refine ⟨by simp, .some ⟨hq, b.selected, fun p => ?_⟩⟩
    obtain ⟨k, hdrop, hfull⟩ := makeRoom_eq_drop Packet.totallen 0x8000 p.totallen b.held
    exact ⟨k, congrArg (· ++ [p]) hdrop, hfull⟩

end MelonDS.PacketDispatcher
