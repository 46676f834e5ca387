import MelonDS.Net.LocalMP

/-!
# Consistency of the queues

Every step keeps, for each reader, the records posted to it in line with the ring
behind its cursor, and settles at most the oldest of them or all at once.
-/

namespace MelonDS.LocalMP
namespace State

structure Consistent (s : State) : Prop where
  follows : ∀ fifo i,
    (s.reader fifo i).Follows fifo i (s.queue fifo i) (s.reads fifo i)
  allocated : ∀ i, s.active i = true → s.replyAllocated i = true
  warnings : s.warnings = 0

/-- Who gets the record a step sends. -/
inductive Posting (a : Action) (s t : State) : Prop
  | none (h : ∀ fifo i, (t.reader fifo i).sentTo = (s.reader fifo i).sentTo)
  | all (r : Record) (hr : a.Sends r) (h : ∀ fifo i, (t.reader fifo i).sentTo =
      if fifo = .packets ∧ s.connected i = true then (s.reader fifo i).sentTo ++ [r]
      else (s.reader fifo i).sentTo)
  | host (r : Record) (hr : a.Sends r) (destination : Inst)
      (hd : s.findReplyHost r.sender r.payload = some destination)
      (h : ∀ fifo i, (t.reader fifo i).sentTo =
        if fifo = .replies ∧ i = destination then (s.reader fifo i).sentTo ++ [r]
        else (s.reader fifo i).sentTo)

structure Keeps (a : Action) (s t : State) : Prop where
  consistent : t.Consistent
  progress : ∀ fifo i, (s.reader fifo i).Progress (t.reader fifo i)
  posting : s.Posting a t

variable {s : State}

theorem Keeps.same (hs : s.Consistent) (a : Action) : s.Keeps a s :=
  ⟨hs, fun _ _ => .none rfl, .none fun _ _ => rfl⟩

@[simp] theorem modify_reader_self (fifo : Fifo) (inst : Inst) (g : Reader → Reader) :
    (s.modify fifo inst g).reader fifo inst = g (s.reader fifo inst) :=
  if_pos ⟨rfl, rfl⟩

theorem modify_reader_of_ne {fifo f : Fifo} {inst i : Inst} (h : ¬(f = fifo ∧ i = inst))
    (g : Reader → Reader) : (s.modify fifo inst g).reader f i = s.reader f i :=
  if_neg h

/-- A step that works on one reader only. -/
theorem Keeps.modify (hs : s.Consistent) (a : Action) (fifo : Fifo) (inst : Inst)
    (g : Reader → Reader) {t : State} (ht : t.reader = (s.modify fifo inst g).reader) (hq : t.queue = s.queue)
    (hreads : t.reads = s.reads) (halloc : t.replyAllocated = s.replyAllocated)
    (hactive : t.active = s.active) (hwarn : t.warnings = 0)
    (hf : (g (s.reader fifo inst)).Follows fifo inst (s.queue fifo inst) (s.reads fifo inst))
    (hp : (s.reader fifo inst).Progress (g (s.reader fifo inst)))
    (hsent : (g (s.reader fifo inst)).sentTo = (s.reader fifo inst).sentTo) : s.Keeps a t := by
  refine ⟨⟨?_, ?_, hwarn⟩, ?_, .none ?_⟩
  · intro f i
    rw [ht, hq, hreads]
    by_cases h : f = fifo ∧ i = inst
    · rw [h.1, h.2, modify_reader_self]
      exact hf
    · rw [modify_reader_of_ne h]
      exact hs.follows f i
  · rw [hactive, halloc]
    exact hs.allocated
  · intro f i
    rw [ht]
    by_cases h : f = fifo ∧ i = inst
    · rw [h.1, h.2, modify_reader_self]
      exact hp
    · rw [modify_reader_of_ne h]
      exact .none rfl
  · intro f i
    rw [ht]
    by_cases h : f = fifo ∧ i = inst
    · rw [h.1, h.2, modify_reader_self]
      exact hsent
    · rw [modify_reader_of_ne h]

theorem enter_resetFIFO_keeps (hs : s.Consistent) (a : Action) (fifo : Fifo) (inst : Inst) :
    s.Keeps a (s.modify fifo inst (·.enter.resetFIFO (s.queue fifo inst))) := by
  have hf := (hs.follows fifo inst).resetFIFO (y := (s.reader fifo inst).enter) rfl rfl
    (s.queue fifo inst) (s.reads fifo inst)
  exact .modify hs a fifo inst _ rfl rfl rfl rfl rfl hs.warnings hf (.backlog rfl) rfl

theorem tryWait_keeps (hs : s.Consistent) (a : Action) (fifo : Fifo) (inst : Inst) :
    s.Keeps a (s.tryWait fifo inst) := by
  rw [tryWait]
  split_ifs with hzero
  · exact .same hs a
  · exact .modify hs a fifo inst _ rfl rfl rfl rfl rfl hs.warnings
      ((hs.follows fifo inst).take (Nat.pos_of_ne_zero hzero)) (.none rfl) rfl

theorem recvPacketGeneric_keeps (hs : s.Consistent) (a : Action) (inst : Inst) (capacity : ℕ) :
    s.Keeps a (s.recvPacketGeneric inst capacity) := by
  simp only [recvPacketGeneric]
  by_cases hcall : capacity = 0 ∨ (s.reader .packets inst).permits = 0
  · rw [if_pos hcall]
    exact .same hs a
  rw [if_neg hcall]
  by_cases hempty : ¬s.connected inst = true ∨
      (s.reader .packets inst).readOffset = s.packetQueue.writeOffset
  · rw [if_pos hempty]
    exact enter_resetFIFO_keeps hs a .packets inst
  rw [if_neg hempty]
  rw [not_or] at hcall hempty
  have hreads : s.reads .packets inst = true := not_not.mp hempty.1
  have hfollows := hs.follows .packets inst
  rw [hreads] at hfollows
  obtain ⟨hf, hvalid, hp, hsent⟩ := hfollows.receive (Nat.pos_of_ne_zero hcall.2) hempty.2
    (Reader.packetVerdict_accepts inst) capacity
  rw [← hreads] at hf
  refine .modify hs a .packets inst (fun _ => _) rfl rfl rfl rfl rfl ?_ hf hp hsent
  change s.warnings + (if _ then 1 else 0) = 0
  exact (if_neg hvalid).symm ▸ hs.warnings

theorem recvReplies_keeps (hs : s.Consistent) (a : Action) (inst : Inst) (timestamp : U64) :
    s.Keeps a (s.recvReplies inst timestamp) := by
  simp only [recvReplies]
  by_cases hcall : (s.reader .replies inst).permits = 0
  · rw [if_pos hcall]
    exact .same hs a
  rw [if_neg hcall]
  by_cases hempty : ¬s.active inst = true ∨
      (s.reader .replies inst).readOffset = (s.replyQueue inst).writeOffset
  · rw [if_pos hempty]
    exact enter_resetFIFO_keeps hs a .replies inst
  rw [if_neg hempty]
  rw [not_or] at hempty
  obtain ⟨hf, hvalid, hp, hsent⟩ := (hs.follows .replies inst).receive
    (Nat.pos_of_ne_zero hcall) hempty.2 (Reader.replyVerdict_accepts inst timestamp) 1024
  refine .modify hs a .replies inst (fun _ => _) rfl rfl rfl rfl rfl ?_ hf hp hsent
  change s.warnings + (if _ then 1 else 0) = 0
  exact (if_neg hvalid).symm ▸ hs.warnings

theorem getLsbD_set (mask : U16) (inst i : Inst) :
    (mask ||| bit 16 inst).getLsbD i = (mask.getLsbD i || decide (i = inst)) := by
  rw [BitVec.getLsbD_or, getLsbD_bit]
  simp [Fin.ext_iff, eq_comm, i.isLt]

theorem getLsbD_clear (mask : U16) (inst i : Inst) :
    (mask &&& ~~~bit 16 inst).getLsbD i = (mask.getLsbD i && !decide (i = inst)) := by
  rw [BitVec.getLsbD_and, BitVec.getLsbD_not, getLsbD_bit]
  simp [Fin.ext_iff, eq_comm, i.isLt]

/-- `Begin` and `End`: both readers of an instance start over, and only its own
connection may change. -/
theorem Keeps.restart (hs : s.Consistent) (a : Action) {t : State} {inst : Inst}
    (ht : t.reader = ((s.resetFIFO inst .packets).resetFIFO inst .replies).reader)
    (hq : t.queue = s.queue) (hreads : ∀ fifo i, i ≠ inst → t.reads fifo i = s.reads fifo i)
    (halloc : t.replyAllocated = s.replyAllocated)
    (hactive : ∀ i, t.active i = true → s.active i = true) (hwarn : t.warnings = s.warnings) :
    s.Keeps a t := by
  have hreader : ∀ fifo i, t.reader fifo i =
      if i = inst then (s.reader fifo i).resetFIFO (s.queue fifo i) else s.reader fifo i := by
    intro fifo i
    rw [ht]
    by_cases h : i = inst
    · subst h
      cases fifo <;> simp [resetFIFO, State.modify, queue]
    · simp [resetFIFO, State.modify, h]
  refine ⟨⟨?_, ?_, hwarn.trans hs.warnings⟩, ?_, .none ?_⟩
  · intro fifo i
    rw [hreader, hq]
    split_ifs with h
    · exact (hs.follows fifo i).resetFIFO rfl rfl _ _
    · rw [hreads fifo i h]
      exact hs.follows fifo i
  · intro i hi
    rw [halloc]
    exact hs.allocated i (hactive i hi)
  · intro fifo i
    rw [hreader]
    split_ifs
    · exact .backlog rfl
    · exact .none rfl
  · intro fifo i
    rw [hreader]
    split_ifs <;> rfl

theorem beginMP_keeps (hs : s.Consistent) (a : Action) (inst : Inst) :
    s.Keeps a (s.beginMP inst) := by
  refine .restart hs a rfl (by funext fifo; cases fifo <;> rfl) ?_ rfl ?_ rfl
  · intro fifo i hi
    cases fifo with
    | packets =>
      change (s.connectedBitmask ||| bit 16 inst).getLsbD i = s.connected i
      rw [getLsbD_set, decide_eq_false hi, Bool.or_false, connected]
    | replies => rfl
  · intro i hi
    change (s.activeHosts &&& ~~~bit 16 inst).getLsbD i = true at hi
    rw [getLsbD_clear] at hi
    exact (Bool.and_eq_true_iff.mp hi).1

theorem endMP_keeps (hs : s.Consistent) (a : Action) (inst : Inst) : s.Keeps a (s.endMP inst) := by
  refine .restart hs a rfl (by funext fifo; cases fifo <;> rfl) ?_ rfl ?_ rfl
  · intro fifo i hi
    cases fifo with
    | packets =>
      change (s.connectedBitmask &&& ~~~bit 16 inst).getLsbD i = s.connected i
      rw [getLsbD_clear, decide_eq_false hi, Bool.not_false, Bool.and_true, connected]
    | replies => rfl
  · intro i hi
    change (s.activeHosts &&& ~~~bit 16 inst).getLsbD i = true at hi
    rw [getLsbD_clear] at hi
    exact (Bool.and_eq_true_iff.mp hi).1

end State

theorem length_record_lt (r : Record) :
    MPPacketHeader.size + r.payload.length < kPacketQueueSize := by
  have hle := r.length_le
  rw [kMaxFrameSize] at hle
  rw [MPPacketHeader.size, kPacketQueueSize]
  omega

theorem unread_writeRecord {q : Queue} {read : ℕ} (hr : read < kPacketQueueSize) (r : Record)
    (hroom : q.used read + (MPPacketHeader.size + r.payload.length) < kPacketQueueSize) :
    (writeRecord q r).unread read = q.unread read ++ r.bytes := by
  have hheader : r.header.encode.length ≤ kPacketQueueSize := by
    rw [MPPacketHeader.length_encode]
    decide
  have hfirst := q.unread_write hr hheader (by
    rw [MPPacketHeader.length_encode]
    omega)
  have hused : (q.write r.header.encode hheader).used read = q.used read + MPPacketHeader.size := by
    rw [← Ring.length_unread, hfirst, List.length_append, q.length_unread,
      MPPacketHeader.length_encode]
  have hsecond := (q.write r.header.encode hheader).unread_write hr
    (r.length_le.trans (by decide)) (by
      rw [hused]
      omega)
  rw [hfirst, List.append_assoc] at hsecond
  exact hsecond

/-- Making room, writing the record, posting it. -/
theorem Reader.Follows.send {x : Reader} {fifo : Fifo} {me : Inst} {q : Queue}
    (hf : x.Follows fifo me q true) {r : Record} (hr : r.For fifo) :
    ((x.makeRoom q (MPPacketHeader.size + r.payload.length)).post r).Follows fifo me
      (writeRecord q r) true := by
  obtain ⟨hmade, hroom⟩ := hf.makeRoom (length_record_lt r)
  exact hmade.post hr (unread_writeRecord hmade.readOffset_lt r hroom)

theorem Reader.Progress.post {x y : Reader} (h : x.Progress y) (r : Record) :
    x.Progress (y.post r) := by
  cases h with
  | none h => exact .none h
  | one fate hd h => exact .one fate hd h
  | backlog h => exact .backlog h

namespace State

variable {s : State}

theorem sendToAll_keeps (hs : s.Consistent) {a : Action} {r : Record} (ha : a.Sends r)
    (hr : r.For .packets) : s.Keeps a (s.sendToAll r) := by
  refine ⟨⟨?_, hs.allocated, hs.warnings⟩, ?_, .all r ha ?_⟩
  · intro fifo i
    cases fifo with
    | replies => exact hs.follows .replies i
    | packets =>
      have hf := hs.follows .packets i
      change (if Fifo.packets = .packets ∧ s.connected i = true then _ else _ : Reader).Follows
        .packets i (writeRecord s.packetQueue r) (s.connected i)
      change (s.reader .packets i).Follows .packets i s.packetQueue (s.connected i) at hf
      cases hc : s.connected i with
      | true =>
        rw [hc] at hf
        rw [if_pos ⟨rfl, rfl⟩]
        exact hf.send hr
      | false =>
        rw [hc] at hf
        rw [if_neg (fun h => absurd h.2 Bool.false_ne_true)]
        exact hf.of_not_reads _
  · intro fifo i
    simp only [sendToAll]
    split_ifs
    · exact (Reader.makeRoom_progress _ _ _).post r
    · exact .none rfl
  · intro fifo i
    simp only [sendToAll]
    split_ifs
    · exact congrArg (· ++ [r]) (Reader.makeRoom_sentTo _)
    · rfl

theorem sendToHost_keeps (hs : s.Consistent) {a : Action} {r : Record} (ha : a.Sends r)
    (hr : r.For .replies) {destination : Inst}
    (hd : s.findReplyHost r.sender r.payload = some destination) :
    s.Keeps a (s.sendToHost destination r) := by
  refine ⟨⟨?_, hs.allocated, hs.warnings⟩, ?_, .host r ha destination hd ?_⟩
  · intro fifo i
    have hf := hs.follows fifo i
    simp only [sendToHost, State.modify]
    by_cases h : fifo = .replies ∧ i = destination
    · rw [if_pos h]
      obtain ⟨rfl, rfl⟩ := h
      have hsend := Reader.Follows.send hf hr
      change Reader.Follows _ .replies i (Function.update s.replyQueue i _ i) true
      rw [Function.update_self]
      exact hsend
    · rw [if_neg h]
      cases fifo with
      | packets => exact hf
      | replies =>
        have hne : i ≠ destination := fun hi => h ⟨rfl, hi⟩
        change Reader.Follows _ .replies i (Function.update s.replyQueue destination _ i) true
        rw [Function.update_of_ne hne]
        exact hf
  · intro fifo i
    simp only [sendToHost, State.modify]
    split_ifs
    · exact (Reader.makeRoom_progress _ _ _).post r
    · exact .none rfl
  · intro fifo i
    simp only [sendToHost, State.modify]
    split_ifs
    · exact congrArg (· ++ [r]) (Reader.makeRoom_sentTo _)
    · rfl

/-- A command, having gone to everybody, only starts its sender's reply ring over. -/
theorem Keeps.becomeHost {a : Action} {t : State} (h : s.Keeps a t)
    (hreply : ∀ i, t.reader .replies i = s.reader .replies i) (inst : Inst) (packet : List U8) :
    s.Keeps a (t.becomeHost inst packet) := by
  have hreader : ∀ fifo i, (t.becomeHost inst packet).reader fifo i =
      if fifo = .replies ∧ i = inst then (t.reader fifo i).resetFIFO (t.queue .replies inst)
      else t.reader fifo i := fun _ _ => rfl
  have hsent : ∀ fifo i, ((t.becomeHost inst packet).reader fifo i).sentTo =
      (t.reader fifo i).sentTo := by
    intro fifo i
    rw [hreader]
    split_ifs <;> rfl
  refine ⟨⟨?_, ?_, h.consistent.warnings⟩, ?_, ?_⟩
  · intro fifo i
    have hf := h.consistent.follows fifo i
    rw [hreader]
    by_cases hi : fifo = .replies ∧ i = inst
    · rw [if_pos hi]
      obtain ⟨rfl, rfl⟩ := hi
      exact hf.resetFIFO rfl rfl _ _
    · rw [if_neg hi]
      cases fifo <;> exact hf
  · intro i hi
    change (t.activeHosts ||| bit 16 inst).getLsbD i = true at hi
    change Function.update t.replyAllocated inst true i = true
    by_cases hne : i = inst
    · rw [hne, Function.update_self]
    · rw [Function.update_of_ne hne]
      rw [getLsbD_set, decide_eq_false hne, Bool.or_false] at hi
      exact h.consistent.allocated i hi
  · intro fifo i
    rw [hreader]
    split_ifs with hi
    · rw [hi.1, hreply]
      exact .backlog rfl
    · exact h.progress fifo i
  · cases h.posting with
    | none hp => exact .none fun fifo i => (hsent fifo i).trans (hp fifo i)
    | all r hr hp => exact .all r hr fun fifo i => (hsent fifo i).trans (hp fifo i)
    | host r hr d hd hp => exact .host r hr d hd fun fifo i => (hsent fifo i).trans (hp fifo i)

/-- What the checks of `SendPacketGeneric` let through belongs in its queue. -/
theorem record_for (r : Record)
    (h : ¬(r.type &&& 0xFFFF > 3 ∨ (if r.type &&& 0xFFFF = 2 then
      r.type >>> 16 > 15 ∨ (r.type >>> 16 = 0 ∧ r.payload ≠ []) else r.type >>> 16 ≠ 0))) :
    if r.type &&& 0xFFFF = 2 then r.For .replies else r.For .packets := by
  rw [not_or] at h
  split_ifs at h ⊢ with hkind
  · rw [not_or, not_and, not_not] at h
    exact ⟨hkind, BitVec.not_lt.mp h.2.1, h.2.2⟩
  · obtain ⟨hle, hsame⟩ := le_three_of_kind (BitVec.not_lt.mp h.1) (not_not.mp h.2)
    exact ⟨hle, hsame ▸ hkind⟩

theorem sendPacketGeneric_keeps (hs : s.Consistent) (inst : Inst) (type : U32) (packet : List U8)
    (timestamp : U64) (allocated : Bool) :
    s.Keeps (.send inst type packet timestamp allocated)
      (s.sendPacketGeneric inst type packet timestamp allocated) := by
  simp only [sendPacketGeneric]
  by_cases hcheck : type &&& 0xFFFF > 3 ∨ (if type &&& 0xFFFF = 2 then
      type >>> 16 > 15 ∨ (type >>> 16 = 0 ∧ packet ≠ []) else type >>> 16 ≠ 0)
  · rw [if_pos hcheck]
    exact .same hs _
  rw [if_neg hcheck]
  by_cases hlen : packet.length > kMaxFrameSize
  · rw [dif_pos hlen]
    exact .same hs _
  rw [dif_neg hlen]
  let r : Record := ⟨inst, type, packet, timestamp, Nat.not_lt.mp hlen⟩
  have hsends : (Action.send inst type packet timestamp allocated).Sends r := ⟨rfl, rfl, rfl, rfl⟩
  have hfor := record_for r hcheck
  split_ifs with hconnected hkind hcmd hring
  · rw [if_pos hkind] at hfor
    split
    · exact .same hs _
    · exact sendToHost_keeps hs hsends hfor ‹_›
  · exact .same hs _
  · rw [if_neg hkind] at hfor
    exact (sendToAll_keeps hs hsends hfor).becomeHost (fun _ => rfl) inst packet
  · rw [if_neg hkind] at hfor
    exact sendToAll_keeps hs hsends hfor
  · exact .same hs _

theorem step_keeps (hs : s.Consistent) (a : Action) : s.Keeps a (s.step a) := by
  cases a with
  | beginMP inst => exact beginMP_keeps hs _ inst
  | endMP inst => exact endMP_keeps hs _ inst
  | send inst type packet timestamp allocated =>
    exact sendPacketGeneric_keeps hs inst type packet timestamp allocated
  | tryWait fifo inst => exact tryWait_keeps hs _ fifo inst
  | recvPacket inst capacity => exact recvPacketGeneric_keeps hs _ inst capacity
  | recvReplies inst timestamp => exact recvReplies_keeps hs _ inst timestamp

theorem init_consistent : init.Consistent := by
  refine ⟨?_, ?_, rfl⟩
  · intro fifo i
    have hunread : (init.queue fifo i).unread 0 = [] := by
      cases fifo <;> exact emptyQueue.unread_self
    exact ⟨Nat.succ_pos _, nofun, [], [], rfl, .nil, fun _ => hunread, fun _ => rfl, Nat.zero_le _⟩
  · intro i hi
    exact absurd hi (ne_of_eq_of_ne BitVec.getLsbD_zero Bool.false_ne_true)

end State

theorem run_concat (acts : List Action) (a : Action) : run (acts ++ [a]) = (run acts).step a := by
  rw [run, List.foldl_append]
  rfl

theorem run_invariant (acts : List Action) : (run acts).Consistent := by
  induction acts using List.reverseRecOn with
  | nil => exact State.init_consistent
  | append_singleton acts a ih =>
    rw [run_concat]
    exact (State.step_keeps ih a).consistent

end MelonDS.LocalMP
