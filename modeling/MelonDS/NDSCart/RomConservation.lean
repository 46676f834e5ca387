import MelonDS.Library.Trace
import MelonDS.Library.Queues
import MelonDS.NDSCart.RomTransfer

/-!
# Words on the ROM bus

A transfer whose data accesses all answer a request loses no word and repeats none: the CPU
and the cart see the same words in the same order. Each phase of a transfer is described by
the words that have passed the cart, those that have passed the CPU, and the number of steps
that have moved the transfer on.
-/

namespace MelonDS.NDSCart

/-- The call that takes a word from the cart or brings it one. -/
def wordCall (write : Bool) (n : ARM.Num) (word : U32) : SlotCall :=
  if write then .romCommandTransmit n word else .romCommandReceive n word

/-- What the slot does at the end of a transfer. -/
def endCalls (n : ARM.Num) (irq : Bool) : List SlotCall :=
  .romCommandFinish n :: if irq then [.transferIRQ n] else []

namespace ROMOp

variable {C : Type*}

/-- A data access answers a request. -/
def Requested (n : ARM.Num) (s : Slot C) : ROMOp → Prop
  | .event _ => True
  | .readData _ | .writeData _ _ _ => (s.interfaces n).dataRequest

instance (n : ARM.Num) (s : Slot C) : DecidablePred (Requested n s)
  | .event _ => inferInstanceAs (Decidable True)
  | .readData _ | .writeData _ _ _ => inferInstanceAs (Decidable (_ = true))

variable [VirtualCart C]

/-- The word that an access brings to the CPU, or takes from it. -/
def cpuWords (n : ARM.Num) (s : Slot C) : ROMOp → List U32
  | .readData time => if (s.interfaces n).writes then [] else [(s.readROMData n time).1]
  | .writeData _ val mask =>
    if (s.interfaces n).writes ∧ Interface.advances mask then
      [(s.interfaces n).mergedWord val mask]
    else []
  | .event _ => []

/-- The operation moves the transfer on. -/
def steps (n : ARM.Num) (s : Slot C) : ROMOp → ℕ
  | .event _ => if (s.interfaces n).romEvent.isSome then 1 else 0
  | .readData time => ((ROMOp.readData time).cpuWords n s).length
  | .writeData time val mask => ((ROMOp.writeData time val mask).cpuWords n s).length

end ROMOp

/-! ## Registers -/

namespace Interface

theorem raiseDRQ_bits (i : Interface) :
    i.raiseDRQ.dataRequest ∧ i.raiseDRQ.busy = i.busy ∧ i.raiseDRQ.writes = i.writes := by
  simp [raiseDRQ, dataRequest, busy, writes]

theorem clearDRQ_bits (i : Interface) :
    i.clearDRQ.dataRequest = false ∧ i.clearDRQ.busy = i.busy ∧
      i.clearDRQ.writes = i.writes := by
  simp [clearDRQ, dataRequest, busy, writes]

theorem endTransfer_bits (i : Interface) :
    i.endTransfer.busy = false ∧ i.endTransfer.dataRequest = i.dataRequest := by
  simp [endTransfer, dataRequest, busy]

theorem setROMCnt_bits (val mask : U32) (i : Interface) :
    ((val &&& mask).getLsbD 31 → (i.setROMCnt val mask).busy) ∧
      (i.setROMCnt val mask).dataRequest = i.dataRequest := by
  refine ⟨fun hset => ?_, by simp [setROMCnt, dataRequest]⟩
  simp only [setROMCnt, busy, BitVec.getLsbD_or, BitVec.getLsbD_and] at hset ⊢
  rw [hset]
  exact Bool.or_true _

theorem scheduleROM_event {i : Interface} (h : i.romEvent = none) (event : ROMEvent) (time : ℕ) :
    (i.scheduleROM event time).romEvent = some (event, time) := by
  rw [scheduleROM, h]
  rfl

/-- A read waits for its first word; a write requests it at once. -/
theorem startTransfer_fields {i : Interface} (hevent : i.romEvent = none) (time : ℕ) :
    (i.startTransfer time).romTransferLen = i.romTransferLen ∧
      (i.startTransfer time).romTransferPos = i.romTransferPos ∧
      (i.startTransfer time).romDataPosCPU = false ∧
      (i.startTransfer time).romDataPosCart = false ∧
      (i.startTransfer time).romDataCount = 0 ∧ (i.startTransfer time).romDataLate = false ∧
      (i.startTransfer time).romCnt = (if i.writes then i.raiseDRQ.romCnt else i.romCnt) ∧
      ∃ time', (i.startTransfer time).romEvent = some
        (if i.romTransferLen = 0 then .end else if i.writes then .sendData else .receiveData,
          time') := by
  rw [startTransfer]
  cases i.writes with
  | false =>
    rw [if_pos rfl]
    by_cases hlen : i.romTransferLen = 0
    · rw [if_pos hlen, if_pos hlen]
      exact ⟨rfl, rfl, rfl, rfl, rfl, rfl, rfl, _,
        scheduleROM_event (i := i.resetFIFO) hevent ..⟩
    · rw [if_neg hlen, if_neg hlen]
      exact ⟨rfl, rfl, rfl, rfl, rfl, rfl, rfl, _,
        scheduleROM_event (i := i.resetFIFO) hevent ..⟩
  | true =>
    rw [if_neg Bool.true_eq_false.mp]
    by_cases hlen : i.romTransferLen = 0
    · rw [if_pos hlen, if_pos hlen]
      exact ⟨rfl, rfl, rfl, rfl, rfl, rfl, rfl, _,
        scheduleROM_event (i := i.resetFIFO.raiseDRQ) hevent ..⟩
    · rw [if_neg hlen, if_neg hlen]
      exact ⟨rfl, rfl, rfl, rfl, rfl, rfl, rfl, _,
        scheduleROM_event (i := i.resetFIFO.raiseDRQ) hevent ..⟩

theorem four_dvd_dataSize (i : Interface) : 4 ∣ i.dataSize := by
  rw [dataSize]
  split_ifs
  · exact dvd_refl 4
  · exact dvd_mul_of_dvd_left (by decide) _
  · omega

theorem romAdvanceReceive_more {i : Interface} (h : i.romTransferPos < i.romTransferLen)
    (time : ℕ) : ∃ time', i.romAdvanceReceive time = i.scheduleROM .receiveData time' := by
  rw [romAdvanceReceive, if_neg (not_le.mpr h)]
  exact ⟨_, rfl⟩

/-- What a word from the cart changes, whatever comes next. -/
theorem receiveWord_fields (data : U32) (time : ℕ) (i : Interface) :
    (i.receiveWord data time).romCnt = i.raiseDRQ.romCnt ∧
      (i.receiveWord data time).romTransferLen = i.romTransferLen ∧
      (i.receiveWord data time).romTransferPos = i.romTransferPos + 4 ∧
      (i.receiveWord data time).romData = Function.update i.romData i.romDataPosCart data ∧
      (i.receiveWord data time).romDataPosCPU = i.romDataPosCPU ∧
      (i.receiveWord data time).romDataPosCart = !i.romDataPosCart ∧
      (i.receiveWord data time).romDataCount = i.romDataCount + 1 := by
  rw [receiveWord, romAdvanceReceive]
  dsimp only
  split
  · split <;> exact ⟨rfl, rfl, rfl, rfl, rfl, rfl, rfl⟩
  · exact ⟨rfl, rfl, rfl, rfl, rfl, rfl, rfl⟩

/-- The next word is fetched when there is one and the FIFO has a place for it. -/
theorem receiveWord_next {i : Interface} (hevent : i.romEvent = none) (data : U32) (time : ℕ) :
    if i.romDataCount = 0 ∧ i.romTransferPos + 4 < i.romTransferLen then
      (∃ time', (i.receiveWord data time).romEvent = some (.receiveData, time')) ∧
        (i.receiveWord data time).romDataLate = i.romDataLate
    else
      (i.receiveWord data time).romEvent = none ∧
        (i.romDataCount ≠ 0 → (i.receiveWord data time).romDataLate) := by
  rw [receiveWord]
  by_cases hcount : i.romDataCount = 0
  · have hroom : (i.pushWord data).romDataCount < 2 := by
      change i.romDataCount + 1 < 2
      omega
    rw [if_pos hroom, romAdvanceReceive]
    by_cases hmore : i.romTransferPos + 4 < i.romTransferLen
    · have hnot : ¬(i.pushWord data).romTransferLen ≤ (i.pushWord data).romTransferPos :=
        not_le.mpr hmore
      rw [if_pos ⟨hcount, hmore⟩, if_neg hnot]
      exact ⟨⟨_, scheduleROM_event (i := i.pushWord data) hevent ..⟩, rfl⟩
    · have hlast : (i.pushWord data).romTransferLen ≤ (i.pushWord data).romTransferPos :=
        not_lt.mp hmore
      rw [if_neg fun h => hmore h.2, if_pos hlast]
      exact ⟨hevent, fun hne => absurd hcount hne⟩
  · have hfull : ¬(i.pushWord data).romDataCount < 2 := by
      change ¬i.romDataCount + 1 < 2
      omega
    rw [if_neg hfull, if_neg fun h => hcount h.1]
    exact ⟨hevent, fun _ => rfl⟩

/-- What a word to the cart changes: the next one is requested and sent, or the end follows. -/
theorem sendWord_fields {i : Interface} (hevent : i.romEvent = none) (time : ℕ) :
    (i.sendWord time).romTransferLen = i.romTransferLen ∧
      (i.sendWord time).romTransferPos = i.romTransferPos + 4 ∧
      (i.sendWord time).romData = i.romData ∧
      (i.sendWord time).romDataPosCPU = i.romDataPosCPU ∧
      (i.sendWord time).romDataPosCart = !i.romDataPosCart ∧
      (i.sendWord time).romDataCount = i.romDataCount - 1 ∧
      (i.sendWord time).romDataLate = i.romDataLate ∧
      if i.romTransferPos + 4 < i.romTransferLen then
        (i.sendWord time).romCnt = i.raiseDRQ.romCnt ∧
          ∃ time', (i.sendWord time).romEvent = some (.sendData, time')
      else
        (i.sendWord time).romCnt = i.romCnt ∧
          ∃ time', (i.sendWord time).romEvent = some (.end, time') := by
  rw [sendWord]
  by_cases hmore : i.romTransferPos + 4 < i.romTransferLen
  · have hpop : i.popWord.romTransferPos < i.popWord.romTransferLen := hmore
    have hraise : i.popWord.raiseDRQ.romTransferPos < i.popWord.raiseDRQ.romTransferLen := hmore
    rw [if_pos hmore, if_pos hpop, romAdvanceSend, if_pos hraise]
    exact ⟨rfl, rfl, rfl, rfl, rfl, rfl, rfl, rfl, _,
      scheduleROM_event (i := i.popWord.raiseDRQ) hevent ..⟩
  · have hpop : ¬i.popWord.romTransferPos < i.popWord.romTransferLen := hmore
    rw [if_neg hmore, if_neg hpop, romAdvanceSend, if_neg hpop]
    exact ⟨rfl, rfl, rfl, rfl, rfl, rfl, rfl, rfl, _,
      scheduleROM_event (i := i.popWord) hevent ..⟩

end Interface

/-! ## Phases -/

namespace Slot

variable {C : Type*} {n : ARM.Num} {write : Bool} {length : ℕ} {base : List SlotCall}
  {words out : List U32} {count : ℕ} {s : Slot C}

/-- A transfer is under way, and so many words have passed the cart. -/
structure Carrying (n : ARM.Num) (write : Bool) (length : ℕ) (base : List SlotCall)
    (words : List U32) (s : Slot C) : Prop where
  active : s.cartActive
  owner : s.cpuSelect = n
  cart : s.cart.isSome
  whole : 4 ∣ length
  busy : (s.interfaces n).busy
  mode : (s.interfaces n).writes = write
  len : (s.interfaces n).romTransferLen = length
  pos : (s.interfaces n).romTransferPos = 4 * words.length
  within : 4 * words.length ≤ length
  log : s.log = words.reverse.map (wordCall write n) ++ base

/-- The words of a read come in: the next one is on its way, or the FIFO holds what it can. -/
structure Receiving (n : ARM.Num) (length : ℕ) (base : List SlotCall) (words out : List U32)
    (count : ℕ) (s : Slot C) : Prop extends Carrying n false length base words s where
  buffered : ∃ l, words = out ++ l ∧ TwoPlaceFifo (s.interfaces n).romData
    (s.interfaces n).romDataPosCPU (s.interfaces n).romDataPosCart (s.interfaces n).romDataCount l
  counted : count = words.length + out.length
  next :
    ((∃ time, (s.interfaces n).romEvent = some (.receiveData, time)) ∧
      (s.interfaces n).romDataLate = false ∧ 4 * words.length < length ∧
      (s.interfaces n).romDataCount < 2 ∧
      ((s.interfaces n).romDataCount = 0 → (s.interfaces n).dataRequest = false)) ∨
    ((s.interfaces n).romEvent = none ∧ (s.interfaces n).dataRequest ∧
      0 < (s.interfaces n).romDataCount ∧
      (4 * words.length < length →
        (s.interfaces n).romDataLate ∧ (s.interfaces n).romDataCount = 2))

/-- The words of a write go out: the FIFO waits for one, holds one, or has run late. -/
structure Sending (n : ARM.Num) (length : ℕ) (base : List SlotCall) (words out : List U32)
    (count : ℕ) (s : Slot C) : Prop extends Carrying n true length base words s where
  buffered : ∃ l, out = words ++ l ∧ TwoPlaceFifo (s.interfaces n).romData
    (s.interfaces n).romDataPosCart (s.interfaces n).romDataPosCPU (s.interfaces n).romDataCount l
  unfinished : 4 * words.length < length
  next :
    ((∃ time, (s.interfaces n).romEvent = some (.sendData, time)) ∧
      (s.interfaces n).romDataLate = false ∧ (s.interfaces n).dataRequest ∧
      (s.interfaces n).romDataCount = 0 ∧ count = 2 * words.length) ∨
    ((∃ time, (s.interfaces n).romEvent = some (.sendData, time)) ∧
      (s.interfaces n).romDataLate = false ∧ (s.interfaces n).dataRequest = false ∧
      (s.interfaces n).romDataCount = 1 ∧ count = 2 * words.length + 1) ∨
    ((s.interfaces n).romEvent = none ∧
      (s.interfaces n).romDataLate ∧ (s.interfaces n).dataRequest ∧
      (s.interfaces n).romDataCount = 0 ∧ count = 2 * words.length + 1)

/-- All words have passed, and the end is scheduled. -/
structure Ending (n : ARM.Num) (write : Bool) (length : ℕ) (base : List SlotCall)
    (words out : List U32) (count : ℕ) (s : Slot C) : Prop
    extends Carrying n write length base words s where
  delivered : out = words
  finished : 4 * words.length = length
  counted : count = 2 * words.length
  quiet : (s.interfaces n).dataRequest = false
  empty : (s.interfaces n).romDataCount = 0
  next : ∃ time, (s.interfaces n).romEvent = some (.end, time)

/-- The transfer is over. -/
structure Ended (n : ARM.Num) (write : Bool) (length : ℕ) (base : List SlotCall)
    (words out : List U32) (count : ℕ) (s : Slot C) : Prop where
  busy : (s.interfaces n).busy = false
  quiet : (s.interfaces n).dataRequest = false
  idle : (s.interfaces n).romEvent = none
  empty : (s.interfaces n).romDataCount = 0
  delivered : out = words
  finished : 4 * words.length = length
  counted : count ≤ 2 * words.length + 1
  log : s.log = endCalls n (s.interfaces n).transferIRQEnabled ++
    words.reverse.map (wordCall write n) ++ base

inductive Transfer (n : ARM.Num) (write : Bool) (length : ℕ) (base : List SlotCall)
    (out : List U32) (count : ℕ) (s : Slot C) : Prop
  | receiving (words : List U32) (hwrite : write = false)
      (h : s.Receiving n length base words out count)
  | sending (words : List U32) (hwrite : write = true)
      (h : s.Sending n length base words out count)
  | ending (words : List U32) (h : s.Ending n write length base words out count)
  | ended (words : List U32) (h : s.Ended n write length base words out count)

/-! ## Steps -/

/-- A change to the interface that moves no word to or from the cart. -/
theorem Carrying.modify (h : s.Carrying n write length base words) {f : Interface → Interface}
    (hbusy : (f (s.interfaces n)).busy = (s.interfaces n).busy)
    (hmode : (f (s.interfaces n)).writes = (s.interfaces n).writes)
    (hlen : (f (s.interfaces n)).romTransferLen = (s.interfaces n).romTransferLen)
    (hpos : (f (s.interfaces n)).romTransferPos = (s.interfaces n).romTransferPos) :
    (s.modify n f).Carrying n write length base words where
  active := h.active
  owner := h.owner
  cart := h.cart
  whole := h.whole
  busy := by rw [interfaces_modify, hbusy, h.busy]
  mode := by rw [interfaces_modify, hmode, h.mode]
  len := by rw [interfaces_modify, hlen, h.len]
  pos := by rw [interfaces_modify, hpos, h.pos]
  within := h.within
  log := h.log

/-- A word passes the cart. -/
theorem Carrying.exchange (h : s.Carrying n write length base words)
    (hmore : 4 * words.length < length) (word : U32) (c : C) {f : Interface → Interface}
    (hbusy : (f (s.interfaces n)).busy = (s.interfaces n).busy)
    (hmode : (f (s.interfaces n)).writes = (s.interfaces n).writes)
    (hlen : (f (s.interfaces n)).romTransferLen = (s.interfaces n).romTransferLen)
    (hpos : (f (s.interfaces n)).romTransferPos = (s.interfaces n).romTransferPos + 4) :
    ({ s with cart := some c, log := wordCall write n word :: s.log }.modify n f).Carrying n write
      length base (words ++ [word]) where
  active := h.active
  owner := h.owner
  cart := rfl
  whole := h.whole
  busy := by rw [interfaces_modify, hbusy, h.busy]
  mode := by rw [interfaces_modify, hmode, h.mode]
  len := by rw [interfaces_modify, hlen, h.len]
  pos := by
    rw [interfaces_modify, hpos, h.pos, List.length_append, List.length_singleton, Nat.mul_add]
  within := by
    have hwhole := h.whole
    rw [List.length_append, List.length_singleton]
    omega
  log := by
    change wordCall write n word :: s.log = _
    rw [h.log, List.reverse_append]
    rfl

section Cart

variable [VirtualCart C]

theorem Carrying.romReceiveData (h : s.Carrying n false length base words)
    (hmore : 4 * words.length < length) (time : ℕ) :
    ∃ data, (s.romReceiveData n time).Carrying n false length base (words ++ [data]) ∧
      (s.romReceiveData n time).interfaces n = (s.interfaces n).receiveWord data time := by
  obtain ⟨c, hc⟩ := Option.isSome_iff_exists.mp h.cart
  obtain ⟨hcnt, hlen, hpos, -⟩ := Interface.receiveWord_fields (VirtualCart.romCommandReceive c).1
    time (s.interfaces n)
  obtain ⟨-, hbusy, hmode⟩ := Interface.raiseDRQ_bits (s.interfaces n)
  refine ⟨(VirtualCart.romCommandReceive c).1, ?_⟩
  rw [Slot.romReceiveData, if_pos h.active, if_pos h.owner, romCommandReceive, hc]
  refine ⟨h.exchange hmore _ _ ?_ ?_ hlen hpos, interfaces_modify ..⟩
  · exact (congrArg (·.getLsbD 31) hcnt).trans hbusy
  · exact (congrArg (·.getLsbD 30) hcnt).trans hmode

theorem Carrying.romSendData (h : s.Carrying n true length base words)
    (hmore : 4 * words.length < length) (hevent : (s.interfaces n).romEvent = none)
    (hcount : (s.interfaces n).romDataCount ≠ 0) (time : ℕ) :
    (s.romSendData n time).Carrying n true length base
        (words ++ [(s.interfaces n).romData (s.interfaces n).romDataPosCart]) ∧
      (s.romSendData n time).interfaces n = (s.interfaces n).sendWord time := by
  obtain ⟨c, hc⟩ := Option.isSome_iff_exists.mp h.cart
  obtain ⟨hlen, hpos, -, -, -, -, -, hcnt⟩ := Interface.sendWord_fields hevent time
  obtain ⟨-, hbusy, hmode⟩ := Interface.raiseDRQ_bits (s.interfaces n)
  rw [Slot.romSendData, if_neg hcount]
  dsimp only
  rw [if_pos ⟨h.active, h.owner⟩, onCart, hc]
  refine ⟨h.exchange hmore _ _ ?_ ?_ hlen hpos, interfaces_modify ..⟩
  · split at hcnt
    · exact (congrArg (·.getLsbD 31) hcnt.1).trans hbusy
    · exact congrArg (·.getLsbD 31) hcnt.1
  · split at hcnt
    · exact (congrArg (·.getLsbD 30) hcnt.1).trans hmode
    · exact congrArg (·.getLsbD 30) hcnt.1

/-- The end of a transfer all of whose words have passed. -/
theorem Carrying.romEndTransfer (h : s.Carrying n write length base words)
    (hfinished : 4 * words.length = length) (hquiet : (s.interfaces n).dataRequest = false)
    (hidle : (s.interfaces n).romEvent = none) (hempty : (s.interfaces n).romDataCount = 0)
    (hcount : count ≤ 2 * words.length + 1) :
    (s.romEndTransfer n).Ended n write length base words words count := by
  obtain ⟨c, hc⟩ := Option.isSome_iff_exists.mp h.cart
  have hend : s.romEndTransfer n =
      { s with
        cart := some (VirtualCart.romCommandFinish c)
        log := endCalls n (s.interfaces n).transferIRQEnabled ++ s.log }.modify n
        Interface.endTransfer := by
    rw [Slot.romEndTransfer]
    set s₁ := s.modify n Interface.endTransfer with hs₁
    have hsame : (s₁.interfaces n).transferIRQEnabled = (s.interfaces n).transferIRQEnabled := by
      rw [hs₁, interfaces_modify]
      rfl
    rw [hsame]
    cases hirq : (s.interfaces n).transferIRQEnabled with
    | true =>
      rw [if_pos rfl, if_pos ⟨h.active, h.owner⟩]
      exact onCart_some
        (show ({ s₁ with log := .transferIRQ n :: s₁.log } : Slot C).cart = some c from hc) ..
    | false =>
      rw [if_neg Bool.false_ne_true, if_pos ⟨h.active, h.owner⟩]
      exact onCart_some (show s₁.cart = some c from hc) ..
  rw [hend]
  refine ⟨?_, ?_, ?_, ?_, rfl, hfinished, hcount, ?_⟩
  · rw [interfaces_modify]
    exact (Interface.endTransfer_bits _).1
  · rw [interfaces_modify]
    exact (Interface.endTransfer_bits _).2.trans hquiet
  · rw [interfaces_modify]
    exact hidle
  · rw [interfaces_modify]
    exact hempty
  · rw [interfaces_modify]
    change _ ++ s.log = _
    rw [h.log, ← List.append_assoc]
    rfl

theorem Receiving.romEvent (h : s.Receiving n length base words out count) (time : ℕ) :
    (s.romEvent n time).Transfer n false length base out
      (count + if (s.interfaces n).romEvent.isSome then 1 else 0) := by
  obtain ⟨l, hwords, hfifo⟩ := h.buffered
  rcases h.next with ⟨⟨time', hevent⟩, hlate, hmore, hroom, -⟩ | ⟨hevent, hnext⟩
  · rw [Slot.romEvent, hevent]
    dsimp only
    have hcarrying : (s.modify n fun i => { i with romEvent := none }).Carrying n false length base
        words := h.toCarrying.modify rfl rfl rfl rfl
    have hi : (s.modify n fun i => { i with romEvent := none }).interfaces n =
        { s.interfaces n with romEvent := none } := interfaces_modify ..
    obtain ⟨data, hafter, hi₁⟩ := hcarrying.romReceiveData hmore time
    rw [hi] at hi₁
    generalize (s.modify n fun i => { i with romEvent := none }).romReceiveData n time = s₁
      at hafter hi₁ ⊢
    obtain ⟨hcnt, -, -, hdata, hposCPU, hposCart, hcount⟩ :=
      Interface.receiveWord_fields data time { s.interfaces n with romEvent := none }
    have hnext := Interface.receiveWord_next
      (i := { s.interfaces n with romEvent := none }) rfl data time
    rw [← hi₁] at hcnt hdata hposCPU hposCart hcount hnext
    have hrequest : (s₁.interfaces n).dataRequest :=
      (congrArg (·.getLsbD 23) hcnt).trans (Interface.raiseDRQ_bits _).1
    refine .receiving (words ++ [data]) rfl
      { toCarrying := hafter
        buffered := ⟨l ++ [data], by rw [hwords, List.append_assoc], ?_⟩
        counted := ?_
        next := ?_ }
    · rw [hdata, hposCPU, hposCart, hcount]
      exact hfifo.push hroom data
    · rw [h.counted, List.length_append, List.length_singleton]
      change _ + 1 = _
      omega
    · have hpos := h.pos
      have hlen := h.len
      rw [List.length_append, List.length_singleton, hcount]
      split at hnext
      · rename_i hfetch
        obtain ⟨hempty, hmore'⟩ := hfetch
        change (s.interfaces n).romDataCount = 0 at hempty
        change (s.interfaces n).romTransferPos + 4 < (s.interfaces n).romTransferLen at hmore'
        refine .inl ⟨hnext.1, hnext.2.trans hlate, by omega, ?_, fun hzero => ?_⟩
        · change (s.interfaces n).romDataCount + 1 < 2
          omega
        · exact absurd hzero (Nat.succ_ne_zero _)
      · rename_i hfull
        change ¬((s.interfaces n).romDataCount = 0 ∧
          (s.interfaces n).romTransferPos + 4 < (s.interfaces n).romTransferLen) at hfull
        refine .inr ⟨hnext.1, hrequest, Nat.succ_pos _, fun hmore' => ?_⟩
        have hone : (s.interfaces n).romDataCount ≠ 0 := fun hzero => hfull ⟨hzero, by omega⟩
        refine ⟨hnext.2 hone, ?_⟩
        change (s.interfaces n).romDataCount + 1 = 2
        omega
  · rw [Slot.romEvent, hevent]
    exact .receiving words rfl h

theorem readROMData_word (n : ARM.Num) (time : ℕ) (s : Slot C) :
    (s.readROMData n time).1 = (s.interfaces n).romData (s.interfaces n).romDataPosCPU := by
  rw [Slot.readROMData]
  split
  · rfl
  · dsimp only
    split_ifs <;> rfl

theorem Receiving.readROMData (h : s.Receiving n length base words out count)
    (hrequest : (s.interfaces n).dataRequest) (time : ℕ) :
    (s.readROMData n time).2.Transfer n false length base (out ++ [(s.readROMData n time).1])
      (count + 1) := by
  obtain ⟨l, hwords, hfifo⟩ := h.buffered
  have hpos := h.pos
  have hlen := h.len
  have hnonempty : (s.interfaces n).romDataCount ≠ 0 := fun hzero => by
    rcases h.next with ⟨-, -, -, -, hquiet⟩ | ⟨-, -, hcount, -⟩
    · exact Bool.false_ne_true ((hquiet hzero).symm.trans hrequest)
    · omega
  obtain ⟨word, l, rfl⟩ := List.exists_cons_of_ne_nil fun hnil : l = [] =>
    hnonempty (hfifo.length.symm.trans (hnil ▸ rfl))
  obtain ⟨hword, hpopped⟩ := hfifo.pop
  have hi : (s.modify n Interface.takeWord).interfaces n = (s.interfaces n).takeWord :=
    interfaces_modify ..
  obtain ⟨hquiet, hbusy, hmode⟩ := Interface.clearDRQ_bits
    { s.interfaces n with
      romDataPosCPU := !(s.interfaces n).romDataPosCPU
      romDataCount := (s.interfaces n).romDataCount - 1 }
  have htaken : (s.modify n Interface.takeWord).Carrying n false length base words :=
    h.toCarrying.modify hbusy hmode rfl rfl
  have hwords' : words = out ++ [word] ++ l := by rw [hwords, List.append_assoc]; rfl
  have hcounted : count + 1 = words.length + (out ++ [word]).length := by
    rw [h.counted, List.length_append, List.length_singleton]
    omega
  rw [readROMData_word, hword, Slot.readROMData, if_neg (h.mode ▸ Bool.false_ne_true)]
  dsimp only
  rw [hi]
  by_cases hmore : 4 * words.length < length
  · have hmore' : (s.interfaces n).romTransferPos < (s.interfaces n).romTransferLen := by omega
    rw [if_pos hmore']
    rcases h.next with ⟨hevent, hlate, -, hroom, -⟩ | ⟨hevent, -, -, hfull⟩
    · rw [hlate, if_neg Bool.false_ne_true]
      refine .receiving words rfl
        { toCarrying := htaken
          buffered := ⟨l, hwords', by rw [hi]; exact hpopped⟩
          counted := hcounted
          next := ?_ }
      rw [hi]
      refine .inl ⟨hevent, hlate, hmore, ?_, fun _ => hquiet⟩
      change (s.interfaces n).romDataCount - 1 < 2
      omega
    · obtain ⟨hlate, htwo⟩ := hfull hmore
      rw [hlate, if_pos rfl]
      dsimp only
      obtain ⟨time', hadvance⟩ := Interface.romAdvanceReceive_more
        (i := { (s.interfaces n).takeWord with romDataLate := false }) hmore' time
      have hi₁ : ((s.modify n Interface.takeWord).modify n fun i =>
          { i with romDataLate := false }.romAdvanceReceive time).interfaces n = _ :=
        (interfaces_modify ..).trans ((congrArg (fun i : Interface =>
          { i with romDataLate := false }.romAdvanceReceive time) hi).trans hadvance)
      refine .receiving words rfl
        { toCarrying := htaken.modify ?_ ?_ ?_ ?_
          buffered := ⟨l, hwords', by rw [hi₁]; exact hpopped⟩
          counted := hcounted
          next := ?_ }
      · rw [hi, hadvance]
        rfl
      · rw [hi, hadvance]
        rfl
      · rw [hi, hadvance]
        rfl
      · rw [hi, hadvance]
        rfl
      · rw [hi₁]
        refine .inl ⟨⟨_, Interface.scheduleROM_event hevent ..⟩, rfl, hmore, ?_, fun _ => hquiet⟩
        change (s.interfaces n).romDataCount - 1 < 2
        omega
  · have hmore' : ¬(s.interfaces n).romTransferPos < (s.interfaces n).romTransferLen := by omega
    rw [if_neg hmore']
    rcases h.next with ⟨-, -, hmore', -, -⟩ | ⟨hevent, -, -, -⟩
    · exact absurd hmore' hmore
    have hwithin := h.within
    by_cases hlast : (s.interfaces n).takeWord.romDataCount = 0
    · rw [if_pos hlast]
      have hnil : l = [] := List.length_eq_zero_iff.mp (hpopped.length.trans hlast)
      have hout : out ++ [word] = words := by rw [hwords', hnil, List.append_nil]
      rw [hout]
      refine .ended words (htaken.romEndTransfer (by omega) ?_ ?_ ?_ ?_)
      · rw [hi]
        exact hquiet
      · rw [hi]
        exact hevent
      · rw [hi]
        exact hlast
      · rw [hcounted, hout]
        omega
    · rw [if_neg hlast]
      dsimp only
      obtain ⟨hraised, hbusy', hmode'⟩ := Interface.raiseDRQ_bits (s.interfaces n).takeWord
      have hi₁ : ((s.modify n Interface.takeWord).modify n Interface.raiseDRQ).interfaces n =
          (s.interfaces n).takeWord.raiseDRQ :=
        (interfaces_modify ..).trans (congrArg Interface.raiseDRQ hi)
      refine .receiving words rfl
        { toCarrying := htaken.modify (hi ▸ hbusy') (hi ▸ hmode') rfl rfl
          buffered := ⟨l, hwords', by rw [hi₁]; exact hpopped⟩
          counted := hcounted
          next := ?_ }
      rw [hi₁]
      exact .inr ⟨hevent, hraised, Nat.pos_of_ne_zero hlast, fun hmore' => absurd hmore' hmore⟩

/-- The word in the FIFO goes to the cart, on time or late. -/
theorem Carrying.transmit (h : s.Carrying n true length base words)
    (hmore : 4 * words.length < length) {word : U32}
    (hfifo : TwoPlaceFifo (s.interfaces n).romData (s.interfaces n).romDataPosCart
      (s.interfaces n).romDataPosCPU (s.interfaces n).romDataCount [word])
    (hevent : (s.interfaces n).romEvent = none) (hlate : (s.interfaces n).romDataLate = false)
    (hquiet : (s.interfaces n).dataRequest = false) (time : ℕ) :
    (s.romSendData n time).Transfer n true length base (words ++ [word])
      (2 * words.length + 2) := by
  have hone : (s.interfaces n).romDataCount = 1 := hfifo.length.symm
  obtain ⟨hword, hpopped⟩ := hfifo.pop
  obtain ⟨hafter, hi⟩ := h.romSendData hmore hevent (by omega) time
  obtain ⟨-, -, hdata, hposCPU, hposCart, hcount, hlate', hnext⟩ :=
    Interface.sendWord_fields hevent time
  rw [hword] at hafter
  generalize s.romSendData n time = s₁ at hafter hi ⊢
  rw [← hi] at hdata hposCPU hposCart hcount hlate' hnext
  have hpos := h.pos
  have hlen := h.len
  have hlength : (words ++ [word]).length = words.length + 1 := by
    rw [List.length_append, List.length_singleton]
  split at hnext
  · obtain ⟨hcnt, hevent'⟩ := hnext
    have hrequest : (s₁.interfaces n).dataRequest :=
      (congrArg (·.getLsbD 23) hcnt).trans (Interface.raiseDRQ_bits _).1
    refine .sending (words ++ [word]) rfl
      { toCarrying := hafter
        buffered := ⟨[], (List.append_nil _).symm, ?_⟩
        unfinished := by omega
        next := .inl ⟨hevent', hlate'.trans hlate, hrequest, by omega, by omega⟩ }
    rw [hdata, hposCPU, hposCart, hcount]
    exact hpopped
  · obtain ⟨hcnt, hevent'⟩ := hnext
    have hwithin := hafter.within
    have hquiet' : (s₁.interfaces n).dataRequest = false :=
      (congrArg (·.getLsbD 23) hcnt).trans hquiet
    exact .ending (words ++ [word])
      { toCarrying := hafter
        delivered := rfl
        finished := by omega
        counted := by omega
        quiet := hquiet'
        empty := by omega
        next := hevent' }

theorem Sending.romEvent (h : s.Sending n length base words out count) (time : ℕ) :
    (s.romEvent n time).Transfer n true length base out
      (count + if (s.interfaces n).romEvent.isSome then 1 else 0) := by
  obtain ⟨l, hout, hfifo⟩ := h.buffered
  rw [Slot.romEvent]
  have hcarrying : (s.modify n fun i => { i with romEvent := none }).Carrying n true length base
      words := h.toCarrying.modify rfl rfl rfl rfl
  have hi : (s.modify n fun i => { i with romEvent := none }).interfaces n =
      { s.interfaces n with romEvent := none } := interfaces_modify ..
  rcases h.next with ⟨⟨time', hevent⟩, hlate, hrequest, hempty, hcount⟩ |
    ⟨⟨time', hevent⟩, hlate, hquiet, hone, hcount⟩ | ⟨hevent, -⟩
  · -- The event comes before the word.
    rw [hevent]
    dsimp only
    have hempty' : ((s.modify n fun i => { i with romEvent := none }).interfaces n).romDataCount =
        0 := by
      rw [hi]
      exact hempty
    rw [Slot.romSendData, if_pos hempty']
    have hi₁ : ((s.modify n fun i => { i with romEvent := none }).modify n fun i =>
        { i with romDataLate := true }).interfaces n =
          { s.interfaces n with romEvent := none, romDataLate := true } :=
      (interfaces_modify ..).trans
        (congrArg (fun i : Interface => { i with romDataLate := true }) hi)
    refine .sending words rfl
      { toCarrying := hcarrying.modify rfl rfl rfl rfl
        buffered := ⟨l, hout, by rw [hi₁]; exact hfifo⟩
        unfinished := h.unfinished
        next := ?_ }
    rw [hi₁]
    refine .inr (.inr ⟨rfl, rfl, hrequest, hempty, ?_⟩)
    rw [hcount]
    rfl
  · rw [hevent]
    dsimp only
    obtain ⟨word, rfl⟩ := List.length_eq_one_iff.mp (hfifo.length.trans hone)
    rw [hout, hcount]
    refine hcarrying.transmit h.unfinished ?_ ?_ ?_ ?_ time
    · rw [hi]
      exact hfifo
    · rw [hi]
    · rw [hi]
      exact hlate
    · rw [hi]
      exact hquiet
  · rw [hevent]
    exact .sending words rfl h

theorem Sending.writeROMData (h : s.Sending n length base words out count)
    (hrequest : (s.interfaces n).dataRequest) (time : ℕ) (val mask : U32) :
    (s.writeROMData n time val mask).Transfer n true length base
      (out ++ if Interface.advances mask then [(s.interfaces n).mergedWord val mask] else [])
      (count + if Interface.advances mask then 1 else 0) := by
  obtain ⟨l, hout, hfifo⟩ := h.buffered
  have hempty : (s.interfaces n).romDataCount = 0 := by
    rcases h.next with ⟨-, -, -, hempty, -⟩ | ⟨-, -, hquiet, -⟩ | ⟨-, -, -, hempty, -⟩
    · exact hempty
    · exact absurd (hquiet.symm.trans hrequest) Bool.false_ne_true
    · exact hempty
  have hnil : l = [] := List.length_eq_zero_iff.mp (hfifo.length.trans hempty)
  rw [hnil, List.append_nil] at hout
  rw [hnil] at hfifo
  have hmode : ¬(s.interfaces n).writes = false := by
    rw [h.mode]
    decide
  rw [Slot.writeROMData, if_neg hmode]
  dsimp only
  set merged := (s.interfaces n).mergedWord val mask with hmerged
  have hcarrying : (s.modify n fun i =>
      { i with
        romData := Function.update i.romData i.romDataPosCPU (i.mergedWord val mask) }).Carrying
      n true length base words := h.toCarrying.modify rfl rfl rfl rfl
  have hi : (s.modify n fun i =>
      { i with
        romData := Function.update i.romData i.romDataPosCPU
          (i.mergedWord val mask) }).interfaces n =
      { s.interfaces n with
        romData := Function.update (s.interfaces n).romData (s.interfaces n).romDataPosCPU
          merged } := interfaces_modify ..
  generalize (s.modify n fun i =>
    { i with romData := Function.update i.romData i.romDataPosCPU (i.mergedWord val mask) }) = s₁
    at hcarrying hi ⊢
  cases hadvances : Interface.advances mask with
  | false =>
    rw [if_pos rfl, if_neg Bool.false_ne_true, if_neg Bool.false_ne_true, List.append_nil]
    refine .sending words rfl
      { toCarrying := hcarrying
        buffered := ⟨[], by rw [hout, List.append_nil], ?_⟩
        unfinished := h.unfinished
        next := by rw [hi]; exact h.next }
    rw [hi]
    exact hfifo.overwrite (by omega) merged
  | true =>
    rw [if_neg Bool.true_eq_false.mp, if_pos rfl, if_pos rfl]
    have hpush := hfifo.push (by omega) merged
    obtain ⟨hquiet, hbusy, hmode⟩ := Interface.clearDRQ_bits
      { s₁.interfaces n with
        romDataPosCPU := !(s₁.interfaces n).romDataPosCPU
        romDataCount := if (s₁.interfaces n).romDataCount < 2 then
          (s₁.interfaces n).romDataCount + 1 else (s₁.interfaces n).romDataCount }
    have hput : (s₁.modify n Interface.putWord).Carrying n true length base words :=
      hcarrying.modify hbusy hmode rfl rfl
    have hi₁ : (s₁.modify n Interface.putWord).interfaces n = (s₁.interfaces n).putWord :=
      interfaces_modify ..
    have hone : (s₁.interfaces n).putWord.romDataCount = (s.interfaces n).romDataCount + 1 := by
      rw [hi]
      exact if_pos (by omega : (s.interfaces n).romDataCount < 2)
    have hfifo₁ : TwoPlaceFifo (s₁.interfaces n).putWord.romData
        (s₁.interfaces n).putWord.romDataPosCart (s₁.interfaces n).putWord.romDataPosCPU
        (s₁.interfaces n).putWord.romDataCount [merged] := by
      rw [hone]
      rw [hi]
      exact hpush
    rcases h.next with ⟨hevent, hlate, -, -, hcount⟩ | ⟨-, -, hquiet', -⟩ |
      ⟨hevent, hlate, -, -, hcount⟩
    · rw [hlate, if_neg Bool.false_ne_true]
      refine .sending words rfl
        { toCarrying := hput
          buffered := ⟨[merged], by rw [hout], by rw [hi₁]; exact hfifo₁⟩
          unfinished := h.unfinished
          next := ?_ }
      rw [hi₁]
      refine .inr (.inl ⟨?_, ?_, hquiet, ?_, by rw [hcount]⟩)
      · rw [hi]
        exact hevent
      · rw [hi]
        exact hlate
      · rw [hone, hempty]
    · exact absurd (hquiet'.symm.trans hrequest) Bool.false_ne_true
    · rw [hlate, if_pos rfl, hout, hcount]
      have hi₂ : ((s₁.modify n Interface.putWord).modify n fun i =>
          { i with romDataLate := false }).interfaces n =
          { (s₁.interfaces n).putWord with romDataLate := false } :=
        (interfaces_modify ..).trans
          (congrArg (fun i : Interface => { i with romDataLate := false }) hi₁)
      have hput' : ((s₁.modify n Interface.putWord).modify n fun i =>
          { i with romDataLate := false }).Carrying n true length base words :=
        hput.modify rfl rfl rfl rfl
      refine hput'.transmit h.unfinished ?_ ?_ ?_ ?_ time
      · rw [hi₂]
        exact hfifo₁
      · rw [hi₂, hi]
        exact hevent
      · rw [hi₂]
      · rw [hi₂]
        exact hquiet

theorem Ending.romEvent (h : s.Ending n write length base words out count) (time : ℕ) :
    (s.romEvent n time).Transfer n write length base out
      (count + if (s.interfaces n).romEvent.isSome then 1 else 0) := by
  obtain ⟨time', hevent⟩ := h.next
  rw [Slot.romEvent, hevent, h.delivered, h.counted]
  dsimp only
  have hcarrying : (s.modify n fun i => { i with romEvent := none }).Carrying n write length base
      words := h.toCarrying.modify rfl rfl rfl rfl
  have hi : (s.modify n fun i => { i with romEvent := none }).interfaces n =
      { s.interfaces n with romEvent := none } := interfaces_modify ..
  refine .ended words (hcarrying.romEndTransfer h.finished ?_ ?_ ?_ le_rfl)
  · rw [hi]
    exact h.quiet
  · rw [hi]
  · rw [hi]
    exact h.empty

/-- One operation, its data access requested. -/
theorem Transfer.apply (h : s.Transfer n write length base out count) (op : ROMOp)
    (hrequest : op.Requested n s) :
    (op.apply n s).Transfer n write length base (out ++ op.cpuWords n s)
      (count + op.steps n s) := by
  cases op with
  | readData time =>
    change (s.interfaces n).dataRequest at hrequest
    rw [ROMOp.steps, ROMOp.cpuWords, ROMOp.apply]
    cases h with
    | receiving words hwrite h =>
      rw [if_neg (h.mode ▸ Bool.false_ne_true), hwrite]
      exact h.readROMData hrequest time
    | sending words hwrite h =>
      rw [if_pos h.mode, List.append_nil, Slot.readROMData, if_pos h.mode]
      exact .sending words hwrite h
    | ending words h => exact absurd (h.quiet.symm.trans hrequest) Bool.false_ne_true
    | ended words h => exact absurd (h.quiet.symm.trans hrequest) Bool.false_ne_true
  | writeData time val mask =>
    change (s.interfaces n).dataRequest at hrequest
    rw [ROMOp.steps, ROMOp.cpuWords, ROMOp.apply]
    cases h with
    | receiving words hwrite h =>
      rw [if_neg fun hyes => Bool.false_ne_true (h.mode.symm.trans hyes.1), List.append_nil,
        Slot.writeROMData, if_pos h.mode]
      exact .receiving words hwrite h
    | sending words hwrite h =>
      have hwrote := h.writeROMData hrequest time val mask
      rw [hwrite]
      cases hadvances : Interface.advances mask with
      | true =>
        rw [if_pos ⟨h.mode, rfl⟩]
        rwa [hadvances] at hwrote
      | false =>
        rw [if_neg fun hyes => Bool.false_ne_true hyes.2]
        rwa [hadvances] at hwrote
    | ending words h => exact absurd (h.quiet.symm.trans hrequest) Bool.false_ne_true
    | ended words h => exact absurd (h.quiet.symm.trans hrequest) Bool.false_ne_true
  | event time =>
    rw [ROMOp.steps, ROMOp.cpuWords, ROMOp.apply, List.append_nil]
    cases h with
    | receiving words hwrite h =>
      rw [hwrite]
      exact h.romEvent time
    | sending words hwrite h =>
      rw [hwrite]
      exact h.romEvent time
    | ending words h => exact h.romEvent time
    | ended words h =>
      rw [Slot.romEvent, h.idle]
      exact .ended words h

end Cart

end Slot

/-! ## What is conserved -/

section Conserved

variable {C : Type*} {n : ARM.Num} {write : Bool} {length : ℕ} {base : List SlotCall}
  {out : List U32} {count : ℕ} {s : Slot C}

/-- What has passed the CPU and the cart, and what is left to do. -/
structure Slot.Conserved (n : ARM.Num) (write : Bool) (length : ℕ) (base : List SlotCall)
    (cpu : List U32) (steps : ℕ) (words : List U32) (s : Slot C) : Prop where
  order : if write then words <+: cpu else cpu <+: words
  within : 4 * words.length ≤ length
  log : s.log = (if (s.interfaces n).busy then [] else
    endCalls n (s.interfaces n).transferIRQEnabled) ++ words.reverse.map (wordCall write n) ++ base
  room : (s.interfaces n).romDataCount ≤ 2
  live : (s.interfaces n).busy → (s.interfaces n).dataRequest ∨ (s.interfaces n).romEvent.isSome
  bounded : steps ≤ 2 * (length / 4) + 1
  finished : (s.interfaces n).busy = false → cpu = words ∧ 4 * words.length = length ∧
    (s.interfaces n).dataRequest = false ∧ (s.interfaces n).romEvent = none

theorem Slot.Transfer.conserved (h : s.Transfer n write length base out count) :
    ∃ words, s.Conserved n write length base out count words := by
  cases h with
  | receiving words hwrite h =>
    obtain ⟨l, hwords, hfifo⟩ := h.buffered
    have hout : out.length ≤ words.length := by
      rw [hwords, List.length_append]
      exact Nat.le_add_right ..
    have hwithin := h.within
    have hcounted := h.counted
    refine ⟨words, ?_, h.within, ?_, hfifo.count_le, fun _ => ?_, by omega, fun hdone => ?_⟩
    · rw [hwrite, if_neg Bool.false_ne_true, hwords]
      exact List.prefix_append ..
    · rw [if_pos h.busy, hwrite]
      exact h.log
    · rcases h.next with ⟨⟨time, hevent⟩, -⟩ | ⟨-, hrequest, -⟩
      · exact .inr (by rw [hevent]; rfl)
      · exact .inl hrequest
    · exact absurd (hdone.symm.trans h.busy) Bool.false_ne_true
  | sending words hwrite h =>
    obtain ⟨l, hout, hfifo⟩ := h.buffered
    have hunfinished := h.unfinished
    refine ⟨words, ?_, h.within, ?_, hfifo.count_le, fun _ => ?_, ?_, fun hdone => ?_⟩
    · rw [hwrite, if_pos rfl, hout]
      exact List.prefix_append ..
    · rw [if_pos h.busy, hwrite]
      exact h.log
    · rcases h.next with ⟨⟨time, hevent⟩, -⟩ | ⟨⟨time, hevent⟩, -⟩ | ⟨-, -, hrequest, -⟩
      · exact .inr (by rw [hevent]; rfl)
      · exact .inr (by rw [hevent]; rfl)
      · exact .inl hrequest
    · rcases h.next with ⟨-, -, -, -, hcount⟩ | ⟨-, -, -, -, hcount⟩ | ⟨-, -, -, -, hcount⟩ <;>
        omega
    · exact absurd (hdone.symm.trans h.busy) Bool.false_ne_true
  | ending words h =>
    obtain ⟨time, hevent⟩ := h.next
    have hfinished := h.finished
    have hcounted := h.counted
    refine ⟨words, ?_, h.within, ?_, ?_, fun _ => .inr ?_, by omega, fun hdone => ?_⟩
    · rw [h.delivered]
      split <;> exact List.prefix_rfl
    · rw [if_pos h.busy]
      exact h.log
    · rw [h.empty]
      exact Nat.zero_le 2
    · rw [hevent]
      rfl
    · exact absurd (hdone.symm.trans h.busy) Bool.false_ne_true
  | ended words h =>
    have hfinished := h.finished
    have hcounted := h.counted
    refine ⟨words, ?_, hfinished.le, ?_, ?_, fun hbusy => ?_, by omega,
      fun _ => ⟨h.delivered, h.finished, h.quiet, h.idle⟩⟩
    · rw [h.delivered]
      split <;> exact List.prefix_rfl
    · rw [if_neg (h.busy ▸ Bool.false_ne_true)]
      exact h.log
    · rw [h.empty]
      exact Nat.zero_le 2
    · exact absurd (h.busy.symm.trans hbusy) Bool.false_ne_true

end Conserved

/-! ## Runs -/

section Runs

variable {C : Type*} [VirtualCart C] {n : ARM.Num} {write : Bool} {length : ℕ}
  {base : List SlotCall} {out : List U32} {count : ℕ} {s : Slot C}

/-- The words that have passed the CPU. -/
def cpuWords (n : ARM.Num) (run : List (Slot C × ROMOp)) : List U32 :=
  run.flatMap fun p => p.2.cpuWords n p.1

/-- How many operations have moved the transfer on. -/
def cpuSteps (n : ARM.Num) (run : List (Slot C × ROMOp)) : ℕ :=
  (run.map fun p => p.2.steps n p.1).sum

theorem Slot.Transfer.run (h : s.Transfer n write length base out count) {ops : List ROMOp}
    (hrequest : ∀ p ∈ trace (ROMOp.apply n) s ops, p.2.Requested n p.1) :
    (ops.foldl (ROMOp.apply n) s).Transfer n write length base
      (out ++ cpuWords n (trace (ROMOp.apply n) s ops))
      (count + cpuSteps n (trace (ROMOp.apply n) s ops)) := by
  induction ops generalizing s out count with
  | nil => rwa [trace, cpuWords, cpuSteps, List.flatMap_nil, List.append_nil]
  | cons op ops ih =>
    obtain ⟨hop, hrest⟩ := List.forall_mem_cons.mp hrequest
    have hrun := ih (h.apply op hop) hrest
    rwa [List.append_assoc, Nat.add_assoc] at hrun

/-- The interface owns a cart that is on, and none of its events is scheduled. -/
structure Slot.Ready (n : ARM.Num) (s : Slot C) : Prop where
  active : s.cartActive
  power : s.powerState = 2
  owner : s.cpuSelect = n
  cart : s.cart.isSome
  idle : (s.interfaces n).romEvent = none

/-- This write to ROMCTRL starts a transfer. -/
def Interface.Starts (val mask : U32) (i : Interface) : Prop :=
  i.spiCnt.getLsbD 15 ∧ i.spiMode = false ∧ (val &&& mask &&& ~~~i.romCnt).getLsbD 31

theorem Slot.startROMTransfer_carrying (hactive : s.cartActive) (howner : s.cpuSelect = n)
    (hcart : s.cart.isSome) (hidle : (s.interfaces n).romEvent = none)
    (hbusy : (s.interfaces n).busy) (decrypt : U32 × U32 → U32 × U32) (time : ℕ) :
    (s.startROMTransfer decrypt n time).Carrying n (s.interfaces n).writes
        (s.interfaces n).dataSize (.romCommandStart n :: s.log) [] ∧
      (s.startROMTransfer decrypt n time).interfaces n =
        { s.interfaces n with
          romTransferPos := 0
          romTransferLen := (s.interfaces n).dataSize }.startTransfer time := by
  obtain ⟨c, hc⟩ := Option.isSome_iff_exists.mp hcart
  obtain ⟨hlen, hpos, -, -, -, -, hcnt, -⟩ := Interface.startTransfer_fields
    (i := { s.interfaces n with
      romTransferPos := 0
      romTransferLen := (s.interfaces n).dataSize }) hidle time
  obtain ⟨-, hbusy', hmode'⟩ := Interface.raiseDRQ_bits (s.interfaces n)
  have hstart : s.startROMTransfer decrypt n time =
      { s with
        cart := some (VirtualCart.romCommandStart decrypt (s.interfaces n).romCommand c)
        log := .romCommandStart n :: s.log }.modify n fun i =>
          { i with romTransferPos := 0, romTransferLen := i.dataSize }.startTransfer time := by
    rw [Slot.startROMTransfer]
    have hpos : (s.modify n fun i =>
        { i with romTransferPos := 0, romTransferLen := i.dataSize }).cartActive ∧
          (s.modify n fun i =>
        { i with romTransferPos := 0, romTransferLen := i.dataSize }).cpuSelect = n :=
      ⟨hactive, howner⟩
    rw [if_pos hpos, onCart_some (show (s.modify n _).cart = some c from hc)]
    simp only [Slot.modify, Function.update_self, Function.update_idem]
  have hi : (s.startROMTransfer decrypt n time).interfaces n =
      { s.interfaces n with
        romTransferPos := 0
        romTransferLen := (s.interfaces n).dataSize }.startTransfer time := by
    rw [hstart]
    exact interfaces_modify ..
  refine ⟨⟨?_, ?_, ?_, (s.interfaces n).four_dvd_dataSize, ?_, ?_, ?_, ?_, Nat.zero_le _, ?_⟩, hi⟩
  · rw [hstart]
    exact hactive
  · rw [hstart]
    exact howner
  · rw [hstart]
    rfl
  · rw [hi, Interface.busy, hcnt]
    split
    · exact hbusy'.trans hbusy
    · exact hbusy
  · rw [hi, Interface.writes, hcnt]
    split
    · exact hmode'
    · rfl
  · rw [hi, hlen]
  · rw [hi, hpos]
    rfl
  · rw [hstart]
    rfl

theorem Slot.Ready.writeROMCnt (h : s.Ready n) {val mask : U32}
    (hstarts : (s.interfaces n).Starts val mask) (decrypt : U32 × U32 → U32 × U32) (time : ℕ) :
    (s.writeROMCnt decrypt n time val mask).Carrying n
        ((s.interfaces n).setROMCnt val mask).writes ((s.interfaces n).setROMCnt val mask).dataSize
        (.romCommandStart n :: s.log) [] ∧
      (s.writeROMCnt decrypt n time val mask).interfaces n =
        { (s.interfaces n).setROMCnt val mask with
          romTransferPos := 0
          romTransferLen :=
            ((s.interfaces n).setROMCnt val mask).dataSize }.startTransfer time := by
  obtain ⟨c, hc⟩ := Option.isSome_iff_exists.mp h.cart
  obtain ⟨hon, hmode, hrising⟩ := hstarts
  set i := (s.interfaces n).setROMCnt val mask with hi
  have hbusy : i.busy := (Interface.setROMCnt_bits ..).1 (by
    rw [BitVec.getLsbD_and, Bool.and_eq_true] at hrising
    exact hrising.1)
  obtain ⟨c₁, hupdate⟩ : ∃ c₁,
      (if (val &&& mask &&& ~~~(s.interfaces n).romCnt).getLsbD 29 ∧ s.cpuSelect = n then
        (s.modify n (Interface.setROMCnt val mask)).updateCartState
      else s.modify n (Interface.setROMCnt val mask)) =
        { s.modify n (Interface.setROMCnt val mask) with cart := some c₁ } := by
    obtain ⟨interfaces, cpuSelect, powerState, cartActive, cart, saveEvent, log⟩ := s
    obtain ⟨hactive, hpower, -, -, -⟩ := h
    obtain rfl : cartActive = true := hactive
    obtain rfl : powerState = 2 := hpower
    obtain rfl : cart = some c := hc
    split
    · exact ⟨_, rfl⟩
    · exact ⟨c, rfl⟩
  have hno : ¬(i.spiCnt.getLsbD 15 = false ∨ i.spiMode ∨
      (val &&& mask &&& ~~~(s.interfaces n).romCnt).getLsbD 31 = false) := by
    rintro (hoff | hspi | hsteady)
    · exact Bool.false_ne_true (hoff.symm.trans hon)
    · exact Bool.false_ne_true (hmode.symm.trans hspi)
    · exact Bool.false_ne_true (hsteady.symm.trans hrising)
  rw [Slot.writeROMCnt]
  dsimp only
  have hsel : (s.modify n (Interface.setROMCnt val mask)).cpuSelect = s.cpuSelect := rfl
  rw [hsel, hupdate]
  have hi₁ : (s.modify n (Interface.setROMCnt val mask)).interfaces n = i := interfaces_modify ..
  rw [hi₁, if_neg hno]
  obtain ⟨hcarrying, hinterface⟩ := startROMTransfer_carrying
    (s := { s.modify n (Interface.setROMCnt val mask) with cart := some c₁ })
    h.active h.owner rfl (by rw [hi₁]; exact h.idle) (by rw [hi₁]; exact hbusy) decrypt time
  rw [hi₁] at hcarrying hinterface
  exact ⟨hcarrying, hinterface⟩

/-- A read finds no request left over, and a write has a length. -/
def Interface.Clean (i : Interface) : Prop :=
  if i.writes then i.dataSize ≠ 0 else i.dataRequest = false

instance (i : Interface) : Decidable i.Clean :=
  inferInstanceAs (Decidable (if i.writes then i.dataSize ≠ 0 else i.dataRequest = false))

theorem Slot.Ready.transfer (h : s.Ready n) {val mask : U32}
    (hstarts : (s.interfaces n).Starts val mask)
    (hclean : ((s.interfaces n).setROMCnt val mask).Clean)
    (decrypt : U32 × U32 → U32 × U32) (time : ℕ) :
    (s.writeROMCnt decrypt n time val mask).Transfer n
      ((s.interfaces n).setROMCnt val mask).writes ((s.interfaces n).setROMCnt val mask).dataSize
      (.romCommandStart n :: s.log) [] 0 := by
  obtain ⟨hcarrying, hi⟩ := h.writeROMCnt hstarts decrypt time
  have hidle : ((s.interfaces n).setROMCnt val mask).romEvent = none := h.idle
  generalize (s.interfaces n).setROMCnt val mask = i at hclean hcarrying hi hidle ⊢
  generalize s.writeROMCnt decrypt n time val mask = s₀ at hcarrying hi ⊢
  obtain ⟨-, -, hposCPU, hposCart, hcount, hlate, hcnt, time', hevent⟩ :=
    Interface.startTransfer_fields
      (i := { i with romTransferPos := 0, romTransferLen := i.dataSize }) hidle time
  rw [← hi] at hposCPU hposCart hcount hlate hcnt hevent
  change (s₀.interfaces n).romCnt = (if i.writes then i.raiseDRQ.romCnt else i.romCnt) at hcnt
  change (s₀.interfaces n).romEvent = some (if i.dataSize = 0 then .end else
    if i.writes then .sendData else .receiveData, time') at hevent
  rw [Interface.Clean] at hclean
  have hempty (data : Bool → U32) : TwoPlaceFifo data false false 0 [] := .empty rfl
  cases hwrites : i.writes with
  | false =>
    rw [hwrites] at hcarrying hcnt hevent
    rw [hwrites, if_neg Bool.false_ne_true] at hclean
    have hquiet : (s₀.interfaces n).dataRequest = false :=
      (congrArg (·.getLsbD 23) hcnt).trans hclean
    by_cases hlen : i.dataSize = 0
    · rw [if_pos hlen] at hevent
      exact .ending []
        { toCarrying := hcarrying
          delivered := rfl
          finished := hlen.symm
          counted := rfl
          quiet := hquiet
          empty := hcount
          next := ⟨time', hevent⟩ }
    · rw [if_neg hlen] at hevent
      exact .receiving [] rfl
        { toCarrying := hcarrying
          buffered := ⟨[], rfl, by rw [hposCPU, hposCart, hcount]; exact hempty _⟩
          counted := rfl
          next := .inl ⟨⟨time', hevent⟩, hlate, Nat.pos_of_ne_zero hlen, by omega,
            fun _ => hquiet⟩ }
  | true =>
    rw [hwrites] at hcarrying hcnt hevent
    rw [hwrites, if_pos rfl] at hclean
    rw [if_neg hclean] at hevent
    have hrequest : (s₀.interfaces n).dataRequest :=
      (congrArg (·.getLsbD 23) hcnt).trans i.raiseDRQ_bits.1
    exact .sending [] rfl
      { toCarrying := hcarrying
        buffered := ⟨[], rfl, by rw [hposCPU, hposCart, hcount]; exact hempty _⟩
        unfinished := Nat.pos_of_ne_zero hclean
        next := .inl ⟨⟨time', hevent⟩, hlate, hrequest, hcount, rfl⟩ }

/-- A transfer whose data accesses answer requests takes every word past the CPU and the cart,
in order, and ends once. -/
theorem romTransfer_conserved (h : s.Ready n) {val mask : U32}
    (hstarts : (s.interfaces n).Starts val mask)
    (hclean : ((s.interfaces n).setROMCnt val mask).Clean)
    (decrypt : U32 × U32 → U32 × U32) (time : ℕ) (ops : List ROMOp)
    (hrequest : ∀ p ∈ trace (ROMOp.apply n) (s.writeROMCnt decrypt n time val mask) ops,
      p.2.Requested n p.1) :
    ∃ words, (ops.foldl (ROMOp.apply n) (s.writeROMCnt decrypt n time val mask)).Conserved n
      ((s.interfaces n).setROMCnt val mask).writes ((s.interfaces n).setROMCnt val mask).dataSize
      (.romCommandStart n :: s.log)
      (cpuWords n (trace (ROMOp.apply n) (s.writeROMCnt decrypt n time val mask) ops))
      (cpuSteps n (trace (ROMOp.apply n) (s.writeROMCnt decrypt n time val mask) ops)) words := by
  have hrun := (h.transfer hstarts hclean decrypt time).run hrequest
  rw [List.nil_append, Nat.zero_add] at hrun
  exact hrun.conserved

end Runs

/-- ROM mode with the interrupt at the end. -/
def romSlot : Slot (CartROM × CartCommon) := freshSlot.writeSPICnt .arm9 0 0xC000 0xFFFF

/-- One word, read as soon as it has come. -/
theorem romTransfer_conserved_oneWord :
    (∀ p ∈ trace (ROMOp.apply .arm9) (romSlot.writeROMCnt id .arm9 0 0x87000000 0xFFFFFFFF)
      [.event 60, .readData 80], p.2.Requested .arm9 p.1) ∧
    ∃ words, ([.event 60, .readData 80].foldl (ROMOp.apply .arm9)
      (romSlot.writeROMCnt id .arm9 0 0x87000000 0xFFFFFFFF)).Conserved .arm9 false 4
        [.romCommandStart .arm9] [0] 2 words := by
  have hrequest : ∀ p ∈ trace (ROMOp.apply .arm9)
      (romSlot.writeROMCnt id .arm9 0 0x87000000 0xFFFFFFFF) [.event 60, .readData 80],
      p.2.Requested .arm9 p.1 := by
    decide +kernel
  exact ⟨hrequest, romTransfer_conserved (s := romSlot) ⟨rfl, rfl, rfl, rfl, rfl⟩
    ⟨by decide, by decide, by decide⟩ (by decide) id 0 _ hrequest⟩

/-- A write without length has started. -/
def zeroLengthWrite : Slot (CartROM × CartCommon) :=
  romSlot.writeROMCnt id .arm9 0 0xC0000000 0xFFFFFFFF

/-- It has ended, and a read of one word has started. -/
def readAfterwards : Slot (CartROM × CartCommon) :=
  (zeroLengthWrite.romEvent .arm9 40).writeROMCnt id .arm9 50 0x87000000 0xFFFFFFFF

/-- A write without length requests a word all the same, and the cart never gets it. A request
that nobody answers is still there for the next read, which then brings a word too many. -/
theorem zeroLengthWrite_lost :
    (∀ p ∈ trace (ROMOp.apply .arm9) zeroLengthWrite
      [.writeData 10 0x12345678 0xFFFFFFFF, .event 40], p.2.Requested .arm9 p.1) ∧
    cpuWords .arm9 (trace (ROMOp.apply .arm9) zeroLengthWrite
      [.writeData 10 0x12345678 0xFFFFFFFF, .event 40]) = [0x12345678] ∧
    ([.writeData 10 0x12345678 0xFFFFFFFF, .event 40].foldl (ROMOp.apply .arm9)
      zeroLengthWrite).log = [.romCommandFinish .arm9, .transferIRQ .arm9, .romCommandStart .arm9] ∧
    (∀ p ∈ trace (ROMOp.apply .arm9) readAfterwards [.readData 51, .event 140, .readData 150],
      p.2.Requested .arm9 p.1) ∧
    (cpuWords .arm9 (trace (ROMOp.apply .arm9) readAfterwards
      [.readData 51, .event 140, .readData 150])).length = 2 ∧
    (readAfterwards.interfaces .arm9).romTransferLen = 4 := by
  refine ⟨?_, ?_, ?_, ?_, ?_, ?_⟩ <;> decide +kernel

end MelonDS.NDSCart
