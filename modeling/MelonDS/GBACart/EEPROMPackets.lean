import MelonDS.GBACart.EEPROMSession
import MelonDS.Library.Overwrite
import MelonDS.Library.Trace
import MelonDS.Savestate.Reader
import MelonDS.Savestate.Writer

/-!
# Packets of the serial EEPROM

A write packet is the bits 1, 0, the address, 64 data bits and a dummy bit; a read packet is
1, 1, the address and a dummy bit, and is answered by four zeros and the block. A run either
has a session open, and then it ends with the calls of that session, or the chip is idle.
-/

namespace MelonDS.GBACart

open EEPROM (Session writeBusyCycles)

/-- The bytes of a block, most significant first. -/
def blockBytes (v : U64) : List U8 := (toBytes 8 v.toNat).reverse

theorem length_blockBytes (v : U64) : (blockBytes v).length = 8 := by
  simp [blockBytes]

theorem getD_blockBytes (v : U64) {i : ℕ} (hi : i < 8) :
    (blockBytes v).getD i 0 = (v >>> (56 - 8 * i)).setWidth 8 := by
  have hreverse : (blockBytes v).getD i 0 = (toBytes 8 v.toNat).getD (7 - i) 0 := by
    rw [blockBytes, List.getD_eq_getElem?_getD, List.getD_eq_getElem?_getD,
      List.getElem?_reverse (by simpa using hi), length_toBytes, show 8 - 1 - i = 7 - i by omega]
  rw [hreverse, getD_toBytes (by omega)]
  apply BitVec.eq_of_toNat_eq
  rw [BitVec.toNat_ofNat, BitVec.toNat_setWidth, BitVec.toNat_ushiftRight,
    Nat.shiftRight_eq_div_pow, show 56 - 8 * i = 8 * (7 - i) by omega, Nat.pow_mul]

theorem storeBlock_eq {save : List U8} {offset : ℕ} (h : offset + 8 ≤ save.length) (v : U64) :
    EEPROM.storeBlock offset v save = overwrite save offset (blockBytes v) := by
  have hbytes : (List.range 8).map (fun i => (v >>> (56 - 8 * i)).setWidth 8) = blockBytes v := by
    apply List.ext_getElem
    · rw [length_blockBytes, List.length_map, List.length_range]
    · intro i h₁ h₂
      have hi : i < 8 := by simpa using h₁
      have hbyte := getD_blockBytes v hi
      rw [List.getD_eq_getElem?_getD, List.getElem?_eq_getElem h₂, Option.getD_some] at hbyte
      rw [hbyte, List.getElem_map, List.getElem_range]
  rw [EEPROM.storeBlock, foldl_set _ h, hbytes]

theorem bitsValue_injective {as bs : List Bool} (hlength : as.length = bs.length)
    (h : bitsValue as = bitsValue bs) : as = bs := by
  induction as using List.reverseRecOn generalizing bs with
  | nil => exact (List.length_eq_zero_iff.mp hlength.symm).symm
  | append_singleton as a ih =>
    rcases List.eq_nil_or_concat bs with rfl | ⟨bs, b, rfl⟩
    · simp at hlength
    · have ha := a.toNat_le
      have hb := b.toNat_le
      rw [List.concat_eq_append, bitsValue_concat, bitsValue_concat] at h
      simp only [List.concat_eq_append] at hlength ⊢
      simp only [List.length_append, List.length_singleton, Nat.add_right_cancel_iff] at hlength
      have hhead : as = bs := ih hlength (by omega)
      have hlast : a = b := by
        have hnat : a.toNat = b.toNat := by omega
        revert hnat
        cases a <;> cases b <;> decide
      rw [hhead, hlast]

theorem bitsOf_bitsValue {bits : List Bool} {w : ℕ} (h : bits.length = w) :
    bitsOf (BitVec.ofNat w (bitsValue bits)) = bits := by
  apply bitsValue_injective
  · rw [length_bitsOf, h]
  · have hlt := bitsValue_lt bits
    rw [h] at hlt
    rw [bitsValue_bitsOf, BitVec.toNat_ofNat, Nat.mod_eq_of_lt hlt]

namespace Call

/-- The bit that a call sends. -/
def sent : Call → List Bool
  | .write value _ => [value.getLsbD 0]
  | .read _ | .deselect _ | .reset => []

/-- A read or a write. -/
def IsAccess : Call → Prop
  | .read _ | .write _ _ => True
  | .deselect _ | .reset => False

/-- An access finds the chip ready. -/
def FindsReady (c : Chip) : Call → Prop
  | .read timestamp | .write _ timestamp => c.eeprom.ready timestamp = true
  | .deselect _ | .reset => True

end Call

def bitsSent (calls : List Call) : List Bool := calls.flatMap Call.sent

namespace Chip

/-- The chip and its storage after the bits of a session. -/
structure Holds (size : ℕ) (sent : List Bool) (answered : ℕ) (c : Chip) : Prop where
  session : Session size sent answered c.eeprom
  save : c.save.length = size

variable {size answered : ℕ} {sent : List Bool} {c : Chip}

/-- The last write of a packet: it stores the block, unless the busy time would overflow. -/
inductive Commits (size : ℕ) (addr : List Bool) (v : U64) (timestamp : U64) (c c' : Chip)
    (reply : Reply) : Prop
  | refused (hlate : 0xFFFFFFFFFFFFFFFF - writeBusyCycles < timestamp)
    (hchip : c' = ⟨⟨.idle, 0, 0, 0, 0, 0⟩, c.save⟩) (hreply : reply = .changed none)
  | stored (htime : timestamp ≤ 0xFFFFFFFFFFFFFFFF - writeBusyCycles)
    (hchip : c' = ⟨⟨.idle, 0, 0, 0, 0, timestamp + writeBusyCycles⟩,
      overwrite c.save (8 * blockOf size addr) (blockBytes v)⟩)
    (hreply : reply = .changed (some (8 * blockOf size addr)))

theorem Holds.block_room (h : c.Holds size sent answered) (hsize : ChipSize size)
    (addr : List Bool) : 8 * blockOf size addr + 8 ≤ c.save.length := by
  have hlt := blockOf_lt hsize addr
  rw [h.save]
  omega

theorem Holds.commits (h : c.Holds size sent answered) (hsize : ChipSize size)
    {timestamp : U64} {value : U16} {addr data : List Bool}
    (hwrite : c.eeprom.write value c.save timestamp = EEPROM.commit c.save timestamp
      ⟨.writeDummy, EEPROM.addressBitsOf size, 0, BitVec.ofNat 16 (blockOf size addr),
        BitVec.ofNat 64 (bitsValue data), 0⟩) :
    Commits size addr (BitVec.ofNat 64 (bitsValue data)) timestamp c
      (c.step (.write value timestamp)) (c.reply (.write value timestamp)) := by
  have hroom := h.block_room hsize addr
  have hoffset : (BitVec.ofNat 16 (blockOf size addr)).toNat * 8 = 8 * blockOf size addr := by
    rw [EEPROM.ofNat_block hsize, Nat.mul_comm]
  have hstore := storeBlock_eq hroom (BitVec.ofNat 64 (bitsValue data))
  rw [step, reply, hwrite]
  by_cases hlate : 0xFFFFFFFFFFFFFFFF - writeBusyCycles < timestamp
  · rw [EEPROM.commit_late hlate]
    exact .refused hlate rfl rfl
  · rw [EEPROM.commit_stored hlate, hoffset, hstore]
    exact .stored (BitVec.not_lt.mp hlate) rfl rfl

/-- A write to a chip that is ready. -/
theorem Holds.write (h : c.Holds size sent answered) (hsize : ChipSize size) {timestamp : U64}
    (hready : c.eeprom.ready timestamp = true) (value : U16) :
    (sent = [] ∧ value.getLsbD 0 = false ∧ (c.step (.write value timestamp)).Holds size [] 0 ∧
        (c.step (.write value timestamp)).save = c.save ∧
        c.reply (.write value timestamp) = .changed none) ∨
      (∃ addr v, addr.length = addressLength size ∧
        sent = true :: false :: addr ++ bitsOf v ∧
        Commits size addr v timestamp c (c.step (.write value timestamp))
          (c.reply (.write value timestamp))) ∨
      ((c.step (.write value timestamp)).Holds size (sent ++ [value.getLsbD 0]) answered ∧
        (c.step (.write value timestamp)).save = c.save ∧
        c.reply (.write value timestamp) = .changed none) := by
  have hwrite := h.session.write_ready hsize h.save hready value
  rcases h.session.awake.clock hsize h.save (value.getLsbD 0) timestamp with
    ⟨hsent, hbit, hclock⟩ | ⟨addr, data, haddr, hdata, hsent, heeprom⟩ | ⟨e', hclock, hmore⟩
  · rw [hclock] at hwrite
    refine .inl ⟨hsent, hbit, ?_, ?_, ?_⟩
    · rw [step, hwrite]
      have hidle := h.session.awake
      rw [hsent] at hidle
      rw [hidle.answered_zero] at hidle
      exact ⟨hidle, h.save⟩
    · rw [step, hwrite]
    · rw [reply, hwrite]
  · rw [heeprom] at hwrite
    refine .inr (.inl ⟨addr, BitVec.ofNat 64 (bitsValue data), haddr, ?_, ?_⟩)
    · rw [bitsOf_bitsValue hdata, hsent]
    · exact h.commits hsize hwrite
  · rw [hclock] at hwrite
    refine .inr (.inr ⟨⟨?_, ?_⟩, ?_, ?_⟩)
    · rw [step, hwrite]
      exact hmore rfl
    · rw [step, hwrite]
      exact h.save
    · rw [step, hwrite]
    · rw [reply, hwrite]

/-- A read from a chip that is ready. -/
theorem Holds.read (h : c.Holds size sent answered) (hsize : ChipSize size) {timestamp : U64}
    (hready : c.eeprom.ready timestamp = true) :
    (c.step (.read timestamp)).save = c.save ∧
      if c.eeprom.state = .readData then
        c.reply (.read timestamp) = .bit (c.eeprom.replyBit c.save) ∧
          (answered + 1 < 68 ∧ (c.step (.read timestamp)).Holds size sent (answered + 1) ∨
            answered + 1 = 68 ∧ (c.step (.read timestamp)).Holds size [] 0)
      else (c.step (.read timestamp)).Holds size sent answered := by
  have hread := h.session.read_ready hsize h.save hready
  refine ⟨rfl, ?_⟩
  split_ifs with hstate
  · rw [if_pos hstate] at hread
    refine ⟨?_, ?_⟩
    · rw [reply, hread]
      rfl
    · rw [step, hread]
      rcases h.session.awake.nextReply hstate with ⟨hlt, hnext⟩ | ⟨hlast, hnext⟩
      · exact .inl ⟨hlt, hnext, h.save⟩
      · exact .inr ⟨hlast, hnext, h.save⟩
  · rw [if_neg hstate] at hread
    rw [step, hread]
    exact ⟨h.session.awake, h.save⟩

/-! ## Packets -/

/-- The writes of values at their times. -/
def writes (packet : List (U16 × U64)) : List Call := packet.map fun p => .write p.1 p.2

/-- The bits of the values. -/
def packetBits (packet : List (U16 × U64)) : List Bool := packet.map fun p => p.1.getLsbD 0

theorem session_write_length {e : EEPROM} {rest : List Bool}
    (h : Session size (true :: false :: rest) answered e) :
    rest.length ≤ addressLength size + 64 := by
  generalize hsent : true :: false :: rest = sent at h
  cases h with
  | idle | command => simp at hsent
  | readAddress | readDummy | readData => simp at hsent
  | writeAddress addr h =>
    simp only [List.cons.injEq, true_and] at hsent
    rw [hsent]
    omega
  | writeData addr h data hdata | writeDummy addr h data hdata =>
    simp only [List.cons_append, List.cons.injEq, true_and] at hsent
    rw [hsent, List.length_append]
    omega

theorem session_read_eq {e : EEPROM} {addr extra : List Bool} {dummy : Bool}
    (haddr : addr.length = addressLength size)
    (h : Session size (true :: true :: addr ++ dummy :: extra) answered e) :
    answered < 68 ∧ e = ⟨.readData, EEPROM.addressBitsOf size, BitVec.ofNat 8 answered,
      BitVec.ofNat 16 (blockOf size addr), 0, 0⟩ := by
  generalize hsent : true :: true :: addr ++ dummy :: extra = sent at h
  cases h with
  | idle | command => simp at hsent
  | writeAddress | writeData | writeDummy => simp at hsent
  | readAddress addr' h | readDummy addr' h =>
    simp only [List.cons_append, List.cons.injEq, true_and] at hsent
    have hlength := congrArg List.length hsent
    rw [List.length_append, List.length_cons] at hlength
    omega
  | readData addr' h dummy' extra' answered hanswered =>
    simp only [List.cons_append, List.cons.injEq, true_and] at hsent
    obtain ⟨rfl, -⟩ := List.append_inj hsent (haddr.trans h.symm)
    exact ⟨hanswered, rfl⟩

/-- Bits that neither complete a write packet nor wait for a start extend the session. -/
theorem Holds.sends (h : c.Holds size sent answered) (hsize : ChipSize size)
    (front : List (U16 × U64))
    (hready : ∀ p, front.head? = some p → c.eeprom.ready p.2 = true)
    (hstart : sent = [] → ∀ p, front.head? = some p → p.1.getLsbD 0 = true)
    (hlength : sent.length + front.length ≤ addressLength size + 66) :
    ((writes front).foldl step c).Holds size (sent ++ packetBits front) answered ∧
      ((writes front).foldl step c).save = c.save ∧
      ∀ p ∈ trace step c (writes front), p.1.reply p.2 = .changed none := by
  induction front generalizing c sent with
  | nil =>
    refine ⟨?_, rfl, List.forall_mem_nil _⟩
    have hnil : sent ++ packetBits [] = sent := List.append_nil sent
    rw [hnil]
    exact h
  | cons p front ih =>
    rw [List.length_cons] at hlength
    rcases h.write hsize (hready p rfl) p.1 with
      ⟨hsent, hbit, -⟩ | ⟨addr, v, haddr, hsent, -⟩ | ⟨hmore, hsave, hreply⟩
    · exact absurd ((hstart hsent p rfl).symm.trans hbit) Bool.true_eq_false.mp
    · rw [hsent, List.length_append, List.length_cons, List.length_cons, haddr,
        length_bitsOf] at hlength
      omega
    · have hne : sent ++ [p.1.getLsbD 0] ≠ [] := by simp
      obtain ⟨hholds, hkept, hreplies⟩ := ih hmore (fun q _ => hmore.session.ready hne q.2)
        (fun hnil => absurd hnil hne) (by simp only [List.length_append, List.length_singleton]; omega)
      rw [List.append_assoc] at hholds
      exact ⟨hholds, hkept.trans hsave, List.forall_mem_cons.mpr ⟨hreply, hreplies⟩⟩

/-- A complete write packet to an idle chip. -/
theorem Holds.writePacket (h : c.Holds size [] answered) (hsize : ChipSize size)
    {front : List (U16 × U64)} {last : U16 × U64} {addr : List Bool} {v : U64}
    (haddr : addr.length = addressLength size)
    (hbits : packetBits front = true :: false :: addr ++ bitsOf v)
    (hready : ∀ p, front.head? = some p → c.eeprom.ready p.2 = true) :
    let r := (writes front).foldl step c
    r.save = c.save ∧ (∀ p ∈ trace step c (writes front), p.1.reply p.2 = .changed none) ∧
      Commits size addr v last.2 r (r.step (.write last.1 last.2))
        (r.reply (.write last.1 last.2)) := by
  intro r
  have hlength : front.length = addressLength size + 66 := by
    have hcount := congrArg List.length hbits
    simp only [packetBits, List.length_map, List.length_append, List.length_cons,
      length_bitsOf] at hcount
    omega
  have hfirst : ∀ p, front.head? = some p → p.1.getLsbD 0 = true := by
    intro p hp
    obtain ⟨rest, rfl⟩ := List.head?_eq_some_iff.mp hp
    simp only [packetBits, List.map_cons, List.cons_append, List.cons.injEq] at hbits
    exact hbits.1
  obtain ⟨hholds, hsave, hreplies⟩ := h.sends hsize front hready (fun _ => hfirst)
    (by rw [List.length_nil]; omega)
  rw [List.nil_append, hbits] at hholds
  refine ⟨hsave, hreplies, ?_⟩
  have hreadyLast : r.eeprom.ready last.2 = true := hholds.session.ready (by simp) last.2
  rcases hholds.write hsize hreadyLast last.1 with
    ⟨hsent, -⟩ | ⟨addr', v', haddr', hsent, hcommit⟩ | ⟨hmore, -⟩
  · simp at hsent
  · simp only [List.cons_append, List.cons.injEq, true_and] at hsent
    obtain ⟨rfl, hv⟩ := List.append_inj hsent (haddr.trans haddr'.symm)
    have hvalue : v' = v := by
      apply BitVec.eq_of_toNat_eq
      rw [← bitsValue_bitsOf, ← bitsValue_bitsOf, hv]
    rw [hvalue] at hcommit
    exact hcommit
  · have hlong : (addr ++ bitsOf v ++ [last.1.getLsbD 0]).length ≤ addressLength size + 64 :=
      session_write_length hmore.session
    rw [List.length_append, List.length_append, haddr, length_bitsOf,
      List.length_singleton] at hlong
    omega

/-! ## Replies -/

/-- The bits of a reply: four zeros, then the block. -/
def answer (v : U64) : List Bool := List.replicate 4 false ++ bitsOf v

theorem getD_answer (v : U64) {n : ℕ} (hn : n < 68) :
    (answer v).getD n false = if n < 4 then false else v.getLsbD (63 - (n - 4)) := by
  rw [answer, List.getD_eq_getElem?_getD]
  split_ifs with h
  · rw [List.getElem?_append_left (by simpa using h), List.getElem?_replicate, if_pos h]
    rfl
  · have hrange : n - 4 < 64 := by omega
    rw [List.getElem?_append_right (by simpa using not_lt.mp h), List.length_replicate, bitsOf,
      List.getElem?_map, List.getElem?_range hrange]
    rfl

theorem shifted_byte (v : U64) {bit : ℕ} (hbit : bit < 64) :
    ((blockBytes v).getD (bit / 8) 0 >>> (7 - bit % 8) &&& 1).setWidth 16 =
      (BitVec.ofBool (v.getLsbD (63 - bit))).setWidth 16 := by
  rw [getD_blockBytes v (by omega)]
  refine BitVec.eq_of_getLsbD_eq fun i hi => ?_
  have hindex : 56 - 8 * (bit / 8) + (7 - bit % 8) = 63 - bit := by omega
  have hlow : 7 - bit % 8 < 8 := by omega
  simp only [BitVec.getLsbD_setWidth, BitVec.getLsbD_and, BitVec.getLsbD_ushiftRight]
  cases i with
  | zero => simp [hindex, hlow]
  | succ i => simp

/-- The bytes of the block at a list of bytes. -/
def Stores (save : List U8) (block : ℕ) (v : U64) : Prop := slice save (8 * block) 8 = blockBytes v

theorem getD_slice (save : List U8) (off : ℕ) {i n : ℕ} (hi : i < n) :
    (slice save off n).getD i 0 = save.getD (off + i) 0 := by
  rw [slice, List.getD_eq_getElem?_getD, List.getElem?_take_of_lt hi, List.getElem?_drop,
    List.getD_eq_getElem?_getD]

theorem replyBit_eq (hsize : ChipSize size) {save : List U8} {addr : List Bool} {v : U64}
    (hstores : Stores save (blockOf size addr) v) (hanswered : answered < 68) :
    EEPROM.replyBit save ⟨.readData, EEPROM.addressBitsOf size, BitVec.ofNat 8 answered,
        BitVec.ofNat 16 (blockOf size addr), 0, 0⟩ =
      (BitVec.ofBool ((answer v).getD answered false)).setWidth 16 := by
  have hnat : (BitVec.ofNat 8 answered).toNat = answered := by
    rw [BitVec.toNat_ofNat]
    omega
  have hfour : (4 : U8) ≤ BitVec.ofNat 8 answered ↔ 4 ≤ answered := by
    rw [BitVec.le_def, hnat]
    exact Iff.rfl
  rw [getD_answer v hanswered, EEPROM.replyBit]
  dsimp only
  rw [hnat, EEPROM.ofNat_block hsize]
  by_cases h : answered < 4
  · rw [if_neg (by rw [hfour]; omega), if_pos h]
    rfl
  · have hbit : answered - 4 < 64 := by omega
    have hbyte : (answered - 4) / 8 < 8 := by omega
    rw [if_pos (by rw [hfour]; omega), if_neg h, Nat.mul_comm, ← getD_slice save _ hbyte, hstores]
    exact shifted_byte v hbit

/-- The reads at their times. -/
def reads (times : List U64) : List Call := times.map .read

/-- The rest of a reply. -/
theorem Holds.answers (hsize : ChipSize size) {addr extra : List Bool} {dummy : Bool}
    {v : U64} (haddr : addr.length = addressLength size) (times : List U64)
    (h : c.Holds size (true :: true :: addr ++ dummy :: extra) answered)
    (hstores : Stores c.save (blockOf size addr) v) (hcount : answered + times.length = 68) :
    (trace step c (reads times)).map (fun p => p.1.reply p.2) =
      ((answer v).drop answered).map fun b => Reply.bit ((BitVec.ofBool b).setWidth 16) := by
  have hlength : (answer v).length = 68 := by simp [answer]
  induction times generalizing c answered with
  | nil =>
    rw [List.drop_of_length_le (by rw [hlength, ← hcount]; exact Nat.le_refl _)]
    rfl
  | cons time times ih =>
    rw [List.length_cons] at hcount
    obtain ⟨hanswered, heeprom⟩ := session_read_eq haddr h.session
    have hready : c.eeprom.ready time = true := h.session.ready (by simp) time
    have hstate : c.eeprom.state = .readData := by rw [heeprom]
    have hread := (h.read hsize hready).2
    rw [if_pos hstate] at hread
    have hbit : c.reply (.read time) = .bit ((BitVec.ofBool ((answer v).getD answered false)).setWidth 16) := by
      rw [hread.1, heeprom, replyBit_eq hsize hstores hanswered]
    have hdrop : (answer v).drop answered =
        (answer v).getD answered false :: (answer v).drop (answered + 1) := by
      rw [List.drop_eq_getElem_cons (by omega), List.getD_eq_getElem?_getD,
        List.getElem?_eq_getElem (by omega), Option.getD_some]
    rw [hdrop, List.map_cons, ← hbit]
    refine congrArg (_ :: ·) ?_
    rcases hread.2 with ⟨-, hnext⟩ | ⟨hlast, -⟩
    · exact ih hnext hstores (by omega)
    · have htimes : times = [] := List.length_eq_zero_iff.mp (by omega)
      rw [htimes, List.drop_of_length_le (by rw [hlength, hlast])]
      rfl

/-- A complete read packet to an idle chip, and any number of deselections before its reply. -/
theorem Holds.readPacket (h : c.Holds size [] answered) (hsize : ChipSize size)
    {packet : List (U16 × U64)} {addr : List Bool} {dummy : Bool} {v : U64}
    (haddr : addr.length = addressLength size)
    (hbits : packetBits packet = true :: true :: addr ++ [dummy])
    (hready : ∀ p, packet.head? = some p → c.eeprom.ready p.2 = true)
    (hstores : Stores c.save (blockOf size addr) v) (gaps : ℕ) {times : List U64}
    (htimes : times.length = 68) :
    let r := (List.replicate gaps (Call.deselect false)).foldl step
      ((writes packet).foldl step c)
    (trace step r (reads times)).map (fun p => p.1.reply p.2) =
      (answer v).map fun b => Reply.bit ((BitVec.ofBool b).setWidth 16) := by
  intro r
  have hlength : packet.length = addressLength size + 3 := by
    have hcount := congrArg List.length hbits
    simp only [packetBits, List.length_map, List.length_append, List.length_cons,
      List.length_nil] at hcount
    omega
  have hfirst : ∀ p, packet.head? = some p → p.1.getLsbD 0 = true := by
    intro p hp
    obtain ⟨rest, rfl⟩ := List.head?_eq_some_iff.mp hp
    simp only [packetBits, List.map_cons, List.cons_append, List.cons.injEq] at hbits
    exact hbits.1
  obtain ⟨hholds, hsave, -⟩ := h.sends hsize packet hready (fun _ => hfirst)
    (by rw [List.length_nil]; omega)
  rw [List.nil_append, hbits, h.session.answered_zero] at hholds
  have hgap : r = (writes packet).foldl step c := by
    obtain ⟨-, heeprom⟩ := session_read_eq haddr hholds.session
    have hstep : ((writes packet).foldl step c).step (.deselect false) =
        (writes packet).foldl step c := by
      have hkeep : ((writes packet).foldl step c).eeprom.deselect false =
          ((writes packet).foldl step c).eeprom := by
        rw [heeprom]
        rfl
      rw [step, hkeep]
    change (List.replicate gaps (Call.deselect false)).foldl step _ = _
    induction gaps with
    | zero => rfl
    | succ gaps ih => rw [List.replicate_succ, List.foldl_cons, hstep, ih]
  rw [hgap]
  have hstores' : Stores ((writes packet).foldl step c).save (blockOf size addr) v := by
    rw [hsave]
    exact hstores
  exact hholds.answers hsize haddr times hstores' (by omega)

/-- Eight bytes of a save are a word. -/
theorem exists_stores {save : List U8} {block : ℕ} (h : 8 * block + 8 ≤ save.length) :
    ∃ v, Stores save block v := by
  have hlength := length_slice h
  have hlength' : (slice save (8 * block) 8).reverse.length = 8 := by
    rw [List.length_reverse, hlength]
  have hlt := ofBytes_lt (slice save (8 * block) 8).reverse
  rw [hlength'] at hlt
  refine ⟨BitVec.ofNat 64 (ofBytes (slice save (8 * block) 8).reverse), ?_⟩
  have hback := toBytes_ofBytes (slice save (8 * block) 8).reverse
  rw [hlength'] at hback
  have hvalue : ofBytes (slice save (8 * block) 8).reverse % 2 ^ 64 =
      ofBytes (slice save (8 * block) 8).reverse := Nat.mod_eq_of_lt hlt
  rw [Stores, blockBytes, BitVec.toNat_ofNat, hvalue, hback, List.reverse_reverse]

/-! ## Runs -/

/-- A run ends with the calls of the open session, which began at an idle chip. -/
structure Open (size : ℕ) (start : Chip) (calls : List Call) (before within : List Call)
    (answered : ℕ) : Prop where
  split : calls = before ++ within
  idle : (before.foldl step start).eeprom.state = .idle
  holds : (calls.foldl step start).Holds size (bitsSent within) answered
  accesses : (∀ call ∈ within, call.IsAccess) ∨ (calls.foldl step start).eeprom.state = .readData
  ready : ∀ p ∈ trace step (before.foldl step start) within, p.2.FindsReady p.1

variable {start : Chip} {calls before within : List Call}

/-- Between sessions the open one is empty. -/
theorem open_of_idle (h : (calls.foldl step start).Holds size [] answered) :
    Open size start calls calls [] answered :=
  ⟨(List.append_nil calls).symm, h.session.idle_iff.mpr rfl, h, .inl (List.forall_mem_nil _),
    List.forall_mem_nil _⟩

theorem Open.chip (h : Open size start calls before within answered) :
    within.foldl step (before.foldl step start) = calls.foldl step start := by
  rw [h.split, List.foldl_append]

theorem bitsSent_concat (calls : List Call) (call : Call) :
    bitsSent (calls ++ [call]) = bitsSent calls ++ call.sent := by
  simp [bitsSent]

theorem foldl_concat (calls : List Call) (call : Call) (start : Chip) :
    (calls ++ [call]).foldl step start = (calls.foldl step start).step call := by
  rw [List.foldl_append]
  rfl

/-- A call that extends the session. -/
theorem Open.extend (h : Open size start calls before within answered) {call : Call}
    {answered' : ℕ} (hholds : ((calls.foldl step start).step call).Holds size
      (bitsSent within ++ call.sent) answered')
    (haccess : call.IsAccess ∨ ((calls.foldl step start).step call).eeprom.state = .readData)
    (hkeep : (calls.foldl step start).eeprom.state = .readData →
      ((calls.foldl step start).step call).eeprom.state = .readData)
    (hready : call.FindsReady (calls.foldl step start)) :
    Open size start (calls ++ [call]) before (within ++ [call]) answered' where
  split := by rw [h.split, List.append_assoc]
  idle := h.idle
  holds := by
    rw [foldl_concat, bitsSent_concat]
    exact hholds
  accesses := by
    rw [foldl_concat]
    rcases h.accesses with hall | hstate
    · rcases haccess with hone | hstate
      · exact .inl (List.forall_mem_append.mpr ⟨hall, List.forall_mem_singleton.mpr hone⟩)
      · exact .inr hstate
    · exact .inr (hkeep hstate)
  ready := by
    rw [trace_append]
    refine List.forall_mem_append.mpr ⟨h.ready, List.forall_mem_singleton.mpr ?_⟩
    rw [h.chip]
    exact hready

theorem session_readData_sent {e : EEPROM} (h : Session size sent answered e)
    (hstate : e.state = .readData) : ∃ rest, sent = true :: true :: rest := by
  cases h with
  | readData addr haddr dummy extra answered hanswered => exact ⟨addr ++ dummy :: extra, rfl⟩
  | idle | command | readAddress | readDummy | writeAddress | writeData | writeDummy =>
    exact absurd hstate (by simp)

/-- A session of a read packet stays one while bits are written. -/
theorem readData_kept {e e' : EEPROM} {bits : List Bool} {answered' : ℕ}
    (h : Session size sent answered e) (hstate : e.state = .readData)
    (h' : Session size (sent ++ bits) answered' e') : e'.state = .readData := by
  cases h with
  | readData addr haddr dummy extra answered hanswered =>
    rw [List.append_assoc, List.cons_append] at h'
    rw [(session_read_eq haddr h').2]
  | idle | command | readAddress | readDummy | writeAddress | writeData | writeDummy =>
    exact absurd hstate (by simp)

theorem Holds.step_busy (h : c.Holds size sent answered) {timestamp : U64}
    (hbusy : c.eeprom.ready timestamp = false) {call : Call}
    (hcall : call = .read timestamp ∨ ∃ value, call = .write value timestamp) :
    sent = [] ∧ c.step call = c ∧ ∀ offset, c.reply call ≠ .changed (some offset) := by
  have hsent : sent = [] := by
    by_contra hne
    exact absurd (hbusy.symm.trans (h.session.ready hne timestamp)) Bool.false_ne_true
  rcases hcall with rfl | ⟨value, rfl⟩
  · refine ⟨hsent, ?_, fun _ heq => Reply.noConfusion heq⟩
    rw [step, EEPROM.read_busy hbusy]
  · refine ⟨hsent, ?_, fun _ heq => ?_⟩
    · rw [step, EEPROM.write_busy hbusy]
    · rw [reply, EEPROM.write_busy hbusy] at heq
      cases heq

theorem Commits.holds {addr : List Bool} {v timestamp : U64} {c' : Chip} {reply : Reply}
    (h : Commits size addr v timestamp c c' reply) (hsave : c.save.length = size) :
    c'.Holds size [] 0 := by
  cases h with
  | refused hlate hchip hreply =>
    rw [hchip]
    exact ⟨.idle 0 (.inl rfl), hsave⟩
  | stored htime hchip hreply =>
    rw [hchip]
    refine ⟨.idle _ (.inr ?_), (length_overwrite ..).trans hsave⟩
    have hlimit : (0xFFFFFFFFFFFFFFFF - writeBusyCycles : U64).toNat = 2 ^ 64 - 1 - 217841 := by
      decide
    have hbusy : writeBusyCycles.toNat = 217841 := rfl
    rw [BitVec.le_def, hlimit] at htime
    rw [BitVec.le_def, BitVec.toNat_add, hbusy]
    omega

/-- What a call does to the storage: nothing, or it stores the block of the packet that it
completes. -/
def Effect (size : ℕ) (within : List Call) (c : Chip) (call : Call) : Prop :=
  ((c.step call).save = c.save ∧ ∀ offset, c.reply call ≠ .changed (some offset)) ∨
    ∃ value timestamp addr v, call = .write value timestamp ∧
      addr.length = addressLength size ∧
      bitsSent within = true :: false :: addr ++ bitsOf v ∧
      Call.FindsReady c call ∧
      (c.step call).save = overwrite c.save (8 * blockOf size addr) (blockBytes v) ∧
      c.reply call = .changed (some (8 * blockOf size addr))

theorem Commits.effect {addr : List Bool} {v timestamp : U64} {value : U16}
    (h : Commits size addr v timestamp c (c.step (.write value timestamp))
      (c.reply (.write value timestamp)))
    (haddr : addr.length = addressLength size)
    (hsent : bitsSent within = true :: false :: addr ++ bitsOf v)
    (hready : c.eeprom.ready timestamp = true) :
    Effect size within c (.write value timestamp) := by
  cases h with
  | refused hlate hchip hreply =>
    refine .inl ⟨by rw [hchip], fun offset heq => ?_⟩
    rw [hreply] at heq
    cases heq
  | stored htime hchip hreply =>
    exact .inr ⟨value, timestamp, addr, v, rfl, haddr, hsent, hready, by rw [hchip], hreply⟩

theorem Open.step_deselect (h : Open size start calls before within answered) (abort : Bool) :
    ∃ before' within' answered',
      Open size start (calls ++ [Call.deselect abort]) before' within' answered' := by
  have hstep : (calls ++ [Call.deselect abort]).foldl step start =
      (calls.foldl step start).step (.deselect abort) := foldl_concat ..
  by_cases hclear : abort ∨ (calls.foldl step start).eeprom.state ≠ .readData ∨
      (calls.foldl step start).eeprom.bits ≠ 0
  · refine ⟨_, _, 0, open_of_idle ?_⟩
    rw [hstep, step, EEPROM.deselect, if_pos hclear]
    exact ⟨h.holds.session.clearProtocol, h.holds.save⟩
  · have hsame : (calls.foldl step start).step (.deselect abort) = calls.foldl step start := by
      rw [step, EEPROM.deselect, if_neg hclear]
    have hstate : (calls.foldl step start).eeprom.state = .readData := by
      by_contra hne
      exact hclear (.inr (.inl hne))
    refine ⟨before, within ++ [Call.deselect abort], answered, h.extend ?_ ?_ ?_ trivial⟩
    · rw [hsame, Call.sent, List.append_nil]
      exact h.holds
    · rw [hsame]
      exact .inr hstate
    · rw [hsame]
      exact id

theorem Open.step_read (h : Open size start calls before within answered) (hsize : ChipSize size)
    (timestamp : U64) : ∃ before' within' answered',
      Open size start (calls ++ [Call.read timestamp]) before' within' answered' := by
  have hstep : (calls ++ [Call.read timestamp]).foldl step start =
      (calls.foldl step start).step (.read timestamp) := foldl_concat ..
  cases hready : (calls.foldl step start).eeprom.ready timestamp with
  | false =>
    obtain ⟨hsent, hsame, -⟩ := h.holds.step_busy hready (.inl rfl)
    have hholds := h.holds
    rw [hsent] at hholds
    refine ⟨_, _, answered, open_of_idle ?_⟩
    rw [hstep, hsame]
    exact hholds
  | true =>
    obtain ⟨-, hread⟩ := h.holds.read hsize hready
    by_cases hstate : (calls.foldl step start).eeprom.state = .readData
    · rw [if_pos hstate] at hread
      rcases hread.2 with ⟨-, hnext⟩ | ⟨-, hidle⟩
      · have hkept : ((calls.foldl step start).step (.read timestamp)).eeprom.state =
            .readData := by
          have hnext' : Session size (bitsSent within ++ []) (answered + 1)
              ((calls.foldl step start).step (.read timestamp)).eeprom := by
            rw [List.append_nil]
            exact hnext.session
          exact readData_kept h.holds.session hstate hnext'
        refine ⟨before, within ++ [Call.read timestamp], answered + 1,
          h.extend ?_ (.inl trivial) (fun _ => hkept) hready⟩
        rw [Call.sent, List.append_nil]
        exact hnext
      · refine ⟨_, _, 0, open_of_idle ?_⟩
        rw [hstep]
        exact hidle
    · rw [if_neg hstate] at hread
      refine ⟨before, within ++ [Call.read timestamp], answered,
        h.extend ?_ (.inl trivial) (fun hdata => absurd hdata hstate) hready⟩
      rw [Call.sent, List.append_nil]
      exact hread

theorem Open.step_write (h : Open size start calls before within answered)
    (hsize : ChipSize size) (value : U16) (timestamp : U64) :
    (∃ before' within' answered',
      Open size start (calls ++ [Call.write value timestamp]) before' within' answered') ∧
      Effect size within (calls.foldl step start) (.write value timestamp) := by
  have hstep : (calls ++ [Call.write value timestamp]).foldl step start =
      (calls.foldl step start).step (.write value timestamp) := foldl_concat ..
  cases hready : (calls.foldl step start).eeprom.ready timestamp with
  | false =>
    obtain ⟨hsent, hsame, hreply⟩ := h.holds.step_busy hready (.inr ⟨value, rfl⟩)
    have hholds := h.holds
    rw [hsent] at hholds
    refine ⟨⟨_, _, answered, open_of_idle ?_⟩, .inl ⟨by rw [hsame], hreply⟩⟩
    rw [hstep, hsame]
    exact hholds
  | true =>
    rcases h.holds.write hsize hready value with
      ⟨-, -, hidle, hsave, hreply⟩ | ⟨addr, v, haddr, hsent, hcommit⟩ | ⟨hmore, hsave, hreply⟩
    · refine ⟨⟨_, _, 0, open_of_idle ?_⟩, .inl ⟨hsave, fun offset heq => ?_⟩⟩
      · rw [hstep]
        exact hidle
      · rw [hreply] at heq
        cases heq
    · refine ⟨⟨_, _, 0, open_of_idle ?_⟩, hcommit.effect haddr hsent hready⟩
      rw [hstep]
      exact hcommit.holds h.holds.save
    · refine ⟨⟨before, within ++ [Call.write value timestamp], answered,
        h.extend hmore (.inl trivial) (fun hdata => ?_) hready⟩,
        .inl ⟨hsave, fun offset heq => ?_⟩⟩
      · exact readData_kept h.holds.session hdata hmore.session
      · rw [hreply] at heq
        cases heq

theorem Open.step (h : Open size start calls before within answered) (hsize : ChipSize size)
    (call : Call) :
    (∃ before' within' answered', Open size start (calls ++ [call]) before' within' answered') ∧
      Effect size within (calls.foldl step start) call := by
  cases call with
  | read timestamp =>
    exact ⟨h.step_read hsize timestamp, .inl ⟨rfl, fun _ heq => Reply.noConfusion heq⟩⟩
  | write value timestamp => exact h.step_write hsize value timestamp
  | deselect abort =>
    exact ⟨h.step_deselect abort, .inl ⟨rfl, fun _ heq => Reply.noConfusion heq⟩⟩
  | reset =>
    refine ⟨⟨_, _, 0, open_of_idle ?_⟩, .inl ⟨rfl, fun _ heq => Reply.noConfusion heq⟩⟩
    rw [foldl_concat]
    exact ⟨.idle 0 (.inl rfl), h.holds.save⟩

/-- Every run from a reset chip has an open session or an idle chip. -/
theorem open_run (hsize : ChipSize size) {save : List U8} (hsave : save.length = size)
    (calls : List Call) : ∃ before within answered,
      Open size (initial save) calls before within answered := by
  induction calls using List.reverseRecOn with
  | nil => exact ⟨[], [], 0, open_of_idle ⟨.idle 0 (.inl rfl), hsave⟩⟩
  | append_singleton calls call ih =>
    obtain ⟨before, within, answered, h⟩ := ih
    exact (h.step hsize call).1

/-! ## Savestates -/

open Savestate in
theorem ofVars_vars (e : EEPROM) : EEPROM.ofVars e.vars = some e := by
  obtain ⟨state, addressBits, bits, address, data, busyUntil⟩ := e
  cases state <;> rfl

open Savestate in
theorem kinds_vars (e e' : EEPROM) : e.vars.map Var.kind = e'.vars.map Var.kind := rfl

/-- A valid chip is written, and nothing but the stream can fail. -/
theorem save_valid (realloc : U32 → Bool) {e : EEPROM} (h : e.isValid size = true)
    {file : Savestate} (hfile : file.error = false) (hsaving : file.saving = true) :
    e.doSavestate realloc size file = (e, (file.transferAll realloc e.vars).2) := by
  have hvars : (file.transferAll realloc e.vars).1 = e.vars :=
    Savestate.transferAll_saving_fst hsaving e.vars
  have hvalid : (EEPROM.ofVars (file.transferAll realloc e.vars).1).filter
      (EEPROM.isValid size) = some e := by
    rw [hvars, ofVars_vars, Option.filter_some, if_pos h]
  rw [EEPROM.doSavestate, if_neg (Bool.eq_false_iff.mp hfile), if_neg (fun hrefuse => hrefuse.2 h)]
  simp only [hvalid]
  split_ifs
  · rfl
  · rfl
  · rfl

/-- The bytes of a valid chip are read back into it, whatever the chip was before. -/
theorem load_valid (realloc : U32 → Bool) {e : EEPROM} (h : e.isValid size = true)
    {file : Savestate} {rest : List U8}
    (hfile : Savestate.Reading file (e.vars.flatMap Savestate.Var.bytes ++ rest))
    (e' : EEPROM) : (e'.doSavestate realloc size file).1 = e ∧
      Savestate.Reading (e'.doSavestate realloc size file).2 rest := by
  obtain ⟨hvars, hafter⟩ : (file.transferAll realloc e'.vars).1 = _ ∧ _ :=
    hfile.transferAll e'.vars
  rw [Savestate.readVars_bytes (kinds_vars e' e)] at hvars hafter
  have hreading : Savestate.Reading (file.transferAll realloc e'.vars).2 rest := hafter
  have hvalid : (EEPROM.ofVars (file.transferAll realloc e'.vars).1).filter
      (EEPROM.isValid size) = some e := by
    rw [hvars, ofVars_vars, Option.filter_some, if_pos h]
  have hload : e'.doSavestate realloc size file = (e, (file.transferAll realloc e'.vars).2) := by
    rw [EEPROM.doSavestate, if_neg (Bool.eq_false_iff.mp hfile.error),
      if_neg (fun hrefuse => Bool.eq_false_iff.mp hfile.saving hrefuse.1)]
    simp only [hvalid]
    rw [if_neg (Bool.eq_false_iff.mp hreading.error),
      if_pos (Bool.eq_false_iff.mp hreading.saving)]
  rw [hload]
  exact ⟨rfl, hreading⟩

/-! ## The protocol -/

/-- The chip passes the check of savestates, is written by every stream that does not fail and
is read back from what was written. -/
def Restorable (size : ℕ) (e : EEPROM) : Prop :=
  e.isValid size = true ∧
    ∀ (realloc : U32 → Bool) (file : Savestate) (cur : U32) (content : List U8),
      file.Writing cur content →
      (e.doSavestate realloc size file).1 = e ∧
      ((e.doSavestate realloc size file).2.error = false →
        (e.doSavestate realloc size file).2.Writing cur
          (content ++ e.vars.flatMap Savestate.Var.bytes)) ∧
      ∀ (e' : EEPROM) (source : Savestate) (rest : List U8),
        source.Reading (e.vars.flatMap Savestate.Var.bytes ++ rest) →
        (e'.doSavestate realloc size source).1 = e ∧
          (e'.doSavestate realloc size source).2.Reading rest

/-- A write packet stores its block at its last clock, unless the busy time overflows there. -/
def StoresPackets (size : ℕ) (c : Chip) : Prop :=
  ∀ (front : List (U16 × U64)) (last : U16 × U64) (addr : List Bool) (v : U64),
    addr.length = addressLength size →
    packetBits front = true :: false :: addr ++ bitsOf v →
    (∀ p, front.head? = some p → c.eeprom.ready p.2 = true) →
    last.2 ≤ 0xFFFFFFFFFFFFFFFF - writeBusyCycles →
    let calls := writes (front ++ [last])
    (calls.foldl step c).save = overwrite c.save (8 * blockOf size addr) (blockBytes v) ∧
      (trace step c calls).map (fun p => p.1.reply p.2) =
        List.replicate front.length (.changed none) ++
          [.changed (some (8 * blockOf size addr))] ∧
      (calls.foldl step c).eeprom = ⟨.idle, 0, 0, 0, 0, last.2 + writeBusyCycles⟩

/-- A read packet is answered by four zeros and the block. -/
def AnswersPackets (size : ℕ) (c : Chip) : Prop :=
  ∀ (packet : List (U16 × U64)) (addr : List Bool) (dummy : Bool) (gaps : ℕ) (times : List U64),
    addr.length = addressLength size →
    packetBits packet = true :: true :: addr ++ [dummy] →
    (∀ p, packet.head? = some p → c.eeprom.ready p.2 = true) →
    times.length = 68 →
    ∃ v, Stores c.save (blockOf size addr) v ∧
      (trace step ((List.replicate gaps (Call.deselect false)).foldl step
        ((writes packet).foldl step c)) (reads times)).map (fun p => p.1.reply p.2) =
      (List.replicate 4 false ++ bitsOf v).map fun b =>
        Reply.bit ((BitVec.ofBool b).setWidth 16)

/-- A call leaves the storage alone, or it completes a write packet whose bits have all been
written, each to a ready chip, since the chip was last idle, with no deselection between. -/
def ChangesByPacket (size : ℕ) (start : Chip) (calls : List Call) (call : Call) : Prop :=
  let c := calls.foldl step start
  ((c.step call).save = c.save ∧ ∀ offset, c.reply call ≠ .changed (some offset)) ∨
    ∃ before within value timestamp addr v,
      calls = before ++ within ∧ call = .write value timestamp ∧
      (before.foldl step start).eeprom.state = .idle ∧
      (∀ call ∈ within, call.IsAccess) ∧
      (∀ p ∈ trace step (before.foldl step start) (within ++ [call]), p.2.FindsReady p.1) ∧
      addr.length = addressLength size ∧
      bitsSent (within ++ [call]) = true :: false :: addr ++ bitsOf v ++ [value.getLsbD 0] ∧
      (c.step call).save = overwrite c.save (8 * blockOf size addr) (blockBytes v) ∧
      c.reply call = .changed (some (8 * blockOf size addr))

theorem Holds.restorable (h : c.Holds size sent answered) (hsize : ChipSize size) :
    Restorable size c.eeprom := by
  have hvalid := h.session.isValid hsize
  refine ⟨hvalid, fun realloc file cur content hfile => ?_⟩
  rw [save_valid realloc hvalid hfile.error hfile.saving]
  exact ⟨rfl, hfile.transferAll, fun e' source rest hsource => load_valid realloc hvalid hsource e'⟩

theorem Holds.storesPackets (h : c.Holds size [] answered) (hsize : ChipSize size) :
    StoresPackets size c := by
  intro front last addr v haddr hbits hready htime
  obtain ⟨hsave, hreplies, hcommit⟩ := h.writePacket hsize haddr hbits hready
  have hcalls : writes (front ++ [last]) = writes front ++ [Call.write last.1 last.2] := by
    simp [writes]
  have hfront : (trace step c (writes front)).map (fun p => p.1.reply p.2) =
      List.replicate front.length (.changed none) := by
    have hlength : (trace step c (writes front)).length = front.length := by
      rw [length_trace, writes, List.length_map]
    rw [← hlength, List.eq_replicate_iff]
    refine ⟨List.length_map _, fun reply hmem => ?_⟩
    obtain ⟨p, hp, rfl⟩ := List.mem_map.mp hmem
    exact hreplies p hp
  intro calls
  rw [show calls = _ from hcalls, List.foldl_append, trace_append, List.map_append, hfront,
    List.foldl_cons, List.foldl_nil]
  generalize (writes front).foldl step c = r at *
  cases hcommit with
  | refused hlate => exact absurd htime (BitVec.not_le.mpr hlate)
  | stored htime hchip hreply =>
    rw [hchip, hsave]
    refine ⟨rfl, ?_, rfl⟩
    rw [trace, trace, List.map_singleton, hreply]

theorem Holds.answersPackets (h : c.Holds size [] answered) (hsize : ChipSize size) :
    AnswersPackets size c := by
  intro packet addr dummy gaps times haddr hbits hready htimes
  obtain ⟨v, hv⟩ := exists_stores (h.block_room hsize addr)
  exact ⟨v, hv, h.readPacket hsize haddr hbits hready hv gaps htimes⟩

theorem Open.changesByPacket (h : Open size start calls before within answered)
    (hsize : ChipSize size) (call : Call) : ChangesByPacket size start calls call := by
  rcases (h.step hsize call).2 with hkept |
    ⟨value, timestamp, addr, v, hcall, haddr, hsent, hready, hsave, hreply⟩
  · exact .inl hkept
  · refine .inr ⟨before, within, value, timestamp, addr, v, h.split, hcall, h.idle, ?_, ?_,
      haddr, ?_, hsave, hreply⟩
    · refine h.accesses.resolve_right fun hstate => ?_
      have hread := h.holds.session
      rw [hsent] at hread
      obtain ⟨rest, hrest⟩ := session_readData_sent hread hstate
      simp at hrest
    · rw [trace_append]
      refine List.forall_mem_append.mpr ⟨h.ready, List.forall_mem_singleton.mpr ?_⟩
      rw [h.chip]
      exact hready
    · rw [bitsSent_concat, hsent, hcall]
      rfl

/-- In every state that the calls reach, at any times, the chip can be saved and reloaded, an
idle chip stores and answers complete packets, and no other call changes the storage. -/
theorem eeprom_protocol {size : ℕ} (hsize : ChipSize size) {save : List U8}
    (hsave : save.length = size) (calls : List Call) :
    Restorable size (calls.foldl step (initial save)).eeprom ∧
      ((calls.foldl step (initial save)).eeprom.state = .idle →
        StoresPackets size (calls.foldl step (initial save)) ∧
          AnswersPackets size (calls.foldl step (initial save))) ∧
      ∀ call, ChangesByPacket size (initial save) calls call := by
  obtain ⟨before, within, answered, h⟩ := open_run hsize hsave calls
  refine ⟨h.holds.restorable hsize, fun hidle => ?_, h.changesByPacket hsize⟩
  have hholds := h.holds
  rw [h.holds.session.idle_iff.mp hidle] at hholds
  exact ⟨hholds.storesPackets hsize, hholds.answersPackets hsize⟩

/-- A blank chip of 512 bytes after a start bit and an abort. -/
theorem eeprom_protocol_blank :
    StoresPackets 512 ([Call.write 1 0, Call.deselect true].foldl step
      (initial (List.replicate 512 0))) :=
  ((eeprom_protocol (.inl rfl) (List.length_replicate ..)
    [Call.write 1 0, Call.deselect true]).2.1 (by decide +kernel)).1

/-- The packet of the bits at the last timestamp. -/
def latePacket (bits : List Bool) : List (U16 × U64) :=
  bits.map fun b => ((BitVec.ofBool b).setWidth 16, 0xFFFFFFFFFFFFFFFF)

/-- At the last timestamps the busy time would overflow, and a complete packet is dropped. -/
theorem late_packet_dropped :
    ¬ ∀ (save : List U8) (front : List (U16 × U64)) (last : U16 × U64) (addr : List Bool)
      (v : U64), save.length = 512 → addr.length = addressLength 512 →
      packetBits front = true :: false :: addr ++ bitsOf v →
      (trace step (initial save) (writes (front ++ [last]))).map (fun p => p.1.reply p.2) =
        List.replicate front.length (.changed none) ++
          [.changed (some (8 * blockOf 512 addr))] := by
  intro h
  have hreplies := h (List.replicate 512 0)
    (latePacket (true :: false :: List.replicate 6 false ++ bitsOf (1 : U64)))
    (0, 0xFFFFFFFFFFFFFFFF) (List.replicate 6 false) 1 (List.length_replicate ..) rfl
    (by decide +kernel)
  revert hreplies
  decide +kernel

end Chip
end MelonDS.GBACart
