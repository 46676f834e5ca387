import MelonDS.GBACart.EEPROM
import MelonDS.Library.BitSerial

/-!
# Sessions of the serial EEPROM

Since it was last idle the chip has been sent some bits and has answered some. They determine
all of its state: the phase by their number, the address and the data by their values. Each
call extends the session, ends it, or finds the chip busy.
-/

namespace MelonDS.GBACart

/-- The two sizes of chips. -/
def ChipSize (size : ℕ) : Prop := size = 512 ∨ size = 8192

def addressLength (size : ℕ) : ℕ := if size = 512 then 6 else 14

/-- The block that address bits select: the chip decodes the low ones. -/
def blockOf (size : ℕ) (addr : List Bool) : ℕ := bitsValue addr % (size / 8)

theorem addressLength_le (size : ℕ) : addressLength size ≤ 14 := by
  unfold addressLength
  split_ifs
  · decide
  · decide

theorem addressBitsOf_eq (size : ℕ) :
    EEPROM.addressBitsOf size = BitVec.ofNat 8 (addressLength size) := by
  unfold EEPROM.addressBitsOf addressLength
  split_ifs
  · rfl
  · rfl

theorem blockOf_lt {size : ℕ} (h : ChipSize size) (addr : List Bool) :
    blockOf size addr < size / 8 := by
  rcases h with rfl | rfl
  · exact Nat.mod_lt _ (by decide)
  · exact Nat.mod_lt _ (by decide)

namespace EEPROM

/-- The chip after the bits `sent` and `answered` bits of a reply. -/
inductive Session (size : ℕ) : List Bool → ℕ → EEPROM → Prop
  | idle (busyUntil : U64) (h : busyUntil = 0 ∨ writeBusyCycles ≤ busyUntil) :
    Session size [] 0 ⟨.idle, 0, 0, 0, 0, busyUntil⟩
  | command : Session size [true] 0 ⟨.command, addressBitsOf size, 0, 0, 0, 0⟩
  | readAddress (addr : List Bool) (h : addr.length < addressLength size) :
    Session size (true :: true :: addr) 0
      ⟨.readAddress, addressBitsOf size, BitVec.ofNat 8 addr.length,
        BitVec.ofNat 16 (bitsValue addr), 0, 0⟩
  | readDummy (addr : List Bool) (h : addr.length = addressLength size) :
    Session size (true :: true :: addr) 0
      ⟨.readDummy, addressBitsOf size, 0, BitVec.ofNat 16 (blockOf size addr), 0, 0⟩
  | readData (addr : List Bool) (h : addr.length = addressLength size) (dummy : Bool)
      (extra : List Bool) (answered : ℕ) (hanswered : answered < 68) :
    Session size (true :: true :: addr ++ dummy :: extra) answered
      ⟨.readData, addressBitsOf size, BitVec.ofNat 8 answered,
        BitVec.ofNat 16 (blockOf size addr), 0, 0⟩
  | writeAddress (addr : List Bool) (h : addr.length < addressLength size) :
    Session size (true :: false :: addr) 0
      ⟨.writeAddress, addressBitsOf size, BitVec.ofNat 8 addr.length,
        BitVec.ofNat 16 (bitsValue addr), 0, 0⟩
  | writeData (addr : List Bool) (h : addr.length = addressLength size) (data : List Bool)
      (hdata : data.length < 64) :
    Session size (true :: false :: addr ++ data) 0
      ⟨.writeData, addressBitsOf size, BitVec.ofNat 8 data.length,
        BitVec.ofNat 16 (blockOf size addr), BitVec.ofNat 64 (bitsValue data), 0⟩
  | writeDummy (addr : List Bool) (h : addr.length = addressLength size) (data : List Bool)
      (hdata : data.length = 64) :
    Session size (true :: false :: addr ++ data) 0
      ⟨.writeDummy, addressBitsOf size, 0, BitVec.ofNat 16 (blockOf size addr),
        BitVec.ofNat 64 (bitsValue data), 0⟩

variable {size answered : ℕ} {sent : List Bool} {e : EEPROM}

theorem Session.awake (h : Session size sent answered e) : Session size sent answered e.awake := by
  cases h with
  | idle busyUntil h => exact .idle 0 (.inl rfl)
  | command => exact .command
  | readAddress addr h => exact .readAddress addr h
  | readDummy addr h => exact .readDummy addr h
  | readData addr h dummy extra answered hanswered =>
    exact .readData addr h dummy extra answered hanswered
  | writeAddress addr h => exact .writeAddress addr h
  | writeData addr h data hdata => exact .writeData addr h data hdata
  | writeDummy addr h data hdata => exact .writeDummy addr h data hdata

theorem Session.clearProtocol (h : Session size sent answered e) :
    Session size [] 0 e.clearProtocol := by
  cases h with
  | idle busyUntil h => exact .idle busyUntil h
  | command | readAddress | readDummy | readData | writeAddress | writeData | writeDummy =>
    exact .idle 0 (.inl rfl)

/-- A chip is busy between sessions only. -/
theorem Session.busy_idle (h : Session size sent answered e) (hbusy : e.busyUntil ≠ 0) :
    sent = [] := by
  cases h with
  | idle => rfl
  | command | readAddress | readDummy | readData | writeAddress | writeData | writeDummy =>
    exact absurd rfl hbusy

theorem Session.idle_iff (h : Session size sent answered e) : e.state = .idle ↔ sent = [] := by
  cases h with
  | idle => exact iff_of_true rfl rfl
  | command | readAddress | readDummy | readData | writeAddress | writeData | writeDummy =>
    exact iff_of_false (by simp) (by simp)

theorem Session.answered_zero (h : Session size [] answered e) : answered = 0 := by
  cases h with
  | idle => rfl

theorem Session.accepts (h : Session size sent answered e) (hsize : ChipSize size) :
    e.acceptStorage size = (true, e) := by
  have hlength : ¬ (size ≠ 512 ∧ size ≠ 8192) := by
    unfold ChipSize at hsize
    omega
  have hbits : e.state ≠ .idle → e.addressBits = addressBitsOf size := by
    cases h with
    | idle => exact fun h => absurd rfl h
    | command | readAddress | readDummy | readData | writeAddress | writeData | writeDummy =>
      exact fun _ => rfl
  rw [acceptStorage, if_neg]
  rintro (h | ⟨hstate, hne⟩)
  · exact hlength h
  · exact hne (hbits hstate)

/-! ## Validity -/

theorem ofNat_block {size : ℕ} (hsize : ChipSize size) (addr : List Bool) :
    (BitVec.ofNat 16 (blockOf size addr)).toNat = blockOf size addr := by
  have hlt := blockOf_lt hsize addr
  rw [BitVec.toNat_ofNat, Nat.mod_eq_of_lt]
  rcases hsize with rfl | rfl <;> omega

theorem ofNat_lt {a b : ℕ} (h : a < b) (hb : b < 256) :
    BitVec.ofNat 8 a < BitVec.ofNat 8 b := by
  rw [BitVec.lt_def, BitVec.toNat_ofNat, BitVec.toNat_ofNat]
  omega

/-- Every chip with a session passes the check of the savestate loader. -/
theorem Session.isValid (h : Session size sent answered e) (hsize : ChipSize size) :
    e.isValid size = true := by
  have hlength : ¬ (size ≠ 512 ∧ size ≠ 8192) := by
    unfold ChipSize at hsize
    omega
  have hbits := addressLength_le size
  have hopen : ∀ state bits address data, state ≠ Phase.idle →
      EEPROM.isValid size ⟨state, addressBitsOf size, bits, address, data, 0⟩ =
        Phase.casesOn state false
          (decide (bits = 0 ∧ address = 0 ∧ data = 0))
          (decide (bits < addressBitsOf size ∧ address.toNat < 2 ^ bits.toNat ∧ data = 0))
          (decide (bits = 0 ∧ address.toNat < size / 8 ∧ data = 0))
          (decide (bits < 68 ∧ address.toNat < size / 8 ∧ data = 0))
          (decide (bits < addressBitsOf size ∧ address.toNat < 2 ^ bits.toNat ∧ data = 0))
          (decide (bits < 64 ∧ address.toNat < size / 8 ∧ data >>> bits.toNat = 0))
          (decide (bits = 0 ∧ address.toNat < size / 8)) := by
    intro state bits address data hstate
    calc EEPROM.isValid size ⟨state, addressBitsOf size, bits, address, data, 0⟩ = _ := by
          rw [EEPROM.isValid, if_neg (fun h => h.1 rfl), if_neg hstate,
            if_neg (by rintro (h | h | h); exacts [h rfl, hlength h, h rfl])]
      _ = _ := by cases state <;> rfl
  have haddress : ∀ addr : List Bool, addr.length < addressLength size →
      BitVec.ofNat 8 addr.length < addressBitsOf size ∧
        (BitVec.ofNat 16 (bitsValue addr)).toNat < 2 ^ (BitVec.ofNat 8 addr.length).toNat := by
    intro addr haddr
    have hlen : (BitVec.ofNat 8 addr.length).toNat = addr.length := by
      rw [BitVec.toNat_ofNat]
      omega
    refine ⟨?_, ?_⟩
    · rw [addressBitsOf_eq]
      exact ofNat_lt haddr (by omega)
    · rw [hlen, BitVec.toNat_ofNat]
      exact (Nat.mod_le _ _).trans_lt (bitsValue_lt addr)
  have hblock : ∀ addr : List Bool, (BitVec.ofNat 16 (blockOf size addr)).toNat < size / 8 := by
    intro addr
    rw [ofNat_block hsize]
    exact blockOf_lt hsize addr
  cases h with
  | idle busyUntil h =>
    rw [EEPROM.isValid, if_neg, if_pos rfl]
    · rfl
    · rintro ⟨hne, hlt | hlen⟩
      · rcases h with h | h
        · exact hne h
        · exact absurd hlt (BitVec.not_lt.mpr h)
      · exact hlength hlen
  | command =>
    rw [hopen _ _ _ _ (by decide)]
    rfl
  | readAddress addr h | writeAddress addr h =>
    rw [hopen _ _ _ _ (by decide)]
    exact decide_eq_true ⟨(haddress addr h).1, (haddress addr h).2, rfl⟩
  | readDummy addr h =>
    rw [hopen _ _ _ _ (by decide)]
    exact decide_eq_true ⟨rfl, hblock addr, rfl⟩
  | readData addr h dummy extra answered hanswered =>
    rw [hopen _ _ _ _ (by decide)]
    exact decide_eq_true ⟨ofNat_lt hanswered (by decide), hblock addr, rfl⟩
  | writeData addr h data hdata =>
    rw [hopen _ _ _ _ (by decide)]
    refine decide_eq_true ⟨ofNat_lt hdata (by decide), hblock addr, ?_⟩
    have hlen : (BitVec.ofNat 8 data.length).toNat = data.length := by
      rw [BitVec.toNat_ofNat]
      omega
    rw [hlen]
    apply BitVec.eq_of_toNat_eq
    rw [BitVec.toNat_ushiftRight, Nat.shiftRight_eq_div_pow, BitVec.toNat_ofNat]
    exact Nat.div_eq_of_lt ((Nat.mod_le _ _).trans_lt (bitsValue_lt data))
  | writeDummy addr h data hdata =>
    rw [hopen _ _ _ _ (by decide)]
    exact decide_eq_true ⟨rfl, hblock addr⟩

/-! ## One bit -/

theorem ready_of_zero (h : e.busyUntil = 0) (timestamp : U64) : e.ready timestamp = true := by
  rw [ready, h]
  exact decide_eq_true (Nat.zero_le timestamp.toNat)

/-- Within a session the chip is always ready. -/
theorem Session.ready (h : Session size sent answered e) (hsent : sent ≠ []) (timestamp : U64) :
    e.ready timestamp = true :=
  ready_of_zero (by_contra fun hbusy => hsent (h.busy_idle hbusy)) timestamp

variable {save : List U8} {timestamp : U64}

theorem write_busy (h : e.ready timestamp = false) (value : U16) :
    e.write value save timestamp = (none, save, e) := by
  rw [write, if_pos (Bool.eq_false_iff.mp h)]

theorem read_busy (h : e.ready timestamp = false) : e.read save timestamp = (0, e) := by
  rw [read, if_pos (Bool.eq_false_iff.mp h)]

theorem Session.write_ready (h : Session size sent answered e) (hsize : ChipSize size)
    (hsave : save.length = size) (hready : e.ready timestamp = true) (value : U16) :
    e.write value save timestamp = e.awake.clock (value.getLsbD 0) save timestamp := by
  have haccept := h.awake.accepts hsize
  rw [write, if_neg (not_not_intro hready), hsave]
  simp only [haccept]
  exact if_neg (not_not_intro trivial)

theorem Session.read_ready (h : Session size sent answered e) (hsize : ChipSize size)
    (hsave : save.length = size) (hready : e.ready timestamp = true) :
    e.read save timestamp =
      if e.state = .readData then (e.awake.replyBit save, e.awake.nextReply) else (1, e.awake) := by
  have haccept := h.awake.accepts hsize
  rw [read, if_neg (not_not_intro hready), hsave]
  simp only [haccept]
  by_cases hstate : e.state = .readData
  · rw [if_pos hstate]
    exact if_neg (not_or.mpr ⟨not_not_intro trivial, not_not_intro hstate⟩)
  · rw [if_neg hstate]
    exact if_pos (Or.inr hstate)

theorem commit_late (h : 0xFFFFFFFFFFFFFFFF - writeBusyCycles < timestamp) :
    e.commit save timestamp = (none, save, e.clearProtocol) := if_pos h

theorem commit_stored (h : ¬ 0xFFFFFFFFFFFFFFFF - writeBusyCycles < timestamp) :
    e.commit save timestamp = (some (e.address.toNat * 8),
      storeBlock (e.address.toNat * 8) e.data save,
      { e with busyUntil := timestamp + writeBusyCycles }.clearProtocol) := if_neg h

theorem ofNat_succ_eq {a b : ℕ} (ha : a < 255) (hb : b < 256) :
    BitVec.ofNat 8 a + 1 = BitVec.ofNat 8 b ↔ a + 1 = b := by
  constructor
  · intro h
    have hnat := congrArg BitVec.toNat h
    rw [BitVec.toNat_add, BitVec.toNat_ofNat, BitVec.toNat_ofNat] at hnat
    change (a % 256 + 1) % 256 = b % 256 at hnat
    omega
  · rintro rfl
    exact (BitVec.ofNat_add a 1).symm

theorem and_block {size : ℕ} (hsize : ChipSize size) (addr : List Bool)
    (haddr : addr.length = addressLength size) :
    BitVec.ofNat 16 (bitsValue addr) &&& BitVec.ofNat 16 (size / 8 - 1) =
      BitVec.ofNat 16 (blockOf size addr) := by
  have hlt := bitsValue_lt addr
  have hle := addressLength_le size
  have hvalue : bitsValue addr < 2 ^ 16 :=
    hlt.trans (Nat.pow_lt_pow_right (by decide) (by omega))
  apply BitVec.eq_of_toNat_eq
  rw [BitVec.toNat_and, ofNat_block hsize, BitVec.toNat_ofNat, Nat.mod_eq_of_lt hvalue]
  rcases hsize with rfl | rfl
  · exact Nat.and_two_pow_sub_one_eq_mod _ 6
  · exact Nat.and_two_pow_sub_one_eq_mod _ 10

/-- One more address bit. -/
theorem clockAddress_eq (hsize : ChipSize size) {addr : List Bool}
    (haddr : addr.length < addressLength size) (bit : Bool) (state : Phase) :
    EEPROM.clockAddress bit size ⟨state, addressBitsOf size, BitVec.ofNat 8 addr.length,
        BitVec.ofNat 16 (bitsValue addr), 0, 0⟩ =
      if addr.length + 1 = addressLength size then
        ⟨if state = .readAddress then .readDummy else .writeData, addressBitsOf size, 0,
          BitVec.ofNat 16 (blockOf size (addr ++ [bit])), 0, 0⟩
      else
        ⟨state, addressBitsOf size, BitVec.ofNat 8 (addr ++ [bit]).length,
          BitVec.ofNat 16 (bitsValue (addr ++ [bit])), 0, 0⟩ := by
  have hle := addressLength_le size
  have hend : BitVec.ofNat 8 addr.length + 1 = addressBitsOf size ↔
      addr.length + 1 = addressLength size := by
    rw [addressBitsOf_eq]
    exact ofNat_succ_eq (by omega) (by omega)
  have hlength : BitVec.ofNat 8 addr.length + 1 = BitVec.ofNat 8 (addr ++ [bit]).length := by
    rw [List.length_append, List.length_singleton]
    exact (BitVec.ofNat_add addr.length 1).symm
  rw [clockAddress]
  dsimp only
  rw [ofNat_shift, ← bitsValue_concat]
  by_cases hlast : addr.length + 1 = addressLength size
  · rw [if_pos (hend.mpr hlast), if_pos hlast, and_block hsize (addr ++ [bit]) (by simpa using hlast)]
  · rw [if_neg (mt hend.mp hlast), if_neg hlast, hlength]

theorem clockData_eq {data : List Bool} (hdata : data.length < 64) (bit : Bool) (size : ℕ)
    (address : U16) :
    EEPROM.clockData bit ⟨.writeData, addressBitsOf size, BitVec.ofNat 8 data.length, address,
        BitVec.ofNat 64 (bitsValue data), 0⟩ =
      if data.length + 1 = 64 then
        ⟨.writeDummy, addressBitsOf size, 0, address,
          BitVec.ofNat 64 (bitsValue (data ++ [bit])), 0⟩
      else
        ⟨.writeData, addressBitsOf size, BitVec.ofNat 8 (data ++ [bit]).length, address,
          BitVec.ofNat 64 (bitsValue (data ++ [bit])), 0⟩ := by
  have hend : BitVec.ofNat 8 data.length + 1 = (64 : U8) ↔ data.length + 1 = 64 :=
    ofNat_succ_eq (by omega) (by decide)
  have hlength : BitVec.ofNat 8 data.length + 1 = BitVec.ofNat 8 (data ++ [bit]).length := by
    rw [List.length_append, List.length_singleton]
    exact (BitVec.ofNat_add data.length 1).symm
  rw [clockData]
  dsimp only
  rw [ofNat_shift, ← bitsValue_concat]
  by_cases hlast : data.length + 1 = 64
  · rw [if_pos (hend.mpr hlast), if_pos hlast]
  · rw [if_neg (mt hend.mp hlast), if_neg hlast, hlength]

/-- A bit written to a chip that is ready: a zero between sessions is ignored, the bit after
the data of a write packet commits it, and every other bit extends the session. -/
theorem Session.clock (h : Session size sent answered e) (hsize : ChipSize size)
    (hsave : save.length = size) (bit : Bool) (timestamp : U64) :
    (sent = [] ∧ bit = false ∧ e.clock bit save timestamp = (none, save, e)) ∨
      (∃ addr data, addr.length = addressLength size ∧ data.length = 64 ∧
        sent = true :: false :: addr ++ data ∧
        e = ⟨.writeDummy, addressBitsOf size, 0, BitVec.ofNat 16 (blockOf size addr),
          BitVec.ofNat 64 (bitsValue data), 0⟩) ∨
      ∃ e', e.clock bit save timestamp = (none, save, e') ∧
        (e.busyUntil = 0 → Session size (sent ++ [bit]) answered e') := by
  cases h with
  | idle busyUntil h =>
    cases bit with
    | false => exact .inl ⟨rfl, rfl, rfl⟩
    | true =>
      refine .inr (.inr ⟨_, rfl, ?_⟩)
      rintro rfl
      rw [hsave]
      exact .command
  | command =>
    refine .inr (.inr ⟨_, rfl, fun _ => ?_⟩)
    have hpos : 0 < addressLength size := by
      unfold addressLength
      split_ifs
      · decide
      · decide
    cases bit with
    | true => exact .readAddress [] hpos
    | false => exact .writeAddress [] hpos
  | readAddress addr h =>
    refine .inr (.inr ⟨_, rfl, fun _ => ?_⟩)
    rw [hsave, clockAddress_eq hsize h, if_pos rfl]
    have hlength : (addr ++ [bit]).length = addr.length + 1 := by simp
    by_cases hlast : addr.length + 1 = addressLength size
    · rw [if_pos hlast]
      exact .readDummy (addr ++ [bit]) (hlength.trans hlast)
    · have hmore : (addr ++ [bit]).length < addressLength size := by omega
      rw [if_neg hlast]
      exact .readAddress (addr ++ [bit]) hmore
  | readDummy addr h =>
    refine .inr (.inr ⟨_, rfl, fun _ => ?_⟩)
    exact .readData addr h bit [] 0 (by decide)
  | readData addr h dummy extra answered hanswered =>
    refine .inr (.inr ⟨_, rfl, fun _ => ?_⟩)
    have hmore := Session.readData addr h dummy (extra ++ [bit]) answered hanswered
    rwa [← List.cons_append, ← List.append_assoc] at hmore
  | writeAddress addr h =>
    refine .inr (.inr ⟨_, rfl, fun _ => ?_⟩)
    have hphase : ¬ Phase.writeAddress = Phase.readAddress := by decide
    rw [hsave, clockAddress_eq hsize h, if_neg hphase]
    have hlength : (addr ++ [bit]).length = addr.length + 1 := by simp
    by_cases hlast : addr.length + 1 = addressLength size
    · have hdata := Session.writeData (addr ++ [bit]) (hlength.trans hlast) [] (by decide)
      rw [if_pos hlast]
      rwa [List.append_nil] at hdata
    · have hmore : (addr ++ [bit]).length < addressLength size := by omega
      rw [if_neg hlast]
      exact .writeAddress (addr ++ [bit]) hmore
  | writeData addr h data hdata =>
    refine .inr (.inr ⟨_, rfl, fun _ => ?_⟩)
    rw [clockData_eq hdata, List.append_assoc]
    have hlength : (data ++ [bit]).length = data.length + 1 := by simp
    split_ifs with hlast
    · exact .writeDummy addr h (data ++ [bit]) (hlength.trans hlast)
    · exact .writeData addr h (data ++ [bit]) (by omega)
  | writeDummy addr h data hdata => exact .inr (.inl ⟨addr, data, h, hdata, rfl, rfl⟩)

/-- A bit read from a chip that is ready. -/
theorem Session.nextReply (h : Session size sent answered e) (hstate : e.state = .readData) :
    (answered + 1 < 68 ∧ Session size sent (answered + 1) e.nextReply) ∨
      (answered + 1 = 68 ∧ Session size [] 0 e.nextReply) := by
  cases h with
  | readData addr h dummy extra answered hanswered =>
    have hend : BitVec.ofNat 8 answered + 1 = (68 : U8) ↔ answered + 1 = 68 :=
      ofNat_succ_eq (by omega) (by decide)
    have hnext : BitVec.ofNat 8 answered + 1 = BitVec.ofNat 8 (answered + 1) :=
      (BitVec.ofNat_add answered 1).symm
    unfold EEPROM.nextReply
    by_cases hlast : answered + 1 = 68
    · rw [if_pos (hend.mpr hlast)]
      exact .inr ⟨hlast, .idle 0 (.inl rfl)⟩
    · rw [if_neg (mt hend.mp hlast)]
      dsimp only
      rw [hnext]
      exact .inl ⟨by omega, .readData addr h dummy extra (answered + 1) (by omega)⟩
  | idle | command | readAddress | readDummy | writeAddress | writeData | writeDummy =>
    exact absurd hstate (by simp)

end EEPROM
end MelonDS.GBACart
