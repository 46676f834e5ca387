import MelonDS.DSi.I2C

/-!
# Transactions of the BPTWL

Beside the host a session keeps the bytes the BPTWL has taken since the last START in the write
direction, the register index first. What can go wrong is an index that the BPTWL does not have
or that it still has: a read without one, and a START that finds the one of a transaction whose
end the BPTWL was not told of.
-/

namespace MelonDS.DSi.I2C

variable {κ : Type} {cam : Camera κ} {beyond : U32 → U8}

/-! ## One byte -/

namespace BPTWL

theorem writable_lt {pos : U32} (h : writable pos = true) : pos.toNat < 0x100 := by
  simp only [writable, Bool.or_eq_true, Bool.and_eq_true, decide_eq_true_eq, BitVec.le_def] at h
  rcases h with (((((((((((rfl | rfl) | rfl) | rfl) | rfl) | rfl) | rfl) | rfl) | rfl) | ⟨_, h⟩) |
    rfl) | rfl)
  all_goals first | decide | exact Nat.lt_of_le_of_lt h (by decide)

theorem read_registers {last : Bool} {b : BPTWL} {r : Fin 0x100}
    (h : (b.read beyond last).2.registers r ≠ b.registers r) :
    r = 0x10 ∧ (b.read beyond last).2.registers r = 0 := by
  by_cases hpos : b.curPos = 0x10
  · have hread : (b.read beyond last).2.registers = b.store 0x10 0 := if_pos hpos
    rw [hread, store] at h ⊢
    split_ifs at h ⊢ with hr
    · exact ⟨Fin.ext hr, rfl⟩
    · exact absurd rfl h
  · exact absurd (congrFun (if_neg hpos : (b.read beyond last).2.registers = _) r) h

theorem write_registers {val : U8} {last : Bool} {b : BPTWL} {r : Fin 0x100}
    (h : (b.write val last).1.registers r ≠ b.registers r) :
    last = false ∧ b.curPos ≠ 0xFFFFFFFF ∧ writable b.curPos = true ∧ r.val = b.curPos.toNat := by
  rw [write] at h
  split_ifs at h with hlast hnone hreset hwritable <;> try exact absurd rfl h
  refine ⟨Bool.eq_false_iff.mpr hlast, hnone, hwritable, ?_⟩
  by_contra hr
  exact h (if_neg hr)

theorem write_curPos (val : U8) (b : BPTWL) :
    (b.write val false).1.curPos =
      if b.curPos = 0xFFFFFFFF then val.setWidth 32
      else if b.curPos = 0x11 ∧ val = 0x01 then 0xFFFFFFFF else b.curPos + 1 := by
  rw [write, if_neg Bool.false_ne_true]
  split_ifs <;> rfl

theorem write_accesses {val : U8} {last : Bool} {b : BPTWL}
    (h : ∀ i ∈ b.accesses, i.toNat < 0x100) :
    ∀ i ∈ (b.write val last).1.accesses, i.toNat < 0x100 := by
  rw [write]
  split_ifs with hlast hnone hreset hwritable <;> try exact h
  intro i hi
  rcases List.mem_append.mp hi with hi | hi
  · exact h i hi
  · rw [List.mem_singleton.mp hi]
    exact writable_lt hwritable

end BPTWL

/-! ## One transfer -/

namespace I2CHost

/-- What a transfer does to the BPTWL. -/
def bptwlAfter (beyond : U32 → U8) (val : U8) (h : I2CHost κ) : BPTWL :=
  if h.isFlush val then (h.bptwl.write h.data true).1
  else if val.getLsbD 5 then
    if h.readTarget = some .bptwl then (h.bptwl.read beyond (val.getLsbD 0)).2 else h.bptwl
  else if val.getLsbD 1 then h.bptwl
  else if h.writeTarget = some .bptwl then (h.bptwl.write h.data (val.getLsbD 0)).1 else h.bptwl

/-- A START is not a flush and not a read. -/
def isStart (val : U8) (h : I2CHost κ) : Bool :=
  !h.isFlush val && !val.getLsbD 5 && val.getLsbD 1

theorem transfer_bptwl (val : U8) (h : I2CHost κ) :
    (h.transfer cam beyond val).2.bptwl = h.bptwlAfter beyond val := by
  rw [transfer, bptwlAfter]
  split_ifs with hflush hread hbptwl hstart hbptwl
  · rfl
  · rw [hbptwl]
    rfl
  · cases htarget : h.readTarget with
    | none => rfl
    | some dev =>
      cases dev with
      | bptwl => exact absurd htarget hbptwl
      | camera i => rfl
  · change (acquire cam _).bptwl = h.bptwl
    rw [acquire]
    split <;> rfl
  · rw [hbptwl]
    rfl
  · cases htarget : h.writeTarget with
    | none => rfl
    | some dev =>
      cases dev with
      | bptwl => exact absurd htarget hbptwl
      | camera i => rfl

theorem transfer_device (val : U8) (h : I2CHost κ) :
    let h' := (h.transfer cam beyond val).2
    (h'.curDeviceID, h'.curDevice, h'.legacyTransaction) =
      if h.isStart val then (h.data, getCurDevice h.data, false)
      else (h.curDeviceID, h.curDevice, h.legacyTransaction) := by
  dsimp only
  rw [transfer, isStart]
  by_cases hflush : h.isFlush val = true
  · rw [if_pos hflush, hflush]
    rfl
  · rw [if_neg hflush, Bool.eq_false_iff.mpr hflush]
    by_cases hread : val.getLsbD 5 = true
    · rw [if_pos hread, hread]
      cases htarget : h.readTarget with
      | none => rfl
      | some dev => cases dev <;> rfl
    · rw [if_neg hread, Bool.eq_false_iff.mpr hread]
      by_cases hstart : val.getLsbD 1 = true
      · rw [if_pos hstart, hstart]
        dsimp only [acquire]
        split <;> rfl
      · rw [if_neg hstart, Bool.eq_false_iff.mpr hstart]
        cases htarget : h.writeTarget with
        | none => rfl
        | some dev => cases dev <;> rfl

theorem writeCnt_bptwl (val : U8) (h : I2CHost κ) :
    (h.writeCnt cam beyond val).bptwl =
      if val.getLsbD 7 then h.bptwlAfter beyond val else h.bptwl := by
  rw [writeCnt]
  by_cases hbusy : val.getLsbD 7 = true
  · rw [if_pos hbusy, if_pos hbusy, ← transfer_bptwl]
    dsimp only
    by_cases hlast : val.getLsbD 0 = true
    · rw [if_pos hlast]
      rfl
    · rw [if_neg hlast]
  · rw [if_neg hbusy, if_neg hbusy]

theorem writeCnt_device (val : U8) (h : I2CHost κ) :
    let h' := h.writeCnt cam beyond val
    (h'.curDeviceID, h'.curDevice, h'.legacyTransaction) =
      if val.getLsbD 7 then
        if val.getLsbD 0 then (0, none, false)
        else if h.isStart val then (h.data, getCurDevice h.data, false)
        else (h.curDeviceID, h.curDevice, h.legacyTransaction)
      else (h.curDeviceID, h.curDevice, h.legacyTransaction) := by
  dsimp only
  rw [writeCnt]
  by_cases hbusy : val.getLsbD 7 = true
  · rw [if_pos hbusy, if_pos hbusy]
    dsimp only
    by_cases hlast : val.getLsbD 0 = true
    · rw [if_pos hlast, if_pos hlast]
      rfl
    · rw [if_neg hlast, if_neg hlast]
      exact transfer_device val h
  · rw [if_neg hbusy, if_neg hbusy]

end I2CHost

/-! ## Runs -/

structure Session (κ : Type) where
  host : I2CHost κ
  sent : List U8

inductive I2COp (κ : Type)
  | writeData (val : U8)
  | writeCnt (val : U8)
  | load (saved : Session κ)

namespace Session

def reset (camera : Fin 2 → κ) : Session κ := ⟨.reset camera, []⟩

/-- The bytes of the write transaction after a transfer. -/
def sentAfter (val : U8) (s : Session κ) : List U8 :=
  if val.getLsbD 0 then []
  else if val.getLsbD 5 then s.sent
  else if val.getLsbD 1 then []
  else if s.host.writeTarget = some .bptwl then s.sent ++ [s.host.data] else s.sent

def step (cam : Camera κ) (beyond : U32 → U8) (s : Session κ) : I2COp κ → Session κ
  | .writeData val => { s with host := s.host.writeData val }
  | .writeCnt val =>
    ⟨s.host.writeCnt cam beyond val, if val.getLsbD 7 then s.sentAfter val else s.sent⟩
  | .load saved => ⟨.load saved.host s.host, saved.sent⟩

/-- A read finds an index inside the register array. -/
def ReadFinds (s : Session κ) (val : U8) : Prop :=
  val.getLsbD 5 = true → s.host.readTarget = some .bptwl → s.host.bptwl.curPos.toNat < 0x100

/-- A START of the BPTWL in the write direction finds no index. -/
def StartFinds (s : Session κ) (val : U8) : Prop :=
  val.getLsbD 5 = false → val.getLsbD 1 = true → val.getLsbD 0 = false →
    I2CHost.getCurDevice s.host.data = some .bptwl → s.host.data.getLsbD 0 = false →
      s.host.bptwl.curPos = 0xFFFFFFFF

/-- A byte that is not the first of its transaction finds an index. -/
def ByteFinds (s : Session κ) (val : U8) : Prop :=
  val.getLsbD 5 = false → val.getLsbD 1 = false → val.getLsbD 0 = false →
    s.host.writeTarget = some .bptwl → s.sent ≠ [] → s.host.bptwl.curPos ≠ 0xFFFFFFFF

def Permitted (s : Session κ) : I2COp κ → Prop
  | .writeCnt val =>
    val.getLsbD 7 = true → s.host.isFlush val = false →
      s.ReadFinds val ∧ s.StartFinds val ∧ s.ByteFinds val
  | _ => True

instance (s : Session κ) (val : U8) : Decidable (s.ReadFinds val) :=
  inferInstanceAs (Decidable (_ → _ → _))

instance (s : Session κ) (val : U8) : Decidable (s.StartFinds val) :=
  inferInstanceAs (Decidable (_ → _ → _ → _ → _ → _))

instance (s : Session κ) (val : U8) : Decidable (s.ByteFinds val) :=
  inferInstanceAs (Decidable (_ → _ → _ → _ → _ → ¬_))

instance (s : Session κ) (op : I2COp κ) : Decidable (s.Permitted op) :=
  match op with
  | .writeData _ | .load _ => .isTrue trivial
  | .writeCnt _ => inferInstanceAs (Decidable (_ → _ → _ ∧ _ ∧ _))

/-- The sessions reached by permitted steps, loads of what such a session saved among them. -/
inductive Reachable (cam : Camera κ) (beyond : U32 → U8) : Session κ → Prop
  | reset (camera : Fin 2 → κ) : Reachable cam beyond (reset camera)
  | step {s : Session κ} {op : I2COp κ} (hs : Reachable cam beyond s) (hop : s.Permitted op)
      (hsaved : ∀ saved, op = .load saved → Reachable cam beyond saved) :
      Reachable cam beyond (s.step cam beyond op)

/-- The register array is indexed inside its bounds; a read clears the interrupt flag at most; and
a write goes to the register the index sent first has moved on to, if that one can be written. -/
structure StepSafe (s : Session κ) (op : I2COp κ) (s' : Session κ) : Prop where
  bounded : ∀ i ∈ s'.host.bptwl.accesses, i.toNat < 0x100
  changed : ∀ val, op = .writeCnt val → ∀ r,
    s'.host.bptwl.registers r ≠ s.host.bptwl.registers r →
      if val.getLsbD 5 then r = 0x10 ∧ s'.host.bptwl.registers r = 0
      else ∃ index data, s.sent = index :: data ∧ r.val = index.toNat + data.length ∧
        BPTWL.writable (BitVec.ofNat 32 r.val) = true
  kept : ∀ val, op = .writeData val → s'.host.bptwl.registers = s.host.bptwl.registers
  loaded : ∀ saved, op = .load saved → s'.host.bptwl.registers = saved.host.bptwl.registers

/-- The BPTWL's position is that of the last byte sent. -/
structure Linked (s : Session κ) : Prop where
  device : s.host.curDevice = I2CHost.getCurDevice s.host.curDeviceID
  current : s.host.legacyTransaction = false
  bounded : ∀ i ∈ s.host.bptwl.accesses, i.toNat < 0x100
  position : s.host.curDevice = some .bptwl → s.host.curDeviceID.getLsbD 0 = false →
    s.host.bptwl.curPos ≠ 0xFFFFFFFF →
      ∃ index data, s.sent = index :: data ∧ s.host.bptwl.curPos.toNat = index.toNat + data.length

theorem Linked.reset (camera : Fin 2 → κ) : (reset camera).Linked where
  device := (show I2CHost.getCurDevice 0 = none by decide).symm
  current := rfl
  bounded := fun _ hi => absurd hi List.not_mem_nil
  position := fun h => nomatch h

section
variable {s : Session κ}

theorem readTarget_eq (h : s.Linked) :
    s.host.readTarget = if s.host.curDeviceID.getLsbD 0 then s.host.curDevice else none := by
  rw [I2CHost.readTarget, h.current, Bool.false_or]

theorem writeTarget_eq (h : s.Linked) :
    s.host.writeTarget = if s.host.curDeviceID.getLsbD 0 then none else s.host.curDevice := by
  rw [I2CHost.writeTarget, h.current, Bool.false_or]
  cases s.host.curDeviceID.getLsbD 0 <;> rfl

/-- What a transfer does to the register array. -/
theorem Linked.bptwlAfter (h : s.Linked) {val : U8} (hop : s.Permitted (.writeCnt val))
    (hbusy : val.getLsbD 7 = true) :
    (∀ i ∈ (s.host.bptwlAfter beyond val).accesses, i.toNat < 0x100) ∧
      ∀ r, (s.host.bptwlAfter beyond val).registers r ≠ s.host.bptwl.registers r →
        if val.getLsbD 5 then r = 0x10 ∧ (s.host.bptwlAfter beyond val).registers r = 0
        else ∃ index data, s.sent = index :: data ∧ r.val = index.toNat + data.length ∧
          BPTWL.writable (BitVec.ofNat 32 r.val) = true := by
  rw [I2CHost.bptwlAfter]
  by_cases hflush : s.host.isFlush val = true
  · rw [if_pos hflush]
    exact ⟨h.bounded, fun r hr => absurd rfl hr⟩
  obtain ⟨hread, -, -⟩ := hop hbusy (Bool.eq_false_iff.mpr hflush)
  rw [if_neg hflush]
  by_cases h5 : val.getLsbD 5 = true
  · rw [if_pos h5]
    by_cases htarget : s.host.readTarget = some .bptwl
    · rw [if_pos htarget]
      refine ⟨fun i hi => ?_, fun r hr => ?_⟩
      · rcases List.mem_append.mp hi with hi | hi
        · exact h.bounded i hi
        · rw [List.mem_singleton.mp hi]
          exact hread h5 htarget
      · rw [if_pos h5]
        exact BPTWL.read_registers hr
    · rw [if_neg htarget]
      exact ⟨h.bounded, fun r hr => absurd rfl hr⟩
  · rw [if_neg h5]
    by_cases h1 : val.getLsbD 1 = true
    · rw [if_pos h1]
      exact ⟨h.bounded, fun r hr => absurd rfl hr⟩
    rw [if_neg h1]
    by_cases htarget : s.host.writeTarget = some .bptwl
    · rw [if_pos htarget]
      refine ⟨BPTWL.write_accesses h.bounded, fun r hr => ?_⟩
      obtain ⟨-, hindex, hwritable, hpos⟩ := BPTWL.write_registers hr
      rw [writeTarget_eq h] at htarget
      split_ifs at htarget with hbit
      obtain ⟨index, data, hsent, hposition⟩ :=
        h.position htarget (Bool.eq_false_iff.mpr hbit) hindex
      rw [if_neg h5]
      refine ⟨index, data, hsent, hpos.trans hposition, ?_⟩
      rw [hpos, BitVec.ofNat_toNat, BitVec.setWidth_eq]
      exact hwritable
    · rw [if_neg htarget]
      exact ⟨h.bounded, fun r hr => absurd rfl hr⟩

/-- Where a transfer in the write direction leaves the position. -/
theorem Linked.positionAfter (h : s.Linked) {val : U8} (hop : s.Permitted (.writeCnt val))
    (hbusy : val.getLsbD 7 = true) (hstay : val.getLsbD 0 = false)
    (hdevice : s.host.isStart val = false → s.host.curDevice = some .bptwl ∧
      s.host.curDeviceID.getLsbD 0 = false)
    (hstart : s.host.isStart val = true → I2CHost.getCurDevice s.host.data = some .bptwl ∧
      s.host.data.getLsbD 0 = false)
    (hpos : (s.host.bptwlAfter beyond val).curPos ≠ 0xFFFFFFFF) :
    ∃ index data, s.sentAfter val = index :: data ∧
      (s.host.bptwlAfter beyond val).curPos.toNat = index.toNat + data.length := by
  have hflush : s.host.isFlush val = false := by
    rw [I2CHost.isFlush, Bool.and_eq_false_iff]
    refine .inl (decide_eq_false fun heq => ?_)
    have hbit := congrArg (fun x => BitVec.getLsbD x 0) heq
    rw [BitVec.getLsbD_and, hstay, Bool.false_and] at hbit
    exact absurd hbit (by decide)
  obtain ⟨-, hnone, hfirst⟩ := hop hbusy hflush
  rw [I2CHost.bptwlAfter, hflush, if_neg Bool.false_ne_true] at hpos ⊢
  rw [sentAfter, hstay, if_neg Bool.false_ne_true]
  have hstartBits : s.host.isStart val = (!val.getLsbD 5 && val.getLsbD 1) := by
    rw [I2CHost.isStart, hflush]
    rfl
  rw [hstartBits] at hdevice hstart
  by_cases h5 : val.getLsbD 5 = true
  · obtain ⟨hcur, hbit⟩ := hdevice (by rw [h5]; rfl)
    have hno : ¬s.host.readTarget = some .bptwl := by
      rw [readTarget_eq h, hbit]
      exact nofun
    rw [if_pos h5, if_neg hno] at hpos ⊢
    rw [if_pos h5]
    exact h.position hcur hbit hpos
  · rw [Bool.not_eq_true] at h5
    rw [h5, if_neg Bool.false_ne_true] at hpos ⊢
    rw [if_neg Bool.false_ne_true]
    by_cases h1 : val.getLsbD 1 = true
    · obtain ⟨hcur, hbit⟩ := hstart (by rw [h5, h1]; rfl)
      rw [if_pos h1] at hpos
      exact absurd (hnone h5 h1 hstay hcur hbit) hpos
    · rw [Bool.not_eq_true] at h1
      obtain ⟨hcur, hbit⟩ := hdevice (by rw [h5, h1]; rfl)
      have htarget : s.host.writeTarget = some .bptwl := by
        rw [writeTarget_eq h, hbit]
        exact hcur
      rw [h1, if_neg Bool.false_ne_true, if_pos htarget, hstay, BPTWL.write_curPos] at hpos
      rw [h1, if_neg Bool.false_ne_true, if_pos htarget, if_neg Bool.false_ne_true, if_pos htarget,
        BPTWL.write_curPos]
      by_cases hindex : s.host.bptwl.curPos = 0xFFFFFFFF
      · have hsent : s.sent = [] := by
          by_contra hsent
          exact hfirst h5 h1 hstay htarget hsent hindex
        rw [if_pos hindex, hsent]
        refine ⟨s.host.data, [], rfl, ?_⟩
        rw [BitVec.toNat_setWidth, Nat.mod_eq_of_lt (Nat.lt_trans s.host.data.isLt (by decide))]
        rfl
      · obtain ⟨index, data, hsent, hposition⟩ := h.position hcur hbit hindex
        rw [if_neg hindex] at hpos ⊢
        split_ifs at hpos ⊢ with hreset
        · exact absurd rfl hpos
        · refine ⟨index, data ++ [s.host.data], by rw [hsent]; rfl, ?_⟩
          rw [List.length_append, List.length_singleton]
          bv_omega

end

theorem Linked.step {s : Session κ} (h : s.Linked) {op : I2COp κ} (hop : s.Permitted op)
    (hsaved : ∀ saved, op = .load saved → saved.Linked) :
    (s.step cam beyond op).Linked ∧ StepSafe s op (s.step cam beyond op) := by
  cases op with
  | writeData val =>
    exact ⟨⟨h.device, h.current, h.bounded, h.position⟩, h.bounded, nofun, fun _ _ => rfl, nofun⟩
  | load saved =>
    have hsaved := hsaved saved rfl
    refine ⟨⟨rfl, hsaved.current, h.bounded, fun hcur hbit hpos => ?_⟩, h.bounded, nofun, nofun,
      fun _ heq => ?_⟩
    · exact hsaved.position (hsaved.device.trans hcur) hbit hpos
    · cases heq
      rfl
  | writeCnt val =>
    have hb := @I2CHost.writeCnt_bptwl κ cam beyond val s.host
    have hd := @I2CHost.writeCnt_device κ cam beyond val s.host
    change (Session.mk (s.host.writeCnt cam beyond val) _).Linked ∧
      StepSafe s _ (Session.mk (s.host.writeCnt cam beyond val) _)
    generalize s.host.writeCnt cam beyond val = h' at hb hd ⊢
    dsimp only at hd
    by_cases hbusy : val.getLsbD 7 = true
    · rw [if_pos hbusy] at hb hd
      obtain ⟨hbounded, hchanged⟩ := @Linked.bptwlAfter κ beyond s h val hop hbusy
      have hposition := @Linked.positionAfter κ beyond s h val hop hbusy
      rw [← hb] at hbounded hchanged hposition
      refine ⟨?_, hbounded, fun v hv r hr => ?_, nofun, nofun⟩
      · rw [if_pos hbusy]
        by_cases h0 : val.getLsbD 0 = true
        · rw [if_pos h0, Prod.mk.injEq, Prod.mk.injEq] at hd
          obtain ⟨hid, hdev, hlegacy⟩ := hd
          refine ⟨?_, hlegacy, hbounded, fun hcur => nomatch hcur.symm.trans hdev⟩
          change h'.curDevice = I2CHost.getCurDevice h'.curDeviceID
          rw [hid, hdev]
          decide
        · rw [if_neg h0] at hd
          have hstay := Bool.eq_false_iff.mpr h0
          by_cases hstart : s.host.isStart val = true
          · rw [if_pos hstart, Prod.mk.injEq, Prod.mk.injEq] at hd
            obtain ⟨hid, hdev, hlegacy⟩ := hd
            refine ⟨hdev.trans (congrArg _ hid.symm), hlegacy, hbounded, fun hcur hbit hpos => ?_⟩
            refine hposition hstay (fun hno => absurd (hstart.symm.trans hno) (by decide))
              (fun _ => ⟨hdev.symm.trans hcur, ?_⟩) hpos
            rw [← hid]
            exact hbit
          · rw [if_neg hstart, Prod.mk.injEq, Prod.mk.injEq] at hd
            obtain ⟨hid, hdev, hlegacy⟩ := hd
            refine ⟨?_, hlegacy.trans h.current, hbounded, fun hcur hbit hpos => ?_⟩
            · change h'.curDevice = I2CHost.getCurDevice h'.curDeviceID
              rw [hid, hdev]
              exact h.device
            · refine hposition hstay (fun _ => ⟨hdev.symm.trans hcur, ?_⟩)
                (fun hyes => absurd hyes hstart) hpos
              rw [← hid]
              exact hbit
      · cases hv
        exact hchanged r hr
    · rw [if_neg hbusy] at hb hd
      rw [Prod.mk.injEq, Prod.mk.injEq] at hd
      obtain ⟨hid, hdev, hlegacy⟩ := hd
      have hbounded : ∀ i ∈ h'.bptwl.accesses, i.toNat < 0x100 := by
        rw [hb]
        exact h.bounded
      refine ⟨⟨?_, hlegacy.trans h.current, hbounded, fun hcur hbit hpos => ?_⟩, hbounded,
        fun v hv r hr => ?_, nofun, nofun⟩
      · change h'.curDevice = I2CHost.getCurDevice h'.curDeviceID
        rw [hid, hdev]
        exact h.device
      · rw [if_neg hbusy]
        change h'.bptwl.curPos ≠ _ at hpos
        change ∃ index data, _ ∧ h'.bptwl.curPos.toNat = _
        rw [hb] at hpos ⊢
        refine h.position (hdev.symm.trans hcur) ?_ hpos
        rw [← hid]
        exact hbit
      · exact absurd (congrFun (congrArg BPTWL.registers hb) r) hr

theorem Reachable.linked {s : Session κ} (hs : Reachable cam beyond s) : s.Linked := by
  induction hs with
  | reset camera => exact .reset camera
  | step _ hop _ ih hsaved => exact (ih.step hop hsaved).1

def stillCamera : Camera Unit := ⟨id, fun _ s => (0xFF, s), fun _ _ s => s⟩

def runFrom (ops : List (I2COp Unit)) : Session Unit :=
  ops.foldl (step stillCamera fun _ => 0) (Session.reset fun _ => ())

/-- The volume register is addressed. -/
def volumeOps : List (I2COp Unit) :=
  [.writeData 0x4A, .writeCnt 0xC2, .writeData 0x40, .writeCnt 0xC0, .writeData 7]

end Session

end MelonDS.DSi.I2C
