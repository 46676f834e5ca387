import MelonDS.NDSCart.ChipSelect
import MelonDS.NDSCart.WriteProtection

/-!
# The event of an internal write

The cart holds the delay of its internal write, the scheduler its deadline. The log says which
write is pending (`pendingSave`) and which one has just completed (`lastCompleted`), and the
event and the delay follow it through every operation of the slot. A byte sees the write as its
own time has it, as long as nothing later than the deadline forces the write before the byte.
-/

namespace MelonDS.NDSCart

/-! ## What the log says -/

/-- The time of the release and the delay of the write that is pending. -/
def pendingSave : List SlotCall → Option (ℕ × ℕ)
  | .scheduleSave timestamp delay :: _ => some (timestamp, delay)
  | .completeSave _ :: _ => none
  | .cancelSave _ :: _ => none
  | _ :: log => pendingSave log
  | [] => none

/-- The deadline of a write that has completed, until the next one is scheduled. -/
def lastCompleted : List SlotCall → Option ℕ
  | .completeSave deadline :: _ => some deadline
  | .scheduleSave _ _ :: _ => none
  | .cancelSave _ :: _ => none
  | _ :: log => lastCompleted log
  | [] => none

/-- A write is scheduled by the release before it and completes once, at its deadline. A byte
comes before the deadline of a pending write and not before that of a completed one. -/
def SlotCall.OnTime (past : List SlotCall) : SlotCall → Prop
  | .scheduleSave timestamp delay =>
    0 < delay ∧ pendingSave past = none ∧ ∃ n rest, past = .spiRelease n timestamp :: rest
  | .completeSave deadline =>
    ∃ timestamp delay, pendingSave past = some (timestamp, delay) ∧ deadline = timestamp + delay
  | .spiTransmitReceive _ _ time =>
    (∀ p, pendingSave past = some p → time < p.1 + p.2) ∧
      ∀ deadline, lastCompleted past = some deadline → deadline ≤ time
  | _ => True

/-- Every call is on time. -/
def Punctual (log : List SlotCall) : Prop := ∀ call past, call :: past <:+ log → call.OnTime past

theorem punctual_nil : Punctual [] := fun _ _ h => absurd (List.eq_nil_of_suffix_nil h) (List.cons_ne_nil _ _)

theorem punctual_cons {call : SlotCall} {log : List SlotCall} :
    Punctual (call :: log) ↔ call.OnTime log ∧ Punctual log := by
  constructor
  · intro h
    exact ⟨h call log (List.suffix_refl _), fun call' past hpast =>
      h call' past (hpast.trans (List.suffix_cons call log))⟩
  · rintro ⟨htime, hlog⟩ call' past hpast
    rcases List.suffix_cons_iff.mp hpast with heq | hpast
    · obtain ⟨rfl, rfl⟩ := List.cons.inj heq
      exact htime
    · exact hlog call' past hpast

/-- A call that is not about the internal write. -/
def SlotCall.Plain : SlotCall → Prop
  | .scheduleSave _ _ | .completeSave _ | .cancelSave _ => False
  | _ => True

theorem pendingSave_plain {call : SlotCall} (h : call.Plain) (log : List SlotCall) :
    pendingSave (call :: log) = pendingSave log ∧
      lastCompleted (call :: log) = lastCompleted log := by
  cases call <;> first | exact ⟨rfl, rfl⟩ | exact absurd h id

theorem lastCompleted_onCart {C : Type*} (call : SlotCall) (h : call.Plain) (f : C → C)
    (s : Slot C) : lastCompleted (s.onCart call f).log = lastCompleted s.log := by
  rw [Slot.onCart]
  split
  · exact (pendingSave_plain h _).2
  · rfl

/-! ## Carts -/

/-- What the internal write asks of the calls on a cart. -/
structure SaveDelays {C : Type*} [VirtualCart C] (Valid : C → Prop) : Prop where
  reset : ∀ c : C, Valid (VirtualCart.reset c) ∧ VirtualCart.getSaveDelay (VirtualCart.reset c) = 0
  setResetState : ∀ (state : Bool) (c : C), Valid c → Valid (VirtualCart.setResetState state c) ∧
    VirtualCart.getSaveDelay (VirtualCart.setResetState state c) = VirtualCart.getSaveDelay c
  spiSelect : ∀ c : C, Valid c → Valid (VirtualCart.spiSelect c) ∧
    VirtualCart.getSaveDelay (VirtualCart.spiSelect c) = VirtualCart.getSaveDelay c
  spiTransmitReceive : ∀ (val : U8) (c : C), Valid c →
    Valid (VirtualCart.spiTransmitReceive val c).2 ∧
    VirtualCart.getSaveDelay (VirtualCart.spiTransmitReceive val c).2 = VirtualCart.getSaveDelay c
  spiRelease : ∀ c : C, Valid c → Valid (VirtualCart.spiRelease c) ∧
    (VirtualCart.getSaveDelay c ≠ 0 →
      VirtualCart.getSaveDelay (VirtualCart.spiRelease c) = VirtualCart.getSaveDelay c)
  completeSave : ∀ c : C, Valid c → Valid (VirtualCart.completeSave c) ∧
    VirtualCart.getSaveDelay (VirtualCart.completeSave c) = 0
  cancelSave : ∀ c : C, Valid c → Valid (VirtualCart.cancelSave true c) ∧
    VirtualCart.getSaveDelay (VirtualCart.cancelSave true c) = 0
  setSaveMemory : ∀ (savedata : List U8) (c : C), Valid c →
    Valid (VirtualCart.setSaveMemory savedata c) ∧
    (VirtualCart.getSaveDelay (VirtualCart.setSaveMemory savedata c) = 0 ∨
      VirtualCart.getSaveDelay (VirtualCart.setSaveMemory savedata c) =
        VirtualCart.getSaveDelay c)

/-! ## The invariant -/

namespace Slot

variable {C : Type*} [VirtualCart C] {Valid : C → Prop} {s : Slot C} {r : Option ℕ}

/-- The byte of an interface is on its way to the cart and arrives at this time. -/
def Flying (s : Slot C) (n : ARM.Num) (time : ℕ) : Prop :=
  (s.interfaces n).spiToCart ∧ (s.interfaces n).spiEvent = some time

/-- The event and the delay follow the log. After a release at the time `r` the delay may be
new, with no event yet. -/
structure Kept (Valid : C → Prop) (r : Option ℕ) (s : Slot C) : Prop where
  valid : ∀ c, s.cart = some c → Valid c
  event : s.saveEvent = (pendingSave s.log).map fun p => p.1 + p.2
  positive : ∀ p, pendingSave s.log = some p → 0 < p.2
  delay : s.saveDelay = ((pendingSave s.log).map Prod.snd).getD 0 ∨
    pendingSave s.log = none ∧ ∃ time, r = some time ∧ ∃ n rest, s.log = .spiRelease n time :: rest
  punctual : Punctual s.log
  flying : ∀ n time, s.Flying n time → ∀ deadline, lastCompleted s.log = some deadline →
    deadline ≤ time

theorem Kept.of_none (h : s.Kept Valid none) (r : Option ℕ) : s.Kept Valid r :=
  ⟨h.valid, h.event, h.positive,
    .inl (h.delay.elim id fun ⟨_, _, hr, _⟩ => absurd hr.symm (Option.some_ne_none _)), h.punctual, h.flying⟩

/-- Outside of a release the delay is that of the pending write. -/
theorem Kept.delay_eq (h : s.Kept Valid none) :
    s.saveDelay = ((pendingSave s.log).map Prod.snd).getD 0 :=
  h.delay.elim id fun ⟨_, _, hr, _⟩ => absurd hr.symm (Option.some_ne_none _)

theorem Kept.pending_none_iff (h : s.Kept Valid r) :
    pendingSave s.log = none ↔ s.saveEvent = none := by
  rw [h.event, Option.map_eq_none_iff]

theorem Kept.delay_ne_zero (h : s.Kept Valid none) {p : ℕ × ℕ} (hp : pendingSave s.log = some p) :
    s.saveDelay ≠ 0 := by
  have hpositive := h.positive p hp
  rw [h.delay_eq, hp]
  exact Nat.ne_of_gt hpositive

theorem Kept.delay_zero (h : s.Kept Valid none) (hno : pendingSave s.log = none) :
    s.saveDelay = 0 := by
  rw [h.delay_eq, hno]
  rfl

theorem saveDelay_none (hc : s.cart = none) : s.saveDelay = 0 := by
  rw [saveDelay, hc]

theorem saveDelay_some {c : C} (hc : s.cart = some c) :
    s.saveDelay = VirtualCart.getSaveDelay c := by
  rw [saveDelay, hc]

theorem Kept.scheduled_iff (h : s.Kept Valid none) :
    s.saveEvent.isSome ↔ ∃ c, s.cart = some c ∧ 0 < VirtualCart.getSaveDelay c := by
  cases hp : pendingSave s.log with
  | none =>
    rw [h.pending_none_iff.mp hp]
    refine ⟨fun hno => absurd hno Bool.false_ne_true, fun ⟨c, hc, hpositive⟩ => ?_⟩
    have hzero := (saveDelay_some hc).symm.trans (h.delay_zero hp)
    exact absurd hzero (Nat.ne_of_gt hpositive)
  | some p =>
    have hdelay := h.delay_ne_zero hp
    refine ⟨fun _ => ?_, fun _ => by rw [h.event, hp]; rfl⟩
    cases hc : s.cart with
    | none => exact absurd (saveDelay_none hc) hdelay
    | some c => exact ⟨c, rfl, Nat.pos_of_ne_zero (saveDelay_some hc ▸ hdelay)⟩

/-- A change to the interfaces that sends no new byte to the cart. -/
theorem Kept.interfaces (h : s.Kept Valid r) {s' : Slot C} (hcart : s'.cart = s.cart)
    (hevent : s'.saveEvent = s.saveEvent) (hlog : s'.log = s.log)
    (hflying : ∀ n time, s'.Flying n time → s.Flying n time) : s'.Kept Valid r where
  valid := hcart ▸ h.valid
  event := by rw [hevent, hlog, h.event]
  positive := hlog ▸ h.positive
  delay := by
    have hdelay : s'.saveDelay = s.saveDelay := by rw [saveDelay, saveDelay, hcart]
    rw [hdelay, hlog]
    exact h.delay
  punctual := hlog ▸ h.punctual
  flying := fun n time hn => hlog ▸ h.flying n time (hflying n time hn)

theorem Kept.modify (h : s.Kept Valid r) {n : ARM.Num} {f : Interface → Interface}
    (htoCart : (f (s.interfaces n)).spiToCart → (s.interfaces n).spiToCart)
    (hevent : (f (s.interfaces n)).spiEvent = (s.interfaces n).spiEvent) :
    (s.modify n f).Kept Valid r :=
  h.interfaces rfl rfl rfl fun m time ⟨hto, htime⟩ => by
    rcases eq_or_eq_otherCPU n m with rfl | rfl
    · rw [interfaces_modify] at hto htime
      exact ⟨htoCart hto, hevent ▸ htime⟩
    · rw [interfaces_modify_other] at hto htime
      exact ⟨hto, htime⟩

/-- A call on the cart that leaves the internal write alone. -/
theorem Kept.call (h : s.Kept Valid none) {c c' : C} (hc : s.cart = some c) (call : SlotCall)
    (hplain : call.Plain) (htime : call.OnTime s.log) (hvalid : Valid c')
    (hdelay : VirtualCart.getSaveDelay c' = VirtualCart.getSaveDelay c) :
    Kept Valid none { s with cart := some c', log := call :: s.log } := by
  obtain ⟨hpending, hcompleted⟩ := pendingSave_plain hplain s.log
  refine ⟨fun d hd => ?_, ?_, ?_, .inl ?_, punctual_cons.mpr ⟨htime, h.punctual⟩, ?_⟩
  · exact Option.some.inj hd ▸ hvalid
  · exact h.event.trans (by rw [hpending])
  · exact fun p hp => h.positive p (hpending ▸ hp)
  · change VirtualCart.getSaveDelay c' = ((pendingSave (call :: s.log)).map Prod.snd).getD 0
    rw [hpending, hdelay, ← saveDelay_some hc, h.delay_eq]
  · exact fun n time hn deadline hdeadline => h.flying n time hn deadline (hcompleted ▸ hdeadline)

theorem Kept.onCart (h : s.Kept Valid none) (call : SlotCall) (hplain : call.Plain)
    (htime : call.OnTime s.log) {f : C → C}
    (hf : ∀ c, Valid c → Valid (f c) ∧
      VirtualCart.getSaveDelay (f c) = VirtualCart.getSaveDelay c) :
    (s.onCart call f).Kept Valid none := by
  rw [Slot.onCart]
  split
  · rename_i c hc
    obtain ⟨hvalid, hdelay⟩ := hf c (h.valid c hc)
    exact h.call hc call hplain htime hvalid hdelay
  · exact h

/-- A call on the cart that ends the internal write, whatever became of it. -/
theorem Kept.over (h : s.Kept Valid r) (c' : Option C) (call : SlotCall)
    (hpending : pendingSave (call :: s.log) = none) (htime : call.OnTime s.log)
    (hvalid : ∀ c, c' = some c → Valid c ∧ VirtualCart.getSaveDelay c = 0)
    (hflying : ∀ n time, s.Flying n time → ∀ deadline,
      lastCompleted (call :: s.log) = some deadline → deadline ≤ time) :
    Kept Valid none { s with cart := c', saveEvent := none, log := call :: s.log } := by
  refine ⟨fun c hc => (hvalid c hc).1, ?_, ?_, .inl ?_,
    punctual_cons.mpr ⟨htime, h.punctual⟩, hflying⟩
  · change none = (pendingSave (call :: s.log)).map _
    rw [hpending]
    rfl
  · exact fun p hp => absurd (hp.symm.trans hpending) (Option.some_ne_none _)
  · change _ = ((pendingSave (call :: s.log)).map Prod.snd).getD 0
    rw [hpending]
    cases c' with
    | none => rfl
    | some c => exact (hvalid c rfl).2

/-! ## Calls of the slot -/

section Laws

variable (laws : SaveDelays Valid)

include laws

theorem Kept.spiSelect (h : s.Kept Valid none) (n : ARM.Num) : (s.spiSelect n).Kept Valid none :=
  h.onCart (.spiSelect n) trivial trivial laws.spiSelect

theorem Kept.spiRelease (h : s.Kept Valid none) (n : ARM.Num) (time : ℕ) :
    (s.spiRelease n time).Kept Valid (some time) := by
  rw [Slot.spiRelease, Slot.onCart]
  cases hc : s.cart with
  | none => exact h.of_none _
  | some c =>
    obtain ⟨hvalid, hdelay⟩ := laws.spiRelease c (h.valid c hc)
    by_cases hzero : VirtualCart.getSaveDelay c = 0
    · have hpending : pendingSave s.log = none := by
        by_contra hsome
        obtain ⟨p, hp⟩ := Option.ne_none_iff_exists'.mp hsome
        exact h.delay_ne_zero hp ((saveDelay_some hc).trans hzero)
      exact ⟨fun d hd => Option.some.inj hd ▸ hvalid, h.event, h.positive,
        .inr ⟨hpending, time, rfl, n, s.log, rfl⟩, punctual_cons.mpr ⟨trivial, h.punctual⟩,
        h.flying⟩
    · exact (h.call hc (.spiRelease n time) trivial trivial hvalid
        (hdelay hzero)).of_none _

theorem Kept.scheduleSave {time : ℕ} (h : s.Kept Valid (some time)) :
    (s.scheduleSave time).Kept Valid none := by
  -- With a write pending, or no delay, the delay is the one the log says.
  have hdone (hzero : pendingSave s.log = none → s.saveDelay = 0) : s.Kept Valid none := by
    refine ⟨h.valid, h.event, h.positive, .inl ?_, h.punctual, h.flying⟩
    rcases h.delay with hdelay | ⟨hpending, -⟩
    · exact hdelay
    · rw [hzero hpending, hpending]
      rfl
  rw [Slot.scheduleSave]
  cases hc : s.cart with
  | none => exact hdone fun _ => saveDelay_none hc
  | some c =>
    dsimp only
    split_ifs with hscheduled hzero hoverflow
    · refine hdone fun hpending => ?_
      rw [h.pending_none_iff.mp hpending] at hscheduled
      exact absurd hscheduled Bool.false_ne_true
    · exact hdone fun _ => (saveDelay_some hc).trans hzero
    · have hevent : s.saveEvent = none := Option.not_isSome_iff_eq_none.mp hscheduled
      have hcancel := h.over (some (VirtualCart.cancelSave true c))
        (.cancelSave true) rfl trivial
        (fun d hd => Option.some.inj hd ▸ laws.cancelSave c (h.valid c hc))
        fun _ _ _ _ hno => absurd hno.symm (Option.some_ne_none _)
      rw [Slot.onCart, hc, hevent]
      exact hcancel
    · have hevent : s.saveEvent = none := Option.not_isSome_iff_eq_none.mp hscheduled
      have hpending := h.pending_none_iff.mpr hevent
      have hrelease : ∃ n rest, s.log = .spiRelease n time :: rest := by
        rcases h.delay with hdelay | ⟨-, time', htime, hrelease⟩
        · rw [hpending, saveDelay_some hc] at hdelay
          exact absurd hdelay hzero
        · exact Option.some.inj htime ▸ hrelease
      refine ⟨fun d hd => Option.some.inj hd ▸ h.valid c hc, rfl, fun p hp => ?_, .inl rfl,
        punctual_cons.mpr ⟨⟨Nat.pos_of_ne_zero hzero, hpending, hrelease⟩, h.punctual⟩,
        fun _ _ _ _ hno => absurd hno.symm (Option.some_ne_none _)⟩
      obtain rfl := Option.some.inj hp
      exact Nat.pos_of_ne_zero hzero

/-- The write that is pending completes, no later than the bytes on their way arrive. -/
theorem Kept.completeSave (h : s.Kept Valid none) {deadline : ℕ}
    (hevent : s.saveEvent = some deadline) (hbytes : ∀ n time, s.Flying n time → deadline ≤ time) :
    ({ s with saveEvent := none }.completeSave deadline).Kept Valid none := by
  obtain ⟨p, hp, hdeadline⟩ := Option.map_eq_some_iff.mp (h.event.symm.trans hevent)
  have hdelay := h.delay_ne_zero hp
  obtain ⟨c, hc⟩ : ∃ c, s.cart = some c := by
    refine Option.ne_none_iff_exists'.mp fun hno => hdelay ?_
    rw [saveDelay_none hno]
  have hover := h.over (some (VirtualCart.completeSave c)) (.completeSave deadline)
    rfl ⟨p.1, p.2, hp, hdeadline.symm⟩
    (fun d hd => Option.some.inj hd ▸ laws.completeSave c (h.valid c hc))
    fun n time hn _ hsome => Option.some.inj hsome ▸ hbytes n time hn
  rw [Slot.completeSave, Slot.onCart]
  dsimp only
  rw [hc]
  exact hover

/-- By this time the write is complete, or not due yet. -/
theorem Kept.advanceSave (h : s.Kept Valid none) (time : ℕ)
    (hbytes : ∀ deadline, s.saveEvent = some deadline → deadline ≤ time →
      ∀ n time', s.Flying n time' → deadline ≤ time') :
    (s.advanceSave time).Kept Valid none ∧
      (∀ deadline, (s.advanceSave time).saveEvent = some deadline → time < deadline) ∧
      ∀ deadline, lastCompleted (s.advanceSave time).log = some deadline →
        lastCompleted s.log = some deadline ∨ s.saveEvent = some deadline ∧ deadline ≤ time := by
  rw [Slot.advanceSave]
  cases hevent : s.saveEvent with
  | none => exact ⟨h, fun _ hd => absurd (hd.symm.trans hevent) (Option.some_ne_none _), fun _ hd => .inl hd⟩
  | some deadline =>
    dsimp only
    by_cases hdue : deadline ≤ time
    · rw [if_pos hdue]
      refine ⟨h.completeSave laws hevent (hbytes deadline hevent hdue), fun d hd => ?_,
        fun d hd => .inr ?_⟩
      · rw [Slot.completeSave, Slot.onCart] at hd
        dsimp only at hd
        cases hc : s.cart with
        | none =>
          rw [hc] at hd
          exact absurd hd.symm (Option.some_ne_none _)
        | some c =>
          rw [hc] at hd
          exact absurd hd.symm (Option.some_ne_none _)
      · rw [Slot.completeSave, Slot.onCart] at hd
        dsimp only at hd
        cases hc : s.cart with
        | none =>
          obtain ⟨p, hp, -⟩ := Option.map_eq_some_iff.mp (h.event.symm.trans hevent)
          exact absurd (saveDelay_none hc) (h.delay_ne_zero hp)
        | some c =>
          rw [hc] at hd
          obtain rfl := Option.some.inj hd
          exact ⟨rfl, hdue⟩
    · rw [if_neg hdue]
      refine ⟨h, fun d hd => ?_, fun _ hd => .inl hd⟩
      obtain rfl := Option.some.inj (hevent.symm.trans hd)
      omega

theorem Kept.deliver (h : s.Kept Valid none) {n : ARM.Num} {time : ℕ}
    (hto : (s.interfaces n).spiToCart = false)
    (hpending : ∀ deadline, s.saveEvent = some deadline → time < deadline)
    (hcompleted : ∀ deadline, lastCompleted s.log = some deadline → deadline ≤ time) :
    (s.deliver n time).Kept Valid none := by
  rw [Slot.deliver]
  cases hc : s.cart with
  | none => exact h
  | some c =>
    obtain ⟨hvalid, hdelay⟩ :=
      laws.spiTransmitReceive (s.interfaces n).spiOut c (h.valid c hc)
    have hbyte := h.call hc (.spiTransmitReceive n (s.interfaces n).spiOut time) trivial
      ⟨fun p hp => hpending _ (h.event.trans (by rw [hp]; rfl)), hcompleted⟩ hvalid hdelay
    exact hbyte.modify (fun hyes => absurd (hto.symm.trans hyes) Bool.false_ne_true) rfl

theorem Kept.updateCartState (h : s.Kept Valid none) : s.updateCartState.Kept Valid none := by
  rw [Slot.updateCartState]
  cases hc : s.cart with
  | none => exact h
  | some c =>
    dsimp only
    obtain ⟨hvalid, hdelay⟩ := laws.setResetState (!decide (s.powerState = 2) ||
      !(s.interfaces s.cpuSelect).resetReleased) c (h.valid c hc)
    refine ⟨fun d hd => Option.some.inj hd ▸ hvalid, h.event, h.positive, .inl ?_, h.punctual,
      h.flying⟩
    exact hdelay.trans ((saveDelay_some hc).symm.trans h.delay_eq)

end Laws

/-- A change to one interface whose byte, if it has one now, comes late enough. -/
theorem Kept.launch (h : s.Kept Valid r) {n : ARM.Num} {f : Interface → Interface}
    (hbyte : (f (s.interfaces n)).spiToCart → ∀ time, (f (s.interfaces n)).spiEvent = some time →
      ∀ deadline, lastCompleted s.log = some deadline → deadline ≤ time) :
    (s.modify n f).Kept Valid r where
  valid := h.valid
  event := h.event
  positive := h.positive
  delay := h.delay
  punctual := h.punctual
  flying := fun m time ⟨hto, htime⟩ => by
    rcases eq_or_eq_otherCPU n m with rfl | rfl
    · rw [interfaces_modify] at hto htime
      exact hbyte hto time htime
    · rw [interfaces_modify_other] at hto htime
      exact h.flying _ time ⟨hto, htime⟩

theorem Kept.ejectCart (h : s.Kept Valid none) :
    s.ejectCart.Kept Valid none ∧ s.ejectCart.cart = none := by
  rw [Slot.ejectCart]
  cases hc : s.cart with
  | none => exact ⟨h, hc⟩
  | some c =>
    refine ⟨?_, rfl⟩
    have hover := h.over none (.cancelSave true) rfl trivial
      (fun _ hno => absurd hno.symm (Option.some_ne_none _)) fun _ _ _ _ hno => absurd hno.symm (Option.some_ne_none _)
    rw [Slot.onCart]
    dsimp only
    exact hover.interfaces rfl rfl rfl fun _ _ hn => absurd hn.1 Bool.false_ne_true

end Slot

/-- When the byte that starts now arrives. An event that is there already stays. -/
def Interface.byteTime (time : ℕ) (i : Interface) : ℕ :=
  i.spiEvent.getD (time + 8 * (8 * 2 ^ (i.spiCnt &&& 3).toNat))

namespace SlotOp

variable {C : Type*}

/-- The time up to which an operation lets the internal write come. -/
def advancesTo (s : Slot C) : SlotOp C → Option ℕ
  | .writeSPICnt _ time _ _ => some time
  | .writeSPIData _ time _ => some time
  | .spiTransferDone n => (s.interfaces n).spiEvent
  | .completeSave => s.saveEvent
  | _ => none

/-- The operation completes the write before a byte that arrives ahead of the deadline. -/
def Forces (s : Slot C) (op : SlotOp C) : Prop :=
  ∃ n, (s.interfaces n).spiToCart ∧ ∃ time ∈ op.advancesTo s, ∃ deadline ∈ s.saveEvent,
    deadline ≤ time ∧ ∃ arrival ∈ (s.interfaces n).spiEvent, arrival < deadline

/-- The operation starts a byte that arrives ahead of the deadline of a completed write. -/
def StartsEarly (s : Slot C) : SlotOp C → Prop
  | .writeSPIData n time _ =>
    (s.interfaces n).startsByte ∧ s.cartActive ∧ s.cpuSelect = n ∧
      ((∃ deadline ∈ lastCompleted s.log, (s.interfaces n).byteTime time < deadline) ∨
        ∃ deadline ∈ s.saveEvent, deadline ≤ time ∧ (s.interfaces n).byteTime time < deadline)
  | _ => False

/-- A byte would see a write whose deadline it comes before. -/
def Early (s : Slot C) (op : SlotOp C) : Prop := op.Forces s ∨ op.StartsEarly s

instance (s : Slot C) (op : SlotOp C) : Decidable (op.Forces s) :=
  decidable_of_iff (∃ n ∈ [ARM.Num.arm9, .arm7], (s.interfaces n).spiToCart ∧
    ∃ time ∈ op.advancesTo s, ∃ deadline ∈ s.saveEvent,
      deadline ≤ time ∧ ∃ arrival ∈ (s.interfaces n).spiEvent, arrival < deadline)
    ⟨fun ⟨n, _, h⟩ => ⟨n, h⟩, fun ⟨n, h⟩ => ⟨n, by cases n <;> decide, h⟩⟩

instance (s : Slot C) : DecidablePred (StartsEarly s)
  | .writeSPIData .. => inferInstanceAs (Decidable (_ ∧ _ ∧ _ ∧ (_ ∨ _)))
  | .writeSPICnt .. | .spiTransferDone _ | .completeSave | .setCPUSelect _ | .setPowerState _
  | .setSaveMemory _ | .setCart _ | .ejectCart | .reset _ => inferInstanceAs (Decidable False)

instance (s : Slot C) (op : SlotOp C) : Decidable (op.Early s) :=
  inferInstanceAs (Decidable (_ ∨ _))

end SlotOp

namespace Slot

variable {C : Type*} [VirtualCart C] {Valid : C → Prop} {s : Slot C}

section Laws

variable (laws : SaveDelays Valid)

include laws

theorem Kept.advanceTo (h : s.Kept Valid none) {op : SlotOp C} (hno : ¬op.Early s) {time : ℕ}
    (htime : op.advancesTo s = some time) :
    (s.advanceSave time).Kept Valid none ∧
      (∀ deadline, (s.advanceSave time).saveEvent = some deadline → time < deadline) ∧
      ∀ deadline, lastCompleted (s.advanceSave time).log = some deadline →
        lastCompleted s.log = some deadline ∨ s.saveEvent = some deadline ∧ deadline ≤ time :=
  h.advanceSave laws time fun deadline hdeadline hdue n arrival hn => by
    by_contra hearly
    exact hno (.inl ⟨n, hn.1, time, htime, deadline, hdeadline, hdue, arrival, hn.2,
      not_le.mp hearly⟩)

theorem Kept.writeSPICnt (h : s.Kept Valid none) {n : ARM.Num} {time : ℕ} {val mask : U16}
    (hno : ¬(SlotOp.writeSPICnt n time val mask).Early s) :
    (s.writeSPICnt n time val mask).Kept Valid none := by
  obtain ⟨hs, -⟩ := h.advanceTo laws hno rfl
  rw [Slot.writeSPICnt]
  generalize s.advanceSave time = s₁ at hs ⊢
  dsimp only
  refine Kept.modify ?_ id rfl
  split
  · split
    · have hkept : (s₁.modify n fun i => { i with spiToCart := false }).Kept Valid none :=
        hs.modify (fun hyes => absurd hyes Bool.false_ne_true) rfl
      generalize (s₁.modify n fun i => { i with spiToCart := false }) = s₂ at hkept ⊢
      have hreleased : (if s₁.cpuSelect = n ∨ (s₂.interfaces s₂.cpuSelect).spiSelected = false
          then (s₂.spiRelease n time).scheduleSave time else s₂).Kept Valid none := by
        split
        · exact (hkept.spiRelease laws n time).scheduleSave laws
        · exact hkept
      split
      · exact hreleased
      · exact hreleased.modify (fun hyes => absurd hyes Bool.false_ne_true) rfl
    · split
      · split
        · exact hs.spiSelect laws n
        · exact hs.modify (fun hyes => absurd hyes Bool.false_ne_true) rfl
      · exact hs
  · exact hs

theorem Kept.writeSPIData (h : s.Kept Valid none) {n : ARM.Num} {time : ℕ} {val : U8}
    (hno : ¬(SlotOp.writeSPIData n time val).Early s) :
    (s.writeSPIData n time val).Kept Valid none := by
  obtain ⟨hs, -, hcompleted⟩ := h.advanceTo laws hno rfl
  have hquiet := quiet_advanceSave time s
  rw [Slot.writeSPIData]
  generalize s.advanceSave time = s₁ at hs hcompleted hquiet ⊢
  have hi : s₁.interfaces n = s.interfaces n := congrFun hquiet.interfaces n
  dsimp only
  by_cases hstart : (s₁.interfaces n).startsByte = false
  · rw [if_pos hstart]
    exact hs
  rw [if_neg hstart]
  have hbound (hactive : s₁.cartActive) (howner : s₁.cpuSelect = n) :
      ∀ deadline, lastCompleted s₁.log = some deadline →
        deadline ≤ (s₁.interfaces n).byteTime time := fun deadline hdeadline => by
    by_contra hearly
    have hlt := not_le.mp hearly
    rw [hi] at hlt hstart
    refine hno (.inr ⟨(Bool.not_eq_false _).mp hstart, hquiet.active ▸ hactive,
      hquiet.cpuSelect ▸ howner, ?_⟩)
    rcases hcompleted deadline hdeadline with hbefore | ⟨hpending, hdue⟩
    · exact .inl ⟨deadline, hbefore, hlt⟩
    · exact .inr ⟨deadline, hpending, hdue, hlt⟩
  set s₂ := s₁.modify n fun i =>
    { i with
      spiCnt := i.spiCnt ||| 0x0080
      spiOut := val
      spiPending := true
      spiToCart := false
      spiHold := i.spiCnt.getLsbD 6
      spiOwnsCS := false } with hs₂
  have hkept : s₂.Kept Valid none :=
    hs.modify (fun hyes => absurd hyes Bool.false_ne_true) rfl
  have hfields : (s₂.interfaces n).spiToCart = false ∧
      (s₂.interfaces n).spiEvent = (s₁.interfaces n).spiEvent := by
    rw [hs₂, interfaces_modify]
    exact ⟨rfl, rfl⟩
  suffices hstarted : ∀ s₃ : Slot C, s₃.Kept Valid none →
      (s₃.interfaces n).spiEvent = (s₁.interfaces n).spiEvent →
      ((s₃.interfaces n).spiToCart → ∀ deadline, lastCompleted s₃.log = some deadline →
        deadline ≤ (s₁.interfaces n).byteTime time) →
      (s₃.modify n fun i =>
        { i with spiEvent := i.spiEvent.or (some (time +
          8 * (8 * 2 ^ ((s₁.interfaces n).spiCnt &&& 3).toNat))) }).Kept Valid none by
    split
    · rename_i hactive
      split
      · rename_i howner
        obtain ⟨hselected, hsame, hlog⟩ :
            (if (s₁.interfaces n).spiSelected then s₂ else s₂.spiSelect n).Kept Valid none ∧
              (if (s₁.interfaces n).spiSelected then s₂ else s₂.spiSelect n).interfaces =
                s₂.interfaces ∧
              lastCompleted (if (s₁.interfaces n).spiSelected then s₂ else s₂.spiSelect n).log =
                lastCompleted s₁.log := by
          split
          · exact ⟨hkept, rfl, rfl⟩
          · exact ⟨hkept.spiSelect laws n, interfaces_onCart ..,
              lastCompleted_onCart (.spiSelect n) trivial ..⟩
        generalize (if (s₁.interfaces n).spiSelected then s₂ else s₂.spiSelect n) = s₃
          at hselected hsame hlog ⊢
        have hlate : ∀ deadline, lastCompleted s₃.log = some deadline →
            deadline ≤ (s₁.interfaces n).byteTime time := by
          rw [hlog]
          exact hbound hactive howner
        refine hstarted _ (hselected.launch fun _ arrival harrival deadline hdeadline => ?_) ?_
          fun _ => hlate
        · have hle := hlate deadline hdeadline
          change (s₃.interfaces n).spiEvent = some arrival at harrival
          rw [hsame, hfields.2] at harrival
          rwa [Interface.byteTime, harrival] at hle
        · rw [interfaces_modify, hsame]
          exact hfields.2
      · refine hstarted _ (hkept.modify id rfl) ?_ fun hyes => ?_
        · rw [interfaces_modify]
          exact hfields.2
        · rw [interfaces_modify] at hyes
          exact absurd (hfields.1.symm.trans hyes) Bool.false_ne_true
    · refine hstarted _ (hkept.modify id rfl) ?_ fun hyes => ?_
      · rw [interfaces_modify]
        exact hfields.2
      · rw [interfaces_modify] at hyes
        exact absurd (hfields.1.symm.trans hyes) Bool.false_ne_true
  intro s₃ hs₃ hevent hlate
  refine hs₃.launch fun hto arrival harrival deadline hdeadline => ?_
  have hle := hlate hto deadline hdeadline
  change (s₃.interfaces n).spiEvent.or _ = _ at harrival
  rw [hevent, Option.or_some] at harrival
  rwa [Interface.byteTime, Option.some.inj harrival] at hle

theorem Kept.spiTransferDone (h : s.Kept Valid none) {n : ARM.Num}
    (hno : ¬(SlotOp.spiTransferDone n).Early s) : (s.spiTransferDone n).Kept Valid none := by
  rw [Slot.spiTransferDone]
  cases hevent : (s.interfaces n).spiEvent with
  | none => exact h
  | some time =>
    have hs₀ : (s.modify n fun i => { i with spiEvent := none }).Kept Valid none :=
      h.launch fun _ _ hnone => absurd hnone.symm (Option.some_ne_none _)
    have hi₀ : (s.modify n fun i => { i with spiEvent := none }).interfaces n =
        { s.interfaces n with spiEvent := none } := interfaces_modify ..
    have hothers (m : ARM.Num) (arrival : ℕ)
        (hm : (s.modify n fun i => { i with spiEvent := none }).Flying m arrival) :
        s.Flying m arrival := by
      obtain ⟨hto, harrival⟩ := hm
      rcases eq_or_eq_otherCPU n m with rfl | rfl
      · rw [hi₀] at harrival
        exact absurd harrival.symm (Option.some_ne_none _)
      · rw [interfaces_modify_other] at hto harrival
        exact ⟨hto, harrival⟩
    obtain ⟨hs, hpending, hcompleted⟩ := hs₀.advanceSave laws time
      fun deadline hdeadline hdue m arrival hm => by
        obtain ⟨hto, harrival⟩ := hothers m arrival hm
        by_contra hearly
        exact hno (.inl ⟨m, hto, time, hevent, deadline, hdeadline, hdue, arrival, harrival,
          not_le.mp hearly⟩)
    have hquiet := quiet_advanceSave time (s.modify n fun i => { i with spiEvent := none })
    dsimp only
    generalize (s.modify n fun i => { i with spiEvent := none }).advanceSave time = s₁
      at hs hpending hcompleted hquiet ⊢
    have hi : s₁.interfaces n = { s.interfaces n with spiEvent := none } :=
      (congrFun hquiet.interfaces n).trans hi₀
    have hkept : (s₁.modify n fun i =>
        { i with spiPending := false, spiToCart := false, spiHold := false,
                 spiOwnsCS := false }).Kept Valid none := hs.modify (fun hyes => absurd hyes Bool.false_ne_true) rfl
    have hto : ((s₁.modify n fun i =>
        { i with spiPending := false, spiToCart := false, spiHold := false,
                 spiOwnsCS := false }).interfaces n).spiToCart = false := by
      rw [interfaces_modify]
    generalize hs₂ : (s₁.modify n fun i =>
      { i with spiPending := false, spiToCart := false, spiHold := false, spiOwnsCS := false }) = s₂
      at hkept hto ⊢
    have hsame : s₂.saveEvent = s₁.saveEvent ∧ s₂.log = s₁.log := hs₂ ▸ ⟨rfl, rfl⟩
    have hdelivered : (if (s₁.interfaces n).spiToCart ∧ s₂.cartActive then s₂.deliver n time
        else s₂).Kept Valid none := by
      split
      · rename_i hbyte
        refine hkept.deliver laws hto (hsame.1 ▸ hpending) fun deadline hdeadline => ?_
        rcases hcompleted deadline (hsame.2 ▸ hdeadline) with hbefore | ⟨-, hdue⟩
        · have hflying : (s.interfaces n).spiToCart := by
            have hyes := hbyte.1
            rwa [hi] at hyes
          exact h.flying n time ⟨hflying, hevent⟩ deadline hbefore
        · exact hdue
      · exact hkept
    generalize (if (s₁.interfaces n).spiToCart ∧ s₂.cartActive then s₂.deliver n time else s₂) = s₃
      at hdelivered ⊢
    refine Kept.modify ?_ id rfl
    split
    · refine Kept.scheduleSave laws (Kept.modify ?_ id rfl)
      split
      · exact hdelivered.spiRelease laws n time
      · exact hdelivered.of_none _
    · exact hdelivered

theorem Kept.cancel (h : s.Kept Valid none) :
    ({ s with saveEvent := none }.onCart (.cancelSave true) (VirtualCart.cancelSave true)).Kept
      Valid none := by
  rw [Slot.onCart]
  dsimp only
  cases hc : s.cart with
  | none =>
    have hpending : pendingSave s.log = none := by
      by_contra hsome
      obtain ⟨p, hp⟩ := Option.ne_none_iff_exists'.mp hsome
      exact h.delay_ne_zero hp (saveDelay_none hc)
    exact h.interfaces hc.symm (h.pending_none_iff.mp hpending).symm rfl fun _ _ hn => hn
  | some c =>
    exact h.over (some (VirtualCart.cancelSave true c)) (.cancelSave true) rfl trivial
      (fun d hd => Option.some.inj hd ▸ laws.cancelSave c (h.valid c hc))
      fun _ _ _ _ hno => absurd hno.symm (Option.some_ne_none _)

theorem Kept.setCPUSelect (h : s.Kept Valid none) (sel : ARM.Num) :
    (s.setCPUSelect sel).Kept Valid none := by
  have hs : { s with cpuSelect := sel }.Kept Valid none :=
    h.interfaces rfl rfl rfl fun _ _ hn => hn
  rw [Slot.setCPUSelect]
  dsimp only
  split
  · exact hs.updateCartState laws
  · exact hs

theorem Kept.setPowerState (h : s.Kept Valid none) (power : ℕ) :
    (s.setPowerState power).Kept Valid none := by
  rw [Slot.setPowerState]
  split
  · exact h
  have hdetached : (if power ≠ 2 then s.detachBoth else s).Kept Valid none := by
    split
    · exact h.interfaces rfl rfl rfl fun _ _ hn => absurd hn.1 Bool.false_ne_true
    · exact h
  generalize (if power ≠ 2 then s.detachBoth else s) = s₁ at hdetached ⊢
  have hpower : { s₁ with powerState := power }.Kept Valid none :=
    hdetached.interfaces rfl rfl rfl fun _ _ hn => hn
  dsimp only
  split
  · have hcancel := hpower.cancel laws
    refine Kept.interfaces (Kept.updateCartState laws ?_) rfl rfl rfl fun _ _ hn => hn
    exact hcancel.interfaces rfl rfl rfl fun _ _ hn => hn
  · exact hpower.interfaces rfl rfl rfl fun _ _ hn => hn

/-- A cart that has just been reset comes into an empty slot. -/
theorem Kept.insert (h : s.Kept Valid none) (hno : s.cart = none) (c : C) :
    { s with cart := some (VirtualCart.reset c), cartActive := true }.Kept Valid none := by
  obtain ⟨hvalid, hdelay⟩ := laws.reset c
  have hzero := h.delay_eq
  rw [saveDelay_none hno] at hzero
  exact ⟨fun d hd => Option.some.inj hd ▸ hvalid, h.event, h.positive, .inl (hdelay.trans hzero),
    h.punctual, h.flying⟩

theorem Kept.setCart (h : s.Kept Valid none) (cart : Option C) :
    (s.setCart cart).Kept Valid none := by
  obtain ⟨hs, hno⟩ := h.ejectCart
  cases cart with
  | none => exact hs.interfaces hno.symm rfl rfl fun _ _ hn => hn
  | some c =>
    exact (hs.insert laws hno c).updateCartState laws

theorem Kept.setSaveMemory (h : s.Kept Valid none) (savedata : List U8) :
    (s.setSaveMemory savedata).Kept Valid none := by
  rw [Slot.setSaveMemory]
  dsimp only
  have hvalid (c : C) (hc : s.cart.map (VirtualCart.setSaveMemory savedata) = some c) :
      Valid c := by
    obtain ⟨d, hd, rfl⟩ := Option.map_eq_some_iff.mp hc
    exact (laws.setSaveMemory savedata d (h.valid d hd)).1
  by_cases hzero : Slot.saveDelay
      { s with cart := s.cart.map (VirtualCart.setSaveMemory savedata) } = 0
  · rw [if_pos hzero]
    exact h.over _ (.cancelSave false) rfl trivial
      (fun c hc => ⟨hvalid c hc, (saveDelay_some hc).symm.trans hzero⟩)
      fun _ _ _ _ hno => absurd hno.symm (Option.some_ne_none _)
  · rw [if_neg hzero]
    refine ⟨hvalid, h.event, h.positive, .inl (Eq.trans ?_ h.delay_eq), h.punctual, h.flying⟩
    cases hc : s.cart with
    | none => rw [saveDelay_none hc, saveDelay_none rfl]
    | some c =>
      rw [saveDelay_some (c := VirtualCart.setSaveMemory savedata c) (by rw [hc]; rfl)] at hzero
      rw [saveDelay_some hc, saveDelay_some (c := VirtualCart.setSaveMemory savedata c) rfl]
      exact (laws.setSaveMemory savedata c (h.valid c hc)).2.resolve_left hzero

theorem Kept.reset (h : s.Kept Valid none) (dsi : Bool) : (s.reset dsi).Kept Valid none := by
  have hover := h.over (s.cart.map VirtualCart.reset) (.cancelSave true) rfl trivial
    (fun c hc => by
      obtain ⟨d, -, rfl⟩ := Option.map_eq_some_iff.mp hc
      exact laws.reset d)
    fun _ _ _ _ hno => absurd hno.symm (Option.some_ne_none _)
  exact hover.interfaces rfl rfl rfl fun _ _ hn => absurd hn.1 Bool.false_ne_true

theorem Kept.apply (h : s.Kept Valid none) (op : SlotOp C) (hno : ¬op.Early s) :
    (op.apply s).Kept Valid none := by
  cases op with
  | writeSPICnt n time val mask => exact h.writeSPICnt laws hno
  | writeSPIData n time val => exact h.writeSPIData laws hno
  | spiTransferDone n => exact h.spiTransferDone laws hno
  | completeSave =>
    rw [SlotOp.apply]
    cases hevent : s.saveEvent with
    | none => exact h
    | some deadline =>
      refine h.completeSave laws hevent fun n arrival hn => ?_
      by_contra hearly
      exact hno (.inl ⟨n, hn.1, deadline, hevent, deadline, hevent, le_rfl, arrival, hn.2,
        not_le.mp hearly⟩)
  | setCPUSelect sel => exact h.setCPUSelect laws sel
  | setPowerState power => exact h.setPowerState laws power
  | setSaveMemory savedata => exact h.setSaveMemory laws savedata
  | setCart cart => exact h.setCart laws cart
  | ejectCart => exact (h.ejectCart).1
  | reset dsi => exact h.reset laws dsi

end Laws

end Slot
/-! ## The carts -/

theorem SaveDelays.common : SaveDelays fun _ : CartROM × CartCommon => True where
  reset := fun _ => ⟨trivial, rfl⟩
  setResetState := fun _ _ _ => ⟨trivial, rfl⟩
  spiSelect := fun _ _ => ⟨trivial, rfl⟩
  spiTransmitReceive := fun _ _ _ => ⟨trivial, rfl⟩
  spiRelease := fun _ _ => ⟨trivial, fun _ => rfl⟩
  completeSave := fun _ _ => ⟨trivial, rfl⟩
  cancelSave := fun _ _ => ⟨trivial, rfl⟩
  setSaveMemory := fun _ _ _ => ⟨trivial, .inl rfl⟩

namespace CartRetail

/-- A write and a power transition are never under way together. -/
def OneDelay (c : CartRetail) : Prop := c.writeDelay = 0 ∨ c.powerDelay = 0

theorem oneDelay_congr {c c' : CartRetail} (hwrite : c'.writeDelay = c.writeDelay)
    (hpower : c'.powerDelay = c.powerDelay) (h : c.OneDelay) :
    c'.OneDelay ∧ c'.getSaveDelay = c.getSaveDelay := by
  refine ⟨?_, by rw [getSaveDelay, getSaveDelay, hwrite, hpower]⟩
  rw [OneDelay, hwrite, hpower]
  exact h

theorem oneDelay_zero {c : CartRetail} (hwrite : c.writeDelay = 0) (hpower : c.powerDelay = 0) :
    c.OneDelay ∧ c.getSaveDelay = 0 := by
  refine ⟨.inl hwrite, ?_⟩
  rw [getSaveDelay, hwrite, hpower]
  rfl

theorem powerDelay_releaseStatus (c : CartRetail) :
    c.releaseStatus.endCommand.powerDelay = c.powerDelay := by
  unfold releaseStatus
  dsimp only
  split_ifs <;> rfl

theorem powerDelay_releaseDirty (c : CartRetail) : c.releaseDirty.powerDelay = c.powerDelay := by
  unfold releaseDirty publishDirty
  split_ifs <;> rfl

theorem oneDelay_spiRelease (c : CartRetail) (h : c.OneDelay) :
    c.spiRelease.OneDelay ∧ (c.getSaveDelay ≠ 0 → c.spiRelease.getSaveDelay = c.getSaveDelay) := by
  have hidle {d : CartRetail} (hc : c.Idle) (hd : d.OneDelay) :
      d.OneDelay ∧ (c.getSaveDelay ≠ 0 → d.getSaveDelay = c.getSaveDelay) :=
    ⟨hd, fun hne => absurd (oneDelay_zero hc.2.1 hc.2.2).2 hne⟩
  refine spiRelease_cases c
    (P := fun d => d.OneDelay ∧ (c.getSaveDelay ≠ 0 → d.getSaveDelay = c.getSaveDelay))
    (fun _ => ⟨h, fun _ => rfl⟩) ⟨h, fun _ => rfl⟩
    (fun hc _ _ => hidle hc (.inl ?_)) (fun hc _ _ _ => hidle hc (.inr ?_))
    (fun hc _ _ _ => hidle hc (.inr ?_)) (fun hc _ _ _ => hidle hc (.inr ?_))
    (fun hc _ _ => hidle hc (.inr ?_)) fun hc _ _ => hidle hc (.inr ?_)
  · refine Eq.trans ?_ hc.2.1
    unfold releasePower
    dsimp only
    split_ifs <;> rfl
  · exact (powerDelay_releaseStatus c).trans hc.2.2
  · refine Eq.trans ?_ hc.2.2
    unfold releaseLock
    dsimp only
    split_ifs <;> rfl
  · refine Eq.trans ?_ hc.2.2
    unfold releaseBulkErase
    split_ifs <;> rfl
  · refine Eq.trans ?_ hc.2.2
    unfold releasePage
    dsimp only
    split_ifs <;> rfl
  · exact (powerDelay_releaseDirty c).trans hc.2.2

theorem oneDelay_completeSave (c : CartRetail) (h : c.OneDelay) :
    c.completeSave.OneDelay ∧ c.completeSave.getSaveDelay = 0 := by
  rw [completeSave]
  by_cases hpower : c.powerDelay ≠ 0
  · rw [if_pos hpower]
    exact oneDelay_zero (h.resolve_right hpower) rfl
  · rw [if_neg hpower]
    by_cases hwrite : c.writeDelay = 0
    · rw [if_pos hwrite]
      exact oneDelay_zero hwrite (not_not.mp hpower)
    · rw [if_neg hwrite]
      refine oneDelay_zero ?_ ?_
      · unfold completeWrite
        split <;> rfl
      · refine Eq.trans ?_ (not_not.mp hpower)
        unfold completeWrite
        split <;> rfl

theorem oneDelay_setSaveMemory (savedata : List U8) (c : CartRetail) (h : c.OneDelay) :
    (c.setSaveMemory savedata).OneDelay ∧ ((c.setSaveMemory savedata).getSaveDelay = 0 ∨
      (c.setSaveMemory savedata).getSaveDelay = c.getSaveDelay) := by
  have hwrite : (c.setSaveMemory savedata).writeDelay = 0 := by
    unfold setSaveMemory
    dsimp only
    split <;> rfl
  have hpower : (c.setSaveMemory savedata).powerDelay = c.powerDelay := by
    unfold setSaveMemory
    dsimp only
    split <;> rfl
  refine ⟨.inl hwrite, ?_⟩
  by_cases hzero : c.powerDelay = 0
  · exact .inl (oneDelay_zero hwrite (hpower.trans hzero)).2
  · refine .inr ?_
    rw [getSaveDelay, getSaveDelay, hwrite, h.resolve_right hzero, hpower]

end CartRetail

theorem SaveDelays.retail : SaveDelays fun c : CartROM × CartRetail => c.2.OneDelay where
  reset := fun _ => CartRetail.oneDelay_zero rfl rfl
  setResetState := fun _ _ h => CartRetail.oneDelay_congr rfl rfl h
  spiSelect := fun _ h => CartRetail.oneDelay_congr rfl rfl h
  spiTransmitReceive := fun val c h =>
    have hchip := CartRetail.chip_spiTransmitReceive val c.2
    CartRetail.oneDelay_congr (congrArg Chip.writeDelay hchip) (congrArg Chip.powerDelay hchip) h
  spiRelease := fun c h => CartRetail.oneDelay_spiRelease c.2 h
  completeSave := fun c h => CartRetail.oneDelay_completeSave c.2 h
  cancelSave := fun _ _ => CartRetail.oneDelay_zero rfl rfl
  setSaveMemory := fun savedata c h => CartRetail.oneDelay_setSaveMemory savedata c.2 h

theorem SaveDelays.sum {A B : Type*} [VirtualCart A] [VirtualCart B] {P : A → Prop} {Q : B → Prop}
    (hA : SaveDelays P) (hB : SaveDelays Q) : SaveDelays (Sum.elim P Q) where
  reset := fun c => match c with
    | .inl a => hA.reset a
    | .inr b => hB.reset b
  setResetState := fun state c => match c with
    | .inl a => hA.setResetState state a
    | .inr b => hB.setResetState state b
  spiSelect := fun c => match c with
    | .inl a => hA.spiSelect a
    | .inr b => hB.spiSelect b
  spiTransmitReceive := fun val c => match c with
    | .inl a => hA.spiTransmitReceive val a
    | .inr b => hB.spiTransmitReceive val b
  spiRelease := fun c => match c with
    | .inl a => hA.spiRelease a
    | .inr b => hB.spiRelease b
  completeSave := fun c => match c with
    | .inl a => hA.completeSave a
    | .inr b => hB.completeSave b
  cancelSave := fun c => match c with
    | .inl a => hA.cancelSave a
    | .inr b => hB.cancelSave b
  setSaveMemory := fun savedata c => match c with
    | .inl a => hA.setSaveMemory savedata a
    | .inr b => hB.setSaveMemory savedata b

/-! ## Runs -/

/-- A cart with or without a save chip. -/
abbrev SlotCart := (CartROM × CartCommon) ⊕ (CartROM × CartRetail)

/-- A slot without a cart, its interfaces as after a reset. -/
structure Slot.Empty {C : Type*} (s : Slot C) : Prop where
  cart : s.cart = none
  saveEvent : s.saveEvent = none
  interfaces : s.interfaces = fun _ => .reset
  log : s.log = []

theorem Slot.Empty.kept {C : Type*} [VirtualCart C] {Valid : C → Prop} {s : Slot C}
    (h : s.Empty) : s.Kept Valid none where
  valid := fun _ hc => absurd (hc.symm.trans h.cart) (Option.some_ne_none _)
  event := by
    rw [h.saveEvent, h.log]
    rfl
  positive := by
    rw [h.log]
    exact fun _ hp => absurd hp.symm (Option.some_ne_none _)
  delay := .inl (by
    rw [Slot.saveDelay_none h.cart, h.log]
    rfl)
  punctual := by
    rw [h.log]
    exact punctual_nil
  flying := by
    rw [h.log]
    exact fun _ _ _ _ hd => absurd hd.symm (Option.some_ne_none _)

/-- As long as no write completes ahead of a byte that its deadline comes after, the event, the
delay of the cart and the log of an initially empty slot agree about every internal write. -/
theorem saveEvents_punctual {s : Slot SlotCart} (hempty : s.Empty) (ops : List (SlotOp SlotCart))
    (hno : ∀ p ∈ trace SlotOp.apply s ops, ¬p.2.Early p.1) :
    ((ops.foldl SlotOp.apply s).saveEvent.isSome ↔
        ∃ c, (ops.foldl SlotOp.apply s).cart = some c ∧ 0 < VirtualCart.getSaveDelay c) ∧
      (ops.foldl SlotOp.apply s).saveEvent =
        (pendingSave (ops.foldl SlotOp.apply s).log).map (fun p => p.1 + p.2) ∧
      (∀ p, pendingSave (ops.foldl SlotOp.apply s).log = some p →
        (ops.foldl SlotOp.apply s).saveDelay = p.2) ∧
      Punctual (ops.foldl SlotOp.apply s).log := by
  have laws := SaveDelays.common.sum SaveDelays.retail
  have hend := foldl_invariant (P := Slot.Kept _ none)
    (C := fun s op => ¬op.Early s) (fun s op h hop => h.apply laws op hop) hempty.kept hno
  generalize ops.foldl SlotOp.apply s = s' at hend ⊢
  refine ⟨hend.scheduled_iff, hend.event, fun p hp => ?_, hend.punctual⟩
  rw [hend.delay_eq, hp]
  rfl

/-- A serial flash of 256 KiB. -/
def flashCart : SlotCart := .inr (blankROM, .build true 15 none)

/-- The flash goes into power-down from 64 to 165; then a byte. -/
def powerDown : List (SlotOp SlotCart) :=
  [.setCart (some flashCart), .writeSPICnt .arm9 0 0xA000 0xFFFF, .writeSPIData .arm9 0 0xB9,
    .spiTransferDone .arm9, .writeSPIData .arm9 90 0x05]

def emptySlot : Slot SlotCart where
  interfaces := fun _ => .reset
  cpuSelect := .arm9
  powerState := 2
  cartActive := false
  cart := none
  saveEvent := none
  log := []

theorem saveEvents_punctual_powerDown :
    (∀ p ∈ trace SlotOp.apply emptySlot powerDown, ¬p.2.Early p.1) ∧
      Punctual (powerDown.foldl SlotOp.apply emptySlot).log := by
  have hno : ∀ p ∈ trace SlotOp.apply emptySlot powerDown, ¬p.2.Early p.1 := by
    decide +kernel
  exact ⟨hno, (saveEvents_punctual ⟨rfl, rfl, rfl, rfl⟩ powerDown hno).2.2.2⟩

/-- The other CPU gets to its AUXSPICNT at 170 before the byte is delivered that has arrived
at 154. -/
def forcedPowerDown : List (SlotOp SlotCart) :=
  powerDown ++ [.writeSPICnt .arm7 170 0 0xFFFF, .spiTransferDone .arm9]

/-- The power-down that ends at 165 is over for the byte of 154. -/
theorem saveEvent_forced :
    emptySlot.Empty ∧ ¬Punctual (forcedPowerDown.foldl SlotOp.apply emptySlot).log := by
  refine ⟨⟨rfl, rfl, rfl, rfl⟩, fun h => ?_⟩
  have hlog : (forcedPowerDown.foldl SlotOp.apply emptySlot).log =
      [.spiRelease .arm9 154, .spiTransmitReceive .arm9 0x05 154, .completeSave 165,
        .spiSelect .arm9, .scheduleSave 64 101, .spiRelease .arm9 64,
        .spiTransmitReceive .arm9 0xB9 64, .spiSelect .arm9] := by
    decide +kernel
  rw [hlog] at h
  obtain ⟨-, hbyte⟩ := (punctual_cons.mp (punctual_cons.mp h).2).1
  exact absurd (hbyte 165 rfl) (by decide)

end MelonDS.NDSCart
