import MelonDS.Library.Trace
import MelonDS.NDSCart.Slot

/-!
# One chip select for two interfaces

Each interface keeps its own flag for a chip select that the cart has only once. The log says
who opened the transaction under way (`opener`). An interface holds the chip select while its
flag is set in SPI mode; nothing takes that hold away when the other interface selects the
cart. As long as no select overlaps a hold of the other interface, the holder is the opener.
-/

namespace MelonDS.NDSCart

open NDS (otherCPU)

/-- The interface whose select has opened the transaction under way. -/
def opener : List SlotCall → Option ARM.Num
  | .spiSelect n :: _ => some n
  | .spiRelease _ _ :: _ => none
  | _ :: log => opener log
  | [] => none

/-- A byte belongs to the transaction its interface has opened; a release does not end the
transaction of the other interface. -/
def SlotCall.Fits (past : List SlotCall) : SlotCall → Prop
  | .spiTransmitReceive n _ _ => opener past = some n
  | .spiRelease n _ => opener past ≠ some (otherCPU n)
  | _ => True

/-- Every call fits the calls before it. -/
def Unmixed (log : List SlotCall) : Prop := ∀ call past, call :: past <:+ log → call.Fits past

theorem unmixed_nil : Unmixed [] := fun _ _ h => absurd (List.eq_nil_of_suffix_nil h) nofun

theorem unmixed_cons {call : SlotCall} {log : List SlotCall} :
    Unmixed (call :: log) ↔ call.Fits log ∧ Unmixed log := by
  constructor
  · intro h
    exact ⟨h call log (List.suffix_refl _), fun call' past hpast =>
      h call' past (hpast.trans (List.suffix_cons call log))⟩
  · rintro ⟨hfits, hlog⟩ call' past hpast
    rcases List.suffix_cons_iff.mp hpast with heq | hpast
    · obtain ⟨rfl, rfl⟩ := List.cons.inj heq
      exact hfits
    · exact hlog call' past hpast

/-- The interface holds the chip select low. -/
def Interface.Holds (i : Interface) : Prop := i.spiSelected ∧ i.spiMode

instance (i : Interface) : Decidable i.Holds := inferInstanceAs (Decidable (_ ∧ _))

theorem ne_otherCPU (n : ARM.Num) : n ≠ otherCPU n := by cases n <;> decide

theorem eq_or_eq_otherCPU (n m : ARM.Num) : m = n ∨ m = otherCPU n := by
  cases n <;> cases m <;> decide

namespace Slot

variable {C : Type*} {s s' : Slot C} {k : Option ARM.Num}

/-- The interfaces agree with the log about who holds the chip select, but for the
interface `k` that is being changed. -/
structure Exclusive (k : Option ARM.Num) (s : Slot C) : Prop where
  active : s.cartActive → s.cart.isSome ∧ s.powerState = 2
  inactive : s.cartActive = false → ∀ n, (s.interfaces n).spiSelected = false
  flying : ∀ n, (s.interfaces n).spiToCart →
    (s.interfaces n).Holds ∧ (s.interfaces n).spiOwnsCS
  holder : ∀ n, k ≠ some n → (s.interfaces n).Holds → opener s.log = some n
  unmixed : Unmixed s.log

/-- Nothing that concerns the serial interfaces has changed. -/
structure Quiet (s s' : Slot C) : Prop where
  interfaces : s'.interfaces = s.interfaces
  cpuSelect : s'.cpuSelect = s.cpuSelect
  power : s'.powerState = s.powerState
  active : s'.cartActive = s.cartActive
  cart : s'.cart.isSome = s.cart.isSome
  opener : opener s'.log = opener s.log
  unmixed : Unmixed s'.log ↔ Unmixed s.log

theorem Quiet.refl (s : Slot C) : Quiet s s := ⟨rfl, rfl, rfl, rfl, rfl, rfl, Iff.rfl⟩

theorem Exclusive.quiet (h : s.Exclusive k) (hq : Quiet s s') : s'.Exclusive k where
  active := fun hyes => by
    rw [hq.cart, hq.power]
    exact h.active (hq.active ▸ hyes)
  inactive := fun hno n => by
    rw [hq.interfaces]
    exact h.inactive (hq.active.symm.trans hno) n
  flying := fun n hn => by
    rw [hq.interfaces] at hn ⊢
    exact h.flying n hn
  holder := fun n hk hn => by
    rw [hq.interfaces] at hn
    exact hq.opener.trans (h.holder n hk hn)
  unmixed := hq.unmixed.mpr h.unmixed

theorem Exclusive.opener_ne (h : s.Exclusive none) {n : ARM.Num} (hn : (s.interfaces n).Holds) :
    opener s.log ≠ some (otherCPU n) := fun heq =>
  ne_otherCPU n (Option.some.inj ((h.holder n nofun hn).symm.trans heq))

theorem Exclusive.other_not_holds (h : s.Exclusive none) {n : ARM.Num}
    (hn : (s.interfaces n).Holds) : ¬(s.interfaces (otherCPU n)).Holds := fun hother =>
  h.opener_ne hn (h.holder _ nofun hother)

/-! ## Changes to one interface -/

theorem interfaces_modify_other (n : ARM.Num) (f : Interface → Interface) (s : Slot C) :
    (s.modify n f).interfaces (otherCPU n) = s.interfaces (otherCPU n) :=
  Function.update_of_ne (ne_otherCPU n).symm ..

theorem Exclusive.modify (h : s.Exclusive k) {n : ARM.Num} (hk : k = none ∨ k = some n)
    {f : Interface → Interface}
    (hinactive : s.cartActive = false → (f (s.interfaces n)).spiSelected = false)
    (hflying : (f (s.interfaces n)).spiToCart →
      (f (s.interfaces n)).Holds ∧ (f (s.interfaces n)).spiOwnsCS)
    (hholds : (f (s.interfaces n)).Holds → opener s.log = some n) :
    (s.modify n f).Exclusive none where
  active := h.active
  inactive := fun hno m => by
    rcases eq_or_eq_otherCPU n m with rfl | rfl
    · rw [interfaces_modify]
      exact hinactive hno
    · rw [interfaces_modify_other]
      exact h.inactive hno _
  flying := fun m hm => by
    rcases eq_or_eq_otherCPU n m with rfl | rfl
    · rw [interfaces_modify] at hm ⊢
      exact hflying hm
    · rw [interfaces_modify_other] at hm ⊢
      exact h.flying _ hm
  holder := fun m _ hm => by
    rcases eq_or_eq_otherCPU n m with rfl | rfl
    · rw [interfaces_modify] at hm
      exact hholds hm
    · rw [interfaces_modify_other] at hm
      refine h.holder _ ?_ hm
      rintro rfl
      exact hk.elim nofun fun heq => ne_otherCPU n (Option.some.inj heq).symm
  unmixed := h.unmixed

/-- A change that leaves the chip select and the byte in flight alone. -/
theorem Exclusive.modify_same (h : s.Exclusive none) {n : ARM.Num} {f : Interface → Interface}
    (hselected : (f (s.interfaces n)).spiSelected = (s.interfaces n).spiSelected)
    (hmode : (f (s.interfaces n)).spiMode = (s.interfaces n).spiMode)
    (htoCart : (f (s.interfaces n)).spiToCart → (s.interfaces n).spiToCart)
    (howns : (f (s.interfaces n)).spiToCart → (f (s.interfaces n)).spiOwnsCS) :
    (s.modify n f).Exclusive none := by
  have hholds : (f (s.interfaces n)).Holds ↔ (s.interfaces n).Holds := by
    rw [Interface.Holds, Interface.Holds, hselected, hmode]
  exact h.modify (.inl rfl) (fun hno => hselected.trans (h.inactive hno n))
    (fun hto => ⟨hholds.mpr (h.flying n (htoCart hto)).1, howns hto⟩)
    fun hn => h.holder n nofun (hholds.mp hn)

/-- The interface lets go of the chip select. -/
theorem Exclusive.modify_lost (h : s.Exclusive k) {n : ARM.Num} (hk : k = none ∨ k = some n)
    {f : Interface → Interface} (hselected : (f (s.interfaces n)).spiSelected = false)
    (htoCart : (f (s.interfaces n)).spiToCart = false) : (s.modify n f).Exclusive none :=
  h.modify hk (fun _ => hselected)
    (fun hto => absurd hto (by rw [htoCart]; exact Bool.false_ne_true))
    fun hn => absurd hn.1 (by rw [hselected]; exact Bool.false_ne_true)

theorem Exclusive.except (h : s.Exclusive none) (k : Option ARM.Num) : s.Exclusive k :=
  ⟨h.active, h.inactive, h.flying, fun n _ => h.holder n nofun, h.unmixed⟩

/-- A new AUXSPICNT that leaves SPI mode, with no byte on its way to the cart. -/
theorem Exclusive.leaveMode (h : s.Exclusive k) {n : ARM.Num} (hk : k = none ∨ k = some n)
    (hto : (s.interfaces n).spiToCart = false) {cnt : U16} (hmode : cnt.getLsbD 13 = false) :
    (s.modify n fun i => { i with spiCnt := cnt }).Exclusive none :=
  h.modify hk (fun hno => h.inactive hno n)
    (fun hyes => absurd (hto.symm.trans hyes) Bool.false_ne_true)
    fun hn => absurd (hmode.symm.trans hn.2) Bool.false_ne_true

/-- A new AUXSPICNT of an interface that is not selected. -/
theorem Exclusive.unselected (h : s.Exclusive none) {n : ARM.Num}
    (hsel : (s.interfaces n).spiSelected = false) (cnt : U16) :
    (s.modify n fun i => { i with spiCnt := cnt }).Exclusive none :=
  h.modify (.inl rfl) (fun _ => hsel)
    (fun hyes => absurd (hsel.symm.trans (h.flying n hyes).1.1) Bool.false_ne_true)
    fun hn => absurd (hsel.symm.trans hn.1) Bool.false_ne_true

/-- No interface has the chip select, and no byte is on its way. -/
def Idle (s : Slot C) : Prop :=
  ∀ n, (s.interfaces n).spiSelected = false ∧ (s.interfaces n).spiToCart = false

theorem Exclusive.idle (h : s.Exclusive none) (hno : s.cartActive = false) : s.Idle := fun n =>
  have hselected := h.inactive hno n
  ⟨hselected, (Bool.not_eq_true _).mp fun hto => Bool.false_ne_true
    (hselected.symm.trans (h.flying n hto).1.1)⟩

theorem Idle.exclusive (hidle : s.Idle) (hlog : Unmixed s.log)
    (hactive : s.cartActive → s.cart.isSome ∧ s.powerState = 2) : s.Exclusive none where
  active := hactive
  inactive := fun _ n => (hidle n).1
  flying := fun n hto => absurd ((hidle n).2.symm.trans hto) Bool.false_ne_true
  holder := fun n _ hn => absurd ((hidle n).1.symm.trans hn.1) Bool.false_ne_true
  unmixed := hlog

theorem idle_detachBoth (s : Slot C) : s.detachBoth.Idle := fun _ => ⟨rfl, rfl⟩

/-! ## The cart -/

section Cart

variable [VirtualCart C]

theorem quiet_completeSave (s : Slot C) (event : Option ℕ) (deadline : ℕ) :
    Quiet s ({ s with saveEvent := event }.completeSave deadline) := by
  rw [completeSave, onCart]
  dsimp only
  cases hc : s.cart with
  | none => exact ⟨rfl, rfl, rfl, rfl, by rw [hc], rfl, Iff.rfl⟩
  | some c =>
    exact ⟨rfl, rfl, rfl, rfl, by rw [hc]; rfl, rfl, unmixed_cons.trans (iff_of_eq (true_and _))⟩

theorem quiet_advanceSave (timestamp : ℕ) (s : Slot C) : Quiet s (s.advanceSave timestamp) := by
  rw [advanceSave]
  split
  · exact .refl s
  · split
    · exact quiet_completeSave s none _
    · exact .refl s

theorem quiet_cancelSave (s : Slot C) (event : Option ℕ) (powerOff : Bool) :
    Quiet s ({ s with saveEvent := event }.onCart (.cancelSave powerOff)
      (VirtualCart.cancelSave powerOff)) := by
  rw [onCart]
  dsimp only
  cases hc : s.cart with
  | none => exact ⟨rfl, rfl, rfl, rfl, by rw [hc], rfl, Iff.rfl⟩
  | some c =>
    exact ⟨rfl, rfl, rfl, rfl, by rw [hc]; rfl, rfl, unmixed_cons.trans (iff_of_eq (true_and _))⟩

theorem quiet_scheduleSave (timestamp : ℕ) (s : Slot C) : Quiet s (s.scheduleSave timestamp) := by
  rw [scheduleSave]
  split
  · exact .refl s
  · dsimp only
    split_ifs
    · exact .refl s
    · exact .refl s
    · exact quiet_cancelSave s s.saveEvent true
    · exact ⟨rfl, rfl, rfl, rfl, rfl, rfl, unmixed_cons.trans (iff_of_eq (true_and _))⟩

theorem Exclusive.spiSelect (h : s.Exclusive none) (hactive : s.cartActive) {n : ARM.Num}
    (hother : ¬(s.interfaces (otherCPU n)).Holds) :
    (s.spiSelect n).Exclusive none ∧ opener (s.spiSelect n).log = some n := by
  obtain ⟨c, hc⟩ := Option.isSome_iff_exists.mp (h.active hactive).1
  rw [Slot.spiSelect, onCart, hc]
  refine ⟨⟨fun hyes => ⟨rfl, (h.active hyes).2⟩, h.inactive, h.flying, fun m _ hm => ?_,
    unmixed_cons.mpr ⟨trivial, h.unmixed⟩⟩, rfl⟩
  rcases eq_or_eq_otherCPU n m with rfl | rfl
  · rfl
  · exact absurd hm hother

theorem Exclusive.spiRelease (h : s.Exclusive none) (hactive : s.cartActive) {n : ARM.Num}
    (hn : (s.interfaces n).Holds) (time : ℕ) : (s.spiRelease n time).Exclusive (some n) := by
  obtain ⟨c, hc⟩ := Option.isSome_iff_exists.mp (h.active hactive).1
  rw [Slot.spiRelease, onCart, hc]
  refine ⟨fun hyes => ⟨rfl, (h.active hyes).2⟩, h.inactive, h.flying, fun m hk hm => ?_,
    unmixed_cons.mpr ⟨h.opener_ne hn, h.unmixed⟩⟩
  rcases eq_or_eq_otherCPU n m with rfl | rfl
  · exact absurd rfl hk
  · exact absurd hm (h.other_not_holds hn)

theorem Exclusive.deliver (h : s.Exclusive none) (hactive : s.cartActive) {n : ARM.Num}
    (hn : (s.interfaces n).Holds) (hto : (s.interfaces n).spiToCart = false) (time : ℕ) :
    (s.deliver n time).Exclusive none ∧ (s.deliver n time).cartActive = s.cartActive ∧
      ∃ data, (s.deliver n time).interfaces n = { s.interfaces n with spiData := data } := by
  obtain ⟨c, hc⟩ := Option.isSome_iff_exists.mp (h.active hactive).1
  rw [Slot.deliver, hc]
  dsimp only
  have hbyte : Exclusive none
      { s with
        cart := some (VirtualCart.spiTransmitReceive (s.interfaces n).spiOut c).2
        log := .spiTransmitReceive n (s.interfaces n).spiOut time :: s.log } :=
    ⟨fun hyes => ⟨rfl, (h.active hyes).2⟩, h.inactive, h.flying, h.holder,
      unmixed_cons.mpr ⟨h.holder n nofun hn, h.unmixed⟩⟩
  refine ⟨hbyte.modify_same rfl rfl (fun hyes => hyes) fun hyes => ?_, rfl, _,
    interfaces_modify ..⟩
  exact absurd (hto.symm.trans hyes) Bool.false_ne_true

/-- AUXSPICNT leaves SPI mode: the interface releases the cart, unless the cart is another's. -/
theorem Exclusive.chipSelectHigh (h : s.Exclusive none) {n : ARM.Num} (hn : (s.interfaces n).Holds)
    (hactive : s.cartActive) (p : Prop) [Decidable p] (time : ℕ) :
    (if p then (s.spiRelease n time).scheduleSave time else s).Exclusive (some n) ∧
      (if p then (s.spiRelease n time).scheduleSave time else s).interfaces = s.interfaces := by
  split
  · have hquiet := quiet_scheduleSave time (s.spiRelease n time)
    exact ⟨(h.spiRelease hactive hn time).quiet hquiet,
      hquiet.interfaces.trans (interfaces_onCart ..)⟩
  · exact ⟨h.except (some n), rfl⟩

/-- A byte starts: the interface selects the cart unless it has done so before. -/
theorem Exclusive.opened (h : s.Exclusive none) (hactive : s.cartActive) {n : ARM.Num}
    (hmode : (s.interfaces n).spiMode) {selected : Bool}
    (hselected : (s.interfaces n).spiSelected = selected)
    (hother : selected = false → ¬(s.interfaces (otherCPU n)).Holds) :
    ((if selected then s else s.spiSelect n).modify n fun i =>
      { i with spiSelected := true, spiToCart := true, spiOwnsCS := true }).Exclusive none := by
  cases selected with
  | true =>
    have hopener := h.holder n nofun ⟨hselected, hmode⟩
    refine h.modify (.inl rfl) (fun hno => ?_) (fun _ => ⟨⟨rfl, hmode⟩, rfl⟩) fun _ => hopener
    exact absurd (hno.symm.trans hactive) Bool.false_ne_true
  | false =>
    obtain ⟨hselect, hopener⟩ := h.spiSelect hactive (hother rfl)
    have hsame : (s.spiSelect n).interfaces = s.interfaces := interfaces_onCart ..
    refine hselect.modify (.inl rfl) (fun hno => ?_) (fun _ => ⟨⟨rfl, ?_⟩, rfl⟩) fun _ => hopener
    · exact absurd (((cartActive_onCart ..).symm.trans hno).symm.trans hactive) Bool.false_ne_true
    · rw [hsame]
      exact hmode

/-- The transaction ends with its byte. -/
theorem Exclusive.closed (h : s.Exclusive none) {n : ARM.Num} {time : ℕ}
    (hto : (s.interfaces n).spiToCart = false) {p : Prop} [Decidable p]
    (hp : p → s.cartActive ∧ (s.interfaces n).Holds) :
    ((if p then s.spiRelease n time else s).modify n fun i =>
      { i with spiSelected := false }).Exclusive none := by
  split
  · rename_i hyes
    refine (h.spiRelease (hp hyes).1 (hp hyes).2 time).modify_lost (.inr rfl) rfl ?_
    exact (congrArg (·.spiToCart) (congrFun (interfaces_onCart ..) n)).trans hto
  · exact h.modify_lost (.inl rfl) rfl hto

theorem Exclusive.updateCartState (h : s.Exclusive none)
    (hselected : s.powerState ≠ 2 → ∀ n, (s.interfaces n).spiSelected = false) :
    s.updateCartState.Exclusive none := by
  rw [Slot.updateCartState]
  split
  · exact h
  · rename_i c hc
    refine ⟨fun hyes => ⟨rfl, of_decide_eq_true hyes⟩, fun hno => ?_, h.flying, h.holder, h.unmixed⟩
    exact hselected (of_decide_eq_false hno)

end Cart

end Slot

/-! ## Operations -/

section Operations

variable {C : Type*} {s : Slot C}

/-- The interface that an operation selects the cart for. -/
def SlotOp.Selects (s : Slot C) (n : ARM.Num) : SlotOp C → Prop
  | .writeSPICnt m _ val mask =>
    m = n ∧ (s.interfaces n).spiSelected ∧ s.cartActive ∧ s.cpuSelect = n ∧
      (s.interfaces n).spiMode = false ∧ ((s.interfaces n).newSPICnt val mask).getLsbD 13
  | .writeSPIData m _ _ =>
    m = n ∧ (s.interfaces n).startsByte ∧ s.cartActive ∧ s.cpuSelect = n ∧
      (s.interfaces n).spiSelected = false
  | _ => False

/-- The cart is selected for one interface while the other holds the chip select. -/
def SlotOp.Overlaps (s : Slot C) (op : SlotOp C) : Prop :=
  ∃ n, op.Selects s n ∧ (s.interfaces (otherCPU n)).Holds

instance (n : ARM.Num) : DecidablePred (SlotOp.Selects s n)
  | .writeSPICnt .. => inferInstanceAs (Decidable (_ ∧ _))
  | .writeSPIData .. => inferInstanceAs (Decidable (_ ∧ _))
  | .spiTransferDone _ | .completeSave | .setCPUSelect _ | .setPowerState _ | .setSaveMemory _
  | .setCart _ | .ejectCart | .reset _ => inferInstanceAs (Decidable False)

instance (op : SlotOp C) : Decidable (op.Overlaps s) :=
  decidable_of_iff
    ((op.Selects s .arm9 ∧ (s.interfaces .arm7).Holds) ∨
      (op.Selects s .arm7 ∧ (s.interfaces .arm9).Holds))
    ⟨fun h => h.elim (⟨_, ·⟩) (⟨_, ·⟩), fun ⟨n, h⟩ => by
      cases n
      · exact .inl h
      · exact .inr h⟩

variable [VirtualCart C]

namespace Slot

theorem Exclusive.writeSPICnt (h : s.Exclusive none) {n : ARM.Num} {time : ℕ} {val mask : U16}
    (hno : ¬(SlotOp.writeSPICnt n time val mask).Overlaps s) :
    (s.writeSPICnt n time val mask).Exclusive none := by
  have hquiet := quiet_advanceSave time s
  have hs := h.quiet hquiet
  rw [Slot.writeSPICnt]
  generalize hs' : s.advanceSave time = s₁ at hquiet hs ⊢
  have hi : s₁.interfaces n = s.interfaces n := congrFun hquiet.interfaces n
  dsimp only
  by_cases hsel : (s₁.interfaces n).spiSelected ∧ s₁.cartActive
  · rw [if_pos hsel]
    by_cases hdown : (s₁.interfaces n).spiMode ∧
        ((s₁.interfaces n).newSPICnt val mask).getLsbD 13 = false ∧
          (s₁.cpuSelect = n ∨ (s₁.interfaces n).spiOwnsCS)
    · rw [if_pos hdown]
      have hkept : (s₁.modify n fun i => { i with spiToCart := false }).Exclusive none :=
        hs.modify_same rfl rfl (fun hyes => absurd hyes Bool.false_ne_true)
          fun hyes => absurd hyes Bool.false_ne_true
      have hto : ((s₁.modify n fun i => { i with spiToCart := false }).interfaces n).spiToCart =
          false := by rw [interfaces_modify]
      have hholds : ((s₁.modify n fun i => { i with spiToCart := false }).interfaces n).Holds := by
        rw [interfaces_modify]
        exact ⟨hsel.1, hdown.1⟩
      have hactive : (s₁.modify n fun i => { i with spiToCart := false }).cartActive := hsel.2
      generalize (s₁.modify n fun i => { i with spiToCart := false }) = s₂
        at hkept hto hholds hactive ⊢
      obtain ⟨hafter, hsame⟩ := hkept.chipSelectHigh hholds hactive
        (s₁.cpuSelect = n ∨ (s₂.interfaces s₂.cpuSelect).spiSelected = false) time
      generalize (if s₁.cpuSelect = n ∨ (s₂.interfaces s₂.cpuSelect).spiSelected = false
        then (s₂.spiRelease n time).scheduleSave time else s₂) = s₃ at hafter hsame ⊢
      by_cases howner : s₁.cpuSelect = n
      · rw [if_pos howner]
        exact hafter.leaveMode (.inr rfl) (by rw [hsame, hto]) hdown.2.1
      · rw [if_neg howner]
        have hdetach := hafter.modify_lost (n := n) (.inr rfl) (f := Interface.detachSPI) rfl rfl
        exact hdetach.unselected (by rw [interfaces_modify]; rfl) _
    · rw [if_neg hdown]
      by_cases hup : (s₁.interfaces n).spiMode = false ∧
          ((s₁.interfaces n).newSPICnt val mask).getLsbD 13
      · rw [if_pos hup]
        by_cases howner : s₁.cpuSelect = n
        · rw [if_pos howner]
          have hother : ¬(s₁.interfaces (otherCPU n)).Holds := fun hother =>
            hno ⟨n, ⟨rfl, hi ▸ hsel.1, hquiet.active ▸ hsel.2, hquiet.cpuSelect ▸ howner,
              hi ▸ hup.1, hi ▸ hup.2⟩, hquiet.interfaces ▸ hother⟩
          obtain ⟨hselect, hopener⟩ := hs.spiSelect hsel.2 hother
          have hsame : (s₁.spiSelect n).interfaces n = s₁.interfaces n :=
            congrFun (interfaces_onCart ..) n
          refine hselect.modify (.inl rfl) (fun hfalse => hselect.inactive hfalse n)
            (fun hyes => ?_) fun _ => hopener
          have hmode := (hselect.flying n hyes).1.2
          rw [hsame, hup.1] at hmode
          exact absurd hmode Bool.false_ne_true
        · rw [if_neg howner]
          have hdetach := hs.modify_lost (n := n) (.inl rfl) (f := Interface.detachSPI) rfl rfl
          exact hdetach.unselected (by rw [interfaces_modify]; rfl) _
      · rw [if_neg hup]
        cases hmode : (s₁.interfaces n).spiMode with
        | false =>
          have hcnt : ((s₁.interfaces n).newSPICnt val mask).getLsbD 13 = false :=
            (Bool.not_eq_true _).mp fun hyes => hup ⟨hmode, hyes⟩
          exact hs.modify_same rfl (hcnt.trans hmode.symm) (fun hyes => hyes)
            fun hyes => (hs.flying n hyes).2
        | true =>
          cases hcnt : ((s₁.interfaces n).newSPICnt val mask).getLsbD 13 with
          | true =>
            exact hs.modify_same rfl (hcnt.trans hmode.symm) (fun hyes => hyes)
              fun hyes => (hs.flying n hyes).2
          | false =>
            refine hs.leaveMode (.inl rfl) ((Bool.not_eq_true _).mp fun hyes => ?_) hcnt
            exact hdown ⟨hmode, hcnt, .inr (hs.flying n hyes).2⟩
  · rw [if_neg hsel]
    refine hs.unselected ((Bool.not_eq_true _).mp fun hyes => hsel ⟨hyes, ?_⟩) _
    by_contra hinactive
    exact Bool.false_ne_true
      ((hs.inactive ((Bool.not_eq_true _).mp hinactive) n).symm.trans hyes)

theorem spiMode_or_busy (cnt : U16) : (cnt ||| 0x0080).getLsbD 13 = cnt.getLsbD 13 := by
  rw [BitVec.getLsbD_or, show (0x0080 : U16).getLsbD 13 = false from rfl, Bool.or_false]

theorem spiMode_and_not_busy (cnt : U16) : (cnt &&& ~~~0x0080).getLsbD 13 = cnt.getLsbD 13 := by
  rw [BitVec.getLsbD_and, show (~~~0x0080 : U16).getLsbD 13 = true from rfl, Bool.and_true]

theorem Exclusive.writeSPIData (h : s.Exclusive none) {n : ARM.Num} {time : ℕ} {val : U8}
    (hno : ¬(SlotOp.writeSPIData n time val).Overlaps s) :
    (s.writeSPIData n time val).Exclusive none := by
  have hquiet := quiet_advanceSave time s
  have hs := h.quiet hquiet
  rw [Slot.writeSPIData]
  generalize s.advanceSave time = s₁ at hquiet hs ⊢
  have hi : s₁.interfaces n = s.interfaces n := congrFun hquiet.interfaces n
  dsimp only
  by_cases hstart : (s₁.interfaces n).startsByte = false
  · rw [if_pos hstart]
    exact hs
  rw [if_neg hstart]
  have hstarts : (s₁.interfaces n).startsByte := (Bool.not_eq_false _).mp hstart
  have hmode : (s₁.interfaces n).spiMode := by
    rw [Interface.startsByte, Bool.and_eq_true, Bool.and_eq_true] at hstarts
    exact hstarts.1.2
  have hbyte := hs.modify_same (n := n) (f := fun i =>
      { i with
        spiCnt := i.spiCnt ||| 0x0080
        spiOut := val
        spiPending := true
        spiToCart := false
        spiHold := i.spiCnt.getLsbD 6
        spiOwnsCS := false })
    rfl (spiMode_or_busy _) (fun hyes => absurd hyes Bool.false_ne_true)
    fun hyes => absurd hyes Bool.false_ne_true
  set s₂ := s₁.modify n fun i =>
    { i with
      spiCnt := i.spiCnt ||| 0x0080
      spiOut := val
      spiPending := true
      spiToCart := false
      spiHold := i.spiCnt.getLsbD 6
      spiOwnsCS := false } with hs₂
  have hselected : (s₂.interfaces n).spiSelected = (s₁.interfaces n).spiSelected := by
    rw [hs₂, interfaces_modify]
  have hmode₂ : (s₂.interfaces n).spiMode := by
    rw [hs₂, interfaces_modify]
    exact (spiMode_or_busy _).trans hmode
  have hothers : s₂.interfaces (otherCPU n) = s₁.interfaces (otherCPU n) :=
    interfaces_modify_other ..
  suffices hstarted : Exclusive none
      (if s₂.cartActive then
        if s₂.cpuSelect = n then
          (if (s₁.interfaces n).spiSelected then s₂ else s₂.spiSelect n).modify n fun i =>
            { i with spiSelected := true, spiToCart := true, spiOwnsCS := true }
        else s₂.modify n fun i => { i with spiData := 0xFF }
      else s₂.modify n fun i => { i with spiData := if s₂.powerState = 1 then 0xFF else 0 }) from
    hstarted.modify_same rfl rfl (fun hyes => hyes) fun hyes => (hstarted.flying n hyes).2
  split
  · rename_i hactive
    split
    · rename_i howner
      refine hbyte.opened hactive hmode₂ hselected fun hunselected hother => hno ?_
      rw [hothers, hquiet.interfaces] at hother
      refine ⟨n, ⟨rfl, hi ▸ hstarts, ?_, ?_, hi ▸ hunselected⟩, hother⟩
      · exact hquiet.active ▸ hactive
      · exact hquiet.cpuSelect ▸ howner
    · exact hbyte.modify_same rfl rfl (fun hyes => hyes) fun hyes => (hbyte.flying n hyes).2
  · exact hbyte.modify_same rfl rfl (fun hyes => hyes) fun hyes => (hbyte.flying n hyes).2

theorem Exclusive.spiTransferDone (h : s.Exclusive none) (n : ARM.Num) :
    (s.spiTransferDone n).Exclusive none := by
  rw [Slot.spiTransferDone]
  split
  · exact h
  rename_i timestamp _
  dsimp only
  have hevent : (s.modify n fun i => { i with spiEvent := none }).Exclusive none :=
    h.modify_same rfl rfl (fun hyes => hyes) fun hyes => (h.flying n hyes).2
  have hs := hevent.quiet (quiet_advanceSave timestamp _)
  generalize (s.modify n fun i => { i with spiEvent := none }).advanceSave timestamp = s₁ at hs ⊢
  have hi := hs.flying n
  generalize hi₁ : s₁.interfaces n = i at hi
  have hbyte := hs.modify_same (n := n) (f := fun i =>
      { i with spiPending := false, spiToCart := false, spiHold := false, spiOwnsCS := false })
    rfl rfl (fun hyes => absurd hyes Bool.false_ne_true) fun hyes => absurd hyes Bool.false_ne_true
  set s₂ := s₁.modify n fun i =>
    { i with spiPending := false, spiToCart := false, spiHold := false, spiOwnsCS := false }
    with hs₂
  have hsame : (s₂.interfaces n).spiSelected = i.spiSelected ∧
      (s₂.interfaces n).spiMode = i.spiMode ∧ (s₂.interfaces n).spiToCart = false := by
    rw [hs₂, interfaces_modify, hi₁]
    exact ⟨rfl, rfl, rfl⟩
  obtain ⟨hs₃, hactive₃, data, hi₃⟩ :
      (if i.spiToCart ∧ s₂.cartActive then s₂.deliver n timestamp else s₂).Exclusive none ∧
        (if i.spiToCart ∧ s₂.cartActive then s₂.deliver n timestamp else s₂).cartActive =
          s₂.cartActive ∧
        ∃ data, (if i.spiToCart ∧ s₂.cartActive then s₂.deliver n timestamp else s₂).interfaces n =
          { s₂.interfaces n with spiData := data } := by
    split
    · rename_i hto
      have hholds := (hi hto.1).1
      refine hbyte.deliver hto.2 ?_ hsame.2.2 timestamp
      exact ⟨hsame.1.trans hholds.1, hsame.2.1.trans hholds.2⟩
    · exact ⟨hbyte, rfl, _, rfl⟩
  generalize (if i.spiToCart ∧ s₂.cartActive then s₂.deliver n timestamp else s₂) = s₃
    at hs₃ hactive₃ hi₃ ⊢
  suffices hclosed : Exclusive none
      (if i.spiOwnsCS ∧ i.spiHold = false then
        ((if i.spiSelected ∧ s₃.cartActive ∧ i.spiMode then s₃.spiRelease n timestamp
          else s₃).modify n fun i => { i with spiSelected := false }).scheduleSave timestamp
      else s₃) from
    hclosed.modify_same rfl (spiMode_and_not_busy _) (fun hyes => hyes)
      fun hyes => (hclosed.flying n hyes).2
  split
  · refine Exclusive.quiet (hs₃.closed ?_ fun hp => ⟨hp.2.1, ?_⟩) (quiet_scheduleSave _ _)
    · rw [hi₃]
      exact hsame.2.2
    · rw [hi₃]
      exact ⟨hsame.1.trans hp.1, hsame.2.1.trans hp.2.2⟩
  · exact hs₃

theorem Exclusive.setCPUSelect (h : s.Exclusive none) (sel : ARM.Num) :
    (s.setCPUSelect sel).Exclusive none := by
  have hs : { s with cpuSelect := sel }.Exclusive none :=
    ⟨h.active, h.inactive, h.flying, h.holder, h.unmixed⟩
  rw [Slot.setCPUSelect]
  dsimp only
  split
  · refine hs.updateCartState fun hpower => h.inactive ?_
    exact (Bool.not_eq_true _).mp fun hyes => hpower (h.active hyes).2
  · exact hs

theorem updateCartState_same (s : Slot C) :
    s.updateCartState.interfaces = s.interfaces ∧ s.updateCartState.log = s.log := by
  rw [Slot.updateCartState]
  split <;> exact ⟨rfl, rfl⟩

theorem Exclusive.setPowerState (h : s.Exclusive none) (power : ℕ) :
    (s.setPowerState power).Exclusive none := by
  rw [Slot.setPowerState]
  split
  · exact h
  rename_i hchange
  have hidle : (if power ≠ 2 then s.detachBoth else s).Idle := by
    split
    · exact idle_detachBoth s
    · rename_i hpower
      refine h.idle ((Bool.not_eq_true _).mp fun hyes => hchange ?_)
      rw [(h.active hyes).2, not_not.mp hpower]
  have hlog : Unmixed (if power ≠ 2 then s.detachBoth else s).log := by
    split <;> exact h.unmixed
  generalize (if power ≠ 2 then s.detachBoth else s) = s₁ at hidle hlog ⊢
  have hidle' : ({ s₁ with powerState := power } : Slot C).Idle := hidle
  dsimp only
  split
  · rename_i hzero
    set s₂ := { s₁ with powerState := power, saveEvent := none }.onCart (.cancelSave true)
      (VirtualCart.cancelSave true) with hs₂
    have hquiet := quiet_cancelSave { s₁ with powerState := power } none true
    obtain ⟨hinterfaces, hlog'⟩ := updateCartState_same
      { s₂ with interfaces := fun n =>
        { s₂.interfaces n with romCnt := (s₂.interfaces n).romCnt &&& ~~~0x20000000 } }
    refine Idle.exclusive (fun n => ?_) ?_ fun hyes => ?_
    · rw [hinterfaces]
      exact hquiet.interfaces ▸ hidle' n
    · rw [hlog']
      exact hquiet.unmixed.mpr hlog
    · rw [Bool.and_eq_true, decide_eq_true_eq, hzero] at hyes
      exact absurd hyes.2 (by decide)
  · refine Idle.exclusive hidle' hlog fun hyes => ?_
    rwa [Bool.and_eq_true, decide_eq_true_eq] at hyes

theorem Exclusive.ejectCart (h : s.Exclusive none) :
    s.ejectCart.Exclusive none ∧ s.ejectCart.cartActive = false := by
  rw [Slot.ejectCart]
  split
  · rename_i hc
    refine ⟨h, (Bool.not_eq_true _).mp fun hyes => ?_⟩
    have hsome := (h.active hyes).1
    rw [hc] at hsome
    exact Bool.false_ne_true hsome
  · refine ⟨Idle.exclusive (idle_detachBoth _) ?_ fun hyes => absurd hyes Bool.false_ne_true, rfl⟩
    exact (quiet_cancelSave s none true).unmixed.mpr h.unmixed

theorem Exclusive.setCart (h : s.Exclusive none) (cart : Option C) :
    (s.setCart cart).Exclusive none := by
  obtain ⟨heject, hno⟩ := h.ejectCart
  have hidle := heject.idle hno
  cases cart with
  | none => exact Idle.exclusive hidle heject.unmixed fun hyes => absurd hyes Bool.false_ne_true
  | some c =>
    exact Idle.exclusive hidle heject.unmixed fun hyes => ⟨rfl, of_decide_eq_true hyes⟩

theorem quiet_setSaveMemory (savedata : List U8) (s : Slot C) :
    Quiet s (s.setSaveMemory savedata) := by
  rw [setSaveMemory]
  dsimp only
  split
  · exact ⟨rfl, rfl, rfl, rfl, Option.isSome_map .., rfl,
      unmixed_cons.trans (iff_of_eq (true_and _))⟩
  · exact ⟨rfl, rfl, rfl, rfl, Option.isSome_map .., rfl, Iff.rfl⟩

/-- One operation other than a reset. -/
theorem Exclusive.apply (h : s.Exclusive none) (op : SlotOp C) (hno : ¬op.Overlaps s)
    (hreset : ∀ dsi, op ≠ .reset dsi) : (op.apply s).Exclusive none := by
  cases op with
  | writeSPICnt n time val mask => exact h.writeSPICnt hno
  | writeSPIData n time val => exact h.writeSPIData hno
  | spiTransferDone n => exact h.spiTransferDone n
  | completeSave =>
    rw [SlotOp.apply]
    split
    · exact h
    · exact h.quiet (quiet_completeSave s none _)
  | setCPUSelect sel => exact h.setCPUSelect sel
  | setPowerState power => exact h.setPowerState power
  | setSaveMemory savedata => exact h.quiet (quiet_setSaveMemory savedata s)
  | setCart cart => exact h.setCart cart
  | ejectCart => exact h.ejectCart.1
  | reset dsi => exact absurd rfl (hreset dsi)

end Slot

/-! ## Runs -/

/-- A slot nobody has used: both interfaces are as after a reset. -/
def Slot.Fresh (s : Slot C) : Prop :=
  s.interfaces = (fun _ => .reset) ∧ s.log = [] ∧ (s.cartActive → s.cart.isSome ∧ s.powerState = 2)

/-- As long as the cart is never selected for one interface under the chip select of the
other, bytes and releases stay in the transactions of their own interface. -/
theorem transactions_unmixed (hfresh : s.Fresh) (ops : List (SlotOp C))
    (hreset : ∀ dsi, SlotOp.reset dsi ∉ ops)
    (hno : ∀ p ∈ trace SlotOp.apply s ops, ¬p.2.Overlaps p.1) :
    Unmixed (ops.foldl SlotOp.apply s).log := by
  obtain ⟨hinterfaces, hlog, hactive⟩ := hfresh
  have hstart : s.Exclusive none := by
    refine Slot.Idle.exclusive (fun n => ?_) ?_ hactive
    · rw [hinterfaces]
      exact ⟨rfl, rfl⟩
    · rw [hlog]
      exact unmixed_nil
  have hend := foldl_invariant (P := (·.Exclusive none))
    (C := fun s op => ¬op.Overlaps s ∧ ∀ dsi, op ≠ .reset dsi)
    (fun s op h hop => h.apply op hop.1 hop.2) hstart fun p hp => ⟨hno p hp, ?_⟩
  · exact hend.unmixed
  · intro dsi heq
    exact hreset dsi (heq ▸ mem_of_mem_trace hp)

end Operations

/-- A byte of the ARM9, one of the ARM7 and another of the ARM9, with the AUXSPICNT of both. -/
def threeBytes (cnt : U16) : List (SlotOp (CartROM × CartCommon)) :=
  [.writeSPICnt .arm9 0 cnt 0xFFFF, .writeSPIData .arm9 0 0x9F, .spiTransferDone .arm9,
    .setCPUSelect .arm7, .writeSPICnt .arm7 70 cnt 0xFFFF, .writeSPIData .arm7 70 0x06,
    .spiTransferDone .arm7, .setCPUSelect .arm9, .writeSPIData .arm9 588 0x12,
    .spiTransferDone .arm9]

theorem transactions_unmixed_threeBytes :
    (∀ p ∈ trace SlotOp.apply freshSlot (threeBytes 0xA000), ¬p.2.Overlaps p.1) ∧
      Unmixed ((threeBytes 0xA000).foldl SlotOp.apply freshSlot).log := by
  have hno : ∀ p ∈ trace SlotOp.apply freshSlot (threeBytes 0xA000), ¬p.2.Overlaps p.1 := by
    decide +kernel
  refine ⟨hno, transactions_unmixed ⟨rfl, rfl, fun _ => ⟨rfl, rfl⟩⟩ _ (fun dsi hreset => ?_) hno⟩
  simp [threeBytes] at hreset

/-- With the chip select held, the last byte goes into the transaction of the ARM7. -/
theorem transactions_mixed :
    freshSlot.Fresh ∧ ¬Unmixed ((threeBytes 0xA040).foldl SlotOp.apply freshSlot).log := by
  refine ⟨⟨rfl, rfl, fun _ => ⟨rfl, rfl⟩⟩, fun h => ?_⟩
  have hlog : ((threeBytes 0xA040).foldl SlotOp.apply freshSlot).log =
      [.spiTransmitReceive .arm9 0x12 652, .spiTransmitReceive .arm7 0x06 134, .spiSelect .arm7,
        .spiTransmitReceive .arm9 0x9F 64, .spiSelect .arm9] := by
    decide +kernel
  rw [hlog] at h
  have hopener : opener _ = some ARM.Num.arm9 := (unmixed_cons.mp h).1
  exact absurd hopener (by decide)

end MelonDS.NDSCart
