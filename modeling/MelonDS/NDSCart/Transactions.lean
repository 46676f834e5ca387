import MelonDS.Library.Trace
import MelonDS.NDSCart.WriteProtection

/-!
# Transactions on a chip with a profile

`Bus` watches a cart over transactions and completions. It notes the chip as it was at
the command byte of the transaction under way, whether that command was refused, and the
accepted write that the chip has not made yet. `write_protection` says of every step what
it may change and why.
-/

namespace MelonDS.NDSCart

/-- The chips with an explicit profile. -/
inductive Profile
  | m95640
  | m95512
  | m95m01
  | fm25w256
  | m25pe20
  | m25pe40
  | m25pe80
deriving DecidableEq

def Profile.saveMemType : Profile → ℕ
  | .m95640 => 11
  | .m95512 => 12
  | .m95m01 => 13
  | .fm25w256 => 14
  | .m25pe20 => 15
  | .m25pe40 => 16
  | .m25pe80 => 17

/-- A write that was accepted: the chip at its command byte and at its release. -/
structure Accepted where
  opened : CartRetail
  released : CartRetail

structure Bus where
  cart : CartRetail
  selected : Bool
  started : Bool
  refused : Bool
  opened : CartRetail
  accepted : Option Accepted

inductive BusOp
  | select
  | byte (val : U8)
  | release
  | complete

namespace Bus

def start (cart : CartRetail) : Bus where
  cart := cart
  selected := false
  started := false
  refused := false
  opened := cart
  accepted := none

/-- A command is refused by a chip that is writing, asleep, or on its way there or back; the
one command a sleeping chip takes is the one that wakes it. -/
def refusing (val : U8) (b : Bus) : Bool :=
  b.refused || (!b.started && (b.cart.writeDelay != 0 ||
    (b.cart.powerState != .awake && !(b.cart.powerState == .asleep && val == 0xAB))))

def step (b : Bus) : BusOp → Bus
  | .select =>
    { b with
      cart := b.cart.spiSelect
      selected := true
      started := false
      refused := b.cart.transitioning }
  | .byte val =>
    { b with
      cart := (b.cart.spiTransmitReceive val).2
      started := true
      refused := b.refusing val
      opened := if b.started then b.opened else b.cart }
  | .release =>
    { b with
      cart := b.cart.spiRelease
      selected := false
      accepted :=
        if b.cart.writeDelay = 0 ∧ b.cart.spiRelease.writeDelay ≠ 0 then some ⟨b.opened, b.cart⟩
        else b.accepted }
  | .complete => { b with cart := b.cart.completeSave, accepted := none }

/-- The step belongs to a refused command. -/
def Refuses (b : Bus) : BusOp → Prop
  | .byte val => b.refusing val
  | .release => b.refused
  | _ => False

end Bus

/-! ## Sequences of transactions and completions -/

inductive TransactionStep
  | byte (val : U8)
  | complete

inductive BusEvent
  | transaction (steps : List TransactionStep)
  | complete

def TransactionStep.op : TransactionStep → BusOp
  | .byte val => .byte val
  | .complete => .complete

def BusEvent.ops : BusEvent → List BusOp
  | .transaction steps => .select :: (steps.map TransactionStep.op ++ [.release])
  | .complete => [.complete]

/-- Bytes and releases come while the chip is selected, and selects while it is not. -/
def Bus.Framed (b : Bus) : BusOp → Prop
  | .select => b.selected = false
  | .byte _ => b.selected = true
  | .release => b.selected = true
  | .complete => True

theorem framed_transaction (steps : List TransactionStep) {b : Bus} (hb : b.selected = true) :
    ∀ p ∈ trace Bus.step b (steps.map TransactionStep.op ++ [.release]), p.1.Framed p.2 := by
  induction steps generalizing b with
  | nil =>
    intro p hp
    rw [List.mem_singleton.mp hp]
    exact hb
  | cons step steps ih =>
    refine List.forall_mem_cons.mpr ⟨?_, ih ?_⟩
    · cases step with
      | byte val => exact hb
      | complete => exact True.intro
    · cases step with
      | byte val => exact hb
      | complete => exact hb

theorem selected_transaction (steps : List TransactionStep) (b : Bus) :
    ((BusEvent.transaction steps).ops.foldl Bus.step b).selected = false := by
  rw [BusEvent.ops, List.foldl_cons, List.foldl_append]
  rfl

theorem framed_events (events : List BusEvent) {b : Bus} (hb : b.selected = false) :
    ∀ p ∈ trace Bus.step b (events.flatMap BusEvent.ops), p.1.Framed p.2 := by
  induction events generalizing b with
  | nil => exact fun _ hp => absurd hp List.not_mem_nil
  | cons event events ih =>
    rw [List.flatMap_cons, trace_append]
    refine List.forall_mem_append.mpr ⟨?_, ih ?_⟩
    · cases event with
      | transaction steps =>
        exact List.forall_mem_cons.mpr ⟨hb, framed_transaction steps rfl⟩
      | complete =>
        intro p hp
        rw [List.mem_singleton.mp hp]
        exact True.intro
    · cases event with
      | transaction steps => exact selected_transaction steps b
      | complete => exact hb

/-! ## What a step may do -/

namespace Bus

/-- The command was accepted with the latch set and the byte `i` unprotected. -/
def Allowed (i : ℕ) (c : CartRetail) : Prop := c.wel ∧ c.isWriteProtected i = false

structure Guarded (b : Bus) (op : BusOp) : Prop where
  /-- Only a byte taken by an FRAM and an accepted write change the array. -/
  changed : ∀ i, (b.step op).cart.sram i ≠ b.cart.sram i →
    (∃ val, op = .byte val ∧ b.cart.sramProfile = 14 ∧ b.cart.sramCmd = 0x02 ∧
      i = b.cart.sramAddr % b.cart.sramLength ∧ Allowed i b.cart ∧ Allowed i b.opened) ∨
    (op = .complete ∧ ∃ a, b.accepted = some a ∧ a.released.Covers i ∧
      Allowed i a.released ∧ Allowed i a.opened)
  /-- An FRAM takes such a byte at once. -/
  direct : ∀ val, op = .byte val → b.cart.sramProfile = 14 → b.cart.sramCmd = 0x02 →
    2 < b.cart.sramPos → Allowed (b.cart.sramAddr % b.cart.sramLength) b.cart →
    (b.step op).cart.sram =
      Function.update b.cart.sram (b.cart.sramAddr % b.cart.sramLength) val
  refused : b.Refuses op → b.cart.Untouched (b.step op).cart
  /-- In power-down only the power state ever changes. -/
  asleep : b.cart.powerState ≠ .awake →
    (b.step op).cart.sram = b.cart.sram ∧ (b.step op).cart.pagePending = b.cart.pagePending ∧
      (b.step op).cart.chip =
        { b.cart.chip with
          powerState := (b.step op).cart.powerState
          powerDelay := (b.step op).cart.powerDelay }
  /-- A page or an erase that was taken is accepted at its release. -/
  taken : op = .release → b.cart.pagePending → (b.step op).accepted = some ⟨b.opened, b.cart⟩
  /-- What was accepted waits for the completion, undisturbed. -/
  waits : op ≠ .complete → ∀ a, b.accepted = some a →
    (b.step op).accepted = some a ∧ (b.step op).cart.chip = a.released.spiRelease.chip
  /-- A completion makes the accepted write, once, and no other. -/
  applied : op = .complete →
    (b.step op).accepted = none ∧
      match b.accepted with
      | some a =>
        (b.step op).cart.chip = a.released.spiRelease.completeSave.chip ∧
          (b.step op).cart.sram = a.released.spiRelease.completeSave.sram
      | none => (b.step op).cart.sram = b.cart.sram ∧ (b.step op).cart.sramStatus = b.cart.sramStatus

/-! ## What the chip and the watch over it always agree on -/

/-- The accepted write is the one the chip has latched. -/
structure Latched (b : Bus) (a : Accepted) : Prop where
  sound : a.released.Sound
  idle : a.released.writeDelay = 0
  begun : a.released.spiRelease.writeDelay ≠ 0
  opened : a.opened.chip = a.released.chip
  chip : b.cart.chip = a.released.spiRelease.chip
  sram : b.cart.sram = a.released.sram

structure Watched (profile : Profile) (b : Bus) : Prop where
  sound : b.cart.Sound
  profile : b.cart.sramProfile = profile.saveMemType
  fresh : b.selected → b.started = false → b.cart.sramPos = 0
  barred : b.selected → b.started = false → b.refused → b.cart.powerBlocked
  shut : b.selected → b.started → b.refused → b.cart.pagePending = false ∧
    b.cart.sramSaveLen = 0 ∧
      (b.cart.powerBlocked ∨ b.cart.sramPos ≠ 0 ∧ (b.cart.sramCmd = 0 ∨ b.cart.sramCmd = 0x05))
  opened : b.selected → b.started → b.refused = false →
    b.cart.writeDelay = 0 ∧ b.cart.powerDelay = 0 ∧ b.opened.chip = b.cart.chip
  none : b.accepted = none → b.cart.writeDelay = 0
  some : ∀ a, b.accepted = some a → b.Latched a

theorem Latched.writing {b : Bus} {a : Accepted} (h : b.Latched a) : b.cart.writeDelay ≠ 0 :=
  fun hno => h.begun ((congrArg Chip.writeDelay h.chip).symm.trans hno)

theorem watched_start (profile : Profile) (resetState : Bool) (sram : Option (List U8)) :
    Watched profile (start (.build resetState profile.saveMemType sram)) where
  sound := CartRetail.sound_build resetState _ sram
  profile := by cases profile <;> rfl
  fresh h := absurd h Bool.false_ne_true
  barred h := absurd h Bool.false_ne_true
  shut h := absurd h Bool.false_ne_true
  opened h := absurd h Bool.false_ne_true
  none _ := rfl
  some _ h := absurd h.symm (Option.some_ne_none _)

section Steps

variable {profile : Profile} {b : Bus}

theorem Latched.of_chip {b' : Bus} {a : Accepted} (h : b.Latched a)
    (hchip : b'.cart.chip = b.cart.chip) (hsram : b'.cart.sram = b.cart.sram) : b'.Latched a :=
  { h with
    chip := hchip.trans h.chip
    sram := hsram.trans h.sram }

theorem profile_of_chip {c c' : CartRetail} (h : c'.chip = c.chip) :
    c'.sramProfile = c.sramProfile :=
  congrArg (fun chip => chip.medium.2.1) h

theorem Watched.select (h : Watched profile b) : Watched profile (b.step .select) where
  sound := h.sound.spiSelect
  profile := h.profile
  fresh _ _ := rfl
  barred _ _ hr := hr
  shut _ hs := absurd hs Bool.false_ne_true
  opened _ hs := absurd hs Bool.false_ne_true
  none := h.none
  some a ha := (h.some a ha).of_chip rfl rfl

theorem Watched.complete (h : Watched profile b) : Watched profile (b.step .complete) := by
  have hkept : b.cart.completeSave.sramPos = b.cart.sramPos ∧
      b.cart.completeSave.powerBlocked = b.cart.powerBlocked ∧
      b.cart.completeSave.pagePending = b.cart.pagePending ∧
      b.cart.completeSave.sramSaveLen = b.cart.sramSaveLen ∧
      b.cart.completeSave.sramCmd = b.cart.sramCmd ∧
      b.cart.completeSave.sramProfile = b.cart.sramProfile := by
    unfold CartRetail.completeSave CartRetail.completeWrite
    dsimp only
    split_ifs <;> exact ⟨rfl, rfl, rfl, rfl, rfl, rfl⟩
  obtain ⟨hpos, hblocked, hpending, hlen, hcmd, hprof⟩ := hkept
  exact
    { sound := h.sound.completeSave
      profile := hprof.trans h.profile
      fresh := fun hsel hs => hpos.trans (h.fresh hsel hs)
      barred := fun hsel hs hr => hblocked.trans (h.barred hsel hs hr)
      shut := fun hsel hs hr => by
        change b.cart.completeSave.pagePending = false ∧ b.cart.completeSave.sramSaveLen = 0 ∧
          (b.cart.completeSave.powerBlocked ∨ b.cart.completeSave.sramPos ≠ 0 ∧
            (b.cart.completeSave.sramCmd = 0 ∨ b.cart.completeSave.sramCmd = 0x05))
        rw [hpos, hblocked, hpending, hlen, hcmd]
        exact h.shut hsel hs hr
      opened := fun hsel hs hr => by
        obtain ⟨hd, hp, hchip⟩ := h.opened hsel hs hr
        have hsame : b.cart.completeSave = b.cart := by
          rw [CartRetail.completeSave, if_neg (not_not.mpr hp), if_pos hd]
        change b.cart.completeSave.writeDelay = 0 ∧ b.cart.completeSave.powerDelay = 0 ∧
          b.opened.chip = b.cart.completeSave.chip
        rw [hsame]
        exact ⟨hd, hp, hchip⟩
      none := fun _ => h.sound.writeDelay_completeSave
      some := fun _ ha => absurd ha.symm (Option.some_ne_none _) }

theorem Watched.opened_of_begins (h : Watched profile b) (hsel : b.selected = true)
    (hd : b.cart.writeDelay = 0) (hne : b.cart.spiRelease.writeDelay ≠ 0) :
    b.opened.chip = b.cart.chip := by
  have hpos := h.sound.begins_pos hd hne
  have hstarted : b.started = true := by
    by_contra hno
    exact hpos (h.fresh hsel ((Bool.not_eq_true _).mp hno))
  cases hr : b.refused with
  | false => exact (h.opened hsel hstarted hr).2.2
  | true =>
    obtain ⟨hclosed, hlen, hcmd⟩ := h.shut hsel hstarted hr
    have hchip := (CartRetail.untouched_spiRelease hclosed hlen (hcmd.imp_right And.right)).1
    exact absurd ((congrArg Chip.writeDelay hchip).trans hd) hne

theorem Watched.release (h : Watched profile b) (hsel : b.selected = true) :
    Watched profile (b.step .release) where
  sound := h.sound.spiRelease
  profile :=
    (congrArg (fun medium : ℕ × ℕ × ℕ => medium.2.1) (b.cart.spiRelease_keeps).2.1).trans h.profile
  fresh hno := absurd hno Bool.false_ne_true
  barred hno := absurd hno Bool.false_ne_true
  shut hno := absurd hno Bool.false_ne_true
  opened hno := absurd hno Bool.false_ne_true
  none hnone := by
    by_contra hne
    by_cases hd : b.cart.writeDelay = 0
    · exact absurd ((if_pos ⟨hd, hne⟩).symm.trans hnone) (Option.some_ne_none _)
    · exact hd (h.none ((if_neg (fun hno => hd hno.1)).symm.trans hnone))
  some a ha := by
    by_cases hbegins : b.cart.writeDelay = 0 ∧ b.cart.spiRelease.writeDelay ≠ 0
    · rw [← Option.some.inj ((if_pos hbegins).symm.trans ha)]
      exact
        { sound := h.sound
          idle := hbegins.1
          begun := hbegins.2
          opened := h.opened_of_begins hsel hbegins.1 hbegins.2
          chip := rfl
          sram := (b.cart.spiRelease_keeps).1 }
    · have hl := h.some a ((if_neg hbegins).symm.trans ha)
      have hsame := h.sound.spiRelease_writing hl.writing
      exact hl.of_chip (congrArg CartRetail.chip hsame) (congrArg CartRetail.sram hsame)

theorem Watched.not_appends (h : Watched profile b) (hsel : b.selected = true) :
    ¬b.cart.Appends := by
  rintro ⟨hd, hpos, hpage⟩
  have hstarted : b.started = true := by
    by_contra hno
    exact hpos (h.fresh hsel ((Bool.not_eq_true _).mp hno))
  cases hr : b.refused with
  | false => exact hd (h.opened hsel hstarted hr).1
  | true =>
    rcases (h.shut hsel hstarted hr).2.2 with hb | ⟨-, hc | hc⟩
    · exact hd (h.sound.powered (.inr hb)).2.2.1
    · rcases CartRetail.eq_of_isPageCommand hpage with hp | hp <;> exact absurd (hc.symm.trans hp) (by decide)
    · rcases CartRetail.eq_of_isPageCommand hpage with hp | hp <;> exact absurd (hc.symm.trans hp) (by decide)

theorem Watched.sramType_ne_zero (h : Watched profile b) : b.cart.sramType ≠ 0 := by
  have hmedia := h.sound.media
  simp only [CartRetail.medium, media, List.mem_cons, Prod.mk.injEq, List.not_mem_nil,
    or_false, h.profile] at hmedia
  cases profile <;> simp [Profile.saveMemType] at hmedia <;> omega

/-- The first byte of a command the chip refuses. -/
theorem Watched.first (h : Watched profile b) (hsel : b.selected = true)
    (hs : b.started = false) {val : U8} (hr : b.refusing val = true) :
    (b.cart.spiTransmitReceive val).2.pagePending = false ∧
      (b.cart.spiTransmitReceive val).2.sramSaveLen = 0 ∧
        ((b.cart.spiTransmitReceive val).2.powerBlocked ∨
          (b.cart.spiTransmitReceive val).2.sramPos ≠ 0 ∧
            ((b.cart.spiTransmitReceive val).2.sramCmd = 0 ∨
              (b.cart.spiTransmitReceive val).2.sramCmd = 0x05)) := by
  have hpos := h.fresh hsel hs
  have hpowered (hp : b.cart.Powered) : b.cart.pagePending = false ∧ b.cart.sramSaveLen = 0 :=
    ⟨(h.sound.powered hp).2.1, (h.sound.powered hp).2.2.2.1⟩
  by_cases hb : b.cart.powerBlocked = true
  · rw [CartRetail.spiTransmitReceive_barred hb]
    exact ⟨(hpowered (.inr hb)).1, (hpowered (.inr hb)).2, .inl hb⟩
  have hr' : b.refused = false := by
    by_contra hno
    exact hb (h.barred hsel hs ((Bool.not_eq_false _).mp hno))
  rw [refusing, hr', hs, Bool.false_or, Bool.not_false, Bool.true_and, Bool.or_eq_true,
    bne_iff_ne] at hr
  have htype : b.cart.sramType ≠ 0 := h.sramType_ne_zero
  rw [CartRetail.spiTransmitReceive, if_neg htype, if_neg hb, if_pos hpos]
  rcases hr with hd | hstate
  · have hw := h.sound.writing hd
    obtain ⟨start, len, heq, hlen⟩ := CartRetail.startCommand_eq val b.cart
    have hlen0 : len = 0 := Nat.le_zero.mp (hw.saveLen ▸ hlen.2.1)
    rw [if_neg (fun hno => hno.1 hw.awake), heq]
    refine ⟨hw.pending, hlen0, .inr ⟨CartRetail.sramPos_countByte_ne_zero _, ?_⟩⟩
    change (if b.cart.writeDelay ≠ 0 ∧ val ≠ 0x05 then 0 else val) = 0 ∨
      (if b.cart.writeDelay ≠ 0 ∧ val ≠ 0x05 then 0 else val) = 0x05
    by_cases hval : val = 0x05
    · exact .inr (by rw [if_neg (fun hno => hno.2 hval), hval])
    · exact .inl (if_pos ⟨hd, hval⟩)
  · have hne : b.cart.powerState ≠ .awake ∧ ¬(b.cart.powerState = .asleep ∧ val = 0xAB) := by
      rw [not_and_or]
      simpa using hstate
    rw [if_pos hne]
    exact ⟨(hpowered (.inl hne.1)).1, (hpowered (.inl hne.1)).2, .inl rfl⟩

theorem refusing_started (hs : b.started = true) (val : U8) : b.refusing val = b.refused := by
  rw [refusing, hs, Bool.not_true, Bool.false_and, Bool.or_false]

theorem Watched.byte (h : Watched profile b) (hsel : b.selected = true) (val : U8) :
    Watched profile (b.step (.byte val)) where
  sound := h.sound.spiTransmitReceive val (h.not_appends hsel)
  profile := (profile_of_chip (CartRetail.chip_spiTransmitReceive val b.cart)).trans h.profile
  fresh _ hno := absurd hno.symm Bool.false_ne_true
  barred _ hno := absurd hno.symm Bool.false_ne_true
  shut _ _ hr := by
    cases hs : b.started with
    | false => exact h.first hsel hs hr
    | true =>
      have hr' : b.refused = true := (refusing_started hs val).symm.trans hr
      change (b.cart.spiTransmitReceive val).2.pagePending = false ∧ _
      obtain ⟨hclosed, hlen, hb | ⟨hpos, hcmd⟩⟩ := h.shut hsel hs hr'
      · rw [step, CartRetail.spiTransmitReceive_barred hb]
        exact ⟨hclosed, hlen, .inl hb⟩
      · rw [step]
        rcases CartRetail.spiTransmitReceive_ignored hpos hcmd val with heq | heq <;> rw [heq]
        · exact ⟨hclosed, hlen, .inr ⟨hpos, hcmd⟩⟩
        · exact ⟨hclosed, hlen, .inr ⟨CartRetail.sramPos_countByte_ne_zero _, hcmd⟩⟩
  opened _ _ hr := by
    have hchip := CartRetail.chip_spiTransmitReceive val b.cart
    change (b.cart.spiTransmitReceive val).2.writeDelay = 0 ∧
      (b.cart.spiTransmitReceive val).2.powerDelay = 0 ∧
        (if b.started then b.opened else b.cart).chip = (b.cart.spiTransmitReceive val).2.chip
    change (b.refused || _) = false at hr
    rw [Bool.or_eq_false_iff] at hr
    cases hs : b.started with
    | true =>
      obtain ⟨hd, hp, hopened⟩ := h.opened hsel hs hr.1
      exact ⟨(congrArg Chip.writeDelay hchip).trans hd, (congrArg Chip.powerDelay hchip).trans hp,
        hopened.trans hchip.symm⟩
    | false =>
      rw [hs, Bool.not_false, Bool.true_and, Bool.or_eq_false_iff, bne_eq_false_iff_eq] at hr
      have hp : b.cart.powerDelay = 0 := by
        have hstate := hr.2.2
        rw [h.sound.powerDelay, CartRetail.transitioning]
        cases hps : b.cart.powerState <;> rw [hps] at hstate <;> first | rfl | simp at hstate
      exact ⟨(congrArg Chip.writeDelay hchip).trans hr.2.1, (congrArg Chip.powerDelay hchip).trans hp,
        hchip.symm⟩
  none hnone :=
    (congrArg Chip.writeDelay (CartRetail.chip_spiTransmitReceive val b.cart)).trans (h.none hnone)
  some a ha := by
    refine (h.some a ha).of_chip (CartRetail.chip_spiTransmitReceive val b.cart) ?_
    refine (CartRetail.sram_spiTransmitReceive val b.cart).resolve_right ?_
    rintro ⟨-, -, -, hpage, -⟩
    exact (h.sound.writing (h.some a ha).writing).latch hpage

theorem Watched.step (h : Watched profile b) {op : BusOp} (hf : b.Framed op) :
    Watched profile (b.step op) := by
  cases op with
  | select => exact h.select
  | byte val => exact h.byte hf val
  | release => exact h.release hf
  | complete => exact h.complete

/-! ## The guards of each step -/

theorem allowed_congr {i : ℕ} {c d : CartRetail} (hchip : c.chip = d.chip) (h : Allowed i c) :
    Allowed i d := by
  simp only [CartRetail.chip, CartRetail.medium, Chip.mk.injEq, Prod.mk.injEq] at hchip
  obtain ⟨⟨htype, hprof, hlen⟩, -, hstatus, -, -, -, -, -, -, hlocks, -⟩ := hchip
  rw [Allowed, CartRetail.wel, CartRetail.isWriteProtected] at h ⊢
  rwa [← htype, ← hprof, ← hlen, ← hstatus, ← hlocks]

theorem Watched.medium (h : Watched profile b) :
    b.cart.sramType = 2 ∧ b.cart.pageSize = 0 → b.cart.sramProfile = 14 := by
  rintro ⟨htype, hpage⟩
  rw [CartRetail.pageSize, htype, if_neg (by decide), if_neg (by decide), h.profile] at hpage
  rw [h.profile]
  cases profile with
  | fm25w256 => rfl
  | m95640 => exact absurd hpage (by decide)
  | m95512 => exact absurd hpage (by decide)
  | m95m01 => exact absurd hpage (by decide)
  | _ =>
    have hmedia := h.sound.media
    rw [CartRetail.medium, h.profile, htype] at hmedia
    revert hmedia
    simp [media, Profile.saveMemType]

/-- A command that reaches the array was taken by an idle chip. -/
theorem Watched.taken (h : Watched profile b) (hsel : b.selected = true) (hpos : b.cart.sramPos ≠ 0)
    (hcmd : b.cart.sramCmd = 0x02) (hb : b.cart.powerBlocked = false) :
    b.opened.chip = b.cart.chip := by
  have hstarted : b.started = true := by
    by_contra hno
    exact hpos (h.fresh hsel ((Bool.not_eq_true _).mp hno))
  cases hr : b.refused with
  | false => exact (h.opened hsel hstarted hr).2.2
  | true =>
    rcases (h.shut hsel hstarted hr).2.2 with hb' | ⟨-, hc | hc⟩
    · exact absurd (hb.symm.trans hb') Bool.false_ne_true
    · exact absurd (hc.symm.trans hcmd) (by decide)
    · exact absurd (hc.symm.trans hcmd) (by decide)

theorem Watched.changed_byte (h : Watched profile b) (hsel : b.selected = true) {val : U8} {i : ℕ}
    (hi : (b.step (.byte val)).cart.sram i ≠ b.cart.sram i) :
    b.cart.sramProfile = 14 ∧ b.cart.sramCmd = 0x02 ∧
      i = b.cart.sramAddr % b.cart.sramLength ∧ Allowed i b.cart ∧ Allowed i b.opened := by
  change (b.cart.spiTransmitReceive val).2.sram i ≠ b.cart.sram i at hi
  rcases CartRetail.sram_spiTransmitReceive val b.cart with
    heq | ⟨hpos, hcmd, htype, hpage, hwel, hfree, heq⟩
  · exact absurd (congrFun heq i) hi
  rw [heq] at hi
  have hia : i = b.cart.sramAddr % b.cart.sramLength := by
    by_contra hno
    exact hi (Function.update_of_ne hno _ _)
  have hb : b.cart.powerBlocked = false := by
    by_contra hno
    rw [← heq, CartRetail.spiTransmitReceive_barred ((Bool.not_eq_false _).mp hno)] at hi
    exact hi rfl
  have hallowed : Allowed i b.cart := ⟨hwel, by rw [hia, CartRetail.isWriteProtected_mod, hfree]⟩
  exact ⟨h.medium ⟨htype, hpage⟩, hcmd, hia, hallowed,
    allowed_congr (h.taken hsel (by omega) hcmd hb).symm hallowed⟩

theorem Watched.complete_idle (h : Watched profile b) (hnone : b.accepted = .none) :
    b.cart.completeSave.sram = b.cart.sram ∧
      b.cart.completeSave.sramStatus = b.cart.sramStatus := by
  have hd := h.none hnone
  rw [CartRetail.completeSave]
  split <;> exact ⟨rfl, rfl⟩

theorem Watched.changed_complete (h : Watched profile b) {i : ℕ}
    (hi : (b.step .complete).cart.sram i ≠ b.cart.sram i) :
    ∃ a, b.accepted = .some a ∧ a.released.Covers i ∧ Allowed i a.released ∧
      Allowed i a.opened := by
  change b.cart.completeSave.sram i ≠ b.cart.sram i at hi
  cases ha : b.accepted with
  | none => exact absurd (congrFun (h.complete_idle ha).1 i) hi
  | some a =>
    have hl := h.some a ha
    have hsram := hl.sram.trans (a.released.spiRelease_keeps).1.symm
    rw [(CartRetail.completeSave_congr hl.chip hsram).2, hsram] at hi
    obtain ⟨hcmd, hspan⟩ := hl.sound.spiRelease.completeSave_changed hi
    obtain ⟨hwel, hwrite⟩ := hl.sound.release_begins hl.idle hl.begun
    obtain ⟨hfree, hcovers⟩ := hwrite.resolve_left hcmd i hspan
    exact ⟨a, rfl, hcovers, ⟨hwel, hfree⟩, allowed_congr hl.opened.symm ⟨hwel, hfree⟩⟩

theorem Watched.direct (h : Watched profile b) {val : U8} (hprof : b.cart.sramProfile = 14)
    (hcmd : b.cart.sramCmd = 0x02) (hpos : 2 < b.cart.sramPos)
    (hi : Allowed (b.cart.sramAddr % b.cart.sramLength) b.cart) :
    (b.step (.byte val)).cart.sram =
      Function.update b.cart.sram (b.cart.sramAddr % b.cart.sramLength) val := by
  have hmedia := h.sound.media
  simp only [CartRetail.medium, hprof, media, List.mem_cons, Prod.mk.injEq, List.not_mem_nil,
    or_false] at hmedia
  have htype : b.cart.sramType = 2 ∧ b.cart.sramLength = 32768 := by omega
  have hb : b.cart.powerBlocked = false := by
    by_contra hno
    have hflash := (h.sound.powered (.inr ((Bool.not_eq_false _).mp hno))).1
    rw [hprof] at hflash
    exact absurd hflash (by decide)
  have hstatus : isStatusCommand b.cart.sramType b.cart.sramCmd b.cart.sramProfile = false :=
    CartRetail.not_isStatusCommand (by rw [hcmd]; decide)
  have hsize : b.cart.addrSize = 2 := by
    rw [CartRetail.addrSize, htype.2]
    rfl
  change (b.cart.spiTransmitReceive val).2.sram = _
  rw [CartRetail.spiTransmitReceive, if_neg (by omega), if_neg (by rw [hb]; decide),
    if_neg (by omega), if_neg (by rw [hcmd]; decide), if_neg (by rw [hstatus]; decide),
    CartRetail.sramWrite, if_neg (by omega), if_pos htype.1, CartRetail.sramWriteEEPROM,
    if_neg (by rw [hcmd]; decide), if_pos hcmd, if_neg (by omega),
    if_neg (by rw [← CartRetail.isWriteProtected_mod, hi.2]; decide),
    if_neg (by rw [hprof]; decide), if_pos hi.1]
  rfl

theorem Watched.refused (h : Watched profile b) {op : BusOp} (hf : b.Framed op)
    (hr : b.Refuses op) : b.cart.Untouched (b.step op).cart := by
  cases op with
  | select => exact hr.elim
  | complete => exact hr.elim
  | byte val =>
    have hafter := (h.byte hf val).shut hf rfl hr
    have hsame (hs : b.started = true) : b.refused = true := (refusing_started hs val).symm.trans hr
    refine ⟨CartRetail.chip_spiTransmitReceive val b.cart, ?_, hafter.1.trans (Eq.symm ?_)⟩
    · refine (CartRetail.sram_spiTransmitReceive val b.cart).elim id fun hdirect => ?_
      have hs : b.started = true := by
        by_contra hno
        have hpos := h.fresh hf ((Bool.not_eq_true _).mp hno)
        omega
      rcases (h.shut hf hs (hsame hs)).2.2 with hb | ⟨-, hc | hc⟩
      · exact congrArg CartRetail.sram (CartRetail.spiTransmitReceive_barred hb val)
      · exact absurd (hc.symm.trans hdirect.2.1) (by decide)
      · exact absurd (hc.symm.trans hdirect.2.1) (by decide)
    · cases hs : b.started with
      | true => exact (h.shut hf hs (hsame hs)).1
      | false =>
        have hpos := h.fresh hf hs
        by_contra hno
        rcases (h.sound.pending ((Bool.not_eq_false _).mp hno)).kind with
          ⟨-, hle, -⟩ | ⟨-, -, heq, -⟩ <;> omega
  | release =>
    cases hs : b.started with
    | false =>
      have hb := h.barred hf hs hr
      obtain ⟨-, hclosed, -, hlen, -⟩ := h.sound.powered (.inr hb)
      exact CartRetail.untouched_spiRelease hclosed hlen (.inl hb)
    | true =>
      obtain ⟨hclosed, hlen, hcmd⟩ := h.shut hf hs hr
      exact CartRetail.untouched_spiRelease hclosed hlen (hcmd.imp_right And.right)

theorem Watched.asleep (h : Watched profile b) (op : BusOp) (hp : b.cart.powerState ≠ .awake) :
    (b.step op).cart.sram = b.cart.sram ∧ (b.step op).cart.pagePending = b.cart.pagePending ∧
      (b.step op).cart.chip =
        { b.cart.chip with
          powerState := (b.step op).cart.powerState
          powerDelay := (b.step op).cart.powerDelay } := by
  obtain ⟨hflash, hclosed, hidle, -⟩ := h.sound.powered (.inl hp)
  cases op with
  | select => exact ⟨rfl, hclosed.symm, rfl⟩
  | byte val =>
    have hchip := CartRetail.chip_spiTransmitReceive val b.cart
    have hstate := congrArg Chip.powerState hchip
    have hs := h.sound.spiTransmitReceive val (fun happ => happ.1 hidle)
    refine ⟨(CartRetail.sram_spiTransmitReceive val b.cart).resolve_right ?_,
      (hs.powered (.inl fun ha => hp (hstate.symm.trans ha))).2.1.trans hclosed.symm, ?_⟩
    · rintro ⟨-, -, htype, -⟩
      exact absurd (htype.symm.trans (CartRetail.three_of_profile h.sound.media hflash)) (by decide)
    · change (b.cart.spiTransmitReceive val).2.chip =
        { b.cart.chip with
          powerState := (b.cart.spiTransmitReceive val).2.chip.powerState
          powerDelay := (b.cart.spiTransmitReceive val).2.chip.powerDelay }
      rw [hchip]
  | release =>
    refine CartRetail.spiRelease_cases b.cart (P := fun d => d.sram = b.cart.sram ∧
      d.pagePending = b.cart.pagePending ∧
        d.chip = { b.cart.chip with powerState := d.powerState, powerDelay := d.powerDelay })
      (fun _ => ⟨rfl, rfl, rfl⟩) ⟨rfl, rfl, rfl⟩ (fun _ _ _ => ?_) (fun _ ha => absurd ha hp)
      (fun _ ha => absurd ha hp) (fun _ ha => absurd ha hp) (fun _ ha => absurd ha hp)
      (fun _ ha => absurd ha hp)
    unfold CartRetail.releasePower
    dsimp only
    split_ifs <;> exact ⟨rfl, rfl, rfl⟩
  | complete =>
    change b.cart.completeSave.sram = b.cart.sram ∧
      b.cart.completeSave.pagePending = b.cart.pagePending ∧ b.cart.completeSave.chip =
        { b.cart.chip with
          powerState := b.cart.completeSave.powerState
          powerDelay := b.cart.completeSave.powerDelay }
    rw [CartRetail.completeSave]
    by_cases hd : b.cart.powerDelay ≠ 0
    · rw [if_pos hd]
      exact ⟨rfl, rfl, rfl⟩
    · rw [if_neg hd, if_pos hidle]
      exact ⟨rfl, rfl, rfl⟩

theorem Watched.guarded (h : Watched profile b) {op : BusOp} (hf : b.Framed op) :
    Guarded b op where
  changed i hi := by
    cases op with
    | select => exact absurd rfl hi
    | byte val => exact .inl ⟨val, rfl, h.changed_byte hf hi⟩
    | release => exact absurd (congrFun (b.cart.spiRelease_keeps).1 i) hi
    | complete => exact .inr ⟨rfl, h.changed_complete hi⟩
  direct val hop hprof hcmd hpos hi := hop ▸ h.direct hprof hcmd hpos hi
  refused := h.refused hf
  asleep := h.asleep op
  taken hop hp := by
    subst hop
    exact if_pos ⟨(h.sound.pending hp).idle, h.sound.begins hp⟩
  waits hop a ha := by
    have hl := h.some a ha
    have hsame : (b.step op).accepted = .some a := by
      cases op with
      | select => exact ha
      | byte val => exact ha
      | release => exact (if_neg (fun hno => hl.writing hno.1)).trans ha
      | complete => exact absurd rfl hop
    exact ⟨hsame, ((h.step hf).some a hsame).chip⟩
  applied hop := by
    subst hop
    refine ⟨rfl, ?_⟩
    cases ha : b.accepted with
    | some a =>
      have hl := h.some a ha
      exact CartRetail.completeSave_congr hl.chip
        (hl.sram.trans (a.released.spiRelease_keeps).1.symm)
    | none => exact h.complete_idle ha

end Steps

end Bus

/-- A byte programmed into a flash, released and not yet written. -/
def releasedByte : List BusEvent :=
  [.transaction [.byte 0x06],
    .transaction [.byte 0x02, .byte 0, .byte 0, .byte 0, .byte 0x55]]

end MelonDS.NDSCart
