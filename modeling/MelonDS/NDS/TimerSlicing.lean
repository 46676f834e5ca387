import Mathlib.Tactic.FinCases
import MelonDS.Library.LocalTo
import MelonDS.NDS.Timers

/-!
# Running the timers in slices

A timer the clock drives reaches the timers that count its overflows up, and no
others: two driven timers touch different cells. Each loop of overflows takes the
same turns whether its cycles come at once or in two parts.
-/

namespace MelonDS.NDS

variable (consoleType : ℕ) (control : Fin 4 → Control)

/-- A timer and the ones that count its overflows, directly or through others. -/
def chain (tid : Fin 4) : Set (Fin 4) :=
  {k | tid ≤ k ∧ ∀ j, tid < j → j ≤ k → (control j).isCountUp}

/-- What the clock reaches through a timer: nothing, if it does not drive it. -/
def reached (tid : Fin 4) : Set (Fin 4) := {k | (control tid).isDriven ∧ k ∈ chain control tid}

theorem mem_chain_self (tid : Fin 4) : tid ∈ chain control tid :=
  ⟨le_refl tid, fun _ hlt hle => absurd (hlt.trans_le hle) (lt_irrefl tid)⟩

theorem not_isCountUp_of_isDriven {c : Control} (h : c.isDriven) : ¬c.isCountUp := by
  simp only [Control.isDriven, Control.isCountUp, decide_eq_true_eq] at h ⊢
  rw [h]
  decide

/-- Two driven timers reach different timers. -/
theorem disjoint_reached {i j : Fin 4} (h : i < j) :
    Disjoint (reached control i) (reached control j) := by
  refine Set.disjoint_left.mpr fun k hi hj => ?_
  exact not_isCountUp_of_isDriven hj.1 (hi.2.2 j h hj.2.1)

/-! ### Locality -/

/-- Timers up to the first that is not counted up by the one before it. -/
def Within (S : Set (Fin 4)) : List (Fin 4) → Prop
  | [] => True
  | tid :: rest => (control tid).isCountUp → tid ∈ S ∧ Within S rest

theorem mem_chain_next {tid j k : Fin 4} (h : j ∈ chain control tid) (hk : k.val = j.val + 1)
    (hup : (control k).isCountUp) : k ∈ chain control tid := by
  refine ⟨h.1.trans (Fin.le_def.mpr (by omega)), fun i hlt hle => ?_⟩
  by_cases hik : i = k
  · exact hik ▸ hup
  · have hval : i.val ≠ k.val := fun hv => hik (Fin.ext hv)
    have hle' : i.val ≤ k.val := hle
    exact h.2 i hlt (Fin.le_def.mpr (by omega))

theorem within_following (tid : Fin 4) :
    Within control (chain control tid) (following tid) := by
  have hfollowing : ∀ tid, following tid = [[1, 2, 3], [2, 3], [3], []].getD tid [] := by decide
  have hself := mem_chain_self control tid
  rw [hfollowing]
  fin_cases tid
  · intro hup
    have hone := mem_chain_next control hself rfl hup
    refine ⟨hone, fun hup => ?_⟩
    have htwo := mem_chain_next control hone rfl hup
    exact ⟨htwo, fun hup => ⟨mem_chain_next control htwo rfl hup, trivial⟩⟩
  · intro hup
    have hone := mem_chain_next control hself rfl hup
    exact ⟨hone, fun hup => ⟨mem_chain_next control hone rfl hup, trivial⟩⟩
  · intro hup
    exact ⟨mem_chain_next control hself rfl hup, trivial⟩
  · trivial

theorem carry_localTo {S : Set (Fin 4)} {rest : List (Fin 4)} (h : Within control S rest) :
    LocalTo S (carry consoleType control rest) := by
  induction rest with
  | nil => exact LocalTo.id S
  | cons tid rest ih =>
    by_cases hup : (control tid).isCountUp
    · obtain ⟨hmem, hrest⟩ := h hup
      have hcounted := LocalTo.update hmem Cell.countUp
      have hreloaded := LocalTo.update hmem
        (fun c : Cell => (c.reloaded (control tid)).signal consoleType (control tid))
      have hcarried := (((ih hrest).comp hreloaded).ite hmem Cell.overflows (LocalTo.id S)).comp
        hcounted
      refine cast (congrArg (LocalTo S) ?_) hcarried
      funext cells
      rw [carry, if_pos hup]
    · have heq : carry consoleType control (tid :: rest) = fun cells => cells := by
        funext cells
        rw [carry, if_neg hup]
      rw [heq]
      exact LocalTo.id S

theorem overflowOnce_localTo (tid : Fin 4) :
    LocalTo (chain control tid) (overflowOnce consoleType control tid) := by
  have hmem := mem_chain_self control tid
  have hcarry := carry_localTo consoleType control (within_following control tid)
  have hlow := LocalTo.update hmem
    (fun c : Cell => { c with counter := c.counter - (1 : U32) <<< 26 })
  have hreload := LocalTo.update hmem (fun c : Cell =>
    { c with counter := c.counter + (control tid).reload.setWidth 32 <<< 10 }.signal consoleType
      (control tid))
  exact (hcarry.comp hreload).comp hlow

theorem overflowLoop_localTo (tid : Fin 4) :
    LocalTo (chain control tid) (overflowLoop consoleType control tid) := by
  have hmem := mem_chain_self control tid
  have honce := overflowOnce_localTo consoleType control tid
  constructor
  · intro x k hk
    induction x using overflowLoop.induct consoleType control tid with
    | case1 x hover ih =>
      rw [overflowLoop, if_pos hover, ih]
      exact honce.outside x k hk
    | case2 x hover => rw [overflowLoop, if_neg hover]
  · intro x
    induction x using overflowLoop.induct consoleType control tid with
    | case1 x hover ih =>
      intro y h k hk
      have hover' : (y tid).overflows := h tid hmem ▸ hover
      rw [overflowLoop, if_pos hover, overflowLoop.eq_def _ _ _ y, if_pos hover']
      exact ih _ (honce.inside x y h) k hk
    | case2 x hover =>
      intro y h k hk
      have hover' : ¬(y tid).overflows := h tid hmem ▸ hover
      rw [overflowLoop, if_neg hover, overflowLoop.eq_def _ _ _ y, if_neg hover']
      exact h k hk

/-- The cycles a timer catches up with. -/
def addCycles (tid : Fin 4) (cycles : S32) (cells : Cells) : Cells :=
  Function.update cells tid { cells tid with
    counter := (cells tid).counter + cycles <<< (control tid).cycleShift }

/-- What `RunTimers` does with one timer. -/
def runDriven (cycles : S32) (tid : Fin 4) (cells : Cells) : Cells :=
  if (control tid).isDriven then runTimer consoleType control tid cycles cells else cells

theorem runDriven_localTo (cycles : S32) (tid : Fin 4) :
    LocalTo (reached control tid) (runDriven consoleType control cycles tid) := by
  by_cases hdriven : (control tid).isDriven
  · have hadd : LocalTo (chain control tid) (addCycles control tid cycles) :=
      LocalTo.update (mem_chain_self control tid) (fun c : Cell =>
        { c with counter := c.counter + cycles <<< (control tid).cycleShift })
    have hrun : runDriven consoleType control cycles tid =
        fun cells => overflowLoop consoleType control tid (addCycles control tid cycles cells) := by
      funext cells
      rw [runDriven, if_pos hdriven]
      rfl
    rw [hrun]
    exact ((overflowLoop_localTo consoleType control tid).comp hadd).mono fun k hk => ⟨hdriven, hk⟩
  · have hrun : runDriven consoleType control cycles tid = fun cells => cells := by
      funext cells
      rw [runDriven, if_neg hdriven]
    rw [hrun]
    exact LocalTo.id _

/-! ### Two parts of one loop -/

/-- The cell of the timer itself after a turn. -/
def turned (tid : Fin 4) (c : Cell) : Cell :=
  { c with
    counter := c.counter - (1 : U32) <<< 26 + (control tid).reload.setWidth 32 <<< 10 }.signal
    consoleType (control tid)

theorem overflowOnce_eq (tid : Fin 4) (cells : Cells) :
    overflowOnce consoleType control tid cells = carry consoleType control (following tid)
      (Function.update cells tid (turned consoleType control tid (cells tid))) := by
  simp only [overflowOnce, handleTimerOverflow, Function.update_self, Function.update_idem]
  rfl

theorem within_of_mem {S : Set (Fin 4)} {rest : List (Fin 4)} (h : ∀ k ∈ rest, k ∈ S) :
    Within control S rest := by
  induction rest with
  | nil => trivial
  | cons k rest ih =>
    exact fun _ => ⟨h k List.mem_cons_self, ih fun j hj => h j (List.mem_cons_of_mem k hj)⟩

/-- The carries of a timer do not look at its own counter. -/
theorem carry_addCycles (tid : Fin 4) (cycles : S32) (cells : Cells) :
    carry consoleType control (following tid) (addCycles control tid cycles cells) =
      addCycles control tid cycles (carry consoleType control (following tid) cells) := by
  have hadd : LocalTo {tid} (addCycles control tid cycles) :=
    LocalTo.update (Set.mem_singleton tid) (fun c : Cell =>
      { c with counter := c.counter + cycles <<< (control tid).cycleShift })
  have hcarry : LocalTo (Set.compl {tid}) (carry consoleType control (following tid)) :=
    carry_localTo consoleType control (within_of_mem control fun k hk hself =>
      notMem_following tid (hself ▸ hk))
  exact hcarry.commute hadd (Set.disjoint_compl_left_iff_subset.mpr (le_refl _)) cells

/-- A turn and cycles yet to come do not depend on each other. -/
theorem overflowOnce_addCycles (tid : Fin 4) (cycles : S32) (cells : Cells) :
    overflowOnce consoleType control tid (addCycles control tid cycles cells) =
      addCycles control tid cycles (overflowOnce consoleType control tid cells) := by
  rw [overflowOnce_eq, overflowOnce_eq, ← carry_addCycles]
  refine congrArg _ ?_
  simp only [addCycles, Function.update_self, Function.update_idem]
  refine congrArg (Function.update cells tid) ?_
  simp only [turned, Cell.signal, Cell.mk.injEq, and_true]
  simp only [BitVec.sub_eq_add_neg]
  ac_rfl

theorem overflowLoop_of_overflows {tid : Fin 4} {cells : Cells} (h : (cells tid).overflows) :
    overflowLoop consoleType control tid cells =
      overflowLoop consoleType control tid (overflowOnce consoleType control tid cells) := by
  rw [overflowLoop, if_pos h]

theorem overflowLoop_of_not {tid : Fin 4} {cells : Cells} (h : ¬(cells tid).overflows) :
    overflowLoop consoleType control tid cells = cells := by
  rw [overflowLoop, if_neg h]

theorem overflows_iff (c : Cell) : c.overflows ↔ 2 ^ 26 ≤ c.counter.toNat := by
  rw [Cell.overflows, ne_eq, ← BitVec.toNat_inj, BitVec.toNat_ushiftRight,
    Nat.shiftRight_eq_div_pow]
  change ¬_ = 0 ↔ _
  rw [Nat.div_eq_zero_iff]
  omega

/-- The loop takes the turns of its first cycles first. -/
theorem overflowLoop_addCycles (tid : Fin 4) (cycles : S32) (cells : Cells)
    (h : (cells tid).counter.toNat + (cycles <<< (control tid).cycleShift).toNat < 2 ^ 32) :
    overflowLoop consoleType control tid
        (addCycles control tid cycles (overflowLoop consoleType control tid cells)) =
      overflowLoop consoleType control tid (addCycles control tid cycles cells) := by
  induction cells using overflowLoop.induct consoleType control tid with
  | case1 cells hover ih =>
    have hless := overflowOnce_lt consoleType control hover
    have hover' : (addCycles control tid cycles cells tid).overflows := by
      rw [overflows_iff] at hover ⊢
      rw [addCycles, Function.update_self, BitVec.toNat_add, Nat.mod_eq_of_lt h]
      omega
    rw [overflowLoop_of_overflows consoleType control hover, ih (by omega),
      ← overflowOnce_addCycles, ← overflowLoop_of_overflows consoleType control hover']
  | case2 cells hover => rw [overflowLoop_of_not consoleType control hover]

theorem addCycles_add (tid : Fin 4) (a b : ℕ) (cells : Cells) :
    addCycles control tid (BitVec.ofNat 32 b) (addCycles control tid (BitVec.ofNat 32 a) cells) =
      addCycles control tid (BitVec.ofNat 32 (a + b)) cells := by
  simp only [addCycles, Function.update_self, Function.update_idem, BitVec.ofNat_add,
    BitVec.shiftLeft_add_distrib, BitVec.add_assoc]

theorem toNat_shiftLeft_ofNat {a n : ℕ} (h : a * 2 ^ n < 2 ^ 32) :
    (BitVec.ofNat 32 a <<< n).toNat = a * 2 ^ n := by
  have ha : a < 2 ^ 32 := (Nat.le_mul_of_pos_right a (Nat.two_pow_pos n)).trans_lt h
  rw [BitVec.toNat_shiftLeft, BitVec.toNat_ofNat, Nat.mod_eq_of_lt ha, Nat.shiftLeft_eq,
    Nat.mod_eq_of_lt h]

/-- One driven timer, in two parts. -/
theorem runDriven_add {tid : Fin 4} {a b : ℕ} {cells : Cells}
    (h : (control tid).isDriven →
      (cells tid).counter.toNat + (a + b) * 2 ^ (control tid).cycleShift < 2 ^ 32) :
    runDriven consoleType control (BitVec.ofNat 32 b) tid
        (runDriven consoleType control (BitVec.ofNat 32 a) tid cells) =
      runDriven consoleType control (BitVec.ofNat 32 (a + b)) tid cells := by
  by_cases hdriven : (control tid).isDriven
  · have hfit := h hdriven
    rw [Nat.add_mul] at hfit
    have ha := toNat_shiftLeft_ofNat
      (show a * 2 ^ (control tid).cycleShift < 2 ^ 32 by omega)
    have hb := toNat_shiftLeft_ofNat
      (show b * 2 ^ (control tid).cycleShift < 2 ^ 32 by omega)
    have hfirst : (addCycles control tid (BitVec.ofNat 32 a) cells tid).counter.toNat =
        (cells tid).counter.toNat + a * 2 ^ (control tid).cycleShift := by
      rw [addCycles, Function.update_self, BitVec.toNat_add, ha, Nat.mod_eq_of_lt (by omega)]
    have hloop := overflowLoop_addCycles consoleType control tid (BitVec.ofNat 32 b)
      (addCycles control tid (BitVec.ofNat 32 a) cells) (by rw [hfirst, hb]; omega)
    rw [addCycles_add] at hloop
    simp only [runDriven, hdriven, if_true]
    exact hloop
  · simp only [runDriven, if_neg hdriven]

/-! ### All four timers -/

/-- The four timers one after the other. -/
def runAll (cycles : S32) (cells : Cells) : Cells :=
  runDriven consoleType control cycles 3 (runDriven consoleType control cycles 2
    (runDriven consoleType control cycles 1 (runDriven consoleType control cycles 0 cells)))

theorem runDriven_comm {i j : Fin 4} (h : i < j) (c d : S32) (cells : Cells) :
    runDriven consoleType control c i (runDriven consoleType control d j cells) =
      runDriven consoleType control d j (runDriven consoleType control c i cells) :=
  (runDriven_localTo consoleType control c i).commute (runDriven_localTo consoleType control d j)
    (disjoint_reached control h) cells

/-- A driven timer's counter is not changed by the other driven timers. -/
theorem runDriven_of_ne {i j : Fin 4} (h : i ≠ j) (hj : (control j).isDriven) (c : S32)
    (cells : Cells) : runDriven consoleType control c i cells j = cells j := by
  refine (runDriven_localTo consoleType control c i).outside cells j fun hmem => ?_
  exact not_isCountUp_of_isDriven hj (hmem.2.2 j (lt_of_le_of_ne hmem.2.1 h) (le_refl j))

theorem runAll_add {a b : ℕ} {cells : Cells}
    (h : ∀ tid, (control tid).isDriven →
      (cells tid).counter.toNat + (a + b) * 2 ^ (control tid).cycleShift < 2 ^ 32) :
    runAll consoleType control (BitVec.ofNat 32 b)
        (runAll consoleType control (BitVec.ofNat 32 a) cells) =
      runAll consoleType control (BitVec.ofNat 32 (a + b)) cells := by
  have hadd {i : Fin 4} {x : Cells} (hx : (control i).isDriven → x i = cells i) :
      runDriven consoleType control (BitVec.ofNat 32 b) i
        (runDriven consoleType control (BitVec.ofNat 32 a) i x) =
      runDriven consoleType control (BitVec.ofNat 32 (a + b)) i x :=
    runDriven_add consoleType control fun hi => by rw [hx hi]; exact h i hi
  have h01 := runDriven_comm consoleType control (by decide : (0 : Fin 4) < 1)
  have h02 := runDriven_comm consoleType control (by decide : (0 : Fin 4) < 2)
  have h03 := runDriven_comm consoleType control (by decide : (0 : Fin 4) < 3)
  have h12 := runDriven_comm consoleType control (by decide : (1 : Fin 4) < 2)
  have h13 := runDriven_comm consoleType control (by decide : (1 : Fin 4) < 3)
  have h23 := runDriven_comm consoleType control (by decide : (2 : Fin 4) < 3)
  simp only [runAll]
  -- the second part of each timer moves in front of the first parts of the later ones
  rw [h03, h02, h01, hadd (fun _ => rfl), h13, h12, hadd, h23, hadd, hadd]
  all_goals
    intro hdriven
    repeat rw [runDriven_of_ne consoleType control (by decide) hdriven]

theorem runTimers_eq (s : Timers) {c : ℕ} (hc : c < 2 ^ 31) (now : U64)
    (hnow : now = s.timestamp + BitVec.ofNat 64 c) :
    s.runTimers now = { s with
      cells := runAll s.consoleType s.control (BitVec.ofNat 32 c) s.cells
      timestamp := now } := by
  have hcycles : ((now - s.timestamp).setWidth 32 : S32) = BitVec.ofNat 32 c := by
    rw [hnow, BitVec.add_comm, BitVec.add_sub_cancel, BitVec.setWidth_ofNat_of_le (by decide)]
  have hmsb : (BitVec.ofNat 32 c).msb = false := by
    rw [BitVec.msb_eq_false_iff_two_mul_lt, BitVec.toNat_ofNat, Nat.mod_eq_of_lt (by omega)]
    omega
  have hsigned : (BitVec.ofNat 32 c).signExtend 64 = BitVec.ofNat 64 c := by
    rw [BitVec.signExtend_eq_setWidth_of_msb_false hmsb, ← BitVec.toNat_inj]
    simp only [BitVec.toNat_setWidth, BitVec.toNat_ofNat]
    omega
  have hrun (cells : Cells) (tid : Fin 4) : (if s.checkMask.getLsbD tid then
        runTimer s.consoleType s.control tid (BitVec.ofNat 32 c) cells else cells) =
      runDriven s.consoleType s.control (BitVec.ofNat 32 c) tid cells := by
    rw [runDriven, s.checked tid]
  simp only [Timers.runTimers, hcycles, hsigned, hrun, ← hnow]
  rfl

/-- The loop of overflows ends. -/
theorem overflowLoop_spec (tid : Fin 4) (cells : Cells) :
    ∃ n ≤ (cells tid).counter.toNat / 1024,
      overflowLoop consoleType control tid cells =
        (overflowOnce consoleType control tid)^[n] cells ∧
      ¬((overflowOnce consoleType control tid)^[n] cells tid).overflows := by
  induction cells using overflowLoop.induct consoleType control tid with
  | case1 cells hover ih =>
    obtain ⟨n, hn, hloop, hend⟩ := ih
    have hcounter := overflowOnce_counter consoleType control hover
    have hreload := (control tid).reload.isLt
    refine ⟨n + 1, by omega, ?_, ?_⟩
    · rw [overflowLoop_of_overflows consoleType control hover, hloop, Function.iterate_succ_apply]
    · rw [Function.iterate_succ_apply]
      exact hend
  | case2 cells hover =>
    exact ⟨0, Nat.zero_le _, overflowLoop_of_not consoleType control hover, hover⟩

theorem overflowOnce_irqs_le (tid : Fin 4) (cells : Cells) :
    (cells tid).irqs ≤ (overflowOnce consoleType control tid cells tid).irqs := by
  rw [overflowOnce_eq, carry_of_notMem consoleType control (notMem_following tid),
    Function.update_self]
  simp only [turned, Cell.signal]
  split_ifs <;> omega

theorem overflowLoop_irqs_le (tid : Fin 4) (cells : Cells) :
    (cells tid).irqs ≤ (overflowLoop consoleType control tid cells tid).irqs := by
  induction cells using overflowLoop.induct consoleType control tid with
  | case1 cells hover ih =>
    rw [overflowLoop_of_overflows consoleType control hover]
    exact (overflowOnce_irqs_le consoleType control tid cells).trans ih
  | case2 cells hover => rw [overflowLoop_of_not consoleType control hover]

/-- Cycles that fit the counters may be run in two parts: counters, interrupts, NDMA requests
and carries come out the same. The loop of overflows ends for any reload value and count. -/
theorem runTimers_slice (s : Timers) (c₁ c₂ : ℕ) (hsum : c₁ + c₂ < 2 ^ 31)
    (hfit : ∀ tid, (s.control tid).isDriven →
      (s.cells tid).counter.toNat + (c₁ + c₂) * 2 ^ (s.control tid).cycleShift < 2 ^ 32) :
    (s.runTimers (s.timestamp + BitVec.ofNat 64 c₁)).runTimers
        (s.timestamp + BitVec.ofNat 64 c₁ + BitVec.ofNat 64 c₂) =
      s.runTimers (s.timestamp + BitVec.ofNat 64 (c₁ + c₂)) ∧
    ∀ control tid cells, ∃ n ≤ (cells tid).counter.toNat / 1024,
      overflowLoop s.consoleType control tid cells =
        (overflowOnce s.consoleType control tid)^[n] cells ∧
      ¬((overflowOnce s.consoleType control tid)^[n] cells tid).overflows := by
  refine ⟨?_, fun control tid cells => overflowLoop_spec s.consoleType control tid cells⟩
  have hfirst := runTimers_eq s (show c₁ < 2 ^ 31 by omega) _ rfl
  have hboth := runTimers_eq s hsum _ rfl
  have hsecond := runTimers_eq (s.runTimers (s.timestamp + BitVec.ofNat 64 c₁))
    (show c₂ < 2 ^ 31 by omega) (s.timestamp + BitVec.ofNat 64 c₁ + BitVec.ofNat 64 c₂)
    (by rw [hfirst])
  have htime : s.timestamp + BitVec.ofNat 64 c₁ + BitVec.ofNat 64 c₂ =
      s.timestamp + BitVec.ofNat 64 (c₁ + c₂) := by
    rw [BitVec.add_assoc, ← BitVec.ofNat_add]
  rw [hsecond, hboth, hfirst, htime]
  simp only [runAll_add s.consoleType s.control hfit]

/-- The first timer runs at full speed with its interrupt on, from zero. -/
def fastTimer : Timers where
  consoleType := 0
  control tid := { reload := 0, cnt := if tid = 0 then 0xC0 else 0, cycleShift := 10 }
  cells _ := { counter := 0, irqs := 0, ndmas := 0, carries := 0 }
  checkMask := 1
  timestamp := 0
  checked := by decide

theorem runTimers_slice_fastTimer :
    (fastTimer.runTimers (0 + BitVec.ofNat 64 70000)).runTimers
        (0 + BitVec.ofNat 64 70000 + BitVec.ofNat 64 70000) =
      fastTimer.runTimers (0 + BitVec.ofNat 64 (70000 + 70000)) :=
  (runTimers_slice fastTimer 70000 70000 (by decide) (by decide)).1

/-- As many cycles as wrap the counter raise interrupts in two parts, and none at once. -/
theorem runTimers_slice_wrap :
    ¬∀ (s : Timers) (c₁ c₂ : ℕ), c₁ + c₂ < 2 ^ 31 →
      (s.runTimers (s.timestamp + BitVec.ofNat 64 c₁)).runTimers
          (s.timestamp + BitVec.ofNat 64 c₁ + BitVec.ofNat 64 c₂) =
        s.runTimers (s.timestamp + BitVec.ofNat 64 (c₁ + c₂)) := by
  intro hall
  have hrun (c : S32) (cells : Cells) : runAll 0 fastTimer.control c cells =
      overflowLoop 0 fastTimer.control 0 (addCycles fastTimer.control 0 c cells) := by
    have hdriven : (fastTimer.control 0).isDriven = true := by decide
    have hone : ¬(fastTimer.control 1).isDriven = true := by decide
    have htwo : ¬(fastTimer.control 2).isDriven = true := by decide
    have hthree : ¬(fastTimer.control 3).isDriven = true := by decide
    rw [runAll, runDriven, if_neg hthree, runDriven, if_neg htwo, runDriven, if_neg hone, runDriven,
      if_pos hdriven]
    rfl
  have hkeep (c : S32) (cells : Cells) :
      (cells 0).irqs ≤ (runAll 0 fastTimer.control c cells 0).irqs := by
    rw [hrun]
    exact (overflowLoop_irqs_le 0 fastTimer.control 0 (addCycles fastTimer.control 0 c cells)).trans'
      (le_of_eq rfl)
  obtain ⟨cells, hcells⟩ : ∃ cells,
      cells = runAll 0 fastTimer.control (BitVec.ofNat 32 (2 ^ 21)) fastTimer.cells := ⟨_, rfl⟩
  have hparts : 1 ≤ (cells 0).irqs := by
    have hover : (addCycles fastTimer.control 0 (BitVec.ofNat 32 (2 ^ 21)) fastTimer.cells 0).overflows := by
      decide
    rw [hcells, hrun, overflowLoop_of_overflows 0 fastTimer.control hover]
    exact (overflowLoop_irqs_le 0 fastTimer.control 0 _).trans' (by decide)
  have hfirst := runTimers_eq fastTimer (by decide : 2 ^ 21 < 2 ^ 31) _ rfl
  have hboth := runTimers_eq fastTimer (by decide : 2 ^ 21 + 2 ^ 21 < 2 ^ 31) _ rfl
  have hsecond := runTimers_eq (fastTimer.runTimers (fastTimer.timestamp + BitVec.ofNat 64 (2 ^ 21)))
    (by decide : 2 ^ 21 < 2 ^ 31) (fastTimer.timestamp + BitVec.ofNat 64 (2 ^ 21) +
      BitVec.ofNat 64 (2 ^ 21)) (by rw [hfirst])
  have hsame := hall fastTimer (2 ^ 21) (2 ^ 21) (by decide)
  rw [hsecond, hboth, hfirst] at hsame
  have hirqs : (runAll 0 fastTimer.control (BitVec.ofNat 32 (2 ^ 21)) cells 0).irqs =
      (runAll 0 fastTimer.control (BitVec.ofNat 32 (2 ^ 21 + 2 ^ 21)) fastTimer.cells 0).irqs := by
    rw [hcells]
    exact congrArg (fun s : Timers => (s.cells 0).irqs) hsame
  have hnone : (runAll 0 fastTimer.control (BitVec.ofNat 32 (2 ^ 21 + 2 ^ 21)) fastTimer.cells 0).irqs =
      0 := by
    have hover : ¬(addCycles fastTimer.control 0 (BitVec.ofNat 32 (2 ^ 21 + 2 ^ 21))
        fastTimer.cells 0).overflows := by
      decide
    rw [hrun, overflowLoop_of_not 0 fastTimer.control hover]
    rfl
  have hpart := hkeep (BitVec.ofNat 32 (2 ^ 21)) cells
  omega

end MelonDS.NDS
