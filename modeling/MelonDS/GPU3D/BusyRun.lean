import MelonDS.GPU3D.BusyCounters

/-!
# The busy bits over runs

The executor collects the parameters of one command at a time. As long as every command of
several parameters gets all of its entries before another command is written, the counters
stand for the entries that are queued or collected, and the busy bits fall once the queues
have drained and `Run` has used up the cycles of the last command.
-/

namespace MelonDS.GPU3D

/-! ## The command under way -/

/-- The parameters read of the command under way. -/
def paramsRead : Option (U8 × ℕ) → ℕ
  | none => 0
  | some (_, k) => k

/-- The entries of a test among them. -/
def testsRead : Option (U8 × ℕ) → ℕ
  | none => 0
  | some (command, k) => if isTest ⟨command, 0⟩ then k else 0

def collect (o : Option (U8 × ℕ)) (e : CmdFIFOEntry) : Option (U8 × ℕ) :=
  if Completes (paramsRead o) e.command then none else some (e.command, paramsRead o + 1)

/-- The command under way after these entries. -/
def openAfter (es : List CmdFIFOEntry) : Option (U8 × ℕ) := es.foldl collect none

/-- The entry belongs to the command under way, if there is one. -/
def Continues : Option (U8 × ℕ) → CmdFIFOEntry → Prop
  | none, _ => True
  | some (command, _), e => e.command = command

instance (o : Option (U8 × ℕ)) (e : CmdFIFOEntry) : Decidable (Continues o e) :=
  match o with
  | none => .isTrue trivial
  | some (command, _) => inferInstanceAs (Decidable (e.command = command))

/-- Each command of several parameters has all of its entries before the next one begins. -/
def Grouped : Option (U8 × ℕ) → List CmdFIFOEntry → Prop
  | _, [] => True
  | o, e :: es => Continues o e ∧ Grouped (collect o e) es

instance decidableGrouped : (o : Option (U8 × ℕ)) → (es : List CmdFIFOEntry) →
    Decidable (Grouped o es)
  | _, [] => .isTrue trivial
  | o, e :: es =>
    have := decidableGrouped (collect o e) es
    inferInstanceAs (Decidable (_ ∧ _))

theorem grouped_append {o : Option (U8 × ℕ)} {es fs : List CmdFIFOEntry} :
    Grouped o (es ++ fs) ↔ Grouped o es ∧ Grouped (es.foldl collect o) fs := by
  induction es generalizing o with
  | nil => exact ⟨fun h => ⟨trivial, h⟩, fun h => h.2⟩
  | cons e es ih =>
    rw [List.cons_append, Grouped, Grouped, ih, List.foldl_cons, and_assoc]

/-- The command under way needs further parameters. -/
def Partial : Option (U8 × ℕ) → Prop
  | none => True
  | some (command, k) => 0 < k ∧ k < cmdNumParams command

theorem partial_collect {o : Option (U8 × ℕ)} {e : CmdFIFOEntry} (ho : Partial o)
    (he : Continues o e) : Partial (collect o e) := by
  rw [collect]
  split_ifs with h
  · trivial
  · rw [Completes, not_or, not_and, not_le, not_le] at h
    refine ⟨Nat.succ_pos _, ?_⟩
    rcases o with - | ⟨command, k⟩
    · exact h.1
    · exact h.2 ho.1

/-! ## States -/

/-- The queues and the counters fit the command under way. -/
structure Counted (g : GPU3D) (o : Option (U8 × ℕ)) : Prop where
  layered : g.queue.Layered
  owes : g.queue.Owes False 0 (testsRead o)
  params : g.execParamCount = paramsRead o
  partialCommand : Partial o
  grouped : Grouped o g.queue.contents

/-- A busy bit is set only while its counter is not zero. -/
def Settled (g : GPU3D) : Prop :=
  (g.queue.gxStat.getLsbD 14 = true → g.queue.numPushPopCommands ≠ 0) ∧
    (g.queue.gxStat.getLsbD 0 = true → g.queue.numTestCommands ≠ 0)

/-- The busy bits have been settled once the engine is not busy. -/
def Idle (g : GPU3D) : Prop := g.queue.gxStat.getLsbD 27 = false → Settled g

variable {g g' : GPU3D} {o : Option (U8 × ℕ)}

theorem Counted.steady (h : Counted g o) (hsteady : Steady g g') : Counted g' o := by
  refine ⟨?_, h.owes.congr ?_ ?_ ?_ hsteady.stat, hsteady.params.trans h.params,
    h.partialCommand, ?_⟩
  · rw [hsteady.queue]
    exact ⟨h.layered.stall, h.layered.fifo⟩
  · rw [hsteady.queue]
    rfl
  · rw [hsteady.queue]
  · rw [hsteady.queue]
  · rw [hsteady.queue]
    exact h.grouped

theorem Settled.steady (h : Settled g) (hsteady : Steady g g') : Settled g' := by
  have hcounters : g'.queue.numPushPopCommands = g.queue.numPushPopCommands ∧
      g'.queue.numTestCommands = g.queue.numTestCommands := by
    rw [hsteady.queue]
    exact ⟨rfl, rfl⟩
  rw [Settled, hcounters.1, hcounters.2, hsteady.stat 14 (by decide), hsteady.stat 0 (by decide)]
  exact h

theorem Idle.steady (h : Idle g) (hsteady : Steady g g') : Idle g' := by
  intro hidle
  rw [hsteady.stat 27 (by decide)] at hidle
  exact (h hidle).steady hsteady

theorem Steady.contents (h : Steady g g') : g'.queue.contents = g.queue.contents := by
  rw [h.queue]
  rfl

/-! ## Settling the busy bits -/

/-- A bit of the status register that falls under a condition. -/
def dropBit (n : ℕ) (c : Prop) [Decidable c] (g : GPU3D) : GPU3D :=
  if c then g.setStat (· &&& ~~~bit 32 n) else g

theorem settleBusyBits_eq (g : GPU3D) :
    g.settleBusyBits =
      (g.dropBit 14 (g.queue.numPushPopCommands = 0)).dropBit 0 (g.queue.numTestCommands = 0) := by
  have htests : (g.dropBit 14 (g.queue.numPushPopCommands = 0)).queue.numTestCommands =
      g.queue.numTestCommands := by
    rw [dropBit]
    split_ifs <;> rfl
  rw [← htests]
  rfl

theorem dropBit_queue (n : ℕ) (c : Prop) [Decidable c] (g : GPU3D) :
    (g.dropBit n c).queue = { g.queue with gxStat := (g.dropBit n c).queue.gxStat } := by
  rw [dropBit]
  split_ifs <;> rfl

theorem dropBit_stat {n i : ℕ} (hi : i < 32) (c : Prop) [Decidable c] (g : GPU3D) :
    (g.dropBit n c).queue.gxStat.getLsbD i =
      (g.queue.gxStat.getLsbD i && !(decide (i = n) && decide c)) := by
  rw [dropBit]
  split_ifs with h
  · change (g.queue.gxStat &&& ~~~bit 32 n).getLsbD i = _
    rw [BitVec.getLsbD_and, BitVec.getLsbD_not, getLsbD_bit n i hi, decide_eq_true hi,
      decide_eq_true h, Bool.true_and, Bool.and_true]
  · rw [decide_eq_false h, Bool.and_false, Bool.not_false, Bool.and_true]

theorem settleBusyBits_queue (g : GPU3D) :
    g.settleBusyBits.queue = { g.queue with gxStat := g.settleBusyBits.queue.gxStat } := by
  rw [settleBusyBits_eq, dropBit_queue 0, dropBit_queue 14]

theorem settleBusyBits_params (g : GPU3D) :
    g.settleBusyBits.execParamCount = g.execParamCount := by
  rw [settleBusyBits_eq, dropBit, dropBit]
  split_ifs <;> rfl

theorem settleBusyBits_stat (g : GPU3D) {i : ℕ} (hi : i < 32) :
    g.settleBusyBits.queue.gxStat.getLsbD i =
      ((g.queue.gxStat.getLsbD i && !(decide (i = 14) && decide (g.queue.numPushPopCommands = 0))) &&
        !(decide (i = 0) && decide (g.queue.numTestCommands = 0))) := by
  rw [settleBusyBits_eq, dropBit_stat hi, dropBit_stat hi]

theorem settled_settleBusyBits (g : GPU3D) : Settled g.settleBusyBits := by
  have h14 := settleBusyBits_stat g (i := 14) (by decide)
  have h0 := settleBusyBits_stat g (i := 0) (by decide)
  simp only [decide_true, decide_false, Bool.true_and, Bool.false_and, Bool.not_false,
    Bool.and_true, OfNat.ofNat_ne_zero, OfNat.zero_ne_ofNat] at h14 h0
  rw [Settled, settleBusyBits_queue]
  dsimp only
  rw [h14, h0]
  simp only [Bool.and_eq_true, Bool.not_eq_true', decide_eq_false_iff_not]
  exact ⟨fun h => h.2, fun h => h.2⟩

theorem Counted.settleBusyBits (h : Counted g o) : Counted g.settleBusyBits o := by
  have hqueue := settleBusyBits_queue g
  have h27 := settleBusyBits_stat g (i := 27) (by decide)
  have h14 := settleBusyBits_stat g (i := 14) (by decide)
  have h0 := settleBusyBits_stat g (i := 0) (by decide)
  simp only [decide_true, decide_false, Bool.true_and, Bool.false_and, Bool.not_false,
    Bool.and_true, OfNat.ofNat_ne_zero, OfNat.zero_ne_ofNat, Nat.reduceEqDiff] at h27 h14 h0
  have howes : g.settleBusyBits.queue.Owes False 0 (testsRead o) := by
    rw [hqueue]
    refine ⟨h.owes.pushPops, h.owes.tests, h.owes.few, ?_, ?_, ?_⟩
    · intro hne
      rw [h14, h.owes.pushBit hne, decide_eq_false hne]
      rfl
    · intro hne
      rw [h0, h.owes.testBit hne, decide_eq_false hne]
      rfl
    · intro hne
      rw [h27]
      exact h.owes.busy hne
  refine ⟨?_, howes, (settleBusyBits_params g).trans h.params, h.partialCommand, ?_⟩
  · rw [hqueue]
    exact ⟨h.layered.stall, h.layered.fifo⟩
  · rw [hqueue]
    exact h.grouped

/-! ## One entry -/

theorem pushPopCharge_toNat (command param) :
    (pushPopCharge command).toNat = if isPushPop ⟨command, param⟩ then 1 else 0 := by
  rw [pushPopCharge, isPushPop]
  by_cases h : command = 0x11 ∨ command = 0x12
  · rw [if_pos h, if_pos (decide_eq_true h)]
    rfl
  · rw [if_neg h, if_neg (by rw [decide_eq_true_eq]; exact h)]
    rfl

/-- A test is charged with all of its entries. -/
theorem testCharge_toNat (command param) :
    (testCharge command).toNat = if isTest ⟨command, param⟩ then cmdNumParams command else 0 := by
  rw [testCharge, isTest]
  by_cases h70 : command = 0x70
  · subst h70
    rfl
  · by_cases h71 : command = 0x71
    · subst h71
      rfl
    · by_cases h72 : command = 0x72
      · subst h72
        rfl
      · rw [if_neg h70, if_neg h71, if_neg h72, if_neg]
        · rfl
        · rw [decide_eq_true_eq]
          rintro (h | h | h)
          exacts [h70 h, h71 h, h72 h]

theorem sub_toNat {x y : U32} {n k : ℕ} (hx : x.toNat = n + k) (hy : y.toNat = k) :
    (x - y).toNat = n := by
  have hle : y ≤ x := by
    rw [BitVec.le_def]
    omega
  rw [BitVec.toNat_sub_of_le hle]
  omega

/-- The entry that runs pays what it owed. -/
theorem CommandEngine.Owes.spend {q : CommandEngine} {r : Prop} {p t : ℕ} (h : q.Owes r p t) {x y : U32}
    (hx : x.toNat = p) (hy : y.toNat = t) :
    CommandEngine.Owes
      { q with
        numPushPopCommands := q.numPushPopCommands - x
        numTestCommands := q.numTestCommands - y } r 0 0 := by
  have hpush := sub_toNat h.pushPops hx
  have htest := sub_toNat h.tests hy
  have hne {a b : U32} (hab : a - b ≠ 0) (hle : b.toNat ≤ a.toNat) : a ≠ 0 := by
    rintro rfl
    have hb : b = 0 := BitVec.eq_of_toNat_eq (Nat.le_zero.mp hle)
    rw [hb] at hab
    exact hab rfl
  refine ⟨hpush, htest, ⟨Nat.zero_le _, Nat.zero_le _⟩, fun hsub => ?_, fun hsub => ?_, h.busy⟩
  · refine h.pushBit (hne hsub ?_)
    rw [h.pushPops, hx]
    omega
  · refine h.testBit (hne hsub ?_)
    rw [h.tests, hy]
    omega

/-- The state an entry leaves, from the state its command starts on. -/
theorem counted_executed (hlayered : g.queue.Layered)
    (howes : g.queue.Owes True 0 (testsRead o)) (hparams : g.execParamCount = paramsRead o)
    (hincomplete : Partial o) (hgrouped : Grouped o g.queue.contents) (hsteady : Steady g g') :
    Counted g' o ∧ g'.queue.gxStat.getLsbD 27 = true := by
  have hcounted : Counted g o :=
    ⟨hlayered, ⟨howes.pushPops, howes.tests, howes.few, howes.pushBit, howes.testBit,
      fun _ => howes.busy (.inl trivial)⟩, hparams, hincomplete, hgrouped⟩
  refine ⟨hcounted.steady hsteady, ?_⟩
  rw [hsteady.stat 27 (by decide)]
  exact howes.busy (.inl trivial)

theorem testsRead_le (h : Partial o) : testsRead o ≤ 2 := by
  rcases o with - | ⟨command, k⟩
  · exact Nat.zero_le 2
  · rw [testsRead]
    split_ifs with htest
    · rw [isTest, decide_eq_true_eq] at htest
      have hk : k < cmdNumParams command := h.2
      rcases htest with rfl | rfl | rfl
      · exact Nat.le_of_lt_succ hk
      · exact hk.le
      · exact hk.le.trans (by decide)
    · exact Nat.zero_le 2

/-- A command of one parameter does not come while another collects its own. -/
theorem eq_none_of_single {e : CmdFIFOEntry} (hincomplete : Partial o) (hcontinues : Continues o e)
    (hn : cmdNumParams e.command ≤ 1) : o = none := by
  rcases o with - | ⟨command, k⟩
  · rfl
  · have hk : 0 < k ∧ k < cmdNumParams command := hincomplete
    have hcommand : e.command = command := hcontinues
    rw [hcommand] at hn
    omega

theorem testsRead_succ {e : CmdFIFOEntry} (hcontinues : Continues o e) :
    testsRead (some (e.command, paramsRead o + 1)) = testsRead o + if isTest e then 1 else 0 := by
  have hself : isTest ⟨e.command, 0⟩ = isTest e := rfl
  rcases o with - | ⟨command, k⟩
  · rw [testsRead, testsRead, paramsRead, hself, zero_add, zero_add]
  · have hcommand : e.command = command := hcontinues
    rw [testsRead, testsRead, paramsRead, ← hcommand, hself]
    split_ifs <;> rfl

/-- The entries of a test that has them all, and none of any other command. -/
theorem testsRead_last {e : CmdFIFOEntry} (hcontinues : Continues o e)
    (hlast : cmdNumParams e.command = paramsRead o + 1) :
    (testCharge e.command).toNat = testsRead o + if isTest e then 1 else 0 := by
  have hself : isTest ⟨e.command, 0⟩ = isTest e := rfl
  rw [← testsRead_succ hcontinues, testCharge_toNat e.command 0, testsRead, hlast]

theorem isPushPop_of_params {e : CmdFIFOEntry} (hn : 1 < cmdNumParams e.command) :
    isPushPop e = false := by
  rw [isPushPop, decide_eq_false_iff_not]
  rintro (h | h) <;> rw [h] at hn <;> exact absurd hn (by decide)

/-- What an entry does to the counters: its command is charged if it completes one. -/
theorem executeEntry_base {e : CmdFIFOEntry} (hincomplete : Partial o) (hcontinues : Continues o e)
    (hparams : g.execParamCount = paramsRead o)
    (howes : g.queue.Owes True (if isPushPop e then 1 else 0)
      (testsRead o + if isTest e then 1 else 0)) :
    ∃ b : GPU3D, Steady b (executeEntry e g) ∧ b.queue.contents = g.queue.contents ∧
      (g.queue.Layered → b.queue.Layered) ∧ b.queue.Owes True 0 (testsRead (collect o e)) ∧
      b.execParamCount = paramsRead (collect o e) := by
  have hpush := pushPopCharge_toNat e.command e.param
  by_cases hn : cmdNumParams e.command ≤ 1
  · have hnone := eq_none_of_single hincomplete hcontinues hn
    subst hnone
    have htest : (testCharge e.command).toNat = testsRead none + if isTest e then 1 else 0 := by
      rw [testCharge_toNat e.command e.param, testsRead, zero_add]
      split_ifs with htest
      · rw [isTest, decide_eq_true_eq] at htest
        rcases htest with htest | htest | htest <;> rw [htest] at hn ⊢
        · exact absurd hn (by decide)
        · exact absurd hn (by decide)
        · rfl
      · rfl
    have hcollect : collect none e = none := if_pos (.inl hn)
    rw [hcollect]
    exact ⟨g.spend e.command, executeEntry_single hn g, rfl, fun h => ⟨h.stall, h.fifo⟩,
      howes.spend hpush htest, hparams⟩
  · have hn : 1 < cmdNumParams e.command := not_le.mp hn
    rw [isPushPop_of_params hn] at howes hpush
    by_cases hlast : 0 < paramsRead o ∧ cmdNumParams e.command ≤ paramsRead o + 1
    · have hcollect : collect o e = none := if_pos (.inr hlast)
      have hcount : cmdNumParams e.command = paramsRead o + 1 := by
        rcases o with - | ⟨command, k⟩
        · exact absurd hlast.1 (lt_irrefl 0)
        · have hcommand : e.command = command := hcontinues
          have hk : k < cmdNumParams command := hincomplete.2
          rw [← hcommand] at hk
          exact le_antisymm hlast.2 hk
      rw [hcollect]
      exact ⟨{ g.spend e.command with execParamCount := 0 },
        executeEntry_last hn (by rw [hparams]; exact hlast.1) (by rw [hparams]; exact hlast.2),
        rfl, fun h => ⟨h.stall, h.fifo⟩, howes.spend hpush (testsRead_last hcontinues hcount), rfl⟩
    · have hcollect : collect o e = some (e.command, paramsRead o + 1) := by
        refine if_neg ?_
        rintro (h | h)
        · exact absurd hn (not_lt.mpr h)
        · exact hlast h
      have hmore : g.execParamCount = 0 ∨ g.execParamCount + 1 < cmdNumParams e.command := by
        rw [hparams]
        omega
      rw [hcollect, testsRead_succ hcontinues]
      exact ⟨{ g with execParamCount := g.execParamCount + 1 }, executeEntry_param hn hmore, rfl,
        fun h => h, howes, congrArg (· + 1) hparams⟩

/-- `ExecuteCommand` takes the oldest entry off the queues. -/
theorem Counted.executeCommand (h : Counted g o) (hpipe : g.queue.cmdPIPE.contents ≠ []) :
    ∃ e, g.queue.contents = e :: g.executeCommand.queue.contents ∧
      Counted g.executeCommand (collect o e) ∧
      g.executeCommand.queue.gxStat.getLsbD 27 = true := by
  obtain ⟨e, rest, hcons⟩ := List.exists_cons_of_ne_nil hpipe
  obtain ⟨he, howes⟩ := h.owes.cmdFIFORead (testsRead_le h.partialCommand) hcons
  obtain ⟨hcontents, hlayered⟩ := CommandEngine.cmdFIFORead_spec h.layered hpipe
  rw [he] at hcontents
  have hgrouped := h.grouped
  rw [hcontents] at hgrouped
  obtain ⟨hcontinues, hrest⟩ := hgrouped
  have hexecute : g.executeCommand = executeEntry e { g with queue := g.queue.cmdFIFORead.2 } := by
    rw [GPU3D.executeCommand, he]
  obtain ⟨b, hsteady, hbase, hblayered, hbowes, hbparams⟩ :=
    executeEntry_base (g := { g with queue := g.queue.cmdFIFORead.2 }) h.partialCommand hcontinues
      h.params howes
  rw [hexecute]
  refine ⟨e, ?_, counted_executed (hblayered hlayered) hbowes hbparams
    (partial_collect h.partialCommand hcontinues) ?_ hsteady⟩
  · rw [hsteady.contents, hbase]
    exact hcontents
  · rw [hbase]
    exact hrest

/-! ## Run -/

/-- A stretch of execution: the entries it takes off the queues go through the executor. -/
def Progress (g g' : GPU3D) : Prop :=
  ∀ o, Counted g o → Idle g → ∃ es, g.queue.contents = es ++ g'.queue.contents ∧
    Counted g' (es.foldl collect o) ∧ Idle g'

theorem Progress.trans {g'' : GPU3D} (h : Progress g g') (h' : Progress g' g'') :
    Progress g g'' := by
  intro o hcounted hidle
  obtain ⟨es, hcontents, hcounted', hidle'⟩ := h o hcounted hidle
  obtain ⟨fs, hcontents', hcounted'', hidle''⟩ := h' _ hcounted' hidle'
  refine ⟨es ++ fs, ?_, ?_, hidle''⟩
  · rw [hcontents, hcontents', List.append_assoc]
  · rw [List.foldl_append]
    exact hcounted''

theorem Steady.progress (h : Steady g g') : Progress g g' := fun _ hcounted hidle =>
  ⟨[], h.contents.symm, hcounted.steady h, hidle.steady h⟩

theorem settleBusyBits_contents (g : GPU3D) :
    g.settleBusyBits.queue.contents = g.queue.contents := by
  rw [settleBusyBits_queue]
  rfl

theorem progress_settleBusyBits (g : GPU3D) : Progress g g.settleBusyBits := fun _ hcounted _ =>
  ⟨[], (settleBusyBits_contents g).symm, hcounted.settleBusyBits,
    fun _ => settled_settleBusyBits g⟩

theorem progress_executeCommand (hpipe : g.queue.cmdPIPE.contents ≠ []) :
    Progress g g.executeCommand := fun _ hcounted _ => by
  obtain ⟨e, hcontents, hcounted', hbusy⟩ := hcounted.executeCommand hpipe
  exact ⟨[e], hcontents, hcounted', fun hidle => absurd (hbusy.symm.trans hidle) (by decide)⟩

theorem progress_runCommands (rounds : ℕ) (g : GPU3D) : Progress g (runCommands rounds g) := by
  induction rounds generalizing g with
  | zero => exact (Steady.refl g).progress
  | succ rounds ih =>
    rw [runCommands]
    split_ifs with h
    · have hpipe : g.settleBusyBits.queue.cmdPIPE.contents ≠ [] := by
        rw [settleBusyBits_queue, Ne, ← FIFO.isEmpty_iff]
        exact Bool.eq_false_iff.mp h.2
      exact ((progress_settleBusyBits g).trans (progress_executeCommand hpipe)).trans (ih _)
    · exact (Steady.refl g).progress

/-- The busy bit of the engine falls, and the others are settled at once. -/
theorem progress_dropBusy (hpipe : g.queue.cmdPIPE.contents = []) :
    Progress g (g.setStat (· &&& ~~~bit 32 27)).settleBusyBits := by
  intro o hcounted hidle
  have hempty := hcounted.layered.accepted_nil hpipe
  have hbit (i : ℕ) (hi : i ≠ 27) := getLsbD_and_not_bit g.queue.gxStat hi
  have howes := hcounted.owes
  have hdropped : Counted (g.setStat (· &&& ~~~bit 32 27)) o := by
    refine ⟨⟨hcounted.layered.stall, hcounted.layered.fifo⟩,
      ⟨howes.pushPops, howes.tests, howes.few, fun hne => ?_, fun hne => ?_, fun hbusy => ?_⟩,
      hcounted.params, hcounted.partialCommand, hcounted.grouped⟩
    · exact (hbit 14 (by decide)).trans (howes.pushBit hne)
    · exact (hbit 0 (by decide)).trans (howes.testBit hne)
    · rcases hbusy with hbusy | hbusy
      · exact hbusy.elim
      · exact absurd hempty hbusy
  refine ⟨[], ?_, hdropped.settleBusyBits, fun _ => settled_settleBusyBits _⟩
  rw [settleBusyBits_contents]
  rfl

theorem progress_finishWork (cycles : ℤ) (hpipe : g.queue.cmdPIPE.contents = []) :
    Progress g (g.finishWork cycles).settleBusyBits := by
  rw [finishWork]
  dsimp only
  split_ifs
  · exact (steady_timed _ g).progress.trans (progress_settleBusyBits _)
  · exact (steady_timed _ g).progress.trans (progress_dropBusy hpipe)

theorem progress_finishRun (g : GPU3D) : Progress g g.finishRun := by
  rw [finishRun]
  split_ifs with hend hbusy
  · exact progress_finishWork _ ((FIFO.isEmpty_iff _).mp hend.2)
  · exact (steady_timed _ g).progress.trans (progress_settleBusyBits _)
  · exact (Steady.refl g).progress

theorem steady_startRun (now : U64) (g : GPU3D) : Steady g (g.startRun now) :=
  ⟨rfl, fun _ _ => rfl, rfl⟩

theorem progress_run (now : U64) (g : GPU3D) : Progress g (g.run now) := by
  rw [run_eq]
  split_ifs with hoff
  · exact Steady.progress ⟨rfl, fun _ _ => rfl, rfl⟩
  · exact ((steady_startRun now g).progress.trans (progress_runCommands _ _)).trans
      (progress_finishRun _)

/-! ## Drained queues -/

theorem accepted_nil (hempty : g.queue.contents = []) : g.queue.accepted = [] := by
  rw [CommandEngine.contents_eq] at hempty
  exact (List.append_eq_nil_iff.mp hempty).1

theorem Counted.counters_zero (h : Counted g none) (hempty : g.queue.contents = []) :
    g.queue.numPushPopCommands = 0 ∧ g.queue.numTestCommands = 0 := by
  have hpush := h.owes.pushPops
  have htest := h.owes.tests
  rw [accepted_nil hempty] at hpush htest
  exact ⟨BitVec.eq_of_toNat_eq hpush, BitVec.eq_of_toNat_eq htest⟩

theorem Counted.clear (h : Counted g none) (hempty : g.queue.contents = [])
    (hsettled : Settled g) :
    g.queue.gxStat.getLsbD 14 = false ∧ g.queue.gxStat.getLsbD 0 = false := by
  obtain ⟨hpush, htest⟩ := h.counters_zero hempty
  exact ⟨Bool.eq_false_iff.mpr fun hbit => hsettled.1 hbit hpush,
    Bool.eq_false_iff.mpr fun hbit => hsettled.2 hbit htest⟩

theorem runCommands_of_empty (rounds : ℕ) (h : g.queue.cmdPIPE.isEmpty = true) :
    runCommands rounds g = g := by
  cases rounds with
  | zero => rfl
  | succ rounds =>
    rw [runCommands, if_neg]
    rw [h]
    exact fun hnot => absurd hnot.2 (by decide)

/-- Once the queues have drained, a `Run` that uses up the cycles clears both busy bits. -/
theorem run_drained (hcounted : Counted g none) (hidle : Idle g) (hempty : g.queue.contents = [])
    (hgeometry : g.geometryEnabled = true) (hflush : g.scene.flushRequest = false) {now : U64}
    (hcycles : (g.startRun now).timing.cycleCount ≤ 0) :
    (g.run now).queue.gxStat.getLsbD 14 = false ∧ (g.run now).queue.gxStat.getLsbD 0 = false := by
  have hpipe : g.queue.cmdPIPE.isEmpty = true := by
    rw [CommandEngine.contents, List.append_assoc] at hempty
    exact (FIFO.isEmpty_iff _).mpr (List.append_eq_nil_iff.mp hempty).1
  obtain ⟨es, hcontents, hrun, -⟩ := progress_run now g none hcounted hidle
  rw [hempty] at hcontents
  obtain ⟨hes, hnil⟩ := List.append_eq_nil_iff.mp hcontents.symm
  rw [hes] at hrun
  refine hrun.clear hnil ?_
  rw [run_eq]
  split_ifs with hoff
  · rw [GPU3D.idle, hgeometry, hflush, hpipe] at hoff
    have h27 : g.queue.gxStat.getLsbD 27 = false := by
      simpa only [Bool.not_true, Bool.false_or, Bool.true_and, Bool.not_eq_true'] using hoff
    exact hidle h27
  · rw [runCommands_of_empty (g := g.startRun now) _ hpipe, finishRun, if_pos ⟨hcycles, hpipe⟩]
    exact settled_settleBusyBits _

/-! ## Register writes -/

theorem steady_setRegisters (f : Registers → Registers) (g : GPU3D) :
    Steady g (g.setRegisters f) := ⟨rfl, fun _ _ => rfl, rfl⟩

theorem steady_ackStackError (g : GPU3D) : Steady g g.ackStackError :=
  (steady_setStat _ g fun x _ hi => getLsbD_and_not_bit x (busy_ne (.inr rfl) hi)).trans
    (steady_setMatrices _ _)

theorem steady_writeFIFOMode {bits : U32} (hbits : ∀ i ∈ [0, 14, 27], bits.getLsbD i = false)
    (g : GPU3D) : Steady g (g.writeFIFOMode bits) := by
  refine (steady_setStat _ g fun x i hi => ?_).trans ⟨rfl, fun _ _ => rfl, rfl⟩
  rw [BitVec.getLsbD_or, hbits i hi, Bool.or_false, BitVec.getLsbD_and]
  simp only [List.mem_cons, List.not_mem_nil, or_false] at hi
  rcases hi with rfl | rfl | rfl <;> exact Bool.and_true _

theorem steady_writeZeroDotWLimit (val : U32) (g : GPU3D) :
    Steady g (g.writeZeroDotWLimit val) := by
  rw [writeZeroDotWLimit]
  generalize (val &&& 0x7FFF) * 0x200 + 0x1FF = limit
  exact ⟨rfl, fun _ _ => rfl, rfl⟩

theorem steady_write8 (addr : U32) (val : U8) (g : GPU3D) : Steady g (g.write8 addr val) := by
  have hmode : ∀ i ∈ [0, 14, 27], ((val &&& 0xC0).setWidth 32 <<< 24 : U32).getLsbD i = false := by
    intro i hi
    simp only [List.mem_cons, List.not_mem_nil, or_false] at hi
    rcases hi with rfl | rfl | rfl <;> simp
  rw [write8]
  refine .ite (.refl g) (.ite (steady_setRegisters _ g) (.ite (.ite (steady_ackStackError g)
    (.refl g)) (.ite (steady_writeFIFOMode hmode g) ?_)))
  exact .ite (steady_setRegisters _ g) (.ite (steady_setRegisters _ g)
    (.ite (steady_setRegisters _ g) (.refl g)))

theorem steady_write16 (addr : U32) (val : U16) (g : GPU3D) : Steady g (g.write16 addr val) := by
  have hmode : ∀ i ∈ [0, 14, 27],
      ((val &&& 0xC000).setWidth 32 <<< 16 : U32).getLsbD i = false := by
    intro i hi
    simp only [List.mem_cons, List.not_mem_nil, or_false] at hi
    rcases hi with rfl | rfl | rfl <;> simp
  have hset (f : Registers → Registers) : Steady g (g.setRegisters f) := steady_setRegisters f g
  rw [write16]
  refine .ite (.refl g) (.ite (hset _) (.ite (hset _) (.ite (hset _) (.ite (hset _) ?_))))
  refine .ite (hset _) (.ite (hset _) (.ite (hset _) (.ite (hset _) (.ite (hset _) ?_))))
  refine .ite (.ite (steady_ackStackError g) (.refl g)) (.ite (steady_writeFIFOMode hmode g) ?_)
  refine .ite (steady_writeZeroDotWLimit _ g) (.ite (hset _) (.ite (hset _) ?_))
  exact .ite (hset _) (.refl g)

/-- The addresses of the packed port and the command ports, while they are not ignored. -/
def AtPort (addr : U32) (g : GPU3D) : Prop :=
  g.ignores addr = false ∧ 0x04000400 ≤ addr ∧ addr < 0x040005CC

instance (addr : U32) (g : GPU3D) : Decidable (AtPort addr g) :=
  inferInstanceAs (Decidable (_ ∧ _))

theorem write32_port {addr : U32} (h : AtPort addr g) (val : U32) :
    g.write32 addr val = { g with queue := g.queue.write32 addr val } := by
  obtain ⟨hlow, hhigh⟩ := h.2
  have hne (a : U32) (ha : a < 0x04000400 ∨ 0x040005CC ≤ a) : addr ≠ a := by
    rintro rfl
    rcases ha with ha | ha
    · exact absurd hlow (BitVec.not_le.mpr ha)
    · exact absurd hhigh (BitVec.not_lt.mpr ha)
  rw [write32, h.1, if_neg Bool.false_ne_true, if_neg (hne _ (.inl (by decide))),
    if_neg (hne _ (.inl (by decide))), if_neg (hne _ (.inl (by decide))),
    if_neg (hne _ (.inl (by decide))), if_neg (hne _ (.inl (by decide))),
    if_neg (hne _ (.inl (by decide))), if_neg (hne _ (.inr (by decide))),
    if_neg (hne _ (.inr (by decide))), if_pos h.2]

theorem steady_write32 {addr : U32} (h : ¬ AtPort addr g) (val : U32) :
    Steady g (g.write32 addr val) := by
  have hmode : ∀ i ∈ [0, 14, 27], (val &&& 0xC0000000).getLsbD i = false := by
    intro i hi
    simp only [List.mem_cons, List.not_mem_nil, or_false] at hi
    rcases hi with rfl | rfl | rfl <;> simp
  have hset (f : Registers → Registers) : Steady g (g.setRegisters f) := steady_setRegisters f g
  rw [write32]
  by_cases hignores : g.ignores addr = true
  · rw [if_pos hignores]
    exact .refl g
  · rw [if_neg hignores]
    refine .ite (hset _) (.ite (hset _) (.ite (hset _) (.ite (hset _) (.ite (hset _) ?_))))
    refine .ite (hset _) (.ite ?_ (.ite (steady_writeZeroDotWLimit val g) ?_))
    · exact (Steady.ite (steady_ackStackError g) (.refl g)).trans (steady_writeFIFOMode hmode _)
    · rw [if_neg fun hport => h ⟨Bool.eq_false_iff.mpr hignores, hport⟩]
      exact .ite (hset _) (.ite (hset _) (.ite (hset _) (.refl g)))

/-! ## Reads, VBlank and power -/

theorem progress_ite {α : Type} {c : Prop} [Decidable c] {x y : α × GPU3D}
    (hx : Progress g x.2) (hy : Progress g y.2) : Progress g (if c then x else y).2 := by
  split_ifs
  · exact hx
  · exact hy

theorem progress_read8 (now : U64) (addr : U32) (g : GPU3D) :
    Progress g (g.read8 now addr).2 := by
  have hrun := progress_run now g
  rw [read8]
  refine progress_ite hrun (progress_ite hrun (progress_ite hrun (progress_ite hrun ?_)))
  exact (Steady.refl g).progress

theorem progress_read16 (now : U64) (addr : U32) (g : GPU3D) :
    Progress g (g.read16 now addr).2 := by
  have hrun := progress_run now g
  have hself := (Steady.refl g).progress
  rw [read16]
  refine progress_ite hself (progress_ite hself (progress_ite hrun (progress_ite hrun ?_)))
  refine progress_ite hself (progress_ite hself (progress_ite hself (progress_ite hself ?_)))
  exact progress_ite hself hself

theorem progress_read32 (now : U64) (addr : U32) (g : GPU3D) :
    Progress g (g.read32 now addr).2 := by
  have hself := (Steady.refl g).progress
  rw [read32]
  refine progress_ite hself (progress_ite hself (progress_ite (progress_run now g) ?_))
  refine progress_ite hself (progress_ite hself (progress_ite hself (progress_ite hself ?_)))
  refine progress_ite hself (progress_ite hself (progress_ite hself (progress_ite hself ?_)))
  refine progress_ite hself (progress_ite hself (progress_ite hself (progress_ite hself ?_)))
  refine progress_ite hself (progress_ite hself (progress_ite ?_ hself))
  exact (steady_updateClipMatrix g).progress

theorem steady_vblank (g : GPU3D) : Steady g g.vblank := by
  rw [vblank]
  refine .ite ?_ (.refl g)
  dsimp only
  refine (Steady.ite ?_ (.refl g)).trans (.ite ⟨rfl, fun _ _ => rfl, rfl⟩ (.refl _))
  exact ⟨rfl, fun _ _ => rfl, rfl⟩

theorem steady_setEnabled (geometry rendering : Bool) (g : GPU3D) :
    Steady g (g.setEnabled geometry rendering) := by
  rw [setEnabled]
  split_ifs <;> exact ⟨rfl, fun _ _ => rfl, rfl⟩

theorem steady_setRenderXPos (xpos mask : U16) (g : GPU3D) :
    Steady g (g.setRenderXPos xpos mask) := by
  rw [setRenderXPos]
  split_ifs <;> exact ⟨rfl, fun _ _ => rfl, rfl⟩

end MelonDS.GPU3D
