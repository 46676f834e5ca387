import MelonDS.GPU3D.BankSwap
import MelonDS.GPU3D.Registers
import MelonDS.GPU3D.SoftRenderer
import MelonDS.Library.Trace

/-!
# Frames that are not drawn again

`RenderFrameIdentical` says that the last VBlank changed nothing, and `RenderFrame` takes it
to mean that nothing changed since the last frame drawn. The runs below watch the difference:
whether the state a frame is drawn from has changed since one was drawn.
-/

namespace MelonDS
open GPU GPU.VRAMState

namespace GPU3D

deriving instance DecidableEq for RenderRegisters

/-! ## Commands and registers -/

/-- What is drawn, and the power, stay as they are. -/
structure SameFrame (g g' : GPU3D) : Prop where
  displayed : g'.scene.displayed = g.scene.displayed
  rendering : g'.renderingState = g.renderingState

theorem SameFrame.trans {g g' g'' : GPU3D} (h : SameFrame g g') (h' : SameFrame g' g'') :
    SameFrame g g'' := ⟨h'.displayed.trans h.displayed, h'.rendering.trans h.rendering⟩

theorem SameFrame.render {g g' : GPU3D} (h : SameFrame g g') : g'.render = g.render :=
  congrArg RenderingState.render h.rendering

theorem Keeps.sameFrame {g g' : GPU3D} (h : Keeps g g') : SameFrame g g' :=
  ⟨congrArg Scene.displayed h.1, h.2⟩

theorem Keeps.kept {g g' : GPU3D} (h : Keeps g g') (hk : g.Kept) : g'.Kept where
  sound := by
    rw [h.1]
    exact hk.sound
  dark := by
    have hpower : g'.renderingEnabled = g.renderingEnabled :=
      congrArg RenderingState.renderingEnabled h.2
    rw [h.1, hpower]
    exact hk.dark

/-- The command read next continues no strip of the other bank. -/
def CommandContinues (g : GPU3D) : Prop :=
  submitsPolygon g.queue.cmdFIFORead.1 g = true → g.ContinuesBank

theorem Kept.executeCommand {g : GPU3D} (h : g.Kept) (hc : g.CommandContinues) :
    g.executeCommand.Kept ∧ SameFrame g g.executeCommand := by
  have hread : Keeps g { g with queue := g.queue.cmdFIFORead.2 } := ⟨rfl, rfl⟩
  obtain ⟨hkept, hdisplayed⟩ := (hread.kept h).command (e := g.queue.cmdFIFORead.1) hc
  exact ⟨hkept, hdisplayed, (stepped_executeEntry _ _).rendering⟩

theorem keeps_settleBusyBits (g : GPU3D) : Keeps g g.settleBusyBits := by
  rw [settleBusyBits]
  split_ifs <;> exact ⟨rfl, rfl⟩

theorem keeps_finishWork (cycles : ℤ) (g : GPU3D) : Keeps g (g.finishWork cycles) := by
  rw [finishWork]
  dsimp only
  split_ifs <;> exact ⟨rfl, rfl⟩

/-- The commands of the loop of `Run`, each in the state it is read in. -/
def CommandsContinue : ℕ → GPU3D → Prop
  | 0, _ => True
  | rounds + 1, g =>
    g.timing.cycleCount ≤ 0 ∧ g.queue.cmdPIPE.isEmpty = false →
      g.settleBusyBits.CommandContinues ∧
        CommandsContinue rounds g.settleBusyBits.executeCommand

theorem Kept.runCommands {g : GPU3D} (h : g.Kept) {rounds : ℕ}
    (hc : CommandsContinue rounds g) :
    (GPU3D.runCommands rounds g).Kept ∧ SameFrame g (GPU3D.runCommands rounds g) := by
  induction rounds generalizing g with
  | zero => exact ⟨h, rfl, rfl⟩
  | succ rounds ih =>
    rw [GPU3D.runCommands]
    split_ifs with hready
    · obtain ⟨hnext, hrest⟩ := hc hready
      have hsettled := keeps_settleBusyBits g
      obtain ⟨hkept, hsame⟩ := (hsettled.kept h).executeCommand hnext
      obtain ⟨hkept', hsame'⟩ := ih hkept hrest
      exact ⟨hkept', (hsettled.sameFrame.trans hsame).trans hsame'⟩
    · exact ⟨h, rfl, rfl⟩

/-- The state in which `Run` turns to the commands. -/
def startRun (now : U64) (g : GPU3D) : GPU3D :=
  { g.timed (fun t =>
      { t with cycleCount := t.cycleCount - ((now - g.timestamp).setWidth 32).toInt }) with
    timestamp := now }

/-- What `Run` does once no command is left to execute. -/
def finishRun (g : GPU3D) : GPU3D :=
  if g.timing.cycleCount ≤ 0 ∧ g.queue.cmdPIPE.isEmpty = true then
    (if g.queue.gxStat.getLsbD 27 then g.finishWork (-g.timing.cycleCount)
      else g.timed fun t => { t with cycleCount := 0 }).settleBusyBits
  else g

/-- The number of commands queued. -/
def queued (g : GPU3D) : ℕ :=
  g.queue.cmdPIPE.level + g.queue.cmdFIFO.level + g.queue.cmdStallQueue.level

/-- `Run` only takes note of the time. -/
def idle (g : GPU3D) : Bool :=
  !g.geometryEnabled || g.scene.flushRequest ||
    (g.queue.cmdPIPE.isEmpty && !g.queue.gxStat.getLsbD 27)

theorem run_eq (now : U64) (g : GPU3D) :
    g.run now =
      if g.idle then { g with timestamp := now }
      else (GPU3D.runCommands g.queued (g.startRun now)).finishRun := rfl

theorem keeps_finishRun (g : GPU3D) : Keeps g g.finishRun := by
  rw [finishRun]
  split_ifs
  · exact (keeps_finishWork _ g).trans (keeps_settleBusyBits _)
  · exact (keeps_timed _ g).trans (keeps_settleBusyBits _)
  · exact ⟨rfl, rfl⟩

/-- No command of a call of `Run` continues a strip of the other bank. -/
def RunContinues (now : U64) (g : GPU3D) : Prop :=
  g.idle = false → CommandsContinue g.queued (g.startRun now)

theorem Kept.run {g : GPU3D} (h : g.Kept) {now : U64} (hc : g.RunContinues now) :
    (g.run now).Kept ∧ SameFrame g (g.run now) := by
  rw [run_eq]
  by_cases hidle : g.idle = true
  · rw [if_pos hidle]
    have hkeeps : Keeps g { g with timestamp := now } := ⟨rfl, rfl⟩
    exact ⟨hkeeps.kept h, hkeeps.sameFrame⟩
  · rw [if_neg hidle]
    have hstart : Keeps g (g.startRun now) := ⟨rfl, rfl⟩
    obtain ⟨hkept, hsame⟩ := (hstart.kept h).runCommands (hc (Bool.eq_false_iff.mpr hidle))
    have hend := keeps_finishRun (GPU3D.runCommands g.queued (g.startRun now))
    exact ⟨hend.kept hkept, (hstart.sameFrame.trans hsame).trans hend.sameFrame⟩

theorem keeps_setRegisters (f : Registers → Registers) (g : GPU3D) : Keeps g (g.setRegisters f) :=
  ⟨rfl, rfl⟩

theorem keeps_ackStackError (g : GPU3D) : Keeps g g.ackStackError := ⟨rfl, rfl⟩

theorem keeps_writeFIFOMode (bits : U32) (g : GPU3D) : Keeps g (g.writeFIFOMode bits) := ⟨rfl, rfl⟩

theorem keeps_setZeroDotWLimit (limit : U32) (g : GPU3D) :
    Keeps g { g with zeroDotWLimit := limit } := ⟨rfl, rfl⟩

theorem keeps_setQueue (queue : CommandEngine) (g : GPU3D) : Keeps g { g with queue := queue } :=
  ⟨rfl, rfl⟩

theorem Keeps.refl (g : GPU3D) : Keeps g g := ⟨rfl, rfl⟩

theorem Keeps.ite {c : Prop} [Decidable c] {g x y : GPU3D} (hx : Keeps g x) (hy : Keeps g y) :
    Keeps g (if c then x else y) := by
  split_ifs
  · exact hx
  · exact hy

theorem keeps_write8 (addr : U32) (val : U8) (g : GPU3D) : Keeps g (g.write8 addr val) := by
  rw [write8]
  refine .ite (.refl g) ?_
  refine .ite (keeps_setRegisters _ g) ?_
  refine .ite (.ite (keeps_ackStackError g) (.refl g)) ?_
  refine .ite (keeps_writeFIFOMode _ g) ?_
  refine .ite (keeps_setRegisters _ g) ?_
  refine .ite (keeps_setRegisters _ g) ?_
  exact .ite (keeps_setRegisters _ g) (.refl g)

theorem keeps_write16 (addr : U32) (val : U16) (g : GPU3D) : Keeps g (g.write16 addr val) := by
  rw [write16]
  refine .ite (.refl g) ?_
  iterate 9 refine .ite (keeps_setRegisters _ g) ?_
  refine .ite (.ite (keeps_ackStackError g) (.refl g)) ?_
  refine .ite (keeps_writeFIFOMode _ g) ?_
  refine .ite (keeps_setZeroDotWLimit _ g) ?_
  refine .ite (keeps_setRegisters _ g) ?_
  refine .ite (keeps_setRegisters _ g) ?_
  exact .ite (keeps_setRegisters _ g) (.refl g)

theorem keeps_write32 (addr val : U32) (g : GPU3D) : Keeps g (g.write32 addr val) := by
  rw [write32]
  refine .ite (.refl g) ?_
  iterate 6 refine .ite (keeps_setRegisters _ g) ?_
  refine .ite ((Keeps.ite (keeps_ackStackError g) (.refl g)).trans (keeps_writeFIFOMode _ _)) ?_
  refine .ite (keeps_setZeroDotWLimit _ g) ?_
  refine .ite (keeps_setQueue _ g) ?_
  refine .ite (keeps_setRegisters _ g) ?_
  refine .ite (keeps_setRegisters _ g) ?_
  exact .ite (keeps_setRegisters _ g) (.refl g)

theorem keeps_setRenderXPos (xpos mask : U16) (g : GPU3D) : Keeps g (g.setRenderXPos xpos mask) := by
  rw [setRenderXPos]
  split_ifs <;> exact ⟨rfl, rfl⟩

/-! ## VBlank and power -/

/-- What the comparison of `VBlank` leaves out follows from what it compares. -/
structure RenderRegisters.Latched (r : RenderRegisters) : Prop where
  fogShift : r.renderFogShift = (r.renderDispCnt >>> 8) &&& 0xF
  first : r.renderFogDensityTable 0 = r.renderFogDensityTable 1
  last : r.renderFogDensityTable 33 = r.renderFogDensityTable 32

theorem latched_resetRegisters : resetRegisters.Latched := ⟨by decide, rfl, rfl⟩

theorem Registers.latched_latched (r : Registers) : r.latched.Latched := ⟨rfl, rfl, rfl⟩

theorem Registers.latched_of_unchanged {r : Registers} {old : RenderRegisters} (h : old.Latched)
    (hr : r.unchanged old = true) : r.latched = old := by
  simp only [unchanged, Bool.and_eq_true, decide_eq_true_eq] at hr
  obtain ⟨⟨⟨⟨⟨⟨⟨⟨hdisp, halpha⟩, hclear1⟩, hclear2⟩, hcolor⟩, hoffset⟩, hedge⟩, hfog⟩, htoon⟩ := hr
  have htable : (r.latched).renderFogDensityTable = old.renderFogDensityTable := by
    funext i
    change (if i.val = 0 then _ else if i.val = 33 then _ else _) = _
    split_ifs with h0 h33
    · obtain rfl : i = 0 := Fin.ext h0
      rw [h.first]
      exact (hfog 0).symm
    · obtain rfl : i = 33 := Fin.ext h33
      rw [h.last]
      exact (hfog 31).symm
    · have hlt := i.isLt
      rw [← hfog (Fin.ofNat 32 (i.val - 1))]
      congr 1
      apply Fin.ext
      change (i.val - 1) % 32 + 1 = i.val
      omega
  obtain ⟨hshift, -, -⟩ := h
  cases old with
  | mk d a t e c o s f c1 c2 =>
    dsimp only at *
    rw [latched] at htable ⊢
    dsimp only at htable
    rw [htable, ← hdisp, ← halpha, ← hclear1, ← hclear2, ← hcolor, ← hoffset, ← hedge, ← htoon,
      hshift]

theorem displayed_of_none {s : Scene} (h : s.renderNumPolygons = 0) : s.displayed = [] := by
  rw [Scene.displayed, h, List.range_zero, List.map_nil]

theorem latched_vblank {g : GPU3D} (h : g.render.Latched) : g.vblank.render.Latched := by
  rw [vblank]
  cases g.geometryEnabled <;> cases g.renderingEnabled <;> cases g.scene.flushRequest
  all_goals first
    | exact h
    | exact g.registers.latched_latched

/-- A VBlank that takes no scene and finds no register changed. -/
theorem sameFrame_vblank {g : GPU3D} (hk : g.Kept) (hl : g.render.Latched)
    (h : (g.geometryEnabled && g.renderingEnabled &&
      (g.scene.flushRequest || !g.registers.unchanged g.render)) = false) :
    g.vblank.scene.displayed = g.scene.displayed ∧ g.vblank.render = g.render := by
  rw [vblank]
  cases hgeometry : g.geometryEnabled with
  | false => exact ⟨rfl, rfl⟩
  | true =>
    cases hrendering : g.renderingEnabled with
    | false =>
      have hnone := hk.dark hrendering
      cases g.scene.flushRequest with
      | false => exact ⟨rfl, rfl⟩
      | true => exact ⟨(displayed_of_none (s := g.scene.swap) hnone).trans
          (displayed_of_none hnone).symm, rfl⟩
    | true =>
      rw [hgeometry, hrendering, Bool.true_and, Bool.true_and, Bool.or_eq_false_iff,
        Bool.not_eq_false'] at h
      rw [h.1]
      exact ⟨rfl, Registers.latched_of_unchanged hl h.2⟩

theorem latched_setEnabled {g : GPU3D} (h : g.render.Latched) (geometry rendering : Bool) :
    (g.setEnabled geometry rendering).render.Latched := by
  cases rendering with
  | true => exact h
  | false => exact latched_resetRegisters

theorem sameFrame_setEnabled {g : GPU3D} (geometry : Bool) {rendering : Bool}
    (h : (!rendering && decide (g.scene.renderNumPolygons ≠ 0 ∨ g.render ≠ resetRegisters)) =
      false) :
    (g.setEnabled geometry rendering).scene.displayed = g.scene.displayed ∧
      (g.setEnabled geometry rendering).render = g.render := by
  cases rendering with
  | true => exact ⟨rfl, rfl⟩
  | false =>
    rw [Bool.not_false, Bool.true_and, decide_eq_false_iff_not, not_or, not_not, not_not] at h
    refine ⟨?_, h.2.symm⟩
    rw [displayed_of_none h.1]
    exact displayed_of_none (s := { g.scene with renderNumPolygons := 0 }) rfl

end GPU3D

/-! ## Runs -/

inductive FrameOp
  | write8 (addr : U32) (val : U8)
  | write16 (addr : U32) (val : U16)
  | write32 (addr val : U32)
  | setRenderXPos (xpos mask : U16)
  | run (now : U64)
  | vblank
  | setEnabled (geometry rendering : Bool)
  | writeVRAM (target : WriteTarget) (w : Store)
  | writeVRAMCNT (bank : Fin 9) (cnt : U8)
  /-- The 2D engines refresh the copies of their own regions. -/
  | refresh (X : TrackingSet) (htexture : X ≠ .texture) (htexPal : X ≠ .texPal)
  | renderFrame

namespace FrameState

def onGPU3D (f : GPU3D → GPU3D) (m : FrameState) : FrameState := { m with gpu3D := f m.gpu3D }

def onVRAM (f : VRAMState → VRAMState) (m : FrameState) : FrameState := { m with vram := f m.vram }

end FrameState

section
variable (renderPolygons : FrameInputs → Buffers → Buffers)

def FrameOp.apply (m : FrameState) : FrameOp → FrameState
  | .write8 addr val => m.onGPU3D (.write8 addr val)
  | .write16 addr val => m.onGPU3D (.write16 addr val)
  | .write32 addr val => m.onGPU3D (.write32 addr val)
  | .setRenderXPos xpos mask => m.onGPU3D (.setRenderXPos xpos mask)
  | .run now => m.onGPU3D (.run now)
  | .vblank => m.onGPU3D .vblank
  | .setEnabled geometry rendering => m.onGPU3D (.setEnabled geometry rendering)
  | .writeVRAM target w => m.onVRAM (·.writeVRAM target w)
  | .writeVRAMCNT bank cnt => m.onVRAM (·.writeVRAMCNT bank cnt)
  | .refresh X _ _ => m.onVRAM (makeVRAMFlat X)
  | .renderFrame => m.renderFrame renderPolygons

/-- The operation changes the state a frame is drawn from: a VBlank that takes a new scene or
finds a register changed, or the rendering engine going off. -/
def FrameOp.changesFrame (g : GPU3D) : FrameOp → Bool
  | .vblank =>
    g.geometryEnabled && g.renderingEnabled &&
      (g.scene.flushRequest || !g.registers.unchanged g.render)
  | .setEnabled _ rendering =>
    !rendering &&
      decide (g.scene.renderNumPolygons ≠ 0 ∨ g.render ≠ GPU3D.resetRegisters)
  | _ => false

/-- A state with whether it has changed since a frame was drawn. -/
structure Watched where
  frame : FrameState
  undrawn : Bool

def Watched.step (w : Watched) (op : FrameOp) : Watched where
  frame := op.apply renderPolygons w.frame
  undrawn :=
    match op with
    | .renderFrame =>
      w.undrawn && !w.frame.texturesChanged && w.frame.gpu3D.renderFrameIdentical
    | op => w.undrawn || op.changesFrame w.frame.gpu3D

/-- The picture does not depend on what earlier frames left in the buffers. -/
def Settled (v : FrameInputs) : Prop :=
  ∀ b b', (renderPolygons v (v.clearBuffers b)).SamePicture (renderPolygons v (v.clearBuffers b'))

/-- A frame is taken to be identical only when one was drawn since the last change. -/
def FrameOp.Safe (w : Watched) : FrameOp → Prop
  | .run now => w.frame.gpu3D.RunContinues now
  | .renderFrame =>
    w.frame.gpu3D.renderFrameIdentical = true → w.frame.texturesChanged = false →
      w.undrawn = false ∧ Settled renderPolygons w.frame.inputs
  | _ => True

/-- Each operation of a run with the state it finds. -/
def Watched.trace (w : Watched) : List FrameOp → List (Watched × FrameOp) :=
  MelonDS.trace (Watched.step renderPolygons) w

/-- With no polygon and the registers reset, the cleared screen is shown. -/
def LeavesBlank : Prop :=
  ∀ v b, v.polygons = [] → v.registers = GPU3D.resetRegisters →
    (renderPolygons v b).SamePicture b

end

/-- After a reset, but for the stencil buffer, which keeps its contents. -/
def Watched.start (stencilBuffer : ℕ → U8) : Watched where
  frame :=
    { gpu3D := .initial
      vram := .reset
      buffers := { Buffers.zero with stencilBuffer := stencilBuffer }
      frameIdentical := false }
  undrawn := false

/-! ## The invariant -/

/-- When nothing has changed since a frame was drawn, the picture is the one of this state. -/
structure Watched.Faithful (renderPolygons : FrameInputs → Buffers → Buffers) (w : Watched) :
    Prop where
  kept : w.frame.gpu3D.Kept
  latched : w.frame.gpu3D.render.Latched
  picture : w.undrawn = false →
    ∃ b, w.frame.buffers.SamePicture
      (renderPolygons w.frame.inputs (w.frame.inputs.clearBuffers b))

namespace Watched
variable {renderPolygons : FrameInputs → Buffers → Buffers}

/-- What is drawn is the same in two states. -/
theorem inputs_congr {m m' : FrameState} (hscene : m'.gpu3D.scene.displayed = m.gpu3D.scene.displayed)
    (hrender : m'.gpu3D.render = m.gpu3D.render) (hflat : m'.vram.flat .texture = m.vram.flat .texture)
    (hpal : m'.vram.flat .texPal = m.vram.flat .texPal) : m'.inputs = m.inputs := by
  rw [FrameState.inputs, FrameState.inputs, hscene, hrender, hflat, hpal]

theorem Faithful.sameInputs {w w' : Watched} (h : w.Faithful renderPolygons)
    (hkept : w'.frame.gpu3D.Kept) (hinputs : w'.frame.inputs = w.frame.inputs)
    (hbuffers : w'.frame.buffers = w.frame.buffers)
    (hundrawn : w'.undrawn = false → w.undrawn = false) : w'.Faithful renderPolygons where
  kept := hkept
  latched := by
    have hrender : w'.frame.gpu3D.render = w.frame.gpu3D.render :=
      congrArg FrameInputs.registers hinputs
    rw [hrender]
    exact h.latched
  picture := by
    intro hclean
    rw [hinputs, hbuffers]
    exact h.picture (hundrawn hclean)

theorem undrawn_of_or {a b : Bool} (h : (a || b) = false) : a = false := (Bool.or_eq_false_iff.mp h).1

theorem Faithful.keeps {w : Watched} (h : w.Faithful renderPolygons) {f : GPU3D → GPU3D}
    (hf : GPU3D.Keeps w.frame.gpu3D (f w.frame.gpu3D)) (change : Bool) :
    Faithful renderPolygons ⟨w.frame.onGPU3D f, w.undrawn || change⟩ :=
  h.sameInputs (hf.kept h.kept)
    (inputs_congr hf.sameFrame.displayed hf.sameFrame.render (Eq.refl _) (Eq.refl _)) (Eq.refl _)
    undrawn_of_or

theorem Faithful.onVRAM {w : Watched} (h : w.Faithful renderPolygons) {f : VRAMState → VRAMState}
    (htexture : (f w.frame.vram).flat .texture = w.frame.vram.flat .texture)
    (htexPal : (f w.frame.vram).flat .texPal = w.frame.vram.flat .texPal) (change : Bool) :
    Faithful renderPolygons ⟨w.frame.onVRAM f, w.undrawn || change⟩ :=
  h.sameInputs h.kept (inputs_congr (Eq.refl _) (Eq.refl _) htexture htexPal) (Eq.refl _)
    undrawn_of_or

theorem Faithful.run {w : Watched} (h : w.Faithful renderPolygons) {now : U64}
    (hc : w.frame.gpu3D.RunContinues now) :
    (w.step renderPolygons (.run now)).Faithful renderPolygons := by
  obtain ⟨hkept, hsame⟩ := h.kept.run hc
  exact h.sameInputs hkept (inputs_congr hsame.displayed hsame.render (Eq.refl _) (Eq.refl _))
    (Eq.refl _) undrawn_of_or

/-- A step that may change the frame: what is asked of the new state, and that it is drawn
from the same unless it says otherwise. -/
theorem Faithful.change {w : Watched} (h : w.Faithful renderPolygons) {f : GPU3D → GPU3D}
    {change : Bool} (hkept : (f w.frame.gpu3D).Kept) (hlatched : (f w.frame.gpu3D).render.Latched)
    (hsame : change = false →
      (f w.frame.gpu3D).scene.displayed = w.frame.gpu3D.scene.displayed ∧
        (f w.frame.gpu3D).render = w.frame.gpu3D.render) :
    Faithful renderPolygons ⟨w.frame.onGPU3D f, w.undrawn || change⟩ where
  kept := hkept
  latched := hlatched
  picture := by
    intro hclean
    obtain ⟨hundrawn, hchange⟩ := Bool.or_eq_false_iff.mp hclean
    obtain ⟨hdisplayed, hrender⟩ := hsame hchange
    have hinputs : (w.frame.onGPU3D f).inputs = w.frame.inputs :=
      inputs_congr hdisplayed hrender (Eq.refl _) (Eq.refl _)
    dsimp only
    rw [hinputs]
    exact h.picture hundrawn

theorem step_renderFrame (w : Watched) :
    w.step renderPolygons .renderFrame =
      ⟨w.frame.renderFrame renderPolygons,
        w.undrawn && !w.frame.texturesChanged && w.frame.gpu3D.renderFrameIdentical⟩ := rfl

/-- A frame found identical is left as it is, any other is drawn from the state reached. -/
theorem Faithful.renderFrame {w : Watched} (h : w.Faithful renderPolygons) :
    (w.step renderPolygons .renderFrame).Faithful renderPolygons := by
  rw [step_renderFrame]
  refine ⟨?_, ?_, ?_⟩
  · dsimp only
    rw [FrameState.gpu3D_renderFrame]
    exact h.kept
  · dsimp only
    rw [FrameState.gpu3D_renderFrame]
    exact h.latched
  · intro hclean
    dsimp only at hclean ⊢
    by_cases hskip : (!w.frame.texturesChanged && w.frame.gpu3D.renderFrameIdentical) = true
    · rw [Bool.and_assoc, hskip, Bool.and_true] at hclean
      rw [Bool.and_eq_true, Bool.not_eq_true'] at hskip
      rw [FrameState.inputs_renderFrame renderPolygons hskip.1,
        FrameState.buffers_of_identical renderPolygons hskip.1 hskip.2]
      exact h.picture hclean
    · rw [Bool.not_eq_true] at hskip
      refine ⟨w.frame.buffers, ?_⟩
      rw [FrameState.buffers_of_drawn renderPolygons hskip]
      exact fun _ _ => rfl

theorem Faithful.step {w : Watched} (h : w.Faithful renderPolygons) {op : FrameOp}
    (hop : op.Safe renderPolygons w) : (w.step renderPolygons op).Faithful renderPolygons := by
  cases op with
  | write8 addr val => exact h.keeps (GPU3D.keeps_write8 addr val _) _
  | write16 addr val => exact h.keeps (GPU3D.keeps_write16 addr val _) _
  | write32 addr val => exact h.keeps (GPU3D.keeps_write32 addr val _) _
  | setRenderXPos xpos mask => exact h.keeps (GPU3D.keeps_setRenderXPos xpos mask _) _
  | run now => exact h.run hop
  | vblank =>
    exact h.change h.kept.vblank (GPU3D.latched_vblank h.latched)
      (GPU3D.sameFrame_vblank h.kept h.latched)
  | setEnabled geometry rendering =>
    exact h.change (h.kept.setEnabled geometry rendering)
      (GPU3D.latched_setEnabled h.latched geometry rendering)
      (GPU3D.sameFrame_setEnabled geometry)
  | writeVRAM target w' =>
    have hflat := FrameState.flat_writeVRAM w.frame.vram target w'
    exact h.onVRAM (f := (·.writeVRAM target w')) (congrFun hflat _) (congrFun hflat _) _
  | writeVRAMCNT bank cnt =>
    exact h.onVRAM (f := (·.writeVRAMCNT bank cnt)) (Eq.refl _) (Eq.refl _) _
  | refresh X htexture htexPal =>
    exact h.onVRAM (f := makeVRAMFlat X) (Function.update_of_ne htexture.symm _ _)
      (Function.update_of_ne htexPal.symm _ _) _
  | renderFrame => exact h.renderFrame

/-- The screen cleared after a reset is black and transparent, as the buffer is. -/
theorem faithful_start (hblank : LeavesBlank renderPolygons) (stencilBuffer : ℕ → U8) :
    (start stencilBuffer).Faithful renderPolygons where
  kept := GPU3D.kept_initial
  latched := GPU3D.latched_resetRegisters
  picture := by
    intro _
    refine ⟨Buffers.zero, ?_⟩
    intro i hi
    rw [hblank _ _ (Eq.refl _) (Eq.refl _) i hi]
    change 0 = if i < Buffers.bufferSize then (FrameInputs.clearAt _ i).1 else _
    rw [if_pos hi, FrameInputs.clearAt]
    split_ifs
    · rfl
    · have hclear (v : FrameInputs) (hv : v.registers = GPU3D.resetRegisters) (x y : ℕ) :
          (v.clearPixel x y).1 = 0 := by
        rw [FrameInputs.clearPixel, hv, if_neg (by decide)]
        exact (by decide : FrameInputs.rgb 0x3F000000 ||| (((0x3F000000 >>> 16) &&& 0x1F) <<< 24) = 0)
      exact (hclear _ (Eq.refl _) _ _).symm

end Watched

/-- The frame not drawn again is the one that would be drawn. -/
def SkipsSoundly (renderPolygons : FrameInputs → Buffers → Buffers) (p : Watched × FrameOp) : Prop :=
  p.2 = .renderFrame → (p.1.frame.renderFrame renderPolygons).frameIdentical = true →
    (p.1.frame.renderFrame renderPolygons).buffers.SamePicture
      ((p.1.frame.renderFrame renderPolygons).drawn renderPolygons)

theorem identical_frames (renderPolygons : FrameInputs → Buffers → Buffers)
    (hblank : LeavesBlank renderPolygons) (stencilBuffer : ℕ → U8) (ops : List FrameOp)
    (hops : ∀ p ∈ (Watched.start stencilBuffer).trace renderPolygons ops,
      p.2.Safe renderPolygons p.1) :
    ∀ p ∈ (Watched.start stencilBuffer).trace renderPolygons ops,
      SkipsSoundly renderPolygons p := by
  intro p hp hrender hidentical
  obtain ⟨hfaithful, hsafe⟩ :=
    trace_invariant (P := Watched.Faithful renderPolygons)
      (C := fun w op => op.Safe renderPolygons w) (fun _ _ h hop => h.step hop)
      (Watched.faithful_start hblank stencilBuffer) hops p hp
  rw [hrender] at hsafe
  rw [FrameState.frameIdentical_renderFrame, Bool.and_eq_true, Bool.not_eq_true'] at hidentical
  obtain ⟨hclean, hsettled⟩ := hsafe hidentical.2 hidentical.1
  obtain ⟨b, hpicture⟩ := hfaithful.picture hclean
  rw [FrameState.drawn, FrameState.inputs_renderFrame renderPolygons hidentical.1,
    FrameState.buffers_of_identical renderPolygons hidentical.1 hidentical.2]
  exact hpicture.trans (hsettled b _)

/-- Without polygons, fog, edges and antialiasing the cleared buffers are left as they are. -/
def clearedOnly (_ : FrameInputs) (b : Buffers) : Buffers := b

theorem leavesBlank_clearedOnly : LeavesBlank clearedOnly := fun _ _ _ _ _ _ => rfl

theorem settled_clearedOnly (v : FrameInputs) : Settled clearedOnly v := by
  intro b b' i hi
  change (if i < Buffers.bufferSize then _ else _) = if i < Buffers.bufferSize then _ else _
  rw [if_pos hi, if_pos hi]

/-- A clear colour, shown in a frame that the next VBlank finds unchanged. -/
def clearColour : List FrameOp :=
  [.setEnabled true true, .write16 0x04000350 0x7FFF, .vblank, .renderFrame, .vblank]

/-- No frame of the run is taken to be identical while a change is undrawn. -/
def drawnFirst (p : Watched × FrameOp) : Bool :=
  match p.2 with
  | .run _ => false
  | .renderFrame =>
    !(p.1.undrawn && !p.1.frame.texturesChanged && p.1.frame.gpu3D.renderFrameIdentical)
  | _ => true

theorem safe_of_drawnFirst {p : Watched × FrameOp} (h : drawnFirst p = true) :
    p.2.Safe clearedOnly p.1 := by
  obtain ⟨w, op⟩ := p
  cases op with
  | run now => exact absurd h Bool.false_ne_true
  | renderFrame =>
    intro hidentical htextures
    refine ⟨?_, settled_clearedOnly _⟩
    change (!(w.undrawn && !w.frame.texturesChanged && w.frame.gpu3D.renderFrameIdentical)) = true
      at h
    rw [hidentical, htextures, Bool.not_false, Bool.and_true, Bool.and_true,
      Bool.not_eq_true'] at h
    exact h
  | _ => trivial

theorem safe_clearColour :
    ∀ p ∈ (Watched.start fun _ => 0).trace clearedOnly (clearColour ++ [.renderFrame]),
      p.2.Safe clearedOnly p.1 :=
  fun _ hp => safe_of_drawnFirst (List.all_eq_true.mp (by decide +kernel) _ hp)

theorem identical_frames_clearColour :
    LeavesBlank clearedOnly ∧
      (∀ p ∈ (Watched.start fun _ => 0).trace clearedOnly (clearColour ++ [.renderFrame]),
        p.2.Safe clearedOnly p.1) ∧
      ∀ p ∈ (Watched.start fun _ => 0).trace clearedOnly (clearColour ++ [.renderFrame]),
        SkipsSoundly clearedOnly p :=
  ⟨leavesBlank_clearedOnly, safe_clearColour,
    identical_frames clearedOnly leavesBlank_clearedOnly _ _ safe_clearColour⟩

/-- The rendering engine is switched off before the frame: the old clear colour stays. -/
theorem identical_frames_stale :
    ¬ ∀ renderPolygons, LeavesBlank renderPolygons → ∀ stencilBuffer ops,
      ∀ p ∈ (Watched.start stencilBuffer).trace renderPolygons ops,
        SkipsSoundly renderPolygons p := by
  intro h
  have hlast := h clearedOnly leavesBlank_clearedOnly (fun _ => 0) _ _
    (last_mem_trace _ (clearColour ++ [.setEnabled true false]) .renderFrame) rfl
    (by decide +kernel) 259 (by decide)
  exact absurd hlast (by decide +kernel)

end MelonDS
