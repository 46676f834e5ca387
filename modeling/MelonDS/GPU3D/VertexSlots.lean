import MelonDS.GPU3D.SavestateRun

/-!
# The search for a vertex slot

A vertex command waits in `NextVertexSlot` while no slot is free. A slot is taken only by
starting the polygon pipeline, and the pipeline frees all of them when it runs out. So the
engine never waits with nothing left to finish, and as every round of the loop takes time off
the pipeline, the loop ends after a few of them.
-/

namespace MelonDS
namespace GPU3D

namespace Timing

/-- The loop of `NextVertexSlot`; `none` when it is still going after the given rounds. -/
def waitLoop : ℕ → ℤ → Timing → Option Timing
  | 0, _, _ => none
  | rounds + 1, num, t =>
    let t := t.advanceVertexPipeline num
    if t.polygonPipeline > 0 then
      if t.polygonPipeline > num then
        let t :=
          { t with
            polygonPipeline := t.polygonPipeline - num
            vertexSlotCounter := 1
            vertexSlotsFree := t.vertexSlotsFree >>> 1 }
        if t.vertexSlotsFree &&& 1 ≠ 0 then
          some { t with vertexSlotsFree := t.vertexSlotsFree &&& ~~~1 }
        else waitLoop rounds 9 t
      else some t.emptyPolygonPipeline
    else waitLoop rounds num t

/-- The first round of the loop is shorter than the others. -/
def firstWait (t : Timing) : ℤ := (9 - t.vertexSlotCounter) + 1

/-- A slot is busy only while the polygon pipeline runs. -/
structure Paced (t : Timing) : Prop where
  normal : 0 ≤ t.normalPipeline
  polygon : 0 ≤ t.polygonPipeline ∧ t.polygonPipeline ≤ 35
  counter : 0 ≤ t.vertexSlotCounter ∧ t.vertexSlotCounter ≤ 9
  idle : t.polygonPipeline = 0 → t.vertexSlotsFree = 1

theorem Paced.congr {t t' : Timing} (h : t.Paced) (hnormal : 0 ≤ t'.normalPipeline)
    (hpolygon : t'.polygonPipeline = t.polygonPipeline)
    (hcounter : t'.vertexSlotCounter = t.vertexSlotCounter)
    (hfree : t'.vertexSlotsFree = t.vertexSlotsFree) : t'.Paced := by
  refine ⟨hnormal, ?_, ?_, ?_⟩
  · rw [hpolygon]
    exact h.polygon
  · rw [hcounter]
    exact h.counter
  · rw [hpolygon, hfree]
    exact h.idle

theorem paced_emptyPolygonPipeline {t : Timing} (h : 0 ≤ t.normalPipeline) :
    t.emptyPolygonPipeline.Paced :=
  ⟨h, (by decide : (0 : ℤ) ≤ 0 ∧ (0 : ℤ) ≤ 35), (by decide : (0 : ℤ) ≤ 0 ∧ (0 : ℤ) ≤ 9),
    fun _ => rfl⟩

theorem paced_reservePipeline {t : Timing} (h : 0 ≤ t.normalPipeline) {cycles : ℤ}
    (hpos : 0 < cycles) (hle : cycles ≤ 35) (slots : U32) :
    (reservePipeline cycles slots t).Paced :=
  ⟨h, ⟨hpos.le, hle⟩, (by decide : (0 : ℤ) ≤ 1 ∧ (1 : ℤ) ≤ 9),
    fun hzero => absurd hzero hpos.ne'⟩

theorem Paced.setNormal {t : Timing} (h : t.Paced) {n : ℤ} (hn : 0 ≤ n) :
    { t with normalPipeline := n }.Paced :=
  h.congr hn rfl rfl rfl

/-! ## Time passes -/

/-- The vertex pipeline and the cycle count do not matter to the slots. -/
theorem advanceVertexPipeline_eq (num : ℤ) (t : Timing) :
    ∃ vertex cycles, t.advanceVertexPipeline num =
      { t with vertexPipeline := vertex, cycleCount := cycles } := by
  rw [advanceVertexPipeline]
  dsimp only
  split_ifs
  · exact ⟨_, _, rfl⟩
  · exact ⟨_, _, rfl⟩
  · exact ⟨_, _, rfl⟩

theorem Paced.advanceVertexPipeline {t : Timing} (h : t.Paced) (num : ℤ) :
    (t.advanceVertexPipeline num).Paced := by
  obtain ⟨vertex, cycles, heq⟩ := advanceVertexPipeline_eq num t
  rw [heq]
  exact h.congr h.normal rfl rfl rfl

/-- The rounds given are enough to bring the counter below ten. -/
theorem freeSlots_spec (rounds : ℕ) (t : Timing) (h : 0 ≤ t.vertexSlotCounter)
    (hrounds : t.vertexSlotCounter ≤ rounds + 9) :
    ∃ counter free, 0 ≤ counter ∧ counter ≤ 9 ∧
      freeSlots rounds t = { t with vertexSlotCounter := counter, vertexSlotsFree := free } := by
  induction rounds generalizing t with
  | zero => exact ⟨t.vertexSlotCounter, t.vertexSlotsFree, h, by simpa using hrounds, rfl⟩
  | succ rounds ih =>
    rw [freeSlots]
    split_ifs with hgt
    · have hlow : 0 ≤ t.vertexSlotCounter - 9 := by omega
      have hhigh : t.vertexSlotCounter - 9 ≤ (rounds : ℤ) + 9 := by
        push_cast at hrounds
        omega
      obtain ⟨counter, free, h0, h9, heq⟩ := ih
        { t with
          vertexSlotCounter := t.vertexSlotCounter - 9
          vertexSlotsFree := t.vertexSlotsFree >>> 1 } hlow hhigh
      exact ⟨counter, free, h0, h9, heq⟩
    · exact ⟨t.vertexSlotCounter, t.vertexSlotsFree, h, by omega, rfl⟩

theorem Paced.addCycles {t : Timing} (h : t.Paced) {num : ℤ} (hnum : 0 ≤ num) :
    (t.addCycles num).Paced := by
  have hadvanced := h.advanceVertexPipeline num
  rw [Timing.addCycles]
  generalize t.advanceVertexPipeline num = u at hadvanced ⊢
  split_ifs with hrunning hlong
  · have hcounter := hadvanced.counter
    have hpolygon := hadvanced.polygon
    obtain ⟨counter, free, h0, h9, heq⟩ := freeSlots_spec (u.vertexSlotCounter + num).toNat
      { u with
        polygonPipeline := u.polygonPipeline - num
        vertexSlotCounter := u.vertexSlotCounter + num } (by dsimp only; omega)
      (by dsimp only; omega)
    rw [heq]
    exact ⟨hadvanced.normal, ⟨by dsimp only; omega, by dsimp only; omega⟩, ⟨h0, h9⟩,
      fun hzero => by dsimp only at hzero; omega⟩
  · exact paced_emptyPolygonPipeline hadvanced.normal
  · exact hadvanced

/-! ## The search -/

theorem Paced.waitForSlot (rounds : ℕ) {t : Timing} (h : t.Paced) {num : ℤ} (hnum : 0 < num) :
    (t.waitForSlot rounds num).Paced := by
  induction rounds generalizing t num with
  | zero => exact h
  | succ rounds ih =>
    have hadvanced := h.advanceVertexPipeline num
    rw [Timing.waitForSlot]
    generalize t.advanceVertexPipeline num = u at hadvanced ⊢
    have hpolygon := hadvanced.polygon
    have hround (free : U32) (hlong : u.polygonPipeline > num) : Paced
        { u with
          polygonPipeline := u.polygonPipeline - num
          vertexSlotCounter := 1
          vertexSlotsFree := free } :=
      ⟨hadvanced.normal, ⟨by dsimp only; omega, by dsimp only; omega⟩,
        (by decide : (0 : ℤ) ≤ 1 ∧ (1 : ℤ) ≤ 9), fun hzero => by dsimp only at hzero; omega⟩
    dsimp only
    split_ifs with hrunning hlong hfree
    · exact hround _ hlong
    · exact ih (hround _ hlong) (by decide)
    · exact paced_emptyPolygonPipeline hadvanced.normal
    · exact ih hadvanced hnum

/-- While the polygon pipeline runs, every round but the last takes its cycles off it. -/
theorem waitLoop_ends (rounds : ℕ) {t : Timing} {num : ℤ} (hrunning : 0 < t.polygonPipeline)
    (hnum : 0 < num) (hrounds : t.polygonPipeline ≤ num + 9 * rounds) :
    ∃ t', t.waitLoop (rounds + 1) num = some t' := by
  induction rounds generalizing t num with
  | zero =>
    obtain ⟨vertex, cycles, heq⟩ := advanceVertexPipeline_eq num t
    rw [waitLoop, heq]
    dsimp only
    rw [if_pos hrunning, if_neg (by push_cast at hrounds; omega)]
    exact ⟨_, rfl⟩
  | succ rounds ih =>
    obtain ⟨vertex, cycles, heq⟩ := advanceVertexPipeline_eq num t
    rw [waitLoop, heq]
    dsimp only
    rw [if_pos hrunning]
    split_ifs with hlong hfree
    · exact ⟨_, rfl⟩
    · refine ih ?_ (by decide) ?_
      · dsimp only
        omega
      · dsimp only
        push_cast at hrounds
        omega
    · exact ⟨_, rfl⟩

/-- With the pipeline idle and no slot free the loop would go on for ever. -/
theorem waitLoop_idle (rounds : ℕ) {t : Timing} (hidle : t.polygonPipeline ≤ 0) (num : ℤ) :
    t.waitLoop rounds num = none := by
  induction rounds generalizing t with
  | zero => rfl
  | succ rounds ih =>
    obtain ⟨vertex, cycles, heq⟩ := advanceVertexPipeline_eq num t
    rw [waitLoop, heq]
    dsimp only
    rw [if_neg (not_lt.mpr hidle)]
    exact ih hidle

theorem waitLoop_mono {rounds rounds' : ℕ} (hle : rounds ≤ rounds') {num : ℤ} {t t' : Timing}
    (h : t.waitLoop rounds num = some t') : t.waitLoop rounds' num = some t' := by
  induction rounds generalizing rounds' num t with
  | zero => exact absurd h (Option.some_ne_none t').symm
  | succ rounds ih =>
    obtain ⟨rounds', rfl⟩ := Nat.exists_eq_add_of_le hle
    rw [Nat.add_right_comm]
    rw [waitLoop] at h ⊢
    dsimp only at h ⊢
    split_ifs at h ⊢
    · exact h
    · exact ih (Nat.le_add_right rounds rounds') h
    · exact h
    · exact ih (Nat.le_add_right rounds rounds') h

/-- Where the loop ends, its result is that of `waitForSlot`. -/
theorem waitForSlot_of_waitLoop {rounds : ℕ} {num : ℤ} {t t' : Timing}
    (h : t.waitLoop rounds num = some t') : t.waitForSlot rounds num = t' := by
  induction rounds generalizing num t with
  | zero => exact absurd h (Option.some_ne_none t').symm
  | succ rounds ih =>
    rw [waitLoop] at h
    rw [waitForSlot]
    dsimp only at h ⊢
    split_ifs at h ⊢
    · exact Option.some.inj h
    · exact ih h
    · exact Option.some.inj h
    · exact ih h

/-- Five rounds are enough: the longest polygon takes 35 cycles and a round after the first
takes nine. -/
theorem Paced.wait_ends {t : Timing} (h : t.Paced) (hbusy : t.vertexSlotsFree &&& 1 = 0) :
    t.waitLoop 5 t.firstWait = some t.nextVertexSlot := by
  have hrunning : 0 < t.polygonPipeline := by
    refine lt_of_le_of_ne h.polygon.1 fun hzero => ?_
    rw [h.idle hzero.symm] at hbusy
    exact absurd hbusy (by decide)
  have hfirst : 0 < t.firstWait := by
    have hcounter := h.counter
    rw [firstWait]
    omega
  have hpolygon := h.polygon
  obtain ⟨u, hu⟩ := waitLoop_ends t.polygonPipeline.toNat hrunning hfirst (by omega)
  obtain ⟨v, hv⟩ := waitLoop_ends 4 hrunning hfirst (by push_cast; omega)
  have hnext : t.nextVertexSlot = u := waitForSlot_of_waitLoop hu
  have hsame : u = v := by
    have hu' := waitLoop_mono (Nat.le_max_left (t.polygonPipeline.toNat + 1) 5) hu
    have hv' := waitLoop_mono (Nat.le_max_right (t.polygonPipeline.toNat + 1) 5) hv
    exact Option.some.inj (hu'.symm.trans hv')
  rw [hnext, hsame]
  exact hv

/-- After a triangle of a strip the wait takes three rounds. -/
example :
    let t := reservePipeline 26 0b1000 ⟨0, 0, 0, 0, 0, 1⟩
    t.waitLoop 2 t.firstWait = none ∧ (t.waitLoop 3 t.firstWait).isSome = true := by
  decide

/-! ## The pipeline helpers -/

theorem Paced.vertexPipelineSubmitCmd {t : Timing} (h : t.Paced) :
    t.vertexPipelineSubmitCmd.Paced := by
  have hcounter := h.counter
  have hwait : t.nextVertexSlot.Paced := h.waitForSlot _ (by omega)
  rw [Timing.vertexPipelineSubmitCmd]
  refine Paced.setNormal ?_ le_rfl
  split_ifs
  · exact hwait
  · exact h.addCycles (by decide)

theorem Paced.stallPolygonPipeline {t : Timing} (h : t.Paced) (delay nonstalldelay : ℤ) :
    (t.stallPolygonPipeline delay nonstalldelay).Paced := by
  have hnormal := h.normal
  rw [Timing.stallPolygonPipeline]
  split_ifs with hrunning hvertex
  · exact paced_emptyPolygonPipeline le_rfl
  · exact h.addCycles (by omega)
  · exact h.addCycles (by omega)

theorem Paced.vertexPipelineCmdDelayed6 {t : Timing} (h : t.Paced) :
    t.vertexPipelineCmdDelayed6.Paced := by
  have hnormal := h.normal
  rw [Timing.vertexPipelineCmdDelayed6]
  refine Paced.setNormal ?_ le_rfl
  split_ifs with hvertex
  · exact h.addCycles (by omega)
  · exact h.addCycles (by omega)

theorem Paced.vertexPipelineCmdDelayed8 {t : Timing} (h : t.Paced) :
    t.vertexPipelineCmdDelayed8.Paced := by
  have hnormal := h.normal
  rw [Timing.vertexPipelineCmdDelayed8]
  refine Paced.setNormal ?_ le_rfl
  split_ifs with hvertex
  · exact h.addCycles (by omega)
  · exact h.addCycles (by omega)

theorem Paced.vertexPipelineCmdDelayed4 {t : Timing} (h : t.Paced) :
    t.vertexPipelineCmdDelayed4.Paced := by
  have hnormal := h.normal
  exact (h.addCycles (by omega)).setNormal le_rfl

end Timing

/-! ## Commands -/

/-- The step keeps the pipelines paced. -/
def Paces (g g' : GPU3D) : Prop := g.timing.Paced → g'.timing.Paced

theorem paces_of_timing {g g' : GPU3D} (h : g'.timing = g.timing) : Paces g g' := fun hpaced =>
  h ▸ hpaced

theorem Paces.refl (g : GPU3D) : Paces g g := id

theorem Paces.trans {g g' g'' : GPU3D} (h : Paces g g') (h' : Paces g' g'') : Paces g g'' :=
  fun hpaced => h' (h hpaced)

theorem Paces.ite {c : Prop} [Decidable c] {g x y : GPU3D} (hx : Paces g x) (hy : Paces g y) :
    Paces g (if c then x else y) := by
  split_ifs
  · exact hx
  · exact hy

theorem paces_timed {f : Timing → Timing} (hf : ∀ t, t.Paced → (f t).Paced) (g : GPU3D) :
    Paces g (g.timed f) := hf g.timing

theorem paces_addCycles {num : ℤ} (hnum : 0 ≤ num) (g : GPU3D) : Paces g (g.addCycles num) :=
  fun h => h.addCycles hnum

theorem paces_submitCmd (g : GPU3D) : Paces g (g.timed .vertexPipelineSubmitCmd) :=
  paces_timed (fun _ h => h.vertexPipelineSubmitCmd) g

theorem paces_delayed4 (g : GPU3D) : Paces g (g.timed .vertexPipelineCmdDelayed4) :=
  paces_timed (fun _ h => h.vertexPipelineCmdDelayed4) g

theorem paces_delayed6 (g : GPU3D) : Paces g (g.timed .vertexPipelineCmdDelayed6) :=
  paces_timed (fun _ h => h.vertexPipelineCmdDelayed6) g

theorem paces_delayed8 (g : GPU3D) : Paces g (g.timed .vertexPipelineCmdDelayed8) :=
  paces_timed (fun _ h => h.vertexPipelineCmdDelayed8) g

theorem paces_stall (delay nonstalldelay : ℤ) (g : GPU3D) :
    Paces g (g.timed (.stallPolygonPipeline delay nonstalldelay)) :=
  paces_timed (fun _ h => h.stallPolygonPipeline delay nonstalldelay) g

theorem timing_updateClipMatrix (g : GPU3D) : g.updateClipMatrix.timing = g.timing := by
  rw [updateClipMatrix]
  split_ifs <;> rfl

theorem timing_noteStackError (error : Bool) (g : GPU3D) :
    (g.noteStackError error).timing = g.timing := by
  rw [noteStackError]
  split_ifs <;> rfl

theorem paces_stack (error : Bool) (f : Matrices → Matrices) (g : GPU3D) :
    Paces g ((g.noteStackError error).setMatrices f) :=
  paces_of_timing (timing_noteStackError error g)

theorem paces_setMatrices (f : Matrices → Matrices) (g : GPU3D) : Paces g (g.setMatrices f) := id

theorem paces_setAttributes (f : Attributes → Attributes) (g : GPU3D) :
    Paces g (g.setAttributes f) := id

theorem paces_setLighting (f : Lighting → Lighting) (g : GPU3D) : Paces g (g.setLighting f) := id

theorem paces_noteTests (entries : U32) (g : GPU3D) : Paces g (g.noteTests entries) := id

theorem paces_dirty {num : ℤ} (hnum : 0 ≤ num) (g : GPU3D) :
    Paces g (g.dirtyClipMatrix.addCycles num) := fun h => h.addCycles hnum

/-- Submitting a polygon takes slots only together with the pipeline that frees them. -/
theorem paces_submitPolygon (g : GPU3D) : Paces g g.submitPolygon := by
  intro h
  have hshort : (reservePipeline 8 0b11110 g.timing).Paced :=
    Timing.paced_reservePipeline h.normal (by decide) (by decide) _
  rw [submitPolygon]
  dsimp only
  split_ifs
  · exact hshort
  · exact hshort
  · exact hshort
  · exact hshort
  all_goals exact Timing.paced_reservePipeline h.normal (by decide) (by decide) _

theorem paces_setTemp (temp : (Fin 4 → StoredVertex) → Fin 4 → StoredVertex) (g : GPU3D) :
    Paces g (g.setTemp temp) := id

theorem timing_submitAndKeep (keep : ℕ) (g : GPU3D) :
    (g.submitAndKeep keep).timing =
      (submitPolygon
        { g with assembly := { g.assembly with vertexNumInPoly := keep } }).timing := by
  rw [submitAndKeep]

theorem paces_submitAndKeep (keep : ℕ) (g : GPU3D) : Paces g (g.submitAndKeep keep) := by
  have hkept : Paces g { g with assembly := { g.assembly with vertexNumInPoly := keep } } := id
  exact (hkept.trans (paces_submitPolygon _)).trans (paces_of_timing (timing_submitAndKeep keep g))

theorem paces_rearranged (before after : (Fin 4 → StoredVertex) → Fin 4 → StoredVertex)
    (g : GPU3D) : Paces g (((g.setTemp before).submitAndKeep 2).setTemp after) :=
  ((paces_setTemp before g).trans (paces_submitAndKeep 2 _)).trans (paces_setTemp after _)

theorem paces_completePolygon (g : GPU3D) : Paces g g.completePolygon := by
  rw [completePolygon]
  split
  · exact .ite (paces_submitAndKeep 0 g) (.refl g)
  · exact .ite (paces_submitAndKeep 0 g) (.refl g)
  · exact .ite (paces_rearranged _ _ g)
      (.ite ((paces_submitAndKeep 2 g).trans (paces_setTemp _ _)) (.refl g))
  · exact .ite (paces_rearranged _ _ g) (.refl g)
  · exact .refl g

theorem paces_submitVertex (g : GPU3D) : Paces g g.submitVertex := by
  have hplace : Paces g g.placeVertex := paces_of_timing (timing_updateClipMatrix g)
  have hlast : Paces g.placeVertex.completePolygon g.submitVertex :=
    paces_timed (fun t h => (show { t with vertexPipeline := 7 }.Paced from
      h.congr h.normal rfl rfl rfl).addCycles (by decide)) _
  exact (hplace.trans (paces_completePolygon _)).trans hlast

theorem paces_vertexCommand (f : (Fin 3 → S16) → Fin 3 → S16) (g : GPU3D) :
    Paces g (g.vertexCommand f) := by
  rw [vertexCommand]
  exact ((paces_submitCmd g).trans (paces_setAttributes _ _)).trans (paces_submitVertex _)

theorem paces_pushMatrix (g : GPU3D) : Paces g g.pushMatrix := by
  have hstart : Paces g ((g.timed .vertexPipelineCmdDelayed4).notePushPop) := paces_delayed4 g
  rw [pushMatrix]
  refine hstart.trans (Paces.trans ?_ (paces_addCycles (by decide) _))
  exact .ite (paces_stack _ _ _) (.ite (paces_stack _ _ _) (paces_stack _ _ _))

theorem paces_popMatrix (param : U32) (g : GPU3D) : Paces g (g.popMatrix param) := by
  have hstart : Paces g ((g.timed .vertexPipelineCmdDelayed4).notePushPop) := paces_delayed4 g
  rw [popMatrix]
  refine hstart.trans (.ite ?_ (.ite ?_ ?_))
  · exact (paces_stack _ _ _).trans (paces_dirty (by decide) _)
  · exact (paces_stack _ _ _).trans (paces_addCycles (by decide) _)
  · exact (paces_stack _ _ _).trans (paces_dirty (by decide) _)

theorem paces_storeMatrix (param : U32) (g : GPU3D) : Paces g (g.storeMatrix param) := by
  rw [storeMatrix]
  refine (paces_delayed4 g).trans (Paces.trans ?_ (paces_addCycles (by decide) _))
  exact .ite (.refl _) (.ite (.refl _) (paces_stack _ _ _))

theorem paces_restoreMatrix (param : U32) (g : GPU3D) : Paces g (g.restoreMatrix param) := by
  rw [restoreMatrix]
  refine (paces_delayed4 g).trans (.ite ?_ (.ite ?_ ?_))
  · exact (paces_setMatrices _ _).trans (paces_dirty (by decide) _)
  · exact (paces_setMatrices _ _).trans (paces_addCycles (by decide) _)
  · exact (paces_stack _ _ _).trans (paces_dirty (by decide) _)

theorem paces_identityMatrix (g : GPU3D) : Paces g g.identityMatrix := by
  rw [identityMatrix]
  refine (paces_delayed4 g).trans (.ite ?_ (.ite ?_ ?_))
  · exact (paces_setMatrices _ _).trans (paces_dirty (by decide) _)
  · exact paces_setMatrices _ _
  · exact (paces_setMatrices _ _).trans (paces_dirty (by decide) _)

theorem paces_changeMatrix (f : Matrix → Matrix) (vec : Bool) {cycles : MatrixCycles}
    (hproj : 0 ≤ cycles.proj) (htex : 0 ≤ cycles.tex) (hpos : 0 ≤ cycles.pos)
    (hboth : 0 ≤ cycles.both) (g : GPU3D) : Paces g (g.changeMatrix f vec cycles) := by
  rw [changeMatrix]
  refine .ite ?_ (.ite ?_ (.ite ?_ ?_))
  · exact (paces_setMatrices _ g).trans (paces_dirty hproj _)
  · exact (paces_setMatrices _ g).trans (paces_addCycles htex _)
  · exact (paces_setMatrices _ g).trans (paces_dirty hboth _)
  · exact (paces_setMatrices _ g).trans (paces_dirty hpos _)

theorem paces_calculateLighting (g : GPU3D) : Paces g g.calculateLighting := by
  intro h
  have hlights (n : ℕ) : (0 : ℤ) ≤ max 1 (n : ℤ) := zero_le_one.trans (le_max_left _ _)
  rw [calculateLighting_eq]
  exact (h.setNormal (n := 7) (by decide)).addCycles (hlights _)

theorem paces_diffuseAmbient (param : U32) (g : GPU3D) : Paces g (g.diffuseAmbient param) := by
  rw [diffuseAmbient]
  refine (paces_delayed6 g).trans (Paces.trans ?_ (paces_addCycles (by decide) _))
  exact .ite id id

theorem paces_specularEmission (param : U32) (g : GPU3D) : Paces g (g.specularEmission param) := by
  rw [specularEmission]
  exact ((paces_delayed6 g).trans (paces_setLighting _ _)).trans (paces_addCycles (by decide) _)

theorem paces_flush (param : U32) (g : GPU3D) : Paces g (g.flush param) := fun _ =>
  Timing.paced_emptyPolygonPipeline
    (t := { (g.timed .vertexPipelineCmdDelayed4).timing with
      cycleCount := 325, vertexPipeline := 0, normalPipeline := 0 }) le_rfl

theorem paces_vecTest (param : U32) (g : GPU3D) : Paces g (g.vecTest param) := fun h =>
  h.addCycles (by decide)

theorem paces_posTest (g : GPU3D) : Paces g g.posTest := by
  intro h
  have htiming : g.updateClipMatrix.timing.Paced := paces_of_timing (timing_updateClipMatrix g) h
  exact htiming.addCycles (by decide)

theorem paces_boxTest (params : ℕ → U32) (g : GPU3D) : Paces g (g.boxTest params) := by
  have hstart : Paces g ((g.addCycles 254).setStat (· &&& ~~~bit 32 1)).updateClipMatrix :=
    (paces_addCycles (by decide) g).trans (paces_of_timing (timing_updateClipMatrix _))
  rw [boxTest_eq]
  exact hstart.trans (.ite id (.refl _))

theorem paces_singleCommand (command : U8) (param : U32) (g : GPU3D) :
    Paces g (g.singleCommand command param) := by
  rw [singleCommand]
  split
  · exact paces_delayed4 g
  · exact paces_pushMatrix g
  · exact paces_popMatrix param g
  · exact paces_storeMatrix param g
  · exact paces_restoreMatrix param g
  · exact paces_identityMatrix g
  · exact paces_delayed6 g
  · exact ((paces_delayed4 g).trans (paces_setAttributes _ _)).trans (paces_calculateLighting _)
  · exact paces_delayed4 g
  · exact paces_vertexCommand _ g
  · exact paces_vertexCommand _ g
  · exact paces_vertexCommand _ g
  · exact paces_vertexCommand _ g
  · exact paces_vertexCommand _ g
  · exact paces_delayed8 g
  · exact paces_delayed8 g
  · exact paces_delayed8 g
  · exact paces_diffuseAmbient param g
  · exact paces_specularEmission param g
  · have hset : Paces g ((g.timed (.stallPolygonPipeline (8 + 1) 2)).setLightDirection param) :=
      paces_stall _ _ g
    exact hset.trans (paces_addCycles (by decide) _)
  · exact ((paces_delayed8 g).trans (paces_setLighting _ _)).trans (paces_addCycles (by decide) _)
  · exact paces_stall 1 0 g
  · exact paces_delayed8 g
  · exact paces_flush param g
  · exact paces_delayed8 g
  · exact ((paces_delayed6 g).trans (paces_noteTests 1 _)).trans (paces_vecTest param _)
  · exact paces_delayed4 g

theorem paces_multiCommand (command : U8) (params : ℕ → U32) (g : GPU3D) :
    Paces g (g.multiCommand command params) := by
  rw [multiCommand]
  split
  · exact paces_changeMatrix _ _ (by decide) (by decide) (by decide) (by decide) g
  · exact paces_changeMatrix _ _ (by decide) (by decide) (by decide) (by decide) g
  · exact paces_changeMatrix _ _ (by decide) (by decide) (by decide) (by decide) g
  · exact paces_changeMatrix _ _ (by decide) (by decide) (by decide) (by decide) g
  · exact paces_changeMatrix _ _ (by decide) (by decide) (by decide) (by decide) g
  · exact paces_changeMatrix _ _ (by decide) (by decide) (by decide) (by decide) g
  · exact paces_changeMatrix _ _ (by decide) (by decide) (by decide) (by decide) g
  · exact (paces_setAttributes _ g).trans (paces_submitVertex _)
  · exact .refl g
  · exact ((paces_noteTests 2 g).trans (paces_setAttributes _ _)).trans (paces_posTest _)
  · exact paces_boxTest params (g.noteTests 3)
  · exact .refl g

theorem paces_firstParameterDelay (command : U8) (g : GPU3D) :
    Paces g (g.timed (firstParameterDelay command)) := by
  rw [firstParameterDelay]
  split
  · exact paces_submitCmd g
  · exact paces_delayed8 g
  · exact paces_delayed8 g
  · exact paces_stall _ _ g
  · exact paces_delayed4 g

theorem paces_executeEntry (e : CmdFIFOEntry) (g : GPU3D) : Paces g (executeEntry e g) := by
  rw [executeEntry]
  refine .ite (paces_singleCommand _ _ g) ?_
  have hcollect : Paces g
      { g with
        execParams := Function.update g.execParams (Fin.ofNat 32 g.execParamCount) e.param
        execParamCount := g.execParamCount + 1 } := id
  refine hcollect.trans (.ite (paces_firstParameterDelay _ _) ?_)
  refine (paces_addCycles (by decide) _).trans (.ite ?_ (.refl _))
  exact fun h => paces_multiCommand _ _ _ h

/-! ## Runs -/

theorem timing_settleBusyBits (g : GPU3D) : g.settleBusyBits.timing = g.timing := by
  rw [settleBusyBits]
  split_ifs <;> rfl

theorem paces_executeCommand (g : GPU3D) : Paces g g.executeCommand :=
  paces_executeEntry _ { g with queue := g.queue.cmdFIFORead.2 }

theorem paces_runCommands (rounds : ℕ) (g : GPU3D) : Paces g (runCommands rounds g) := by
  induction rounds generalizing g with
  | zero => exact .refl g
  | succ rounds ih =>
    rw [runCommands]
    refine .ite ?_ (.refl g)
    have hsettle : Paces g g.settleBusyBits := paces_of_timing (timing_settleBusyBits g)
    exact (hsettle.trans (paces_executeCommand _)).trans (ih _)

theorem paces_finishWork {cycles : ℤ} (hcycles : 0 ≤ cycles) (g : GPU3D) :
    Paces g (g.finishWork cycles) := by
  intro h
  have hadd : (g.timing.addCycles cycles).Paced := h.addCycles hcycles
  have hnormal := hadd.normal
  have hfinished : Timing.Paced
      { g.timing.addCycles cycles with
        normalPipeline :=
          if (g.timing.addCycles cycles).normalPipeline ≠ 0 then
            (g.timing.addCycles cycles).normalPipeline -
              min (g.timing.addCycles cycles).normalPipeline cycles
          else (g.timing.addCycles cycles).normalPipeline
        cycleCount := 0 } := by
    refine hadd.congr ?_ rfl rfl rfl
    dsimp only
    split_ifs
    · exact sub_nonneg.mpr (min_le_left _ _)
    · exact hnormal
  rw [finishWork]
  dsimp only
  split_ifs
  · exact hfinished
  · exact hfinished

theorem paces_startRun (now : U64) (g : GPU3D) : Paces g (g.startRun now) := fun h =>
  h.congr h.normal rfl rfl rfl

theorem paces_finishRun (g : GPU3D) : Paces g g.finishRun := by
  rw [finishRun]
  split_ifs with hdone hbusy
  · exact (paces_finishWork (by omega) g).trans (paces_of_timing (timing_settleBusyBits _))
  · have hreset : Paces g (g.timed fun t => { t with cycleCount := 0 }) := fun h =>
      h.congr h.normal rfl rfl rfl
    exact hreset.trans (paces_of_timing (timing_settleBusyBits _))
  · exact .refl g

theorem paces_run (now : U64) (g : GPU3D) : Paces g (g.run now) := by
  rw [run_eq]
  refine .ite id ?_
  exact ((paces_startRun now g).trans (paces_runCommands _ _)).trans (paces_finishRun _)

/-! ## The engine -/

theorem paces_setRegisters (f : Registers → Registers) (g : GPU3D) :
    Paces g (g.setRegisters f) := id

theorem paces_ackStackError (g : GPU3D) : Paces g g.ackStackError := id

theorem paces_writeFIFOMode (bits : U32) (g : GPU3D) : Paces g (g.writeFIFOMode bits) := id

theorem paces_writeZeroDotWLimit (val : U32) (g : GPU3D) : Paces g (g.writeZeroDotWLimit val) := by
  rw [writeZeroDotWLimit]
  generalize (val &&& 0x7FFF) * 0x200 + 0x1FF = limit
  exact id

theorem paces_write8 (addr : U32) (val : U8) (g : GPU3D) : Paces g (g.write8 addr val) := by
  have hset (f : Registers → Registers) : Paces g (g.setRegisters f) := paces_setRegisters f g
  rw [write8]
  refine .ite (.refl g) (.ite (hset _) (.ite (.ite (paces_ackStackError g) (.refl g)) ?_))
  refine .ite (paces_writeFIFOMode _ g) (.ite (hset _) (.ite (hset _) ?_))
  exact .ite (hset _) (.refl g)

theorem paces_write16 (addr : U32) (val : U16) (g : GPU3D) : Paces g (g.write16 addr val) := by
  have hset (f : Registers → Registers) : Paces g (g.setRegisters f) := paces_setRegisters f g
  rw [write16]
  refine .ite (.refl g) (.ite (hset _) (.ite (hset _) (.ite (hset _) (.ite (hset _) ?_))))
  refine .ite (hset _) (.ite (hset _) (.ite (hset _) (.ite (hset _) (.ite (hset _) ?_))))
  refine .ite (.ite (paces_ackStackError g) (.refl g)) (.ite (paces_writeFIFOMode _ g) ?_)
  refine .ite (paces_writeZeroDotWLimit _ g) (.ite (hset _) (.ite (hset _) ?_))
  exact .ite (hset _) (.refl g)

theorem paces_write32 (addr val : U32) (g : GPU3D) : Paces g (g.write32 addr val) := by
  have hset (f : Registers → Registers) : Paces g (g.setRegisters f) := paces_setRegisters f g
  have hport : Paces g { g with queue := g.queue.write32 addr val } := id
  rw [write32]
  refine .ite (.refl g) (.ite (hset _) (.ite (hset _) (.ite (hset _) (.ite (hset _) ?_))))
  refine .ite (hset _) (.ite (hset _) (.ite ?_ (.ite (paces_writeZeroDotWLimit val g) ?_)))
  · exact (Paces.ite (paces_ackStackError g) (.refl g)).trans (paces_writeFIFOMode _ _)
  · exact .ite hport (.ite (hset _) (.ite (hset _) (.ite (hset _) (.refl g))))

theorem paces_snd {α : Type} {c : Prop} [Decidable c] {g : GPU3D} {x y : α × GPU3D}
    (hx : Paces g x.2) (hy : Paces g y.2) : Paces g (if c then x else y).2 := by
  split_ifs
  · exact hx
  · exact hy

theorem paces_read8 (now : U64) (addr : U32) (g : GPU3D) : Paces g (g.read8 now addr).2 := by
  have hrun := paces_run now g
  rw [read8]
  exact paces_snd hrun (paces_snd hrun (paces_snd hrun (paces_snd hrun (.refl g))))

theorem paces_read16 (now : U64) (addr : U32) (g : GPU3D) : Paces g (g.read16 now addr).2 := by
  have hrun := paces_run now g
  have hself := Paces.refl g
  rw [read16]
  refine paces_snd hself (paces_snd hself (paces_snd hrun (paces_snd hrun ?_)))
  refine paces_snd hself (paces_snd hself (paces_snd hself (paces_snd hself ?_)))
  exact paces_snd hself hself

theorem paces_read32 (now : U64) (addr : U32) (g : GPU3D) : Paces g (g.read32 now addr).2 := by
  have hself := Paces.refl g
  rw [read32]
  refine paces_snd hself (paces_snd hself (paces_snd (paces_run now g) ?_))
  refine paces_snd hself (paces_snd hself (paces_snd hself (paces_snd hself ?_)))
  refine paces_snd hself (paces_snd hself (paces_snd hself (paces_snd hself ?_)))
  refine paces_snd hself (paces_snd hself (paces_snd hself (paces_snd hself ?_)))
  refine paces_snd hself (paces_snd hself (paces_snd ?_ hself))
  exact paces_of_timing (timing_updateClipMatrix g)

theorem paces_vblank (g : GPU3D) : Paces g g.vblank := by
  rw [vblank]
  refine .ite ?_ (.refl g)
  dsimp only
  refine (Paces.ite ?_ (.refl g)).trans (.ite ?_ (.refl _))
  · exact id
  · exact id

theorem paces_setEnabled (geometry rendering : Bool) (g : GPU3D) :
    Paces g (g.setEnabled geometry rendering) := by
  rw [setEnabled]
  exact .ite id id

theorem paces_setRenderXPos (xpos mask : U16) (g : GPU3D) :
    Paces g (g.setRenderXPos xpos mask) := by
  rw [setRenderXPos]
  exact .ite (.refl g) id

theorem paces_apply (op : EngineOp) (g : GPU3D) : Paces g (op.apply g).2 := by
  cases op with
  | write8 addr val => exact paces_write8 addr val g
  | write16 addr val => exact paces_write16 addr val g
  | write32 addr val => exact paces_write32 addr val g
  | read8 now addr => exact paces_read8 now addr g
  | read16 now addr => exact paces_read16 now addr g
  | read32 now addr => exact paces_read32 now addr g
  | run now => exact paces_run now g
  | vblank => exact paces_vblank g
  | setEnabled geometry rendering => exact paces_setEnabled geometry rendering g
  | setRenderXPos xpos mask => exact paces_setRenderXPos xpos mask g

/-- What moves the pipelines: accesses to the engine, the parts of a call of `Run`, and any
command and any amount of time of its own. -/
inductive PipelineOp
  | engine (op : EngineOp)
  | startRun (now : U64)
  | execute
  | command (e : CmdFIFOEntry)
  | elapse (cycles : ℕ)

def PipelineOp.step (g : GPU3D) : PipelineOp → GPU3D
  | .engine op => (op.apply g).2
  | .startRun now => g.startRun now
  | .execute => g.settleBusyBits.executeCommand
  | .command e => executeEntry e g
  | .elapse cycles => g.finishWork cycles

def runPipelines (g : GPU3D) (ops : List PipelineOp) : GPU3D := ops.foldl PipelineOp.step g

/-- The commands of a call of `Run`, one after the other. -/
theorem runCommands_eq (rounds : ℕ) (g : GPU3D) :
    ∃ executed, runCommands rounds g = g.runPipelines (List.replicate executed .execute) := by
  induction rounds generalizing g with
  | zero => exact ⟨0, rfl⟩
  | succ rounds ih =>
    rw [runCommands]
    split_ifs
    · obtain ⟨executed, heq⟩ := ih g.settleBusyBits.executeCommand
      exact ⟨executed + 1, heq⟩
    · exact ⟨0, rfl⟩

theorem paces_step (op : PipelineOp) (g : GPU3D) : Paces g (op.step g) := by
  cases op with
  | engine op => exact paces_apply op g
  | startRun now => exact paces_startRun now g
  | execute => exact (paces_of_timing (timing_settleBusyBits g)).trans (paces_executeCommand _)
  | command e => exact paces_executeEntry e g
  | elapse cycles => exact paces_finishWork (Int.natCast_nonneg cycles) g

theorem paces_runPipelines (ops : List PipelineOp) (g : GPU3D) : Paces g (g.runPipelines ops) := by
  induction ops generalizing g with
  | nil => exact .refl g
  | cons op ops ih => exact (paces_step op g).trans (ih _)

theorem paced_initial : initial.timing.Paced :=
  Timing.paced_emptyPolygonPipeline (t := initial.timing) le_rfl

end GPU3D
end MelonDS
