import MelonDS.GPU3D.Banks

/-!
# The banks over a run

Of all commands only those that submit a vertex can touch the banks, and they do so by adding
one polygon. The swap at VBlank turns what was built into what is rendered.
-/

namespace MelonDS
namespace GPU3D

/-! ## Submitting a polygon -/

theorem nverts_clipAgainstPlane (attribs : Bool) (attr : U32) (clipstart : ℕ) (comp : Fin 3)
    (r : ClipResult) (h : comp ≠ 2) :
    clipstart ≤ (ClipResult.clipAgainstPlane attribs attr clipstart comp r).array.nverts := by
  have hrej : ClipResult.rejected attr comp clipstart r.array = false := by
    rw [ClipResult.rejected, decide_eq_false h, Bool.false_and, Bool.false_and]
  rw [ClipResult.clipAgainstPlane, hrej]
  exact Nat.le_add_right _ _

/-- The reused vertices survive clipping. -/
theorem le_nverts_clipPolygon (attribs : Bool) (attr : U32) {clipstart : ℕ} {s : VertexArray}
    (h : clipstart ≤ s.nverts) :
    clipstart ≤ (ClipResult.clipPolygon attribs attr clipstart s).array.nverts := by
  rw [ClipResult.clipPolygon]
  split_ifs
  · exact h
  · exact nverts_clipAgainstPlane attribs attr clipstart 0 _ (by decide)

theorem length_clippedVertices (g : GPU3D) (h : g.polygonAttachment.isSome = true) :
    2 ≤ g.clippedVertices.length := by
  have hstart : clipstart g.polygonAttachment = 2 := if_pos h
  rw [clippedVertices]
  dsimp only
  rw [List.length_map, List.length_range, hstart]
  refine le_nverts_clipPolygon true _ ?_
  change 2 ≤ g.polygonVertices
  rw [polygonVertices]
  split_ifs <;> decide

theorem sharedVertices_lt (mode numConsecutivePolygons : U32) :
    (sharedVertices mode numConsecutivePolygons).1 <
        (sharedVertices mode numConsecutivePolygons).2.2 ∧
      (sharedVertices mode numConsecutivePolygons).2.1 <
        (sharedVertices mode numConsecutivePolygons).2.2 := by
  rw [sharedVertices]
  split_ifs <;> decide

theorem attachment_eq_some {mode numConsecutivePolygons : U32} {s : Scene} {a : Attachment}
    (h : attachment mode numConsecutivePolygons s = some a) :
    ∃ k, s.lastStripPolygon = some k ∧ ∃ i < (s.polygonRAM k).numVertices,
      ∃ j < (s.polygonRAM k).numVertices,
        a.first = (s.polygonRAM k).vertices i ∧ a.second = (s.polygonRAM k).vertices j := by
  rw [attachment] at h
  cases hk : s.lastStripPolygon with
  | none =>
    rw [hk] at h
    cases h
  | some k =>
    rw [hk] at h
    dsimp only at h
    split_ifs at h with hcond
    obtain ⟨-, hcount, -⟩ := hcond
    obtain ⟨hi, hj⟩ := sharedVertices_lt mode numConsecutivePolygons
    rw [← hcount] at hi hj
    obtain rfl := Option.some.inj h
    exact ⟨k, rfl, _, hi, _, hj, rfl, rfl⟩

/-- The polygon a strip continues, when one is continued, lies in the bank being filled. -/
def ContinuesBank (g : GPU3D) : Prop :=
  ∀ k ∈ g.scene.lastStripPolygon, g.polygonAttachment.isSome = true →
    InPolygonBank g.scene.curRAMBank k

instance (g : GPU3D) : Decidable g.ContinuesBank := by
  unfold ContinuesBank
  infer_instance

theorem attachedTo_of_continues {g : GPU3D} (hs : g.scene.Sound) (hc : g.ContinuesBank)
    {p : Accepted} (hp : p.attached = g.polygonAttachment) :
    p.AttachedTo g.scene.curRAMBank := by
  intro a ha
  have hatt : g.polygonAttachment = some a := hp.symm.trans ha
  obtain ⟨k, hk, i, hi, j, hj, hfirst, hsecond⟩ := attachment_eq_some hatt
  have hbank := hc k hk (by rw [hatt]; rfl)
  have hrecord := hs.records _ k hbank
  rw [hfirst, hsecond]
  exact ⟨hrecord i hi, hrecord j hj⟩

/-- What one command can do to the scene; a polygon is added only where one is completed. -/
inductive SceneStep (g : GPU3D) (completed : Bool) : Scene → Prop
  | same : SceneStep g completed g.scene
  | marks (last : Option ℕ) (request : Bool) (flushAttributes : U32) :
    SceneStep g completed
      { g.scene with
        lastStripPolygon := last, flushRequest := request, flushAttributes := flushAttributes }
  | add (hcompleted : completed = true) (attrs : Attributes) (p : Accepted)
    (hattached : p.attached = g.polygonAttachment) (hcomplete : p.Complete)
    (hfit : full g.scene p.vertices.length = false) : SceneStep g completed (g.scene.add attrs p)

/-- The latched registers and the power bits, which commands neither read nor change. -/
structure RenderingState where
  render : RenderRegisters
  renderFrameIdentical : Bool
  geometryEnabled : Bool
  renderingEnabled : Bool

def renderingState (g : GPU3D) : RenderingState where
  render := g.render
  renderFrameIdentical := g.renderFrameIdentical
  geometryEnabled := g.geometryEnabled
  renderingEnabled := g.renderingEnabled

/-- The scene changes as `SceneStep` says, and the rendering engine stays as it is. -/
structure Stepped (g : GPU3D) (completed : Bool) (g' : GPU3D) : Prop where
  scene : SceneStep g completed g'.scene
  rendering : g'.renderingState = g.renderingState

/-- `h` is `g` as far as attaching a polygon goes. -/
structure SameStrip (g h : GPU3D) : Prop where
  scene : h.scene = g.scene
  mode : h.attributes.polygonMode = g.attributes.polygonMode
  consecutive : h.assembly.numConsecutivePolygons = g.assembly.numConsecutivePolygons
  rendering : h.renderingState = g.renderingState

theorem SameStrip.attachment {g h : GPU3D} (hsame : SameStrip g h) :
    h.polygonAttachment = g.polygonAttachment := by
  rw [polygonAttachment, polygonAttachment, hsame.scene, hsame.mode, hsame.consecutive]

/-- A step between changes that do not matter for it. -/
theorem Stepped.around {g h : GPU3D} {completed : Bool} {g' g'' : GPU3D}
    (hstep : Stepped h completed g') (hscene : g''.scene = g'.scene)
    (hrendering : g''.renderingState = g'.renderingState) (hsame : SameStrip g h) :
    Stepped g completed g'' where
  scene := by
    rw [hscene]
    have hs := hstep.scene
    generalize g'.scene = t at hs
    cases hs with
    | same => rw [hsame.scene]; exact .same
    | marks last request flushAttributes =>
      rw [hsame.scene]
      exact .marks last request flushAttributes
    | add hcompleted attrs p hatt hcomplete hfit =>
      rw [hsame.scene] at hfit ⊢
      exact .add hcompleted attrs p (hatt.trans hsame.attachment) hcomplete hfit
  rendering := hrendering.trans (hstep.rendering.trans hsame.rendering)

theorem stepped_same (g : GPU3D) (completed : Bool) {g' : GPU3D} (hscene : g'.scene = g.scene)
    (hrendering : g'.renderingState = g.renderingState) : Stepped g completed g' :=
  ⟨by rw [hscene]; exact .same, hrendering⟩

theorem stepped_dropPolygon (g : GPU3D) : Stepped g true g.dropPolygon :=
  ⟨.marks none g.scene.flushRequest g.scene.flushAttributes, rfl⟩

theorem stepped_submitPolygon (g : GPU3D) : Stepped g true g.submitPolygon := by
  rw [submitPolygon]
  dsimp only
  split_ifs with hculled hempty hfull hzero
  · exact ⟨(stepped_dropPolygon g).scene, rfl⟩
  · exact ⟨(stepped_dropPolygon g).scene, rfl⟩
  · exact ⟨(stepped_dropPolygon g).scene, rfl⟩
  · exact ⟨(stepped_dropPolygon g).scene, rfl⟩
  all_goals
    exact
      { scene := .add rfl g.attributes
          { attached := g.polygonAttachment
            facingView := _
            type := _
            vertices := g.clippedVertices }
          rfl (length_clippedVertices g) (Bool.eq_false_iff.mpr hfull)
        rendering := rfl }

theorem stepped_submitAndKeep (keep : ℕ) (g : GPU3D) : Stepped g true (g.submitAndKeep keep) := by
  rw [submitAndKeep]
  exact Stepped.around (stepped_submitPolygon _) rfl rfl ⟨rfl, rfl, rfl, rfl⟩

/-- The buffer may be rearranged afterwards. -/
theorem Stepped.setTemp {g g' : GPU3D} {completed : Bool} (hstep : Stepped g completed g')
    (after : (Fin 4 → StoredVertex) → Fin 4 → StoredVertex) :
    Stepped g completed (g'.setTemp after) :=
  ⟨hstep.scene, hstep.rendering⟩

theorem sameStrip_setTemp (before : (Fin 4 → StoredVertex) → Fin 4 → StoredVertex) (g : GPU3D) :
    SameStrip g (g.setTemp before) := ⟨rfl, rfl, rfl, rfl⟩

theorem stepped_rearranged (before : (Fin 4 → StoredVertex) → Fin 4 → StoredVertex)
    (keep : ℕ) (g : GPU3D) : Stepped g true ((g.setTemp before).submitAndKeep keep) :=
  Stepped.around (stepped_submitAndKeep keep (g.setTemp before)) (Eq.refl _) (Eq.refl _)
    (sameStrip_setTemp before g)

/-- Whether one more vertex makes `vertexNumInPoly` vertices a polygon. -/
def completes (mode numConsecutivePolygons : U32) (vertexNumInPoly : ℕ) : Bool :=
  match mode.toNat with
  | 0 => vertexNumInPoly = 3
  | 1 => vertexNumInPoly = 4
  | 2 => numConsecutivePolygons &&& 1 ≠ 0 || vertexNumInPoly = 3
  | 3 => vertexNumInPoly = 4
  | _ => false

theorem stepped_completePolygon (g : GPU3D) :
    Stepped g
      (completes g.attributes.polygonMode g.assembly.numConsecutivePolygons
        g.assembly.vertexNumInPoly) g.completePolygon := by
  rw [completePolygon, completes]
  generalize g.attributes.polygonMode.toNat = mode
  rcases mode with _ | _ | _ | _ | mode
  · change Stepped g (decide (g.assembly.vertexNumInPoly = 3)) (ite _ _ _)
    split_ifs with h
    · rw [decide_eq_true h]
      exact stepped_submitAndKeep 0 g
    · exact stepped_same g _ rfl rfl
  · change Stepped g (decide (g.assembly.vertexNumInPoly = 4)) (ite _ _ _)
    split_ifs with h
    · rw [decide_eq_true h]
      exact stepped_submitAndKeep 0 g
    · exact stepped_same g _ rfl rfl
  · change Stepped g
      (decide (g.assembly.numConsecutivePolygons &&& 1 ≠ 0) ||
        decide (g.assembly.vertexNumInPoly = 3)) (ite _ _ (ite _ _ _))
    split_ifs with hodd h
    · rw [decide_eq_true hodd, Bool.true_or]
      exact (stepped_rearranged _ 2 g).setTemp _
    · rw [decide_eq_true h, Bool.or_true]
      exact (stepped_submitAndKeep 2 g).setTemp _
    · exact stepped_same g _ rfl rfl
  · change Stepped g (decide (g.assembly.vertexNumInPoly = 4)) (ite _ _ _)
    split_ifs with h
    · rw [decide_eq_true h]
      exact (stepped_rearranged _ 2 g).setTemp _
    · exact stepped_same g _ rfl rfl
  · exact stepped_same g _ rfl rfl

/-- A vertex that is submitted completes a polygon. -/
def completesPolygon (g : GPU3D) : Bool :=
  completes g.attributes.polygonMode g.assembly.numConsecutivePolygons
    (g.assembly.vertexNumInPoly + 1)

theorem sameStrip_placeVertex (g : GPU3D) : SameStrip g g.placeVertex := by
  rw [placeVertex, updateClipMatrix]
  split_ifs <;> exact ⟨rfl, rfl, rfl, rfl⟩

theorem vertexNumInPoly_placeVertex (g : GPU3D) :
    g.placeVertex.assembly.vertexNumInPoly = g.assembly.vertexNumInPoly + 1 := by
  rw [placeVertex, updateClipMatrix]
  split_ifs <;> rfl

theorem stepped_submitVertex (g : GPU3D) : Stepped g g.completesPolygon g.submitVertex := by
  have hsame := sameStrip_placeVertex g
  have h := stepped_completePolygon g.placeVertex
  rw [hsame.mode, hsame.consecutive, vertexNumInPoly_placeVertex] at h
  exact Stepped.around h rfl rfl hsame

theorem stepped_vertexCommand (f : (Fin 3 → S16) → Fin 3 → S16) (g : GPU3D) :
    Stepped g g.completesPolygon (g.vertexCommand f) :=
  Stepped.around
    (stepped_submitVertex ((g.timed .vertexPipelineSubmitCmd).setAttributes fun a =>
      { a with curVertex := f a.curVertex }))
    rfl rfl ⟨rfl, rfl, rfl, rfl⟩

/-! ## The other commands -/

/-- The scene and the rendering engine stay as they are. -/
def Keeps (g g' : GPU3D) : Prop := g'.scene = g.scene ∧ g'.renderingState = g.renderingState

theorem Keeps.trans {g g' g'' : GPU3D} (h : Keeps g g') (h' : Keeps g' g'') : Keeps g g'' :=
  ⟨h'.1.trans h.1, h'.2.trans h.2⟩

theorem keeps_timed (f : Timing → Timing) (g : GPU3D) : Keeps g (g.timed f) := ⟨rfl, rfl⟩
theorem keeps_addCycles (num : ℤ) (g : GPU3D) : Keeps g (g.addCycles num) := ⟨rfl, rfl⟩
theorem keeps_setStat (f : U32 → U32) (g : GPU3D) : Keeps g (g.setStat f) := ⟨rfl, rfl⟩
theorem keeps_notePushPop (g : GPU3D) : Keeps g g.notePushPop := ⟨rfl, rfl⟩
theorem keeps_noteTests (n : U32) (g : GPU3D) : Keeps g (g.noteTests n) := ⟨rfl, rfl⟩

theorem keeps_setMatrices (f : Matrices → Matrices) (g : GPU3D) : Keeps g (g.setMatrices f) :=
  ⟨rfl, rfl⟩

theorem keeps_setAttributes (f : Attributes → Attributes) (g : GPU3D) :
    Keeps g (g.setAttributes f) := ⟨rfl, rfl⟩

theorem keeps_setLighting (f : Lighting → Lighting) (g : GPU3D) : Keeps g (g.setLighting f) :=
  ⟨rfl, rfl⟩

/-- A change of matrices that asks for a new clip matrix, and its cycles. -/
theorem keeps_dirty (num : ℤ) (g : GPU3D) : Keeps g (g.dirtyClipMatrix.addCycles num) := ⟨rfl, rfl⟩

theorem keeps_noteStackError (error : Bool) (g : GPU3D) : Keeps g (g.noteStackError error) := by
  rw [noteStackError]
  split_ifs
  · exact keeps_setStat _ g
  · exact ⟨rfl, rfl⟩

theorem keeps_updateClipMatrix (g : GPU3D) : Keeps g g.updateClipMatrix := by
  rw [updateClipMatrix]
  split_ifs <;> exact ⟨rfl, rfl⟩

/-- A matrix stack operation: a check of the pointer, then a change of the matrices. -/
theorem keeps_stack (error : Bool) (f : Matrices → Matrices) (g : GPU3D) :
    Keeps g ((g.noteStackError error).setMatrices f) :=
  (keeps_noteStackError error g).trans (keeps_setMatrices f _)

theorem keeps_pushMatrix (g : GPU3D) : Keeps g g.pushMatrix := by
  have hstart : Keeps g (g.timed .vertexPipelineCmdDelayed4).notePushPop :=
    (keeps_timed _ g).trans (keeps_notePushPop _)
  rw [pushMatrix]
  refine (hstart.trans ?_).trans (keeps_addCycles 16 _)
  split_ifs
  · exact keeps_stack _ _ _
  · exact keeps_stack _ _ _
  · exact keeps_stack _ _ _

theorem keeps_popMatrix (param : U32) (g : GPU3D) : Keeps g (g.popMatrix param) := by
  have hstart : Keeps g (g.timed .vertexPipelineCmdDelayed4).notePushPop :=
    (keeps_timed _ g).trans (keeps_notePushPop _)
  rw [popMatrix]
  refine hstart.trans ?_
  dsimp only
  split_ifs
  · exact (keeps_stack _ _ _).trans (keeps_dirty 35 _)
  · exact (keeps_stack _ _ _).trans (keeps_addCycles 17 _)
  · exact (keeps_stack _ _ _).trans (keeps_dirty 35 _)

theorem keeps_storeMatrix (param : U32) (g : GPU3D) : Keeps g (g.storeMatrix param) := by
  rw [storeMatrix]
  refine ((keeps_timed .vertexPipelineCmdDelayed4 g).trans ?_).trans (keeps_addCycles 16 _)
  split_ifs
  · exact keeps_setMatrices _ _
  · exact keeps_setMatrices _ _
  · exact keeps_stack _ _ _

theorem keeps_restoreMatrix (param : U32) (g : GPU3D) : Keeps g (g.restoreMatrix param) := by
  rw [restoreMatrix]
  refine (keeps_timed .vertexPipelineCmdDelayed4 g).trans ?_
  dsimp only
  split_ifs
  · exact (keeps_setMatrices _ _).trans (keeps_dirty 35 _)
  · exact (keeps_setMatrices _ _).trans (keeps_addCycles 17 _)
  · exact (keeps_stack _ _ _).trans (keeps_dirty 35 _)

theorem keeps_identityMatrix (g : GPU3D) : Keeps g g.identityMatrix := by
  rw [identityMatrix]
  refine (keeps_timed .vertexPipelineCmdDelayed4 g).trans ?_
  dsimp only
  split_ifs
  · exact (keeps_setMatrices _ _).trans (keeps_dirty 18 _)
  · exact keeps_setMatrices _ _
  · exact (keeps_setMatrices _ _).trans (keeps_dirty 18 _)

theorem keeps_changeMatrix (f : Matrix → Matrix) (vec : Bool) (cycles : MatrixCycles) (g : GPU3D) :
    Keeps g (g.changeMatrix f vec cycles) := by
  rw [changeMatrix]
  dsimp only
  split_ifs
  · exact (keeps_setMatrices _ g).trans (keeps_dirty _ _)
  · exact (keeps_setMatrices _ g).trans (keeps_addCycles _ _)
  · exact (keeps_setMatrices _ g).trans (keeps_dirty _ _)
  · exact (keeps_setMatrices _ g).trans (keeps_dirty _ _)

theorem keeps_diffuseAmbient (param : U32) (g : GPU3D) : Keeps g (g.diffuseAmbient param) := by
  rw [diffuseAmbient]
  refine Keeps.trans ?_ (keeps_addCycles 3 _)
  refine (keeps_timed .vertexPipelineCmdDelayed6 g).trans ?_
  refine (keeps_setLighting (fun l =>
    { l with matDiffuse := field5 param 0, matAmbient := field5 param 16 }) _).trans ?_
  split_ifs
  · exact keeps_setAttributes _ _
  · exact ⟨rfl, rfl⟩

theorem keeps_boxTest (params : ℕ → U32) (g : GPU3D) : Keeps g (g.boxTest params) := by
  have hstart : Keeps g ((g.addCycles 254).setStat (· &&& ~~~bit 32 1)).updateClipMatrix :=
    ((keeps_addCycles 254 g).trans (keeps_setStat _ _)).trans (keeps_updateClipMatrix _)
  rw [boxTest]
  refine hstart.trans ?_
  dsimp only
  split_ifs
  · exact keeps_setStat _ _
  · exact ⟨rfl, rfl⟩

theorem keeps_posTest (g : GPU3D) : Keeps g g.posTest := by
  rw [posTest]
  exact (keeps_updateClipMatrix g).trans ⟨rfl, rfl⟩

theorem Keeps.stepped {g g' : GPU3D} (h : Keeps g g') (completed : Bool) :
    Stepped g completed g' := stepped_same g completed h.1 h.2

/-- The entry submits a vertex. -/
def submitsVertex (e : CmdFIFOEntry) (g : GPU3D) : Bool :=
  match e.command.toNat with
  | 0x23 => g.execParamCount ≥ 1
  | 0x24 => true
  | 0x25 => true
  | 0x26 => true
  | 0x27 => true
  | 0x28 => true
  | _ => false

/-- The entry submits a vertex that completes a polygon. -/
def submitsPolygon (e : CmdFIFOEntry) (g : GPU3D) : Bool := submitsVertex e g && g.completesPolygon

theorem stepped_beginPolygons (param : U32) (g : GPU3D) (completed : Bool) :
    Stepped g completed (g.beginPolygons param) :=
  ⟨.marks none g.scene.flushRequest g.scene.flushAttributes, rfl⟩

theorem stepped_flush (param : U32) (g : GPU3D) (completed : Bool) :
    Stepped g completed (g.flush param) :=
  ⟨.marks g.scene.lastStripPolygon true (param &&& 0x3), rfl⟩

theorem submitsPolygon_of_vertex {e : CmdFIFOEntry} {g : GPU3D} (h : submitsVertex e g = true) :
    submitsPolygon e g = g.completesPolygon := by
  rw [submitsPolygon, h, Bool.true_and]

theorem keeps_texCoordCommand (param : U32) (g : GPU3D) : Keeps g (g.texCoordCommand param) := by
  rw [texCoordCommand]
  exact (keeps_timed _ g).trans (keeps_setAttributes _ _)

theorem keeps_calculateLighting (g : GPU3D) : Keeps g g.calculateLighting := by
  rw [calculateLighting]
  exact ⟨rfl, rfl⟩

theorem keeps_vecTest (param : U32) (g : GPU3D) : Keeps g (g.vecTest param) := by
  rw [vecTest]
  exact ⟨rfl, rfl⟩

theorem keeps_setLightDirection (param : U32) (g : GPU3D) : Keeps g (g.setLightDirection param) := by
  rw [setLightDirection]
  exact ⟨rfl, rfl⟩

theorem stepped_singleVertex (f : (Fin 3 → S16) → Fin 3 → S16) {e : CmdFIFOEntry} {g : GPU3D}
    (h : submitsVertex e g = true) : Stepped g (submitsPolygon e g) (g.vertexCommand f) := by
  rw [submitsPolygon_of_vertex h]
  exact stepped_vertexCommand f g

theorem stepped_singleCommand (e : CmdFIFOEntry) (g : GPU3D) :
    Stepped g (submitsPolygon e g) (g.singleCommand e.command e.param) := by
  have hvertex (h : e.command.toNat ∈ [0x24, 0x25, 0x26, 0x27, 0x28]) :
      submitsVertex e g = true := by
    simp only [List.mem_cons, List.not_mem_nil, or_false] at h
    rw [submitsVertex]
    rcases h with h | h | h | h | h <;> rw [h] <;> rfl
  rw [singleCommand]
  split <;> rename_i hcommand
  · exact ((keeps_timed _ g).trans (keeps_setMatrices _ _)).stepped _
  · exact (keeps_pushMatrix g).stepped _
  · exact (keeps_popMatrix _ g).stepped _
  · exact (keeps_storeMatrix _ g).stepped _
  · exact (keeps_restoreMatrix _ g).stepped _
  · exact (keeps_identityMatrix g).stepped _
  · exact ((keeps_timed _ g).trans (keeps_setAttributes _ _)).stepped _
  · exact (((keeps_timed _ g).trans (keeps_setAttributes _ _)).trans
      (keeps_calculateLighting _)).stepped _
  · exact (keeps_texCoordCommand _ g).stepped _
  · exact stepped_singleVertex _ (hvertex (by simp [hcommand]))
  · exact stepped_singleVertex _ (hvertex (by simp [hcommand]))
  · exact stepped_singleVertex _ (hvertex (by simp [hcommand]))
  · exact stepped_singleVertex _ (hvertex (by simp [hcommand]))
  · exact stepped_singleVertex _ (hvertex (by simp [hcommand]))
  · exact ((keeps_timed _ g).trans (keeps_setAttributes _ _)).stepped _
  · exact ((keeps_timed _ g).trans (keeps_setAttributes _ _)).stepped _
  · exact ((keeps_timed _ g).trans (keeps_setAttributes _ _)).stepped _
  · exact (keeps_diffuseAmbient _ g).stepped _
  · exact (((keeps_timed _ g).trans (keeps_setLighting _ _)).trans (keeps_addCycles _ _)).stepped _
  · exact (((keeps_timed _ g).trans (keeps_setLightDirection _ _)).trans
      (keeps_addCycles _ _)).stepped _
  · exact (((keeps_timed _ g).trans (keeps_setLighting _ _)).trans (keeps_addCycles _ _)).stepped _
  · exact stepped_beginPolygons _ g _
  · exact (keeps_timed _ g).stepped _
  · exact stepped_flush _ g _
  · exact ((keeps_timed _ g).trans (keeps_setAttributes _ _)).stepped _
  · exact (((keeps_timed _ g).trans (keeps_noteTests _ _)).trans (keeps_vecTest _ _)).stepped _
  · exact (keeps_timed _ g).stepped _

theorem stepped_multiCommand {command : U8} (params : ℕ → U32) {g : GPU3D} {completed : Bool}
    (h : command.toNat = 0x23 → completed = g.completesPolygon) :
    Stepped g completed (g.multiCommand command params) := by
  rw [multiCommand]
  split <;> rename_i hcommand
  · exact (keeps_changeMatrix _ _ _ g).stepped _
  · exact (keeps_changeMatrix _ _ _ g).stepped _
  · exact (keeps_changeMatrix _ _ _ g).stepped _
  · exact (keeps_changeMatrix _ _ _ g).stepped _
  · exact (keeps_changeMatrix _ _ _ g).stepped _
  · exact (keeps_changeMatrix _ _ _ g).stepped _
  · exact (keeps_changeMatrix _ _ _ g).stepped _
  · rw [h hcommand]
    exact Stepped.around
      (stepped_submitVertex (g.setAttributes fun a => { a with curVertex := fullVertex params }))
      (Eq.refl _) (Eq.refl _) ⟨rfl, rfl, rfl, rfl⟩
  · exact (keeps_setLighting _ g).stepped _
  · exact (((keeps_noteTests 2 g).trans (keeps_setAttributes _ _)).trans
      (keeps_posTest _)).stepped _
  · exact ((keeps_noteTests 3 g).trans (keeps_boxTest _ _)).stepped _
  · exact stepped_same g _ rfl rfl

theorem stepped_executeEntry (e : CmdFIFOEntry) (g : GPU3D) :
    Stepped g (submitsPolygon e g) (executeEntry e g) := by
  rw [executeEntry]
  split_ifs with hsingle
  · exact stepped_singleCommand e g
  · dsimp only
    split_ifs with hfirst hready
    · exact stepped_same g _ rfl rfl
    · refine Stepped.around (stepped_multiCommand _ ?_) (Eq.refl _) (Eq.refl _)
        ⟨rfl, rfl, rfl, rfl⟩
      intro hcommand
      refine (submitsPolygon_of_vertex ?_).trans rfl
      rw [submitsVertex, hcommand]
      exact decide_eq_true (by omega)
    · exact stepped_same g _ rfl rfl

end GPU3D
end MelonDS
