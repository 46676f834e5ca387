import MelonDS.GPU3D.Alike

/-!
# Commands keep engines alike

One lemma for each command, from the lemmas on the changes it is made of.
-/

namespace MelonDS
namespace GPU3D

/-! ## Polygons and vertices -/

theorem patch_ite {c : Prop} [Decidable c] (x y : GPU3D) (p : Patch) :
    (if c then x else y).patch p = if c then x.patch p else y.patch p :=
  apply_ite (fun g => GPU3D.patch g p) c x y

theorem patch_submitPolygon (g : GPU3D) (p : Patch) :
    (g.patch p).submitPolygon = g.submitPolygon.patch p := by
  have hvs : ((g.patch p).timed (reservePipeline 8 0b11110)).clippedVertices =
      (g.timed (reservePipeline 8 0b11110)).clippedVertices := Eq.refl _
  rw [submitPolygon, submitPolygon]
  dsimp only
  rw [hvs, patch_ite, patch_ite, patch_ite, patch_ite]
  generalize (g.timed (reservePipeline 8 0b11110)).clippedVertices = vs
  refine if_congr Iff.rfl (Eq.refl _) ?_
  refine if_congr Iff.rfl (Eq.refl _) ?_
  refine if_congr Iff.rfl (Eq.refl _) ?_
  refine if_congr Iff.rfl (Eq.refl _) ?_
  exact Eq.refl _

/-- What a polygon leaves alone. -/
structure SameMatrices (g g' : GPU3D) : Prop where
  queue : g'.queue = g.queue
  derived : g'.derived = g.derived
  matrices : g'.matrices = g.matrices

theorem SameMatrices.ite {c : Prop} [Decidable c] {g x y : GPU3D} (hx : SameMatrices g x)
    (hy : SameMatrices g y) : SameMatrices g (if c then x else y) := by
  split_ifs
  · exact hx
  · exact hy

theorem sameMatrices_submitPolygon (g : GPU3D) : SameMatrices g g.submitPolygon := by
  rw [submitPolygon]
  dsimp only
  refine .ite ⟨rfl, rfl, rfl⟩ ?_
  refine .ite ⟨rfl, rfl, rfl⟩ ?_
  refine .ite ⟨rfl, rfl, rfl⟩ ?_
  exact .ite ⟨rfl, rfl, rfl⟩ ⟨rfl, rfl, rfl⟩

/-- The assembly after `placeVertex`, once the clip matrix is computed. -/
def placedVertex (g : GPU3D) : Assembly :=
  let slot := Fin.ofNat 4 g.assembly.vertexNumInPoly
  { g.assembly with
    tempVertexBuffer :=
      Function.update g.assembly.tempVertexBuffer slot
        { g.assembly.tempVertexBuffer slot with
          position := clipPosition g.derived.clipMatrix g.attributes.curVertex
          color := fun i => ((g.attributes.vertexColor i).setWidth 32 <<< 12) + 0xFFF
          texCoords := vertexTexCoords g.attributes g.matrices.texMatrix
          clipped := false }
    vertexNum := g.assembly.vertexNum + 1
    vertexNumInPoly := g.assembly.vertexNumInPoly + 1 }

theorem placeVertex_eq (g : GPU3D) :
    g.placeVertex = { g.updateClipMatrix with assembly := g.updateClipMatrix.placedVertex } := rfl

/-- A face of the box is seen. -/
def boxVisible (clip : Matrix) (attr : U32) (params : ℕ → U32) : Bool :=
  let lo (i : ℕ) : S16 := (params i).setWidth 16
  let hi (i : ℕ) : S16 := (params i >>> 16).setWidth 16
  let corner := boxCorner ![lo 0, hi 1 + lo 0] ![hi 0, lo 2 + hi 0] ![lo 1, hi 2 + lo 1]
  boxFaces.any fun face =>
    0 < (ClipResult.clipPolygon false attr 0
      ⟨fun i => { zeroVertex with position := clipPosition clip (corner (face (Fin.ofNat 4 i))) },
        4⟩).array.nverts

theorem boxTest_eq (params : ℕ → U32) (g : GPU3D) :
    g.boxTest params =
      let g := ((g.addCycles 254).setStat (· &&& ~~~bit 32 1)).updateClipMatrix
      if boxVisible g.derived.clipMatrix g.attributes.curPolygonAttr params then
        g.setStat (· ||| bit 32 1)
      else g := rfl

namespace Alike
variable {g g' : GPU3D}

theorem submitPolygon (h : g.Alike g') : g.submitPolygon.Alike g'.submitPolygon :=
  h.commute (patch_submitPolygon g) (sameMatrices_submitPolygon g).queue
    (sameMatrices_submitPolygon g).derived (sameMatrices_submitPolygon g).matrices

theorem submitAndKeep (h : g.Alike g') (keep : ℕ) :
    (g.submitAndKeep keep).Alike (g'.submitAndKeep keep) :=
  ((h.setAssembly fun a => { a with vertexNumInPoly := keep }).submitPolygon).setAssembly
    fun a => { a with numConsecutivePolygons := a.numConsecutivePolygons + 1 }

theorem setTemp (h : g.Alike g') (temp : (Fin 4 → StoredVertex) → Fin 4 → StoredVertex) :
    (g.setTemp temp).Alike (g'.setTemp temp) :=
  h.setAssembly fun a => { a with tempVertexBuffer := temp a.tempVertexBuffer }

theorem assembly (h : g.Alike g') : g'.assembly = g.assembly := by
  obtain ⟨p, -, rfl⟩ := h
  rfl

theorem completePolygon (h : g.Alike g') : g.completePolygon.Alike g'.completePolygon := by
  rw [GPU3D.completePolygon, GPU3D.completePolygon, h.attributes, h.assembly]
  split
  · exact ite (h.submitAndKeep 0) h
  · exact ite (h.submitAndKeep 0) h
  · exact ite (((h.setTemp _).submitAndKeep 2).setTemp _)
      (ite ((h.submitAndKeep 2).setTemp _) h)
  · exact ite (((h.setTemp _).submitAndKeep 2).setTemp _) h
  · exact h

theorem placeVertex (h : g.Alike g') : g.placeVertex.Alike g'.placeVertex := by
  obtain ⟨hupdated, hclip⟩ := h.updateClipMatrix
  have hplaced : g'.updateClipMatrix.placedVertex = g.updateClipMatrix.placedVertex := by
    rw [placedVertex, placedVertex, hclip, hupdated.attributes, hupdated.matrices,
      hupdated.assembly]
  rw [placeVertex_eq, placeVertex_eq, hplaced]
  exact hupdated.putAssembly _

theorem submitVertex (h : g.Alike g') : g.submitVertex.Alike g'.submitVertex :=
  h.placeVertex.completePolygon.timed _

theorem vertexCommand (h : g.Alike g') (f : (Fin 3 → S16) → Fin 3 → S16) :
    (g.vertexCommand f).Alike (g'.vertexCommand f) :=
  ((h.timed _).setAttributes _).submitVertex

/-! ## Matrices -/

theorem pushMatrix (h : g.Alike g') : g.pushMatrix.Alike g'.pushMatrix := by
  have hstart := (h.timed .vertexPipelineCmdDelayed4).notePushPop
  rw [GPU3D.pushMatrix, GPU3D.pushMatrix]
  dsimp only
  rw [hstart.matrices]
  refine addCycles (ite ?_ (ite ?_ ?_)) 16
  · exact (hstart.noteStackError _).setMatrices fun _ => ⟨rfl, rfl⟩
  · exact (hstart.noteStackError _).setMatrices fun _ => ⟨rfl, rfl⟩
  · exact (hstart.noteStackError _).setMatrices fun _ => ⟨rfl, rfl⟩

theorem popMatrix (h : g.Alike g') (param : U32) :
    (g.popMatrix param).Alike (g'.popMatrix param) := by
  have hstart := (h.timed .vertexPipelineCmdDelayed4).notePushPop
  rw [GPU3D.popMatrix, GPU3D.popMatrix]
  dsimp only
  rw [hstart.matrices]
  refine ite ?_ (ite ?_ ?_)
  · exact (hstart.noteStackError _).dirty _ 35
  · refine ((hstart.noteStackError _).setMatrices ?_).addCycles 17
    exact fun _ => ⟨rfl, rfl⟩
  · exact (hstart.noteStackError _).dirty _ 35

theorem storeMatrix (h : g.Alike g') (param : U32) :
    (g.storeMatrix param).Alike (g'.storeMatrix param) := by
  have hstart := h.timed .vertexPipelineCmdDelayed4
  rw [GPU3D.storeMatrix, GPU3D.storeMatrix]
  rw [hstart.matrices]
  refine addCycles (ite ?_ (ite ?_ ?_)) 16
  · exact hstart.setMatrices fun _ => ⟨rfl, rfl⟩
  · exact hstart.setMatrices fun _ => ⟨rfl, rfl⟩
  · exact (hstart.noteStackError _).setMatrices fun _ => ⟨rfl, rfl⟩

theorem restoreMatrix (h : g.Alike g') (param : U32) :
    (g.restoreMatrix param).Alike (g'.restoreMatrix param) := by
  have hstart := h.timed .vertexPipelineCmdDelayed4
  rw [GPU3D.restoreMatrix, GPU3D.restoreMatrix]
  dsimp only
  rw [hstart.matrices]
  refine ite ?_ (ite ?_ ?_)
  · exact hstart.dirty _ 35
  · refine (hstart.setMatrices ?_).addCycles 17
    exact fun _ => ⟨rfl, rfl⟩
  · exact (hstart.noteStackError _).dirty _ 35

theorem identityMatrix (h : g.Alike g') : g.identityMatrix.Alike g'.identityMatrix := by
  have hstart := h.timed .vertexPipelineCmdDelayed4
  rw [GPU3D.identityMatrix, GPU3D.identityMatrix]
  dsimp only
  rw [hstart.matrices]
  refine ite ?_ (ite ?_ ?_)
  · exact hstart.dirty _ 18
  · exact hstart.setMatrices fun _ => ⟨rfl, rfl⟩
  · exact hstart.dirty _ 18

theorem changeMatrix (h : g.Alike g') (f : Matrix → Matrix) (vec : Bool) (cycles : MatrixCycles) :
    (g.changeMatrix f vec cycles).Alike (g'.changeMatrix f vec cycles) := by
  rw [GPU3D.changeMatrix, GPU3D.changeMatrix]
  dsimp only
  rw [h.matrices]
  refine ite ?_ (ite ?_ (ite ?_ ?_))
  · exact h.dirty _ _
  · refine (h.setMatrices ?_).addCycles _
    exact fun _ => ⟨rfl, rfl⟩
  · exact h.dirty _ _
  · exact h.dirty _ _

/-! ## The other commands -/

theorem lighting (h : g.Alike g') : g'.lighting = g.lighting := by
  obtain ⟨p, -, rfl⟩ := h
  rfl

theorem texCoordCommand (h : g.Alike g') (param : U32) :
    (g.texCoordCommand param).Alike (g'.texCoordCommand param) := by
  rw [GPU3D.texCoordCommand, GPU3D.texCoordCommand, h.matrices]
  exact (h.timed _).setAttributes _

theorem diffuseAmbient (h : g.Alike g') (param : U32) :
    (g.diffuseAmbient param).Alike (g'.diffuseAmbient param) :=
  have hset := (h.timed .vertexPipelineCmdDelayed6).setLighting fun l =>
    { l with matDiffuse := field5 param 0, matAmbient := field5 param 16 }
  (ite (hset.setAttributes fun a => { a with vertexColor := field5 param 0 }) hset).addCycles 3

theorem specularEmission (h : g.Alike g') (param : U32) :
    (g.specularEmission param).Alike (g'.specularEmission param) :=
  ((h.timed _).setLighting _).addCycles 3

theorem beginPolygons (h : g.Alike g') (param : U32) :
    (g.beginPolygons param).Alike (g'.beginPolygons param) := by
  have hstart := (h.timed (.stallPolygonPipeline 1 0)).setAttributes fun a =>
    { a with polygonMode := param &&& 0x3, curPolygonAttr := a.polygonAttr }
  rw [GPU3D.beginPolygons, GPU3D.beginPolygons]
  exact hstart.commute (F := fun g =>
    { g with
      assembly :=
        { g.assembly with vertexNum := 0, vertexNumInPoly := 0, numConsecutivePolygons := 0 }
      scene := { g.scene with lastStripPolygon := none } })
    (fun _ => Eq.refl _) (Eq.refl _) (Eq.refl _) (Eq.refl _)

theorem flush (h : g.Alike g') (param : U32) : (g.flush param).Alike (g'.flush param) := by
  rw [GPU3D.flush, GPU3D.flush]
  exact ((h.timed _).setScene _).timed _

theorem setViewport (h : g.Alike g') (param : U32) :
    (g.setViewport param).Alike (g'.setViewport param) :=
  (h.timed _).setAttributes _

/-- The new reciprocal replaces whatever was kept for the light. -/
theorem setLightDirection (h : g.Alike g') (param : U32) :
    (g.setLightDirection param).Alike (g'.setLightDirection param) := by
  obtain ⟨p, hp, rfl⟩ := h
  exact ⟨{ p with derived := ((g.patch p).setLightDirection param).derived },
    ⟨hp.queue, hp.clip, hp.clip'⟩, Eq.refl _⟩

theorem boxTest (h : g.Alike g') (params : ℕ → U32) :
    (g.boxTest params).Alike (g'.boxTest params) := by
  obtain ⟨hupdated, hclip⟩ := ((h.addCycles 254).setStat (· &&& ~~~bit 32 1)).updateClipMatrix
  rw [boxTest_eq, boxTest_eq]
  dsimp only
  rw [hclip, hupdated.attributes]
  exact ite (hupdated.setStat _) hupdated

theorem posTest (h : g.Alike g') : g.posTest.Alike g'.posTest := by
  obtain ⟨hupdated, hclip⟩ := h.updateClipMatrix
  have hresult : clipPosition g'.updateClipMatrix.derived.clipMatrix
      g'.updateClipMatrix.attributes.curVertex =
      clipPosition g.updateClipMatrix.derived.clipMatrix g.updateClipMatrix.attributes.curVertex := by
    rw [hclip, hupdated.attributes]
  rw [GPU3D.posTest, GPU3D.posTest]
  dsimp only
  rw [hresult]
  exact (hupdated.setTests fun t => { t with posTestResult := _ }).addCycles 5

theorem vecTest (h : g.Alike g') (param : U32) :
    (g.vecTest param).Alike (g'.vecTest param) := by
  have hvec : g'.matrices.vecMatrix = g.matrices.vecMatrix := congrArg Matrices.vecMatrix h.matrices
  rw [GPU3D.vecTest, GPU3D.vecTest]
  rw [hvec]
  exact (h.setTests fun t => { t with vecTestResult := _ }).addCycles 4


end Alike

/-! ## Lighting -/

/-- The enabled lights that shine on the normal have the same reciprocal in both. -/
def LightsAgree (normal : Fin 3 → S16) (g g' : GPU3D) : Prop :=
  ∀ l ∈ enabledLights g.attributes.curPolygonAttr,
    (0 : S32).slt (lightDot (g.lighting.lightDirection l)
      (transformNormal g.matrices.vecMatrix normal)) = true →
    g'.derived.specRecip l = g.derived.specRecip l

theorem litColor_congr {light : Lighting} {recip recip' : Fin 4 → S32} {attr : U32}
    {normal : Fin 3 → S32}
    (h : ∀ l ∈ enabledLights attr,
      (0 : S32).slt (lightDot (light.lightDirection l) normal) = true → recip' l = recip l) :
    litColor light recip' attr normal = litColor light recip attr normal := by
  have hlevel (l : Fin 4) (hl : l ∈ enabledLights attr) :
      lightLevel light normal (recip' l) l = lightLevel light normal (recip l) l := by
    rw [lightLevel, lightLevel]
    split_ifs with hdot
    · rw [h l hl hdot]
    · rfl
  funext i
  rw [litColor, litColor]
  rw [List.foldl_ext _ _ _ fun color l hl => by rw [hlevel l hl]]

/-- The attributes `CalculateLighting` leaves. -/
def litAttributes (g : GPU3D) : Attributes :=
  { g.attributes with
    texCoords := normalTexCoords g.attributes g.matrices.texMatrix
    vertexColor :=
      litColor g.lighting g.derived.specRecip g.attributes.curPolygonAttr
        (transformNormal g.matrices.vecMatrix g.attributes.normal) }

theorem calculateLighting_eq (g : GPU3D) :
    g.calculateLighting =
      (g.setAttributes fun _ => g.litAttributes).timed fun t =>
        Timing.addCycles (max 1 (enabledLights g.attributes.curPolygonAttr).length)
          { t with normalPipeline := 7 } := rfl

namespace Alike
variable {g g' : GPU3D}

theorem calculateLighting (h : g.Alike g') (hlights : LightsAgree g.attributes.normal g g') :
    g.calculateLighting.Alike g'.calculateLighting := by
  have hlit : g'.litAttributes = g.litAttributes := by
    rw [litAttributes, litAttributes, h.attributes, h.lighting, h.matrices, litColor_congr hlights]
  rw [calculateLighting_eq, calculateLighting_eq, hlit, h.attributes]
  exact (h.setAttributes _).timed _

theorem normalCommand (h : g.Alike g') {param : U32}
    (hlights : LightsAgree (field10 param) g g') :
    Alike
      ((g.timed .vertexPipelineCmdDelayed4).setAttributes fun a =>
        { a with normal := field10 param }).calculateLighting
      ((g'.timed .vertexPipelineCmdDelayed4).setAttributes fun a =>
        { a with normal := field10 param }).calculateLighting :=
  ((h.timed _).setAttributes _).calculateLighting hlights

end Alike

/-! ## The dispatch -/

/-- The entry starts no lighting with reciprocals that differ. -/
def EntryLit (e : CmdFIFOEntry) (g g' : GPU3D) : Prop :=
  e.command.toNat = 0x21 → LightsAgree (field10 e.param) g g'

/-- A parameter of a longer command is noted. -/
def noteParam (e : CmdFIFOEntry) (g : GPU3D) : GPU3D :=
  { g with
    execParams := Function.update g.execParams (Fin.ofNat 32 g.execParamCount) e.param
    execParamCount := g.execParamCount + 1 }

theorem executeEntry_eq (e : CmdFIFOEntry) (g : GPU3D) :
    executeEntry e g =
      if cmdNumParams e.command ≤ 1 then g.singleCommand e.command e.param
      else if (noteParam e g).execParamCount = 1 then
        (noteParam e g).timed (firstParameterDelay e.command)
      else if ((noteParam e g).addCycles 1).execParamCount ≥ cmdNumParams e.command then
        multiCommand e.command (fun i => ((noteParam e g).addCycles 1).execParams (Fin.ofNat 32 i))
          { (noteParam e g).addCycles 1 with execParamCount := 0 }
      else (noteParam e g).addCycles 1 := rfl

namespace Alike
variable {g g' : GPU3D}

theorem singleCommand (h : g.Alike g') {e : CmdFIFOEntry} (hlit : EntryLit e g g') :
    (g.singleCommand e.command e.param).Alike (g'.singleCommand e.command e.param) := by
  rw [GPU3D.singleCommand, GPU3D.singleCommand]
  split <;> rename_i hcommand
  · refine (h.timed _).setMatrices ?_
    exact fun _ => ⟨rfl, rfl⟩
  · exact h.pushMatrix
  · exact h.popMatrix _
  · exact h.storeMatrix _
  · exact h.restoreMatrix _
  · exact h.identityMatrix
  · exact (h.timed _).setAttributes _
  · exact h.normalCommand (hlit hcommand)
  · exact h.texCoordCommand _
  · exact h.vertexCommand _
  · exact h.vertexCommand _
  · exact h.vertexCommand _
  · exact h.vertexCommand _
  · exact h.vertexCommand _
  · exact (h.timed _).setAttributes _
  · exact (h.timed _).setAttributes _
  · exact (h.timed _).setAttributes _
  · exact h.diffuseAmbient _
  · exact h.specularEmission _
  · exact ((h.timed _).setLightDirection _).addCycles 5
  · exact ((h.timed _).setLighting _).addCycles 1
  · exact h.beginPolygons _
  · exact h.timed _
  · exact h.flush _
  · exact h.setViewport _
  · exact ((h.timed _).noteTests 1).vecTest _
  · exact h.timed _

theorem multiCommand (h : g.Alike g') (command : U8) (params : ℕ → U32) :
    (g.multiCommand command params).Alike (g'.multiCommand command params) := by
  rw [GPU3D.multiCommand, GPU3D.multiCommand]
  split
  · exact h.changeMatrix _ _ _
  · exact h.changeMatrix _ _ _
  · exact h.changeMatrix _ _ _
  · exact h.changeMatrix _ _ _
  · exact h.changeMatrix _ _ _
  · exact h.changeMatrix _ _ _
  · exact h.changeMatrix _ _ _
  · exact (h.setAttributes _).submitVertex
  · exact h.setLighting _
  · exact ((h.noteTests 2).setAttributes _).posTest
  · exact (h.noteTests 3).boxTest _
  · exact h

theorem execParams (h : g.Alike g') :
    g'.execParams = g.execParams ∧ g'.execParamCount = g.execParamCount := by
  obtain ⟨p, -, rfl⟩ := h
  exact ⟨rfl, rfl⟩

theorem noteParam (h : g.Alike g') (e : CmdFIFOEntry) :
    (GPU3D.noteParam e g).Alike (GPU3D.noteParam e g') :=
  h.commute (F := GPU3D.noteParam e) (fun _ => Eq.refl _) (Eq.refl _) (Eq.refl _) (Eq.refl _)

theorem clearParams (h : g.Alike g') :
    Alike { g with execParamCount := 0 } { g' with execParamCount := 0 } :=
  h.commute (F := fun g => { g with execParamCount := 0 }) (fun _ => Eq.refl _) (Eq.refl _)
    (Eq.refl _) (Eq.refl _)

theorem executeEntry (h : g.Alike g') {e : CmdFIFOEntry} (hlit : EntryLit e g g') :
    (GPU3D.executeEntry e g).Alike (GPU3D.executeEntry e g') := by
  have hnoted := h.noteParam e
  have hready := hnoted.addCycles 1
  rw [executeEntry_eq, executeEntry_eq, hnoted.execParams.2, hready.execParams.1,
    hready.execParams.2]
  refine ite (h.singleCommand hlit) (ite (hnoted.timed _) (ite ?_ hready))
  exact hready.clearParams.multiCommand _ _

theorem executeCommand (h : g.Alike g') (hlit : EntryLit g.queue.cmdFIFORead.1 g g') :
    g.executeCommand.Alike g'.executeCommand := by
  obtain ⟨hentry, hrest⟩ := h.queue.cmdFIFORead
  rw [GPU3D.executeCommand, GPU3D.executeCommand, hentry]
  exact (h.setQueue hrest).executeEntry hlit

end Alike
end GPU3D
end MelonDS
