import MelonDS.GPU3D.Polygons

/-!
# Geometry commands

`ExecuteCommand` after its read from the queues, with the lighting and the tests it starts,
and `Run`, which executes commands while the cycle count allows it.
-/

namespace MelonDS
namespace GPU3D

def addCycles (num : ℤ) (g : GPU3D) : GPU3D := g.timed (Timing.addCycles num)

/-- The three signed fields of ten bits, shifted down. -/
def field10 (param : U32) (i : Fin 3) : S16 :=
  ((param >>> (10 * i.val)).setWidth 16 <<< 6).sshiftRight 6

def field5 (param : U32) (shift : ℕ) (i : Fin 3) : U8 :=
  (param >>> (shift + 5 * i.val)).setWidth 8 &&& 0x1F

/-! ## Matrices -/

def setMatrices (f : Matrices → Matrices) (g : GPU3D) : GPU3D :=
  { g with matrices := f g.matrices }

/-- A change of the projection or position matrix. -/
def dirtyClipMatrix (g : GPU3D) : GPU3D :=
  { g with derived := { g.derived with clipMatrixDirty := true } }

def setStat (f : U32 → U32) (g : GPU3D) : GPU3D :=
  { g with queue := { g.queue with gxStat := f g.queue.gxStat } }

/-- Matrix stack overflow or underflow. -/
def noteStackError (error : Bool) (g : GPU3D) : GPU3D :=
  if error then g.setStat (· ||| bit 32 15) else g

def stackSlot (pointer : BitVec 32) : Fin 32 := Fin.ofNat 32 (pointer &&& 0x1F).toNat

def notePushPop (g : GPU3D) : GPU3D :=
  { g with queue := { g.queue with numPushPopCommands := g.queue.numPushPopCommands - 1 } }

def noteTests (entries : U32) (g : GPU3D) : GPU3D :=
  { g with queue := { g.queue with numTestCommands := g.queue.numTestCommands - entries } }

def storePosition (slot : Fin 32) (m : Matrices) : Matrices :=
  { m with
    posMatrixStack := Function.update m.posMatrixStack slot m.posMatrix
    vecMatrixStack := Function.update m.vecMatrixStack slot m.vecMatrix }

def restorePosition (slot : Fin 32) (m : Matrices) : Matrices :=
  { m with posMatrix := m.posMatrixStack slot, vecMatrix := m.vecMatrixStack slot }

def pushMatrix (g : GPU3D) : GPU3D :=
  let g := (g.timed .vertexPipelineCmdDelayed4).notePushPop
  let m := g.matrices
  let g :=
    if m.matrixMode = 0 then
      (g.noteStackError ((0 : S32).slt m.projMatrixStackPointer)).setMatrices fun m =>
        { m with
          projMatrixStack := m.projMatrix
          projMatrixStackPointer := (m.projMatrixStackPointer + 1) &&& 0x1 }
    else if m.matrixMode = 3 then
      (g.noteStackError ((0 : S32).slt m.texMatrixStackPointer)).setMatrices fun m =>
        { m with
          texMatrixStack := m.texMatrix
          texMatrixStackPointer := (m.texMatrixStackPointer + 1) &&& 0x1 }
    else
      (g.noteStackError ((30 : S32).slt m.posMatrixStackPointer)).setMatrices fun m =>
        { storePosition (stackSlot m.posMatrixStackPointer) m with
          posMatrixStackPointer := (m.posMatrixStackPointer + 1) &&& 0x3F }
  g.addCycles 16

def popMatrix (param : U32) (g : GPU3D) : GPU3D :=
  let g := (g.timed .vertexPipelineCmdDelayed4).notePushPop
  let m := g.matrices
  if m.matrixMode = 0 then
    let g := (g.noteStackError (m.projMatrixStackPointer = 0)).setMatrices fun m =>
      { m with
        projMatrixStackPointer := (m.projMatrixStackPointer - 1) &&& 0x1
        projMatrix := m.projMatrixStack }
    g.dirtyClipMatrix.addCycles 35
  else if m.matrixMode = 3 then
    let g := (g.noteStackError (m.texMatrixStackPointer = 0)).setMatrices fun m =>
      { m with
        texMatrixStackPointer := (m.texMatrixStackPointer - 1) &&& 0x1
        texMatrix := m.texMatrixStack }
    g.addCycles 17
  else
    let offset : S32 := (param <<< 26).sshiftRight 26
    let pointer := (m.posMatrixStackPointer - offset) &&& 0x3F
    let g := (g.noteStackError ((30 : S32).slt pointer)).setMatrices fun m =>
      restorePosition (stackSlot pointer) { m with posMatrixStackPointer := pointer }
    g.dirtyClipMatrix.addCycles 35

def storeMatrix (param : U32) (g : GPU3D) : GPU3D :=
  let g := g.timed .vertexPipelineCmdDelayed4
  let m := g.matrices
  let g :=
    if m.matrixMode = 0 then g.setMatrices fun m => { m with projMatrixStack := m.projMatrix }
    else if m.matrixMode = 3 then g.setMatrices fun m => { m with texMatrixStack := m.texMatrix }
    else
      (g.noteStackError ((param &&& 0x1F).toNat > 30)).setMatrices (storePosition (stackSlot param))
  g.addCycles 16

def restoreMatrix (param : U32) (g : GPU3D) : GPU3D :=
  let g := g.timed .vertexPipelineCmdDelayed4
  let m := g.matrices
  if m.matrixMode = 0 then
    (g.setMatrices fun m => { m with projMatrix := m.projMatrixStack }).dirtyClipMatrix.addCycles 35
  else if m.matrixMode = 3 then
    (g.setMatrices fun m => { m with texMatrix := m.texMatrixStack }).addCycles 17
  else
    let g := (g.noteStackError ((param &&& 0x1F).toNat > 30)).setMatrices
      (restorePosition (stackSlot param))
    g.dirtyClipMatrix.addCycles 35

/-- The identity is loaded without further cycles in texture mode. -/
def identityMatrix (g : GPU3D) : GPU3D :=
  let g := g.timed .vertexPipelineCmdDelayed4
  let m := g.matrices
  if m.matrixMode = 0 then
    (g.setMatrices fun m => { m with projMatrix := matrixLoadIdentity }).dirtyClipMatrix.addCycles 18
  else if m.matrixMode = 3 then g.setMatrices fun m => { m with texMatrix := matrixLoadIdentity }
  else
    let g := g.setMatrices fun m =>
      { m with
        posMatrix := matrixLoadIdentity
        vecMatrix := if m.matrixMode = 2 then matrixLoadIdentity else m.vecMatrix }
    g.dirtyClipMatrix.addCycles 18

/-- The cycles a matrix command takes: on the projection, texture and position matrix, and on
the position and vector matrices together. -/
structure MatrixCycles where
  proj : ℤ
  tex : ℤ
  pos : ℤ
  both : ℤ

/-- A command that changes the current matrix; `vec` tells whether mode 2 changes the vector
matrix as well. -/
def changeMatrix (f : Matrix → Matrix) (vec : Bool) (cycles : MatrixCycles) (g : GPU3D) : GPU3D :=
  let m := g.matrices
  if m.matrixMode = 0 then
    (g.setMatrices fun m => { m with projMatrix := f m.projMatrix }).dirtyClipMatrix.addCycles
      cycles.proj
  else if m.matrixMode = 3 then
    (g.setMatrices fun m => { m with texMatrix := f m.texMatrix }).addCycles cycles.tex
  else if vec && m.matrixMode = 2 then
    let g := g.setMatrices fun m =>
      { m with posMatrix := f m.posMatrix, vecMatrix := f m.vecMatrix }
    g.dirtyClipMatrix.addCycles cycles.both
  else
    (g.setMatrices fun m => { m with posMatrix := f m.posMatrix }).dirtyClipMatrix.addCycles
      cycles.pos

/-! ## Lighting -/

/-- `VecMatrix` applied to three 16-bit components, an `int` expression. -/
def vecColumn (m : Matrix) (v : Fin 3 → S16) (i : ℕ) : S32 :=
  (v 0).signExtend 32 * elem m i + (v 1).signExtend 32 * elem m (i + 4) +
    (v 2).signExtend 32 * elem m (i + 8)

def sext11 (x : S32) : S32 := (x <<< 21).sshiftRight 21

def lightDirectionOf (m : Matrix) (param : U32) (i : Fin 3) : S16 :=
  (sext11 (-((vecColumn m (field10 param) i.val).sshiftRight 12))).setWidth 16

def specRecipOf (m : Matrix) (param : U32) : S32 :=
  let den := -((vecColumn m (field10 param) 2 <<< 9).sshiftRight 21) + bit 32 9
  if den = 0 then 0 else (bit 32 18).sdiv den

def lightIndex (param : U32) : Fin 4 := Fin.ofNat 4 (param >>> 30).toNat

def setLightDirection (param : U32) (g : GPU3D) : GPU3D :=
  let l := lightIndex param
  let m := g.matrices.vecMatrix
  { g with
    lighting :=
      { g.lighting with
        lightDirection := Function.update g.lighting.lightDirection l (lightDirectionOf m param) }
    derived :=
      { g.derived with specRecip := Function.update g.derived.specRecip l (specRecipOf m param) } }

/-- The normal through the vector matrix: one sign bit, ten bits of fraction. -/
def transformNormal (m : Matrix) (normal : Fin 3 → S16) (i : Fin 3) : S32 :=
  (vecColumn m normal i.val <<< 9).sshiftRight 21

def lightDot (direction : Fin 3 → S16) (normal : Fin 3 → S32) : S32 :=
  let term (i : Fin 3) : S32 := ((direction i).signExtend 32 * normal i).sshiftRight 9
  term 0 + term 1 + term 2

/-- From the dot product and the reciprocal kept for the light. -/
def shineLevel (dot normalZ recip : S32) : S32 :=
  let d := sext11 (dot + normalZ)
  let d := ((d * d).sshiftRight 10) &&& 0x3FF
  let level := (d * recip).sshiftRight 8 - bit 32 9
  if level.slt 0 then 0
  else
    let level := (level <<< 18).sshiftRight 18
    if level.slt 0 then 0 else if (0x1FF : S32).slt level then 0x1FF else level

def shininess (light : Lighting) (level : S32) : S32 :=
  if light.useShininessTable then
    (light.shininessTable (Fin.ofNat 128 (level.sshiftRight 2).toNat)).setWidth 32 <<< 1
  else level

/-- What one light adds to a colour component. -/
def lightTerm (light : Lighting) (l : Fin 4) (dot level : S32) (i : Fin 3) : U32 :=
  let color : U32 := (light.lightColor l i).setWidth 32
  let diffuse : U32 :=
    if (0 : S32).slt dot then
      ((light.matDiffuse i).setWidth 32 * color * sext11 dot) &&& 0xFFFFF
    else 0
  diffuse +
    ((light.matSpecular i).setWidth 32 * level + ((light.matAmbient i).setWidth 32 <<< 9)) * color

def lightLevel (light : Lighting) (normal : Fin 3 → S32) (recip : S32) (l : Fin 4) : S32 :=
  let dot := lightDot (light.lightDirection l) normal
  shininess light (if (0 : S32).slt dot then shineLevel dot (normal 2) recip else 0)

def enabledLights (attr : U32) : List (Fin 4) :=
  (List.finRange 4).filter fun l => attr.getLsbD l.val

/-- The colour of a vertex with the given normal. -/
def litColor (light : Lighting) (specRecip : Fin 4 → S32) (attr : U32) (normal : Fin 3 → S32)
    (i : Fin 3) : U8 :=
  let color := (enabledLights attr).foldl (fun (color : U32) l =>
    color + lightTerm light l (lightDot (light.lightDirection l) normal)
      (lightLevel light normal (specRecip l) l) i)
    ((light.matEmission i).setWidth 32 <<< 14)
  if (color >>> 14).toNat > 31 then 31 else (color >>> 14).setWidth 8

def normalTexCoords (attrs : Attributes) (texMatrix : Matrix) (i : Fin 2) : S16 :=
  if (attrs.texParam >>> 30).toNat = 2 then
    attrs.rawTexCoords i + ((matrixColumn texMatrix attrs.normal i.val).sshiftRight 21).setWidth 16
  else attrs.texCoords i

def calculateLighting (g : GPU3D) : GPU3D :=
  let attrs := { g.attributes with texCoords := normalTexCoords g.attributes g.matrices.texMatrix }
  let normal := transformNormal g.matrices.vecMatrix attrs.normal
  let attrs :=
    { attrs with
      vertexColor := litColor g.lighting g.derived.specRecip attrs.curPolygonAttr normal }
  let g := { g with attributes := attrs }
  g.timed fun t =>
    Timing.addCycles (max 1 (enabledLights attrs.curPolygonAttr).length)
      { t with normalPipeline := 7 }

/-! ## Tests -/

/-- The corners of the box, by the side each coordinate is on. -/
def boxCorner (x y z : Fin 2 → S16) : Fin 8 → Fin 3 → S16
  | 0 => ![x 0, y 0, z 0]
  | 1 => ![x 1, y 0, z 0]
  | 2 => ![x 1, y 1, z 0]
  | 3 => ![x 0, y 1, z 0]
  | 4 => ![x 0, y 1, z 1]
  | 5 => ![x 0, y 0, z 1]
  | 6 => ![x 1, y 0, z 1]
  | 7 => ![x 1, y 1, z 1]

def boxFaces : List (Fin 4 → Fin 8) :=
  [![0, 1, 2, 3], ![4, 5, 6, 7], ![0, 3, 4, 5], ![1, 2, 7, 6], ![0, 1, 6, 5], ![2, 3, 4, 7]]

def boxTest (params : ℕ → U32) (g : GPU3D) : GPU3D :=
  let g := ((g.addCycles 254).setStat (· &&& ~~~bit 32 1)).updateClipMatrix
  let lo (i : ℕ) : S16 := (params i).setWidth 16
  let hi (i : ℕ) : S16 := (params i >>> 16).setWidth 16
  let corner := boxCorner ![lo 0, hi 1 + lo 0] ![hi 0, lo 2 + hi 0] ![lo 1, hi 2 + lo 1]
  let vertex (c : Fin 8) : Vertex :=
    { zeroVertex with position := clipPosition g.derived.clipMatrix (corner c) }
  let visible (face : Fin 4 → Fin 8) : Bool :=
    0 < (ClipResult.clipPolygon false g.attributes.curPolygonAttr 0
      ⟨fun i => vertex (face (Fin.ofNat 4 i)), 4⟩).array.nverts
  if boxFaces.any visible then g.setStat (· ||| bit 32 1) else g

def posTest (g : GPU3D) : GPU3D :=
  let g := g.updateClipMatrix
  let g :=
    { g with
      tests :=
        { g.tests with
          posTestResult := clipPosition g.derived.clipMatrix g.attributes.curVertex } }
  g.addCycles 5

def vecTest (param : U32) (g : GPU3D) : GPU3D :=
  let result (i : Fin 3) : S16 :=
    let r : S16 :=
      ((vecColumn g.matrices.vecMatrix (field10 param) i.val).sshiftRight 9).setWidth 16
    if r &&& 0x1000 ≠ 0 then r ||| 0xF000 else r
  { g with tests := { g.tests with vecTestResult := result } }.addCycles 4

/-! ## Commands of one parameter -/

def setAttributes (f : Attributes → Attributes) (g : GPU3D) : GPU3D :=
  { g with attributes := f g.attributes }

def setLighting (f : Lighting → Lighting) (g : GPU3D) : GPU3D :=
  { g with lighting := f g.lighting }

def setScene (f : Scene → Scene) (g : GPU3D) : GPU3D := { g with scene := f g.scene }

/-- The vertex commands differ in the components of `CurVertex` they set. -/
def vertexCommand (f : (Fin 3 → S16) → Fin 3 → S16) (g : GPU3D) : GPU3D :=
  ((g.timed .vertexPipelineSubmitCmd).setAttributes fun a =>
    { a with curVertex := f a.curVertex }).submitVertex

def low16 (param : U32) : S16 := param.setWidth 16
def high16 (param : U32) : S16 := (param >>> 16).setWidth 16

def texCoordCommand (param : U32) (g : GPU3D) : GPU3D :=
  let m := g.matrices.texMatrix
  (g.timed .vertexPipelineCmdDelayed4).setAttributes fun a =>
    let raw : Fin 2 → S16 := ![low16 param, high16 param]
    { a with
      rawTexCoords := raw
      texCoords := fun i =>
        if (a.texParam >>> 30).toNat = 1 then
          (((raw 0).signExtend 32 * elem m i.val + (raw 1).signExtend 32 * elem m (i.val + 4) +
            elem m (i.val + 8) + elem m (i.val + 12)).sshiftRight 12).setWidth 16
        else raw i }

def diffuseAmbient (param : U32) (g : GPU3D) : GPU3D :=
  let g := (g.timed .vertexPipelineCmdDelayed6).setLighting fun l =>
    { l with matDiffuse := field5 param 0, matAmbient := field5 param 16 }
  let g :=
    if param &&& 0x8000 ≠ 0 then
      g.setAttributes fun a => { a with vertexColor := field5 param 0 }
    else g
  g.addCycles 3

def specularEmission (param : U32) (g : GPU3D) : GPU3D :=
  ((g.timed .vertexPipelineCmdDelayed6).setLighting fun l =>
    { l with
      matSpecular := field5 param 0
      matEmission := field5 param 16
      useShininessTable := param &&& 0x8000 ≠ 0 }).addCycles 3

def beginPolygons (param : U32) (g : GPU3D) : GPU3D :=
  let g := (g.timed (.stallPolygonPipeline 1 0)).setAttributes fun a =>
    { a with polygonMode := param &&& 0x3, curPolygonAttr := a.polygonAttr }
  { g with
    assembly :=
      { g.assembly with vertexNum := 0, vertexNumInPoly := 0, numConsecutivePolygons := 0 }
    scene := { g.scene with lastStripPolygon := none } }

def flush (param : U32) (g : GPU3D) : GPU3D :=
  let g := (g.timed .vertexPipelineCmdDelayed4).setScene fun s =>
    { s with flushRequest := true, flushAttributes := param &&& 0x3 }
  g.timed fun _ =>
    { cycleCount := 325
      vertexPipeline := 0
      normalPipeline := 0
      polygonPipeline := 0
      vertexSlotCounter := 0
      vertexSlotsFree := 1 }

def setViewport (param : U32) (g : GPU3D) : GPU3D :=
  (g.timed .vertexPipelineCmdDelayed8).setAttributes fun a =>
    let x0 := param &&& 0xFF
    let y0 := (191 - ((param >>> 8) &&& 0xFF)) &&& 0xFF
    let x1 := (param >>> 16) &&& 0xFF
    let y1 := (191 - (param >>> 24)) &&& 0xFF
    { a with viewport := ![x0, y0, x1, y1, (x1 - x0 + 1) &&& 0x1FF, (y0 - y1 + 1) &&& 0xFF] }

/-- The commands that take at most one parameter. -/
def singleCommand (command : U8) (param : U32) (g : GPU3D) : GPU3D :=
  match command.toNat with
  | 0x10 =>
    (g.timed .vertexPipelineCmdDelayed4).setMatrices fun m => { m with matrixMode := param &&& 0x3 }
  | 0x11 => g.pushMatrix
  | 0x12 => g.popMatrix param
  | 0x13 => g.storeMatrix param
  | 0x14 => g.restoreMatrix param
  | 0x15 => g.identityMatrix
  | 0x20 =>
    (g.timed .vertexPipelineCmdDelayed6).setAttributes fun a =>
      { a with vertexColor := field5 param 0 }
  | 0x21 =>
    ((g.timed .vertexPipelineCmdDelayed4).setAttributes fun a =>
      { a with normal := field10 param }).calculateLighting
  | 0x22 => g.texCoordCommand param
  | 0x24 => g.vertexCommand fun _ i => (param >>> (10 * i.val)).setWidth 16 <<< 6
  | 0x25 => g.vertexCommand fun v => ![low16 param, high16 param, v 2]
  | 0x26 => g.vertexCommand fun v => ![low16 param, v 1, high16 param]
  | 0x27 => g.vertexCommand fun v => ![v 0, low16 param, high16 param]
  | 0x28 => g.vertexCommand fun v i => v i + field10 param i
  | 0x29 =>
    (g.timed .vertexPipelineCmdDelayed8).setAttributes fun a => { a with polygonAttr := param }
  | 0x2A => (g.timed .vertexPipelineCmdDelayed8).setAttributes fun a => { a with texParam := param }
  | 0x2B =>
    (g.timed .vertexPipelineCmdDelayed8).setAttributes fun a =>
      { a with texPalette := param &&& 0x1FFF }
  | 0x30 => g.diffuseAmbient param
  | 0x31 => g.specularEmission param
  | 0x32 => ((g.timed (.stallPolygonPipeline (8 + 1) 2)).setLightDirection param).addCycles 5
  | 0x33 =>
    ((g.timed .vertexPipelineCmdDelayed8).setLighting fun l =>
      { l with
        lightColor :=
          Function.update l.lightColor (lightIndex param) (field5 param 0) }).addCycles 1
  | 0x40 => g.beginPolygons param
  | 0x41 => g.timed .vertexPipelineCmdDelayed8
  | 0x50 => g.flush param
  | 0x60 => g.setViewport param
  | 0x72 => ((g.timed .vertexPipelineCmdDelayed6).noteTests 1).vecTest param
  | _ => g.timed .vertexPipelineCmdDelayed4

/-! ## Commands of several parameters -/

/-- The delay taken with the first parameter. -/
def firstParameterDelay (command : U8) : Timing → Timing :=
  match command.toNat with
  | 0x23 => .vertexPipelineSubmitCmd
  | 0x34 => .vertexPipelineCmdDelayed8
  | 0x71 => .vertexPipelineCmdDelayed8
  | 0x70 => .stallPolygonPipeline (10 + 1) 0
  | _ => .vertexPipelineCmdDelayed4

def shininessTableOf (params : ℕ → U32) (i : Fin 128) : U8 :=
  (params (i.val / 4) >>> (8 * (i.val % 4))).setWidth 8

def fullVertex (params : ℕ → U32) : Fin 3 → S16 :=
  ![low16 (params 0), high16 (params 0), low16 (params 1)]

/-- The commands that take more than one parameter, once all are there. -/
def multiCommand (command : U8) (params : ℕ → U32) (g : GPU3D) : GPU3D :=
  match command.toNat with
  | 0x16 => g.changeMatrix (fun _ => matrixLoad4x4 params) true ⟨18, 10, 18, 18⟩
  | 0x17 => g.changeMatrix (fun _ => matrixLoad4x3 params) true ⟨18, 7, 18, 18⟩
  | 0x18 =>
    g.changeMatrix (matrixMult4x4 · params) true ⟨35 - 16, 33 - 16, 35 - 16, 35 + 30 - 16⟩
  | 0x19 =>
    g.changeMatrix (matrixMult4x3 · params) true ⟨35 - 12, 33 - 12, 35 - 12, 35 + 30 - 12⟩
  | 0x1A => g.changeMatrix (matrixMult3x3 · params) true ⟨35 - 9, 33 - 9, 35 - 9, 35 + 30 - 9⟩
  | 0x1B => g.changeMatrix (matrixScale · params) false ⟨35 - 3, 33 - 3, 35 - 3, 35 - 3⟩
  | 0x1C =>
    g.changeMatrix (matrixTranslate · params) true ⟨35 - 3, 33 - 3, 35 - 3, 35 + 30 - 3⟩
  | 0x23 => (g.setAttributes fun a => { a with curVertex := fullVertex params }).submitVertex
  | 0x34 => g.setLighting fun l => { l with shininessTable := shininessTableOf params }
  | 0x71 =>
    ((g.noteTests 2).setAttributes fun a => { a with curVertex := fullVertex params }).posTest
  | 0x70 => (g.noteTests 3).boxTest params
  | _ => g

/-- `ExecuteCommand` for the entry it read. -/
def executeEntry (e : CmdFIFOEntry) (g : GPU3D) : GPU3D :=
  if cmdNumParams e.command ≤ 1 then g.singleCommand e.command e.param
  else
    let g :=
      { g with
        execParams := Function.update g.execParams (Fin.ofNat 32 g.execParamCount) e.param
        execParamCount := g.execParamCount + 1 }
    if g.execParamCount = 1 then g.timed (firstParameterDelay e.command)
    else
      let g := g.addCycles 1
      if g.execParamCount ≥ cmdNumParams e.command then
        multiCommand e.command (fun i => g.execParams (Fin.ofNat 32 i)) { g with execParamCount := 0 }
      else g

def executeCommand (g : GPU3D) : GPU3D :=
  executeEntry g.queue.cmdFIFORead.1 { g with queue := g.queue.cmdFIFORead.2 }

/-! ## Run -/

/-- The busy bits of the matrix stack and of the tests fall with their counts. -/
def settleBusyBits (g : GPU3D) : GPU3D :=
  let g := if g.queue.numPushPopCommands = 0 then g.setStat (· &&& ~~~bit 32 14) else g
  if g.queue.numTestCommands = 0 then g.setStat (· &&& ~~~bit 32 0) else g

def finishWork (cycles : ℤ) (g : GPU3D) : GPU3D :=
  let g := g.timed fun t =>
    let t := t.addCycles cycles
    { t with
      normalPipeline :=
        if t.normalPipeline ≠ 0 then t.normalPipeline - min t.normalPipeline cycles
        else t.normalPipeline
      cycleCount := 0 }
  let t := g.timing
  if t.vertexPipeline ≠ 0 ∨ t.normalPipeline ≠ 0 ∨ t.polygonPipeline ≠ 0 then g
  else g.setStat (· &&& ~~~bit 32 27)

/-- The loop of `Run`, one command a round. -/
def runCommands : ℕ → GPU3D → GPU3D
  | 0, g => g
  | rounds + 1, g =>
    if g.timing.cycleCount ≤ 0 ∧ g.queue.cmdPIPE.isEmpty = false then
      runCommands rounds g.settleBusyBits.executeCommand
    else g

/-- `Run` at the given time of the ARM9, in cycles of the engine. -/
def run (now : U64) (g : GPU3D) : GPU3D :=
  if !g.geometryEnabled || g.scene.flushRequest ||
      (g.queue.cmdPIPE.isEmpty && !g.queue.gxStat.getLsbD 27) then
    { g with timestamp := now }
  else
    let cycles := ((now - g.timestamp).setWidth 32).toInt
    let g := { g.timed (fun t => { t with cycleCount := t.cycleCount - cycles }) with
      timestamp := now }
    let g :=
      runCommands (g.queue.cmdPIPE.level + g.queue.cmdFIFO.level + g.queue.cmdStallQueue.level) g
    if g.timing.cycleCount ≤ 0 ∧ g.queue.cmdPIPE.isEmpty = true then
      let g :=
        if g.queue.gxStat.getLsbD 27 then g.finishWork (-g.timing.cycleCount)
        else g.timed fun t => { t with cycleCount := 0 }
      g.settleBusyBits
    else g

end GPU3D
end MelonDS
