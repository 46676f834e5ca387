import MelonDS.GPU3D.SavestateRun

/-!
# The clip matrix and the matrix stacks

The clip matrix is computed again only when it is used after a change. In every state that
commands, registers and savestates lead to, each of its uses finds the product of the current
matrices, and what has been stored or pushed comes back.
-/

namespace MelonDS
namespace GPU3D
open Relation

/-! ## The states between two commands -/

/-- What changes the engine; a run is taken apart, so that each of its commands is a step. -/
inductive MatrixStep : GPU3D → GPU3D → Prop
  | op (g : GPU3D) (op : EngineOp) : MatrixStep g (op.apply g).2
  | startRun (g : GPU3D) (now : U64) : MatrixStep g (g.startRun now)
  | settle (g : GPU3D) : MatrixStep g g.settleBusyBits
  | execute (g : GPU3D) : MatrixStep g g.executeCommand
  | command (g : GPU3D) (e : CmdFIFOEntry) : MatrixStep g (executeEntry e g)
  | load (g : GPU3D) (s : Saved) : MatrixStep g (GPU3D.load s g)
  | reset (g : GPU3D) : MatrixStep g g.reset

def MatrixReached (g : GPU3D) : Prop := ReflTransGen MatrixStep initial g

/-- The cached product is right or due to be computed. -/
def ClipValid (g : GPU3D) : Prop := g.derived.Valid g.matrices

theorem clipValid_iff {g : GPU3D} : g.ClipValid ↔ g.Alike g := by
  constructor
  · exact fun h => ⟨⟨g.queue, g.derived, g.renderFrameIdentical⟩, ⟨.refl _, h, h⟩, Eq.refl _⟩
  · rintro ⟨p, hp, -⟩
    exact hp.clip

theorem entryLit_self (e : CmdFIFOEntry) (g : GPU3D) : EntryLit e g g := fun _ _ _ _ => rfl

theorem MatrixStep.clipValid {g g' : GPU3D} (hstep : MatrixStep g g') (h : g.ClipValid) :
    g'.ClipValid := by
  have hself := clipValid_iff.mp h
  refine clipValid_iff.mpr ?_
  cases hstep with
  | op op => exact (hself.apply (lit_self g op)).2
  | startRun now => exact hself.startRun now
  | settle => exact hself.settleBusyBits
  | execute => exact hself.executeCommand (entryLit_self _ g)
  | command e => exact hself.executeEntry (entryLit_self e g)
  | load s => exact clipValid_iff.mp fun _ => rfl
  | reset => exact clipValid_iff.mp fun _ => rfl

theorem MatrixReached.clipValid {g : GPU3D} (h : MatrixReached g) : g.ClipValid := by
  induction h with
  | refl => exact fun _ => rfl
  | tail _ hstep ih => exact hstep.clipValid ih

/-! ## The uses of the clip matrix -/

theorem ClipValid.updateClipMatrix {g : GPU3D} (h : g.ClipValid) :
    g.updateClipMatrix.derived.clipMatrix = clipMatrixOf g.matrices := by
  rw [GPU3D.updateClipMatrix]
  split_ifs with hdirty
  · rfl
  · exact h (Bool.eq_false_iff.mpr hdirty)

theorem matrices_updateClipMatrix (g : GPU3D) : g.updateClipMatrix.matrices = g.matrices := by
  rw [GPU3D.updateClipMatrix]
  split_ifs <;> rfl

theorem attributes_updateClipMatrix (g : GPU3D) : g.updateClipMatrix.attributes = g.attributes := by
  rw [GPU3D.updateClipMatrix]
  split_ifs <;> rfl

theorem assembly_updateClipMatrix (g : GPU3D) : g.updateClipMatrix.assembly = g.assembly := by
  rw [GPU3D.updateClipMatrix]
  split_ifs <;> rfl

theorem queue_updateClipMatrix (g : GPU3D) : g.updateClipMatrix.queue = g.queue := by
  rw [GPU3D.updateClipMatrix]
  split_ifs <;> rfl

/-- A vertex, a box test, a position test and the registers find the product of the current
matrices. -/
structure SeesProduct (g : GPU3D) : Prop where
  vertex : (g.placeVertex.assembly.tempVertexBuffer
      (Fin.ofNat 4 g.assembly.vertexNumInPoly)).position =
    clipPosition (clipMatrixOf g.matrices) g.attributes.curVertex
  boxTest : ∀ params, (g.boxTest params).queue.gxStat.getLsbD 1 =
    boxVisible (clipMatrixOf g.matrices) g.attributes.curPolygonAttr params
  posTest : g.posTest.tests.posTestResult =
    clipPosition (clipMatrixOf g.matrices) g.attributes.curVertex
  register : ∀ (now : U64) (i : Fin 16),
    (g.read32 now (0x04000640 + 4 * BitVec.ofNat 32 i.val)).1 = clipMatrixOf g.matrices i

theorem ClipValid.seesProduct {g : GPU3D} (h : g.ClipValid) : SeesProduct g where
  vertex := by
    have hslot : (Fin.ofNat 4 g.updateClipMatrix.assembly.vertexNumInPoly) =
        Fin.ofNat 4 g.assembly.vertexNumInPoly := by
      rw [assembly_updateClipMatrix]
    rw [placeVertex_eq, placedVertex]
    dsimp only
    rw [hslot, Function.update_self, h.updateClipMatrix, attributes_updateClipMatrix]
  boxTest params := by
    have hbit : (bit 32 1).getLsbD 1 = true := by decide
    have hstart : ∃ x : GPU3D, x.derived = g.derived ∧ x.matrices = g.matrices ∧
        x.attributes = g.attributes ∧ x.queue.gxStat = g.queue.gxStat &&& ~~~bit 32 1 ∧
        g.boxTest params =
          if boxVisible x.updateClipMatrix.derived.clipMatrix
              x.updateClipMatrix.attributes.curPolygonAttr params then
            x.updateClipMatrix.setStat (· ||| bit 32 1)
          else x.updateClipMatrix :=
      ⟨(g.addCycles 254).setStat (· &&& ~~~bit 32 1), rfl, rfl, rfl, rfl, boxTest_eq params g⟩
    obtain ⟨x, hderived, hmatrices, hattributes, hstat, hrun⟩ := hstart
    have hx : x.ClipValid := by
      rw [ClipValid, hderived, hmatrices]
      exact h
    rw [hrun, hx.updateClipMatrix, attributes_updateClipMatrix, hmatrices, hattributes]
    cases boxVisible (clipMatrixOf g.matrices) g.attributes.curPolygonAttr params with
    | true =>
      have hset : (x.updateClipMatrix.setStat (· ||| bit 32 1)).queue.gxStat =
          x.updateClipMatrix.queue.gxStat ||| bit 32 1 := rfl
      rw [if_pos rfl, hset, BitVec.getLsbD_or, hbit, Bool.or_true]
    | false =>
      rw [if_neg Bool.false_ne_true, queue_updateClipMatrix, hstat, BitVec.getLsbD_and,
        BitVec.getLsbD_not, hbit]
      exact Bool.and_false _
  posTest := by
    have hresult : g.posTest.tests.posTestResult =
        clipPosition g.updateClipMatrix.derived.clipMatrix g.updateClipMatrix.attributes.curVertex := rfl
    rw [hresult, h.updateClipMatrix, attributes_updateClipMatrix]
  register now i := by
    have hrange : (0x04000640 : U32) ≤ 0x04000640 + 4 * BitVec.ofNat 32 i.val ∧
        0x04000640 + 4 * BitVec.ofNat 32 i.val < (0x04000680 : U32) ∧
        (((0x04000640 + 4 * BitVec.ofNat 32 i.val) &&& (0x3C : U32)) >>> 2).toNat = i.val := by
      revert i
      decide
    generalize (0x04000640 + 4 * BitVec.ofNat 32 i.val : U32) = addr at hrange
    obtain ⟨hlow, hhigh, hindex⟩ := hrange
    have hne {c : U32} (hc : c < 0x04000640 ∨ 0x04000680 ≤ c) : addr ≠ c := by
      rintro rfl
      exact hc.elim (fun hlt => absurd hlow (BitVec.not_le.mpr hlt))
        fun hle => absurd hhigh (BitVec.not_lt.mpr hle)
    rw [read32]
    iterate 17 rw [if_neg (hne (by decide))]
    rw [if_pos ⟨hlow, hhigh⟩]
    dsimp only
    rw [h.updateClipMatrix, hindex, elem]
    exact congrArg _ (Fin.ext (Nat.mod_eq_of_lt i.isLt))

/-! ## The stacks -/

/-- The stacks, their pointers and the mode, without the current matrices. -/
def stacksOf (m : Matrices) : Matrices :=
  { m with
    projMatrix := matrixLoadIdentity
    posMatrix := matrixLoadIdentity
    vecMatrix := matrixLoadIdentity
    texMatrix := matrixLoadIdentity }

/-- The matrices of the current mode. -/
def current (m : Matrices) : List Matrix :=
  if m.matrixMode = 0 then [m.projMatrix]
  else if m.matrixMode = 3 then [m.texMatrix]
  else [m.posMatrix, m.vecMatrix]

/-- The commands that use the stacks or change the mode. -/
def CmdFIFOEntry.OnStacks (e : CmdFIFOEntry) : Prop :=
  0x10 ≤ e.command.toNat ∧ e.command.toNat ≤ 0x14

theorem matrices_setTemp (g : GPU3D) (temp : (Fin 4 → StoredVertex) → Fin 4 → StoredVertex) :
    (g.setTemp temp).matrices = g.matrices := rfl

theorem matrices_submitAndKeep (g : GPU3D) (keep : ℕ) :
    (g.submitAndKeep keep).matrices = g.matrices :=
  (sameMatrices_submitPolygon { g with assembly := { g.assembly with vertexNumInPoly := keep } }).matrices

theorem matrices_completePolygon (g : GPU3D) : g.completePolygon.matrices = g.matrices := by
  rw [completePolygon]
  split
  · split_ifs
    · exact matrices_submitAndKeep g 0
    · rfl
  · split_ifs
    · exact matrices_submitAndKeep g 0
    · rfl
  · split_ifs
    · rw [matrices_setTemp, matrices_submitAndKeep, matrices_setTemp]
    · rw [matrices_setTemp, matrices_submitAndKeep]
    · rfl
  · split_ifs
    · rw [matrices_setTemp, matrices_submitAndKeep, matrices_setTemp]
    · rfl
  · rfl

theorem matrices_submitVertex (g : GPU3D) : g.submitVertex.matrices = g.matrices :=
  (matrices_completePolygon g.placeVertex).trans (matrices_updateClipMatrix g)

theorem stacks_changeMatrix (f : Matrix → Matrix) (vec : Bool) (cycles : MatrixCycles) (g : GPU3D) :
    stacksOf (g.changeMatrix f vec cycles).matrices = stacksOf g.matrices := by
  rw [changeMatrix]
  dsimp only
  split_ifs <;> rfl

theorem matrices_posTest (g : GPU3D) : g.posTest.matrices = g.matrices :=
  matrices_updateClipMatrix g

theorem matrices_boxTest (params : ℕ → U32) (g : GPU3D) : (g.boxTest params).matrices = g.matrices := by
  rw [boxTest_eq]
  exact (apply_ite GPU3D.matrices _ _ _).trans ((ite_self _).trans (matrices_updateClipMatrix _))

theorem matrices_diffuseAmbient (param : U32) (g : GPU3D) :
    (g.diffuseAmbient param).matrices = g.matrices := by
  rw [diffuseAmbient]
  split_ifs <;> rfl

theorem stacks_multiCommand (command : U8) (params : ℕ → U32) (g : GPU3D) :
    stacksOf (multiCommand command params g).matrices = stacksOf g.matrices := by
  rw [multiCommand]
  split
  case h_8 => exact congrArg stacksOf (matrices_submitVertex _)
  case h_9 => rfl
  case h_10 => exact congrArg stacksOf (matrices_posTest _)
  case h_11 => exact congrArg stacksOf (matrices_boxTest _ _)
  case h_12 => rfl
  all_goals exact stacks_changeMatrix _ _ _ g

theorem stacks_identityMatrix (g : GPU3D) :
    stacksOf g.identityMatrix.matrices = stacksOf g.matrices := by
  rw [identityMatrix]
  split_ifs <;> rfl

theorem stacks_singleCommand {e : CmdFIFOEntry} (he : ¬e.OnStacks) (g : GPU3D) :
    stacksOf (g.singleCommand e.command e.param).matrices = stacksOf g.matrices := by
  have hout (n : ℕ) (hn : 0x10 ≤ n ∧ n ≤ 0x14) : e.command.toNat ≠ n := fun h => he (by rwa [CmdFIFOEntry.OnStacks, h])
  rw [singleCommand]
  split
  case h_1 h => exact absurd h (hout _ (by decide))
  case h_2 h => exact absurd h (hout _ (by decide))
  case h_3 h => exact absurd h (hout _ (by decide))
  case h_4 h => exact absurd h (hout _ (by decide))
  case h_5 h => exact absurd h (hout _ (by decide))
  case h_6 => exact stacks_identityMatrix g
  case h_10 => exact congrArg stacksOf (matrices_submitVertex _)
  case h_11 => exact congrArg stacksOf (matrices_submitVertex _)
  case h_12 => exact congrArg stacksOf (matrices_submitVertex _)
  case h_13 => exact congrArg stacksOf (matrices_submitVertex _)
  case h_14 => exact congrArg stacksOf (matrices_submitVertex _)
  case h_18 => exact congrArg stacksOf (matrices_diffuseAmbient _ g)
  all_goals rfl

theorem stacks_executeEntry {e : CmdFIFOEntry} (he : ¬e.OnStacks) (g : GPU3D) :
    stacksOf (executeEntry e g).matrices = stacksOf g.matrices := by
  rw [executeEntry_eq]
  split_ifs
  · exact stacks_singleCommand he g
  · rfl
  · exact stacks_multiCommand _ _ _
  · rfl

/-- The entries one after the other. -/
def executeAll (entries : List CmdFIFOEntry) (g : GPU3D) : GPU3D :=
  entries.foldl (fun g e => executeEntry e g) g

theorem stacks_executeAll {entries : List CmdFIFOEntry} (h : ∀ e ∈ entries, ¬e.OnStacks)
    (g : GPU3D) : stacksOf (executeAll entries g).matrices = stacksOf g.matrices := by
  induction entries generalizing g with
  | nil => rfl
  | cons e entries ih =>
    obtain ⟨he, hentries⟩ := List.forall_mem_cons.mp h
    exact (ih hentries (executeEntry e g)).trans (stacks_executeEntry he g)

/-! ## Store and restore, push and pop -/

/-- The pointer of the stack of the current mode. -/
def depth (m : Matrices) : S32 :=
  if m.matrixMode = 0 then m.projMatrixStackPointer
  else if m.matrixMode = 3 then m.texMatrixStackPointer
  else m.posMatrixStackPointer

/-- The bits of that pointer. -/
def depthMask (m : Matrices) : S32 :=
  if m.matrixMode = 0 then 0x1 else if m.matrixMode = 3 then 0x1 else 0x3F

/-- What the stacks hold for the current mode, under the given position slot. -/
def saved (slot : Fin 32) (m : Matrices) : List Matrix :=
  if m.matrixMode = 0 then [m.projMatrixStack]
  else if m.matrixMode = 3 then [m.texMatrixStack]
  else [m.posMatrixStack slot, m.vecMatrixStack slot]

section
variable {m m' : Matrices}

theorem saved_congr (h : stacksOf m = stacksOf m') (slot : Fin 32) : saved slot m = saved slot m' :=
  calc saved slot m = saved slot (stacksOf m) := rfl
    _ = saved slot (stacksOf m') := congrArg _ h
    _ = saved slot m' := rfl

theorem depth_congr (h : stacksOf m = stacksOf m') : depth m = depth m' :=
  calc depth m = depth (stacksOf m) := rfl
    _ = depth (stacksOf m') := congrArg _ h
    _ = depth m' := rfl

theorem depthMask_congr (h : stacksOf m = stacksOf m') : depthMask m = depthMask m' :=
  calc depthMask m = depthMask (stacksOf m) := rfl
    _ = depthMask (stacksOf m') := congrArg _ h
    _ = depthMask m' := rfl

end

theorem matrices_noteStackError (error : Bool) (g : GPU3D) :
    (g.noteStackError error).matrices = g.matrices := by
  rw [noteStackError]
  split_ifs <;> rfl

theorem matrices_addCycles (num : ℤ) (g : GPU3D) : (g.addCycles num).matrices = g.matrices := rfl

theorem matrices_dirtyClipMatrix (g : GPU3D) : g.dirtyClipMatrix.matrices = g.matrices := rfl

theorem matrices_setMatrices (f : Matrices → Matrices) (g : GPU3D) :
    (g.setMatrices f).matrices = f g.matrices := rfl

/-! Each command on the stacks changes the matrices as follows. -/

theorem matrices_storeMatrix (param : U32) (g : GPU3D) :
    (g.storeMatrix param).matrices =
      if g.matrices.matrixMode = 0 then
        { g.matrices with projMatrixStack := g.matrices.projMatrix }
      else if g.matrices.matrixMode = 3 then
        { g.matrices with texMatrixStack := g.matrices.texMatrix }
      else storePosition (stackSlot param) g.matrices := by
  have hstart : (g.timed .vertexPipelineCmdDelayed4).matrices = g.matrices := rfl
  rw [storeMatrix]
  dsimp only
  rw [hstart, matrices_addCycles]
  split_ifs
  · rfl
  · rfl
  · rw [matrices_setMatrices, matrices_noteStackError, hstart]

theorem matrices_restoreMatrix (param : U32) (g : GPU3D) :
    (g.restoreMatrix param).matrices =
      if g.matrices.matrixMode = 0 then
        { g.matrices with projMatrix := g.matrices.projMatrixStack }
      else if g.matrices.matrixMode = 3 then
        { g.matrices with texMatrix := g.matrices.texMatrixStack }
      else restorePosition (stackSlot param) g.matrices := by
  have hstart : (g.timed .vertexPipelineCmdDelayed4).matrices = g.matrices := rfl
  rw [restoreMatrix]
  dsimp only
  rw [hstart]
  split_ifs
  · rfl
  · rfl
  · rw [matrices_addCycles, matrices_dirtyClipMatrix, matrices_setMatrices,
      matrices_noteStackError, hstart]

theorem matrices_pushMatrix (g : GPU3D) :
    g.pushMatrix.matrices =
      if g.matrices.matrixMode = 0 then
        { g.matrices with
          projMatrixStack := g.matrices.projMatrix
          projMatrixStackPointer := (g.matrices.projMatrixStackPointer + 1) &&& 0x1 }
      else if g.matrices.matrixMode = 3 then
        { g.matrices with
          texMatrixStack := g.matrices.texMatrix
          texMatrixStackPointer := (g.matrices.texMatrixStackPointer + 1) &&& 0x1 }
      else
        { storePosition (stackSlot g.matrices.posMatrixStackPointer) g.matrices with
          posMatrixStackPointer := (g.matrices.posMatrixStackPointer + 1) &&& 0x3F } := by
  have hstart : (g.timed .vertexPipelineCmdDelayed4).notePushPop.matrices = g.matrices := rfl
  rw [pushMatrix]
  dsimp only
  rw [hstart, matrices_addCycles]
  split_ifs
  · rw [matrices_setMatrices, matrices_noteStackError, hstart]
  · rw [matrices_setMatrices, matrices_noteStackError, hstart]
  · rw [matrices_setMatrices, matrices_noteStackError, hstart]

/-- The position stack's pointer after a pop. -/
def poppedPointer (param : U32) (pointer : S32) : S32 :=
  (pointer - (param <<< 26).sshiftRight 26) &&& 0x3F

theorem matrices_popMatrix (param : U32) (g : GPU3D) :
    (g.popMatrix param).matrices =
      if g.matrices.matrixMode = 0 then
        { g.matrices with
          projMatrixStackPointer := (g.matrices.projMatrixStackPointer - 1) &&& 0x1
          projMatrix := g.matrices.projMatrixStack }
      else if g.matrices.matrixMode = 3 then
        { g.matrices with
          texMatrixStackPointer := (g.matrices.texMatrixStackPointer - 1) &&& 0x1
          texMatrix := g.matrices.texMatrixStack }
      else
        restorePosition (stackSlot (poppedPointer param g.matrices.posMatrixStackPointer))
          { g.matrices with
            posMatrixStackPointer := poppedPointer param g.matrices.posMatrixStackPointer } := by
  have hstart : (g.timed .vertexPipelineCmdDelayed4).notePushPop.matrices = g.matrices := rfl
  rw [popMatrix]
  dsimp only
  rw [hstart]
  split_ifs
  · rw [matrices_addCycles, matrices_dirtyClipMatrix, matrices_setMatrices,
      matrices_noteStackError, hstart]
  · rw [matrices_addCycles, matrices_setMatrices, matrices_noteStackError, hstart]
  · rw [matrices_addCycles, matrices_dirtyClipMatrix, matrices_setMatrices,
      matrices_noteStackError, hstart]
    rfl

/-! What one command saves the other finds. -/

theorem stored_position (slot : Fin 32) (m : Matrices) :
    [(storePosition slot m).posMatrixStack slot, (storePosition slot m).vecMatrixStack slot] =
      [m.posMatrix, m.vecMatrix] :=
  congrArg₂ (fun position vector => [position, vector]) (Function.update_self ..)
    (Function.update_self ..)

theorem saved_storeMatrix (param : U32) (g : GPU3D) :
    saved (stackSlot param) (g.storeMatrix param).matrices = current g.matrices := by
  rw [matrices_storeMatrix, current]
  split_ifs with hproj htex
  · rw [saved, if_pos hproj]
  · rw [saved, if_neg hproj, if_pos htex]
  · exact ((if_neg hproj).trans (if_neg htex)).trans (stored_position _ g.matrices)

theorem current_restoreMatrix (param : U32) (g : GPU3D) :
    current (g.restoreMatrix param).matrices = saved (stackSlot param) g.matrices := by
  rw [matrices_restoreMatrix, saved]
  split_ifs with hproj htex
  · rw [current, if_pos hproj]
  · rw [current, if_neg hproj, if_pos htex]
  · rw [current, restorePosition, if_neg hproj, if_neg htex]

theorem saved_pushMatrix (g : GPU3D) :
    saved (stackSlot (depth g.matrices)) g.pushMatrix.matrices = current g.matrices := by
  rw [matrices_pushMatrix, current, depth]
  split_ifs with hproj htex
  · rw [saved, if_pos hproj]
  · rw [saved, if_neg hproj, if_pos htex]
  · exact ((if_neg hproj).trans (if_neg htex)).trans (stored_position _ g.matrices)

theorem current_popMatrix (param : U32) (g : GPU3D) :
    current (g.popMatrix param).matrices =
      saved (stackSlot (poppedPointer param (depth g.matrices))) g.matrices := by
  rw [matrices_popMatrix, saved, depth]
  split_ifs with hproj htex
  · rw [current, if_pos hproj]
  · rw [current, if_neg hproj, if_pos htex]
  · exact (if_neg hproj).trans (if_neg htex)

theorem matrixMode_pushMatrix (g : GPU3D) :
    g.pushMatrix.matrices.matrixMode = g.matrices.matrixMode := by
  rw [matrices_pushMatrix]
  split_ifs <;> rfl

theorem depth_pushMatrix (g : GPU3D) :
    depth g.pushMatrix.matrices = (depth g.matrices + 1) &&& depthMask g.matrices := by
  rw [matrices_pushMatrix, depth.eq_def g.matrices, depthMask]
  split_ifs with hproj htex
  · exact if_pos hproj
  · exact (if_neg hproj).trans (if_pos htex)
  · exact (if_neg hproj).trans (if_neg htex)

theorem depth_popMatrix {param : U32} (hone : (param <<< 26).sshiftRight 26 = 1) (g : GPU3D) :
    depth (g.popMatrix param).matrices = (depth g.matrices - 1) &&& depthMask g.matrices := by
  rw [matrices_popMatrix, poppedPointer, hone, depth.eq_def g.matrices, depthMask]
  split_ifs with hproj htex
  · exact if_pos hproj
  · exact (if_neg hproj).trans (if_pos htex)
  · exact (if_neg hproj).trans (if_neg htex)

theorem toNat_and_one (pointer : S32) : (pointer &&& 0x1).toNat = pointer.toNat % 2 :=
  (BitVec.toNat_and ..).trans (Nat.and_two_pow_sub_one_eq_mod pointer.toNat 1)

theorem toNat_and_63 (pointer : S32) : (pointer &&& 0x3F).toNat = pointer.toNat % 64 :=
  (BitVec.toNat_and ..).trans (Nat.and_two_pow_sub_one_eq_mod pointer.toNat 6)

theorem toNat_and_31 (pointer : S32) : (pointer &&& 0x1F).toNat = pointer.toNat % 32 :=
  (BitVec.toNat_and ..).trans (Nat.and_two_pow_sub_one_eq_mod pointer.toNat 5)

/-- One up and one down again within the bits of a pointer. -/
theorem up_and_down (pointer : S32) (m : Matrices) :
    (((pointer + 1) &&& depthMask m) - 1) &&& depthMask m = pointer &&& depthMask m := by
  have hone : (1 : S32).toNat = 1 := rfl
  have hbound := pointer.isLt
  apply BitVec.eq_of_toNat_eq
  rw [depthMask]
  split_ifs
  · rw [toNat_and_one, BitVec.toNat_sub, toNat_and_one, BitVec.toNat_add, toNat_and_one, hone]
    omega
  · rw [toNat_and_one, BitVec.toNat_sub, toNat_and_one, BitVec.toNat_add, toNat_and_one, hone]
    omega
  · rw [toNat_and_63, BitVec.toNat_sub, toNat_and_63, BitVec.toNat_add, toNat_and_63, hone]
    omega

/-- The position stack has 32 entries under a pointer of six bits. -/
theorem stackSlot_and_63 (pointer : S32) : stackSlot (pointer &&& 0x3F) = stackSlot pointer := by
  have hbits : (pointer &&& 0x3F) &&& 0x1F = pointer &&& 0x1F := by
    rw [BitVec.and_assoc]
    rfl
  rw [stackSlot, stackSlot, hbits]

theorem saved_slot {m : Matrices} (hmode : m.matrixMode = 0 ∨ m.matrixMode = 3)
    (slot slot' : Fin 32) : saved slot m = saved slot' m := by
  rw [saved, saved]
  split_ifs with hproj htex
  · rfl
  · rfl
  · exact absurd hmode (not_or.mpr ⟨hproj, htex⟩)

theorem depthMask_position {m : Matrices} (hmode : ¬(m.matrixMode = 0 ∨ m.matrixMode = 3)) :
    depthMask m = 0x3F := by
  rw [depthMask, if_neg (not_or.mp hmode).1, if_neg (not_or.mp hmode).2]

section
variable {s t : GPU3D} {param param' : U32}

/-- What is stored in a slot is found there, if nothing but the current matrices has changed. -/
theorem current_store_restore
    (hstacks : stacksOf t.matrices = stacksOf (s.storeMatrix param).matrices)
    (hslot : stackSlot param' = stackSlot param) :
    current (t.restoreMatrix param').matrices = current s.matrices := by
  rw [current_restoreMatrix, hslot, saved_congr hstacks, saved_storeMatrix]

theorem current_push_pop (hstacks : stacksOf t.matrices = stacksOf s.pushMatrix.matrices)
    (hone : (param <<< 26).sshiftRight 26 = 1) :
    current (t.popMatrix param).matrices = current s.matrices := by
  rw [current_popMatrix, saved_congr hstacks, depth_congr hstacks, depth_pushMatrix, poppedPointer,
    hone, ← saved_pushMatrix]
  by_cases hmode : s.matrices.matrixMode = 0 ∨ s.matrices.matrixMode = 3
  · exact saved_slot ((matrixMode_pushMatrix s).symm ▸ hmode) _ _
  · have hmask := depthMask_position hmode
    have hback := up_and_down (depth s.matrices) s.matrices
    rw [hmask] at hback ⊢
    rw [hback, stackSlot_and_63]

theorem depth_push_pop (hstacks : stacksOf t.matrices = stacksOf s.pushMatrix.matrices)
    (hone : (param <<< 26).sshiftRight 26 = 1) :
    depth (t.popMatrix param).matrices = depth s.matrices &&& depthMask s.matrices := by
  have hmask : depthMask s.pushMatrix.matrices = depthMask s.matrices := by
    rw [depthMask, depthMask, matrixMode_pushMatrix]
  rw [depth_popMatrix hone, depth_congr hstacks, depthMask_congr hstacks, hmask, depth_pushMatrix,
    up_and_down]

end

/-- In every reached state the uses of the clip matrix see the product of the current matrices;
the stacks are accessed inside their arrays; and between commands that leave the stacks alone a
restore undoes the store of the same slot and a pop of one undoes the push. -/
theorem clip_matrix_and_stacks :
    (∀ g : GPU3D, MatrixReached g → SeesProduct g) ∧
      (∀ pointer : S32, (pointer &&& 0x1F).toNat < 32 ∧
        (stackSlot pointer).val = (pointer &&& 0x1F).toNat) ∧
      ∀ (g : GPU3D) (entries : List CmdFIFOEntry), (∀ e ∈ entries, ¬e.OnStacks) →
        (∀ param param' : U32, param' &&& 0x1F = param &&& 0x1F →
          current (executeEntry ⟨0x14, param'⟩
            (executeAll entries (executeEntry ⟨0x13, param⟩ g))).matrices = current g.matrices) ∧
        ∀ ignored param : U32, (param <<< 26).sshiftRight 26 = 1 →
          current (executeEntry ⟨0x12, param⟩
            (executeAll entries (executeEntry ⟨0x11, ignored⟩ g))).matrices = current g.matrices ∧
          depth (executeEntry ⟨0x12, param⟩
            (executeAll entries (executeEntry ⟨0x11, ignored⟩ g))).matrices =
              depth g.matrices &&& depthMask g.matrices := by
  refine ⟨fun g hg => hg.clipValid.seesProduct, fun pointer => ?_, fun g entries hentries => ?_⟩
  · have hlt : (pointer &&& 0x1F).toNat < 32 := by
      rw [toNat_and_31]
      exact Nat.mod_lt _ (by decide)
    exact ⟨hlt, Nat.mod_eq_of_lt hlt⟩
  · constructor
    · intro param param' hslot
      exact current_store_restore (stacks_executeAll hentries _)
        (congrArg (fun p : U32 => Fin.ofNat 32 p.toNat) hslot)
    · intro ignored param hone
      exact ⟨current_push_pop (stacks_executeAll hentries _) hone,
        depth_push_pop (stacks_executeAll hentries _) hone⟩

end GPU3D
end MelonDS
