import MelonDS.GPU3D.Savestate

/-!
# Engines that behave alike

Two engines are alike when they differ only in how the command FIFO keeps what it holds, in
the clip matrix, which in both is right or due to be computed, in the reciprocals of the
lights, and in `RenderFrameIdentical`. Every operation keeps engines alike, except that
lighting has to find the same reciprocals in both.
-/

namespace MelonDS
namespace GPU3D

structure Patch where
  queue : CommandEngine
  derived : Derived
  renderFrameIdentical : Bool

def patch (g : GPU3D) (p : Patch) : GPU3D :=
  { g with queue := p.queue, derived := p.derived, renderFrameIdentical := p.renderFrameIdentical }

/-- The clip matrix is the product of the two matrices, unless it is due to be computed. -/
def Derived.Valid (d : Derived) (m : Matrices) : Prop :=
  d.clipMatrixDirty = false → d.clipMatrix = clipMatrixOf m

structure Fits (g : GPU3D) (p : Patch) : Prop where
  queue : g.queue.Alike p.queue
  clip : g.derived.Valid g.matrices
  clip' : p.derived.Valid g.matrices

def Alike (g g' : GPU3D) : Prop := ∃ p, g.Fits p ∧ g' = g.patch p

namespace Alike
variable {g g' : GPU3D}

theorem matrices (h : g.Alike g') : g'.matrices = g.matrices := by
  obtain ⟨p, -, rfl⟩ := h
  rfl

theorem attributes (h : g.Alike g') : g'.attributes = g.attributes := by
  obtain ⟨p, -, rfl⟩ := h
  rfl

theorem scene (h : g.Alike g') : g'.scene = g.scene := by
  obtain ⟨p, -, rfl⟩ := h
  rfl

theorem timing (h : g.Alike g') : g'.timing = g.timing := by
  obtain ⟨p, -, rfl⟩ := h
  rfl

theorem queue (h : g.Alike g') : g.queue.Alike g'.queue := by
  obtain ⟨p, hp, rfl⟩ := h
  exact hp.queue

theorem ite {c : Prop} [Decidable c] {x x' y y' : GPU3D} (hx : x.Alike x') (hy : y.Alike y') :
    Alike (if c then x else y) (if c then x' else y') := by
  split_ifs
  · exact hx
  · exact hy

/-! ## The changes commands are made of -/

/-- A change that neither reads nor writes what may differ. -/
theorem commute {F : GPU3D → GPU3D} (h : g.Alike g') (hF : ∀ p, F (g.patch p) = (F g).patch p)
    (hqueue : (F g).queue = g.queue) (hderived : (F g).derived = g.derived)
    (hmatrices : (F g).matrices = g.matrices) : (F g).Alike (F g') := by
  obtain ⟨p, hp, rfl⟩ := h
  refine ⟨p, ⟨?_, ?_, ?_⟩, hF p⟩
  · rw [hqueue]
    exact hp.queue
  · rw [hderived, hmatrices]
    exact hp.clip
  · rw [hmatrices]
    exact hp.clip'

theorem timed (h : g.Alike g') (f : Timing → Timing) : (g.timed f).Alike (g'.timed f) :=
  h.commute (F := GPU3D.timed f) (fun _ => Eq.refl _) (Eq.refl _) (Eq.refl _) (Eq.refl _)

theorem addCycles (h : g.Alike g') (num : ℤ) : (g.addCycles num).Alike (g'.addCycles num) :=
  h.timed _

theorem setAttributes (h : g.Alike g') (f : Attributes → Attributes) :
    (g.setAttributes f).Alike (g'.setAttributes f) :=
  h.commute (F := GPU3D.setAttributes f) (fun _ => Eq.refl _) (Eq.refl _) (Eq.refl _) (Eq.refl _)

theorem setLighting (h : g.Alike g') (f : Lighting → Lighting) :
    (g.setLighting f).Alike (g'.setLighting f) :=
  h.commute (F := GPU3D.setLighting f) (fun _ => Eq.refl _) (Eq.refl _) (Eq.refl _) (Eq.refl _)

theorem setScene (h : g.Alike g') (f : Scene → Scene) : (g.setScene f).Alike (g'.setScene f) :=
  h.commute (F := GPU3D.setScene f) (fun _ => Eq.refl _) (Eq.refl _) (Eq.refl _) (Eq.refl _)

theorem setAssembly (h : g.Alike g') (f : Assembly → Assembly) :
    Alike { g with assembly := f g.assembly } { g' with assembly := f g'.assembly } :=
  h.commute (F := fun g => { g with assembly := f g.assembly }) (fun _ => Eq.refl _) (Eq.refl _)
    (Eq.refl _) (Eq.refl _)

theorem putAssembly (h : g.Alike g') (a : Assembly) :
    Alike { g with assembly := a } { g' with assembly := a } := h.setAssembly fun _ => a

theorem setTests (h : g.Alike g') (f : TestResults → TestResults) :
    Alike { g with tests := f g.tests } { g' with tests := f g'.tests } :=
  h.commute (F := fun g => { g with tests := f g.tests }) (fun _ => Eq.refl _) (Eq.refl _)
    (Eq.refl _) (Eq.refl _)

theorem setTimestamp (h : g.Alike g') (now : U64) :
    Alike { g with timestamp := now } { g' with timestamp := now } :=
  h.commute (F := fun g => { g with timestamp := now }) (fun _ => Eq.refl _) (Eq.refl _)
    (Eq.refl _) (Eq.refl _)

theorem setRegisters (h : g.Alike g') (f : Registers → Registers) :
    (g.setRegisters f).Alike (g'.setRegisters f) :=
  h.commute (F := GPU3D.setRegisters f) (fun _ => Eq.refl _) (Eq.refl _) (Eq.refl _) (Eq.refl _)

theorem setZeroDotWLimit (h : g.Alike g') (limit : U32) :
    Alike { g with zeroDotWLimit := limit } { g' with zeroDotWLimit := limit } :=
  h.commute (F := fun g => { g with zeroDotWLimit := limit }) (fun _ => Eq.refl _) (Eq.refl _)
    (Eq.refl _) (Eq.refl _)

/-- A change of the queues. -/
theorem setQueue (h : g.Alike g') {q q' : CommandEngine} (hq : q.Alike q') :
    Alike { g with queue := q } { g' with queue := q' } := by
  obtain ⟨p, hp, rfl⟩ := h
  exact ⟨{ p with queue := q' }, ⟨hq, hp.clip, hp.clip'⟩, Eq.refl _⟩

theorem setStat (h : g.Alike g') (f : U32 → U32) : (g.setStat f).Alike (g'.setStat f) :=
  h.setQueue (h.queue.setStat f)

theorem notePushPop (h : g.Alike g') : g.notePushPop.Alike g'.notePushPop := by
  refine h.setQueue ?_
  obtain ⟨f, hf, heq⟩ := h.queue
  rw [heq]
  exact ⟨f, hf, rfl⟩

theorem noteTests (h : g.Alike g') (entries : U32) :
    (g.noteTests entries).Alike (g'.noteTests entries) := by
  refine h.setQueue ?_
  obtain ⟨f, hf, heq⟩ := h.queue
  rw [heq]
  exact ⟨f, hf, rfl⟩

theorem noteStackError (h : g.Alike g') (error : Bool) :
    (g.noteStackError error).Alike (g'.noteStackError error) :=
  ite (h.setStat _) h

/-- A change of the matrices that leaves the projection and the position as they are. -/
theorem setMatrices (h : g.Alike g') {f : Matrices → Matrices}
    (hf : ∀ m, (f m).projMatrix = m.projMatrix ∧ (f m).posMatrix = m.posMatrix) :
    (g.setMatrices f).Alike (g'.setMatrices f) := by
  obtain ⟨p, hp, rfl⟩ := h
  have hclip : clipMatrixOf (f g.matrices) = clipMatrixOf g.matrices := by
    rw [clipMatrixOf, clipMatrixOf, (hf g.matrices).1, (hf g.matrices).2]
  exact ⟨p, ⟨hp.queue, fun hd => (hp.clip hd).trans hclip.symm,
    fun hd => (hp.clip' hd).trans hclip.symm⟩, Eq.refl _⟩

/-- Any other change of the matrices has a new clip matrix computed. -/
theorem dirty (h : g.Alike g') (f : Matrices → Matrices) (num : ℤ) :
    ((g.setMatrices f).dirtyClipMatrix.addCycles num).Alike
      ((g'.setMatrices f).dirtyClipMatrix.addCycles num) := by
  obtain ⟨p, hp, rfl⟩ := h
  exact ⟨{ p with derived := { p.derived with clipMatrixDirty := true } },
    ⟨hp.queue, fun hd => Bool.noConfusion hd, fun hd => Bool.noConfusion hd⟩, Eq.refl _⟩

/-- Once it is computed, the clip matrix is the same in both. -/
theorem updateClipMatrix (h : g.Alike g') :
    g.updateClipMatrix.Alike g'.updateClipMatrix ∧
      g'.updateClipMatrix.derived.clipMatrix = g.updateClipMatrix.derived.clipMatrix := by
  have hvalue (x : GPU3D) (hx : x.derived.Valid x.matrices) :
      x.updateClipMatrix.derived.clipMatrix = clipMatrixOf x.matrices := by
    rw [GPU3D.updateClipMatrix]
    split_ifs with hdirty
    · rfl
    · exact hx (Bool.eq_false_iff.mpr hdirty)
  have hsame (x : GPU3D) : x.updateClipMatrix = x.patch ⟨x.queue, x.updateClipMatrix.derived,
      x.renderFrameIdentical⟩ := by
    rw [GPU3D.updateClipMatrix]
    split_ifs <;> exact Eq.refl _
  have hvalid (x : GPU3D) (hx : x.derived.Valid x.matrices) :
      x.updateClipMatrix.derived.Valid x.matrices := fun _ => hvalue x hx
  obtain ⟨p, hp, rfl⟩ := h
  refine ⟨?_, (hvalue (g.patch p) hp.clip').trans (hvalue g hp.clip).symm⟩
  rw [hsame g, hsame (g.patch p)]
  exact ⟨⟨p.queue, (g.patch p).updateClipMatrix.derived, p.renderFrameIdentical⟩,
    ⟨hp.queue, hvalid g hp.clip, hvalid (g.patch p) hp.clip'⟩, Eq.refl _⟩

end Alike
end GPU3D
end MelonDS
