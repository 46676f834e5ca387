import MelonDS.GPU3D.AlikeCommands

/-!
# What a command takes off the busy counters

The matrix stack commands take one off `NumPushPopCommands` and the tests take their entries
off `NumTestCommands`. Apart from that a command leaves the queues alone, and it does not
touch the busy bits of the status register.
-/

namespace MelonDS
namespace GPU3D

/-- The queues, the counters, the parameters collected and the busy bits stay as they are. -/
structure Steady (g g' : GPU3D) : Prop where
  queue : g'.queue =
    { g.queue with gxStat := g'.queue.gxStat, gxfifoIRQ := g'.queue.gxfifoIRQ }
  stat : ∀ i ∈ [0, 14, 27], g'.queue.gxStat.getLsbD i = g.queue.gxStat.getLsbD i
  params : g'.execParamCount = g.execParamCount

theorem Steady.refl (g : GPU3D) : Steady g g := ⟨rfl, fun _ _ => rfl, rfl⟩

theorem Steady.trans {g g' g'' : GPU3D} (h : Steady g g') (h' : Steady g' g'') : Steady g g'' :=
  ⟨by rw [h'.queue, h.queue], fun i hi => (h'.stat i hi).trans (h.stat i hi),
    h'.params.trans h.params⟩

theorem Steady.ite {c : Prop} [Decidable c] {g x y : GPU3D} (hx : Steady g x)
    (hy : Steady g y) : Steady g (if c then x else y) := by
  split_ifs
  · exact hx
  · exact hy

/-! ## Changes of one group of fields -/

theorem steady_timed (f : Timing → Timing) (g : GPU3D) : Steady g (g.timed f) :=
  ⟨rfl, fun _ _ => rfl, rfl⟩

theorem steady_addCycles (num : ℤ) (g : GPU3D) : Steady g (g.addCycles num) :=
  steady_timed _ g

theorem steady_setMatrices (f : Matrices → Matrices) (g : GPU3D) : Steady g (g.setMatrices f) :=
  ⟨rfl, fun _ _ => rfl, rfl⟩

theorem steady_setAttributes (f : Attributes → Attributes) (g : GPU3D) :
    Steady g (g.setAttributes f) := ⟨rfl, fun _ _ => rfl, rfl⟩

theorem steady_setLighting (f : Lighting → Lighting) (g : GPU3D) : Steady g (g.setLighting f) :=
  ⟨rfl, fun _ _ => rfl, rfl⟩

theorem steady_setScene (f : Scene → Scene) (g : GPU3D) : Steady g (g.setScene f) :=
  ⟨rfl, fun _ _ => rfl, rfl⟩

theorem steady_dirty (num : ℤ) (g : GPU3D) : Steady g (g.dirtyClipMatrix.addCycles num) :=
  ⟨rfl, fun _ _ => rfl, rfl⟩

theorem getLsbD_bit (n i : ℕ) (h : i < 32) : (bit 32 n).getLsbD i = decide (i = n) := by
  rw [bit, BitVec.getLsbD_twoPow, ← Bool.decide_and]
  exact decide_eq_decide.mpr ⟨fun hn => hn.2.symm, fun hi => ⟨hi ▸ h, hi.symm⟩⟩

theorem getLsbD_or_bit (x : U32) {n i : ℕ} (h : i ≠ n) :
    (x ||| bit 32 n).getLsbD i = x.getLsbD i := by
  rw [BitVec.getLsbD_or]
  by_cases hi : i < 32
  · rw [getLsbD_bit n i hi, decide_eq_false h, Bool.or_false]
  · rw [BitVec.getLsbD_of_ge (bit 32 n) i (by omega), Bool.or_false]

theorem getLsbD_and_not_bit (x : U32) {n i : ℕ} (h : i ≠ n) :
    (x &&& ~~~bit 32 n).getLsbD i = x.getLsbD i := by
  by_cases hi : i < 32
  · rw [BitVec.getLsbD_and, BitVec.getLsbD_not, decide_eq_true hi, getLsbD_bit n i hi,
      decide_eq_false h]
    simp only [Bool.not_false, Bool.and_true]
  · rw [BitVec.getLsbD_of_ge _ i (by omega), BitVec.getLsbD_of_ge _ i (by omega)]

/-- The status register changes in a bit that is not a busy bit. -/
theorem steady_setStat (f : U32 → U32) (g : GPU3D)
    (hf : ∀ x, ∀ i ∈ [0, 14, 27], (f x).getLsbD i = x.getLsbD i) : Steady g (g.setStat f) :=
  ⟨rfl, fun i hi => hf _ i hi, rfl⟩

theorem busy_ne {n i : ℕ} (hn : n = 1 ∨ n = 15) (hi : i ∈ [0, 14, 27]) : i ≠ n := by
  simp only [List.mem_cons, List.not_mem_nil, or_false] at hi
  omega

theorem steady_noteStackError (error : Bool) (g : GPU3D) : Steady g (g.noteStackError error) := by
  rw [noteStackError]
  exact .ite (steady_setStat _ g fun x _ hi => getLsbD_or_bit x (busy_ne (.inr rfl) hi)) (.refl g)

theorem steady_stack (error : Bool) (f : Matrices → Matrices) (g : GPU3D) :
    Steady g ((g.noteStackError error).setMatrices f) :=
  (steady_noteStackError error g).trans (steady_setMatrices f _)

theorem steady_updateClipMatrix (g : GPU3D) : Steady g g.updateClipMatrix := by
  rw [updateClipMatrix]
  exact .ite ⟨rfl, fun _ _ => rfl, rfl⟩ (.refl g)

/-! ## Vertices and polygons -/

theorem steady_submitPolygon (g : GPU3D) : Steady g g.submitPolygon := by
  rw [submitPolygon]
  dsimp only
  refine .ite ⟨rfl, fun _ _ => rfl, rfl⟩ ?_
  refine .ite ⟨rfl, fun _ _ => rfl, rfl⟩ ?_
  refine .ite ⟨rfl, fun _ _ => rfl, rfl⟩ ?_
  exact .ite ⟨rfl, fun _ _ => rfl, rfl⟩ ⟨rfl, fun _ _ => rfl, rfl⟩

theorem steady_setTemp (temp : (Fin 4 → StoredVertex) → Fin 4 → StoredVertex) (g : GPU3D) :
    Steady g (g.setTemp temp) := ⟨rfl, fun _ _ => rfl, rfl⟩

theorem steady_submitAndKeep (keep : ℕ) (g : GPU3D) : Steady g (g.submitAndKeep keep) := by
  have hkept : Steady g { g with assembly := { g.assembly with vertexNumInPoly := keep } } :=
    ⟨rfl, fun _ _ => rfl, rfl⟩
  rw [submitAndKeep]
  exact (hkept.trans (steady_submitPolygon _)).trans ⟨rfl, fun _ _ => rfl, rfl⟩

theorem steady_rearranged (before : (Fin 4 → StoredVertex) → Fin 4 → StoredVertex)
    (after : (Fin 4 → StoredVertex) → Fin 4 → StoredVertex) (g : GPU3D) :
    Steady g (((g.setTemp before).submitAndKeep 2).setTemp after) :=
  ((steady_setTemp before g).trans (steady_submitAndKeep 2 _)).trans (steady_setTemp after _)

theorem steady_completePolygon (g : GPU3D) : Steady g g.completePolygon := by
  rw [completePolygon]
  split
  · exact .ite (steady_submitAndKeep 0 g) (.refl g)
  · exact .ite (steady_submitAndKeep 0 g) (.refl g)
  · exact .ite (steady_rearranged _ _ g)
      (.ite ((steady_submitAndKeep 2 g).trans (steady_setTemp _ _)) (.refl g))
  · exact .ite (steady_rearranged _ _ g) (.refl g)
  · exact .refl g

theorem steady_submitVertex (g : GPU3D) : Steady g g.submitVertex := by
  have hplace : Steady g g.placeVertex := by
    rw [placeVertex_eq]
    exact (steady_updateClipMatrix g).trans ⟨rfl, fun _ _ => rfl, rfl⟩
  exact (hplace.trans (steady_completePolygon _)).trans (steady_timed _ _)

theorem steady_vertexCommand (f : (Fin 3 → S16) → Fin 3 → S16) (g : GPU3D) :
    Steady g (g.vertexCommand f) :=
  ((steady_timed _ g).trans (steady_setAttributes _ _)).trans (steady_submitVertex _)

/-! ## Matrices -/

theorem steady_pushMatrix (g : GPU3D) : Steady g.notePushPop g.pushMatrix := by
  rw [pushMatrix]
  dsimp only
  refine Steady.trans (steady_timed .vertexPipelineCmdDelayed4 g.notePushPop) ?_
  refine Steady.trans ?_ (steady_addCycles 16 _)
  exact .ite (steady_stack _ _ _) (.ite (steady_stack _ _ _) (steady_stack _ _ _))

theorem steady_popMatrix (param : U32) (g : GPU3D) : Steady g.notePushPop (g.popMatrix param) := by
  rw [popMatrix]
  dsimp only
  refine Steady.trans (steady_timed .vertexPipelineCmdDelayed4 g.notePushPop) ?_
  refine .ite ?_ (.ite ?_ ?_)
  · exact (steady_stack _ _ _).trans (steady_dirty 35 _)
  · exact (steady_stack _ _ _).trans (steady_addCycles 17 _)
  · exact (steady_stack _ _ _).trans (steady_dirty 35 _)

theorem steady_storeMatrix (param : U32) (g : GPU3D) : Steady g (g.storeMatrix param) := by
  rw [storeMatrix]
  refine ((steady_timed .vertexPipelineCmdDelayed4 g).trans ?_).trans (steady_addCycles 16 _)
  exact .ite (steady_setMatrices _ _) (.ite (steady_setMatrices _ _) (steady_stack _ _ _))

theorem steady_restoreMatrix (param : U32) (g : GPU3D) : Steady g (g.restoreMatrix param) := by
  rw [restoreMatrix]
  refine (steady_timed .vertexPipelineCmdDelayed4 g).trans ?_
  refine .ite ?_ (.ite ?_ ?_)
  · exact (steady_setMatrices _ _).trans (steady_dirty 35 _)
  · exact (steady_setMatrices _ _).trans (steady_addCycles 17 _)
  · exact (steady_stack _ _ _).trans (steady_dirty 35 _)

theorem steady_identityMatrix (g : GPU3D) : Steady g g.identityMatrix := by
  rw [identityMatrix]
  refine (steady_timed .vertexPipelineCmdDelayed4 g).trans ?_
  refine .ite ?_ (.ite ?_ ?_)
  · exact (steady_setMatrices _ _).trans (steady_dirty 18 _)
  · exact steady_setMatrices _ _
  · exact (steady_setMatrices _ _).trans (steady_dirty 18 _)

theorem steady_changeMatrix (f : Matrix → Matrix) (vec : Bool) (cycles : MatrixCycles)
    (g : GPU3D) : Steady g (g.changeMatrix f vec cycles) := by
  rw [changeMatrix]
  refine .ite ?_ (.ite ?_ (.ite ?_ ?_))
  · exact (steady_setMatrices _ g).trans (steady_dirty _ _)
  · exact (steady_setMatrices _ g).trans (steady_addCycles _ _)
  · exact (steady_setMatrices _ g).trans (steady_dirty _ _)
  · exact (steady_setMatrices _ g).trans (steady_dirty _ _)

/-! ## The other commands -/

theorem steady_diffuseAmbient (param : U32) (g : GPU3D) : Steady g (g.diffuseAmbient param) := by
  rw [diffuseAmbient]
  refine Steady.trans ?_ (steady_addCycles 3 _)
  refine (steady_timed .vertexPipelineCmdDelayed6 g).trans ?_
  refine (steady_setLighting (fun l =>
    { l with matDiffuse := field5 param 0, matAmbient := field5 param 16 }) _).trans ?_
  exact .ite (steady_setAttributes _ _) (.refl _)

theorem steady_specularEmission (param : U32) (g : GPU3D) :
    Steady g (g.specularEmission param) := by
  rw [specularEmission]
  exact ((steady_timed _ g).trans (steady_setLighting _ _)).trans (steady_addCycles 3 _)

theorem steady_texCoordCommand (param : U32) (g : GPU3D) : Steady g (g.texCoordCommand param) := by
  rw [texCoordCommand]
  exact (steady_timed _ g).trans (steady_setAttributes _ _)

theorem steady_setViewport (param : U32) (g : GPU3D) : Steady g (g.setViewport param) := by
  rw [setViewport]
  exact (steady_timed _ g).trans (steady_setAttributes _ _)

theorem steady_setLightDirection (param : U32) (g : GPU3D) :
    Steady g (g.setLightDirection param) := by
  rw [setLightDirection]
  exact ⟨rfl, fun _ _ => rfl, rfl⟩

theorem steady_calculateLighting (g : GPU3D) : Steady g g.calculateLighting := by
  rw [calculateLighting_eq]
  exact (steady_setAttributes _ g).trans (steady_timed _ _)

theorem steady_beginPolygons (param : U32) (g : GPU3D) : Steady g (g.beginPolygons param) := by
  rw [beginPolygons]
  exact ⟨rfl, fun _ _ => rfl, rfl⟩

theorem steady_flush (param : U32) (g : GPU3D) : Steady g (g.flush param) := by
  rw [flush]
  exact ((steady_timed _ g).trans (steady_setScene _ _)).trans (steady_timed _ _)

theorem steady_vecTest (param : U32) (g : GPU3D) : Steady g (g.vecTest param) := by
  rw [vecTest]
  exact ⟨rfl, fun _ _ => rfl, rfl⟩

theorem steady_boxTest (params : ℕ → U32) (g : GPU3D) : Steady g (g.boxTest params) := by
  have hstart : Steady g ((g.addCycles 254).setStat (· &&& ~~~bit 32 1)).updateClipMatrix :=
    ((steady_addCycles 254 g).trans
      (steady_setStat _ _ fun x _ hi => getLsbD_and_not_bit x (busy_ne (.inl rfl) hi))).trans
      (steady_updateClipMatrix _)
  rw [boxTest_eq]
  refine hstart.trans ?_
  exact .ite (steady_setStat _ _ fun x _ hi => getLsbD_or_bit x (busy_ne (.inl rfl) hi)) (.refl _)

theorem steady_posTest (g : GPU3D) : Steady g g.posTest :=
  (steady_updateClipMatrix g).trans ⟨rfl, fun _ _ => rfl, rfl⟩

/-! ## What is taken off -/

def pushPopCharge (command : U8) : U32 := if command = 0x11 ∨ command = 0x12 then 1 else 0

/-- A test takes all of its entries off when it has the last. -/
def testCharge (command : U8) : U32 :=
  if command = 0x70 then 3 else if command = 0x71 then 2 else if command = 0x72 then 1 else 0

def spend (command : U8) (g : GPU3D) : GPU3D :=
  { g with
    queue :=
      { g.queue with
        numPushPopCommands := g.queue.numPushPopCommands - pushPopCharge command
        numTestCommands := g.queue.numTestCommands - testCharge command } }

/-- The command is counted nowhere. -/
def Uncounted (command : U8) : Prop :=
  command ≠ 0x11 ∧ command ≠ 0x12 ∧ command ≠ 0x70 ∧ command ≠ 0x71 ∧ command ≠ 0x72

theorem spend_uncounted {command : U8} (h : Uncounted command) (g : GPU3D) :
    g.spend command = g := by
  obtain ⟨h11, h12, h70, h71, h72⟩ := h
  rw [spend, pushPopCharge, testCharge, if_neg (by rintro (h | h); exacts [h11 h, h12 h]),
    if_neg h70, if_neg h71, if_neg h72, sub_zero, sub_zero]

theorem spend_push (g : GPU3D) {command : U8} (h : command = 0x11 ∨ command = 0x12) :
    g.spend command = g.notePushPop := by
  have htest : testCharge command = 0 := by
    rcases h with rfl | rfl <;> rfl
  rw [spend, pushPopCharge, if_pos h, htest, sub_zero]
  rfl

theorem spend_test (g : GPU3D) {command : U8}
    (h : command = 0x70 ∨ command = 0x71 ∨ command = 0x72) :
    g.spend command = g.noteTests (testCharge command) := by
  have hpush : pushPopCharge command = 0 := by
    rcases h with rfl | rfl | rfl <;> rfl
  rw [spend, hpush, sub_zero]
  rfl

theorem steady_uncounted {command : U8} (h : Uncounted command) (param : U32) (g : GPU3D) :
    Steady g (g.singleCommand command param) := by
  have hne (n : U8) (hn : command ≠ n) : command.toNat ≠ n.toNat := fun heq =>
    hn (BitVec.eq_of_toNat_eq heq)
  obtain ⟨h11, h12, -, -, h72⟩ := h
  rw [singleCommand]
  split <;> rename_i hcommand
  · exact (steady_timed _ g).trans (steady_setMatrices _ _)
  · exact absurd hcommand (hne 0x11 h11)
  · exact absurd hcommand (hne 0x12 h12)
  · exact steady_storeMatrix _ g
  · exact steady_restoreMatrix _ g
  · exact steady_identityMatrix g
  · exact (steady_timed _ g).trans (steady_setAttributes _ _)
  · exact ((steady_timed _ g).trans (steady_setAttributes _ _)).trans (steady_calculateLighting _)
  · exact steady_texCoordCommand _ g
  · exact steady_vertexCommand _ g
  · exact steady_vertexCommand _ g
  · exact steady_vertexCommand _ g
  · exact steady_vertexCommand _ g
  · exact steady_vertexCommand _ g
  · exact (steady_timed _ g).trans (steady_setAttributes _ _)
  · exact (steady_timed _ g).trans (steady_setAttributes _ _)
  · exact (steady_timed _ g).trans (steady_setAttributes _ _)
  · exact steady_diffuseAmbient _ g
  · exact steady_specularEmission _ g
  · exact ((steady_timed _ g).trans (steady_setLightDirection _ _)).trans (steady_addCycles _ _)
  · exact ((steady_timed _ g).trans (steady_setLighting _ _)).trans (steady_addCycles _ _)
  · exact steady_beginPolygons _ g
  · exact steady_timed _ g
  · exact steady_flush _ g
  · exact steady_setViewport _ g
  · exact absurd hcommand (hne 0x72 h72)
  · exact steady_timed _ g

/-- A command of at most one parameter. -/
theorem steady_singleCommand {command : U8} (hn : cmdNumParams command ≤ 1) (param : U32)
    (g : GPU3D) : Steady (g.spend command) (g.singleCommand command param) := by
  by_cases hpush : command = 0x11 ∨ command = 0x12
  · rw [spend_push g hpush]
    rcases hpush with rfl | rfl
    · exact steady_pushMatrix g
    · exact steady_popMatrix param g
  · by_cases hvec : command = 0x72
    · rw [spend_test g (.inr (.inr hvec))]
      subst hvec
      exact (steady_timed .vertexPipelineCmdDelayed6 (g.noteTests 1)).trans (steady_vecTest param _)
    · have huncounted : Uncounted command :=
        ⟨fun h => hpush (.inl h), fun h => hpush (.inr h), fun h => absurd hn (by subst h; decide),
          fun h => absurd hn (by subst h; decide), hvec⟩
      rw [spend_uncounted huncounted]
      exact steady_uncounted huncounted param g

/-- A command of several parameters, once it has them. -/
theorem steady_multiCommand {command : U8} (hn : 1 < cmdNumParams command) (params : ℕ → U32)
    (g : GPU3D) : Steady (g.spend command) (g.multiCommand command params) := by
  by_cases hbox : command = 0x70
  · rw [spend_test g (.inl hbox)]
    subst hbox
    exact steady_boxTest params (g.noteTests 3)
  · by_cases hpos : command = 0x71
    · rw [spend_test g (.inr (.inl hpos))]
      subst hpos
      exact (steady_setAttributes _ (g.noteTests 2)).trans (steady_posTest _)
    · have hne (n : U8) (hn : command ≠ n) : command.toNat ≠ n.toNat := fun heq =>
        hn (BitVec.eq_of_toNat_eq heq)
      have huncounted : Uncounted command :=
        ⟨fun h => absurd hn (by subst h; decide), fun h => absurd hn (by subst h; decide), hbox,
          hpos, fun h => absurd hn (by subst h; decide)⟩
      rw [spend_uncounted huncounted, multiCommand]
      split <;> rename_i hcommand
      · exact steady_changeMatrix _ _ _ g
      · exact steady_changeMatrix _ _ _ g
      · exact steady_changeMatrix _ _ _ g
      · exact steady_changeMatrix _ _ _ g
      · exact steady_changeMatrix _ _ _ g
      · exact steady_changeMatrix _ _ _ g
      · exact steady_changeMatrix _ _ _ g
      · exact (steady_setAttributes _ g).trans (steady_submitVertex _)
      · exact steady_setLighting _ g
      · exact absurd hcommand (hne 0x71 hpos)
      · exact absurd hcommand (hne 0x70 hbox)
      · exact .refl g

/-! ## One entry -/

/-- The entry completes its command, when `k` parameters of the command have come before. -/
def Completes (k : ℕ) (command : U8) : Prop :=
  cmdNumParams command ≤ 1 ∨ (0 < k ∧ cmdNumParams command ≤ k + 1)

instance (k : ℕ) (command : U8) : Decidable (Completes k command) :=
  inferInstanceAs (Decidable (_ ∨ _ ∧ _))

/-- `ExecParams` and `ExecParamCount` with one more parameter. -/
def collectParam (param : U32) (g : GPU3D) : GPU3D :=
  { g with
    execParams := Function.update g.execParams (Fin.ofNat 32 g.execParamCount) param
    execParamCount := g.execParamCount + 1 }

theorem executeEntry_single {e : CmdFIFOEntry} (h : cmdNumParams e.command ≤ 1) (g : GPU3D) :
    Steady (g.spend e.command) (executeEntry e g) := by
  rw [executeEntry, if_pos h]
  exact steady_singleCommand h e.param g

/-- The last parameter of a command. -/
theorem executeEntry_last {e : CmdFIFOEntry} (h : 1 < cmdNumParams e.command) {g : GPU3D}
    (hk : 0 < g.execParamCount) (hlast : cmdNumParams e.command ≤ g.execParamCount + 1) :
    Steady { g.spend e.command with execParamCount := 0 } (executeEntry e g) := by
  have hmulti := steady_multiCommand h (fun i => (g.collectParam e.param).execParams (Fin.ofNat 32 i))
    { (g.collectParam e.param).addCycles 1 with execParamCount := 0 }
  rw [executeEntry, if_neg (by omega)]
  change Steady _ (if g.execParamCount + 1 = 1 then _ else if g.execParamCount + 1 ≥ _ then _ else _)
  rw [if_neg (by omega), if_pos hlast]
  exact ⟨hmulti.queue, hmulti.stat, hmulti.params⟩

/-- Any other parameter. -/
theorem executeEntry_param {e : CmdFIFOEntry} (h : 1 < cmdNumParams e.command) {g : GPU3D}
    (hk : g.execParamCount = 0 ∨ g.execParamCount + 1 < cmdNumParams e.command) :
    Steady { g with execParamCount := g.execParamCount + 1 } (executeEntry e g) := by
  rw [executeEntry, if_neg (by omega)]
  change Steady _ (if g.execParamCount + 1 = 1 then _ else if g.execParamCount + 1 ≥ _ then _ else _)
  split_ifs with hfirst hlast
  · exact ⟨rfl, fun _ _ => rfl, rfl⟩
  · omega
  · exact ⟨rfl, fun _ _ => rfl, rfl⟩

end GPU3D
end MelonDS
