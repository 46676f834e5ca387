import MelonDS.GPU3D.BankSwap
import MelonDS.Library.StableSort

/-!
# The order of the render list

`VBlank` writes the opaque and the translucent polygons of the bank from two cursors into one
array, the second starting where the count kept by `SubmitPolygon` says, and sorts a part of it
by keys made when the polygons were built. The keys order as the lines they are made of because
every vertex in vertex RAM lies on one of 256 lines.
-/

namespace MelonDS
namespace GPU3D

open StableSort (KeyOrder)

/-! ## The keys -/

/-- On a line the viewport transform can give. -/
def StoredVertex.OnScreen (v : StoredVertex) : Prop := (v.finalPosition 1).toNat < 256

/-- The key orders by kind, bottom line and top line. -/
structure Polygon.Keyed (p : Polygon) : Prop where
  yTop : p.yTop.toNat ≤ 192
  yBottom : p.yBottom.toNat < 256
  sortKey : p.sortKey.toNat =
    (if p.translucent then 65536 else 0) + (256 * p.yBottom.toNat + p.yTop.toNat)

theorem toInt_of_small {y : S32} (h : y.toNat < 256) : y.toInt = y.toNat :=
  BitVec.toInt_eq_toNat_of_lt (by omega)

theorem Bounds.include_lines {b : Bounds} (htop : b.yTop.toNat ≤ 192) (hbot : b.yBottom.toNat < 256)
    (i : ℕ) {v : StoredVertex} (hv : v.OnScreen) :
    (b.include i v).yTop.toNat ≤ 192 ∧ (b.include i v).yBottom.toNat < 256 := by
  have hlt : (v.finalPosition 1).slt b.yTop = true → (v.finalPosition 1).toNat ≤ 192 := by
    intro h
    rw [BitVec.slt_iff_toInt_lt, toInt_of_small hv, toInt_of_small (by omega)] at h
    omega
  have hv' : (v.finalPosition 1).toNat < 256 := hv
  unfold Bounds.include
  dsimp only
  split_ifs with h1 h2 h3
  · exact ⟨hlt h1, hv'⟩
  · exact ⟨hlt h1, hbot⟩
  · exact ⟨htop, hv'⟩
  · exact ⟨htop, hbot⟩

theorem bounds_lines {vs : List StoredVertex} (h : ∀ v ∈ vs, v.OnScreen) :
    (bounds vs).yTop.toNat ≤ 192 ∧ (bounds vs).yBottom.toNat < 256 := by
  have hfold : ∀ (l : List (StoredVertex × ℕ)) (b : Bounds), (∀ p ∈ l, p.1.OnScreen) →
      b.yTop.toNat ≤ 192 → b.yBottom.toNat < 256 →
      (l.foldl (fun b vi => b.include vi.2 vi.1) b).yTop.toNat ≤ 192 ∧
        (l.foldl (fun b vi => b.include vi.2 vi.1) b).yBottom.toNat < 256 := by
    intro l
    induction l with
    | nil => exact fun b _ htop hbot => ⟨htop, hbot⟩
    | cons p l ih =>
      intro b hl htop hbot
      obtain ⟨hp, hl⟩ := List.forall_mem_cons.mp hl
      obtain ⟨htop', hbot'⟩ := Bounds.include_lines htop hbot p.2 hp
      exact ih _ hl htop' hbot'
  refine hfold _ _ ?_ (by decide) (by decide)
  intro p hp
  exact h p.1 (List.fst_mem_of_mem_zipIdx hp)

theorem sortKey_toNat {yTop yBottom : S32} (htop : yTop.toNat ≤ 192) (hbot : yBottom.toNat < 256)
    (translucent : Bool) :
    ((yBottom <<< 8 ||| yTop) ||| (if translucent then 0x10000 else 0 : U32)).toNat =
      (if translucent then 65536 else 0) + (256 * yBottom.toNat + yTop.toNat) := by
  have hlines : (yBottom <<< 8 ||| yTop).toNat = 256 * yBottom.toNat + yTop.toNat := by
    have hor := Nat.two_pow_add_eq_or_of_lt (i := 8) (show yTop.toNat < 2 ^ 8 by omega)
      yBottom.toNat
    have hshift : (yBottom <<< 8).toNat = 2 ^ 8 * yBottom.toNat := by
      rw [BitVec.toNat_shiftLeft, Nat.shiftLeft_eq, Nat.mod_eq_of_lt (by omega), Nat.mul_comm]
    rw [BitVec.toNat_or, hshift, ← hor]
  cases translucent with
  | false => simpa using hlines
  | true =>
    have hor := Nat.two_pow_add_eq_or_of_lt (i := 16)
      (show 256 * yBottom.toNat + yTop.toNat < 2 ^ 16 by omega) 1
    rw [BitVec.toNat_or, hlines, Nat.or_comm]
    exact hor.symm

theorem Accepted.record_keyed (p : Accepted) (attrs : Attributes) (flushAttributes : U32) (base : ℕ)
    {ram : ℕ → StoredVertex} (old : Polygon) (hram : ∀ i, (ram i).OnScreen) :
    (p.record attrs flushAttributes base ram old).Keyed := by
  have hvertices : ∀ v ∈ (List.range p.vertices.length).map fun i =>
      ram ((p.pointer base i).getD 0), v.OnScreen := by
    intro v hv
    obtain ⟨i, -, rfl⟩ := List.mem_map.mp hv
    exact hram _
  have hlines := bounds_lines hvertices
  exact ⟨hlines.1, hlines.2, sortKey_toNat hlines.1 hlines.2 _⟩

/-! ## The bank being filled -/

namespace Scene

def opaqueSlots (s : Scene) : List ℕ := s.slots.filter fun k => !(s.polygonRAM k).translucent

def translucentSlots (s : Scene) : List ℕ := s.slots.filter fun k => (s.polygonRAM k).translucent

/-- What the sort and the separation rely on. -/
structure Sortable (s : Scene) : Prop where
  screen : ∀ i, (s.vertexRAM i).OnScreen
  keyed : ∀ k ∈ s.slots, (s.polygonRAM k).Keyed
  numPolygons_le : s.numPolygons ≤ 2048
  opaques : s.numOpaquePolygons = s.opaqueSlots.length

theorem storeFrom_all {α : Type*} {P : α → Prop} {ram : ℕ → α} (base : ℕ) {vs : List α}
    (hram : ∀ i, P (ram i)) (hvs : ∀ v ∈ vs, P v) (i : ℕ) : P (storeFrom ram base vs i) := by
  unfold storeFrom
  split_ifs
  · cases hv : vs[i - base]? with
    | none => exact hram i
    | some v => exact hvs v (List.mem_of_getElem? hv)
  · exact hram i

variable {s : Scene} {attrs : Attributes} {p : Accepted}

theorem Sortable.stored (h : s.Sortable) (hp : ∀ v ∈ p.vertices, v.OnScreen) :
    ∀ v ∈ p.stored s, v.OnScreen := by
  unfold Accepted.stored
  cases p.attached with
  | none => exact hp
  | some a =>
    have hrest : ∀ v ∈ p.vertices.drop 2, v.OnScreen := fun v hv => hp v (List.mem_of_mem_drop hv)
    dsimp only
    split_ifs
    · exact hrest
    · exact List.forall_mem_cons.mpr ⟨h.screen _, List.forall_mem_cons.mpr ⟨h.screen _, hrest⟩⟩

theorem Sortable.add (h : s.Sortable) (hp : ∀ v ∈ p.vertices, v.OnScreen)
    (hroom : s.numPolygons < 2048) : (s.add attrs p).Sortable where
  screen := storeFrom_all _ h.screen (h.stored hp)
  keyed := by
    intro k hk
    rw [slots_add, List.mem_append, List.mem_singleton] at hk
    rcases hk with hk | rfl
    · rw [s.polygonRAM_add_of_ne attrs p (slot_ne hk)]
      exact h.keyed k hk
    · rw [polygonRAM_add_self]
      exact p.record_keyed attrs _ _ _ (storeFrom_all _ h.screen (h.stored hp))
  numPolygons_le := hroom
  opaques := by
    have hold : s.slots.filter (fun k => !((s.add attrs p).polygonRAM k).translucent) =
        s.opaqueSlots := by
      refine List.filter_congr fun k hk => ?_
      rw [s.polygonRAM_add_of_ne attrs p (slot_ne hk)]
    have hself : ((s.add attrs p).polygonRAM (s.curPolygonRAM + s.numPolygons)).translucent =
        translucent attrs.curPolygonAttr attrs.texParam := by
      rw [polygonRAM_add_self]
      rfl
    rw [opaqueSlots, slots_add, List.filter_append, hold, List.length_append, ← h.opaques,
      List.filter_singleton, hself]
    change (if translucent attrs.curPolygonAttr attrs.texParam then s.numOpaquePolygons
      else s.numOpaquePolygons + 1) = _
    cases translucent attrs.curPolygonAttr attrs.texParam <;> rfl

/-- Marks and the other registers of the scene do not matter to what was built. -/
theorem Sortable.marks (h : s.Sortable) (last : Option ℕ) (request : Bool) (flushAttributes : U32) :
    ({ s with
        lastStripPolygon := last, flushRequest := request,
        flushAttributes := flushAttributes } : Scene).Sortable :=
  ⟨h.screen, h.keyed, h.numPolygons_le, h.opaques⟩

end Scene

/-! ## Commands -/

theorem finalPosition_toScreen (viewport : Fin 6 → U32) (v : Vertex) :
    (toScreen viewport v).OnScreen := by
  change (_ &&& (0xFF : U32)).toNat < 256
  rw [BitVec.toNat_and]
  exact Nat.lt_succ_of_le Nat.and_le_right

theorem clippedVertices_onScreen {g : GPU3D} (h : g.scene.Sortable) :
    ∀ v ∈ g.clippedVertices, v.OnScreen := by
  intro v hv
  unfold clippedVertices at hv
  obtain ⟨i, -, rfl⟩ := List.mem_map.mp hv
  dsimp only
  split_ifs with hi
  · -- one of the two vertices of the strip, as vertex RAM has it
    cases ha : g.polygonAttachment with
    | none =>
      rw [ha] at hi
      exact absurd hi (Nat.not_lt_zero i)
    | some a =>
      rw [ha] at hi
      change i < 2 at hi
      obtain rfl | rfl : i = 0 ∨ i = 1 := by omega
      · exact h.screen _
      · exact h.screen _
  · exact finalPosition_toScreen _ _

theorem sortable_submitPolygon {g : GPU3D} (h : g.scene.Sortable) :
    g.submitPolygon.scene.Sortable := by
  have hdrop : g.dropPolygon.scene.Sortable :=
    h.marks none g.scene.flushRequest g.scene.flushAttributes
  unfold submitPolygon
  dsimp only
  split_ifs with hculled hempty hfull hzero
  · exact hdrop
  · exact hdrop
  · exact hdrop
  · exact hdrop
  all_goals
    have hroom : g.scene.numPolygons < 2048 := by
      have hf : full g.scene g.clippedVertices.length = false := Bool.eq_false_iff.mpr hfull
      simp only [full, Bool.or_eq_false_iff, decide_eq_false_iff_not] at hf
      omega
    exact Scene.Sortable.add h (clippedVertices_onScreen h) hroom

theorem sortable_setTemp {g : GPU3D} (h : g.scene.Sortable)
    (temp : (Fin 4 → StoredVertex) → Fin 4 → StoredVertex) : (g.setTemp temp).scene.Sortable := h

theorem sortable_submitAndKeep (keep : ℕ) {g : GPU3D} (h : g.scene.Sortable) :
    (g.submitAndKeep keep).scene.Sortable := by
  have hkept :
      ({ g with assembly := { g.assembly with vertexNumInPoly := keep } } : GPU3D).scene.Sortable :=
    h
  rw [submitAndKeep]
  exact sortable_submitPolygon hkept

theorem sortable_completePolygon {g : GPU3D} (h : g.scene.Sortable) :
    g.completePolygon.scene.Sortable := by
  unfold completePolygon
  split
  · split_ifs
    · exact sortable_submitAndKeep 0 h
    · exact h
  · split_ifs
    · exact sortable_submitAndKeep 0 h
    · exact h
  · split_ifs
    · exact sortable_setTemp (sortable_submitAndKeep 2 (sortable_setTemp h _)) _
    · exact sortable_setTemp (sortable_submitAndKeep 2 h) _
    · exact h
  · split_ifs
    · exact sortable_setTemp (sortable_submitAndKeep 2 (sortable_setTemp h _)) _
    · exact h
  · exact h

theorem sortable_submitVertex {g : GPU3D} (h : g.scene.Sortable) :
    g.submitVertex.scene.Sortable := by
  have hplaced : g.placeVertex.scene.Sortable := (sameStrip_placeVertex g).scene ▸ h
  exact sortable_completePolygon hplaced

theorem sortable_vertexCommand {g : GPU3D} (h : g.scene.Sortable)
    (f : (Fin 3 → S16) → Fin 3 → S16) : (g.vertexCommand f).scene.Sortable :=
  sortable_submitVertex (g := (g.timed .vertexPipelineSubmitCmd).setAttributes fun a =>
    { a with curVertex := f a.curVertex }) h

/-- A command that completes no polygon adds none. -/
theorem sortable_of_stepped {g g' : GPU3D} (h : g.scene.Sortable) (hstep : Stepped g false g') :
    g'.scene.Sortable := by
  have hs := hstep.scene
  generalize g'.scene = s at hs
  cases hs with
  | same => exact h
  | marks last request flushAttributes => exact h.marks last request flushAttributes
  | add hcompleted => exact absurd hcompleted (by decide)

theorem sortable_singleCommand {g : GPU3D} (h : g.scene.Sortable) {e : CmdFIFOEntry}
    (hv : submitsVertex e g = true) : (g.singleCommand e.command e.param).scene.Sortable := by
  unfold submitsVertex at hv
  unfold singleCommand
  split at hv <;> rename_i hcommand
  · rw [hcommand]
    exact h
  · rw [hcommand]
    exact sortable_vertexCommand h _
  · rw [hcommand]
    exact sortable_vertexCommand h _
  · rw [hcommand]
    exact sortable_vertexCommand h _
  · rw [hcommand]
    exact sortable_vertexCommand h _
  · rw [hcommand]
    exact sortable_vertexCommand h _
  · exact absurd hv (by decide)

theorem sortable_executeEntry {g : GPU3D} (h : g.scene.Sortable) (e : CmdFIFOEntry) :
    (executeEntry e g).scene.Sortable := by
  by_cases hv : submitsVertex e g = true
  · have hcode : e.command.toNat = 0x23 ∨ cmdNumParams e.command ≤ 1 := by
      unfold submitsVertex at hv
      unfold cmdNumParams
      split at hv <;> rename_i hcommand
      · exact Or.inl hcommand
      all_goals first | exact absurd hv (by decide) | exact Or.inr (by rw [hcommand]; decide)
    rcases hcode with hcode | hcode
    · unfold executeEntry
      dsimp only
      split_ifs
      · exact sortable_singleCommand h hv
      · exact h
      · unfold multiCommand
        rw [hcode]
        exact sortable_submitVertex (g := GPU3D.setAttributes _ _) h
      · exact h
    · unfold executeEntry
      rw [if_pos hcode]
      exact sortable_singleCommand h hv
  · have hnone : submitsPolygon e g = false := by
      rw [submitsPolygon, Bool.eq_false_iff.mpr hv, Bool.false_and]
    have hstep := stepped_executeEntry e g
    rw [hnone] at hstep
    exact sortable_of_stepped h hstep

theorem Scene.Sortable.swap {s : Scene} (h : s.Sortable) : s.swap.Sortable where
  screen := h.screen
  keyed := fun _ hk => absurd hk List.not_mem_nil
  numPolygons_le := Nat.zero_le _
  opaques := rfl

theorem sortable_vblank {g : GPU3D} (h : g.scene.Sortable) : g.vblank.scene.Sortable := by
  have hsubmit : g.scene.submit.Sortable := ⟨h.screen, h.keyed, h.numPolygons_le, h.opaques⟩
  unfold vblank
  cases g.geometryEnabled <;> cases g.scene.flushRequest <;> cases g.renderingEnabled
  all_goals simp only [if_true, if_false, Bool.false_eq_true]
  all_goals first | exact h | exact h.swap | exact hsubmit.swap

theorem sortable_apply {g : GPU3D} (h : g.scene.Sortable) (op : GeometryOp) :
    (op.apply g).scene.Sortable := by
  cases op with
  | command e => exact sortable_executeEntry h e
  | vblank => exact sortable_vblank h
  | setEnabled geometry rendering =>
    cases rendering with
    | true => exact h
    | false => exact ⟨h.screen, h.keyed, h.numPolygons_le, h.opaques⟩

theorem sortable_initial : initial.scene.Sortable where
  screen := fun _ => show (0 : ℕ) < 256 by decide
  keyed := fun _ hk => absurd hk List.not_mem_nil
  numPolygons_le := Nat.zero_le _
  opaques := rfl

theorem sortable_run (ops : List GeometryOp) {g : GPU3D} (h : g.scene.Sortable) :
    (ops.foldl GeometryOp.apply g).scene.Sortable := by
  induction ops generalizing g with
  | nil => exact h
  | cons op ops ih => exact ih (sortable_apply h op)

/-! ## The two cursors -/

theorem storeFrom_cons {α : Type*} (ram : ℕ → α) (base : ℕ) (v : α) (vs : List α) :
    storeFrom ram base (v :: vs) = storeFrom (Function.update ram base v) (base + 1) vs := by
  funext i
  unfold storeFrom
  rcases Nat.lt_trichotomy i base with hi | rfl | hi
  · have h1 : ¬ base ≤ i := by omega
    have h2 : ¬ base + 1 ≤ i := by omega
    rw [if_neg h1, if_neg h2, Function.update_of_ne (by omega)]
  · have h2 : ¬ i + 1 ≤ i := by omega
    rw [if_pos le_rfl, if_neg h2, Function.update_self]
    simp
  · obtain ⟨n, rfl⟩ : ∃ n, i = base + 1 + n := ⟨i - (base + 1), by omega⟩
    rw [if_pos (by omega), if_pos (by omega), Function.update_of_ne (by omega)]
    have h1 : base + 1 + n - base = n + 1 := by omega
    have h2 : base + 1 + n - (base + 1) = n := by omega
    rw [h1, h2, List.getElem?_cons_succ]

/-- A store behind the values does not meet them. -/
theorem storeFrom_update {α : Type*} (ram : ℕ → α) {base t : ℕ} (v : α) {vs : List α}
    (h : base + vs.length ≤ t) :
    storeFrom (Function.update ram t v) base vs = Function.update (storeFrom ram base vs) t v := by
  funext i
  by_cases hi : i = t
  · subst hi
    rw [Function.update_self, storeFrom_of_not_mem _ _ _ (Or.inr h), Function.update_self]
  · rw [Function.update_of_ne hi]
    unfold storeFrom
    rw [Function.update_of_ne hi]

theorem range_map_storeFrom {α : Type*} (ram : ℕ → α) {base n : ℕ} {vs : List α}
    (h : base + vs.length ≤ n) :
    (List.range n).map (storeFrom ram base vs) =
      ((List.range n).map ram).take base ++ (vs ++ ((List.range n).map ram).drop (base + vs.length)) := by
  refine List.ext_getElem ?_ ?_
  · simp only [List.length_map, List.length_range, List.length_append, List.length_take,
      List.length_drop]
    omega
  · intro i hi hi'
    have hlen : (((List.range n).map ram).take base).length = base := by
      simp only [List.length_take, List.length_map, List.length_range]
      omega
    simp only [List.getElem_map, List.getElem_range]
    unfold storeFrom
    by_cases hb : base ≤ i
    · rw [if_pos hb, List.getElem_append_right (by omega)]
      by_cases hv : i - base < vs.length
      · rw [List.getElem?_eq_getElem hv, Option.getD_some, List.getElem_append_left (by omega)]
        congr 1
        omega
      · rw [List.getElem?_eq_none (by omega), Option.getD_none, List.getElem_append_right (by omega)]
        simp only [List.getElem_drop, List.getElem_map, List.getElem_range]
        congr 1
        omega
    · rw [if_neg hb, List.getElem_append_left (by omega)]
      simp only [List.getElem_take, List.getElem_map, List.getElem_range]

/-- Both cursors write their polygons in the order of the bank; they do not meet. -/
theorem foldl_place (s : Scene) (l : List ℕ) (p : Separation)
    (h : p.opaques + (l.filter fun k => !(s.polygonRAM k).translucent).length ≤ p.translucents) :
    (l.foldl (Separation.place s) p).list =
      storeFrom
        (storeFrom p.list p.opaques ((l.filter fun k => !(s.polygonRAM k).translucent).map some))
        p.translucents ((l.filter fun k => (s.polygonRAM k).translucent).map some) := by
  have hnil (ram : ℕ → Option ℕ) (base : ℕ) : storeFrom ram base [] = ram := by
    funext i
    exact storeFrom_of_not_mem ram base [] (by simp only [List.length_nil]; omega)
  induction l generalizing p with
  | nil => simp [hnil]
  | cons slot l ih =>
    rw [List.foldl_cons]
    cases ht : (s.polygonRAM slot).translucent with
    | true =>
      have hp : Separation.place s p slot =
          { p with
            list := Function.update p.list p.translucents (some slot)
            translucents := p.translucents + 1 } := by rw [Separation.place, if_pos ht]
      simp only [List.filter_cons, ht, Bool.not_true, Bool.false_eq_true, if_false, if_true,
        List.map_cons] at h ⊢
      rw [hp, ih _ (by dsimp only; omega), storeFrom_cons]
      dsimp only
      rw [storeFrom_update _ _ (by rw [List.length_map]; exact h)]
    | false =>
      have hp : Separation.place s p slot =
          { p with
            list := Function.update p.list p.opaques (some slot)
            opaques := p.opaques + 1 } := by rw [Separation.place, if_neg (by simp [ht])]
      simp only [List.filter_cons, ht, Bool.not_false, Bool.false_eq_true, if_false, if_true,
        List.map_cons, List.length_cons] at h ⊢
      rw [hp, ih _ (by dsimp only; omega), storeFrom_cons]

namespace Scene

variable {s : Scene}

theorem length_kinds (s : Scene) :
    s.opaqueSlots.length + s.translucentSlots.length = s.numPolygons := by
  rw [← length_slots, opaqueSlots, translucentSlots, ← List.length_append]
  refine List.Perm.length_eq ?_
  have h := List.filter_append_perm (fun k => !(s.polygonRAM k).translucent) s.slots
  simpa using h

theorem range_map_separated (h : s.Sortable) :
    (List.range s.numPolygons).map s.separated =
      (s.opaqueSlots ++ s.translucentSlots).map some := by
  have hn := length_kinds s
  have ho := h.opaques
  have hlen : s.opaqueSlots.length = (s.slots.filter fun k =>
      !(s.polygonRAM k).translucent).length := rfl
  have hs : s.separated = storeFrom (storeFrom s.renderPolygonRAM 0 (s.opaqueSlots.map some))
      s.numOpaquePolygons (s.translucentSlots.map some) :=
    foldl_place s s.slots ⟨s.renderPolygonRAM, 0, s.numOpaquePolygons⟩ (by dsimp only; omega)
  rw [hs, range_map_storeFrom _ (by rw [List.length_map]; omega),
    range_map_storeFrom _ (by rw [List.length_map]; omega)]
  have hdrop : s.numOpaquePolygons + (s.translucentSlots.map some).length = s.numPolygons := by
    rw [List.length_map]
    omega
  rw [hdrop, List.take_zero, List.nil_append, Nat.zero_add,
    List.take_append_of_le_length (by rw [List.length_map]; omega),
    List.take_of_length_le (by rw [List.length_map]; omega), List.map_append]
  congr 1
  rw [List.drop_eq_nil_of_le, List.append_nil]
  simp only [List.length_append, List.length_map, List.length_drop, List.length_range]
  omega

/-! ## The sort -/

/-- By bottom line, then by top line, then in the order of submission. -/
def drawnBefore (s : Scene) (a b : ℕ) : Prop :=
  (s.polygonRAM a).yBottom.toInt < (s.polygonRAM b).yBottom.toInt ∨
    ((s.polygonRAM a).yBottom.toInt = (s.polygonRAM b).yBottom.toInt ∧
      ((s.polygonRAM a).yTop.toInt < (s.polygonRAM b).yTop.toInt ∨
        ((s.polygonRAM a).yTop.toInt = (s.polygonRAM b).yTop.toInt ∧ a < b)))

def keyOf (s : Scene) (k : ℕ) : ℕ := (s.polygonRAM k).sortKey.toNat

def slotBefore (s : Scene) (a b : ℕ) : Prop := s.sortsBefore (some a) (some b)

instance (s : Scene) : DecidableRel s.slotBefore :=
  fun a b => inferInstanceAs (Decidable (s.sortsBefore (some a) (some b)))

theorem slotBefore_iff (s : Scene) (a b : ℕ) : s.slotBefore a b ↔ s.keyOf a ≤ s.keyOf b :=
  BitVec.le_def

theorem insertionSort_some (s : Scene) (l : List ℕ) :
    (l.map some).insertionSort s.sortsBefore = (l.insertionSort s.slotBefore).map some :=
  (List.map_insertionSort s.slotBefore s.sortsBefore some l fun _ _ _ _ => Iff.rfl).symm

theorem drawnBefore_of_key {a b : ℕ} (ha : (s.polygonRAM a).Keyed) (hb : (s.polygonRAM b).Keyed)
    (hkind : (s.polygonRAM a).translucent = (s.polygonRAM b).translucent)
    (h : s.keyOf a < s.keyOf b ∨ (s.keyOf a = s.keyOf b ∧ a < b)) : s.drawnBefore a b := by
  have hka : s.keyOf a = _ := ha.sortKey
  have hkb : s.keyOf b = _ := hb.sortKey
  rw [← hkind] at hkb
  rw [hka, hkb] at h
  have h1 := ha.yTop
  have h2 := hb.yTop
  have h3 := ha.yBottom
  have h4 := hb.yBottom
  rw [drawnBefore, toInt_of_small ha.yBottom, toInt_of_small hb.yBottom,
    toInt_of_small (y := (s.polygonRAM a).yTop) (by omega),
    toInt_of_small (y := (s.polygonRAM b).yTop) (by omega)]
  omega

theorem slots_pairwise (s : Scene) : s.slots.Pairwise (· < ·) := by
  rw [slots, List.pairwise_map]
  exact List.pairwise_lt_range.imp fun h => Nat.add_lt_add_left h _

theorem mem_opaqueSlots {k : ℕ} (h : k ∈ s.opaqueSlots) :
    k ∈ s.slots ∧ (s.polygonRAM k).translucent = false := by
  obtain ⟨hk, ht⟩ := List.mem_filter.mp h
  exact ⟨hk, by simpa using ht⟩

theorem mem_translucentSlots {k : ℕ} (h : k ∈ s.translucentSlots) :
    k ∈ s.slots ∧ (s.polygonRAM k).translucent = true := List.mem_filter.mp h

/-- Sorting polygons of one kind. -/
theorem pairwise_drawnBefore (h : s.Sortable) {l : List ℕ} {kind : Bool}
    (hl : ∀ k ∈ l, k ∈ s.slots ∧ (s.polygonRAM k).translucent = kind)
    (hkeys : l.Pairwise (KeyOrder s.keyOf (· < ·))) : l.Pairwise s.drawnBefore := by
  refine hkeys.imp_of_mem fun {a b} ha hb hab => ?_
  obtain ⟨hsa, hta⟩ := hl a ha
  obtain ⟨hsb, htb⟩ := hl b hb
  exact drawnBefore_of_key (h.keyed a hsa) (h.keyed b hsb) (hta.trans htb.symm) hab

/-- The render list of the bank: the opaque polygons, then the translucent ones. -/
structure Arranged (s : Scene) (list : ℕ → Option ℕ) (opaques translucents : List ℕ) : Prop where
  list_eq : (List.range s.numPolygons).map list = (opaques ++ translucents).map some
  count : opaques.length = s.numOpaquePolygons
  opaques_perm : opaques.Perm s.opaqueSlots
  translucents_perm : translucents.Perm s.translucentSlots
  perm : (opaques ++ translucents).Perm s.slots
  opaques_sorted : opaques.Pairwise s.drawnBefore
  translucents_sorted : s.flushAttributes &&& 1 = 0 → translucents.Pairwise s.drawnBefore
  translucents_kept : s.flushAttributes &&& 1 ≠ 0 → translucents = s.translucentSlots

theorem kinds_perm (s : Scene) : (s.opaqueSlots ++ s.translucentSlots).Perm s.slots := by
  have h := List.filter_append_perm (fun k => !(s.polygonRAM k).translucent) s.slots
  simpa [opaqueSlots, translucentSlots] using h

theorem range_map_take {α : Type*} (f : ℕ → α) {n total : ℕ} (h : n ≤ total) :
    (List.range n).map f = ((List.range total).map f).take n := by
  rw [← List.map_take, List.take_range, Nat.min_eq_left h]

/-- The translucent polygons are not sorted. -/
theorem arranged_manual (h : s.Sortable) (hflush : s.flushAttributes &&& 1 ≠ 0) :
    s.Arranged (s.sortedList s.separated s.numOpaquePolygons)
      (s.opaqueSlots.insertionSort s.slotBefore) s.translucentSlots := by
  have hn := length_kinds s
  have ho := h.opaques
  have hperm := List.perm_insertionSort s.slotBefore s.opaqueSlots
  have hfirst : (List.range s.numOpaquePolygons).map s.separated = s.opaqueSlots.map some := by
    have hle : s.numOpaquePolygons ≤ s.numPolygons := by omega
    rw [range_map_take _ hle, range_map_separated h,
      List.map_append, List.take_left' (by rw [List.length_map]; exact ho.symm)]
  refine
    { list_eq := ?_
      count := by rw [hperm.length_eq, ho]
      opaques_perm := hperm
      translucents_perm := .refl _
      perm := (hperm.append_right _).trans s.kinds_perm
      opaques_sorted := ?_
      translucents_sorted := fun hz => absurd hz hflush
      translucents_kept := fun _ => rfl }
  · have hlen : ((s.opaqueSlots.insertionSort s.slotBefore).map some).length =
        s.numOpaquePolygons := by rw [List.length_map, hperm.length_eq, ho]
    rw [sortedList, hfirst, insertionSort_some, range_map_storeFrom _ (by omega),
      range_map_separated h, List.take_zero, List.nil_append, Nat.zero_add, hlen,
      List.map_append, List.map_append, List.drop_left' (by rw [List.length_map]; exact ho.symm)]
  · refine pairwise_drawnBefore h (fun k hk => mem_opaqueSlots (hperm.mem_iff.mp hk)) ?_
    exact StableSort.pairwise_insertionSort s.slotBefore_iff (s.slots_pairwise.filter _)

/-- All are sorted; the keys of the translucent polygons are larger than the others. -/
theorem arranged_auto (h : s.Sortable) (hflush : s.flushAttributes &&& 1 = 0) :
    let sorted := (s.opaqueSlots ++ s.translucentSlots).insertionSort s.slotBefore
    s.Arranged (s.sortedList s.separated s.numPolygons)
      (sorted.filter fun k => !(s.polygonRAM k).translucent)
      (sorted.filter fun k => (s.polygonRAM k).translucent) := by
  intro sorted
  have hperm : sorted.Perm (s.opaqueSlots ++ s.translucentSlots) := List.perm_insertionSort _ _
  have hslot : ∀ k ∈ sorted, k ∈ s.slots :=
    fun k hk => s.kinds_perm.mem_iff.mp (hperm.mem_iff.mp hk)
  -- within a kind the list came in the order of the bank
  have horder : sorted.Pairwise (KeyOrder s.keyOf fun a b =>
      (s.polygonRAM a).translucent = (s.polygonRAM b).translucent → a < b) := by
    refine StableSort.pairwise_insertionSort s.slotBefore_iff (List.pairwise_append.mpr ⟨?_, ?_, ?_⟩)
    · refine (s.slots_pairwise.filter _).imp ?_
      exact fun hab _ => hab
    · refine (s.slots_pairwise.filter _).imp ?_
      exact fun hab _ => hab
    · intro a ha b hb hkind
      rw [(mem_opaqueSlots ha).2, (mem_translucentSlots hb).2] at hkind
      exact absurd hkind (by decide)
  have hkinds : sorted.Pairwise fun a b =>
      (!(s.polygonRAM b).translucent) = true → (!(s.polygonRAM a).translucent) = true := by
    refine horder.imp_of_mem fun {a b} ha hb hab hb0 => ?_
    have hle := hab.key_le
    have hka : s.keyOf a = _ := (h.keyed a (hslot a ha)).sortKey
    have hkb : s.keyOf b = _ := (h.keyed b (hslot b hb)).sortKey
    have h1 := (h.keyed b (hslot b hb)).yTop
    have h2 := (h.keyed b (hslot b hb)).yBottom
    rw [Bool.not_eq_true'] at hb0 ⊢
    rw [hka, hkb, hb0] at hle
    cases ht : (s.polygonRAM a).translucent with
    | false => rfl
    | true =>
      rw [ht] at hle
      simp only [if_true, Bool.false_eq_true, if_false] at hle
      omega
  have hsplit : sorted = sorted.filter (fun k => !(s.polygonRAM k).translucent) ++
      sorted.filter fun k => (s.polygonRAM k).translucent := by
    simpa using StableSort.eq_filter_append hkinds
  have hopaques : (sorted.filter fun k => !(s.polygonRAM k).translucent).Perm s.opaqueSlots := by
    have hp := (hperm.trans s.kinds_perm).filter fun k => !(s.polygonRAM k).translucent
    exact hp
  have htranslucents : (sorted.filter fun k => (s.polygonRAM k).translucent).Perm
      s.translucentSlots := (hperm.trans s.kinds_perm).filter _
  have hsorted {kind : Bool} {l : List ℕ} (hsub : l.Sublist sorted)
      (hl : ∀ k ∈ l, k ∈ s.slots ∧ (s.polygonRAM k).translucent = kind) :
      l.Pairwise s.drawnBefore := by
    refine pairwise_drawnBefore h hl ((horder.sublist hsub).imp_of_mem fun {a b} ha hb hab => ?_)
    rcases hab with hab | ⟨heq, hab⟩
    · exact Or.inl hab
    · exact Or.inr ⟨heq, hab ((hl a ha).2.trans (hl b hb).2.symm)⟩
  exact
    { list_eq := by
        have hn : (sorted.map some).length = s.numPolygons := by
          rw [List.length_map, hperm.length_eq, List.length_append, length_kinds]
        rw [sortedList, range_map_separated h, insertionSort_some, ← hsplit,
          range_map_storeFrom _ ((Nat.zero_add _).trans hn).le, List.take_zero, List.nil_append,
          Nat.zero_add, hn, List.drop_eq_nil_of_le (by rw [List.length_map, List.length_range]), List.append_nil]
      count := by rw [hopaques.length_eq, h.opaques]
      opaques_perm := hopaques
      translucents_perm := htranslucents
      perm := by
        rw [← hsplit]
        exact hperm.trans s.kinds_perm
      opaques_sorted := hsorted List.filter_sublist fun k hk => mem_opaqueSlots (hopaques.mem_iff.mp hk)
      translucents_sorted := fun _ => hsorted List.filter_sublist fun k hk =>
        mem_translucentSlots (htranslucents.mem_iff.mp hk)
      translucents_kept := fun hne => absurd hflush hne }

theorem arranged_renderList (h : s.Sortable) :
    ∃ opaques translucents, s.Arranged s.renderList opaques translucents := by
  have hone : s.renderList = s.sortedList s.separated
      (if s.flushAttributes &&& 1 ≠ 0 then s.numOpaquePolygons else s.numPolygons) ∨
      s.numPolygons = 0 := by
    unfold renderList
    by_cases hz : s.numPolygons = 0
    · exact Or.inr hz
    · exact Or.inl (if_neg hz)
  rcases hone with hone | hz
  · by_cases hflush : s.flushAttributes &&& 1 = 0
    · rw [hone, if_neg (not_not.mpr hflush)]
      exact ⟨_, _, arranged_auto h hflush⟩
    · rw [hone, if_pos hflush]
      exact ⟨_, _, arranged_manual h hflush⟩
  · -- no polygon: the list is not touched, and nothing of it counts
    have hslots : s.slots = [] := by rw [slots, hz]; rfl
    have hnone : s.opaqueSlots = [] := by rw [opaqueSlots, hslots]; rfl
    have htrans : s.translucentSlots = [] := by rw [translucentSlots, hslots]; rfl
    refine ⟨[], [], ?_⟩
    exact
      { list_eq := by rw [hz]; rfl
        count := by rw [h.opaques, hnone]
        opaques_perm := by rw [hnone]
        translucents_perm := by rw [htrans]
        perm := by rw [hslots]; exact .refl _
        opaques_sorted := .nil
        translucents_sorted := fun _ => .nil
        translucents_kept := fun _ => htrans.symm }

end Scene

/-- In every run, the count of opaque polygons is right whenever the swap uses it, and a swap
taken with both engines on makes the polygons submitted since the last one the render list:
the opaque ones first, by bottom line, top line and submission; behind them the translucent
ones, in the same order or as they were submitted. The count starts again with the bank. -/
theorem render_order (ops : List GeometryOp) :
    (ops.foldl GeometryOp.apply initial).scene.numOpaquePolygons =
        (ops.foldl GeometryOp.apply initial).scene.opaqueSlots.length ∧
      ((ops.foldl GeometryOp.apply initial).geometryEnabled = true →
        (ops.foldl GeometryOp.apply initial).renderingEnabled = true →
        (ops.foldl GeometryOp.apply initial).scene.flushRequest = true →
        (∃ opaques translucents, (ops.foldl GeometryOp.apply initial).scene.Arranged
          (ops.foldl GeometryOp.apply initial).vblank.scene.renderPolygonRAM opaques translucents) ∧
        (ops.foldl GeometryOp.apply initial).vblank.scene.renderNumPolygons =
          (ops.foldl GeometryOp.apply initial).scene.numPolygons ∧
        (ops.foldl GeometryOp.apply initial).vblank.scene.polygonRAM =
          (ops.foldl GeometryOp.apply initial).scene.polygonRAM ∧
        (ops.foldl GeometryOp.apply initial).vblank.scene.numOpaquePolygons = 0) := by
  have h := sortable_run ops sortable_initial
  generalize ops.foldl GeometryOp.apply initial = g at h
  refine ⟨h.opaques, fun hgeometry hrendering hflush => ?_⟩
  have hscene : g.vblank.scene = g.scene.submit.swap := by
    unfold vblank
    simp only [hgeometry, hrendering, hflush, if_true]
  rw [hscene]
  exact ⟨Scene.arranged_renderList h, rfl, rfl, rfl⟩

/-- A run that submits one opaque polygon and asks for the swap. -/
def flushedTriangle : List GeometryOp := oneTriangle.dropLast

theorem render_order_flushedTriangle :
    (flushedTriangle.foldl GeometryOp.apply initial).vblank.scene.renderNumPolygons =
      (flushedTriangle.foldl GeometryOp.apply initial).scene.numPolygons :=
  ((render_order flushedTriangle).2 (by decide +kernel) (by decide +kernel)
    (by decide +kernel)).2.1

/-- After the swap the count is no longer that of the polygons submitted, and with the
rendering engine off there is a swap but no new render list. -/
theorem render_order_limits :
    (¬ ∀ ops : List GeometryOp, (ops.foldl GeometryOp.apply initial).scene.flushRequest = true →
      (ops.foldl GeometryOp.apply initial).vblank.scene.numOpaquePolygons =
        (ops.foldl GeometryOp.apply initial).scene.opaqueSlots.length) ∧
    ¬ ∀ ops : List GeometryOp, (ops.foldl GeometryOp.apply initial).geometryEnabled = true →
      (ops.foldl GeometryOp.apply initial).scene.flushRequest = true →
      ((List.range (ops.foldl GeometryOp.apply initial).scene.numPolygons).map
        (ops.foldl GeometryOp.apply initial).vblank.scene.renderPolygonRAM).Perm
          ((ops.foldl GeometryOp.apply initial).scene.slots.map some) := by
  constructor
  · intro h
    have hrun := h flushedTriangle (by decide +kernel)
    exact absurd hrun (by decide +kernel)
  · intro h
    have hrun := h (flushedTriangle ++ [.setEnabled true false]) (by decide +kernel)
      (by decide +kernel)
    exact absurd hrun (by decide +kernel)

end GPU3D
end MelonDS
