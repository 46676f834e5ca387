import MelonDS.GPU3D.BankRun

/-!
# The swap keeps the banks apart

The render list made at a swap holds polygons of the bank just filled, in every place it
counts. From this and the commands, runs of commands, swaps and power changes keep the banks
apart as long as no polygon continues a strip of the other bank.
-/

namespace MelonDS
namespace GPU3D

/-! ## The render list -/

/-- The places already given, counted from the first opaque and the first translucent one. -/
def Separation.Placed (slots : List ℕ) (first : ℕ) (p : Separation) : Prop :=
  ∀ j, j < p.opaques ∨ (first ≤ j ∧ j < p.translucents) → ∃ k ∈ slots, p.list j = some k

theorem Separation.Placed.place {slots : List ℕ} {first : ℕ} {p : Separation}
    (h : p.Placed slots first) (s : Scene) {slot : ℕ} (hslot : slot ∈ slots) :
    (place s p slot).Placed slots first := by
  intro j hj
  rw [Separation.place] at hj ⊢
  split_ifs at hj ⊢ with htrans
  · dsimp only at hj ⊢
    by_cases he : j = p.translucents
    · exact ⟨slot, hslot, by rw [he, Function.update_self]⟩
    · rw [Function.update_of_ne he]
      exact h j (by omega)
  · dsimp only at hj ⊢
    by_cases he : j = p.opaques
    · exact ⟨slot, hslot, by rw [he, Function.update_self]⟩
    · rw [Function.update_of_ne he]
      exact h j (by omega)

theorem placed_foldl {slots : List ℕ} {first : ℕ} (s : Scene) {l : List ℕ} {p : Separation}
    (hl : ∀ k ∈ l, k ∈ slots) (h : p.Placed slots first) :
    (l.foldl (Separation.place s) p).Placed slots first := by
  induction l generalizing p with
  | nil => exact h
  | cons slot l ih =>
    rw [List.forall_mem_cons] at hl
    exact ih hl.2 (h.place s hl.1)

theorem counts_foldl (s : Scene) (l : List ℕ) (p : Separation) :
    (l.foldl (Separation.place s) p).opaques =
        p.opaques + l.countP (fun k => !(s.polygonRAM k).translucent) ∧
      (l.foldl (Separation.place s) p).translucents =
        p.translucents + l.countP (fun k => (s.polygonRAM k).translucent) := by
  induction l generalizing p with
  | nil => exact ⟨rfl, rfl⟩
  | cons slot l ih =>
    obtain ⟨ho, ht⟩ := ih (Separation.place s p slot)
    rw [List.foldl_cons, ho, ht, List.countP_cons, List.countP_cons, Separation.place]
    cases (s.polygonRAM slot).translucent with
    | true => exact ⟨rfl, (Nat.add_right_comm _ _ _).trans rfl⟩
    | false => exact ⟨(Nat.add_right_comm _ _ _).trans rfl, rfl⟩

namespace Scene

theorem length_slots (s : Scene) : s.slots.length = s.numPolygons := by
  rw [slots, List.length_map, List.length_range]

theorem separated_mem {s : Scene} (h : s.Sound) {j : ℕ} (hj : j < s.numPolygons) :
    ∃ k ∈ s.slots, s.separated j = some k := by
  have hstart : (⟨s.renderPolygonRAM, 0, s.numOpaquePolygons⟩ : Separation).Placed s.slots
      s.numOpaquePolygons := by
    intro i hi
    dsimp only at hi
    omega
  obtain ⟨ho, ht⟩ := counts_foldl s s.slots ⟨s.renderPolygonRAM, 0, s.numOpaquePolygons⟩
  have htotal := List.length_eq_countP_add_countP (fun k => (s.polygonRAM k).translucent)
    (l := s.slots)
  have hopaque : s.slots.countP (fun k => !(s.polygonRAM k).translucent) =
      s.slots.countP fun k => ¬(s.polygonRAM k).translucent = true :=
    List.countP_congr fun k _ => by simp
  have hcount := h.opaques
  rw [length_slots] at htotal
  refine placed_foldl s (fun _ hk => hk) hstart j ?_
  rw [ho, ht]
  dsimp only
  omega

theorem sortedList_mem {s : Scene} {list : ℕ → Option ℕ} {n total : ℕ} (hn : n ≤ total)
    (h : ∀ j < total, ∃ k ∈ s.slots, list j = some k) {j : ℕ} (hj : j < total) :
    ∃ k ∈ s.slots, s.sortedList list n j = some k := by
  have hperm := List.perm_insertionSort s.sortsBefore ((List.range n).map list)
  rw [sortedList, storeFrom, if_pos (Nat.zero_le j), Nat.sub_zero]
  rcases Nat.lt_or_ge j n with hlt | hge
  · have hlen : j < (((List.range n).map list).insertionSort s.sortsBefore).length := by
      rw [hperm.length_eq, List.length_map, List.length_range]
      exact hlt
    rw [List.getElem?_eq_getElem hlen, Option.getD_some]
    obtain ⟨i, hi, he⟩ := List.mem_map.mp (hperm.mem_iff.mp (List.getElem_mem hlen))
    rw [← he]
    exact h i ((List.mem_range.mp hi).trans_le hn)
  · rw [List.getElem?_eq_none, Option.getD_none]
    · exact h j hj
    · rw [hperm.length_eq, List.length_map, List.length_range]
      exact hge

theorem renderList_mem {s : Scene} (h : s.Sound) {j : ℕ} (hj : j < s.numPolygons) :
    ∃ k ∈ s.slots, s.renderList j = some k := by
  have hopaque : s.numOpaquePolygons ≤ s.numPolygons := by
    rw [h.opaques, ← length_slots]
    exact List.countP_le_length
  rw [renderList, if_neg (by omega)]
  refine sortedList_mem ?_ (fun i hi => separated_mem h hi) hj
  split_ifs
  · exact hopaque
  · exact Nat.le_refl _

theorem inPolygonBank_of_mem {s : Scene} (h : s.Sound) {k : ℕ} (hk : k ∈ s.slots) :
    InPolygonBank s.curRAMBank k := by
  obtain ⟨n, hn, rfl⟩ := List.mem_map.mp hk
  exact inPolygonBank_slot ((List.mem_range.mp hn).trans_le h.numPolygons_le)

/-- After a swap the polygons just built are the ones rendered. -/
theorem Sound.swap_submit {s : Scene} (h : s.Sound) : s.submit.swap.Sound where
  records := h.records
  rendered := by
    intro j hj
    obtain ⟨k, hk, hlist⟩ := renderList_mem h hj
    have hbank := inPolygonBank_of_mem h hk
    refine ⟨k, hlist, ?_⟩
    change InPolygonBank (!!s.curRAMBank) k
    rwa [Bool.not_not]
  numPolygons_le := Nat.zero_le _
  opaques := rfl

/-- A swap taken while nothing is rendered. -/
theorem Sound.swap {s : Scene} (h : s.Sound) (hnone : s.renderNumPolygons = 0) :
    s.swap.Sound where
  records := h.records
  rendered := by
    intro j hj
    change j < s.renderNumPolygons at hj
    rw [hnone] at hj
    exact absurd hj (Nat.not_lt_zero j)
  numPolygons_le := Nat.zero_le _
  opaques := rfl

end Scene

/-! ## Runs -/

/-- The scene is sound, and nothing is rendered while the rendering engine is off. -/
structure Kept (g : GPU3D) : Prop where
  sound : g.scene.Sound
  dark : g.renderingEnabled = false → g.scene.renderNumPolygons = 0

inductive GeometryOp
  | command (e : CmdFIFOEntry)
  | vblank
  | setEnabled (geometry rendering : Bool)

def GeometryOp.apply (g : GPU3D) : GeometryOp → GPU3D
  | .command e => executeEntry e g
  | .vblank => g.vblank
  | .setEnabled geometry rendering => g.setEnabled geometry rendering

/-- No polygon is completed that continues a strip of the other bank. -/
def GeometryOp.Continues (g : GPU3D) : GeometryOp → Prop
  | .command e => submitsPolygon e g = true → g.ContinuesBank
  | _ => True

instance (g : GPU3D) (op : GeometryOp) : Decidable (op.Continues g) := by
  cases op <;> unfold GeometryOp.Continues <;> infer_instance

/-- Each operation of a run with the state it starts from. -/
def GeometryOp.trace (g : GPU3D) : List GeometryOp → List (GPU3D × GeometryOp)
  | [] => []
  | op :: ops => (g, op) :: trace (op.apply g) ops

theorem Kept.command {g : GPU3D} (h : g.Kept) {e : CmdFIFOEntry}
    (hc : submitsPolygon e g = true → g.ContinuesBank) :
    (executeEntry e g).Kept ∧ (executeEntry e g).scene.displayed = g.scene.displayed := by
  obtain ⟨hscene, hrendering⟩ := stepped_executeEntry e g
  have hpower : (executeEntry e g).renderingEnabled = g.renderingEnabled :=
    congrArg RenderingState.renderingEnabled hrendering
  have hall : (executeEntry e g).scene.Sound ∧
      (executeEntry e g).scene.displayed = g.scene.displayed ∧
      (executeEntry e g).scene.renderNumPolygons = g.scene.renderNumPolygons := by
    generalize (executeEntry e g).scene = s at hscene
    cases hscene with
    | same => exact ⟨h.sound, rfl, rfl⟩
    | marks last request flushAttributes =>
      exact ⟨⟨h.sound.records, h.sound.rendered, h.sound.numPolygons_le, h.sound.opaques⟩, rfl, rfl⟩
    | add hcompleted attrs p hattached hcomplete hfit =>
      exact ⟨h.sound.add (attachedTo_of_continues h.sound (hc hcompleted) hattached) hfit,
        h.sound.displayed_add hcomplete hfit, rfl⟩
  obtain ⟨hsound, hdisplayed, hcount⟩ := hall
  exact ⟨⟨hsound, fun hoff => by rw [hcount]; exact h.dark (hpower ▸ hoff)⟩, hdisplayed⟩

theorem Kept.vblank {g : GPU3D} (h : g.Kept) : g.vblank.Kept := by
  rw [GPU3D.vblank]
  by_cases hgeometry : g.geometryEnabled = true
  · rw [if_pos hgeometry]
    cases hflush : g.scene.flushRequest <;> cases hrender : g.renderingEnabled
    · exact h
    · exact ⟨h.sound, fun hoff => absurd (show true = false from hoff) (by decide)⟩
    · exact ⟨h.sound.swap (h.dark hrender), fun _ => h.dark hrender⟩
    · exact ⟨h.sound.swap_submit, fun hoff => absurd (show true = false from hoff) (by decide)⟩
  · rw [if_neg hgeometry]
    exact h

theorem Kept.setEnabled {g : GPU3D} (h : g.Kept) (geometry rendering : Bool) :
    (g.setEnabled geometry rendering).Kept := by
  cases rendering with
  | true => exact ⟨h.sound, fun hoff => Bool.noConfusion hoff⟩
  | false =>
    refine ⟨⟨h.sound.records, ?_, h.sound.numPolygons_le, h.sound.opaques⟩, fun _ => rfl⟩
    exact fun j hj => absurd hj (Nat.not_lt_zero j)

theorem kept_initial : initial.Kept where
  sound :=
    { records := fun _ _ _ j hj => absurd hj (Nat.not_lt_zero j)
      rendered := fun j hj => absurd hj (Nat.not_lt_zero j)
      numPolygons_le := Nat.zero_le _
      opaques := rfl }
  dark := fun _ => rfl

theorem Kept.apply {g : GPU3D} (h : g.Kept) {op : GeometryOp} (hop : op.Continues g) :
    (op.apply g).Kept := by
  cases op with
  | command e => exact (h.command hop).1
  | vblank => exact h.vblank
  | setEnabled geometry rendering => exact h.setEnabled geometry rendering

theorem kept_of_trace {g : GPU3D} (h : g.Kept) {ops : List GeometryOp}
    (hops : ∀ p ∈ GeometryOp.trace g ops, p.2.Continues p.1) :
    ∀ p ∈ GeometryOp.trace g ops, p.1.Kept ∧ p.2.Continues p.1 := by
  induction ops generalizing g with
  | nil => exact fun _ hp => absurd hp List.not_mem_nil
  | cons op ops ih =>
    obtain ⟨hop, hrest⟩ := List.forall_mem_cons.mp hops
    exact List.forall_mem_cons.mpr ⟨⟨h, hop⟩, ih (h.apply hop) hrest⟩

/-- The banks are apart in every state reached, and commands leave what is displayed alone. -/
def BanksApart (p : GPU3D × GeometryOp) : Prop :=
  (p.2.apply p.1).scene.Isolated ∧
    ∀ e, p.2 = .command e → (p.2.apply p.1).scene.displayed = p.1.scene.displayed

theorem banks_apart (ops : List GeometryOp)
    (hops : ∀ p ∈ GeometryOp.trace initial ops, p.2.Continues p.1) :
    ∀ p ∈ GeometryOp.trace initial ops, BanksApart p := by
  intro p hp
  obtain ⟨hkept, hop⟩ := kept_of_trace kept_initial hops p hp
  refine ⟨(hkept.apply hop).sound.isolated, ?_⟩
  rintro e he
  rw [he] at hop ⊢
  exact (hkept.command hop).2

/-- A strip of one triangle, and the swap that takes it. -/
def oneTriangle : List GeometryOp :=
  [.setEnabled true true, .command ⟨0x29, 0xC0⟩, .command ⟨0x40, 2⟩, .command ⟨0x24, 0⟩,
    .command ⟨0x24, 0x20⟩, .command ⟨0x24, 0x8000⟩, .command ⟨0x50, 0⟩, .vblank]

theorem continues_oneTriangle :
    ∀ p ∈ GeometryOp.trace initial oneTriangle, p.2.Continues p.1 := by
  decide +kernel

theorem banks_apart_oneTriangle :
    (∀ p ∈ GeometryOp.trace initial oneTriangle, p.2.Continues p.1) ∧
      ∀ p ∈ GeometryOp.trace initial oneTriangle, BanksApart p :=
  ⟨continues_oneTriangle, banks_apart oneTriangle continues_oneTriangle⟩

theorem last_mem_trace (g : GPU3D) (ops : List GeometryOp) (op : GeometryOp) :
    (ops.foldl GeometryOp.apply g, op) ∈ GeometryOp.trace g (ops ++ [op]) := by
  induction ops generalizing g with
  | nil => exact List.mem_singleton_self _
  | cons first ops ih => exact List.mem_cons_of_mem _ (ih (first.apply g))

/-- One more vertex, after the swap, continues the strip with vertices of the other bank. -/
theorem banks_not_apart :
    ¬ ∀ ops, ∀ p ∈ GeometryOp.trace initial ops, BanksApart p := by
  intro h
  obtain ⟨hisolated, -⟩ := h _ _ (last_mem_trace initial oneTriangle (.command ⟨0x24, 0x8020⟩))
  have hstate : ∀ s, s = (GeometryOp.apply (oneTriangle.foldl GeometryOp.apply initial)
        (.command ⟨0x24, 0x8020⟩)).scene →
      s.numPolygons = 1 ∧ s.curRAMBank = true ∧ (s.polygonRAM 2048).numVertices = 3 ∧
        (s.polygonRAM 2048).vertices 0 = some 2 := by
    rintro s rfl
    decide +kernel
  dsimp only at hisolated
  generalize (GeometryOp.apply (oneTriangle.foldl GeometryOp.apply initial)
    (.command ⟨0x24, 0x8020⟩)).scene = s at hisolated hstate
  obtain ⟨hcount, hbank, hverts, hptr⟩ := hstate s rfl
  have hslot : s.curPolygonRAM = 2048 := by rw [Scene.curPolygonRAM, hbank]; rfl
  have hbuilt := hisolated.built 0 (hcount ▸ Nat.one_pos) 0 (by rw [hslot, hverts]; decide)
  rw [hslot, hbank] at hbuilt
  obtain ⟨i, hi, hlow, -⟩ := hbuilt
  obtain rfl := Option.some.inj (hptr.symm.trans hi)
  exact absurd hlow (by decide)

end GPU3D
end MelonDS
