import MelonDS.GPU3D.VBlank

/-!
# The two banks of polygon and vertex RAM

One bank is filled by geometry commands while the other is rendered. What keeps them apart is
that every polygon record points into its own bank, wherever it lies, and that the render list
names records of the bank not being filled. A strip polygon shares vertices with the polygon
before it, so the first fact needs that polygon to be of the same bank.
-/

namespace MelonDS
namespace GPU3D

def InVertexBank (bank : Bool) (i : ℕ) : Prop :=
  (if bank then 6144 else 0) ≤ i ∧ i < (if bank then 6144 else 0) + 6144

def InPolygonBank (bank : Bool) (k : ℕ) : Prop :=
  (if bank then 2048 else 0) ≤ k ∧ k < (if bank then 2048 else 0) + 2048

instance (bank : Bool) (k : ℕ) : Decidable (InPolygonBank bank k) :=
  inferInstanceAs (Decidable (_ ∧ _))

/-- Every vertex of the polygon lies in the bank. -/
def Polygon.PointsInto (bank : Bool) (p : Polygon) : Prop :=
  ∀ j < p.numVertices, ∃ i, p.vertices j = some i ∧ InVertexBank bank i

namespace Scene

/-- What is rendered lies in the bank not being filled, what is built in the one that is. -/
structure Isolated (s : Scene) : Prop where
  rendered : ∀ j < s.renderNumPolygons, ∃ k, s.renderPolygonRAM j = some k ∧
    InPolygonBank (!s.curRAMBank) k ∧ (s.polygonRAM k).PointsInto (!s.curRAMBank)
  built : ∀ n < s.numPolygons, (s.polygonRAM (s.curPolygonRAM + n)).PointsInto s.curRAMBank

/-- The polygons to render with their vertices. -/
def displayed (s : Scene) : List (Polygon × List StoredVertex) :=
  (List.range s.renderNumPolygons).map fun j =>
    let p := s.derefPolygon (s.renderPolygonRAM j)
    (p, (List.range p.numVertices).map fun i => s.deref (p.vertices i))

/-- What every operation keeps. -/
structure Sound (s : Scene) : Prop where
  records : ∀ bank k, InPolygonBank bank k → (s.polygonRAM k).PointsInto bank
  rendered : ∀ j < s.renderNumPolygons, ∃ k, s.renderPolygonRAM j = some k ∧
    InPolygonBank (!s.curRAMBank) k
  numPolygons_le : s.numPolygons ≤ 2048
  opaques : s.numOpaquePolygons = s.slots.countP fun k => !(s.polygonRAM k).translucent

theorem inPolygonBank_slot {s : Scene} {n : ℕ} (h : n < 2048) :
    InPolygonBank s.curRAMBank (s.curPolygonRAM + n) :=
  ⟨Nat.le_add_right _ _, Nat.add_lt_add_left h _⟩

theorem Sound.isolated {s : Scene} (h : s.Sound) : s.Isolated where
  rendered := by
    intro j hj
    obtain ⟨k, hk, hbank⟩ := h.rendered j hj
    exact ⟨k, hk, hbank, h.records _ k hbank⟩
  built := fun _ hn => h.records _ _ (inPolygonBank_slot (hn.trans_le h.numPolygons_le))

theorem bank_ne_of_polygon {bank : Bool} {k : ℕ} (h : InPolygonBank (!bank) k) :
    ¬ InPolygonBank bank k := by
  intro h'
  cases bank <;> simp only [InPolygonBank, Bool.not_true, Bool.not_false, if_true] at h h' <;> grind

theorem bank_ne_of_vertex {bank : Bool} {i : ℕ} (h : InVertexBank (!bank) i) :
    ¬ InVertexBank bank i := by
  intro h'
  cases bank <;> simp only [InVertexBank, Bool.not_true, Bool.not_false, if_true] at h h' <;> grind

end Scene

/-! ## Adding a polygon -/

theorem storeFrom_of_not_mem {α : Type*} (ram : ℕ → α) (base : ℕ) (vs : List α) {i : ℕ}
    (h : i < base ∨ base + vs.length ≤ i) : storeFrom ram base vs i = ram i := by
  rw [storeFrom]
  rcases h with h | h
  · rw [if_neg (Nat.not_le.mpr h)]
  · split_ifs
    · rw [List.getElem?_eq_none (by omega), Option.getD_none]
    · rfl

namespace Accepted

/-- The vertices of a strip polygon include the two it begins with. -/
def Complete (p : Accepted) : Prop := p.attached.isSome = true → 2 ≤ p.vertices.length

theorem length_stored_le {p : Accepted} (s : Scene) (h : p.Complete) :
    (p.stored s).length ≤ p.vertices.length := by
  rw [stored]
  cases ha : p.attached with
  | none => exact Nat.le_refl _
  | some a =>
    have h2 := h (by rw [ha]; rfl)
    dsimp only
    by_cases hs : p.shares = true
    · rw [if_pos hs, List.length_drop]
      exact Nat.sub_le _ _
    · rw [if_neg hs, List.length_cons, List.length_cons, List.length_drop]
      omega

/-- The strip's vertices are in the bank. -/
def AttachedTo (bank : Bool) (p : Accepted) : Prop :=
  ∀ a, p.attached = some a →
    (∃ i, a.first = some i ∧ InVertexBank bank i) ∧ ∃ i, a.second = some i ∧ InVertexBank bank i

theorem pointer_mem {p : Accepted} {bank : Bool} (hattached : p.AttachedTo bank) {base j : ℕ}
    (hj : j < p.vertices.length) (hlow : (if bank then 6144 else 0) ≤ base)
    (hhigh : base + p.vertices.length ≤ (if bank then 6144 else 0) + 6144) :
    ∃ i, p.pointer base j = some i ∧ InVertexBank bank i := by
  have hplain : InVertexBank bank (base + j) :=
    ⟨hlow.trans (Nat.le_add_right _ _), by omega⟩
  rw [pointer]
  cases ha : p.attached with
  | none => exact ⟨_, rfl, hplain⟩
  | some a =>
    obtain ⟨hfirst, hsecond⟩ := hattached a ha
    dsimp only
    split_ifs with hs h0 h1
    · exact hfirst
    · exact hsecond
    · exact ⟨_, rfl, hlow.trans (Nat.le_add_right _ _), by omega⟩
    · exact ⟨_, rfl, hplain⟩

theorem record_pointsInto {p : Accepted} {bank : Bool} (hattached : p.AttachedTo bank)
    (attrs : Attributes) (flushAttributes : U32) {base : ℕ} (ram : ℕ → StoredVertex)
    (old : Polygon) (hlow : (if bank then 6144 else 0) ≤ base)
    (hhigh : base + p.vertices.length ≤ (if bank then 6144 else 0) + 6144) :
    (p.record attrs flushAttributes base ram old).PointsInto bank := by
  intro j hj
  change j < p.vertices.length at hj
  obtain ⟨i, hi, hbank⟩ := pointer_mem hattached hj hlow hhigh
  refine ⟨i, ?_, hbank⟩
  change (if j < p.vertices.length then p.pointer base j else old.vertices j) = some i
  rw [if_pos hj, hi]

end Accepted

namespace Scene

theorem slots_add (s : Scene) (attrs : Attributes) (p : Accepted) :
    (s.add attrs p).slots = s.slots ++ [s.curPolygonRAM + s.numPolygons] := by
  change (List.range (s.numPolygons + 1)).map (s.curPolygonRAM + ·) = _
  rw [List.range_succ, List.map_append]
  rfl

theorem polygonRAM_add_of_ne (s : Scene) (attrs : Attributes) (p : Accepted) {k : ℕ}
    (h : k ≠ s.curPolygonRAM + s.numPolygons) : (s.add attrs p).polygonRAM k = s.polygonRAM k :=
  Function.update_of_ne h _ _

theorem polygonRAM_add_self (s : Scene) (attrs : Attributes) (p : Accepted) :
    (s.add attrs p).polygonRAM (s.curPolygonRAM + s.numPolygons) =
      p.record attrs s.flushAttributes (s.curVertexRAM + s.numVertices)
        (storeFrom s.vertexRAM (s.curVertexRAM + s.numVertices) (p.stored s))
        (s.polygonRAM (s.curPolygonRAM + s.numPolygons)) :=
  Function.update_self _ _ _

theorem slot_ne {s : Scene} {k : ℕ} (h : k ∈ s.slots) : k ≠ s.curPolygonRAM + s.numPolygons := by
  obtain ⟨n, hn, rfl⟩ := List.mem_map.mp h
  have hlt := List.mem_range.mp hn
  omega

variable {s : Scene} {attrs : Attributes} {p : Accepted}

theorem Sound.add (h : s.Sound) (hattached : p.AttachedTo s.curRAMBank)
    (hfit : full s p.vertices.length = false) : (s.add attrs p).Sound where
  records := by
    intro bank k hk
    by_cases hslot : k = s.curPolygonRAM + s.numPolygons
    · subst hslot
      have hroom : s.numPolygons < 2048 ∧ s.numVertices + p.vertices.length ≤ 6144 := by
        simpa [full] using hfit
      have hbank : bank = s.curRAMBank := by
        by_contra hne
        have hother : bank = !s.curRAMBank := Bool.eq_not_of_ne hne
        rw [hother] at hk
        exact bank_ne_of_polygon hk (inPolygonBank_slot hroom.1)
      subst hbank
      rw [polygonRAM_add_self]
      refine p.record_pointsInto hattached attrs _ _ _ (Nat.le_add_right _ _) ?_
      rw [Nat.add_assoc]
      exact Nat.add_le_add_left hroom.2 _
    · rw [s.polygonRAM_add_of_ne attrs p hslot]
      exact h.records bank k hk
  rendered := h.rendered
  numPolygons_le := by
    have hroom : s.numPolygons < 2048 ∧ s.numVertices + p.vertices.length ≤ 6144 := by
      simpa [full] using hfit
    exact hroom.1
  opaques := by
    have hold : s.slots.countP (fun k => !((s.add attrs p).polygonRAM k).translucent) =
        s.numOpaquePolygons := by
      rw [h.opaques]
      refine List.countP_congr fun k hk => ?_
      rw [s.polygonRAM_add_of_ne attrs p (slot_ne hk)]
    have hself : ((s.add attrs p).polygonRAM (s.curPolygonRAM + s.numPolygons)).translucent =
        translucent attrs.curPolygonAttr attrs.texParam := by
      rw [polygonRAM_add_self]
      rfl
    rw [slots_add, List.countP_append, hold, List.countP_singleton, hself]
    change (if translucent attrs.curPolygonAttr attrs.texParam then s.numOpaquePolygons
      else s.numOpaquePolygons + 1) = _
    cases translucent attrs.curPolygonAttr attrs.texParam <;> rfl

/-- A polygon is stored in the bank being filled, so what is displayed stays. -/
theorem Sound.displayed_add (h : s.Sound) (hcomplete : p.Complete)
    (hfit : full s p.vertices.length = false) : (s.add attrs p).displayed = s.displayed := by
  have hroom : s.numPolygons < 2048 ∧ s.numVertices + p.vertices.length ≤ 6144 := by
    simpa [full] using hfit
  have hstored := p.length_stored_le s hcomplete
  refine List.map_congr_left fun j hj => ?_
  obtain ⟨k, hk, hbank⟩ := h.rendered j (List.mem_range.mp hj)
  have hne : k ≠ s.curPolygonRAM + s.numPolygons := by
    rintro rfl
    exact bank_ne_of_polygon hbank (inPolygonBank_slot hroom.1)
  have hpoly : (s.add attrs p).derefPolygon (s.renderPolygonRAM j) =
      s.derefPolygon (s.renderPolygonRAM j) := by
    rw [hk]
    exact s.polygonRAM_add_of_ne attrs p hne
  have hvertices : ∀ i < (s.derefPolygon (s.renderPolygonRAM j)).numVertices,
      (s.add attrs p).deref ((s.derefPolygon (s.renderPolygonRAM j)).vertices i) =
        s.deref ((s.derefPolygon (s.renderPolygonRAM j)).vertices i) := by
    intro i hi
    rw [hk] at hi ⊢
    obtain ⟨v, hv, hvbank⟩ := h.records _ k hbank i hi
    change (s.add attrs p).deref ((s.polygonRAM k).vertices i) =
      s.deref ((s.polygonRAM k).vertices i)
    rw [hv]
    refine storeFrom_of_not_mem s.vertexRAM (s.curVertexRAM + s.numVertices) (p.stored s) ?_
    by_contra hin
    obtain ⟨hlow, hhigh⟩ := not_or.mp hin
    have hlt : v < s.curVertexRAM + s.numVertices + (p.stored s).length := Nat.not_le.mp hhigh
    refine bank_ne_of_vertex hvbank ⟨?_, ?_⟩
    · exact (Nat.le_add_right _ s.numVertices).trans (Nat.not_lt.mp hlow)
    · change v < s.curVertexRAM + 6144
      omega
  change (_, _) = (_, _)
  rw [show (s.add attrs p).renderPolygonRAM = s.renderPolygonRAM from rfl, hpoly]
  refine congrArg _ (List.map_congr_left fun i hi => ?_)
  exact hvertices i (List.mem_range.mp hi)

end Scene
end GPU3D
end MelonDS
