import MelonDS.GPU3D.Clip

/-!
# A polygon inside the view volume

Where no vertex is outside any plane, each pass copies the vertices and rounds the colours, so all
six passes do what the fast path of `ClipPolygon` does at once.
-/

namespace MelonDS.GPU3D
namespace VertexArray

/-- No plane has a vertex outside. -/
def Inside (s : VertexArray) : Prop :=
  ∀ p : ClipPlane, ∀ i < s.nverts, p.outside (s.vertices i) = false

theorem inside_of_allInside {s : VertexArray} (h : ClipResult.allInside 0 s = true) : s.Inside := by
  intro p i hi
  have htest := List.all_eq_true.mp h i (List.mem_range'_1.mpr ⟨Nat.zero_le i, by omega⟩)
  simp only [Bool.and_eq_true, Bool.not_eq_true'] at htest
  obtain ⟨⟨⟨⟨⟨⟨-, hz⟩, hz'⟩, hy⟩, hy'⟩, hx⟩, hx'⟩ := htest
  obtain ⟨comp, positive⟩ := p
  unfold ClipPlane.outside
  cases positive with
  | true =>
    match comp with
    | 0 => exact hx
    | 1 => exact hy
    | 2 => exact hz
  | false =>
    match comp with
    | 0 => exact hx'
    | 1 => exact hy'
    | 2 => exact hz'

/-- A pass over such an array writes every vertex back in its place. -/
theorem clipPass_of_inside {s : VertexArray} (h : s.Inside) (p : ClipPlane) (attribs : Bool)
    {clipstart : ℕ} (hstart : clipstart ≤ s.nverts) :
    s.clipPass p attribs clipstart s.vertices = s := by
  have hemitted : s.emitted p attribs clipstart =
      (List.range' clipstart (s.nverts - clipstart)).map s.vertices := by
    rw [emitted, List.map_eq_flatMap]
    refine List.flatMap_congr fun i hi => ?_
    obtain ⟨-, hlt⟩ := List.mem_range'_1.mp hi
    have hkept : p.outside (s.vertices i) = false := h p i (by omega)
    rw [emit, hkept]
    rfl
  have hvertices : ∀ i, (if i < clipstart then s.vertices i
      else ((s.emitted p attribs clipstart)[i - clipstart]?).getD (s.vertices i)) =
      s.vertices i := by
    intro i
    split_ifs with hi
    · rfl
    · rw [hemitted]
      rcases Nat.lt_or_ge i s.nverts with hlt | hge
      · rw [List.getElem?_eq_getElem (by simp; omega)]
        simp only [List.getElem_map, List.getElem_range', Option.getD_some]
        congr 1
        omega
      · rw [List.getElem?_eq_none (by simp; omega)]
        rfl
  have hcount : clipstart + (s.emitted p attribs clipstart).length = s.nverts := by
    rw [hemitted, List.length_map, List.length_range']
    omega
  unfold clipPass
  rw [hcount]
  exact congrArg (VertexArray.mk · s.nverts) (funext hvertices)

/-- Rounding a colour sets its low bits. -/
theorem quantized_eq (color : S32) : (color &&& ~~~0xFFF) + 0xFFF = color ||| 0xFFF := by
  have hdisjoint : (color &&& ~~~0xFFF) &&& (0xFFF : S32) = 0 := by
    rw [BitVec.and_assoc]
    exact BitVec.and_zero
  rw [BitVec.add_eq_or_of_and_eq_zero _ _ hdisjoint]
  apply BitVec.eq_of_getElem_eq
  intro i hi
  simp only [BitVec.getElem_or, BitVec.getElem_and, BitVec.getElem_not]
  cases color[i] <;> cases (0xFFF : S32)[i] <;> rfl

/-- What the fast path does to the colours. -/
def roundColors (s : VertexArray) : VertexArray :=
  { s with
    vertices := fun i =>
      if i < s.nverts then
        { s.vertices i with color := fun k => (s.vertices i).color k ||| 0xFFF }
      else s.vertices i }

theorem quantizeColors_eq (s : VertexArray) : s.quantizeColors = s.roundColors := by
  unfold quantizeColors roundColors
  simp only [quantized_eq]

theorem roundColors_roundColors (s : VertexArray) : s.roundColors.roundColors = s.roundColors := by
  have hvertices : s.roundColors.roundColors.vertices = s.roundColors.vertices := by
    funext i
    by_cases hi : i < s.nverts
    · have hor : ∀ c : S32, (c ||| 0xFFF) ||| 0xFFF = c ||| 0xFFF := fun c => by
        rw [BitVec.or_assoc, BitVec.or_self]
      simp only [roundColors, hi, if_true, hor]
    · simp only [roundColors, hi, if_false]
  exact congrArg (VertexArray.mk · s.nverts) hvertices

theorem inside_roundColors {s : VertexArray} (h : s.Inside) : s.roundColors.Inside := by
  intro p i hi
  have hposition : (s.roundColors.vertices i).position = (s.vertices i).position := by
    unfold roundColors
    dsimp only
    split_ifs <;> rfl
  have hout := h p i hi
  unfold ClipPlane.outside at hout ⊢
  rw [hposition]
  exact hout

end VertexArray

namespace ClipResult
open VertexArray

/-- Both passes against one coordinate. -/
theorem clipAgainstPlane_of_inside {s : VertexArray} (h : s.Inside) (attribs : Bool) (attr : U32)
    {clipstart : ℕ} (hstart : clipstart ≤ s.nverts) (comp : Fin 3) {r : ClipResult}
    (hr : r.array = s) :
    (clipAgainstPlane attribs attr clipstart comp r).array = s.roundColors := by
  have hkept : rejected attr comp clipstart s = false := by
    rw [rejected, Bool.and_eq_false_iff]
    right
    rw [List.any_eq_false]
    intro i hi
    obtain ⟨-, hlt⟩ := List.mem_range'_1.mp hi
    rw [h ⟨comp, true⟩ i (by omega)]
    exact Bool.false_ne_true
  unfold clipAgainstPlane
  rw [hr, hkept, if_neg Bool.false_ne_true]
  dsimp only
  rw [clipPass_of_inside h _ attribs hstart, clipPass_of_inside h _ attribs hstart,
    quantizeColors_eq]

/-- The fast path leaves the array that all six passes leave. -/
theorem clipPolygon_of_inside (attr : U32) (clipstart : ℕ) (s : VertexArray)
    (hstart : clipstart ≤ s.nverts) (hinside : allInside 0 s = true) :
    (clipPolygon true attr clipstart s).passes = [] ∧
      (clipPolygon true attr clipstart s).array =
        ([2, 1, 0].foldl (fun r comp => clipAgainstPlane true attr clipstart comp r)
          ⟨s, []⟩).array := by
  have htest : allInside clipstart s = true := by
    rw [allInside, List.all_eq_true] at hinside ⊢
    intro i hi
    obtain ⟨-, hlt⟩ := List.mem_range'_1.mp hi
    exact hinside i (List.mem_range'_1.mpr ⟨Nat.zero_le i, by omega⟩)
  have h := inside_of_allInside hinside
  have hround := inside_roundColors h
  have hz := clipAgainstPlane_of_inside h true attr hstart 2 (r := ⟨s, []⟩) rfl
  have hy := clipAgainstPlane_of_inside hround true attr hstart 1 hz
  rw [roundColors_roundColors] at hy
  have hx := clipAgainstPlane_of_inside hround true attr hstart 0 hy
  rw [roundColors_roundColors] at hx
  rw [clipPolygon, Bool.true_and, if_pos htest]
  exact ⟨rfl, hx.symm⟩

/-- A triangle with a vertex on a plane and one whose colour has not been rounded. -/
def innerTriangle : VertexArray where
  vertices := fun i =>
    [vertexAt 1 0 0 1, { vertexAt 0 (-2) 1 2 with color := fun _ => 0x1234 },
      vertexAt 0 0 0 0].getD i (vertexAt 0 0 0 0)
  nverts := 3

theorem clipPolygon_of_inside_triangle :
    (clipPolygon true 0 2 innerTriangle).array =
      ([2, 1, 0].foldl (fun r comp => clipAgainstPlane true 0 2 comp r)
        ⟨innerTriangle, []⟩).array :=
  (clipPolygon_of_inside 0 2 innerTriangle (by decide) (by decide)).2

end ClipResult
end MelonDS.GPU3D
