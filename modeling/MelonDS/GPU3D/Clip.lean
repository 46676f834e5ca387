import Mathlib.Algebra.BigOperators.Intervals
import Mathlib.Data.Fin.VecNotation
import MelonDS.Library.CyclicOrder
import MelonDS.Library.SignedRange
import MelonDS.Types

/-!
# Clipping a polygon against the view volume

`ClipSegment`, `ClipAgainstPlane` and `ClipPolygon` of `GPU3D.cpp`. A pass
against one plane replaces each vertex outside it by up to two new ones, on the
edges to its neighbours inside, and the vertices go through arrays of ten.
-/

namespace MelonDS.GPU3D
open Cyclic

/-- The fields of `Vertex` that clipping reads and writes. -/
structure Vertex where
  position : Fin 4 → S32
  color : Fin 3 → S32
  texCoords : Fin 2 → S16
  clipped : Bool

/-- A pass clips one coordinate at `Position[3]` or at its negation. -/
structure ClipPlane where
  comp : Fin 3
  positive : Bool
deriving DecidableEq

namespace ClipPlane

/-- The template argument `plane`. -/
def sign (p : ClipPlane) : S32 := if p.positive then 1 else -1

def outside (p : ClipPlane) (v : Vertex) : Bool :=
  if p.positive then (v.position 3).slt (v.position p.comp.castSucc)
  else (v.position p.comp.castSucc).slt (-(v.position 3))

/-- `Position[3] - (plane*Position[comp])`, an `s32` expression. -/
def factor (p : ClipPlane) (v : Vertex) : S32 := v.position 3 - p.sign * v.position p.comp.castSucc

def factorNum (p : ClipPlane) (vin : Vertex) : S64 := (p.factor vin).signExtend 64

/-- The difference is an `s64`; it is stored in an `s32`. -/
def factorDen (p : ClipPlane) (vin vout : Vertex) : S32 :=
  (p.factorNum vin - (p.factor vout).signExtend 64).setWidth 32

/-- `INTERPOLATE` of a field of `w` bits. The difference is an `s32`, the
product and the quotient are `s64`, and the result is cut to the field. -/
def interpolate {w : ℕ} (p : ClipPlane) (vin vout : Vertex) (a b : BitVec w) : BitVec w :=
  (a.signExtend 64 +
    ((b.signExtend 32 - a.signExtend 32).signExtend 64 * p.factorNum vin).sdiv
      ((p.factorDen vin vout).signExtend 64)).setWidth w

/-- Without `attribs` the colours and texture coordinates are not computed; the
box test, the one caller, never uses them. -/
def clipSegment (p : ClipPlane) (attribs : Bool) (vin vout : Vertex) : Vertex :=
  let w := p.interpolate vin vout (vin.position 3) (vout.position 3)
  { position := fun i =>
      if i = 3 then w
      else if i = p.comp.castSucc then p.sign * w
      else p.interpolate vin vout (vin.position i) (vout.position i)
    color := fun i =>
      if attribs then p.interpolate vin vout (vin.color i) (vout.color i) else vin.color i
    texCoords := fun i =>
      if attribs then p.interpolate vin vout (vin.texCoords i) (vout.texCoords i)
      else vin.texCoords i
    clipped := true }

end ClipPlane

/-- A vertex array and the number of vertices in use. -/
structure VertexArray where
  vertices : ℕ → Vertex
  nverts : ℕ

namespace VertexArray

/-- What one vertex of the pass leaves in the output array. -/
def emit (p : ClipPlane) (attribs : Bool) (s : VertexArray) (i : ℕ) : List Vertex :=
  let vtx := s.vertices i
  if p.outside vtx then
    let vprev := s.vertices (prev s.nverts i)
    let vnext := s.vertices (next s.nverts i)
    (if p.outside vprev then [] else [p.clipSegment attribs vtx vprev]) ++
      (if p.outside vnext then [] else [p.clipSegment attribs vtx vnext])
  else [vtx]

/-- The vertices a pass appends from index `clipstart` on. -/
def emitted (p : ClipPlane) (attribs : Bool) (clipstart : ℕ) (s : VertexArray) : List Vertex :=
  (List.range' clipstart (s.nverts - clipstart)).flatMap (s.emit p attribs)

/-- A pass from `s` into an array of contents `into`. The two vertices before
`clipstart` are reused ones, kept as they are. -/
def clipPass (p : ClipPlane) (attribs : Bool) (clipstart : ℕ) (s : VertexArray)
    (into : ℕ → Vertex) : VertexArray where
  vertices := fun i =>
    if i < clipstart then s.vertices i
    else ((s.emitted p attribs clipstart)[i - clipstart]?).getD (into i)
  nverts := clipstart + (s.emitted p attribs clipstart).length

/-- `Color &= ~0xFFF; Color += 0xFFF` on the vertices in use. -/
def quantizeColors (s : VertexArray) : VertexArray :=
  { s with
    vertices := fun i =>
      if i < s.nverts then
        { s.vertices i with color := fun k => ((s.vertices i).color k &&& ~~~0xFFF) + 0xFFF }
      else s.vertices i }

end VertexArray

/-- A pass made while clipping: the array it was given and the vertex count after it. -/
structure ClipPass where
  plane : ClipPlane
  given : VertexArray
  count : ℕ

structure ClipResult where
  array : VertexArray
  passes : List ClipPass

namespace ClipResult

/-- The far plane rejects the whole polygon unless bit 12 of the attributes is set. -/
def rejected (attr : U32) (comp : Fin 3) (clipstart : ℕ) (s : VertexArray) : Bool :=
  comp = 2 && !attr.getLsbD 12 &&
    (List.range' clipstart (s.nverts - clipstart)).any fun i =>
      ClipPlane.outside ⟨comp, true⟩ (s.vertices i)

/-- `ClipAgainstPlane`: the positive plane into `temp`, the negative one back. A
rejection leaves the vertices alone and returns zero. -/
def clipAgainstPlane (attribs : Bool) (attr : U32) (clipstart : ℕ) (comp : Fin 3)
    (r : ClipResult) : ClipResult :=
  if rejected attr comp clipstart r.array then
    ⟨{ r.array with nverts := 0 }, r.passes ++ [⟨⟨comp, true⟩, r.array, 0⟩]⟩
  else
    let temp := r.array.clipPass ⟨comp, true⟩ attribs clipstart r.array.vertices
    let back := temp.clipPass ⟨comp, false⟩ attribs clipstart r.array.vertices
    ⟨back.quantizeColors,
      r.passes ++ [⟨⟨comp, true⟩, r.array, temp.nverts⟩, ⟨⟨comp, false⟩, temp, back.nverts⟩]⟩

/-- The test of the fast path, on the vertices that are not reused. -/
def allInside (clipstart : ℕ) (s : VertexArray) : Bool :=
  (List.range' clipstart (s.nverts - clipstart)).all fun i =>
    let p := (s.vertices i).position
    !(p 3).slt 0 &&
      !(p 3).slt (p 2) && !(p 2).slt (-(p 3)) &&
      !(p 3).slt (p 1) && !(p 1).slt (-(p 3)) &&
      !(p 3).slt (p 0) && !(p 0).slt (-(p 3))

def clipPolygon (attribs : Bool) (attr : U32) (clipstart : ℕ) (s : VertexArray) : ClipResult :=
  if attribs && allInside clipstart s then
    ⟨{ s with
        vertices := fun i =>
          if i < s.nverts then
            { s.vertices i with color := fun k => (s.vertices i).color k ||| 0xFFF }
          else s.vertices i }, []⟩
  else
    [2, 1, 0].foldl (fun r comp => clipAgainstPlane attribs attr clipstart comp r) ⟨s, []⟩

end ClipResult

/-! ## How many vertices a pass leaves -/

namespace VertexArray

/-- The vertices from `clipstart` on that the pass keeps. -/
def kept (p : ClipPlane) (clipstart : ℕ) (s : VertexArray) : ℕ :=
  ((Finset.Ico clipstart s.nverts).filter fun i => p.outside (s.vertices i) = false).card

/-- The edge between two vertices leaves the view volume at a vertex that is not reused. -/
def Cuts (p : ClipPlane) (clipstart : ℕ) (s : VertexArray) (i j : ℕ) : Prop :=
  clipstart ≤ i ∧ p.outside (s.vertices i) = true ∧ p.outside (s.vertices j) = false

instance (p : ClipPlane) (clipstart : ℕ) (s : VertexArray) (i j : ℕ) :
    Decidable (Cuts p clipstart s i j) :=
  inferInstanceAs (Decidable (_ ∧ _ ∧ _))

/-- The edges of the polygon that cross the plane. -/
def crossings (p : ClipPlane) (clipstart : ℕ) (s : VertexArray) : ℕ :=
  ((Finset.range s.nverts).filter fun i =>
    Cuts p clipstart s (next s.nverts i) i ∨ Cuts p clipstart s i (next s.nverts i)).card

theorem kept_le (p : ClipPlane) (clipstart : ℕ) (s : VertexArray) :
    s.kept p clipstart ≤ s.nverts - clipstart :=
  (Finset.card_filter_le _ _).trans_eq (Nat.card_Ico _ _)

theorem crossings_le (p : ClipPlane) (clipstart : ℕ) (s : VertexArray) :
    s.crossings p clipstart ≤ s.nverts :=
  (Finset.card_filter_le _ _).trans_eq (Finset.card_range _)

/-- A vertex outside leaves one vertex on each edge it cuts. -/
theorem length_emit (p : ClipPlane) (attribs : Bool) (s : VertexArray) {clipstart i : ℕ}
    (hi : clipstart ≤ i) :
    (s.emit p attribs i).length =
      (if p.outside (s.vertices i) = false then 1 else 0) +
        ((if Cuts p clipstart s i (prev s.nverts i) then 1 else 0) +
          (if Cuts p clipstart s i (next s.nverts i) then 1 else 0)) := by
  simp only [emit, Cuts, hi, true_and]
  cases p.outside (s.vertices i) with
  | false => simp
  | true =>
    cases p.outside (s.vertices (prev s.nverts i)) <;>
      cases p.outside (s.vertices (next s.nverts i)) <;> rfl

/-- Each crossing edge is cut at one of its two ends. -/
theorem crossings_eq_sum (p : ClipPlane) (clipstart : ℕ) (s : VertexArray) :
    s.crossings p clipstart = ∑ i ∈ Finset.range s.nverts,
      ((if Cuts p clipstart s (next s.nverts i) i then 1 else 0) +
        (if Cuts p clipstart s i (next s.nverts i) then 1 else 0)) := by
  rw [crossings, Finset.card_filter]
  refine Finset.sum_congr rfl fun i _ => ?_
  by_cases h : Cuts p clipstart s (next s.nverts i) i
  · have h' : ¬ Cuts p clipstart s i (next s.nverts i) := fun h' =>
      Bool.false_ne_true (h.2.2.symm.trans h'.2.1)
    simp [h, h']
  · simp [h]

theorem length_emitted (p : ClipPlane) (attribs : Bool) (clipstart : ℕ) (s : VertexArray) :
    (s.emitted p attribs clipstart).length = s.kept p clipstart + s.crossings p clipstart := by
  have hsum : (s.emitted p attribs clipstart).length =
      ∑ i ∈ Finset.Ico clipstart s.nverts, (s.emit p attribs i).length := by
    rw [emitted, List.length_flatMap]
    rfl
  have hcuts : ∑ i ∈ Finset.Ico clipstart s.nverts,
      ((if Cuts p clipstart s i (prev s.nverts i) then 1 else 0) +
        (if Cuts p clipstart s i (next s.nverts i) then 1 else 0)) = s.crossings p clipstart := by
    rw [crossings_eq_sum, ← sum_neighbours s.nverts fun i j =>
      if Cuts p clipstart s i j then 1 else 0]
    refine Finset.sum_subset ?_ ?_
    · intro i hi
      exact Finset.mem_range.mpr (Finset.mem_Ico.mp hi).2
    · intro i hi hni
      have hlt : ¬ clipstart ≤ i := fun hle =>
        hni (Finset.mem_Ico.mpr ⟨hle, Finset.mem_range.mp hi⟩)
      simp [Cuts, hlt]
  rw [hsum, ← hcuts, kept, Finset.card_filter, ← Finset.sum_add_distrib]
  exact Finset.sum_congr rfl fun i hi => length_emit p attribs s (Finset.mem_Ico.mp hi).1

end VertexArray

namespace ClipPass

/-- The vertices reused, those the pass keeps and the edges it cuts. -/
def load (clipstart : ℕ) (r : ClipPass) : ℕ :=
  clipstart + r.given.kept r.plane clipstart + r.given.crossings r.plane clipstart

/-- A pass leaves its load, or is the rejection of a polygon that fits anyway. -/
def Counted (clipstart : ℕ) (r : ClipPass) : Prop :=
  r.count = r.load clipstart ∨ (r.count = 0 ∧ r.load clipstart ≤ 10)

theorem Counted.le_iff {clipstart : ℕ} {r : ClipPass} (h : r.Counted clipstart) :
    r.count ≤ 10 ↔ r.load clipstart ≤ 10 := by
  rcases h with h | ⟨h, hl⟩ <;> omega

end ClipPass

namespace ClipResult

theorem counted_clipPass (p : ClipPlane) (attribs : Bool) (clipstart : ℕ) (s : VertexArray)
    (into : ℕ → Vertex) :
    ClipPass.Counted clipstart ⟨p, s, (s.clipPass p attribs clipstart into).nverts⟩ := by
  left
  rw [VertexArray.clipPass, VertexArray.length_emitted, ClipPass.load, Nat.add_assoc]

theorem counted_clipAgainstPlane (attribs : Bool) (attr : U32) {clipstart : ℕ} (comp : Fin 3)
    {r : ClipResult} (h : ∀ q ∈ r.passes, q.Counted clipstart) (hcs : clipstart ≤ 2)
    (hn : comp = 2 → r.array.nverts ≤ 4) :
    ∀ q ∈ (clipAgainstPlane attribs attr clipstart comp r).passes, q.Counted clipstart := by
  intro q hq
  unfold clipAgainstPlane at hq
  split_ifs at hq with hrej
  · rcases List.mem_append.mp hq with hq | hq
    · exact h q hq
    · obtain rfl := List.mem_singleton.mp hq
      have hcomp : comp = 2 := by
        simp only [rejected, Bool.and_eq_true, decide_eq_true_eq] at hrej
        exact hrej.1.1
      have hk := r.array.kept_le ⟨comp, true⟩ clipstart
      have hc := r.array.crossings_le ⟨comp, true⟩ clipstart
      have := hn hcomp
      refine Or.inr ⟨rfl, ?_⟩
      simp only [ClipPass.load]
      omega
  · rcases List.mem_append.mp hq with hq | hq
    · exact h q hq
    · simp only [List.mem_cons, List.not_mem_nil, or_false] at hq
      rcases hq with rfl | rfl
      · exact counted_clipPass _ _ _ _ _
      · exact counted_clipPass _ _ _ _ _

def vertexAt (x y z w : S32) : Vertex := ⟨![x, y, z, w], fun _ => 0, fun _ => 0, false⟩

/-- A quad whose sides zig-zag across all three axes. -/
def skewQuad : VertexArray where
  vertices := fun i =>
    [vertexAt (-3102) (-3933) (-1413) 1000, vertexAt 656 3977 3289 854,
      vertexAt (-1440) (-741) (-1909) 766, vertexAt 1518 2036 2392 460].getD i
      (vertexAt 0 0 0 0)
  nverts := 4

end ClipResult

/-!
## The division at a clipping plane

`ClipSegment` divides by the difference of the distances of two vertices from the plane. The
distances are on different sides, so the difference is not zero; but it is computed in 32 bits,
where a difference of 2^32 vanishes, and so does the sign of the least number.
-/

namespace ClipPlane
open ClipResult (vertexAt)

/-- How far inside the plane a vertex is, as an integer. -/
def distance (p : ClipPlane) (v : Vertex) : ℤ :=
  if p.positive then (v.position 3).toInt - (v.position p.comp.castSucc).toInt
  else (v.position 3).toInt + (v.position p.comp.castSucc).toInt

theorem toInt_factor (p : ClipPlane) (v : Vertex) :
    (p.factor v).toInt = (p.distance v).bmod (2 ^ 32) := by
  unfold factor sign distance
  cases p.positive with
  | true =>
    rw [if_pos rfl, if_pos rfl]
    have hone : (1 : S32) * v.position p.comp.castSucc = v.position p.comp.castSucc :=
      BitVec.one_mul _
    rw [hone, BitVec.toInt_sub]
  | false =>
    rw [if_neg Bool.false_ne_true, if_neg Bool.false_ne_true]
    have hneg : (-1 : S32) * v.position p.comp.castSucc = -v.position p.comp.castSucc := by
      rw [BitVec.neg_mul]
      exact congrArg _ (BitVec.one_mul _)
    rw [hneg, BitVec.sub_neg, BitVec.toInt_add]

theorem factorDen_eq (p : ClipPlane) (vin vout : Vertex) :
    p.factorDen vin vout = p.factor vin - p.factor vout := by
  rw [factorDen, factorNum, BitVec.sub_eq_add_neg, BitVec.setWidth_add _ _ (by decide),
    BitVec.setWidth_neg_of_le (by decide), setWidth_signExtend _ (by decide),
    setWidth_signExtend _ (by decide), BitVec.sub_eq_add_neg]

/-- The denominator is zero where the distances agree modulo 2^32. -/
theorem factorDen_eq_zero_iff (p : ClipPlane) (vin vout : Vertex) :
    p.factorDen vin vout = 0 ↔ (p.distance vin).bmod (2 ^ 32) = (p.distance vout).bmod (2 ^ 32) := by
  rw [factorDen_eq, ← toInt_factor, ← toInt_factor, BitVec.toInt_inj]
  constructor
  · intro h
    have hadd := congrArg (· + p.factor vout) h
    rw [BitVec.sub_add_cancel] at hadd
    exact hadd.trans (BitVec.zero_add _)
  · intro h
    rw [h]
    exact BitVec.sub_self _

/-- The integer distances of a vertex outside and one inside. -/
theorem distance_bounds {p : ClipPlane} {vin vout : Vertex} (hin : p.outside vin = true)
    (hout : p.outside vout = false) :
    -(2 ^ 33) < p.distance vin - p.distance vout ∧ p.distance vin - p.distance vout < 2 ^ 32 := by
  have hw := (vin.position 3).toInt_lt
  have hw' := (vin.position 3).le_toInt
  have hc := (vin.position p.comp.castSucc).toInt_lt
  have hc' := (vin.position p.comp.castSucc).le_toInt
  have ho := (vout.position 3).toInt_lt
  have ho' := (vout.position 3).le_toInt
  have hd := (vout.position p.comp.castSucc).toInt_lt
  have hd' := (vout.position p.comp.castSucc).le_toInt
  unfold outside at hin hout
  unfold distance
  cases hsign : p.positive with
  | true =>
    rw [hsign, if_pos rfl] at hin hout
    rw [BitVec.slt_eq_decide, decide_eq_true_eq] at hin
    rw [BitVec.slt_eq_decide, decide_eq_false_iff_not] at hout
    rw [if_pos rfl, if_pos rfl]
    omega
  | false =>
    rw [hsign, if_neg Bool.false_ne_true] at hin hout
    rw [BitVec.slt_eq_decide, decide_eq_true_eq, BitVec.toInt_neg, Int.bmod_def] at hin
    rw [if_neg Bool.false_ne_true, if_neg Bool.false_ne_true]
    omega

/-- The denominator is not zero, unless the two distances are equal or 2^32 apart. -/
theorem factorDen_ne_zero_iff (p : ClipPlane) (vin vout : Vertex) (hin : p.outside vin = true)
    (hout : p.outside vout = false) :
    p.factorDen vin vout ≠ 0 ↔
      p.distance vin ≠ p.distance vout ∧ p.distance vin + 2 ^ 32 ≠ p.distance vout := by
  obtain ⟨hlow, hhigh⟩ := distance_bounds hin hout
  rw [ne_eq, factorDen_eq_zero_iff, Int.bmod_def, Int.bmod_def]
  omega

theorem factorDen_ne_zero_iff_unit :
    (⟨0, true⟩ : ClipPlane).factorDen (vertexAt 2 0 0 1) (vertexAt 0 0 0 1) ≠ 0 ↔
      (⟨0, true⟩ : ClipPlane).distance (vertexAt 2 0 0 1) ≠
          (⟨0, true⟩ : ClipPlane).distance (vertexAt 0 0 0 1) ∧
        (⟨0, true⟩ : ClipPlane).distance (vertexAt 2 0 0 1) + 2 ^ 32 ≠
          (⟨0, true⟩ : ClipPlane).distance (vertexAt 0 0 0 1) :=
  factorDen_ne_zero_iff ⟨0, true⟩ (vertexAt 2 0 0 1) (vertexAt 0 0 0 1) (by decide) (by decide)

/-- A far-reaching edge across the right plane: its ends are 2^31 outside and 2^31 inside. -/
theorem factorDen_vanishes :
    (⟨0, true⟩ : ClipPlane).outside (vertexAt 0x40000000 0 0 0xC0000000) = true ∧
      (⟨0, true⟩ : ClipPlane).outside (vertexAt 0xC0000000 0 0 0x40000000) = false ∧
      (⟨0, true⟩ : ClipPlane).factorDen (vertexAt 0x40000000 0 0 0xC0000000)
        (vertexAt 0xC0000000 0 0 0x40000000) = 0 := by
  decide

end ClipPlane
end MelonDS.GPU3D
