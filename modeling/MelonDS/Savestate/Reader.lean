import Mathlib.Logic.Relation
import MelonDS.Library.RankedLoop
import MelonDS.Savestate.Transfer

/-!
# Reading a savestate

The sections of a buffer are what a walk over their lengths visits, for whatever
bytes the buffer holds; they do not overlap. `Section` finds one of them or sets the
error flag, and what is read after it is a function of its payload alone.
-/

namespace MelonDS.Savestate

open Relation

/-! The sections of a buffer -/

def lengthAt (b : Buffer) (o : U32) : ℕ := (b.load32 (o + 4)).toNat

/-- The section at `o` holds its header and lies within the buffer. -/
def ValidAt (b : Buffer) (o : U32) : Prop :=
  16 ≤ lengthAt b o ∧ o.toNat + lengthAt b o ≤ b.bytes.length

instance (b : Buffer) (o : U32) : Decidable (ValidAt b o) := inferInstanceAs (Decidable (_ ∧ _))

def Step (b : Buffer) (o o' : U32) : Prop := ValidAt b o ∧ o' = o + b.load32 (o + 4)

def IsSection (b : Buffer) (o : U32) : Prop := ReflTransGen (Step b) 0x10 o ∧ ValidAt b o

/-- The bytes of a section behind its header. -/
def payloadAt (b : Buffer) (o : U32) : List U8 :=
  slice b.bytes (o.toNat + 16) (lengthAt b o - 16)

variable {b : Buffer} {magic o o' : U32}

theorem ValidAt.toNat_next (h : ValidAt b o) :
    (o + b.load32 (o + 4)).toNat = o.toNat + lengthAt b o := by
  obtain ⟨-, hle⟩ := h
  have hfits := b.fits
  rw [lengthAt] at hle ⊢
  rw [BitVec.toNat_add]
  omega

theorem Step.le (h : ReflTransGen (Step b) o o') (hne : o ≠ o') :
    o.toNat + lengthAt b o ≤ o'.toNat := by
  induction h with
  | refl => exact absurd rfl hne
  | @tail p q hp hstep ih =>
    obtain ⟨hvalid, rfl⟩ := hstep
    rw [hvalid.toNat_next]
    by_cases hop : o = p
    · rw [hop]
    · exact (ih hop).trans (Nat.le_add_right _ _)

/-- Sections do not overlap. -/
theorem IsSection.disjoint (h : IsSection b o) (h' : IsSection b o') (hne : o ≠ o') :
    o.toNat + lengthAt b o ≤ o'.toNat ∨ o'.toNat + lengthAt b o' ≤ o.toNat := by
  have hunique : Relator.RightUnique (Step b) := by
    rintro p q r ⟨-, rfl⟩ ⟨-, rfl⟩
    rfl
  rcases ReflTransGen.total_of_right_unique hunique h.1 h'.1 with hpath | hpath
  · exact Or.inl (Step.le hpath hne)
  · exact Or.inr (Step.le hpath hne.symm)

/-! The search -/

theorem findTurn_eq (b : Buffer) (magic o : U32) : findTurn b magic o =
    if ValidAt b o then
      if b.load32 o = magic then .error (o + 16) else .ok (o + b.load32 (o + 4))
    else .error noSection := by
  have hsize := b.toNat_length
  rw [findTurn]
  by_cases hvalid : ValidAt b o
  · obtain ⟨hmin, hle⟩ := id hvalid
    rw [lengthAt] at hmin hle
    rw [if_pos hvalid, if_pos, if_neg, if_neg]
    · bv_omega
    · bv_omega
    · bv_omega
  · rw [if_neg hvalid]
    split
    · split
      · rfl
      · next hlt hroom =>
        apply if_pos
        by_contra hlen
        obtain ⟨hmin, hmax⟩ := not_or.mp hlen
        refine hvalid ⟨?_, ?_⟩
        · rw [lengthAt]
          bv_omega
        · rw [lengthAt]
          bv_omega
    · rfl

theorem findFrom_eq (b : Buffer) (magic o : U32) : findFrom b magic o =
    if ValidAt b o then
      if b.load32 o = magic then o + 16 else findFrom b magic (o + b.load32 (o + 4))
    else noSection := by
  rw [findFrom]
  split
  · next result h =>
    rw [findTurn_eq] at h
    split at h
    · next hvalid =>
      split at h
      · next hmagic =>
        cases h
        rw [if_pos hvalid, if_pos hmagic]
      · cases h
    · next hvalid =>
      cases h
      rw [if_neg hvalid]
  · next next h =>
    rw [findTurn_eq] at h
    split at h
    · next hvalid =>
      split at h
      · cases h
      · next hmagic =>
        cases h
        rw [if_pos hvalid, if_neg hmagic]
    · cases h

/-- The search leaves its loop, after at most one turn for every 16 bytes. -/
theorem findFrom_turns (b : Buffer) (magic o : U32) :
    ∃ n, o.toNat + 16 * n ≤ max o.toNat b.bytes.length ∧
      RankedLoop.turns (findTurn b magic) (n + 1) o = .error (findFrom b magic o) := by
  induction hrank : b.bytes.length - o.toNat using Nat.strong_induction_on generalizing o with
  | h rank ih =>
    cases hturn : findTurn b magic o with
    | error result =>
      refine ⟨0, by omega, ?_⟩
      rw [RankedLoop.turns, hturn, findFrom]
      split
      · next r h =>
        rw [hturn] at h
        cases h
        rfl
      · next h =>
        rw [hturn] at h
        cases h
    | ok next =>
      obtain ⟨hnext, hmin, hle, -⟩ := findTurn_ok hturn
      obtain ⟨n, hn, hturns⟩ := ih _ (by omega) next rfl
      refine ⟨n + 1, by omega, ?_⟩
      rw [RankedLoop.turns, hturn, findFrom]
      split
      · next h =>
        rw [hturn] at h
        cases h
      · next h =>
        rw [hturn] at h
        cases h
        exact hturns

/-- A section that the search returns is one of the buffer, with the magic asked for. -/
theorem findFrom_sound (hpath : ReflTransGen (Step b) 0x10 o)
    (h : findFrom b magic o ≠ noSection) :
    ∃ p, IsSection b p ∧ b.load32 p = magic ∧ findFrom b magic o = p + 16 := by
  induction hrank : b.bytes.length - o.toNat using Nat.strong_induction_on generalizing o with
  | h rank ih =>
    rw [findFrom_eq] at h ⊢
    by_cases hvalid : ValidAt b o
    · rw [if_pos hvalid] at h ⊢
      by_cases hmagic : b.load32 o = magic
      · rw [if_pos hmagic]
        exact ⟨o, ⟨hpath, hvalid⟩, hmagic, rfl⟩
      · rw [if_neg hmagic] at h ⊢
        have hnext := hvalid.toNat_next
        obtain ⟨hmin, hle⟩ := id hvalid
        exact ih _ (by omega) (hpath.tail ⟨hvalid, rfl⟩) h rfl
    · rw [if_neg hvalid] at h
      exact absurd rfl h

/-! What is left to read of a section -/

variable {realloc : U32 → Bool} {s : Savestate} {rest : List U8}

structure Reading (s : Savestate) (rest : List U8) : Prop where
  error : s.error = false
  saving : s.saving = false
  finished : s.finished = false
  offset_le : s.bufferOffset.toNat ≤ s.sectionEnd.toNat
  end_le : s.sectionEnd.toNat ≤ s.buffer.bytes.length
  rest : slice s.buffer.bytes s.bufferOffset.toNat
    (s.sectionEnd.toNat - s.bufferOffset.toNat) = rest

namespace Reading

theorem length_rest (h : Reading s rest) :
    rest.length = s.sectionEnd.toNat - s.bufferOffset.toNat := by
  have hle := h.offset_le
  have hend := h.end_le
  rw [← h.rest, length_slice]
  omega

/-- A read of at least one byte takes it from the rest of the section, or meets an error. -/
theorem varArray_eq (h : Reading s rest) {data : List U8} (hdata : data ≠ []) :
    s.varArray realloc data =
      if data.length ≤ rest.length then
        (rest.take data.length,
          { s with bufferOffset := s.bufferOffset + BitVec.ofNat 32 data.length })
      else (data, { s with error := true }) := by
  have hle := h.offset_le
  have hend := h.end_le
  have hfits := s.buffer.fits
  have hlen := h.length_rest
  have hne : data.isEmpty = false := by
    rw [List.isEmpty_eq_false_iff]
    exact hdata
  have hsub : (s.sectionEnd - s.bufferOffset).toNat =
      s.sectionEnd.toNat - s.bufferOffset.toNat := BitVec.toNat_sub_of_le hle
  have hmax : ((0xFFFFFFFF : U32) - s.bufferOffset).toNat = 2 ^ 32 - 1 - s.bufferOffset.toNat := by
    bv_omega
  have hin : ¬s.sectionEnd < s.bufferOffset := by
    rw [BitVec.lt_def]
    omega
  have hbuf : ¬s.buffer.length < s.bufferOffset := by
    rw [BitVec.lt_def, Buffer.toNat_length]
    omega
  rw [varArray, h.error, h.finished, hne, if_neg (by decide), h.saving, hmax, hsub]
  by_cases hroom : data.length ≤ rest.length
  · rw [if_pos hroom, if_neg (not_or.mpr ⟨hbuf, by omega⟩), if_neg (by decide),
      if_neg (not_or.mpr ⟨hin, by omega⟩), Buffer.load, ← h.rest, slice, slice, List.take_take,
      Nat.min_eq_left (by omega)]
  · rw [if_neg hroom]
    split
    · rfl
    · rw [if_neg (by decide), if_pos (Or.inr (by omega))]

theorem advance (h : Reading s rest) {n : ℕ} (hn : n ≤ rest.length) :
    Reading { s with bufferOffset := s.bufferOffset + BitVec.ofNat 32 n } (rest.drop n) := by
  have hle := h.offset_le
  have hend := h.end_le
  have hfits := s.buffer.fits
  have hlen := h.length_rest
  have hoff : (s.bufferOffset + BitVec.ofNat 32 n).toNat = s.bufferOffset.toNat + n := by
    rw [BitVec.toNat_add, BitVec.toNat_ofNat]
    omega
  refine ⟨h.error, h.saving, h.finished, ?_, hend, ?_⟩
  · change _ ≤ s.sectionEnd.toNat
    rw [hoff]
    omega
  · rw [hoff, ← h.rest, slice, slice, List.drop_take, List.drop_drop]
    congr 1
    exact Nat.sub_add_eq _ _ _

end Reading

/-- One variable read from what is left of a section: the variable, and what is left, or none
when it does not fit. -/
def readVar (v : Var) (rest : List U8) : Var × Option (List U8) :=
  if v.kind.size ≤ rest.length then (v.read (rest.take v.kind.size), some (rest.drop v.kind.size))
  else (v, none)

def readVars : List Var → List U8 → List Var × Option (List U8)
  | [], rest => ([], some rest)
  | v :: vs, rest =>
    match readVar v rest with
    | (v, none) => (v :: vs, none)
    | (v, some rest) => ((readVars vs rest).map (v :: ·) id)

theorem readVars_bytes {dests vs : List Var} (h : dests.map Var.kind = vs.map Var.kind)
    (rest : List U8) : readVars dests (vs.flatMap Var.bytes ++ rest) = (vs, some rest) := by
  induction vs generalizing dests with
  | nil =>
    rw [List.map_nil, List.map_eq_nil_iff] at h
    rw [h]
    rfl
  | cons v vs ih =>
    obtain ⟨dest, dests, rfl, hkind, hkinds⟩ := List.map_eq_cons_iff.mp h
    have hsize : dest.kind.size = v.bytes.length := by rw [hkind, Var.length_bytes]
    rw [List.flatMap_cons, List.append_assoc, readVars, readVar, hsize, List.take_left,
      List.drop_left, if_pos (by rw [List.length_append]; exact Nat.le_add_right _ _),
      Var.read_bytes hkind]
    dsimp only
    rw [ih hkinds]
    rfl

/-- A stream after a read: at what is left, or in error. -/
def After (s : Savestate) : Option (List U8) → Prop
  | some rest => Reading s rest
  | none => s.error = true

namespace Reading

theorem var_eq (h : Reading s rest) {k : ℕ} (hk : 0 < k) (v : BitVec (8 * k))
    (hroom : k ≤ rest.length) : s.var realloc k v =
      (BitVec.ofNat (8 * k) (ofBytes (rest.take k)),
        { s with bufferOffset := s.bufferOffset + BitVec.ofNat 32 k }) := by
  have hdata : toBytes k v.toNat ≠ [] := by
    apply List.ne_nil_of_length_pos
    rw [length_toBytes]
    exact hk
  rw [Savestate.var, h.varArray_eq hdata, length_toBytes, if_pos hroom]

theorem var_room (h : Reading s rest) {k : ℕ} (hk : 0 < k) (v : BitVec (8 * k))
    (hroom : k ≤ rest.length) :
    (s.var realloc k v).1 = BitVec.ofNat (8 * k) (ofBytes (rest.take k)) ∧
      Reading (s.var realloc k v).2 (rest.drop k) := by
  rw [h.var_eq hk v hroom]
  exact ⟨rfl, h.advance hroom⟩

theorem var_field {k : ℕ} {v : BitVec (8 * k)} (h : Reading s (toBytes k v.toNat ++ rest))
    (realloc : U32 → Bool) (hk : 0 < k) (dest : BitVec (8 * k)) : s.var realloc k dest =
      (v, { s with bufferOffset := s.bufferOffset + BitVec.ofNat 32 k }) ∧
        Reading { s with bufferOffset := s.bufferOffset + BitVec.ofNat 32 k } rest := by
  have hroom : k ≤ (toBytes k v.toNat ++ rest).length := by
    rw [List.length_append, length_toBytes]
    exact Nat.le_add_right _ _
  have hnext := h.advance hroom
  rw [drop_toBytes_append] at hnext
  refine ⟨?_, hnext⟩
  rw [h.var_eq hk dest hroom, take_toBytes_append, ofNat_ofBytes_toBytes rfl]

theorem var_short (h : Reading s rest) {k : ℕ} (v : BitVec (8 * k)) (hshort : rest.length < k) :
    (s.var realloc k v).1 = v ∧ (s.var realloc k v).2.error = true := by
  have hdata : toBytes k v.toNat ≠ [] := by
    apply List.ne_nil_of_length_pos
    rw [length_toBytes]
    omega
  rw [Savestate.var, h.varArray_eq hdata, length_toBytes, if_neg (by omega)]
  exact ⟨ofNat_ofBytes_toBytes rfl v, rfl⟩

theorem transfer_bool (h : s.saving = false) (v : Bool) : s.transfer realloc (.bool v) =
    (.bool (if (s.var realloc 1 0).2.error then v else (s.var realloc 1 0).1 != 0),
      (s.var realloc 1 0).2) := by
  rw [Savestate.transfer, varBool, h, if_neg (by decide)]
  rfl

theorem transfer_bool32 (h : s.saving = false) (v : Bool) : s.transfer realloc (.bool32 v) =
    (.bool32 (if (s.var realloc 4 0).2.error then v else (s.var realloc 4 0).1 != 0),
      (s.var realloc 4 0).2) := by
  rw [Savestate.transfer, Savestate.bool32, h, if_neg (by decide)]
  rfl

theorem transfer_room (h : Reading s rest) {v : Var} (hroom : v.kind.size ≤ rest.length) :
    (s.transfer realloc v).1 = v.read (rest.take v.kind.size) ∧
      Reading (s.transfer realloc v).2 (rest.drop v.kind.size) := by
  cases v with
  | array data =>
    by_cases hdata : data = []
    · subst hdata
      have hnil : s.varArray realloc [] = ([], s) := by
        rw [varArray, List.isEmpty_nil, Bool.or_true, if_pos rfl]
      rw [Savestate.transfer, hnil]
      exact ⟨rfl, h⟩
    · rw [Savestate.transfer, h.varArray_eq hdata, if_pos (show data.length ≤ _ from hroom)]
      exact ⟨rfl, h.advance hroom⟩
  | v8 v =>
    obtain ⟨hval, hnext⟩ := h.var_room (k := 1) (by omega) v hroom
    exact ⟨congrArg Var.v8 hval, hnext⟩
  | v16 v =>
    obtain ⟨hval, hnext⟩ := h.var_room (k := 2) (by omega) v hroom
    exact ⟨congrArg Var.v16 hval, hnext⟩
  | v32 v =>
    obtain ⟨hval, hnext⟩ := h.var_room (k := 4) (by omega) v hroom
    exact ⟨congrArg Var.v32 hval, hnext⟩
  | v64 v =>
    obtain ⟨hval, hnext⟩ := h.var_room (k := 8) (by omega) v hroom
    exact ⟨congrArg Var.v64 hval, hnext⟩
  | bool v =>
    obtain ⟨hval, hnext⟩ := h.var_room (k := 1) (by omega) 0 hroom
    rw [transfer_bool h.saving, hnext.error, if_neg (by decide), hval]
    exact ⟨rfl, hnext⟩
  | bool32 v =>
    obtain ⟨hval, hnext⟩ := h.var_room (k := 4) (by omega) 0 hroom
    rw [transfer_bool32 h.saving, hnext.error, if_neg (by decide), hval]
    exact ⟨rfl, hnext⟩

theorem transfer_short (h : Reading s rest) {v : Var} (hshort : rest.length < v.kind.size) :
    (s.transfer realloc v).1 = v ∧ (s.transfer realloc v).2.error = true := by
  cases v with
  | array data =>
    have hdata : data ≠ [] := by
      rintro rfl
      exact absurd hshort (Nat.not_lt_zero _)
    rw [Savestate.transfer, h.varArray_eq hdata,
      if_neg (show ¬data.length ≤ _ from Nat.not_le.mpr hshort)]
    exact ⟨rfl, rfl⟩
  | v8 v =>
    obtain ⟨hval, herr⟩ := h.var_short (k := 1) v hshort
    exact ⟨congrArg Var.v8 hval, herr⟩
  | v16 v =>
    obtain ⟨hval, herr⟩ := h.var_short (k := 2) v hshort
    exact ⟨congrArg Var.v16 hval, herr⟩
  | v32 v =>
    obtain ⟨hval, herr⟩ := h.var_short (k := 4) v hshort
    exact ⟨congrArg Var.v32 hval, herr⟩
  | v64 v =>
    obtain ⟨hval, herr⟩ := h.var_short (k := 8) v hshort
    exact ⟨congrArg Var.v64 hval, herr⟩
  | bool v =>
    obtain ⟨-, herr⟩ := h.var_short (k := 1) 0 hshort
    rw [transfer_bool h.saving, herr, if_pos rfl]
    exact ⟨rfl, rfl⟩
  | bool32 v =>
    obtain ⟨-, herr⟩ := h.var_short (k := 4) 0 hshort
    rw [transfer_bool32 h.saving, herr, if_pos rfl]
    exact ⟨rfl, rfl⟩

/-- What a run of reads returns is a function of the rest of the section. -/
theorem transferAll (h : Reading s rest) (vs : List Var) :
    (s.transferAll realloc vs).1 = (readVars vs rest).1 ∧
      After (s.transferAll realloc vs).2 (readVars vs rest).2 := by
  induction vs generalizing s rest with
  | nil => exact ⟨rfl, h⟩
  | cons v vs ih =>
    rw [readVars, readVar]
    by_cases hroom : v.kind.size ≤ rest.length
    · have hstep : (s.transfer realloc v).1 = _ ∧ _ := h.transfer_room hroom
      obtain ⟨hvals, hafter⟩ := ih hstep.2
      rw [if_pos hroom]
      exact ⟨congrArg₂ List.cons hstep.1 hvals, hafter⟩
    · obtain ⟨hval, herr⟩ : (s.transfer realloc v).1 = v ∧ _ :=
        h.transfer_short (Nat.not_le.mp hroom)
      have hrest : (s.transfer realloc v).2.transferAll realloc vs = _ :=
        transferAll_of_error herr vs
      rw [if_neg hroom]
      refine ⟨congrArg₂ List.cons hval (congrArg Prod.fst hrest), ?_⟩
      exact (congrArg (fun r => r.2.error) hrest).trans herr

end Reading

/-! Reading leaves the buffer as it is -/

theorem varArray_buffer (h : s.saving = false) (data : List U8) :
    (s.varArray realloc data).2.buffer = s.buffer ∧
      (s.varArray realloc data).2.saving = false := by
  rw [varArray, h, if_neg Bool.false_ne_true]
  split
  · exact ⟨rfl, h⟩
  · split
    · exact ⟨rfl, rfl⟩
    · split
      · exact ⟨rfl, rfl⟩
      · exact ⟨rfl, rfl⟩

theorem transfer_buffer (h : s.saving = false) (v : Var) :
    (s.transfer realloc v).2.buffer = s.buffer ∧ (s.transfer realloc v).2.saving = false := by
  cases v with
  | array | v8 | v16 | v32 | v64 => exact varArray_buffer h _
  | bool v =>
    rw [Reading.transfer_bool h]
    exact varArray_buffer h _
  | bool32 v =>
    rw [Reading.transfer_bool32 h]
    exact varArray_buffer h _

theorem transferAll_buffer (h : s.saving = false) (vs : List Var) :
    (s.transferAll realloc vs).2.buffer = s.buffer := by
  induction vs generalizing s with
  | nil => rfl
  | cons v vs ih =>
    obtain ⟨hbuffer, hsaving⟩ : (s.transfer realloc v).2.buffer = _ ∧ _ := transfer_buffer h v
    exact (ih hsaving).trans hbuffer

/-! Entering a section -/

/-- A stream open for reading. -/
structure IsReader (s : Savestate) : Prop where
  error : s.error = false
  saving : s.saving = false
  finished : s.finished = false

theorem IsReader.enterSection_eq (h : IsReader s) (magic : U32) : s.enterSection realloc magic =
    if findSection s.buffer magic ≠ noSection then
      { s with
        bufferOffset := findSection s.buffer magic
        sectionEnd := findSection s.buffer magic - 16 +
          s.buffer.load32 (findSection s.buffer magic - 12) }
    else { s with error := true } := by
  rw [enterSection, h.error, h.finished, h.saving, if_neg (by decide), if_neg (by decide)]

theorem IsReader.enter (h : IsReader s) (hsec : IsSection s.buffer o)
    (hfind : findSection s.buffer magic = o + 16) (hne : o + 16 ≠ noSection) :
    Reading (s.enterSection realloc magic) (payloadAt s.buffer o) := by
  obtain ⟨hmin, hle⟩ := hsec.2
  have hfits := s.buffer.fits
  have hlen : o + 16 - 12 = o + 4 := by
    bv_omega
  have hoff : (o + 16).toNat = o.toNat + 16 := by
    rw [BitVec.toNat_add]
    change (o.toNat + 16) % _ = _
    omega
  have hend : (o + 16 - 16 + s.buffer.load32 (o + 4)).toNat = o.toNat + lengthAt s.buffer o := by
    rw [BitVec.add_sub_cancel]
    exact hsec.2.toNat_next
  have hsub : o.toNat + lengthAt s.buffer o - (o.toNat + 16) = lengthAt s.buffer o - 16 := by
    omega
  rw [h.enterSection_eq, hfind, if_pos hne, hlen]
  refine ⟨h.error, h.saving, h.finished, ?_, ?_, ?_⟩
  · change (o + 16).toNat ≤ (o + 16 - 16 + s.buffer.load32 (o + 4)).toNat
    omega
  · change (o + 16 - 16 + s.buffer.load32 (o + 4)).toNat ≤ _
    rw [hend]
    exact hle
  · change slice s.buffer.bytes (o + 16).toNat
      ((o + 16 - 16 + s.buffer.load32 (o + 4)).toNat - (o + 16).toNat) = _
    rw [hend, hoff, payloadAt, hsub]

/-- What a section reads: nothing, with the error flag set, or what one section of the buffer
holds, as far as it reaches. -/
theorem IsReader.doSection_isolated (h : IsReader s) (c : Section) :
    (s.doSection realloc c = (c.vars, { s with error := true })) ∨
      ∃ o, IsSection s.buffer o ∧ s.buffer.load32 o = c.magic ∧
        (s.doSection realloc c).1 = (readVars c.vars (payloadAt s.buffer o)).1 ∧
        After (s.doSection realloc c).2 (readVars c.vars (payloadAt s.buffer o)).2 := by
  by_cases hfind : findSection s.buffer c.magic = noSection
  · left
    have henter : s.enterSection realloc c.magic = { s with error := true } := by
      rw [h.enterSection_eq, if_neg (not_not.mpr hfind)]
    rw [doSection, henter]
    exact transferAll_of_error rfl c.vars
  · right
    obtain ⟨o, hsec, hmagic, heq⟩ := findFrom_sound ReflTransGen.refl hfind
    have hreading : Reading (s.enterSection realloc c.magic) _ := h.enter hsec heq (heq ▸ hfind)
    exact ⟨o, hsec, hmagic, hreading.transferAll c.vars⟩

end MelonDS.Savestate
