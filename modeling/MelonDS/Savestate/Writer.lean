import MelonDS.Savestate.Transfer

/-!
# Writing a savestate

`encodeState` is the file a layout of sections stands for. A finished state that met
no error holds exactly that file: the bytes written so far only grow, the length of a
section is patched when the section ends and the length of the state at the end.
-/

namespace MelonDS.Savestate

def sectionBytes (magic : U32) (length : ℕ) (payload : List U8) : List U8 :=
  toBytes 4 magic.toNat ++ (toBytes 4 length ++ (toBytes 4 0 ++ (toBytes 4 0 ++ payload)))

def headerBytes (length : ℕ) : List U8 :=
  toBytes 4 savestateMagic.toNat ++ (toBytes 2 savestateMajor.toNat ++
    (toBytes 2 savestateMinor.toNat ++ (toBytes 4 length ++ toBytes 4 0)))

namespace Section

def payload (c : Section) : List U8 := c.vars.flatMap Var.bytes

def encode (c : Section) : List U8 := sectionBytes c.magic (16 + c.payload.length) c.payload

end Section

def encodeBody (layout : List Section) : List U8 := layout.flatMap Section.encode

def encodeState (layout : List Section) : List U8 :=
  headerBytes (16 + (encodeBody layout).length) ++ encodeBody layout

@[simp] theorem length_sectionBytes (magic : U32) (length : ℕ) (payload : List U8) :
    (sectionBytes magic length payload).length = 16 + payload.length := by
  simp only [sectionBytes, List.length_append, length_toBytes]
  omega

@[simp] theorem length_headerBytes (length : ℕ) : (headerBytes length).length = 16 := by
  simp only [headerBytes, List.length_append, length_toBytes]

@[simp] theorem Section.length_encode (c : Section) : c.encode.length = 16 + c.payload.length :=
  length_sectionBytes _ _ _

@[simp] theorem length_encodeState (layout : List Section) :
    (encodeState layout).length = 16 + (encodeBody layout).length := by
  rw [encodeState, List.length_append, length_headerBytes]

@[simp] theorem sectionBytes_append (magic : U32) (length : ℕ) (payload more : List U8) :
    sectionBytes magic length payload ++ more = sectionBytes magic length (payload ++ more) := by
  simp only [sectionBytes, List.append_assoc]

/-! Growing the buffer -/

theorem bytes_resize {b : Buffer} {n : U32} (h : b.bytes.length ≤ n.toNat) :
    (b.resize n).bytes = b.bytes ++ List.replicate (n.toNat - b.bytes.length) 0 := by
  apply List.take_of_length_le
  rw [List.length_append, List.length_replicate]
  omega

variable {realloc : U32 → Bool}

theorem reserve_some {s t : Savestate} {len : ℕ} (h : s.reserve realloc len = some t)
    (hoff : s.bufferOffset.toNat ≤ s.buffer.bytes.length)
    (hlen : s.bufferOffset.toNat + len < 2 ^ 32) :
    ∃ b : Buffer, t = { s with buffer := b } ∧ s.bufferOffset.toNat + len ≤ b.bytes.length ∧
      ∀ n ≤ s.bufferOffset.toNat, b.bytes.take n = s.buffer.bytes.take n := by
  have hfits := s.buffer.fits
  have hsub : (s.buffer.length - s.bufferOffset).toNat =
      s.buffer.bytes.length - s.bufferOffset.toNat := by
    rw [BitVec.toNat_sub_of_le (by rw [BitVec.le_def, Buffer.toNat_length]; exact hoff),
      Buffer.toNat_length]
  rw [reserve, hsub] at h
  split at h
  · rw [resize, Buffer.toNat_length] at h
    split at h
    · cases h
      have hnew : (BitVec.ofNat 32 (min (s.buffer.bytes.length * 2 + len) (2 ^ 32 - 1))).toNat =
          min (s.buffer.bytes.length * 2 + len) (2 ^ 32 - 1) := by
        rw [BitVec.toNat_ofNat]
        omega
      have hbytes := bytes_resize (b := s.buffer) (n := BitVec.ofNat 32
        (min (s.buffer.bytes.length * 2 + len) (2 ^ 32 - 1))) (by rw [hnew]; omega)
      refine ⟨_, rfl, ?_, fun n hn => ?_⟩
      · rw [hbytes, List.length_append, List.length_replicate, hnew]
        omega
      · rw [hbytes, List.take_append_of_le_length (by omega)]
    · cases h
  · cases h
    exact ⟨s.buffer, rfl, by omega, fun _ _ => rfl⟩

theorem reserve_isSome {s : Savestate} (howned : s.bufferOwned = true)
    (hrealloc : ∀ n, realloc n = true) (len : ℕ) : (s.reserve realloc len).isSome := by
  rw [reserve]
  split
  · rw [resize, howned, hrealloc]
    rfl
  · rfl

/-! The content written so far, and the section that is open -/

structure Writing (s : Savestate) (cur : U32) (content : List U8) : Prop where
  error : s.error = false
  saving : s.saving = true
  finished : s.finished = false
  curSection : s.curSection = cur
  offset : s.bufferOffset.toNat = content.length
  content : s.buffer.bytes.take content.length = content

namespace Writing

variable {s : Savestate} {cur : U32} {content data : List U8}

theorem length_le (h : Writing s cur content) : content.length ≤ s.buffer.bytes.length := by
  have hlen := congrArg List.length h.content
  rw [List.length_take] at hlen
  omega

theorem varArray (h : Writing s cur content) (hok : (s.varArray realloc data).2.error = false) :
    Writing (s.varArray realloc data).2 cur (content ++ data) := by
  have hle := h.length_le
  have hoff := h.offset
  have hfits := s.buffer.fits
  cases hdata : data with
  | nil =>
    have hnil : s.varArray realloc [] = ([], s) := by
      rw [Savestate.varArray, List.isEmpty_nil, Bool.or_true, if_pos rfl]
    rw [hnil, List.append_nil]
    exact h
  | cons a as =>
    rw [← hdata]
    have hne : data.isEmpty = false := by rw [hdata]; rfl
    rw [Savestate.varArray, h.error, h.finished, hne] at hok ⊢
    rw [if_neg (by decide)] at hok ⊢
    split at hok
    · cases hok
    · next hin =>
      rw [if_neg hin]
      rw [if_pos h.saving] at hok ⊢
      have hroom : s.bufferOffset.toNat + data.length < 2 ^ 32 := by
        have hsub : ((0xFFFFFFFF : U32) - s.bufferOffset).toNat = 2 ^ 32 - 1 - s.bufferOffset.toNat := by
          bv_omega
        rw [hsub] at hin
        omega
      cases hres : s.reserve realloc data.length with
      | none =>
        rw [hres] at hok
        cases hok
      | some t =>
        obtain ⟨b, rfl, hb, hkeep⟩ := reserve_some hres (by omega) hroom
        have hend : (s.bufferOffset + BitVec.ofNat 32 data.length).toNat =
            (content ++ data).length := by
          rw [List.length_append, BitVec.toNat_add, BitVec.toNat_ofNat]
          omega
        refine ⟨h.error, h.saving, h.finished, h.curSection, hend, ?_⟩
        change (overwrite b.bytes s.bufferOffset.toNat data).take (content ++ data).length = _
        rw [List.length_append, ← hoff, take_overwrite_end hb, hkeep _ (le_refl _), hoff, h.content]

theorem varArray_ok (h : Writing s cur content) (howned : s.bufferOwned = true)
    (hrealloc : ∀ n, realloc n = true) (data : List U8) (hlen : content.length + data.length < 2 ^ 32) :
    (s.varArray realloc data).2.error = false := by
  have hle := h.length_le
  have hoff := h.offset
  have hfits := s.buffer.fits
  rw [Savestate.varArray]
  split
  · exact h.error
  · have hin : ¬(s.buffer.length < s.bufferOffset ∨
        ((0xFFFFFFFF : U32) - s.bufferOffset).toNat < data.length) := by
      have hsub : ((0xFFFFFFFF : U32) - s.bufferOffset).toNat =
          2 ^ 32 - 1 - s.bufferOffset.toNat := by
        bv_omega
      rw [hsub, BitVec.lt_def, Buffer.toNat_length]
      omega
    rw [if_neg hin, if_pos h.saving]
    obtain ⟨t, ht⟩ := Option.isSome_iff_exists.mp
      (reserve_isSome howned hrealloc data.length)
    obtain ⟨b, rfl, -, -⟩ := reserve_some ht (by omega) (by omega)
    rw [ht]
    exact h.error

end Writing

/-- Calls to `VarArray` in a row. -/
def writeCalls (realloc : U32 → Bool) (calls : List (List U8)) (s : Savestate) : Savestate :=
  calls.foldl (fun s data => (s.varArray realloc data).2) s

theorem var_snd (s : Savestate) (k : ℕ) (v : BitVec (8 * k)) :
    (s.var realloc k v).2 = (s.varArray realloc (toBytes k v.toNat)).2 := rfl

theorem error_of_writeCalls {s : Savestate} {calls : List (List U8)}
    (h : (s.writeCalls realloc calls).error = false) : s.error = false := by
  induction calls generalizing s with
  | nil => exact h
  | cons data calls ih => exact error_of_varArray (ih h)

theorem Writing.writeCalls {s : Savestate} {cur : U32} {content : List U8}
    (h : Writing s cur content) (calls : List (List U8))
    (hok : (s.writeCalls realloc calls).error = false) :
    Writing (s.writeCalls realloc calls) cur (content ++ calls.flatten) := by
  induction calls generalizing s content with
  | nil =>
    rw [List.flatten_nil, List.append_nil]
    exact h
  | cons data calls ih =>
    rw [List.flatten_cons, ← List.append_assoc]
    exact ih (h.varArray (error_of_writeCalls hok)) hok

/-! A variable is written as its bytes -/

theorem varArray_keeps (realloc : U32 → Bool) (s : Savestate) (data : List U8) :
    (s.varArray realloc data).2.saving = s.saving ∧
      (s.varArray realloc data).2.bufferOwned = s.bufferOwned := by
  rw [varArray]
  split
  · exact ⟨rfl, rfl⟩
  · split
    · exact ⟨rfl, rfl⟩
    · split
      · cases hres : s.reserve realloc data.length with
        | none => exact ⟨rfl, rfl⟩
        | some t =>
          rw [reserve, resize] at hres
          split at hres
          · split at hres
            · cases hres
              exact ⟨rfl, rfl⟩
            · cases hres
          · cases hres
            exact ⟨rfl, rfl⟩
      · split
        · exact ⟨rfl, rfl⟩
        · exact ⟨rfl, rfl⟩

theorem transfer_saving {s : Savestate} (h : s.saving = true) (v : Var) :
    (s.transfer realloc v).2 = (s.varArray realloc v.bytes).2 := by
  cases v with
  | array | v8 | v16 | v32 | v64 => rfl
  | bool v =>
    rw [transfer, varBool, if_pos h]
    cases v <;> rfl
  | bool32 v =>
    rw [transfer, bool32, if_pos h]
    cases v <;> rfl

/-- A variable that is written stays as it is. -/
theorem varArray_saving_fst {s : Savestate} (h : s.saving = true) (data : List U8) :
    (s.varArray realloc data).1 = data := by
  rw [varArray]
  split
  · rfl
  · split
    · rfl
    · cases s.reserve realloc data.length with
      | none => rfl
      | some t => rfl

theorem transfer_saving_fst {s : Savestate} (h : s.saving = true) (v : Var) :
    (s.transfer realloc v).1 = v := by
  have hvar : ∀ (k : ℕ) (v : BitVec (8 * k)), (s.var realloc k v).1 = v := by
    intro k v
    have hdata : (s.varArray realloc (toBytes k v.toNat)).1 = toBytes k v.toNat :=
      varArray_saving_fst h _
    change BitVec.ofNat (8 * k) (ofBytes (s.varArray realloc (toBytes k v.toNat)).1) = v
    rw [hdata]
    exact ofNat_ofBytes_toBytes rfl v
  cases v with
  | array data => exact congrArg Var.array (varArray_saving_fst h data)
  | v8 v => exact congrArg Var.v8 (hvar 1 v)
  | v16 v => exact congrArg Var.v16 (hvar 2 v)
  | v32 v => exact congrArg Var.v32 (hvar 4 v)
  | v64 v => exact congrArg Var.v64 (hvar 8 v)
  | bool v =>
    rw [transfer, varBool, if_pos h]
    rfl
  | bool32 v =>
    rw [transfer, bool32, if_pos h]
    rfl

theorem transferAll_saving_fst {s : Savestate} (h : s.saving = true) (vs : List Var) :
    (s.transferAll realloc vs).1 = vs := by
  induction vs generalizing s with
  | nil => rfl
  | cons v vs ih =>
    have hsaving : (s.transfer realloc v).2.saving = true := by
      rw [transfer_saving h]
      exact (varArray_keeps realloc s v.bytes).1.trans h
    exact congrArg₂ List.cons (transfer_saving_fst h v) (ih hsaving)

theorem transferAll_saving {s : Savestate} (h : s.saving = true) (vs : List Var) :
    (s.transferAll realloc vs).2 = s.writeCalls realloc (vs.map Var.bytes) := by
  induction vs generalizing s with
  | nil => rfl
  | cons v vs ih =>
    have hsaving := (varArray_keeps realloc s v.bytes).1.trans h
    rw [List.map_cons, writeCalls, List.foldl_cons, ← transfer_saving h] at *
    exact ih hsaving

theorem Writing.transferAll {s : Savestate} {cur : U32} {content : List U8}
    (h : Writing s cur content) {vs : List Var}
    (hok : (s.transferAll realloc vs).2.error = false) :
    Writing (s.transferAll realloc vs).2 cur (content ++ vs.flatMap Var.bytes) := by
  rw [transferAll_saving h.saving] at hok ⊢
  rw [List.flatMap_def]
  exact h.writeCalls _ hok

/-! Sections -/

/-- The content once the open section, if any, is closed. -/
def Closes (s : Savestate) (content : List U8) : Prop :=
  Writing s.closeCurrentSection noSection content

namespace Writing

variable {s : Savestate} {cur : U32} {content : List U8}

theorem closes (h : Writing s noSection content) : Closes s content := by
  have hclose : s.closeCurrentSection = s := by
    rw [closeCurrentSection, if_neg]
    exact fun hc => hc.1 h.curSection
  rw [Closes, hclose]
  exact h

theorem closes_section {magic : U32} {payload : List U8}
    (h : Writing s cur (content ++ sectionBytes magic 0 payload))
    (hcur : cur.toNat = content.length) :
    Closes s (content ++ sectionBytes magic (16 + payload.length) payload) := by
  have hle := h.length_le
  have hfits := s.buffer.fits
  have hoff := h.offset
  rw [List.length_append, length_sectionBytes] at hle hoff
  have hopen : cur ≠ noSection := by
    intro hc
    rw [hc, show noSection.toNat = 4294967295 from rfl] at hcur
    omega
  have hpos : (cur + 4).toNat = content.length + 4 := by
    bv_omega
  have hlen : (s.bufferOffset - cur).toNat = 16 + payload.length := by
    bv_omega
  have hclose : s.closeCurrentSection = { s with
      buffer := s.buffer.store (cur + 4) (toBytes 4 (16 + payload.length))
      curSection := noSection } := by
    rw [closeCurrentSection, if_pos ⟨by rw [h.curSection]; exact hopen, by simp [h.finished]⟩,
      h.curSection, hlen]
  have hpatch : overwrite (content ++ sectionBytes magic 0 payload) (content.length + 4)
      (toBytes 4 (16 + payload.length)) =
      content ++ sectionBytes magic (16 + payload.length) payload := by
    have hfront : (content ++ toBytes 4 magic.toNat).length = content.length + 4 := by
      rw [List.length_append, length_toBytes]
    rw [sectionBytes, sectionBytes, ← List.append_assoc, overwrite_append hfront.symm
      (by rw [length_toBytes, length_toBytes]), List.append_assoc]
  rw [Closes, hclose]
  refine ⟨h.error, h.saving, h.finished, rfl, ?_, ?_⟩
  · rw [hoff, List.length_append, length_sectionBytes]
  · have hsame : (content ++ sectionBytes magic (16 + payload.length) payload).length =
        (content ++ sectionBytes magic 0 payload).length := by
      rw [List.length_append, List.length_append, length_sectionBytes, length_sectionBytes]
    change (overwrite s.buffer.bytes (cur + 4).toNat _).take _ = _
    rw [hsame, hpos, take_overwrite _ h.length_le, h.content, hpatch]
    rw [length_toBytes, List.length_append, length_sectionBytes]
    omega

end Writing

theorem closeCurrentSection_keeps (s : Savestate) :
    s.closeCurrentSection.error = s.error ∧ s.closeCurrentSection.saving = s.saving ∧
      s.closeCurrentSection.finished = s.finished ∧
      s.closeCurrentSection.bufferOwned = s.bufferOwned := by
  rw [closeCurrentSection]
  split
  · exact ⟨rfl, rfl, rfl, rfl⟩
  · exact ⟨rfl, rfl, rfl, rfl⟩

def sectionCalls (magic : U32) : List (List U8) :=
  [toBytes 4 magic.toNat, toBytes 4 (0 : U32).toNat, toBytes 4 (0 : U32).toNat,
    toBytes 4 (0 : U32).toNat]

namespace Closes

variable {s : Savestate} {content : List U8}

theorem enterSection_eq (h : Closes s content) (magic : U32) :
    s.enterSection realloc magic =
      { s.closeCurrentSection with curSection := s.closeCurrentSection.bufferOffset }.writeCalls
        realloc (sectionCalls magic) := by
  obtain ⟨herror, hsaving, hfinished, -⟩ := closeCurrentSection_keeps s
  rw [enterSection, ← herror, ← hsaving, ← hfinished, h.error, h.saving, h.finished]
  simp only [Bool.or_self, Bool.false_eq_true, if_false, if_true, var32, var_snd, sectionCalls,
    writeCalls, List.foldl_cons, List.foldl_nil]

theorem enterSection (h : Closes s content) {magic : U32}
    (hok : (s.enterSection realloc magic).error = false) :
    Writing (s.enterSection realloc magic) (BitVec.ofNat 32 content.length)
      (content ++ sectionBytes magic 0 []) := by
  rw [h.enterSection_eq] at hok ⊢
  have hcur : s.closeCurrentSection.bufferOffset = BitVec.ofNat 32 content.length := by
    rw [← h.offset, BitVec.ofNat_toNat, BitVec.setWidth_eq]
  have h0 : Writing { s.closeCurrentSection with curSection := s.closeCurrentSection.bufferOffset }
      (BitVec.ofNat 32 content.length) content :=
    ⟨h.error, h.saving, h.finished, hcur, h.offset, h.content⟩
  exact h0.writeCalls _ hok

theorem doSection (h : Closes s content) {c : Section}
    (hok : (s.doSection realloc c).2.error = false) :
    Closes (s.doSection realloc c).2 (content ++ c.encode) := by
  have henter := h.enterSection (error_of_transferAll hok)
  have hall := henter.transferAll hok
  rw [List.append_assoc, sectionBytes_append, List.nil_append] at hall
  have hcur : (BitVec.ofNat 32 content.length).toNat = content.length := by
    have hle := h.length_le
    have hfits := s.closeCurrentSection.buffer.fits
    rw [BitVec.toNat_ofNat]
    omega
  exact hall.closes_section hcur

theorem doSections (h : Closes s content) {layout : List Section}
    (hok : (s.doSections realloc layout).2.error = false) :
    Closes (s.doSections realloc layout).2 (content ++ encodeBody layout) := by
  induction layout generalizing s content with
  | nil =>
    rw [encodeBody, List.flatMap_nil, List.append_nil]
    exact h
  | cons c layout ih =>
    have hc : (s.doSection realloc c).2.error = false := error_of_doSections hok
    rw [encodeBody, List.flatMap_cons, ← List.append_assoc]
    exact ih (h.doSection hc) hok

end Closes

/-! The header and the finished state -/

theorem error_of_finish {s : Savestate} (h : s.finish.error = false) : s.error = false := by
  cases hs : s.error with
  | false => rfl
  | true =>
    rw [finish, hs, Bool.true_or, if_pos rfl, hs] at h
    exact h

def headerCalls : List (List U8) :=
  [toBytes 4 savestateMagic.toNat, toBytes 2 savestateMajor.toNat,
    toBytes 2 savestateMinor.toNat, toBytes 4 (0 : U32).toNat, toBytes 4 (0 : U32).toNat]

theorem writeSavestateHeader_eq (s : Savestate) : s.writeSavestateHeader realloc =
    { s.writeCalls realloc headerCalls with
      headerValid := !(s.writeCalls realloc headerCalls).error } := by
  simp only [writeSavestateHeader, var16, var32, var_snd, headerCalls, writeCalls, List.foldl_cons,
    List.foldl_nil]

theorem writeSavestateHeader_keeps (s : Savestate) :
    (s.writeSavestateHeader realloc).error = (s.writeCalls realloc headerCalls).error ∧
      (s.writeSavestateHeader realloc).bufferOwned =
        (s.writeCalls realloc headerCalls).bufferOwned := by
  rw [writeSavestateHeader_eq]
  exact ⟨rfl, rfl⟩

theorem Writing.writeSavestateHeader {s : Savestate} (h : Writing s noSection [])
    (hok : (s.writeSavestateHeader realloc).error = false) :
    Writing (s.writeSavestateHeader realloc) noSection (headerBytes 0) := by
  rw [writeSavestateHeader_eq] at hok ⊢
  have hcalls := h.writeCalls headerCalls hok
  exact ⟨hcalls.error, hcalls.saving, hcalls.finished, hcalls.curSection, hcalls.offset,
    hcalls.content⟩

/-- A stream that one of the constructors made for writing. -/
def IsWriter (realloc : U32 → Bool) (s : Savestate) : Prop :=
  ∃ b, s = ofBuffer realloc b true ∨ s = ofSize realloc b

theorem writing_initial (b : Buffer) (owned : Bool) :
    Writing (initial b true owned) noSection [] := ⟨rfl, rfl, rfl, rfl, rfl, rfl⟩

theorem IsWriter.writing {s : Savestate} (h : IsWriter realloc s) (hok : s.error = false) :
    Writing s noSection (headerBytes 0) := by
  obtain ⟨b, rfl | rfl⟩ := h
  · rw [ofBuffer] at hok ⊢
    split at hok
    · cases hok
    · next hsize =>
      rw [if_neg hsize]
      exact (writing_initial b false).writeSavestateHeader hok
  · exact (writing_initial b true).writeSavestateHeader hok

/-- The bytes of the state, which is what is kept of the buffer. -/
def state (s : Savestate) : List U8 := s.buffer.bytes.take s.bufferOffset.toNat

theorem headerBytes_patch (m n : ℕ) (body : List U8) :
    overwrite (headerBytes m ++ body) 8 (toBytes 4 n) = headerBytes n ++ body := by
  have hsplit : ∀ k, headerBytes k ++ body =
      (toBytes 4 savestateMagic.toNat ++ (toBytes 2 savestateMajor.toNat ++
        toBytes 2 savestateMinor.toNat)) ++ (toBytes 4 k ++ (toBytes 4 0 ++ body)) := by
    intro k
    simp only [headerBytes, List.append_assoc]
  rw [hsplit m, hsplit n]
  apply overwrite_append
  · rfl
  · rw [length_toBytes, length_toBytes]

/-! A growing buffer holds every state shorter than 4 GiB -/

theorem Writing.writeCalls_ok {s : Savestate} {cur : U32} {content : List U8}
    (h : Writing s cur content) (howned : s.bufferOwned = true) (hrealloc : ∀ n, realloc n = true)
    (calls : List (List U8)) (hlen : content.length + calls.flatten.length < 2 ^ 32) :
    (s.writeCalls realloc calls).error = false ∧
      (s.writeCalls realloc calls).bufferOwned = true := by
  induction calls generalizing s content with
  | nil => exact ⟨h.error, howned⟩
  | cons data calls ih =>
    rw [List.flatten_cons, List.length_append] at hlen
    have hok := h.varArray_ok howned hrealloc data (by omega)
    have hnext := (varArray_keeps realloc s data).2.trans howned
    apply ih (h.varArray hok) hnext
    rw [List.length_append]
    omega

theorem Closes.doSections_ok {s : Savestate} {content : List U8} (h : Closes s content)
    (howned : s.bufferOwned = true) (hrealloc : ∀ n, realloc n = true) (layout : List Section)
    (hlen : content.length + (encodeBody layout).length < 2 ^ 32) :
    (s.doSections realloc layout).2.error = false := by
  induction layout generalizing s content with
  | nil => exact (closeCurrentSection_keeps s).1.symm.trans h.error
  | cons c layout ih =>
    rw [encodeBody, List.flatMap_cons, List.length_append, Section.length_encode] at hlen
    have h0 : Writing
        { s.closeCurrentSection with curSection := s.closeCurrentSection.bufferOffset }
        s.closeCurrentSection.bufferOffset content :=
      ⟨h.error, h.saving, h.finished, rfl, h.offset, h.content⟩
    have hsection := h0.writeCalls_ok
      ((closeCurrentSection_keeps s).2.2.2.trans howned) hrealloc (sectionCalls c.magic) (by
        simp only [sectionCalls, List.flatten_cons, List.flatten_nil, List.length_append,
          length_toBytes, List.length_nil]
        omega)
    rw [← h.enterSection_eq] at hsection
    have henter := h.enterSection hsection.1
    have hvars := henter.writeCalls_ok hsection.2 hrealloc (c.vars.map Var.bytes) (by
      rw [List.length_append, length_sectionBytes, ← List.flatMap_def]
      change _ + c.payload.length < _
      rw [List.length_nil]
      omega)
    rw [← transferAll_saving henter.saving] at hvars
    apply ih (h.doSection hvars.1) hvars.2
    rw [List.length_append, Section.length_encode, encodeBody]
    omega

theorem finish_ok {b : Buffer} (hrealloc : ∀ n, realloc n = true) {layout : List Section}
    (hlen : (encodeState layout).length < 2 ^ 32) :
    ((ofSize realloc b).doSections realloc layout).2.finish.error = false := by
  have hheader := (writing_initial b true).writeCalls_ok rfl hrealloc headerCalls (by
    simp only [headerCalls, List.flatten_cons, List.flatten_nil, List.length_append,
      length_toBytes, List.length_nil]
    omega)
  have hinit : (ofSize realloc b).error = false ∧ (ofSize realloc b).bufferOwned = true := by
    rw [ofSize, (writeSavestateHeader_keeps _).1, (writeSavestateHeader_keeps _).2]
    exact hheader
  have hwriter : IsWriter realloc (ofSize realloc b) := ⟨b, Or.inr rfl⟩
  rw [length_encodeState] at hlen
  have hall := (hwriter.writing hinit.1).closes.doSections_ok hinit.2 hrealloc
    layout (by rw [length_headerBytes]; exact hlen)
  obtain ⟨herror, -, -, -⟩ :=
    closeCurrentSection_keeps ((ofSize realloc b).doSections realloc layout).2
  rw [finish]
  split
  · exact hall
  · split
    · exact herror.trans hall
    · exact hall

theorem Closes.finish {s : Savestate} {body : List U8} (h : Closes s (headerBytes 0 ++ body)) :
    s.finish.state = headerBytes (16 + body.length) ++ body ∧
      s.finish.bufferOffset.toNat = 16 + body.length := by
  obtain ⟨herror, hsaving, hfinished, -⟩ := closeCurrentSection_keeps s
  have hoff := h.offset
  have hle := h.length_le
  rw [List.length_append, length_headerBytes] at hoff hle
  have hfinish : s.finish =
      { s.closeCurrentSection.writeStateLength with finished := true } := by
    rw [Savestate.finish, ← herror, ← hfinished, h.error, h.finished, ← hsaving, h.saving]
    rfl
  rw [hfinish]
  refine ⟨?_, hoff⟩
  change (overwrite s.closeCurrentSection.buffer.bytes 8
    (toBytes 4 s.closeCurrentSection.bufferOffset.toNat)).take
    s.closeCurrentSection.bufferOffset.toNat = _
  have hcontent := h.content
  rw [List.length_append, length_headerBytes] at hcontent
  rw [hoff, take_overwrite _ hle, hcontent, headerBytes_patch]
  rw [length_toBytes]
  omega

/-- A finished state is the file of its layout. -/
theorem state_finish {s : Savestate} (hs : IsWriter realloc s) {layout : List Section}
    (hok : (s.doSections realloc layout).2.finish.error = false) :
    (s.doSections realloc layout).2.finish.state = encodeState layout ∧
      (s.doSections realloc layout).2.finish.bufferOffset.toNat = (encodeState layout).length := by
  have hall := error_of_finish hok
  have h := ((hs.writing (error_of_doSections hall)).closes.doSections hall).finish
  rw [length_encodeState]
  exact h

end MelonDS.Savestate
