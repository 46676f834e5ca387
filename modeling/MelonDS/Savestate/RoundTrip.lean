import MelonDS.Savestate.Reader
import MelonDS.Savestate.Writer

/-!
# Reading back what was written

The file of a layout holds each section where the walk over the lengths finds it.
Reading it back gives every variable as written, in whatever order the sections are
requested, unless the offset behind a section header is `NO_SECTION` itself: the
state is then 4 GiB less a byte long and ends in a section without content.
-/

namespace MelonDS.Savestate

open Relation

variable {realloc : U32 → Bool} {b : Buffer} {s : Savestate}

/-! Where the sections of a file are -/

theorem encodeBody_cons (c : Section) (layout : List Section) :
    encodeBody (c :: layout) = c.encode ++ encodeBody layout := List.flatMap_cons

theorem load32_append {pre rest : List U8} {o v : U32}
    (hbytes : b.bytes = pre ++ (toBytes 4 v.toNat ++ rest)) (ho : o.toNat = pre.length) :
    b.load32 o = v := by
  rw [Buffer.load32, Buffer.load, hbytes, slice_append ho (length_toBytes 4 _).symm,
    ofNat_ofBytes_toBytes (show 32 = 8 * 4 from rfl)]

theorem encode_at {pre rest : List U8} {c : Section} {o : U32}
    (hbytes : b.bytes = pre ++ (c.encode ++ rest)) (ho : o.toNat = pre.length) :
    b.load32 o = c.magic ∧ lengthAt b o = c.encode.length ∧ ValidAt b o ∧
      payloadAt b o = c.payload := by
  have hfits := b.fits
  have htotal := congrArg List.length hbytes
  rw [List.length_append, List.length_append, Section.length_encode] at htotal
  have hmagic : b.load32 o = c.magic := by
    have hsplit : b.bytes = pre ++ (toBytes 4 c.magic.toNat ++ ((toBytes 4 (16 + c.payload.length) ++
        (toBytes 4 0 ++ (toBytes 4 0 ++ c.payload))) ++ rest)) := by
      rw [hbytes, Section.encode, sectionBytes, List.append_assoc]
    exact load32_append hsplit ho
  have hlen : lengthAt b o = c.encode.length := by
    have hval : (BitVec.ofNat 32 (16 + c.payload.length)).toNat = 16 + c.payload.length := by
      rw [BitVec.toNat_ofNat]
      omega
    have hload : b.load32 (o + 4) = BitVec.ofNat 32 (16 + c.payload.length) := by
      have hsplit : b.bytes = (pre ++ toBytes 4 c.magic.toNat) ++
          (toBytes 4 (BitVec.ofNat 32 (16 + c.payload.length)).toNat ++
            (toBytes 4 0 ++ (toBytes 4 0 ++ c.payload) ++ rest)) := by
        rw [hbytes, hval, Section.encode, sectionBytes]
        simp only [List.append_assoc]
      apply load32_append hsplit
      rw [List.length_append, length_toBytes]
      bv_omega
    rw [lengthAt, hload, hval, Section.length_encode]
  have hvalid : ValidAt b o := by
    rw [ValidAt, hlen, Section.length_encode]
    omega
  refine ⟨hmagic, hlen, hvalid, ?_⟩
  have hsplit : b.bytes = (pre ++ (toBytes 4 c.magic.toNat ++ (toBytes 4 (16 + c.payload.length) ++
      (toBytes 4 0 ++ toBytes 4 0)))) ++ (c.payload ++ rest) := by
    rw [hbytes, Section.encode, sectionBytes]
    simp only [List.append_assoc]
  rw [payloadAt, hlen, Section.length_encode, hsplit]
  apply slice_append
  · simp only [List.length_append, length_toBytes]
    omega
  · omega

/-- The search passes the sections in front of the first one with its magic. -/
theorem findFrom_encode {front back : List Section} {c : Section}
    (hfront : ∀ d ∈ front, d.magic ≠ c.magic) {pre rest : List U8} {o : U32}
    (hbytes : b.bytes = pre ++ (encodeBody (front ++ c :: back) ++ rest))
    (ho : o.toNat = pre.length) (hpath : ReflTransGen (Step b) 0x10 o) :
    ∃ p, IsSection b p ∧ findFrom b c.magic o = p + 16 ∧ payloadAt b p = c.payload ∧
      p.toNat = pre.length + (encodeBody front).length := by
  induction front generalizing pre o with
  | nil =>
    have hhere : b.bytes = pre ++ (c.encode ++ (encodeBody back ++ rest)) := by
      rw [hbytes, List.nil_append, encodeBody_cons, List.append_assoc]
    obtain ⟨hmagic, -, hvalid, hpayload⟩ := encode_at hhere ho
    refine ⟨o, ⟨hpath, hvalid⟩, ?_, hpayload, ho⟩
    rw [findFrom_eq, if_pos hvalid, if_pos hmagic]
  | cons d front ih =>
    have hhere : b.bytes = pre ++ (d.encode ++ (encodeBody (front ++ c :: back) ++ rest)) := by
      rw [hbytes, List.cons_append, encodeBody_cons, List.append_assoc]
    obtain ⟨hmagic, hlen, hvalid, -⟩ := encode_at hhere ho
    have hnext : (o + b.load32 (o + 4)).toNat = (pre ++ d.encode).length := by
      rw [hvalid.toNat_next, hlen, ho, List.length_append]
    rw [← List.append_assoc] at hhere
    obtain ⟨p, hsec, hfind, hpayload, hp⟩ :=
      ih (fun e he => hfront e (List.mem_cons_of_mem d he)) hhere hnext (hpath.tail ⟨hvalid, rfl⟩)
    refine ⟨p, hsec, ?_, hpayload, ?_⟩
    · rw [findFrom_eq, if_pos hvalid, if_neg, hfind]
      rw [hmagic]
      exact hfront d List.mem_cons_self
    · rw [hp, encodeBody_cons, List.length_append, List.length_append]
      exact Nat.add_assoc _ _ _

theorem findSection_encode {layout : List Section} {rest : List U8}
    (hbytes : b.bytes = encodeState layout ++ rest) (hmagics : (layout.map Section.magic).Nodup)
    {front back : List Section} {c : Section} (hlayout : layout = front ++ c :: back) :
    ∃ p, IsSection b p ∧ findSection b c.magic = p + 16 ∧ payloadAt b p = c.payload ∧
      p.toNat = 16 + (encodeBody front).length := by
  have hfront : ∀ d ∈ front, d.magic ≠ c.magic := by
    rw [hlayout, List.map_append, List.map_cons, List.nodup_append] at hmagics
    intro d hd
    exact hmagics.2.2 _ (List.mem_map_of_mem hd) _ List.mem_cons_self
  have hsplit : b.bytes = headerBytes (16 + (encodeBody layout).length) ++
      (encodeBody (front ++ c :: back) ++ rest) := by
    rw [hbytes, encodeState, List.append_assoc, hlayout]
  have hfound := findFrom_encode (o := 0x10) hfront hsplit (length_headerBytes _).symm
    ReflTransGen.refl
  rw [length_headerBytes] at hfound
  exact hfound

/-! Opening the file -/

/-- `Buffer()` and `Length()` of a finished state. -/
def kept (s : Savestate) : Buffer where
  bytes := s.state
  fits := lt_of_le_of_lt (List.length_take_le' _ _) s.buffer.fits

theorem kept_bytes (s : Savestate) : s.kept.bytes = s.state := rfl

theorem ofBuffer_encode (realloc : U32 → Bool) {layout : List Section}
    (hbytes : b.bytes = encodeState layout) :
    IsReader (ofBuffer realloc b false) ∧ (ofBuffer realloc b false).buffer = b := by
  have hfits := b.fits
  have hsize : b.bytes.length = 16 + (encodeBody layout).length := by
    rw [hbytes, length_encodeState]
  have hlength : b.length.toNat = 16 + (encodeBody layout).length := by
    rw [Buffer.toNat_length, hsize]
  have h0 : Reading (initial b false false) (toBytes 4 savestateMagic.toNat ++
      (toBytes 2 savestateMajor.toNat ++ (toBytes 2 savestateMinor.toNat ++
        (toBytes 4 b.length.toNat ++ (toBytes 4 0 ++ encodeBody layout))))) := by
    refine ⟨rfl, rfl, rfl, Nat.zero_le _, (Buffer.toNat_length b).le, ?_⟩
    have hall : slice b.bytes 0 b.length.toNat = b.bytes := by
      rw [slice, List.drop_zero, Buffer.toNat_length, List.take_length]
    change slice b.bytes 0 b.length.toNat = _
    rw [hall, hbytes, encodeState, headerBytes, hlength]
    simp only [List.append_assoc]
  obtain ⟨hmagic, h1⟩ := h0.var_field realloc (by omega) 0
  obtain ⟨hmajor, h2⟩ := h1.var_field realloc (by omega) 0
  obtain ⟨hminor, h3⟩ := h2.var_field realloc (by omega) 0
  obtain ⟨hlen, h4⟩ := h3.var_field realloc (by omega) 0
  have hshort : ¬b.length < 16 := by
    rw [BitVec.lt_def, hlength]
    exact Nat.not_lt.mpr (Nat.le_add_right _ _)
  have hversion :
      ¬(if savestateMajor = 13 then 0 else savestateMaxMinor) < savestateMinor := by decide
  have hsame : ¬b.length ≠ (initial b false false).buffer.length := not_not.mpr rfl
  have hopen : ofBuffer realloc b false = { initial b false false with
      bufferOffset := 0 + 4 + 2 + 2 + 4 + 4
      headerValid := true } := by
    rw [ofBuffer, if_neg hshort, if_neg Bool.false_ne_true, readSavestateHeader, var32, hmagic]
    dsimp only
    rw [if_neg (not_not.mpr rfl), var16, hmajor]
    dsimp only
    rw [if_neg (by decide), var16, hminor]
    dsimp only
    rw [if_neg hversion, var32, hlen]
    dsimp only
    rw [if_neg hsame]
    rfl
  rw [hopen]
  exact ⟨⟨rfl, rfl, rfl⟩, rfl⟩

/-! Reading sections back -/

/-- Requests for sections of a layout, and the first variables of each as written. -/
def Answers (layout : List Section) : List Section → List (List Var) → Prop :=
  List.Forall₂ fun q vs => (∃ more, ⟨q.magic, vs ++ more⟩ ∈ layout) ∧
    q.vars.map Var.kind = vs.map Var.kind

def RoundTrips (realloc : U32 → Bool) (layout : List Section) (b : Buffer) : Prop :=
  ∀ requests answers, Answers layout requests answers →
    ((ofBuffer realloc b false).doSections realloc requests).1 = answers ∧
      ((ofBuffer realloc b false).doSections realloc requests).2.error = false

/-- The last section header ends at the offset that stands for no section. -/
def EndsAtNoSection (layout : List Section) : Prop :=
  (encodeState layout).length = 2 ^ 32 - 1 ∧
    ∃ front c, layout = front ++ [c] ∧ c.payload = []

theorem encodeBody_append (front back : List Section) :
    encodeBody (front ++ back) = encodeBody front ++ encodeBody back := List.flatMap_append

/-- The offset behind the header of a section is `NO_SECTION` only at the very end. -/
theorem noSection_iff {layout front back : List Section} {c : Section} {p : U32}
    (hfits : (encodeState layout).length < 2 ^ 32) (hlayout : layout = front ++ c :: back)
    (hp : p.toNat = 16 + (encodeBody front).length) :
    p + 16 = noSection ↔ (encodeState layout).length = 2 ^ 32 - 1 ∧ back = [] ∧ c.payload = [] := by
  have hlen : (encodeState layout).length =
      16 + (encodeBody front).length + 16 + c.payload.length + (encodeBody back).length := by
    rw [length_encodeState, hlayout, encodeBody_append, encodeBody_cons, List.length_append,
      List.length_append, Section.length_encode]
    omega
  have hback : (encodeBody back).length = 0 ↔ back = [] := by
    cases back with
    | nil => exact ⟨fun _ => rfl, fun _ => rfl⟩
    | cons d back =>
      rw [encodeBody_cons, List.length_append, Section.length_encode]
      exact ⟨fun h => absurd h (by omega), fun h => absurd h (List.cons_ne_nil _ _)⟩
  have hsum : (p + 16).toNat = p.toNat + 16 := by
    rw [BitVec.toNat_add]
    change (p.toNat + 16) % _ = _
    omega
  have hiff : p + 16 = noSection ↔ p.toNat + 16 = 2 ^ 32 - 1 := by
    rw [← BitVec.toNat_inj, hsum]
    rfl
  rw [hiff, ← hback, ← List.length_eq_zero_iff, hlen]
  omega

theorem doSection_encode {layout : List Section} (h : IsReader s)
    (hbytes : s.buffer.bytes = encodeState layout)
    (hmagics : (layout.map Section.magic).Nodup) (hend : ¬EndsAtNoSection layout) {q : Section}
    {vs more : List Var} (hq : ⟨q.magic, vs ++ more⟩ ∈ layout)
    (hkinds : q.vars.map Var.kind = vs.map Var.kind) :
    (s.doSection realloc q).1 = vs ∧ IsReader (s.doSection realloc q).2 ∧
      (s.doSection realloc q).2.buffer = s.buffer := by
  obtain ⟨front, back, hlayout⟩ := List.append_of_mem hq
  obtain ⟨p, hsec, hfind, hpayload, hp⟩ :=
    findSection_encode (hbytes.trans (List.append_nil _).symm) hmagics hlayout
  have hne : p + 16 ≠ noSection := by
    intro heq
    have hfits := s.buffer.fits
    rw [hbytes] at hfits
    obtain ⟨hlen, rfl, hempty⟩ := (noSection_iff hfits hlayout hp).mp heq
    exact hend ⟨hlen, front, _, hlayout, hempty⟩
  have hreading : Reading (s.enterSection realloc q.magic) _ := h.enter hsec hfind hne
  rw [hpayload, Section.payload, List.flatMap_append] at hreading
  obtain ⟨hvars, hafter⟩ : (s.doSection realloc q).1 = _ ∧ After (s.doSection realloc q).2 _ :=
    hreading.transferAll q.vars
  rw [readVars_bytes hkinds] at hvars hafter
  have hbuffer : (s.doSection realloc q).2.buffer = (s.enterSection realloc q.magic).buffer :=
    transferAll_buffer hreading.saving q.vars
  refine ⟨hvars, ⟨hafter.error, hafter.saving, hafter.finished⟩, hbuffer.trans ?_⟩
  rw [h.enterSection_eq]
  split
  · rfl
  · rfl

theorem doSections_encode {layout : List Section} (h : IsReader s)
    (hbytes : s.buffer.bytes = encodeState layout)
    (hmagics : (layout.map Section.magic).Nodup) (hend : ¬EndsAtNoSection layout)
    {requests : List Section} {answers : List (List Var)}
    (hanswers : Answers layout requests answers) :
    (s.doSections realloc requests).1 = answers ∧
      (s.doSections realloc requests).2.error = false := by
  induction hanswers generalizing s with
  | nil => exact ⟨rfl, h.error⟩
  | cons hq _ ih =>
    obtain ⟨⟨more, hmem⟩, hkinds⟩ := hq
    obtain ⟨hvars, hnext, hbuffer⟩ : (s.doSection realloc _).1 = _ ∧ _ :=
      doSection_encode h hbytes hmagics hend hmem hkinds
    obtain ⟨hrest, herr⟩ := ih hnext (hbuffer ▸ hbytes)
    exact ⟨congrArg₂ List.cons hvars hrest, herr⟩

/-- The section at the very end is reported as missing. -/
theorem enterSection_end (front : List Section) (c : Section) (h : IsReader s)
    (hbytes : s.buffer.bytes = encodeState (front ++ [c]))
    (hmagics : ((front ++ [c]).map Section.magic).Nodup)
    (hlen : (encodeState (front ++ [c])).length = 2 ^ 32 - 1) (hempty : c.payload = []) :
    s.enterSection realloc c.magic = { s with error := true } := by
  obtain ⟨p, -, hfind, -, hp⟩ :=
    findSection_encode (hbytes.trans (List.append_nil _).symm) hmagics rfl
  have hfits := s.buffer.fits
  rw [hbytes] at hfits
  have hnone : p + 16 = noSection := (noSection_iff hfits rfl hp).mpr ⟨hlen, rfl, hempty⟩
  rw [h.enterSection_eq, hfind, hnone, if_neg (not_not.mpr rfl)]

theorem roundTrips_iff {layout : List Section} (hbytes : b.bytes = encodeState layout)
    (hmagics : (layout.map Section.magic).Nodup) :
    RoundTrips realloc layout b ↔ ¬EndsAtNoSection layout := by
  obtain ⟨hreader, hbuffer⟩ := ofBuffer_encode realloc hbytes
  have hsame : (ofBuffer realloc b false).buffer.bytes = encodeState layout := by
    rw [hbuffer, hbytes]
  constructor
  · rintro htrip ⟨hlen, front, c, rfl, hempty⟩
    have hanswers : Answers (front ++ [c]) [⟨c.magic, []⟩] [[]] :=
      List.Forall₂.cons ⟨⟨c.vars, List.mem_append_right _ List.mem_cons_self⟩, rfl⟩
        List.Forall₂.nil
    have herr : ((ofBuffer realloc b false).enterSection realloc c.magic).error = false :=
      (htrip _ _ hanswers).2
    rw [enterSection_end front c hreader hsame hmagics hlen hempty] at herr
    cases herr
  · intro hend requests answers hanswers
    exact doSections_encode hreader hsame hmagics hend hanswers

/-- A finished state reads back as written except where it ends in the offset `NO_SECTION`; a
section that is read gives nothing but its own bytes, and the search for it ends, whatever the
buffer holds. -/
theorem finished_state {layout : List Section} (hs : IsWriter realloc s)
    (hmagics : (layout.map Section.magic).Nodup)
    (hok : (s.doSections realloc layout).2.finish.error = false) :
    (RoundTrips realloc layout (s.doSections realloc layout).2.finish.kept ↔
      ¬EndsAtNoSection layout) ∧
    (∀ r : Savestate, IsReader r → ∀ c : Section,
      r.doSection realloc c = (c.vars, { r with error := true }) ∨
        ∃ o, IsSection r.buffer o ∧ r.buffer.load32 o = c.magic ∧
          (∀ o', IsSection r.buffer o' → o ≠ o' →
            o.toNat + lengthAt r.buffer o ≤ o'.toNat ∨
              o'.toNat + lengthAt r.buffer o' ≤ o.toNat) ∧
          (r.doSection realloc c).1 = (readVars c.vars (payloadAt r.buffer o)).1 ∧
          After (r.doSection realloc c).2 (readVars c.vars (payloadAt r.buffer o)).2) ∧
    (∀ (b : Buffer) (magic : U32), ∃ n, 16 * n ≤ b.bytes.length ∧
      RankedLoop.turns (findTurn b magic) (n + 1) 0x10 = .error (findSection b magic)) := by
  refine ⟨roundTrips_iff (state_finish hs hok).1 hmagics, fun r hr c => ?_, fun b magic => ?_⟩
  · rcases hr.doSection_isolated c with hmissing | ⟨o, hsec, hmagic, hvars, hafter⟩
    · exact Or.inl hmissing
    · exact Or.inr ⟨o, hsec, hmagic, fun o' hsec' hne => hsec.disjoint hsec' hne, hvars, hafter⟩
  · obtain ⟨n, hn, hturns⟩ := findFrom_turns b magic 0x10
    have h16 : (0x10 : U32).toNat = 16 := rfl
    exact ⟨n, by omega, hturns⟩

def emptyBuffer : Buffer := ⟨[], Nat.two_pow_pos 32⟩

def clockLayout : List Section :=
  [⟨0x2E435452, [.v8 7, .bool true]⟩, ⟨0x4744534E, [.v32 0x1234, .array [1, 2, 3]]⟩]

theorem length_clockLayout : (encodeState clockLayout).length = 57 := by decide

theorem finished_state_clock :
    RoundTrips (fun _ => true) clockLayout
      ((ofSize (fun _ => true) emptyBuffer).doSections (fun _ => true) clockLayout).2.finish.kept :=
  (finished_state ⟨emptyBuffer, Or.inr rfl⟩ (by decide)
    (finish_ok (fun _ => rfl) (by rw [length_clockLayout]; decide))).1.mpr
    fun h => absurd (length_clockLayout.symm.trans h.1) (by decide)

/-! A state that ends at `NO_SECTION` -/

def emptyLast (data : List U8) : List Section :=
  [⟨0x41414141, [.array data]⟩, ⟨0x42424242, []⟩]

def emptyLastState (data : List U8) : Savestate :=
  ((ofSize (fun _ => true) emptyBuffer).doSections (fun _ => true) (emptyLast data)).2.finish

theorem length_emptyLast (data : List U8) :
    (encodeState (emptyLast data)).length = 48 + data.length := by
  rw [emptyLast, length_encodeState, encodeBody_cons, encodeBody_cons, List.length_append,
    List.length_append, Section.length_encode, Section.length_encode, Section.payload,
    Section.payload, List.flatMap_cons, List.flatMap_nil, List.append_nil]
  change 16 + (16 + data.length + (16 + 0 + 0)) = _
  omega

theorem emptyLast_reads {data dest : List U8} (hdata : data.length = 2 ^ 32 - 49)
    (hbytes : b.bytes = encodeState (emptyLast data)) :
    ((ofBuffer realloc b false).doSections realloc
      [⟨0x42424242, []⟩, ⟨0x41414141, [.array dest]⟩]).1 = [[], [.array dest]] := by
  have hlen : (encodeState (emptyLast data)).length = 2 ^ 32 - 1 := by
    rw [length_emptyLast]
    omega
  obtain ⟨hreader, hbuffer⟩ := ofBuffer_encode realloc hbytes
  have hmissing : (ofBuffer realloc b false).enterSection realloc 0x42424242 =
      { ofBuffer realloc b false with error := true } := by
    refine enterSection_end [⟨0x41414141, [.array data]⟩] ⟨0x42424242, []⟩ hreader ?_ ?_ hlen rfl
    · rw [hbuffer]
      exact hbytes
    · simp
  rw [doSections, doSection, hmissing, transferAll_of_error rfl]
  dsimp only
  rw [doSections_of_error rfl]
  rfl

theorem emptyLastState_kept {data : List U8} (hdata : data.length = 2 ^ 32 - 49) :
    (emptyLastState data).error = false ∧
      (emptyLastState data).kept.bytes = encodeState (emptyLast data) := by
  have hfits : (encodeState (emptyLast data)).length < 2 ^ 32 := by
    rw [length_emptyLast]
    omega
  have hwriter : IsWriter (fun _ => true) (ofSize (fun _ => true) emptyBuffer) := ⟨_, Or.inr rfl⟩
  have hok : (emptyLastState data).error = false := finish_ok (fun _ => rfl) hfits
  refine ⟨hok, ?_⟩
  rw [kept_bytes]
  rw [emptyLastState] at hok ⊢
  exact (state_finish hwriter hok).1

theorem emptyLast_lost {n : ℕ} (hn : n = 2 ^ 32 - 49) :
    ((emptyLast (List.replicate n 0)).map Section.magic).Nodup ∧
      (emptyLastState (List.replicate n 0)).error = false ∧
      ((ofBuffer (fun _ => true) (emptyLastState (List.replicate n 0)).kept false).doSections
        (fun _ => true)
        [⟨0x42424242, []⟩, ⟨0x41414141, [.array (List.replicate n 1)]⟩]).1 ≠
        [[], [.array (List.replicate n 0)]] := by
  have hlen : (List.replicate n (0 : U8)).length = 2 ^ 32 - 49 := by
    rw [List.length_replicate, hn]
  obtain ⟨hok, hkept⟩ := emptyLastState_kept hlen
  refine ⟨?_, hok, ?_⟩
  · simp [emptyLast]
  · rw [emptyLast_reads hlen hkept]
    have hne : n ≠ 0 := by
      omega
    simp [List.replicate_inj, hne]

/-- The section without content, requested first, costs the other section its variable. -/
theorem finished_state_end :
    ((emptyLast (List.replicate (2 ^ 32 - 49) 0)).map Section.magic).Nodup ∧
      (emptyLastState (List.replicate (2 ^ 32 - 49) 0)).error = false ∧
      ((ofBuffer (fun _ => true) (emptyLastState (List.replicate (2 ^ 32 - 49) 0)).kept
        false).doSections (fun _ => true) [⟨0x42424242, []⟩,
          ⟨0x41414141, [.array (List.replicate (2 ^ 32 - 49) 1)]⟩]).1 ≠
        [[], [.array (List.replicate (2 ^ 32 - 49) 0)]] :=
  emptyLast_lost rfl

end MelonDS.Savestate
