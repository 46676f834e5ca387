import MelonDS.DSP.PData

/-!
# The words of the PDATA read stream

A fetch appends one word to the FIFO while it has room, so every word fetched has left the FIFO or
is still queued, in the order fetched, and the address has moved by as many. The refills after a
read stop at the room there is. Only a start can meet words of an earlier transfer.
-/

namespace MelonDS.DSP.PData

variable {δ : Type} (src : Source δ)

/-- The words that have left the FIFO and those still in it. -/
def passed (s : PData δ) : ℕ := s.gone.length + s.readFifo.contents.length

/-- Each word fetched has been returned by a read, or discarded, or is queued. -/
structure Conserved (s : PData δ) : Prop where
  words : s.fetched = s.gone.map Prod.fst ++ s.readFifo.contents
  room : s.overrun = false
  level : s.readFifo.level ≤ 16
  mark : s.mark ≤ s.passed
  address : s.padr =
    if s.served && s.autoIncrement then s.base + BitVec.ofNat 16 (s.passed - s.mark) else s.base

/-- What the transfer last started has obtained. -/
def Delivers (s : PData δ) : Prop :=
  match s.stream with
  | .none => s.pDataDMALen = 0
  | .fixed length mark => s.pDataDMALen = 0 ∧ s.passed = mark + length
  | .endless => s.pDataDMALen = -1 ∧ s.readFifo.level = 16

/-- A read takes the oldest queued word, or returns 0 and takes none. -/
def Returns (s : PData δ) : Prop :=
  let (ret, t) := s.pDataDMAReadMMIO src
  t.gone = (if s.readFifo.isEmpty then s.gone else s.gone ++ [(ret, true)]) ∧
    ret = s.readFifo.contents.headD 0

/-- A start needs room for the words it fetches ahead. -/
def Permitted (s : PData δ) : PDataOp → Prop
  | .writePCFG val => val.getLsbD 4 = true → s.readFifo.level + prefetch val ≤ 16
  | .writePCFG8 .. | .writePADR _ | .readPDATA => True

instance (s : PData δ) : DecidablePred s.Permitted := fun op => by
  cases op <;> unfold Permitted <;> infer_instance

inductive Reachable (system : δ) : PData δ → Prop
  | reset : Reachable system (reset system)
  | step {s : PData δ} (op : PDataOp) :
      Reachable system s → s.Permitted op → Reachable system (s.step src op)

variable {s : PData δ}

theorem Conserved.fetched_length (h : s.Conserved) : s.fetched.length = s.passed := by
  simp [h.words, passed]

theorem contents_le (s : PData δ) : s.readFifo.contents.length ≤ 16 :=
  s.readFifo.contents_length_le

/-- A state with the address just set. -/
theorem Conserved.of_base {t : PData δ}
    (hwords : t.fetched = t.gone.map Prod.fst ++ t.readFifo.contents) (hroom : t.overrun = false)
    (hbase : t.padr = t.base) (hmark : t.mark = t.fetched.length) : t.Conserved := by
  have hpassed : t.mark = t.passed := by simp [hmark, hwords, passed]
  refine ⟨hwords, hroom, ?_, hpassed.le, ?_⟩
  · rw [t.readFifo.level_eq_length]
    exact t.contents_le
  · rw [hpassed]
    simp [hbase]

theorem conserved_reset (system : δ) : (reset system).Conserved :=
  Conserved.of_base rfl rfl rfl rfl

/-- One fetch with room. -/
theorem Conserved.fetch (h : s.Conserved) (hactive : s.pDataDMALen ≠ 0)
    (hspace : s.readFifo.contents.length < 16) :
    (s.pDataDMAFetch src).Conserved ∧
      (s.pDataDMAFetch src).gone = s.gone ∧
      (s.pDataDMAFetch src).stream = s.stream ∧
      (s.pDataDMAFetch src).readFifo.contents.length = s.readFifo.contents.length + 1 ∧
      (s.pDataDMAFetch src).pDataDMALen =
        if 0 < s.pDataDMALen then s.pDataDMALen - 1 else s.pDataDMALen := by
  have hfull : s.readFifo.isFull = false := by
    apply Bool.eq_false_of_not_eq_true
    intro hfull
    have := s.readFifo.isFull_iff.mp hfull
    omega
  have hwrite := s.readFifo.write_contents_of_lt (s.word src).1 hspace
  have hpassed : (s.pDataDMAFetch src).passed = s.passed + 1 := by
    simp [passed, pDataDMAFetch, hactive, pDataDMARead, hwrite]
    omega
  refine ⟨⟨?_, ?_, ?_, ?_, ?_⟩, ?_, ?_, ?_, ?_⟩
  · simp [pDataDMAFetch, hactive, pDataDMARead, hwrite, h.words]
  · simp [pDataDMAFetch, hactive, pDataDMARead, h.room, hfull]
  · rw [FIFO.level_eq_length]
    exact contents_le _
  · have hmark := h.mark
    rw [hpassed]
    simp only [pDataDMAFetch, hactive, if_false, pDataDMARead]
    omega
  · have hsub : s.passed + 1 - s.mark = s.passed - s.mark + 1 := by
      have := h.mark
      omega
    have hserved : (s.pDataDMAFetch src).served = s.served := by
      simp only [pDataDMAFetch, hactive, if_false, pDataDMARead, served, region]
    have hauto : (s.pDataDMAFetch src).autoIncrement = s.autoIncrement := by
      simp only [pDataDMAFetch, hactive, if_false, pDataDMARead, autoIncrement]
    have hbase : (s.pDataDMAFetch src).base = s.base ∧ (s.pDataDMAFetch src).mark = s.mark ∧
        (s.pDataDMAFetch src).padr =
          if s.served && s.autoIncrement then s.padr + 1 else s.padr := by
      simp only [pDataDMAFetch, hactive, if_false, pDataDMARead, and_self]
    rw [hpassed, hserved, hauto, hbase.1, hbase.2.1, hbase.2.2, hsub, h.address]
    cases s.served && s.autoIncrement with
    | true => exact (BitVec.add_assoc ..).trans (by rw [if_pos rfl, BitVec.ofNat_add]; rfl)
    | false => rfl
  all_goals simp [pDataDMAFetch, hactive, pDataDMARead, hwrite]

/-- The fetches of a start or of a refill. -/
theorem Conserved.fetches (n : ℕ) (h : s.Conserved)
    (hspace : s.readFifo.contents.length + n ≤ 16)
    (hactive : s.pDataDMALen < 0 ∨ (n : ℤ) ≤ s.pDataDMALen) :
    ((pDataDMAFetch src)^[n] s).Conserved ∧
      ((pDataDMAFetch src)^[n] s).gone = s.gone ∧
      ((pDataDMAFetch src)^[n] s).stream = s.stream ∧
      ((pDataDMAFetch src)^[n] s).readFifo.contents.length = s.readFifo.contents.length + n ∧
      ((pDataDMAFetch src)^[n] s).pDataDMALen =
        if s.pDataDMALen < 0 then s.pDataDMALen else s.pDataDMALen - n := by
  induction n generalizing s with
  | zero => simp [h]
  | succ n ih =>
    rw [Function.iterate_succ_apply]
    obtain ⟨hkeep, hgone, hstream, hlevel, hlen⟩ :=
      h.fetch src (by omega) (by omega)
    obtain ⟨hkeep, hgone', hstream', hlevel', hlen'⟩ :=
      ih hkeep (by omega) (by rw [hlen]; split_ifs <;> omega)
    refine ⟨hkeep, hgone'.trans hgone, hstream'.trans hstream, by omega, ?_⟩
    rw [hlen', hlen]
    split_ifs <;> omega

theorem Conserved.checkPDataReadIRQ (h : s.Conserved) : s.checkPDataReadIRQ.Conserved :=
  ⟨h.words, h.room, h.level, h.mark, h.address⟩

theorem lengthOf_cases (pcfg : U16) :
    lengthOf pcfg = -1 ∧ prefetch pcfg = 16 ∨ lengthOf pcfg = prefetch pcfg := by
  unfold prefetch lengthOf
  split <;> simp

theorem Conserved.setAddress (h : s.Conserved) (padr pcfg : U16) :
    ({ s with pcfg := pcfg }.setAddress padr).Conserved :=
  .of_base h.words h.room rfl rfl

/-- A start with room for its first words. -/
theorem Conserved.start (h : s.Conserved)
    (hspace : s.readFifo.level + prefetch s.pcfg ≤ 16) :
    (s.pDataDMAStart src).Conserved ∧ (s.pDataDMAStart src).Delivers := by
  rw [FIFO.level_eq_length] at hspace
  have hlength := h.fetched_length
  have hset : ({ s with
      pDataDMALen := lengthOf s.pcfg
      base := s.padr
      mark := s.fetched.length
      stream := streamOf s.pcfg s.fetched.length } : PData δ).Conserved :=
    .of_base h.words h.room rfl rfl
  obtain ⟨hkeep, hgone, hstream, hlevel, hlen⟩ := hset.fetches src (prefetch s.pcfg)
    hspace (by dsimp only; have := lengthOf_cases s.pcfg; omega)
  dsimp only at hgone hlevel hlen
  refine ⟨hkeep.checkPDataReadIRQ, ?_⟩
  change Delivers ((pDataDMAFetch src)^[prefetch s.pcfg] _)
  rcases lengthOf_cases s.pcfg with ⟨hneg, hwords⟩ | hpos
  · have hstream' : streamOf s.pcfg s.fetched.length = .endless := by simp [streamOf, hneg]
    simp only [Delivers, hstream.trans hstream', hlen, FIFO.level_eq_length, hlevel]
    omega
  · have hstream' : streamOf s.pcfg s.fetched.length =
        .fixed (prefetch s.pcfg) s.fetched.length := by
      simp [streamOf, hpos]
    simp only [Delivers, hstream.trans hstream', hlen, passed, hgone, hlevel]
    rw [passed] at hlength
    omega

theorem Conserved.cancel (h : s.Conserved) :
    s.pDataDMACancel.Conserved ∧ s.pDataDMACancel.Delivers := by
  refine ⟨.of_base ?_ h.room rfl rfl, rfl⟩
  simp [pDataDMACancel, h.words, Function.comp_def]

/-- What a read takes out of the FIFO, before the refill. -/
def take (s : PData δ) : U16 × PData δ :=
  if s.readFifo.isEmpty then ((0 : U16), s)
  else
    let (w, fifo) := s.readFifo.read
    (w, { s with readFifo := fifo, gone := s.gone ++ [(w, true)] })

theorem take_spec (s : PData δ) :
    s.readFifo.contents = [] ∧ s.take = (0, s) ∨
      ∃ w rest, s.readFifo.contents = w :: rest ∧ s.take.1 = w ∧
        s.take.2.readFifo.contents = rest ∧
        s.take.2 = { s with readFifo := s.take.2.readFifo, gone := s.gone ++ [(w, true)] } := by
  cases hcontents : s.readFifo.contents with
  | nil => exact .inl ⟨rfl, by rw [take, if_pos (s.readFifo.isEmpty_iff.mpr hcontents)]⟩
  | cons w rest =>
    have hempty : ¬s.readFifo.isEmpty = true := by
      rw [FIFO.isEmpty_iff, hcontents]
      exact List.cons_ne_nil w rest
    obtain ⟨hw, hrest⟩ := s.readFifo.read_of_contents_cons hcontents
    refine .inr ⟨w, rest, rfl, ?_, ?_, ?_⟩
    all_goals simp only [take, hempty, if_false, hw, hrest, Bool.false_eq_true]

theorem pDataDMAReadMMIO_eq (s : PData δ) :
    s.pDataDMAReadMMIO src = (s.take.1,
      (if s.take.2.pDataDMALen ≠ 0 then (pDataDMAFetch src)^[s.take.2.refill] s.take.2
        else s.take.2).checkPDataReadIRQ) := rfl

theorem Conserved.take (h : s.Conserved) :
    s.take.2.Conserved ∧ s.take.2.passed = s.passed := by
  rcases s.take_spec with ⟨-, htake⟩ | ⟨w, rest, hcontents, -, hrest, htake⟩
  · rw [htake]
    exact ⟨h, rfl⟩
  · have hpassed : s.take.2.passed = s.passed := by
      rw [passed, passed, hrest, hcontents, htake]
      simp
      omega
    refine ⟨⟨?_, ?_, ?_, ?_, ?_⟩, hpassed⟩
    · rw [htake]
      simp [h.words, hcontents, hrest]
    · rw [htake]
      exact h.room
    · rw [FIFO.level_eq_length]
      exact contents_le _
    · rw [hpassed, htake]
      exact h.mark
    · rw [hpassed, htake]
      exact h.address

theorem Conserved.refill (h : s.Conserved) (hactive : s.pDataDMALen < 0) :
    ((pDataDMAFetch src)^[s.refill] s).Conserved ∧
      ((pDataDMAFetch src)^[s.refill] s).gone = s.gone ∧
      ((pDataDMAFetch src)^[s.refill] s).stream = s.stream ∧
      ((pDataDMAFetch src)^[s.refill] s).pDataDMALen = s.pDataDMALen ∧
      ((pDataDMAFetch src)^[s.refill] s).readFifo.level = 16 := by
  have hrefill : s.refill = 16 - s.readFifo.contents.length := by
    simp only [PData.refill, FIFO.level_eq_length]
    rw [if_neg (by omega)]
    omega
  have hle := s.contents_le
  obtain ⟨hkeep, hgone, hstream, hlevel, hlen⟩ :=
    h.fetches src s.refill (by omega) (.inl hactive)
  rw [if_pos hactive] at hlen
  exact ⟨hkeep, hgone, hstream, hlen, by rw [FIFO.level_eq_length]; omega⟩

theorem Delivers.len_eq_zero_or (hd : s.Delivers) :
    s.pDataDMALen = 0 ∨ s.stream = .endless ∧ s.pDataDMALen = -1 := by
  unfold Delivers at hd
  split at hd
  · exact .inl hd
  · exact .inl hd.1
  · rename_i hstream
    exact .inr ⟨hstream, hd.1⟩

/-- A read keeps the invariant and reports what it took. -/
theorem Conserved.readPDATA (h : s.Conserved) (hd : s.Delivers) :
    (s.pDataDMAReadMMIO src).2.Conserved ∧ (s.pDataDMAReadMMIO src).2.Delivers ∧
      (s.pDataDMAReadMMIO src).2.gone = s.take.2.gone := by
  obtain ⟨hkeep, hpassed⟩ := h.take
  have hsame : s.take.2.stream = s.stream ∧ s.take.2.pDataDMALen = s.pDataDMALen := by
    rcases s.take_spec with ⟨-, htake⟩ | ⟨w, rest, -, -, -, htake⟩
    all_goals rw [htake]; exact ⟨rfl, rfl⟩
  rw [pDataDMAReadMMIO_eq]
  rcases hd.len_eq_zero_or with hzero | ⟨hstream, hneg⟩
  · rw [if_neg (not_not.mpr (hsame.2.trans hzero))]
    refine ⟨hkeep.checkPDataReadIRQ, ?_, rfl⟩
    unfold Delivers at hd ⊢
    change match s.take.2.stream with
      | .none => s.take.2.pDataDMALen = 0
      | .fixed length mark => s.take.2.pDataDMALen = 0 ∧ s.take.2.passed = mark + length
      | .endless => s.take.2.pDataDMALen = -1 ∧ s.take.2.readFifo.level = 16
    rw [hsame.1, hsame.2, hpassed]
    split at hd
    · exact hd
    · exact hd
    · exact absurd (hd.1.symm.trans hzero) (by decide)
  · have hactive : s.take.2.pDataDMALen < 0 := by omega
    obtain ⟨hkeep, hgone, hstream', hlen, hlevel⟩ := hkeep.refill src hactive
    rw [if_pos (by omega)]
    refine ⟨hkeep.checkPDataReadIRQ, ?_, hgone⟩
    change Delivers ((pDataDMAFetch src)^[s.take.2.refill] s.take.2)
    unfold Delivers
    rw [hstream', hsame.1, hstream]
    exact ⟨hlen.trans (hsame.2.trans hneg), hlevel⟩

theorem Conserved.returns (h : s.Conserved) (hd : s.Delivers) : s.Returns src := by
  have hgone : s.take.2.gone =
      (if s.readFifo.isEmpty then s.gone else s.gone ++ [(s.take.1, true)]) ∧
      s.take.1 = s.readFifo.contents.headD 0 := by
    rcases s.take_spec with ⟨hcontents, htake⟩ | ⟨w, rest, hcontents, hw, -, htake⟩
    · rw [if_pos (s.readFifo.isEmpty_iff.mpr hcontents), htake, hcontents]
      exact ⟨rfl, rfl⟩
    · have hempty : ¬s.readFifo.isEmpty = true := by
        rw [FIFO.isEmpty_iff, hcontents]
        exact List.cons_ne_nil w rest
      rw [if_neg hempty, hw, htake, hcontents]
      exact ⟨rfl, rfl⟩
  exact ⟨(h.readPDATA src hd).2.2.trans hgone.1, hgone.2⟩

theorem Conserved.step (h : s.Conserved) (hd : s.Delivers) {op : PDataOp} (hop : s.Permitted op) :
    (s.step src op).Conserved ∧ (s.step src op).Delivers := by
  cases op with
  | writePCFG val =>
    have hpowered : ({ s with
        hasCore := (src.power s.pcfg val (s.hasCore, s.system)).1
        system := (src.power s.pcfg val (s.hasCore, s.system)).2
        pcfg := val }.setAddress s.padr).Conserved := .of_base h.words h.room rfl rfl
    by_cases hstart : val.getLsbD 4 = true
    · have hrun := hpowered.start src (hop hstart)
      simp only [PData.step, writePCFG, hstart, if_true]
      exact hrun
    · have hrun := hpowered.cancel
      simp only [PData.step, writePCFG, hstart, Bool.false_eq_true, if_false]
      exact hrun
  | writePCFG8 high val =>
    exact ⟨h.setAddress s.padr _, hd⟩
  | writePADR val =>
    exact ⟨h.setAddress val s.pcfg, hd⟩
  | readPDATA => exact ⟨(h.readPDATA src hd).1, (h.readPDATA src hd).2.1⟩

variable {src}

theorem Reachable.conserved {system : δ} (h : Reachable src system s) :
    s.Conserved ∧ s.Delivers := by
  induction h with
  | reset => exact ⟨conserved_reset system, rfl⟩
  | step op _ hop ih => exact ih.1.step src ih.2 hop

/-- A core whose data memory holds at each address the address. -/
def counting : Source Unit where
  dstHigh := fun _ => 0
  dataReadA32 := fun a d => (a.setWidth 16, d)
  mmioRead := fun a d => (a, d)
  programRead := fun a d => (a.setWidth 16, d)
  ahbmConfigured := fun _ => false
  ahbmUnitSize := fun _ => 0
  arm9Read8 := fun _ d => (0, d)
  ahbmRead16 := fun _ d => (0, d)
  ahbmRead32 := fun _ d => (0, d)
  power := fun _ _ s => (true, s.2)

end MelonDS.DSP.PData
