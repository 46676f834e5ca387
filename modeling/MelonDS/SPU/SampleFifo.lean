import MelonDS.SPU.Channel

/-!
# What the sound channel's FIFO holds

A channel plays a sample of memory in order and, where it is repeated, goes on at its loop
start. The FIFO is filled ahead in bursts, and what it holds are the next bytes in this order,
enough of them for every read.
-/

namespace MelonDS.SPU
open Cyclic

/-! ## The bytes of a sample in their order -/

/-- What of a channel decides which bytes come next. -/
structure Sample where
  srcAddr : ℕ
  loopPos : ℕ
  length : ℕ
  loops : Bool

def Voice.sample (v : Voice) : Sample := ⟨v.srcAddr, v.loopPos, v.length, v.loops⟩

namespace Sample

def total (s : Sample) : ℕ := s.loopPos + s.length

/-- A sample that the FIFO can be filled from: words outside of the ARM7 BIOS, at least four of
them, and one in the loop. -/
structure Fetchable (s : Sample) : Prop where
  outside : 0x4000 ≤ s.srcAddr
  srcAddr : s.srcAddr < 2 ^ 27
  aligned : s.srcAddr % 4 = 0
  loopPos : s.loopPos % 4 = 0
  total : s.total % 4 = 0
  total_lt : s.total < 2 ^ 24
  le_total : 16 ≤ s.total
  loop : s.loops = true → s.loopPos < s.total

variable (mem : U32 → U32) (s : Sample)

def byteAt (o : ℕ) : U8 :=
  (toBytes 4 (mem (BitVec.ofNat 32 (s.srcAddr + 4 * (o / 4)))).toNat).getD (o % 4) 0

/-- A repeated sample has no end. -/
def wrap (o : ℕ) : ℕ := if s.loops = true ∧ s.total ≤ o then s.loopPos else o

def next (o : ℕ) : ℕ := s.wrap (o + 1)

def after (n o : ℕ) : ℕ := s.next^[n] o

/-- The `n` bytes that are played from an offset on. -/
def played : ℕ → ℕ → List U8
  | 0, _ => []
  | n + 1, o => s.byteAt mem o :: played n (s.next o)

def bytesAt (o n : ℕ) : List U8 := (List.range n).map fun i => s.byteAt mem (o + i)

variable {s}

theorem wrap_of_lt {o : ℕ} (h : s.loops = true → o < s.total) : s.wrap o = o :=
  if_neg fun hend => absurd (h hend.1) (Nat.not_lt.mpr hend.2)

theorem after_add (m n o : ℕ) : s.after (m + n) o = s.after n (s.after m o) := by
  rw [after, Nat.add_comm, Function.iterate_add_apply]
  rfl

theorem after_once {o : ℕ} (hloops : s.loops = false) (n : ℕ) : s.after n o = o + n := by
  induction n with
  | zero => rfl
  | succ n ih =>
    rw [after_add, ih]
    exact wrap_of_lt fun h => absurd (hloops.symm.trans h) Bool.false_ne_true

theorem after_of_le {o n : ℕ} (ho : s.loops = true → o < s.total) (h : o + n ≤ s.total) :
    s.after n o = s.wrap (o + n) := by
  induction n with
  | zero => exact (wrap_of_lt ho).symm
  | succ n ih =>
    rw [after_add, ih (by omega), wrap_of_lt fun _ => by omega]
    rfl

theorem played_add (m n o : ℕ) :
    s.played mem (m + n) o = s.played mem m o ++ s.played mem n (s.after m o) := by
  induction m generalizing o with
  | zero =>
    rw [Nat.zero_add]
    rfl
  | succ m ih =>
    rw [Nat.succ_add, played, played, ih, Nat.add_comm m 1, after_add]
    rfl

theorem played_of_le {o n : ℕ} (h : o + n ≤ s.total) : s.played mem n o = s.bytesAt mem o n := by
  induction n generalizing o with
  | zero => rfl
  | succ n ih =>
    rw [played, bytesAt, List.range_succ_eq_map, List.map_cons, List.map_map]
    refine congrArg₂ List.cons rfl ?_
    cases n with
    | zero => rfl
    | succ n =>
      have hnext : s.next o = o + 1 := wrap_of_lt fun _ => by omega
      rw [hnext, ih (by omega), bytesAt]
      refine List.map_congr_left fun i _ => congrArg _ ?_
      change o + 1 + i = o + (i + 1)
      omega

/-- The bytes of a word of the sample. -/
theorem bytesAt_word {o : ℕ} (ho : o % 4 = 0) :
    s.bytesAt mem o 4 = toBytes 4 (mem (BitVec.ofNat 32 (s.srcAddr + o))).toNat := by
  have hbyte (i : ℕ) (hi : i < 4) : s.byteAt mem (o + i) =
      (toBytes 4 (mem (BitVec.ofNat 32 (s.srcAddr + o))).toNat).getD i 0 := by
    rw [byteAt, (by omega : 4 * ((o + i) / 4) = o), (by omega : (o + i) % 4 = i)]
  change [s.byteAt mem (o + 0), s.byteAt mem (o + 1), s.byteAt mem (o + 2),
    s.byteAt mem (o + 3)] = _
  rw [hbyte 0 (by decide), hbyte 1 (by decide), hbyte 2 (by decide), hbyte 3 (by decide)]
  rfl

end Sample

/-! ## Filling the FIFO -/

namespace Fifo
open Sample

/-- The FIFO holds `n` bytes from the offset on, and goes on where they end. -/
structure Stored (mem : U32 → U32) (s : Sample) (o n : ℕ) (f : Fifo) : Prop where
  content : window f.data f.readPos n = s.played mem n o
  writePos : (f.readPos + n) % 32 = 4 * f.writePos
  next : s.after n o = s.wrap f.readOffset
  readOffset : f.readOffset ≤ s.total
  aligned : f.readOffset % 4 = 0

/-- What is stored is enough for the next read, or all there is left of the sample. -/
def Supplied (s : Sample) (f : Fifo) : Prop :=
  16 ≤ f.level ∨ s.loops = false ∧ f.readOffset = s.total

structure Coupled (mem : U32 → U32) (s : Sample) (o : ℕ) (f : Fifo) : Prop where
  stored : Stored mem s o f.level f
  level : f.level ≤ 32
  supplied : Supplied s f
  readPos : f.readPos < 32
  phase : f.readPos % 4 = o % 4
  inside : s.loops = true → o < s.total

theorem Coupled.to {mem : U32 → U32} {s : Sample} {o o' : ℕ} {f : Fifo} (h : Coupled mem s o f)
    (ho : o' = o) : Coupled mem s o' f := ho ▸ h

section
variable {mem : U32 → U32} {v : Voice} {o n : ℕ} {f : Fifo}

theorem Stored.bufferWord (hv : v.sample.Fetchable) (h : Stored mem v.sample o n f)
    (hmore : f.readOffset + 4 ≤ v.sample.total) (hn : n + 4 ≤ 32) :
    Stored mem v.sample o (n + 4) (f.bufferWord mem v false) := by
  have htotal := hv.total_lt
  have hoffset : (f.readOffset + 4) % 2 ^ 32 = f.readOffset + 4 := Nat.mod_eq_of_lt (by omega)
  have hnext : v.sample.after n o = f.readOffset := h.next.trans (wrap_of_lt fun _ => by omega)
  have hword : v.sample.played mem 4 f.readOffset =
      toBytes 4 (mem (BitVec.ofNat 32 (v.srcAddr + f.readOffset))).toNat :=
    (played_of_le mem hmore).trans (bytesAt_word mem h.aligned)
  refine ⟨?_, ?_, ?_, ?_, ?_⟩
  · have hpos : 4 * f.writePos % 32 = (f.readPos + n) % 32 := by
      rw [h.writePos.symm, Nat.mod_mod]
    have happend := @window_append_block _ 32 _ f.data f.readPos n
      (toBytes 4 (mem (BitVec.ofNat 32 (v.srcAddr + f.readOffset))).toNat)
      (by rwa [length_toBytes])
    rw [length_toBytes, ← writeAll_congr f.data hpos] at happend
    rw [played_add, hnext, hword, ← h.content]
    exact happend
  · have hwrite := h.writePos
    change (f.readPos + (n + 4)) % 32 = 4 * ((f.writePos + 1) % 8)
    omega
  · rw [after_add, hnext, after_of_le (fun _ => by omega) hmore]
    exact congrArg _ hoffset.symm
  · exact hoffset.trans_le hmore
  · have haligned := h.aligned
    change (f.readOffset + 4) % 2 ^ 32 % 4 = 0
    omega

theorem Stored.bufferWords (hv : v.sample.Fetchable) (words : ℕ) (h : Stored mem v.sample o n f)
    (hmore : f.readOffset + 4 * words ≤ v.sample.total) (hn : n + 4 * words ≤ 32) :
    Stored mem v.sample o (n + 4 * words) (f.bufferWords mem v false words) ∧
      (f.bufferWords mem v false words).readOffset = f.readOffset + 4 * words ∧
      (f.bufferWords mem v false words).readPos = f.readPos ∧
      (f.bufferWords mem v false words).level = f.level := by
  induction words generalizing n f with
  | zero => exact ⟨h, rfl, rfl, rfl⟩
  | succ words ih =>
    have htotal := hv.total_lt
    have hoffset : (f.bufferWord mem v false).readOffset = f.readOffset + 4 :=
      Nat.mod_eq_of_lt (by omega)
    obtain ⟨hstored, hend, hread, hlevel⟩ := ih (h.bufferWord hv (by omega) (by omega))
      (by rw [hoffset]; omega) (by omega)
    refine ⟨?_, ?_, hread, hlevel⟩
    · rw [(by omega : n + 4 * (words + 1) = n + 4 + 4 * words)]
      exact hstored
    · rw [Fifo.bufferWords, hend, hoffset]
      omega

/-- A burst takes four words, or what is left of the sample. -/
theorem Stored.burst (hv : v.sample.Fetchable) (h : Stored mem v.sample o f.level f)
    (hleft : f.readOffset < v.sample.total) (hlevel : f.level ≤ 16) :
    ∃ words, 0 < words ∧ words ≤ 4 ∧
      Stored mem v.sample o (f.burst mem v).level (f.burst mem v) ∧
      (f.burst mem v).level = f.level + 4 * words ∧ (f.burst mem v).readPos = f.readPos ∧
      (f.burst mem v).readOffset = f.readOffset + 4 * words ∧
      (words = 4 ∨ (f.burst mem v).readOffset = v.sample.total) := by
  have htotal := hv.total_lt
  have haligned := h.aligned
  have hsize := hv.total
  have hsame : v.total = v.sample.total := rfl
  obtain ⟨burstlen, hlen⟩ : ∃ burstlen, burstlen = if (f.readOffset + 16) % 2 ^ 32 > v.total then
      (v.total + 2 ^ 32 - f.readOffset) % 2 ^ 32 else 16 := ⟨_, rfl⟩
  have hcases : burstlen = 16 ∧ f.readOffset + 16 ≤ v.sample.total ∨
      burstlen = v.sample.total - f.readOffset ∧ v.sample.total < f.readOffset + 16 := by
    rw [hsame] at hlen
    split_ifs at hlen
    · exact Or.inr ⟨by omega, by omega⟩
    · exact Or.inl ⟨hlen, by omega⟩
  have hwords : burstlen = 4 * ((burstlen + 3) / 4) := by omega
  have hloud : decide ((v.srcAddr + f.readOffset) % 2 ^ 32 < 0x4000) = false := by
    have hsrc : v.srcAddr < 2 ^ 27 := hv.srcAddr
    have hout : 0x4000 ≤ v.srcAddr := hv.outside
    exact decide_eq_false (by omega)
  have hburst : f.burst mem v = { f.bufferWords mem v false ((burstlen + 3) / 4) with
      level := ((f.bufferWords mem v false ((burstlen + 3) / 4)).level + burstlen) % 2 ^ 32 } := by
    rw [Fifo.burst, hloud, ← hlen]
  obtain ⟨hstored, hend, hread, hkept⟩ := h.bufferWords hv ((burstlen + 3) / 4) (by omega)
    (by omega)
  have hafter : (f.burst mem v).level = f.level + 4 * ((burstlen + 3) / 4) := by
    rw [hburst]
    change ((f.bufferWords mem v false _).level + burstlen) % 2 ^ 32 = _
    rw [hkept]
    omega
  refine ⟨(burstlen + 3) / 4, by omega, by omega, ?_, hafter, ?_, ?_, ?_⟩
  · rw [hafter, hburst]
    exact ⟨hstored.content, hstored.writePos, hstored.next, hstored.readOffset, hstored.aligned⟩
  · rw [hburst]
    exact hread
  · rw [hburst]
    exact hend
  · rw [hburst]
    change _ ∨ (f.bufferWords mem v false _).readOffset = _
    rw [hend]
    omega

theorem Stored.coupled_burst (hv : v.sample.Fetchable) (h : Stored mem v.sample o f.level f)
    (hleft : f.readOffset < v.sample.total) (hlevel : f.level ≤ 16) (hlow : 12 ≤ f.level)
    (hread : f.readPos < 32) (hphase : f.readPos % 4 = o % 4)
    (hinside : v.loops = true → o < v.sample.total) :
    Coupled mem v.sample o (f.burst mem v) := by
  obtain ⟨words, hpos, hle, hstored, hafter, hkept, -, -⟩ := h.burst hv hleft hlevel
  exact ⟨hstored, by omega, Or.inl (by omega), hkept ▸ hread, hkept ▸ hphase, hinside⟩

/-- Back at the loop start the same bytes come next. -/
theorem Stored.rewind (hv : v.sample.Fetchable) (h : Stored mem v.sample o n f)
    (hend : f.readOffset = v.sample.total) (hloops : v.loops = true) :
    Stored mem v.sample o n { f with readOffset := v.loopPos } := by
  have hstart : v.loopPos < v.sample.total := hv.loop hloops
  refine ⟨h.content, h.writePos, ?_, hstart.le, hv.loopPos⟩
  have hwrap : v.sample.wrap v.sample.total = v.loopPos := if_pos ⟨hloops, le_rfl⟩
  rw [h.next, hend, hwrap]
  exact (wrap_of_lt fun _ => hstart).symm

/-- The FIFO is filled up when it is half empty. -/
theorem Stored.bufferData (hv : v.sample.Fetchable) (honce : v.loops = false → v.oneShot = true)
    (h : Stored mem v.sample o f.level f) (hlevel : f.level ≤ 16)
    (hsupply : 12 ≤ f.level ∨ v.loops = false ∧ f.readOffset = v.sample.total)
    (hread : f.readPos < 32) (hphase : f.readPos % 4 = o % 4)
    (hinside : v.loops = true → o < v.sample.total) :
    Coupled mem v.sample o (f.bufferData mem v) := by
  have hsame : v.total = v.sample.total := rfl
  rw [Fifo.bufferData, hsame]
  rcases Nat.lt_or_ge f.readOffset v.sample.total with hleft | hend
  · have hlow : 12 ≤ f.level := hsupply.resolve_right fun h => absurd h.2 hleft.ne
    rw [if_neg (Nat.not_le.mpr hleft)]
    exact h.coupled_burst hv hleft hlevel hlow hread hphase hinside
  · have hat : f.readOffset = v.sample.total := le_antisymm h.readOffset hend
    rw [if_pos hend]
    cases hloops : v.loops with
    | true =>
      have hlow : 12 ≤ f.level :=
        hsupply.resolve_right fun h => absurd (hloops.symm.trans h.1) Bool.noConfusion
      exact (h.rewind hv hat hloops).coupled_burst hv (hv.loop hloops) hlevel hlow hread hphase
        hinside
    | false =>
      rw [honce hloops]
      exact ⟨h, hlevel.trans (by decide), Or.inr ⟨hloops, hat⟩, hread, hphase, hinside⟩

theorem coupled_startFIFO (hv : v.sample.Fetchable) (honce : v.loops = false → v.oneShot = true)
    (hformat : v.format ≠ 3) (f : Fifo) : Coupled mem v.sample 0 (f.startFIFO mem v) := by
  have hsize := hv.le_total
  have hzero : v.sample.wrap 0 = 0 := wrap_of_lt fun _ => by omega
  obtain ⟨f₀, hf₀⟩ : ∃ f₀ : Fifo, f₀ = ⟨f.data, 0, 0, 0, 0⟩ := ⟨_, rfl⟩
  have hempty : Stored mem v.sample 0 f₀.level f₀ := by
    subst hf₀
    exact ⟨rfl, rfl, hzero.symm, Nat.zero_le _, rfl⟩
  have hleft : f₀.readOffset < v.sample.total := by
    subst hf₀
    exact show 0 < v.sample.total by omega
  obtain ⟨words, -, hle, hstored, hlevel, hread, hoffset, hfull⟩ :=
    hempty.burst hv hleft (by subst hf₀; exact Nat.zero_le 16)
  have hfirst : f₀.bufferData mem v = f₀.burst mem v := if_neg (Nat.not_le.mpr hleft)
  have hstart : f.startFIFO mem v = (f₀.burst mem v).bufferData mem v := by
    rw [← hfirst, hf₀]
    exact if_pos hformat
  have hzeros : f₀.level = 0 ∧ f₀.readOffset = 0 ∧ f₀.readPos = 0 := by
    subst hf₀
    exact ⟨rfl, rfl, rfl⟩
  rw [hstart]
  exact hstored.bufferData hv honce (by omega) (Or.inl (by omega)) (by omega) (by omega)
    fun _ => by omega

/-! ## Reading from it -/

theorem bytes_eq_window (behind : ℕ → U8) {size : ℕ} (h : f.readPos + size ≤ 32) :
    f.bytes behind size = window f.data f.readPos size := by
  rw [bytes, window_eq_map]
  refine List.map_congr_left fun i hi => ?_
  have hlt : f.readPos + i < 32 := by
    have := List.mem_range.mp hi
    omega
  rw [dif_pos hlt]
  exact congrArg f.data (Fin.ext (Nat.mod_eq_of_lt hlt).symm)

theorem Coupled.readData (hv : v.sample.Fetchable) (honce : v.loops = false → v.oneShot = true)
    (h : Coupled mem v.sample o f) (behind : ℕ → U8) {size : ℕ}
    (hsize : size = 1 ∨ size = 2 ∨ size = 4) (ho : o % size = 0)
    (hle : o + size ≤ v.sample.total) :
    (f.readData mem v behind size).1 = v.sample.bytesAt mem o size ∧
      Coupled mem v.sample (v.sample.wrap (o + size)) (f.readData mem v behind size).2 := by
  have hphase := h.phase
  have hread := h.readPos
  have hbound := h.level
  have hin : f.readPos + size ≤ 32 := by
    rcases hsize with rfl | rfl | rfl <;> omega
  have henough : size ≤ f.level := by
    rcases h.supplied with hmuch | ⟨hloops, hend⟩
    · rcases hsize with rfl | rfl | rfl <;> omega
    · have hlast := h.stored.next
      rw [after_once hloops, hend,
        wrap_of_lt fun hl => absurd (hloops.symm.trans hl) Bool.noConfusion] at hlast
      omega
  have hsplit : f.level = size + (f.level - size) := by omega
  have hcontent := h.stored.content
  rw [hsplit, window_add, played_add, played_of_le mem hle, after_of_le h.inside hle] at hcontent
  obtain ⟨hbytes, hrest⟩ := List.append_inj hcontent
    (by rw [window_length, bytesAt, List.length_map, List.length_range])
  refine ⟨(bytes_eq_window behind hin).trans hbytes, ?_⟩
  have hlevel : (f.level + 2 ^ 32 - size) % 2 ^ 32 = f.level - size := by omega
  obtain ⟨f', hf'⟩ : ∃ f' : Fifo, f' = { f with
      readPos := (f.readPos + size) % 32
      level := (f.level + 2 ^ 32 - size) % 2 ^ 32 } := ⟨_, rfl⟩
  have hresult : (f.readData mem v behind size).2 =
      if f'.level ≤ 16 then f'.bufferData mem v else f' := by
    rw [hf']
    rfl
  have hstored : Stored mem v.sample (v.sample.wrap (o + size)) f'.level f' := by
    rw [hf']
    refine ⟨?_, ?_, ?_, h.stored.readOffset, h.stored.aligned⟩
    · change window f.data ((f.readPos + size) % 32) ((f.level + 2 ^ 32 - size) % 2 ^ 32) = _
      rw [hlevel, window_mod]
      exact hrest
    · have hwrite := h.stored.writePos
      change ((f.readPos + size) % 32 + (f.level + 2 ^ 32 - size) % 2 ^ 32) % 32 = 4 * f.writePos
      rw [hlevel]
      omega
    · change v.sample.after ((f.level + 2 ^ 32 - size) % 2 ^ 32) _ = v.sample.wrap f.readOffset
      rw [hlevel, ← after_of_le h.inside hle, ← after_add, ← hsplit]
      exact h.stored.next
  have hphase' : f'.readPos % 4 = v.sample.wrap (o + size) % 4 := by
    have hloop := hv.loopPos
    have htotal := hv.total
    rw [hf', wrap]
    change (f.readPos + size) % 32 % 4 = _
    split_ifs with hend <;> omega
  have hinside' : v.loops = true → v.sample.wrap (o + size) < v.sample.total := by
    intro hloops
    rw [wrap]
    split_ifs with hend
    · exact hv.loop hloops
    · exact Nat.not_le.mp fun h => hend ⟨hloops, h⟩
  have hfacts : f'.level = f.level - size ∧ f'.readPos < 32 ∧ f'.readOffset = f.readOffset := by
    rw [hf']
    exact ⟨hlevel, Nat.mod_lt _ (by decide), rfl⟩
  have hsupply : 12 ≤ f'.level ∨ v.loops = false ∧ f'.readOffset = v.sample.total := by
    rw [hfacts.1, hfacts.2.2]
    refine h.supplied.imp_left fun hmuch => ?_
    rcases hsize with rfl | rfl | rfl <;> omega
  rw [hresult]
  split_ifs with hlow
  · exact hstored.bufferData hv honce hlow hsupply hfacts.2.1 hphase' hinside'
  · exact ⟨hstored, by omega, Or.inl (by omega), hfacts.2.1, hphase', hinside'⟩

end

end Fifo

end MelonDS.SPU
