import MelonDS.SPU.SampleFifo

/-!
# The sound channel's FIFO is transparent

A channel whose registers are left alone while it plays puts out what it would read from memory
directly, at its position.
-/

namespace MelonDS.SPU
open Cyclic

/-! ## Reading directly -/

/-- The bytes of a sample of two of the formats; the third one puts two samples into a byte. -/
def Voice.size (v : Voice) : ℕ := if v.format = 1 then 2 else 1

/-- Where the sample at the channel's position begins. -/
def Voice.offset (v : Voice) : ℕ :=
  if v.format = 2 then v.pos.toNat / 2 else v.size * v.pos.toNat

/-- A channel that reads memory at its position, without a FIFO. -/
def directFeed (mem : U32 → U32) : Feed Unit where
  start _ _ := ()
  read v size _ := (v.sample.bytesAt mem v.offset size, ())

/-- Where the next byte is read. A header of four bytes precedes samples of half a byte. -/
def Voice.cursor (v : Voice) : ℕ :=
  if v.pos < 0 then 0
  else if v.format = 2 then if v.pos < 8 then 4 else v.sample.wrap (v.pos.toNat / 2 + 1)
  else v.sample.wrap (v.size * (v.pos.toNat + 1))

/-- The position is inside the sample; of one that is not repeated there is more to come. -/
structure Voice.Inside (v : Voice) : Prop where
  lower : -3 ≤ v.pos
  pcm : v.format ≠ 2 → 0 ≤ v.pos → v.size * v.pos.toNat < v.sample.total ∧
    (v.loops = false → v.size * (v.pos.toNat + 1) < v.sample.total)
  adpcm : v.format = 2 → 8 ≤ v.pos → v.pos.toNat / 2 < v.sample.total ∧
    (v.loops = false → (v.pos.toNat + 1) / 2 < v.sample.total)

/-- What the registers have to be for the FIFO to follow the channel. -/
structure Voice.Playable (v : Voice) : Prop where
  fetchable : v.sample.Fetchable
  once : v.loops = false → v.oneShot = true
  header : v.format = 2 → v.loops = true → v.loopPos ≠ 0

structure Playing (mem : U32 → U32) (c : Channel Fifo) : Prop where
  playable : c.voice.Playable
  inside : c.voice.Inside
  coupled : Fifo.Coupled mem c.voice.sample c.voice.cursor c.feed

theorem busy_ended (v : Voice) : v.ended.busy = false := by
  have hcnt : v.ended.busy = (v.cnt &&& ~~~bit 32 31).getLsbD 31 := rfl
  rw [hcnt, BitVec.getLsbD_and, BitVec.getLsbD_not, getLsbD_bit]
  exact Bool.and_false _

/-- The channels agree, and while they play the FIFO holds what comes next. -/
structure Alike (mem : U32 → U32) (c : Channel Fifo) (d : Channel Unit) : Prop where
  voice : d.voice = c.voice
  playing : c.voice.busy = true → c.voice.format < 3 → Playing mem c

theorem Voice.size_cases (v : Voice) : v.size = 1 ∨ v.size = 2 := by
  rw [Voice.size]
  split_ifs
  · exact Or.inr rfl
  · exact Or.inl rfl

/-- While the channel goes on, a sample that has been put out has another one behind it. -/
theorem putPCM_busy {v : Voice} (once : v.loops = false → v.oneShot = true) {size : ℕ}
    {sample : ℤ} (hbusy : (v.putPCM size sample).busy = true) :
    v.putPCM size sample = { v with curSample := sample } ∧
      (v.loops = false → size * (v.pos.toNat + 1) < v.sample.total) := by
  by_cases hend : (!v.loops && v.oneShot && decide (size * (v.pos.toNat + 1) ≥ v.total)) = true
  · have hended : v.putPCM size sample = Voice.ended { v with curSample := sample } := if_pos hend
    rw [hended, busy_ended] at hbusy
    exact absurd hbusy Bool.false_ne_true
  · refine ⟨if_neg hend, fun hloops => ?_⟩
    rw [hloops, once hloops] at hend
    exact Nat.not_le.mp fun hle => hend (decide_eq_true hle)

section
variable {mem : U32 → U32} {behind : ℕ → U8} {v : Voice} {f : Fifo} {size : ℕ}
  {decode : List U8 → ℤ}

theorem Voice.Playable.take (hplay : v.Playable) (behind : ℕ → U8) {o : ℕ} (hsize : v.size = size)
    (hcoupled : Fifo.Coupled mem v.sample (size * o) f) (hleft : size * o < v.sample.total) :
    (f.readData mem v behind size).1 = v.sample.bytesAt mem (size * o) size ∧
      Fifo.Coupled mem v.sample (v.sample.wrap (size * (o + 1))) (f.readData mem v behind size).2 := by
  have htotal := hplay.fetchable.total
  have hcases := v.size_cases
  rw [hsize] at hcases
  rw [Nat.mul_add, Nat.mul_one]
  refine hcoupled.readData hplay.fetchable hplay.once behind (by omega) (Nat.mul_mod_right _ _) ?_
  rcases hcases with rfl | rfl <;> omega

/-- Both channels take a sample, at the place the FIFO has come to. -/
theorem takePCM_alike (hplay : v.Playable) (hsize : v.size = size) (hformat : v.format ≠ 2)
    (hpos : 0 ≤ v.pos) (hcoupled : Fifo.Coupled mem v.sample (size * v.pos.toNat) f)
    (hleft : size * v.pos.toNat < v.sample.total) :
    Alike mem (takePCM (Fifo.feed mem behind) size decode ⟨v, f⟩)
      (takePCM (directFeed mem) size decode ⟨v, ()⟩) := by
  obtain ⟨hbytes, hnext⟩ := hplay.take behind hsize hcoupled hleft
  have hoffset : v.offset = size * v.pos.toNat := hsize ▸ if_neg hformat
  refine ⟨?_, fun hbusy _ => ?_⟩
  · change v.putPCM size (decode (v.sample.bytesAt mem v.offset size)) =
      v.putPCM size (decode (f.readData mem v behind size).1)
    rw [hbytes, hoffset]
  · obtain ⟨hvoice, hmore⟩ := putPCM_busy hplay.once hbusy
    obtain ⟨sample, hsample⟩ : ∃ sample, sample = decode (f.readData mem v behind size).1 :=
      ⟨_, rfl⟩
    have hchannel : takePCM (Fifo.feed mem behind) size decode ⟨v, f⟩ =
        ⟨{ v with curSample := sample }, (f.readData mem v behind size).2⟩ := by
      rw [hsample]
      exact congrArg (fun v => Channel.mk v _) hvoice
    have hcursor : Voice.cursor { v with curSample := sample } =
        v.sample.wrap (size * (v.pos.toNat + 1)) := by
      rw [← hsize]
      exact (if_neg (Int.not_lt.mpr hpos)).trans (if_neg hformat)
    rw [hchannel]
    refine ⟨⟨hplay.fetchable, hplay.once, hplay.header⟩, ⟨?_, fun _ _ => ?_, fun h => absurd h hformat⟩,
      hnext.to hcursor⟩
    · exact le_trans (by decide) hpos
    · change v.size * v.pos.toNat < v.sample.total ∧
        (v.loops = false → v.size * (v.pos.toNat + 1) < v.sample.total)
      rw [hsize]
      exact ⟨hleft, hmore⟩

theorem nextSamplePCM_startup {φ : Type} (src : Feed φ) (g : φ) (h : v.pos + 1 < 0) :
    nextSamplePCM src size decode ⟨v, g⟩ = ⟨{ v with pos := v.pos + 1, curSample := 0 }, g⟩ :=
  if_pos h

theorem nextSamplePCM_again {φ : Type} (src : Feed φ) (g : φ) (h : ¬v.pos + 1 < 0)
    (hend : size * (v.pos + 1).toNat ≥ v.total) (hloops : v.loops = true) :
    nextSamplePCM src size decode ⟨v, g⟩ =
      takePCM src size decode ⟨{ v with pos := ((v.loopPos / size : ℕ) : ℤ) }, g⟩ :=
  (if_neg h).trans ((if_pos hend).trans (if_pos hloops))

theorem nextSamplePCM_on {φ : Type} (src : Feed φ) (g : φ) (h : ¬v.pos + 1 < 0)
    (hleft : ¬size * (v.pos + 1).toNat ≥ v.total) :
    nextSamplePCM src size decode ⟨v, g⟩ = takePCM src size decode ⟨{ v with pos := v.pos + 1 }, g⟩ :=
  (if_neg h).trans (if_neg hleft)

/-- Only a sample that is repeated comes to its end. -/
theorem Voice.Inside.again (h : v.Inside) (hsize : v.size = size) (hformat : v.format ≠ 2)
    (hpos : 0 ≤ v.pos + 1) (hplay : v.Playable) (hend : size * (v.pos + 1).toNat ≥ v.total) :
    v.loops = true ∧ v.cursor = v.loopPos := by
  have htotal : 16 ≤ v.total := hplay.fetchable.le_total
  have hplayed : 0 ≤ v.pos := by
    by_contra hneg
    rw [(by omega : (v.pos + 1).toNat = 0), Nat.mul_zero] at hend
    omega
  have hnat : (v.pos + 1).toNat = v.pos.toNat + 1 := by omega
  rw [hnat] at hend
  have hloops : v.loops = true := by
    by_contra hnot
    have hmore := (h.pcm hformat hplayed).2 (Bool.eq_false_iff.mpr hnot)
    rw [hsize] at hmore
    exact absurd hmore (Nat.not_lt.mpr hend)
  refine ⟨hloops, ?_⟩
  rw [Voice.cursor, if_neg (Int.not_lt.mpr hplayed), if_neg hformat, hsize]
  exact if_pos ⟨hloops, hend⟩

theorem Voice.cursor_on (hsize : v.size = size) (hformat : v.format ≠ 2) (hpos : 0 ≤ v.pos + 1)
    (hleft : size * (v.pos + 1).toNat < v.total) : v.cursor = size * (v.pos + 1).toNat := by
  rw [Voice.cursor, if_neg hformat, hsize]
  split_ifs with hneg
  · rw [(by omega : (v.pos + 1).toNat = 0), Nat.mul_zero]
  · have hnat : (v.pos + 1).toNat = v.pos.toNat + 1 := by omega
    rw [hnat] at hleft ⊢
    exact Sample.wrap_of_lt fun _ => hleft

theorem nextSamplePCM_alike (h : Playing mem ⟨v, f⟩) (hsize : v.size = size)
    (hformat : v.format ≠ 2) :
    Alike mem (nextSamplePCM (Fifo.feed mem behind) size decode ⟨v, f⟩)
      (nextSamplePCM (directFeed mem) size decode ⟨v, ()⟩) := by
  obtain ⟨hplay, hinside, hcoupled⟩ := h
  have hlower : -3 ≤ v.pos := hinside.lower
  have htotal : 16 ≤ v.sample.total := hplay.fetchable.le_total
  change Fifo.Coupled mem v.sample v.cursor f at hcoupled
  by_cases hstart : v.pos + 1 < 0
  · rw [nextSamplePCM_startup _ _ hstart, nextSamplePCM_startup _ _ hstart]
    have hcursor : v.cursor = 0 := if_pos (by omega)
    refine ⟨rfl, fun _ _ => ⟨⟨hplay.fetchable, hplay.once, hplay.header⟩,
      ⟨?_, fun _ hpos => absurd hpos (Int.not_le.mpr hstart), fun hf => absurd hf hformat⟩,
      (hcoupled.to hcursor.symm).to (if_pos hstart)⟩⟩
    change -3 ≤ v.pos + 1
    omega
  · have hpos : 0 ≤ v.pos + 1 := Int.not_lt.mp hstart
    by_cases hend : size * (v.pos + 1).toNat ≥ v.total
    · obtain ⟨hloops, hcursor⟩ := hinside.again hsize hformat hpos hplay hend
      have hback : size * (v.loopPos / size) = v.loopPos := by
        have haligned : v.loopPos % 4 = 0 := hplay.fetchable.loopPos
        have hcases := v.size_cases
        rw [hsize] at hcases
        rcases hcases with rfl | rfl <;> omega
      rw [nextSamplePCM_again _ _ hstart hend hloops, nextSamplePCM_again _ _ hstart hend hloops]
      exact takePCM_alike ⟨hplay.fetchable, hplay.once, hplay.header⟩ hsize hformat
        (Int.natCast_nonneg _) (hcoupled.to (hback.trans hcursor.symm))
        (hback.trans_lt (hplay.fetchable.loop hloops))
    · rw [nextSamplePCM_on _ _ hstart hend, nextSamplePCM_on _ _ hstart hend]
      exact takePCM_alike ⟨hplay.fetchable, hplay.once, hplay.header⟩ hsize hformat hpos
        (hcoupled.to (Voice.cursor_on hsize hformat hpos (Nat.not_le.mp hend)).symm)
        (Nat.not_le.mp hend)

theorem putADPCM_busy (once : v.loops = false → v.oneShot = true)
    (hbusy : v.putADPCM.busy = true) : v.putADPCM = { v with curSample := v.adpcmVal } ∧
      (v.loops = false → (v.pos.toNat + 1) / 2 < v.sample.total) := by
  by_cases hend : (!v.loops && v.oneShot && decide ((v.pos.toNat + 1) / 2 ≥ v.total)) = true
  · have hended : v.putADPCM = Voice.ended { v with curSample := v.adpcmVal } := if_pos hend
    rw [hended, busy_ended] at hbusy
    exact absurd hbusy Bool.false_ne_true
  · refine ⟨if_neg hend, fun hloops => ?_⟩
    rw [hloops, once hloops] at hend
    exact Nat.not_le.mp fun hle => hend (decide_eq_true hle)

theorem cursor_adpcm (hformat : v.format = 2) (hpos : 8 ≤ v.pos) :
    v.cursor = v.sample.wrap (v.pos.toNat / 2 + 1) := by
  rw [Voice.cursor, if_neg (by omega), if_pos hformat, if_neg (by omega)]

theorem playing_putADPCM (hplay : v.Playable) (hformat : v.format = 2) (hpos : 8 ≤ v.pos)
    (hleft : v.pos.toNat / 2 < v.sample.total)
    (hcoupled : Fifo.Coupled mem v.sample (v.sample.wrap (v.pos.toNat / 2 + 1)) f)
    (hbusy : v.putADPCM.busy = true) : Playing mem ⟨v.putADPCM, f⟩ := by
  obtain ⟨hvoice, hmore⟩ := putADPCM_busy hplay.once hbusy
  rw [hvoice]
  have hcursor : Voice.cursor { v with curSample := v.adpcmVal } =
      v.sample.wrap (v.pos.toNat / 2 + 1) := cursor_adpcm hformat hpos
  exact ⟨⟨hplay.fetchable, hplay.once, hplay.header⟩,
    ⟨le_trans (by decide) hpos, fun h => absurd hformat h, fun _ _ => ⟨hleft, hmore⟩⟩,
    hcoupled.to hcursor⟩

/-- Adding up touches nothing that decides where the channel reads. -/
theorem stepADPCM_eq (v : Voice) : ∃ val index valLoop indexLoop, v.stepADPCM =
    { v with
      adpcmVal := val
      adpcmIndex := index
      adpcmValLoop := valLoop
      adpcmIndexLoop := indexLoop } := by
  by_cases hloop : v.pos = ((v.loopPos * 2 : ℕ) : ℤ)
  · exact ⟨_, _, _, _, if_pos hloop⟩
  · exact ⟨_, _, _, _, if_neg hloop⟩

theorem playing_stepADPCM (hplay : v.Playable) (hformat : v.format = 2) (hpos : 8 ≤ v.pos)
    (hleft : v.pos.toNat / 2 < v.sample.total)
    (hcoupled : Fifo.Coupled mem v.sample (v.sample.wrap (v.pos.toNat / 2 + 1)) f)
    (hbusy : v.stepADPCM.putADPCM.busy = true) : Playing mem ⟨v.stepADPCM.putADPCM, f⟩ := by
  obtain ⟨val, index, valLoop, indexLoop, hstep⟩ := stepADPCM_eq v
  rw [hstep] at hbusy ⊢
  exact playing_putADPCM ⟨hplay.fetchable, hplay.once, hplay.header⟩ hformat hpos hleft hcoupled
    hbusy

/-- Both channels take the same byte. -/
theorem takeByte_alike (hplay : v.Playable) (hformat : v.format = 2)
    (hcoupled : Fifo.Coupled mem v.sample (v.pos.toNat / 2) f)
    (hleft : v.pos.toNat / 2 < v.sample.total) (behind : ℕ → U8) :
    ∃ byte g, takeByte (Fifo.feed mem behind) ⟨v, f⟩ = ⟨{ v with adpcmCurByte := byte }, g⟩ ∧
      takeByte (directFeed mem) ⟨v, ()⟩ = ⟨{ v with adpcmCurByte := byte }, ()⟩ ∧
      Fifo.Coupled mem v.sample (v.sample.wrap (v.pos.toNat / 2 + 1)) g := by
  obtain ⟨hbytes, hnext⟩ := hcoupled.readData hplay.fetchable hplay.once behind
    (Or.inl rfl) (Nat.mod_one _) hleft
  have hoffset : v.offset = v.pos.toNat / 2 := if_pos hformat
  have hfifo : takeByte (Fifo.feed mem behind) ⟨v, f⟩ =
      ⟨{ v with adpcmCurByte := BitVec.ofNat 8 (ofBytes (f.readData mem v behind 1).1) },
        (f.readData mem v behind 1).2⟩ := rfl
  have hdirect : takeByte (directFeed mem) ⟨v, ()⟩ =
      ⟨{ v with adpcmCurByte := BitVec.ofNat 8 (ofBytes (v.sample.bytesAt mem v.offset 1)) }, ()⟩ :=
    rfl
  rw [hbytes] at hfifo
  rw [hoffset] at hdirect
  exact ⟨_, _, hfifo, hdirect, hnext⟩

section
variable {φ : Type} (src : Feed φ) (g : φ)

theorem nextSampleADPCM_startup (h : v.pos + 1 < 8) (hzero : v.pos + 1 ≠ 0) :
    nextSampleADPCM src ⟨v, g⟩ = ⟨{ v with pos := v.pos + 1, curSample := 0 }, g⟩ :=
  (if_pos h).trans (if_neg hzero)

theorem nextSampleADPCM_header (hzero : v.pos + 1 = 0) :
    nextSampleADPCM src ⟨v, g⟩ =
      ⟨Voice.setupADPCM (src.read { v with pos := v.pos + 1, curSample := 0 } 4 g).1
          { v with pos := v.pos + 1, curSample := 0 },
        (src.read { v with pos := v.pos + 1, curSample := 0 } 4 g).2⟩ :=
  (if_pos (by change v.pos + 1 < 8; omega)).trans (if_pos hzero)

theorem nextSampleADPCM_again (h : ¬v.pos + 1 < 8) (hend : (v.pos + 1).toNat / 2 ≥ v.total)
    (hloops : v.loops = true) :
    nextSampleADPCM src ⟨v, g⟩ =
      { takeByte src ⟨{ v with
          pos := ((v.loopPos * 2 : ℕ) : ℤ)
          adpcmVal := v.adpcmValLoop
          adpcmIndex := v.adpcmIndexLoop }, g⟩ with
        voice := (takeByte src ⟨{ v with
          pos := ((v.loopPos * 2 : ℕ) : ℤ)
          adpcmVal := v.adpcmValLoop
          adpcmIndex := v.adpcmIndexLoop }, g⟩).voice.putADPCM } :=
  (if_neg h).trans ((if_pos hend).trans (if_pos hloops))

theorem nextSampleADPCM_even (h : ¬v.pos + 1 < 8) (hleft : ¬(v.pos + 1).toNat / 2 ≥ v.total)
    (heven : (v.pos + 1) % 2 = 0) :
    nextSampleADPCM src ⟨v, g⟩ =
      { takeByte src ⟨{ v with pos := v.pos + 1 }, g⟩ with
        voice := (takeByte src ⟨{ v with pos := v.pos + 1 }, g⟩).voice.stepADPCM.putADPCM } :=
  (if_neg h).trans ((if_neg hleft).trans (if_pos heven))

theorem nextSampleADPCM_odd (h : ¬v.pos + 1 < 8) (hleft : ¬(v.pos + 1).toNat / 2 ≥ v.total)
    (hodd : ¬(v.pos + 1) % 2 = 0) :
    nextSampleADPCM src ⟨v, g⟩ =
      ⟨(Voice.stepADPCM { v with
        pos := v.pos + 1
        adpcmCurByte := v.adpcmCurByte >>> 4 }).putADPCM, g⟩ :=
  (if_neg h).trans ((if_neg hleft).trans (if_neg hodd))

end

theorem Voice.cursor_before (h : v.pos < 0) : v.cursor = 0 := if_pos h

theorem setupADPCM_eq (v : Voice) (header : List U8) : ∃ val index, v.setupADPCM header =
    { v with
      adpcmVal := val
      adpcmIndex := index
      adpcmValLoop := val
      adpcmIndexLoop := index } :=
  ⟨_, _, rfl⟩

theorem header_alike (hplay : v.Playable) (hformat : v.format = 2) (hpos : v.pos = 0)
    (hcoupled : Fifo.Coupled mem v.sample 0 f) :
    Alike mem ⟨v.setupADPCM ((Fifo.feed mem behind).read v 4 f).1,
        ((Fifo.feed mem behind).read v 4 f).2⟩
      ⟨v.setupADPCM ((directFeed mem).read v 4 ()).1, ((directFeed mem).read v 4 ()).2⟩ := by
  have htotal := hplay.fetchable.le_total
  obtain ⟨hbytes, hnext⟩ := hcoupled.readData hplay.fetchable hplay.once behind
    (Or.inr (Or.inr rfl)) rfl (by omega)
  have hfifo : (Fifo.feed mem behind).read v 4 f = f.readData mem v behind 4 := rfl
  have hdirect : (directFeed mem).read v 4 () = (v.sample.bytesAt mem v.offset 4, ()) := rfl
  have hoffset : v.offset = 0 := by
    rw [Voice.offset, if_pos hformat, hpos]
    rfl
  have hcursor : v.cursor = v.sample.wrap (0 + 4) := by
    rw [Sample.wrap_of_lt fun _ => by omega, Voice.cursor, if_neg (by omega), if_pos hformat,
      if_pos (by omega)]
  rw [hfifo, hdirect, hbytes, hoffset]
  generalize (f.readData mem v behind 4).2 = g at hnext
  refine ⟨rfl, fun _ _ => ?_⟩
  obtain ⟨val, index, hsetup⟩ := setupADPCM_eq v (v.sample.bytesAt mem 0 4)
  rw [hsetup]
  refine ⟨⟨hplay.fetchable, hplay.once, hplay.header⟩,
    ⟨?_, fun hf => absurd hformat hf, fun _ hlate => ?_⟩, hnext.to hcursor⟩
  · change -3 ≤ v.pos
    omega
  · change 8 ≤ v.pos at hlate
    omega

theorem nextSampleADPCM_alike (h : Playing mem ⟨v, f⟩) (hformat : v.format = 2) :
    Alike mem (nextSampleADPCM (Fifo.feed mem behind) ⟨v, f⟩)
      (nextSampleADPCM (directFeed mem) ⟨v, ()⟩) := by
  obtain ⟨hplay, hinside, hcoupled⟩ := h
  change v.Playable at hplay
  change v.Inside at hinside
  change Fifo.Coupled mem v.sample v.cursor f at hcoupled
  have hlower := hinside.lower
  have htotal := hplay.fetchable.le_total
  rcases lt_or_ge (v.pos + 1) 8 with hstart | hpos
  · rcases eq_or_ne (v.pos + 1) 0 with hzero | hzero
    · rw [nextSampleADPCM_header _ _ hzero, nextSampleADPCM_header _ _ hzero]
      exact header_alike ⟨hplay.fetchable, hplay.once, hplay.header⟩ hformat hzero
        (hcoupled.to (Voice.cursor_before (by omega)).symm)
    · rw [nextSampleADPCM_startup _ _ hstart hzero, nextSampleADPCM_startup _ _ hstart hzero]
      have hcursor : Voice.cursor { v with pos := v.pos + 1, curSample := 0 } = v.cursor := by
        by_cases hneg : v.pos < 0
        · have hbefore : v.pos + 1 < 0 := by omega
          exact (if_pos hbefore).trans (Voice.cursor_before hneg).symm
        · have hold : v.cursor = 4 := by
            rw [Voice.cursor, if_neg hneg, if_pos hformat, if_pos (by omega)]
          have hbehind : ¬v.pos + 1 < 0 := by omega
          exact ((if_neg hbehind).trans ((if_pos hformat).trans (if_pos hstart))).trans hold.symm
      refine ⟨rfl, fun _ _ => ⟨⟨hplay.fetchable, hplay.once, hplay.header⟩,
        ⟨?_, fun hf => absurd hformat hf, fun _ hlate => absurd hlate (Int.not_le.mpr hstart)⟩,
        hcoupled.to hcursor⟩⟩
      change -3 ≤ v.pos + 1
      omega
  · have hnot : ¬v.pos + 1 < 8 := Int.not_lt.mpr hpos
    by_cases hend : (v.pos + 1).toNat / 2 ≥ v.total
    · have hlate : 8 ≤ v.pos := by
        change (v.pos + 1).toNat / 2 ≥ v.sample.total at hend
        omega
      obtain ⟨hleft, hmore⟩ := hinside.adpcm hformat hlate
      change (v.pos + 1).toNat / 2 ≥ v.sample.total at hend
      have hloops : v.loops = true := by
        by_contra hnot
        have hless := hmore (Bool.eq_false_iff.mpr hnot)
        omega
      have hstart : v.loopPos < v.sample.total := hplay.fetchable.loop hloops
      have hcursor : v.cursor = v.loopPos := by
        rw [cursor_adpcm hformat hlate]
        exact if_pos ⟨hloops, by omega⟩
      have hfour : 4 ≤ v.loopPos := by
        have haligned : v.loopPos % 4 = 0 := hplay.fetchable.loopPos
        have hsome := hplay.header hformat hloops
        omega
      have hback : ((v.loopPos * 2 : ℕ) : ℤ).toNat / 2 = v.loopPos := by omega
      rw [nextSampleADPCM_again _ _ hnot hend hloops, nextSampleADPCM_again _ _ hnot hend hloops]
      obtain ⟨w, hw⟩ : ∃ w : Voice, w = { v with
          pos := ((v.loopPos * 2 : ℕ) : ℤ)
          adpcmVal := v.adpcmValLoop
          adpcmIndex := v.adpcmIndexLoop } := ⟨_, rfl⟩
      have hkept : w.Playable ∧ w.format = 2 ∧ w.sample = v.sample ∧ w.pos.toNat / 2 = v.loopPos ∧
          8 ≤ w.pos := by
        rw [hw]
        refine ⟨⟨hplay.fetchable, hplay.once, hplay.header⟩, hformat, rfl, hback, ?_⟩
        change 8 ≤ ((v.loopPos * 2 : ℕ) : ℤ)
        omega
      rw [← hw]
      obtain ⟨hplay', hformat', hsample, hpos', hlate'⟩ := hkept
      have hhere : Fifo.Coupled mem w.sample (w.pos.toNat / 2) f := by
        rw [hsample, hpos', ← hcursor]
        exact hcoupled
      have hin : w.pos.toNat / 2 < w.sample.total := by
        rw [hpos', hsample]
        exact hstart
      obtain ⟨byte, g, hfifo, hdirect, hnext⟩ := takeByte_alike hplay' hformat' hhere hin behind
      rw [hfifo, hdirect]
      refine ⟨rfl, fun hbusy _ => ?_⟩
      exact playing_putADPCM ⟨hplay'.fetchable, hplay'.once, hplay'.header⟩ hformat' hlate' hin hnext
        hbusy
    · have hleft : (v.pos + 1).toNat / 2 < v.sample.total := Nat.not_le.mp hend
      by_cases heven : (v.pos + 1) % 2 = 0
      · rw [nextSampleADPCM_even _ _ hnot hend heven, nextSampleADPCM_even _ _ hnot hend heven]
        have hcursor : v.cursor = (v.pos + 1).toNat / 2 := by
          rcases lt_or_ge v.pos 8 with hseven | hlate
          · rw [Voice.cursor, if_neg (by omega), if_pos hformat, if_pos hseven]
            omega
          · rw [cursor_adpcm hformat hlate, (by omega : v.pos.toNat / 2 + 1 = (v.pos + 1).toNat / 2)]
            exact Sample.wrap_of_lt fun _ => hleft
        have hplay' : Voice.Playable { v with pos := v.pos + 1 } :=
          ⟨hplay.fetchable, hplay.once, hplay.header⟩
        obtain ⟨byte, g, hfifo, hdirect, hnext⟩ :=
          takeByte_alike hplay' hformat (hcoupled.to hcursor.symm) hleft behind
        rw [hfifo, hdirect]
        refine ⟨rfl, fun hbusy _ => ?_⟩
        exact playing_stepADPCM ⟨hplay.fetchable, hplay.once, hplay.header⟩ hformat hpos hleft hnext
          hbusy
      · rw [nextSampleADPCM_odd _ _ hnot hend heven, nextSampleADPCM_odd _ _ hnot hend heven]
        have hcursor : v.cursor = v.sample.wrap ((v.pos + 1).toNat / 2 + 1) := by
          rw [cursor_adpcm hformat (by omega), (by omega : v.pos.toNat / 2 = (v.pos + 1).toNat / 2)]
        refine ⟨rfl, fun hbusy _ => ?_⟩
        exact playing_stepADPCM ⟨hplay.fetchable, hplay.once, hplay.header⟩ hformat hpos hleft
          (hcoupled.to hcursor.symm) hbusy

end

/-! ## Runs -/

section
variable {φ : Type} (src : Feed φ)

/-- What an overflow of the timer leaves alone. -/
def Voice.registers (v : Voice) : ℕ × ℕ × ℕ × Bool × U16 :=
  (v.srcAddr, v.loopPos, v.length, v.keyOn, v.timerReload)

/-- What a sample leaves alone. -/
def Voice.clocked (v : Voice) : (ℕ × ℕ × ℕ × Bool × U16) × ℕ := (v.registers, v.timer)

theorem Voice.registers_inj {v w : Voice} (h : w.registers = v.registers) :
    w.srcAddr = v.srcAddr ∧ w.loopPos = v.loopPos ∧ w.length = v.length ∧ w.keyOn = v.keyOn ∧
      w.timerReload = v.timerReload := by
  simpa only [Voice.registers, Prod.mk.injEq] using h

theorem clocked_putPCM (size : ℕ) (sample : ℤ) (v : Voice) :
    (v.putPCM size sample).clocked = v.clocked := by
  rw [Voice.putPCM]
  split_ifs <;> rfl

theorem clocked_putADPCM (v : Voice) : v.putADPCM.clocked = v.clocked := by
  rw [Voice.putADPCM]
  split_ifs <;> rfl

theorem clocked_stepADPCM (v : Voice) : v.stepADPCM.clocked = v.clocked := by
  obtain ⟨val, index, valLoop, indexLoop, hstep⟩ := stepADPCM_eq v
  rw [hstep]
  rfl

theorem clocked_nextSamplePCM (size : ℕ) (decode : List U8 → ℤ) (c : Channel φ) :
    (nextSamplePCM src size decode c).voice.clocked = c.voice.clocked := by
  rw [nextSamplePCM]
  split_ifs
  · rfl
  · exact clocked_putPCM _ _ _
  · rfl
  · exact clocked_putPCM _ _ _
  · exact clocked_putPCM _ _ _

theorem clocked_nextSampleADPCM (c : Channel φ) :
    (nextSampleADPCM src c).voice.clocked = c.voice.clocked := by
  rw [nextSampleADPCM]
  dsimp only
  split_ifs
  · rfl
  · rfl
  · exact clocked_putADPCM _
  · rfl
  · exact clocked_putADPCM _
  · exact (clocked_putADPCM _).trans (clocked_stepADPCM _)
  · exact (clocked_putADPCM _).trans (clocked_stepADPCM _)

theorem clocked_nextSampleNoise (v : Voice) : v.nextSampleNoise.clocked = v.clocked := by
  rw [Voice.nextSampleNoise]
  split_ifs <;> rfl

theorem Voice.format_cases (v : Voice) :
    v.format = 0 ∨ v.format = 1 ∨ v.format = 2 ∨ v.format = 3 := by
  have hlt : v.format < 4 := by
    rw [Voice.format, BitVec.toNat_and]
    exact Nat.lt_of_le_of_lt Nat.and_le_right (by decide)
  omega

theorem nextSample_pcm8 {v : Voice} (g : φ) (h : v.format = 0) :
    nextSample src ⟨v, g⟩ = nextSamplePCM src 1 signed8 ⟨v, g⟩ := by
  simp only [nextSample, h]
  rfl

theorem nextSample_pcm16 {v : Voice} (g : φ) (h : v.format = 1) :
    nextSample src ⟨v, g⟩ = nextSamplePCM src 2 signed16 ⟨v, g⟩ := by
  simp only [nextSample, h]
  rfl

theorem nextSample_adpcm {v : Voice} (g : φ) (h : v.format = 2) :
    nextSample src ⟨v, g⟩ = nextSampleADPCM src ⟨v, g⟩ := by
  simp only [nextSample, h]

/-- Noise and square waves need no memory. -/
def Voice.generated (v : Voice) : Voice :=
  if v.num.val ≥ 14 then v.nextSampleNoise else v.nextSamplePSG

theorem nextSample_generated {v : Voice} (g : φ) (h : v.format = 3) :
    nextSample src ⟨v, g⟩ = ⟨v.generated, g⟩ := by
  simp only [nextSample, h, Voice.generated]
  split_ifs <;> rfl

theorem cnt_generated (v : Voice) : v.generated.cnt = v.cnt := by
  rw [Voice.generated, Voice.nextSampleNoise]
  split_ifs <;> rfl

theorem clocked_nextSample (c : Channel φ) :
    (nextSample src c).voice.clocked = c.voice.clocked := by
  rw [nextSample]
  split
  · exact clocked_nextSamplePCM src 1 _ c
  · exact clocked_nextSamplePCM src 2 _ c
  · exact clocked_nextSampleADPCM src c
  · split_ifs
    · exact clocked_nextSampleNoise _
    · rfl

theorem reloaded_eq (v : Voice) : ∃ timer, v.reloaded = { v with timer := timer } := ⟨_, rfl⟩

theorem advanced_eq (cycles : ℕ) (v : Voice) :
    ∃ timer, v.advanced cycles = { v with timer := timer } := ⟨_, rfl⟩

theorem registers_advanced (cycles : ℕ) (v : Voice) :
    (v.advanced cycles).registers = v.registers := by
  obtain ⟨timer, htimer⟩ := advanced_eq cycles v
  rw [htimer]
  rfl

theorem busy_reloaded (v : Voice) : v.reloaded.busy = v.busy := by
  obtain ⟨timer, htimer⟩ := reloaded_eq v
  rw [htimer]
  rfl

theorem tick_busy {c : Channel φ} (h : c.voice.busy = true) :
    tick src c = nextSample src ⟨c.voice.reloaded, c.feed⟩ :=
  if_pos ((busy_reloaded c.voice).trans h)

theorem tick_idle {c : Channel φ} (h : c.voice.busy = false) :
    tick src c = ⟨c.voice.reloaded.held, c.feed⟩ :=
  if_neg (Bool.eq_false_iff.mp ((busy_reloaded c.voice).trans h))

theorem registers_reloaded (v : Voice) : v.reloaded.registers = v.registers := by
  obtain ⟨timer, htimer⟩ := reloaded_eq v
  rw [htimer]
  rfl

theorem busy_held (v : Voice) : v.held.busy = v.busy := rfl

theorem registers_held (v : Voice) : v.held.registers = v.registers := rfl

theorem registers_tick (c : Channel φ) : (tick src c).voice.registers = c.voice.registers := by
  have hreload := registers_reloaded c.voice
  cases h : c.voice.busy with
  | true =>
    rw [tick_busy src h]
    exact (congrArg Prod.fst (clocked_nextSample src _)).trans hreload
  | false =>
    rw [tick_idle src h]
    exact (registers_held _).trans hreload

theorem registers_timerLoop (rounds : ℕ) (c : Channel φ) :
    (timerLoop src rounds c).voice.registers = c.voice.registers := by
  induction rounds generalizing c with
  | zero => rfl
  | succ rounds ih =>
    rw [timerLoop]
    split_ifs
    · exact (ih (tick src c)).trans (registers_tick src c)
    · rfl

theorem timer_tick (c : Channel φ) : (tick src c).voice.timer = c.voice.reloaded.timer := by
  cases h : c.voice.busy with
  | true =>
    rw [tick_busy src h]
    exact congrArg Prod.snd (clocked_nextSample src _)
  | false =>
    rw [tick_idle src h]
    rfl

/-- The rounds suffice: no overflow of the timer is left behind a run. -/
theorem overflows_timerLoop (rounds : ℕ) (c : Channel φ) (h : c.voice.timer ≤ rounds) :
    (timerLoop src rounds c).voice.overflows = false := by
  induction rounds generalizing c with
  | zero =>
    have hzero : c.voice.timer = 0 := Nat.le_zero.mp h
    change c.voice.overflows = false
    rw [Voice.overflows, hzero]
    rfl
  | succ rounds ih =>
    rw [timerLoop]
    split_ifs with hover
    · have hmany : c.voice.timer ≥ 0x10000 := of_decide_eq_true hover
      refine ih (tick src c) ?_
      have hreload := c.voice.timerReload.isLt
      rw [timer_tick, Voice.reloaded]
      dsimp only
      omega
    · exact Bool.eq_false_iff.mpr hover

end

section
variable {mem : U32 → U32} {behind : ℕ → U8}

theorem Playing.setTimer {c : Channel Fifo} (h : Playing mem c) (timer : ℕ) :
    Playing mem ⟨{ c.voice with timer := timer }, c.feed⟩ :=
  ⟨⟨h.playable.fetchable, h.playable.once, h.playable.header⟩,
    ⟨h.inside.lower, h.inside.pcm, h.inside.adpcm⟩, h.coupled⟩

theorem nextSample_alike {v : Voice} {f : Fifo} (h : v.format < 3 → Playing mem ⟨v, f⟩) :
    Alike mem (nextSample (Fifo.feed mem behind) ⟨v, f⟩)
      (nextSample (directFeed mem) ⟨v, ()⟩) := by
  rcases v.format_cases with hformat | hformat | hformat | hformat
  · rw [nextSample_pcm8 _ _ hformat, nextSample_pcm8 _ _ hformat]
    have hsize : v.size = 1 := if_neg (by omega)
    exact nextSamplePCM_alike (h (by omega)) hsize (by omega)
  · rw [nextSample_pcm16 _ _ hformat, nextSample_pcm16 _ _ hformat]
    have hsize : v.size = 2 := if_pos hformat
    exact nextSamplePCM_alike (h (by omega)) hsize (by omega)
  · rw [nextSample_adpcm _ _ hformat, nextSample_adpcm _ _ hformat]
    exact nextSampleADPCM_alike (h (by omega)) hformat
  · rw [nextSample_generated _ _ hformat, nextSample_generated _ _ hformat]
    refine ⟨rfl, fun _ hless => ?_⟩
    have hkept : v.generated.format = v.format := by
      rw [Voice.format, cnt_generated, Voice.format]
    change v.generated.format < 3 at hless
    omega

theorem Alike.tick {c : Channel Fifo} {d : Channel Unit} (h : Alike mem c d) :
    Alike mem (SPU.tick (Fifo.feed mem behind) c) (SPU.tick (directFeed mem) d) := by
  have hvoice := h.voice
  cases hbusy : c.voice.busy with
  | true =>
    have hdirect : d.voice.busy = true := by rwa [hvoice]
    rw [tick_busy _ hbusy, tick_busy _ hdirect, hvoice]
    refine nextSample_alike fun hformat => ?_
    obtain ⟨timer, htimer⟩ := reloaded_eq c.voice
    rw [htimer] at hformat ⊢
    exact (h.playing hbusy hformat).setTimer timer
  | false =>
    have hdirect : d.voice.busy = false := by rwa [hvoice]
    rw [tick_idle _ hbusy, tick_idle _ hdirect, hvoice]
    have hidle : c.voice.reloaded.held.busy = false :=
      (busy_held _).trans ((busy_reloaded _).trans hbusy)
    exact ⟨rfl, fun hnot => absurd (hidle.symm.trans hnot) Bool.false_ne_true⟩

theorem Alike.timerLoop {c : Channel Fifo} {d : Channel Unit} (h : Alike mem c d)
    (behind : ℕ → U8) (rounds : ℕ) : Alike mem (timerLoop (Fifo.feed mem behind) rounds c)
      (SPU.timerLoop (directFeed mem) rounds d) := by
  induction rounds generalizing c d with
  | zero => exact h
  | succ rounds ih =>
    rw [SPU.timerLoop, SPU.timerLoop, h.voice]
    split_ifs
    · exact ih h.tick
    · exact h

theorem toNat_and_aligned {mask : U32} (hmask : mask.toNat % 4 = 0) (val : U32) :
    (val &&& mask).toNat % 4 = 0 := by
  rw [BitVec.toNat_and, Nat.and_mod_two_pow (n := 2), hmask, Nat.and_zero]

theorem toNat_words {val : U32} (h : val.toNat < 2 ^ 30) : (val <<< 2).toNat = 4 * val.toNat := by
  rw [BitVec.toNat_shiftLeft, Nat.shiftLeft_eq]
  omega

/-- What the setters leave in the registers. -/
structure Voice.Ranged (v : Voice) : Prop where
  srcAddr : v.srcAddr < 2 ^ 27 ∧ v.srcAddr % 4 = 0
  loopPos : v.loopPos < 2 ^ 18 ∧ v.loopPos % 4 = 0
  length : v.length < 2 ^ 23 ∧ v.length % 4 = 0

/-- A sample that can be played: outside of the ARM7 BIOS, either repeated or played once, and
the loop neither empty nor over the header. -/
structure Voice.Sound (v : Voice) : Prop where
  outside : 0x4000 ≤ v.srcAddr
  once : v.loops = false → v.oneShot = true
  loop : v.loops = true → v.length ≠ 0
  header : v.format = 2 → v.loops = true → v.loopPos ≠ 0

theorem Voice.Sound.playable {v : Voice} (h : v.Sound) (hrange : v.Ranged) (hlong : 16 ≤ v.total) :
    v.Playable := by
  obtain ⟨hsrc, hsrc4⟩ := hrange.srcAddr
  obtain ⟨hpos, hpos4⟩ := hrange.loopPos
  obtain ⟨hlen, hlen4⟩ := hrange.length
  have htotal : v.sample.total = v.loopPos + v.length := rfl
  refine ⟨⟨h.outside, hsrc, hsrc4, hpos4, ?_, ?_, hlong, fun hloops => ?_⟩, h.once, h.header⟩
  · omega
  · omega
  · have hloop := h.loop hloops
    change v.loopPos < v.sample.total
    omega

/-- The channel's registers are those of a sample in memory. -/
def Voice.Memory (v : Voice) : Prop := v.busy = true ∧ v.format < 3 ∧ 16 ≤ v.total

/-- The channels between two events. -/
structure Synced (mem : U32 → U32) (c : Channel Fifo) (d : Channel Unit) : Prop where
  voice : d.voice = c.voice
  ranged : c.voice.Ranged
  keyed : c.voice.keyOn = true → c.voice.Memory → c.voice.Sound
  playing : c.voice.keyOn = false → c.voice.Memory → Playing mem c

theorem Voice.Ranged.of_registers {v w : Voice} (h : v.Ranged) (hw : w.registers = v.registers) :
    w.Ranged := by
  obtain ⟨hsrc, hpos, hlen, -, -⟩ := Voice.registers_inj hw
  exact ⟨hsrc ▸ h.srcAddr, hpos ▸ h.loopPos, hlen ▸ h.length⟩

/-- A started channel has its FIFO filled from the start of the sample. -/
theorem playing_start {v : Voice} {f : Fifo} (hplay : v.Playable) (hformat : v.format < 3) :
    Playing mem ⟨{ v.started with keyOn := false }, f.startFIFO mem v.started⟩ := by
  have hpos : v.started.pos = -3 := if_neg (by omega)
  have hcoupled : Fifo.Coupled mem v.sample 0 (f.startFIFO mem v.started) :=
    Fifo.coupled_startFIFO (v := v.started) hplay.fetchable hplay.once
      (by change v.format ≠ 3; omega) f
  obtain ⟨w, hw⟩ : ∃ w : Voice, w = { v.started with keyOn := false } := ⟨_, rfl⟩
  have hkept : w.Playable ∧ w.sample = v.sample ∧ w.pos = -3 := by
    rw [hw]
    exact ⟨⟨hplay.fetchable, hplay.once, hplay.header⟩, rfl, hpos⟩
  obtain ⟨hplay', hsample, hpos'⟩ := hkept
  rw [← hw]
  refine ⟨hplay', ⟨hpos'.ge, fun _ h => ?_, fun _ h => ?_⟩, ?_⟩
  · change 0 ≤ w.pos at h
    omega
  · change 8 ≤ w.pos at h
    omega
  · change Fifo.Coupled mem w.sample w.cursor _
    rw [hsample]
    exact hcoupled.to (Voice.cursor_before (by omega))

theorem Synced.startOnKeyOn {c : Channel Fifo} {d : Channel Unit} (h : Synced mem c d)
    (behind : ℕ → U8) (hlong : c.voice.busy = true → c.voice.format < 3 → 16 ≤ c.voice.total) :
    Alike mem (startOnKeyOn (Fifo.feed mem behind) c) (SPU.startOnKeyOn (directFeed mem) d) ∧
      (SPU.startOnKeyOn (Fifo.feed mem behind) c).voice.keyOn = false ∧
      (SPU.startOnKeyOn (Fifo.feed mem behind) c).voice.Ranged := by
  rw [SPU.startOnKeyOn, SPU.startOnKeyOn, h.voice]
  cases hkey : c.voice.keyOn with
  | true =>
    refine ⟨⟨rfl, fun hbusy hformat => ?_⟩, rfl, ⟨h.ranged.srcAddr, h.ranged.loopPos,
      h.ranged.length⟩⟩
    have hmemory : c.voice.Memory := ⟨hbusy, hformat, hlong hbusy hformat⟩
    exact playing_start ((h.keyed hkey hmemory).playable h.ranged hmemory.2.2) hformat
  | false =>
    exact ⟨⟨h.voice, fun hbusy hformat => h.playing hkey ⟨hbusy, hformat, hlong hbusy hformat⟩⟩,
      hkey, h.ranged⟩

theorem Alike.advanced {c : Channel Fifo} {d : Channel Unit} (h : Alike mem c d)
    (cycles : ℕ) :
    Alike mem ⟨c.voice.advanced cycles, c.feed⟩ ⟨d.voice.advanced cycles, d.feed⟩ := by
  rw [h.voice]
  obtain ⟨timer, htimer⟩ := advanced_eq cycles c.voice
  rw [htimer]
  exact ⟨rfl, fun hbusy hformat => (h.playing hbusy hformat).setTimer timer⟩

theorem Synced.doRun {c : Channel Fifo} {d : Channel Unit} (h : Synced mem c d) (cycles : ℕ) :
    Synced mem (doRun (Fifo.feed mem behind) cycles c) (SPU.doRun (directFeed mem) cycles d) := by
  rw [SPU.doRun, SPU.doRun, h.voice]
  split_ifs with hmuted hsilent hshort
  · exact h
  · exact h
  · exact h
  · have hlong (hbusy : c.voice.busy = true) (hformat : c.voice.format < 3) :
        16 ≤ c.voice.total := Nat.not_lt.mp fun hless => hshort ⟨hbusy, hformat, hless⟩
    obtain ⟨hloop, hkey, hrange⟩ := h.startOnKeyOn behind hlong
    generalize SPU.startOnKeyOn (Fifo.feed mem behind) c = c' at hloop hkey hrange
    generalize SPU.startOnKeyOn (directFeed mem) d = d' at hloop
    have hafter := (hloop.advanced cycles).timerLoop behind
      (c'.voice.advanced cycles).timer
    have hregisters := (registers_timerLoop (Fifo.feed mem behind)
      (c'.voice.advanced cycles).timer ⟨c'.voice.advanced cycles, c'.feed⟩).trans
      (registers_advanced cycles c'.voice)
    have hoff := (Voice.registers_inj hregisters).2.2.2.1.trans hkey
    dsimp only
    rw [hloop.voice] at hafter ⊢
    exact ⟨hafter.voice, hrange.of_registers hregisters,
      fun hon => absurd (hoff.symm.trans hon) Bool.false_ne_true,
      fun _ hmemory => hafter.playing hmemory.1 hmemory.2.1⟩

/-! ## Register writes -/

/-- The mode of a channel that plays stays what it is. -/
structure Voice.SameMode (v w : Voice) : Prop where
  format : w.format = v.format
  loops : w.loops = v.loops
  oneShot : w.oneShot = v.oneShot

/-- What a game may do: it leaves a channel's sample alone while the channel plays, and starts
only what can be played. -/
def Voice.Allowed (v : Voice) : ChannelEvent → Prop
  | .run _ => True
  | .setTimerReload _ => True
  | .setCnt val => ((v.setCnt val).Memory → v.busy = true → v.SameMode (v.setCnt val)) ∧
      ((v.setCnt val).Memory → v.busy = false → (v.setCnt val).Sound)
  | .setSrcAddr _ => v.busy = false
  | .setLoopPos _ => v.busy = false
  | .setLength _ => v.busy = false

instance (v : Voice) : Decidable v.Memory := inferInstanceAs (Decidable (_ ∧ _ ∧ _))

instance (v w : Voice) : Decidable (v.SameMode w) :=
  decidable_of_iff (w.format = v.format ∧ w.loops = v.loops ∧ w.oneShot = v.oneShot)
    ⟨fun ⟨hformat, hloops, hone⟩ => ⟨hformat, hloops, hone⟩,
      fun h => ⟨h.format, h.loops, h.oneShot⟩⟩

instance (v : Voice) : Decidable v.Sound :=
  decidable_of_iff (0x4000 ≤ v.srcAddr ∧ (v.loops = false → v.oneShot = true) ∧
      (v.loops = true → v.length ≠ 0) ∧ (v.format = 2 → v.loops = true → v.loopPos ≠ 0))
    ⟨fun ⟨houtside, honce, hloop, hheader⟩ => ⟨houtside, honce, hloop, hheader⟩,
      fun h => ⟨h.outside, h.once, h.loop, h.header⟩⟩

instance (v : Voice) : ∀ e, Decidable (v.Allowed e)
  | .run _ | .setTimerReload _ => isTrue trivial
  | .setCnt _ => inferInstanceAs (Decidable (_ ∧ _))
  | .setSrcAddr _ | .setLoopPos _ | .setLength _ => inferInstanceAs (Decidable (v.busy = false))

theorem setCnt_eq (val : U32) (v : Voice) : ∃ keyOn curSample, v.setCnt val =
    { v with cnt := val &&& 0xFF7F837F, keyOn := keyOn, curSample := curSample } := by
  rw [Voice.setCnt]
  dsimp only
  split_ifs
  · exact ⟨true, v.curSample, rfl⟩
  · exact ⟨false, 0, rfl⟩
  · exact ⟨v.keyOn, v.curSample, rfl⟩

theorem busy_setCnt (val : U32) (v : Voice) : (v.setCnt val).busy = val.getLsbD 31 := by
  obtain ⟨keyOn, curSample, hset⟩ := setCnt_eq val v
  rw [hset, Voice.busy, BitVec.getLsbD_and]
  exact Bool.and_true _

theorem setCnt_starts {val : U32} {v : Voice} (hidle : v.busy = false)
    (hbusy : (v.setCnt val).busy = true) : (v.setCnt val).keyOn = true := by
  rw [busy_setCnt] at hbusy
  have hstart : (val.getLsbD 31 && !v.busy) = true := by
    rw [hbusy, hidle]
    rfl
  have hset : v.setCnt val = { v with cnt := val &&& 0xFF7F837F, keyOn := true } := if_pos hstart
  rw [hset]

theorem setCnt_continues {val : U32} {v : Voice} (hbusy : v.busy = true)
    (hstill : (v.setCnt val).busy = true) : v.setCnt val = { v with cnt := val &&& 0xFF7F837F } := by
  rw [busy_setCnt] at hstill
  have hcnt : Voice.busy { v with cnt := val &&& 0xFF7F837F } = true := by
    rw [Voice.busy, BitVec.getLsbD_and, hstill]
    rfl
  have hrunning : ¬(val.getLsbD 31 && !v.busy) = true := by
    rw [hbusy, Bool.not_true, Bool.and_false]
    exact Bool.false_ne_true
  rw [Voice.setCnt]
  dsimp only
  rw [if_neg hrunning, hcnt]
  rfl

/-- With its mode the channel keeps the place where it reads. -/
theorem Playing.of_sameMode {v w : Voice} {f : Fifo} (h : Playing mem ⟨v, f⟩)
    (hsame : v.SameMode w) (hloopPos : w.loopPos = v.loopPos) (hsample : w.sample = v.sample)
    (hpos : w.pos = v.pos) : Playing mem ⟨w, f⟩ := by
  have hsize : w.size = v.size := by rw [Voice.size, hsame.format, Voice.size]
  have hcursor : w.cursor = v.cursor := by
    rw [Voice.cursor, hpos, hsame.format, hsample, hsize, Voice.cursor]
  refine ⟨⟨?_, ?_, ?_⟩, ⟨?_, ?_, ?_⟩, ?_⟩
  · exact hsample.symm ▸ h.playable.fetchable
  · rw [hsame.loops, hsame.oneShot]
    exact h.playable.once
  · rw [hsame.format, hsame.loops, hloopPos]
    exact h.playable.header
  · exact hpos.symm ▸ h.inside.lower
  · rw [hsame.format, hpos, hsize, hsample, hsame.loops]
    exact h.inside.pcm
  · rw [hsame.format, hpos, hsample, hsame.loops]
    exact h.inside.adpcm
  · change Fifo.Coupled mem w.sample w.cursor f
    rw [hsample, hcursor]
    exact h.coupled

theorem Synced.setCnt {c : Channel Fifo} {d : Channel Unit} (h : Synced mem c d) {val : U32}
    (hallowed : c.voice.Allowed (.setCnt val)) :
    Synced mem ⟨c.voice.setCnt val, c.feed⟩ ⟨d.voice.setCnt val, d.feed⟩ := by
  obtain ⟨hmode, hsound⟩ := hallowed
  have hrange : (c.voice.setCnt val).Ranged := by
    obtain ⟨keyOn, curSample, hset⟩ := setCnt_eq val c.voice
    rw [hset]
    exact ⟨h.ranged.srcAddr, h.ranged.loopPos, h.ranged.length⟩
  rw [h.voice]
  cases hbusy : c.voice.busy with
  | false =>
    refine ⟨rfl, hrange, fun _ hmemory => hsound hmemory hbusy, fun hoff hmemory => ?_⟩
    exact absurd ((setCnt_starts hbusy hmemory.1).symm.trans hoff) Bool.noConfusion
  | true =>
    have hbefore (hmemory : (c.voice.setCnt val).Memory) : c.voice.Memory := by
      have hformat := (hmode hmemory hbusy).format
      obtain ⟨hstill, hless, hlong⟩ := hmemory
      rw [setCnt_continues hbusy hstill] at hlong
      exact ⟨hbusy, hformat ▸ hless, hlong⟩
    refine ⟨rfl, hrange, fun hkey hmemory => ?_, fun hkey hmemory => ?_⟩
    · obtain ⟨hformat, hloops, hone⟩ := hmode hmemory hbusy
      have hset := setCnt_continues hbusy hmemory.1
      have hold : c.voice.Sound := by
        refine h.keyed ?_ (hbefore hmemory)
        rwa [hset] at hkey
      refine ⟨?_, ?_, ?_, ?_⟩
      · rw [hset]
        exact hold.outside
      · rw [hloops, hone]
        exact hold.once
      · rw [hloops, hset]
        exact hold.loop
      · rw [hformat, hloops, hset]
        exact hold.header
    · have hsame := hmode hmemory hbusy
      have hset := setCnt_continues hbusy hmemory.1
      have hold : Playing mem c := by
        refine h.playing ?_ (hbefore hmemory)
        rwa [hset] at hkey
      refine hold.of_sameMode hsame ?_ ?_ ?_
      · rw [hset]
      · rw [Voice.sample, hsame.loops, hset, Voice.sample]
      · rw [hset]

/-- The registers of a sample are written between two samples. -/
theorem Synced.idle {w : Voice} {f : Fifo} (hrange : w.Ranged) (hidle : w.busy = false) :
    Synced mem ⟨w, f⟩ ⟨w, ()⟩ :=
  have hnever {p : Prop} (h : w.Memory) : p := absurd (hidle.symm.trans h.1) Bool.false_ne_true
  ⟨rfl, hrange, fun _ h => hnever h, fun _ h => hnever h⟩

theorem ranged_setSrcAddr {v : Voice} (h : v.Ranged) (val : U32) : (v.setSrcAddr val).Ranged := by
  refine ⟨?_, h.loopPos, h.length⟩
  have hbound : (val &&& 0x07FFFFFC).toNat ≤ 0x07FFFFFC := Nat.and_le_right
  have haligned : (val &&& 0x07FFFFFC).toNat % 4 = 0 := toNat_and_aligned rfl val
  change (val &&& 0x07FFFFFC).toNat < 2 ^ 27 ∧ (val &&& 0x07FFFFFC).toNat % 4 = 0
  omega

theorem ranged_setLoopPos {v : Voice} (h : v.Ranged) (val : U32) : (v.setLoopPos val).Ranged := by
  refine ⟨h.srcAddr, ?_, h.length⟩
  have hbound : (val &&& 0xFFFF).toNat ≤ 0xFFFF := Nat.and_le_right
  change ((val &&& 0xFFFF) <<< 2).toNat < 2 ^ 18 ∧ ((val &&& 0xFFFF) <<< 2).toNat % 4 = 0
  rw [toNat_words (by omega)]
  omega

theorem ranged_setLength {v : Voice} (h : v.Ranged) (val : U32) : (v.setLength val).Ranged := by
  refine ⟨h.srcAddr, h.loopPos, ?_⟩
  have hbound : (val &&& 0x001FFFFF).toNat ≤ 0x001FFFFF := Nat.and_le_right
  change ((val &&& 0x001FFFFF) <<< 2).toNat < 2 ^ 23 ∧ ((val &&& 0x001FFFFF) <<< 2).toNat % 4 = 0
  rw [toNat_words (by omega)]
  omega

theorem Playing.setTimerReload {v : Voice} {f : Fifo} (h : Playing mem ⟨v, f⟩)
    (reload : U16) : Playing mem ⟨{ v with timerReload := reload }, f⟩ :=
  ⟨⟨h.playable.fetchable, h.playable.once, h.playable.header⟩,
    ⟨h.inside.lower, h.inside.pcm, h.inside.adpcm⟩, h.coupled⟩

theorem Synced.setTimerReload {c : Channel Fifo} {d : Channel Unit} (h : Synced mem c d)
    (reload : U16) :
    Synced mem ⟨{ c.voice with timerReload := reload }, c.feed⟩
      ⟨{ d.voice with timerReload := reload }, d.feed⟩ := by
  rw [h.voice]
  refine ⟨rfl, ⟨h.ranged.srcAddr, h.ranged.loopPos, h.ranged.length⟩, fun hkey hmemory => ?_,
    fun hkey hmemory => (h.playing hkey hmemory).setTimerReload reload⟩
  obtain ⟨houtside, honce, hloop, hheader⟩ := h.keyed hkey hmemory
  exact ⟨houtside, honce, hloop, hheader⟩

theorem Synced.apply {c : Channel Fifo} {d : Channel Unit} (h : Synced mem c d)
    {e : ChannelEvent} (hallowed : c.voice.Allowed e) :
    Synced mem (e.apply (Fifo.feed mem behind) c) (e.apply (directFeed mem) d) := by
  cases e with
  | run cycles => exact h.doRun cycles
  | setCnt val => exact h.setCnt hallowed
  | setTimerReload val => exact h.setTimerReload _
  | setSrcAddr val =>
    rw [ChannelEvent.apply, ChannelEvent.apply, h.voice]
    exact Synced.idle (ranged_setSrcAddr h.ranged val) hallowed
  | setLoopPos val =>
    rw [ChannelEvent.apply, ChannelEvent.apply, h.voice]
    exact Synced.idle (ranged_setLoopPos h.ranged val) hallowed
  | setLength val =>
    rw [ChannelEvent.apply, ChannelEvent.apply, h.voice]
    exact Synced.idle (ranged_setLength h.ranged val) hallowed

end

/-- What happens to a channel, in this order. -/
def play {φ : Type} (src : Feed φ) : List ChannelEvent → Channel φ → Channel φ
  | [], c => c
  | e :: events, c => play src events (e.apply src c)

/-- Every event is allowed when it comes to it, in the channel that reads memory directly. -/
def Permitted (mem : U32 → U32) : List ChannelEvent → Channel Unit → Prop
  | [], _ => True
  | e :: events, d => d.voice.Allowed e ∧ Permitted mem events (e.apply (directFeed mem) d)

instance decidablePermitted (mem : U32 → U32) : ∀ events d, Decidable (Permitted mem events d)
  | [], _ => isTrue trivial
  | e :: events, d =>
    have := decidablePermitted mem events (e.apply (directFeed mem) d)
    inferInstanceAs (Decidable (_ ∧ _))

section
variable {mem : U32 → U32} {behind : ℕ → U8}

theorem Synced.play {c : Channel Fifo} {d : Channel Unit} (h : Synced mem c d)
    (behind : ℕ → U8) {events : List ChannelEvent} (hpermitted : Permitted mem events d) :
    Synced mem (play (Fifo.feed mem behind) events c) (SPU.play (directFeed mem) events d) := by
  induction events generalizing c d with
  | nil => exact h
  | cons e events ih =>
    obtain ⟨hallowed, hrest⟩ := hpermitted
    rw [h.voice] at hallowed
    exact ih (h.apply hallowed) hrest

end

/-- Whatever is written to a channel while it rests, and however its time is cut into runs: it
puts out what it would read from memory at its position, and its FIFO neither overruns nor runs
out before the sample does. -/
theorem playback_direct (mem : U32 → U32) (behind : ℕ → U8) (num : Fin 16) (f : Fifo)
    (events : List ChannelEvent) (h : Permitted mem events ⟨Voice.initial num, ()⟩) :
    let c := play (Fifo.feed mem behind) events ⟨Voice.initial num, f⟩
    c.voice = (play (directFeed mem) events ⟨Voice.initial num, ()⟩).voice ∧
      (c.voice.Memory → c.voice.keyOn = false →
        c.feed.level ≤ 32 ∧
        window c.feed.data c.feed.readPos c.feed.level =
          c.voice.sample.played mem c.feed.level c.voice.cursor ∧
        (16 ≤ c.feed.level ∨ c.voice.loops = false ∧ c.feed.readOffset = c.voice.total)) := by
  have hstart : Synced mem ⟨Voice.initial num, f⟩ ⟨Voice.initial num, ()⟩ :=
    Synced.idle ⟨⟨Nat.two_pow_pos 27, rfl⟩, ⟨Nat.two_pow_pos 18, rfl⟩, ⟨Nat.two_pow_pos 23, rfl⟩⟩
      BitVec.getLsbD_zero
  have hplay := hstart.play behind h
  refine ⟨hplay.voice.symm, fun hmemory hkey => ?_⟩
  have hcoupled := (hplay.playing hkey hmemory).coupled
  exact ⟨hcoupled.level, hcoupled.stored.content, hcoupled.supplied⟩

/-- Samples repeated from their start, whose registers change while they play. -/
theorem playback_direct_repeated :
    let mem (addr : U32) : U32 := addr * 0x01020304
    let events : List ChannelEvent := [.setSrcAddr 0x02000000, .setLength 4,
      .setTimerReload 0xF000, .setCnt 0xA800007F, .run 0x5000, .setTimerReload 0xE000,
      .setCnt 0xA8000040, .run 0x6000]
    (play (Fifo.feed mem fun _ => 0) events ⟨Voice.initial 3, Fifo.empty⟩).voice =
      (play (directFeed mem) events ⟨Voice.initial 3, ()⟩).voice :=
  (playback_direct _ (fun _ => 0) 3 Fifo.empty _ (by decide +kernel)).1

end MelonDS.SPU
