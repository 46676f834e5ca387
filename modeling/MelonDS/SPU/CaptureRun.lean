import MelonDS.SPU.CaptureFrame

/-!
# Sound capture over runs

A sample that is captured inside the destination, two bytes at an even position, keeps the
FIFO and the pass in step. The register writes of a run may come at any time: what matters is
where the next sample falls.
-/

namespace MelonDS.SPU
open Cyclic
namespace SPUCaptureUnit
variable {u u' : SPUCaptureUnit} {p : ℕ}

/-! ## Writing to the FIFO -/

theorem putBytes_eq {pos : ℕ} {bytes : List U8} (h : pos + bytes.length ≤ 16) (fifo : Fin 16 → U8) :
    putBytes pos bytes fifo = writeAll fifo pos bytes := by
  induction bytes generalizing pos fifo with
  | nil => rfl
  | cons b bytes ih =>
    rw [List.length_cons] at h
    have hpos : pos < 16 := by omega
    have hcell : cell 16 pos = ⟨pos, hpos⟩ := Fin.ext (cell_val_of_lt hpos)
    rw [putBytes, dif_pos hpos, writeAll, hcell, ih (by omega)]

theorem fifoWriteData_eq (bytes : List U8) (u : SPUCaptureUnit) :
    u.fifoWriteData bytes =
      if (u.filled bytes).fifoLevel ≥ 16 then (u.filled bytes).fifoFlushData
      else u.filled bytes := rfl

theorem moved_filled (bytes : List U8) (u : SPUCaptureUnit) : Moved u (u.filled bytes) :=
  ⟨rfl, rfl, rfl, rfl, rfl⟩

/-- One byte, or two at an even position. -/
def Fitting (p : ℕ) (bytes : List U8) : Prop :=
  bytes.length = 1 ∨ bytes.length = 2 ∧ p % 2 = 0

theorem Framed.room (h : u.Framed p) (hlevel : u.fifoLevel.toNat < 16) {bytes : List U8}
    (hbytes : Fitting p bytes) :
    u.fifoWritePos + bytes.length ≤ 16 ∧
      (u.fifoLevel + BitVec.ofNat 32 bytes.length).toNat = u.fifoLevel.toNat + bytes.length ∧
      u.fifoLevel.toNat + bytes.length ≤ 16 := by
  have hwrite := h.write
  have hpos := h.pos
  have hoffset := h.offset
  rw [BitVec.toNat_add, BitVec.toNat_ofNat]
  rcases hbytes with hone | ⟨htwo, heven⟩ <;> omega

theorem Sound.filled (hsound : u.Sound) (h : u.Framed p) (hlevel : u.fifoLevel.toNat < 16)
    {bytes : List U8} (hbytes : Fitting p bytes) : (u.filled bytes).Sound := by
  obtain ⟨hroom, hlevel', hle⟩ := h.room hlevel hbytes
  refine ⟨hsound.dst, hsound.aligned, hsound.short, ?_, ?_⟩
  · intro e he
    rcases List.mem_append.mp he with he | he
    · exact hsound.events e he
    · rw [List.mem_singleton.mp he]
      exact ⟨hroom, hlevel'.trans_le hle⟩
  · change ∀ p ∈ (passLog (u.log ++ [_])).finished, p.Right
    rw [passLog_concat]
    exact hsound.finished

theorem Framed.filled (h : u.Framed p) (hlevel : u.fifoLevel.toNat < 16) {bytes : List U8}
    (hbytes : Fitting p bytes) : (u.filled bytes).Framed (p + bytes.length) := by
  obtain ⟨hroom, hlevel', hle⟩ := h.room hlevel hbytes
  have hpos := h.pos
  refine ⟨h.offset, h.read, hlevel'.trans_le hle, ?_, ?_, ?_⟩
  · change u.fifoWriteOffset + (u.fifoLevel + BitVec.ofNat 32 bytes.length).toNat = _
    rw [hlevel', ← Nat.add_assoc, hpos]
  · change (u.fifoWritePos + bytes.length) % 16 =
      (4 * u.fifoReadPos + (u.fifoLevel + BitVec.ofNat 32 bytes.length).toNat) % 16
    rw [hlevel', h.write, Nat.mod_add_mod, Nat.add_assoc]
  · intro captured stores hcurrent
    change (passLog (u.log ++ [_])).current = _ at hcurrent
    rw [passLog_concat, PassLog.note] at hcurrent
    obtain ⟨⟨before, stores'⟩, hbefore, hafter⟩ := Option.map_eq_some_iff.mp hcurrent
    obtain ⟨rfl, rfl⟩ := Prod.mk.inj hafter
    obtain ⟨hlen, hstores, hwindow⟩ := h.current _ _ hbefore
    have hoffset : u.fifoWriteOffset ≤ before.length := by omega
    refine ⟨by rw [List.length_append, hlen], ?_, ?_⟩
    · change stores' = wordsAt u.dstAddr ((before ++ bytes).take u.fifoWriteOffset)
      rw [List.take_append_of_le_length hoffset]
      exact hstores
    · change window (putBytes u.fifoWritePos bytes u.fifo) (4 * u.fifoReadPos)
        (u.fifoLevel + BitVec.ofNat 32 bytes.length).toNat =
          (before ++ bytes).drop u.fifoWriteOffset
      have hcongr := writeAll_congr u.fifo
        (i := u.fifoWritePos) (j := 4 * u.fifoReadPos + u.fifoLevel.toNat)
        (by rw [h.write, Nat.mod_mod]) bytes
      rw [hlevel', putBytes_eq hroom, hcongr, window_append_block _ _ hle, hwindow,
        List.drop_append_of_le_length hoffset]

/-- The sample is in the FIFO or stored, and a FIFO of sixteen bytes has been flushed. -/
theorem fifoWriteData_spec (hsound : u.Sound) (happart : u.Apart) (h : u.Framed p)
    (hlevel : u.fifoLevel.toNat < 16) {bytes : List U8} (hbytes : Fitting p bytes)
    (hp : p + bytes.length ≤ u.length.toNat) :
    (u.fifoWriteData bytes).Sound ∧ Moved u (u.fifoWriteData bytes) ∧
      ((u.fifoWriteData bytes).Ended ∧ p + bytes.length = u.length.toNat ∨
        (u.fifoWriteData bytes).Framed (p + bytes.length) ∧
          (u.fifoWriteData bytes).fifoWriteOffset < u.length.toNat ∧
          (u.fifoWriteData bytes).fifoLevel.toNat < 16) := by
  have hfilled := h.filled hlevel hbytes
  have hsound' := hsound.filled h hlevel hbytes
  have hmoved := moved_filled bytes u
  have hpos := h.pos
  have hsize : 0 < bytes.length := by
    rcases hbytes with hone | ⟨htwo, -⟩ <;> omega
  have hoffset : u.fifoWriteOffset < u.length.toNat := by omega
  rw [fifoWriteData_eq]
  split_ifs with hfull
  · have hsixteen : (u.filled bytes).fifoLevel.toNat = 16 :=
      le_antisymm hfilled.level (BitVec.le_def.mp hfull)
    obtain ⟨hsound'', hmoved', hout⟩ := flushLoop_spec 4 hsound' (happart.moved hmoved) hfilled hp
      hoffset (.inl hsixteen.ge)
    refine ⟨hsound'', hmoved.trans hmoved', hout.imp id fun hframed => ⟨hframed.1, hframed.2.1, ?_⟩⟩
    have hrest := hframed.2.2
    change ((u.filled bytes).flushLoop 4).fifoLevel.toNat < 16
    omega
  · exact ⟨hsound', hmoved, .inr ⟨hfilled, hoffset, BitVec.lt_def.mp (BitVec.not_le.mp hfull)⟩⟩

/-! ## The end of a pass -/

/-- What is left in the FIFO is stored, and the destination is full. -/
theorem ended_flushed (hsound : u.Sound) (happart : u.Apart)
    (h : u.Ended ∨ u.Framed u.length.toNat ∧ u.fifoWriteOffset < u.length.toNat ∧
      u.fifoLevel.toNat < 16) :
    let u' := if u.fifoLevel ≥ 4 then u.fifoFlushData else u
    u'.Sound ∧ Moved u u' ∧ u'.Ended := by
  dsimp only
  rcases h with h | ⟨h, hoffset, hlevel⟩
  · have hlow : ¬ u.fifoLevel ≥ 4 := by
      rw [h.level]
      decide
    rw [if_neg hlow]
    exact ⟨hsound, .refl u, h⟩
  · have haligned := hsound.aligned
    have hdvd := h.offset
    have hpos := h.pos
    have hfour : u.fifoLevel ≥ 4 := BitVec.le_def.mpr (by change 4 ≤ _; omega)
    rw [if_pos hfour]
    obtain ⟨hsound', hmoved, hout⟩ :=
      flushLoop_spec 4 hsound happart h le_rfl hoffset (.inr rfl)
    refine ⟨hsound', hmoved, hout.elim (fun hended => hended.1) fun hframed => ?_⟩
    have hrest := hframed.2.2
    omega

/-- The log of a pass that has ended gets one right pass, if it was undisturbed. -/
theorem Sound.passed (hsound : u.Sound) (hended : u.Ended) (running : Bool)
    (hstop : u.oneShot = true → running = false) :
    ∀ p ∈ (passLog (u.log ++ [.passed u.dstAddr u.length u.oneShot running])).finished,
      p.Right := by
  rw [passLog_concat]
  intro p hp
  rcases List.mem_append.mp hp with hp | hp
  · exact hsound.finished p hp
  · obtain ⟨⟨bytes, stores⟩, hcurrent, rfl⟩ := List.mem_map.mp hp
    obtain ⟨hlen, hstores⟩ := hended.current _ _ (Option.mem_toList.mp hcurrent)
    exact ⟨hlen, hstores, hstop⟩

theorem events_concat (hsound : u.Sound) {e : CaptureEvent} (h : e.Safe) :
    ∀ e' ∈ u.log ++ [e], e'.Safe := by
  intro e' he
  rcases List.mem_append.mp he with he | he
  · exact hsound.events e' he
  · rw [List.mem_singleton.mp he]
    exact h

/-- A pass begins with an empty FIFO. -/
theorem framed_fresh (hoffset : u.fifoWriteOffset = 0) (hread : u.fifoReadPos < 4)
    (hlevel : u.fifoLevel = 0) (hwrite : u.fifoWritePos = 4 * u.fifoReadPos % 16)
    (hcurrent : (passLog u.log).current = some ([], [])) : u.Framed 0 := by
  have hzero : u.fifoLevel.toNat = 0 := by
    rw [hlevel]
    rfl
  refine ⟨by rw [hoffset]; exact Nat.dvd_zero 4, hread, by omega, by omega, ?_, ?_⟩
  · rw [hzero, hwrite, Nat.add_zero]
  · intro bytes stores hsome
    rw [hcurrent] at hsome
    obtain ⟨rfl, rfl⟩ := Prod.mk.inj (Option.some.inj hsome)
    refine ⟨rfl, ?_, ?_⟩
    · rw [List.take_nil]
      rfl
    · rw [hzero, List.drop_nil, window_zero]

/-! ## A sample -/

/-- A running unit whose next sample falls inside the destination. -/
structure Capturing (eight : Bool) (u : SPUCaptureUnit) : Prop where
  sound : u.Sound
  apart : u.Apart
  framed : u.Framed u.pos
  level : u.fifoLevel.toNat < 16
  inside : u.pos < u.length.toNat
  even : eight = false → u.pos % 2 = 0

/-- What holds after every operation of a run. -/
structure Kept (u : SPUCaptureUnit) : Prop where
  sound : u.Sound
  level : u.fifoLevel.toNat < 16
  framed : u.running = true → u.Framed u.pos

theorem Capturing.kept {eight : Bool} (h : Capturing eight u) : u.Kept :=
  ⟨h.sound, h.level, fun _ => h.framed⟩

theorem fitting_sampleBytes {eight : Bool} (h : Capturing eight u) (sample : S32) :
    Fitting u.pos (sampleBytes eight sample) ∧
      u.pos + (sampleBytes eight sample).length ≤ u.length.toNat := by
  have hinside := h.inside
  have haligned := h.sound.aligned
  cases eight with
  | true => exact ⟨.inl rfl, hinside⟩
  | false =>
    have heven := h.even rfl
    refine ⟨.inr ⟨rfl, heven⟩, ?_⟩
    change u.pos + 2 ≤ _
    omega

theorem endPass_spec (hsound : u.Sound) (happart : u.Apart) (hlength : 0 < u.length.toNat)
    (h : u.Ended ∨ u.Framed u.length.toNat ∧ u.fifoWriteOffset < u.length.toNat ∧
      u.fifoLevel.toNat < 16) (eight : Bool) :
    (u.endPass.1 = true → u.endPass.2.Kept) ∧
      (u.endPass.1 = false → Capturing eight u.endPass.2) := by
  obtain ⟨hsound', hmoved, hended⟩ := ended_flushed hsound happart h
  rw [endPass]
  generalize (if u.fifoLevel ≥ 4 then u.fifoFlushData else u) = v at hsound' hmoved hended ⊢
  have hlevel : v.fifoLevel.toNat = 0 := by
    rw [hended.level]
    rfl
  dsimp only
  split_ifs with hshot
  · -- the one-shot capture stops
    have hbits : (v.cnt &&& 0x7F).getLsbD 7 = false := by
      rw [BitVec.getLsbD_and]
      exact Bool.and_false _
    have hkept : ({ v with cnt := v.cnt &&& 0x7F } : SPUCaptureUnit).oneShot = true := by
      rw [oneShot, BitVec.getLsbD_and]
      rw [oneShot] at hshot
      rw [hshot]
      rfl
    refine ⟨fun _ => ⟨?_, ?_, ?_⟩, fun hfalse => hfalse.elim⟩
    · refine ⟨hsound'.dst, hsound'.aligned, hsound'.short, events_concat hsound' trivial, ?_⟩
      have hpassed := hsound'.passed hended false fun _ => rfl
      rw [hshot] at hpassed
      change ∀ p ∈ (passLog (v.log ++ [.passed v.dstAddr v.length
        ({ v with cnt := v.cnt &&& 0x7F } : SPUCaptureUnit).oneShot
          ((v.cnt &&& 0x7F).getLsbD 7)])).finished, p.Right
      rw [hkept, hbits]
      exact hpassed
    · change v.fifoLevel.toNat < 16
      omega
    · intro hrunning
      exact absurd (hbits.symm.trans hrunning) (by decide)
  · refine ⟨fun htrue => htrue.elim, fun _ => ⟨?_, ?_, ?_, ?_, ?_, fun _ => rfl⟩⟩
    · refine ⟨hsound'.dst, hsound'.aligned, hsound'.short, events_concat hsound' trivial, ?_⟩
      exact hsound'.passed hended _ fun hone => absurd hone hshot
    · exact (happart.moved hmoved : Apart v)
    · refine framed_fresh hended.offset hended.read hended.level hended.write ?_
      change (passLog (v.log ++ [_])).current = _
      rw [passLog_concat]
      rfl
    · change v.fifoLevel.toNat < 16
      omega
    · change 0 < v.length.toNat
      rw [hmoved.length]
      exact hlength

/-- A sample inside the destination leaves room for the next, or ends the pass. -/
theorem captureSample_spec {eight : Bool} (h : Capturing eight u) (sample : S32) :
    ((captureSample eight sample u).1 = true → (captureSample eight sample u).2.Kept) ∧
      ((captureSample eight sample u).1 = false →
        Capturing eight (captureSample eight sample u).2) := by
  obtain ⟨hfitting, hroom⟩ := fitting_sampleBytes h sample
  obtain ⟨hsound, hmoved, hout⟩ :=
    fifoWriteData_spec h.sound h.apart h.framed h.level hfitting hroom
  have heven (height : eight = false) : (sampleBytes eight sample).length = 2 := by
    rw [height]
    rfl
  have hparity := h.even
  have hinside := h.inside
  rw [captureSample]
  generalize sampleBytes eight sample = bytes at hfitting hroom hsound hmoved hout heven ⊢
  dsimp only
  generalize u.fifoWriteData bytes = v at hsound hmoved hout ⊢
  have hmoved' : Moved { u with pos := u.pos + bytes.length }
      { v with pos := v.pos + bytes.length } :=
    ⟨hmoved.num, hmoved.cnt, hmoved.dstAddr, hmoved.length,
      congrArg (· + bytes.length) hmoved.pos⟩
  have hsound' : Sound { v with pos := v.pos + bytes.length } :=
    ⟨hsound.dst, hsound.aligned, hsound.short, hsound.events, hsound.finished⟩
  have happart : Apart { v with pos := v.pos + bytes.length } :=
    (h.apart.moved hmoved : Apart v)
  have hframed (q : ℕ) (hv : v.Framed q) : Framed { v with pos := v.pos + bytes.length } q :=
    ⟨hv.offset, hv.read, hv.level, hv.pos, hv.write, hv.current⟩
  have hposv := hmoved.pos
  have hlengthv : v.length.toNat = u.length.toNat := congrArg BitVec.toNat hmoved.length
  split_ifs with hend
  · have hend : v.pos + bytes.length ≥ v.length.toNat := hend
    have hwhole : u.pos + bytes.length = v.length.toNat := by omega
    refine endPass_spec hsound' happart (by change 0 < v.length.toNat; omega) ?_ eight
    rcases hout with ⟨hended, -⟩ | ⟨hv, hoffset, hlevel⟩
    · exact .inl ⟨hended.offset, hended.read, hended.level, hended.write, hended.current⟩
    · refine .inr ⟨?_, ?_, hlevel⟩
      · change Framed _ v.length.toNat
        rw [← hwhole]
        exact hframed _ hv
      · change v.fifoWriteOffset < v.length.toNat
        omega
  · have hend : ¬ v.pos + bytes.length ≥ v.length.toNat := hend
    refine ⟨fun htrue => htrue.elim, fun _ => ?_⟩
    rcases hout with ⟨-, hfull⟩ | ⟨hv, hoffset, hlevel⟩
    · omega
    · refine ⟨hsound', happart, ?_, hlevel, not_le.mp hend, fun height => ?_⟩
      · have hnext := hframed _ hv
        rw [← hposv] at hnext
        exact hnext
      · have htwo := heven height
        have heven' := hparity height
        change (v.pos + bytes.length) % 2 = 0
        omega

theorem Capturing.timer {eight : Bool} (h : Capturing eight u) (timer : U32) :
    Capturing eight { u with timer := timer } :=
  ⟨⟨h.sound.dst, h.sound.aligned, h.sound.short, h.sound.events, h.sound.finished⟩, h.apart,
    ⟨h.framed.offset, h.framed.read, h.framed.level, h.framed.pos, h.framed.write,
      h.framed.current⟩, h.level, h.inside, h.even⟩

theorem kept_runLoop {eight : Bool} (h : Capturing eight u) (sample : S32) (rounds : ℕ) :
    (runLoop eight sample rounds u).Kept := by
  induction rounds generalizing u with
  | zero => exact h.kept
  | succ rounds ih =>
    rw [runLoop]
    split_ifs with htimer
    · exact h.kept
    · obtain ⟨hstopped, hgoing⟩ :=
        captureSample_spec (h.timer (u.timerReload.setWidth 32 + (u.timer - 0x10000))) sample
      rw [reloadTimer]
      generalize captureSample eight sample _ = r at hstopped hgoing ⊢
      obtain ⟨stopped, v⟩ := r
      cases stopped with
      | true => exact hstopped rfl
      | false => exact ih (hgoing rfl)

/-! ## Register writes -/

theorem noteChange_eq (old u : SPUCaptureUnit) :
    (u.cnt = old.cnt ∧ u.dstAddr = old.dstAddr ∧ u.length = old.length ∧ noteChange old u = u) ∨
      noteChange old u = u.note .changed := by
  rw [noteChange]
  split_ifs with h
  · exact .inl ⟨h.1, h.2.1, h.2.2, rfl⟩
  · exact .inr rfl

/-- The position and the FIFO are the same. -/
structure SameFIFO (u u' : SPUCaptureUnit) : Prop where
  pos : u'.pos = u.pos
  fifo : u'.fifo = u.fifo
  readPos : u'.fifoReadPos = u.fifoReadPos
  writePos : u'.fifoWritePos = u.fifoWritePos
  offset : u'.fifoWriteOffset = u.fifoWriteOffset
  level : u'.fifoLevel = u.fifoLevel

/-- A pass that is still undisturbed has its old destination. -/
theorem Framed.sameFIFO (h : u.Framed p) (hsame : SameFIFO u u')
    (hcurrent : ∀ c, (passLog u'.log).current = some c →
      (passLog u.log).current = some c ∧ u'.dstAddr = u.dstAddr) : u'.Framed p := by
  refine ⟨?_, ?_, ?_, ?_, ?_, ?_⟩
  · rw [hsame.offset]
    exact h.offset
  · rw [hsame.readPos]
    exact h.read
  · rw [hsame.level]
    exact h.level
  · rw [hsame.offset, hsame.level]
    exact h.pos
  · rw [hsame.writePos, hsame.readPos, hsame.level]
    exact h.write
  · intro bytes stores hsome
    obtain ⟨hold, hdstAddr⟩ := hcurrent _ hsome
    rw [hdstAddr, hsame.offset, hsame.fifo, hsame.readPos, hsame.level]
    exact h.current bytes stores hold

/-- A register write keeps the FIFO in step, and disturbs the pass if it changes something. -/
theorem Kept.rewrite (h : u.Kept) (hsame : SameFIFO u u') (hlog : u'.log = u.log)
    (hdst : u'.dstAddr.toNat ≤ 0x07FFFFFC) (haligned : 4 ∣ u'.length.toNat)
    (hshort : u'.length.toNat ≤ 0x3FFFC) (hrunning : u'.running = true → u.running = true) :
    (noteChange u u').Kept := by
  have hlevel : u'.fifoLevel.toNat < 16 := (congrArg BitVec.toNat hsame.level).trans_lt h.level
  rcases noteChange_eq u u' with ⟨-, hdstAddr, -, heq⟩ | heq
  · rw [heq]
    refine ⟨⟨hdst, haligned, hshort, ?_, ?_⟩, hlevel, fun hrun => ?_⟩
    · rw [hlog]
      exact h.sound.events
    · rw [hlog]
      exact h.sound.finished
    · rw [hsame.pos]
      refine (h.framed (hrunning hrun)).sameFIFO hsame fun c hc => ⟨?_, hdstAddr⟩
      rw [← hlog]
      exact hc
  · rw [heq]
    have hchanged : (u'.note .changed).log = u.log ++ [.changed] := congrArg (· ++ _) hlog
    refine ⟨⟨hdst, haligned, hshort, ?_, ?_⟩, hlevel, fun hrun => ?_⟩
    · rw [hchanged]
      exact events_concat h.sound trivial
    · rw [hchanged, passLog_concat]
      exact h.sound.finished
    · have hframed := h.framed (hrunning hrun)
      rw [← hsame.pos] at hframed
      refine hframed.sameFIFO
        ⟨hsame.pos, hsame.fifo, hsame.readPos, hsame.writePos, hsame.offset, hsame.level⟩ ?_
      intro c hc
      rw [hchanged, passLog_concat] at hc
      exact absurd hc.symm (Option.some_ne_none c)

theorem Kept.setDstAddr (h : u.Kept) (val : U32) : (u.setDstAddr val).Kept := by
  refine h.rewrite ⟨rfl, rfl, rfl, rfl, rfl, rfl⟩ rfl ?_ h.sound.aligned h.sound.short id
  change (val &&& 0x07FFFFFC).toNat ≤ 0x07FFFFFC
  rw [BitVec.toNat_and]
  exact Nat.and_le_right

theorem Kept.setLength (h : u.Kept) (val : U16) : (u.setLength (val.setWidth 32)).Kept := by
  have hval := val.isLt
  have hshift : ((val.setWidth 32) <<< 2 : U32).toNat = val.toNat * 4 := by
    rw [BitVec.toNat_shiftLeft, BitVec.toNat_setWidth, Nat.shiftLeft_eq]
    omega
  refine h.rewrite ⟨rfl, rfl, rfl, rfl, rfl, rfl⟩ rfl h.sound.dst ?_ ?_ id
  · dsimp only
    split_ifs
    · exact ⟨1, rfl⟩
    · rw [hshift]
      exact ⟨val.toNat, Nat.mul_comm _ _⟩
  · dsimp only
    split_ifs
    · decide
    · rw [hshift]
      omega

theorem Kept.setTimerReload (h : u.Kept) (val : U16) : (u.setTimerReload val).Kept :=
  ⟨⟨h.sound.dst, h.sound.aligned, h.sound.short, h.sound.events, h.sound.finished⟩, h.level,
    fun hrun => (h.framed hrun).sameFIFO ⟨rfl, rfl, rfl, rfl, rfl, rfl⟩ fun _ hc => ⟨hc, rfl⟩⟩

theorem running_cntBits (val : U8) : (cntBits val).getLsbD 7 = val.getLsbD 7 := by
  rw [cntBits]
  split_ifs
  · rw [BitVec.getLsbD_and, BitVec.getLsbD_and]
    simp
  · rw [BitVec.getLsbD_and]
    simp

theorem Kept.start (h : u.Kept) (cnt : U8) : Kept { u.start with cnt := cnt } := by
  refine ⟨⟨h.sound.dst, h.sound.aligned, h.sound.short, events_concat h.sound trivial, ?_⟩,
    Nat.succ_pos 15, fun _ => ?_⟩
  · change ∀ p ∈ (passLog (u.log ++ [.start])).finished, p.Right
    rw [passLog_concat]
    exact h.sound.finished
  · refine framed_fresh rfl (Nat.succ_pos 3) rfl rfl ?_
    change (passLog (u.log ++ [.start])).current = _
    rw [passLog_concat]
    rfl

theorem Kept.setCnt (h : u.Kept) (val : U8) : (u.setCnt val).Kept := by
  rw [SPUCaptureUnit.setCnt]
  split_ifs with hstart
  · exact h.start _
  · refine h.rewrite ⟨rfl, rfl, rfl, rfl, rfl, rfl⟩ rfl h.sound.dst h.sound.aligned h.sound.short
      fun hrun => ?_
    have hval : val.getLsbD 7 = true := (running_cntBits val).symm.trans hrun
    rw [hval, Bool.true_and, Bool.not_eq_true', Bool.not_eq_false] at hstart
    exact hstart

/-! ## Runs -/

theorem kept_initial (num : Fin 2) : (initial num).Kept :=
  ⟨⟨Nat.zero_le _, ⟨0, rfl⟩, Nat.zero_le _, fun _ he => absurd he List.not_mem_nil,
    fun _ hp => absurd hp List.not_mem_nil⟩, Nat.succ_pos 15,
    fun hrun => absurd (show (0 : U8).getLsbD 7 = true from hrun) (by decide)⟩

end SPUCaptureUnit

/-- If a `Run` captures anything, its first sample falls inside the destination, two bytes start
at an even position, and no store reaches the registers of the unit. -/
def CaptureOp.Proper (u : SPUCaptureUnit) : CaptureOp → Prop
  | .run cycles _ =>
    u.running = true ∧ 0x10000 ≤ (u.timer + cycles).toNat →
      u.pos < u.length.toNat ∧ (u.eightBit = false → u.pos % 2 = 0) ∧ u.Apart
  | _ => True

instance (u : SPUCaptureUnit) (op : CaptureOp) : Decidable (op.Proper u) :=
  match op with
  | .run _ _ => inferInstanceAs (Decidable (_ ∧ _ → _ ∧ _ ∧ _))
  | .setCnt _ | .setDstAddr _ | .setTimerReload _ | .setLength _ => .isTrue trivial

/-- Every operation of the run is proper where it is made. -/
def ProperRun : SPUCaptureUnit → List CaptureOp → Prop
  | _, [] => True
  | u, op :: ops => op.Proper u ∧ ProperRun (op.apply u) ops

instance decidableProperRun : (u : SPUCaptureUnit) → (ops : List CaptureOp) →
    Decidable (ProperRun u ops)
  | _, [] => .isTrue trivial
  | u, op :: ops =>
    have := decidableProperRun (op.apply u) ops
    inferInstanceAs (Decidable (_ ∧ _))

namespace SPUCaptureUnit
variable {u u' : SPUCaptureUnit}

theorem Kept.run (h : u.Kept) (hrunning : u.running = true) {cycles : U32} {sample : S32}
    (hproper : CaptureOp.Proper u (.run cycles sample)) : (u.run cycles sample).Kept := by
  have htimed : Kept { u with timer := u.timer + cycles } :=
    ⟨⟨h.sound.dst, h.sound.aligned, h.sound.short, h.sound.events, h.sound.finished⟩, h.level,
      fun hrun => (h.framed hrun).sameFIFO ⟨rfl, rfl, rfl, rfl, rfl, rfl⟩ fun _ hc => ⟨hc, rfl⟩⟩
  rw [SPUCaptureUnit.run]
  dsimp only
  by_cases hcaptures : 0x10000 ≤ (u.timer + cycles).toNat
  · obtain ⟨hinside, heven, happart⟩ := hproper ⟨hrunning, hcaptures⟩
    have hcapturing : Capturing u.eightBit u :=
      ⟨h.sound, happart, h.framed hrunning, h.level, hinside, heven⟩
    exact kept_runLoop (hcapturing.timer _) sample _
  · have hrounds : (u.timer + cycles).toNat - 0xFFFF = 0 := by omega
    rw [hrounds]
    exact htimed

theorem Kept.apply (h : u.Kept) {op : CaptureOp} (hop : op.Proper u) : (op.apply u).Kept := by
  cases op with
  | setCnt val => exact h.setCnt val
  | setDstAddr val => exact h.setDstAddr val
  | setTimerReload val => exact h.setTimerReload val
  | setLength val => exact h.setLength val
  | run cycles sample =>
    rw [CaptureOp.apply]
    split_ifs with hrunning
    · exact h.run hrunning hop
    · exact h

theorem Kept.foldl (h : u.Kept) {ops : List CaptureOp} (hops : ProperRun u ops) :
    (ops.foldl CaptureOp.apply u).Kept := by
  induction ops generalizing u with
  | nil => exact h
  | cons op ops ih => exact ih (h.apply hops.1) hops.2

end SPUCaptureUnit

/-- In every proper run of a capture unit the FIFO is never written outside its array nor holds
more than sixteen bytes, a word is taken only where there are four, every store is inside the
destination, and an undisturbed pass stores just its samples and ends a one-shot capture. -/
theorem capture_safe (num : Fin 2) (ops : List CaptureOp)
    (hops : ProperRun (.initial num) ops) :
    let u := ops.foldl CaptureOp.apply (.initial num)
    (∀ e ∈ u.log, e.Safe) ∧ u.fifoLevel.toNat ≤ 16 ∧ ∀ p ∈ (passLog u.log).finished, p.Right := by
  have h := (SPUCaptureUnit.kept_initial num).foldl hops
  exact ⟨h.sound.events, h.level.le, h.sound.finished⟩

/-- Two passes of four bytes, and a one-shot capture of two samples of two bytes. -/
def threePasses : List CaptureOp :=
  [.setDstAddr 0x02000000, .setLength 1, .setTimerReload 0xFFFF, .setCnt 0x88, .run 8 0x4200,
    .setCnt 0, .setCnt 0x84, .run 3 0x1234]

theorem capture_safe_threePasses :
    let u := threePasses.foldl CaptureOp.apply (.initial 0)
    (∀ e ∈ u.log, e.Safe) ∧ u.fifoLevel.toNat ≤ 16 ∧ ∀ p ∈ (passLog u.log).finished, p.Right :=
  capture_safe 0 threePasses (by decide +kernel)

/-- Fifteen samples of one byte, and then one of two. -/
def oddSwitch : List CaptureOp :=
  [.setDstAddr 0x02000000, .setLength 6, .setTimerReload 0xFFFF, .setCnt 0x88, .run 15 0,
    .setCnt 0x80, .run 1 0x1234]

theorem fifo_overrun :
    ¬ ∀ e ∈ (oddSwitch.foldl CaptureOp.apply (.initial 0)).log, e.Safe := by
  intro h
  have hmem : CaptureEvent.put 15 [0x34, 0x12] 17 ∈
      (oddSwitch.foldl CaptureOp.apply (.initial 0)).log := by decide +kernel
  exact absurd (h _ hmem).1 (by decide)

end MelonDS.SPU
