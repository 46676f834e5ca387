import Mathlib.Tactic.Ring
import MelonDS.SPU.Capture

/-!
# The FIFO within a pass

While a capture runs, the position is the offset of the next store plus the level of the FIFO.
As long as a sample ends inside the destination and two bytes start at an even position, the
FIFO holds what the pass has captured and not stored, and a pass ends with the FIFO empty.
-/

namespace MelonDS.SPU
open Cyclic

/-! ## The log -/

theorem passLog_concat (log : List CaptureEvent) (e : CaptureEvent) :
    passLog (log ++ [e]) = (passLog log).note e := by
  rw [passLog, List.foldl_append]
  rfl

theorem wordsAt_take {bytes : List U8} {n : ℕ} (hn : 4 ∣ n) (hlen : n + 4 ≤ bytes.length)
    (dstAddr : U32) :
    wordsAt dstAddr (bytes.take (n + 4)) = wordsAt dstAddr (bytes.take n) ++
      [(dstAddr + BitVec.ofNat 32 n, SPUCaptureUnit.word ((bytes.drop n).take 4))] := by
  obtain ⟨k, rfl⟩ := hn
  have htake (m : ℕ) (hm : m ≤ bytes.length) : (bytes.take m).length = m := by
    rw [List.length_take]
    omega
  have hcount : (4 * k + 4) / 4 = k + 1 := by omega
  have hbefore : 4 * k / 4 = k := by omega
  rw [wordsAt, wordsAt, htake _ hlen, htake _ (by omega), hcount, hbefore, List.range_succ,
    List.map_append]
  congr 1
  · refine List.map_congr_left fun i hi => ?_
    have hi : i < k := List.mem_range.mp hi
    rw [field_take (by omega), field_take (by omega)]
  · rw [List.map_singleton, field_take (by omega)]
    rfl

namespace SPUCaptureUnit
variable {u u' : SPUCaptureUnit} {p : ℕ}

/-! ## Invariants -/

/-- The registers have the values they can be given, and all that has happened was right. -/
structure Sound (u : SPUCaptureUnit) : Prop where
  dst : u.dstAddr.toNat ≤ 0x07FFFFFC
  aligned : 4 ∣ u.length.toNat
  short : u.length.toNat ≤ 0x3FFFC
  events : ∀ e ∈ u.log, e.Safe
  finished : ∀ p ∈ (passLog u.log).finished, p.Right

/-- `p` bytes of the pass have been captured: the FIFO holds those behind the offset. -/
structure Framed (u : SPUCaptureUnit) (p : ℕ) : Prop where
  offset : 4 ∣ u.fifoWriteOffset
  read : u.fifoReadPos < 4
  level : u.fifoLevel.toNat ≤ 16
  pos : u.fifoWriteOffset + u.fifoLevel.toNat = p
  write : u.fifoWritePos = (4 * u.fifoReadPos + u.fifoLevel.toNat) % 16
  current : ∀ bytes stores, (passLog u.log).current = some (bytes, stores) →
    bytes.length = p ∧ stores = wordsAt u.dstAddr (bytes.take u.fifoWriteOffset) ∧
      window u.fifo (4 * u.fifoReadPos) u.fifoLevel.toNat = bytes.drop u.fifoWriteOffset

/-- All of the destination has been stored. -/
structure Ended (u : SPUCaptureUnit) : Prop where
  offset : u.fifoWriteOffset = 0
  read : u.fifoReadPos < 4
  level : u.fifoLevel = 0
  write : u.fifoWritePos = 4 * u.fifoReadPos % 16
  current : ∀ bytes stores, (passLog u.log).current = some (bytes, stores) →
    bytes.length = u.length.toNat ∧ stores = wordsAt u.dstAddr bytes

/-- The destination does not cover the address. -/
def Outside (u : SPUCaptureUnit) (addr : U32) : Prop :=
  addr.toNat < u.dstAddr.toNat ∨ u.dstAddr.toNat + u.length.toNat ≤ addr.toNat

/-- The destination does not cover the control, destination or length register of the unit. -/
def Apart (u : SPUCaptureUnit) : Prop :=
  u.Outside 0x04000508 ∧ u.Outside (u.ownAddr 0x04000510 8) ∧ u.Outside (u.ownAddr 0x04000514 8)

instance (u : SPUCaptureUnit) (addr : U32) : Decidable (u.Outside addr) :=
  inferInstanceAs (Decidable (_ ∨ _))

instance (u : SPUCaptureUnit) : Decidable u.Apart :=
  inferInstanceAs (Decidable (_ ∧ _ ∧ _))

/-- A step of the FIFO leaves the registers and the position alone. -/
structure Moved (u u' : SPUCaptureUnit) : Prop where
  num : u'.num = u.num
  cnt : u'.cnt = u.cnt
  dstAddr : u'.dstAddr = u.dstAddr
  length : u'.length = u.length
  pos : u'.pos = u.pos

theorem Moved.refl (u : SPUCaptureUnit) : Moved u u := ⟨rfl, rfl, rfl, rfl, rfl⟩

theorem Moved.trans {u'' : SPUCaptureUnit} (h : Moved u u') (h' : Moved u' u'') : Moved u u'' :=
  ⟨h'.num.trans h.num, h'.cnt.trans h.cnt, h'.dstAddr.trans h.dstAddr, h'.length.trans h.length,
    h'.pos.trans h.pos⟩

theorem Apart.moved (h : u.Apart) (hmoved : Moved u u') : u'.Apart := by
  rw [Apart, Outside, Outside, Outside, ownAddr, ownAddr, hmoved.num, hmoved.dstAddr,
    hmoved.length]
  exact h

/-! ## Stores -/

/-- A store inside a destination apart from the registers reaches at most the timer. -/
theorem arm7Write32_apart (addr val : U32) (h : u.Apart)
    (hlow : u.dstAddr.toNat ≤ addr.toNat) (hhigh : addr.toNat < u.dstAddr.toNat + u.length.toNat) :
    ∃ reload, u.arm7Write32 addr val = { u with timerReload := reload } := by
  have hne (a : U32) (ha : u.Outside a) : addr ≠ a := by
    rintro rfl
    rcases ha with hout | hout <;> omega
  rw [arm7Write32, if_neg (hne _ h.1), if_neg (hne _ h.2.1), if_neg (hne _ h.2.2)]
  split_ifs
  · exact ⟨_, rfl⟩
  · exact ⟨u.timerReload, rfl⟩

theorem toNat_address (hdst : u.dstAddr.toNat ≤ 0x07FFFFFC) (hshort : u.length.toNat ≤ 0x3FFFC)
    {n : ℕ} (hn : n < u.length.toNat) :
    (u.dstAddr + BitVec.ofNat 32 n).toNat = u.dstAddr.toNat + n := by
  rw [BitVec.toNat_add, BitVec.toNat_ofNat]
  omega

theorem toNat_sub_four {x : U32} (h : 4 ≤ x.toNat) : (x - 4).toNat = x.toNat - 4 := by
  have hle : (4 : U32) ≤ x := BitVec.le_def.mpr h
  rw [BitVec.toNat_sub_of_le hle]
  rfl

/-- A word is taken from the FIFO and stored. -/
theorem flushWord_eq (hsound : u.Sound) (happart : u.Apart)
    (hoffset : u.fifoWriteOffset < u.length.toNat) :
    ∃ reload, u.flushWord =
      { u with
        timerReload := reload
        log := u.log ++ [.store u.dstAddr u.length (u.dstAddr + BitVec.ofNat 32 u.fifoWriteOffset)
          u.fifoWord u.fifoLevel]
        fifoReadPos := (u.fifoReadPos + 1) % 4
        fifoLevel := u.fifoLevel - 4
        fifoWriteOffset := u.fifoWriteOffset + 4 } := by
  have haddr := toNat_address hsound.dst hsound.short hoffset
  have hmoved : Moved u (u.note (.store u.dstAddr u.length
      (u.dstAddr + BitVec.ofNat 32 u.fifoWriteOffset) u.fifoWord u.fifoLevel)) :=
    ⟨rfl, rfl, rfl, rfl, rfl⟩
  obtain ⟨reload, hstore⟩ := arm7Write32_apart (u.dstAddr + BitVec.ofNat 32 u.fifoWriteOffset) u.fifoWord
    (happart.moved hmoved)
    (by rw [haddr]; exact Nat.le_add_right _ _) (by rw [haddr]; exact Nat.add_lt_add_left hoffset _)
  refine ⟨reload, ?_⟩
  rw [flushWord, hstore]
  rfl

theorem moved_flushWord (hsound : u.Sound) (happart : u.Apart)
    (hoffset : u.fifoWriteOffset < u.length.toNat) : Moved u u.flushWord := by
  obtain ⟨reload, heq⟩ := flushWord_eq hsound happart hoffset
  rw [heq]
  exact ⟨rfl, rfl, rfl, rfl, rfl⟩

theorem Sound.flushWord (h : u.Sound) (happart : u.Apart) {p : ℕ} (hframed : u.Framed p)
    (hoffset : u.fifoWriteOffset < u.length.toNat) (hlevel : 4 ≤ u.fifoLevel.toNat) :
    u.flushWord.Sound := by
  obtain ⟨reload, heq⟩ := flushWord_eq h happart hoffset
  have haddr := toNat_address h.dst h.short hoffset
  have hdvd := h.aligned
  have hoff := hframed.offset
  rw [heq]
  refine ⟨h.dst, h.aligned, h.short, ?_, ?_⟩
  · intro e he
    rcases List.mem_append.mp he with he | he
    · exact h.events e he
    · rw [List.mem_singleton.mp he]
      refine ⟨?_, ?_, hlevel, hframed.level⟩ <;> rw [haddr] <;> omega
  · dsimp only
    rw [passLog_concat]
    exact h.finished

theorem Framed.flushWord (h : u.Framed p) (hsound : u.Sound) (happart : u.Apart)
    (hoffset : u.fifoWriteOffset < u.length.toNat) (hlevel : 4 ≤ u.fifoLevel.toNat) :
    u.flushWord.Framed p := by
  obtain ⟨reload, heq⟩ := flushWord_eq hsound happart hoffset
  have hsub := toNat_sub_four hlevel
  have hpos := h.pos
  have hwrite := h.write
  have hle := h.level
  rw [heq]
  refine ⟨Nat.dvd_add h.offset ⟨1, rfl⟩, Nat.mod_lt _ (by decide), ?_, ?_, ?_, ?_⟩
  · dsimp only
    omega
  · dsimp only
    omega
  · dsimp only
    rw [hsub]
    omega
  · dsimp only
    intro bytes stores hcurrent
    rw [passLog_concat, PassLog.note] at hcurrent
    obtain ⟨⟨bytes', stores'⟩, hbefore, hafter⟩ := Option.map_eq_some_iff.mp hcurrent
    obtain ⟨rfl, rfl⟩ := Prod.mk.inj hafter
    obtain ⟨hlen, hstores, hwindow⟩ := h.current _ _ hbefore
    have hsplit : window u.fifo (4 * u.fifoReadPos) 4 ++
        window u.fifo (4 * u.fifoReadPos + 4) (u.fifoLevel.toNat - 4) =
          bytes'.drop u.fifoWriteOffset := by
      rw [← hwindow, ← window_add]
      congr 1
      omega
    have hword : u.fifoWord = word ((bytes'.drop u.fifoWriteOffset).take 4) := by
      rw [fifoWord, ← hsplit, List.take_left' (window_length _ _ _)]
    refine ⟨hlen, ?_, ?_⟩
    · dsimp only
      rw [hstores, hword, wordsAt_take h.offset (by omega)]
    · rw [hsub, ← List.drop_drop, ← hsplit, List.drop_left' (window_length _ _ _)]
      refine window_congr _ ?_ _
      omega

/-- A flush stores whole words up to the end of the destination, or as many as it can. -/
theorem flushLoop_spec (rounds : ℕ) (hsound : u.Sound) (happart : u.Apart) (h : u.Framed p)
    (hp : p ≤ u.length.toNat) (hoffset : u.fifoWriteOffset < u.length.toNat)
    (henough : 4 * rounds ≤ u.fifoLevel.toNat ∨ p = u.length.toNat) :
    (u.flushLoop rounds).Sound ∧ Moved u (u.flushLoop rounds) ∧
      ((u.flushLoop rounds).Ended ∧ p = u.length.toNat ∨
        (u.flushLoop rounds).Framed p ∧
          (u.flushLoop rounds).fifoWriteOffset < u.length.toNat ∧
          (u.flushLoop rounds).fifoLevel.toNat + 4 * rounds = u.fifoLevel.toNat) := by
  induction rounds generalizing u with
  | zero => exact ⟨hsound, .refl u, .inr ⟨h, hoffset, rfl⟩⟩
  | succ rounds ih =>
    have hpos := h.pos
    have hoff := h.offset
    have haligned := hsound.aligned
    have hlevel : 4 ≤ u.fifoLevel.toNat := by omega
    have hsub := toNat_sub_four hlevel
    have hsound' := hsound.flushWord happart h hoffset hlevel
    have hframed := h.flushWord hsound happart hoffset hlevel
    have hmoved := moved_flushWord hsound happart hoffset
    have hvalues : u.flushWord.fifoWriteOffset = u.fifoWriteOffset + 4 ∧
        u.flushWord.fifoLevel = u.fifoLevel - 4 := by
      obtain ⟨reload, heq⟩ := flushWord_eq hsound happart hoffset
      rw [heq]
      exact ⟨rfl, rfl⟩
    rw [flushLoop]
    split_ifs with hend <;> rw [hvalues.1, hmoved.length] at hend
    · -- the offset has reached the end: the FIFO is empty
      have hempty : u.flushWord.fifoLevel.toNat = 0 := by
        rw [hvalues.2, hsub]
        omega
      have hwrite := hframed.write
      rw [hempty, Nat.add_zero] at hwrite
      refine ⟨⟨hsound'.dst, hsound'.aligned, hsound'.short, hsound'.events, hsound'.finished⟩,
        ⟨hmoved.num, hmoved.cnt, hmoved.dstAddr, hmoved.length, hmoved.pos⟩, .inl ⟨?_, by omega⟩⟩
      refine ⟨rfl, hframed.read, BitVec.eq_of_toNat_eq hempty, hwrite, ?_⟩
      intro bytes stores hcurrent
      obtain ⟨hlen, hstores, -⟩ := hframed.current bytes stores hcurrent
      rw [hvalues.1, List.take_of_length_le (by omega)] at hstores
      refine ⟨?_, hstores⟩
      change bytes.length = u.flushWord.length.toNat
      rw [hmoved.length]
      omega
    · have hrest := ih hsound' (happart.moved hmoved) hframed (by rw [hmoved.length]; exact hp)
        (by rw [hvalues.1, hmoved.length]; omega)
        (by rw [hvalues.2, hsub, hmoved.length]; omega)
      obtain ⟨hsound'', hmoved'', hout⟩ := hrest
      refine ⟨hsound'', hmoved.trans hmoved'', ?_⟩
      rw [hmoved.length, hvalues.2, hsub] at hout
      refine hout.imp (fun hended => hended) fun hframed => ⟨hframed.1, hframed.2.1, ?_⟩
      omega

end SPUCaptureUnit
end MelonDS.SPU
