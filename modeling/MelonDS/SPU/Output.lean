import MelonDS.Library.ByteRing
import MelonDS.Library.Queues
import MelonDS.Types

/-!
# The output buffer of the SPU

Mixed samples go to the host through a ring of interleaved stereo samples. Its size is a power
of two, so the cursors wrap by masking, and one frame stays free to tell a full ring from an
empty one. `WriteOutput` moves the reader over the frames it has no room for.
-/

namespace MelonDS.SPU

/-- The left and the right sample. -/
abbrev Frame := S16 × S16

/-- `OutputBufferSize` is a power of two, and its `4 * OutputBufferSize` bytes are counted in 32
bits when the buffer is allocated. -/
structure OutputSize where
  bits : ℕ
  bits_lt : bits < 30

namespace OutputSize

def frames (z : OutputSize) : ℕ := 2 ^ z.bits

def outputBufferSize (z : OutputSize) : U32 := BitVec.ofNat 32 z.frames

def capacity (z : OutputSize) : U32 := 2 * z.outputBufferSize

end OutputSize

structure Output where
  outputBuffer : ℕ → S16
  outputBufferWritePos : U32
  outputBufferReadPos : U32
  outputDroppedFrames : U64

/-- `memcpy` into the buffer. -/
def copyIn (buf : ℕ → S16) (pos : ℕ) (src : List S16) : ℕ → S16 := fun i =>
  if pos ≤ i ∧ i < pos + src.length then src.getD (i - pos) 0 else buf i

/-- `memcpy` out of the buffer. -/
def copyOut (buf : ℕ → S16) (pos len : ℕ) : List S16 :=
  (List.range len).map fun i => buf (pos + i)

def interleave (frames : List Frame) : List S16 := frames.flatMap fun f => [f.1, f.2]

namespace Output

variable (z : OutputSize)

def initOutput (dropped : U64) : Output where
  outputBuffer _ := 0
  outputBufferWritePos := 0
  outputBufferReadPos := 0
  outputDroppedFrames := dropped

/-- `(OutputBufferWritePos - OutputBufferReadPos) & mask` -/
def available (s : Output) : U32 :=
  (s.outputBufferWritePos - s.outputBufferReadPos) &&& (z.capacity - 1)

/-- The frames that `avail` more leave no room for. -/
def dropped (avail : ℕ) (s : Output) : U32 :=
  let queued := s.available z / 2
  BitVec.ofInt 32 (max 0 ((avail : ℤ) - (z.outputBufferSize - 1 - queued).toInt))

/-- The samples kept of `count`: at most all but one frame. -/
def retained (count : U32) : U32 :=
  if z.capacity - 2 < count then z.capacity - 2 else count

/-- `std::min(count, capacity - pos)`, what is copied before the end of the buffer. -/
def untilEnd (pos count : U32) : U32 :=
  if z.capacity - pos < count then z.capacity - pos else count

def writeOutput (frames : List Frame) (s : Output) : Output :=
  let temp := interleave frames
  let mask := z.capacity - 1
  let dropped := s.dropped z frames.length
  let count := BitVec.ofNat 32 (2 * frames.length)
  let retained := retained z count
  let skipped := count - retained
  let write := (s.outputBufferWritePos + skipped) &&& mask
  let first := untilEnd z write retained
  let kept := temp.drop skipped.toNat
  let buffer := copyIn s.outputBuffer write.toNat (kept.take first.toNat)
  { outputBuffer :=
      if first < retained then
        copyIn buffer 0 ((kept.drop first.toNat).take (retained - first).toNat)
      else buffer
    outputBufferWritePos := (s.outputBufferWritePos + count) &&& mask
    outputBufferReadPos := (s.outputBufferReadPos + 2 * dropped) &&& mask
    outputDroppedFrames := s.outputDroppedFrames + dropped.setWidth 64 }

def drainOutput (s : Output) : Output :=
  { s with outputBufferReadPos := 0, outputBufferWritePos := 0 }

/-- `std::min<u32>(samples, available / 2)` -/
def readable (samples : U32) (s : Output) : U32 :=
  if s.available z / 2 < samples then s.available z / 2 else samples

/-- The samples copied to `data`, the result and the buffer afterwards. -/
def readOutput (samples : S32) (s : Output) : List S16 × S32 × Output :=
  if s.outputBufferReadPos = s.outputBufferWritePos then ([], 0, s)
  else if 0 < samples.toInt then
    let samples := s.readable z samples
    let count := 2 * samples
    let first := untilEnd z s.outputBufferReadPos count
    let data := copyOut s.outputBuffer s.outputBufferReadPos.toNat first.toNat
    (if first < count then data ++ copyOut s.outputBuffer 0 (count - first).toNat else data,
      samples,
      { s with outputBufferReadPos := (s.outputBufferReadPos + count) &&& (z.capacity - 1) })
  else ([], samples, s)

/-- `GetOutputSize`, the frames still buffered. -/
def getOutputSize (s : Output) : ℕ :=
  (if s.outputBufferReadPos ≤ s.outputBufferWritePos then
    s.outputBufferWritePos - s.outputBufferReadPos
  else 2 * z.outputBufferSize - s.outputBufferReadPos + s.outputBufferWritePos).toNat / 2

end Output

/-! ## Runs -/

/-- What `BufferAudio` hands over at once: twice their number is an `int`. -/
abbrev Block := { frames : List Frame // frames.length < 2 ^ 30 }

inductive OutputOp
  | write (block : Block)
  | read (samples : S32)
  | drain

/-- The buffer, and the samples read so far. -/
structure OutputRun where
  output : Output
  heard : List S16

def OutputRun.step (z : OutputSize) (r : OutputRun) : OutputOp → OutputRun
  | .write block => { r with output := r.output.writeOutput z block.val }
  | .read samples =>
    let result := r.output.readOutput z samples
    ⟨result.2.2, r.heard ++ result.1⟩
  | .drain => { r with output := r.output.drainOutput }

def runOutput (z : OutputSize) (ops : List OutputOp) : OutputRun :=
  ops.foldl (OutputRun.step z) ⟨.initOutput 0, []⟩

/-- The frames written in a run. -/
def written (ops : List OutputOp) : List Frame :=
  ops.flatMap fun
    | .write block => block.val
    | .read _ | .drain => []

/-- What the buffer is for: a queue of frames that drops the oldest. -/
def OutputOp.queued (z : OutputSize) (q : DropOldest Frame) : OutputOp → DropOldest Frame
  | .write block => q.push (z.frames - 1) block.val
  | .read samples => q.take samples.toInt.toNat
  | .drain => q.clear

def queuedRun (z : OutputSize) (ops : List OutputOp) : DropOldest Frame :=
  ops.foldl (OutputOp.queued z) .empty

/-!
## The output buffer is a queue that drops the oldest frames

Both cursors stay even, so the buffer is a ring of whole frames and a copy in two parts never
separates the samples of a frame. `Aligned` gives the cursors in frames. A block longer than the
ring moves both cursors to where its kept part begins, which leaves an empty ring to write into.
-/

open Cyclic

/-! ## Frames in the buffer -/

theorem length_interleave (frames : List Frame) :
    (interleave frames).length = 2 * frames.length := by
  induction frames with
  | nil => rfl
  | cons f frames ih =>
    change (f.1 :: f.2 :: interleave frames).length = _
    simp only [List.length_cons, ih]
    omega

theorem interleave_append (xs ys : List Frame) :
    interleave (xs ++ ys) = interleave xs ++ interleave ys := List.flatMap_append

theorem drop_interleave (frames : List Frame) (n : ℕ) :
    (interleave frames).drop (2 * n) = interleave (frames.drop n) := by
  induction n generalizing frames with
  | zero => rfl
  | succ n ih =>
    cases frames with
    | nil => rfl
    | cons f frames => exact ih frames

theorem take_interleave (frames : List Frame) (n : ℕ) :
    (interleave frames).take (2 * n) = interleave (frames.take n) := by
  induction n generalizing frames with
  | zero => rfl
  | succ n ih =>
    cases frames with
    | nil => rfl
    | cons f frames =>
      have htail := ih frames
      change f.1 :: f.2 :: (interleave frames).take (2 * n) = f.1 :: f.2 :: _
      rw [htail]
      rfl

theorem getD_interleave (frames : List Frame) (i : ℕ) :
    ((interleave frames).getD (2 * i) 0, (interleave frames).getD (2 * i + 1) 0) =
      frames.getD i (0, 0) := by
  induction i generalizing frames with
  | zero => cases frames <;> rfl
  | succ i ih =>
    cases frames with
    | nil => rfl
    | cons f frames => exact ih frames

def frameAt (buf : ℕ → S16) (i : ℕ) : Frame := (buf (2 * i), buf (2 * i + 1))

theorem frameAt_copyIn (buf : ℕ → S16) (p : ℕ) (frames : List Frame) (i : ℕ) :
    frameAt (copyIn buf (2 * p) (interleave frames)) i =
      if p ≤ i ∧ i < p + frames.length then frames.getD (i - p) (0, 0) else frameAt buf i := by
  have heven : (2 * p ≤ 2 * i ∧ 2 * i < 2 * p + 2 * frames.length) ↔
      (p ≤ i ∧ i < p + frames.length) := by omega
  have hodd : (2 * p ≤ 2 * i + 1 ∧ 2 * i + 1 < 2 * p + 2 * frames.length) ↔
      (p ≤ i ∧ i < p + frames.length) := by omega
  have hsub : 2 * i - 2 * p = 2 * (i - p) := by omega
  simp only [frameAt, copyIn, length_interleave, heven, hodd]
  split_ifs with h
  · have hsub' : 2 * i + 1 - 2 * p = 2 * (i - p) + 1 := by omega
    rw [hsub, hsub', ← getD_interleave]
  · rfl

theorem copyOut_frames (buf : ℕ → S16) (p len : ℕ) :
    copyOut buf (2 * p) (2 * len) = interleave ((List.range len).map fun i => frameAt buf (p + i)) := by
  induction len with
  | zero => rfl
  | succ len ih =>
    have hsplit : List.range (2 * (len + 1)) = List.range (2 * len) ++ [2 * len, 2 * len + 1] := by
      rw [Nat.mul_succ, List.range_succ, List.range_succ, List.append_assoc]
      rfl
    rw [List.range_succ, List.map_append, interleave_append, ← ih, copyOut, hsplit, List.map_append]
    have hpos : 2 * p + 2 * len = 2 * (p + len) := by omega
    have hpos' : 2 * p + (2 * len + 1) = 2 * (p + len) + 1 := by omega
    simp only [List.map_cons, List.map_nil, hpos, hpos']
    rfl

/-! ## The cursors in frames -/

namespace OutputSize

variable (z : OutputSize)

instance : NeZero z.frames := ⟨Nat.pos_iff_ne_zero.mp (Nat.two_pow_pos z.bits)⟩

theorem frames_le : z.frames ≤ 2 ^ 29 :=
  Nat.pow_le_pow_right (by decide) (Nat.le_of_lt_succ z.bits_lt)

theorem toNat_outputBufferSize : z.outputBufferSize.toNat = z.frames := by
  have hle := z.frames_le
  rw [outputBufferSize, BitVec.toNat_ofNat, Nat.mod_eq_of_lt (by omega)]

theorem toNat_capacity : z.capacity.toNat = 2 * z.frames := by
  have hle := z.frames_le
  rw [capacity, BitVec.toNat_mul, toNat_outputBufferSize]
  change 2 * z.frames % 2 ^ 32 = _
  omega

theorem two_mul_frames : 2 * z.frames = 2 ^ (z.bits + 1) := (Nat.pow_succ' ..).symm

theorem toNat_mask : (z.capacity - 1).toNat = 2 ^ (z.bits + 1) - 1 := by
  have hle := z.frames_le
  have hpos : 0 < z.frames := Nat.two_pow_pos z.bits
  rw [BitVec.toNat_sub, toNat_capacity, ← two_mul_frames]
  change (2 ^ 32 - 1 + 2 * z.frames) % 2 ^ 32 = _
  omega

/-- Masking takes the remainder by the number of samples. -/
theorem toNat_and_mask (x : U32) : (x &&& (z.capacity - 1)).toNat = x.toNat % (2 * z.frames) := by
  rw [BitVec.toNat_and, toNat_mask, Nat.and_two_pow_sub_one_eq_mod, two_mul_frames]

theorem two_mul_frames_dvd : 2 * z.frames ∣ 2 ^ 32 := by
  rw [two_mul_frames]
  exact Nat.pow_dvd_pow 2 (by have := z.bits_lt; omega)

theorem toNat_advance {x y : U32} {p n : ℕ} (hx : x.toNat = 2 * p) (hy : y.toNat = 2 * n) :
    ((x + y) &&& (z.capacity - 1)).toNat = 2 * ((p + n) % z.frames) := by
  rw [toNat_and_mask, BitVec.toNat_add, Nat.mod_mod_of_dvd _ z.two_mul_frames_dvd, hx, hy,
    ← Nat.mul_add, Nat.mul_mod_mul_left]

end OutputSize

/-- The cursors of the buffer, in frames. -/
structure Aligned (z : OutputSize) (s : Output) (w r : ℕ) : Prop where
  write : s.outputBufferWritePos.toNat = 2 * w
  read : s.outputBufferReadPos.toNat = 2 * r
  write_lt : w < z.frames
  read_lt : r < z.frames

variable {z : OutputSize} {s : Output} {w r : ℕ}

theorem Aligned.available (h : Aligned z s w r) :
    (s.available z).toNat = 2 * ((w + z.frames - r) % z.frames) := by
  have hle := z.frames_le
  have hw := h.write_lt
  have hr := h.read_lt
  obtain ⟨c, hc⟩ := z.two_mul_frames_dvd
  have hsub : (s.outputBufferWritePos - s.outputBufferReadPos).toNat =
      (2 * (w + z.frames - r) + 2 * z.frames * (c - 1)) % 2 ^ 32 := by
    have hpos : 0 < c := by
      rcases Nat.eq_zero_or_pos c with rfl | hpos
      · omega
      · exact hpos
    have hmul : 2 * z.frames * (c - 1) + 2 * z.frames = 2 ^ 32 := by
      rw [hc, ← Nat.mul_succ, Nat.succ_eq_add_one, Nat.sub_add_cancel hpos]
    rw [BitVec.toNat_sub, h.write, h.read]
    congr 1
    omega
  rw [Output.available, z.toNat_and_mask, hsub, Nat.mod_mod_of_dvd _ z.two_mul_frames_dvd,
    Nat.add_mul_mod_self_left, Nat.mul_mod_mul_left]

theorem toNat_half {x : U32} {n : ℕ} (h : x.toNat = 2 * n) : (x / 2).toNat = n := by
  rw [BitVec.toNat_udiv, h]
  exact Nat.mul_div_cancel_left n (by decide)

theorem toNat_double {x : U32} {n : ℕ} (h : x.toNat = n) (hn : n < 2 ^ 31) :
    (2 * x).toNat = 2 * n := by
  rw [BitVec.toNat_mul, h]
  exact Nat.mod_eq_of_lt (by change 2 * n < 2 ^ 32; omega)

theorem Aligned.dropped (h : Aligned z s w r) {avail : ℕ} (havail : avail < 2 ^ 30) :
    (s.dropped z avail).toNat =
      avail - (z.frames - 1 - (w + z.frames - r) % z.frames) := by
  have hle := z.frames_le
  have hqueued : (s.available z / 2).toNat = (w + z.frames - r) % z.frames :=
    toNat_half h.available
  have hlt : (w + z.frames - r) % z.frames < z.frames := Nat.mod_lt _ (Nat.two_pow_pos z.bits)
  have hroom : (z.outputBufferSize - 1 - s.available z / 2).toNat =
      z.frames - 1 - (w + z.frames - r) % z.frames := by
    rw [BitVec.toNat_sub, BitVec.toNat_sub, hqueued, z.toNat_outputBufferSize]
    change (2 ^ 32 - _ + (2 ^ 32 - 1 + z.frames) % 2 ^ 32) % 2 ^ 32 = _
    omega
  have hint : (z.outputBufferSize - 1 - s.available z / 2).toInt =
      ((z.frames - 1 - (w + z.frames - r) % z.frames : ℕ) : ℤ) := by
    rw [BitVec.toInt_eq_toNat_of_lt (by omega), hroom]
  rw [Output.dropped, hint, BitVec.toNat_ofInt]
  omega

theorem toNat_capacity_sub {x : U32} {p : ℕ} (hx : x.toNat = 2 * p) (hp : p ≤ z.frames) :
    (z.capacity - x).toNat = 2 * (z.frames - p) := by
  have hle := z.frames_le
  rw [BitVec.toNat_sub, z.toNat_capacity, hx]
  omega

theorem toNat_retained {count : U32} {n : ℕ} (hcount : count.toNat = 2 * n) :
    (Output.retained z count).toNat = 2 * min n (z.frames - 1) := by
  have hcap : (z.capacity - 2).toNat = 2 * (z.frames - 1) :=
    toNat_capacity_sub rfl (Nat.two_pow_pos z.bits)
  rw [Output.retained]
  split_ifs with hlt
  · rw [BitVec.lt_def, hcap, hcount] at hlt
    omega
  · rw [BitVec.lt_def, hcap, hcount] at hlt
    omega

theorem toNat_untilEnd {pos count : U32} {p n : ℕ} (hpos : pos.toNat = 2 * p)
    (hp : p ≤ z.frames) (hcount : count.toNat = 2 * n) :
    (Output.untilEnd z pos count).toNat = 2 * min n (z.frames - p) := by
  have hcap := toNat_capacity_sub hpos hp
  rw [Output.untilEnd]
  split_ifs with hlt
  · rw [BitVec.lt_def, hcap, hcount] at hlt
    omega
  · rw [BitVec.lt_def, hcap, hcount] at hlt
    omega

/-! ## The ring -/

def ringData (z : OutputSize) (buf : ℕ → S16) : Fin z.frames → Frame := fun i => frameAt buf i

/-- The ring of frames with a write cursor. -/
def ring (z : OutputSize) (buf : ℕ → S16) (w : ℕ) (hw : w < z.frames) : Ring Frame z.frames :=
  ⟨ringData z buf, w, hw⟩

theorem ringData_copyIn (buf : ℕ → S16) {p : ℕ} {frames : List Frame}
    (h : p + frames.length ≤ z.frames) :
    ringData z (copyIn buf (2 * p) (interleave frames)) =
      writeAll (ringData z buf) p frames := by
  funext i
  rw [writeAll_apply _ h (0, 0)]
  exact frameAt_copyIn buf p frames i

/-- A copy in two parts, the second from the start of the buffer. -/
theorem ringData_copies (buf : ℕ → S16) (hw : w < z.frames) {block : List Frame}
    (h : block.length ≤ z.frames) :
    ringData z
        (if z.frames - w < block.length then
          copyIn (copyIn buf (2 * w) (interleave (block.take (z.frames - w)))) (2 * 0)
            (interleave (block.drop (z.frames - w)))
        else copyIn buf (2 * w) (interleave (block.take (z.frames - w)))) =
      ((ring z buf w hw).write block h).data := by
  rw [Ring.write_data]
  change _ = writeAll (ringData z buf) w block
  have htake : (block.take (z.frames - w)).length ≤ z.frames - w := by
    rw [List.length_take]
    omega
  split_ifs with hwrap
  · have hlen : (block.take (z.frames - w)).length = z.frames - w := by
      rw [List.length_take]
      omega
    have hdrop : 0 + (block.drop (z.frames - w)).length ≤ z.frames := by
      rw [List.length_drop]
      omega
    have hzero : 0 % z.frames = (w + (z.frames - w)) % z.frames := by
      rw [Nat.add_sub_cancel' hw.le, Nat.mod_self, Nat.zero_mod]
    rw [ringData_copyIn _ hdrop, ringData_copyIn _ (by omega), writeAll_congr _ hzero]
    conv_rhs => rw [← List.take_append_drop (z.frames - w) block, writeAll_append, hlen]
  · rw [ringData_copyIn _ (by omega), List.take_of_length_le (by omega)]

/-! ## Writing -/

/-- The frames of a block that even an empty ring has no room for. -/
def skipped (z : OutputSize) (frames : List Frame) : ℕ := frames.length - (z.frames - 1)

theorem length_kept (z : OutputSize) (frames : List Frame) :
    (frames.drop (skipped z frames)).length = min frames.length (z.frames - 1) := by
  rw [List.length_drop, skipped]
  omega

theorem Aligned.ringData_writeOutput (h : Aligned z s w r) {frames : List Frame}
    (hlen : frames.length < 2 ^ 30)
    (hw : (w + skipped z frames) % z.frames < z.frames)
    (hblock : (frames.drop (skipped z frames)).length ≤ z.frames) :
    ringData z (s.writeOutput z frames).outputBuffer =
      ((ring z s.outputBuffer ((w + skipped z frames) % z.frames) hw).write
        (frames.drop (skipped z frames)) hblock).data := by
  have hkept := length_kept z frames
  have hcount : (BitVec.ofNat 32 (2 * frames.length)).toNat = 2 * frames.length := by
    rw [BitVec.toNat_ofNat]
    omega
  have hretained := toNat_retained (z := z) hcount
  have hskipped : (BitVec.ofNat 32 (2 * frames.length) -
      Output.retained z (BitVec.ofNat 32 (2 * frames.length))).toNat = 2 * skipped z frames := by
    rw [BitVec.toNat_sub, hcount, hretained, skipped]
    omega
  have hwrite := z.toNat_advance h.write hskipped
  have hfirst := toNat_untilEnd (z := z) hwrite hw.le hretained
  rw [← hkept] at hretained hfirst
  rw [← ringData_copies s.outputBuffer hw hblock]
  simp only [Output.writeOutput, hskipped, hwrite, hfirst, drop_interleave, take_interleave,
    BitVec.lt_def, hretained]
  by_cases hwrap : z.frames - (w + skipped z frames) % z.frames <
      (frames.drop (skipped z frames)).length
  · have hmin : min (frames.drop (skipped z frames)).length
        (z.frames - (w + skipped z frames) % z.frames) =
        z.frames - (w + skipped z frames) % z.frames := Nat.min_eq_right hwrap.le
    rw [if_pos (by omega), if_pos hwrap, hmin]
    congr 2
    rw [List.take_of_length_le]
    rw [length_interleave, List.length_drop, BitVec.toNat_sub, hretained, hfirst]
    omega
  · rw [if_neg (by omega), if_neg hwrap]
    congr 3
    rw [List.take_of_length_le (by omega), List.take_of_length_le (by omega)]

theorem Aligned.writeOutput (h : Aligned z s w r) {frames : List Frame}
    (hlen : frames.length < 2 ^ 30) :
    Aligned z (s.writeOutput z frames) ((w + frames.length) % z.frames)
      ((r + (frames.length - (z.frames - 1 - (w + z.frames - r) % z.frames))) % z.frames) := by
  have hcount : (BitVec.ofNat 32 (2 * frames.length)).toNat = 2 * frames.length := by
    rw [BitVec.toNat_ofNat]
    omega
  have hdropped := h.dropped hlen
  exact {
    write := z.toNat_advance h.write hcount
    read := z.toNat_advance h.read (toNat_double hdropped (by omega))
    write_lt := Nat.mod_lt _ (Nat.two_pow_pos z.bits)
    read_lt := Nat.mod_lt _ (Nat.two_pow_pos z.bits) }

/-! ## The queue -/

/-- The frames between the cursors are `q`. -/
def Holds (z : OutputSize) (s : Output) (q : List Frame) : Prop :=
  ∃ w r, ∃ h : Aligned z s w r, (ring z s.outputBuffer w h.write_lt).unread r = q

theorem ring_congr {buf buf' : ℕ → S16} {w w' : ℕ} (hw : w < z.frames) (hw' : w' < z.frames)
    (hbuf : ringData z buf = ringData z buf') (h : w = w') :
    ring z buf w hw = ring z buf' w' hw' := by
  subst h
  rw [ring, ring, hbuf]

theorem length_queue {w : ℕ} {q : List Frame} (hw : w < z.frames) {buf : ℕ → S16}
    (hq : (ring z buf w hw).unread r = q) : q.length = (w + z.frames - r) % z.frames := by
  rw [← hq, Ring.length_unread]
  rfl

theorem Aligned.queue_writeOutput (h : Aligned z s w r) {frames q : List Frame}
    (hlen : frames.length < 2 ^ 30) (hq : (ring z s.outputBuffer w h.write_lt).unread r = q) :
    (ring z (s.writeOutput z frames).outputBuffer _ (h.writeOutput hlen).write_lt).unread
        ((r + (frames.length - (z.frames - 1 - (w + z.frames - r) % z.frames))) % z.frames) =
      (q ++ frames).drop (q.length + frames.length - (z.frames - 1)) := by
  have hpos : 0 < z.frames := Nat.two_pow_pos z.bits
  have hkept := length_kept z frames
  have hblock : (frames.drop (skipped z frames)).length ≤ z.frames := by omega
  have hw' : (w + skipped z frames) % z.frames < z.frames := Nat.mod_lt _ hpos
  have hql := length_queue h.write_lt hq
  have hqlt : q.length < z.frames := hql ▸ Nat.mod_lt _ hpos
  -- The ring after the write is the one that stood at the first kept frame, with these written.
  have hring : ring z (s.writeOutput z frames).outputBuffer _ (h.writeOutput hlen).write_lt =
      (ring z s.outputBuffer _ hw').write (frames.drop (skipped z frames)) hblock := by
    have hoffset : ((ring z s.outputBuffer _ hw').write (frames.drop (skipped z frames))
        hblock).writeOffset = (w + frames.length) % z.frames := by
      change Ring.advance z.frames ((w + skipped z frames) % z.frames) _ = _
      rw [Ring.advance_mod hw' hblock, Nat.mod_add_mod, hkept, skipped]
      congr 1
      omega
    have hdata := h.ringData_writeOutput hlen hw' hblock
    cases hwritten : (ring z s.outputBuffer _ hw').write (frames.drop (skipped z frames)) hblock
    rw [hwritten] at hoffset hdata
    cases hoffset
    exact congrArg (Ring.mk · _ _) hdata
  rw [hring, ← hql]
  have hr' : (r + (frames.length - (z.frames - 1 - q.length))) % z.frames < z.frames :=
    Nat.mod_lt _ hpos
  by_cases hfits : frames.length ≤ z.frames - 1
  · have hskip : skipped z frames = 0 := by
      rw [skipped]
      omega
    have hsame : ring z s.outputBuffer _ hw' = ring z s.outputBuffer w h.write_lt :=
      ring_congr _ _ rfl (by rw [hskip, Nat.add_zero, Nat.mod_eq_of_lt h.write_lt])
    have hused : frames.length - (z.frames - 1 - q.length) ≤
        (ring z s.outputBuffer w h.write_lt).used r := by
      rw [← Ring.length_unread, hq]
      omega
    have hdrop := (Ring.unread_advance _ h.read_lt hused).2
    rw [Ring.advance_mod h.read_lt (by omega), hq] at hdrop
    have hroom : (ring z s.outputBuffer w h.write_lt).used
        ((r + (frames.length - (z.frames - 1 - q.length))) % z.frames) +
          (frames.drop (skipped z frames)).length < z.frames := by
      rw [← Ring.length_unread, hdrop, List.length_drop, hkept]
      omega
    rw [hsame, Ring.unread_write _ hr' hblock hroom, hdrop, hskip, List.drop_zero,
      List.drop_append_of_le_length (by omega)]
    congr 2
    omega
  · have hstart : (r + (frames.length - (z.frames - 1 - q.length))) % z.frames =
        (w + skipped z frames) % z.frames := by
      have hadd := Ring.add_used (r := ring z s.outputBuffer w h.write_lt) h.read_lt
      rw [← Ring.length_unread, hq] at hadd
      change (r + q.length) % z.frames = w at hadd
      have hsplit : r + (frames.length - (z.frames - 1 - q.length)) =
          r + q.length + skipped z frames := by
        rw [skipped]
        omega
      rw [hsplit, ← Nat.mod_add_mod, hadd]
    have hempty := Ring.unread_self (ring z s.outputBuffer _ hw')
    have hzero := Ring.used_self (ring z s.outputBuffer _ hw')
    rw [hstart, Ring.unread_write _ hw' hblock (by
      change (ring z s.outputBuffer _ hw').used (ring z s.outputBuffer _ hw').writeOffset + _ < _
      rw [hzero]
      omega)]
    change (ring z s.outputBuffer _ hw').unread (ring z s.outputBuffer _ hw').writeOffset ++ _ = _
    rw [hempty, List.nil_append, List.drop_append,
      List.drop_of_length_le (l := q) (by omega), List.nil_append]
    congr 1
    rw [skipped]
    omega

theorem Holds.writeOutput {q : List Frame} (h : Holds z s q) {frames : List Frame}
    (hlen : frames.length < 2 ^ 30) :
    Holds z (s.writeOutput z frames)
      ((q ++ frames).drop (q.length + frames.length - (z.frames - 1))) := by
  obtain ⟨w, r, haligned, hq⟩ := h
  exact ⟨_, _, haligned.writeOutput hlen, haligned.queue_writeOutput hlen hq⟩

theorem Holds.length_lt {q : List Frame} (h : Holds z s q) : q.length < z.frames := by
  obtain ⟨w, r, haligned, hq⟩ := h
  rw [length_queue haligned.write_lt hq]
  exact Nat.mod_lt _ (Nat.two_pow_pos z.bits)

theorem Holds.dropped {q : List Frame} (h : Holds z s q) {frames : List Frame}
    (hlen : frames.length < 2 ^ 30) :
    (s.writeOutput z frames).outputDroppedFrames = s.outputDroppedFrames +
      BitVec.ofNat 64 (q.length + frames.length - (z.frames - 1)) := by
  have hlt := h.length_lt
  obtain ⟨w, r, haligned, hq⟩ := h
  have hdropped := haligned.dropped hlen
  rw [← length_queue haligned.write_lt hq] at hdropped
  have hroom : frames.length - (z.frames - 1 - q.length) =
      q.length + frames.length - (z.frames - 1) := by omega
  have hcount : (s.dropped z frames.length).setWidth 64 =
      BitVec.ofNat 64 (q.length + frames.length - (z.frames - 1)) := by
    apply BitVec.eq_of_toNat_eq
    rw [BitVec.toNat_setWidth, hdropped, hroom, BitVec.toNat_ofNat]
  rw [← hcount]
  rfl

/-! ## Reading -/

theorem copyOut_window (buf : ℕ → S16) {p len : ℕ} (h : p + len ≤ z.frames) :
    copyOut buf (2 * p) (2 * len) = interleave (window (ringData z buf) p len) := by
  rw [copyOut_frames, window_eq_map]
  congr 1
  apply List.map_congr_left
  intro i hi
  have hcell : (cell z.frames (p + i)).val = p + i :=
    cell_val_of_lt (by have := List.mem_range.mp hi; omega)
  rw [ringData, hcell]

/-- The two copies of `len` frames from the read cursor. -/
theorem copies_eq_read (buf : ℕ → S16) (hw : w < z.frames) {len : ℕ} (hr : r < z.frames)
    (hlen : len < z.frames) :
    (if 2 * min len (z.frames - r) < 2 * len then
      copyOut buf (2 * r) (2 * min len (z.frames - r)) ++
        copyOut buf (2 * 0) (2 * (len - min len (z.frames - r)))
    else copyOut buf (2 * r) (2 * min len (z.frames - r))) =
      interleave ((ring z buf w hw).read r len) := by
  rw [Ring.read_eq _ hr]
  change _ = interleave (window (ringData z buf) r len)
  by_cases hwrap : z.frames - r < len
  · have hzero : 0 % z.frames = (r + (z.frames - r)) % z.frames := by
      rw [Nat.add_sub_cancel' hr.le, Nat.mod_self, Nat.zero_mod]
    have hsplit : len = (z.frames - r) + (len - (z.frames - r)) := by omega
    rw [Nat.min_eq_right hwrap.le, if_pos (by omega), copyOut_window (z := z) buf (by omega),
      copyOut_window (z := z) buf (by omega), window_congr _ hzero, ← interleave_append, ← window_add,
      ← hsplit]
  · rw [Nat.min_eq_left (by omega), if_neg (by omega), copyOut_window (z := z) buf (by omega)]

theorem Holds.readOutput {q : List Frame} (h : Holds z s q) (samples : S32) :
    (s.readOutput z samples).1 = interleave (q.take samples.toInt.toNat) ∧
      Holds z (s.readOutput z samples).2.2 (q.drop samples.toInt.toNat) ∧
      (s.readOutput z samples).2.2.outputDroppedFrames = s.outputDroppedFrames := by
  have hheld := h
  have hqlt := h.length_lt
  obtain ⟨w, r, haligned, hq⟩ := h
  have hle := z.frames_le
  rw [Output.readOutput]
  split_ifs with hempty hpositive
  · have hsame : w = r := by
      have htoNat := congrArg BitVec.toNat hempty
      rw [haligned.read, haligned.write] at htoNat
      omega
    have hnil : q = [] := by
      rw [← hq]
      subst hsame
      exact Ring.unread_self (ring z s.outputBuffer w haligned.write_lt)
    rw [hnil, List.take_nil, List.drop_nil]
    exact ⟨rfl, hnil ▸ hheld, rfl⟩
  · have hsamples : samples.toNat = samples.toInt.toNat := by
      rw [BitVec.toInt_eq_toNat_cond] at hpositive ⊢
      split_ifs at hpositive ⊢ <;> omega
    have hhalf : (s.available z / 2).toNat = q.length := by
      rw [toNat_half haligned.available, length_queue haligned.write_lt hq]
    have hcount : (s.readable z samples).toNat = min samples.toInt.toNat q.length := by
      rw [Output.readable]
      split_ifs with hlt
      · rw [BitVec.lt_def, hhalf] at hlt
        omega
      · rw [BitVec.lt_def, hhalf] at hlt
        omega
    generalize hn : min samples.toInt.toNat q.length = n at hcount
    have hdouble := toNat_double hcount (by omega)
    have hfirst := toNat_untilEnd (z := z) haligned.read haligned.read_lt.le hdouble
    have hrest : (2 * s.readable z samples - Output.untilEnd z s.outputBufferReadPos
        (2 * s.readable z samples)).toNat = 2 * (n - min n (z.frames - r)) := by
      rw [BitVec.toNat_sub, hfirst, hdouble]
      omega
    have htake : q.take samples.toInt.toNat = q.take n := by
      rw [← hn, List.take_eq_take_min]
    have hdrop : q.drop samples.toInt.toNat = q.drop n := by
      by_cases hall : samples.toInt.toNat ≤ q.length
      · rw [← hn, Nat.min_eq_left hall]
      · rw [← hn, Nat.min_eq_right (by omega), List.drop_of_length_le (by omega),
          List.drop_of_length_le (by omega)]
    have hused : n ≤ (ring z s.outputBuffer w haligned.write_lt).used r := by
      rw [← Ring.length_unread, hq]
      omega
    obtain ⟨hread, hadvance⟩ := Ring.unread_advance _ haligned.read_lt hused
    rw [Ring.advance_mod haligned.read_lt (by omega), hq] at hadvance
    refine ⟨?_, ?_, rfl⟩
    · simp only [BitVec.lt_def, hfirst, hdouble, hrest, haligned.read]
      rw [htake, ← hq, ← hread]
      exact copies_eq_read s.outputBuffer haligned.write_lt haligned.read_lt (by omega)
    · rw [hdrop, ← hadvance]
      exact ⟨w, _, {
        write := haligned.write
        read := z.toNat_advance haligned.read hdouble
        write_lt := haligned.write_lt
        read_lt := Nat.mod_lt _ (Nat.two_pow_pos z.bits) }, rfl⟩
  · have hzero : samples.toInt.toNat = 0 := by omega
    rw [hzero]
    exact ⟨rfl, hheld, rfl⟩

theorem Holds.getOutputSize {q : List Frame} (h : Holds z s q) :
    s.getOutputSize z = q.length := by
  obtain ⟨w, r, haligned, hq⟩ := h
  have hle := z.frames_le
  have hw := haligned.write_lt
  have hr := haligned.read_lt
  have hdouble := toNat_double z.toNat_outputBufferSize (by omega)
  rw [length_queue haligned.write_lt hq, Output.getOutputSize]
  split_ifs with hbehind
  · rw [BitVec.le_def, haligned.read, haligned.write] at hbehind
    have hmod : (w + z.frames - r) % z.frames = w - r := by
      have hsum : w + z.frames - r = w - r + z.frames := by omega
      rw [hsum, Nat.add_mod_right, Nat.mod_eq_of_lt (by omega)]
    rw [hmod, BitVec.toNat_sub, haligned.read, haligned.write]
    omega
  · rw [BitVec.le_def, haligned.read, haligned.write] at hbehind
    have hmod : (w + z.frames - r) % z.frames = w + z.frames - r :=
      Nat.mod_eq_of_lt (by omega)
    rw [hmod, BitVec.toNat_add, BitVec.toNat_sub, hdouble, haligned.read, haligned.write]
    omega

theorem holds_drainOutput (z : OutputSize) (s : Output) : Holds z s.drainOutput [] := by
  have hpos : 0 < z.frames := Nat.two_pow_pos z.bits
  have haligned : Aligned z s.drainOutput 0 0 := ⟨rfl, rfl, hpos, hpos⟩
  exact ⟨0, 0, haligned, Ring.unread_self (ring z s.outputBuffer 0 hpos)⟩

/-! ## Runs -/

/-- The buffer behaves as the queue `q`. -/
structure Follows (z : OutputSize) (r : OutputRun) (q : DropOldest Frame) : Prop where
  holds : Holds z r.output q.queue
  heard : r.heard = interleave (q.met .taken)
  dropped : r.output.outputDroppedFrames = BitVec.ofNat 64 (q.met .dropped).length

theorem follows_initOutput (z : OutputSize) : Follows z ⟨.initOutput 0, []⟩ .empty := by
  have hpos : 0 < z.frames := Nat.two_pow_pos z.bits
  have haligned : Aligned z (.initOutput 0) 0 0 := ⟨rfl, rfl, hpos, hpos⟩
  exact ⟨⟨0, 0, haligned, Ring.unread_self (ring z _ 0 hpos)⟩, rfl, rfl⟩

theorem Follows.step {r : OutputRun} {q : DropOldest Frame} (h : Follows z r q) (op : OutputOp) :
    Follows z (r.step z op) (op.queued z q) := by
  cases op with
  | write block =>
    have hleft : (q.met .dropped ++
        (q.queue ++ block.val).take (q.queue.length + block.val.length - (z.frames - 1))).length =
        (q.met .dropped).length + (q.queue.length + block.val.length - (z.frames - 1)) := by
      rw [List.length_append, List.length_take, List.length_append]
      omega
    refine ⟨h.holds.writeOutput block.property, ?_, ?_⟩
    · rw [OutputOp.queued, DropOldest.push, DropOldest.met_leave_of_ne (by decide)]
      exact h.heard
    · rw [OutputOp.queued, DropOldest.push, DropOldest.met_leave, DropOldest.met_enter]
      refine (h.holds.dropped block.property).trans ?_
      rw [h.dropped, ← BitVec.ofNat_add, ← hleft]
      rfl
  | read samples =>
    obtain ⟨hdata, hholds, hdropped⟩ := h.holds.readOutput samples
    refine ⟨hholds, ?_, ?_⟩
    · rw [OutputOp.queued, DropOldest.take, DropOldest.met_leave, interleave_append, ← h.heard,
        ← hdata]
      rfl
    · rw [OutputOp.queued, DropOldest.take, DropOldest.met_leave_of_ne (by decide), ← h.dropped]
      exact hdropped
  | drain =>
    refine ⟨?_, ?_, ?_⟩
    · have hnil : (q.clear).queue = [] := List.drop_length
      rw [OutputOp.queued, hnil]
      exact holds_drainOutput z r.output
    · rw [OutputOp.queued, DropOldest.clear, DropOldest.met_leave_of_ne (by decide)]
      exact h.heard
    · rw [OutputOp.queued, DropOldest.clear, DropOldest.met_leave_of_ne (by decide)]
      exact h.dropped

theorem Follows.foldl {r : OutputRun} {q : DropOldest Frame} (h : Follows z r q)
    (ops : List OutputOp) :
    Follows z (ops.foldl (OutputRun.step z) r) (ops.foldl (OutputOp.queued z) q) := by
  induction ops generalizing r q with
  | nil => exact h
  | cons op ops ih => exact ih (h.step op)

theorem entered_foldl (z : OutputSize) (ops : List OutputOp) (q : DropOldest Frame) :
    (ops.foldl (OutputOp.queued z) q).entered = q.entered ++ written ops := by
  induction ops generalizing q with
  | nil => exact (List.append_nil _).symm
  | cons op ops ih =>
    have hop : (op.queued z q).entered = q.entered ++ written [op] := by
      cases op with
      | write block =>
        rw [OutputOp.queued, DropOldest.entered_push]
        exact congrArg _ (List.append_nil _).symm
      | read samples => exact (DropOldest.entered_leave _ _ q).trans (List.append_nil _).symm
      | drain => exact (DropOldest.entered_leave _ _ q).trans (List.append_nil _).symm
    have hcons : written (op :: ops) = written [op] ++ written ops := by
      rw [written, written, written, ← List.flatMap_append, List.singleton_append]
    rw [List.foldl_cons, ih, hop, hcons, List.append_assoc]

/-- The frames read, those dropped for want of room, those discarded by `DrainOutput` and those
still buffered are the frames written, in order. -/
theorem output_queue (z : OutputSize) (ops : List OutputOp) :
    let r := runOutput z ops
    let q := queuedRun z ops
    r.heard = interleave (q.met .taken) ∧ q.entered = written ops ∧
      r.output.getOutputSize z = q.queue.length ∧ q.queue.length ≤ z.frames - 1 ∧
      r.output.outputDroppedFrames = BitVec.ofNat 64 (q.met .dropped).length ∧
      (written ops).length = (q.met .taken).length + (q.met .dropped).length +
        (q.met .cleared).length + r.output.getOutputSize z := by
  intro r q
  have hfollows : Follows z r q := (follows_initOutput z).foldl ops
  have hentered : q.entered = written ops := entered_foldl z ops .empty
  have hsize := hfollows.holds.getOutputSize
  have hlt := hfollows.holds.length_lt
  refine ⟨hfollows.heard, hentered, hsize, by omega, hfollows.dropped, ?_⟩
  rw [← hentered, q.length_entered, hsize]

/-- What `DrainOutput` discards is not counted as dropped. -/
theorem drain_uncounted :
    ¬∀ (z : OutputSize) (ops : List OutputOp),
      (runOutput z ops).output.outputDroppedFrames.toNat =
        (written ops).length - (runOutput z ops).heard.length / 2 -
          (runOutput z ops).output.getOutputSize z := by
  intro h
  have hdrained := h ⟨10, by decide⟩ [.write ⟨[(1, 2)], by decide⟩, .drain]
  exact absurd hdrained (by decide)

end MelonDS.SPU
