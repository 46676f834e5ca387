import Mathlib.Tactic.IntervalCases
import MelonDS.DSP.Pipe

/-!
# Runs of a pipe

A well formed pipe that is not read when empty nor written when full is a bounded
queue. The transfers compare the pointers after moving a word, so the two misuses do
move one, and the queue is broken from there on.
-/

namespace MelonDS.DSP
open Cyclic

namespace DataMem

variable (mem : DataMem) {p q : MemPointer} {i j : ℕ}

theorem get_set (v : U16) : (mem.set p i v).get p i = v := by
  rw [get, set, Function.update_self, Function.update_self]

theorem get_set_of_ne (h : p.page = q.page → q.offset + j ≠ p.offset + i) (v : U16) :
    (mem.set p i v).get q j = mem.get q j := by
  rw [get, set]
  by_cases hpage : q.page = p.page
  · rw [hpage, Function.update_self, Function.update_of_ne (h hpage.symm), get, hpage]
  · rw [Function.update_of_ne hpage, get]

end DataMem

/-- A pipe of `n` words: an even length, pointers to words of the buffer, a buffer within its
page that does not reach over the pipe's own words. -/
structure WellFormed (n : ℕ) (mem : DataMem) (pipe : MemPointer) : Prop where
  length : (mem.get pipe 1).toNat = 2 * n
  fits : (pipeBuf mem pipe).offset + n ≤ 0x4000
  read_even : (mem.get pipe 2 &&& 0x7FFF).toNat = 2 * (readCursor mem pipe).pos
  write_even : (mem.get pipe 3 &&& 0x7FFF).toNat = 2 * (writeCursor mem pipe).pos
  read_lt : (readCursor mem pipe).pos < n
  write_lt : (writeCursor mem pipe).pos < n
  apart : ∀ i < 5, ∀ k < n, (pipeBuf mem pipe).page = pipe.page →
    pipe.offset + i ≠ (pipeBuf mem pipe).offset + k

/-- The words between the pointers, as many as `getPipeLength` tells. -/
def contents (n : ℕ) (mem : DataMem) (pipe : MemPointer) : List U16 :=
  (List.range (getPipeLength mem pipe).toNat).map fun i =>
    mem.get (pipeBuf mem pipe) (((readCursor mem pipe).pos + i) % n)

/-- Well formed, with the write pointer ahead of the read pointer. -/
structure PipeInv (n : ℕ) (mem : DataMem) (pipe : MemPointer) : Prop
    extends WellFormed n mem pipe where
  ahead : Cursor.Ahead (readCursor mem pipe) (writeCursor mem pipe)

/-- The queue is what was accepted and not returned yet, and is no longer than the pipe. -/
structure Sound (n : ℕ) (pipe : MemPointer) (before : List U16) (m : Moved) : Prop where
  order : before ++ m.accepted = m.returned ++ contents n m.mem pipe
  bounded : (getPipeLength m.mem pipe).toNat ≤ n

/-- Reading from an empty pipe or writing to a full one. -/
def Misused (n : ℕ) (pipe : MemPointer) (mem : DataMem) : PipeOp → Prop
  | .read len => 0 < len ∧ (getPipeLength mem pipe).toNat = 0
  | .write data => data ≠ [] ∧ (getPipeLength mem pipe).toNat = n

section Loops

variable {n : ℕ} [NeZero n] {mem : DataMem} {pipebuf : MemPointer}

def bufferAt (n : ℕ) (mem : DataMem) (pipebuf : MemPointer) : Fin n → U16 :=
  fun i => mem.get pipebuf i

theorem get_pipebuf {c : Cursor} (h : c.pos < n) :
    mem.get pipebuf c.pos = bufferAt n mem pipebuf (cell n c.pos) := by
  rw [bufferAt, cell_val_of_lt h]

theorem readLoop_spec {rd wr : Cursor} (len : ℕ) (hrd : rd.pos < n) (hwr : wr.pos < n)
    (h : Cursor.Ahead rd wr) (hd : len = 0 ∨ 0 < Cursor.distance n rd wr) :
    let b := bufferAt n mem pipebuf
    let r := readLoop mem pipebuf n wr.pos len rd
    r.1 = (Cursor.queued b rd wr).take len ∧
      Cursor.queued b r.2 wr = (Cursor.queued b rd wr).drop len ∧
      r.2.pos < n ∧ Cursor.Ahead r.2 wr := by
  induction len generalizing rd with
  | zero => exact ⟨rfl, rfl, hrd, h⟩
  | succ len ih =>
    replace hd := hd.resolve_left (Nat.succ_ne_zero len)
    have hn : 0 < n := Nat.pos_of_neZero n
    have hpos := Cursor.next_pos_lt hn rd
    obtain ⟨hahead, hdist⟩ := Cursor.next_read hrd hwr h hd
    have hcons := Cursor.queued_next_read hrd hwr h (bufferAt n mem pipebuf) hd
    have hle := Cursor.distance_le hwr h
    rw [readLoop]
    dsimp only
    by_cases heq : (rd.next n).pos = wr.pos
    · -- the pointers meet at an empty pipe: it held at most `n` words before
      have hempty : Cursor.distance n (rd.next n) wr = 0 := by
        rcases (Cursor.pos_eq_iff hpos hwr hahead).mp heq.symm with h0 | hfull <;> omega
      have hnil : Cursor.queued (bufferAt n mem pipebuf) (rd.next n) wr = [] := by
        rw [← List.length_eq_zero_iff, Cursor.length_queued, hempty]
      rw [if_pos heq, hcons, hnil, get_pipebuf hrd]
      exact ⟨by rw [List.take_succ_cons, List.take_nil],
        by rw [List.drop_succ_cons, List.drop_nil], hpos, hahead⟩
    · have hmore : 0 < Cursor.distance n (rd.next n) wr := by
        by_contra h0
        exact heq ((Cursor.pos_eq_iff hpos hwr hahead).mpr (Or.inl (by omega))).symm
      obtain ⟨hdata, hrest, hlt, hahead'⟩ := ih hpos hahead (Or.inr hmore)
      rw [if_neg heq, hcons, get_pipebuf hrd]
      exact ⟨by rw [List.take_succ_cons, ← hdata], by rw [List.drop_succ_cons, ← hrest], hlt,
        hahead'⟩

theorem bufferAt_set {c : Cursor} (h : c.pos < n) (v : U16) :
    bufferAt n (mem.set pipebuf c.pos v) pipebuf =
      Function.update (bufferAt n mem pipebuf) (cell n c.pos) v := by
  funext i
  by_cases hi : i = cell n c.pos
  · subst hi
    rw [Function.update_self, bufferAt, cell_val_of_lt h, DataMem.get_set]
  · rw [Function.update_of_ne hi, bufferAt, bufferAt]
    refine DataMem.get_set_of_ne mem (fun _ heq => hi (Fin.ext ?_)) v
    rw [cell_val_of_lt h]
    omega

/-- The loop writes to the buffer only. -/
def SameOutside (n : ℕ) (pipebuf : MemPointer) (mem mem' : DataMem) : Prop :=
  ∀ p i, (∀ k < n, pipebuf.page = p.page → p.offset + i ≠ pipebuf.offset + k) →
    mem'.get p i = mem.get p i

theorem writeLoop_spec {rd wr : Cursor} (data : List U16) (hrd : rd.pos < n) (hwr : wr.pos < n)
    (h : Cursor.Ahead rd wr) (hd : data = [] ∨ Cursor.distance n rd wr < n) :
    let r := writeLoop pipebuf n rd.pos data wr mem
    Cursor.queued (bufferAt n r.2.2 pipebuf) rd r.2.1 =
        Cursor.queued (bufferAt n mem pipebuf) rd wr ++ data.take r.1 ∧
      r.2.1.pos < n ∧ Cursor.Ahead rd r.2.1 ∧ SameOutside n pipebuf mem r.2.2 := by
  induction data generalizing wr mem with
  | nil => exact ⟨by rw [List.take_nil, List.append_nil]; rfl, hwr, h, fun _ _ _ => rfl⟩
  | cons v data ih =>
    replace hd := hd.resolve_left (List.cons_ne_nil v data)
    have hn : 0 < n := Nat.pos_of_neZero n
    have hpos := Cursor.next_pos_lt hn wr
    obtain ⟨hahead, hdist⟩ := Cursor.next_write hrd hwr h hd
    have hpush := Cursor.queued_next_write hrd hwr h (bufferAt n mem pipebuf) hd v
    rw [← bufferAt_set hwr] at hpush
    have hsame : SameOutside n pipebuf mem (mem.set pipebuf wr.pos v) :=
      fun p i hout => DataMem.get_set_of_ne mem (hout wr.pos hwr) v
    rw [writeLoop]
    dsimp only
    by_cases heq : (wr.next n).pos = rd.pos
    · rw [if_pos heq]
      exact ⟨hpush, hpos, hahead, hsame⟩
    · have hroom : Cursor.distance n rd (wr.next n) < n := by
        have hle := Cursor.distance_le hpos hahead
        have hne : Cursor.distance n rd (wr.next n) ≠ n := fun hfull =>
          heq ((Cursor.pos_eq_iff hrd hpos hahead).mpr (Or.inr hfull))
        omega
      obtain ⟨hqueue, hlt, hahead', hsame'⟩ := @ih (mem.set pipebuf wr.pos v) _ hpos hahead (Or.inr hroom)
      rw [if_neg heq]
      refine ⟨?_, hlt, hahead', fun p i hout => (hsame' p i hout).trans (hsame p i hout)⟩
      rw [hqueue, hpush, List.take_succ_cons, List.append_assoc]
      rfl

end Loops

theorem length_readLoop_pos {mem : DataMem} {pipebuf : MemPointer} {n w len : ℕ} (rd : Cursor)
    (h : 0 < len) : 0 < (readLoop mem pipebuf n w len rd).1.length := by
  obtain ⟨len, rfl⟩ := Nat.exists_eq_succ_of_ne_zero h.ne'
  rw [readLoop]
  dsimp only
  split_ifs
  · exact Nat.one_pos
  · exact Nat.succ_pos _

theorem writeLoop_pos {mem : DataMem} {pipebuf : MemPointer} {n r : ℕ} {data : List U16} (wr : Cursor)
    (h : data ≠ []) : 0 < (writeLoop pipebuf n r data wr mem).1 := by
  cases data with
  | nil => exact absurd rfl h
  | cons v data =>
    rw [writeLoop]
    dsimp only
    split_ifs
    · exact Nat.one_pos
    · exact Nat.succ_pos _

/-! Pointer words -/

theorem low_pointerOf {c : Cursor} (h : c.pos < 0x4000) :
    (pointerOf c &&& 0x7FFF).toNat = 2 * c.pos := by
  have hflag : (if c.phase then (0x8000 : U16) else 0) &&& 0x7FFF = 0 := by
    cases c.phase <;> rfl
  rw [pointerOf, BitVec.and_or_distrib_right, hflag]
  refine (congrArg BitVec.toNat BitVec.or_zero).trans ?_
  rw [BitVec.toNat_and, BitVec.toNat_shiftLeft, BitVec.toNat_ofNat]
  rw [show (0x7FFF : U16).toNat = 2 ^ 15 - 1 from rfl, Nat.and_two_pow_sub_one_eq_mod, Nat.shiftLeft_eq]
  omega

theorem cursorOf_pointerOf {c : Cursor} (h : c.pos < 0x4000) : cursorOf (pointerOf c) = c := by
  rw [cursorOf, BitVec.toNat_ushiftRight, low_pointerOf h, Nat.shiftRight_eq_div_pow]
  have hphase : (pointerOf c).getLsbD 15 = c.phase := by
    have htop : (BitVec.ofNat 16 c.pos).getLsbD 14 = false := by
      rw [BitVec.getLsbD_ofNat, Nat.testBit_lt_two_pow h, Bool.and_false]
    rw [pointerOf, BitVec.getLsbD_or, BitVec.getLsbD_shiftLeft, htop]
    cases c.phase <;> rfl
  rw [hphase]
  congr 1
  omega

theorem phases_differ {v w : U16} : (v ^^^ w) &&& 0x8000 ≠ 0 ↔ v.getLsbD 15 ≠ w.getLsbD 15 := by
  rw [show (0x8000 : U16) = BitVec.twoPow 16 15 from rfl, BitVec.and_twoPow, BitVec.getLsbD_xor]
  cases v.getLsbD 15 <;> cases w.getLsbD 15 <;> decide

variable {n : ℕ} {mem : DataMem} {pipe : MemPointer}

theorem WellFormed.le (h : WellFormed n mem pipe) : n ≤ 0x4000 :=
  (Nat.le_add_left n _).trans h.fits

theorem WellFormed.pipeLen (h : WellFormed n mem pipe) : pipeLen mem pipe = n := by
  rw [DSP.pipeLen, BitVec.toNat_ushiftRight, h.length, Nat.shiftRight_eq_div_pow]
  omega

theorem PipeInv.toNat_getPipeLength (h : PipeInv n mem pipe) :
    (getPipeLength mem pipe).toNat = Cursor.distance n (readCursor mem pipe) (writeCursor mem pipe) := by
  have hle := h.le
  have hr := h.read_even
  have hw := h.write_even
  have hrlt := h.read_lt
  have hwlt := h.write_lt
  have hahead := h.ahead
  have hlen := h.length
  have hphase : (mem.get pipe 2 ^^^ mem.get pipe 3) &&& 0x8000 ≠ 0 ↔
      (readCursor mem pipe).phase ≠ (writeCursor mem pipe).phase := phases_differ
  rw [getPipeLength, Cursor.distance, BitVec.toNat_ushiftRight, Nat.shiftRight_eq_div_pow]
  rw [Cursor.Ahead] at hahead
  by_cases heq : (readCursor mem pipe).phase = (writeCursor mem pipe).phase
  · rw [if_neg fun hd => hphase.mp hd heq, if_pos heq]
    rw [if_pos heq] at hahead
    rw [BitVec.toNat_sub, BitVec.toNat_setWidth, BitVec.toNat_setWidth, hr, hw]
    omega
  · rw [if_pos (hphase.mpr heq), if_neg heq]
    rw [if_neg heq] at hahead
    rw [BitVec.toNat_sub, BitVec.toNat_add, BitVec.toNat_setWidth, BitVec.toNat_setWidth,
      BitVec.toNat_setWidth, hr, hw, hlen]
    omega

/-- A pointer word that points to a word of the buffer. -/
def IsPointer (n : ℕ) (w : U16) : Prop :=
  (w &&& 0x7FFF).toNat = 2 * (cursorOf w).pos ∧ (cursorOf w).pos < n

theorem isPointer_pointerOf {c : Cursor} (hn : n ≤ 0x4000) (h : c.pos < n) :
    IsPointer n (pointerOf c) := by
  have hpos : c.pos < 0x4000 := h.trans_le hn
  rw [IsPointer, cursorOf_pointerOf hpos]
  exact ⟨low_pointerOf hpos, h⟩

theorem PipeInv.of_words (h : PipeInv n mem pipe) {mem' : DataMem}
    (hbuf : mem'.get pipe 0 = mem.get pipe 0) (hlen : mem'.get pipe 1 = mem.get pipe 1)
    (hread : IsPointer n (mem'.get pipe 2)) (hwrite : IsPointer n (mem'.get pipe 3))
    (hahead : Cursor.Ahead (readCursor mem' pipe) (writeCursor mem' pipe)) :
    PipeInv n mem' pipe := by
  have hpipebuf : pipeBuf mem' pipe = pipeBuf mem pipe := by rw [pipeBuf, hbuf, pipeBuf]
  exact
    { length := hlen.symm ▸ h.length
      fits := hpipebuf.symm ▸ h.fits
      read_even := hread.1
      write_even := hwrite.1
      read_lt := hread.2
      write_lt := hwrite.2
      apart := hpipebuf.symm ▸ h.apart
      ahead := hahead }

theorem PipeInv.contents_eq [NeZero n] (h : PipeInv n mem pipe) :
    contents n mem pipe = Cursor.queued (bufferAt n mem (pipeBuf mem pipe))
      (readCursor mem pipe) (writeCursor mem pipe) := by
  rw [contents, h.toNat_getPipeLength, Cursor.queued, window_eq_map]
  rfl

theorem length_contents (n : ℕ) (mem : DataMem) (pipe : MemPointer) :
    (contents n mem pipe).length = (getPipeLength mem pipe).toNat := by
  rw [contents, List.length_map, List.length_range]

theorem PipeInv.bounded (h : PipeInv n mem pipe) : (getPipeLength mem pipe).toNat ≤ n := by
  rw [h.toNat_getPipeLength]
  exact Cursor.distance_le h.write_lt h.ahead

theorem get_set_pipe {i j : ℕ} (h : j ≠ i) (v : U16) :
    (mem.set pipe i v).get pipe j = mem.get pipe j :=
  DataMem.get_set_of_ne mem (fun _ heq => h (by omega)) v

theorem PipeInv.readPipe_spec (h : PipeInv n mem pipe) {len : ℕ}
    (hok : len = 0 ∨ (getPipeLength mem pipe).toNat ≠ 0) :
    let r := readPipe mem pipe len
    r.1 = (contents n mem pipe).take len ∧
      contents n r.2.mem pipe = (contents n mem pipe).drop len ∧ PipeInv n r.2.mem pipe := by
  have : NeZero n := ⟨(Nat.zero_lt_of_lt h.read_lt).ne'⟩
  rw [h.toNat_getPipeLength] at hok
  obtain ⟨hdata, hrest, hlt, hahead⟩ := @readLoop_spec _ _ mem (pipeBuf mem pipe) _ _ len
    h.read_lt h.write_lt h.ahead (hok.imp_right Nat.pos_of_ne_zero)
  rw [readPipe, h.pipeLen]
  dsimp only
  generalize readLoop mem (pipeBuf mem pipe) n (writeCursor mem pipe).pos len
    (readCursor mem pipe) = r at hdata hrest hlt hahead ⊢
  have hword : (mem.set pipe 2 (pointerOf r.2)).get pipe 2 = pointerOf r.2 := DataMem.get_set mem _
  have hread : readCursor (mem.set pipe 2 (pointerOf r.2)) pipe = r.2 := by
    rw [readCursor, hword, cursorOf_pointerOf (hlt.trans_le h.le)]
  have hwrite : writeCursor (mem.set pipe 2 (pointerOf r.2)) pipe = writeCursor mem pipe := by
    rw [writeCursor, get_set_pipe (by decide), writeCursor]
  have hpipebuf : pipeBuf (mem.set pipe 2 (pointerOf r.2)) pipe = pipeBuf mem pipe := by
    rw [pipeBuf, get_set_pipe (by decide), pipeBuf]
  have hbuffer : bufferAt n (mem.set pipe 2 (pointerOf r.2)) (pipeBuf mem pipe) =
      bufferAt n mem (pipeBuf mem pipe) :=
    funext fun k => DataMem.get_set_of_ne mem
      (fun hpage heq => h.apart 2 (by decide) k k.isLt hpage.symm heq.symm) _
  have hinv : PipeInv n (mem.set pipe 2 (pointerOf r.2)) pipe := by
    refine h.of_words (get_set_pipe (by decide) _) (get_set_pipe (by decide) _) ?_ ?_ ?_
    · rw [hword]
      exact isPointer_pointerOf h.le hlt
    · rw [get_set_pipe (by decide)]
      exact ⟨h.write_even, h.write_lt⟩
    · rwa [hread, hwrite]
  refine ⟨?_, ?_, hinv⟩
  · rw [hdata, h.contents_eq]
  · rw [hinv.contents_eq, hread, hwrite, hpipebuf, hbuffer, hrest, h.contents_eq]

theorem PipeInv.writePipe_spec (h : PipeInv n mem pipe) {data : List U16}
    (hok : data = [] ∨ (getPipeLength mem pipe).toNat ≠ n) :
    let r := writePipe mem pipe data
    contents n r.2.mem pipe = contents n mem pipe ++ data.take r.1 ∧ PipeInv n r.2.mem pipe := by
  have : NeZero n := ⟨(Nat.zero_lt_of_lt h.read_lt).ne'⟩
  have hle := h.bounded
  rw [h.toNat_getPipeLength] at hok hle
  obtain ⟨hqueue, hlt, hahead, hsame⟩ := @writeLoop_spec _ _ mem (pipeBuf mem pipe)
    _ _ data h.read_lt h.write_lt h.ahead (hok.imp_right fun hne => by omega)
  rw [writePipe, h.pipeLen]
  dsimp only
  generalize writeLoop (pipeBuf mem pipe) n (readCursor mem pipe).pos data
    (writeCursor mem pipe) mem = r at hqueue hlt hahead hsame ⊢
  obtain ⟨wrlen, wr, mem'⟩ := r
  dsimp only at hqueue hlt hahead hsame ⊢
  have hkept : ∀ i < 5, mem'.get pipe i = mem.get pipe i := fun i hi =>
    hsame pipe i fun k hk hpage => h.apart i hi k hk hpage
  have hword : (mem'.set pipe 3 (pointerOf wr)).get pipe 3 = pointerOf wr := DataMem.get_set mem' _
  have hwrite : writeCursor (mem'.set pipe 3 (pointerOf wr)) pipe = wr := by
    rw [writeCursor, hword, cursorOf_pointerOf (hlt.trans_le h.le)]
  have hread : readCursor (mem'.set pipe 3 (pointerOf wr)) pipe = readCursor mem pipe := by
    rw [readCursor, get_set_pipe (by decide), hkept 2 (by decide), readCursor]
  have hpipebuf : pipeBuf (mem'.set pipe 3 (pointerOf wr)) pipe = pipeBuf mem pipe := by
    rw [pipeBuf, get_set_pipe (by decide), hkept 0 (by decide), pipeBuf]
  have hbuffer : bufferAt n (mem'.set pipe 3 (pointerOf wr)) (pipeBuf mem pipe) =
      bufferAt n mem' (pipeBuf mem pipe) :=
    funext fun k => DataMem.get_set_of_ne mem'
      (fun hpage heq => h.apart 3 (by decide) k k.isLt hpage.symm heq.symm) _
  have hinv : PipeInv n (mem'.set pipe 3 (pointerOf wr)) pipe := by
    refine h.of_words ?_ ?_ ?_ ?_ ?_
    · rw [get_set_pipe (by decide), hkept 0 (by decide)]
    · rw [get_set_pipe (by decide), hkept 1 (by decide)]
    · rw [get_set_pipe (by decide), hkept 2 (by decide)]
      exact ⟨h.read_even, h.read_lt⟩
    · rw [hword]
      exact isPointer_pointerOf h.le hlt
    · rwa [hread, hwrite]
  refine ⟨?_, hinv⟩
  rw [hinv.contents_eq, hread, hwrite, hpipebuf, hbuffer, hqueue, h.contents_eq]

/-! Runs -/

variable {before : List U16} {m : Moved}

/-- A state of a run in which the pipe has been used as a queue so far. -/
structure Queueing (n : ℕ) (pipe : MemPointer) (before : List U16) (m : Moved) : Prop where
  inv : PipeInv n m.mem pipe
  order : before ++ m.accepted = m.returned ++ contents n m.mem pipe

theorem Queueing.sound (h : Queueing n pipe before m) : Sound n pipe before m :=
  ⟨h.order, h.inv.bounded⟩

def stepOp (pipe : MemPointer) (m : Moved) (op : PipeOp) : Moved :=
  let m' := op.run m.mem pipe
  ⟨m'.mem, m.returned ++ m'.returned, m.accepted ++ m'.accepted⟩

theorem Queueing.step (h : Queueing n pipe before m) {op : PipeOp} (hop : ¬ Misused n pipe m.mem op) :
    Queueing n pipe before (stepOp pipe m op) := by
  cases op with
  | read len =>
    have hok : len = 0 ∨ (getPipeLength m.mem pipe).toNat ≠ 0 := by
      by_contra hbad
      rw [not_or, not_not] at hbad
      exact hop ⟨Nat.pos_of_ne_zero hbad.1, hbad.2⟩
    obtain ⟨hdata, hrest, hinv⟩ := h.inv.readPipe_spec hok
    refine ⟨hinv, ?_⟩
    change before ++ (m.accepted ++ []) = m.returned ++ (readPipe m.mem pipe len).1 ++
      contents n (readPipe m.mem pipe len).2.mem pipe
    rw [hdata, hrest, List.append_nil, List.append_assoc, List.take_append_drop, h.order]
  | write data =>
    have hok : data = [] ∨ (getPipeLength m.mem pipe).toNat ≠ n := by
      by_contra hbad
      rw [not_or, not_not] at hbad
      exact hop hbad
    obtain ⟨hcontents, hinv⟩ := h.inv.writePipe_spec hok
    refine ⟨hinv, ?_⟩
    change before ++ (m.accepted ++ data.take (writePipe m.mem pipe data).1) = m.returned ++ [] ++
      contents n (writePipe m.mem pipe data).2.mem pipe
    rw [hcontents, List.append_nil, ← List.append_assoc, h.order, List.append_assoc]

/-- A misuse moves a word that the queue does not have or has no room for. -/
theorem Queueing.misused (h : Queueing n pipe before m) {op : PipeOp} (hop : Misused n pipe m.mem op) :
    ¬ Sound n pipe before (stepOp pipe m op) := by
  intro hsound
  have hlen := congrArg List.length h.order
  have hlen' := congrArg List.length hsound.order
  have hbound := hsound.bounded
  rw [← length_contents n] at hbound
  cases op with
  | read len =>
    obtain ⟨hpos, hempty⟩ := hop
    have hmoved : 0 < (readPipe m.mem pipe len).1.length := length_readLoop_pos _ hpos
    rw [← length_contents n] at hempty
    simp only [stepOp, PipeOp.run, List.length_append, List.length_nil] at hlen hlen'
    omega
  | write data =>
    obtain ⟨hne, hfull⟩ := hop
    have hmoved : 0 < (writePipe m.mem pipe data).1 := writeLoop_pos _ hne
    have hdata := List.length_pos_of_ne_nil hne
    rw [← length_contents n] at hfull
    simp only [stepOp, PipeOp.run, List.length_append, List.length_take, List.length_nil]
      at hlen hlen' hbound
    omega

theorem runOps_append (pipe : MemPointer) (ops : List PipeOp) (op : PipeOp) (m : Moved) :
    runOps pipe (ops ++ [op]) m = stepOp pipe (runOps pipe ops m) op := by
  induction ops generalizing m with
  | nil => rfl
  | cons o ops ih => exact ih _

theorem queueing_start (h : PipeInv n mem pipe) :
    Queueing n pipe (contents n mem pipe) (.start mem) :=
  ⟨h, List.append_nil _⟩

/-- The words of pipe `i`. -/
def startWord (i j : ℕ) : U16 :=
  if j = 0 then BitVec.ofNat 16 (kPipeBufferAddr.toNat + 0x100 * i)
  else if j = 1 then 0x200
  else if j = 4 then BitVec.ofNat 16 i else 0

theorem get_set_words (mem : DataMem) (p : MemPointer) {a k : ℕ} (v : U16) :
    (mem.set p a v).get p k = if k = a then v else mem.get p k := by
  split_ifs with h
  · rw [h, DataMem.get_set]
  · exact DataMem.get_set_of_ne mem (fun _ heq => h (by omega)) v

theorem get_foldl_startPipe (p : MemPointer) (mem : DataMem) {i j k : ℕ} (hi : i < k) (hj : j < 5) :
    ((List.range k).foldl (startPipe p) mem).get p (5 * i + j) = startWord i j := by
  induction k with
  | zero => exact absurd hi (Nat.not_lt_zero i)
  | succ k ih =>
    rw [List.range_succ, List.foldl_append, List.foldl_cons, List.foldl_nil, startPipe]
    simp only [get_set_words]
    rcases Nat.lt_succ_iff_lt_or_eq.mp hi with hlt | rfl
    · rw [if_neg (by omega), if_neg (by omega), if_neg (by omega), if_neg (by omega),
        if_neg (by omega)]
      exact ih hlt
    · rw [startWord]
      interval_cases j <;> simp

theorem loadPipe_eq (i : Fin 16) : loadPipe (BitVec.ofNat 8 i) = ⟨0, 0x800 + 5 * i⟩ := by
  revert i
  decide

theorem get_loadPipe (mem : DataMem) (i : Fin 16) {j : ℕ} (hj : j < 5) :
    (start mem).get (loadPipe (BitVec.ofNat 8 i)) j = startWord i j := by
  rw [← get_foldl_startPipe (getDataMemPointer kPipeMonitorAddr) mem i.isLt hj, loadPipe_eq,
    DataMem.get, DataMem.get]
  exact congrArg _ (Nat.add_assoc 0x800 (5 * i) j)

theorem pipeBuf_start (mem : DataMem) (i : Fin 16) :
    pipeBuf (start mem) (loadPipe (BitVec.ofNat 8 i)) = ⟨0, 0x1000 + 0x100 * i⟩ := by
  rw [pipeBuf, get_loadPipe mem i (by decide)]
  revert i
  decide

theorem get_start_read (mem : DataMem) (i : Fin 16) :
    (start mem).get (loadPipe (BitVec.ofNat 8 i)) 2 = 0 := by
  rw [get_loadPipe mem i (by decide), startWord, if_neg (by decide), if_neg (by decide),
    if_neg (by decide)]

theorem get_start_write (mem : DataMem) (i : Fin 16) :
    (start mem).get (loadPipe (BitVec.ofNat 8 i)) 3 = 0 := by
  rw [get_loadPipe mem i (by decide), startWord, if_neg (by decide), if_neg (by decide),
    if_neg (by decide)]

/-- `Start` makes sixteen empty pipes of 256 words. -/
theorem pipeInv_start (mem : DataMem) (i : Fin 16) :
    PipeInv 256 (start mem) (loadPipe (BitVec.ofNat 8 i)) := by
  have hlen : (start mem).get (loadPipe (BitVec.ofNat 8 i)) 1 = 0x200 := by
    rw [get_loadPipe mem i (by decide), startWord, if_neg (by decide), if_pos rfl]
  have hread : readCursor (start mem) (loadPipe (BitVec.ofNat 8 i)) = ⟨0, false⟩ := by
    rw [readCursor, get_start_read]
    rfl
  have hwrite : writeCursor (start mem) (loadPipe (BitVec.ofNat 8 i)) = ⟨0, false⟩ := by
    rw [writeCursor, get_start_write]
    rfl
  have hi := i.isLt
  constructor
  · constructor
    · rw [hlen]
      rfl
    · rw [pipeBuf_start]
      dsimp only
      omega
    · rw [hread, get_start_read]
      rfl
    · rw [hwrite, get_start_write]
      rfl
    · rw [hread]
      exact Nat.succ_pos _
    · rw [hwrite]
      exact Nat.succ_pos _
    · intro j hj k hk _
      rw [pipeBuf_start, loadPipe_eq]
      dsimp only
      omega
  · rw [hread, hwrite]
    exact Nat.le_refl _

theorem getPipeLength_start (mem : DataMem) (i : Fin 16) :
    (getPipeLength (start mem) (loadPipe (BitVec.ofNat 8 i))).toNat = 0 := by
  rw [getPipeLength, get_start_read, get_start_write, if_neg (by decide)]
  rfl

end MelonDS.DSP
