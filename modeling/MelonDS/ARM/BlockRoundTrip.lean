import MelonDS.ARM.BlockTransfers

/-!
# Block transfers there and back

On plain memory a load gives back what the complementary store has put there, and moves the base
back. At the end all six instructions are compared with the architecture, access by access.
-/

namespace MelonDS.ARM

variable {σ : Type*} {core : Core σ} {instr : U32}

/-! ## Plain memory -/

/-- Memory that keeps what is written to it, all of it permitted. -/
def plainCore (num : Num) : Core (U32 → U32) where
  num := num
  readable _ _ := true
  writable _ _ := true
  executable _ _ := true
  selectMap _ m := m
  read32 addr m := (m addr, m)
  write32 addr v m := Function.update m addr v
  runCheats m := m

section
variable {num : Num} {m : U32 → U32}

theorem writeAll_other {addr x : U32} {vs : List U32}
    (h : ∀ i < vs.length, wordAt addr i &&& ~~~(3 : U32) ≠ x) :
    writeAll (plainCore num) addr vs m x = m x := by
  induction vs generalizing addr m with
  | nil => rfl
  | cons v vs ih =>
    have hhead := h 0 (Nat.succ_pos _)
    rw [wordAt_zero] at hhead
    refine (ih fun i hi => wordAt_succ addr i ▸ h (i + 1) (Nat.succ_lt_succ hi)).trans ?_
    exact Function.update_of_ne hhead.symm _ _

theorem writeAll_get {addr : U32} {vs : List U32} (hlen : vs.length ≤ 2 ^ 30) {i : ℕ}
    (hi : i < vs.length) :
    writeAll (plainCore num) addr vs m (wordAt addr i &&& ~~~(3 : U32)) = vs[i] := by
  induction vs generalizing addr m i with
  | nil => cases hi
  | cons v vs ih =>
    rw [List.length_cons] at hlen hi
    change writeAll (plainCore num) (addr + 4) vs (Function.update m (addr &&& ~~~(3 : U32)) v) _ = _
    cases i with
    | zero =>
      refine (writeAll_other fun j hj => ?_).trans ?_
      · rw [← wordAt_succ]
        exact (word_ne (Nat.succ_pos j) (by omega)).symm
      · rw [wordAt_zero]
        exact Function.update_self _ _ _
    | succ i =>
      rw [wordAt_succ]
      exact ih (by omega) (by omega)

theorem readAll_plain {addr : U32} {vs : List U32}
    (h : ∀ i (hi : i < vs.length), m (wordAt addr i &&& ~~~(3 : U32)) = vs[i]) :
    readAll (plainCore num) addr vs.length m = (vs, m) := by
  induction vs generalizing addr with
  | nil => rfl
  | cons v vs ih =>
    have hhead := h 0 (Nat.succ_pos _)
    rw [wordAt_zero] at hhead
    have htail := ih fun i hi => wordAt_succ addr i ▸ h (i + 1) (Nat.succ_lt_succ hi)
    rw [List.length_cons, readAll]
    change ((m (addr &&& ~~~(3 : U32))) :: (readAll (plainCore num) (addr + 4) vs.length m).1,
      (readAll (plainCore num) (addr + 4) vs.length m).2) = _
    rw [htail, hhead]
    rfl

/-- The register that a cell of the user bank belongs to. -/
def cellReg : Cell → Fin 16
  | .r i => i
  | .rFIQ i => Fin.ofNat 16 (8 + i)
  | .rExc _ i => Fin.ofNat 16 (13 + i)

theorem cellReg_cell (b : Block) (psr : U32) (i : Fin 16) : cellReg (b.cell psr i) = i := by
  have huser : cellReg (userTransferReg psr i) = i := by
    obtain ⟨n, hn⟩ := mode_cases psr
    rw [userTransferReg, hn]
    clear hn
    revert n i
    decide +kernel
  rw [Block.cell]
  split
  · exact huser
  · rfl

theorem fill_get (b : Block) (psr : U32) (cells : Cell → U32) {regs : List (Fin 16)}
    (hnodup : regs.Nodup) (hpc : 15 ∉ regs) (f : Fin 16 → U32) {i : Fin 16} (hi : i ∈ regs) :
    b.fill psr cells (regs.zip (regs.map f)) (b.cell psr i) = f i := by
  induction regs generalizing cells with
  | nil => cases hi
  | cons j regs ih =>
    obtain ⟨hj, hrest⟩ := List.nodup_cons.mp hnodup
    have hj15 : j ≠ 15 := fun h => hpc (h ▸ List.mem_cons_self)
    have hfill : b.fill psr cells ((j :: regs).zip ((j :: regs).map f)) =
        b.fill psr (Function.update cells (b.cell psr j) (f j)) (regs.zip (regs.map f)) := by
      change List.foldl _ (if j = 15 then cells else _) _ = _
      rw [if_neg hj15]
      rfl
    rw [hfill]
    by_cases hij : i = j
    · subst hij
      refine (fill_of_notMem b psr _ fun w hw hcell => hj ?_).trans (Function.update_self _ _ _)
      have hsame := congrArg cellReg hcell
      rw [cellReg_cell, cellReg_cell] at hsame
      exact hsame ▸ (List.of_mem_zip hw).1
    · exact ih _ hrest (fun h => hpc (List.mem_cons_of_mem _ h))
        ((List.mem_cons.mp hi).resolve_left hij)

/-- What a load leaves of the registers and the memory behind the complementary store; `d` is the
state in between. -/
structure Restored (b : Block) (regs : List (Fin 16)) (c d e : CPU σ) : Prop where
  regs_eq : ∀ i ∈ regs, e.get (b.cell c.cpsr i) = c.get (b.cell c.cpsr i)
  base : e.reg b.rn = c.reg b.rn
  others : ∀ x, x ≠ .r b.rn → (∀ i ∈ regs, x ≠ b.cell c.cpsr i) → e.get x = d.get x
  cpsr : e.cpsr = d.cpsr
  memory : e.bus = d.bus

/-- The loop of a load, where the words of its registers are in memory. -/
theorem looped_stored (b : Block) {regs : List (Fin 16)} (f : Fin 16 → U32) {d : CPU (U32 → U32)}
    (h : ∀ k (hk : k < regs.length),
      d.bus (wordAt (b.lowest (d.reg b.rn)) k &&& ~~~(3 : U32)) = f regs[k]) :
    looped (plainCore num) b regs d =
      { d with cells := b.fill d.cpsr d.cells (regs.zip (regs.map f)) } := by
  have hread := @readAll_plain num d.bus (b.lowest (d.reg b.rn)) (regs.map f) fun k hk => by
      rw [List.length_map] at hk
      rw [List.getElem_map]
      exact h k hk
  rw [List.length_map] at hread
  rw [looped, hread]

/-- The loop of a load and its writeback give back what a store has put there. -/
theorem restored_of_looped {b b' : Block} {regs : List (Fin 16)} {c d : CPU (U32 → U32)}
    (hrn : b'.rn = b.rn) (huser : b'.user = b.user) (hnodup : regs.Nodup) (hpc : 15 ∉ regs)
    (hbase : b.rn ∉ regs) (hcpsr : d.cpsr = c.cpsr)
    (hwords : ∀ k (hk : k < regs.length), d.bus (wordAt (b'.lowest (d.reg b.rn)) k &&&
      ~~~(3 : U32)) = c.get (b.cell c.cpsr regs[k])) :
    Restored b regs c d ((looped (plainCore num) b' regs d).setReg b.rn (c.reg b.rn)) := by
  have hcell : ∀ psr i, b'.cell psr i = b.cell psr i := fun psr i => by
    rw [Block.cell, Block.cell, huser]
  have hne {i : Fin 16} (hi : i ∈ regs) : b.cell c.cpsr i ≠ .r b.rn := fun h => by
    have hsame : i = b.rn := (cellReg_cell b c.cpsr i).symm.trans (congrArg cellReg h)
    exact hbase (hsame ▸ hi)
  rw [looped_stored b' (fun i => c.get (b.cell c.cpsr i)) (hrn ▸ hwords), hcpsr]
  refine ⟨fun i hi => ?_, Function.update_self _ _ _, fun x hx hother => ?_, hcpsr.symm, rfl⟩
  · have hget := fill_get b' c.cpsr d.cells hnodup hpc (fun i => c.get (b.cell c.cpsr i)) hi
    rw [hcell] at hget
    exact (Function.update_of_ne (hne hi) _ _).trans hget
  · refine (Function.update_of_ne hx _ _).trans (fill_of_notMem b' c.cpsr d.cells fun w hw => ?_)
    rw [hcell]
    exact (hother _ (List.of_mem_zip hw).1).symm

/-- The words of a store, for the registers that come first in its list. -/
theorem stored_get (b : Block) {regs more : List (Fin 16)} (hregs : b.regs = regs ++ more)
    (hlen : b.regs.length ≤ 17) (hpc : 15 ∉ regs) (c : CPU (U32 → U32)) (k : ℕ)
    (hk : k < regs.length) :
    (b.store (plainCore num) c).bus (wordAt (b.lowest (c.reg b.rn)) k &&& ~~~(3 : U32)) =
      c.get (b.cell c.cpsr regs[k]) := by
  have hbus : (b.store (plainCore num) c).bus = writeAll (plainCore num)
      (b.lowest (c.reg b.rn)) (b.regs.map (b.value num c)) c.bus := by
    rw [Block.store]
    split
    · rfl
    · rfl
  have hlt : k < b.regs.length := by
    rw [hregs, List.length_append]
    omega
  have hget : b.regs[k] = regs[k] := by
    rw [List.getElem_of_eq hregs, List.getElem_append_left hk]
  have hne : regs[k] ≠ 15 := fun h => hpc (h ▸ List.getElem_mem hk)
  rw [hbus, writeAll_get (by rw [List.length_map]; omega) (by rw [List.length_map]; exact hlt),
    List.getElem_map, hget, Block.value, if_neg fun h => hne h.1]
  exact BitVec.add_zero _

theorem store_base {b : Block} (h : b.writeback = true) (c : CPU σ) :
    (b.store core c).reg b.rn = b.newBase (c.reg b.rn) := by
  rw [Block.store, if_pos h]
  exact Function.update_self _ _ _

/-- The load that steps the other way finds the words of a store and gives its base back. -/
theorem complement_eq {b b' : Block} (hup : b'.up = !b.up) (hpre : b'.pre = !b.pre)
    (hsize : b'.size = b.size) (base : U32) :
    b'.lowest (b.newBase base) = b.lowest base ∧ b'.newBase (b.newBase base) = base := by
  rw [Block.lowest, Block.lowest, Block.newBase, Block.newBase, hup, hpre, hsize]
  cases b.up with
  | true =>
    have hback : base + b.size - b.size = base := BitVec.add_sub_cancel base b.size
    cases b.pre with
    | true => exact ⟨congrArg (· + 4) hback, hback⟩
    | false => exact ⟨hback, hback⟩
  | false =>
    have hback : base - b.size + b.size = base := BitVec.sub_add_cancel base b.size
    cases b.pre with
    | true => exact ⟨rfl, hback⟩
    | false => exact ⟨rfl, hback⟩

/-- The same list and base, with writeback, stepping the other way. -/
structure Complementary (store load : U32) : Prop where
  regs : regList load = regList store
  base : baseId load = baseId store
  writesBack : store.getLsbD 21 = true ∧ load.getLsbD 21 = true
  user : load.getLsbD 22 = store.getLsbD 22
  up : load.getLsbD 23 = !store.getLsbD 23
  pre : load.getLsbD 24 = !store.getLsbD 24

theorem plain_permitted {op : BlockOp} {c : CPU (U32 → U32)} :
    op.Permitted (plainCore num) instr c := by
  rw [BlockOp.Permitted]
  split
  · exact fun _ _ _ => rfl
  · exact fun _ _ _ => rfl

/-- `A_LDM` behind the complementary `A_STM`. -/
theorem aLDM_restores {store load : U32} {c d : CPU (U32 → U32)} (hcomp : Complementary store load)
    (hne : regList store ≠ []) (hbase : baseId store ∉ regList store) (hpc : 15 ∉ regList store)
    (hreg : d.reg (baseId store) = (aSTM (plainCore num) store c).reg (baseId store))
    (hcpsr : d.cpsr = c.cpsr) (hbus : d.bus = (aSTM (plainCore num) store c).bus) :
    Restored (BlockOp.block store .stm) (regList store) c d (aLDM (plainCore num) load d) := by
  have hstm : aSTM (plainCore num) store c = (BlockOp.block store .stm).store (plainCore num) c := by
    rw [aSTM_eq hne plain_permitted, storedValues_iff.mpr (.inr (.inl hbase))]
    rfl
  have hsize : (BlockOp.block load .ldm).size = (BlockOp.block store .stm).size := by
    rw [Block.size, Block.size]
    exact congrArg (fun regs : List (Fin 16) => 4 * BitVec.ofNat 32 regs.length) hcomp.regs
  obtain ⟨hlowest, hnew⟩ := @complement_eq (BlockOp.block store .stm)
    (BlockOp.block load .ldm) hcomp.up hcomp.pre hsize (c.reg (baseId store))
  have hback : d.reg (baseId store) = (BlockOp.block store .stm).newBase (c.reg (baseId store)) := by
    rw [hreg, hstm]
    exact store_base hcomp.writesBack.1 c
  have huser : (BlockOp.block load .ldm).user = (BlockOp.block store .stm).user := by
    have h15 : load.getLsbD 15 = false := by
      rw [← hcomp.regs, mem_regList] at hpc
      exact Bool.eq_false_iff.mpr hpc
    change (load.getLsbD 22 && !load.getLsbD 15) = store.getLsbD 22
    rw [h15, hcomp.user]
    exact Bool.and_true _
  have hpc' : ¬load.getLsbD 15 = true := by
    rw [← hcomp.regs, mem_regList] at hpc
    exact hpc
  have hlen : (regList store).length ≤ 17 :=
    ((List.length_filter_le _ _).trans (List.length_finRange (n := 16)).le).trans (by decide)
  have hload : aLDM (plainCore num) load d = (looped (plainCore num) (BlockOp.block load .ldm)
      (regList store) d).setReg (baseId store) (c.reg (baseId store)) := by
    have hbase' : (BlockOp.block load .ldm).rn ∉ (BlockOp.block load .ldm).regs := by
      change baseId load ∉ regList load
      rwa [hcomp.base, hcomp.regs]
    rw [aLDM_eq_spec (hcomp.regs ▸ hne) plain_permitted, BlockOp.spec, if_neg hpc', load_eq,
      if_pos ⟨hcomp.writesBack.2, .inl hbase'⟩]
    change (looped (plainCore num) (BlockOp.block load .ldm) (regList load) d).setReg (baseId load)
      ((BlockOp.block load .ldm).newBase (d.reg (baseId load))) = _
    rw [hcomp.regs, hcomp.base, hback, hnew]
  rw [hload]
  refine restored_of_looped hcomp.base huser nodup_regList hpc hbase hcpsr fun k hk => ?_
  have hstored := @stored_get num (BlockOp.block store .stm) _ _ (List.append_nil _).symm hlen
    hpc c k hk
  have hlow : (BlockOp.block load .ldm).lowest (d.reg (BlockOp.block store .stm).rn) =
      (BlockOp.block store .stm).lowest (c.reg (BlockOp.block store .stm).rn) :=
    (congrArg _ hback).trans hlowest
  rw [hbus, hstm, hlow]
  exact hstored

theorem branchTo_setReg {i : Fin 16} (h : i ≠ 15) (addr v : U32) (c : CPU σ) :
    (branchTo addr c).setReg i v = branchTo addr (c.setReg i v) := by
  have hcell : (.r i : Cell) ≠ .r 15 := fun hi => h (Cell.r.inj hi)
  have hset (w : U32) : Function.update (Function.update c.cells (.r 15) w) (.r i) v =
      Function.update (Function.update c.cells (.r i) v) (.r 15) w :=
    Function.update_comm hcell.symm _ _ _
  rw [branchTo, branchTo]
  split
  · exact congrArg (fun cells => { c with cells := cells, cpsr := c.cpsr ||| 0x20 }) (hset _)
  · exact congrArg (fun cells => { c with cells := cells, cpsr := c.cpsr &&& ~~~0x20 }) (hset _)

theorem jumpTo_plain (addr : U32) (c : CPU (U32 → U32)) :
    jumpTo (plainCore num) addr false c = branchTo addr c :=
  (if_neg Bool.false_ne_true).trans (if_neg fun h => Bool.false_ne_true h.2)

theorem readAll_keeps (addr : U32) (k : ℕ) : (readAll (plainCore num) addr k m).2 = m := by
  induction k generalizing addr with
  | zero => rfl
  | succ k ih => exact ih _

/-- `T_POP` behind `T_PUSH`; the link register is popped as the program counter. -/
theorem tPOP_restores {push pop : U32} {c d : CPU (U32 → U32)} (hlist : lowList pop = lowList push)
    (h8 : pop.getLsbD 8 = push.getLsbD 8)
    (hreg : d.reg 13 = (tPUSH push (plainCore num) c).2.reg 13) (hcpsr : d.cpsr = c.cpsr)
    (hbus : d.bus = (tPUSH push (plainCore num) c).2.bus) :
    ∃ e, Restored (BlockOp.block push .push) (lowList push) c d e ∧
      (tPOP pop (plainCore num) d).2 = if pop.getLsbD 8 then branchTo
        (if num = .arm7 then c.reg 14 ||| 1 else c.reg 14) e else e := by
  have hpush := @tPUSH_eq_spec _ (plainCore num) push c plain_permitted
  have hsize : (BlockOp.block pop .pop).size = (BlockOp.block push .push).size := by
    rw [Block.size, Block.size, BlockOp.block, BlockOp.block, List.length_append, List.length_append,
      hlist, h8]
    cases push.getLsbD 8 <;> rfl
  obtain ⟨hlowest, hnew⟩ := @complement_eq (BlockOp.block push .push)
    (BlockOp.block pop .pop) rfl rfl hsize (c.reg 13)
  have hback : d.reg 13 = (BlockOp.block push .push).newBase (c.reg 13) := by
    rw [hreg, hpush]
    exact store_base (b := BlockOp.block push .push) rfl c
  have hlen : (BlockOp.block push .push).regs.length ≤ 17 := by
    have hlow := @length_lowList_le push
    change (lowList push ++ if push.getLsbD 8 then [14] else []).length ≤ 17
    rw [List.length_append]
    split
    · exact Nat.add_le_add_right hlow 1
    · exact hlow.trans (by decide)
  have hsp : (13 : Fin 16) ∉ lowList push :=
    fun hmem => absurd ((mem_lowList _).mp hmem).1 (by decide)
  refine ⟨(looped (plainCore num) (BlockOp.block pop .pop) (lowList push) d).setReg 13 (c.reg 13),
    @restored_of_looped num (BlockOp.block push .push) (BlockOp.block pop .pop) _ c d rfl rfl
      ((List.nodup_finRange 16).filter _) pc_notMem_lowList hsp hcpsr fun k hk => ?_, ?_⟩
  · have hlow : (BlockOp.block pop .pop).lowest (d.reg (BlockOp.block push .push).rn) =
        (BlockOp.block push .push).lowest (c.reg (BlockOp.block push .push).rn) :=
      (congrArg _ hback).trans hlowest
    rw [hbus, hpush, hlow]
    exact stored_get _ rfl hlen pc_notMem_lowList c k hk
  · have hlow : (BlockOp.block pop .pop).lowest (d.reg 13) =
        (BlockOp.block push .push).lowest (c.reg 13) :=
      (congrArg _ hback).trans hlowest
    have hnew' : (BlockOp.block pop .pop).newBase (d.reg 13) = c.reg 13 :=
      (congrArg _ hback).trans hnew
    by_cases hpc : pop.getLsbD 8 = true
    · have hregs : (BlockOp.block pop .pop).regs = lowList push ++ [15] :=
        (congrArg (lowList pop ++ ·) (if_pos hpc)).trans (congrArg (· ++ [15]) hlist)
      have hstored : (BlockOp.block push .push).regs = (lowList push ++ [14]) ++ [] :=
        (congrArg (lowList push ++ ·) (if_pos (h8 ▸ hpc))).trans (List.append_nil _).symm
      have hlooped : looped (plainCore num) (BlockOp.block pop .pop) (lowList push ++ [15]) d =
        looped (plainCore num) (BlockOp.block pop .pop) (lowList push) d := looped_pc _ _ _
      have hnotpc : (15 : Fin 16) ∉ lowList push ++ [14] := fun hmem =>
        (List.mem_append.mp hmem).elim pc_notMem_lowList fun h => by simp at h
      have hlast : (lowList push).length < (lowList push ++ [14]).length := by
        rw [List.length_append]
        exact Nat.lt_succ_self _
      have hloaded : (BlockOp.block pop .pop).loadedPC (plainCore num) d = c.reg 14 := by
        have hword := @stored_get num _ _ _ hstored hlen hnotpc c _ hlast
        rw [List.getElem_concat_length rfl] at hword
        rw [loadedPC_append hregs]
        change (looped (plainCore num) (BlockOp.block pop .pop) (lowList push) d).bus
          (wordAt ((BlockOp.block pop .pop).lowest (d.reg 13)) (lowList push).length &&&
            ~~~(3 : U32)) = _
        rw [looped, readAll_keeps, hlow, hbus, hpush]
        exact hword
      rw [if_pos hpc, (tPOP_with_pc hpc plain_permitted).1, hloaded, hregs, hlooped, hnew',
        jumpTo_plain, branchTo_setReg (by decide)]
      rfl
    · have hregs : (BlockOp.block pop .pop).regs = lowList push :=
        (congrArg (lowList pop ++ ·) (if_neg hpc)).trans ((List.append_nil _).trans hlist)
      rw [if_neg hpc, tPOP_without_pc hpc plain_permitted, BlockOp.spec, if_neg hpc, load_eq,
        if_pos ⟨rfl, .inl sp_notMem_pop⟩, hregs]
      exact congrArg (CPU.setReg _ 13) hnew'

end

/-! ## All six -/

/-- The record of consecutive writes. -/
def writes : U32 → List U32 → List WordAccess
  | _, [] => []
  | addr, v :: vs => .write (addr &&& ~~~3) v :: writes (addr + 4) vs

theorem writes_inj {addr : U32} {vs ws : List U32} (hlen : vs.length = ws.length)
    (h : writes addr vs = writes addr ws) : vs = ws := by
  induction vs generalizing addr ws with
  | nil => exact (List.length_eq_zero_iff.mp hlen.symm).symm
  | cons v vs ih =>
    cases ws with
    | nil => cases hlen
    | cons w ws =>
      obtain ⟨hhead, htail⟩ := List.cons.inj h
      rw [(WordAccess.write.inj hhead).2, ih (Nat.succ.inj hlen) htail]

theorem writeAll_logged (addr : U32) (vs : List U32) (s : σ × List WordAccess) :
    (writeAll (logged core) addr vs s).2 = s.2 ++ writes addr vs := by
  induction vs generalizing addr s with
  | nil => exact (List.append_nil _).symm
  | cons v vs ih =>
    refine (ih _ _).trans ?_
    rw [writes, ← List.singleton_append, ← List.append_assoc]
    rfl

theorem storeWords_inj {b : Block} {vs ws : List U32} {c : CPU (σ × List WordAccess)}
    (hlen : vs.length = ws.length)
    (h : b.storeWords (logged core) vs c = b.storeWords (logged core) ws c) : vs = ws := by
  have hbus (vs : List U32) : (b.storeWords (logged core) vs c).bus =
      writeAll (logged core) (b.lowest (c.reg b.rn)) vs c.bus := by
    rw [Block.storeWords]
    split
    · rfl
    · rfl
  have hrecord : (b.storeWords (logged core) vs c).bus.2 = (b.storeWords (logged core) ws c).bus.2 :=
    congrArg (fun d : CPU (σ × List WordAccess) => d.bus.2) h
  rw [hbus, hbus, writeAll_logged, writeAll_logged] at hrecord
  exact writes_inj hlen (List.append_cancel_left hrecord)

theorem aSTM_eq_spec_iff {c : CPU (σ × List WordAccess)} (hne : regList instr ≠ [])
    (h : BlockOp.Permitted (logged core) instr .stm c) :
    aSTM (logged core) instr c = BlockOp.spec (logged core) instr .stm c ↔
      BlockOp.StoresBase (logged core) instr (BlockOp.block instr .stm) c := by
  have hspec : BlockOp.spec (logged core) instr .stm c = (BlockOp.block instr .stm).storeWords
    (logged core) ((regList instr).map ((BlockOp.block instr .stm).value core.num c)) c := rfl
  rw [← storedValues_iff, aSTM_eq hne h, hspec]
  constructor
  · intro heq
    refine storeWords_inj ?_ heq
    rw [length_storedValues, List.length_map]
  · intro hvalues
    rw [hvalues]
    rfl

/-- Each block transfer does what the architecture asks, access by access, exactly when the
conditions of `Exact` hold; a transfer with writeback is undone by the complementary one. -/
theorem block_transfers_exact (core : Core σ) (num : Num) :
    (∀ (op : BlockOp) (instr : U32) (c : CPU (σ × List WordAccess)),
      (op.block instr).regs ≠ [] → op.Permitted (logged core) instr c →
        (op.run (logged core) instr c = op.spec (logged core) instr c ↔
          op.Exact (logged core) instr c)) ∧
    (∀ (store load : U32) (c d : CPU (U32 → U32)), Complementary store load →
      regList store ≠ [] → baseId store ∉ regList store → 15 ∉ regList store →
      d.reg (baseId store) = (aSTM (plainCore num) store c).reg (baseId store) →
      d.cpsr = c.cpsr → d.bus = (aSTM (plainCore num) store c).bus →
        Restored (BlockOp.block store .stm) (regList store) c d (aLDM (plainCore num) load d)) ∧
    ∀ (push pop : U32) (c d : CPU (U32 → U32)), lowList pop = lowList push →
      pop.getLsbD 8 = push.getLsbD 8 → d.reg 13 = (tPUSH push (plainCore num) c).2.reg 13 →
      d.cpsr = c.cpsr → d.bus = (tPUSH push (plainCore num) c).2.bus →
        ∃ e, Restored (BlockOp.block push .push) (lowList push) c d e ∧
          (tPOP pop (plainCore num) d).2 = if pop.getLsbD 8 then branchTo
            (if num = .arm7 then c.reg 14 ||| 1 else c.reg 14) e else e := by
  refine ⟨fun op instr c hne h => ?_, fun store load c d => aLDM_restores,
    fun push pop c d => tPOP_restores⟩
  cases op with
  | ldm => exact iff_of_true (aLDM_eq_spec hne h) trivial
  | stm => exact aSTM_eq_spec_iff hne h
  | push => exact iff_of_true (tPUSH_eq_spec h) trivial
  | pop =>
    by_cases h8 : instr.getLsbD 8 = true
    · exact (tPOP_eq_spec_iff h8 h).trans ⟨fun hjump _ => hjump, fun hexact => hexact h8⟩
    · exact iff_of_true (tPOP_without_pc h8 h) fun hpc => absurd hpc h8
  | stmia => exact iff_of_true (tSTMIA_eq_spec hne h) trivial
  | ldmia => exact iff_of_true (tLDMIA_eq_spec hne h) trivial

/-- The ARM9 without memory, but for one page that must not be executed. -/
def guardedCore : Core Unit :=
  { bareCore .arm9 with
    executable := fun _ p => p ≠ 0x40000
    read32 := fun _ s => (0x40000000, s) }

def lowState : CPU (Unit × List WordAccess) where
  cells x := if x = .r 1 then 0x02000100 else if x = .r 13 then 0x0B003F00 else 0
  cpsr := 0x1F
  highVectors := true
  bus := ((), [])

/-- The ARM7 stores for R1 the address of its slot in place of its value, in `STMIA R1, {R0, R1}`;
a `POP {PC}` whose jump aborts leaves the stack pointer, which is then the banked one, unmoved. -/
theorem block_transfers_astray :
    (BlockOp.stm.run (logged (bareCore .arm7)) 0xE8810003 lowState).bus.2 =
        [.write 0x02000100 0, .write 0x02000104 0x02000104] ∧
      (BlockOp.stm.spec (logged (bareCore .arm7)) 0xE8810003 lowState).bus.2 =
        [.write 0x02000100 0, .write 0x02000104 0x02000100] ∧
      (BlockOp.pop.run (logged guardedCore) 0xBD00 lowState).get (rABT 0) = 0x0B003F00 ∧
      (BlockOp.pop.spec (logged guardedCore) 0xBD00 lowState).get (rABT 0) = 0x0B003F04 := by
  decide +kernel

theorem block_transfers_exact_lowest :
    BlockOp.stm.run (logged (bareCore .arm7)) 0xE8810006 lowState =
        BlockOp.stm.spec (logged (bareCore .arm7)) 0xE8810006 lowState ↔
      BlockOp.stm.Exact (logged (bareCore .arm7)) 0xE8810006 lowState :=
  (block_transfers_exact (bareCore .arm7) .arm7).1 .stm 0xE8810006 lowState (by decide +kernel)
    fun h => by cases h

end MelonDS.ARM
