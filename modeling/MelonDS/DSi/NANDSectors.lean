import MelonDS.DSi.NAND

/-!
# Reads and writes of the FAT partition

Every access starts its counter at the number of its first block, so the key stream depends on the
address alone, as long as the number of the block fits in 32 bits. What a read decrypts is then
what a write has put there, in whatever pieces.
-/

namespace MelonDS.DSi.NAND
open Block

/-! ## The counter as a number -/

/-- The number in the first bytes of a block, the most significant first. -/
def topNat (b : Block) : ℕ → ℕ
  | 0 => 0
  | n + 1 => topNat b n * 0x100 + (b (Fin.ofNat 16 n)).toNat

theorem topNat_congr {a b : Block} {n : ℕ} (hn : n ≤ 16) (h : ∀ i : Fin 16, (i : ℕ) < n → a i = b i) :
    topNat a n = topNat b n := by
  induction n with
  | zero => rfl
  | succ n ih =>
    have hval : ((Fin.ofNat 16 n : Fin 16) : ℕ) = n := Nat.mod_eq_of_lt (by omega)
    rw [topNat, topNat, ih (by omega) fun i hi => h i (by omega),
      h (Fin.ofNat 16 n) (by rw [hval]; omega)]

theorem topNat_lt (b : Block) (n : ℕ) : topNat b n < 0x100 ^ n := by
  induction n with
  | zero => exact Nat.one_pos
  | succ n ih =>
    have hbyte := (b (Fin.ofNat 16 n)).isLt
    rw [topNat, Nat.pow_succ]
    omega

theorem topNat_injective {a b : Block} (h : topNat a 16 = topNat b 16) : a = b := by
  have hbytes : ∀ n ≤ 16, topNat a n = topNat b n → ∀ i : Fin 16, (i : ℕ) < n → a i = b i := by
    intro n
    induction n with
    | zero => exact fun _ _ i hi => absurd hi (Nat.not_lt_zero _)
    | succ n ih =>
      intro hn heq i hi
      rw [topNat, topNat] at heq
      have ha := (a (Fin.ofNat 16 n)).isLt
      have hb := (b (Fin.ofNat 16 n)).isLt
      rcases Nat.lt_succ_iff_lt_or_eq.mp hi with hlt | hlast
      · exact ih (by omega) (by omega) i hlt
      · have hi' : i = Fin.ofNat 16 n := by
          apply Fin.ext
          rw [Fin.val_ofNat, Nat.mod_eq_of_lt (by omega), hlast]
        rw [hi']
        exact BitVec.eq_of_toNat_eq (by omega)
  exact funext fun i => hbytes 16 le_rfl h i i.isLt

theorem incrementFrom_of_le {n : ℕ} (hn : n ≤ 16) (b : Block) {i : Fin 16} (hi : n ≤ i) :
    incrementFrom n hn b i = b i := by
  induction n generalizing b with
  | zero => rfl
  | succ n ih =>
    have hne : i ≠ ⟨n, hn⟩ := fun heq => by
      rw [heq] at hi
      exact absurd hi (Nat.not_succ_le_self n)
    rw [incrementFrom]
    split_ifs
    · rw [ih (by omega) _ (by omega), Function.update_of_ne hne]
    · rw [Function.update_of_ne hne]

theorem topNat_incrementFrom {n : ℕ} (hn : n ≤ 16) (b : Block) :
    topNat (incrementFrom n hn b) n = (topNat b n + 1) % 0x100 ^ n := by
  induction n generalizing b with
  | zero => exact (Nat.mod_one _).symm
  | succ n ih =>
    have hfin : Fin.ofNat 16 n = ⟨n, hn⟩ := Fin.ext (Nat.mod_eq_of_lt hn)
    have htop : ∀ v : U8, topNat (Function.update b ⟨n, hn⟩ v) n = topNat b n := fun v =>
      topNat_congr (by omega) fun i hi => Function.update_of_ne (fun heq => by
        rw [heq] at hi
        exact absurd hi (Nat.lt_irrefl n)) ..
    have hlt := topNat_lt b n
    rw [incrementFrom]
    by_cases hover : b ⟨n, hn⟩ = 255
    · have hbyte : (b ⟨n, hn⟩).toNat = 255 := by rw [hover]; rfl
      have hkept : incrementFrom n (Nat.le_of_succ_le hn) (Function.update b ⟨n, hn⟩ 0) ⟨n, hn⟩ =
          0 := (incrementFrom_of_le _ _ (Nat.le_refl n)).trans (Function.update_self ..)
      rw [if_pos hover, topNat, topNat, ih, htop, hfin, hkept, hbyte, toNat_zero, Nat.add_zero,
        Nat.pow_succ, ← Nat.mul_mod_mul_right]
      rw [show (topNat b n + 1) * 0x100 = topNat b n * 0x100 + 255 + 1 by omega]
    · have hbyte := toNat_add_one hover
      have hsmall := (b ⟨n, hn⟩ + 1).isLt
      rw [if_neg hover, topNat, topNat, htop, hfin, Function.update_self, hbyte]
      rw [hbyte] at hsmall
      rw [Nat.mod_eq_of_lt (by rw [Nat.pow_succ]; omega), Nat.add_assoc]

theorem topNat_iterate (b : Block) (k : ℕ) :
    topNat (increment^[k] b) 16 = (topNat b 16 + k) % 0x100 ^ 16 := by
  induction k with
  | zero => rw [Function.iterate_zero_apply, Nat.add_zero, Nat.mod_eq_of_lt (topNat_lt b 16)]
  | succ k ih =>
    have hstep : ∀ c : Block, topNat c.increment 16 = (topNat c 16 + 1) % 0x100 ^ 16 :=
      fun c => topNat_incrementFrom le_rfl c
    rw [Function.iterate_succ_apply', hstep, ih, Nat.mod_add_mod, Nat.add_assoc]

/-- The carries of the sum, from the last byte on. -/
theorem topNat_sum (iv ctr : Block) {n : ℕ} (hn : n ≤ 16) :
    topNat (fun j => iv j + ctr j + BitVec.ofNat 8 (carryInto iv ctr (15 - j))) n =
      (topNat iv n + topNat ctr n + carryInto iv ctr (16 - n)) % 0x100 ^ n := by
  induction n with
  | zero => exact (Nat.mod_one _).symm
  | succ n ih =>
    have hval : ((Fin.ofNat 16 n : Fin 16) : ℕ) = n := Nat.mod_eq_of_lt (by omega)
    have hcarry : carryInto iv ctr (16 - n) = ((iv (Fin.ofNat 16 n)).toNat +
        (ctr (Fin.ofNat 16 n)).toNat + carryInto iv ctr (15 - n)) / 0x100 := by
      rw [show 16 - n = (15 - n) + 1 by omega, carryInto, show 15 - (15 - n) = n by omega]
    rw [topNat, topNat, topNat, ih (by omega), hcarry, hval, show 16 - (n + 1) = 15 - n by omega]
    rw [BitVec.toNat_add, BitVec.toNat_add, BitVec.toNat_ofNat]
    generalize (iv (Fin.ofNat 16 n)).toNat = x
    generalize (ctr (Fin.ofNat 16 n)).toNat = y
    generalize carryInto iv ctr (15 - n) = c
    have hpow : 0x100 ^ (n + 1) = 0x100 * 0x100 ^ n := by rw [Nat.pow_succ, Nat.mul_comm]
    rw [hpow, Nat.mod_mul]
    have hdiv : ((topNat iv n * 0x100 + x) + (topNat ctr n * 0x100 + y) + c) / 0x100 =
        topNat iv n + topNat ctr n + (x + y + c) / 0x100 := by omega
    rw [hdiv]
    have hlow : ((x + y) % 2 ^ 8 + c % 2 ^ 8) % 2 ^ 8 =
        ((topNat iv n * 0x100 + x) + (topNat ctr n * 0x100 + y) + c) % 0x100 := by omega
    rw [hlow]
    omega

theorem topNat_ctrValue (ctr : U32) : topNat (ctrValue ctr) 16 = ctr.toNat := by
  have hlt := ctr.isLt
  have hzero : topNat (ctrValue ctr) 12 = 0 := by
    have hcongr : topNat (ctrValue ctr) 12 = topNat Block.zero 12 :=
      topNat_congr (by decide) fun i hi => by
        unfold ctrValue
        rw [if_neg (by rintro rfl; exact absurd hi (by decide)),
          if_neg (by rintro rfl; exact absurd hi (by decide)),
          if_neg (by rintro rfl; exact absurd hi (by decide)),
          if_neg (by rintro rfl; exact absurd hi (by decide))]
        rfl
    rw [hcongr]
    rfl
  have h12 : ctrValue ctr (Fin.ofNat 16 12) = (ctr >>> 24).setWidth 8 := rfl
  have h13 : ctrValue ctr (Fin.ofNat 16 13) = (ctr >>> 16).setWidth 8 := rfl
  have h14 : ctrValue ctr (Fin.ofNat 16 14) = (ctr >>> 8).setWidth 8 := rfl
  have h15 : ctrValue ctr (Fin.ofNat 16 15) = ctr.setWidth 8 := rfl
  rw [topNat, topNat, topNat, topNat, hzero, h12, h13, h14, h15]
  simp only [BitVec.toNat_setWidth, BitVec.toNat_ushiftRight, Nat.shiftRight_eq_div_pow]
  omega

/-- The counter of an access has come from the first one of the partition. -/
theorem setupFATCrypto_eq (image : NANDImage) (ctr : U32) :
    setupFATCrypto image ctr = ⟨image.fatKey, increment^[ctr.toNat] image.fatIV⟩ := by
  have hiv : (setupFATCrypto image ctr).iv = increment^[ctr.toNat] image.fatIV := by
    apply topNat_injective
    rw [topNat_iterate]
    exact (topNat_sum image.fatIV (ctrValue ctr) le_rfl).trans (by
      rw [topNat_ctrValue, Nat.sub_self, carryInto, Nat.add_zero])
  exact congrArg (Ctx.mk image.fatKey) hiv

/-! ## The accesses -/

section
variable (encrypt : Block → Block → Block) (host : Host) (image : NANDImage)

/-- The key stream of the partition. -/
abbrev fatStream (j : ℕ) : U8 := keystream encrypt image.fatKey image.fatIV j

theorem xcryptBlocks_spec (source : ℕ → U8) (blocks i c : ℕ) (target : ℕ → U8) :
    let r := xcryptBlocks encrypt source blocks i ⟨image.fatKey, increment^[c] image.fatIV⟩ target
    r.1 = ⟨image.fatKey, increment^[c + blocks] image.fatIV⟩ ∧
      ∀ j, r.2 j = if i ≤ j ∧ j < i + 16 * blocks then
        source j ^^^ fatStream encrypt image (16 * c + (j - i)) else target j := by
  induction blocks generalizing i c target with
  | zero =>
    refine ⟨rfl, fun j => ?_⟩
    rw [if_neg (by omega)]
    rfl
  | succ blocks ih =>
    obtain ⟨hctx, hbytes⟩ := ih (i + 16) (c + 1) (putBlock target i
      (((blockAt source i).bswap128.xor (encrypt image.fatKey
        (increment^[c] image.fatIV))).bswap128))
    rw [Function.iterate_succ_apply'] at hctx hbytes
    refine ⟨hctx.trans (by rw [Nat.add_assoc, Nat.add_comm 1]), fun j => (hbytes j).trans ?_⟩
    by_cases hfirst : i ≤ j ∧ j < i + 16
    · rw [if_neg (by omega), if_pos (by omega),
        putBlock_xor_at encrypt image.fatKey image.fatIV target source i c hfirst.1 hfirst.2]
    · rw [putBlock_of_not_mem _ _ _ (by omega)]
      by_cases hrest : i + 16 ≤ j ∧ j < i + 16 + 16 * blocks
      · rw [if_pos hrest, if_pos (by omega)]
        congr 2
        omega
      · rw [if_neg hrest, if_neg (by omega)]

theorem setupFATCrypto_addr {addr : ℕ} (haddr : addr < 2 ^ 36) :
    setupFATCrypto image (BitVec.ofNat 32 (addr / 16)) =
      ⟨image.fatKey, increment^[addr / 16] image.fatIV⟩ := by
  rw [setupFATCrypto_eq, BitVec.toNat_ofNat, Nat.mod_eq_of_lt (by omega)]

theorem writeSectors_spec (buf uninit : ℕ → U8) {sectors s c : ℕ} {f g : File}
    (h : writeSectors encrypt host buf uninit sectors s
      ⟨image.fatKey, increment^[c] image.fatIV⟩ f = (true, g)) :
    (∀ j, g.bytes j = if f.position ≤ j ∧ j < f.position + 0x200 * sectors then
        buf (s + (j - f.position)) ^^^ fatStream encrypt image (16 * c + (j - f.position))
      else f.bytes j) ∧
      f.length ≤ g.length ∧ (0 < sectors → f.position + 0x200 * sectors ≤ g.length) := by
  induction sectors generalizing s c f with
  | zero =>
    cases h
    refine ⟨fun j => ?_, le_rfl, nofun⟩
    rw [if_neg (by omega)]
  | succ sectors ih =>
    obtain ⟨hctx, hbytes⟩ := xcryptBlocks_spec encrypt image (fun i => buf (s + i)) 32 0 c uninit
    rw [writeSectors] at h
    dsimp only at hctx hbytes h
    rw [hctx] at h
    unfold File.write at h
    cases hfail : host.writeFails f 0x200 with
    | some broken =>
      rw [hfail] at h
      cases h
    | none =>
      rw [hfail] at h
      dsimp only at h
      obtain ⟨hrest, hle, hend⟩ := ih h
      dsimp only at hrest hle hend
      rw [Nat.mul_succ]
      refine ⟨fun j => ?_, (le_max_left ..).trans hle, fun _ => ?_⟩
      · refine (hrest j).trans ?_
        by_cases hfirst : f.position ≤ j ∧ j < f.position + 0x200
        · have hlater : ¬(f.position + 0x200 ≤ j ∧
              j < f.position + 0x200 + 0x200 * sectors) := by omega
          have hall : f.position ≤ j ∧ j < f.position + (0x200 * sectors + 0x200) :=
            ⟨hfirst.1, hfirst.2.trans_le (Nat.add_le_add_left (Nat.le_add_left ..) _)⟩
          have hin : 0 ≤ j - f.position ∧ j - f.position < 0 + 16 * 32 := by omega
          rw [if_neg hlater, if_pos hfirst, if_pos hall]
          exact (hbytes _).trans (if_pos hin)
        · by_cases hlater : f.position + 0x200 ≤ j ∧ j < f.position + 0x200 + 0x200 * sectors
          · have hall : f.position ≤ j ∧ j < f.position + (0x200 * sectors + 0x200) :=
              ⟨(Nat.le_add_right ..).trans hlater.1,
                hlater.2.trans_eq (by rw [Nat.add_assoc, Nat.add_comm 0x200])⟩
            have hindex : s + 0x200 + (j - (f.position + 0x200)) = s + (j - f.position) := by omega
            have hstream : 16 * (c + 32) + (j - (f.position + 0x200)) =
                16 * c + (j - f.position) := by omega
            rw [if_pos hlater, if_pos hall, hindex, hstream]
          · have hall : ¬(f.position ≤ j ∧ j < f.position + (0x200 * sectors + 0x200)) := by
              rintro ⟨hle, hlt⟩
              rcases Nat.lt_or_ge j (f.position + 0x200) with hbefore | hafter
              · exact hfirst ⟨hle, hbefore⟩
              · exact hlater ⟨hafter, hlt.trans_eq (by rw [Nat.add_assoc, Nat.add_comm 0x200])⟩
            rw [if_neg hlater, if_neg hfirst, if_neg hall]
      · rcases Nat.eq_zero_or_pos sectors with rfl | hpos
        · exact (le_max_right ..).trans hle
        · have := hend hpos
          omega

/-- What is in the file after a write that succeeds. -/
theorem writeFATBlock_spec (uninit : ℕ → U8) {addr len : ℕ} (buf : ℕ → U8) (f : File)
    (haligned : addr % 16 = 0) (haddr : addr < 2 ^ 36) (hlen : len % 0x200 = 0)
    (h : (writeFATBlock encrypt host image uninit addr len buf f).1 = len) :
    let g := (writeFATBlock encrypt host image uninit addr len buf f).2
    (∀ j, g.bytes j = if addr ≤ j ∧ j < addr + len then
        buf (j - addr) ^^^ fatStream encrypt image j else f.bytes j) ∧
      (0 < len → addr + len ≤ g.length) := by
  have hnothing : len = 0 → ∀ j : ℕ, ∀ b : U8, b = (if addr ≤ j ∧ j < addr + len then
      buf (j - addr) ^^^ fatStream encrypt image j else b) := by
    intro hzero j b
    rw [if_neg (by omega)]
  unfold writeFATBlock File.seek at h ⊢
  rw [setupFATCrypto_addr image haddr] at h ⊢
  split_ifs at h ⊢ with hseek
  · exact ⟨fun j => hnothing h.symm j _, fun hpos => absurd h hpos.ne⟩
  · dsimp only at h ⊢
    have hsectors : 0x200 * ((len + 0x1FF) / 0x200) = len := by omega
    cases hrun : writeSectors encrypt host buf uninit ((len + 0x1FF) / 0x200) 0
        ⟨image.fatKey, increment^[addr / 16] image.fatIV⟩ { f with position := addr } with
    | mk ok g =>
      cases ok with
      | true =>
        obtain ⟨hbytes, -, hend⟩ := writeSectors_spec encrypt host image buf uninit hrun
        dsimp only at hbytes hend ⊢
        rw [hsectors] at hbytes hend
        refine ⟨fun j => ?_, fun hpos => hend (by omega)⟩
        rw [hbytes]
        by_cases hin : addr ≤ j ∧ j < addr + len
        · rw [if_pos hin, if_pos hin, Nat.zero_add,
            show 16 * (addr / 16) + (j - addr) = j by omega]
        · rw [if_neg hin, if_neg hin]
      | false =>
        rw [hrun] at h
        have hzero : len = 0 := h.symm
        subst hzero
        cases hrun

/-- A read decrypts the bytes of the file, and leaves them as they are. -/
theorem readFATBlock_spec (addr len : ℕ) (buf : ℕ → U8) (f : File) :
    let r := readFATBlock encrypt host image addr len buf f
    r.2.2.bytes = f.bytes ∧ r.2.2.length = f.length ∧
      (r.1 = len → ∀ i < len, r.2.1 i =
        f.bytes (addr + i) ^^^ fatStream encrypt image (16 * (addr / 16 % 2 ^ 32) + i)) ∧
      ((∀ g a, host.seekFails g a = false) → (∀ g n, host.readFails g n = false) →
        (0 < len → addr + len ≤ f.length) → r.1 = len) := by
  unfold readFATBlock File.seek
  rw [setupFATCrypto_eq, BitVec.toNat_ofNat]
  split_ifs with hseek
  · refine ⟨rfl, rfl, fun hzero i hi => ?_, fun hnever => ?_⟩
    · dsimp only at hzero
      omega
    · rw [hnever] at hseek
      cases hseek
  · dsimp only
    unfold File.read
    dsimp only
    split_ifs with hread
    · refine ⟨rfl, rfl, fun hzero i hi => ?_, fun _ hnever hinside => ?_⟩
      · dsimp only at hzero
        omega
      · rw [hnever] at hread
        rcases hread with hfail | hzero | hshort
        · cases hfail
        · exact hzero.symm
        · have hzero : len = 0 := by
            by_contra hne
            have := hinside (Nat.pos_of_ne_zero hne)
            omega
          exact hzero.symm
    · refine ⟨rfl, rfl, fun _ i hi => ?_, fun _ _ _ => rfl⟩
      obtain ⟨-, hbytes⟩ := xcryptBlocks_spec encrypt image
        (fun i => if i < len then f.bytes (addr + i) else buf i) ((len + 15) / 16) 0
        (addr / 16 % 2 ^ 32) (fun i => if i < len then f.bytes (addr + i) else buf i)
      refine (hbytes i).trans ?_
      rw [if_pos (by omega), if_pos hi, Nat.sub_zero]

/-! ## A write and the reads after it -/

/-- Reads one after the other, each of an address, a length and a buffer. -/
def readPieces : List (ℕ × ℕ × (ℕ → U8)) → File → List (ℕ × (ℕ → U8))
  | [], _ => []
  | (addr, len, buf) :: pieces, f =>
    let (ret, out, f) := readFATBlock encrypt host image addr len buf f
    (ret, out) :: readPieces pieces f

/-- A piece of what was written. -/
def Piece (addr len : ℕ) (piece : ℕ × ℕ × (ℕ → U8)) : Prop :=
  piece.1 % 16 = 0 ∧ piece.2.1 % 16 = 0 ∧ addr ≤ piece.1 ∧ piece.1 + piece.2.1 ≤ addr + len ∧
    piece.1 < 2 ^ 36

theorem readPieces_spec {addr len : ℕ} (buf : ℕ → U8) {f : File}
    (hbytes : ∀ j, addr ≤ j → j < addr + len →
      f.bytes j = buf (j - addr) ^^^ fatStream encrypt image j)
    (hend : 0 < len → addr + len ≤ f.length) {pieces : List (ℕ × ℕ × (ℕ → U8))}
    (hpieces : ∀ p ∈ pieces, Piece addr len p) :
    List.Forall₂ (fun p r => (r.1 = p.2.1 → ∀ i < p.2.1, r.2 i = buf (p.1 + i - addr)) ∧
        ((∀ g a, host.seekFails g a = false) → (∀ g n, host.readFails g n = false) →
          r.1 = p.2.1))
      pieces (readPieces encrypt host image pieces f) := by
  induction pieces generalizing f with
  | nil => exact .nil
  | cons p pieces ih =>
    obtain ⟨a, n, b⟩ := p
    obtain ⟨haligned, -, hle, hinside, haddr⟩ := hpieces _ (List.mem_cons_self ..)
    dsimp only at haligned hle hinside haddr
    obtain ⟨hsame, hlength, hdata, hok⟩ :=
      readFATBlock_spec encrypt host image a n b f
    refine .cons ⟨fun hret i hi => ?_, fun hseek hread => ?_⟩
      (ih (f := (readFATBlock encrypt host image a n b f).2.2) ?_ ?_ ?_)
    · have hstream : 16 * (a / 16 % 2 ^ 32) + i = a + i := by
        rw [Nat.mod_eq_of_lt (by omega)]
        omega
      refine (hdata hret i hi).trans ?_
      dsimp only at hi
      rw [hstream, hbytes _ (by omega) (by omega), BitVec.xor_assoc, BitVec.xor_self, BitVec.xor_zero]
    · refine hok hseek hread fun hpos => ?_
      have := hend (by omega)
      omega
    · intro j hj hj'
      rw [hsame]
      exact hbytes j hj hj'
    · rw [hlength]
      exact hend
    · exact fun p hp => hpieces p (List.mem_cons_of_mem _ hp)

end

/-- ES data and sectors of the partition come back as they were, whatever the block function. -/
theorem nand_round_trips (encrypt : Block → Block → Block) :
    (∀ (key uninit : Block) (data : ℕ → U8) (len : ℕ), len < 0x1000000 →
      let cipher := (esEncrypt encrypt key uninit data len).2
      let plain := (esDecrypt encrypt key cipher len).2
      (esDecrypt encrypt key cipher len).1 = true ∧ (∀ j < len, plain j = data j) ∧
        ∀ j, len + 0x11 ≤ j → j ≤ len + 0x1C → cipher j = data j ∧ plain j = data j) ∧
    ∀ (host : Host) (image : NANDImage) (uninit : ℕ → U8) (addr len : ℕ) (buf : ℕ → U8) (f : File),
      addr % 16 = 0 → addr < 2 ^ 36 → len % 0x200 = 0 →
      (writeFATBlock encrypt host image uninit addr len buf f).1 = len →
      let g := (writeFATBlock encrypt host image uninit addr len buf f).2
      (∀ j, j < addr ∨ addr + len ≤ j → g.bytes j = f.bytes j) ∧
        ∀ pieces : List (ℕ × ℕ × (ℕ → U8)), (∀ p ∈ pieces, Piece addr len p) →
          List.Forall₂ (fun p r => (r.1 = p.2.1 → ∀ i < p.2.1, r.2 i = buf (p.1 + i - addr)) ∧
              ((∀ g a, host.seekFails g a = false) → (∀ g n, host.readFails g n = false) →
                r.1 = p.2.1))
            pieces (readPieces encrypt host image pieces g) := by
  refine ⟨fun key uninit data len hlen => ?_, fun host image uninit addr len buf f haligned haddr
    hlen hwritten => ?_⟩
  · obtain ⟨-, hreturns, hplain, hnonce, -⟩ := es_round_trip encrypt key uninit data hlen
    exact ⟨hreturns, hplain, hnonce⟩
  · obtain ⟨hbytes, hend⟩ :=
      writeFATBlock_spec encrypt host image uninit buf f haligned haddr hlen hwritten
    refine ⟨fun j hj => ?_, fun pieces => readPieces_spec encrypt host image buf ?_ hend⟩
    · rw [hbytes, if_neg (by omega)]
    · intro j hle hlt
      rw [hbytes, if_pos ⟨hle, hlt⟩]

/-- A host on which nothing fails. -/
def steadyHost : Host := ⟨fun _ _ => false, fun _ _ => false, fun _ _ => none⟩

def blankFile : File := ⟨fun _ => 0, 0, 0⟩

def blankImage : NANDImage := ⟨Block.zero, Block.zero⟩

theorem nand_round_trips_sector :
    (esDecrypt (fun _ b => b) Block.zero
      (esEncrypt (fun _ b => b) Block.zero Block.zero (fun j => BitVec.ofNat 8 j) 20).2 20).1 =
        true ∧
      (readFATBlock (fun _ b => b) steadyHost blankImage 0x210 0x10 (fun _ => 0)
        (writeFATBlock (fun _ b => b) steadyHost blankImage (fun _ => 0) 0x200 0x200
          (fun j => BitVec.ofNat 8 j) blankFile).2).2.1 3 = 0x13 := by
  obtain ⟨hes, hfat⟩ := nand_round_trips fun _ b => b
  have hread := (hfat steadyHost blankImage (fun _ => 0) 0x200 0x200 (fun j => BitVec.ofNat 8 j)
    blankFile rfl (by omega) rfl rfl).2 [(0x210, 0x10, fun _ => 0)]
    (List.forall_mem_singleton.mpr ⟨rfl, rfl, by decide, by decide, by decide⟩)
  cases hread with
  | cons hpiece _ =>
    exact ⟨(hes Block.zero Block.zero (fun j => BitVec.ofNat 8 j) 20 (by omega)).1,
      hpiece.1 (hpiece.2 (fun _ _ => rfl) fun _ _ => rfl) 3 (by decide)⟩

/-- The block at 2^36 is the first whose number does not fit the counter's parameter. -/
theorem increment_past_counter : increment^[2 ^ 32] Block.zero 11 = 1 := by
  have hblock : increment^[2 ^ 32] Block.zero = fun i => if i = 11 then 1 else 0 := by
    apply topNat_injective
    rw [topNat_iterate]
    rfl
  rw [hblock]
  rfl

/-- A write that runs over the end of the counter, and a read that starts behind it. -/
theorem nand_counter_wraps :
    let g := writeFATBlock (fun _ b => b) steadyHost blankImage (fun _ => 0) (2 ^ 36 - 0x200) 0x400
      (fun _ => 0) blankFile
    let r := readFATBlock (fun _ b => b) steadyHost blankImage (2 ^ 36) 0x200 (fun _ => 0) g.2
    g.1 = 0x400 ∧ r.1 = 0x200 ∧ r.2.1 4 = 1 := by
  have hwritten : (writeFATBlock (fun _ b => b) steadyHost blankImage (fun _ => 0) (2 ^ 36 - 0x200)
      0x400 (fun _ => 0) blankFile).1 = 0x400 := rfl
  obtain ⟨hbytes, hend⟩ := writeFATBlock_spec (fun _ b => b) steadyHost blankImage (fun _ => 0)
    (fun _ => 0) blankFile (by omega) (by omega) (by omega) hwritten
  obtain ⟨-, -, hdata, hok⟩ := readFATBlock_spec (fun _ b => b) steadyHost blankImage (2 ^ 36) 0x200
    (fun _ => 0) (writeFATBlock (fun _ b => b) steadyHost blankImage (fun _ => 0) (2 ^ 36 - 0x200)
      0x400 (fun _ => 0) blankFile).2
  have hread := hok (fun _ _ => rfl) (fun _ _ => rfl) fun _ => hend (by omega)
  refine ⟨hwritten, hread, (hdata hread 4 (by omega)).trans ?_⟩
  rw [hbytes, if_pos (by omega)]
  have hat : fatStream (fun _ b => b) blankImage (2 ^ 36 + 4) = 1 := increment_past_counter
  rw [hat]
  rfl

end MelonDS.DSi.NAND
