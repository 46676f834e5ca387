import MelonDS.GDB.MemoryAccess

/-!
# Which memory commands are carried out

A command is an address and a length in hexadecimal digits, and a body that stands for as many
bytes. What fits that form is carried out and answered, everything else is answered with an error
and touches no memory. A read of what was written answers with its bytes.
-/

namespace MelonDS.GDB
open FilledBuffer HexText

/-- An address, a comma, a length, and a colon before the body of a write. -/
structure Ranged (input : List U8) (address length : U32) (body : Option (List U8)) : Prop where
  fits : input.length ≤ maxPayload
  split : ∃ a l, input = a ++ 44 :: (l ++ body.elim [] fun b => 58 :: b) ∧
    IsNumber a address.toNat ∧ IsNumber l length.toNat
  inside : address.toNat + length.toNat ≤ 2 ^ 32

/-- A body of escaped bytes. -/
def unescape : List U8 → Option (List U8)
  | [] => some []
  | v :: rest =>
    if v = 125 then
      match rest with
      | [] => none
      | w :: rest => (unescape rest).map fun data => (w ^^^ 0x20) :: data
    else if v = 36 ∨ v = 35 then none
    else (unescape rest).map fun data => v :: data

/-- A write of the data, with the body decoded by `decode`. -/
def IsWrite (decode : List U8 → Option (List U8)) (input : List U8) (address : U32)
    (data : List U8) : Prop :=
  ∃ length body, Ranged input address length (some body) ∧ decode body = some data ∧
    data.length = length.toNat

theorem unescape_escaped (w : U8) (rest : List U8) :
    unescape (125 :: w :: rest) = (unescape rest).map fun data => (w ^^^ 0x20) :: data := by
  rw [unescape, if_pos rfl]

theorem unescape_plain {v : U8} (rest : List U8) (h125 : v ≠ 125) (h : ¬(v = 36 ∨ v = 35)) :
    unescape (v :: rest) = (unescape rest).map fun data => v :: data := by
  rw [unescape.eq_def]
  dsimp only
  rw [if_neg h125, if_neg h]

def escape (data : List U8) : List U8 :=
  data.flatMap fun v => if v = 125 ∨ v = 36 ∨ v = 35 then [125, v ^^^ 0x20] else [v]

/-- Every data can be sent. -/
theorem unescape_escape (data : List U8) : unescape (escape data) = some data := by
  induction data with
  | nil => rfl
  | cons v data ih =>
    have hsplit : escape (v :: data) =
        (if v = 125 ∨ v = 36 ∨ v = 35 then [125, v ^^^ 0x20] else [v]) ++ escape data := rfl
    rw [hsplit]
    split_ifs with h
    · change unescape (125 :: (v ^^^ 0x20) :: escape data) = _
      rw [unescape_escaped, ih, BitVec.xor_assoc, BitVec.xor_self, BitVec.xor_zero]
      rfl
    · push Not at h
      change unescape (v :: escape data) = _
      rw [unescape_plain _ h.1 (not_or.mpr h.2), ih]
      rfl

/-! ## The range -/

theorem parseNumber_eq_iff {part : List U8} {value : U32} :
    parseNumber part = some value ↔ IsNumber part value.toNat := by
  rw [← fromChars_eq_iff]
  unfold parseNumber
  constructor
  · intro h
    split at h
    · rename_i n ptr hchars
      split_ifs at h with hptr
      rw [hptr] at hchars
      have hlt := (fromChars_eq_iff.mp hchars).2.2.2
      cases h
      rw [hchars, BitVec.toNat_ofNat, Nat.mod_eq_of_lt hlt]
    · cases h
  · intro h
    rw [h]
    simp

theorem not_mem_of_isNumber {part : List U8} {n : ℕ} (h : IsNumber part n) {c : U8}
    (hc : digit c = none) : c ∉ part := by
  intro hmem
  have hdigit := h.2.1 c hmem
  simp [IsDigit, hc] at hdigit

theorem find_append {a : List U8} {c : U8} (h : c ∉ a) (rest : List U8) :
    find (a ++ c :: rest) c (some 0) = some a.length := by
  have hidx : (a ++ c :: rest).findIdx? (· == c) = some a.length := by
    rw [List.findIdx?_append, List.findIdx?_eq_none_iff.mpr]
    · simp [List.findIdx?_cons]
    · intro x hx
      have hne : x ≠ c := fun hxc => h (hxc ▸ hx)
      simpa using hne
  simp [find, hidx]

/-- Where a character is found, it stands. -/
theorem find_spec {input : List U8} {c : U8} {pos i : ℕ} (h : find input c (some pos) = some i) :
    pos ≤ i ∧ i < input.length ∧ input.drop i = c :: input.drop (i + 1) := by
  simp only [find, Option.map_eq_some_iff] at h
  obtain ⟨k, hk, rfl⟩ := h
  obtain ⟨hlt, hget, -⟩ := List.findIdx?_eq_some_iff_getElem.mp hk
  rw [List.length_drop] at hlt
  have hin : k + pos < input.length := by omega
  refine ⟨by omega, hin, ?_⟩
  rw [List.drop_eq_getElem_cons hin]
  congr 1
  rw [List.getElem_drop] at hget
  simpa [Nat.add_comm] using hget

/-- The text of a command: the bytes that count. -/
def input (cmd : List U8) (len : ℤ) : List U8 := cmd.take len.toNat

theorem input_length {cmd : List U8} {len : ℤ} (hlen : len ≤ cmd.length) :
    (input cmd len).length = len.toNat := by
  rw [input, List.length_take]
  omega

theorem view_input {cmd : List U8} {len : ℤ} (hlen : len ≤ cmd.length) :
    view cmd len.toNat = .ok (input cmd len) :=
  if_pos (by omega)

theorem substr_eq {data : List U8} {pos : ℕ} (h : pos ≤ data.length) (n : ℕ) :
    substr data pos n = .ok ((data.drop pos).take n) := if_pos h

/-- What follows an address and a comma: the rest of the text or a length and a colon. -/
theorem Ranged.parse {cmd : List U8} {len : ℤ} {address length : U32} {body : Option (List U8)}
    (hlen : len ≤ cmd.length) (h : Ranged (input cmd len) address length body) :
    parseMemoryRange cmd len body.isSome =
      .ok (some (address, length, (input cmd len).length - (body.getD []).length)) := by
  have hsize := input_length hlen
  have hfits := h.fits
  obtain ⟨a, l, hsplit, ha, hl⟩ := h.split
  have hne : len.toNat ≠ 0 := by
    rw [← hsize, hsplit]
    simp
  have hcomma : find (input cmd len) 44 (some 0) = some a.length := by
    rw [hsplit]
    exact find_append (not_mem_of_isNumber ha (by decide)) _
  have hstop : (if body.isSome then find (input cmd len) 58 (some a.length)
      else some (input cmd len).length) = some (a.length + 1 + l.length) := by
    rw [hsplit]
    cases body with
    | none => simp; omega
    | some b =>
      have hl58 : (58 : U8) ∉ 44 :: l := by
        rw [List.mem_cons, not_or]
        exact ⟨by decide, not_mem_of_isNumber hl (by decide)⟩
      have hfind := find_append hl58 b
      simp only [find, List.drop_zero, Nat.add_zero, Option.map_id'] at hfind
      simp only [Option.isSome_some, if_true, find, Option.elim, List.drop_left]
      rw [← List.cons_append, hfind]
      simp
      omega
  have hfirst : ((input cmd len).drop 0).take a.length = a := by
    rw [hsplit]
    simp
  have hsecond : ((input cmd len).drop (a.length + 1)).take
      (a.length + 1 + l.length - a.length - 1) = l := by
    rw [hsplit, show a.length + 1 + l.length - a.length - 1 = l.length by omega]
    simp
  have hlength : (input cmd len).length =
      a.length + 1 + l.length + (body.elim [] fun b => (58 : U8) :: b).length := by
    rw [hsplit]
    simp
    omega
  unfold parseMemoryRange
  rw [if_neg (by omega), view_input hlen]
  dsimp only [bind, Except.bind]
  rw [hcomma, hstop]
  dsimp only
  rw [substr_eq (Nat.zero_le _), substr_eq (by omega), hfirst, hsecond]
  dsimp only
  rw [parseNumber_eq_iff.mpr ha, parseNumber_eq_iff.mpr hl]
  dsimp only
  rw [if_neg (by have := h.inside; omega)]
  cases body with
  | none =>
    simp only [Option.elim, List.length_nil] at hlength
    simp [pure, Except.pure]
    omega
  | some b =>
    simp only [Option.elim, List.length_cons] at hlength
    simp [pure, Except.pure]
    omega

theorem Ranged.body_eq {text : List U8} {address length : U32} {b : List U8}
    (h : Ranged text address length (some b)) : text.drop (text.length - b.length) = b := by
  obtain ⟨a, l, hsplit, -, -⟩ := h.split
  have hassoc : text = (a ++ 44 :: (l ++ [58])) ++ b := by rw [hsplit]; simp
  rw [hassoc, List.length_append, Nat.add_sub_cancel, List.drop_left]

/-- A range that is parsed has the form of one. -/
theorem ranged_of_parse {cmd : List U8} {len : ℤ} (hasBody : Bool) (hlen : len ≤ cmd.length) :
    (∃ address length offset,
        parseMemoryRange cmd len hasBody = .ok (some (address, length, offset)) ∧
        offset ≤ (input cmd len).length ∧
        Ranged (input cmd len) address length
          (if hasBody then some ((input cmd len).drop offset) else none)) ∨
      parseMemoryRange cmd len hasBody = .ok none := by
  have hsize := input_length hlen
  unfold parseMemoryRange
  by_cases hbad : len < 0 ∨ maxPayload < len.toNat
  · exact .inr (if_pos hbad)
  rw [if_neg hbad, view_input hlen]
  dsimp only [bind, Except.bind]
  split
  · rename_i comma stop hcomma hstop
    obtain ⟨-, hin, hdrop⟩ := find_spec hcomma
    have hstop' : comma + 1 ≤ stop ∧ stop ≤ (input cmd len).length ∧
        (input cmd len).drop stop = if hasBody then 58 :: (input cmd len).drop (stop + 1) else [] := by
      cases hasBody with
      | false =>
        simp only [Bool.false_eq_true, if_false, Option.some.injEq] at hstop
        subst hstop
        exact ⟨hin, le_rfl, by simp⟩
      | true =>
        simp only [if_true] at hstop
        rw [hcomma] at hstop
        obtain ⟨hle, hlt, hat⟩ := find_spec hstop
        refine ⟨Nat.lt_of_le_of_ne hle ?_, hlt.le, hat⟩
        rintro rfl
        rw [hdrop] at hat
        exact absurd (List.cons.inj hat).1 (by decide)
    rw [substr_eq (Nat.zero_le _), substr_eq (by omega)]
    dsimp only
    split
    · rename_i address length haddress hlength
      by_cases hover : 2 ^ 32 < address.toNat + length.toNat
      · exact .inr (by rw [if_pos hover]; rfl)
      rw [if_neg hover]
      rw [parseNumber_eq_iff] at haddress hlength
      refine .inl ⟨address, length, _, rfl, ?_, ?_, ?_, by omega⟩
      · cases hasBody with
        | false => exact hstop'.2.1
        | true =>
          have hlen := congrArg List.length hstop'.2.2
          simp only [if_true, List.length_drop, List.length_cons] at hlen ⊢
          omega
      · omega
      · refine ⟨_, _, ?_, haddress, hlength⟩
        have htail : (input cmd len).drop (comma + 1) =
            ((input cmd len).drop (comma + 1)).take (stop - comma - 1) ++
              (input cmd len).drop stop := by
          conv_lhs => rw [← List.take_append_drop (stop - comma - 1)
            ((input cmd len).drop (comma + 1))]
          rw [List.drop_drop, show comma + 1 + (stop - comma - 1) = stop by omega]
        conv_lhs => rw [← List.take_append_drop comma (input cmd len), hdrop, htail, hstop'.2.2]
        cases hasBody <;> simp
    · exact .inr rfl
  · exact .inr rfl

/-! ## The bodies -/

theorem readAt_input {cmd : List U8} {len : ℤ} {i : ℕ} {v : U8} {rest : List U8}
    (h : (input cmd len).drop i = v :: rest) : readAt cmd i = .ok v := by
  have hget : (input cmd len)[i]? = some v := by
    rw [← List.head?_drop, h]
    rfl
  rw [input, List.getElem?_take] at hget
  split_ifs at hget
  rw [readAt, hget]

theorem drop_succ_of_drop {data : List U8} {i : ℕ} {v : U8} {rest : List U8}
    (h : data.drop i = v :: rest) : data.drop (i + 1) = rest := by
  rw [← List.drop_drop, h]
  rfl

theorem unhexLoop_spec {cmd : List U8} {len : ℤ} {offset : ℕ} (turns : ℕ) {i : ℕ} {data : ℕ → U8}
    {written : List U8} (rest : List U8) (hrest : (input cmd len).drop (offset + i * 2) = rest)
    (hlength : rest.length = turns * 2) (h : Holds data written) (hwritten : written.length = i)
    (hcapacity : i + turns ≤ maxPayload / 2) :
    (∃ bytes next, bytesOf rest = some bytes ∧
        unhexLoop cmd offset turns i data = .ok (some next) ∧ Holds next (written ++ bytes)) ∨
      bytesOf rest = none ∧ unhexLoop cmd offset turns i data = .ok none := by
  induction turns generalizing i data written rest with
  | zero =>
    obtain rfl : rest = [] := List.eq_nil_of_length_eq_zero (by omega)
    exact .inl ⟨[], data, rfl, rfl, by rwa [List.append_nil]⟩
  | succ turns ih =>
    match rest, hrest, hlength with
    | [_], _, hlength =>
      rw [List.length_singleton] at hlength
      omega
    | a :: b :: rest, hrest, hlength =>
      have hnext := drop_succ_of_drop hrest
      have hafter := drop_succ_of_drop hnext
      rw [unhexLoop, readAt_input hrest, readAt_input hnext]
      dsimp only [bind, Except.bind]
      rcases fromChars_pair a b with ⟨x, y, hx, hy, hchars⟩ | ⟨hnone, hchars⟩
      · obtain ⟨next, hput, hholds⟩ := h.put (maxPayload / 2) (by omega)
          (BitVec.ofNat 8 (16 * x + y))
        rw [hwritten] at hput
        simp only [hchars, hput]
        have hstep := ih (i := i + 1) rest
          (by rw [show offset + (i + 1) * 2 = offset + i * 2 + 1 + 1 by omega]; exact hafter)
          (by simp only [List.length_cons] at hlength; omega) hholds
          (by rw [List.length_append, hwritten, List.length_singleton]) (by omega)
        rcases hstep with ⟨bytes, last, hbytes, hrun, hheld⟩ | ⟨hbytes, hrun⟩
        · refine .inl ⟨BitVec.ofNat 8 (16 * x + y) :: bytes, last, ?_, hrun, ?_⟩
          · rw [bytesOf, hx, hy, hbytes]
          · rwa [List.append_assoc] at hheld
        · refine .inr ⟨?_, hrun⟩
          rw [bytesOf, hx, hy, hbytes]
      · refine .inr ⟨?_, ?_⟩
        · rw [bytesOf]
          rcases hnone with hnone | hnone <;> rw [hnone]
          cases digit a <;> rfl
        · split
          · rename_i value hvalue
            exact absurd hvalue (hchars value)
          · rfl

theorem unescapeLoop_spec {cmd : List U8} {len : ℤ} (length turns : ℕ) {offset : ℕ}
    {data : ℕ → U8} {written rest : List U8} (hlen : len ≤ cmd.length)
    (hrest : (input cmd len).drop offset = rest) (hoffset : offset ≤ (input cmd len).length)
    (hturns : rest.length ≤ turns) (h : Holds data written) (hwritten : written.length ≤ length)
    (hcapacity : length ≤ maxPayload) :
    (∃ bytes next, unescape rest = some bytes ∧
        unescapeLoop cmd len.toNat length turns offset written.length data =
          .ok (some (written.length + bytes.length, next)) ∧ Holds next (written ++ bytes)) ∨
      (∀ bytes, unescape rest = some bytes → written.length + bytes.length ≠ length) ∧
        unescapeLoop cmd len.toNat length turns offset written.length data = .ok none := by
  have hsize := input_length hlen
  induction turns generalizing offset data written rest with
  | zero =>
    obtain rfl : rest = [] := List.eq_nil_of_length_eq_zero (by omega)
    exact .inl ⟨[], data, rfl, rfl, by rwa [List.append_nil]⟩
  | succ turns ih =>
    have hrestlen := congrArg List.length hrest
    rw [List.length_drop, hsize] at hrestlen
    rw [unescapeLoop]
    cases rest with
    | nil =>
      rw [if_neg (by simp only [List.length_nil] at hrestlen; omega)]
      exact .inl ⟨[], data, rfl, rfl, by rwa [List.append_nil]⟩
    | cons v rest =>
      rw [List.length_cons] at hturns hrestlen
      rw [if_pos (by omega)]
      by_cases hfull : written.length = length
      · rw [if_pos hfull]
        refine .inr ⟨fun bytes hbytes => ?_, rfl⟩
        have hne : bytes ≠ [] := by
          rintro rfl
          rw [unescape.eq_def] at hbytes
          dsimp only at hbytes
          split_ifs at hbytes
          · cases rest <;> simp at hbytes
          · simp at hbytes
        have := List.length_pos_iff.mpr hne
        omega
      rw [if_neg hfull, readAt_input hrest]
      dsimp only [bind, Except.bind]
      have hnext := drop_succ_of_drop hrest
      -- the turn after a byte `w` has been written
      have hturn : ∀ (w : U8) (offset' : ℕ) (rest' : List U8),
          (input cmd len).drop offset' = rest' → offset' ≤ (input cmd len).length →
          rest'.length ≤ turns →
          unescape (v :: rest) = (unescape rest').map (fun data => w :: data) →
          (∃ bytes next, unescape (v :: rest) = some bytes ∧
              (do let data ← put maxPayload data written.length w
                  unescapeLoop cmd len.toNat length turns offset' (written.length + 1) data) =
                Except.ok (some (written.length + bytes.length, next)) ∧
              Holds next (written ++ bytes)) ∨
            (∀ bytes, unescape (v :: rest) = some bytes →
                written.length + bytes.length ≠ length) ∧
              (do let data ← put maxPayload data written.length w
                  unescapeLoop cmd len.toNat length turns offset' (written.length + 1) data) =
                Except.ok none := by
        intro w offset' rest' hrest' hoffset' hturns' hescape
        obtain ⟨next, hput, hholds⟩ := h.put maxPayload (by omega) w
        have hlast : (written ++ [w]).length = written.length + 1 := by simp
        rw [hput, hescape]
        have hstep := ih hrest' hoffset' hturns' hholds (by omega)
        rw [hlast] at hstep
        rcases hstep with ⟨bytes, last, hbytes, hrun, hheld⟩ | ⟨hbytes, hrun⟩
        · refine .inl ⟨w :: bytes, last, by rw [hbytes]; rfl, ?_, ?_⟩
          · rw [List.length_cons, show written.length + (bytes.length + 1) =
              written.length + 1 + bytes.length by omega]
            exact hrun
          · rwa [List.append_assoc] at hheld
        · refine .inr ⟨fun bytes hmap => ?_, hrun⟩
          obtain ⟨tail, htail, rfl⟩ := Option.map_eq_some_iff.mp hmap
          have := hbytes tail htail
          rw [List.length_cons]
          omega
      by_cases hescape : v = 125
      · subst hescape
        rw [if_pos rfl]
        cases rest with
        | nil =>
          rw [List.length_nil] at hrestlen
          rw [if_pos (by omega)]
          exact .inr ⟨fun bytes hbytes => by simp [unescape] at hbytes, rfl⟩
        | cons w rest =>
          rw [List.length_cons] at hrestlen hturns
          rw [if_neg (by omega), readAt_input hnext]
          exact hturn (w ^^^ 0x20) (offset + 2) rest (drop_succ_of_drop hnext) (by omega)
            (by omega) (unescape_escaped w rest)
      · rw [if_neg hescape]
        by_cases hbad : v = 36 ∨ v = 35
        · rw [if_pos hbad]
          refine .inr ⟨fun bytes hbytes => ?_, rfl⟩
          rw [unescape.eq_def] at hbytes
          dsimp only at hbytes
          rw [if_neg hescape, if_pos hbad] at hbytes
          cases hbytes
        · rw [if_neg hbad]
          exact hturn v (offset + 1) rest hnext (by omega) (by omega)
            (unescape_plain rest hescape hbad)

/-! ## The answers -/

/-- A byte that a packet carries as it is. -/
def Plain (v : U8) : Prop := ¬(v = 36 ∨ v = 35 ∨ v = 125 ∨ v = 42)

instance : DecidablePred Plain := fun v =>
  inferInstanceAs (Decidable ¬(v = 36 ∨ v = 35 ∨ v = 125 ∨ v = 42))

/-- The packet of a payload without bytes to escape. -/
def frame (payload : List U8) : List U8 := 36 :: payload ++ 35 :: byteText payload.sum

theorem append_frame {data written : List U8} {p : Packet} (hplain : ∀ v ∈ data, Plain v)
    (h : Holds p.bytes written) (hposition : p.position = written.length) (hpos : 0 < written.length)
    (hfits : written.length - 1 + data.length ≤ maxPayload) :
    ∃ q, p.append data = .ok (some q) ∧ Holds q.bytes (written ++ data) ∧
      q.position = (written ++ data).length ∧ q.checksum = p.checksum + data.sum := by
  induction data generalizing p written with
  | nil => exact ⟨p, rfl, by rwa [List.append_nil], by simpa using hposition, by simp⟩
  | cons v data ih =>
    have hv : ¬(v = 36 ∨ v = 35 ∨ v = 125 ∨ v = 42) := hplain v (List.mem_cons_self ..)
    rw [List.length_cons] at hfits
    obtain ⟨next, hput, hholds⟩ := h.put bufferCapacity
      (by unfold maxPayload at hfits; unfold bufferCapacity; omega) v
    rw [← hposition] at hput
    obtain ⟨q, hrun, hheld, hlast, hsum⟩ := ih (p := ⟨next, p.position + 1, p.checksum + v⟩)
      (fun w hw => hplain w (List.mem_cons_of_mem v hw)) hholds (by simp [hposition])
      (by simp) (by rw [List.length_append, List.length_singleton]; omega)
    rw [List.append_assoc] at hheld hlast
    refine ⟨q, ?_, hheld, hlast, ?_⟩
    · rw [Packet.append]
      simp only [if_neg hv, Packet.push, bind, Except.bind, pure, Except.pure, hput]
      rw [if_neg (by omega)]
      exact hrun
    · rw [hsum, List.sum_cons, BitVec.add_assoc]

theorem resp_frame (uninit : ℕ → U8) {payload : List U8} (hplain : ∀ v ∈ payload, Plain v)
    (hfits : payload.length ≤ maxPayload) : resp uninit payload = .ok (some (frame payload)) := by
  obtain ⟨first, hfirst, hholds⟩ := (Holds.nil uninit).put bufferCapacity
    (by decide) 36
  obtain ⟨q, hrun, hheld, hposition, hsum⟩ := append_frame (p := ⟨first, 1, 0⟩) hplain hholds rfl
    (by decide) (by simpa using hfits)
  have hlength : ([] ++ [36] ++ payload : List U8).length = payload.length + 1 := by simp
  unfold maxPayload at hfits
  obtain ⟨hash, hhash, hheld⟩ := hheld.put bufferCapacity
    (by rw [hlength, bufferCapacity]; omega) 35
  obtain ⟨digits, hdigits, hheld⟩ := hexfmt8_holds bufferCapacity hheld
    (by rw [List.length_append, hlength, List.length_singleton, bufferCapacity]; omega) q.checksum
  have htext : ([] ++ [36] ++ payload ++ [35] ++ byteText q.checksum : List U8) = frame payload := by
    have hzero : q.checksum = payload.sum := hsum.trans (BitVec.zero_add _)
    rw [hzero]
    simp [frame]
  rw [htext] at hheld
  have hframe : (frame payload).length = payload.length + 4 := by
    simp [frame, byteText]
  obtain ⟨last, hlast, hheld⟩ := hheld.put bufferCapacity
    (by rw [hframe, bufferCapacity]; omega) 0
  have hspan := hheld.span bufferCapacity
    (by rw [List.length_append, hframe, bufferCapacity, List.length_singleton]; omega)
  rw [← hposition] at hhash
  rw [List.length_append, ← hposition, List.length_singleton] at hdigits
  rw [List.length_append, hframe, List.length_singleton] at hspan
  rw [hframe] at hlast
  rw [hlength] at hposition
  have hthree : q.position + 3 = payload.length + 4 := by omega
  unfold resp
  rw [if_neg (by unfold maxPayload; omega)]
  simp only [List.length_nil] at hfirst
  simp only [bind, Except.bind, hfirst, hrun, hhash, hdigits, hthree, hlast, hspan]
  simp [pure, Except.pure, ← hframe]

theorem respStr_frame (uninit : ℕ → U8) {s : String} (g : Guest)
    (hplain : ∀ v ∈ text s, Plain v) (hfits : (text s).length ≤ maxPayload) :
    respStr uninit s g = .ok (some (frame (text s)), g) := by
  unfold respStr
  rw [resp_frame uninit hplain hfits]
  rfl

theorem plain_digitOf {v : ℕ} (h : v < 16) : Plain (digitOf v) := by
  have hsmall : ∀ v < 16, Plain (digitOf v) := by decide
  exact hsmall v h

theorem plain_bytesText (data : List U8) : ∀ v ∈ bytesText data, Plain v := by
  intro v hv
  obtain ⟨b, -, hb⟩ := List.mem_flatMap.mp hv
  have hlt := b.isLt
  simp only [byteText, List.mem_cons, List.not_mem_nil, or_false] at hb
  rcases hb with rfl | rfl
  · exact plain_digitOf (by omega)
  · exact plain_digitOf (by omega)

/-! ## The commands -/

/-- A write is carried out and answered with OK exactly when the command stands for one. -/
def Writes (decode : List U8 → Option (List U8))
    (handle : List U8 → ℤ → Guest → Except Fault (Option (List U8) × Guest))
    (cmd : List U8) (len : ℤ) (g : Guest) (After : U32 → List U8 → Guest → Prop) : Prop :=
  (∃ address data t, IsWrite decode (input cmd len) address data ∧
      handle cmd len g = .ok (some (frame (text "OK")), t) ∧ Stored g t address data ∧
      (cellsFrom address data.length).Nodup ∧ After address data t) ∨
    (∀ address data, ¬IsWrite decode (input cmd len) address data) ∧
      handle cmd len g = .ok (some (frame (text "E01")), g)

/-- A read is answered with the bytes, or with an error when the answer does not fit. -/
def Reads (uninit : ℕ → U8) (cmd : List U8) (len : ℤ) (g : Guest) : Prop :=
  (∃ address length t, Ranged (input cmd len) address length none ∧
      length.toNat ≤ maxPayload / 2 ∧
      handle_m uninit cmd len g =
        .ok (some (frame (bytesText (g.load address length.toNat))), t) ∧
      Loaded g t address length.toNat) ∨
    (∃ address length, Ranged (input cmd len) address length none ∧
      maxPayload / 2 < length.toNat ∧
      handle_m uninit cmd len g = .ok (some (frame (text "E02")), g)) ∨
    (∀ address length, ¬Ranged (input cmd len) address length none) ∧
      handle_m uninit cmd len g = .ok (some (frame (text "E01")), g)

/-- Each read of a part of the range is answered with its bytes. -/
def ReadsBack (uninit : ℕ → U8) (address : U32) (data : List U8) (t : Guest) : Prop :=
  ∀ cmd (len : ℤ) first n, len ≤ cmd.length → Ranged (input cmd len) first n none →
    n.toNat ≤ maxPayload / 2 → (first - address).toNat + n.toNat ≤ data.length →
    ∃ t', handle_m uninit cmd len t =
      .ok (some (frame (bytesText ((data.drop (first - address).toNat).take n.toNat))), t')

section
variable (uninit : ℕ → U8) {cmd : List U8} {len : ℤ} (g : Guest)

theorem cellsFrom_nodup (address : U32) {n : ℕ} (h : n ≤ 2 ^ 32) : (cellsFrom address n).Nodup := by
  refine List.Nodup.map_on (fun i hi j hj heq => ?_) List.nodup_range
  rw [List.mem_range] at hi hj
  have hnat := congrArg BitVec.toNat (add_left_cancel heq)
  rwa [BitVec.toNat_ofNat, BitVec.toNat_ofNat, Nat.mod_eq_of_lt (by omega),
    Nat.mod_eq_of_lt (by omega)] at hnat

theorem Ranged.handle_m {address length : U32} (hlen : len ≤ cmd.length)
    (h : Ranged (input cmd len) address length none) :
    (length.toNat ≤ maxPayload / 2 ∧ ∃ t, handle_m uninit cmd len g =
        .ok (some (frame (bytesText (g.load address length.toNat))), t) ∧
          Loaded g t address length.toNat) ∨
      maxPayload / 2 < length.toNat ∧
        handle_m uninit cmd len g = .ok (some (frame (text "E02")), g) := by
  have hparse := h.parse hlen
  rw [Option.isSome_none] at hparse
  unfold GDB.handle_m
  rw [hparse]
  dsimp only [bind, Except.bind]
  by_cases hlong : maxPayload / 2 < length.toNat
  · rw [if_pos hlong]
    exact .inr ⟨hlong, respStr_frame uninit g (by decide) (by decide)⟩
  · rw [if_neg hlong]
    push Not at hlong
    obtain ⟨last, t, hrun, hholds, hloaded⟩ := readLoop_loaded length.toNat 0 address
      g (Nat.sub_le ..) (Nat.zero_le _) hlong (Holds.nil uninit) rfl
    rw [List.nil_append, Nat.sub_zero] at hholds
    have hlength : (bytesText (g.load address length.toNat)).length = length.toNat * 2 := by
      rw [bytesText_length, Guest.load, cellsFrom, List.length_map, List.length_map,
        List.length_range]
      omega
    have hfits : (bytesText (g.load address length.toNat)).length ≤ maxPayload := by
      unfold maxPayload at hlong ⊢
      omega
    have hspan := hholds.span maxPayload hfits
    rw [hlength] at hspan
    refine .inl ⟨hlong, t, ?_, hloaded⟩
    rw [hrun]
    dsimp only
    rw [hspan]
    dsimp only
    rw [resp_frame uninit (plain_bytesText _) hfits]
    rfl

theorem reads (hlen : len ≤ cmd.length) : Reads uninit cmd len g := by
  rcases ranged_of_parse false hlen with ⟨address, length, offset, -, -, h⟩ | hnone
  · rcases h.handle_m uninit g hlen with ⟨hshort, t, hrun, hloaded⟩ | ⟨hlong, hrun⟩
    · exact .inl ⟨address, length, t, h, hshort, hrun, hloaded⟩
    · exact .inr (.inl ⟨address, length, h, hlong, hrun⟩)
  · refine .inr (.inr ⟨fun address length h => ?_, ?_⟩)
    · have hparse := h.parse hlen
      rw [Option.isSome_none, hnone] at hparse
      cases hparse
    · unfold handle_m
      rw [hnone]
      exact respStr_frame (s := "E01") uninit g (by decide) (by decide)

theorem Stored.readsBack {t : Guest} {address : U32} {data : List U8}
    (h : Stored g t address data) (hsize : data.length ≤ 2 ^ 32) :
    ReadsBack uninit address data t := by
  intro cmd len first n hlen hranged hshort hrange
  rcases hranged.handle_m uninit t hlen with ⟨-, t', hrun, -⟩ | ⟨hlong, -⟩
  · rw [h.load hrange hsize] at hrun
    exact ⟨t', hrun⟩
  · omega

/-- What a write does once its body is decoded. -/
theorem writes_of_decoded {decode : List U8 → Option (List U8)}
    {handle : List U8 → ℤ → Guest → Except Fault (Option (List U8) × Guest)}
    {address length : U32} {body data : List U8}
    (hranged : Ranged (input cmd len) address length (some body)) (hdecode : decode body = some data)
    (hlength : data.length = length.toNat)
    (hhandle : handle cmd len g = (do
      let g ← writeMemory address data g
      respStr uninit "OK" g)) :
    Writes decode handle cmd len g (ReadsBack uninit) := by
  have hsize : data.length ≤ 2 ^ 32 := by
    have := length.isLt
    omega
  obtain ⟨t, hrun, hstored⟩ := writeMemory_stored address data g hsize
  refine .inl ⟨address, data, t, ⟨length, body, hranged, hdecode, hlength⟩, ?_, hstored,
    cellsFrom_nodup address hsize, hstored.readsBack uninit g hsize⟩
  rw [hhandle, hrun]
  exact respStr_frame (s := "OK") uninit t (by decide) (by decide)

/-- A body that the decoder does not accept with this length. -/
theorem not_isWrite {decode : List U8 → Option (List U8)} {address length : U32} {offset : ℕ}
    (hlen : len ≤ cmd.length)
    (hparse : parseMemoryRange cmd len true = .ok (some (address, length, offset)))
    (hbad : ∀ data, decode ((input cmd len).drop offset) = some data →
      data.length ≠ length.toNat) :
    ∀ address' data, ¬IsWrite decode (input cmd len) address' data := by
  rintro address' data ⟨length', body, hranged, hdecode, hlength⟩
  have hparse' := hranged.parse hlen
  rw [Option.isSome_some, hparse] at hparse'
  simp only [Except.ok.injEq, Option.some.injEq, Prod.mk.injEq, Option.getD_some] at hparse'
  obtain ⟨-, rfl, rfl⟩ := hparse'
  rw [hranged.body_eq] at hbad
  exact hbad data hdecode hlength

theorem handle_M_writes (hlen : len ≤ cmd.length) :
    Writes bytesOf (handle_M uninit) cmd len g (ReadsBack uninit) := by
  have hsize := input_length hlen
  have hrefused := respStr_frame (s := "E01") uninit g (by decide) (by decide)
  rcases ranged_of_parse true hlen with
    ⟨address, length, offset, hparse, hoffset, hranged⟩ | hnone
  · have hbody : ((input cmd len).drop offset).length = len.toNat - offset := by
      rw [List.length_drop, hsize]
    have hfits := hranged.fits
    by_cases hcount : length.toNat * 2 = len.toNat - offset
    · rcases unhexLoop_spec (i := 0) length.toNat
        ((input cmd len).drop offset) (by rw [Nat.zero_mul, Nat.add_zero]) (by rw [hbody, hcount]) (Holds.nil uninit) rfl
        (by omega) with ⟨data, next, hdecode, hrun, hholds⟩ | ⟨hdecode, hrun⟩
      · rw [List.nil_append] at hholds
        have hlength : data.length = length.toNat := by
          have := bytesOf_length hdecode
          omega
        have hspan := hholds.span (maxPayload / 2) (by omega)
        rw [hlength] at hspan
        refine writes_of_decoded uninit g hranged hdecode hlength ?_
        unfold handle_M
        rw [hparse]
        dsimp only [bind, Except.bind]
        rw [if_neg (not_not.mpr hcount), hrun]
        dsimp only
        rw [hspan]
      · refine .inr ⟨not_isWrite hlen hparse fun data hdata => ?_, ?_⟩
        · rw [hdata] at hdecode
          cases hdecode
        · unfold handle_M
          rw [hparse]
          dsimp only [bind, Except.bind]
          rw [if_neg (not_not.mpr hcount), hrun]
          exact hrefused
    · refine .inr ⟨not_isWrite hlen hparse fun data hdata hlength => ?_, ?_⟩
      · have := bytesOf_length hdata
        omega
      · unfold handle_M
        rw [hparse]
        dsimp only [bind, Except.bind]
        rw [if_pos hcount]
        exact hrefused
  · refine .inr ⟨fun address data ⟨length, body, hranged, _, _⟩ => ?_, ?_⟩
    · have hparse := hranged.parse hlen
      rw [Option.isSome_some, hnone] at hparse
      cases hparse
    · unfold handle_M
      rw [hnone]
      exact hrefused

theorem unescape_length {body data : List U8} (h : unescape body = some data) :
    data.length ≤ body.length := by
  induction body using unescape.induct generalizing data with
  | case1 =>
    cases h
    exact le_rfl
  | case2 => simp [unescape] at h
  | case3 w rest ih =>
    rw [unescape_escaped] at h
    obtain ⟨tail, htail, rfl⟩ := Option.map_eq_some_iff.mp h
    have := ih htail
    simp only [List.length_cons]
    omega
  | case4 v rest h125 hbad =>
    rw [unescape.eq_def] at h
    dsimp only at h
    rw [if_neg h125, if_pos hbad] at h
    cases h
  | case5 v rest h125 hbad ih =>
    rw [unescape_plain rest h125 hbad] at h
    obtain ⟨tail, htail, rfl⟩ := Option.map_eq_some_iff.mp h
    have := ih htail
    simp only [List.length_cons]
    omega

theorem handle_X_writes (hlen : len ≤ cmd.length) :
    Writes unescape (handle_X uninit) cmd len g (ReadsBack uninit) := by
  have hsize := input_length hlen
  have hrefused := respStr_frame (s := "E01") uninit g (by decide) (by decide)
  rcases ranged_of_parse true hlen with
    ⟨address, length, offset, hparse, hoffset, hranged⟩ | hnone
  · have hbody : ((input cmd len).drop offset).length = len.toNat - offset := by
      rw [List.length_drop, hsize]
    have hfits := hranged.fits
    by_cases hcount : len.toNat - offset < length.toNat
    · refine .inr ⟨not_isWrite hlen hparse fun data hdata hlength => ?_, ?_⟩
      · have := unescape_length hdata
        omega
      · unfold handle_X
        rw [hparse]
        dsimp only [bind, Except.bind]
        rw [if_pos hcount]
        exact hrefused
    · rcases unescapeLoop_spec length.toNat (len.toNat - offset) hlen rfl
        hoffset hbody.le (Holds.nil uninit) (Nat.zero_le _) (by omega) with
        ⟨data, next, hdecode, hrun, hholds⟩ | ⟨hdecode, hrun⟩
      · rw [List.nil_append] at hholds
        rw [List.length_nil, Nat.zero_add] at hrun
        by_cases hlength : data.length = length.toNat
        · have hspan := hholds.span maxPayload (by omega)
          rw [hlength] at hspan
          refine writes_of_decoded uninit g hranged hdecode hlength ?_
          unfold handle_X
          rw [hparse]
          dsimp only [bind, Except.bind]
          rw [if_neg hcount, hrun]
          dsimp only
          rw [if_neg (not_not.mpr hlength), hspan]
        · refine .inr ⟨not_isWrite hlen hparse fun bytes hbytes => ?_, ?_⟩
          · rw [hdecode] at hbytes
            cases hbytes
            exact hlength
          · unfold handle_X
            rw [hparse]
            dsimp only [bind, Except.bind]
            rw [if_neg hcount, hrun]
            dsimp only
            rw [if_pos hlength]
            exact hrefused
      · refine .inr ⟨not_isWrite hlen hparse fun data hdata => ?_, ?_⟩
        · simpa using hdecode data hdata
        · unfold handle_X
          rw [hparse]
          dsimp only [bind, Except.bind]
          rw [if_neg hcount]
          rw [List.length_nil] at hrun
          rw [hrun]
          exact hrefused
  · refine .inr ⟨fun address data ⟨length, body, hranged, _, _⟩ => ?_, ?_⟩
    · have hparse := hranged.parse hlen
      rw [Option.isSome_some, hnone] at hparse
      cases hparse
    · unfold handle_X
      rw [hnone]
      exact hrefused

/-- What each memory command does, for any bytes and any length. -/
theorem memory_commands (cmd : List U8) (len : ℤ) (hlen : len ≤ cmd.length) :
    Writes bytesOf (handle_M uninit) cmd len g (ReadsBack uninit) ∧
      Writes unescape (handle_X uninit) cmd len g (ReadsBack uninit) ∧
      Reads uninit cmd len g :=
  ⟨handle_M_writes uninit g hlen, handle_X_writes uninit g hlen, reads uninit g hlen⟩

end

/-- A write of two bytes that end at 2^32. -/
theorem memory_commands_top :
    Writes bytesOf (handle_M fun _ => 0) (text "FFFFFFFE,2:a07F") 15 ⟨fun _ => 0, []⟩
      (ReadsBack fun _ => 0) :=
  (memory_commands (fun _ => 0) ⟨fun _ => 0, []⟩ (text "FFFFFFFE,2:a07F") 15 (by decide)).1

end MelonDS.GDB
