import MelonDS.GDB.Framing

/-!
# Replies

A reply is one packet, whatever bytes are in it: its payload is escaped, and a receiver that parses
by the rules of the stub gets the payload back. A document is read in pieces of any size.
-/

namespace MelonDS.GDB
open FilledBuffer HexText

/-! ## The functions of `GdbProto.cpp` and `GdbCmds.cpp` -/

/-- `Resp` with both parts of its payload, up to the packet that is sent. -/
def respBoth (uninit : ℕ → U8) (data1 data2 : List U8) : Except Fault (Option (List U8)) :=
  if maxPayload < data1.length ∨ maxPayload - data1.length < data2.length then .ok none
  else do
    let bytes ← put bufferCapacity uninit 0 36
    match ← Packet.append ⟨bytes, 1, 0⟩ data1 with
    | none => return none
    | some p =>
      match ← p.append data2 with
      | none => return none
      | some p =>
        let bytes ← put bufferCapacity p.bytes p.position 35
        let bytes ← hexfmt8 bufferCapacity bytes (p.position + 1) p.checksum
        let bytes ← put bufferCapacity bytes (p.position + 3) 0
        let packet ← span bufferCapacity bytes (p.position + 3 + 1)
        return some (packet.take (p.position + 3))

/-- `DoQResponse` for a query of `qlen` bytes at `qaddr`. -/
def doQResponse (uninit : ℕ → U8) (data : List U8) (qaddr qlen : ℕ) :
    Except Fault (Option (List U8)) :=
  if data.length < qaddr then respBoth uninit (text "E01") []
  else if qaddr = data.length then respBoth uninit (text "l") []
  else
    let bleft := data.length - qaddr
    let outlen := if bleft < qlen then bleft else qlen
    -- the chunk shares the packet with its continuation marker
    let outlen := if maxPayload - 1 < outlen then maxPayload - 1 else outlen
    respBoth uninit (text "m") ((data.drop qaddr).take outlen)

/-! ## One packet for each reply -/

/-- The payload as it is sent. -/
def respEscape (data : List U8) : List U8 :=
  data.flatMap fun v => if v = 36 ∨ v = 35 ∨ v = 125 ∨ v = 42 then [125, v ^^^ 0x20] else [v]

theorem respEscape_cons (v : U8) (data : List U8) : respEscape (v :: data) =
    (if v = 36 ∨ v = 35 ∨ v = 125 ∨ v = 42 then [125, v ^^^ 0x20] else [v]) ++ respEscape data := rfl

theorem respEscape_append (a b : List U8) : respEscape (a ++ b) = respEscape a ++ respEscape b :=
  List.flatMap_append

theorem length_le_respEscape (data : List U8) : data.length ≤ (respEscape data).length := by
  induction data with
  | nil => exact le_rfl
  | cons v data ih =>
    rw [respEscape_cons, List.length_append, List.length_cons]
    split <;> simp only [List.length_cons, List.length_nil] <;> omega

theorem respEscape_plain {data : List U8} (h : ∀ v ∈ data, Plain v) : respEscape data = data := by
  induction data with
  | nil => rfl
  | cons v data ih =>
    obtain ⟨hv, hdata⟩ := List.forall_mem_cons.mp h
    rw [respEscape_cons, if_neg hv, ih hdata]
    rfl

/-- The escaped payload is a content that a receiver can find the end of. -/
theorem closes_respEscape (data : List U8) : Closes false (respEscape data) := by
  induction data with
  | nil => rfl
  | cons v data ih =>
    rw [respEscape_cons]
    split_ifs with hv
    · exact ⟨fun _ => by decide, fun h => (by cases h), ih⟩
    · obtain ⟨h36, h35, h125, -⟩ : v ≠ 36 ∧ v ≠ 35 ∧ v ≠ 125 ∧ v ≠ 42 := by
        simpa only [not_or] using hv
      refine ⟨fun _ => ⟨h35, h36⟩, ?_⟩
      rw [beq_eq_false_iff_ne.mpr h125]
      exact ih

theorem unescape_respEscape (data : List U8) : unescape (respEscape data) = some data := by
  induction data with
  | nil => rfl
  | cons v data ih =>
    rw [respEscape_cons]
    split_ifs with hv
    · change unescape (125 :: (v ^^^ 0x20) :: respEscape data) = _
      rw [unescape_escaped, ih, BitVec.xor_assoc, BitVec.xor_self, BitVec.xor_zero]
      rfl
    · obtain ⟨h36, h35, h125, -⟩ : v ≠ 36 ∧ v ≠ 35 ∧ v ≠ 125 ∧ v ≠ 42 := by
        simpa only [not_or] using hv
      change unescape (v :: respEscape data) = _
      rw [unescape_plain _ h125 (not_or.mpr ⟨h36, h35⟩), ih]
      rfl

/-- No star is sent, which would stand for a run of bytes. -/
theorem star_notMem_respEscape (data : List U8) : 42 ∉ respEscape data := by
  induction data with
  | nil => exact List.not_mem_nil
  | cons v data ih =>
    rw [respEscape_cons]
    refine fun h => (List.mem_append.mp h).elim (fun h => ?_) ih
    split_ifs at h with hv
    · simp only [List.mem_cons, List.not_mem_nil, or_false] at h
      rcases hv with rfl | rfl | rfl | rfl <;> exact absurd h (by decide)
    · obtain rfl := List.mem_singleton.mp h
      exact hv (.inr (.inr (.inr rfl)))

/-- What a byte is sent as. -/
def escaped (v : U8) : List U8 :=
  if v = 36 ∨ v = 35 ∨ v = 125 ∨ v = 42 then [125, v ^^^ 0x20] else [v]

section
variable {p : Packet} {written : List U8}

theorem push_holds (h : Holds p.bytes written) (hposition : p.position = written.length)
    (hroom : written.length < bufferCapacity) (v : U8) :
    ∃ q, p.push v = .ok q ∧ Holds q.bytes (written ++ [v]) ∧
      q.position = (written ++ [v]).length ∧ q.checksum = p.checksum + v := by
  obtain ⟨next, hput, hholds⟩ := h.put bufferCapacity hroom v
  rw [← hposition] at hput
  refine ⟨⟨next, p.position + 1, p.checksum + v⟩, ?_, hholds, ?_, rfl⟩
  · rw [Packet.push, hput]
    rfl
  · rw [List.length_append, List.length_singleton, hposition]

/-- One byte is appended when both of its bytes fit. -/
theorem append_cons (h : Holds p.bytes written) (hposition : p.position = written.length)
    (hpos : 0 < written.length) (v : U8) (data : List U8)
    (hfits : written.length - 1 + (escaped v).length ≤ maxPayload) :
    ∃ q : Packet, p.append (v :: data) = q.append data ∧ Holds q.bytes (written ++ escaped v) ∧
      q.position = (written ++ escaped v).length ∧ q.checksum = p.checksum + (escaped v).sum := by
  have hcapacity : bufferCapacity = maxPayload + 5 := rfl
  by_cases hv : v = 36 ∨ v = 35 ∨ v = 125 ∨ v = 42
  · have hbytes : escaped v = [125, v ^^^ 0x20] := if_pos hv
    rw [hbytes] at hfits ⊢
    have htwo : written.length - 1 + 2 ≤ maxPayload := hfits
    obtain ⟨q, hpush, hholds, hq, hsum⟩ := push_holds h hposition (by omega) 125
    obtain ⟨r, hpush', hholds', hr, hsum'⟩ := push_holds hholds hq
      (by rw [List.length_append, List.length_singleton]; omega) (v ^^^ 0x20)
    rw [List.append_assoc] at hholds' hr
    refine ⟨r, ?_, hholds', hr, by rw [hsum', hsum, BitVec.add_assoc]; simp⟩
    rw [Packet.append, hposition]
    simp only [if_pos hv, if_neg (Nat.not_lt.mpr htwo), bind, Except.bind, hpush, hpush']
  · have hbytes : escaped v = [v] := if_neg hv
    rw [hbytes] at hfits ⊢
    have hone : written.length - 1 + 1 ≤ maxPayload := hfits
    obtain ⟨q, hpush, hholds, hq, hsum⟩ := push_holds h hposition (by omega) v
    refine ⟨q, ?_, hholds, hq, by rw [hsum]; simp⟩
    rw [Packet.append, hposition]
    simp only [if_neg hv, if_neg (Nat.not_lt.mpr hone), bind, Except.bind, hpush]

theorem append_full (hposition : p.position = written.length) (v : U8) (data : List U8)
    (hfull : maxPayload < written.length - 1 + (escaped v).length) :
    p.append (v :: data) = .ok none := by
  rw [Packet.append, hposition]
  by_cases hv : v = 36 ∨ v = 35 ∨ v = 125 ∨ v = 42
  · have hbytes : escaped v = [125, v ^^^ 0x20] := if_pos hv
    rw [hbytes] at hfull
    simp only [if_pos hv]
    exact if_pos hfull
  · have hbytes : escaped v = [v] := if_neg hv
    rw [hbytes] at hfull
    simp only [if_neg hv]
    exact if_pos hfull

/-- The payload is appended escaped, exactly when it fits. -/
theorem append_escaped (data : List U8) (h : Holds p.bytes written)
    (hposition : p.position = written.length) (hpos : 0 < written.length) :
    (written.length - 1 + (respEscape data).length ≤ maxPayload →
      ∃ q, p.append data = .ok (some q) ∧ Holds q.bytes (written ++ respEscape data) ∧
        q.position = (written ++ respEscape data).length ∧
        q.checksum = p.checksum + (respEscape data).sum) ∧
    (maxPayload < written.length - 1 + (respEscape data).length → written.length - 1 ≤ maxPayload →
      p.append data = .ok none) := by
  induction data generalizing p written with
  | nil =>
    refine ⟨fun _ => ⟨p, rfl, by rwa [respEscape, List.flatMap_nil, List.append_nil],
      by simpa [respEscape] using hposition, by simp [respEscape]⟩, fun hfull hstart => ?_⟩
    exact absurd hfull (Nat.not_lt.mpr hstart)
  | cons v data ih =>
    have hsplit : respEscape (v :: data) = escaped v ++ respEscape data := rfl
    have hlength : (written ++ escaped v).length - 1 + (respEscape data).length =
        written.length - 1 + (respEscape (v :: data)).length := by
      rw [hsplit, List.length_append, List.length_append]
      omega
    have hgrow : 0 < (written ++ escaped v).length := by
      rw [List.length_append]
      omega
    by_cases hbyte : written.length - 1 + (escaped v).length ≤ maxPayload
    · have hnear : (written ++ escaped v).length - 1 ≤ maxPayload := by
        rw [List.length_append]
        omega
      obtain ⟨q, happend, hholds, hq, hsum⟩ := append_cons h hposition hpos v data hbyte
      obtain ⟨hfit, hfull⟩ := ih hholds hq hgrow
      rw [hlength] at hfit hfull
      refine ⟨fun hle => ?_, fun hlt _ => ?_⟩
      · obtain ⟨r, hr, hheld, hlast, htotal⟩ := hfit hle
        rw [List.append_assoc, ← hsplit] at hheld hlast
        refine ⟨r, happend.trans hr, hheld, hlast, ?_⟩
        rw [htotal, hsum, hsplit, List.sum_append, BitVec.add_assoc]
      · exact happend.trans (hfull hlt hnear)
    · have hover := Nat.lt_of_not_le hbyte
      refine ⟨fun hle => ?_, fun _ _ => append_full hposition v data hover⟩
      rw [hsplit, List.length_append] at hle
      omega

end

theorem frame_length (payload : List U8) : (frame payload).length = payload.length + 4 := by
  simp [frame, byteText]

/-- What follows the payload never runs out of the buffer. -/
theorem close_frame {p : Packet} {payload : List U8} (h : Holds p.bytes (36 :: payload))
    (hposition : p.position = (36 :: payload).length) (hsum : p.checksum = payload.sum)
    (hfits : payload.length ≤ maxPayload) :
    (do
      let bytes ← put bufferCapacity p.bytes p.position 35
      let bytes ← hexfmt8 bufferCapacity bytes (p.position + 1) p.checksum
      let bytes ← put bufferCapacity bytes (p.position + 3) 0
      let packet ← span bufferCapacity bytes (p.position + 3 + 1)
      return some (packet.take (p.position + 3))) =
      (.ok (some (frame payload)) : Except Fault (Option (List U8))) := by
  have hcapacity : bufferCapacity = maxPayload + 5 := rfl
  have hlength : (36 :: payload).length = payload.length + 1 := rfl
  obtain ⟨hash, hhash, hheld⟩ := h.put bufferCapacity (by omega) 35
  obtain ⟨digits, hdigits, hheld⟩ := hexfmt8_holds bufferCapacity hheld
    (by rw [List.length_append, List.length_singleton]; omega) p.checksum
  have htext : 36 :: payload ++ [35] ++ byteText p.checksum = frame payload := by
    rw [hsum, frame, List.append_assoc]
    rfl
  rw [htext] at hheld
  obtain ⟨last, hlast, hheld⟩ := hheld.put bufferCapacity (by rw [frame_length]; omega) 0
  have hspan := hheld.span bufferCapacity
    (by rw [List.length_append, frame_length, List.length_singleton]; omega)
  rw [← hposition] at hhash
  rw [List.length_append, ← hposition, List.length_singleton] at hdigits
  rw [List.length_append, frame_length, List.length_singleton] at hspan
  rw [frame_length] at hlast
  have hthree : p.position + 3 = payload.length + 4 := by omega
  simp only [bind, Except.bind, hhash, hdigits, hthree, hlast, hspan]
  simp [pure, Except.pure, ← frame_length]

theorem respBoth_eq (uninit : ℕ → U8) (data1 data2 : List U8) :
    respBoth uninit data1 data2 =
      .ok (if (respEscape (data1 ++ data2)).length ≤ maxPayload
        then some (frame (respEscape (data1 ++ data2))) else none) := by
  have hlen := length_le_respEscape (data1 ++ data2)
  rw [List.length_append] at hlen
  rw [respBoth]
  by_cases hlong : maxPayload < data1.length ∨ maxPayload - data1.length < data2.length
  · rw [if_pos hlong, if_neg (by omega)]
  · rw [if_neg hlong]
    obtain ⟨first, hfirst, hholds⟩ := (Holds.nil uninit).put bufferCapacity (by decide) 36
    rw [List.length_nil] at hfirst
    obtain ⟨hfit, hfull⟩ := append_escaped (p := ⟨first, 1, 0⟩) data1 hholds rfl (by decide)
    have hone : ([] ++ [36] : List U8).length - 1 = 0 := rfl
    rw [hone, Nat.zero_add] at hfit hfull
    rw [respEscape_append, List.length_append]
    by_cases hle : (respEscape data1).length ≤ maxPayload
    · obtain ⟨p, hp, hheld, hposition, hsum⟩ := hfit hle
      obtain ⟨hfit', hfull'⟩ := append_escaped data2 hheld hposition (by simp)
      have hstart : ([] ++ [36] ++ respEscape data1 : List U8).length - 1 =
          (respEscape data1).length := by simp
      rw [hstart] at hfit' hfull'
      by_cases hle' : (respEscape data1).length + (respEscape data2).length ≤ maxPayload
      · obtain ⟨q, hq, hheld', hposition', hsum'⟩ := hfit' hle'
        have hpayload : ([] ++ [36] ++ respEscape data1 ++ respEscape data2 : List U8) =
            36 :: (respEscape data1 ++ respEscape data2) := by simp
        rw [hpayload] at hheld' hposition'
        rw [if_pos hle']
        have hclose := close_frame hheld' hposition'
          (by rw [hsum', hsum, List.sum_append, zero_add]) (by rwa [List.length_append])
        refine Eq.trans ?_ hclose
        simp only [bind, Except.bind, hfirst, hp, hq]
      · rw [if_neg hle']
        simp only [bind, Except.bind, hfirst, hp, hfull' (Nat.lt_of_not_le hle') hle]
        rfl
    · rw [if_neg (by omega)]
      simp only [bind, Except.bind, hfirst, hfull (Nat.lt_of_not_le hle) (Nat.zero_le _)]
      rfl

theorem fromChars_byteText (b : U8) : fromChars (byteText b) = some (b.toNat, 2) := by
  have hb := b.isLt
  have hhigh := digit_digitOf (show b.toNat / 16 < 16 by omega)
  have hlow := digit_digitOf (show b.toNat % 16 < 16 by omega)
  obtain ⟨x, y, hx, hy, h⟩ | ⟨h, -⟩ := fromChars_pair (digitOf (b.toNat / 16)) (digitOf (b.toNat % 16))
  · rw [hhigh] at hx
    rw [hlow] at hy
    cases hx
    cases hy
    rwa [Nat.div_add_mod] at h
  · rw [hhigh, hlow] at h
    simp at h

/-- The packet of a reply, as another stub takes it. -/
def replyPacket (data : List U8) (h : (respEscape data).length ≤ maxPayload) : Framed where
  body := respEscape data
  high := digitOf ((respEscape data).sum.toNat / 16)
  low := digitOf ((respEscape data).sum.toNat % 16)
  closes := closes_respEscape data
  fits := h

/-- A reply is one packet, or none when it does not fit; the buffer is never overrun. Whoever
parses the packet as the stub does gets both parts of the payload back. -/
theorem reply_round_trip (uninit : ℕ → U8) (data1 data2 : List U8) :
    (maxPayload < (respEscape (data1 ++ data2)).length ∧ respBoth uninit data1 data2 = .ok none) ∨
      ∃ p : Framed, p.Intact ∧
        respBoth uninit data1 data2 = .ok (some (Item.packet p).encode) ∧
        unescape p.body = some (data1 ++ data2) ∧ 42 ∉ p.body ∧
        ∀ (more : List U8) (i : ℕ), parseFrom ((Item.packet p).encode ++ more) i =
          ⟨.cmdRecvd, i + 1, p.body.length + 3, p.body.length⟩ := by
  rw [respBoth_eq]
  by_cases hle : (respEscape (data1 ++ data2)).length ≤ maxPayload
  · have hintact : (replyPacket (data1 ++ data2) hle).Intact := fromChars_byteText _
    refine .inr ⟨replyPacket (data1 ++ data2) hle, hintact, by rw [if_pos hle]; rfl,
      unescape_respEscape _, star_notMem_respEscape _, fun more i => ?_⟩
    rw [parseFrom_item (x := .packet _) id, Item.parsed, Item.result, if_pos hintact]
  · exact .inl ⟨Nat.lt_of_not_le hle, by rw [if_neg hle]⟩

/-! ## A document in pieces -/

/-- What a receiver takes from a packet. -/
def payload (packet : List U8) : Option (List U8) :=
  unescape ((packet.drop 1).take (packet.length - 4))

/-- A debugger that asks for the next piece until it is told that there is none: what it has got,
and whether it has been told. -/
def readDocument (uninit : ℕ → U8) (data : List U8) : List ℕ → List U8 → List U8 × Bool
  | [], got => (got, false)
  | qlen :: sizes, got =>
    match doQResponse uninit data got.length qlen with
    | .ok (some packet) =>
      match payload packet with
      | some (marker :: chunk) =>
        if marker = 109 then readDocument uninit data sizes (got ++ chunk) else (got, marker = 108)
      | _ => (got, false)
    | _ => (got, false)

theorem payload_frame (data : List U8) : payload (frame (respEscape data)) = some data := by
  have htake : ((frame (respEscape data)).drop 1).take ((frame (respEscape data)).length - 4) =
      respEscape data := by
    rw [frame_length, Nat.add_sub_cancel]
    exact List.take_left
  rw [payload, htake, unescape_respEscape]

theorem respBoth_plain (uninit : ℕ → U8) {data1 data2 : List U8} (h : ∀ v ∈ data1 ++ data2, Plain v)
    (hfits : (data1 ++ data2).length ≤ maxPayload) :
    respBoth uninit data1 data2 = .ok (some (frame (respEscape (data1 ++ data2)))) := by
  rw [respBoth_eq, if_pos (by rwa [respEscape_plain h])]

/-- The next piece, or the end. -/
theorem doQResponse_eq (uninit : ℕ → U8) {data : List U8} (h : ∀ v ∈ data, Plain v) {qaddr : ℕ}
    (hle : qaddr ≤ data.length) (qlen : ℕ) :
    doQResponse uninit data qaddr qlen = .ok (some (frame (respEscape
      (if qaddr = data.length then [108]
        else 109 :: (data.drop qaddr).take (min qlen (maxPayload - 1)))))) := by
  rw [doQResponse, if_neg (Nat.not_lt.mpr hle)]
  split_ifs with hend
  · exact respBoth_plain uninit (by decide) (by decide)
  · have hmark : text "m" = [109] := by decide
    have htake : (data.drop qaddr).take (if maxPayload - 1 <
        (if data.length - qaddr < qlen then data.length - qaddr else qlen) then maxPayload - 1
        else if data.length - qaddr < qlen then data.length - qaddr else qlen) =
        (data.drop qaddr).take (min qlen (maxPayload - 1)) := by
      refine List.take_eq_take_iff.mpr ?_
      rw [List.length_drop]
      split_ifs <;> omega
    dsimp only
    rw [htake, hmark]
    refine respBoth_plain uninit (fun v hv => ?_) ?_
    · obtain hv | hv := List.mem_append.mp hv
      · obtain rfl := List.mem_singleton.mp hv
        decide
      · exact h v (List.mem_of_mem_drop (List.mem_of_mem_take hv))
    · rw [List.length_append, List.length_singleton, List.length_take]
      have hpos : 0 < maxPayload := by decide
      omega

/-- A document that needs no escapes is read whole, whatever the sizes of the pieces: what has been
got is a beginning of it, the end is told at the end only, and it is reached. -/
theorem document_read (uninit : ℕ → U8) (data : List U8) (h : ∀ v ∈ data, Plain v)
    (sizes : List ℕ) :
    (readDocument uninit data sizes []).1 <+: data ∧
      ((readDocument uninit data sizes []).2 = true → (readDocument uninit data sizes []).1 = data) ∧
      ((∀ n ∈ sizes, 0 < n) → data.length < sizes.length →
        (readDocument uninit data sizes []).2 = true) := by
  suffices hgot : ∀ got, got <+: data → (readDocument uninit data sizes got).1 <+: data ∧
      ((readDocument uninit data sizes got).2 = true →
        (readDocument uninit data sizes got).1 = data) ∧
      ((∀ n ∈ sizes, 0 < n) → data.length - got.length < sizes.length →
        (readDocument uninit data sizes got).2 = true) from hgot [] List.nil_prefix
  induction sizes with
  | nil => exact fun got hgot => ⟨hgot, fun hend => (by cases hend), fun _ hlt => absurd hlt (by simp)⟩
  | cons n sizes ih =>
    intro got hgot
    rw [readDocument, doQResponse_eq uninit h hgot.length_le]
    dsimp only
    rw [payload_frame]
    split_ifs with hend
    · have hwhole : got = data := hgot.eq_of_length hend
      exact ⟨hgot, fun _ => hwhole, fun _ _ => rfl⟩
    · obtain ⟨rest, rfl⟩ := hgot
      have hmore : got ++ rest.take (min n (maxPayload - 1)) <+: got ++ rest :=
        List.prefix_append_right_inj _ |>.mpr (List.take_prefix _ _)
      obtain ⟨hbegins, htold, hreached⟩ := ih _ hmore
      dsimp only
      rw [if_pos rfl, List.drop_left]
      refine ⟨hbegins, htold, fun hpos hlt => ?_⟩
      obtain ⟨hn, hsizes⟩ := List.forall_mem_cons.mp hpos
      refine hreached hsizes ?_
      have hpayload : 1 < maxPayload := by decide
      rw [List.length_append, List.length_cons] at hlt
      rw [List.length_append] at hend
      rw [List.length_append, List.length_append, List.length_take]
      omega

theorem document_read_tag :
    (readDocument (fun _ => 0) [60, 116, 62] [2, 1, 7, 7] []).1 = [60, 116, 62] := by
  have h := document_read (fun _ => 0) [60, 116, 62] (by decide) [2, 1, 7, 7]
  exact h.2.1 (h.2.2 (by decide) (by decide))

end MelonDS.GDB
