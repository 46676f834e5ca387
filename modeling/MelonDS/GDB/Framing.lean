import MelonDS.GDB.MemoryCommands

/-!
# The packets of a debugger

What a debugger sends is a stream of acknowledgements, break requests and packets. The receive
buffer holds a piece of it that begins and ends anywhere.
-/

namespace MelonDS.GDB
open HexText

/-! ## The functions of `GdbProto.cpp` -/

inductive ReadResult
  | noPacket | eof | cksumErr | cmdRecvd | wut | brk
deriving DecidableEq

structure Parsed where
  result : ReadResult
  packetStart : ℕ
  packetSize : ℕ
  packetContentSize : ℕ
deriving DecidableEq

def IsAck (v : U8) : Prop := v = 43 ∨ v = 45

instance : DecidablePred IsAck := fun v => inferInstanceAs (Decidable (v = 43 ∨ v = 45))

/-- Behind the hash sign at `i`. -/
def parseChecksum (packetStart i : ℕ) (checksum : U8) : List U8 → Parsed
  | high :: low :: _ =>
    let packetContentSize := i - packetStart
    let packetSize := packetContentSize + 3
    if maxPayload < packetContentSize then ⟨.wut, packetStart, packetSize, packetContentSize⟩
    else if fromChars [high, low] = some (checksum.toNat, 2) then
      ⟨.cmdRecvd, packetStart, packetSize, packetContentSize⟩
    else ⟨.cksumErr, packetStart, packetSize, packetContentSize⟩
  | _ => ⟨.noPacket, packetStart, 1, 1⟩

/-- Behind the dollar sign; `i` is the position in the buffer. -/
def parseContent (packetStart : ℕ) : List U8 → ℕ → U8 → Bool → Parsed
  | [], _, _, _ => ⟨.noPacket, packetStart, 1, 1⟩
  | current :: rest, i, checksum, escaped =>
    if escaped = false ∧ current = 35 then parseChecksum packetStart i checksum rest
    else if escaped = false ∧ current = 36 then ⟨.wut, packetStart, 1, 1⟩
    else if maxPayload ≤ i - packetStart then ⟨.wut, packetStart, 1, 1⟩
    else parseContent packetStart rest (i + 1) (checksum + current) (!escaped && current == 125)

def parseFrom : List U8 → ℕ → Parsed
  | [], _ => ⟨.noPacket, 0, 0, 0⟩
  | value :: rest, i =>
    if IsAck value then parseFrom rest (i + 1)
    else if value = 4 then ⟨.eof, i, 1, 1⟩
    else if value = 3 then ⟨.brk, i, 1, 1⟩
    else if value ≠ 36 then ⟨.wut, i, 1, 1⟩
    else parseContent (i + 1) rest (i + 1) 0 false

/-- `RecvBuffer` and `Cmdbuf`, as far as they are filled, and what `SendAck` and `SendNak` have
sent. -/
structure Stub where
  buffer : List U8
  cmd : List U8
  sent : List U8
deriving DecidableEq

namespace Stub

def tryParsePacket (s : Stub) (start : ℕ) : Parsed := parseFrom (s.buffer.drop start) start

def consumeReceived (s : Stub) (count offset : ℕ) : Stub :=
  { s with buffer := s.buffer.take offset ++ s.buffer.drop (offset + count) }

def content (s : Stub) (p : Parsed) : List U8 :=
  (s.buffer.drop p.packetStart).take p.packetContentSize

def setup (s : Stub) (previous : Parsed) (consumed : ℕ) : ReadResult × Stub :=
  (previous.result, { s with cmd := s.content previous }.consumeReceived consumed 0)

/-- The loop of `ParseAndSetupPacket`. -/
def setupLoop (s : Stub) : ℕ → ℕ → Parsed → ReadResult × Stub
  | 0, consumed, previous => s.setup previous consumed
  | turns + 1, consumed, previous =>
    let found := s.tryParsePacket consumed
    if found.result ≠ .cmdRecvd ∧ found.result ≠ .brk then
      if previous.result ≠ .noPacket then s.setup previous consumed
      else if found.result = .cksumErr then
        (.cksumErr, s.consumeReceived (found.packetStart + found.packetSize) 0)
      else if found.result = .noPacket then
        -- acknowledgements can arrive by themselves or before an incomplete packet
        (.noPacket, s.consumeReceived
          (consumed + ((s.buffer.drop consumed).takeWhile (decide <| IsAck ·)).length) 0)
      else (found.result, s)
    else if previous.result ≠ .noPacket ∧ (found.result ≠ previous.result ∨
        found.packetContentSize ≠ previous.packetContentSize ∨
        s.content found ≠ s.content previous) then
      s.setup previous consumed
    else setupLoop s turns (found.packetStart + found.packetSize) found

/-- Each turn consumes a byte at least. -/
def parseAndSetupPacket (s : Stub) : ReadResult × Stub :=
  s.setupLoop (s.buffer.length + 1) 0 ⟨.noPacket, 0, 0, 0⟩

def sendAck (s : Stub) : Stub := { s with sent := s.sent ++ [43] }
def sendNak (s : Stub) : Stub := { s with sent := s.sent ++ [45] }

end Stub

/-! ### The socket -/

/-- What `recv` meets: the end of the connection, or as many more bytes. -/
inductive Socket
  | closed
  | arrived (n : ℕ)
deriving DecidableEq

/-- The stub, and what is still to be received. -/
structure Link where
  stub : Stub
  unread : List U8
deriving DecidableEq

namespace Link

/-- `recv` into what is left of the buffer. -/
def recv (l : Link) (n : ℕ) : Link :=
  let count := min n (bufferCapacity - l.stub.buffer.length)
  { l with
    stub := { l.stub with buffer := l.stub.buffer ++ l.unread.take count }
    unread := l.unread.drop count }

def parseAndSetupPacket (l : Link) : ReadResult × Link :=
  let (result, stub) := l.stub.parseAndSetupPacket
  (result, { l with stub := stub })

def msgRecv (l : Link) (socket : Socket) : ReadResult × Link :=
  let (buffered, l) := l.parseAndSetupPacket
  if buffered ≠ .noPacket then (buffered, l)
  else if l.stub.buffer.length = bufferCapacity then (.wut, l)
  else
    match socket with
    | .closed => (.eof, l)
    | .arrived n => (l.recv n).parseAndSetupPacket

/-- `Poll` on a connection, without the report of a status; a command is left in `Cmdbuf`. -/
def poll (l : Link) (socket : Socket) : ReadResult × Link :=
  let (result, l) := l.parseAndSetupPacket
  let (result, l) := if result = .noPacket then l.msgRecv socket else (result, l)
  if result = .cksumErr then (result, { l with stub := l.stub.sendNak }) else (result, l)

end Link

/-- What a turn of `WaitAckBlocking` meets: whether the deadline has passed and whether sending
succeeds whenever it asks, whether the socket gets ready, and what `recv` meets. -/
structure Turn where
  late : ℕ → Bool
  sends : ℕ → Bool
  lateToWait : Bool
  ready : Bool
  socket : Socket
  lateAfter : Bool

inductive Scan
  | acked (v : U8) (s : Stub)
  | failed (s : Stub)
  | more (cursor : ℕ) (s : Stub)

namespace Stub

/-- The inner loop of `WaitAckBlocking`. -/
def scanLoop (attemptedRead : Bool) (turn : Turn) : ℕ → ℕ → Stub → Scan
  | 0, cursor, s => .more cursor s
  | turns + 1, cursor, s =>
    match s.buffer.drop cursor with
    | [] => .more cursor s
    | v :: _ =>
      if IsAck v then .acked v (s.consumeReceived 1 cursor)
      else if attemptedRead ∧ turn.late turns then .failed s
      else
        let found := s.tryParsePacket cursor
        let stop := found.packetStart + found.packetSize
        match found.result with
        | .noPacket => .more cursor s
        | .cksumErr =>
          let s := (s.consumeReceived (stop - cursor) cursor).sendNak
          if turn.sends turns then scanLoop attemptedRead turn turns cursor s else .failed s
        | .cmdRecvd =>
          -- a retransmission can be split across reads; a different command is left for `Poll`
          if s.content found = s.cmd then
            let s := (s.consumeReceived (stop - cursor) cursor).sendAck
            if turn.sends turns then scanLoop attemptedRead turn turns cursor s else .failed s
          else scanLoop attemptedRead turn turns stop s
        | .brk => scanLoop attemptedRead turn turns stop s
        | .wut | .eof => .failed s

end Stub

namespace Link

/-- The outer loop of `WaitAckBlocking`; none when it fails, at the deadline at last. -/
def waitAckLoop : List Turn → Bool → ℕ → Link → Option U8 × Link
  | [], _, _, l => (none, l)
  | turn :: turns, attemptedRead, cursor, l =>
    match l.stub.scanLoop attemptedRead turn (l.stub.buffer.length + 1) cursor with
    | .acked v s => (some v, { l with stub := s })
    | .failed s => (none, { l with stub := s })
    | .more cursor s =>
      let l := { l with stub := s }
      if s.buffer.length = bufferCapacity ∨ (attemptedRead ∧ turn.lateToWait) ∨ !turn.ready then
        (none, l)
      else
        match turn.socket with
        | .closed => (none, l)
        | .arrived n =>
          if turn.lateAfter ∧ (l.recv n).unread = l.unread then (none, l)
          else waitAckLoop turns true cursor (l.recv n)

def waitAckBlocking (l : Link) (turns : List Turn) : Option U8 × Link :=
  waitAckLoop turns false 0 l

end Link

/-! ## What a debugger sends -/

/-- No dollar or hash sign stands bare, and no escape is left open. -/
def Closes : Bool → List U8 → Prop
  | escaped, [] => escaped = false
  | escaped, v :: rest =>
    (escaped = false → v ≠ 35 ∧ v ≠ 36) ∧ Closes (!escaped && v == 125) rest

/-- A packet that fits, with what has arrived for its checksum. -/
structure Framed where
  body : List U8
  high : U8
  low : U8
  closes : Closes false body
  fits : body.length ≤ maxPayload

/-- The checksum is right, in digits of either case. -/
def Framed.Intact (p : Framed) : Prop := fromChars [p.high, p.low] = some (p.body.sum.toNat, 2)

instance : DecidablePred Framed.Intact := fun p =>
  inferInstanceAs (Decidable (fromChars [p.high, p.low] = some (p.body.sum.toNat, 2)))

inductive Item
  | ack (positive : Bool)
  | brk
  | packet (p : Framed)

namespace Item

def encode : Item → List U8
  | ack positive => [if positive then 43 else 45]
  | brk => [3]
  | packet p => 36 :: (p.body ++ [35, p.high, p.low])

def IsPlainAck : Item → Prop
  | ack _ => True
  | _ => False

/-- What is compared with the last command. -/
def content : Item → List U8
  | ack _ => []
  | brk => [3]
  | packet p => p.body

def result : Item → ReadResult
  | ack _ => .noPacket
  | brk => .brk
  | packet p => if p.Intact then .cmdRecvd else .cksumErr

/-- What `TryParsePacket` finds for it. -/
def parsed (x : Item) (i : ℕ) : Parsed :=
  match x with
  | ack _ => ⟨.noPacket, 0, 0, 0⟩
  | brk => ⟨.brk, i, 1, 1⟩
  | packet p => ⟨x.result, i + 1, p.body.length + 3, p.body.length⟩

end Item

def encodeAll (items : List Item) : List U8 := items.flatMap Item.encode

/-! ## Parsing a piece of the stream -/

theorem parseContent_complete (packetStart : ℕ) {body : List U8} (high low : U8) (more : List U8)
    {i : ℕ} {checksum : U8} {escaped : Bool} (hcloses : Closes escaped body)
    (hi : packetStart ≤ i) (hfits : i - packetStart + body.length ≤ maxPayload) :
    parseContent packetStart (body ++ 35 :: high :: low :: more) i checksum escaped =
      ⟨if fromChars [high, low] = some ((checksum + body.sum).toNat, 2) then .cmdRecvd
        else .cksumErr, packetStart, i - packetStart + body.length + 3,
        i - packetStart + body.length⟩ := by
  induction body generalizing i checksum escaped with
  | nil =>
    have hesc : escaped = false := hcloses
    rw [List.length_nil, add_zero] at hfits ⊢
    rw [List.nil_append, parseContent, if_pos ⟨hesc, rfl⟩, parseChecksum,
      if_neg (Nat.not_lt.mpr hfits), List.sum_nil, add_zero]
    split <;> rfl
  | cons v body ih =>
    obtain ⟨hv, hrest⟩ := hcloses
    rw [List.length_cons] at hfits ⊢
    have hnext : i + 1 - packetStart + body.length = i - packetStart + (body.length + 1) := by omega
    rw [List.cons_append, parseContent, if_neg fun h => (hv h.1).1 h.2,
      if_neg fun h => (hv h.1).2 h.2, if_neg (by omega), ih hrest (by omega) (by omega), hnext,
      List.sum_cons, BitVec.add_assoc]

theorem parseContent_incomplete (packetStart : ℕ) {body t u : List U8} {high low : U8} {i : ℕ}
    {checksum : U8} {escaped : Bool} (hcloses : Closes escaped body)
    (hfits : i - packetStart + body.length ≤ maxPayload)
    (hsplit : t ++ u = body ++ [35, high, low]) (hu : u ≠ []) :
    parseContent packetStart t i checksum escaped = ⟨.noPacket, packetStart, 1, 1⟩ := by
  induction body generalizing i checksum escaped t with
  | nil =>
    have hesc : escaped = false := hcloses
    obtain _ | ⟨a, _ | ⟨b, _ | ⟨c, t⟩⟩⟩ := t
    · rfl
    · rw [parseContent, if_pos ⟨hesc, (List.cons.inj hsplit).1⟩]
      rfl
    · rw [parseContent, if_pos ⟨hesc, (List.cons.inj hsplit).1⟩]
      rfl
    · have hlen := congrArg List.length hsplit
      have hpos := List.length_pos_iff.mpr hu
      simp only [List.length_append, List.length_cons, List.length_nil] at hlen
      omega
  | cons v body ih =>
    obtain ⟨hv, hrest⟩ := hcloses
    obtain _ | ⟨a, t⟩ := t
    · rfl
    · obtain ⟨rfl, htail⟩ := List.cons.inj hsplit
      rw [List.length_cons] at hfits
      rw [parseContent, if_neg fun h => (hv h.1).1 h.2, if_neg fun h => (hv h.1).2 h.2,
        if_neg (by omega)]
      exact ih hrest (by omega) htail

@[simp] theorem encodeAll_cons (x : Item) (items : List Item) :
    encodeAll (x :: items) = x.encode ++ encodeAll items := rfl

@[simp] theorem encodeAll_append (a b : List Item) :
    encodeAll (a ++ b) = encodeAll a ++ encodeAll b := List.flatMap_append

theorem Item.encode_ne_nil (x : Item) : x.encode ≠ [] := by
  cases x <;> exact List.cons_ne_nil _ _

/-- The packets leave a byte of the buffer. -/
theorem Item.length_encode_lt (x : Item) : x.encode.length < bufferCapacity := by
  cases x with
  | ack positive => exact (by decide : 1 < bufferCapacity)
  | brk => exact (by decide : 1 < bufferCapacity)
  | packet p =>
    have hfits := p.fits
    simp only [Item.encode, List.length_cons, List.length_append, List.length_nil]
    unfold maxPayload at hfits
    unfold bufferCapacity
    omega

/-- A piece that begins with an item as a whole, after some acknowledgements. -/
structure Whole (items : List Item) (t u : List U8) (i : ℕ) (acks : List Item) (x : Item)
    (rest : List Item) (more : List U8) : Prop where
  items_eq : items = acks ++ x :: rest
  plain : ∀ a ∈ acks, a.IsPlainAck
  item : ¬x.IsPlainAck
  piece_eq : t = encodeAll acks ++ (x.encode ++ more)
  more_eq : more ++ u = encodeAll rest
  parse : parseFrom t i = x.parsed (i + acks.length)

/-- A piece that ends before. -/
structure Cut (items : List Item) (t u : List U8) (i : ℕ) (acks rest : List Item)
    (more : List U8) : Prop where
  items_eq : items = acks ++ rest
  plain : ∀ a ∈ acks, a.IsPlainAck
  piece_eq : t = encodeAll acks ++ more
  more_eq : more ++ u = encodeAll rest
  parse : (parseFrom t i).result = .noPacket
  head : ∀ v ∈ more.head?, ¬IsAck v
  done : u = [] → rest = []
  fits : more.length < bufferCapacity

theorem parseFrom_ack {v : U8} (h : IsAck v) (t : List U8) (i : ℕ) :
    parseFrom (v :: t) i = parseFrom t (i + 1) := if_pos h

theorem Whole.ack {items : List Item} {t u : List U8} {i : ℕ} {acks : List Item} {x : Item}
    {rest : List Item} {more : List U8} (h : Whole items t u (i + 1) acks x rest more)
    (positive : Bool) :
    Whole (.ack positive :: items) ((Item.ack positive).encode ++ t) u i (.ack positive :: acks) x
      rest more where
  items_eq := congrArg (_ :: ·) h.items_eq
  plain := List.forall_mem_cons.mpr ⟨trivial, h.plain⟩
  item := h.item
  piece_eq := by rw [h.piece_eq, encodeAll_cons, List.append_assoc]
  more_eq := h.more_eq
  parse := by
    refine (parseFrom_ack (by cases positive <;> decide) t i).trans ?_
    rw [h.parse, List.length_cons, Nat.add_right_comm, Nat.add_assoc]

theorem Cut.ack {items : List Item} {t u : List U8} {i : ℕ} {acks rest : List Item}
    {more : List U8} (h : Cut items t u (i + 1) acks rest more) (positive : Bool) :
    Cut (.ack positive :: items) ((Item.ack positive).encode ++ t) u i (.ack positive :: acks) rest
      more where
  items_eq := congrArg (_ :: ·) h.items_eq
  plain := List.forall_mem_cons.mpr ⟨trivial, h.plain⟩
  piece_eq := by rw [h.piece_eq, encodeAll_cons, List.append_assoc]
  more_eq := h.more_eq
  parse := by
    refine (congrArg Parsed.result (parseFrom_ack (by cases positive <;> decide) t i)).trans h.parse
  head := h.head
  done := h.done
  fits := h.fits

theorem parseFrom_item {x : Item} (hx : ¬x.IsPlainAck) (more : List U8) (i : ℕ) :
    parseFrom (x.encode ++ more) i = x.parsed i := by
  cases x with
  | ack positive => exact absurd trivial hx
  | brk => rfl
  | packet p =>
    have hdollar : ¬IsAck 36 ∧ (36 : U8) ≠ 4 ∧ (36 : U8) ≠ 3 := by decide
    have hcontent := @parseContent_complete (i + 1) _ p.high p.low more _ 0 _ p.closes le_rfl
      (by rw [Nat.sub_self, Nat.zero_add]; exact p.fits)
    rw [zero_add, Nat.sub_self, Nat.zero_add] at hcontent
    rw [Item.encode, List.cons_append, parseFrom, if_neg hdollar.1, if_neg hdollar.2.1,
      if_neg hdollar.2.2, if_neg (not_not.mpr rfl), List.append_assoc]
    exact hcontent

theorem parseFrom_cut {x : Item} (hx : ¬x.IsPlainAck) {t u : List U8} (h : t ++ u = x.encode)
    (hu : u ≠ []) (i : ℕ) : (parseFrom t i).result = .noPacket ∧ ∀ v ∈ t.head?, ¬IsAck v := by
  obtain _ | ⟨v, t⟩ := t
  · exact ⟨rfl, fun v hv => by cases hv⟩
  · cases x with
    | ack positive => exact absurd trivial hx
    | brk =>
      obtain ⟨-, htail⟩ := List.cons.inj h
      exact absurd (List.append_eq_nil_iff.mp htail).2 hu
    | packet p =>
      obtain ⟨rfl, htail⟩ := List.cons.inj h
      have hdollar : ¬IsAck 36 ∧ (36 : U8) ≠ 4 ∧ (36 : U8) ≠ 3 := by decide
      refine ⟨?_, fun v hv => ?_⟩
      · rw [parseFrom, if_neg hdollar.1, if_neg hdollar.2.1, if_neg hdollar.2.2,
          if_neg (not_not.mpr rfl), parseContent_incomplete (i + 1) p.closes
            (by rw [Nat.sub_self, Nat.zero_add]; exact p.fits) htail hu]
      · cases hv
        exact hdollar.1

/-- A piece begins with an item as a whole or ends before. -/
theorem parseFrom_stream {items : List Item} {t u : List U8} (h : t ++ u = encodeAll items)
    (i : ℕ) : (∃ acks x rest more, Whole items t u i acks x rest more) ∨
      ∃ acks rest more, Cut items t u i acks rest more := by
  induction items generalizing t i with
  | nil =>
    obtain ⟨rfl, rfl⟩ := List.append_eq_nil_iff.mp h
    exact .inr ⟨[], [], [], rfl, by simp, rfl, rfl, rfl, by simp, fun _ => rfl, by decide⟩
  | cons x items ih =>
    rw [encodeAll_cons] at h
    by_cases hx : x.IsPlainAck
    · cases x with
      | ack positive =>
        obtain _ | ⟨v, t⟩ := t
        · refine .inr ⟨[], .ack positive :: items, [], rfl, by simp, rfl, h, rfl, by simp,
            fun hu => ?_, by decide⟩
          rw [hu] at h
          cases h
        · obtain ⟨rfl, htail⟩ := List.cons.inj h
          obtain ⟨acks, x, rest, more, hwhole⟩ | ⟨acks, rest, more, hcut⟩ := ih htail (i + 1)
          · exact .inl ⟨_, x, rest, more, hwhole.ack positive⟩
          · exact .inr ⟨_, rest, more, hcut.ack positive⟩
      | brk => exact hx.elim
      | packet p => exact hx.elim
    · obtain ⟨more, rfl, hmore⟩ | ⟨u', henc, rfl⟩ := List.append_eq_append_iff.mp h.symm
      · exact .inl ⟨[], x, items, more, rfl, by simp, hx, rfl, hmore.symm,
          (parseFrom_item hx more i).trans rfl⟩
      · by_cases hnil : u' = []
        · rw [hnil, List.append_nil] at henc
          rw [hnil, ← henc]
          exact .inl ⟨[], x, items, [], rfl, by simp, hx, (List.append_nil _).symm, rfl, by
            simpa using parseFrom_item hx [] i⟩
        · obtain ⟨hparse, hhead⟩ := parseFrom_cut hx henc.symm hnil i
          refine .inr ⟨[], x :: items, t, rfl, by simp, rfl, h, hparse, hhead, fun hu => ?_, ?_⟩
          · exact absurd (List.append_eq_nil_iff.mp hu).1 hnil
          · have hlen := x.length_encode_lt
            rw [henc, List.length_append] at hlen
            exact (Nat.le_add_right _ _).trans_lt hlen

end MelonDS.GDB
