import MelonDS.GDB.Framing
import MelonDS.Library.DedupQueue

/-!
# No command is lost, wherever the stream is cut

The receive buffer and what is still to be received are a queue of items. Polling delivers from its
front; waiting for an acknowledgement takes that out of the midst of it, with the repetitions of
the last command and the corrupt packets.
-/

namespace MelonDS.GDB
open Relation DedupQueue

inductive Event
  | command (body : List U8)
  | brk
deriving DecidableEq

def Event.content : Event → List U8
  | command body => body
  | brk => [3]

/-- What a result stands for, with the command in `Cmdbuf`. -/
def ReadResult.event (cmd : List U8) : ReadResult → Option Event
  | cmdRecvd => some (.command cmd)
  | brk => some .brk
  | _ => none

namespace Item

def event : Item → Option Event
  | ack _ => none
  | brk => some .brk
  | packet p => if p.Intact then some (.command p.body) else none

def corrupt : Item → Bool
  | packet p => !decide p.Intact
  | _ => false

theorem event_corrupt (x : Item) (h : x.corrupt = true) : x.event = none := by
  cases x with
  | ack positive => rfl
  | brk => cases h
  | packet p => exact if_neg (by simpa [corrupt] using h)

end Item

def kind : Kind Item Event (List U8) := ⟨Item.event, Event.content, Item.corrupt, Item.event_corrupt⟩

abbrev Pending := Queue Item Event (List U8)

/-! ## What is found in the buffer -/

theorem length_encodeAll_acks {acks : List Item} (h : ∀ a ∈ acks, a.IsPlainAck) :
    (encodeAll acks).length = acks.length := by
  induction acks with
  | nil => rfl
  | cons a acks ih =>
    obtain ⟨ha, hacks⟩ := List.forall_mem_cons.mp h
    rw [encodeAll_cons, List.length_append, ih hacks, List.length_cons, Nat.add_comm]
    cases a with
    | ack positive => rfl
    | brk => exact ha.elim
    | packet p => exact ha.elim

theorem isAck_encodeAll {acks : List Item} (h : ∀ a ∈ acks, a.IsPlainAck) :
    ∀ v ∈ encodeAll acks, IsAck v := by
  intro v hv
  obtain ⟨a, ha, hva⟩ := List.mem_flatMap.mp hv
  have hplain := h a ha
  cases a with
  | ack positive =>
    obtain rfl := List.mem_singleton.mp hva
    cases positive <;> decide
  | brk => exact hplain.elim
  | packet p => exact hplain.elim

/-- Acknowledgements in front can be skipped. -/
theorem skip_acks {acks : List Item} (h : ∀ a ∈ acks, a.IsPlainAck) (rest : List Item)
    (d : List Event) (n : ℕ) (k : List U8) :
    ReflTransGen (Move kind) ⟨acks ++ rest, d, n, k⟩ ⟨rest, d, n, k⟩ := by
  induction acks with
  | nil => exact .refl
  | cons a acks ih =>
    obtain ⟨ha, hacks⟩ := List.forall_mem_cons.mp h
    cases a with
    | ack positive => exact .head (Move.skip (a := []) rfl rfl) (ih hacks)
    | brk => exact ha.elim
    | packet p => exact ha.elim

theorem filterMap_acks {acks : List Item} (h : ∀ a ∈ acks, a.IsPlainAck) :
    acks.filterMap kind.event = [] := by
  refine List.filterMap_eq_nil_iff.mpr fun a ha => ?_
  have hplain := h a ha
  cases a with
  | ack positive => rfl
  | brk => exact hplain.elim
  | packet p => exact hplain.elim

/-- An item that is neither is an event or corrupt. -/
theorem Item.cases {x : Item} (hx : ¬x.IsPlainAck) :
    (x.result = .cksumErr ∧ kind.bad x = true) ∨
      ∃ e, kind.event x = some e ∧ kind.key e = x.content ∧
        (x.result = .cmdRecvd ∨ x.result = .brk) ∧ x.result.event x.content = some e := by
  cases x with
  | ack positive => exact absurd trivial hx
  | brk => exact .inr ⟨.brk, rfl, rfl, .inr rfl, rfl⟩
  | packet p =>
    by_cases hp : p.Intact
    · exact .inr ⟨.command p.body, if_pos hp, rfl, .inl (if_pos hp), by
        rw [Item.result, if_pos hp]
        rfl⟩
    · exact .inl ⟨if_neg hp, by simp [kind, Item.corrupt, hp]⟩

theorem Item.parsed_result {x : Item} (hx : ¬x.IsPlainAck) (i : ℕ) :
    (x.parsed i).result = x.result := by
  cases x with
  | ack positive => rfl
  | brk => rfl
  | packet p => rfl

theorem Item.parsed_stop {x : Item} (hx : ¬x.IsPlainAck) (i : ℕ) :
    (x.parsed i).packetStart + (x.parsed i).packetSize = i + x.encode.length := by
  cases x with
  | ack positive => exact absurd trivial hx
  | brk => rfl
  | packet p =>
    simp only [Item.parsed, Item.encode, List.length_cons, List.length_append, List.length_nil]
    omega

theorem Item.parsed_content {x : Item} (hx : ¬x.IsPlainAck) {buffer more : List U8} {i : ℕ}
    (h : buffer.drop i = x.encode ++ more) :
    (buffer.drop (x.parsed i).packetStart).take (x.parsed i).packetContentSize = x.content := by
  cases x with
  | ack positive => exact absurd trivial hx
  | brk =>
    change (buffer.drop i).take 1 = _
    rw [h]
    rfl
  | packet p =>
    change (buffer.drop (i + 1)).take p.body.length = _
    rw [← List.drop_drop, h]
    simp [Item.encode, Item.content]

section
variable {s : Stub} {u : List U8} {items acks rest : List Item} {x : Item} {more : List U8}
  {consumed : ℕ}

theorem Whole.drop (h : Whole items (s.buffer.drop consumed) u consumed acks x rest more) :
    s.buffer.drop (consumed + acks.length) = x.encode ++ more := by
  rw [← List.drop_drop, h.piece_eq, ← length_encodeAll_acks h.plain, List.drop_left]

theorem Whole.content (h : Whole items (s.buffer.drop consumed) u consumed acks x rest more) :
    s.content (s.tryParsePacket consumed) = x.content := by
  rw [Stub.tryParsePacket, h.parse]
  exact Item.parsed_content h.item h.drop

theorem Whole.result (h : Whole items (s.buffer.drop consumed) u consumed acks x rest more) :
    (s.tryParsePacket consumed).result = x.result := by
  rw [Stub.tryParsePacket, h.parse]
  exact Item.parsed_result h.item _

/-- The buffer behind the item. -/
theorem Whole.behind (h : Whole items (s.buffer.drop consumed) u consumed acks x rest more) :
    s.buffer.drop ((s.tryParsePacket consumed).packetStart +
      (s.tryParsePacket consumed).packetSize) = more := by
  rw [Stub.tryParsePacket, h.parse, Item.parsed_stop h.item, ← List.drop_drop, h.drop,
    List.drop_left]

theorem Whole.shorter (h : Whole items (s.buffer.drop consumed) u consumed acks x rest more) :
    more.length < (s.buffer.drop consumed).length := by
  have hpos := List.length_pos_iff.mpr x.encode_ne_nil
  rw [h.piece_eq, List.length_append, List.length_append]
  omega

/-- Nothing is done with what ends before. -/
theorem Cut.result (h : Cut items (s.buffer.drop consumed) u consumed acks rest more) :
    (s.tryParsePacket consumed).result = .noPacket := h.parse

end

/-! ## Taking a command -/

theorem setup_eq {s : Stub} {y : Item} {previous : Parsed} (hresult : previous.result = y.result)
    (hcontent : s.content previous = y.content) (consumed : ℕ) : s.setup previous consumed =
      (y.result, { s with buffer := s.buffer.drop consumed, cmd := y.content }) := by
  rw [Stub.setup, hresult, hcontent, Stub.consumeReceived, List.take_zero, List.nil_append,
    Nat.zero_add]

/-- The loop takes repetitions of the item it has found, and no more. -/
theorem setupLoop_repeats {s : Stub} {u : List U8} {y : Item} {previous : Parsed}
    (hresult : previous.result = y.result) (hcontent : s.content previous = y.content)
    (hnone : y.result ≠ .noPacket) (turns : ℕ) (consumed : ℕ) {q : Pending}
    (hlast : q.last = y.content) (hstream : s.buffer.drop consumed ++ u = encodeAll q.pending)
    (hturns : (s.buffer.drop consumed).length < turns) :
    ∃ (q' : Pending) (consumed' : ℕ), s.setupLoop turns consumed previous =
        (y.result, { s with buffer := s.buffer.drop consumed', cmd := y.content }) ∧
      ReflTransGen (Move kind) q q' ∧ s.buffer.drop consumed' ++ u = encodeAll q'.pending ∧
      q'.delivered = q.delivered ∧ q'.rejected = q.rejected ∧ q'.last = q.last := by
  have hprevious : previous.result ≠ .noPacket := hresult ▸ hnone
  induction turns generalizing consumed q previous with
  | zero => exact absurd hturns (Nat.not_lt_zero _)
  | succ turns ih =>
    have hstop := setup_eq hresult hcontent consumed
    obtain ⟨acks, x, rest, more, h⟩ | ⟨acks, rest, more, h⟩ := parseFrom_stream hstream consumed
    · obtain ⟨hbad, -⟩ | ⟨e, he, hkey, hcommand, -⟩ := Item.cases h.item
      · refine ⟨q, consumed, ?_, .refl, hstream, rfl, rfl, rfl⟩
        rw [Stub.setupLoop, h.result, hbad, if_pos ⟨by decide, by decide⟩, if_pos hprevious, hstop]
      · have hpass : ¬(x.result ≠ .cmdRecvd ∧ x.result ≠ .brk) := by
          rw [not_and_or, not_not, not_not]
          exact hcommand
        rw [Stub.setupLoop, h.result, if_neg hpass]
        split_ifs with hother
        · exact ⟨q, consumed, hstop, .refl, hstream, rfl, rfl, rfl⟩
        · rw [not_and, not_or, not_or, not_not, not_not, not_not, h.content, hcontent] at hother
          obtain ⟨hsame, -, hbody⟩ := hother hprevious
          rw [hresult] at hsame
          obtain ⟨p, d, n, k⟩ := q
          obtain rfl := h.items_eq
          have hbehind : s.buffer.drop ((s.tryParsePacket consumed).packetStart +
              (s.tryParsePacket consumed).packetSize) = more := h.behind
          obtain ⟨q', consumed', hloop, hmoves, hrest⟩ := ih (h.result.trans hsame)
            (h.content.trans hbody) _ (q := ⟨rest, d, n, k⟩) hlast (hbehind ▸ h.more_eq)
            (hbehind ▸ h.shorter.trans_le (Nat.le_of_lt_succ hturns)) (h.result ▸ hsame ▸ hnone)
          refine ⟨q', consumed', hloop, .trans (skip_acks h.plain _ d n k) (.head ?_ hmoves), hrest⟩
          exact Move.again (a := []) he (hkey.trans (hbody.trans hlast.symm))
    · refine ⟨q, consumed, ?_, .refl, hstream, rfl, rfl, rfl⟩
      rw [Stub.setupLoop, h.result, if_pos ⟨by decide, by decide⟩, if_pos hprevious, hstop]

/-- What `ParseAndSetupPacket` has done to the queue. -/
structure Taken (u : List U8) (s : Stub) (q : Pending) (result : ReadResult) (s' : Stub)
    (q' : Pending) : Prop where
  moves : ReflTransGen (Move kind) q q'
  stream : s'.buffer ++ u = encodeAll q'.pending
  last : s'.cmd = q'.last
  sent : s'.sent = s.sent
  shorter : s'.buffer.length ≤ s.buffer.length
  delivered : q'.delivered = q.delivered ++ (result.event s'.cmd).toList
  rejected : q'.rejected = q.rejected + if result = .cksumErr then 1 else 0
  sound : result ≠ .wut ∧ result ≠ .eof
  kept : result = .noPacket → q'.events kind = q.events kind
  room : result = .noPacket → s'.buffer.length < bufferCapacity
  done : result = .noPacket → u = [] → q'.pending = []

theorem parseAndSetupPacket_taken (s : Stub) {u : List U8} {q : Pending}
    (hlast : s.cmd = q.last) (hstream : s.buffer ++ u = encodeAll q.pending) :
    ∃ q', Taken u s q s.parseAndSetupPacket.1 s.parseAndSetupPacket.2 q' := by
  have hzero : s.buffer.drop 0 = s.buffer := List.drop_zero
  rw [← hzero] at hstream
  obtain ⟨p, d, n, k⟩ := q
  obtain ⟨acks, x, rest, more, h⟩ | ⟨acks, rest, more, h⟩ := parseFrom_stream hstream 0
  · obtain rfl := h.items_eq
    have hskip := skip_acks h.plain (x :: rest) d n k
    obtain ⟨hbad, hcorrupt⟩ | ⟨e, he, hkey, hcommand, hevent⟩ := Item.cases h.item
    · have hrun : s.parseAndSetupPacket = (.cksumErr, { s with buffer := more }) := by
        rw [Stub.parseAndSetupPacket, Stub.setupLoop, h.result, hbad, if_pos ⟨by decide, by decide⟩,
          if_neg (not_not.mpr rfl), if_pos rfl, Stub.consumeReceived, Nat.zero_add, h.behind]
        rfl
      rw [hrun]
      exact ⟨⟨rest, d, n + 1, k⟩,
        { moves := .tail hskip (Move.reject (a := []) hcorrupt)
          stream := h.more_eq
          last := hlast
          sent := rfl
          shorter := h.shorter.le.trans (hzero ▸ le_rfl)
          delivered := (List.append_nil d).symm
          rejected := rfl
          sound := ⟨fun h => (by cases h), fun h => (by cases h)⟩
          kept := fun h => by cases h
          room := fun h => by cases h
          done := fun h => by cases h }⟩
    · have hpass : ¬(x.result ≠ .cmdRecvd ∧ x.result ≠ .brk) := by
        rw [not_and_or, not_not, not_not]
        exact hcommand
      have hnone : x.result ≠ .noPacket := by
        rcases hcommand with hx | hx <;> (rw [hx]; decide)
      obtain ⟨q', consumed', hloop, hmoves, hstream', hdelivered, hrejected, hlast'⟩ :=
        setupLoop_repeats h.result h.content hnone s.buffer.length _
          (q := ⟨rest, d ++ [e], n, x.content⟩) rfl (h.behind ▸ h.more_eq)
          (h.behind ▸ h.shorter.trans_le (hzero ▸ le_rfl))
      have hrun : s.parseAndSetupPacket =
          (x.result, { s with buffer := s.buffer.drop consumed', cmd := x.content }) := by
        rw [← hloop, Stub.parseAndSetupPacket, Stub.setupLoop, h.result, if_neg hpass,
          if_neg fun hne => hne.1 rfl]
      rw [hrun]
      have hdeliver : Move kind ⟨x :: rest, d, n, k⟩ ⟨rest, d ++ [e], n, x.content⟩ :=
        hkey ▸ Move.deliver he
      have hsound : x.result ≠ .cksumErr ∧ x.result ≠ .wut ∧ x.result ≠ .eof := by
        rcases hcommand with hx | hx <;> (rw [hx]; decide)
      exact ⟨q',
        { moves := .trans hskip (.head hdeliver hmoves)
          stream := hstream'
          last := hlast'.symm
          sent := rfl
          shorter := (List.drop_sublist _ _).length_le
          delivered := by rw [hdelivered, hevent]; rfl
          rejected := hrejected.trans (by rw [if_neg hsound.1]; rfl)
          sound := hsound.2
          kept := fun h => absurd h hnone
          room := fun h => absurd h hnone
          done := fun h => absurd h hnone }⟩
  · obtain rfl := h.items_eq
    have htake : (s.buffer.drop 0).takeWhile (decide <| IsAck ·) = encodeAll acks := by
      have hmore : more.takeWhile (decide <| IsAck ·) = [] := by
        cases more with
        | nil => rfl
        | cons v more => exact List.takeWhile_cons_of_neg (by simpa using h.head v rfl)
      rw [h.piece_eq, List.takeWhile_append_of_pos (by simpa using isAck_encodeAll h.plain), hmore,
        List.append_nil]
    have hrun : s.parseAndSetupPacket = (.noPacket, { s with buffer := more }) := by
      rw [Stub.parseAndSetupPacket, Stub.setupLoop, h.result, if_pos ⟨by decide, by decide⟩,
        if_neg (not_not.mpr rfl), if_neg (by decide), if_pos rfl, Stub.consumeReceived, htake,
        Nat.zero_add, Nat.zero_add, ← hzero, h.piece_eq, List.drop_left]
      rfl
    rw [hrun]
    exact ⟨⟨rest, d, n, k⟩,
      { moves := skip_acks h.plain rest d n k
        stream := h.more_eq
        last := hlast
        sent := rfl
        shorter := by
          rw [← hzero, h.piece_eq]
          exact (List.sublist_append_right _ _).length_le
        delivered := (List.append_nil d).symm
        rejected := rfl
        sound := ⟨fun h => (by cases h), fun h => (by cases h)⟩
        kept := fun _ => by
          rw [Queue.events, Queue.events]
          dsimp only
          rw [List.filterMap_append, filterMap_acks h.plain, List.nil_append]
        room := fun _ => h.fits
        done := fun _ => h.done }⟩

/-! ## Polling -/

/-- What polling has done to the queue, before a `SendNak`. -/
structure Received (l : Link) (q : Pending) (closed : Prop) (result : ReadResult) (l' : Link)
    (q' : Pending) : Prop where
  moves : ReflTransGen (Move kind) q q'
  stream : l'.stub.buffer ++ l'.unread = encodeAll q'.pending
  last : l'.stub.cmd = q'.last
  sent : l'.stub.sent = l.stub.sent
  fits : l'.stub.buffer.length ≤ bufferCapacity
  delivered : q'.delivered = q.delivered ++ (result.event l'.stub.cmd).toList
  rejected : q'.rejected = q.rejected + if result = .cksumErr then 1 else 0
  sound : result ≠ .wut
  eof : result = .eof → closed
  kept : result = .noPacket → q'.events kind = q.events kind
  room : result = .noPacket → l'.stub.buffer.length < bufferCapacity
  done : result = .noPacket → l'.unread = [] → q'.pending = []

section
variable {l m l' : Link} {q q' r : Pending} {closed : Prop} {result : ReadResult}

theorem parse_received (closed : Prop) (hlast : l.stub.cmd = q.last)
    (hstream : l.stub.buffer ++ l.unread = encodeAll q.pending)
    (hfits : l.stub.buffer.length ≤ bufferCapacity) :
    ∃ q', Received l q closed l.parseAndSetupPacket.1 l.parseAndSetupPacket.2 q' := by
  obtain ⟨q', h⟩ := parseAndSetupPacket_taken l.stub hlast hstream
  exact ⟨q', h.moves, h.stream, h.last, h.sent, h.shorter.trans hfits, h.delivered, h.rejected,
    h.sound.1, fun he => absurd he h.sound.2, h.kept, h.room, h.done⟩

/-- Another look after one that has found nothing. -/
theorem Received.next (h : Received l q closed .noPacket m q') (hsent : l'.stub.sent = m.stub.sent)
    {l'' : Link} (h' : Received l' q' closed result l'' r) : Received l q closed result l'' r where
  moves := h.moves.trans h'.moves
  stream := h'.stream
  last := h'.last
  sent := h'.sent.trans (hsent.trans h.sent)
  fits := h'.fits
  delivered := by
    rw [h'.delivered, h.delivered]
    exact congrArg (· ++ _) (List.append_nil _)
  rejected := by
    rw [h'.rejected, h.rejected]
    rfl
  sound := h'.sound
  eof := h'.eof
  kept hr := (h'.kept hr).trans (h.kept rfl)
  room := h'.room
  done := h'.done

theorem recv_stream (l : Link) (n : ℕ) :
    (l.recv n).stub.buffer ++ (l.recv n).unread = l.stub.buffer ++ l.unread := by
  rw [Link.recv]
  dsimp only
  rw [List.append_assoc, List.take_append_drop]

theorem recv_fits (h : l.stub.buffer.length ≤ bufferCapacity) (n : ℕ) :
    (l.recv n).stub.buffer.length ≤ bufferCapacity := by
  rw [Link.recv]
  dsimp only
  rw [List.length_append, List.length_take]
  omega

theorem msgRecv_received (hlast : l.stub.cmd = q.last)
    (hstream : l.stub.buffer ++ l.unread = encodeAll q.pending)
    (hfits : l.stub.buffer.length ≤ bufferCapacity) (socket : Socket) :
    ∃ q', Received l q (socket = .closed) (l.msgRecv socket).1 (l.msgRecv socket).2 q' := by
  obtain ⟨q', h⟩ := parse_received (socket = .closed) hlast hstream hfits
  rw [Link.msgRecv]
  generalize l.parseAndSetupPacket = found at h
  obtain ⟨buffered, m⟩ := found
  dsimp only at h ⊢
  split_ifs with hbuffered hfull
  · exact ⟨q', h⟩
  · exact absurd hfull (h.room (not_not.mp hbuffered)).ne
  · obtain rfl := not_not.mp hbuffered
    cases socket with
    | closed =>
      exact ⟨q', h.moves, h.stream, h.last, h.sent, h.fits, h.delivered, h.rejected,
        fun he => (by cases he), fun _ => rfl, fun he => (by cases he), fun he => (by cases he),
        fun he => (by cases he)⟩
    | arrived n =>
      obtain ⟨r, hr⟩ := parse_received (l := m.recv n) (q := q') (Socket.arrived n = .closed) h.last
        ((recv_stream m n).trans h.stream) (recv_fits h.fits n)
      exact ⟨r, h.next (show (m.recv n).stub.sent = m.stub.sent from rfl) hr⟩

/-- The queue that the stub and the socket stand for. -/
structure Refines (l : Link) (q : Pending) : Prop where
  stream : l.stub.buffer ++ l.unread = encodeAll q.pending
  last : l.stub.cmd = q.last
  naks : l.stub.sent.count 45 = q.rejected
  fits : l.stub.buffer.length ≤ bufferCapacity

theorem poll_refines (h : Refines l q) (socket : Socket) :
    ∃ q', Refines (l.poll socket).2 q' ∧ ReflTransGen (Move kind) q q' ∧
      q'.delivered = q.delivered ++ ((l.poll socket).1.event (l.poll socket).2.stub.cmd).toList ∧
      (l.poll socket).1 ≠ .wut ∧ ((l.poll socket).1 = .eof → socket = .closed) ∧
      ((l.poll socket).1 = .noPacket → (l.poll socket).2.unread = [] →
        q'.pending = [] ∧ q'.events kind = q.events kind) := by
  obtain ⟨q₁, h₁⟩ := parse_received (socket = .closed) h.last h.stream h.fits
  rw [Link.poll]
  generalize l.parseAndSetupPacket = found at h₁
  obtain ⟨first, m⟩ := found
  dsimp only at h₁ ⊢
  have hsecond : ∃ q₂, Received l q (socket = .closed)
      (if first = .noPacket then m.msgRecv socket else (first, m)).1
      (if first = .noPacket then m.msgRecv socket else (first, m)).2 q₂ := by
    split_ifs with hnone
    · obtain rfl := hnone
      obtain ⟨q₂, h₂⟩ := msgRecv_received h₁.last h₁.stream h₁.fits socket
      exact ⟨q₂, h₁.next rfl h₂⟩
    · exact ⟨q₁, h₁⟩
  generalize (if first = .noPacket then m.msgRecv socket else (first, m)) = found at hsecond ⊢
  obtain ⟨result, l'⟩ := found
  obtain ⟨q', h'⟩ := hsecond
  dsimp only at h' ⊢
  split_ifs with hcorrupt
  · obtain rfl := hcorrupt
    refine ⟨q', ⟨h'.stream, h'.last, ?_, h'.fits⟩, h'.moves, h'.delivered, h'.sound, h'.eof,
      fun hn => by cases hn⟩
    change (l'.stub.sent ++ [45]).count 45 = _
    rw [List.count_append, h'.sent, h.naks, h'.rejected]
    rfl
  · refine ⟨q', ⟨h'.stream, h'.last, ?_, h'.fits⟩, h'.moves, h'.delivered, h'.sound, h'.eof,
      fun hn hu => ⟨h'.done hn hu, h'.kept hn⟩⟩
    rw [h'.sent, h.naks, h'.rejected, if_neg hcorrupt]
    rfl

end

/-! ## Waiting for an acknowledgement -/

/-- The cursor is between two items. -/
structure At (u : List U8) (s : Stub) (q : Pending) (cursor : ℕ) (before ahead : List Item)
    (t : List U8) : Prop where
  pending_eq : q.pending = before ++ ahead
  buffer_eq : s.buffer = encodeAll before ++ t
  cursor_eq : cursor = (encodeAll before).length
  stream : t ++ u = encodeAll ahead
  last : s.cmd = q.last
  naks : s.sent.count 45 = q.rejected

/-- What the stub holds after a scan. -/
structure Scanned (u : List U8) (s : Stub) (q : Pending) (s' : Stub) (q' : Pending) : Prop where
  moves : ReflTransGen (Move kind) q q'
  stream : s'.buffer ++ u = encodeAll q'.pending
  last : s'.cmd = q'.last
  naks : s'.sent.count 45 = q'.rejected
  shorter : s'.buffer.length ≤ s.buffer.length
  delivered : q'.delivered = q.delivered

def Scan.stub : Scan → Stub
  | acked _ s | failed s | more _ s => s

section
variable {u : List U8} {s : Stub} {q : Pending} {cursor : ℕ} {before ahead : List Item}
  {t more : List U8} {x : Item}

theorem At.drop (h : At u s q cursor before ahead t) : s.buffer.drop cursor = t := by
  rw [h.buffer_eq, h.cursor_eq, List.drop_left]

theorem At.scanned (h : At u s q cursor before ahead t) : Scanned u s q s q where
  moves := .refl
  stream := by rw [h.buffer_eq, List.append_assoc, h.stream, h.pending_eq, encodeAll_append]
  last := h.last
  naks := h.naks
  shorter := le_rfl
  delivered := rfl

theorem Scanned.trans {s' s'' : Stub} {q' q'' : Pending} (h : Scanned u s q s' q')
    (h' : Scanned u s' q' s'' q'') : Scanned u s q s'' q'' :=
  ⟨h.moves.trans h'.moves, h'.stream, h'.last, h'.naks, h'.shorter.trans h.shorter,
    h'.delivered.trans h.delivered⟩

/-- Consuming the item at the cursor. -/
theorem At.consume (h : At u s q cursor before (x :: ahead) (x.encode ++ more)) :
    (s.consumeReceived x.encode.length cursor).buffer = encodeAll before ++ more := by
  rw [Stub.consumeReceived]
  dsimp only
  rw [← List.drop_drop, h.drop, List.drop_left, h.buffer_eq, h.cursor_eq, List.take_left]

theorem At.shorter (h : At u s q cursor before (x :: ahead) (x.encode ++ more)) :
    (encodeAll before ++ more).length ≤ s.buffer.length := by
  rw [h.buffer_eq, List.length_append, List.length_append, List.length_append]
  omega

/-- An item at the cursor that the move takes out of the queue. -/
theorem At.take {n : ℕ} (h : At u s q cursor before (x :: ahead) (x.encode ++ more)) (s' : Stub)
    (hmove : Move kind q ⟨before ++ ahead, q.delivered, n, q.last⟩)
    (hbuffer : s'.buffer = encodeAll before ++ more) (hcmd : s'.cmd = s.cmd)
    (hsent : s'.sent.count 45 = n) :
    At u s' ⟨before ++ ahead, q.delivered, n, q.last⟩ cursor before ahead more ∧
      Scanned u s q s' ⟨before ++ ahead, q.delivered, n, q.last⟩ := by
  have hstream := h.stream
  rw [encodeAll_cons, List.append_assoc, List.append_cancel_left_eq] at hstream
  refine ⟨⟨rfl, hbuffer, h.cursor_eq, hstream, hcmd.trans h.last, hsent⟩, .single hmove, ?_,
    hcmd.trans h.last, hsent, ?_, rfl⟩
  · rw [hbuffer, List.append_assoc, hstream, encodeAll_append]
  · rw [hbuffer]
    exact h.shorter

/-- Passing over the item at the cursor. -/
theorem At.pass (h : At u s q cursor before (x :: ahead) (x.encode ++ more)) :
    At u s q (cursor + x.encode.length) (before ++ [x]) ahead more where
  pending_eq := by rw [h.pending_eq, List.append_assoc]; rfl
  buffer_eq := by
    rw [h.buffer_eq, encodeAll_append, List.append_assoc, encodeAll_cons]
    simp [encodeAll]
  cursor_eq := by
    rw [h.cursor_eq, encodeAll_append, List.length_append, encodeAll_cons, List.length_append]
    rfl
  stream := by
    have hstream := h.stream
    rwa [encodeAll_cons, List.append_assoc, List.append_cancel_left_eq] at hstream
  last := h.last
  naks := h.naks

/-- What stands at the cursor: an acknowledgement, an item as a whole, or a piece of one. -/
theorem At.here {v : U8} (h : At u s q cursor before ahead (v :: t)) :
    (IsAck v ∧ ∃ positive rest, ahead = .ack positive :: rest ∧
      v :: t = (Item.ack positive).encode ++ t) ∨
    ¬IsAck v ∧ ((s.tryParsePacket cursor).result = .noPacket ∨
      ∃ x rest more, ahead = x :: rest ∧ ¬x.IsPlainAck ∧ v :: t = x.encode ++ more ∧
        s.tryParsePacket cursor = x.parsed cursor) := by
  by_cases hv : IsAck v
  · refine .inl ⟨hv, ?_⟩
    have hstream := h.stream
    obtain _ | ⟨x, rest⟩ := ahead
    · cases hstream
    · cases x with
      | ack positive =>
        refine ⟨positive, rest, rfl, ?_⟩
        obtain ⟨rfl, -⟩ := List.cons.inj hstream
        rfl
      | brk =>
        obtain ⟨rfl, -⟩ := List.cons.inj hstream
        exact absurd hv (by decide)
      | packet p =>
        obtain ⟨rfl, -⟩ := List.cons.inj hstream
        exact absurd hv (by decide)
  · refine .inr ⟨hv, ?_⟩
    have hnone {acks : List Item} {w : List U8} (hplain : ∀ a ∈ acks, a.IsPlainAck)
        (hpiece : v :: t = encodeAll acks ++ w) : acks = [] := by
      obtain _ | ⟨a, acks⟩ := acks
      · rfl
      · refine absurd (isAck_encodeAll hplain v ?_) hv
        rw [encodeAll_cons]
        cases a <;> (
          obtain ⟨rfl, -⟩ := List.cons.inj hpiece
          exact List.mem_cons_self ..)
    have hparse : s.tryParsePacket cursor = parseFrom (v :: t) cursor :=
      congrArg (parseFrom · cursor) h.drop
    obtain ⟨acks, x, rest, more, hw⟩ | ⟨acks, rest, more, hc⟩ := parseFrom_stream h.stream cursor
    · obtain rfl := hnone hw.plain hw.piece_eq
      exact .inr ⟨x, rest, more, hw.items_eq, hw.item, hw.piece_eq, hparse.trans hw.parse⟩
    · exact .inl ((congrArg Parsed.result hparse).trans hc.parse)

/-- The scan stops between two items. -/
def Scan.Between (u : List U8) (q : Pending) : Scan → Prop
  | .acked _ _ | .failed _ => True
  | .more cursor s => ∃ before ahead t, At u s q cursor before ahead t

theorem scanLoop_scanned (attemptedRead : Bool) (turn : Turn) (turns : ℕ)
    (h : At u s q cursor before ahead t) :
    ∃ q', Scanned u s q (s.scanLoop attemptedRead turn turns cursor).stub q' ∧
      (s.scanLoop attemptedRead turn turns cursor).Between u q' := by
  induction turns generalizing s q cursor before ahead t with
  | zero => exact ⟨q, h.scanned, before, ahead, t, h⟩
  | succ turns ih =>
    rw [Stub.scanLoop, h.drop]
    obtain _ | ⟨v, t⟩ := t
    · exact ⟨q, h.scanned, before, ahead, [], h⟩
    obtain ⟨hv, positive, rest, rfl, hpiece⟩ | ⟨hv, hnone | ⟨x, rest, more, rfl, hx, hpiece, hparse⟩⟩ :=
      h.here
    · dsimp only
      rw [if_pos hv]
      rw [hpiece] at h
      obtain ⟨p, d, n, k⟩ := q
      obtain rfl : p = before ++ .ack positive :: rest := h.pending_eq
      exact ⟨_, (h.take _ (.skip rfl rfl) h.consume rfl h.naks).2, trivial⟩
    · dsimp only
      rw [if_neg hv]
      by_cases hlate : attemptedRead = true ∧ turn.late turns = true
      · rw [if_pos hlate]
        exact ⟨q, h.scanned, trivial⟩
      · rw [if_neg hlate, hnone]
        exact ⟨q, h.scanned, before, ahead, _, h⟩
    · dsimp only
      rw [if_neg hv]
      rw [hpiece] at h
      have hstop := Item.parsed_stop hx cursor
      have hresult := Item.parsed_result hx cursor
      have hcontent : s.content (x.parsed cursor) = x.content :=
        Item.parsed_content hx h.drop
      by_cases hlate : attemptedRead = true ∧ turn.late turns = true
      · rw [if_pos hlate]
        exact ⟨q, h.scanned, trivial⟩
      rw [if_neg hlate, hparse, hstop, hresult, hcontent, Nat.add_sub_cancel_left]
      obtain ⟨p, d, n, k⟩ := q
      obtain rfl : p = before ++ x :: rest := h.pending_eq
      obtain ⟨hbad, hcorrupt⟩ | ⟨e, he, hkey, hcommand, -⟩ := Item.cases hx
      · have hnaks : (s.sent ++ [45]).count 45 = n + 1 := by
          rw [List.count_append, h.naks]
          rfl
        obtain ⟨hat, htaken⟩ := h.take (s.consumeReceived x.encode.length cursor).sendNak
          (.reject hcorrupt) h.consume rfl hnaks
        rw [hbad]
        dsimp only
        by_cases hsends : turn.sends turns = true
        · obtain ⟨q', hscan, hbetween⟩ := ih hat
          rw [if_pos hsends]
          exact ⟨q', htaken.trans hscan, hbetween⟩
        · rw [if_neg hsends]
          exact ⟨_, htaken, trivial⟩
      · have hpass := ih h.pass
        rcases hcommand with hres | hres <;> rw [hres] <;> dsimp only
        · by_cases hsame : x.content = s.cmd
          · have hnaks : (s.sent ++ [43]).count 45 = n := by
              rw [List.count_append, h.naks]
              rfl
            obtain ⟨hat, htaken⟩ := h.take (s.consumeReceived x.encode.length cursor).sendAck
              (.again he (hkey.trans (hsame.trans h.last))) h.consume rfl hnaks
            rw [if_pos hsame]
            by_cases hsends : turn.sends turns = true
            · obtain ⟨q', hscan, hbetween⟩ := ih hat
              rw [if_pos hsends]
              exact ⟨q', htaken.trans hscan, hbetween⟩
            · rw [if_neg hsends]
              exact ⟨_, htaken, trivial⟩
          · rw [if_neg hsame]
            exact hpass
        · exact hpass

theorem At.recv {l : Link} (h : At l.unread l.stub q cursor before ahead t) (n : ℕ) :
    ∃ t', At (l.recv n).unread (l.recv n).stub q cursor before ahead t' := by
  refine ⟨t ++ l.unread.take (min n (bufferCapacity - l.stub.buffer.length)),
    h.pending_eq, ?_, h.cursor_eq, ?_, h.last, h.naks⟩
  · rw [← List.append_assoc, ← h.buffer_eq]
    rfl
  · rw [← h.stream, List.append_assoc]
    exact congrArg (t ++ ·) (List.take_append_drop _ _)

theorem waitAckLoop_refines (turns : List Turn) (attemptedRead : Bool) {l : Link}
    (h : At l.unread l.stub q cursor before ahead t)
    (hfits : l.stub.buffer.length ≤ bufferCapacity) :
    ∃ q', Refines (l.waitAckLoop turns attemptedRead cursor).2 q' ∧ ReflTransGen (Move kind) q q' ∧
      q'.delivered = q.delivered := by
  induction turns generalizing attemptedRead l q cursor before ahead t with
  | nil => exact ⟨q, ⟨h.scanned.stream, h.last, h.naks, hfits⟩, .refl, rfl⟩
  | cons turn turns ih =>
    obtain ⟨q', hscan, hbetween⟩ :=
      scanLoop_scanned attemptedRead turn (l.stub.buffer.length + 1) h
    rw [Link.waitAckLoop]
    generalize l.stub.scanLoop attemptedRead turn (l.stub.buffer.length + 1) cursor = scan
      at hscan hbetween
    have hrefines (m : Link) (hstub : m.stub = scan.stub) (hunread : m.unread = l.unread) :
        Refines m q' :=
      ⟨by rw [hstub, hunread]; exact hscan.stream, by rw [hstub]; exact hscan.last,
        by rw [hstub]; exact hscan.naks, by rw [hstub]; exact hscan.shorter.trans hfits⟩
    have hdone (m : Link) (hstub : m.stub = scan.stub) (hunread : m.unread = l.unread) :
        ∃ q', Refines m q' ∧ ReflTransGen (Move kind) q q' ∧ q'.delivered = q.delivered :=
      ⟨q', hrefines m hstub hunread, hscan.moves, hscan.delivered⟩
    cases scan with
    | acked v s => exact hdone _ rfl rfl
    | failed s => exact hdone _ rfl rfl
    | more cursor s =>
      obtain ⟨before, ahead, t, hat⟩ := hbetween
      dsimp only
      split_ifs with hstop
      · exact hdone _ rfl rfl
      · cases turn.socket with
        | closed => exact hdone _ rfl rfl
        | arrived n =>
          dsimp only
          split_ifs with hlate
          · exact hdone _ rfl rfl
          · obtain ⟨t', hat'⟩ := At.recv (l := { l with stub := s }) hat n
            obtain ⟨r, hr, hmoves, hdelivered⟩ := ih true hat'
              (recv_fits (l := { l with stub := s }) (hscan.shorter.trans hfits) n)
            exact ⟨r, hr, hscan.moves.trans hmoves, hdelivered.trans hscan.delivered⟩

theorem waitAckBlocking_refines {l : Link} (h : Refines l q) (turns : List Turn) :
    ∃ q', Refines (l.waitAckBlocking turns).2 q' ∧ ReflTransGen (Move kind) q q' ∧
      q'.delivered = q.delivered :=
  waitAckLoop_refines turns false
    (⟨rfl, rfl, rfl, h.stream, h.last, h.naks⟩ : At l.unread l.stub q 0 [] q.pending l.stub.buffer)
    h.fits

end

/-! ## A session -/

inductive Action
  | poll (socket : Socket)
  | waitAck (turns : List Turn)

def Action.run (l : Link) : Action → ReadResult × Link
  | .poll socket => l.poll socket
  | .waitAck turns => (.noPacket, (l.waitAckBlocking turns).2)

/-- The socket of a poll. -/
def Action.socket : Action → Option Socket
  | .poll socket => some socket
  | .waitAck _ => none

/-- What is handed on, and whether the connection still stands. -/
def session (l : Link) : List Action → List Event × Bool × Link
  | [] => ([], true, l)
  | a :: actions =>
    let (result, l) := a.run l
    if result = .wut ∨ result = .eof then ([], false, l)
    else
      let (events, up, l') := session l actions
      ((result.event l.stub.cmd).toList ++ events, up, l')

theorem session_refines {l : Link} {q : Pending} (h : Refines l q) (actions : List Action) :
    ∃ q', Refines (session l actions).2.2 q' ∧ ReflTransGen (Move kind) q q' ∧
      q'.delivered = q.delivered ++ (session l actions).1 ∧
      ((session l actions).2.1 = false → ∃ a ∈ actions, a.socket = some .closed) := by
  induction actions generalizing l q with
  | nil => exact ⟨q, h, .refl, (List.append_nil _).symm, fun hup => by cases hup⟩
  | cons a actions ih =>
    have hstep : ∃ q₁, Refines (a.run l).2 q₁ ∧ ReflTransGen (Move kind) q q₁ ∧
        q₁.delivered = q.delivered ++ ((a.run l).1.event (a.run l).2.stub.cmd).toList ∧
        (a.run l).1 ≠ .wut ∧ ((a.run l).1 = .eof → a.socket = some .closed) := by
      cases a with
      | poll socket =>
        obtain ⟨q₁, hrefines, hmoves, hdelivered, hsound, heof, -⟩ := poll_refines h socket
        exact ⟨q₁, hrefines, hmoves, hdelivered, hsound, fun he => congrArg some (heof he)⟩
      | waitAck turns =>
        obtain ⟨q₁, hrefines, hmoves, hdelivered⟩ := waitAckBlocking_refines h turns
        exact ⟨q₁, hrefines, hmoves, hdelivered.trans (List.append_nil _).symm,
          fun he => (by cases he), fun he => (by cases he)⟩
    obtain ⟨q₁, hrefines, hmoves, hdelivered, hsound, heof⟩ := hstep
    rw [session]
    generalize a.run l = first at hrefines hmoves hdelivered hsound heof
    obtain ⟨result, m⟩ := first
    dsimp only at hrefines hdelivered hsound heof ⊢
    split_ifs with hdown
    · have hnone : (result.event m.stub.cmd).toList = [] := by
        rcases hdown with rfl | rfl <;> rfl
      rw [hnone, List.append_nil] at hdelivered
      exact ⟨q₁, hrefines, hmoves, hdelivered.trans (List.append_nil _).symm,
        fun _ => ⟨a, List.mem_cons_self .., heof (hdown.resolve_left hsound)⟩⟩
    · obtain ⟨q', hrefines', hmoves', hdelivered', hup⟩ := ih hrefines
      refine ⟨q', hrefines', hmoves.trans hmoves', ?_, fun hfalse => ?_⟩
      · rw [hdelivered', hdelivered, List.append_assoc]
      · obtain ⟨b, hb, hclosed⟩ := hup hfalse
        exact ⟨b, List.mem_cons_of_mem a hb, hclosed⟩

theorem Item.length_content_le (x : Item) {e : Event} (h : x.event = some e) :
    e.content.length ≤ maxPayload := by
  cases x with
  | ack positive => cases h
  | brk =>
    cases h
    exact (by decide : 1 ≤ maxPayload)
  | packet p =>
    rw [Item.event] at h
    split_ifs at h
    cases h
    exact p.fits

/-- A connection on which nothing has been received. -/
def opened (items : List Item) : Link := ⟨⟨[], [], []⟩, encodeAll items⟩

/-- What a session has done with the items that were sent. -/
structure Served (items : List Item) (events : List Event) (l : Link) (pending : List Item) : Prop
    where
  stream : l.stub.buffer ++ l.unread = encodeAll pending
  order : (events ++ pending.filterMap Item.event).Sublist (items.filterMap Item.event)
  seen : ∀ e ∈ items.filterMap Item.event, e.content ≠ [] →
    e.content ∈ (events ++ pending.filterMap Item.event).map Event.content
  exact : ([] :: (items.filterMap Item.event).map Event.content).Nodup →
    events ++ pending.filterMap Item.event = items.filterMap Item.event
  naks : l.stub.sent.count 45 + pending.countP Item.corrupt = items.countP Item.corrupt
  fits : l.stub.buffer.length ≤ bufferCapacity
  command : l.stub.cmd.length ≤ maxPayload
  settled : ∀ n, (l.poll (.arrived n)).1 = .noPacket → (l.poll (.arrived n)).2.unread = [] →
    pending.filterMap Item.event = []

/-- An acknowledgement, a command that is cut in two, and a break request. -/
example : (session (opened [.ack true, .packet ⟨[103], 54, 55, ⟨fun _ => by decide, rfl⟩, by decide⟩,
    .brk]) [.poll (.arrived 2), .poll (.arrived 4), .poll (.arrived 1)]).1 =
      [.command [103], .brk] := by decide

end MelonDS.GDB
