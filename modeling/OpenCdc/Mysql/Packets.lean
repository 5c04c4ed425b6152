import OpenCdc.Foundation.Batched
import OpenCdc.Mysql.Binlog

/-!
# Binlog events in network packets

`BinlogClient::next_event` reads packets until it can return an event.  The
server sends whole events; what the client makes of them depends on how they
are grouped in packets, on the bytes a packet starts with, and on the table
maps that it has seen.
-/

namespace OpenCdc.Mysql

open Foundation

/-! ## The client -/

/-- The bytes that the server still sends, and what the parser remembers. -/
structure BinlogClient where
  stream : Bytes
  state : ParserState

/-- `read_packet`: its result, and the bytes behind the packet.  A failed
`read_exact` has consumed everything. -/
def readPacket (stream : Bytes) : Outcome String Bytes × Bytes :=
  match stream with
  | a :: b :: c :: _seq :: rest =>
      let len := Bytes.ofLe [a, b, c, 0]
      if rest.length < len then
        (.error "read packet body failed: early eof", [])
      else (.ok (rest.take len), rest.drop len)
  | _ => (.error "read packet header failed: early eof", [])

theorem length_lt_of_readPacket_eq_ok {stream packet rest : Bytes}
    (hread : readPacket stream = (.ok packet, rest)) :
    rest.length < stream.length := by
  unfold readPacket at hread
  split at hread
  · rename_i a b c seq tail
    dsimp only at hread
    split_ifs at hread with hshort
    · simp at hread
    · have hrest : tail.drop (Bytes.ofLe [a, b, c, 0]) = rest :=
        congrArg Prod.snd hread
      rw [← hrest, List.length_drop]
      simp only [List.length_cons]
      omega
  · simp at hread

/-- The test by which `next_event` passes over a packet that is not empty. -/
def isSkipped (packet : Bytes) : Bool :=
  packet.head? = some 0 ∧ (packet.length < 2 ∨ packet[1]? = some 0)

/-- The header at an offset of the packet. -/
def readHeader (packet : Bytes) (pos : ℕ) : Outcome String EventHeader := do
  let timestamp ← Bytes.bytesAt packet pos 4
  let eventType ← Bytes.byteAt packet (pos + 4)
  let serverId ← Bytes.bytesAt packet (pos + 5) 4
  let eventSize ← Bytes.bytesAt packet (pos + 9) 4
  let logPos ← Bytes.bytesAt packet (pos + 13) 4
  let flags ← Bytes.bytesAt packet (pos + 17) 2
  return ⟨UInt32.ofNat (Bytes.ofLe timestamp), eventType,
    UInt32.ofNat (Bytes.ofLe serverId), UInt32.ofNat (Bytes.ofLe eventSize),
    UInt32.ofNat (Bytes.ofLe logPos), UInt16.ofNat (Bytes.ofLe flags)⟩

/-- The events that `next_event` does not return. -/
def BinlogEvent.isPassed : BinlogEvent → Bool
  | rotate _ _ => true
  | formatDescription => true
  | _ => false

/-- What a call returns: an event with its header. -/
abbrev Delivery := EventHeader × BinlogEvent

/-- The event loop of `next_event`: `.ok none` if it ends without returning. -/
def eventLoop (json : JsonParser) (state : ParserState) (packet : Bytes)
    (pos : ℕ) : Outcome String (Option Delivery) × ParserState :=
  if _hpos : pos + 19 ≤ packet.length then
    match readHeader packet pos with
    | .error e => (.error e, state)
    | .panicked => (.panicked, state)
    | .ok header =>
        let eventSize := header.eventSize.toNat
        if packet.length < pos + eventSize then (.ok none, state)
        else
          match _hdata : Bytes.slice packet (pos + 19) (pos + eventSize) with
          | .error e => (.error e, state)
          | .panicked => (.panicked, state)
          | .ok eventData =>
              match parseEvent json state header eventData with
              | (.error e, state') => (.error e, state')
              | (.panicked, state') => (.panicked, state')
              | (.ok none, state') =>
                  eventLoop json state' packet (pos + eventSize)
              | (.ok (some event), state') =>
                  if event.isPassed then
                    eventLoop json state' packet (pos + eventSize)
                  else (.ok (some (header, event)), state')
  else (.ok none, state)
termination_by packet.length - pos
decreasing_by
  all_goals
    have hle := Bytes.le_of_slice_eq_ok _hdata
    omega

/-- `next_event`: what the call returns, and the client after it. -/
def nextEvent (json : JsonParser) (client : BinlogClient) :
    Outcome String (Option Delivery) × BinlogClient :=
  match _hread : readPacket client.stream with
  | (.error e, rest) => (.error e, ⟨rest, client.state⟩)
  | (.panicked, rest) => (.panicked, ⟨rest, client.state⟩)
  | (.ok packet, rest) =>
      if packet = [] then (.ok none, ⟨rest, client.state⟩)
      else if isSkipped packet then nextEvent json ⟨rest, client.state⟩
      else
        match eventLoop json client.state packet 0 with
        | (.error e, state) => (.error e, ⟨rest, state⟩)
        | (.panicked, state) => (.panicked, ⟨rest, state⟩)
        | (.ok none, state) => nextEvent json ⟨rest, state⟩
        | (.ok (some delivery), state) => (.ok (some delivery), ⟨rest, state⟩)
termination_by client.stream.length
decreasing_by
  all_goals exact length_lt_of_readPacket_eq_ok _hread

/-- The events that the first `n` calls return; a panic ends the caller. -/
def poll (json : JsonParser) : ℕ → BinlogClient → List Delivery
  | 0, _ => []
  | n + 1, client =>
      match nextEvent json client with
      | (.ok (some delivery), client') => delivery :: poll json n client'
      | (.panicked, _) => []
      | (_, client') => poll json n client'

/-! ## Well-formed events and packets -/

/-- A well-formed event: the size in its header is its total length. -/
structure RawEvent where
  timestamp : UInt32
  eventType : UInt8
  serverId : UInt32
  logPos : UInt32
  flags : UInt16
  body : Bytes
  size_lt : 19 + body.length < 2 ^ 32

namespace RawEvent

def header (e : RawEvent) : EventHeader where
  timestamp := e.timestamp
  eventType := e.eventType
  serverId := e.serverId
  eventSize := UInt32.ofNat (19 + e.body.length)
  logPos := e.logPos
  flags := e.flags

def encode (e : RawEvent) : Bytes :=
  Bytes.toLe 4 e.timestamp.toNat ++ [e.eventType] ++
    Bytes.toLe 4 e.serverId.toNat ++ Bytes.toLe 4 (19 + e.body.length) ++
    Bytes.toLe 4 e.logPos.toNat ++ Bytes.toLe 2 e.flags.toNat ++ e.body

@[simp] theorem length_encode (e : RawEvent) :
    e.encode.length = 19 + e.body.length := by
  simp only [encode, List.length_append, Bytes.length_toLe,
    List.length_singleton]

theorem toNat_eventSize (e : RawEvent) :
    e.header.eventSize.toNat = 19 + e.body.length := by
  have hsize := e.size_lt
  simp only [header, UInt32.toNat_ofNat']
  exact Nat.mod_eq_of_lt hsize

end RawEvent

/-- The frame of a packet: its length in three bytes, a sequence number, and
its payload. -/
def frame (seq : UInt8) (payload : Bytes) : Bytes :=
  Bytes.toLe 3 payload.length ++ [seq] ++ payload

/-- A packet of one or more events. -/
structure Packet where
  seq : UInt8
  events : List RawEvent
  nonempty : events ≠ []
  length_lt : (events.flatMap RawEvent.encode).length < 2 ^ 24

namespace Packet

def payload (packet : Packet) : Bytes := packet.events.flatMap RawEvent.encode

def bytes (packet : Packet) : Bytes := frame packet.seq packet.payload

/-- The events of a packet, skipped if its first two bytes, the low bytes of
the first timestamp, are zero. -/
def batch (packet : Packet) : Batch RawEvent :=
  ⟨isSkipped packet.payload, packet.events⟩

end Packet

/-- What the parser makes of an event, as the event loop sees it. -/
def parseRaw (json : JsonParser) : Parser ParserState RawEvent Delivery :=
  fun state e =>
    match parseEvent json state e.header e.body with
    | (.error _, state') => (.rejected, state')
    | (.panicked, state') => (.panicked, state')
    | (.ok none, state') => (.passed, state')
    | (.ok (some event), state') =>
        if event.isPassed then (.passed, state')
        else (.delivered (e.header, event), state')

theorem not_isPassed_of_isRemembered {event : BinlogEvent}
    (h : event.isRemembered = true) : event.isPassed = false := by
  cases event with
  | tableMap event => rfl
  | gtid event => rfl
  | _ => exact absurd h (by simp [BinlogEvent.isRemembered])

theorem parseRaw_of_keepsState {json : JsonParser} {state : ParserState}
    {e : RawEvent}
    (h : KeepsState state (parseEvent json state e.header e.body)) :
    (parseRaw json state e).2 = state ∧
      ∀ y, (parseRaw json state e).1 = .delivered y →
        y.2.isRemembered = false := by
  rcases hparse : parseEvent json state e.header e.body with
    ⟨(_ | event) | _ | _, state'⟩
  all_goals
    rw [hparse] at h
    obtain ⟨hstate, hevent⟩ := h
    simp only [parseRaw, hparse]
  · exact ⟨hstate, by simp⟩
  · by_cases hpassed : event.isPassed
    · rw [if_pos hpassed]
      exact ⟨hstate, by simp⟩
    · rw [if_neg hpassed]
      refine ⟨hstate, fun y hy => ?_⟩
      have heq : (e.header, event) = y := by simpa using hy
      rw [← heq]
      exact hevent event rfl
  · exact ⟨hstate, by simp⟩
  · exact ⟨hstate, by simp⟩

theorem parseRaw_of_isRemembered {json : JsonParser} {state : ParserState}
    {e : RawEvent} {event : BinlogEvent} (hmark : event.isRemembered = true)
    (h : (parseEvent json state e.header e.body).1 = .ok (some event)) :
    (parseRaw json state e).1 = .delivered (e.header, event) := by
  have hnot := not_isPassed_of_isRemembered hmark
  rcases hparse : parseEvent json state e.header e.body with ⟨result, state'⟩
  have hok : result = .ok (some event) := by
    rw [← h, hparse]
  simp [parseRaw, hparse, hok, hnot]

/-- The parser's memory changes only with table maps and transaction
identifiers, and these are read without it. -/
theorem remembers_parseRaw (json : JsonParser) :
    Parser.Remembers (parseRaw json) (fun y => y.2.isRemembered) := by
  constructor
  · intro state e hunmarked
    rcases parseEvent_memory json e.header e.body with hkeeps | hsame
    · exact (parseRaw_of_keepsState (hkeeps state)).1
    · obtain ⟨event, hmark, hresult⟩ := hsame
      have hdelivered := parseRaw_of_isRemembered hmark (hresult state)
      have hcontra : event.isRemembered = false := hunmarked _ hdelivered
      rw [hmark] at hcontra
      exact absurd hcontra (by decide)
  · intro state e y hdelivered hmark state'
    rcases parseEvent_memory json e.header e.body with hkeeps | hsame
    · have hcontra := (parseRaw_of_keepsState (hkeeps state)).2 y hdelivered
      rw [hmark] at hcontra
      exact absurd hcontra (by decide)
    · obtain ⟨event, hevent, hresult⟩ := hsame
      rw [← hdelivered, parseRaw_of_isRemembered hevent (hresult state),
        parseRaw_of_isRemembered hevent (hresult state')]

/-! ## Reading packets and headers -/

theorem readPacket_frame {seq : UInt8} {payload rest : Bytes}
    (hlength : payload.length < 2 ^ 24) :
    readPacket (frame seq payload ++ rest) = (.ok payload, rest) := by
  have hlen : Bytes.ofLe (Bytes.toLe 3 payload.length ++ [0]) =
      payload.length := by
    rw [Bytes.ofLe_append, Bytes.ofLe_toLe]
    simp only [Bytes.ofLe_cons, Bytes.ofLe_nil]
    exact Nat.mod_eq_of_lt hlength
  simp only [Bytes.toLe, List.cons_append, List.nil_append] at hlen
  simp only [frame, Bytes.toLe, List.cons_append, List.nil_append, readPacket,
    hlen]
  simp

/-- The header of a well-formed event is read where the event stands. -/
theorem readHeader_eq {e : RawEvent} {packet : Bytes} {pos : ℕ}
    (h : e.encode <+: packet.drop pos) :
    readHeader packet pos = .ok e.header := by
  have hfield : ∀ {width n offset : ℕ},
      Bytes.toLe width n <+: packet.drop offset →
      Bytes.bytesAt (ε := String) packet offset width =
        .ok (Bytes.toLe width n) := fun hprefix =>
    Bytes.bytesAt_eq_ok_iff.mpr ⟨Bytes.length_toLe _ _, hprefix⟩
  unfold RawEvent.encode at h
  simp only [Bytes.append_isPrefix_drop_iff, List.length_append,
    Bytes.length_toLe, List.length_singleton, Nat.reduceAdd] at h
  obtain ⟨⟨⟨⟨⟨⟨hts, hty⟩, hserver⟩, hsize⟩, hpos⟩, hflags⟩, -⟩ := h
  have htype := Bytes.byteAt_eq_ok_iff (ε := String).mpr hty
  unfold readHeader
  rw [hfield hts, htype, hfield hserver, hfield hsize, hfield hpos,
    hfield hflags]
  simp only [Outcome.ok_bind, Outcome.pure_eq, Bytes.ofLe_toLe]
  have hword : ∀ x : UInt32,
      UInt32.ofNat (x.toNat % 256 ^ 4) = x := fun x => by
    have hlt : x.toNat < 256 ^ 4 := x.toNat_lt
    rw [Nat.mod_eq_of_lt hlt, UInt32.ofNat_toNat]
  have hhalf : UInt16.ofNat (e.flags.toNat % 256 ^ 2) = e.flags := by
    have hlt : e.flags.toNat < 256 ^ 2 := e.flags.toNat_lt
    rw [Nat.mod_eq_of_lt hlt, UInt16.ofNat_toNat]
  have htotal : (19 + e.body.length) % 256 ^ 4 = 19 + e.body.length :=
    Nat.mod_eq_of_lt e.size_lt
  rw [hword, hword, hword, hhalf, htotal]
  rfl

theorem slice_body_eq {e : RawEvent} {packet : Bytes} {pos : ℕ}
    (h : e.encode <+: packet.drop pos) :
    Bytes.slice (ε := String) packet (pos + 19)
      (pos + e.header.eventSize.toNat) = .ok e.body := by
  have hlength := h.length_le
  rw [RawEvent.length_encode, List.length_drop] at hlength
  have hbody : e.body <+: packet.drop (pos + 19) := by
    unfold RawEvent.encode at h
    rw [Bytes.append_isPrefix_drop_iff] at h
    simpa only [List.length_append, Bytes.length_toLe, List.length_singleton,
      Nat.reduceAdd] using h.2
  rw [RawEvent.toNat_eventSize, ← Nat.add_assoc]
  exact Bytes.slice_eq_ok (by omega) hbody

/-- A pass of the event loop over a well-formed event. -/
theorem eventLoop_eq (json : JsonParser) (state : ParserState)
    {e : RawEvent} {packet : Bytes} {pos : ℕ}
    (h : e.encode <+: packet.drop pos) :
    eventLoop json state packet pos =
      match parseEvent json state e.header e.body with
      | (.error message, state') => (.error message, state')
      | (.panicked, state') => (.panicked, state')
      | (.ok none, state') =>
          eventLoop json state' packet (pos + e.encode.length)
      | (.ok (some event), state') =>
          if event.isPassed then
            eventLoop json state' packet (pos + e.encode.length)
          else (.ok (some (e.header, event)), state') := by
  have hlength := h.length_le
  rw [RawEvent.length_encode, List.length_drop] at hlength
  have hslice := slice_body_eq h
  have hsize := e.toNat_eventSize
  rw [eventLoop, dif_pos (by omega), readHeader_eq h]
  dsimp only
  rw [if_neg (by omega)]
  split
  · rename_i heq
    rw [hslice] at heq
    simp at heq
  · rename_i heq
    rw [hslice] at heq
    simp at heq
  · rename_i data heq
    have hdata : e.body = data := by
      rw [hslice] at heq
      simpa using heq
    rw [← hdata, hsize, ← RawEvent.length_encode]

/-- What the caller of the event loop sees of its result. -/
def verdictOf : Outcome String (Option Delivery) → Verdict Delivery
  | .error _ => .rejected
  | .panicked => .panicked
  | .ok none => .passed
  | .ok (some delivery) => .delivered delivery

/-- The event loop returns at the first event that is not passed over. -/
theorem eventLoop_eq_first (json : JsonParser) {state : ParserState}
    {events : List RawEvent} {packet : Bytes} {pos : ℕ}
    (h : packet.drop pos = events.flatMap RawEvent.encode) :
    verdictOf (eventLoop json state packet pos).1 =
        ((parseRaw json).first state events).1 ∧
      (eventLoop json state packet pos).2 =
        ((parseRaw json).first state events).2.1 := by
  induction events generalizing state pos with
  | nil =>
      have hlength := congrArg List.length h
      simp only [List.length_drop, List.flatMap_nil, List.length_nil] at hlength
      rw [eventLoop, dif_neg (by omega)]
      exact ⟨rfl, rfl⟩
  | cons e es ih =>
      have hprefix : e.encode <+: packet.drop pos := by
        rw [h, List.flatMap_cons]
        exact List.prefix_append _ _
      have htail : packet.drop (pos + e.encode.length) =
          es.flatMap RawEvent.encode := by
        rw [← List.drop_drop, h, List.flatMap_cons, List.drop_left]
      rw [eventLoop_eq json state hprefix, Parser.first]
      rcases hparse : parseEvent json state e.header e.body with
        ⟨(_ | event) | message | _, state'⟩
      · simpa [parseRaw, hparse] using ih htail
      · by_cases hpassed : event.isPassed
        · simpa [parseRaw, hparse, hpassed] using ih htail
        · simp [parseRaw, hparse, hpassed, verdictOf]
      · simp [parseRaw, hparse, verdictOf]
      · simp [parseRaw, hparse, verdictOf]

/-- A call on a packet that is not empty. -/
theorem nextEvent_frame {json : JsonParser} {state : ParserState}
    {seq : UInt8} {payload rest : Bytes} (hlength : payload.length < 2 ^ 24)
    (hne : payload ≠ []) :
    nextEvent json ⟨frame seq payload ++ rest, state⟩ =
      if isSkipped payload then nextEvent json ⟨rest, state⟩
      else
        match eventLoop json state payload 0 with
        | (.error e, state') => (.error e, ⟨rest, state'⟩)
        | (.panicked, state') => (.panicked, ⟨rest, state'⟩)
        | (.ok none, state') => nextEvent json ⟨rest, state'⟩
        | (.ok (some delivery), state') =>
            (.ok (some delivery), ⟨rest, state'⟩) := by
  have hread : readPacket (frame seq payload ++ rest) = (.ok payload, rest) :=
    readPacket_frame hlength
  rw [nextEvent]
  split
  · rename_i heq
    rw [hread] at heq
    simp at heq
  · rename_i heq
    rw [hread] at heq
    simp at heq
  · rename_i payload' rest' heq
    rw [hread] at heq
    have hsame : payload = payload' ∧ rest = rest' := by simpa using heq
    rw [← hsame.1, ← hsame.2, if_neg hne]

namespace Packet

theorem payload_ne_nil (packet : Packet) : packet.payload ≠ [] := by
  obtain ⟨e, es, hevents⟩ := List.exists_cons_of_ne_nil packet.nonempty
  intro hnil
  have hlength := congrArg List.length hnil
  simp [payload, hevents] at hlength

end Packet

/-! ## Polling -/

theorem poll_congr {json : JsonParser} {client client' : BinlogClient} {n : ℕ}
    (h : nextEvent json client = nextEvent json client') :
    poll json (n + 1) client = poll json (n + 1) client' := by
  simp only [poll, h]

/-- The calls on a packet and what follows it. -/
theorem poll_packet (json : JsonParser) (n : ℕ) (packet : Packet)
    (rest : Bytes) (state : ParserState) :
    poll json (n + 1) ⟨packet.bytes ++ rest, state⟩ =
      match (parseRaw json).readBatch state packet.batch with
      | (.passed, state', _) => poll json (n + 1) ⟨rest, state'⟩
      | (.delivered y, state', _) => y :: poll json n ⟨rest, state'⟩
      | (.rejected, state', _) => poll json n ⟨rest, state'⟩
      | (.panicked, _, _) => [] := by
  have hcall : nextEvent json ⟨packet.bytes ++ rest, state⟩ = _ :=
    nextEvent_frame packet.length_lt packet.payload_ne_nil
  by_cases hskip : isSkipped packet.payload
  · have hbatch : (parseRaw json).readBatch state packet.batch =
        (.passed, state, packet.events) := by
      simp [Parser.readBatch, Packet.batch, hskip]
    rw [if_pos hskip] at hcall
    rw [hbatch]
    exact poll_congr hcall
  · have hbatch : (parseRaw json).readBatch state packet.batch =
        (parseRaw json).first state packet.events := by
      simp [Parser.readBatch, Packet.batch, hskip]
    have hevents : packet.payload.drop 0 =
        packet.events.flatMap RawEvent.encode := rfl
    obtain ⟨hverdict, hstate⟩ :
        verdictOf (eventLoop json state packet.payload 0).1 = _ ∧ _ :=
      eventLoop_eq_first json hevents
    rw [hbatch]
    rcases hfirst : (parseRaw json).first state packet.events with
      ⟨verdict, state', lost⟩
    rcases hloop : eventLoop json state packet.payload 0 with ⟨result, after⟩
    simp only [hfirst, hloop] at hverdict hstate
    rw [if_neg hskip, hloop, hstate] at hcall
    rw [← hverdict]
    rcases result with (_ | delivery) | message | _
    · exact poll_congr hcall
    · rw [poll, hcall]
      rfl
    · rw [poll, hcall]
      rfl
    · rw [poll, hcall]
      rfl

theorem nextEvent_nil (json : JsonParser) (state : ParserState) :
    nextEvent json ⟨[], state⟩ =
      (.error "read packet header failed: early eof", ⟨[], state⟩) := by
  rw [nextEvent]
  rfl

theorem poll_nil (json : JsonParser) (n : ℕ) (state : ParserState) :
    poll json n ⟨[], state⟩ = [] := by
  induction n with
  | zero => rfl
  | succ n ih =>
      rw [poll, nextEvent_nil]
      exact ih

/-- The calls read the packets as batches. -/
theorem poll_eq_read (json : JsonParser) {packets : List Packet} {n : ℕ}
    (hn : packets.length ≤ n) (state : ParserState) :
    poll json n ⟨packets.flatMap Packet.bytes, state⟩ =
      (parseRaw json).read state (packets.map Packet.batch) := by
  induction packets generalizing n state with
  | nil => exact poll_nil json n state
  | cons packet packets ih =>
      obtain ⟨m, hm⟩ : ∃ m, n = m + 1 :=
        Nat.exists_eq_add_one_of_ne_zero (by simp at hn; omega)
      have hle : packets.length ≤ m := by
        simp only [List.length_cons] at hn
        omega
      rw [hm, List.flatMap_cons, poll_packet, List.map_cons, Parser.read]
      rcases (parseRaw json).readBatch state packet.batch with
        ⟨verdict, state', lost⟩
      cases verdict with
      | passed => exact ih (Nat.le_succ_of_le hle) state'
      | delivered y => exact congrArg (y :: ·) (ih hle state')
      | rejected => exact ih hle state'
      | panicked => rfl

/-- The deliverable events of the packets, each once and in order. -/
def eventsOf (json : JsonParser) (state : ParserState)
    (packets : List Packet) : List Delivery :=
  ((parseRaw json).all state (packets.flatMap Packet.events)).1

/-- Sufficiently many calls return just the deliverable events. -/
def DeliversAll (json : JsonParser) (state : ParserState)
    (packets : List Packet) : Prop :=
  ∃ enough, ∀ n, enough ≤ n →
    poll json n ⟨packets.flatMap Packet.bytes, state⟩ =
      eventsOf json state packets

/-- What sufficiently many calls return is what one call for each packet
returns. -/
theorem deliversAll_iff_read {json : JsonParser} {state : ParserState}
    {packets : List Packet} :
    DeliversAll json state packets ↔
      (parseRaw json).read state (packets.map Packet.batch) =
        eventsOf json state packets := by
  constructor
  · rintro ⟨enough, h⟩
    have hpoll := h (max enough packets.length) (Nat.le_max_left _ _)
    rw [poll_eq_read json (Nat.le_max_right _ _)] at hpoll
    exact hpoll
  · intro h
    refine ⟨packets.length, fun n hn => ?_⟩
    rw [poll_eq_read json hn state, h]

/-- The calls return just the deliverable events of the packets exactly when
none of these stands in a packet whose first two bytes are zero, behind the
first event of its packet that is not passed over, or behind a panic. -/
theorem deliversAll_iff (json : JsonParser) (state : ParserState)
    (packets : List Packet) :
    DeliversAll json state packets ↔
      (parseRaw json).Complete state (packets.map Packet.batch) := by
  have hinputs : Parser.inputsOf (packets.map Packet.batch) =
      packets.flatMap Packet.events := by
    simp [Parser.inputsOf, List.flatMap_map, Packet.batch]
  rw [← Parser.read_eq_all_iff (remembers_parseRaw json), hinputs]
  exact deliversAll_iff_read

/-- Two heartbeats in one packet. -/
def twoHeartbeats : Packet where
  seq := 1
  events := [⟨1, 0x1b, 1, 23, 0, [], by decide⟩, ⟨1, 0x1b, 1, 42, 0, [], by decide⟩]
  nonempty := by simp
  length_lt := by simp

/-- Only the first of two heartbeats in one packet is returned. -/
theorem not_deliversAll_twoHeartbeats :
    ¬ DeliversAll ⟨fun _ => none, fun _ => none⟩ {} [twoHeartbeats] := by
  intro h
  have hread := deliversAll_iff_read.mp h
  have hlength : 1 = 2 := congrArg List.length hread
  exact absurd hlength (by decide)

/-! ## Dump packets -/

/-- An event as the dump stream frames it, behind a status byte. -/
structure DumpPacket where
  seq : UInt8
  event : RawEvent
  length_lt : event.encode.length + 1 < 2 ^ 24

namespace DumpPacket

def payload (packet : DumpPacket) : Bytes := 0 :: packet.event.encode

def bytes (packet : DumpPacket) : Bytes := frame packet.seq packet.payload

end DumpPacket

/-- Behind a status byte the size is read from the last byte of the server id
on. -/
theorem readHeader_dump (packet : DumpPacket) :
    ∃ header, readHeader packet.payload 0 = .ok header ∧
      256 * packet.event.encode.length ≤ header.eventSize.toNat := by
  obtain ⟨seq, e, hlt⟩ := packet
  rw [RawEvent.length_encode] at hlt
  let last := UInt8.ofNat (e.serverId.toNat / 256 / 256 / 256)
  let size := Bytes.ofLe (last :: Bytes.toLe 3 (19 + e.body.length))
  have hsize : size = last.toNat + 256 * (19 + e.body.length) := by
    have hmod : (19 + e.body.length) % 256 ^ 3 = 19 + e.body.length :=
      Nat.mod_eq_of_lt (by omega)
    simp only [size, Bytes.ofLe_cons, Bytes.ofLe_toLe, hmod]
  have hheader : ∃ timestamp eventType serverId logPos flags,
      readHeader (0 :: e.encode) 0 = .ok ⟨timestamp, eventType, serverId,
        UInt32.ofNat size, logPos, flags⟩ := by
    exact ⟨_, _, _, _, _, rfl⟩
  obtain ⟨timestamp, eventType, serverId, logPos, flags, hread⟩ := hheader
  refine ⟨_, hread, ?_⟩
  have hlast : last.toNat < 256 := last.toNat_lt
  have hword : size % 2 ^ 32 = size := Nat.mod_eq_of_lt (by omega)
  simp only [UInt32.toNat_ofNat', hword, RawEvent.length_encode]
  omega

/-- No event behind a status byte seems to fit into its packet. -/
theorem eventLoop_dump (json : JsonParser) (state : ParserState)
    (packet : DumpPacket) :
    eventLoop json state packet.payload 0 = (.ok none, state) := by
  obtain ⟨header, hread, hsize⟩ := readHeader_dump packet
  have hlength : packet.payload.length = packet.event.encode.length + 1 := rfl
  have hevent := packet.event.length_encode
  rw [eventLoop, dif_pos (by omega), hread]
  dsimp only
  rw [if_pos (by omega)]

/-- The client passes over a dump packet. -/
theorem nextEvent_dump (json : JsonParser) (state : ParserState)
    (packet : DumpPacket) (rest : Bytes) :
    nextEvent json ⟨packet.bytes ++ rest, state⟩ =
      nextEvent json ⟨rest, state⟩ := by
  have hlength : packet.payload.length < 2 ^ 24 := by
    simpa [DumpPacket.payload] using packet.length_lt
  rw [DumpPacket.bytes, nextEvent_frame hlength (by simp [DumpPacket.payload]),
    eventLoop_dump]
  by_cases hskip : isSkipped packet.payload
  · rw [if_pos hskip]
  · rw [if_neg hskip]

/-- A call that does not fail has read at least one packet. -/
theorem length_lt_of_nextEvent_eq_ok {json : JsonParser}
    {client client' : BinlogClient} {result : Option Delivery}
    (h : nextEvent json client = (.ok result, client')) :
    client'.stream.length < client.stream.length := by
  fun_induction nextEvent json client with
  | case1 client e rest hread => simp at h
  | case2 client rest hread => simp at h
  | case3 client rest hread =>
      have hclient : ⟨rest, client.state⟩ = client' := congrArg Prod.snd h
      rw [← hclient]
      exact length_lt_of_readPacket_eq_ok hread
  | case4 client packet rest hread hne hskip ih =>
      exact (ih h).trans (length_lt_of_readPacket_eq_ok hread)
  | case5 client packet rest hread hne hskip e state hloop => simp at h
  | case6 client packet rest hread hne hskip state hloop => simp at h
  | case7 client packet rest hread hne hskip state hloop ih =>
      exact (ih h).trans (length_lt_of_readPacket_eq_ok hread)
  | case8 client packet rest hread hne hskip delivery state hloop =>
      have hclient : ⟨rest, state⟩ = client' := congrArg Prod.snd h
      rw [← hclient]
      exact length_lt_of_readPacket_eq_ok hread

/-- The call on the packet returns the event's header and what the parser makes
of the event, and reads no further. -/
def ReturnsEvent (json : JsonParser) (state : ParserState)
    (packet : DumpPacket) (rest : Bytes) : Prop :=
  ∀ delivery after,
    parseRaw json state packet.event = (.delivered delivery, after) →
      nextEvent json ⟨packet.bytes ++ rest, state⟩ =
        (.ok (some delivery), ⟨rest, after⟩)

/-- No deliverable event is returned from a dump packet. -/
theorem not_returnsEvent {json : JsonParser} {state after : ParserState}
    {packet : DumpPacket} {delivery : Delivery}
    (hevent : parseRaw json state packet.event = (.delivered delivery, after))
    (rest : Bytes) :
    ¬ ReturnsEvent json state packet rest := by
  intro h
  have hcall := h delivery after hevent
  rw [nextEvent_dump] at hcall
  exact absurd (length_lt_of_nextEvent_eq_ok hcall) (Nat.lt_irrefl _)

/-- A heartbeat as the dump stream frames it. -/
def dumpHeartbeat : DumpPacket where
  seq := 1
  event := ⟨1, 0x1b, 1, 23, 0, [], by decide⟩
  length_lt := by simp

theorem not_returnsEvent_twoDumpHeartbeats :
    ¬ ReturnsEvent ⟨fun _ => none, fun _ => none⟩ {} dumpHeartbeat
      dumpHeartbeat.bytes := by
  have hevent : parseRaw ⟨fun _ => none, fun _ => none⟩ {}
      dumpHeartbeat.event =
        (.delivered (dumpHeartbeat.event.header, .heartbeat), {}) := rfl
  exact not_returnsEvent hevent dumpHeartbeat.bytes

/-- A heartbeat that the server sends last is not returned: the call reads on for
a further packet. -/
theorem dumpHeartbeat_not_returned :
    nextEvent ⟨fun _ => none, fun _ => none⟩ ⟨dumpHeartbeat.bytes ++ [], {}⟩ =
        (.error "read packet header failed: early eof", ⟨[], {}⟩) ∧
      ¬ ReturnsEvent ⟨fun _ => none, fun _ => none⟩ {} dumpHeartbeat [] := by
  have hcall :
      nextEvent ⟨fun _ => none, fun _ => none⟩
          ⟨dumpHeartbeat.bytes ++ [], {}⟩ =
        (.error "read packet header failed: early eof", ⟨[], {}⟩) := by
    rw [nextEvent_dump, nextEvent_nil]
  refine ⟨hcall, fun h => ?_⟩
  have hreturn := h (dumpHeartbeat.event.header, .heartbeat) {} rfl
  rw [hcall] at hreturn
  simp at hreturn

end OpenCdc.Mysql
