import OpenCdc.Mysql.EventCuts
import OpenCdc.Mysql.Packets

/-!
# Packets that end the client

The client checks that an event ends inside its packet, but not that it is as
long as its header.  A packet panics exactly if, behind events that are passed
over, it holds an event that is shorter than a header or has a cut body.
-/

namespace OpenCdc.Mysql

open Foundation

/-! ## The property -/

/-- The events behind which the loop over a packet goes on. -/
def IsPassedOver (eventType : UInt8) (body : Bytes) : Prop :=
  eventType = 0x0f ∨ eventType = 0x04 ∨
    eventType = 0x21 ∧ body.length < 20

/-- The total length that the header at the start of the data declares. -/
def declaredSize (data : Bytes) : ℕ := Bytes.ofLe ((data.drop 9).take 4)

/-- Behind events that are passed over there is one that is declared shorter
than its header, or one with a cut body. -/
inductive CutEvents (state : ParserState) : Bytes → Prop
  | header {data : Bytes} (hlength : 19 ≤ data.length)
      (hsize : declaredSize data < 19) : CutEvents state data
  | body (e : RawEvent) (rest : Bytes)
      (h : CutBody state e.eventType e.body) :
      CutEvents state (e.encode ++ rest)
  | behind (e : RawEvent) {rest : Bytes}
      (hpassed : IsPassedOver e.eventType e.body)
      (h : CutEvents state rest) : CutEvents state (e.encode ++ rest)

/-- What `next_event` does with one packet: `.ok none` if it goes on to read the
next one, or returns without an event. -/
def processPacket (json : JsonParser) (state : ParserState) (packet : Bytes) :
    Outcome String (Option Delivery) × ParserState :=
  if packet = [] then (.ok none, state)
  else if isSkipped packet then (.ok none, state)
  else eventLoop json state packet 0

/-- Processing the packet ends without a panic. -/
def ProcessesSafely (json : JsonParser) (state : ParserState)
    (packet : Bytes) : Prop :=
  (processPacket json state packet).1 ≠ .panicked

/-! ## Events that are passed over -/

/-- Behind an event that is passed over the loop goes on in the same state. -/
theorem exists_parseEvent_of_isPassedOver (json : JsonParser)
    (state : ParserState) {header : EventHeader} {data : Bytes}
    (h : IsPassedOver header.eventType data) :
    parseEvent json state header data = (.ok none, state) ∨
      ∃ event, event.isPassed ∧
        parseEvent json state header data = (.ok (some event), state) := by
  obtain ⟨timestamp, eventType, serverId, eventSize, logPos, flags⟩ := header
  dsimp only at h
  rcases h with rfl | rfl | ⟨rfl, hshort⟩
  · exact .inr ⟨.formatDescription, rfl, rfl⟩
  · right
    by_cases hrotate : data.length < 8
    · exact ⟨.rotate "" 0, rfl, Prod.ext (if_pos hrotate) rfl⟩
    · exact ⟨.rotate _ _, rfl, Prod.ext (if_neg hrotate) rfl⟩
  · left
    rw [parseEvent_gtid json state data rfl, parseGtid, if_pos hshort]
    rfl

/-- The loop does not go on behind the result. -/
def StopsLoop (result : Outcome String (Option BinlogEvent)) : Prop :=
  result ≠ .ok none ∧
    ∀ event, result = .ok (some event) → event.isPassed = false

theorem stopsLoop_some {event : BinlogEvent} (h : event.isPassed = false) :
    StopsLoop (.ok (some event)) := by
  constructor
  · intro heq
    cases heq
  · intro event' heq
    cases heq
    exact h

theorem stopsLoop_error (message : String) : StopsLoop (.error message) := by
  constructor
  · intro h
    cases h
  · intro event h
    cases h

theorem stopsLoop_panicked : StopsLoop .panicked := by
  constructor
  · intro h
    cases h
  · intro event h
    cases h

theorem stopsLoop_bind {α : Type} (read : Outcome String α)
    {next : α → Outcome String (Option BinlogEvent)}
    (hnext : ∀ a, StopsLoop (next a)) : StopsLoop (read >>= next) := by
  cases read with
  | ok a => exact hnext a
  | error message => exact stopsLoop_error message
  | panicked => exact stopsLoop_panicked

theorem stopsLoop_ite {c : Prop} [Decidable c]
    {yes no : Outcome String (Option BinlogEvent) × ParserState}
    (hyes : c → StopsLoop yes.1) (hno : StopsLoop no.1) :
    StopsLoop (if c then yes else no).1 := by
  by_cases hc : c
  · rw [if_pos hc]
    exact hyes hc
  · rwa [if_neg hc]

/-- No other event is passed over. -/
theorem stopsLoop_parseEvent (json : JsonParser) (state : ParserState)
    {header : EventHeader} {data : Bytes}
    (h : ¬ IsPassedOver header.eventType data) :
    StopsLoop (parseEvent json state header data).1 := by
  obtain ⟨hformat, hrest⟩ := not_or.mp h
  obtain ⟨hrotate, hgtid⟩ := not_or.mp hrest
  have hrows : ∀ {version : ℕ} {make : UInt64 × List RowEvent → BinlogEvent},
      (∀ head, (make head).isPassed = false) → StopsLoop (do
        let head ← parseRows json state data version
        return some (make head)) :=
    fun hmake => stopsLoop_bind _ fun head => stopsLoop_some (hmake head)
  have hupdate : ∀ version,
      StopsLoop (parseUpdateRows json state data version) :=
    fun version => stopsLoop_bind _ fun head => stopsLoop_bind _ fun rows =>
      stopsLoop_some rfl
  unfold parseEvent
  dsimp only
  rw [if_neg hformat, if_neg hrotate]
  refine stopsLoop_ite (fun _ => ?_) ?_
  · cases parseTableMap data with
    | ok event => exact stopsLoop_some rfl
    | error message => exact stopsLoop_error message
    | panicked => exact stopsLoop_panicked
  refine stopsLoop_ite (fun _ => hrows fun _ => rfl) ?_
  refine stopsLoop_ite (fun _ => hupdate 1) ?_
  refine stopsLoop_ite (fun _ => hrows fun _ => rfl) ?_
  refine stopsLoop_ite (fun _ => hrows fun _ => rfl) ?_
  refine stopsLoop_ite (fun _ => hupdate 2) ?_
  refine stopsLoop_ite (fun _ => hrows fun _ => rfl) ?_
  refine stopsLoop_ite (fun htype => ?_) ?_
  · have hlong : ¬ data.length < 20 := fun hshort => hgtid ⟨htype, hshort⟩
    have hnone : parseGtid data ≠ .ok none := by
      unfold parseGtid
      rw [if_neg hlong]
      intro hparse
      obtain ⟨uuid, -, hparse⟩ := Outcome.bind_eq_ok.mp hparse
      obtain ⟨gno, -, hparse⟩ := Outcome.bind_eq_ok.mp hparse
      cases hparse
    rcases hparse : parseGtid data with (_ | gtid) | message | _
    · exact absurd hparse hnone
    · exact stopsLoop_some rfl
    · exact stopsLoop_error message
    · exact stopsLoop_panicked
  refine stopsLoop_ite (fun _ => ?_) ?_
  · unfold parseXid
    dsimp only
    split_ifs
    · exact stopsLoop_some rfl
    · exact stopsLoop_some rfl
  exact stopsLoop_ite (fun _ => stopsLoop_some rfl) (stopsLoop_some rfl)

/-! ## The loop over a packet -/

theorem declaredSize_lt {data : Bytes} (h : 19 ≤ data.length) :
    declaredSize data < 2 ^ 32 := by
  have hword := Bytes.ofLe_lt ((data.drop 9).take 4)
  rw [List.length_take_of_le (by rw [List.length_drop]; omega)] at hword
  exact hword

/-- The size in the header is read from its field. -/
theorem exists_readHeader {packet : Bytes} {pos : ℕ}
    (h : pos + 19 ≤ packet.length) :
    ∃ header, readHeader packet pos = .ok header ∧
      header.eventSize.toNat = declaredSize (packet.drop pos) := by
  have hbyte : ∃ b, Bytes.byteAt (ε := String) packet (pos + 4) = .ok b :=
    exists_byteAt (by omega)
  obtain ⟨eventType, htype⟩ := hbyte
  have hlt : declaredSize (packet.drop pos) < 2 ^ 32 :=
    declaredSize_lt (by rw [List.length_drop]; omega)
  unfold readHeader
  rw [Bytes.bytesAt_of_le (by omega), htype, Bytes.bytesAt_of_le (by omega),
    Bytes.bytesAt_of_le (by omega), Bytes.bytesAt_of_le (by omega),
    Bytes.bytesAt_of_le (by omega)]
  refine ⟨_, rfl, ?_⟩
  rw [UInt32.toNat_ofNat', ← List.drop_drop]
  exact Nat.mod_eq_of_lt hlt

theorem toLe_ofLe_of_length {bs : Bytes} {width : ℕ} (h : bs.length = width) :
    Bytes.toLe width (Bytes.ofLe bs) = bs := by
  rw [← h, Bytes.toLe_ofLe]

theorem toLe_word {bs : Bytes} (h : bs.length = 4) :
    Bytes.toLe 4 (UInt32.ofNat (Bytes.ofLe bs)).toNat = bs := by
  have hlt := Bytes.ofLe_lt bs
  rw [h] at hlt
  have hmod : Bytes.ofLe bs % 2 ^ 32 = Bytes.ofLe bs := Nat.mod_eq_of_lt hlt
  rw [UInt32.toNat_ofNat', hmod, toLe_ofLe_of_length h]

theorem toLe_half {bs : Bytes} (h : bs.length = 2) :
    Bytes.toLe 2 (UInt16.ofNat (Bytes.ofLe bs)).toNat = bs := by
  have hlt := Bytes.ofLe_lt bs
  rw [h] at hlt
  have hmod : Bytes.ofLe bs % 2 ^ 16 = Bytes.ofLe bs := Nat.mod_eq_of_lt hlt
  rw [UInt16.toNat_ofNat', hmod, toLe_ofLe_of_length h]

/-- The data start with an event if the declared size covers a header and is
there. -/
theorem exists_rawEvent {data : Bytes} (hsize : 19 ≤ declaredSize data)
    (hle : declaredSize data ≤ data.length) :
    ∃ (e : RawEvent) (rest : Bytes), data = e.encode ++ rest ∧
      e.encode.length = declaredSize data := by
  have hfield : ∀ {i n : ℕ}, i + n ≤ 19 →
      ((data.drop i).take n).length = n := by
    intro i n h
    rw [List.length_take_of_le]
    rw [List.length_drop]
    omega
  have hjoin : ∀ {i n j : ℕ}, i + n = j →
      (data.drop i).take n ++ data.drop j = data.drop i := by
    rintro i n _ rfl
    rw [← List.drop_drop, List.take_append_drop]
  have hlt := declaredSize_lt (hsize.trans hle)
  obtain ⟨k, hk⟩ := Nat.exists_eq_add_of_le hsize
  have hbody : ((data.drop 19).take k).length = k := by
    rw [List.length_take_of_le]
    rw [List.length_drop]
    omega
  obtain ⟨eventType, htype⟩ := List.length_eq_one_iff.mp
    (hfield (show 4 + 1 ≤ 19 by decide))
  refine ⟨⟨UInt32.ofNat (Bytes.ofLe ((data.drop 0).take 4)), eventType,
    UInt32.ofNat (Bytes.ofLe ((data.drop 5).take 4)),
    UInt32.ofNat (Bytes.ofLe ((data.drop 13).take 4)),
    UInt16.ofNat (Bytes.ofLe ((data.drop 17).take 2)),
    (data.drop 19).take k, by omega⟩, data.drop (19 + k), ?_, ?_⟩
  · have hword : Bytes.toLe 4 (19 + k) = (data.drop 9).take 4 := by
      rw [← hk]
      exact toLe_ofLe_of_length (hfield (by decide))
    unfold RawEvent.encode
    dsimp only
    rw [hbody, hword, toLe_word (hfield (by decide)),
      toLe_word (hfield (by decide)), toLe_word (hfield (by decide)),
      toLe_half (hfield (by decide)), ← htype]
    simp only [List.append_assoc]
    rw [hjoin rfl, hjoin rfl, hjoin rfl, hjoin rfl, hjoin rfl, hjoin rfl,
      hjoin rfl]
    rfl
  · rw [RawEvent.length_encode, hbody, hk]

/-- An event that is declared shorter than its header has no body to slice. -/
theorem eventLoop_of_short (json : JsonParser) (state : ParserState)
    {packet : Bytes} {pos : ℕ} (hlength : pos + 19 ≤ packet.length)
    (hsize : declaredSize (packet.drop pos) < 19) :
    (eventLoop json state packet pos).1 = .panicked := by
  obtain ⟨header, hread, heventSize⟩ := exists_readHeader hlength
  have hslice : Bytes.slice (ε := String) packet (pos + 19)
      (pos + header.eventSize.toNat) = .panicked := by
    rw [Bytes.slice, if_neg (by omega)]
  rw [eventLoop, dif_pos hlength, hread]
  dsimp only
  rw [if_neg (by omega)]
  split
  next heq =>
    rw [hslice] at heq
    cases heq
  next => rfl
  next heq =>
    rw [hslice] at heq
    cases heq

/-- An event that ends behind its packet is skipped. -/
theorem eventLoop_of_long (json : JsonParser) (state : ParserState)
    {packet : Bytes} {pos : ℕ} (hlength : pos + 19 ≤ packet.length)
    (hsize : packet.length < pos + declaredSize (packet.drop pos)) :
    eventLoop json state packet pos = (.ok none, state) := by
  obtain ⟨header, hread, heventSize⟩ := exists_readHeader hlength
  rw [eventLoop, dif_pos hlength, hread]
  dsimp only
  rw [if_pos (by omega)]

/-- Behind an event that is passed over the loop goes on. -/
theorem eventLoop_of_isPassedOver (json : JsonParser) (state : ParserState)
    {packet : Bytes} {pos : ℕ} {e : RawEvent} {rest : Bytes}
    (h : packet.drop pos = e.encode ++ rest)
    (hpassed : IsPassedOver e.eventType e.body) :
    eventLoop json state packet pos =
      eventLoop json state packet (pos + e.encode.length) := by
  rw [eventLoop_eq json state (h ▸ List.prefix_append _ _)]
  rcases exists_parseEvent_of_isPassedOver json state
    (show IsPassedOver e.header.eventType e.body from hpassed) with
    hparse | ⟨event, hevent, hparse⟩
  · rw [hparse]
  · rw [hparse]
    exact if_pos hevent

theorem eventLoop_panicked_of_cutEvents (json : JsonParser)
    {state : ParserState} {data : Bytes} (h : CutEvents state data)
    {packet : Bytes} {pos : ℕ} (hdata : packet.drop pos = data) :
    (eventLoop json state packet pos).1 = .panicked := by
  induction h generalizing pos with
  | header hlength hsize =>
      subst hdata
      rw [List.length_drop] at hlength
      exact eventLoop_of_short json state (by omega) hsize
  | body e rest h =>
      rw [eventLoop_eq json state (hdata ▸ List.prefix_append _ _)]
      have hparse := (parseEvent_eq_panicked_iff json state e.header
        e.body).mpr h
      rcases hresult : parseEvent json state e.header e.body with
        ⟨result, state'⟩
      rw [hresult] at hparse
      obtain rfl : result = .panicked := hparse
      rfl
  | behind e hpassed _ ih =>
      rw [eventLoop_of_isPassedOver json state hdata hpassed]
      apply ih
      rw [← List.drop_drop, hdata, List.drop_left]

theorem cutEvents_of_eventLoop_panicked (json : JsonParser)
    {state : ParserState} {packet : Bytes} {pos : ℕ}
    (h : (eventLoop json state packet pos).1 = .panicked) :
    CutEvents state (packet.drop pos) := by
  induction hn : packet.length - pos using Nat.strong_induction_on
    generalizing pos with
  | _ m ih =>
      have hdrop : (packet.drop pos).length = packet.length - pos :=
        List.length_drop
      by_cases hlength : pos + 19 ≤ packet.length
      · by_cases hshort : declaredSize (packet.drop pos) < 19
        · exact .header (by omega) hshort
        by_cases hlong : packet.length < pos + declaredSize (packet.drop pos)
        · rw [eventLoop_of_long json state hlength hlong] at h
          cases h
        obtain ⟨e, rest, hevent, hsize⟩ := exists_rawEvent
          (Nat.not_lt.mp hshort) (by omega)
        rw [hevent]
        by_cases hpassed : IsPassedOver e.eventType e.body
        · rw [eventLoop_of_isPassedOver json state hevent hpassed] at h
          have hrest := ih _ (by omega) h rfl
          rw [← List.drop_drop, hevent, List.drop_left] at hrest
          exact .behind e hpassed hrest
        · apply CutEvents.body
          rw [eventLoop_eq json state (hevent ▸ List.prefix_append _ _)] at h
          have hstops := stopsLoop_parseEvent json state
            (show ¬ IsPassedOver e.header.eventType e.body from hpassed)
          apply (parseEvent_eq_panicked_iff json state e.header e.body).mp
          rcases hresult : parseEvent json state e.header e.body with
            ⟨(_ | event) | message | _, state'⟩
          · rw [hresult] at hstops
            exact absurd rfl hstops.1
          · rw [hresult] at h hstops
            have hevent := hstops.2 event rfl
            simp [hevent] at h
          · rw [hresult] at h
            cases h
          · rfl
      · rw [eventLoop, dif_neg hlength] at h
        cases h

/-- The call that reads the packet panics with the packet. -/
theorem nextEvent_frame_eq_panicked_iff (json : JsonParser)
    (state : ParserState) (seq : UInt8) {packet : Bytes}
    (hlength : packet.length < 2 ^ 24) :
    (nextEvent json ⟨frame seq packet, state⟩).1 = .panicked ↔
      ¬ ProcessesSafely json state packet := by
  have hread : readPacket (frame seq packet) = (.ok packet, []) := by
    have hframe : readPacket (frame seq packet ++ []) = (.ok packet, []) :=
      readPacket_frame hlength
    rwa [List.append_nil] at hframe
  unfold ProcessesSafely processPacket
  rw [not_not]
  by_cases hnil : packet = []
  · rw [nextEvent]
    split
    next heq =>
      rw [hread] at heq
      cases heq
    next heq =>
      rw [hread] at heq
      cases heq
    next packet' rest heq =>
      rw [hread] at heq
      obtain ⟨hpacket, -⟩ := Prod.mk.inj heq
      obtain rfl := Outcome.ok.inj hpacket
      rw [if_pos hnil, if_pos hnil]
  · have hcall : nextEvent json ⟨frame seq packet ++ [], state⟩ = _ :=
      nextEvent_frame hlength hnil
    rw [List.append_nil, nextEvent_nil] at hcall
    rw [hcall, if_neg hnil]
    by_cases hskip : isSkipped packet
    · simp [hskip]
    · rw [if_neg hskip, if_neg hskip]
      rcases eventLoop json state packet 0 with
        ⟨(_ | delivery) | message | _, state'⟩
      · simp [nextEvent_nil]
      · simp
      · simp
      · simp

/-- A packet is processed without a panic exactly if the client skips it, or no
event that it reaches is declared shorter than its header or ends inside a field
that is read without a check. -/
theorem processesSafely_iff (json : JsonParser) (state : ParserState)
    (packet : Bytes) :
    ProcessesSafely json state packet ↔
      isSkipped packet ∨ ¬ CutEvents state packet := by
  unfold ProcessesSafely processPacket
  have hloop : (eventLoop json state packet 0).1 = .panicked ↔
      CutEvents state packet :=
    ⟨cutEvents_of_eventLoop_panicked json,
      fun h => eventLoop_panicked_of_cutEvents json h rfl⟩
  by_cases hnil : packet = []
  · subst hnil
    refine iff_of_true (Outcome.ok_ne_panicked _) (.inr fun h => ?_)
    have hpanicked := hloop.mpr h
    rw [eventLoop, dif_neg (by simp)] at hpanicked
    cases hpanicked
  · rw [if_neg hnil]
    by_cases hskip : isSkipped packet
    · rw [if_pos hskip]
      exact iff_of_true (Outcome.ok_ne_panicked _) (.inl hskip)
    · rw [if_neg hskip, or_iff_right hskip, ← hloop]

/-- A transaction identifier with a body of twenty bytes. -/
def shortGtid : RawEvent :=
  ⟨1, 0x21, 1, 39, 0, List.replicate 20 1, by decide⟩

theorem not_processesSafely_shortGtid :
    ¬ ProcessesSafely ⟨fun _ => none, fun _ => none⟩ {} shortGtid.encode := by
  intro h
  have hcut : CutBody {} shortGtid.eventType shortGtid.body :=
    (by decide : 20 ≤ shortGtid.body.length ∧ shortGtid.body.length < 25)
  apply h
  exact eventLoop_panicked_of_cutEvents _ (.body shortGtid [] hcut) rfl

end OpenCdc.Mysql
