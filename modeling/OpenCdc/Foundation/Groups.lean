import Mathlib.Data.List.Forall2
import Mathlib.Data.List.Infix
import OpenCdc.Foundation.Feed

/-!
# Groups of values on a channel

A loop reads one group of items after the other and sends the values of each.
In front of a group it may look whether the receiver is gone, and leave without
an error.  A group can fail as a whole and at each of its items.
-/

namespace Foundation.Room

universe u v w

variable {α : Type u} {κ : Type v} {ε : Type w}

/-! ## What a channel takes -/

/-- The values of a list that the channel takes. -/
def taken (room : Room) (values : List α) : List α :=
  match room with
  | none => values
  | some k => values.take k

theorem fits_none (n : ℕ) : Fits none n := by simp [Fits]

theorem taken_of_fits {room : Room} {values : List α}
    (h : room.Fits values.length) : room.taken values = values := by
  cases room with
  | none => rfl
  | some k => exact List.take_of_length_le (h k rfl)

theorem map_taken {β : Type v} (f : α → β) (room : Room) (values : List α) :
    (room.taken values).map f = room.taken (values.map f) := by
  cases room with
  | none => rfl
  | some k => exact List.map_take

theorem taken_append (room : Room) (front back : List α) :
    room.taken (front ++ back) =
      room.taken front ++ (room.spend front.length).taken back := by
  cases room with
  | none => rfl
  | some k => exact List.take_append

theorem taken_some_zero (values : List α) : taken (some 0) values = [] := rfl

/-- Behind values that do not all fit nothing is taken. -/
theorem taken_append_of_not_fits {room : Room} {front : List α}
    (h : ¬room.Fits front.length) (back : List α) :
    room.taken (front ++ back) = room.taken front := by
  obtain ⟨k, rfl, hk⟩ := not_fits_iff.mp h
  exact List.take_append_of_le_length (Nat.le_of_lt hk)

theorem fits_spend_append_iff {room : Room} {front back : List α}
    (h : room.Fits front.length) :
    (room.spend front.length).Fits back.length ↔
      room.Fits (front ++ back).length := by
  rw [List.length_append, fits_add_iff h]

theorem spend_eq_some_iff {room : Room} {front back : List α}
    (h : room.Fits front.length) :
    room.spend front.length = some back.length ↔
      room = some (front ++ back).length := by
  cases room with
  | none => simp [spend]
  | some k =>
      have hle := h k rfl
      rw [List.length_append, spend, Option.map_some, Option.some.injEq,
        Option.some.injEq]
      omega

/-! ## One group -/

/-- Read a group and send the values of its items. -/
def sendRead (closed : ε) (read : κ → Outcome ε (List (Outcome ε α)))
    (group : κ) (room : Room) : List α × Room × Outcome ε Unit :=
  match read group with
  | .error e => ([], room, .error e)
  | .panicked => ([], room, .panicked)
  | .ok items => room.sendResults closed items

variable {closed : ε} {read : κ → Outcome ε (List (Outcome ε α))}
  {room room' : Room} {sent : List α}

theorem sendResults_cons_ok (value : α) (items : List (Outcome ε α)) :
    room.sendResults closed (.ok value :: items) =
      if room = some 0 then ([], some 0, .error closed)
      else (value :: ((room.spend 1).sendResults closed items).1,
        ((room.spend 1).sendResults closed items).2) := by
  rcases room with _ | _ | k
  · rfl
  · rfl
  · rfl

theorem fits_succ_iff (room : Room) (n : ℕ) :
    room.Fits (n + 1) ↔ room ≠ some 0 ∧ (room.spend 1).Fits n := by
  rcases room with _ | _ | k
  · simp [Fits, spend]
  · simp [Fits]
  · simp [Fits, spend]

/-- Sending ends without an error if every item has a value and is taken. -/
theorem sendResults_eq_ok_iff {items : List (Outcome ε α)} :
    room.sendResults closed items = (sent, room', .ok ()) ↔
      items = sent.map .ok ∧ room.Fits sent.length ∧
        room' = room.spend sent.length := by
  induction items generalizing room sent with
  | nil =>
      have hspend : room.spend 0 = room := by cases room <;> rfl
      simp only [sendResults, Prod.mk.injEq, and_true]
      constructor
      · rintro ⟨rfl, rfl⟩
        exact ⟨rfl, room.fits_zero, hspend.symm⟩
      · rintro ⟨hsent, -, rfl⟩
        obtain rfl : sent = [] := List.map_eq_nil_iff.mp hsent.symm
        exact ⟨rfl, hspend.symm⟩
  | cons item items ih =>
      rcases item with value | e | _
      · rw [sendResults_cons_ok]
        split_ifs with hclosed
        · constructor
          · intro h
            cases h
          · rintro ⟨hsent, hfits, -⟩
            cases sent with
            | nil => cases hsent
            | cons first sent =>
                exact absurd hclosed ((fits_succ_iff room _).mp hfits).1
        · constructor
          · intro h
            obtain ⟨rfl, hrest⟩ := Prod.mk.inj h
            obtain ⟨hitems, hfits, hroom⟩ := ih.mp (Prod.ext rfl hrest)
            refine ⟨?_, (fits_succ_iff room _).mpr ⟨hclosed, hfits⟩, ?_⟩
            · rw [List.map_cons, ← hitems]
            · rw [hroom, spend_spend, List.length_cons, Nat.add_comm]
          · rintro ⟨hsent, hfits, hroom⟩
            cases sent with
            | nil => cases hsent
            | cons first sent =>
                obtain ⟨hvalue, hitems⟩ := List.cons.inj hsent
                obtain rfl : value = first := Outcome.ok.inj hvalue
                rw [List.length_cons, Nat.add_comm, ← spend_spend] at hroom
                have hrest : (room.spend 1).sendResults closed items =
                    (sent, room', .ok ()) :=
                  ih.mpr ⟨hitems, ((fits_succ_iff room _).mp hfits).2, hroom⟩
                rw [hrest]
      · constructor
        · intro h
          cases h
        · rintro ⟨hsent, -⟩
          cases sent with
          | nil => cases hsent
          | cons => cases hsent
      · constructor
        · intro h
          cases h
        · rintro ⟨hsent, -⟩
          cases sent with
          | nil => cases hsent
          | cons => cases hsent

/-- Sending the group ends without an error if all of it is read and taken. -/
theorem sendRead_eq_ok_iff {group : κ} :
    sendRead closed read group room = (sent, room', .ok ()) ↔
      read group = .ok (sent.map .ok) ∧ room.Fits sent.length ∧
        room' = room.spend sent.length := by
  unfold sendRead
  rcases read group with items | e | _
  · rw [sendResults_eq_ok_iff, Outcome.ok.injEq]
  · simp
  · simp

/-- A receiver that goes early has taken the beginning of what it would have
taken. -/
theorem fst_sendResults (items : List (Outcome ε α)) :
    (room.sendResults closed items).1 =
      room.taken (sendResults closed none items).1 := by
  have hnil : ∀ room : Room, room.taken ([] : List α) = [] := fun room =>
    taken_of_fits room.fits_zero
  induction items generalizing room with
  | nil => exact (hnil room).symm
  | cons item items ih =>
      rcases item with value | e | _
      · rw [sendResults_cons_ok, sendResults_cons_ok]
        rw [if_neg (show (none : Room) ≠ some 0 by simp)]
        split_ifs with hclosed
        · rw [hclosed]
          rfl
        · have hfits : room.Fits 1 :=
            (fits_succ_iff room 0).mpr ⟨hclosed, fits_zero _⟩
          have hsplit := taken_append room [value]
            (sendResults closed none items).1
          rw [@taken_of_fits _ room [value] hfits] at hsplit
          exact (congrArg (value :: ·) ih).trans hsplit.symm
      · exact (hnil room).symm
      · exact (hnil room).symm

theorem sendRead_of_read {group : κ} {vs : List α}
    (hread : read group = .ok (vs.map .ok)) (hfits : room.Fits vs.length) :
    sendRead closed read group room = (vs, room.spend vs.length, .ok ()) :=
  sendRead_eq_ok_iff.mpr ⟨hread, hfits, rfl⟩

theorem sendRead_ok_iff {group : κ} :
    (sendRead closed read group room).2.2 = .ok () ↔
      ∃ vs : List α, read group = .ok (vs.map .ok) ∧ room.Fits vs.length := by
  constructor
  · intro h
    obtain ⟨hread, hfits, -⟩ :=
      sendRead_eq_ok_iff.mp (Prod.ext rfl (Prod.ext rfl h))
    exact ⟨_, hread, hfits⟩
  · rintro ⟨vs, hread, hfits⟩
    rw [sendRead_of_read hread hfits]

theorem eq_of_read {group : κ} {vs vs' : List α}
    (h : read group = .ok (vs.map .ok)) (h' : read group = .ok (vs'.map .ok)) :
    vs = vs' := by
  rw [h] at h'
  exact List.map_injective_iff.mpr (fun _ _ => Outcome.ok.inj)
    (Outcome.ok.inj h')

theorem fst_sendRead (group : κ) :
    (sendRead closed read group room).1 =
      room.taken (sendRead closed read group none).1 := by
  unfold sendRead
  rcases read group with items | e | _
  · exact fst_sendResults items
  · exact (taken_of_fits room.fits_zero).symm
  · exact (taken_of_fits room.fits_zero).symm

/-! ## All groups -/

/-- The groups are read without an error, and have these values. -/
def ReadAs (read : κ → Outcome ε (List (Outcome ε α))) (groups : List κ)
    (values : List (List α)) : Prop :=
  List.Forall₂ (fun group vs => read group = .ok (vs.map .ok)) groups values

variable {leave : Room → Bool} {group : κ} {groups : List κ}

theorem sendGroups_cons_eq_ok_iff (hstay : leave room = false) :
    sendGroups leave (sendRead closed read) (group :: groups) room =
        (sent, .ok ()) ↔
      ∃ vs rest, read group = .ok (vs.map .ok) ∧ room.Fits vs.length ∧
        sendGroups leave (sendRead closed read) groups
          (room.spend vs.length) = (rest, .ok ()) ∧ sent = vs ++ rest := by
  rw [sendGroups, if_neg (by simp [hstay])]
  rcases hsend : sendRead closed read group room with ⟨vs, room', _ | e | _⟩
  · obtain ⟨hread, hfits, rfl⟩ := sendRead_eq_ok_iff.mp hsend
    dsimp only
    rcases hrest : sendGroups leave (sendRead closed read) groups
      (room.spend vs.length) with ⟨rest, result⟩
    constructor
    · intro h
      obtain ⟨rfl, rfl⟩ := Prod.mk.inj h
      exact ⟨vs, rest, hread, hfits, hrest, rfl⟩
    · rintro ⟨vs', rest', hread', -, hrest', rfl⟩
      obtain rfl := eq_of_read hread hread'
      rw [hrest] at hrest'
      obtain ⟨rfl, rfl⟩ := Prod.mk.inj hrest'
      rfl
  · constructor
    · intro h
      cases h
    · rintro ⟨vs', rest, hread, hfits, -⟩
      rw [sendRead_of_read hread hfits] at hsend
      cases hsend
  · constructor
    · intro h
      cases h
    · rintro ⟨vs', rest, hread, hfits, -⟩
      rw [sendRead_of_read hread hfits] at hsend
      cases hsend

theorem fst_sendGroups_cons_of_ok {send : κ → Room → List α × Room × Outcome ε Unit}
    (hstay : leave room = false) (h : send group room = (sent, room', .ok ())) :
    (sendGroups leave send (group :: groups) room).1 =
      sent ++ (sendGroups leave send groups room').1 := by
  rw [sendGroups, if_neg (by simp [hstay]), h]

theorem fst_sendGroups_cons_of_ne_ok
    {send : κ → Room → List α × Room × Outcome ε Unit}
    (hstay : leave room = false) (h : (send group room).2.2 ≠ .ok ()) :
    (sendGroups leave send (group :: groups) room).1 = (send group room).1 := by
  rw [sendGroups, if_neg (by simp [hstay])]
  rcases hsend : send group room with ⟨sent, room', _ | e | _⟩
  · rw [hsend] at h
    exact absurd rfl h
  · rfl
  · rfl

/-- A receiver that goes early has taken the beginning of what the loop would
have sent. -/
theorem fst_sendGroups (hstay : leave none = false)
    (hleave : ∀ room, leave room = true → room = some 0) :
    (sendGroups leave (sendRead closed read) groups room).1 =
      room.taken (sendGroups leave (sendRead closed read) groups none).1 := by
  induction groups generalizing room with
  | nil => exact (taken_of_fits room.fits_zero).symm
  | cons group groups ih =>
      by_cases hgone : leave room = true
      · obtain rfl := hleave room hgone
        rw [taken_some_zero, sendGroups, if_pos hgone]
      · have hhere : leave room = false := by simpa using hgone
        have hfirst : (sendRead closed read group room).1 =
            room.taken (sendRead closed read group none).1 := fst_sendRead group
        by_cases hall : (sendRead closed read group none).2.2 = .ok ()
        · obtain ⟨vs, hread, hnone⟩ := sendRead_ok_iff.mp hall
          have hvs : sendRead closed read group none = (vs, none, .ok ()) :=
            sendRead_of_read hread hnone
          rw [fst_sendGroups_cons_of_ok hstay hvs]
          by_cases hfits : room.Fits vs.length
          · rw [fst_sendGroups_cons_of_ok hhere (sendRead_of_read hread hfits),
              taken_append, taken_of_fits hfits, ih]
          · rw [taken_append_of_not_fits hfits,
              fst_sendGroups_cons_of_ne_ok hhere, hfirst, hvs]
            intro hok
            obtain ⟨vs', hread', hfits'⟩ := sendRead_ok_iff.mp hok
            rw [eq_of_read hread hread'] at hfits
            exact hfits hfits'
        · rw [fst_sendGroups_cons_of_ne_ok hstay hall, ← hfirst]
          apply fst_sendGroups_cons_of_ne_ok hhere
          intro hok
          obtain ⟨vs, hread, -⟩ := sendRead_ok_iff.mp hok
          exact hall (sendRead_ok_iff.mpr ⟨vs, hread, fits_none _⟩)

/-- A loop that never looks for the receiver ends without an error if all
groups are read and taken. -/
theorem sendGroups_stay_eq_ok_iff :
    sendGroups (fun _ => false) (sendRead closed read) groups room =
        (sent, .ok ()) ↔
      ∃ values, ReadAs read groups values ∧ sent = values.flatten ∧
        room.Fits sent.length := by
  induction groups generalizing room sent with
  | nil =>
      constructor
      · intro h
        obtain ⟨rfl, -⟩ := Prod.mk.inj h
        exact ⟨[], .nil, rfl, room.fits_zero⟩
      · rintro ⟨values, hread, rfl, -⟩
        cases hread
        rfl
  | cons group groups ih =>
      rw [sendGroups_cons_eq_ok_iff rfl]
      constructor
      · rintro ⟨vs, rest, hread, hfits, hrest, rfl⟩
        obtain ⟨values, hvalues, rfl, hspend⟩ := ih.mp hrest
        exact ⟨vs :: values, .cons hread hvalues, rfl,
          (fits_spend_append_iff hfits).mp hspend⟩
      · rintro ⟨values, hread, rfl, hfits⟩
        cases hread with
        | @cons _ vs _ values hread hvalues =>
            have hfirst : room.Fits vs.length := hfits.mono (by simp)
            exact ⟨vs, values.flatten, hread, hfirst,
              ih.mpr ⟨values, hvalues, rfl,
                (fits_spend_append_iff hfirst).mpr hfits⟩, rfl⟩

/-- A loop that leaves when the receiver is gone ends without an error also if
that happens right behind one of the groups. -/
theorem sendGroups_leave_eq_ok_iff :
    sendGroups (fun room => room = some 0) (sendRead closed read) groups room =
        (sent, .ok ()) ↔
      ∃ front values, front <+: groups ∧ ReadAs read front values ∧
        sent = values.flatten ∧ room.Fits sent.length ∧
        (front = groups ∨ room = some sent.length) := by
  induction groups generalizing room sent with
  | nil =>
      constructor
      · intro h
        obtain ⟨rfl, -⟩ := Prod.mk.inj h
        exact ⟨[], [], List.prefix_rfl, .nil, rfl, room.fits_zero, .inl rfl⟩
      · rintro ⟨front, values, hfront, hread, rfl, -⟩
        rw [List.prefix_nil.mp hfront] at hread
        cases hread
        rfl
  | cons group groups ih =>
      by_cases hclosed : room = some 0
      · subst hclosed
        constructor
        · intro h
          obtain ⟨rfl, -⟩ := Prod.mk.inj h
          exact ⟨[], [], List.nil_prefix, .nil, rfl, fits_zero _, .inr rfl⟩
        · rintro ⟨front, values, -, -, rfl, hfits, -⟩
          have hnil : values.flatten = [] :=
            List.length_eq_zero_iff.mp (Nat.le_zero.mp (hfits 0 rfl))
          rw [hnil]
          rfl
      · rw [sendGroups_cons_eq_ok_iff (by simp [hclosed])]
        constructor
        · rintro ⟨vs, rest, hread, hfits, hrest, rfl⟩
          obtain ⟨front, values, hfront, hvalues, rfl, hspend, hend⟩ :=
            ih.mp hrest
          refine ⟨group :: front, vs :: values,
            List.cons_prefix_cons.mpr ⟨rfl, hfront⟩, .cons hread hvalues, rfl,
            (fits_spend_append_iff hfits).mp hspend, ?_⟩
          exact hend.imp (congrArg (group :: ·)) (spend_eq_some_iff hfits).mp
        · rintro ⟨front, values, hfront, hread, rfl, hfits, hend⟩
          cases hread with
          | nil =>
              -- the receiver is still there, so the front is not empty
              rcases hend with hnil | hend
              · cases hnil
              · exact absurd hend hclosed
          | @cons _ vs front values hread hvalues =>
              have hfirst : room.Fits vs.length := hfits.mono (by simp)
              obtain ⟨rfl, hfront'⟩ := List.cons_prefix_cons.mp hfront
              refine ⟨vs, values.flatten, hread, hfirst,
                ih.mpr ⟨front, values, hfront', hvalues, rfl,
                  (fits_spend_append_iff hfirst).mpr hfits, ?_⟩, rfl⟩
              exact hend.imp (fun hall => (List.cons.inj hall).2)
                (spend_eq_some_iff hfirst).mpr

end Foundation.Room

/-! ## Loops over items -/

namespace Foundation

universe u' v' w' x'

variable {ι : Type u'} {α : Type v'} {σ : Type w'} {ρ : Type x'}

namespace Room

variable {room : Room}

theorem send_of_open (h : room ≠ some 0) (value : α) :
    room.send (ι := ι) value = (.sent value, room.spend 1) := by
  rcases room with _ | _ | k
  · rfl
  · exact absurd rfl h
  · rfl

theorem spend_zero_room (n : ℕ) : spend (some 0) n = some 0 := by
  simp [spend]

theorem taken_cons_of_open (h : room ≠ some 0) (value : α)
    (values : List α) :
    room.taken (value :: values) = value :: (room.spend 1).taken values := by
  rcases room with _ | _ | k
  · rfl
  · exact absurd rfl h
  · rfl

/-- Whatever becomes of the sends, the channel takes what it has room for. -/
theorem sentOf_sendEach (values : List α) :
    sentOf (room.sendEach (ι := ι) values).1 = room.taken values ∧
      (room.sendEach (ι := ι) values).2 = room.spend values.length := by
  induction values generalizing room with
  | nil => exact ⟨(taken_of_fits room.fits_zero).symm, by cases room <;> rfl⟩
  | cons value values ih =>
      rw [sendEach]
      by_cases hclosed : room = some 0
      · obtain ⟨hsent, hroom⟩ := @ih (some 0)
        rw [spend_zero_room] at hroom
        rw [hclosed, spend_zero_room]
        exact ⟨hsent, hroom⟩
      · obtain ⟨hsent, hroom⟩ := @ih (room.spend 1)
        rw [send_of_open hclosed, taken_cons_of_open hclosed]
        refine ⟨congrArg (value :: ·) hsent, hroom.trans ?_⟩
        rw [spend_spend, List.length_cons, Nat.add_comm]

theorem sentOf_sendWhile (values : List α) :
    sentOf (room.sendWhile (ι := ι) values).1 = room.taken values ∧
      (room.sendWhile (ι := ι) values).2.1 = room.spend values.length ∧
      ((room.sendWhile (ι := ι) values).2.2 = true ↔
        ¬room.Fits values.length) := by
  induction values generalizing room with
  | nil =>
      exact ⟨(taken_of_fits room.fits_zero).symm, by cases room <;> rfl,
        iff_of_false Bool.false_ne_true (not_not_intro room.fits_zero)⟩
  | cons value values ih =>
      rw [sendWhile]
      by_cases hclosed : room = some 0
      · subst hclosed
        refine ⟨rfl, (spend_zero_room _).symm, ?_⟩
        rw [List.length_cons, fits_succ_iff]
        simp [send]
      · obtain ⟨hsent, hroom, hleft⟩ := @ih (room.spend 1)
        rw [send_of_open hclosed, taken_cons_of_open hclosed, List.length_cons,
          fits_succ_iff, and_iff_right hclosed, ← hleft]
        refine ⟨congrArg (value :: ·) hsent, hroom.trans ?_, Iff.rfl⟩
        rw [spend_spend, Nat.add_comm]

end Room

namespace Feed

variable (feed : Feed ι α σ ρ) (room : Room)

theorem sentOf_sendItem (values : List α) :
    sentOf (feed.sendItem room values).1 = room.taken values ∧
      (feed.sendItem room values).2.1 = room.spend values.length ∧
      ((feed.sendItem room values).2.2 = true →
        ¬room.Fits values.length) := by
  obtain ⟨hwhile, hspend, hleft⟩ := @Room.sentOf_sendWhile ι α room values
  unfold sendItem
  cases feed.onRefusal with
  | goOn =>
      obtain ⟨heach, hroom⟩ := @Room.sentOf_sendEach ι α room values
      exact ⟨heach, hroom, fun h => by cases h⟩
  | leaveItem => exact ⟨hwhile, hspend, fun h => by cases h⟩
  | leaveLoop => exact ⟨hwhile, hspend, hleft.mp⟩

/-- What the channel takes of the items behind one that has been handled. -/
def sentBehind (ended : Option ρ) (next : σ ⊕ ρ) (items : List ι) : List α :=
  match next with
  | .inl s => sentOf (feed.run ended s room items).1
  | .inr _ => []

theorem sentOf_run_cons (ended : Option ρ) (s : σ) (item : ι) (items : List ι) :
    sentOf (feed.run ended s room (item :: items)).1 =
      room.taken (feed.handle s item).1 ++
        if (feed.sendItem room (feed.handle s item).1).2.2 = true then []
        else feed.sentBehind (room.spend (feed.handle s item).1.length) ended
          (feed.handle s item).2 items := by
  rw [run]
  rcases feed.handle s item with ⟨values, next⟩
  obtain ⟨hsent, hroom, -⟩ := feed.sentOf_sendItem room values
  dsimp only
  rw [← hsent, ← hroom]
  split_ifs
  · exact (List.append_nil _).symm
  · rcases next with s' | result
    · exact sentOf_append (feed.sendItem room values).1 _
    · exact (List.append_nil _).symm

/-- However the loop treats a refused send, a receiver that goes early has
taken the beginning of what it would have taken. -/
theorem sentOf_run (ended : Option ρ) (s : σ) (items : List ι) :
    sentOf (feed.run ended s room items).1 =
      room.taken (sentOf (feed.run ended s none items).1) := by
  induction items generalizing s room with
  | nil => exact (Room.taken_of_fits room.fits_zero).symm
  | cons item items ih =>
      rw [sentOf_run_cons, sentOf_run_cons]
      rcases feed.handle s item with ⟨values, next⟩
      obtain ⟨-, -, hleft⟩ := feed.sentOf_sendItem room values
      obtain ⟨-, -, hstay⟩ := feed.sentOf_sendItem none values
      have hnone : ¬(feed.sendItem none values).2.2 = true :=
        fun h => hstay h (Room.fits_none _)
      have hbehind : feed.sentBehind (room.spend values.length) ended next items =
          (room.spend values.length).taken
            (feed.sentBehind none ended next items) := by
        rcases next with s' | result
        · exact ih _ s'
        · exact (Room.taken_of_fits (Room.fits_zero _)).symm
      dsimp only
      rw [if_neg hnone, hbehind]
      change _ = room.taken (values ++ feed.sentBehind none ended next items)
      split_ifs with h
      · rw [Room.taken_append_of_not_fits (hleft h), List.append_nil]
      · exact (Room.taken_append room values _).symm

end Feed

end Foundation
