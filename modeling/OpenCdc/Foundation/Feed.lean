import Mathlib.Data.List.Basic
import OpenCdc.Foundation.Outcome

/-!
# Loops that feed a channel

A loop takes items from a source, makes values of each and sends these on a
channel whose receiver may go away at any moment.  Loops differ in what a
refused send makes them do.
-/

namespace Foundation

universe u u' v w x

variable {ι : Type u} {α : Type v} {σ : Type w} {ρ : Type x}

/-! ## The channel -/

/-- How many values the channel takes before its receiver goes away; `none` if
the receiver stays. -/
abbrev Room := Option ℕ

/-- `n` more values are taken. -/
def Room.Fits (room : Room) (n : ℕ) : Prop := ∀ k, room = some k → n ≤ k

instance (room : Room) (n : ℕ) : Decidable (room.Fits n) :=
  match room with
  | none => .isTrue (by simp [Room.Fits])
  | some k => decidable_of_iff (n ≤ k) (by simp [Room.Fits])

/-- What a loop does that can be seen from outside. -/
inductive Observation (ι : Type u) (α : Type v) where
  | read (item : ι)
  | sent (value : α)
  | refused (value : α)
deriving Repr

/-- One send: what is seen of it, and the room after it. -/
def Room.send (room : Room) (value : α) : Observation ι α × Room :=
  match room with
  | none => (.sent value, none)
  | some 0 => (.refused value, some 0)
  | some (k + 1) => (.sent value, some k)

/-- Send every value, whether or not the sends before it were refused. -/
def Room.sendEach (room : Room) : List α → List (Observation ι α) × Room
  | [] => ([], room)
  | value :: values =>
      let (seen, room') := room.send value
      let (rest, room'') := room'.sendEach values
      (seen :: rest, room'')

/-- Send the values up to the first that is refused; `true` if there is one. -/
def Room.sendWhile (room : Room) :
    List α → List (Observation ι α) × Room × Bool
  | [] => ([], room, false)
  | value :: values =>
      match room.send value with
      | (.refused value, room') => ([.refused value], room', true)
      | (seen, room') =>
          let (rest, room'', refused) := room'.sendWhile values
          (seen :: rest, room'', refused)

/-- Send the value of each item, up to the first item that has none or the
first send that is refused: the values that the channel took, the room after
them and the result, which is `closed` behind a refused send. -/
def Room.sendResults {ε : Type w} (closed : ε) (room : Room) :
    List (Outcome ε α) → List α × Room × Outcome ε Unit
  | [] => ([], room, .ok ())
  | .error e :: _ => ([], room, .error e)
  | .panicked :: _ => ([], room, .panicked)
  | .ok value :: items =>
      match room.send (ι := Unit) value with
      | (.sent value, room') =>
          let (rest, room'', result) := room'.sendResults closed items
          (value :: rest, room'', result)
      | (_, room') => ([], room', .error closed)

/-- A loop over groups of values.  Sending a group may fail, and in front of a
group the loop may be left for the room that there is. -/
def Room.sendGroups {κ : Type u'} {ε : Type w} (leave : Room → Bool)
    (send : κ → Room → List α × Room × Outcome ε Unit) :
    List κ → Room → List α × Outcome ε Unit
  | [], _ => ([], .ok ())
  | group :: groups, room =>
      if leave room then ([], .ok ())
      else
        match send group room with
        | (sent, _, .error e) => (sent, .error e)
        | (sent, _, .panicked) => (sent, .panicked)
        | (sent, room', .ok ()) =>
            let (rest, result) := sendGroups leave send groups room'
            (sent ++ rest, result)

/-- The values that the channel took. -/
def sentOf (trace : List (Observation ι α)) : List α :=
  trace.filterMap fun
    | .sent value => some value
    | _ => none

/-- The values that the channel took before anything else happened. -/
def leadingSends : List (Observation ι α) → List α
  | .sent value :: trace => value :: leadingSends trace
  | _ => []

/-- The items that were read, each with the values sent right behind it. -/
def sendsByItem : List (Observation ι α) → List (ι × List α)
  | [] => []
  | .read item :: trace => (item, leadingSends trace) :: sendsByItem trace
  | .sent _ :: trace => sendsByItem trace
  | .refused _ :: trace => sendsByItem trace

/-- Behind a refused send no item is taken, and the loop returns. -/
def StopsAfterRefusal (run : List (Observation ι α) × Option ρ) : Prop :=
  run.1.Pairwise (fun earlier later =>
    (∃ value, earlier = .refused value) → ∀ item, later ≠ .read item) ∧
  ((∃ value, .refused value ∈ run.1) → run.2.isSome)

/-! ## Loops -/

inductive OnRefusal where
  | goOn
  | leaveItem
  | leaveLoop
deriving DecidableEq, Repr

/-- A loop: the values that it makes of an item, and the state after it or the
result that the loop returns with. -/
structure Feed (ι : Type u) (α : Type v) (σ : Type w) (ρ : Type x) where
  handle : σ → ι → List α × (σ ⊕ ρ)
  onRefusal : OnRefusal
  closed : ρ

namespace Feed

/-- The sends of one item; `true` if the loop is left because of them. -/
def sendItem (feed : Feed ι α σ ρ) (room : Room) (values : List α) :
    List (Observation ι α) × Room × Bool :=
  match feed.onRefusal with
  | .goOn =>
      let (seen, room') := room.sendEach values
      (seen, room', false)
  | .leaveItem =>
      let (seen, room', _) := room.sendWhile values
      (seen, room', false)
  | .leaveLoop => room.sendWhile values

/-- A run over the items; behind them the loop returns with `ended`, or waits
if that is `none`. -/
def run (feed : Feed ι α σ ρ) (ended : Option ρ) :
    σ → Room → List ι → List (Observation ι α) × Option ρ
  | _, _, [] => ([], ended)
  | s, room, item :: items =>
      let (values, next) := feed.handle s item
      let (seen, room', left) := feed.sendItem room values
      if left then (.read item :: seen, some feed.closed)
      else
        match next with
        | .inr result => (.read item :: seen, some result)
        | .inl s' =>
            let (rest, result) := feed.run ended s' room' items
            (.read item :: (seen ++ rest), result)

/-- The values of each item that the loop takes, and the result it returns
with, when no send is refused. -/
def offers (feed : Feed ι α σ ρ) (ended : Option ρ) :
    σ → List ι → List (List α) × Option ρ
  | _, [] => ([], ended)
  | s, item :: items =>
      match feed.handle s item with
      | (values, .inr result) => ([values], some result)
      | (values, .inl s') =>
          let (rest, result) := feed.offers ended s' items
          (values :: rest, result)

/-- The receiver takes the values of all items, or of all but the last one that
the loop takes, and the loop returns behind that one anyway. -/
def Outlasts (feed : Feed ι α σ ρ) (ended : Option ρ) (s : σ) (room : Room)
    (items : List ι) : Prop :=
  room.Fits (feed.offers ended s items).1.flatten.length ∨
    room.Fits (feed.offers ended s items).1.dropLast.flatten.length ∧
      (feed.offers ended s items).2.isSome

end Feed

/-! ## Sending -/

namespace Room

theorem fits_zero (room : Room) : room.Fits 0 := fun _ _ => Nat.zero_le _

theorem not_fits_iff {room : Room} {n : ℕ} :
    ¬room.Fits n ↔ ∃ k, room = some k ∧ k < n := by
  simp [Fits]

theorem Fits.mono {room : Room} {m n : ℕ} (h : room.Fits n) (hle : m ≤ n) :
    room.Fits m :=
  fun k hk => Nat.le_trans hle (h k hk)

/-- The room that `n` sends leave. -/
def spend (room : Room) (n : ℕ) : Room := room.map (· - n)

theorem fits_add_iff {room : Room} {m n : ℕ} (hm : room.Fits m) :
    room.Fits (m + n) ↔ (room.spend m).Fits n := by
  cases room with
  | none => simp [Fits, spend]
  | some k =>
      have hle : m ≤ k := hm k rfl
      simp only [Fits, spend, Option.map_some, Option.some.injEq,
        forall_eq']
      omega

theorem send_of_fits {room : Room} {n : ℕ} (value : α)
    (h : room.Fits (n + 1)) :
    room.send (ι := ι) value = (.sent value, room.spend 1) ∧
      (room.spend 1).Fits n := by
  cases room with
  | none => exact ⟨rfl, by simp [Fits, spend]⟩
  | some k =>
      cases k with
      | zero => exact absurd (h 0 rfl) (by omega)
      | succ k =>
          have hle := h (k + 1) rfl
          refine ⟨rfl, ?_⟩
          intro j hj
          simp only [spend, Option.map_some, Nat.add_sub_cancel,
            Option.some.injEq] at hj
          omega

theorem spend_spend (room : Room) (m n : ℕ) :
    (room.spend m).spend n = room.spend (m + n) := by
  cases room with
  | none => rfl
  | some k => simp [spend, Nat.sub_sub]

theorem sendEach_of_fits {room : Room} {values : List α}
    (h : room.Fits values.length) :
    room.sendEach (ι := ι) values =
      (values.map .sent, room.spend values.length) := by
  induction values generalizing room with
  | nil => cases room <;> rfl
  | cons value values ih =>
      obtain ⟨hsend, hrest⟩ := send_of_fits (ι := ι) value h
      simp only [sendEach, hsend, ih hrest, spend_spend, List.map_cons,
        List.length_cons, Nat.add_comm 1]

theorem sendWhile_of_fits {room : Room} {values : List α}
    (h : room.Fits values.length) :
    room.sendWhile (ι := ι) values =
      (values.map .sent, room.spend values.length, false) := by
  induction values generalizing room with
  | nil => cases room <;> rfl
  | cons value values ih =>
      obtain ⟨hsend, hrest⟩ := send_of_fits (ι := ι) value h
      simp only [sendWhile, hsend, ih hrest, spend_spend, List.map_cons,
        List.length_cons, Nat.add_comm 1]

theorem read_not_mem_sendEach (room : Room) (values : List α) (item : ι) :
    .read item ∉ (room.sendEach values).1 := by
  induction values generalizing room with
  | nil => simp [sendEach]
  | cons value values ih =>
      have hsend : Observation.read item ≠ (room.send value).1 := by
        rcases room with _ | _ | k <;> simp [send]
      simp only [sendEach, List.mem_cons, not_or]
      exact ⟨hsend, ih _⟩

theorem sendEach_of_not_fits {room : Room} {values : List α}
    (h : ¬room.Fits values.length) :
    (∃ value, .refused value ∈ (room.sendEach (ι := ι) values).1) ∧
      (room.sendEach (ι := ι) values).2 = some 0 := by
  obtain ⟨k, rfl, hk⟩ := not_fits_iff.mp h
  induction values generalizing k with
  | nil => simp at hk
  | cons value values ih =>
      cases k with
      | zero =>
          have hroom : (Room.sendEach (ι := ι) (some 0) values).2 = some 0 := by
            clear ih h hk
            induction values with
            | nil => rfl
            | cons value values ih => simpa [sendEach, send] using ih
          exact ⟨⟨value, by simp [sendEach, send]⟩,
            by simpa [sendEach, send] using hroom⟩
      | succ k =>
          have hlt : k < values.length := by simpa using hk
          obtain ⟨⟨refused, hmem⟩, hroom⟩ :=
            ih k hlt (not_fits_iff.mpr ⟨k, rfl, hlt⟩)
          exact ⟨⟨refused, by simp [sendEach, send, hmem]⟩,
            by simpa [sendEach, send] using hroom⟩

theorem sendWhile_of_not_fits {room : Room} {values : List α}
    (h : ¬room.Fits values.length) :
    ∃ taken value, room.sendWhile (ι := ι) values =
      (List.map .sent taken ++ [.refused value], some 0, true) := by
  obtain ⟨k, rfl, hk⟩ := not_fits_iff.mp h
  induction values generalizing k with
  | nil => simp at hk
  | cons value values ih =>
      cases k with
      | zero => exact ⟨[], value, rfl⟩
      | succ k =>
          have hlt : k < values.length := by simpa using hk
          obtain ⟨taken, refused, hrest⟩ :=
            ih k hlt (not_fits_iff.mpr ⟨k, rfl, hlt⟩)
          exact ⟨value :: taken, refused, by simp [sendWhile, send, hrest]⟩

end Room

namespace Room

/-- A send is taken or refused, with its own value. -/
theorem send_cases (room : Room) (value : α) :
    (room.send (ι := ι) value).1 = .sent value ∨
      (room.send (ι := ι) value).1 = .refused value := by
  rcases room with _ | _ | k
  · exact .inl rfl
  · exact .inr rfl
  · exact .inl rfl

theorem eq_of_send_eq_sent {room : Room} {value sent : α}
    (h : (room.send (ι := ι) value).1 = .sent sent) : sent = value := by
  rcases send_cases (ι := ι) room value with htaken | hrefused
  · rw [htaken] at h
    exact (Observation.sent.inj h).symm
  · rw [hrefused] at h
    cases h

theorem mem_of_sent_mem_sendEach {room : Room} {values : List α} {value : α}
    (h : .sent value ∈ (room.sendEach (ι := ι) values).1) :
    value ∈ values := by
  induction values generalizing room with
  | nil => cases h
  | cons first values ih =>
      rcases List.mem_cons.mp h with hfirst | hrest
      · rw [eq_of_send_eq_sent hfirst.symm]
        exact List.mem_cons_self
      · exact List.mem_cons_of_mem _ (ih hrest)

theorem mem_of_sent_mem_sendWhile {room : Room} {values : List α} {value : α}
    (h : .sent value ∈ (room.sendWhile (ι := ι) values).1) :
    value ∈ values := by
  induction values generalizing room with
  | nil => cases h
  | cons first values ih =>
      rcases room with _ | _ | k
      · rcases List.mem_cons.mp h with hfirst | hrest
        · rw [Observation.sent.inj hfirst]
          exact List.mem_cons_self
        · exact List.mem_cons_of_mem _ (ih hrest)
      · cases List.mem_singleton.mp h
      · rcases List.mem_cons.mp h with hfirst | hrest
        · rw [Observation.sent.inj hfirst]
          exact List.mem_cons_self
        · exact List.mem_cons_of_mem _ (ih hrest)

/-- What is sent was the value of an item. -/
theorem ok_mem_of_mem_sendResults {ε : Type w} {closed : ε} {room : Room}
    {items : List (Outcome ε α)} {value : α}
    (h : value ∈ (room.sendResults closed items).1) : .ok value ∈ items := by
  induction items generalizing room with
  | nil => cases h
  | cons item items ih =>
      rcases item with first | e | _
      · rcases room with _ | _ | k
        · rcases List.mem_cons.mp h with rfl | hrest
          · exact List.mem_cons_self
          · exact List.mem_cons_of_mem _ (ih hrest)
        · cases h
        · rcases List.mem_cons.mp h with rfl | hrest
          · exact List.mem_cons_self
          · exact List.mem_cons_of_mem _ (ih hrest)
      · cases h
      · cases h

/-- What is sent was sent with one of the groups. -/
theorem exists_of_mem_sendGroups {κ : Type u'} {ε : Type w}
    {leave : Room → Bool} {send : κ → Room → List α × Room × Outcome ε Unit}
    {groups : List κ} {room : Room} {value : α}
    (h : value ∈ (sendGroups leave send groups room).1) :
    ∃ group ∈ groups, ∃ room', value ∈ (send group room').1 := by
  induction groups generalizing room with
  | nil => cases h
  | cons group groups ih =>
      have hfirst : value ∈ (send group room).1 →
          ∃ group' ∈ group :: groups, ∃ room',
            value ∈ (send group' room').1 := fun hsent =>
        ⟨group, List.mem_cons_self, room, hsent⟩
      rw [sendGroups] at h
      split_ifs at h
      · cases h
      · split at h <;> rename_i hsend <;> rw [hsend] at hfirst
        · exact hfirst h
        · exact hfirst h
        · rcases List.mem_append.mp h with hsent | hrest
          · exact hfirst hsent
          · obtain ⟨group', hmem, hvalue⟩ := ih hrest
            exact ⟨group', List.mem_cons_of_mem _ hmem, hvalue⟩

end Room

theorem mem_sentOf_iff {trace : List (Observation ι α)} {value : α} :
    value ∈ sentOf trace ↔ .sent value ∈ trace := by
  unfold sentOf
  rw [List.mem_filterMap]
  constructor
  · rintro ⟨observation, hmem, hvalue⟩
    rcases observation with item | sent | refused
    · cases hvalue
    · rw [Option.some.inj hvalue] at hmem
      exact hmem
    · cases hvalue
  · intro hmem
    exact ⟨_, hmem, rfl⟩

theorem sentOf_append (before after : List (Observation ι α)) :
    sentOf (before ++ after) = sentOf before ++ sentOf after :=
  List.filterMap_append

theorem sentOf_map_sent (values : List α) :
    sentOf (ι := ι) (values.map .sent) = values := by
  simp [sentOf, List.filterMap_map]

theorem leadingSends_map_sent_append (values : List α)
    (rest : List (Observation ι α)) :
    leadingSends (values.map .sent ++ rest) = values ++ leadingSends rest := by
  induction values with
  | nil => rfl
  | cons value values ih => exact congrArg (value :: ·) ih

theorem sendsByItem_map_sent_append (values : List α)
    (rest : List (Observation ι α)) :
    sendsByItem (values.map .sent ++ rest) = sendsByItem rest := by
  induction values with
  | nil => rfl
  | cons value values ih => exact ih

/-- What is seen of a run by someone to whom only some of the items count, each
as another one; which these are may depend on the items before. -/
def retell {κ : Type u'} (tell : σ → ι → Option κ × σ) :
    σ → List (Observation ι α) → List (Observation κ α)
  | _, [] => []
  | s, .read item :: trace =>
      match tell s item with
      | (some item', s') => .read item' :: retell tell s' trace
      | (none, s') => retell tell s' trace
  | s, .sent value :: trace => .sent value :: retell tell s trace
  | s, .refused value :: trace => .refused value :: retell tell s trace

section Retell

variable {κ : Type u'} {tell : σ → ι → Option κ × σ} {s : σ}
  {trace : List (Observation ι α)}

theorem sentOf_retell : sentOf (retell tell s trace) = sentOf trace := by
  induction trace generalizing s with
  | nil => rfl
  | cons seen trace ih =>
      cases seen with
      | read item =>
          rw [retell]
          rcases tell s item with ⟨_ | item', s'⟩
          · exact ih
          · exact ih
      | sent value => exact congrArg (value :: ·) ih
      | refused value => exact ih

theorem refused_mem_retell {value : α} :
    .refused value ∈ retell tell s trace ↔ .refused value ∈ trace := by
  induction trace generalizing s with
  | nil => simp [retell]
  | cons seen trace ih =>
      cases seen with
      | read item =>
          rw [retell]
          rcases tell s item with ⟨_ | item', s'⟩
          · simpa using ih
          · simpa using ih
      | sent other => simpa [retell] using ih
      | refused other => simp [retell, ih]

theorem exists_read_of_read_mem_retell {item' : κ}
    (h : .read item' ∈ retell tell s trace) : ∃ item, .read item ∈ trace := by
  induction trace generalizing s with
  | nil => exact absurd h List.not_mem_nil
  | cons seen trace ih =>
      cases seen with
      | read item => exact ⟨item, List.mem_cons_self⟩
      | sent value =>
          obtain ⟨item, hitem⟩ := ih (List.mem_of_ne_of_mem (by simp) h)
          exact ⟨item, List.mem_cons_of_mem _ hitem⟩
      | refused value =>
          obtain ⟨item, hitem⟩ := ih (List.mem_of_ne_of_mem (by simp) h)
          exact ⟨item, List.mem_cons_of_mem _ hitem⟩

/-- Sends are told as they are. -/
theorem retell_sendWhile (tell : σ → ι → Option κ × σ) (s : σ)
    (trace : List (Observation ι α)) (room : Room) (values : List α) :
    retell tell s ((room.sendWhile values).1 ++ trace) =
        (room.sendWhile values).1 ++ retell tell s trace ∧
      (room.sendWhile (ι := κ) values).2 =
        (room.sendWhile (ι := ι) values).2 := by
  induction values generalizing room with
  | nil => exact ⟨rfl, rfl⟩
  | cons value values ih =>
      rcases room with _ | _ | k
      · obtain ⟨htold, hroom⟩ := ih none
        exact ⟨congrArg (Observation.sent value :: ·) htold, hroom⟩
      · exact ⟨rfl, rfl⟩
      · obtain ⟨htold, hroom⟩ := ih (some k)
        exact ⟨congrArg (Observation.sent value :: ·) htold, hroom⟩

/-- To whom fewer items count, a loop that stops seems to stop, too. -/
theorem StopsAfterRefusal.retell {result : Option ρ}
    (h : StopsAfterRefusal (trace, result)) :
    StopsAfterRefusal (retell tell s trace, result) := by
  obtain ⟨hpairs, hresult⟩ := h
  refine ⟨?_, ?_⟩
  · clear hresult
    induction trace generalizing s with
    | nil => exact List.Pairwise.nil
    | cons seen trace ih =>
        obtain ⟨hseen, hrest⟩ := List.pairwise_cons.mp hpairs
        cases seen with
        | read item =>
            dsimp only [Foundation.retell]
            rcases tell s item with ⟨_ | item', s'⟩
            · exact ih hrest
            · refine List.pairwise_cons.mpr ⟨?_, ih hrest⟩
              rintro later - ⟨value, hvalue⟩
              cases hvalue
        | sent value =>
            refine List.pairwise_cons.mpr ⟨?_, ih hrest⟩
            rintro later - ⟨other, hother⟩
            cases hother
        | refused value =>
            refine List.pairwise_cons.mpr ⟨?_, ih hrest⟩
            intro later hlater _ item' hread
            obtain ⟨item, hitem⟩ :=
              exists_read_of_read_mem_retell (hread ▸ hlater)
            exact hseen _ hitem ⟨value, rfl⟩ item rfl
  · rintro ⟨value, hvalue⟩
    exact hresult ⟨value, refused_mem_retell.mp hvalue⟩

end Retell

/-! ## Runs that stop -/

theorem pairwise_of_no_read {seen : List (Observation ι α)}
    (hseen : ∀ item, .read item ∉ seen) :
    seen.Pairwise (fun earlier later =>
      (∃ value, earlier = .refused value) → ∀ item, later ≠ .read item) := by
  apply List.pairwise_of_forall_mem_list
  intro earlier _ later hlater _ item hread
  exact hseen item (hread ▸ hlater)

/-- A run that ends with the sends of an item. -/
theorem stopsAfterRefusal_of_returned {item : ι}
    {seen : List (Observation ι α)} {result : ρ}
    (hseen : ∀ item, .read item ∉ seen) :
    StopsAfterRefusal (.read item :: seen, some result) := by
  refine ⟨List.pairwise_cons.mpr ⟨?_, pairwise_of_no_read hseen⟩, fun _ => rfl⟩
  rintro later - ⟨value, hvalue⟩
  cases hvalue

/-- Behind sends that were taken it depends on the rest of the run. -/
theorem stopsAfterRefusal_cons_sent_iff {item : ι} {values : List α}
    {rest : List (Observation ι α)} {result : Option ρ} :
    StopsAfterRefusal (.read item :: (values.map .sent ++ rest), result) ↔
      StopsAfterRefusal (rest, result) := by
  have hsent : ∀ o ∈ values.map (Observation.sent (ι := ι)),
      ∀ value, o ≠ .refused value := by
    simp
  unfold StopsAfterRefusal
  simp only [List.pairwise_cons, List.pairwise_append, List.mem_cons,
    List.mem_append, reduceCtorEq, exists_false, false_imp_iff, implies_true,
    true_and, false_or]
  constructor
  · rintro ⟨⟨-, hrest, -⟩, hresult⟩
    refine ⟨hrest, ?_⟩
    rintro ⟨value, hvalue⟩
    exact hresult ⟨value, .inr hvalue⟩
  · rintro ⟨hrest, hresult⟩
    refine ⟨⟨pairwise_of_no_read (by simp), hrest, ?_⟩, ?_⟩
    · rintro o ho - - ⟨value, hvalue⟩
      exact absurd hvalue (hsent o ho value)
    · rintro ⟨value, hvalue | hvalue⟩
      · exact absurd rfl (hsent _ hvalue value)
      · exact hresult ⟨value, hvalue⟩

/-- Behind a refused send there must be no further item. -/
theorem stopsAfterRefusal_cons_refused_iff {item : ι} {value : α}
    {seen rest : List (Observation ι α)} {result : Option ρ}
    (hseen : ∀ item, .read item ∉ seen) (hrefused : .refused value ∈ seen) :
    StopsAfterRefusal (.read item :: (seen ++ rest), result) ↔
      (∀ item, .read item ∉ rest) ∧ result.isSome := by
  unfold StopsAfterRefusal
  simp only [List.pairwise_cons, List.pairwise_append, List.mem_cons,
    List.mem_append, reduceCtorEq, exists_false, false_imp_iff, implies_true,
    true_and, false_or]
  constructor
  · rintro ⟨⟨-, -, hcross⟩, hresult⟩
    exact ⟨fun item hitem => hcross _ hrefused _ hitem ⟨value, rfl⟩ item rfl,
      hresult ⟨value, .inl hrefused⟩⟩
  · rintro ⟨hrest, hresult⟩
    refine ⟨⟨pairwise_of_no_read hseen, pairwise_of_no_read hrest, ?_⟩,
      fun _ => hresult⟩
    intro o _ later hlater _ item hread
    exact hrest item (hread ▸ hlater)

namespace Feed

variable {feed : Feed ι α σ ρ} {room : Room}

/-- Sends that are all taken. -/
theorem sendItem_of_fits {values : List α} (h : room.Fits values.length) :
    feed.sendItem room values =
      (values.map .sent, room.spend values.length, false) := by
  unfold sendItem
  cases feed.onRefusal with
  | goOn => simp [Room.sendEach_of_fits h]
  | leaveItem => simp [Room.sendWhile_of_fits h]
  | leaveLoop => exact Room.sendWhile_of_fits h

/-- A receiver that stays takes them all. -/
theorem sendItem_none (feed : Feed ι α σ ρ) (values : List α) :
    feed.sendItem none values = (values.map .sent, none, false) := by
  have hfits : Room.Fits none values.length := fun _ h => nomatch h
  exact sendItem_of_fits hfits

/-- Sends of which one is refused: there is no room left behind them. -/
theorem sendItem_of_not_fits (feed : Feed ι α σ ρ) {values : List α}
    (h : ¬room.Fits values.length) :
    ∃ seen, feed.sendItem room values =
        (seen, some 0, decide (feed.onRefusal = .leaveLoop)) ∧
      (∃ value, .refused value ∈ seen) ∧ ∀ item, .read item ∉ seen := by
  unfold sendItem
  cases feed.onRefusal with
  | goOn =>
      obtain ⟨hrefused, hroom⟩ := Room.sendEach_of_not_fits (ι := ι) h
      refine ⟨_, ?_, hrefused, Room.read_not_mem_sendEach room values⟩
      rw [← hroom]
      rfl
  | leaveItem =>
      obtain ⟨taken, value, hsend⟩ := Room.sendWhile_of_not_fits (ι := ι) h
      refine ⟨_, by rw [hsend]; rfl, ⟨value, by simp⟩, by simp⟩
  | leaveLoop =>
      obtain ⟨taken, value, hsend⟩ := Room.sendWhile_of_not_fits (ι := ι) h
      exact ⟨_, hsend, ⟨value, by simp⟩, by simp⟩

theorem mem_of_sent_mem_sendItem {values : List α} {value : α}
    (h : .sent value ∈ (feed.sendItem room values).1) : value ∈ values := by
  unfold sendItem at h
  cases hrefusal : feed.onRefusal with
  | goOn =>
      rw [hrefusal] at h
      exact Room.mem_of_sent_mem_sendEach h
  | leaveItem =>
      rw [hrefusal] at h
      exact Room.mem_of_sent_mem_sendWhile h
  | leaveLoop =>
      rw [hrefusal] at h
      exact Room.mem_of_sent_mem_sendWhile h

/-- What a run sends, the loop made of one of the items. -/
theorem exists_handle_of_sent_mem_run {ended : Option ρ} {s : σ}
    {items : List ι} {value : α}
    (h : .sent value ∈ (feed.run ended s room items).1) :
    ∃ s', ∃ item ∈ items, value ∈ (feed.handle s' item).1 := by
  induction items generalizing s room with
  | nil => cases h
  | cons item items ih =>
      have hitem : .sent value ∈
          (feed.sendItem room (feed.handle s item).1).1 →
            ∃ s', ∃ item' ∈ item :: items,
              value ∈ (feed.handle s' item').1 := fun hsent =>
        ⟨s, item, List.mem_cons_self, mem_of_sent_mem_sendItem hsent⟩
      simp only [run] at h
      split_ifs at h
      · exact hitem ((List.mem_cons.mp h).resolve_left (by simp))
      · rcases hnext : (feed.handle s item).2 with s' | result
        · rw [hnext] at h
          rcases List.mem_append.mp
            ((List.mem_cons.mp h).resolve_left (by simp)) with hsent | hrest
          · exact hitem hsent
          · obtain ⟨s'', item', hmem, hvalue⟩ := ih hrest
            exact ⟨s'', item', List.mem_cons_of_mem _ hmem, hvalue⟩
        · rw [hnext] at h
          exact hitem ((List.mem_cons.mp h).resolve_left (by simp))

/-- As long as all values are taken, the run sends them item by item. -/
theorem run_of_fits {ended : Option ρ} {s : σ} {items : List ι}
    (h : room.Fits (feed.offers ended s items).1.flatten.length) :
    sentOf (feed.run ended s room items).1 =
        (feed.offers ended s items).1.flatten ∧
      (feed.run ended s room items).2 = (feed.offers ended s items).2 := by
  induction items generalizing s room with
  | nil => exact ⟨rfl, rfl⟩
  | cons item items ih =>
      simp only [offers] at h ⊢
      rcases hhandle : feed.handle s item with ⟨values, s' | result⟩
      · simp only [hhandle, List.flatten_cons, List.length_append] at h ⊢
        have hvalues := h.mono (Nat.le_add_right _ _)
        obtain ⟨hsent, hresult⟩ := ih ((Room.fits_add_iff hvalues).mp h)
        simp only [run, hhandle, sendItem_of_fits hvalues, Bool.false_eq_true,
          if_false]
        refine ⟨?_, hresult⟩
        rw [← hsent]
        exact (sentOf_append _ _).trans (by rw [sentOf_map_sent])
      · simp only [hhandle, List.flatten_cons, List.flatten_nil,
          List.append_nil] at h ⊢
        simp only [run, hhandle, sendItem_of_fits h, Bool.false_eq_true,
          if_false]
        exact ⟨sentOf_map_sent values, trivial⟩

/-- With a receiver that stays. -/
theorem run_none (feed : Feed ι α σ ρ) (ended : Option ρ) (s : σ)
    (items : List ι) :
    sentOf (feed.run ended s none items).1 =
        (feed.offers ended s items).1.flatten ∧
      (feed.run ended s none items).2 = (feed.offers ended s items).2 :=
  run_of_fits (by simp [Room.Fits])

theorem leadingSends_run (feed : Feed ι α σ ρ) (ended : Option ρ) (s : σ)
    (room : Room) (items : List ι) :
    leadingSends (feed.run ended s room items).1 = [] := by
  cases items with
  | nil => rfl
  | cons item items =>
      simp only [run]
      split
      · rfl
      · split <;> rfl

/-- With a receiver that stays, every item that is read is followed by the
values that the loop makes of it. -/
theorem sendsByItem_run_none (feed : Feed ι α σ ρ) (ended : Option ρ) (s : σ)
    (items : List ι) :
    sendsByItem (feed.run ended s none items).1 =
      items.zip (feed.offers ended s items).1 := by
  induction items generalizing s with
  | nil => rfl
  | cons item items ih =>
      rcases hhandle : feed.handle s item with ⟨values, s' | result⟩
      · simp only [run, offers, hhandle, sendItem_none, Bool.false_eq_true,
          if_false]
        rw [sendsByItem, leadingSends_map_sent_append,
          sendsByItem_map_sent_append, List.zip_cons_cons, ih s',
          leadingSends_run, List.append_nil]
      · have hvalues := leadingSends_map_sent_append (ι := ι) values []
        have hrest := sendsByItem_map_sent_append (ι := ι) values []
        rw [List.append_nil] at hvalues hrest
        simp only [run, offers, hhandle, sendItem_none, Bool.false_eq_true,
          if_false]
        rw [sendsByItem, hvalues, hrest]
        simp [leadingSends, sendsByItem]

/-- A loop that returns at an item stops there, whatever was refused. -/
theorem stopsAfterRefusal_of_handle_inr {values : List α} {result : ρ}
    {s : σ} {item : ι} (hhandle : feed.handle s item = (values, .inr result))
    (ended : Option ρ) (room : Room) (items : List ι) :
    StopsAfterRefusal (feed.run ended s room (item :: items)) := by
  by_cases hfits : room.Fits values.length
  · simp only [run, hhandle, sendItem_of_fits hfits, Bool.false_eq_true,
      if_false]
    exact stopsAfterRefusal_of_returned (by simp)
  · obtain ⟨seen, hseen, -, hread⟩ := feed.sendItem_of_not_fits hfits
    simp only [run, hhandle, hseen]
    by_cases h : feed.onRefusal = .leaveLoop
    · simp only [h, decide_true, if_true]
      exact stopsAfterRefusal_of_returned hread
    · simp only [h, decide_false, Bool.false_eq_true, if_false]
      exact stopsAfterRefusal_of_returned hread

/-- A loop that is left with a refused send stops there, for every source and
every receiver. -/
theorem stopsAfterRefusal_of_leaveLoop (h : feed.onRefusal = .leaveLoop)
    (ended : Option ρ) (s : σ) (room : Room) (items : List ι) :
    StopsAfterRefusal (feed.run ended s room items) := by
  induction items generalizing s room with
  | nil => exact ⟨.nil, by simp [run]⟩
  | cons item items ih =>
      rcases hhandle : feed.handle s item with ⟨values, s' | result⟩
      · by_cases hfits : room.Fits values.length
        · simp only [run, hhandle, sendItem_of_fits hfits,
            Bool.false_eq_true, if_false]
          exact stopsAfterRefusal_cons_sent_iff.mpr (ih s' _)
        · obtain ⟨seen, hseen, -, hread⟩ := feed.sendItem_of_not_fits hfits
          simp only [run, hhandle, hseen, h, decide_true, if_true]
          exact stopsAfterRefusal_of_returned hread
      · exact stopsAfterRefusal_of_handle_inr hhandle ended room items

theorem read_mem_run (feed : Feed ι α σ ρ) (ended : Option ρ) (s : σ)
    (room : Room) (item : ι) (items : List ι) :
    .read item ∈ (feed.run ended s room (item :: items)).1 := by
  simp only [run]
  split
  · exact List.mem_cons_self
  · split <;> exact List.mem_cons_self

theorem offers_cons_ne_nil (feed : Feed ι α σ ρ) (ended : Option ρ) (s : σ)
    (item : ι) (items : List ι) :
    (feed.offers ended s (item :: items)).1 ≠ [] := by
  simp only [offers]
  split <;> simp

/-- A loop that goes on behind a refused send reads the next item, if there is
one. -/
theorem stopsAfterRefusal_refused_iff (h : feed.onRefusal ≠ .leaveLoop)
    {values : List α} {s s' : σ} {item : ι}
    (hhandle : feed.handle s item = (values, .inl s'))
    (hfits : ¬room.Fits values.length) {ended : Option ρ} {items : List ι} :
    StopsAfterRefusal (feed.run ended s room (item :: items)) ↔
      items = [] ∧ ended.isSome := by
  obtain ⟨seen, hseen, ⟨value, hvalue⟩, hread⟩ :=
    feed.sendItem_of_not_fits hfits
  simp only [run, hhandle, hseen, h, decide_false, Bool.false_eq_true, if_false]
  rw [stopsAfterRefusal_cons_refused_iff hread hvalue]
  cases items with
  | nil => simp [run]
  | cons next items =>
      refine iff_of_false (fun hstop => ?_) (fun hnil => nomatch hnil.1)
      exact hstop.1 next (read_mem_run feed ended s' _ next items)

/-- A loop that goes on stops after a refused send only if there is none, or if
the item it belongs to is the last one and the source ends behind it. -/
theorem stopsAfterRefusal_iff (h : feed.onRefusal ≠ .leaveLoop)
    {ended : Option ρ} {s : σ} {items : List ι} :
    StopsAfterRefusal (feed.run ended s room items) ↔
      feed.Outlasts ended s room items := by
  unfold Outlasts
  induction items generalizing s room with
  | nil =>
      constructor
      · exact fun _ => .inl (Room.fits_zero room)
      · exact fun _ => ⟨.nil, by simp [run]⟩
  | cons item items ih =>
      rcases hhandle : feed.handle s item with ⟨values, s' | result⟩
      · have hoffers : feed.offers ended s (item :: items) =
            (values :: (feed.offers ended s' items).1,
              (feed.offers ended s' items).2) := by
          simp only [offers, hhandle]
        rw [hoffers, List.flatten_cons, List.length_append]
        by_cases hfits : room.Fits values.length
        · -- the sends of this item are taken: the rest of the run decides
          simp only [run, hhandle, sendItem_of_fits hfits,
            Bool.false_eq_true, if_false]
          rw [stopsAfterRefusal_cons_sent_iff, ih, Room.fits_add_iff hfits]
          refine or_congr_right (and_congr_left fun _ => ?_)
          rcases hrest : (feed.offers ended s' items).1 with _ | ⟨m, ms⟩
          · simp [Room.fits_zero]
          · rw [List.dropLast_cons_cons, List.flatten_cons, List.length_append,
              Room.fits_add_iff hfits]
        · have hmore : ∀ n, ¬room.Fits (values.length + n) :=
            fun n hn => hfits (hn.mono (Nat.le_add_right _ _))
          rw [stopsAfterRefusal_refused_iff h hhandle hfits]
          simp only [hmore, false_or]
          cases items with
          | nil => simp [offers, Room.fits_zero]
          | cons item' items =>
              apply iff_of_false (fun hstop => nomatch hstop.1)
              rcases hrest : (feed.offers ended s' (item' :: items)).1 with
                _ | ⟨m, ms⟩
              · exact absurd hrest
                  (offers_cons_ne_nil feed ended s' item' items)
              · rw [List.dropLast_cons_cons, List.flatten_cons,
                  List.length_append]
                exact fun hstop => hmore _ hstop.1
      · simp only [offers, hhandle, List.dropLast_singleton, List.flatten_nil,
          List.length_nil, Option.isSome_some, and_true]
        exact iff_of_true
          (stopsAfterRefusal_of_handle_inr hhandle ended room items)
          (.inr (Room.fits_zero room))

end Feed
end Foundation
