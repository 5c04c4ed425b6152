import Mathlib.Data.Set.Function
import Mathlib.Data.List.Basic

/-!
# Writers that route a slice by its first item

A writer appends slices of items to tables.  It asks the first item of a slice
for the table, and registers the table unless the key of the table is already
in its cache.
-/

namespace Foundation.Routing

universe u v w x y

variable {ι : Type u} {τ : Type v} {κ : Type w} {ρ : Type x} {β : Type y}

/-- A call on the store, with what is registered and what is appended. -/
inductive Call (τ : Type v) (ρ : Type x) (β : Type y) where
  | register (table : τ) (info : ρ)
  | append (table : τ) (payload : β)

/-- Every append goes to a known table, or to one registered before it. -/
def RegisteredFrom (known : List τ) : List (Call τ ρ β) → Prop
  | [] => True
  | .register table _ :: calls => RegisteredFrom (table :: known) calls
  | .append table _ :: calls => table ∈ known ∧ RegisteredFrom known calls

/-- What holds of every split of a list around an item holds of the split
around its head, and of those of its tail. -/
theorem forall_split_cons_iff {α : Type u} {x : α} {xs : List α}
    {P : List α → α → List α → Prop} :
    (∀ before y after, x :: xs = before ++ y :: after → P before y after) ↔
      P [] x xs ∧ ∀ before y after, xs = before ++ y :: after →
        P (x :: before) y after := by
  constructor
  · intro h
    refine ⟨h [] x xs rfl, ?_⟩
    intro before y after hsplit
    exact h (x :: before) y after (congrArg (x :: ·) hsplit)
  · rintro ⟨hhead, htail⟩ (_ | ⟨head, before⟩) y after hsplit
    · obtain ⟨rfl, rfl⟩ := List.cons.inj hsplit
      exact hhead
    · obtain ⟨rfl, hrest⟩ := List.cons.inj hsplit
      exact htail before y after hrest

/-- A call is behind the registration of its table, if it is an append. -/
def Call.Registered (known : List τ) (before : List (Call τ ρ β)) :
    Call τ ρ β → Prop
  | .register _ _ => True
  | .append table _ => table ∈ known ∨ ∃ info, .register table info ∈ before

/-- To know a table is as good as its registration. -/
theorem Call.registered_cons_register_iff {known : List τ} {table : τ}
    {info : ρ} {before : List (Call τ ρ β)} {call : Call τ ρ β} :
    call.Registered known (.register table info :: before) ↔
      call.Registered (table :: known) before := by
  cases call with
  | register => exact Iff.rfl
  | append other payload =>
      simp only [Registered, List.mem_cons, Call.register.injEq, exists_or,
        exists_eq_right, or_assoc]
      exact or_left_comm

theorem Call.registered_cons_append_iff {known : List τ} {table : τ}
    {payload : β} {before : List (Call τ ρ β)} {call : Call τ ρ β} :
    call.Registered known (.append table payload :: before) ↔
      call.Registered known before := by
  cases call with
  | register => exact Iff.rfl
  | append other payload' => simp [Registered]

theorem registeredFrom_iff_registered {known : List τ}
    {calls : List (Call τ ρ β)} :
    RegisteredFrom known calls ↔ ∀ before call after,
      calls = before ++ call :: after → call.Registered known before := by
  induction calls generalizing known with
  | nil => simp [RegisteredFrom]
  | cons call calls ih =>
      rw [forall_split_cons_iff]
      cases call with
      | register table info =>
          simp only [RegisteredFrom, ih, Call.registered_cons_register_iff]
          exact (and_iff_right trivial).symm
      | append table payload =>
          simp only [RegisteredFrom, ih, Call.registered_cons_append_iff]
          simp [Call.Registered]

/-- One more call is to be behind the registration of its table. -/
theorem registeredFrom_concat_iff {known : List τ}
    {calls : List (Call τ ρ β)} {call : Call τ ρ β} :
    RegisteredFrom known (calls ++ [call]) ↔
      RegisteredFrom known calls ∧ call.Registered known calls := by
  induction calls generalizing known with
  | nil =>
      cases call with
      | register table info => simp [RegisteredFrom, Call.Registered]
      | append table payload => simp [RegisteredFrom, Call.Registered]
  | cons first calls ih =>
      cases first with
      | register table info =>
          simp only [List.cons_append, RegisteredFrom, ih,
            Call.registered_cons_register_iff]
      | append table payload =>
          simp only [List.cons_append, RegisteredFrom, ih,
            Call.registered_cons_append_iff, and_assoc]

theorem registeredFrom_iff {known : List τ} {calls : List (Call τ ρ β)} :
    RegisteredFrom known calls ↔ ∀ before table payload after,
      calls = before ++ .append table payload :: after →
        table ∈ known ∨ ∃ info, .register table info ∈ before := by
  rw [registeredFrom_iff_registered]
  constructor
  · intro h before table payload after hsplit
    exact h before (.append table payload) after hsplit
  · intro h before call after hsplit
    cases call with
    | register table info => trivial
    | append table payload => exact h before table payload after hsplit

/-- With no table known before, every append is behind a registration. -/
theorem registeredFrom_nil_iff {calls : List (Call τ ρ β)} :
    RegisteredFrom [] calls ↔ ∀ before table payload after,
      calls = before ++ .append table payload :: after →
        ∃ info, .register table info ∈ before := by
  rw [registeredFrom_iff]
  simp

section Writer

variable [DecidableEq κ]
variable (dest : ι → τ) (key : τ → κ) (info : ι → ρ) (pack : List ι → β)

/-- The calls of the writes, one for each slice, from a cache on. -/
def runCalls (cached : List κ) : List (List ι) → List (Call τ ρ β)
  | [] => []
  | [] :: slices => runCalls cached slices
  | (item :: items) :: slices =>
      if key (dest item) ∈ cached then
        .append (dest item) (pack (item :: items)) :: runCalls cached slices
      else
        .register (dest item) (info item) ::
          .append (dest item) (pack (item :: items)) ::
          runCalls (key (dest item) :: cached) slices

/-- The payloads appended to a table, in order. -/
def payloadsTo [DecidableEq τ] (table : τ) : List (Call τ ρ β) → List β
  | [] => []
  | .register _ _ :: calls => payloadsTo table calls
  | .append table' payload :: calls =>
      if table' = table then payload :: payloadsTo table calls
      else payloadsTo table calls

/-- The slice is routed to the table. -/
def Headed (table : τ) (slice : List ι) : Prop :=
  slice.head?.map dest = some table

instance [DecidableEq τ] (table : τ) (slice : List ι) :
    Decidable (Headed dest table slice) :=
  inferInstanceAs (Decidable (_ = _))

/-- All items of the slice are of one table. -/
def Uniform (slice : List ι) : Prop :=
  ∀ item ∈ slice, Headed dest (dest item) slice

/-- The tables that slices are routed to. -/
def heads (slices : List (List ι)) : List τ :=
  slices.filterMap fun slice => slice.head?.map dest

theorem payloadsTo_runCalls [DecidableEq τ] (table : τ) (cached : List κ)
    (slices : List (List ι)) :
    payloadsTo table (runCalls dest key info pack cached slices) =
      (slices.filter fun slice => Headed dest table slice).map pack := by
  induction slices generalizing cached with
  | nil => rfl
  | cons slice slices ih =>
      cases slice with
      | nil =>
          rw [runCalls, ih, List.filter_cons_of_neg (by simp [Headed])]
      | cons item items =>
          by_cases htable : dest item = table
          · rw [List.filter_cons_of_pos (by simp [Headed, htable]),
              List.map_cons, runCalls]
            split_ifs
            · rw [payloadsTo, if_pos htable, ih]
            · rw [payloadsTo, payloadsTo, if_pos htable, ih]
          · rw [List.filter_cons_of_neg (by simp [Headed, htable]), runCalls]
            split_ifs
            · rw [payloadsTo, if_neg htable, ih]
            · rw [payloadsTo, payloadsTo, if_neg htable, ih]

/-! ## Uniform slices -/

variable {dest} {key} {info} {pack}

theorem Headed.eq_of_uniform {table : τ} {slice : List ι}
    (hheaded : Headed dest table slice) (huniform : Uniform dest slice)
    {item : ι} (hitem : item ∈ slice) : dest item = table := by
  have hdest : Headed dest (dest item) slice := huniform item hitem
  rw [Headed, hheaded] at hdest
  exact (Option.some.inj hdest).symm

/-- Of uniform slices a table gets the items that are of it. -/
theorem flatten_filter_headed [DecidableEq τ] {slices : List (List ι)}
    (huniform : ∀ slice ∈ slices, Uniform dest slice) (table : τ) :
    (slices.filter fun slice => Headed dest table slice).flatten =
      slices.flatten.filter fun item => dest item = table := by
  induction slices with
  | nil => rfl
  | cons slice slices ih =>
      have hslice := huniform slice List.mem_cons_self
      have hrest := ih fun other hmem =>
        huniform other (List.mem_cons_of_mem _ hmem)
      rw [List.flatten_cons, List.filter_append, ← hrest]
      by_cases hheaded : Headed dest table slice
      · rw [List.filter_cons_of_pos (by simpa using hheaded), List.flatten_cons]
        congr 1
        symm
        apply List.filter_eq_self.mpr
        intro item hitem
        simpa using hheaded.eq_of_uniform hslice hitem
      · rw [List.filter_cons_of_neg (by simpa using hheaded)]
        have hnone : slice.filter (fun item => dest item = table) = [] := by
          apply List.filter_eq_nil_iff.mpr
          intro item hitem hdest
          apply hheaded
          rw [← of_decide_eq_true hdest]
          exact hslice item hitem
        rw [hnone, List.nil_append]

/-- And only uniform slices give every table only its own items. -/
theorem uniform_of_forall_headed {slices : List (List ι)}
    (h : ∀ table, ∀ slice ∈ slices, Headed dest table slice →
      ∀ item ∈ slice, dest item = table) :
    ∀ slice ∈ slices, Uniform dest slice := by
  intro slice hslice item hitem
  cases slice with
  | nil => exact absurd hitem List.not_mem_nil
  | cons first items =>
      have hfirst := h (dest first) _ hslice rfl item hitem
      rw [hfirst]
      rfl

/-! ## Registration -/

/-- Behind known tables, of which the cache holds the keys, every append is
registered exactly if no two tables share a key. -/
theorem registeredFrom_runCalls_iff {known : List τ}
    (hknown : Set.InjOn key {table | table ∈ known})
    (slices : List (List ι)) :
    RegisteredFrom known (runCalls dest key info pack (known.map key) slices) ↔
      Set.InjOn key {table | table ∈ known ∨ table ∈ heads dest slices} := by
  induction slices generalizing known with
  | nil => simpa [runCalls, RegisteredFrom, heads] using hknown
  | cons slice slices ih =>
      cases slice with
      | nil =>
          rw [runCalls, ih hknown]
          rfl
      | cons item items =>
          have hset : {table | table ∈ known ∨
              table ∈ heads dest ((item :: items) :: slices)} =
                insert (dest item)
                  {table | table ∈ known ∨ table ∈ heads dest slices} := by
            ext table
            simp [heads, or_left_comm]
          rw [hset, runCalls]
          split_ifs with hcached
          · rw [RegisteredFrom, ih hknown]
            obtain ⟨table, htable, hkey⟩ := List.mem_map.mp hcached
            constructor
            · rintro ⟨hitem, hinj⟩
              rwa [Set.insert_eq_of_mem (.inl hitem)]
            · intro hinj
              -- the known table of this key is that of the slice
              obtain rfl : table = dest item :=
                hinj (.inr (.inl htable)) (.inl rfl) hkey
              exact ⟨htable, hinj.mono (Set.subset_insert _ _)⟩
          · have hknown' : Set.InjOn key {table | table ∈ dest item :: known} := by
              rw [List.setOfPred_mem_cons]
              refine (Set.injOn_insert ?_).mpr ⟨hknown, ?_⟩
              · exact fun hmem => hcached (List.mem_map_of_mem hmem)
              · rintro ⟨table, htable, hkey⟩
                exact hcached (List.mem_map.mpr ⟨table, htable, hkey⟩)
            have hinsert : {table | table ∈ dest item :: known ∨
                table ∈ heads dest slices} = insert (dest item)
                  {table | table ∈ known ∨ table ∈ heads dest slices} := by
              ext table
              simp [or_assoc]
            rw [RegisteredFrom, RegisteredFrom, ← hinsert, ← ih hknown']
            exact and_iff_right List.mem_cons_self

/-- From an empty cache on. -/
theorem registeredFrom_nil_runCalls_iff (slices : List (List ι)) :
    RegisteredFrom [] (runCalls dest key info pack [] slices) ↔
      Set.InjOn key {table | table ∈ heads dest slices} := by
  have hempty : Set.InjOn key {table | table ∈ ([] : List τ)} := by simp
  rw [show ([] : List κ) = ([] : List τ).map key from rfl,
    registeredFrom_runCalls_iff hempty]
  simp

end Writer

end Foundation.Routing
