import Mathlib.Algebra.BigOperators.Group.List.Basic
import Mathlib.Algebra.GroupWithZero.Nat
import Mathlib.Algebra.Order.BigOperators.Group.List
import Mathlib.Algebra.Order.Group.Nat
import OpenCdc.Foundation.Keyed

/-!
# Connection strings of keywords and values

A connection string is a list of settings `keyword = value`.  A value ends at
the next space unless it stands in single quotes, and a backslash takes the
character behind it as it is.  Settings that are written down without quotes
are read back exactly if their values need none.
-/

namespace Foundation.Conninfo

abbrev Setting := List Char × List Char

/-- What the readers of the format differ in: the characters that count as
spaces, and whether the text may end where a value is expected. -/
structure Dialect where
  isSpace : Char → Bool
  isSpace_space : isSpace ' ' = true
  isSpace_word : ∀ c : Char, c.isAlphanum = true → isSpace c = false
  emptyAtEnd : Bool

/-- The reader of the client library in C. -/
def libpq : Dialect where
  isSpace c := c ∈ [' ', '\t', '\n', '\x0b', '\x0c', '\r']
  isSpace_space := by decide
  isSpace_word c hc := by
    by_contra hspace
    revert hc
    simp only [decide_eq_false_iff_not, not_not, List.mem_cons,
      List.not_mem_nil, or_false] at hspace
    rcases hspace with rfl | rfl | rfl | rfl | rfl | rfl <;> decide
  emptyAtEnd := true

/-! ## The reader -/

/-- What the reader has in front of it; the keyword and the value are those that
it has read so far. -/
inductive State where
  | start
  | name (keyword : List Char)
  | afterName (keyword : List Char)
  | beforeValue (keyword : List Char)
  | value (quoted escaped : Bool) (keyword value : List Char)
deriving DecidableEq, Repr

variable (d : Dialect)

/-- Read a character; a setting is given out when it is complete. -/
def step : State → Char → Option (State × List Setting)
  | .start, c =>
      if d.isSpace c then some (.start, [])
      else if c = '=' then some (.beforeValue [], [])
      else some (.name [c], [])
  | .name k, c =>
      if c = '=' then some (.beforeValue k, [])
      else if d.isSpace c then some (.afterName k, [])
      else some (.name (k ++ [c]), [])
  | .afterName k, c =>
      if d.isSpace c then some (.afterName k, [])
      else if c = '=' then some (.beforeValue k, [])
      else none
  | .beforeValue k, c =>
      if d.isSpace c then some (.beforeValue k, [])
      else if c = '\'' then some (.value true false k [], [])
      else if c = '\\' then some (.value false true k [], [])
      else some (.value false false k [c], [])
  | .value quoted true k v, c => some (.value quoted false k (v ++ [c]), [])
  | .value true false k v, c =>
      if c = '\\' then some (.value true true k v, [])
      else if c = '\'' then some (.start, [(k, v)])
      else some (.value true false k (v ++ [c]), [])
  | .value false false k v, c =>
      if d.isSpace c then some (.start, [(k, v)])
      else if c = '\\' then some (.value false true k v, [])
      else some (.value false false k (v ++ [c]), [])

/-- The end of the text. -/
def finish : State → Option (List Setting)
  | .start => some []
  | .name _ | .afterName _ => none
  | .beforeValue k => if d.emptyAtEnd then some [(k, [])] else none
  | .value true _ _ _ => none
  | .value false _ k v =>
      if v = [] ∧ d.emptyAtEnd = false then none else some [(k, v)]

def run : State → List Char → Option (List Setting)
  | s, [] => finish d s
  | s, c :: text =>
      (step d s c).bind fun next => (run next.1 text).map (next.2 ++ ·)

def parse (text : List Char) : Option (List Setting) := run d .start text

example : parse libpq "a = 'x y' b=\\ z\\'c".toList =
    some [(['a'], ['x', ' ', 'y']), (['b'], [' ', 'z', '\'', 'c'])] := by decide

example : parse libpq "a='x".toList = none := by decide

/-- The text is read, and the settings that are in force, of which the last one
under a keyword counts, are those of the configuration. -/
def GivesBack (text : List Char) (config : List Setting) : Prop :=
  ∃ settings, parse d text = some settings ∧
    ∀ setting, lastEntry Prod.fst setting.1 settings = some setting ↔
      setting ∈ config

/-- A value that is read as it stands. -/
structure Plain (value : List Char) : Prop where
  nonempty : value ≠ []
  chars : ∀ c ∈ value, d.isSpace c = false ∧ c ≠ '\\'
  unquoted : value.head? ≠ some '\''

/-- Settings without any quotes, with spaces between them. -/
def written : List Setting → List Char
  | [] => []
  | setting :: config =>
      setting.1 ++ '=' :: (setting.2 ++
        if config.isEmpty then [] else ' ' :: written config)

/-! ## Characters that a setting takes -/

/-- The characters of settings that are written down, each with an equals sign
and a character behind it. -/
def weight (settings : List Setting) : ℕ :=
  (settings.map fun setting =>
    setting.1.length + setting.2.length + 2).sum

/-- What has been read of the setting that is read. -/
def credit : State → ℕ
  | .start => 1
  | .name k => k.length + 1
  | .afterName k => k.length + 2
  | .beforeValue k => k.length + 2
  | .value quoted escaped k v =>
      k.length + v.length + 2 + quoted.toNat + escaped.toNat

@[simp] theorem weight_nil : weight [] = 0 := rfl

@[simp] theorem weight_cons (setting : Setting) (settings : List Setting) :
    weight (setting :: settings) =
      setting.1.length + setting.2.length + 2 + weight settings :=
  List.sum_cons

theorem weight_append (settings settings' : List Setting) :
    weight (settings ++ settings') = weight settings + weight settings' := by
  rw [weight, weight, weight, List.map_append, List.sum_append]

theorem length_written {config : List Setting} (h : config ≠ []) :
    (written config).length + 1 = weight config := by
  induction config with
  | nil => exact absurd rfl h
  | cons setting config ih =>
      cases config with
      | nil =>
          simp [written]
          omega
      | cons setting' config =>
          have hrest := ih (by simp)
          rw [weight_cons, ← hrest, written]
          simp
          omega

variable {d}

/-- One character adds no more than one to what has been read. -/
theorem weight_step_le {s : State} {c : Char} {next : State × List Setting}
    (h : step d s c = some next) :
    weight next.2 + credit next.1 ≤ credit s + 1 := by
  -- every branch keeps the character, counts it as a mark, or drops it
  unfold step at h
  split at h <;> (try split_ifs at h) <;> cases h <;> simp [credit] <;> omega

theorem weight_finish_le {s : State} {settings : List Setting}
    (h : finish d s = some settings) : weight settings ≤ credit s := by
  unfold finish at h
  split at h <;> (try split_ifs at h) <;> cases h <;> simp [credit]

/-- A setting takes at least the characters that it is written with. -/
theorem weight_run_le {s : State} {text : List Char} {settings : List Setting}
    (h : run d s text = some settings) :
    weight settings ≤ text.length + credit s := by
  induction text generalizing s settings with
  | nil =>
      rw [run] at h
      have hfinish := weight_finish_le h
      omega
  | cons c text ih =>
      rw [run, Option.bind_eq_some_iff] at h
      obtain ⟨next, hstep, h⟩ := h
      obtain ⟨rest, hrest, rfl⟩ := Option.map_eq_some_iff.mp h
      have hle := weight_step_le hstep
      have hrun := ih hrest
      rw [weight_append, List.length_cons]
      omega

/-! ## Texts without a character to spare -/

/-- What is known of a value that is read without a character to spare. -/
def Tight (d : Dialect) (last : Char) : State → Prop
  | .beforeValue _ => last = '='
  | .value false false _ v => Plain d v
  | _ => True

theorem plain_singleton {c : Char} (hspace : ¬d.isSpace c = true)
    (hescape : c ≠ '\\') (hquote : c ≠ '\'') : Plain d [c] where
  nonempty := by simp
  chars := by simpa using And.intro (Bool.not_eq_true _ ▸ hspace) hescape
  unquoted := by simpa using hquote

theorem Plain.snoc {v : List Char} {c : Char} (hv : Plain d v)
    (hspace : ¬d.isSpace c = true) (hescape : c ≠ '\\') :
    Plain d (v ++ [c]) where
  nonempty := by simp
  chars := by
    intro c' hc'
    rcases List.mem_append.mp hc' with hold | hnew
    · exact hv.chars c' hold
    · rw [List.mem_singleton.mp hnew]
      exact ⟨Bool.not_eq_true _ ▸ hspace, hescape⟩
  unquoted := by
    rw [List.head?_append_of_ne_nil _ hv.nonempty]
    exact hv.unquoted

/-- A plain value stays one, and is given out as one. -/
theorem tight_step_value {k v : List Char} {c : Char}
    {next : State × List Setting}
    (h : step d (.value false false k v) c = some next) (hv : Plain d v) :
    Tight d c next.1 ∧ ∀ setting ∈ next.2, Plain d setting.2 := by
  rw [step] at h
  split_ifs at h with hspace hescape
  · cases h
    refine ⟨trivial, ?_⟩
    intro setting hsetting
    rw [List.mem_singleton.mp hsetting]
    exact hv
  · cases h
    exact ⟨trivial, by simp⟩
  · cases h
    exact ⟨hv.snoc hspace hescape, by simp⟩

/-- A step that takes no character too many gives out plain values only. -/
theorem tight_step {s : State} {last c : Char} {next : State × List Setting}
    (h : step d s c = some next) (hs : Tight d last s)
    (htight : weight next.2 + credit next.1 = credit s + 1) :
    Tight d c next.1 ∧ ∀ setting ∈ next.2, Plain d setting.2 := by
  cases s with
  | start =>
      rw [step] at h
      split_ifs at h with hspace heq
      · cases h
        simp [credit] at htight
      · cases h
        exact ⟨heq, by simp⟩
      · cases h
        exact ⟨trivial, by simp⟩
  | name k =>
      rw [step] at h
      split_ifs at h with heq hspace
      · cases h
        exact ⟨heq, by simp⟩
      · cases h
        exact ⟨trivial, by simp⟩
      · cases h
        exact ⟨trivial, by simp⟩
  | afterName k =>
      rw [step] at h
      split_ifs at h
      · cases h
        simp [credit] at htight
      · cases h
        simp [credit] at htight
  | beforeValue k =>
      rw [step] at h
      split_ifs at h with hspace hquote hescape
      · cases h
        simp [credit] at htight
      · cases h
        exact ⟨trivial, by simp⟩
      · cases h
        exact ⟨trivial, by simp⟩
      · cases h
        exact ⟨plain_singleton hspace hescape hquote, by simp⟩
  | value quoted escaped k v =>
      cases escaped with
      | true =>
          -- the backslash has been taken for nothing
          cases h
          simp [credit] at htight
          omega
      | false =>
          cases quoted with
          | true =>
              rw [step] at h
              split_ifs at h
              · cases h
                exact ⟨trivial, by simp⟩
              · cases h
                simp [credit] at htight
              · cases h
                exact ⟨trivial, by simp⟩
          | false => exact tight_step_value h hs

theorem tight_finish {s : State} {last : Char} {settings : List Setting}
    (h : finish d s = some settings) (hs : Tight d last s)
    (htight : weight settings = credit s) :
    ∀ setting ∈ settings, Plain d setting.2 ∨
      setting.2 = [] ∧ last = '=' := by
  cases s with
  | start =>
      cases h
      simp [credit] at htight
  | name k => cases h
  | afterName k => cases h
  | beforeValue k =>
      rw [finish] at h
      split_ifs at h
      cases h
      intro setting hsetting
      rw [List.mem_singleton.mp hsetting]
      exact .inr ⟨rfl, hs⟩
  | value quoted escaped k v =>
      cases quoted with
      | true => cases h
      | false =>
          rw [finish] at h
          split_ifs at h
          cases h
          cases escaped with
          | true => simp [credit] at htight
          | false =>
              intro setting hsetting
              rw [List.mem_singleton.mp hsetting]
              exact .inl hs

/-- Where the settings take the whole text, their values are plain; the last one
may be missing. -/
theorem plain_of_tight {s : State} {last : Char} {text : List Char}
    {settings : List Setting} (h : run d s text = some settings)
    (hs : Tight d last s)
    (htight : weight settings = text.length + credit s) :
    ∀ setting ∈ settings, Plain d setting.2 ∨
      setting.2 = [] ∧ (last :: text).getLast? = some '=' := by
  induction text generalizing s last settings with
  | nil =>
      have hlast := tight_finish h hs (by simpa using htight)
      simpa using hlast
  | cons c text ih =>
      rw [run, Option.bind_eq_some_iff] at h
      obtain ⟨next, hstep, h⟩ := h
      obtain ⟨rest, hrest, rfl⟩ := Option.map_eq_some_iff.mp h
      have hle := weight_step_le hstep
      have hrun := weight_run_le hrest
      rw [weight_append, List.length_cons] at htight
      obtain ⟨hnext, hgiven⟩ := tight_step hstep hs (by omega)
      intro setting hsetting
      rcases List.mem_append.mp hsetting with hnow | hlater
      · exact .inl (hgiven setting hnow)
      · rw [List.getLast?_cons_cons]
        exact ih hrest hnext (by omega) setting hlater

theorem weight_le_of_subset {config settings : List Setting}
    (hnodup : config.Nodup) (hsubset : config ⊆ settings) :
    weight config ≤ weight settings := by
  obtain ⟨part, hperm, hpart⟩ := List.subperm_of_subset hnodup hsubset
  calc
    weight config = weight part := (hperm.symm.map _).sum_eq
    _ ≤ weight settings := (hpart.map _).sum_le_sum (by simp)

/-- What is given back from the settings as they are written has plain values;
the last one may be missing. -/
theorem plain_of_givesBack {config : List Setting} (hne : config ≠ [])
    (hkeys : (config.map Prod.fst).Nodup)
    (h : GivesBack d (written config) config) :
    ∀ setting ∈ config, Plain d setting.2 ∨
      setting.2 = [] ∧ (written config).getLast? = some '=' := by
  obtain ⟨settings, hparse, hlast⟩ := h
  have hsubset : config ⊆ settings := by
    intro setting hsetting
    exact (mem_of_lastEntry ((hlast setting).mpr hsetting)).1
  have hle := weight_le_of_subset (List.Nodup.of_map _ hkeys) hsubset
  have hrun := weight_run_le hparse
  have hlength := length_written hne
  have hstart : credit .start = 1 := rfl
  have hspace : Tight d ' ' .start := trivial
  have htight := plain_of_tight hparse hspace (by omega)
  intro setting hsetting
  rcases htight setting (hsubset hsetting) with hplain | ⟨hempty, hend⟩
  · exact .inl hplain
  · refine .inr ⟨hempty, ?_⟩
    cases htext : written config with
    | nil =>
        rw [htext] at hend
        simp at hend
    | cons c text =>
        rw [htext, List.getLast?_cons_cons] at hend
        exact hend

/-! ## Reading plain values -/

theorem run_name {k : List Char} (hk : ∀ c ∈ k, c.isAlphanum = true)
    (front rest : List Char) :
    run d (.name front) (k ++ '=' :: rest) =
      run d (.beforeValue (front ++ k)) rest := by
  induction k generalizing front with
  | nil =>
      rw [List.nil_append, run, step, if_pos rfl, List.append_nil]
      simp
  | cons c k ih =>
      obtain ⟨hc, hk⟩ := List.forall_mem_cons.mp hk
      have heq : c ≠ '=' := by
        rintro rfl
        exact absurd hc (by decide)
      rw [List.cons_append, run, step, if_neg heq, d.isSpace_word c hc]
      simp [ih hk]

theorem run_value {v : List Char}
    (hv : ∀ c ∈ v, d.isSpace c = false ∧ c ≠ '\\') (k front rest : List Char) :
    run d (.value false false k front) (v ++ rest) =
      run d (.value false false k (front ++ v)) rest := by
  induction v generalizing front with
  | nil => rw [List.nil_append, List.append_nil]
  | cons c v ih =>
      obtain ⟨⟨hspace, hescape⟩, hv⟩ := List.forall_mem_cons.mp hv
      rw [List.cons_append, run, step, hspace, if_neg hescape]
      simp [ih hv]

/-- A setting is read up to the end of its value. -/
theorem run_setting {k v : List Char} (hne : k ≠ [])
    (hk : ∀ c ∈ k, c.isAlphanum = true) (hv : Plain d v) (rest : List Char) :
    run d .start (k ++ '=' :: (v ++ rest)) =
      run d (.value false false k v) rest := by
  obtain ⟨c, k, rfl⟩ := List.exists_cons_of_ne_nil hne
  obtain ⟨c', v, rfl⟩ := List.exists_cons_of_ne_nil hv.nonempty
  obtain ⟨hc, hk⟩ := List.forall_mem_cons.mp hk
  obtain ⟨⟨hspace, hescape⟩, hchars⟩ := List.forall_mem_cons.mp hv.chars
  have heq : c ≠ '=' := by
    rintro rfl
    exact absurd hc (by decide)
  have hquote : c' ≠ '\'' := by simpa using hv.unquoted
  have hstart : run d .start (c :: (k ++ '=' :: (c' :: v ++ rest))) =
      run d (.name [c]) (k ++ '=' :: (c' :: v ++ rest)) := by
    rw [run, step, d.isSpace_word c hc, if_neg heq]
    simp
  have hvalue : run d (.beforeValue (c :: k)) (c' :: (v ++ rest)) =
      run d (.value false false (c :: k) [c']) (v ++ rest) := by
    rw [run, step, hspace, if_neg hquote, if_neg hescape]
    simp
  rw [List.cons_append, hstart, run_name hk, List.cons_append,
    List.nil_append, List.cons_append, hvalue, run_value hchars,
    List.cons_append, List.nil_append]

/-- Keywords are words. -/
def IsKeyword (k : List Char) : Prop := k ≠ [] ∧ ∀ c ∈ k, c.isAlphanum = true

instance (k : List Char) : Decidable (IsKeyword k) :=
  decidable_of_iff (k ≠ [] ∧ k.all Char.isAlphanum = true)
    (and_congr_right fun _ => List.all_eq_true)

/-- A word is read as it stands. -/
theorem IsKeyword.plain {v : List Char} (h : IsKeyword v) : Plain d v where
  nonempty := h.1
  chars := by
    intro c hc
    refine ⟨d.isSpace_word c (h.2 c hc), ?_⟩
    rintro rfl
    exact absurd (h.2 _ hc) (by decide)
  unquoted := by
    intro hhead
    exact absurd (h.2 _ (List.mem_of_mem_head? hhead)) (by decide)

theorem parse_written {config : List Setting}
    (h : ∀ setting ∈ config, IsKeyword setting.1 ∧ Plain d setting.2) :
    parse d (written config) = some config := by
  induction config with
  | nil => rfl
  | cons setting config ih =>
      obtain ⟨⟨⟨hne, hk⟩, hv⟩, hconfig⟩ := List.forall_mem_cons.mp h
      rw [parse, written, run_setting hne hk hv]
      cases config with
      | nil =>
          rw [List.isEmpty_nil, if_pos rfl, run, finish, if_neg]
          exact fun hempty => hv.nonempty hempty.1
      | cons setting' config =>
          have hrest := ih hconfig
          rw [parse] at hrest
          rw [List.isEmpty_cons, if_neg (by simp), run, step,
            if_pos d.isSpace_space]
          simp [hrest]

/-- Settings with plain values are given back. -/
theorem givesBack_of_plain {config : List Setting}
    (hkeys : (config.map Prod.fst).Nodup)
    (h : ∀ setting ∈ config, IsKeyword setting.1 ∧ Plain d setting.2) :
    GivesBack d (written config) config := by
  refine ⟨config, parse_written h, ?_⟩
  intro setting
  rw [lastEntry_eq_some_iff_of_nodup hkeys]
  exact and_iff_left rfl

end Foundation.Conninfo
