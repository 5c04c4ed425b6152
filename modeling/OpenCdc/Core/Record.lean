import Mathlib.Data.List.Nodup
import OpenCdc.Core.Json

/-!
# Records as JSON objects

How the derived serializers write a record and read it back: a field that is
absent is skipped, a field that is missing is filled, and flattened entries
stand beside the fields.  Records are read from objects; the array form that
the readers also accept is never written.
-/

namespace OpenCdc.Json

/-! ## Writing -/

/-- The entries of the fields that are present. -/
def present (fields : List (String × Option Value)) : Map :=
  fields.filterMap fun (key, value) => value.map fun v => (key, v)

/-- The object of a record: its fields in order, then the flattened entries. -/
def record (fields : List (String × Option Value)) (extra : Map) : Map :=
  (present fields ++ extra).foldl
    (fun map entry => Map.insert map entry.1 entry.2) []

def ofI64 (n : Int64) : Value := Value.ofInt n.toInt

def ofU32 (n : UInt32) : Value := .number (.posInt n.toUInt64)

/-- An object of strings. -/
def ofStrings (entries : List (String × String)) : Value :=
  .object (entries.map fun (key, s) => (key, .string s))

/-! ## Reading -/

def readString : Value → Option String
  | .string s => some s
  | _ => none

def readBool : Value → Option Bool
  | .bool b => some b
  | _ => none

def readI64 : Value → Option Int64
  | .number (.posInt n) =>
      if n.toNat < 2 ^ 63 then some (Int64.ofNat n.toNat) else none
  | .number (.negInt n) => some n
  | _ => none

def readU32 : Value → Option UInt32
  | .number (.posInt n) =>
      if n.toNat < 2 ^ 32 then some n.toUInt32 else none
  | _ => none

def readStrings : Value → Option (List (String × String))
  | .object map => map.mapM fun (key, v) => (readString v).map fun s => (key, s)
  | _ => none

/-- The reader of an `Option`. -/
def readOption {α : Type} (read : Value → Option α) :
    Value → Option (Option α)
  | .null => some none
  | v => (read v).map some

namespace Map

variable {α : Type}

/-- A field that must be there. -/
def required (map : Map) (key : String) (read : Value → Option α) :
    Option α :=
  (map.get key).bind read

/-- A field that is filled with a default if it is missing. -/
def defaulted (map : Map) (key : String) (default : α)
    (read : Value → Option α) : Option α :=
  match map.get key with
  | some v => read v
  | none => some default

/-- A field of an `Option` type without a default. -/
def optional (map : Map) (key : String) (read : Value → Option α) :
    Option (Option α) :=
  map.defaulted key none (readOption read)

/-- The entries that a flattened field collects. -/
def leftover (map : Map) (names : List String) : Map :=
  map.filter fun entry => entry.1 ∉ names

end Map

/-! ## Values -/

@[simp] theorem readString_string (s : String) :
    readString (.string s) = some s := rfl

@[simp] theorem readBool_bool (b : Bool) : readBool (.bool b) = some b := rfl

@[simp] theorem readI64_ofI64 (n : Int64) : readI64 (ofI64 n) = some n := by
  have hlt := n.toInt_lt
  have hle := n.le_toInt
  unfold ofI64 Value.ofInt Number.ofInt
  by_cases hn : 0 ≤ n.toInt
  · have htoNat : n.toInt.toNat < 2 ^ 63 := by omega
    have hword : (UInt64.ofNat n.toInt.toNat).toNat = n.toInt.toNat := by
      rw [UInt64.toNat_ofNat', Nat.mod_eq_of_lt (by omega)]
    rw [if_pos hn, readI64, hword, if_pos htoNat]
    rw [← Int64.ofInt_eq_ofNat, Int.toNat_of_nonneg hn, Int64.ofInt_toInt]
  · rw [if_neg hn, readI64, Int64.ofInt_toInt]

@[simp] theorem readU32_ofU32 (n : UInt32) : readU32 (ofU32 n) = some n := by
  have hlt := n.toNat_lt
  simp [ofU32, readU32, hlt]

@[simp] theorem readStrings_ofStrings (entries : List (String × String)) :
    readStrings (ofStrings entries) = some entries := by
  unfold ofStrings readStrings
  induction entries with
  | nil => rfl
  | cons entry entries ih =>
      simp only [List.map_cons, List.mapM_cons, readString_string] at ih ⊢
      simp [ih]

/-! ## Looking fields up -/

theorem Map.get_eq_some_iff {map : Map} (h : (map.map Prod.fst).Nodup)
    {key : String} {v : Value} :
    map.get key = some v ↔ (key, v) ∈ map := by
  unfold Map.get
  constructor
  · intro hget
    obtain ⟨entry, hfind, rfl⟩ := Option.map_eq_some_iff.mp hget
    have hkey : entry.1 = key := by simpa using List.find?_some hfind
    rw [← hkey]
    exact List.mem_of_find?_eq_some hfind
  · intro hmem
    cases hfind : map.find? fun entry => entry.1 = key with
    | none =>
        have hnone := List.find?_eq_none.mp hfind _ hmem
        exact absurd (decide_eq_true rfl) hnone
    | some entry =>
        have hkey : entry.1 = key := by simpa using List.find?_some hfind
        have hentry := List.mem_of_find?_eq_some hfind
        have hsame := List.inj_on_of_nodup_map h hentry hmem hkey
        rw [hsame, Option.map_some]

theorem Map.get_eq_none_iff {map : Map} {key : String} :
    map.get key = none ↔ ∀ v, (key, v) ∉ map := by
  unfold Map.get
  rw [Option.map_eq_none_iff, List.find?_eq_none]
  constructor
  · intro h v hmem
    exact absurd (decide_eq_true rfl) (h _ hmem)
  · rintro h ⟨key', v⟩ hmem hkey
    have hsame : key' = key := by simpa using hkey
    exact h v (hsame ▸ hmem)

theorem mem_present {fields : List (String × Option Value)} {key : String}
    {v : Value} : (key, v) ∈ present fields ↔ (key, some v) ∈ fields := by
  unfold present
  simp only [List.mem_filterMap, Option.map_eq_some_iff, Prod.mk.injEq]
  constructor
  · rintro ⟨⟨key', value⟩, hmem, v', hv, rfl, rfl⟩
    rwa [← hv]
  · intro hmem
    exact ⟨(key, some v), hmem, v, rfl, rfl, rfl⟩

theorem mem_keys_present {fields : List (String × Option Value)}
    {key : String} :
    key ∈ (present fields).map Prod.fst ↔
      ∃ field ∈ fields, field.1 = key ∧ field.2.isSome := by
  rw [List.mem_map]
  constructor
  · rintro ⟨⟨key, v⟩, hmem, rfl⟩
    exact ⟨(key, some v), mem_present.mp hmem, rfl, rfl⟩
  · rintro ⟨⟨key, value⟩, hmem, rfl, hvalue⟩
    obtain ⟨v, rfl⟩ := Option.isSome_iff_exists.mp hvalue
    exact ⟨(key, v), mem_present.mpr hmem, rfl⟩

theorem forall_mem_keys_present {fields : List (String × Option Value)}
    {P : String → Prop} :
    (∀ key ∈ (present fields).map Prod.fst, P key) ↔
      ∀ field ∈ fields, field.2.isSome → P field.1 := by
  simp only [mem_keys_present]
  constructor
  · exact fun h field hmem hsome => h field.1 ⟨field, hmem, rfl, hsome⟩
  · rintro h key ⟨field, hmem, rfl, hsome⟩
    exact h field hmem hsome

theorem keys_present_sublist (fields : List (String × Option Value)) :
    ((present fields).map Prod.fst).Sublist (fields.map Prod.fst) := by
  induction fields with
  | nil => exact .slnil
  | cons field fields ih =>
      obtain ⟨key, value⟩ := field
      cases value with
      | none => exact ih.cons _
      | some v => exact ih.cons_cons _

section Fields

variable {fields : List (String × Option Value)} {extra : Map}

/-- Fields and flattened entries with different names stay as they are. -/
theorem record_eq
    (h : (fields.map Prod.fst ++ extra.map Prod.fst).Nodup) :
    record fields extra = present fields ++ extra := by
  apply Map.foldl_insert
  rw [List.map_append]
  exact h.sublist ((keys_present_sublist fields).append (.refl _))

theorem get_record
    (h : (fields.map Prod.fst ++ extra.map Prod.fst).Nodup) {key : String}
    (value : Option Value) (hmem : (key, value) ∈ fields) :
    Map.get (record fields extra) key = value := by
  rw [record_eq h]
  have hnodup : ((present fields ++ extra).map Prod.fst).Nodup := by
    rw [List.map_append]
    exact h.sublist ((keys_present_sublist fields).append (.refl _))
  cases value with
  | some v =>
      exact (Map.get_eq_some_iff hnodup).mpr
        (List.mem_append_left _ (mem_present.mpr hmem))
  | none =>
      apply Map.get_eq_none_iff.mpr
      intro v hv
      obtain ⟨hfields, -, hdisjoint⟩ := List.nodup_append.mp h
      rcases List.mem_append.mp hv with hpresent | hextra
      · have hsame := List.inj_on_of_nodup_map hfields hmem
          (mem_present.mp hpresent) rfl
        cases hsame
      · exact hdisjoint key (List.mem_map_of_mem hmem) key
          (List.mem_map_of_mem hextra) rfl

theorem leftover_record
    (h : (fields.map Prod.fst ++ extra.map Prod.fst).Nodup) :
    Map.leftover (record fields extra) (fields.map Prod.fst) = extra := by
  rw [record_eq h, Map.leftover, List.filter_append]
  obtain ⟨-, -, hdisjoint⟩ := List.nodup_append.mp h
  have hpresent : (present fields).filter
      (fun entry => entry.1 ∉ fields.map Prod.fst) = [] := by
    apply List.filter_eq_nil_iff.mpr
    intro entry hentry
    have hkey := (keys_present_sublist fields).subset
      (List.mem_map_of_mem hentry)
    simpa using hkey
  have hextra : extra.filter
      (fun entry => entry.1 ∉ fields.map Prod.fst) = extra := by
    apply List.filter_eq_self.mpr
    intro entry hentry
    have hnot : entry.1 ∉ fields.map Prod.fst := fun hmem =>
      hdisjoint _ hmem _ (List.mem_map_of_mem hentry) rfl
    exact decide_eq_true hnot
  rw [hpresent, hextra, List.nil_append]

end Fields

/-! ## Reading fields back -/

section ReadBack

variable {α : Type} {fields : List (String × Option Value)} {extra : Map}
  {key : String} {read : Value → Option α} (write : α → Value)

theorem required_record
    (h : (fields.map Prod.fst ++ extra.map Prod.fst).Nodup) {a : α}
    (hmem : (key, some (write a)) ∈ fields) (hread : read (write a) = some a) :
    Map.required (record fields extra) key read = some a := by
  rw [Map.required, get_record h _ hmem, Option.bind_some, hread]

theorem defaulted_record
    (h : (fields.map Prod.fst ++ extra.map Prod.fst).Nodup) {a : α}
    (default : α) (hmem : (key, some (write a)) ∈ fields)
    (hread : read (write a) = some a) :
    Map.defaulted (record fields extra) key default read = some a := by
  rw [Map.defaulted, get_record h _ hmem]
  exact hread

/-- A field of an `Option` type comes back, or else its default. -/
theorem defaulted_option_record
    (h : (fields.map Prod.fst ++ extra.map Prod.fst).Nodup) {a : Option α}
    (default : Option α) (hmem : (key, a.map write) ∈ fields)
    (hread : ∀ b, a = some b → write b ≠ .null ∧ read (write b) = some b) :
    Map.defaulted (record fields extra) key default (readOption read) =
      some (a.or default) := by
  rw [Map.defaulted, get_record h _ hmem]
  cases a with
  | none => rfl
  | some b =>
      obtain ⟨hnull, hb⟩ := hread b rfl
      simp only [Option.map_some, Option.some_or]
      unfold readOption
      split
      · exact absurd ‹_› hnull
      · rw [hb, Option.map_some]

theorem optional_record
    (h : (fields.map Prod.fst ++ extra.map Prod.fst).Nodup) {a : Option α}
    (hmem : (key, a.map write) ∈ fields)
    (hread : ∀ b, a = some b → write b ≠ .null ∧ read (write b) = some b) :
    Map.optional (record fields extra) key read = some a := by
  rw [Map.optional, defaulted_option_record write h none hmem hread,
    Option.or_none]

end ReadBack

theorem ofI64_spec (n : Int64) :
    ofI64 n ≠ .null ∧ readI64 (ofI64 n) = some n :=
  ⟨nofun, readI64_ofI64 n⟩

theorem ofU32_spec (n : UInt32) :
    ofU32 n ≠ .null ∧ readU32 (ofU32 n) = some n :=
  ⟨nofun, readU32_ofU32 n⟩

theorem string_spec (s : String) :
    Value.string s ≠ .null ∧ readString (.string s) = some s :=
  ⟨nofun, rfl⟩

theorem bool_spec (b : Bool) :
    Value.bool b ≠ .null ∧ readBool (.bool b) = some b :=
  ⟨nofun, rfl⟩

theorem ofStrings_spec (entries : List (String × String)) :
    ofStrings entries ≠ .null ∧
      readStrings (ofStrings entries) = some entries :=
  ⟨nofun, readStrings_ofStrings entries⟩

end OpenCdc.Json
