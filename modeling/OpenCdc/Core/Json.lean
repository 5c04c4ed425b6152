import OpenCdc.Foundation.Ieee

/-!
# JSON values

The value type every event carries its rows in.  An object keeps its entries
in insertion order; inserting an existing key replaces its value.
-/

namespace OpenCdc.Json

open Foundation

/-- A JSON number: a natural number, a negative integer, or a finite double
given by its bit pattern. -/
inductive Number where
  | posInt (n : UInt64)
  | negInt (n : Int64)
  | float (bits : UInt64)
deriving DecidableEq, Repr

/-- `Number::from` for the integer types. -/
def Number.ofInt (n : ℤ) : Number :=
  if 0 ≤ n then posInt (UInt64.ofNat n.toNat) else negInt (Int64.ofInt n)

inductive Value where
  | null
  | bool (b : Bool)
  | number (n : Number)
  | string (s : String)
  | array (values : List Value)
  | object (entries : List (String × Value))
deriving Repr, Inhabited

namespace Value

def ofInt (n : ℤ) : Value := number (Number.ofInt n)

/-- `Value::from(f64)`: infinities and NaNs have no JSON number. -/
def ofF64 (pattern : ℕ) : Value :=
  if Ieee.isFinite Ieee.binary64 pattern then
    number (.float (UInt64.ofNat pattern))
  else null

/-- `Value::from(f32)`: the number is kept as a double. -/
def ofF32 (pattern : ℕ) : Value :=
  if Ieee.isFinite Ieee.binary32 pattern then
    number (.float (UInt64.ofNat
      (Ieee.convert Ieee.binary32 Ieee.binary64 pattern)))
  else null

def asStr : Value → Option String
  | string s => some s
  | _ => none

end Value

/-- The white space that may stand around a JSON text. -/
def isJsonSpace (c : Char) : Bool :=
  c = ' ' || c = '\t' || c = '\n' || c = '\r'

/-- `serde_json::Map` -/
abbrev Map := List (String × Value)

namespace Map

def get (map : Map) (key : String) : Option Value :=
  (map.find? fun entry => entry.1 = key).map Prod.snd

def insert : Map → String → Value → Map
  | [], key, value => [(key, value)]
  | (k, v) :: map, key, value =>
      if k = key then (k, value) :: map else (k, v) :: insert map key value

theorem insert_of_fresh {map : Map} {key : String} (value : Value)
    (h : ∀ entry ∈ map, entry.1 ≠ key) :
    insert map key value = map ++ [(key, value)] := by
  induction map with
  | nil => rfl
  | cons entry map ih =>
      obtain ⟨k, v⟩ := entry
      have hk : k ≠ key := h (k, v) List.mem_cons_self
      rw [insert, if_neg hk, ih fun e he => h e (List.mem_cons_of_mem _ he)]
      rfl

theorem get_insert_self (map : Map) (key : String) (value : Value) :
    get (insert map key value) key = some value := by
  induction map with
  | nil => simp [insert, get]
  | cons entry map ih =>
      obtain ⟨k, v⟩ := entry
      by_cases hk : k = key
      · rw [insert, if_pos hk]
        simp [get, hk]
      · rw [insert, if_neg hk]
        simpa [get, hk] using ih

theorem get_insert_of_ne {map : Map} {k key : String} (value : Value)
    (h : k ≠ key) : get (insert map k value) key = get map key := by
  induction map with
  | nil => simp [insert, get, h]
  | cons entry map ih =>
      obtain ⟨k', value'⟩ := entry
      by_cases hk : k' = k
      · rw [insert, if_pos hk]
        simp [get, hk, h]
      · rw [insert, if_neg hk]
        by_cases hkey : k' = key
        · simp [get, hkey]
        · simpa [get, hkey] using ih

/-- Inserting entries with different keys one after the other. -/
theorem foldl_insert {entries : Map} (h : (entries.map Prod.fst).Nodup) :
    entries.foldl (fun map entry => insert map entry.1 entry.2) [] =
      entries := by
  have hfold : ∀ (front back : Map), ((front ++ back).map Prod.fst).Nodup →
      back.foldl (fun map entry => insert map entry.1 entry.2) front =
        front ++ back := by
    intro front back
    induction back generalizing front with
    | nil => simp
    | cons entry back ih =>
        intro hnodup
        have hfresh : ∀ e ∈ front, e.1 ≠ entry.1 := by
          intro e he heq
          rw [List.map_append, List.nodup_append] at hnodup
          exact hnodup.2.2 _ (List.mem_map_of_mem he) _
            (by simp) heq
        rw [List.foldl_cons, insert_of_fresh _ hfresh, ih]
        · simp
        · simpa using hnodup
  exact hfold [] entries h

end Map
end OpenCdc.Json
