import OpenCdc.Core.Error
import OpenCdc.Core.EventJson

/-!
# The JSON format of events

`DebeziumJsonSerde` over values, and what comes back of an event.  The text of
a failed read is the library's and stays a parameter.
-/

namespace OpenCdc.DebeziumJsonSerde

open Foundation Json

def serialize (event : ChangeEvent) : Outcome Error Value := .ok event.toJson

def deserialize (describe : Value → String) (value : Value) :
    Outcome Error ChangeEvent :=
  match ChangeEvent.ofJson value with
  | some event => .ok event
  | none => .error (.deserialization (describe value))

/-- The event that is read is the event that was written. -/
def RoundTrips (describe : Value → String) (event : ChangeEvent) : Prop :=
  serialize event >>= deserialize describe = .ok event

theorem serialize_bind_deserialize (describe : Value → String)
    {event : ChangeEvent} (h : event.JsonFits) :
    serialize event >>= deserialize describe = .ok event.readBack := by
  rw [serialize, Outcome.ok_bind, deserialize, ChangeEvent.ofJson_toJson h]

/-- An event comes back unless its source block has no schema, which is then
filled, or its own schema has an unknown type under the name of a known one. -/
theorem roundTrips_iff (describe : Value → String) {event : ChangeEvent}
    (h : event.JsonFits) :
    RoundTrips describe event ↔
      event.payload.source.schema.isSome ∧
        ∀ schema, event.schema = some schema → ∀ name,
          schema.schemaType = .unknown name →
            name ∉ DebeziumSchemaType.variantNames := by
  rw [RoundTrips, serialize_bind_deserialize describe h, Outcome.ok.injEq,
    ChangeEvent.readBack_eq_iff]
  simp only [DebeziumSchema.normalized_eq_iff,
    DebeziumSchemaType.fromStr_asStr_iff]

/-- An insert into the orders of a MySQL database. -/
def ordersInsert (schema : Option String) : ChangeEvent :=
  .create (.object [("order_id", .ofInt 42)])
    { SourceInfo.new .mysql "mydb" schema "orders" 0 with extra := some [] } 0

theorem jsonFits_ordersInsert (schema : Option String) :
    (ordersInsert schema).JsonFits where
  extra := ⟨[], rfl, by simp [SourceInfo.ExtraFits, SourceInfo.fieldNames]⟩
  before := by simp [ordersInsert, ChangeEvent.create, ChangeEvent.new]
  after := by simp [ordersInsert, ChangeEvent.create, ChangeEvent.new]
  defaults := by simp [ordersInsert, ChangeEvent.create, ChangeEvent.new]

theorem roundTrips_ordersInsert :
    RoundTrips (fun _ => "") (ordersInsert (some "public")) := by
  apply (roundTrips_iff (fun _ => "") (jsonFits_ordersInsert _)).mpr
  simp [ordersInsert, ChangeEvent.create, ChangeEvent.new, SourceInfo.new]

/-- The connector writes no schema, and the schema `public` comes back. -/
theorem not_roundTrips_ordersInsert :
    (ordersInsert none).JsonFits ∧
      ¬ RoundTrips (fun _ => "") (ordersInsert none) := by
  refine ⟨jsonFits_ordersInsert none, ?_⟩
  rw [RoundTrips, serialize_bind_deserialize _ (jsonFits_ordersInsert none),
    Outcome.ok.injEq, ChangeEvent.readBack_eq_iff]
  simp [ordersInsert, ChangeEvent.create, ChangeEvent.new, SourceInfo.new]

end OpenCdc.DebeziumJsonSerde
