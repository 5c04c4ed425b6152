import OpenCdc.Core.Error
import OpenCdc.Core.Record
import OpenCdc.Foundation.Http
import OpenCdc.Schema.Naming
import OpenCdc.Serde.WireFormat

/-!
# The client of the schema registry

`SchemaRegistryClient` puts subjects and ids into its requests as they are.  The
requests tell its calls apart, and the tables of one prefix as far as their names
do; but of the ids that it is told the client keeps 32 bits.
-/

namespace OpenCdc

open Foundation Json

/-! ## Requests and responses -/

inductive HttpMethod where
  | get
  | post
  | delete
deriving DecidableEq, Repr

/-- A request; the token of the configuration is part of none. -/
structure RegistryRequest where
  method : HttpMethod
  url : String
  body : Option Value := none

/-- A status with its text, and the body as text. -/
structure RegistryResponse where
  status : ℕ
  statusText : String
  text : String

def RegistryResponse.isSuccess (response : RegistryResponse) : Bool :=
  200 ≤ response.status && response.status < 300

/-- `Response::json`, for the types that are read. -/
structure Decoder where
  value : String → Except String Value
  strings : String → Except String (List String)

/-- A request, and what the client makes of the response or of its absence. -/
structure RegistryCall (α : Type) where
  request : RegistryRequest
  result : Except String RegistryResponse → Except Error α

structure RegisteredSchema where
  id : UInt32
  version : UInt32
  subject : String
  schemaType : String
  schema : String
deriving DecidableEq, Repr

/-- `value[key]`, which is null if there is no such entry. -/
def index (value : Value) (key : String) : Value :=
  match value with
  | .object entries => (Map.get entries key).getD .null
  | _ => .null

def asU64 : Value → Option UInt64
  | .number (.posInt n) => some n
  | _ => none

/-! ## The client -/

/-- `SchemaRegistryConfig`, as far as requests depend on it. -/
structure SchemaRegistryConfig where
  url : String

namespace SchemaRegistryClient

/-- A response that says success. -/
def answered (refusal : RegistryResponse → String) :
    Except String RegistryResponse → Except Error RegistryResponse
  | .error e => .error (.other ("schema registry request failed: " ++ e))
  | .ok response =>
      if response.isSuccess then .ok response
      else .error (.other ("schema registry returned " ++ refusal response))

def parsed {α : Type} (read : String → Except String α) (response : RegistryResponse) :
    Except Error α :=
  match read response.text with
  | .error e =>
      .error (.deserialization
        ("failed to parse schema registry response: " ++ e))
  | .ok value => .ok value

def missing (field : String) : Error :=
  .deserialization ("schema registry response missing '" ++ field ++ "'")

/-- `as_u64` and `as u32`, or the error for a field that is missing. -/
def field32 (result : Value) (field : String) : Except Error UInt32 :=
  match asU64 (index result field) with
  | some n => .ok n.toUInt32
  | none => .error (missing field)

def fieldStr (result : Value) (field : String) : Except Error String :=
  match (index result field).asStr with
  | some s => .ok s
  | none => .error (missing field)

def schemaBody (schemaType schema : String) : Value :=
  .object [("schemaType", .string schemaType), ("schema", .string schema)]

variable (config : SchemaRegistryConfig) (decoder : Decoder)

def registerSubject (subject schemaType schema : String) :
    RegistryCall UInt32 where
  request :=
    { method := .post
      url := config.url ++ "/subjects/" ++ subject ++ "/versions"
      body := some (schemaBody schemaType schema) }
  result sent := do
    let response ← answered (fun response =>
      response.statusText ++ ": " ++ response.text) sent
    let result ← parsed decoder.value response
    field32 result "id"

/-- What `get_schema_by_id` and `get_latest_schema` read. -/
def registeredSchema (result : Value) : Except Error RegisteredSchema := do
  let id ← field32 result "id"
  let version ← field32 result "version"
  let subject ← fieldStr result "subject"
  let schemaType := (index result "schemaType").asStr.getD "AVRO"
  let schema ← fieldStr result "schema"
  return { id, version, subject, schemaType, schema }

def getSchemaById (id : UInt32) : RegistryCall RegisteredSchema where
  request :=
    { method := .get
      url := config.url ++ "/schemas/ids/" ++ toString id.toNat }
  result sent := do
    let response ← answered (fun response =>
      response.statusText ++ " for schema id " ++ toString id.toNat) sent
    let result ← parsed decoder.value response
    registeredSchema result

def getLatestSchema (subject : String) : RegistryCall RegisteredSchema where
  request :=
    { method := .get
      url := config.url ++ "/subjects/" ++ subject ++ "/versions/latest" }
  result sent := do
    let response ← answered (fun response =>
      response.statusText ++ " for subject " ++ subject) sent
    let result ← parsed decoder.value response
    registeredSchema result

def subjects : RegistryCall (List String) where
  request := { method := .get, url := config.url ++ "/subjects" }
  result sent := do
    let response ← answered (·.statusText) sent
    parsed decoder.strings response

def deleteSubject (subject : String) : RegistryCall Unit where
  request :=
    { method := .delete
      url := config.url ++ "/subjects/" ++ subject }
  result sent := do
    let _response ← answered (fun response =>
      response.statusText ++ " for subject " ++ subject) sent
    return ()

def checkCompatibility (subject schemaType schema : String) :
    RegistryCall Bool where
  request :=
    { method := .post
      url := config.url ++ "/compatibility/subjects/" ++ subject ++
        "/versions/latest"
      body := some (schemaBody schemaType schema) }
  result sent := do
    let response ← answered (·.statusText) sent
    let result ← parsed decoder.value response
    return (readBool (index result "is_compatible")).getD false

end SchemaRegistryClient

/-! ## What a registry is asked for -/

/-- A call of the client. -/
inductive ClientCall where
  | register (subject schemaType schema : String)
  | schemaById (id : UInt32)
  | latest (subject : String)
  | subjects
  | delete (subject : String)
  | compatibility (subject schemaType schema : String)

namespace ClientCall

open SchemaRegistryClient

def request (config : SchemaRegistryConfig) (decoder : Decoder) :
    ClientCall → RegistryRequest
  | register subject schemaType schema =>
      (registerSubject config decoder subject schemaType schema).request
  | schemaById id => (getSchemaById config decoder id).request
  | latest subject => (getLatestSchema config decoder subject).request
  | subjects => (SchemaRegistryClient.subjects config decoder).request
  | delete subject => (deleteSubject config subject).request
  | compatibility subject schemaType schema =>
      (checkCompatibility config decoder subject schemaType schema).request

/-- The segments behind the URL of the registry. -/
def path : ClientCall → List String
  | register subject _ _ => ["subjects", subject, "versions"]
  | schemaById id => ["schemas", "ids", toString id.toNat]
  | latest subject => ["subjects", subject, "versions", "latest"]
  | subjects => ["subjects"]
  | delete subject => ["subjects", subject]
  | compatibility subject _ _ =>
      ["compatibility", "subjects", subject, "versions", "latest"]

theorem toList_url (config : SchemaRegistryConfig) (decoder : Decoder)
    (call : ClientCall) :
    (call.request config decoder).url.toList =
      config.url.toList ++ call.path.flatMap fun segment => '/' :: segment.toList := by
  cases call with
  | subjects => simp [request, SchemaRegistryClient.subjects, path]
  | schemaById id => simp [request, getSchemaById, path]
  | delete subject => simp [request, deleteSubject, path]
  | register subject schemaType schema => simp [request, registerSubject, path]
  | latest subject => simp [request, getLatestSchema, path]
  | compatibility subject schemaType schema =>
      simp [request, checkCompatibility, path]

/-- The requests of two different calls differ in the method, in the URL or in
the body. -/
theorem request_inj {config : SchemaRegistryConfig} {decoder : Decoder}
    {call call' : ClientCall} :
    call.request config decoder = call'.request config decoder ↔ call = call' := by
  constructor
  · intro h
    have hmethod := congrArg RegistryRequest.method h
    have hbody := congrArg RegistryRequest.body h
    -- the words of the paths tell the calls of one method apart
    have hpath := congrArg (fun request => request.url.toList) h
    simp only [toList_url, List.append_cancel_left_eq] at hpath
    cases call with
    | register subject schemaType schema =>
        cases call' with
        | register subject' schemaType' schema' =>
            simpa [path, String.toList_inj, request, registerSubject, schemaBody]
              using And.intro hpath hbody
        | compatibility subject' schemaType' schema' => simp [path] at hpath
        | _ => cases hmethod
    | compatibility subject schemaType schema =>
        cases call' with
        | compatibility subject' schemaType' schema' =>
            simpa [path, String.toList_inj, request, checkCompatibility, schemaBody]
              using And.intro hpath hbody
        | register subject' schemaType' schema' => simp [path] at hpath
        | _ => cases hmethod
    | delete subject =>
        cases call' with
        | delete subject' => simpa [path, String.toList_inj] using hpath
        | _ => cases hmethod
    | schemaById id =>
        cases call' with
        | schemaById id' =>
            simpa [path, toDigits_inj, UInt32.toNat_inj] using hpath
        | latest subject' => simp [path] at hpath
        | subjects => simp [path] at hpath
        | _ => cases hmethod
    | latest subject =>
        cases call' with
        | latest subject' => simpa [path, String.toList_inj] using hpath
        | schemaById id' => simp [path] at hpath
        | subjects => simp [path] at hpath
        | _ => cases hmethod
    | subjects =>
        cases call' with
        | subjects => rfl
        | schemaById id' => simp [path] at hpath
        | latest subject' => simp [path] at hpath
        | _ => cases hmethod
  · rintro rfl
    rfl

end ClientCall

/-! ## The subjects of tables -/

/-- A call that is about a subject. -/
inductive SubjectCall where
  | register (schemaType schema : String)
  | latest
  | delete
  | compatibility (schemaType schema : String)

def SubjectCall.on (subject : String) : SubjectCall → ClientCall
  | register schemaType schema => .register subject schemaType schema
  | latest => .latest subject
  | delete => .delete subject
  | compatibility schemaType schema => .compatibility subject schemaType schema

theorem SubjectCall.on_inj {subject subject' : String} {call call' : SubjectCall} :
    call.on subject = call'.on subject' ↔ subject = subject' ∧ call = call' := by
  cases call <;> cases call' <;> simp [on]

/-- The two subjects that a table has. -/
inductive SubjectKind where
  | value
  | key

def SubjectKind.subject (pre : String) (schema : Option String)
    (table : String) : SubjectKind → String
  | value => DebeziumNaming.valueSubject pre schema table
  | key => DebeziumNaming.keySubject pre schema table

def SubjectKind.suffix : SubjectKind → String
  | value => "value"
  | key => "key"

theorem SubjectKind.subject_eq (kind : SubjectKind) (pre : String)
    (schema : Option String) (table : String) :
    kind.subject pre schema table =
      DebeziumNaming.topicName pre schema table ++ "-" ++ kind.suffix := by
  cases kind <;> rfl

theorem SubjectKind.subject_inj {pre db db' table table' : String}
    {schema schema' : Option String} {kind kind' : SubjectKind}
    (h : DotFree db schema table) (h' : DotFree db' schema' table') :
    kind.subject pre schema table = kind'.subject pre schema' table' ↔
      kind = kind' ∧ schema = schema' ∧ table = table' := by
  rw [subject_eq, subject_eq]
  constructor
  · intro heq
    have hkind : kind = kind' := by
      have hlast := congrArg (fun name : String => name.toList.getLast?) heq
      cases kind <;> cases kind' <;> simp [suffix] at hlast ⊢
    obtain rfl := hkind
    rw [String.append_left_inj, String.append_left_inj] at heq
    exact ⟨rfl, (DebeziumNaming.topicName_inj h h').mp heq⟩
  · rintro ⟨rfl, rfl, rfl⟩
    rfl

/-- Under one prefix the requests tell apart what the names of the tables tell
apart; the database is no part of them. -/
theorem request_subject_inj {config : SchemaRegistryConfig} {decoder : Decoder}
    {call call' : SubjectCall} {kind kind' : SubjectKind}
    {pre db db' table table' : String} {schema schema' : Option String}
    (h : DotFree db schema table) (h' : DotFree db' schema' table') :
    (call.on (kind.subject pre schema table)).request config decoder =
        (call'.on (kind'.subject pre schema' table')).request config decoder ↔
      call = call' ∧ kind = kind' ∧ schema = schema' ∧ table = table' := by
  rw [ClientCall.request_inj, SubjectCall.on_inj, SubjectKind.subject_inj h h']
  exact and_comm

/-- The registry of the default configuration. -/
def localRegistry : SchemaRegistryConfig where
  url := "http://localhost:8081"

/-- A decoder of a registry that gives the id 7. -/
def sevenDecoder : Decoder :=
  ⟨fun _ => .ok (.object [("id", .number (.posInt 7))]), fun _ => .error "no"⟩

/-- Registering the values of `orders` is another request than registering its
keys. -/
theorem request_subject_inj_orders :
    ((SubjectCall.register "AVRO" "{}").on
        (SubjectKind.value.subject "cdc" (some "public") "orders")).request
          localRegistry sevenDecoder ≠
      ((SubjectCall.register "AVRO" "{}").on
        (SubjectKind.key.subject "cdc" (some "public") "orders")).request
          localRegistry sevenDecoder := by
  have hfree : DotFree "shop" (some "public") "orders" :=
    ⟨by decide, by simp, by decide⟩
  intro h
  cases ((request_subject_inj hfree hfree).mp h).2.1

/-! ## Ids -/

namespace SchemaRegistryClient

theorem registerSubject_eq_ok {config : SchemaRegistryConfig} {decoder : Decoder}
    {subject schemaType schema : String}
    {sent : Except String RegistryResponse} {id : UInt32}
    (h : (registerSubject config decoder subject schemaType schema).result sent =
      .ok id) :
    ∃ response value registered, sent = .ok response ∧
      decoder.value response.text = .ok value ∧
      asU64 (index value "id") = some registered ∧ id = registered.toUInt32 := by
  rcases sent with e | response
  · cases h
  · simp only [registerSubject, answered, bind, Except.bind] at h
    split_ifs at h
    · rcases hvalue : decoder.value response.text with e | value <;>
        simp only [parsed, hvalue] at h
      · cases h
      · rcases hid : asU64 (index value "id") with _ | registered <;>
          simp only [field32, hid] at h
        · cases h
        · exact ⟨response, value, registered, rfl, hvalue, hid,
            (Except.ok.inj h).symm⟩

theorem url_getSchemaById_iff {config : SchemaRegistryConfig} {decoder : Decoder}
    {id : UInt32} {n : ℕ} :
    (getSchemaById config decoder id).request.url =
        config.url ++ "/schemas/ids/" ++ toString n ↔ id.toNat = n := by
  rw [← toDigits_inj, ← String.toList_inj]
  simp [getSchemaById]

/-- A consumer of a message asks the registry for the id that the registry gave
the schema exactly if the id has 32 bits. -/
theorem url_of_registerSubject {config : SchemaRegistryConfig} {decoder : Decoder}
    {subject schemaType schema : String}
    {sent : Except String RegistryResponse} {id : UInt32}
    (h : (registerSubject config decoder subject schemaType schema).result sent =
      .ok id) (payload : Bytes) :
    ∃ response value registered, sent = .ok response ∧
      decoder.value response.text = .ok value ∧
      asU64 (index value "id") = some registered ∧
      ∃ read, SchemaRegistryWireFormat.decode
          (SchemaRegistryWireFormat.encode id payload) = .ok (read, payload) ∧
        ((getSchemaById config decoder read).request.url =
            config.url ++ "/schemas/ids/" ++ toString registered.toNat ↔
          registered.toNat < 2 ^ 32) := by
  obtain ⟨response, value, registered, hsent, hvalue, hid, rfl⟩ :=
    registerSubject_eq_ok h
  refine ⟨response, value, registered, hsent, hvalue, hid, _,
    SchemaRegistryWireFormat.decode_encode _ payload, ?_⟩
  rw [url_getSchemaById_iff, UInt64.toNat_toUInt32]
  omega

theorem url_of_registerSubject_seven :
    ∃ read, SchemaRegistryWireFormat.decode
        (SchemaRegistryWireFormat.encode 7 [1, 2]) = .ok (read, [1, 2]) ∧
      (getSchemaById localRegistry sevenDecoder read).request.url =
        localRegistry.url ++ "/schemas/ids/" ++ toString 7 := by
  have hregistered : (registerSubject localRegistry sevenDecoder
      "users-value" "AVRO" "{}").result (.ok ⟨200, "200 OK", "id"⟩) = .ok 7 := rfl
  obtain ⟨response, value, registered, hsent, hvalue, hid, read, hread, hasks⟩ :=
    url_of_registerSubject hregistered [1, 2]
  obtain rfl := Except.ok.inj hvalue
  obtain rfl := Option.some.inj
    (hid.symm.trans (rfl : _ = some (7 : UInt64)))
  exact ⟨read, hread, hasks.mpr (by decide)⟩

end SchemaRegistryClient
end OpenCdc
