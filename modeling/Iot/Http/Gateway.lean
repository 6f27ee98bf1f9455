import Iot.Listing.Cursors
import Iot.Text.Paths

/-!
# The management API as a gateway

The REST server of `internal/adminapi/server.go` turns requests into calls of `iot-core`. The router
looks the route up by the cleaned path of a request; the bearer token is then checked by
`BearerTokenMiddlewareWithTenants` (`internal/platform/http_auth.go`), which reads the path as it
came and hands what it has read to the handler of the route.

The router is that of the web framework, and here a parameter: `Router.Dispatches` is what is
assumed of it. `serve` is the whole way of a request up to its call: the call that is made, or the
reply that is sent without one. What the gateway makes of the answer of a call is left out.
-/

namespace Iot.Http

open Text Json Contracts Platform Iot.Core Listing Data

/-- What the gateway takes from the libraries: `time.Parse`, timestamps, the texts of the errors of
`strconv.Atoi` and `Timestamp.CheckValid`, and the JSON of the embedded schema. -/
structure Libraries where
  parseTime : Bytes → Option Time
  timestamppb : Timestamppb
  atoiText : Bytes → Bytes
  checkValidText : Timestamp → Bytes
  envelopeSchema : List Tok

/-- Libraries to evaluate the model with. -/
def Libraries.plain : Libraries := ⟨parseRFC3339, .plain, id, fun _ => [], []⟩

/-! ## Calls -/

/-- The calls of `iot-core` that the gateway makes. -/
inductive CoreCall where
  | createTenant (id name : Bytes)
  | listTenants (pageSize : Int) (cursor : Bytes)
  | createDevice (tenantID deviceID productID secret : Bytes)
  | listDevices (pageSize : Int) (cursor tenantID : Bytes)
  | getDevice (tenantID deviceID : Bytes)
  | getDeviceStatus (tenantID deviceID : Bytes)
  | listTelemetry (args : ListArgs)
  | ingestTelemetry (msgID tenantID deviceID : Bytes) (ts : Int) (type version payload : Bytes)
  | createCommand (tenantID deviceID payload idempotencyKey : Bytes)
  | listCommands (args : ListArgs)
  | getCommand (id tenantID : Bytes)
  | ackCommand (id tenantID deviceID : Bytes) (result : CommandResult)
  deriving DecidableEq, Repr

/-- The tenant a call names. -/
def CoreCall.tenantID : CoreCall → Option Bytes
  | .createTenant .. | .listTenants .. => none
  | .createDevice tenantID .. | .listDevices _ _ tenantID | .getDevice tenantID _
  | .getDeviceStatus tenantID _ | .ingestTelemetry _ tenantID .. | .createCommand tenantID ..
  | .getCommand _ tenantID | .ackCommand _ tenantID .. => some tenantID
  | .listTelemetry args | .listCommands args => some args.tenant

/-- What a handler does: make a call, or reply without one. -/
abbrev Outcome := Except HttpReply CoreCall

/-- Reply with an error. -/
def refuse {α : Type} (status : Nat) (message : Bytes) : Except HttpReply α :=
  .error (writeError status message)

/-- Reply with an error of a check. -/
def orRefuse {α : Type} (status : Nat) : Except GoError α → Except HttpReply α
  | .ok value => .ok value
  | .error err => refuse status err.text

/-! ## Reading a request -/

variable (go : GoRuntime) (lib : Libraries)

/-- `maxRequestBodyBytes`. -/
def maxRequestBodyBytes : Nat := 1048576

/-- `decodeJSON` of a body behind `limitRequestBodyMiddleware`. The type of the record has no name,
so that the paths of its fields start with a dot. -/
def decodeJSON {α : Type} (fields : List (RecordField α)) (typeName : String) (zero : α)
    (body : Bytes) : Except GoError α := do
  returnIf (body.length > maxRequestBodyBytes) (.new "http: request body too large")
  decodeRequestJSON go fields typeName zero body

/-- `ManagementRequest` of a request that may carry its parameters. -/
def contextRequest (carried : Option Parameters) (r : Request) : Except GoError Parameters :=
  match carried with
  | some params => .ok params
  | none => managementRequest go r

/-- `requestParameters`. -/
def requestParameters (carried : Option Parameters) (r : Request) :
    Except HttpReply Parameters :=
  match contextRequest go carried r with
  | .ok params => .ok params
  | .error err => refuse (if err.is .notFound then 404 else 400) err.text

/-- `pageFromRequest`. -/
def pageFromRequest (carried : Option Parameters) (r : Request) : Except GoError (Int × Bytes) := do
  let params ← contextRequest go carried r
  let raw := params.query.get (ascii "pageSize")
  let size ←
    if raw = [] then pure 0
    else
      match atoi raw with
      | some size => pure size
      | none => throw ⟨lib.atoiText raw, []⟩
  let page ← normalizePageRequest size (params.query.get (ascii "cursor"))
  pure (page.size, page.cursor)

/-- One of the bounds of `requestTimes`. -/
def requestTime (raw : Bytes) : Except GoError (Option Timestamp) :=
  if raw = [] then .ok none
  else
    match lib.parseTime raw with
    | none => .error (.new "time filters must be RFC3339 with at most millisecond precision")
    | some stamp => do
        returnIf (nanosecond stamp % 1000000 ≠ 0)
          (.new "time filters must be RFC3339 with at most millisecond precision")
        let value := lib.timestamppb.new stamp
        returnIf (!lib.timestamppb.checkValid value) ⟨lib.checkValidText value, []⟩
        pure (some value)

/-- `requestTimes`. -/
def requestTimes (start finish : Bytes) :
    Except GoError (Option Timestamp × Option Timestamp) := do
  let a ← requestTime lib start
  let b ← requestTime lib finish
  pure (a, b)

/-- `commandDeviceFilter`. -/
def commandDeviceFilter (params : Parameters) : Bytes :=
  if params.deviceID ≠ [] then params.deviceID else params.query.get (ascii "deviceId")

/-! ## Bodies -/

/-- The body of `createTenantHandler`. -/
structure TenantBody where
  id : Bytes
  name : Bytes

/-- Its fields in JSON. -/
def TenantBody.fields : List (RecordField TenantBody) :=
  [strField ".id" "id" "string" fun v b => { b with id := v },
    strField ".name" "name" "string" fun v b => { b with name := v }]

/-- The body of `createDeviceHandler`. -/
structure DeviceBody where
  deviceID : Bytes
  productID : Bytes
  secret : Bytes

/-- Its fields in JSON. -/
def DeviceBody.fields : List (RecordField DeviceBody) :=
  [strField ".deviceId" "deviceId" "string" fun v b => { b with deviceID := v },
    strField ".productId" "productId" "string" fun v b => { b with productID := v },
    strField ".secret" "secret" "string" fun v b => { b with secret := v }]

/-- The body of `ingestTelemetryHandler`. -/
structure TelemetryBody where
  msgID : Bytes
  ts : Int
  type : Bytes
  version : Bytes
  payload : Bytes

/-- Its fields in JSON. -/
def TelemetryBody.fields : List (RecordField TelemetryBody) :=
  [strField ".msgId" "msgId" "string" fun v b => { b with msgID := v },
    intField ".ts" "ts" "int64" fun v b => { b with ts := v },
    strField ".type" "type" "string" fun v b => { b with type := v },
    strField ".version" "version" "string" fun v b => { b with version := v },
    rawField "payload" fun v b => { b with payload := v }]

/-- The body of `createCommandHandler`, which has one field. -/
def commandBodyFields : List (RecordField Bytes) := [rawField "payload" fun v _ => v]

/-- The fields of the body of `ackCommandHandler`. -/
def resultBodyFields : List (RecordField CommandResult) :=
  [strField "CommandResult.status" "status" "contracts.CommandStatus"
      fun v r => { r with status := v },
    strField "CommandResult.errorCode" "errorCode" "string" fun v r => { r with errorCode := v },
    rawField "payload" fun v r => { r with payload := v }]

/-! ## Handlers -/

/-- `healthHandler`. -/
def healthHandler : Outcome :=
  .error (writeJSON 200
    (.ok (object [("serviceName", strTok (ascii "management-api")),
      ("status", strTok (ascii "ok"))])))

/-- `readyHandler`. -/
def readyHandler : Outcome := .ok (.listTenants 1 [])

/-- `mqttEnvelopeSchemaHandler`. -/
def mqttEnvelopeSchemaHandler : Outcome := .error (writeJSON 200 (.ok lib.envelopeSchema))

/-- `createTenantHandler`. -/
def createTenantHandler (r : Request) : Outcome := do
  let req ← orRefuse 400 (decodeJSON go TenantBody.fields "struct" ⟨[], []⟩ r.body)
  pure (.createTenant req.id req.name)

/-- `listTenantsHandler`. -/
def listTenantsHandler (carried : Option Parameters) (r : Request) : Outcome := do
  let (pageSize, cursor) ← orRefuse 400 (pageFromRequest go lib carried r)
  pure (.listTenants pageSize cursor)

/-- `createDeviceHandler`. -/
def createDeviceHandler (carried : Option Parameters) (r : Request) : Outcome := do
  let params ← requestParameters go carried r
  let req ← orRefuse 400 (decodeJSON go DeviceBody.fields "struct" ⟨[], [], []⟩ r.body)
  pure (.createDevice params.tenantID req.deviceID req.productID req.secret)

/-- `listDevicesHandler`. -/
def listDevicesHandler (carried : Option Parameters) (r : Request) : Outcome := do
  let params ← requestParameters go carried r
  let (pageSize, cursor) ← orRefuse 400 (pageFromRequest go lib carried r)
  pure (.listDevices pageSize cursor params.tenantID)

/-- `getDeviceHandler`. -/
def getDeviceHandler (carried : Option Parameters) (r : Request) : Outcome := do
  let params ← requestParameters go carried r
  pure (.getDevice params.tenantID params.deviceID)

/-- `getDeviceStatusHandler`. -/
def getDeviceStatusHandler (carried : Option Parameters) (r : Request) : Outcome := do
  let params ← requestParameters go carried r
  pure (.getDeviceStatus params.tenantID params.deviceID)

/-- `listTelemetryHandler`. -/
def listTelemetryHandler (carried : Option Parameters) (r : Request) : Outcome := do
  let params ← requestParameters go carried r
  let (pageSize, cursor) ← orRefuse 400 (pageFromRequest go lib carried r)
  let (start, finish) ← orRefuse 400
    (requestTimes lib (params.query.get (ascii "startTime")) (params.query.get (ascii "endTime")))
  pure (.listTelemetry
    { size := pageSize, cursor := cursor, tenant := params.tenantID, device := params.deviceID,
      start := start, finish := finish, sort := params.query.get (ascii "sort"),
      kindFilter := params.query.get (ascii "type"), state := [] })

/-- `ingestTelemetryHandler`. -/
def ingestTelemetryHandler (carried : Option Parameters) (r : Request) : Outcome := do
  let params ← requestParameters go carried r
  let req ← orRefuse 400 (decodeJSON go TelemetryBody.fields "struct" ⟨[], 0, [], [], []⟩ r.body)
  pure (.ingestTelemetry req.msgID params.tenantID params.deviceID req.ts req.type req.version
    req.payload)

/-- `createCommandHandler`. -/
def createCommandHandler (carried : Option Parameters) (r : Request) : Outcome := do
  let params ← requestParameters go carried r
  let payload ← orRefuse 400 (decodeJSON go commandBodyFields "struct" [] r.body)
  pure (.createCommand params.tenantID params.deviceID payload (r.idempotencyKeys.headD []))

/-- `listCommandsHandler`. -/
def listCommandsHandler (carried : Option Parameters) (r : Request) : Outcome := do
  let params ← requestParameters go carried r
  let (pageSize, cursor) ← orRefuse 400 (pageFromRequest go lib carried r)
  let (start, finish) ← orRefuse 400
    (requestTimes lib (params.query.get (ascii "startTime")) (params.query.get (ascii "endTime")))
  pure (.listCommands
    { size := pageSize, cursor := cursor, tenant := params.tenantID,
      device := commandDeviceFilter params, start := start, finish := finish,
      sort := params.query.get (ascii "sort"), kindFilter := [],
      state := params.query.get (ascii "status") })

/-- `getCommandHandler`. -/
def getCommandHandler (carried : Option Parameters) (r : Request) : Outcome := do
  let params ← requestParameters go carried r
  pure (.getCommand params.commandID params.tenantID)

/-- `ackCommandHandler`. -/
def ackCommandHandler (carried : Option Parameters) (r : Request) : Outcome := do
  let params ← requestParameters go carried r
  let req ← orRefuse 400
    (decodeJSON go resultBodyFields "contracts.CommandResult" ⟨[], [], []⟩ r.body)
  pure (.ackCommand params.commandID params.tenantID params.deviceID req)

/-! ## The router -/

/-- `rest.Route`. -/
structure Route where
  method : Bytes
  path : Bytes
  handler : Option Parameters → Request → Outcome

/-- `routes`. -/
def routes : List Route :=
  [⟨methodGet, ascii "/healthz", fun _ _ => healthHandler⟩,
    ⟨methodGet, ascii "/readyz", fun _ _ => readyHandler⟩,
    ⟨methodGet, ascii "/schemas/mqtt-envelope.json", fun _ _ => mqttEnvelopeSchemaHandler lib⟩,
    ⟨methodPost, ascii "/api/v1/tenants", fun _ => createTenantHandler go⟩,
    ⟨methodGet, ascii "/api/v1/tenants", listTenantsHandler go lib⟩,
    ⟨methodPost, ascii "/api/v1/tenants/:tenantId/devices", createDeviceHandler go⟩,
    ⟨methodGet, ascii "/api/v1/tenants/:tenantId/devices", listDevicesHandler go lib⟩,
    ⟨methodGet, ascii "/api/v1/tenants/:tenantId/devices/:deviceId", getDeviceHandler go⟩,
    ⟨methodGet, ascii "/api/v1/tenants/:tenantId/devices/:deviceId/status",
      getDeviceStatusHandler go⟩,
    ⟨methodGet, ascii "/api/v1/tenants/:tenantId/devices/:deviceId/telemetry",
      listTelemetryHandler go lib⟩,
    ⟨methodPost, ascii "/api/v1/tenants/:tenantId/devices/:deviceId/telemetry",
      ingestTelemetryHandler go⟩,
    ⟨methodPost, ascii "/api/v1/tenants/:tenantId/devices/:deviceId/commands",
      createCommandHandler go⟩,
    ⟨methodGet, ascii "/api/v1/tenants/:tenantId/devices/:deviceId/commands",
      listCommandsHandler go lib⟩,
    ⟨methodGet, ascii "/api/v1/tenants/:tenantId/commands", listCommandsHandler go lib⟩,
    ⟨methodGet, ascii "/api/v1/tenants/:tenantId/commands/:commandId", getCommandHandler go⟩,
    ⟨methodPost,
      ascii "/api/v1/tenants/:tenantId/devices/:deviceId/commands/:commandId/acknowledgements",
      ackCommandHandler go⟩]

/-- The segments of a rooted path. -/
def pathTokens (path : Bytes) : List Bytes := (path.drop 1).splitOn 0x2F

/-- Segments match those of a pattern. A segment of a pattern that starts with a colon takes any. -/
def matchTokens : List Bytes → List Bytes → Bool
  | [], [] => true
  | pat :: pats, token :: tokens =>
      (pat.head? == some 0x3A || pat == token) && matchTokens pats tokens
  | _, _ => false

/-- A cleaned path matches a pattern. Only a rooted path does. -/
def matchPath (pattern path : Bytes) : Bool :=
  path.head? == some 0x2F && matchTokens (pathTokens pattern) (pathTokens path)

/-- The router that the server registers its routes with: the route a request of a method and a path
goes to, or the reply it gets instead. -/
abbrev Router := List Route → (method path : Bytes) → Except HttpReply Route

/-- What is assumed of the router. It takes the path of a request as `path.Clean` makes it, a route
it finds is one of the routes, of the method, and matches the path, and it finds one if there is
one. -/
structure Router.Dispatches (router : Router) : Prop where
  found : ∀ {go : GoRuntime} {lib : Libraries} {method path : Bytes} {route : Route},
    router (routes go lib) method path = .ok route →
      route ∈ routes go lib ∧ route.method = method ∧ matchPath route.path (cleanPath path)
  finds : ∀ {go : GoRuntime} {lib : Libraries} {path : Bytes} {route : Route},
    route ∈ routes go lib → matchPath route.path (cleanPath path) →
      ∃ found, router (routes go lib) route.method path = .ok found

/-- A router to evaluate the model with: the first route of the method that matches. -/
def Router.first : Router := fun routes method path =>
  match routes.find? fun route =>
      route.method == method && matchPath route.path (cleanPath path) with
  | some route => .ok route
  | none => .error ⟨404, ascii "404 page not found\n"⟩

/-- It is a router. -/
theorem Router.first_dispatches : Router.first.Dispatches where
  found := by
    intro go lib method path route h
    rw [Router.first] at h
    split at h
    · rename_i found hfind
      obtain rfl : found = route := Except.ok.inj h
      have hfound := List.find?_some hfind
      rw [Bool.and_eq_true, beq_iff_eq] at hfound
      exact ⟨List.mem_of_find?_eq_some hfind, hfound⟩
    · cases h
  finds := by
    intro go lib path route hroute hmatch
    rw [Router.first]
    split
    · exact ⟨_, rfl⟩
    · rename_i hnone
      refine absurd ?_ (List.find?_eq_none.mp hnone route hroute)
      rw [beq_self_eq_true, hmatch, Bool.true_and]

/-! ## Tokens -/

/-- The tokens the gateway knows: the global one, unless it is empty, and those bound to a
tenant. -/
structure Tokens where
  token : Bytes
  tenantTokens : Table (Prod.fst : Bytes × Bytes → Bytes)

/-- `errInvalidTenantTokenEntry`. -/
def errInvalidTenantTokenEntry : GoError :=
  .new "tenant-bound tokens require non-empty token and tenantId"

/-- `ParseTenantBoundTokens`, over what `json.Unmarshal` makes of the text. -/
def parseTenantBoundTokens
    (decode : Bytes → Except GoError (Table (Prod.fst : Bytes × Bytes → Bytes))) (raw : Bytes) :
    Except GoError (Table (Prod.fst : Bytes × Bytes → Bytes)) := do
  if trimSpace raw = [] then pure .empty
  else
    let tokens ← decode raw
    returnIf (tokens.rows.any fun entry =>
      trimSpace entry.1 = [] || !isValidTenantID entry.2) errInvalidTenantTokenEntry
    pure tokens

/-- The paths that need no token. -/
def publicPaths : List Bytes :=
  [ascii "/healthz", ascii "/readyz", ascii "/schemas/mqtt-envelope.json"]

/-- The token of an `Authorization` header. -/
def bearerToken (authorization : Bytes) : Option Bytes :=
  if (ascii "Bearer ").isPrefixOf authorization then some (authorization.drop 7) else none

/-- The token is the global one. -/
def Tokens.global (tokens : Tokens) (provided : Bytes) : Bool :=
  tokens.token ≠ [] && provided == tokens.token

/-- The tenant a token is bound to. -/
def Tokens.boundTenant (tokens : Tokens) (provided : Bytes) : Option Bytes :=
  (tokens.tenantTokens.find? provided).map Prod.snd

/-- `BearerTokenMiddlewareWithTenants`. -/
def bearerTokenMiddleware (tokens : Tokens) (next : Option Parameters → Request → Outcome)
    (r : Request) : Outcome :=
  if publicPaths.contains r.path then next none r
  else
    match bearerToken r.authorization with
    | none => refuse 401 (ascii "valid bearer token is required")
    | some provided =>
        if provided = [] ∨ !tokens.global provided ∧ (tokens.boundTenant provided).isNone then
          refuse 401 (ascii "valid bearer token is required")
        else
          match managementRequest go r with
          | .error err =>
              if err.is .notFound then refuse 404 (ascii "not found") else refuse 400 err.text
          | .ok params =>
              if !tokens.global provided ∧
                  (params.tenantID = [] ∨ tokens.boundTenant provided ≠ some params.tenantID) then
                refuse 403 (ascii "token is not authorized for this tenant")
              else next (some params) r

/-- The way of a request through the gateway. The router sees the cleaned path, everything behind it
the path as it came. -/
def serve (router : Router) (tokens : Tokens) (r : Request) : Outcome :=
  match router (routes go lib) r.method r.path with
  | .ok route => bearerTokenMiddleware go tokens route.handler r
  | .error reply => .error reply

end Iot.Http
