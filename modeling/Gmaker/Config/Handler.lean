import Gmaker.Config.Store
import Gmaker.Lib.Decimal
import Gmaker.Lib.Shortest

/-!
# Gmaker.Config.Handler — the requests of the config service

The handlers of `ConfigHandler` that change a config or serve its content. They make their
statements one by one, without a transaction around them, and answer at the first that fails.
Publishing and rolling back also write the content to Redis, under a key for the current version
and one for the version, from where a pull is answered first.

A request comes with what the environment makes of its calls. The audit log, whose errors are
ignored, and the change event that goes out after the keys are left out.
-/

namespace Gmaker.ConfigService

open Gmaker.Lib

/-! ## Responses -/

/-- The content of a version, as it is put into Redis and answered to a pull. -/
structure PullData where
  content : String
  checksum : String
  versionID : ℤ
  version : ℤ
deriving DecidableEq

/-- The data of a response. -/
inductive Data where
  | created (configID versionID version : ℤ)
  | edited (configID versionID : ℤ)
  | released (versionID version : ℤ)
  | pulled (d : PullData)
deriving DecidableEq

structure Response where
  code : ℕ
  ok : Bool
  msg : String
  data : Option Data
deriving DecidableEq

def writeErr (code : ℕ) (msg : String) : Response := ⟨code, false, msg, none⟩

def writeOK (data : Option Data) : Response := ⟨200, true, "", data⟩

def invalidJSON : Response := writeErr 400 "invalid json"

def configNotFound : Response := writeErr 404 "config not found"

/-- A text that is `byDefault` if the request leaves it empty. -/
def orDefault (byDefault s : String) : String := if s = "" then byDefault else s

/-- `getOperator`. -/
def getOperator (header : String) : String := orDefault "admin" header

/-! ## Create and update -/

/-- `POST /api/configs`. -/
structure CreateReq where
  name : String
  namespace_ : String
  format : String
  schemaDef : String
  description : String
  content : String
deriving DecidableEq

/-- `PUT /api/configs/{name}`. -/
structure UpdateReq where
  namespace_ : String
  format : String
  schemaDef : String
  description : String
  content : String
deriving DecidableEq

/-- The calls that insert a draft. -/
structure DraftCalls where
  getNextVersionNo : Option String
  createVersion : Call
deriving DecidableEq

structure CreateCalls where
  createConfig : Call
  draft : DraftCalls
deriving DecidableEq

structure UpdateCalls where
  getConfig : Option String
  updateConfigMeta : Call
  draft : DraftCalls
deriving DecidableEq

section Edits

variable (deps : Deps) (s : ConfigStore)

/-- The schema check of `createConfig` and `updateConfig`. -/
def schemaError (format schemaDef content : String) : Option String :=
  if format = "json" ∧ schemaDef ≠ "" then deps.validateJSONSchema content schemaDef else none

/-- The end of `createConfig` and `updateConfig`: check the content and insert it as a draft. -/
def draftVersion (cfg : Config) (content operator : String) (calls : DraftCalls) :
    Except Response (ConfigVersion × ConfigStore) :=
  match schemaError deps cfg.format cfg.schemaDef content with
  | some e => .error (writeErr 400 ("schema validation failed: " ++ e))
  | none =>
    match s.getNextVersionNo calls.getNextVersionNo cfg.id with
    | .error e => .error (writeErr 500 e)
    | .ok verNo =>
      match s.createVersion deps calls.createVersion cfg.id verNo content 0 operator with
      | .error e => .error (writeErr 500 e)
      | .ok r => .ok r

/-- `createConfig`; `none` is a body that is no JSON. -/
def createConfig (operator : String) (body : Option CreateReq) (calls : CreateCalls) :
    Response × ConfigStore :=
  match body with
  | none => (invalidJSON, s)
  | some req =>
    if req.name = "" ∨ req.content = "" then
      (writeErr 400 "name and content are required", s)
    else
      match s.createConfig deps calls.createConfig req.name (orDefault "default" req.namespace_)
          (orDefault "json" req.format) req.schemaDef req.description 0 with
      | .error e => (writeErr 500 e, s)
      | .ok (cfg, s₁) =>
        match draftVersion deps s₁ cfg req.content (getOperator operator) calls.draft with
        | .error r => (r, s₁)
        | .ok (ver, s₂) => (writeOK (some (.created cfg.id ver.id ver.version)), s₂)

/-- The metadata that `updateConfig` writes. -/
def UpdateReq.edit (req : UpdateReq) (cfg : Config) : Config :=
  { cfg with
    format := if req.format ≠ "" then req.format else cfg.format
    schemaDef := req.schemaDef
    description := req.description }

/-- `updateConfig`. -/
def updateConfig (name operator : String) (body : Option UpdateReq) (calls : UpdateCalls) :
    Response × ConfigStore :=
  match body with
  | none => (invalidJSON, s)
  | some req =>
    match attempt calls.getConfig
        (.ok (s.getConfig deps name (orDefault "default" req.namespace_))) with
    | .error e => (writeErr 500 e, s)
    | .ok none => (configNotFound, s)
    | .ok (some row) =>
      let cfg := req.edit row
      match s.updateConfigMeta calls.updateConfigMeta cfg with
      | .error e => (writeErr 500 e, s)
      | .ok s₁ =>
        if req.content ≠ "" then
          match draftVersion deps s₁ cfg req.content (getOperator operator) calls.draft with
          | .error r => (r, s₁)
          | .ok (ver, s₂) => (writeOK (some (.edited cfg.id ver.id)), s₂)
        else (writeOK (some (.edited cfg.id 0)), s₁)

/-! ## Delete -/

structure DeleteCalls where
  getConfig : Option String
  deleteConfig : Call
deriving DecidableEq

/-- `deleteConfig`. -/
def deleteConfig (name namespace_ : String) (calls : DeleteCalls) : Response × ConfigStore :=
  match attempt calls.getConfig (.ok (s.getConfig deps name (orDefault "default" namespace_))) with
  | .error e => (writeErr 500 e, s)
  | .ok none => (configNotFound, s)
  | .ok (some cfg) =>
    match s.deleteConfig calls.deleteConfig cfg.id with
    | .error e => (writeErr 500 e, s)
    | .ok s₁ => (writeOK none, s₁)

end Edits

/-! ## Publish and roll back -/

/-- The service: its tables, and Redis if it is connected to one. -/
structure ConfigHandler where
  store : ConfigStore
  hasRedis : Bool
  redis : String → Option PullData

/-- `POST /api/configs/{name}/publish` and `/rollback`; whom a publication is for is a matter of
the change event. -/
structure ReleaseReq where
  namespace_ : String
  versionID : ℤ
deriving DecidableEq

/-- Whether the two values get stored; an error is only logged. -/
structure PushCalls where
  current : Bool
  version : Bool
deriving DecidableEq

structure PublishCalls where
  getConfig : Option String
  getVersion : Option String
  publishVersion : Call
  updateConfigCurrentVersion : Call
  push : PushCalls
deriving DecidableEq

structure RollbackCalls where
  getConfig : Option String
  getVersion : Option String
  rollbackVersion : Call
  getNextVersionNo : Option String
  createVersion : Call
  publishVersion : Call
  updateConfigCurrentVersion : Call
  push : PushCalls
deriving DecidableEq

/-- The key of the current version. -/
def currentKey (namespace_ name : String) : String :=
  "config:current:" ++ namespace_ ++ ":" ++ name

/-- The key of a version. -/
def versionKey (namespace_ name versionID : String) : String :=
  "config:version:" ++ namespace_ ++ ":" ++ name ++ ":" ++ versionID

/-- What is stored and served of a version. -/
def ConfigVersion.pullData (ver : ConfigVersion) : PullData :=
  ⟨ver.content, ver.checksum, ver.id, ver.version⟩

namespace ConfigHandler

/-- `redisClient.Set`, which may fail. -/
def set (h : ConfigHandler) (stored : Bool) (key : String) (d : PullData) : ConfigHandler :=
  if stored then { h with redis := Function.update h.redis key (some d) } else h

/-- `pushEventWithGray`, up to the event. -/
def pushEvent (h : ConfigHandler) (cfg : Config) (ver : ConfigVersion) (calls : PushCalls) :
    ConfigHandler :=
  if h.hasRedis then
    (h.set calls.current (currentKey cfg.namespace_ cfg.name) ver.pullData).set calls.version
      (versionKey cfg.namespace_ cfg.name ver.id.repr) ver.pullData
  else h

/-- The tables after a statement whose error is ignored. -/
def ignoring (s : ConfigStore) (r : Except String ConfigStore) : ConfigStore :=
  match r with
  | .ok s' => s'
  | .error _ => s

variable (deps : Deps) (h : ConfigHandler)

/-- The start of `publishConfig` and `rollbackConfig`: the config and a version of it. -/
def findRelease (name : String) (body : Option ReleaseReq) (getConfig getVersion : Option String) :
    Except Response (Config × ConfigVersion) :=
  match body with
  | none => .error invalidJSON
  | some req =>
    if req.versionID = 0 then .error (writeErr 400 "version_id is required")
    else
      match attempt getConfig
          (.ok (h.store.getConfig deps name (orDefault "default" req.namespace_))) with
      | .error e => .error (writeErr 500 e)
      | .ok none => .error configNotFound
      | .ok (some cfg) =>
        match attempt getVersion (.ok (h.store.getVersion req.versionID)) with
        | .error e => .error (writeErr 500 e)
        | .ok none => .error (writeErr 400 "version not found or not belong to this config")
        | .ok (some ver) =>
          if ver.configID ≠ cfg.id then
            .error (writeErr 400 "version not found or not belong to this config")
          else .ok (cfg, ver)

/-- `publishConfig`. -/
def publishConfig (name : String) (body : Option ReleaseReq) (calls : PublishCalls) :
    Response × ConfigHandler :=
  match h.findRelease deps name body calls.getConfig calls.getVersion with
  | .error r => (r, h)
  | .ok (cfg, ver) =>
    match h.store.publishVersion calls.publishVersion ver.id with
    | .error e => (writeErr 500 e, h)
    | .ok s₁ =>
      match s₁.updateConfigCurrentVersion calls.updateConfigCurrentVersion cfg.id ver.id with
      | .error e => (writeErr 500 e, { h with store := s₁ })
      | .ok s₂ =>
        (writeOK (some (.released ver.id ver.version)),
          { h with store := s₂ }.pushEvent cfg ver calls.push)

/-- `rollbackConfig`. -/
def rollbackConfig (name operator : String) (body : Option ReleaseReq) (calls : RollbackCalls) :
    Response × ConfigHandler :=
  match h.findRelease deps name body calls.getConfig calls.getVersion with
  | .error r => (r, h)
  | .ok (cfg, target) =>
    let s₁ := ignoring h.store (h.store.rollbackVersion calls.rollbackVersion target.id)
    match s₁.getNextVersionNo calls.getNextVersionNo cfg.id with
    | .error e => (writeErr 500 e, { h with store := s₁ })
    | .ok verNo =>
      match s₁.createVersion deps calls.createVersion cfg.id verNo target.content 1
          (getOperator operator) with
      | .error e => (writeErr 500 e, { h with store := s₁ })
      | .ok (ver, s₂) =>
        let s₃ := ignoring s₂ (s₂.publishVersion calls.publishVersion ver.id)
        let s₄ := ignoring s₃
          (s₃.updateConfigCurrentVersion calls.updateConfigCurrentVersion cfg.id ver.id)
        (writeOK (some (.released ver.id ver.version)),
          { h with store := s₄ }.pushEvent cfg ver calls.push)

/-! ## Pull -/

/-- `strconv.ParseInt(s, 10, 64)`. -/
def parseVersionID (s : String) : Option ℤ :=
  if (parseInt 64 s).2 then some (parseInt 64 s).1 else none

/-- What was stored, decoded into a map, where numbers are doubles, and encoded again. -/
def decoded (d : PullData) : PullData :=
  { d with versionID := echo d.versionID, version := echo d.version }

/-- The Redis path of `pullConfig`; `none` is a miss. -/
def pullRedis (name namespace_ versionID : String) : Option Response :=
  if h.hasRedis then
    (h.redis (if versionID ≠ "" then versionKey (orDefault "default" namespace_) name versionID
      else currentKey (orDefault "default" namespace_) name)).map
        fun d => writeOK (some (.pulled (decoded d)))
  else none

/-- What a pull is answered about the version that it has read. -/
def answerVersion (r : Except String (Option ConfigVersion)) : Response :=
  match r with
  | .error e => writeErr 500 e
  | .ok none => writeErr 404 "version not found"
  | .ok (some ver) => writeOK (some (.pulled ver.pullData))

/-- The MySQL path of `pullConfig`. -/
def pullStore (name namespace_ versionID : String) (getConfig getVersion : Option String) :
    Response :=
  match attempt getConfig (.ok (h.store.getConfig deps name (orDefault "default" namespace_))) with
  | .error e => writeErr 500 e
  | .ok none => configNotFound
  | .ok (some cfg) =>
    if versionID ≠ "" then
      match parseVersionID versionID with
      | none => writeErr 400 "invalid version_id"
      | some vid => answerVersion (attempt getVersion (.ok (h.store.getVersion vid)))
    else answerVersion (attempt getVersion (.ok (h.store.getVersion cfg.currentVersion)))

/-- `pullConfig`; a `Get` that fails is a miss. -/
def pullConfig (name namespace_ versionID : String) (getFails : Bool)
    (getConfig getVersion : Option String) : Response :=
  match if getFails then none else h.pullRedis name namespace_ versionID with
  | some r => r
  | none => h.pullStore deps name namespace_ versionID getConfig getVersion

end ConfigHandler

end Gmaker.ConfigService
