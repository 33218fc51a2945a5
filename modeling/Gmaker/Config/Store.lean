import Mathlib

/-!
# Gmaker.Config.Store — the tables of the config service

The metadata of the configs and their versions, as two MySQL tables. Each function is one
statement, or one transaction, that may fail and then changes nothing. Names are compared by
the collation of the tables, ids are given out in increasing order with gaps, and the unique
keys are the tables' own. Audit logs and subscribers are left out: nothing here reads them.
-/

namespace Gmaker.ConfigService

/-- What the service takes from elsewhere: the collation of its tables (two texts are equal when
they have the same weights), the schema check of a content, and the checksum of a content. -/
structure Deps where
  collate : String → String
  validateJSONSchema : (content schemaJSON : String) → Option String
  calcChecksum : String → String

/-! ## Rows -/

/-- A row of `configs`. -/
structure Config where
  id : ℤ
  name : String
  namespace_ : String
  format : String
  schemaDef : String
  description : String
  currentVersion : ℤ
  status : ℤ
  createdAt : ℤ
  updatedAt : ℤ
deriving DecidableEq

/-- A row of `config_versions`; status 0 is a draft, 1 is published, 2 is rolled back. -/
structure ConfigVersion where
  id : ℤ
  configID : ℤ
  version : ℤ
  content : String
  checksum : String
  status : ℤ
  publishedAt : Option ℤ
  createdBy : String
  createdAt : ℤ
deriving DecidableEq

/-- The tables with their `AUTO_INCREMENT` counters. -/
structure ConfigStore where
  configs : List Config
  versions : List ConfigVersion
  nextConfigID : ℤ
  nextVersionID : ℤ
deriving DecidableEq

/-- How a statement goes: the error that it fails with, if any, the time, and how many ids were
passed over before it. -/
structure Call where
  fault : Option String
  now : ℤ
  gap : ℕ
deriving DecidableEq

/-- A call that goes well. -/
def Call.fine (now : ℤ) : Call := ⟨none, now, 0⟩

/-- A statement that fails if the environment has it fail. -/
def attempt {α : Type*} (fault : Option String) (result : Except String α) : Except String α :=
  match fault with
  | some e => .error e
  | none => result

@[simp] theorem attempt_eq_ok {α : Type*} {fault : Option String} {r : Except String α} {a : α} :
    attempt fault r = .ok a ↔ fault = none ∧ r = .ok a := by
  cases fault with
  | none => simp [attempt]
  | some e => simp [attempt]

/-- `int32` arithmetic. -/
def wrapInt32 (z : ℤ) : ℤ := (z + 2 ^ 31) % 2 ^ 32 - 2 ^ 31

namespace ConfigStore

variable (deps : Deps) (s : ConfigStore)

/-! ## Configs -/

/-- The row is that of the name and namespace, up to the collation. -/
def Named (c : Config) (name namespace_ : String) : Prop :=
  deps.collate c.name = deps.collate name ∧ deps.collate c.namespace_ = deps.collate namespace_

instance (c : Config) (name namespace_ : String) : Decidable (Named deps c name namespace_) :=
  inferInstanceAs (Decidable (_ ∧ _))

/-- `GetConfig`: the row, if there is one. -/
def getConfig (name namespace_ : String) : Option Config :=
  s.configs.find? fun c => Named deps c name namespace_

/-- The row that `CreateConfig` inserts. -/
def newConfig (call : Call) (name namespace_ format schemaDef description : String) (status : ℤ) :
    Config where
  id := s.nextConfigID + call.gap
  name := name
  namespace_ := namespace_
  format := format
  schemaDef := schemaDef
  description := description
  currentVersion := 0
  status := status
  createdAt := call.now
  updatedAt := call.now

/-- The table with a further row. -/
def insertConfig (cfg : Config) : ConfigStore :=
  { s with configs := s.configs ++ [cfg], nextConfigID := cfg.id + 1 }

/-- `CreateConfig`: the inserted row with its id. -/
def createConfig (call : Call) (name namespace_ format schemaDef description : String) (status : ℤ) :
    Except String (Config × ConfigStore) :=
  let cfg := s.newConfig call name namespace_ format schemaDef description status
  attempt call.fault <|
    if (s.getConfig deps name namespace_).isSome then
      .error ("Error 1062 (23000): Duplicate entry '" ++ name ++ "-" ++ namespace_ ++
        "' for key 'configs.uk_name_ns'")
    else if 2 ^ 63 ≤ cfg.id then
      .error "Error 1467 (HY000): Failed to read auto-increment value from storage engine"
    else .ok (cfg, s.insertConfig cfg)

/-- What `UpdateConfigMeta` writes to a row. -/
def setMeta (cfg : Config) (now : ℤ) (c : Config) : Config :=
  { c with
    format := cfg.format, schemaDef := cfg.schemaDef, description := cfg.description,
    status := cfg.status, updatedAt := now }

/-- `UpdateConfigMeta`. -/
def updateConfigMeta (call : Call) (cfg : Config) : Except String ConfigStore :=
  attempt call.fault <| .ok
    { s with configs := s.configs.map fun c => if c.id = cfg.id then setMeta cfg call.now c
                                                else c }

/-- `UpdateConfigCurrentVersion`. -/
def updateConfigCurrentVersion (call : Call) (configID versionID : ℤ) :
    Except String ConfigStore :=
  attempt call.fault <| .ok
    { s with
      configs := s.configs.map fun c =>
        if c.id = configID then { c with currentVersion := versionID, updatedAt := call.now } else c }

/-- `DeleteConfig`: the config and its versions in one transaction. -/
def deleteConfig (call : Call) (configID : ℤ) : Except String ConfigStore :=
  attempt call.fault <| .ok
    { s with
      configs := s.configs.filter fun c => c.id ≠ configID
      versions := s.versions.filter fun v => v.configID ≠ configID }

/-! ## Versions -/

/-- `GetVersion`: the row, if there is one. -/
def getVersion (versionID : ℤ) : Option ConfigVersion :=
  s.versions.find? fun v => v.id = versionID

/-- The numbers of the versions of a config. -/
def versionNos (configID : ℤ) : List ℤ :=
  (s.versions.filter fun v => v.configID = configID).map ConfigVersion.version

/-- One more than the highest number of a config, in 32 bits. -/
def nextVersionNo (configID : ℤ) : ℤ :=
  match (s.versionNos configID).max? with
  | some v => wrapInt32 (v + 1)
  | none => 1

/-- `GetNextVersionNo`. -/
def getNextVersionNo (fault : Option String) (configID : ℤ) : Except String ℤ :=
  attempt fault (.ok (s.nextVersionNo configID))

/-- The row that `CreateVersion` inserts. -/
def newVersion (call : Call) (configID version : ℤ) (content : String) (status : ℤ)
    (createdBy : String) : ConfigVersion where
  id := s.nextVersionID + call.gap
  configID := configID
  version := version
  content := content
  checksum := deps.calcChecksum content
  status := status
  publishedAt := none
  createdBy := createdBy
  createdAt := call.now

/-- The table with a further row. -/
def insertVersion (ver : ConfigVersion) : ConfigStore :=
  { s with versions := s.versions ++ [ver], nextVersionID := ver.id + 1 }

/-- `CreateVersion`: the inserted row with its id and checksum. -/
def createVersion (call : Call) (configID version : ℤ) (content : String) (status : ℤ)
    (createdBy : String) : Except String (ConfigVersion × ConfigStore) :=
  let ver := s.newVersion deps call configID version content status createdBy
  attempt call.fault <|
    if version ∈ s.versionNos configID then
      .error ("Error 1062 (23000): Duplicate entry '" ++ configID.repr ++ "-" ++ version.repr ++
        "' for key 'config_versions.uk_config_ver'")
    else if 2 ^ 63 ≤ ver.id then
      .error "Error 1467 (HY000): Failed to read auto-increment value from storage engine"
    else .ok (ver, s.insertVersion ver)

/-- Write to the rows of a version. -/
def modifyVersion (versionID : ℤ) (f : ConfigVersion → ConfigVersion) : ConfigStore :=
  { s with versions := s.versions.map fun v => if v.id = versionID then f v else v }

/-- `PublishVersion`. -/
def publishVersion (call : Call) (versionID : ℤ) : Except String ConfigStore :=
  attempt call.fault <| .ok <|
    s.modifyVersion versionID fun v => { v with status := 1, publishedAt := some call.now }

/-- `RollbackVersion`. -/
def rollbackVersion (call : Call) (versionID : ℤ) : Except String ConfigStore :=
  attempt call.fault <| .ok <| s.modifyVersion versionID fun v => { v with status := 2 }

/-! ## When a statement does not fail -/

variable {deps s} {s' : ConfigStore} {call : Call} {cfg : Config} {ver : ConfigVersion}
variable {name namespace_ format schemaDef description content createdBy : String}
variable {status configID versionID version : ℤ} {fault : Option String}

theorem createConfig_eq_ok :
    s.createConfig deps call name namespace_ format schemaDef description status = .ok (cfg, s') ↔
      call.fault = none ∧ s.getConfig deps name namespace_ = none ∧
        s.nextConfigID + call.gap < 2 ^ 63 ∧
        cfg = s.newConfig call name namespace_ format schemaDef description status ∧
        s' = s.insertConfig cfg := by
  unfold createConfig
  dsimp only
  rw [attempt_eq_ok]
  constructor
  · rintro ⟨hfault, h⟩
    split_ifs at h with hdup hid
    cases h
    exact ⟨hfault, Option.not_isSome_iff_eq_none.mp hdup, not_le.mp hid, rfl, rfl⟩
  · rintro ⟨hfault, hnew, hid, rfl, rfl⟩
    refine ⟨hfault, ?_⟩
    rw [if_neg (by rw [hnew]; exact Bool.false_ne_true)]
    exact if_neg (not_le.mpr hid)

theorem createVersion_eq_ok :
    s.createVersion deps call configID version content status createdBy = .ok (ver, s') ↔
      call.fault = none ∧ version ∉ s.versionNos configID ∧ s.nextVersionID + call.gap < 2 ^ 63 ∧
        ver = s.newVersion deps call configID version content status createdBy ∧
        s' = s.insertVersion ver := by
  unfold createVersion
  dsimp only
  rw [attempt_eq_ok]
  constructor
  · rintro ⟨hfault, h⟩
    split_ifs at h with hdup hid
    cases h
    exact ⟨hfault, hdup, not_le.mp hid, rfl, rfl⟩
  · rintro ⟨hfault, hnew, hid, rfl, rfl⟩
    refine ⟨hfault, ?_⟩
    rw [if_neg hnew]
    exact if_neg (not_le.mpr hid)

theorem getNextVersionNo_eq_ok :
    s.getNextVersionNo fault configID = .ok version ↔
      fault = none ∧ version = s.nextVersionNo configID := by
  rw [getNextVersionNo, attempt_eq_ok, Except.ok.injEq, eq_comm (a := version)]

end ConfigStore

end Gmaker.ConfigService
