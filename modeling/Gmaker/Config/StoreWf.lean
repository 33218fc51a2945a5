import Gmaker.Config.Handler

/-!
# Gmaker.Config.StoreWf — what holds of the tables

The unique keys hold, the ids lie below the counters, and the ids and numbers of the versions fit
their columns (`Wf`). Most statements also keep every row that is there, up to what a pull does
not read (`Keeps`).
-/

namespace Gmaker.ConfigService

open Gmaker.Lib

/-- What the unique key of `configs` compares. -/
def Deps.nameKey (deps : Deps) (name namespace_ : String) : String × String :=
  (deps.collate name, deps.collate namespace_)

def Config.key (deps : Deps) (c : Config) : String × String := deps.nameKey c.name c.namespace_

namespace ConfigStore

/-- What holds of the tables at any time. -/
structure Wf (deps : Deps) (s : ConfigStore) : Prop where
  names : (s.configs.map (Config.key deps)).Nodup
  configIDs : (s.configs.map Config.id).Nodup
  configLow : ∀ c ∈ s.configs, c.id < s.nextConfigID
  versionIDs : (s.versions.map ConfigVersion.id).Nodup
  versionLow : ∀ v ∈ s.versions, v.id < s.nextVersionID
  nextVersionID : 0 < s.nextVersionID
  versionFits : ∀ v ∈ s.versions, 0 < v.id ∧ v.id < 2 ^ 63 ∧ v.version.natAbs ≤ 2 ^ 31

/-- Every row is still there, up to the metadata of a config and the status of a version. -/
structure Keeps (s s' : ConfigStore) : Prop where
  configs : ∀ c ∈ s.configs, ∃ c' ∈ s'.configs, c'.id = c.id ∧ c'.name = c.name ∧
    c'.namespace_ = c.namespace_ ∧ c'.currentVersion = c.currentVersion
  versions : ∀ v ∈ s.versions, ∃ v' ∈ s'.versions, v'.configID = v.configID ∧
    v'.pullData = v.pullData

variable {deps : Deps} {s s' s'' : ConfigStore} {call : Call} {cfg c : Config}
variable {ver v : ConfigVersion} {name namespace_ : String} {vid : ℤ}

theorem Keeps.refl (s : ConfigStore) : Keeps s s where
  configs := fun c hc => ⟨c, hc, rfl, rfl, rfl, rfl⟩
  versions := fun v hv => ⟨v, hv, rfl, rfl⟩

theorem Keeps.trans (h : Keeps s s') (h' : Keeps s' s'') : Keeps s s'' where
  configs := by
    intro c hc
    obtain ⟨c', hc', hid, hname, hns, hcur⟩ := h.configs c hc
    obtain ⟨c'', hc'', hid', hname', hns', hcur'⟩ := h'.configs c' hc'
    exact ⟨c'', hc'', hid'.trans hid, hname'.trans hname, hns'.trans hns, hcur'.trans hcur⟩
  versions := by
    intro v hv
    obtain ⟨v', hv', hcfg, hdata⟩ := h.versions v hv
    obtain ⟨v'', hv'', hcfg', hdata'⟩ := h'.versions v' hv'
    exact ⟨v'', hv'', hcfg'.trans hcfg, hdata'.trans hdata⟩

/-- The tables are well formed again, and have every row that they had. -/
structure Grows (deps : Deps) (s s' : ConfigStore) : Prop where
  wf : Wf deps s'
  keeps : Keeps s s'

theorem Grows.refl (h : Wf deps s) : Grows deps s s := ⟨h, .refl s⟩

theorem Grows.trans (h : Grows deps s s') (h' : Grows deps s' s'') : Grows deps s s'' :=
  ⟨h'.wf, h.keeps.trans h'.keeps⟩

/-! ## Reading -/

theorem named_iff : Named deps c name namespace_ ↔ c.key deps = deps.nameKey name namespace_ := by
  rw [Named, Config.key, Deps.nameKey, Deps.nameKey, Prod.mk.injEq]

theorem mem_of_getConfig (h : s.getConfig deps name namespace_ = some c) :
    c ∈ s.configs ∧ c.key deps = deps.nameKey name namespace_ := by
  unfold ConfigStore.getConfig at h
  have hnamed := List.find?_some h
  exact ⟨List.mem_of_find?_eq_some h, named_iff.mp (of_decide_eq_true hnamed)⟩

/-- The row of a name is the one that is found. -/
theorem Wf.getConfig (h : Wf deps s) (hc : c ∈ s.configs)
    (hkey : c.key deps = deps.nameKey name namespace_) :
    s.getConfig deps name namespace_ = some c := by
  cases hfind : s.getConfig deps name namespace_ with
  | none =>
    have hno := List.find?_eq_none.mp hfind c hc
    exact absurd (decide_eq_true (named_iff.mpr hkey)) hno
  | some c' =>
    obtain ⟨hc', hkey'⟩ := mem_of_getConfig hfind
    rw [List.inj_on_of_nodup_map h.names hc' hc (hkey'.trans hkey.symm)]

theorem mem_of_getVersion (h : s.getVersion vid = some v) : v ∈ s.versions ∧ v.id = vid := by
  unfold ConfigStore.getVersion at h
  have hid := List.find?_some h
  exact ⟨List.mem_of_find?_eq_some h, of_decide_eq_true hid⟩

theorem Wf.getVersion (h : Wf deps s) (hv : v ∈ s.versions) : s.getVersion v.id = some v := by
  cases hfind : s.getVersion v.id with
  | none =>
    have hno := List.find?_eq_none.mp hfind v hv
    exact absurd (decide_eq_true rfl) hno
  | some v' =>
    obtain ⟨hv', hid⟩ := mem_of_getVersion hfind
    rw [List.inj_on_of_nodup_map h.versionIDs hv' hv hid]

theorem Wf.eq_of_id (h : Wf deps s) {c' : Config} (hc : c ∈ s.configs) (hc' : c' ∈ s.configs)
    (hid : c.id = c'.id) : c = c' :=
  List.inj_on_of_nodup_map h.configIDs hc hc' hid

/-! ## Inserting -/

theorem Wf.insertConfig (h : Wf deps s) (hid : s.nextConfigID ≤ cfg.id)
    (hnew : s.getConfig deps cfg.name cfg.namespace_ = none) : Grows deps s (s.insertConfig cfg) := by
  refine ⟨⟨?_, ?_, ?_, h.versionIDs, h.versionLow, h.nextVersionID, h.versionFits⟩, ?_, ?_⟩
  · show ((s.configs ++ [cfg]).map _).Nodup
    rw [List.map_append, List.map_singleton]
    refine List.nodup_append.mpr ⟨h.names, List.nodup_singleton _, ?_⟩
    rintro k hk k' hk' rfl
    rw [List.mem_singleton] at hk'
    obtain ⟨c, hc, hkey⟩ := List.mem_map.mp hk
    rw [h.getConfig hc (hkey.trans hk')] at hnew
    cases hnew
  · show ((s.configs ++ [cfg]).map _).Nodup
    rw [List.map_append, List.map_singleton]
    refine List.nodup_append.mpr ⟨h.configIDs, List.nodup_singleton _, ?_⟩
    rintro k hk k' hk' rfl
    rw [List.mem_singleton] at hk'
    obtain ⟨c, hc, hcid⟩ := List.mem_map.mp hk
    have := h.configLow c hc
    omega
  · intro c hc
    show c.id < cfg.id + 1
    rcases List.mem_append.mp hc with hold | hnew
    · have := h.configLow c hold
      omega
    · rw [List.mem_singleton.mp hnew]
      omega
  · exact fun c hc => ⟨c, List.mem_append_left _ hc, rfl, rfl, rfl, rfl⟩
  · exact fun v hv => ⟨v, hv, rfl, rfl⟩

theorem wrapInt32_natAbs_le (z : ℤ) : (wrapInt32 z).natAbs ≤ 2 ^ 31 := by
  unfold wrapInt32
  omega

theorem nextVersionNo_natAbs_le (configID : ℤ) : (s.nextVersionNo configID).natAbs ≤ 2 ^ 31 := by
  unfold nextVersionNo
  split
  · exact wrapInt32_natAbs_le _
  · norm_num

theorem Wf.insertVersion (h : Wf deps s) (hid : s.nextVersionID ≤ ver.id) (hmax : ver.id < 2 ^ 63)
    (hno : ver.version.natAbs ≤ 2 ^ 31) : Grows deps s (s.insertVersion ver) := by
  have hpos := h.nextVersionID
  refine ⟨⟨h.names, h.configIDs, h.configLow, ?_, ?_, ?_, ?_⟩, ?_, ?_⟩
  · show ((s.versions ++ [ver]).map _).Nodup
    rw [List.map_append, List.map_singleton]
    refine List.nodup_append.mpr ⟨h.versionIDs, List.nodup_singleton _, ?_⟩
    rintro k hk k' hk' rfl
    rw [List.mem_singleton] at hk'
    obtain ⟨v, hv, hvid⟩ := List.mem_map.mp hk
    have := h.versionLow v hv
    omega
  · intro v hv
    show v.id < ver.id + 1
    rcases List.mem_append.mp hv with hold | hnew
    · have := h.versionLow v hold
      omega
    · rw [List.mem_singleton.mp hnew]
      omega
  · show 0 < ver.id + 1
    omega
  · intro v hv
    rcases List.mem_append.mp hv with hold | hnew
    · exact h.versionFits v hold
    · rw [List.mem_singleton.mp hnew]
      exact ⟨by omega, hmax, hno⟩
  · exact fun c hc => ⟨c, hc, rfl, rfl, rfl, rfl⟩
  · exact fun v hv => ⟨v, List.mem_append_left _ hv, rfl, rfl⟩

/-! ## Writing to rows -/

/-- Names and ids stay when rows of `configs` are written to. -/
theorem Wf.mapConfigs (h : Wf deps s) {f : Config → Config}
    (hf : ∀ c, (f c).id = c.id ∧ (f c).name = c.name ∧ (f c).namespace_ = c.namespace_) :
    Wf deps { s with configs := s.configs.map f } where
  names := by
    have hkeys : (s.configs.map f).map (Config.key deps) = s.configs.map (Config.key deps) := by
      rw [List.map_map]
      refine List.map_congr_left fun c _ => ?_
      show (f c).key deps = c.key deps
      rw [Config.key, Config.key, (hf c).2.1, (hf c).2.2]
    show ((s.configs.map f).map _).Nodup
    rw [hkeys]
    exact h.names
  configIDs := by
    have hids : (s.configs.map f).map Config.id = s.configs.map Config.id := by
      rw [List.map_map]
      exact List.map_congr_left fun c _ => (hf c).1
    show ((s.configs.map f).map _).Nodup
    rw [hids]
    exact h.configIDs
  configLow := by
    intro c hc
    obtain ⟨c', hc', rfl⟩ := List.mem_map.mp hc
    rw [(hf c').1]
    exact h.configLow c' hc'
  versionIDs := h.versionIDs
  versionLow := h.versionLow
  nextVersionID := h.nextVersionID
  versionFits := h.versionFits

theorem Wf.updateConfigMeta (h : Wf deps s) (hok : s.updateConfigMeta call cfg = .ok s') :
    Grows deps s s' := by
  obtain ⟨-, heq⟩ := attempt_eq_ok.mp hok
  cases heq
  refine ⟨h.mapConfigs fun c => ?_, fun c hc => ⟨_, List.mem_map_of_mem hc, ?_⟩, ?_⟩
  · split_ifs <;> exact ⟨rfl, rfl, rfl⟩
  · split_ifs <;> exact ⟨rfl, rfl, rfl, rfl⟩
  · exact fun v hv => ⟨v, hv, rfl, rfl⟩

/-- Names, ids and numbers stay when the status of a version is written. -/
theorem Wf.modifyVersion (h : Wf deps s) {f : ConfigVersion → ConfigVersion}
    (hf : ∀ v, (f v).configID = v.configID ∧ (f v).pullData = v.pullData) :
    Grows deps s (s.modifyVersion vid f) := by
  have hid (v : ConfigVersion) : (f v).id = v.id := congrArg PullData.versionID (hf v).2
  have hno (v : ConfigVersion) : (f v).version = v.version := congrArg PullData.version (hf v).2
  have hrow (v : ConfigVersion) : (if v.id = vid then f v else v).id = v.id ∧
      (if v.id = vid then f v else v).version = v.version := by
    split_ifs
    · exact ⟨hid v, hno v⟩
    · exact ⟨rfl, rfl⟩
  refine ⟨⟨h.names, h.configIDs, h.configLow, ?_, ?_, h.nextVersionID, ?_⟩, ?_, ?_⟩
  · have hids : (s.modifyVersion vid f).versions.map ConfigVersion.id
        = s.versions.map ConfigVersion.id := by
      unfold ConfigStore.modifyVersion
      rw [List.map_map]
      exact List.map_congr_left fun v _ => (hrow v).1
    rw [hids]
    exact h.versionIDs
  · intro v hv
    obtain ⟨v', hv', rfl⟩ := List.mem_map.mp hv
    rw [(hrow v').1]
    exact h.versionLow v' hv'
  · intro v hv
    obtain ⟨v', hv', rfl⟩ := List.mem_map.mp hv
    rw [(hrow v').1, (hrow v').2]
    exact h.versionFits v' hv'
  · exact fun c hc => ⟨c, hc, rfl, rfl, rfl, rfl⟩
  · intro v hv
    refine ⟨_, List.mem_map_of_mem hv, ?_⟩
    split_ifs
    · exact hf v
    · exact ⟨rfl, rfl⟩

theorem Wf.publishVersion (h : Wf deps s) (hok : s.publishVersion call vid = .ok s') :
    Grows deps s s' ∧ s'.configs = s.configs := by
  obtain ⟨-, heq⟩ := attempt_eq_ok.mp hok
  cases heq
  exact ⟨h.modifyVersion fun _ => ⟨rfl, rfl⟩, rfl⟩

theorem Wf.rollbackVersion (h : Wf deps s) (hok : s.rollbackVersion call vid = .ok s') :
    Grows deps s s' ∧ s'.configs = s.configs := by
  obtain ⟨-, heq⟩ := attempt_eq_ok.mp hok
  cases heq
  exact ⟨h.modifyVersion fun _ => ⟨rfl, rfl⟩, rfl⟩

theorem Wf.updateConfigCurrentVersion (h : Wf deps s) {configID : ℤ}
    (hok : s.updateConfigCurrentVersion call configID vid = .ok s') : Wf deps s' := by
  obtain ⟨-, heq⟩ := attempt_eq_ok.mp hok
  cases heq
  refine h.mapConfigs fun c => ?_
  split_ifs <;> exact ⟨rfl, rfl, rfl⟩

theorem Wf.deleteConfig (h : Wf deps s) {configID : ℤ}
    (hok : s.deleteConfig call configID = .ok s') : Wf deps s' := by
  obtain ⟨-, heq⟩ := attempt_eq_ok.mp hok
  cases heq
  exact
    { names := h.names.sublist (List.filter_sublist.map _)
      configIDs := h.configIDs.sublist (List.filter_sublist.map _)
      configLow := fun c hc => h.configLow c (List.mem_of_mem_filter hc)
      versionIDs := h.versionIDs.sublist (List.filter_sublist.map _)
      versionLow := fun v hv => h.versionLow v (List.mem_of_mem_filter hv)
      nextVersionID := h.nextVersionID
      versionFits := fun v hv => h.versionFits v (List.mem_of_mem_filter hv) }

end ConfigStore

/-! ## The two edits -/

variable {deps : Deps} {s s' : ConfigStore} {cfg : Config} {ver : ConfigVersion}
variable {name content operator : String} {draft : DraftCalls}

/-- A draft that goes in is a new row. -/
theorem draftVersion_grows (h : s.Wf deps)
    (hok : draftVersion deps s cfg content operator draft = .ok (ver, s')) : s.Grows deps s' := by
  unfold draftVersion at hok
  split at hok
  · cases hok
  · split at hok
    · cases hok
    · next verNo hno =>
      obtain ⟨-, rfl⟩ := ConfigStore.getNextVersionNo_eq_ok.mp hno
      split at hok
      · cases hok
      · next r hver =>
        cases hok
        obtain ⟨-, -, hid, rfl, rfl⟩ := ConfigStore.createVersion_eq_ok.mp hver
        refine h.insertVersion ?_ hid (ConfigStore.nextVersionNo_natAbs_le _)
        show s.nextVersionID ≤ s.nextVersionID + draft.createVersion.gap
        omega

/-- A create request only adds rows. -/
theorem createConfig_grows (h : s.Wf deps) (body : Option CreateReq) (calls : CreateCalls) :
    s.Grows deps (createConfig deps s operator body calls).2 := by
  unfold createConfig
  split
  · exact .refl h
  · split_ifs
    · exact .refl h
    · split
      · exact .refl h
      · next cfg s₁ hok =>
        obtain ⟨-, hnew, -, hcfg, rfl⟩ := ConfigStore.createConfig_eq_ok.mp hok
        have hid : cfg.id = s.nextConfigID + calls.createConfig.gap := by rw [hcfg]; rfl
        have hgrows : s.Grows deps (s.insertConfig cfg) :=
          h.insertConfig (by omega) (by rw [hcfg]; exact hnew)
        split
        · exact hgrows
        · next ver s₂ hdraft => exact hgrows.trans (draftVersion_grows hgrows.wf hdraft)

/-- An update request writes metadata and adds a row. -/
theorem updateConfig_grows (h : s.Wf deps) (body : Option UpdateReq) (calls : UpdateCalls) :
    s.Grows deps (updateConfig deps s name operator body calls).2 := by
  unfold updateConfig
  split
  · exact .refl h
  · split
    · exact .refl h
    · exact .refl h
    · dsimp only
      split
      · exact .refl h
      · next s₁ hmeta =>
        have hgrows := h.updateConfigMeta hmeta
        split_ifs
        · split
          · exact hgrows
          · next ver s₂ hdraft => exact hgrows.trans (draftVersion_grows hgrows.wf hdraft)
        · exact hgrows

end Gmaker.ConfigService
