import Gmaker.Config.Handler

/-!
# Gmaker.Config.Atomic — errors after the first write

`createConfig` inserts the config before it checks the content against the schema and inserts
the first draft; `updateConfig` writes the metadata before it does the same for a further draft.
Neither takes back what it wrote. So a request that ends in an error leaves the tables alone
exactly if it fails at the first write or before, if its draft goes in (so that there is no
error), or if the metadata that it wrote was there already (`atomicOnError_iff`).
-/

namespace Gmaker.ConfigService

/-! ## The requests -/

/-- A request that edits a config, with what the environment makes of its calls. -/
inductive EditRequest where
  | create (operator : String) (body : Option CreateReq) (calls : CreateCalls)
  | update (name operator : String) (body : Option UpdateReq) (calls : UpdateCalls)
deriving DecidableEq

def EditRequest.handle (deps : Deps) (s : ConfigStore) : EditRequest → Response × ConfigStore
  | .create operator body calls => createConfig deps s operator body calls
  | .update name operator body calls => updateConfig deps s name operator body calls

/-- The rows of both tables are the same. -/
def SameTables (s s' : ConfigStore) : Prop := s'.configs = s.configs ∧ s'.versions = s.versions

/-- If the request is answered with an error, the tables are as they were. -/
def AtomicOnError (deps : Deps) (s : ConfigStore) (r : EditRequest) : Prop :=
  (r.handle deps s).1.ok = false → SameTables s (r.handle deps s).2

/-! ## When a draft goes in -/

section Condition

variable (deps : Deps) (s : ConfigStore)

/-- The content passes the schema, and the statements for the draft do not fail. -/
structure DraftGoesIn (configID : ℤ) (format schemaDef content : String) (calls : DraftCalls) :
    Prop where
  valid : schemaError deps format schemaDef content = none
  number : calls.getNextVersionNo = none
  insert : calls.createVersion.fault = none
  unique : s.nextVersionNo configID ∉ s.versionNos configID
  id : s.nextVersionID + calls.createVersion.gap < 2 ^ 63

/-- The config row of the request goes in. -/
structure ConfigGoesIn (name namespace_ : String) (call : Call) : Prop where
  insert : call.fault = none
  unique : s.getConfig deps name namespace_ = none
  id : s.nextConfigID + call.gap < 2 ^ 63

/-- The condition on a create request. -/
def CreateIsAtomic (body : Option CreateReq) (calls : CreateCalls) : Prop :=
  ∀ req ∈ body, req.name ≠ "" → req.content ≠ "" →
    ConfigGoesIn deps s req.name (orDefault "default" req.namespace_) calls.createConfig →
    DraftGoesIn deps s (s.nextConfigID + calls.createConfig.gap) (orDefault "json" req.format)
      req.schemaDef req.content calls.draft

/-- The condition on an update request. -/
def UpdateIsAtomic (name : String) (body : Option UpdateReq) (calls : UpdateCalls) : Prop :=
  ∀ req ∈ body, calls.getConfig = none → calls.updateConfigMeta.fault = none →
    ∀ row ∈ s.getConfig deps name (orDefault "default" req.namespace_),
      req.content = "" ∨
      DraftGoesIn deps s row.id (req.edit row).format req.schemaDef req.content calls.draft ∨
      ∀ c ∈ s.configs, c.id = row.id →
        ConfigStore.setMeta (req.edit row) calls.updateConfigMeta.now c = c

/-- The condition on a request. -/
def EditRequest.IsAtomic : EditRequest → Prop
  | .create _ body calls => CreateIsAtomic deps s body calls
  | .update name _ body calls => UpdateIsAtomic deps s name body calls

end Condition

variable {deps : Deps} {s s' : ConfigStore} {cfg : Config} {ver : ConfigVersion}
variable {name namespace_ format schemaDef description content operator : String}
variable {status : ℤ} {call : Call} {draft : DraftCalls}

/-! ## What the statements do -/

/-- The draft is inserted exactly if all goes well. -/
theorem draftVersion_isOk_iff :
    (∃ r, draftVersion deps s cfg content operator draft = .ok r) ↔
      DraftGoesIn deps s cfg.id cfg.format cfg.schemaDef content draft := by
  constructor
  · rintro ⟨⟨ver, s'⟩, h⟩
    unfold draftVersion at h
    split at h
    · cases h
    · next hvalid =>
      split at h
      · cases h
      · next verNo hno =>
        split at h
        · cases h
        · next r hver =>
          obtain ⟨hnumber, rfl⟩ := ConfigStore.getNextVersionNo_eq_ok.mp hno
          obtain ⟨hinsert, hunique, hid, -⟩ := ConfigStore.createVersion_eq_ok.mp hver
          exact ⟨hvalid, hnumber, hinsert, hunique, hid⟩
  · intro h
    have hno : s.getNextVersionNo draft.getNextVersionNo cfg.id = .ok _ :=
      ConfigStore.getNextVersionNo_eq_ok.mpr ⟨h.number, rfl⟩
    have hver : s.createVersion deps draft.createVersion cfg.id (s.nextVersionNo cfg.id) content 0
        operator = .ok _ :=
      ConfigStore.createVersion_eq_ok.mpr ⟨h.insert, h.unique, h.id, rfl, rfl⟩
    unfold draftVersion
    rw [h.valid, hno]
    dsimp only
    rw [hver]
    exact ⟨_, rfl⟩

/-- A draft that does not go in ends the request with an error. -/
theorem draftVersion_error_ok {r : Response}
    (h : draftVersion deps s cfg content operator draft = .error r) : r.ok = false := by
  unfold draftVersion at h
  split at h
  · cases h
    rfl
  · split at h
    · cases h
      rfl
    · split at h
      · cases h
        rfl
      · cases h

/-- The end of both requests, after a first write has made `s₁` of `s`. -/
theorem draft_atomic_iff (s₁ : ConfigStore) (answer : ConfigVersion → Option Data) :
    let end_ := match draftVersion deps s₁ cfg content operator draft with
      | .error r => (r, s₁)
      | .ok (ver, s₂) => (writeOK (answer ver), s₂)
    (end_.1.ok = false → SameTables s end_.2) ↔
      DraftGoesIn deps s₁ cfg.id cfg.format cfg.schemaDef content draft ∨ SameTables s s₁ := by
  have hdraft : (∃ r, draftVersion deps s₁ cfg content operator draft = .ok r) ↔
      DraftGoesIn deps s₁ cfg.id cfg.format cfg.schemaDef content draft := draftVersion_isOk_iff
  rw [← hdraft]
  cases h : draftVersion deps s₁ cfg content operator draft with
  | error r =>
    have hr : r.ok = false := draftVersion_error_ok h
    constructor
    · intro hsame
      exact .inr (hsame hr)
    · rintro (⟨_, hok⟩ | hsame)
      · cases hok
      · exact fun _ => hsame
  | ok p =>
    refine iff_of_true (fun hfalse => ?_) (.inl ⟨p, rfl⟩)
    cases hfalse

/-! ## The two requests -/

/-- A create request whose config row has gone in can no longer fail without a trace. -/
theorem createConfig_atomic_iff (body : Option CreateReq) (calls : CreateCalls) :
    AtomicOnError deps s (.create operator body calls) ↔ CreateIsAtomic deps s body calls := by
  unfold AtomicOnError CreateIsAtomic EditRequest.handle createConfig
  cases body with
  | none => exact iff_of_true (fun _ => ⟨rfl, rfl⟩) (fun _ h => by cases h)
  | some req =>
    simp only [Option.mem_def, Option.some.injEq, forall_eq']
    by_cases hlack : req.name = "" ∨ req.content = ""
    · rw [if_pos hlack]
      refine iff_of_true (fun _ => ⟨rfl, rfl⟩) fun hname hcontent => ?_
      exact absurd hlack (not_or.mpr ⟨hname, hcontent⟩)
    · rw [if_neg hlack]
      obtain ⟨hname, hcontent⟩ := not_or.mp hlack
      split
      · -- the config row does not go in
        next e herr =>
        refine iff_of_true (fun _ => ⟨rfl, rfl⟩) fun _ _ hin => ?_
        rw [ConfigStore.createConfig_eq_ok.mpr ⟨hin.insert, hin.unique, hin.id, rfl, rfl⟩] at herr
        cases herr
      · next cfg s₁ hok =>
        obtain ⟨hfault, hnew, hid, rfl, rfl⟩ := ConfigStore.createConfig_eq_ok.mp hok
        refine (draft_atomic_iff _ fun ver => some (.created _ ver.id ver.version)).trans ?_
        have hgrown : ¬ SameTables s (s.insertConfig (s.newConfig calls.createConfig req.name
            (orDefault "default" req.namespace_) (orDefault "json" req.format) req.schemaDef
            req.description 0)) := by
          intro hsame
          have hlen := congrArg List.length hsame.1
          rw [ConfigStore.insertConfig, List.length_append, List.length_singleton] at hlen
          omega
        rw [or_iff_left hgrown]
        constructor
        · intro h _ _ _
          exact ⟨h.valid, h.number, h.insert, h.unique, h.id⟩
        · intro h
          have hdraft := h hname hcontent ⟨hfault, hnew, hid⟩
          exact ⟨hdraft.valid, hdraft.number, hdraft.insert, hdraft.unique, hdraft.id⟩

/-- The metadata write leaves the tables as they are if every row that it is for has the
metadata. -/
theorem sameTables_updateConfigMeta {now : ℤ}
    (h : s.updateConfigMeta call cfg = .ok s') (hnow : call.now = now) :
    SameTables s s' ↔ ∀ c ∈ s.configs, c.id = cfg.id → ConfigStore.setMeta cfg now c = c := by
  obtain ⟨-, heq⟩ := attempt_eq_ok.mp h
  cases heq
  subst hnow
  constructor
  · rintro ⟨hconfigs, -⟩ c hc hid
    have hfix := List.map_inj_left.mp (hconfigs.trans (List.map_id _).symm) c hc
    rwa [if_pos hid] at hfix
  · intro hfix
    refine ⟨?_, rfl⟩
    show s.configs.map _ = s.configs
    conv_rhs => rw [← List.map_id s.configs]
    refine List.map_congr_left fun c hc => ?_
    split_ifs with hid
    · exact hfix c hc hid
    · rfl

/-- An update request whose metadata has been written can no longer fail without a trace, unless
the metadata was there already. -/
theorem updateConfig_atomic_iff (body : Option UpdateReq) (calls : UpdateCalls) :
    AtomicOnError deps s (.update name operator body calls) ↔
      UpdateIsAtomic deps s name body calls := by
  unfold AtomicOnError UpdateIsAtomic EditRequest.handle updateConfig
  cases body with
  | none => exact iff_of_true (fun _ => ⟨rfl, rfl⟩) (fun _ h => by cases h)
  | some req =>
    simp only [Option.mem_def, Option.some.injEq, forall_eq']
    split
    · -- the config is not read
      next e herr =>
      refine iff_of_true (fun _ => ⟨rfl, rfl⟩) fun hfault => ?_
      rw [hfault] at herr
      cases herr
    · next hnone =>
      obtain ⟨-, hget⟩ := attempt_eq_ok.mp hnone
      refine iff_of_true (fun _ => ⟨rfl, rfl⟩) fun _ _ row hrow => ?_
      rw [Except.ok.inj hget] at hrow
      cases hrow
    · next row hrow =>
      obtain ⟨hfault, hget⟩ := attempt_eq_ok.mp hrow
      have hrow' := Except.ok.inj hget
      split
      · -- the metadata is not written
        next e herr =>
        refine iff_of_true (fun _ => ⟨rfl, rfl⟩) fun _ hmeta => ?_
        rw [ConfigStore.updateConfigMeta, hmeta] at herr
        cases herr
      · next s₁ hmeta =>
        have hsame := sameTables_updateConfigMeta hmeta rfl
        obtain ⟨hmetaOk, hs₁⟩ := attempt_eq_ok.mp hmeta
        rw [hrow']
        by_cases hcontent : req.content = ""
        · -- no draft is asked for
          rw [if_neg (not_not.mpr hcontent)]
          refine iff_of_true (fun h => ?_) fun _ _ _ _ => .inl hcontent
          cases h
        · rw [if_pos hcontent]
          refine (draft_atomic_iff s₁ fun ver => some (.edited _ ver.id)).trans ?_
          cases hs₁
          constructor
          · rintro h _ _ row' hrow''
            cases hrow''
            rcases h with hdraft | htables
            · exact .inr (.inl ⟨hdraft.valid, hdraft.number, hdraft.insert, hdraft.unique, hdraft.id⟩)
            · exact .inr (.inr (hsame.mp htables))
          · intro h
            rcases h hfault hmetaOk row rfl with hempty | hdraft | htables
            · exact absurd hempty hcontent
            · exact .inl ⟨hdraft.valid, hdraft.number, hdraft.insert, hdraft.unique, hdraft.id⟩
            · exact .inr (hsame.mpr htables)

/-- Exactly the requests that meet the condition leave the tables alone if they fail. -/
theorem atomicOnError_iff (deps : Deps) (s : ConfigStore) (r : EditRequest) :
    AtomicOnError deps s r ↔ r.IsAtomic deps s := by
  cases r with
  | create operator body calls => exact createConfig_atomic_iff body calls
  | update name operator body calls => exact updateConfig_atomic_iff body calls

/-- A service whose schema check finds a list where an object is asked for. -/
def listForObject : Deps where
  collate := String.toLower
  validateJSONSchema := fun _ _ => some ": expected type \"object\", got \"array\""
  calcChecksum := fun _ => ""

/-- The config `flags`, whose content should be an object and is a list. -/
def createList : EditRequest :=
  .create "" (some ⟨"flags", "", "json", "\x7b\"type\":\"object\"\x7d", "", "[]"⟩)
    ⟨.fine 0, none, .fine 0⟩

/-- The request is refused, and the config is there without a version. -/
theorem not_atomicOnError_createList : ¬ AtomicOnError listForObject ⟨[], [], 1, 1⟩ createList := by
  intro h
  have hrefused : (createList.handle listForObject ⟨[], [], 1, 1⟩).1.ok = false := by
    decide
  have hleft : (createList.handle listForObject ⟨[], [], 1, 1⟩).2.configs.length = 1 := by
    decide
  rw [(h hrefused).1] at hleft
  cases hleft

end Gmaker.ConfigService
