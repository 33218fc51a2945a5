import Gmaker.Config.StoreWf
import Gmaker.Lib.Machine

/-!
# Gmaker.Config.Pull — the two paths of a pull

A pull is answered from Redis if the key is there, and from the tables otherwise. Publishing and
rolling back write the keys and nothing deletes them: what they hold must stay what the tables
hold. And the Redis path checks nothing, while the path through the tables does not check that
the version asked for is one of the config.

After every run in which no config with keys is deleted, and a current version that changes in
one place changes in the other, a pull is answered alike on both paths, and refused where it
should be, exactly if it does not ask for a version of another config
(`ConfigHandler.pullsAgree_iff`).
-/

namespace Gmaker.ConfigService

open Gmaker.Lib

/-! ## Histories -/

/-- A request that changes something, with what the environment makes of its calls. -/
inductive Change where
  | create (operator : String) (body : Option CreateReq) (calls : CreateCalls)
  | update (name operator : String) (body : Option UpdateReq) (calls : UpdateCalls)
  | publish (name : String) (body : Option ReleaseReq) (calls : PublishCalls)
  | rollback (name operator : String) (body : Option ReleaseReq) (calls : RollbackCalls)
  | delete (name namespace_ : String) (calls : DeleteCalls)
deriving DecidableEq

/-- What is asked for by a pull. -/
structure PullReq where
  name : String
  namespace_ : String
  versionID : String
deriving DecidableEq

namespace ConfigHandler

/-- A service with empty tables and an empty Redis, if any. -/
def new (hasRedis : Bool) : ConfigHandler := ⟨⟨[], [], 1, 1⟩, hasRedis, fun _ => none⟩

variable (deps : Deps) (h : ConfigHandler)

/-- One request is handled. -/
def handle : Change → ConfigHandler
  | .create operator body calls =>
    { h with store := (createConfig deps h.store operator body calls).2 }
  | .update name operator body calls =>
    { h with store := (updateConfig deps h.store name operator body calls).2 }
  | .publish name body calls => (h.publishConfig deps name body calls).2
  | .rollback name operator body calls => (h.rollbackConfig deps name operator body calls).2
  | .delete name namespace_ calls =>
    { h with store := (deleteConfig deps h.store name namespace_ calls).2 }

def next (c : Change) : Option ConfigHandler := some (h.handle deps c)

/-- The answers to a pull, where the tables can be read. -/
def redisAnswer (r : PullReq) : Option Response := h.pullRedis r.name r.namespace_ r.versionID

def storeAnswer (r : PullReq) : Response :=
  h.pullStore deps r.name r.namespace_ r.versionID none none

/-- The config that a pull is for. -/
def configOf (r : PullReq) : Option Config :=
  h.store.getConfig deps r.name (orDefault "default" r.namespace_)

/-- The version that is asked for is one of another config. -/
def Foreign (r : PullReq) : Prop :=
  r.versionID ≠ "" ∧ ∃ cfg ∈ h.configOf deps r, ∃ vid ∈ parseVersionID r.versionID,
    ∃ ver ∈ h.store.getVersion vid, ver.configID ≠ cfg.id

/-- Nothing is served, on neither path. -/
def Refused (r : PullReq) : Prop := h.redisAnswer r = none ∧ (h.storeAnswer deps r).ok = false

/-- Both paths answer alike; a config that is not there is not served, and neither is a version
of another config. -/
structure PullsAgree (r : PullReq) : Prop where
  same : ∀ answer ∈ h.redisAnswer r, answer = h.storeAnswer deps r
  deleted : h.configOf deps r = none → h.Refused deps r
  foreign : h.Foreign deps r → h.Refused deps r

/-! ## The condition -/

/-- No separator of the keys is in the names. -/
def Plain (cfg : Config) : Prop := ':' ∉ cfg.namespace_.toList ∧ ':' ∉ cfg.name.toList

/-- Redis has no key of the config. -/
def Uncached (cfg : Config) : Prop :=
  h.redis (currentKey cfg.namespace_ cfg.name) = none ∧
    ∀ v ∈ h.store.versions, v.configID = cfg.id →
      h.redis (versionKey cfg.namespace_ cfg.name v.id.repr) = none

/-- The current version changes in Redis as it does in the tables, or Redis has none; and what
is stored is under a key of the config alone, and is read as it was. -/
def PushIsSafe (cfg : Config) (versionID : ℤ) (updated : Bool) (push : PushCalls) : Prop :=
  h.hasRedis = true →
    (if updated then
      push.current = true ∨ h.redis (currentKey cfg.namespace_ cfg.name) = none
    else push.current = false) ∧
    (push.current = true ∨ push.version = true → Plain cfg ∧ echo versionID = versionID)

/-- The condition on a request. -/
def Safe : Change → Prop
  | .create .. | .update .. => True
  | .publish name body calls =>
    ∀ p ∈ (h.findRelease deps name body calls.getConfig calls.getVersion).toOption,
      calls.publishVersion.fault = none → calls.updateConfigCurrentVersion.fault = none →
        h.PushIsSafe p.1 p.2.id true calls.push
  | .rollback name _ body calls =>
    ∀ p ∈ (h.findRelease deps name body calls.getConfig calls.getVersion).toOption,
      calls.getNextVersionNo = none → calls.createVersion.fault = none →
        h.PushIsSafe p.1 (h.store.nextVersionID + calls.createVersion.gap)
          (calls.updateConfigCurrentVersion.fault = none) calls.push
  | .delete name namespace_ calls =>
    calls.getConfig = none → calls.deleteConfig.fault = none →
      ∀ cfg ∈ h.store.getConfig deps name (orDefault "default" namespace_), h.Uncached cfg

instance (cfg : Config) : Decidable (Plain cfg) := inferInstanceAs (Decidable (_ ∧ _))

instance (cfg : Config) : Decidable (h.Uncached cfg) := inferInstanceAs (Decidable (_ ∧ _))

instance (cfg : Config) (versionID : ℤ) (updated : Bool) (push : PushCalls) :
    Decidable (h.PushIsSafe cfg versionID updated push) := by
  unfold PushIsSafe
  infer_instance

instance (c : Change) : Decidable (h.Safe deps c) := by
  unfold Safe
  split <;> infer_instance

end ConfigHandler

/-! ## Keys -/

/-- Where two texts are cut at a separator, and the first part of the second has none, they are
cut alike or the second goes on to where the first is cut. -/
theorem cut_cases {x x' y y' : List Char} (hx : ':' ∉ x') (h : x ++ ':' :: y = x' ++ ':' :: y') :
    (x = x' ∧ y = y') ∨ ∃ t, y' = t ++ ':' :: y := by
  rcases List.append_eq_append_iff.mp h with ⟨a, rfl, ha⟩ | ⟨a, rfl, ha⟩
  · cases a with
    | nil => exact .inl ⟨(List.append_nil x).symm, (List.cons.inj ha).2⟩
    | cons b a =>
      rw [(List.cons.inj ha).1] at hx
      exact absurd (List.mem_append_right _ List.mem_cons_self) hx
  · cases a with
    | nil => exact .inl ⟨List.append_nil x', (List.cons.inj ha).2.symm⟩
    | cons b a => exact .inr ⟨a, (List.cons.inj ha).2⟩

theorem not_mem_of_eq {t y y' : List Char} (hy : ':' ∉ y') : y' ≠ t ++ ':' :: y := by
  rintro rfl
  exact hy (List.mem_append_right _ List.mem_cons_self)

theorem toList_colon (s : String) : (":" ++ s).toList = ':' :: s.toList := String.toList_append

/-- The characters of a key after its first part. -/
theorem toList_key (p ns rest : String) :
    (p ++ ns ++ ":" ++ rest).toList = p.toList ++ (ns.toList ++ ':' :: rest.toList) := by
  rw [String.append_assoc, String.append_assoc, String.toList_append, String.toList_append,
    toList_colon]

theorem toList_currentKey (ns name : String) :
    (currentKey ns name).toList = "config:current:".toList ++ (ns.toList ++ ':' :: name.toList) :=
  toList_key _ ns name

theorem toList_versionKey (ns name vid : String) :
    (versionKey ns name vid).toList =
      "config:version:".toList ++ (ns.toList ++ ':' :: (name.toList ++ ':' :: vid.toList)) := by
  have hassoc : versionKey ns name vid = "config:version:" ++ ns ++ ":" ++ (name ++ (":" ++ vid)) :=
    (String.append_assoc ..).trans (String.append_assoc ..)
  rw [hassoc]
  refine (toList_key _ ns _).trans ?_
  rw [String.toList_append (s := name), toList_colon]

theorem currentKey_ne_versionKey (ns name ns' name' vid : String) :
    currentKey ns name ≠ versionKey ns' name' vid := by
  intro h
  -- the first letters that are not alike
  have hletter := congrArg (fun s => s.toList[7]?) h
  rw [toList_currentKey, toList_versionKey, List.getElem?_append_left (by decide),
    List.getElem?_append_left (by decide)] at hletter
  exact absurd hletter (by decide)

/-- The key of plain names belongs to them alone. -/
theorem currentKey_inj {ns name ns' name' : String} (hns : ':' ∉ ns'.toList)
    (hname : ':' ∉ name'.toList) (h : currentKey ns name = currentKey ns' name') :
    ns = ns' ∧ name = name' := by
  have hlist := congrArg String.toList h
  rw [toList_currentKey, toList_currentKey, List.append_cancel_left_eq] at hlist
  rcases cut_cases hns hlist with ⟨hx, hy⟩ | ⟨t, ht⟩
  · exact ⟨String.toList_inj.mp hx, String.toList_inj.mp hy⟩
  · exact absurd ht (not_mem_of_eq hname)

theorem versionKey_inj {ns name vid ns' name' vid' : String} (hns : ':' ∉ ns'.toList)
    (hname : ':' ∉ name'.toList) (hvid : ':' ∉ vid'.toList)
    (h : versionKey ns name vid = versionKey ns' name' vid') :
    ns = ns' ∧ name = name' ∧ vid = vid' := by
  have hlist := congrArg String.toList h
  rw [toList_versionKey, toList_versionKey, List.append_cancel_left_eq] at hlist
  rcases cut_cases hns hlist with ⟨hx, hrest⟩ | ⟨t, ht⟩
  · rcases cut_cases hname hrest with ⟨hy, hz⟩ | ⟨t, ht⟩
    · exact ⟨String.toList_inj.mp hx, String.toList_inj.mp hy, String.toList_inj.mp hz⟩
    · exact absurd ht (not_mem_of_eq hvid)
  · -- there are too few separators on the right
    rcases cut_cases hname ht.symm with ⟨-, hz⟩ | ⟨t', ht'⟩
    · exact absurd hz.symm (not_mem_of_eq hvid)
    · exact absurd ht' (not_mem_of_eq hvid)

/-- A number has no separator in it. -/
theorem not_mem_repr (z : ℤ) : ':' ∉ z.repr.toList := by
  have hdigits (n : ℕ) : ':' ∉ n.repr.toList := by
    intro hmem
    rw [Nat.toList_repr] at hmem
    exact absurd (isDigit_of_mem_toDigits hmem) (by decide)
  cases z with
  | ofNat n => exact hdigits n
  | negSucc n =>
    rw [Int.repr, String.toList_append, List.mem_append, not_or]
    exact ⟨by decide, hdigits _⟩

/-! ## What Redis holds -/

/-- What is under the key is a version of a config that is there, and the current one if the key
says so. -/
def Cached (s : ConfigStore) (key : String) (d : PullData) : Prop :=
  ∃ cfg ∈ s.configs, ∃ ver ∈ s.versions, ver.configID = cfg.id ∧ ConfigHandler.Plain cfg ∧
    echo ver.id = ver.id ∧ d = ver.pullData ∧
      (key = versionKey cfg.namespace_ cfg.name ver.id.repr ∨
        key = currentKey cfg.namespace_ cfg.name ∧ cfg.currentVersion = ver.id)

namespace ConfigHandler

/-- The invariant of a service. -/
structure Inv (deps : Deps) (h : ConfigHandler) : Prop where
  wf : h.store.Wf deps
  cached : ∀ key d, h.redis key = some d → Cached h.store key d
  unused : h.hasRedis = false → ∀ key, h.redis key = none

end ConfigHandler

section Cached

open ConfigStore

variable {deps : Deps} {s s' : ConfigStore} {cfg : Config} {ver : ConfigVersion} {key : String}
variable {d : PullData} {call : Call}

/-- Rows that are kept stay cached. -/
theorem Cached.keeps (h : Cached s key d) (hk : s.Keeps s') : Cached s' key d := by
  obtain ⟨cfg, hcfg, ver, hver, hown, hplain, hecho, rfl, hkey⟩ := h
  obtain ⟨cfg', hcfg', hid, hname, hns, hcur⟩ := hk.configs cfg hcfg
  obtain ⟨ver', hver', hown', hdata⟩ := hk.versions ver hver
  have hvid : ver'.id = ver.id := congrArg PullData.versionID hdata
  refine ⟨cfg', hcfg', ver', hver', by rw [hown', hown, hid], ?_, by rw [hvid, hecho], hdata.symm, ?_⟩
  · rw [ConfigHandler.Plain, hname, hns]
    exact hplain
  · rw [hname, hns, hcur, hvid]
    exact hkey

/-- The rows of `configs` after the current version of one was written. -/
theorem mem_updateConfigCurrentVersion {configID versionID : ℤ}
    (hok : s.updateConfigCurrentVersion call configID versionID = .ok s') (hcfg : cfg ∈ s.configs) :
    ∃ cfg' ∈ s'.configs, cfg'.id = cfg.id ∧ cfg'.name = cfg.name ∧
      cfg'.namespace_ = cfg.namespace_ ∧
      cfg'.currentVersion = if cfg.id = configID then versionID else cfg.currentVersion := by
  obtain ⟨-, heq⟩ := attempt_eq_ok.mp hok
  cases heq
  refine ⟨_, List.mem_map_of_mem hcfg, ?_⟩
  split_ifs <;> exact ⟨rfl, rfl, rfl, rfl⟩

theorem versions_updateConfigCurrentVersion {configID versionID : ℤ}
    (hok : s.updateConfigCurrentVersion call configID versionID = .ok s') :
    s'.versions = s.versions := by
  obtain ⟨-, heq⟩ := attempt_eq_ok.mp hok
  cases heq
  rfl

/-- What is cached stays so when the current version of a config is written, but for the key of
its current version. -/
theorem Cached.updateConfigCurrentVersion (h : Cached s key d) (hwf : s.Wf deps)
    (hcfg : cfg ∈ s.configs) {versionID : ℤ}
    (hok : s.updateConfigCurrentVersion call cfg.id versionID = .ok s')
    (hkey : key ≠ currentKey cfg.namespace_ cfg.name) : Cached s' key d := by
  obtain ⟨cfg₀, hcfg₀, ver, hver, hown, hplain, hecho, hd, hcase⟩ := h
  obtain ⟨cfg', hcfg', hid, hname, hns, hcur⟩ := mem_updateConfigCurrentVersion hok hcfg₀
  refine ⟨cfg', hcfg', ver, by rwa [versions_updateConfigCurrentVersion hok], by rw [hid, hown], ?_,
    hecho, hd, ?_⟩
  · rw [ConfigHandler.Plain, hname, hns]
    exact hplain
  · rw [hname, hns]
    rcases hcase with hversion | ⟨hcurrent, hvid⟩
    · exact .inl hversion
    · -- the key is that of another config
      have hne : cfg₀.id ≠ cfg.id := by
        intro heq
        rw [hwf.eq_of_id hcfg₀ hcfg heq] at hcurrent
        exact hkey hcurrent
      rw [if_neg hne] at hcur
      exact .inr ⟨hcurrent, hcur.trans hvid⟩

end Cached

namespace ConfigHandler

variable {deps : Deps} {h h' : ConfigHandler} {s : ConfigStore} {cfg : Config} {ver : ConfigVersion}
variable {key : String} {d : PullData} {push : PushCalls} {r : PullReq}

/-! ## What the keys hold after a push -/

theorem set_redis {stored : Bool} {key' : String} {d' : PullData} :
    (h.set stored key' d').redis key = some d →
      (stored = true ∧ key = key' ∧ d = d') ∨
        h.redis key = some d ∧ ¬ (stored = true ∧ key = key') := by
  unfold set
  intro hget
  split_ifs at hget with hstored
  · dsimp only at hget
    rw [Function.update_apply] at hget
    split_ifs at hget with hkey
    · cases hget
      exact .inl ⟨hstored, hkey, rfl⟩
    · exact .inr ⟨hget, fun hboth => hkey hboth.2⟩
  · exact .inr ⟨hget, fun hboth => hstored hboth.1⟩

theorem pushEvent_store : (h.pushEvent cfg ver push).store = h.store := by
  unfold pushEvent set
  split_ifs <;> rfl

theorem pushEvent_hasRedis : (h.pushEvent cfg ver push).hasRedis = h.hasRedis := by
  unfold pushEvent set
  split_ifs <;> rfl

theorem pushEvent_of_not_hasRedis (hno : h.hasRedis = false) : h.pushEvent cfg ver push = h := by
  rw [pushEvent, hno, if_neg Bool.false_ne_true]

/-- A push leaves everything well that is not under the key of the current version, and that too
if the new version is the current one there. -/
theorem Inv.pushEvent (hwf : s.Wf deps) (hcfg : cfg ∈ s.configs)
    (hver : ∃ v ∈ s.versions, v.configID = cfg.id ∧ v.pullData = ver.pullData)
    (hplain : h.hasRedis = true → push.current = true ∨ push.version = true →
      Plain cfg ∧ echo ver.id = ver.id)
    (hold : ∀ key d, h.redis key = some d →
      (h.hasRedis = true → push.current = true →
        key ≠ currentKey cfg.namespace_ cfg.name) → Cached s key d)
    (hcur : h.hasRedis = true → push.current = true → cfg.currentVersion = ver.id)
    (hunused : h.hasRedis = false → ∀ key, h.redis key = none) :
    Inv deps ({ h with store := s }.pushEvent cfg ver push) := by
  obtain ⟨v, hv, hown, hdata⟩ := hver
  have hvid : v.id = ver.id := congrArg PullData.versionID hdata
  refine ⟨by rw [pushEvent_store]; exact hwf, fun key d hget => ?_, fun hno => ?_⟩
  rotate_left
  · rw [pushEvent_hasRedis] at hno
    rw [pushEvent_of_not_hasRedis hno]
    exact hunused hno
  rw [pushEvent_store]
  unfold ConfigHandler.pushEvent at hget
  split_ifs at hget with hredis
  · rcases set_redis hget with ⟨hstored, rfl, rfl⟩ | ⟨hget, hother⟩
    · -- the key of the version
      obtain ⟨hpl, hecho⟩ := hplain hredis (.inr hstored)
      exact ⟨cfg, hcfg, v, hv, hown, hpl, by rw [hvid, hecho], hdata.symm, .inl (by rw [hvid])⟩
    · rcases set_redis hget with ⟨hstored, rfl, rfl⟩ | ⟨hget, hcurrent⟩
      · -- the key of the current version
        obtain ⟨hpl, hecho⟩ := hplain hredis (.inl hstored)
        refine ⟨cfg, hcfg, v, hv, hown, hpl, by rw [hvid, hecho], hdata.symm, .inr ⟨rfl, ?_⟩⟩
        rw [hcur hredis hstored, hvid]
      · exact hold key d hget fun _ hstored hkey => hcurrent ⟨hstored, hkey⟩
  · exact hold key d hget fun htrue => absurd htrue hredis

/-- What is pushed depends on the names of the config alone. -/
theorem pushEvent_congr {cfg' : Config} (hname : cfg'.name = cfg.name)
    (hns : cfg'.namespace_ = cfg.namespace_) :
    h.pushEvent cfg' ver push = h.pushEvent cfg ver push := by
  unfold pushEvent
  rw [hname, hns]

/-- The end of a publication and of a roll-back: the current version is written to the tables,
which may fail, and pushed. -/
theorem Inv.release {call : Call} (hinv : Inv deps h) (hgrows : h.store.Grows deps s)
    (hconfigs : s.configs = h.store.configs) (hcfg : cfg ∈ h.store.configs)
    (hver : ∃ v ∈ s.versions, v.configID = cfg.id ∧ v.pullData = ver.pullData)
    (hsafe : h.PushIsSafe cfg ver.id (call.fault = none) push) :
    Inv deps ({ h with store := ignoring s (s.updateConfigCurrentVersion call cfg.id ver.id)
      }.pushEvent cfg ver push) := by
  have hcfg' : cfg ∈ s.configs := hconfigs ▸ hcfg
  cases hok : s.updateConfigCurrentVersion call cfg.id ver.id with
  | error e =>
    have hfault : call.fault ≠ none := by
      intro hnone
      rw [ConfigStore.updateConfigCurrentVersion, hnone] at hok
      cases hok
    have hpush (hredis : h.hasRedis = true) : push.current = false := by
      have := (hsafe hredis).1
      rwa [if_neg (by simpa using hfault)] at this
    refine Inv.pushEvent hgrows.wf hcfg' hver (fun hredis => (hsafe hredis).2) ?_ ?_ hinv.unused
    · exact fun key d hget _ => (hinv.cached key d hget).keeps hgrows.keeps
    · intro hredis hcurrent
      rw [hpush hredis] at hcurrent
      cases hcurrent
  | ok s₂ =>
    obtain ⟨cfg₂, hcfg₂, hid, hname, hns, hcur⟩ := mem_updateConfigCurrentVersion hok hcfg'
    rw [if_pos rfl] at hcur
    have hfault : call.fault = none := (attempt_eq_ok.mp hok).1
    rw [← pushEvent_congr hname hns]
    refine Inv.pushEvent (hgrows.wf.updateConfigCurrentVersion hok) hcfg₂ ?_ ?_ ?_ ?_ hinv.unused
    · show ∃ v ∈ s₂.versions, v.configID = cfg₂.id ∧ v.pullData = ver.pullData
      rwa [versions_updateConfigCurrentVersion hok, hid]
    · intro hredis hstored
      rw [Plain, hname, hns]
      exact (hsafe hredis).2 hstored
    · intro key d hget hkey
      refine ((hinv.cached key d hget).keeps hgrows.keeps).updateConfigCurrentVersion hgrows.wf
        hcfg' hok ?_
      rw [hname, hns] at hkey
      cases hredis : h.hasRedis with
      | false =>
        rw [hinv.unused hredis key] at hget
        cases hget
      | true =>
        have hsync := (hsafe hredis).1
        rw [if_pos (by simpa using hfault)] at hsync
        rcases hsync with hcurrent | hnone
        · exact hkey hredis hcurrent
        · -- Redis has no current version that could be left behind
          rintro rfl
          rw [hnone] at hget
          cases hget
    · exact fun _ _ => hcur

/-! ## The requests keep the invariant -/

theorem Inv.of_grows (hinv : Inv deps h) (hgrows : h.store.Grows deps s) :
    Inv deps { h with store := s } where
  wf := hgrows.wf
  cached := fun key d hget => (hinv.cached key d hget).keeps hgrows.keeps
  unused := hinv.unused

/-- A release is of a version of the config. -/
theorem findRelease_eq_ok {name : String} {body : Option ReleaseReq} {f g : Option String}
    (hok : h.findRelease deps name body f g = .ok (cfg, ver)) :
    cfg ∈ h.store.configs ∧ ver ∈ h.store.versions ∧ ver.configID = cfg.id := by
  unfold findRelease at hok
  split at hok
  · cases hok
  · split_ifs at hok
    split at hok
    · cases hok
    · cases hok
    · next cfg' hcfg =>
      split at hok
      · cases hok
      · cases hok
      · next ver' hver =>
        split_ifs at hok with hown
        cases hok
        have hget := Except.ok.inj (attempt_eq_ok.mp hcfg).2
        have hgetv := Except.ok.inj (attempt_eq_ok.mp hver).2
        exact ⟨(ConfigStore.mem_of_getConfig hget).1, (ConfigStore.mem_of_getVersion hgetv).1,
          not_not.mp hown⟩

theorem Inv.publish (hinv : Inv deps h) {name : String} {body : Option ReleaseReq}
    {calls : PublishCalls} (hsafe : h.Safe deps (.publish name body calls)) :
    Inv deps (h.publishConfig deps name body calls).2 := by
  unfold publishConfig
  split
  · exact hinv
  · next cfg ver hfind =>
    obtain ⟨hcfg, hver, hown⟩ := findRelease_eq_ok hfind
    split
    · exact hinv
    · next s₁ hpub =>
      obtain ⟨hgrows, hconfigs⟩ := hinv.wf.publishVersion hpub
      split
      · exact hinv.of_grows hgrows
      · next s₂ hcur =>
        have hfault := (attempt_eq_ok.mp hcur).1
        have hpush : h.PushIsSafe cfg ver.id true calls.push :=
          hsafe (cfg, ver) (by rw [hfind]; rfl) (attempt_eq_ok.mp hpub).1 hfault
        obtain ⟨v, hv, hvown, hdata⟩ := hgrows.keeps.versions ver hver
        have hrelease : Inv deps ({ h with store := ignoring s₁ (s₁.updateConfigCurrentVersion
            calls.updateConfigCurrentVersion cfg.id ver.id) }.pushEvent cfg ver calls.push) :=
          hinv.release hgrows hconfigs hcfg ⟨v, hv, hvown.trans hown, hdata⟩
            (by rwa [decide_eq_true hfault])
        rwa [hcur] at hrelease

theorem Inv.rollback (hinv : Inv deps h) {name operator : String} {body : Option ReleaseReq}
    {calls : RollbackCalls} (hsafe : h.Safe deps (.rollback name operator body calls)) :
    Inv deps (h.rollbackConfig deps name operator body calls).2 := by
  unfold rollbackConfig
  split
  · exact hinv
  · next cfg target hfind =>
    obtain ⟨hcfg, -, -⟩ := findRelease_eq_ok hfind
    dsimp only
    -- the target's status
    obtain ⟨hgrows₁, hconfigs₁, hnext⟩ : h.store.Grows deps (ignoring h.store
        (h.store.rollbackVersion calls.rollbackVersion target.id)) ∧
        (ignoring h.store (h.store.rollbackVersion calls.rollbackVersion target.id)).configs
          = h.store.configs ∧
        (ignoring h.store (h.store.rollbackVersion calls.rollbackVersion target.id)).nextVersionID
          = h.store.nextVersionID := by
      cases hroll : h.store.rollbackVersion calls.rollbackVersion target.id with
      | error e => exact ⟨.refl hinv.wf, rfl, rfl⟩
      | ok s₁ =>
        obtain ⟨hgrows, hconfigs⟩ := hinv.wf.rollbackVersion hroll
        refine ⟨hgrows, hconfigs, ?_⟩
        obtain ⟨-, heq⟩ := attempt_eq_ok.mp hroll
        cases heq
        rfl
    generalize ignoring h.store (h.store.rollbackVersion calls.rollbackVersion target.id) = s₁ at *
    split
    · exact hinv.of_grows hgrows₁
    · next verNo hno =>
      obtain ⟨hnoFault, rfl⟩ := ConfigStore.getNextVersionNo_eq_ok.mp hno
      split
      · exact hinv.of_grows hgrows₁
      · next ver s₂ hcreate =>
        obtain ⟨hfault, -, hid, hnew, rfl⟩ := ConfigStore.createVersion_eq_ok.mp hcreate
        have hvid : ver.id = s₁.nextVersionID + calls.createVersion.gap := by rw [hnew]; rfl
        have hvno : ver.version = s₁.nextVersionNo cfg.id := by rw [hnew]; rfl
        have hvown : ver.configID = cfg.id := by rw [hnew]; rfl
        have hgrows₂ : s₁.Grows deps (s₁.insertVersion ver) :=
          hgrows₁.wf.insertVersion (by omega) (by omega)
            (by rw [hvno]; exact ConfigStore.nextVersionNo_natAbs_le _)
        have hmem : ver ∈ (s₁.insertVersion ver).versions :=
          List.mem_append_right _ List.mem_cons_self
        -- the new version's status
        obtain ⟨hgrows₃, hconfigs₃⟩ : (s₁.insertVersion ver).Grows deps (ignoring
            (s₁.insertVersion ver) ((s₁.insertVersion ver).publishVersion calls.publishVersion ver.id)) ∧
            (ignoring (s₁.insertVersion ver) ((s₁.insertVersion ver).publishVersion
              calls.publishVersion ver.id)).configs = s₁.configs := by
          cases hpub : (s₁.insertVersion ver).publishVersion calls.publishVersion ver.id with
          | error e => exact ⟨.refl hgrows₂.wf, rfl⟩
          | ok s₃ => exact hgrows₂.wf.publishVersion hpub
        obtain ⟨v, hv, hown, hdata⟩ := hgrows₃.keeps.versions ver hmem
        refine hinv.release (hgrows₁.trans (hgrows₂.trans hgrows₃)) (hconfigs₃.trans hconfigs₁) hcfg
          ⟨v, hv, hown.trans hvown, hdata⟩ ?_
        rw [hvid, hnext]
        exact hsafe (cfg, target) (by rw [hfind]; rfl) hnoFault hfault

theorem Inv.delete (hinv : Inv deps h) {name namespace_ : String} {calls : DeleteCalls}
    (hsafe : h.Safe deps (.delete name namespace_ calls)) :
    Inv deps { h with store := (deleteConfig deps h.store name namespace_ calls).2 } := by
  unfold deleteConfig
  split
  · exact hinv
  · exact hinv
  · next cfg hread =>
    obtain ⟨hreadFault, hget⟩ := attempt_eq_ok.mp hread
    have hget' := Except.ok.inj hget
    have hcfg := (ConfigStore.mem_of_getConfig hget').1
    split
    · exact hinv
    · next s₁ hdel =>
      obtain ⟨hdelFault, heq⟩ := attempt_eq_ok.mp hdel
      obtain ⟨hcurrent, hversions⟩ := hsafe hreadFault hdelFault cfg hget'
      have hwf := hinv.wf.deleteConfig hdel
      cases heq
      refine ⟨hwf, fun key d hkey => ?_, hinv.unused⟩
      obtain ⟨cfg₀, hcfg₀, ver, hver, hown, hplain, hecho, hd, hcase⟩ := hinv.cached key d hkey
      -- a config with a key is not the one that is deleted
      have hne : cfg₀.id ≠ cfg.id := by
        intro hid
        have hsame : cfg₀ = cfg := hinv.wf.eq_of_id hcfg₀ hcfg hid
        subst hsame
        rcases hcase with rfl | ⟨rfl, -⟩
        · rw [hversions ver hver hown] at hkey
          cases hkey
        · rw [hcurrent] at hkey
          cases hkey
      refine ⟨cfg₀, List.mem_filter.mpr ⟨hcfg₀, decide_eq_true hne⟩, ver,
        List.mem_filter.mpr ⟨hver, decide_eq_true ?_⟩, hown, hplain, hecho, hd, hcase⟩
      rw [hown]
      exact hne

/-- A request that meets the condition keeps the invariant. -/
theorem Inv.next {c : Change} (hsafe : h.Safe deps c) (hinv : Inv deps h)
    (hnext : h.next deps c = some h') : Inv deps h' := by
  cases hnext
  cases c with
  | create operator body calls => exact hinv.of_grows (createConfig_grows hinv.wf body calls)
  | update name operator body calls => exact hinv.of_grows (updateConfig_grows hinv.wf body calls)
  | publish name body calls => exact hinv.publish hsafe
  | rollback name operator body calls => exact hinv.rollback hsafe
  | delete name namespace_ calls => exact hinv.delete hsafe

theorem Inv.new (hasRedis : Bool) : Inv deps (new hasRedis) where
  wf :=
    { names := List.nodup_nil
      configIDs := List.nodup_nil
      configLow := fun _ hc => absurd hc List.not_mem_nil
      versionIDs := List.nodup_nil
      versionLow := fun _ hv => absurd hv List.not_mem_nil
      nextVersionID := Int.one_pos
      versionFits := fun _ hv => absurd hv List.not_mem_nil }
  cached := by
    intro key d hget
    cases hget
  unused := fun _ _ => rfl

/-! ## The two paths -/

/-- A number in 32 bits is read as it was. -/
theorem echo_version {z : ℤ} (hz : z.natAbs ≤ 2 ^ 31) : echo z = z :=
  echo_of_small (hz.trans_lt (by norm_num))

theorem parseVersionID_repr {z : ℤ} (hpos : 0 < z) (hlt : z < 2 ^ 63) :
    parseVersionID z.repr = some z := by
  rw [parseVersionID, parseInt_repr (by omega) (by omega)]
  rfl

/-- What Redis serves is what the tables hold. -/
theorem Inv.same (hinv : Inv deps h) :
    ∀ answer ∈ h.redisAnswer r, answer = h.storeAnswer deps r ∧ ¬ h.Foreign deps r ∧
      h.configOf deps r ≠ none := by
  intro answer hanswer
  unfold redisAnswer pullRedis at hanswer
  by_cases hredis : h.hasRedis = true
  swap
  · rw [if_neg hredis] at hanswer
    cases hanswer
  · rw [if_pos hredis] at hanswer
    obtain ⟨d, hget, rfl⟩ := Option.map_eq_some_iff.mp hanswer
    obtain ⟨cfg, hcfg, ver, hver, hown, ⟨hns, hname⟩, hecho, rfl, hcase⟩ := hinv.cached _ d hget
    obtain ⟨hpos, hlt, hno⟩ := hinv.wf.versionFits ver hver
    have hdecoded : decoded ver.pullData = ver.pullData := by
      show PullData.mk _ _ (echo ver.id) (echo ver.version) = _
      rw [hecho, echo_version hno]
      rfl
    have hgetVersion := hinv.wf.getVersion hver
    -- the key has the names of the config, so that the config is found
    have hfound (hn : orDefault "default" r.namespace_ = cfg.namespace_) (hm : r.name = cfg.name) :
        h.configOf deps r = some cfg := by
      rw [configOf, hm, hn]
      exact hinv.wf.getConfig hcfg rfl
    by_cases hvid : r.versionID ≠ ""
    · rw [if_pos hvid] at hcase
      rcases hcase with hkey | ⟨hkey, -⟩
      · obtain ⟨hn, hm, hv⟩ := versionKey_inj hns hname (not_mem_repr _) hkey
        have hconfig := hfound hn hm
        have hparse : parseVersionID r.versionID = some ver.id := by
          rw [hv]
          exact parseVersionID_repr hpos hlt
        refine ⟨?_, ?_, by rw [hconfig]; simp⟩
        · unfold configOf at hconfig
          rw [hdecoded, storeAnswer, pullStore, hconfig]
          dsimp only [attempt]
          rw [if_pos hvid, hparse]
          dsimp only
          rw [hgetVersion]
          rfl
        · rintro ⟨-, cfg', hcfg', vid, hvid', ver', hver', hother⟩
          rw [hconfig] at hcfg'
          cases hcfg'
          rw [hparse] at hvid'
          cases hvid'
          rw [hgetVersion] at hver'
          cases hver'
          exact hother hown
      · exact absurd hkey.symm (currentKey_ne_versionKey _ _ _ _ _)
    · rw [if_neg hvid] at hcase
      rcases hcase with hkey | ⟨hkey, hcurrent⟩
      · exact absurd hkey (currentKey_ne_versionKey _ _ _ _ _)
      · obtain ⟨hn, hm⟩ := currentKey_inj hns hname hkey
        have hconfig := hfound hn hm
        refine ⟨?_, fun hforeign => hvid hforeign.1, by rw [hconfig]; simp⟩
        unfold configOf at hconfig
        rw [hdecoded, storeAnswer, pullStore, hconfig]
        dsimp only [attempt]
        rw [if_neg hvid, hcurrent, hgetVersion]
        rfl

/-- The tables serve a version of another config. -/
theorem storeAnswer_of_foreign (hforeign : h.Foreign deps r) : (h.storeAnswer deps r).ok = true := by
  obtain ⟨hvid, cfg, hcfg, vid, hparse, ver, hver, -⟩ := hforeign
  unfold configOf at hcfg
  rw [storeAnswer, pullStore, Option.mem_def.mp hcfg]
  dsimp only [attempt]
  rw [if_pos hvid, Option.mem_def.mp hparse]
  dsimp only
  rw [Option.mem_def.mp hver]
  rfl

/-- A pull is answered as it should be exactly if it is not for a version of another config. -/
theorem Inv.agrees_iff (hinv : Inv deps h) : h.PullsAgree deps r ↔ ¬ h.Foreign deps r := by
  constructor
  · intro hagree hforeign
    have hrefused := (hagree.foreign hforeign).2
    rw [storeAnswer_of_foreign hforeign] at hrefused
    cases hrefused
  · intro hown
    refine ⟨fun answer hanswer => (hinv.same answer hanswer).1, fun hnone => ⟨?_, ?_⟩,
      fun hforeign => absurd hforeign hown⟩
    · -- a config that is not there has no key
      by_contra hsome
      obtain ⟨answer, hanswer⟩ := Option.ne_none_iff_exists'.mp hsome
      exact (hinv.same answer hanswer).2.2 hnone
    · unfold configOf at hnone
      rw [storeAnswer, pullStore, hnone]
      rfl

/-- After every run that meets the condition, the two paths of a pull agree exactly if the pull
is not for a version of another config. -/
theorem pullsAgree_iff {hasRedis : Bool} {cs : List Change} {h : ConfigHandler}
    (hsafe : RunOk (next deps) (Safe deps) (new hasRedis) cs)
    (hrun : run (next deps) (new hasRedis) cs = some h) (r : PullReq) :
    h.PullsAgree deps r ↔ ¬ h.Foreign deps r :=
  (run_invariant (fun _ _ _ => Inv.next) (Inv.new hasRedis) hsafe hrun).agrees_iff

/-! ## One config -/

/-- A service that compares names without their case, and checks no schema. -/
def plainDeps : Deps where
  collate := String.toLower
  validateJSONSchema := fun _ _ => none
  calcChecksum := fun content => content

/-- The config `flags` is created and its first version published. -/
def createAndPublish : List Change :=
  [.create "" (some ⟨"flags", "", "yaml", "", "", "a: 1"⟩) ⟨.fine 0, none, .fine 0⟩,
    .publish "flags" (some ⟨"", 1⟩) ⟨none, none, .fine 1, .fine 1, ⟨true, true⟩⟩]

/-- The first version is served from Redis, as it would be from the tables. -/
theorem pullsAgree_createAndPublish :
    ∃ h, run (next plainDeps) (new true) createAndPublish = some h ∧
      h.redisAnswer ⟨"flags", "", "1"⟩ = some (writeOK (some (.pulled ⟨"a: 1", "a: 1", 1, 1⟩))) ∧
        h.PullsAgree plainDeps ⟨"flags", "", "1"⟩ := by
  have hsteps : (run (next plainDeps) (new true) createAndPublish).map (fun h =>
      decide (h.redisAnswer ⟨"flags", "", "1"⟩
          = some (writeOK (some (.pulled ⟨"a: 1", "a: 1", 1, 1⟩))) ∧
        h.store.versions.map (fun v => (v.id, v.configID)) = [(1, 1)] ∧
        h.store.configs.map Config.id = [1])) = some true := by
    decide +kernel
  obtain ⟨h, hrun, hdec⟩ := Option.map_eq_some_iff.mp hsteps
  obtain ⟨hserved, hversions, hconfigs⟩ := of_decide_eq_true hdec
  refine ⟨h, hrun, hserved, (pullsAgree_iff (by decide +kernel) hrun _).mpr ?_⟩
  -- there is only one config and one version
  rintro ⟨-, cfg, hcfg, vid, -, ver, hver, hother⟩
  have hc : cfg.id ∈ h.store.configs.map Config.id :=
    List.mem_map_of_mem (ConfigStore.mem_of_getConfig hcfg).1
  have hv : (ver.id, ver.configID) ∈ h.store.versions.map fun v => (v.id, v.configID) :=
    List.mem_map_of_mem (ConfigStore.mem_of_getVersion hver).1
  rw [hconfigs, List.mem_singleton] at hc
  rw [hversions, List.mem_singleton, Prod.mk.injEq] at hv
  exact hother (hv.2.trans hc.symm)

/-- The published config is deleted. -/
def publishAndDelete : List Change :=
  createAndPublish ++ [.delete "flags" "" ⟨none, .fine 2⟩]

/-- The config is gone from the tables, and Redis still serves it. -/
theorem not_pullsAgree_publishAndDelete :
    ∃ h, run (next plainDeps) (new true) publishAndDelete = some h ∧ h.store.configs = [] ∧
      ¬ h.PullsAgree plainDeps ⟨"flags", "", ""⟩ := by
  have hsteps : (run (next plainDeps) (new true) publishAndDelete).map (fun h =>
      decide (h.store.configs = [] ∧ h.configOf plainDeps ⟨"flags", "", ""⟩ = none ∧
        h.redisAnswer ⟨"flags", "", ""⟩ ≠ none)) = some true := by
    decide +kernel
  obtain ⟨h, hrun, hdec⟩ := Option.map_eq_some_iff.mp hsteps
  obtain ⟨hempty, hgone, hserved⟩ := of_decide_eq_true hdec
  exact ⟨h, hrun, hempty, fun hagree => hserved (hagree.deleted hgone).1⟩

end ConfigHandler

end Gmaker.ConfigService
