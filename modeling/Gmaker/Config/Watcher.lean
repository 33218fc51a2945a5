import Gmaker.Config.Gray
import Gmaker.Lib.Files
import Gmaker.Lib.Machine
import Gmaker.Lib.Threads

/-!
# Gmaker.Config.Watcher — the handlers of one config

A watcher starts a handler of its own for every change event that it takes. A handler pulls the
version, compares the checksum of the answer with that of the event, writes the content to
`<file>.tmp`, renames that to the file and reloads. The handlers share both names and keep no
record of the version that the file has.

When all handlers are done the file has the content of the highest version, and it hashes to
the checksum of its event, if the handler of the newest event is answered with that content
and its own steps on the file do not fail, and if no other handler puts anything into the
`.tmp` file once the newest has opened it (`Watcher.converged_of_runOk`).
-/

namespace Gmaker.Config

open Gmaker.Lib

/-! ## One handler -/

/-- The data of a pull response. -/
structure PullResult where
  content : List UInt8
  checksum : Text
deriving DecidableEq

/-- What a handler does next. -/
inductive Stage where
  | pulling
  /-- Before `os.WriteFile`. -/
  | opening (content : List UInt8)
  /-- Inside `os.WriteFile`: the inode that is open, and how much is written. -/
  | writing (content : List UInt8) (inode written : ℕ)
  /-- Before `os.Rename`. -/
  | written
  | reloading
  | finished
deriving DecidableEq

/-- A goroutine in `PullAndReload`. -/
structure Handler where
  event : ConfigChangeEvent
  stage : Stage
deriving DecidableEq

/-- A step of a handler, with what it is answered. -/
inductive Act where
  /-- The pull comes back; `none` if it fails, or is no answer with `ok`. -/
  | pulled (result : Option PullResult)
  | opened (ok : Bool)
  /-- So many bytes more are written; after an error no more are. -/
  | wrote (k : ℕ) (ok : Bool)
  | renamed (ok : Bool)
  | reloaded
deriving DecidableEq

/-- The file and the name that is written first. -/
structure Paths where
  filePath : Text
deriving DecidableEq

def Paths.tmpPath (p : Paths) : Text := p.filePath ++ ".tmp".toUTF8.toList

theorem Paths.tmpPath_ne (p : Paths) : p.tmpPath ≠ p.filePath := by
  intro h
  have hlen := congrArg List.length h
  rw [tmpPath, List.length_append] at hlen
  have hpos : 0 < (".tmp".toUTF8.toList).length := by decide +kernel
  omega

/-- The step of `PullAndReload`: the disk and the stage after it. -/
def Handler.step (p : Paths) (d : Disk Text) (h : Handler) : Act → Option (Disk Text × Stage)
  | .pulled result =>
    if h.stage = .pulling then
      match result with
      | none => some (d, .finished)
      | some r => some (d, if r.checksum ≠ h.event.checksum then .finished else .opening r.content)
    else none
  | .opened ok =>
    match h.stage with
    | .opening c =>
      if ok then some ((d.create p.tmpPath).2, .writing c (d.create p.tmpPath).1 0)
      else some (d, .finished)
    | _ => none
  | .wrote k ok =>
    match h.stage with
    | .writing c n off =>
      if off + k ≤ c.length then
        some (d.writeAt n off ((c.drop off).take k),
          if !ok then .finished
          else if off + k = c.length then .written
          else .writing c n (off + k))
      else none
    | _ => none
  | .renamed ok =>
    if h.stage = .written then
      match ok, d.rename p.tmpPath p.filePath with
      | true, some d' => some (d', .reloading)
      | _, _ => some (d, .finished)
    else none
  | .reloaded => if h.stage = .reloading then some (d, .finished) else none

/-! ## The watcher -/

/-- A watcher, with the handlers that it has started, in order. -/
structure Watcher where
  configName : Text
  node : NodeInfo
  paths : Paths
  disk : Disk Text
  handlers : List Handler

/-- What happens next. -/
inductive WatchEvent where
  /-- A change event of the config, of a higher version than those before. -/
  | receive (e : ConfigChangeEvent)
  | handler (i : ℕ) (a : Act)
deriving DecidableEq

namespace Watcher

/-- Before the first event; the disk is as it was left. -/
def start (configName : Text) (node : NodeInfo) (paths : Paths) (disk : Disk Text) : Watcher where
  configName := configName
  node := node
  paths := paths
  disk := disk
  handlers := []

def next (w : Watcher) : WatchEvent → Option Watcher
  | .receive e =>
    if e.configName = w.configName ∧ ∀ h ∈ w.handlers, h.event.versionNo < e.versionNo then
      some (if Go.handleMessage [w.configName] e w.node then
        { w with handlers := w.handlers ++ [⟨e, .pulling⟩] } else w)
    else none
  | .handler i a =>
    (w.handlers[i]?).bind fun h => (h.step w.paths w.disk a).map fun r =>
      { w with disk := r.1, handlers := w.handlers.set i { h with stage := r.2 } }

/-- The content of the local file. -/
def file (w : Watcher) : Option (List UInt8) := w.disk.contents w.paths.filePath

end Watcher

/-! ## Convergence -/

section Published

variable (hash : List UInt8 → Text) (published : ℤ → List UInt8)

/-- When all handlers are done, the file has the content that was published as the highest
version, and that hashes to the checksum of its event. -/
def Watcher.Converged (w : Watcher) : Prop :=
  (∀ h ∈ w.handlers, h.stage = .finished) →
    ∀ h ∈ w.handlers, (∀ h' ∈ w.handlers, h'.event.versionNo ≤ h.event.versionNo) →
      w.file = some (published h.event.versionId) ∧
        hash (published h.event.versionId) = h.event.checksum

/-- The answer to a pull is what was published, and belongs to the event. -/
def Genuine (e : ConfigChangeEvent) (result : Option PullResult) : Prop :=
  result = some ⟨published e.versionId, e.checksum⟩ ∧ hash (published e.versionId) = e.checksum

/-- The `.tmp` file has not been opened by this handler. -/
def Stage.Unopened : Stage → Prop
  | .pulling | .opening _ => True
  | _ => False

/-- The step puts something into the `.tmp` file, if only by truncating it. -/
def Act.Touches : Act → Prop
  | .opened ok => ok = true
  | .wrote k _ => 0 < k
  | _ => False

/-- The newest handler is answered with what was published and its own steps succeed. -/
def Act.Succeeds (e : ConfigChangeEvent) : Act → Prop
  | .pulled result => Genuine hash published e result
  | .opened ok | .wrote _ ok | .renamed ok => ok = true
  | .reloaded => True

/-- The condition on a step: the newest handler succeeds, and the others touch the `.tmp` file
only as long as the newest has not opened it. -/
def Watcher.Undisturbed (w : Watcher) : WatchEvent → Prop
  | .receive _ => True
  | .handler i a => ∀ h ∈ w.handlers.getLast?,
    if i + 1 = w.handlers.length then a.Succeeds hash published h.event
    else a.Touches → h.stage.Unopened

instance (s : Stage) : Decidable s.Unopened := by
  unfold Stage.Unopened
  split <;> infer_instance

instance (a : Act) : Decidable a.Touches := by
  unfold Act.Touches
  split <;> infer_instance

instance (e : ConfigChangeEvent) (a : Act) : Decidable (a.Succeeds hash published e) := by
  unfold Act.Succeeds Genuine
  split <;> infer_instance

instance (w : Watcher) (l : WatchEvent) : Decidable (w.Undisturbed hash published l) := by
  unfold Watcher.Undisturbed
  split <;> infer_instance

/-- The inode that the newest handler has written is under one of the two names. -/
def Named (p : Paths) (d : Disk Text) (n : ℕ) : Prop :=
  d.entry p.tmpPath = some n ∨ d.entry p.tmpPath = none ∧ d.entry p.filePath = some n

/-- How far the newest handler has got with the content. -/
def Progress (p : Paths) (d : Disk Text) (content : List UInt8) : Stage → Prop
  | .pulling => True
  | .opening c => c = content
  | .writing c n off =>
    c = content ∧ off ≤ c.length ∧ Named p d n ∧ d.bytes n = c.take off
  | .written => ∃ n, Named p d n ∧ d.bytes n = content
  | .reloading | .finished =>
    ∃ n, d.entry p.tmpPath = none ∧ d.entry p.filePath = some n ∧ d.bytes n = content

/-- The newest handler has pulled what was published, and it has got on with it. -/
def Handler.Good (p : Paths) (d : Disk Text) (h : Handler) : Prop :=
  (h.stage ≠ .pulling → hash (published h.event.versionId) = h.event.checksum) ∧
    Progress p d (published h.event.versionId) h.stage

variable {hash published}
variable {p : Paths} {d d' : Disk Text} {h g : Handler} {a : Act} {s' : Stage}
variable {content : List UInt8} {n : ℕ}

/-- A rename leaves a named inode named. -/
theorem Named.rename (hn : Named p d n) (hr : d.rename p.tmpPath p.filePath = some d') :
    d'.entry p.tmpPath = none ∧ d'.entry p.filePath = some n ∧ d'.bytes = d.bytes := by
  obtain ⟨m, hm, rfl⟩ := Disk.rename_eq_some.mp hr
  rcases hn with htmp | ⟨hnone, -⟩
  · have hmn : m = n := Option.some.inj (hm.symm.trans htmp)
    refine ⟨Function.update_self .., ?_, rfl⟩
    show Function.update (Function.update d.entry p.filePath (some m)) p.tmpPath none p.filePath = _
    rw [Function.update_of_ne p.tmpPath_ne.symm, Function.update_self, hmn]
  · rw [hnone] at hm
    cases hm

/-- The newest handler gets on with its content by its own steps. -/
theorem Handler.Good.step (hg : h.Good hash published p d)
    (hsucc : a.Succeeds hash published h.event) (hstep : h.step p d a = some (d', s')) :
    Handler.Good hash published p d' { h with stage := s' } := by
  obtain ⟨e, s⟩ := h
  obtain ⟨hsum, hprog⟩ := hg
  cases a with
  | pulled result =>
    obtain ⟨hresult, hhash⟩ := hsucc
    subst hresult
    simp only [Handler.step, ne_eq, not_true_eq_false, if_false] at hstep
    split_ifs at hstep
    cases hstep
    exact ⟨fun _ => hhash, rfl⟩
  | opened ok =>
    rw [show ok = true from hsucc] at hstep
    cases s with
    | opening c =>
      simp only [Handler.step, if_true] at hstep
      cases hstep
      obtain ⟨hentry, hbytes⟩ := Disk.create_spec d p.tmpPath
      exact ⟨fun _ => hsum (by simp), hprog, Nat.zero_le _, .inl hentry, hbytes⟩
    | _ => cases hstep
  | wrote k ok =>
    rw [show ok = true from hsucc] at hstep
    cases s with
    | writing c n off =>
      obtain ⟨hc, hoff, hnamed, hbytes⟩ := hprog
      have hafter := Disk.bytes_writeAt_take (k := k) hoff hbytes
      simp only [Handler.step, Bool.not_true, Bool.false_eq_true, if_false] at hstep
      split_ifs at hstep with hfit hall
      · -- everything is written
        cases hstep
        refine ⟨fun _ => hsum (by simp), n, hnamed, ?_⟩
        rw [hafter, hall, List.take_length, hc]
      · cases hstep
        exact ⟨fun _ => hsum (by simp), hc, hfit, hnamed, hafter⟩
    | _ => cases hstep
  | renamed ok =>
    rw [show ok = true from hsucc] at hstep
    cases s with
    | written =>
      obtain ⟨n, hnamed, hbytes⟩ := hprog
      simp only [Handler.step, if_true] at hstep
      cases hr : d.rename p.tmpPath p.filePath with
      | some d₁ =>
        rw [hr] at hstep
        cases hstep
        obtain ⟨htmp, hfile, hsame⟩ := hnamed.rename hr
        exact ⟨fun _ => hsum (by simp), n, htmp, hfile, by rw [hsame]; exact hbytes⟩
      | none =>
        -- another handler has already given the inode its name
        rw [hr] at hstep
        cases hstep
        have hgone : d.entry p.tmpPath = none := Option.map_eq_none_iff.mp hr
        rcases hnamed with htmp | ⟨htmp, hfile⟩
        · rw [hgone] at htmp
          cases htmp
        · exact ⟨fun _ => hsum (by simp), n, htmp, hfile, hbytes⟩
    | _ => simp [Handler.step] at hstep
  | reloaded =>
    cases s with
    | reloading =>
      simp only [Handler.step, if_true] at hstep
      cases hstep
      exact ⟨fun _ => hsum (by simp), hprog⟩
    | _ => simp [Handler.step] at hstep

/-- What a step that touches no bytes does to the disk. -/
theorem Handler.step_untouched (ht : ¬ a.Touches) (hstep : g.step p d a = some (d', s')) :
    (d'.entry = d.entry ∧ d'.bytes = d.bytes) ∨ d.rename p.tmpPath p.filePath = some d' := by
  obtain ⟨e, s⟩ := g
  cases a with
  | pulled result =>
    simp only [Handler.step] at hstep
    split_ifs at hstep
    cases result <;> cases hstep <;> exact .inl ⟨rfl, rfl⟩
  | opened ok =>
    rw [show ok = false from Bool.eq_false_iff.mpr ht] at hstep
    cases s with
    | opening c =>
      cases hstep
      exact .inl ⟨rfl, rfl⟩
    | _ => cases hstep
  | wrote k ok =>
    have hk : k = 0 := Nat.eq_zero_of_not_pos ht
    subst hk
    cases s with
    | writing c n off =>
      simp only [Handler.step, List.take_zero, Disk.writeAt_nil] at hstep
      split_ifs at hstep
      all_goals
        cases hstep
        exact .inl ⟨rfl, rfl⟩
    | _ => cases hstep
  | renamed ok =>
    simp only [Handler.step] at hstep
    split_ifs at hstep
    cases ok with
    | false =>
      cases hstep
      exact .inl ⟨rfl, rfl⟩
    | true =>
      cases hr : d.rename p.tmpPath p.filePath with
      | some d₁ =>
        rw [hr] at hstep
        cases hstep
        exact .inr rfl
      | none =>
        rw [hr] at hstep
        cases hstep
        exact .inl ⟨rfl, rfl⟩
  | reloaded =>
    simp only [Handler.step] at hstep
    split_ifs at hstep
    cases hstep
    exact .inl ⟨rfl, rfl⟩

/-- The newest handler keeps what it has, unless another touches the file that it has opened. -/
theorem Handler.Good.other (hg : h.Good hash published p d)
    (hother : a.Touches → h.stage.Unopened) (hstep : g.step p d a = some (d', s')) :
    h.Good hash published p d' := by
  obtain ⟨e, s⟩ := h
  refine ⟨hg.1, ?_⟩
  have hprog := hg.2
  by_cases hopen : s.Unopened
  · -- nothing on the disk is its own yet
    cases s with
    | pulling | opening _ => exact hprog
    | _ => exact absurd hopen id
  · rcases g.step_untouched (fun ht => hopen (hother ht)) hstep with ⟨hentry, hbytes⟩ | hr
    · show Progress p d' (published e.versionId) s
      have hp : Progress p d (published e.versionId) s := hprog
      unfold Progress Named at hp ⊢
      rw [hentry, hbytes]
      exact hp
    · -- another handler has given the `.tmp` file its name
      cases s with
      | pulling | opening _ => exact hprog
      | writing c n off =>
        obtain ⟨hc, hoff, hnamed, hb⟩ := hprog
        obtain ⟨htmp, hfile, hsame⟩ := hnamed.rename hr
        exact ⟨hc, hoff, .inr ⟨htmp, hfile⟩, by rw [hsame]; exact hb⟩
      | written =>
        obtain ⟨n, hnamed, hb⟩ := hprog
        obtain ⟨htmp, hfile, hsame⟩ := hnamed.rename hr
        exact ⟨n, .inr ⟨htmp, hfile⟩, by rw [hsame]; exact hb⟩
      | reloading | finished =>
        obtain ⟨n, htmp, -, -⟩ := hprog
        obtain ⟨m, hm, -⟩ := Disk.rename_eq_some.mp hr
        rw [htmp] at hm
        cases hm

namespace Watcher

variable {w w' t : Watcher} {l : WatchEvent} {ls : List WatchEvent}

/-- The handlers are in the order of their versions, and the newest is getting on. -/
structure Inv (hash : List UInt8 → Text) (published : ℤ → List UInt8) (w : Watcher) : Prop where
  order : (w.handlers.map fun h => h.event.versionNo).Pairwise (· < ·)
  good : ∀ h, w.handlers.getLast? = some h → h.Good hash published w.paths w.disk

theorem Inv.start (configName : Text) (node : NodeInfo) (paths : Paths) (disk : Disk Text) :
    Inv hash published (start configName node paths disk) where
  order := List.Pairwise.nil
  good := by
    intro h hlast
    cases hlast

/-- A handler that starts is the newest, and has done nothing yet. -/
theorem Inv.receive {e : ConfigChangeEvent} (hinv : Inv hash published w)
    (hnext : w.next (.receive e) = some w') : Inv hash published w' := by
  simp only [next] at hnext
  split_ifs at hnext with hnew htake
  · cases hnext
    refine ⟨?_, fun h hlast => ?_⟩
    · rw [List.map_append, List.pairwise_append]
      refine ⟨hinv.order, List.pairwise_singleton _ _, fun v hv v' hv' => ?_⟩
      obtain ⟨g, hmem, rfl⟩ := List.mem_map.mp hv
      rw [List.map_singleton, List.mem_singleton] at hv'
      subst hv'
      exact hnew.2 g hmem
    · rw [List.getLast?_append] at hlast
      cases hlast
      exact ⟨fun hne => absurd rfl hne, trivial⟩
  · cases hnext
    exact hinv

theorem Inv.handler {i : ℕ} {a : Act} (hinv : Inv hash published w)
    (hok : w.Undisturbed hash published (.handler i a))
    (hnext : w.next (.handler i a) = some w') : Inv hash published w' := by
  obtain ⟨h, hi, hmap⟩ := Option.bind_eq_some_iff.mp hnext
  obtain ⟨⟨d', s'⟩, hstep, rfl⟩ := Option.map_eq_some_iff.mp hmap
  have hlt : i < w.handlers.length := (List.getElem?_eq_some_iff.mp hi).1
  refine ⟨?_, fun g hlast => ?_⟩
  · show ((w.handlers.set i _).map _).Pairwise _
    rw [List.map_set, set_same (by rw [List.getElem?_map, hi]; rfl)]
    exact hinv.order
  · have hlast' : (w.handlers.set i { h with stage := s' })[w.handlers.length - 1]? = some g := by
      rw [List.getLast?_eq_getElem?] at hlast
      rwa [List.length_set] at hlast
    rw [getElem?_set_at hi] at hlast'
    split_ifs at hlast' with hnewest
    · -- the newest handler moves
      cases hlast'
      have hgl : w.handlers.getLast? = some h := by
        rw [List.getLast?_eq_getElem?, hnewest, hi]
      have hsucc := hok h hgl
      rw [if_pos (by omega)] at hsucc
      exact (hinv.good h hgl).step hsucc hstep
    · -- an older one moves
      have hgl : w.handlers.getLast? = some g := by
        rw [List.getLast?_eq_getElem?, hlast']
      have hother := hok g hgl
      rw [if_neg (by omega)] at hother
      exact (hinv.good g hgl).other hother hstep

theorem Inv.next (hok : w.Undisturbed hash published l) (hinv : Inv hash published w)
    (hnext : w.next l = some w') : Inv hash published w' := by
  cases l with
  | receive e => exact hinv.receive hnext
  | handler i a => exact hinv.handler hok hnext

/-- The handler of the highest version is the one that was started last. -/
theorem getLast?_of_highest {h : Handler}
    (horder : (w.handlers.map fun h => h.event.versionNo).Pairwise (· < ·)) (hmem : h ∈ w.handlers)
    (hmax : ∀ h' ∈ w.handlers, h'.event.versionNo ≤ h.event.versionNo) :
    w.handlers.getLast? = some h := by
  have hne : w.handlers ≠ [] := List.ne_nil_of_mem hmem
  obtain ⟨init, last, heq⟩ : ∃ init last, w.handlers = init ++ [last] :=
    ⟨_, _, (List.dropLast_append_getLast hne).symm⟩
  rw [heq] at horder hmem hmax ⊢
  rw [List.getLast?_concat]
  rcases List.mem_append.mp hmem with hinit | hlast
  · rw [List.map_append, List.pairwise_append] at horder
    have hlt := horder.2.2 _ (List.mem_map_of_mem hinit) _ (List.mem_map_of_mem List.mem_cons_self)
    have hle := hmax last (List.mem_append_right _ List.mem_cons_self)
    exact absurd hle (not_le.mpr hlt)
  · rw [List.mem_singleton.mp hlast]

/-- The file converges to the newest version in every run in which the newest handler succeeds
and the others leave the `.tmp` file alone once it has opened it. -/
theorem converged_of_runOk {configName : Text} {node : NodeInfo} {paths : Paths} {disk : Disk Text}
    (hok : RunOk next (Undisturbed hash published) (start configName node paths disk) ls)
    (hrun : run next (start configName node paths disk) ls = some t) :
    t.Converged hash published := by
  have hinv : Inv hash published t :=
    run_invariant (fun _ _ _ => Inv.next) (Inv.start configName node paths disk) hok hrun
  intro hdone h hmem hmax
  obtain ⟨hsum, hprog⟩ := hinv.good h (getLast?_of_highest hinv.order hmem hmax)
  rw [hdone h hmem] at hsum hprog
  obtain ⟨n, -, hfile, hbytes⟩ := hprog
  refine ⟨?_, hsum (by simp)⟩
  rw [file, Disk.contents, hfile, Option.map_some, hbytes]

end Watcher

end Published

/-! ## Two versions -/

namespace Watcher

/-- The published contents: the number of the version. -/
def twoVersions (versionId : ℤ) : List UInt8 :=
  if versionId = 1 then "1".toUTF8.toList else "2".toUTF8.toList

/-- The SHA-256 sums of the two contents. -/
def twoSums (content : List UInt8) : Text :=
  if content = "1".toUTF8.toList then
    "6b86b273ff34fce19d6b804eff5a3f5747ada4eaa22f1d49c01e52ddb7875b4b".toUTF8.toList
  else "d4735e3a265e16eee03f59718b9b5d03019c07d8b6c51f90da3a666eec13ab35".toUTF8.toList

/-- The event of a version, for every node. -/
def published (version : ℤ) : ConfigChangeEvent where
  configName := "flags".toUTF8.toList
  namespace_ := "default".toUTF8.toList
  versionId := version
  versionNo := version
  checksum := twoSums (twoVersions version)
  action := "publish".toUTF8.toList
  timestamp := 0
  grayRegion := []
  grayNodeId := []
  grayPercent := 0
  grayTags := []

/-- A node without the file. -/
def fresh : Watcher :=
  start "flags".toUTF8.toList ⟨[], [], []⟩ ⟨"conf/flags.json".toUTF8.toList⟩
    ⟨fun _ => none, fun _ => [], 0⟩

/-- The pull of a version is answered with what was published. -/
def pull (i : ℕ) (version : ℤ) : WatchEvent :=
  .handler i (.pulled (some ⟨twoVersions version, twoSums (twoVersions version)⟩))

/-- A handler writes its content of one byte, renames and reloads; nothing fails. -/
def apply (i : ℕ) : List WatchEvent :=
  [.handler i (.opened true), .handler i (.wrote 1 true), .handler i (.renamed true),
    .handler i .reloaded]

/-- The older handler has written the `.tmp` file when the newer starts; the newer is done before
the older goes on. -/
def overtaken : List WatchEvent :=
  [.receive (published 1), pull 0 1, .handler 0 (.opened true), .handler 0 (.wrote 1 true),
    .receive (published 2), pull 1 2] ++ apply 1 ++
    [.handler 0 (.renamed true)]

/-- All handlers are done after it, and the file has the second version. -/
theorem converged_overtaken : ∃ t, run next fresh overtaken = some t ∧
    (∀ h ∈ t.handlers, h.stage = .finished) ∧ t.file = some (twoVersions 2) := by
  have hsteps : (run next fresh overtaken).map (fun t =>
      decide ((∀ h ∈ t.handlers, h.stage = .finished) ∧
        (t.handlers.map fun h => h.event.versionNo) = [1, 2] ∧
        t.handlers[1]? = some ⟨published 2, .finished⟩)) = some true := by
    decide +kernel
  obtain ⟨t, ht, hdec⟩ := Option.map_eq_some_iff.mp hsteps
  obtain ⟨hdone, hversions, hsecond⟩ := of_decide_eq_true hdec
  have hconv : t.Converged twoSums twoVersions := converged_of_runOk (by decide +kernel) ht
  have hmem : ⟨published 2, .finished⟩ ∈ t.handlers := List.mem_of_getElem? hsecond
  refine ⟨t, ht, hdone, (hconv hdone _ hmem fun h hh => ?_).1⟩
  have hv : h.event.versionNo ∈ [1, 2] := hversions ▸ List.mem_map_of_mem hh
  rcases List.mem_cons.mp hv with h1 | h2
  · rw [h1]
    decide
  · rw [List.mem_singleton.mp h2]
    decide

/-- The older handler has pulled when the newer starts, and writes when the newer is done. -/
def slowHandler : List WatchEvent :=
  [.receive (published 1), pull 0 1, .receive (published 2), pull 1 2] ++ apply 1 ++ apply 0

/-- No step fails and all handlers are done, and the file has the first version. -/
theorem not_converged_slowHandler : ∃ t, run next fresh slowHandler = some t ∧
    (∀ h ∈ t.handlers, h.stage = .finished) ∧ t.file = some (twoVersions 1) ∧
      ¬ t.Converged twoSums twoVersions := by
  have hsteps : (run next fresh slowHandler).map (fun t =>
      decide ((∀ h ∈ t.handlers, h.stage = .finished) ∧ t.file = some (twoVersions 1) ∧
        t.handlers = [⟨published 1, .finished⟩, ⟨published 2, .finished⟩])) = some true := by
    decide +kernel
  obtain ⟨t, ht, hdec⟩ := Option.map_eq_some_iff.mp hsteps
  obtain ⟨hdone, hfile, hhandlers⟩ := of_decide_eq_true hdec
  refine ⟨t, ht, hdone, hfile, fun hconv => ?_⟩
  have hmem : ⟨published 2, .finished⟩ ∈ t.handlers := by
    rw [hhandlers]
    exact List.mem_cons_of_mem _ List.mem_cons_self
  have hnew := (hconv hdone _ hmem fun h hh => ?_).1
  · rw [hfile] at hnew
    exact absurd hnew (by decide +kernel)
  · rw [hhandlers] at hh
    rcases List.mem_cons.mp hh with rfl | hh
    · decide
    · rw [List.mem_singleton.mp hh]

end Watcher

end Gmaker.Config
