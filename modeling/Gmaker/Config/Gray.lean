import Gmaker.Lib.Assoc
import Gmaker.Lib.Utf8

/-!
# Gmaker.Config.Gray — which nodes take a config change

An event may be meant for some nodes only: for a region, for a node, for those with certain
tags, for a percentage of all. The Go watcher asks all four; the C++ watcher copies the event
without the four fields and takes every event. So they decide alike exactly about the nodes
that the event is meant for (`oneDecision_iff`). By itself the Go decision is monotone in the
percentage (`shouldAcceptGray_mono`).
-/

namespace Gmaker.Config

open Lib

/-- A Go `string` or a `std::string`: any bytes. -/
abbrev Text := List UInt8

/-- `ConfigChangeEvent` as it is on the channel. -/
structure ConfigChangeEvent where
  configName : Text
  namespace_ : Text
  versionId : ℤ
  versionNo : ℤ
  checksum : Text
  action : Text
  timestamp : ℤ
  grayRegion : Text
  grayNodeId : Text
  grayPercent : ℤ
  grayTags : Assoc Text Text
deriving DecidableEq

/-- What `SetNodeInfo` tells a watcher about its node. -/
structure NodeInfo where
  region : Text
  nodeID : Text
  tags : Assoc Text Text
deriving DecidableEq

variable {e : ConfigChangeEvent} {n : NodeInfo} {a b : ℤ}

/-! ## The Go watcher -/

/-- One turn of the loop over the runes of the node id. -/
def hashStep (hash c : ℕ) : ℕ := (hash * 31 + c) &&& 0x7FFFFFFF

/-- The hash of a node id. -/
def nodeHash (nodeID : Text) : ℕ := (runes nodeID).foldl hashStep 0

/-- The part of a hundred that a node falls into. -/
def bucket (nodeID : Text) : ℕ := nodeHash nodeID % 100

/-- `tags[k]`; a tag that is missing is empty. -/
def NodeInfo.tag (n : NodeInfo) (k : Text) : Text := (n.tags.lookup k).getD []

namespace Go

/-- `ShouldAcceptGray`. -/
def shouldAcceptGray (e : ConfigChangeEvent) (n : NodeInfo) : Bool :=
  if e.grayRegion = [] ∧ e.grayNodeId = [] ∧ e.grayPercent = 0 ∧ e.grayTags.length = 0 then
    true
  else if e.grayRegion ≠ [] ∧ e.grayRegion ≠ n.region then false
  else if e.grayNodeId ≠ [] ∧ e.grayNodeId ≠ n.nodeID then false
  else if e.grayTags.any fun p => n.tag p.1 ≠ p.2 then false
  else if 0 < e.grayPercent ∧ e.grayPercent < 100 then !(e.grayPercent ≤ bucket n.nodeID)
  else true

/-- `handleMessage`: whether the handler that is registered for the config is started. -/
def handleMessage (handlers : List Text) (e : ConfigChangeEvent) (n : NodeInfo) : Bool :=
  handlers.contains e.configName && shouldAcceptGray e n

end Go

/-! ## The C++ watcher -/

namespace Cpp

/-- `struct ConfigChangeEvent`: the message without its gray fields. -/
structure ConfigChangeEvent where
  configName : Text
  namespace_ : Text
  versionId : ℤ
  versionNo : ℤ
  checksum : Text
  action : Text
  timestamp : ℤ
deriving DecidableEq

/-- What `WatchLoop` copies from the message. -/
def ofMessage (e : Config.ConfigChangeEvent) : ConfigChangeEvent where
  configName := e.configName
  namespace_ := e.namespace_
  versionId := e.versionId
  versionNo := e.versionNo
  checksum := e.checksum
  action := e.action
  timestamp := e.timestamp

/-- `ShouldAcceptGray`. -/
def shouldAcceptGray (_ : ConfigChangeEvent) (_ : NodeInfo) : Bool := true

/-- A turn of `WatchLoop`: whether the handler is called. -/
def watchLoop (handlers : List Text) (e : Config.ConfigChangeEvent) (n : NodeInfo) : Bool :=
  handlers.contains (ofMessage e).configName && shouldAcceptGray (ofMessage e) n

end Cpp

/-! ## Who an event is meant for -/

/-- The node has the region, the id and the tags that the event asks for. -/
structure Addressed (e : ConfigChangeEvent) (n : NodeInfo) : Prop where
  region : e.grayRegion = [] ∨ e.grayRegion = n.region
  node : e.grayNodeId = [] ∨ e.grayNodeId = n.nodeID
  tags : ∀ p ∈ e.grayTags, n.tag p.1 = p.2

/-- The node is in the percentage; outside 1 to 99 every node is. -/
def InPercent (percent : ℤ) (nodeID : Text) : Prop :=
  percent ≤ 0 ∨ 100 ≤ percent ∨ (bucket nodeID : ℤ) < percent

theorem bucket_lt (nodeID : Text) : bucket nodeID < 100 := Nat.mod_lt _ (by norm_num)

theorem InPercent.mono {nodeID : Text} (ha : 1 ≤ a) (hab : a ≤ b) (h : InPercent a nodeID) :
    InPercent b nodeID := by
  rcases h with hzero | hall | hlt
  · omega
  · exact .inr (.inl (by omega))
  · exact .inr (.inr (by omega))

theorem inPercent_hundred (nodeID : Text) : InPercent 100 nodeID := .inr (.inl le_rfl)

/-- The Go watcher takes an event exactly on the nodes that it is meant for. -/
theorem Go.shouldAcceptGray_iff :
    Go.shouldAcceptGray e n = true ↔ Addressed e n ∧ InPercent e.grayPercent n.nodeID := by
  unfold Go.shouldAcceptGray
  split_ifs with hnone hregion hnode htags hpercent
  · -- no rule at all: every node is addressed
    obtain ⟨hr, hi, hp, ht⟩ := hnone
    have htags : e.grayTags = [] := List.length_eq_zero_iff.mp ht
    refine iff_of_true rfl ⟨⟨.inl hr, .inl hi, ?_⟩, .inl hp.le⟩
    intro p hmem
    rw [htags] at hmem
    exact absurd hmem List.not_mem_nil
  · refine iff_of_false id fun h => ?_
    exact h.1.region.elim hregion.1 hregion.2
  · refine iff_of_false id fun h => ?_
    exact h.1.node.elim hnode.1 hnode.2
  · refine iff_of_false id fun h => ?_
    obtain ⟨p, hmem, hne⟩ := List.any_eq_true.mp htags
    exact of_decide_eq_true hne (h.1.tags p hmem)
  all_goals
    have haddr : Addressed e n := by
      refine ⟨by tauto, by tauto, fun p hmem => ?_⟩
      by_contra hne
      exact htags (List.any_eq_true.mpr ⟨p, hmem, decide_eq_true hne⟩)
  · -- a percentage is asked for
    have hlt : (!decide (e.grayPercent ≤ (bucket n.nodeID : ℤ))) = true ↔
        InPercent e.grayPercent n.nodeID := by
      unfold InPercent
      rw [Bool.not_eq_true', decide_eq_false_iff_not]
      omega
    rw [hlt]
    exact (and_iff_right haddr).symm
  · refine iff_of_true rfl ⟨haddr, ?_⟩
    unfold InPercent
    omega

/-! ## One decision -/

/-- The event with another percentage. -/
def ConfigChangeEvent.withPercent (e : ConfigChangeEvent) (p : ℤ) : ConfigChangeEvent :=
  { e with grayPercent := p }

theorem addressed_withPercent {p : ℤ} : Addressed (e.withPercent p) n ↔ Addressed e n :=
  ⟨fun h => ⟨h.region, h.node, h.tags⟩, fun h => ⟨h.region, h.node, h.tags⟩⟩

/-- A node that takes the event at a percentage takes it at every higher one. -/
theorem Go.shouldAcceptGray_mono (ha : 1 ≤ a) (hab : a ≤ b)
    (h : Go.shouldAcceptGray (e.withPercent a) n = true) :
    Go.shouldAcceptGray (e.withPercent b) n = true := by
  rw [Go.shouldAcceptGray_iff, addressed_withPercent] at h ⊢
  exact ⟨h.1, h.2.mono ha hab⟩

/-- A decision that only widens with the percentage and takes in every node at 100. -/
structure Widens (accept : ConfigChangeEvent → NodeInfo → Bool) (e : ConfigChangeEvent)
    (n : NodeInfo) : Prop where
  mono : ∀ a b : ℤ, 1 ≤ a → a ≤ b → b ≤ 100 → accept (e.withPercent a) n = true →
    accept (e.withPercent b) n = true
  hundred : accept (e.withPercent 100) n = true

/-- Both watchers of the node decide alike about the event, and monotonically. -/
structure OneDecision (e : ConfigChangeEvent) (n : NodeInfo) : Prop where
  agree : Go.shouldAcceptGray e n = Cpp.shouldAcceptGray (Cpp.ofMessage e) n
  go : Widens Go.shouldAcceptGray e n
  cpp : Widens (fun e => Cpp.shouldAcceptGray (Cpp.ofMessage e)) e n

/-- The decision is one exactly about the nodes that the event is meant for. -/
theorem oneDecision_iff (e : ConfigChangeEvent) (n : NodeInfo) :
    OneDecision e n ↔ Addressed e n ∧ InPercent e.grayPercent n.nodeID := by
  constructor
  · intro h
    -- the C++ watcher always accepts
    exact Go.shouldAcceptGray_iff.mp h.agree
  · intro h
    refine ⟨Go.shouldAcceptGray_iff.mpr h, ⟨?_, ?_⟩, fun _ _ _ _ _ _ => rfl, rfl⟩
    · intro a b ha hab _ haccept
      exact Go.shouldAcceptGray_mono ha hab haccept
    · exact Go.shouldAcceptGray_iff.mpr ⟨addressed_withPercent.mpr h.1, inPercent_hundred _⟩

/-- A change for one percent of the nodes. -/
def onePercent : ConfigChangeEvent where
  configName := "flags".toUTF8.toList
  namespace_ := "default".toUTF8.toList
  versionId := 3
  versionNo := 2
  checksum := []
  action := "publish".toUTF8.toList
  timestamp := 0
  grayRegion := []
  grayNodeId := []
  grayPercent := 1
  grayTags := []

/-- The node `biz-01` is not in the one percent; its C++ processes take the change, its Go
processes do not. -/
theorem not_oneDecision_onePercent :
    ¬ OneDecision onePercent ⟨"cn".toUTF8.toList, "biz-01".toUTF8.toList, []⟩ := by
  intro h
  have hgo : Go.shouldAcceptGray onePercent ⟨"cn".toUTF8.toList, "biz-01".toUTF8.toList, []⟩
      = false := by
    decide +kernel
  exact Bool.false_ne_true (hgo.symm.trans h.agree)

/-- With a handler for the config, the Go watcher starts it exactly on the nodes that the event
is meant for, the C++ watcher on every node. -/
theorem handled_iff {handlers : List Text} (h : e.configName ∈ handlers) :
    (Go.handleMessage handlers e n = true ↔ Addressed e n ∧ InPercent e.grayPercent n.nodeID) ∧
      Cpp.watchLoop handlers e n = true := by
  have hmem : handlers.contains e.configName = true := List.contains_iff_mem.mpr h
  refine ⟨?_, ?_⟩
  · rw [Go.handleMessage, hmem, Bool.true_and]
    exact Go.shouldAcceptGray_iff
  · show (handlers.contains e.configName && true) = true
    rw [hmem]
    rfl

end Gmaker.Config
