import Gmaker.Discovery.Interface
import Gmaker.Lib.Assoc
import Gmaker.Lib.Machine
import Gmaker.Lib.Paths
import Gmaker.Registry.MemoryStore

/-!
# Gmaker.Discovery.Etcd — nodes under keys of etcd

A node is registered under `/services/<type>/<id>`, with a lease of its own; when the lease ends
the key goes. `Discover` reads all keys that begin with `/services/<type>`, `Watch` is told of
every change of such a key, and takes the node of a deleted key from the key itself. etcd does as
it documents: a read sees what was put, a watch is told of each change once and in order. The
value under a key is the node, as JSON, which comes back as it was.

For one service `Discover` is exact, and `Watch` is told of the nodes of the service and of no
others, all along exactly if no node of another service is registered whose type, slash and id
begin with the name of the service, and what goes of the service has a type and an id that can be
read off a cleaned path (`EtcdImpl.discovery_exact_iff`).
-/

namespace Gmaker.Discovery

open Gmaker.Lib
open Gmaker.Lib.Paths (Plain segments clean rooted)

/-! ## Keys -/

/-- `/services/` -/
def servicesDir : List Char := "/services/".toList

/-- The element before that of the type. -/
def servicesName : List Char := "services".toList

/-- The key of a node. -/
def NodeInfo.key (node : NodeInfo) : List Char :=
  servicesDir ++ (node.serviceType.toList ++ '/' :: node.nodeID.toList)

/-- What a node is known by. -/
def NodeInfo.ident (node : NodeInfo) : String × String := (node.serviceType, node.nodeID)

/-- The key begins with `/services/<type>`. -/
def Watches (serviceType : String) (key : List Char) : Prop :=
  servicesDir ++ serviceType.toList <+: key

instance (serviceType : String) (key : List Char) : Decidable (Watches serviceType key) :=
  inferInstanceAs (Decidable (_ <+: _))

/-- `parts[2]` and `parts[3]` of the cleaned key. -/
def nodeOfKey (key : List Char) : Option (String × String) :=
  match segments (clean key) with
  | _ :: _ :: serviceType :: nodeID :: _ =>
    some (String.ofList serviceType, String.ofList nodeID)
  | _ => none

/-- The node is of the service, if its key looks so. -/
def Apart (serviceType : String) (node : NodeInfo) : Prop :=
  serviceType.toList <+: node.serviceType.toList ++ '/' :: node.nodeID.toList →
    node.serviceType = serviceType

instance (serviceType : String) (node : NodeInfo) : Decidable (Apart serviceType node) :=
  inferInstanceAs (Decidable (_ → _))

/-- The type and the id can be read off the cleaned key. -/
def Readable (node : NodeInfo) : Prop :=
  (Plain node.serviceType.toList ∧ Plain node.nodeID.toList) ∨
    (node.serviceType = "" ∧ node.nodeID = "")

variable {serviceType : String} {node : NodeInfo}

theorem watches_key : Watches serviceType node.key ↔
    serviceType.toList <+: node.serviceType.toList ++ '/' :: node.nodeID.toList :=
  List.prefix_append_right_inj servicesDir

/-- The keys of a service are watched. -/
theorem watches_of_eq (h : node.serviceType = serviceType) : Watches serviceType node.key := by
  rw [watches_key, h]
  exact List.prefix_append ..

/-- Within a service the key tells the nodes apart. -/
theorem ident_of_key {node' : NodeInfo} (hkey : node.key = node'.key)
    (htype : node.serviceType = node'.serviceType) : node.ident = node'.ident := by
  unfold NodeInfo.key at hkey
  rw [htype] at hkey
  have hid := List.cons.inj (List.append_cancel_left (List.append_cancel_left hkey))
  unfold NodeInfo.ident
  rw [htype, String.toList_injective hid.2]

theorem key_eq_rooted :
    node.key = rooted [servicesName, node.serviceType.toList, node.nodeID.toList] := by
  have hdir : servicesDir = '/' :: servicesName ++ ['/'] := by decide
  unfold NodeInfo.key
  rw [hdir]
  generalize servicesName = name
  simp [rooted, List.intercalate]

/-- What is read off the key of a node is the node, exactly if it can be read off. -/
theorem nodeOfKey_key_iff : (nodeOfKey node.key).getD ("", "") = node.ident ↔ Readable node := by
  constructor
  · intro h
    have hhead : node.key.head? = some '/' := rfl
    obtain ⟨l, hplain, hsegments⟩ := Paths.segments_clean hhead
    have hempty (hnil : node.ident = ("", "")) : Readable node :=
      .inr ⟨congrArg Prod.fst hnil, congrArg Prod.snd hnil⟩
    unfold nodeOfKey at h
    rw [hsegments] at h
    match l with
    | [] => exact hempty h.symm
    | [_] => exact hempty h.symm
    | [_, _] => exact hempty h.symm
    | _ :: x :: y :: _ =>
      -- the two are elements of a cleaned path
      have hx : String.ofList x = node.serviceType := congrArg Prod.fst h
      have hy : String.ofList y = node.nodeID := congrArg Prod.snd h
      refine .inl ⟨?_, ?_⟩
      · rw [← hx, String.toList_ofList]
        exact hplain x (by simp)
      · rw [← hy, String.toList_ofList]
        exact hplain y (by simp)
  · rintro (⟨htype, hid⟩ | ⟨htype, hid⟩)
    · have hservices : Plain servicesName := ⟨by decide, by decide, by decide, by decide⟩
      have hplain : ∀ x ∈ [servicesName, node.serviceType.toList, node.nodeID.toList],
          Plain x := by
        intro x hx
        simp only [List.mem_cons, List.not_mem_nil, or_false] at hx
        rcases hx with rfl | rfl | rfl
        · exact hservices
        · exact htype
        · exact hid
      unfold nodeOfKey
      rw [key_eq_rooted, Paths.clean_of_plain hplain (List.cons_ne_nil _ _),
        Paths.segments_rooted fun x hx => (hplain x hx).noSlash]
      show (String.ofList _, String.ofList _) = _
      rw [String.ofList_toList, String.ofList_toList]
      rfl
    · have hkey : node.key = NodeInfo.key ⟨"", "", "", 0⟩ := by
        unfold NodeInfo.key
        rw [htype, hid]
      rw [hkey]
      unfold NodeInfo.ident
      rw [htype, hid]
      decide

/-! ## The backend -/

/-- A node that was put, with its lease. -/
structure Entry where
  node : NodeInfo
  lease : ℕ
deriving DecidableEq

/-- What happens to a node. -/
structure Change where
  type : NodeEventType
  serviceType : String
  nodeID : String
deriving DecidableEq

/-- What a node event says happened, and to whom. -/
def NodeEvent.change (ev : NodeEvent) : Change := ⟨ev.type, ev.node.serviceType, ev.node.nodeID⟩

/-- etcd, the `EtcdImpl` that watches a service, and the nodes that are registered. -/
structure EtcdImpl where
  /-- The keys under `/services/`. -/
  kvs : Assoc (List Char) Entry
  /-- So many leases were granted. -/
  leases : ℕ
  /-- By `type/id`. -/
  nodeCache : String → Option NodeInfo
  /-- The nodes that are registered and whose lease has not ended. -/
  registered : Assoc (String × String) Entry
  /-- log: what happened to a node, if anything, and what the callback of the watch was told -/
  log : List (Option Change × List NodeEvent)

inductive EtcdLabel where
  /-- `Register`, with a lease that is granted. -/
  | register (node : NodeInfo)
  /-- A lease is revoked or runs out. -/
  | leaseEnds (lease : ℕ)
  | discover (serviceType : String)
  /-- Another watch of the same `EtcdImpl` stores or deletes an entry of `nodeCache`. -/
  | cached (key : String) (node : Option NodeInfo)
deriving DecidableEq

namespace EtcdImpl

/-- Nothing is registered. -/
def new : EtcdImpl := ⟨[], 0, fun _ => none, [], []⟩

/-- `e.nodeCache.Store(node.ServiceType+"/"+node.NodeID, node)`. -/
def store (cache : String → Option NodeInfo) (node : NodeInfo) : String → Option NodeInfo :=
  Function.update cache (node.serviceType ++ "/" ++ node.nodeID) (some node)

/-- `Discover`: the nodes that it returns. -/
def discover (e : EtcdImpl) (serviceType : String) : List NodeInfo :=
  (e.kvs.filter fun p => Watches serviceType p.1).map fun p => p.2.node

/-- The watch is told that a key was put: what the cache is then, and what the callback gets. -/
def onPut (cache : String → Option NodeInfo) (node : NodeInfo) :
    (String → Option NodeInfo) × NodeEvent :=
  (store cache node, ⟨.update, node⟩)

/-- The watch is told that a key was deleted. -/
def onDelete (cache : String → Option NodeInfo) (key : List Char) :
    (String → Option NodeInfo) × NodeEvent :=
  match nodeOfKey key with
  | none => (cache, ⟨.leave, ⟨"", "", "", 0⟩⟩)
  | some (serviceType, nodeID) =>
    match cache (serviceType ++ "/" ++ nodeID) with
    | none => (cache, ⟨.leave, ⟨serviceType, nodeID, "", 0⟩⟩)
    | some node => (Function.update cache (serviceType ++ "/" ++ nodeID) none,
        ⟨.leave, ⟨serviceType, nodeID, node.host, node.port⟩⟩)

/-- What the watch of a service makes of a key that has changed. -/
def told (e : EtcdImpl) (serviceType : String) (key : List Char)
    (handler : (String → Option NodeInfo) × NodeEvent) :
    (String → Option NodeInfo) × List NodeEvent :=
  if Watches serviceType key then (handler.1, [handler.2]) else (e.nodeCache, [])

/-- The entry of a lease. -/
def ofLease {κ : Type} (m : Assoc κ Entry) (lease : ℕ) : Option (κ × Entry) :=
  m.find? fun p => p.2.lease = lease

/-- The entries of the other leases. -/
def dropLease {κ : Type} (m : Assoc κ Entry) (lease : ℕ) : Assoc κ Entry :=
  m.filter fun p => p.2.lease ≠ lease

/-- One step, seen by a watch of the service. -/
def next (serviceType : String) (e : EtcdImpl) : EtcdLabel → Option EtcdImpl
  | .register node =>
    let heard := e.told serviceType node.key (onPut e.nodeCache node)
    some { kvs := e.kvs.assign node.key ⟨node, e.leases⟩
           leases := e.leases + 1
           nodeCache := heard.1
           registered := e.registered.assign node.ident ⟨node, e.leases⟩
           log := e.log ++ [(some (NodeEvent.change ⟨.update, node⟩), heard.2)] }
  | .leaseEnds lease =>
    let heard := match ofLease e.kvs lease with
      | none => (e.nodeCache, [])
      | some (key, _) => e.told serviceType key (onDelete e.nodeCache key)
    let gone := (ofLease e.registered lease).map fun p => NodeEvent.change ⟨.leave, p.2.node⟩
    some { e with
      kvs := dropLease e.kvs lease
      nodeCache := heard.1
      registered := dropLease e.registered lease
      log := e.log ++ [(gone, heard.2)] }
  | .discover serviceType' =>
    some { e with nodeCache := (e.discover serviceType').foldl store e.nodeCache }
  | .cached key node => some { e with nodeCache := Function.update e.nodeCache key node }

/-- `Discover` returns the registered nodes of the service, each once, and the watch was told of
what happened to nodes of the service and of nothing else. -/
structure Exact (serviceType : String) (e : EtcdImpl) : Prop where
  nodup : (e.discover serviceType).Nodup
  mem_iff : ∀ node, node ∈ e.discover serviceType ↔
    node.serviceType = serviceType ∧ ∃ p ∈ e.registered, p.2.node = node
  told : ∀ p ∈ e.log, p.2.map NodeEvent.change =
    (p.1.filter fun c => c.serviceType = serviceType).toList

/-- The condition on a step: what is registered is of the service if its key looks so, and what
goes of the service can be read off its key. -/
def Keeps (serviceType : String) (e : EtcdImpl) : EtcdLabel → Prop
  | .register node => Apart serviceType node
  | .leaseEnds lease => ∀ p ∈ ofLease e.registered lease,
    p.2.node.serviceType = serviceType → Readable p.2.node
  | _ => True

/-! ### The keys and the nodes -/

/-- What holds as long as the condition is met. -/
structure Inv (serviceType : String) (e : EtcdImpl) : Prop where
  keys : e.kvs.keys.Nodup
  kvs : ∀ p ∈ e.kvs, p.1 = p.2.node.key ∧ (p.2.node.ident, p.2) ∈ e.registered
  registered : ∀ p ∈ e.registered, p.1 = p.2.node.ident ∧ Apart serviceType p.2.node ∧
    (p.2.node.serviceType = serviceType → (p.2.node.key, p.2) ∈ e.kvs)
  lease_lt : ∀ p ∈ e.registered, p.2.lease < e.leases
  lease : ∀ p ∈ e.registered, ∀ q ∈ e.registered, p.2.lease = q.2.lease → p = q

variable {e e' : EtcdImpl} {label : EtcdLabel} {lease : ℕ}

theorem new_inv : Inv serviceType new where
  keys := List.nodup_nil
  kvs := fun _ hp => absurd hp List.not_mem_nil
  registered := fun _ hp => absurd hp List.not_mem_nil
  lease_lt := fun _ hp => absurd hp List.not_mem_nil
  lease := fun _ hp => absurd hp List.not_mem_nil

theorem mem_discover : node ∈ e.discover serviceType ↔
    ∃ p ∈ e.kvs, Watches serviceType p.1 ∧ p.2.node = node := by
  unfold discover
  simp only [List.mem_map, List.mem_filter, decide_eq_true_eq, and_assoc]

/-- A watched key is one of the service. -/
theorem Inv.type_of_watches (h : Inv serviceType e) {p : List Char × Entry} (hp : p ∈ e.kvs)
    (hwatch : Watches serviceType p.1) : p.2.node.serviceType = serviceType := by
  obtain ⟨hkey, hin⟩ := h.kvs p hp
  rw [hkey, watches_key] at hwatch
  exact (h.registered _ hin).2.1 hwatch

theorem Inv.mem_discover_iff (h : Inv serviceType e) : node ∈ e.discover serviceType ↔
    node.serviceType = serviceType ∧ ∃ p ∈ e.registered, p.2.node = node := by
  rw [mem_discover]
  constructor
  · rintro ⟨p, hp, hwatch, rfl⟩
    exact ⟨h.type_of_watches hp hwatch, _, (h.kvs p hp).2, rfl⟩
  · rintro ⟨htype, p, hp, rfl⟩
    exact ⟨_, (h.registered p hp).2.2 htype, watches_of_eq htype, rfl⟩

/-- Entries with one node are one. -/
theorem Inv.nodup_discover (h : Inv serviceType e) : (e.discover serviceType).Nodup := by
  have hentries : e.kvs.Nodup := List.Nodup.of_map Prod.fst h.keys
  refine List.Nodup.map_on ?_ (hentries.filter _)
  intro p hp q hq hnode
  have hp' := List.mem_of_mem_filter hp
  have hq' := List.mem_of_mem_filter hq
  have hkey : p.1 = q.1 := by rw [(h.kvs p hp').1, (h.kvs q hq').1, hnode]
  exact List.inj_on_of_nodup_map h.keys hp' hq' hkey

/-! ### The steps -/

theorem mem_dropLease {κ : Type} {m : Assoc κ Entry} {p : κ × Entry} :
    p ∈ dropLease m lease ↔ p ∈ m ∧ p.2.lease ≠ lease := by
  unfold dropLease
  rw [List.mem_filter, decide_eq_true_eq]

theorem of_ofLease {κ : Type} {m : Assoc κ Entry} {p : κ × Entry} (h : ofLease m lease = some p) :
    p ∈ m ∧ p.2.lease = lease :=
  ⟨List.mem_of_find?_eq_some h,
    of_decide_eq_true (List.find?_some (p := fun q : κ × Entry => decide (q.2.lease = lease)) h)⟩

theorem of_ofLease_none {κ : Type} {m : Assoc κ Entry} (h : ofLease m lease = none) :
    ∀ p ∈ m, p.2.lease ≠ lease :=
  fun p hp => of_decide_eq_false (Bool.eq_false_iff.mpr (List.find?_eq_none.mp h p hp))

/-- A lease belongs to one node. -/
theorem Inv.ofLease_registered (h : Inv serviceType e) {p : (String × String) × Entry}
    (hp : p ∈ e.registered) : ofLease e.registered p.2.lease = some p := by
  cases hfind : ofLease e.registered p.2.lease with
  | none => exact absurd rfl (of_ofLease_none hfind p hp)
  | some q =>
    obtain ⟨hq, hlease⟩ := of_ofLease hfind
    rw [h.lease q hq p hp hlease]

/-- A node is registered. -/
theorem Inv.register (h : Inv serviceType e) (hapart : Apart serviceType node)
    (cache : String → Option NodeInfo) (log : List (Option Change × List NodeEvent)) :
    Inv serviceType ⟨e.kvs.assign node.key ⟨node, e.leases⟩, e.leases + 1, cache,
      e.registered.assign node.ident ⟨node, e.leases⟩, log⟩ where
  keys := Assoc.nodup_assign h.keys _ _
  kvs := by
    intro p hp
    rcases Assoc.mem_assign_iff.mp hp with rfl | ⟨hp, hne⟩
    · exact ⟨rfl, Assoc.mem_assign_iff.mpr (.inl rfl)⟩
    · -- an entry that stays is of another node
      obtain ⟨hkey, hin⟩ := h.kvs p hp
      refine ⟨hkey, Assoc.mem_assign_iff.mpr (.inr ⟨hin, fun hident => hne ?_⟩)⟩
      obtain ⟨htype, hid⟩ := Prod.mk.inj hident
      rw [hkey]
      unfold NodeInfo.key
      rw [htype, hid]
  registered := by
    intro p hp
    rcases Assoc.mem_assign_iff.mp hp with rfl | ⟨hp, hne⟩
    · exact ⟨rfl, hapart, fun _ => Assoc.mem_assign_iff.mpr (.inl rfl)⟩
    · -- if its key were that of the new node, that would be of the service too
      obtain ⟨hident, hold, hin⟩ := h.registered p hp
      refine ⟨hident, hold, fun htype => Assoc.mem_assign_iff.mpr (.inr ⟨hin htype, ?_⟩)⟩
      intro hkey
      have hwatch : Watches serviceType p.2.node.key := watches_of_eq htype
      have hkey : p.2.node.key = node.key := hkey
      rw [hkey, watches_key] at hwatch
      refine hne ?_
      rw [hident]
      exact ident_of_key hkey (htype.trans (hapart hwatch).symm)
  lease_lt := by
    intro p hp
    rcases Assoc.mem_assign_iff.mp hp with rfl | ⟨hp, -⟩
    · exact Nat.lt_succ_self _
    · exact Nat.lt_succ_of_lt (h.lease_lt p hp)
  lease := by
    intro p hp q hq heq
    rcases Assoc.mem_assign_iff.mp hp with rfl | ⟨hp, -⟩
    · rcases Assoc.mem_assign_iff.mp hq with rfl | ⟨hq, -⟩
      · rfl
      · exact absurd heq.symm (h.lease_lt q hq).ne
    · rcases Assoc.mem_assign_iff.mp hq with rfl | ⟨hq, -⟩
      · exact absurd heq (h.lease_lt p hp).ne
      · exact h.lease p hp q hq heq

/-- A lease ends. -/
theorem Inv.leaseEnds (h : Inv serviceType e) (lease : ℕ) (cache : String → Option NodeInfo)
    (log : List (Option Change × List NodeEvent)) :
    Inv serviceType ⟨dropLease e.kvs lease, e.leases, cache, dropLease e.registered lease, log⟩ where
  keys := h.keys.sublist (List.filter_sublist.map Prod.fst)
  kvs := by
    intro p hp
    obtain ⟨hp, hlease⟩ := mem_dropLease.mp hp
    exact ⟨(h.kvs p hp).1, mem_dropLease.mpr ⟨(h.kvs p hp).2, hlease⟩⟩
  registered := by
    intro p hp
    obtain ⟨hp, hlease⟩ := mem_dropLease.mp hp
    obtain ⟨hident, hapart, hin⟩ := h.registered p hp
    exact ⟨hident, hapart, fun htype => mem_dropLease.mpr ⟨hin htype, hlease⟩⟩
  lease_lt := fun p hp => h.lease_lt p (mem_dropLease.mp hp).1
  lease := fun p hp q hq => h.lease p (mem_dropLease.mp hp).1 q (mem_dropLease.mp hq).1

/-- What of a change is of the service. -/
theorem filter_change (ev : NodeEvent) :
    ((some ev.change).filter fun c => c.serviceType = serviceType).toList =
      if ev.node.serviceType = serviceType then [ev.change] else [] := by
  rw [Option.filter_some]
  by_cases htype : ev.node.serviceType = serviceType
  · rw [if_pos htype, if_pos]
    · rfl
    · exact decide_eq_true htype
  · rw [if_neg htype, if_neg]
    · rfl
    · exact fun h => htype (of_decide_eq_true h)

/-- The watch is told of the registration of a node of the service, and of no other. -/
theorem told_put (e : EtcdImpl) (hapart : Apart serviceType node) :
    (e.told serviceType node.key (onPut e.nodeCache node)).2.map NodeEvent.change =
      ((some (NodeEvent.change ⟨.update, node⟩)).filter
        fun c => c.serviceType = serviceType).toList := by
  unfold told
  rw [filter_change]
  by_cases htype : node.serviceType = serviceType
  · rw [if_pos (watches_of_eq htype), if_pos htype]
    rfl
  · rw [if_neg fun hwatch => htype (hapart (watches_key.mp hwatch)), if_neg htype]
    rfl

/-- What a LEAVE names. -/
theorem change_onDelete (cache : String → Option NodeInfo) (key : List Char) :
    (onDelete cache key).2.change = ⟨.leave, ((nodeOfKey key).getD ("", "")).1,
      ((nodeOfKey key).getD ("", "")).2⟩ := by
  unfold onDelete
  cases nodeOfKey key with
  | none => rfl
  | some p =>
    dsimp only
    cases cache (p.1 ++ "/" ++ p.2) with
    | none => rfl
    | some node => rfl

/-- The watch is told who goes, exactly if the condition is met. -/
theorem Inv.told_leave_iff (h : Inv serviceType e) (lease : ℕ) :
    (match ofLease e.kvs lease with
      | none => (e.nodeCache, [])
      | some (key, _) => e.told serviceType key (onDelete e.nodeCache key)).2.map
        NodeEvent.change =
      (((ofLease e.registered lease).map fun p => NodeEvent.change ⟨.leave, p.2.node⟩).filter
        fun c => c.serviceType = serviceType).toList ↔
    e.Keeps serviceType (.leaseEnds lease) := by
  cases hkv : ofLease e.kvs lease with
  | none =>
    -- no key goes, so what goes is not of the service
    have hother : ∀ p ∈ ofLease e.registered lease, p.2.node.serviceType ≠ serviceType := by
      intro p hp htype
      obtain ⟨hp, hlease⟩ := of_ofLease hp
      exact of_ofLease_none hkv _ ((h.registered p hp).2.2 htype) hlease
    refine iff_of_true ?_ fun p hp htype => absurd htype (hother p hp)
    cases hgone : ofLease e.registered lease with
    | none => rfl
    | some p =>
      rw [Option.map_some, filter_change, if_neg (hother p hgone)]
      rfl
  | some q =>
    obtain ⟨key, en⟩ := q
    obtain ⟨hq, hlease⟩ := of_ofLease hkv
    obtain ⟨hkey, hin⟩ := h.kvs _ hq
    have hgone : ofLease e.registered lease = some (en.node.ident, en) := by
      rw [← hlease]
      exact h.ofLease_registered hin
    have hkey : key = en.node.key := hkey
    subst hkey
    dsimp only
    unfold told
    rw [hgone, Option.map_some, filter_change]
    by_cases htype : en.node.serviceType = serviceType
    · rw [if_pos (watches_of_eq htype), if_pos htype]
      show [(onDelete e.nodeCache en.node.key).2.change] = [_] ↔ _
      rw [change_onDelete, List.singleton_inj]
      constructor
      · intro hsame p hp _
        cases hgone.symm.trans hp
        refine nodeOfKey_key_iff.mp (Prod.ext ?_ ?_)
        · exact congrArg Change.serviceType hsame
        · exact congrArg Change.nodeID hsame
      · intro hkeeps
        rw [nodeOfKey_key_iff.mpr (hkeeps _ hgone htype)]
        rfl
    · have hwatch : ¬ Watches serviceType en.node.key :=
        fun hwatch => htype (h.type_of_watches hq hwatch)
      rw [if_neg hwatch, if_neg htype]
      refine iff_of_true rfl fun p hp hp' => ?_
      cases hgone.symm.trans hp
      exact absurd hp' htype

/-! ### Exactness -/

/-- What the watch was told is right so far. -/
def ToldRight (serviceType : String) (e : EtcdImpl) : Prop :=
  ∀ p ∈ e.log, p.2.map NodeEvent.change =
    (p.1.filter fun c => c.serviceType = serviceType).toList

theorem exact_of_inv (h : Inv serviceType e) (htold : e.ToldRight serviceType) :
    e.Exact serviceType where
  nodup := h.nodup_discover
  mem_iff := fun _ => h.mem_discover_iff
  told := htold

/-- One entry more in the log. -/
theorem ToldRight.append (htold : e.ToldRight serviceType) {c : Option Change}
    {evs : List NodeEvent} (hlog : e'.log = e.log ++ [(c, evs)])
    (hentry : evs.map NodeEvent.change = (c.filter fun c => c.serviceType = serviceType).toList) :
    e'.ToldRight serviceType := by
  intro p hp
  rw [hlog, List.mem_append, List.mem_singleton] at hp
  rcases hp with hp | rfl
  · exact htold p hp
  · exact hentry

/-- A step that meets the condition keeps everything right. -/
theorem step_keeps (h : Inv serviceType e) (htold : e.ToldRight serviceType)
    (hkeeps : e.Keeps serviceType label) (hnext : e.next serviceType label = some e') :
    Inv serviceType e' ∧ e'.ToldRight serviceType := by
  cases label with
  | register node =>
    cases hnext
    exact ⟨h.register hkeeps _ _, htold.append rfl (told_put e hkeeps)⟩
  | leaseEnds lease =>
    cases hnext
    exact ⟨h.leaseEnds lease _ _, htold.append rfl ((h.told_leave_iff lease).mpr hkeeps)⟩
  | discover _ | cached _ _ =>
    cases hnext
    exact ⟨⟨h.keys, h.kvs, h.registered, h.lease_lt, h.lease⟩, htold⟩

/-- A step after which all is exact met the condition. -/
theorem keeps_of_exact (h : Inv serviceType e) (hnext : e.next serviceType label = some e')
    (hexact : e'.Exact serviceType) : e.Keeps serviceType label := by
  cases label with
  | register node =>
    cases hnext
    intro hprefix
    -- what was put is found
    refine ((hexact.mem_iff node).mp (mem_discover.mpr ?_)).1
    exact ⟨_, Assoc.mem_assign_iff.mpr (.inl rfl), watches_key.mpr hprefix, rfl⟩
  | leaseEnds lease =>
    cases hnext
    exact (h.told_leave_iff lease).mp
      (hexact.told _ (List.mem_append_right _ (List.mem_singleton_self _)))
  | discover _ | cached _ _ => trivial

/-- For each service discovery by etcd is exact all along in exactly those runs whose steps meet
the condition; a store in memory finds the nodes of the service and no others. -/
theorem discovery_exact_iff (serviceType : String) (labels : List EtcdLabel) (m : Registry.MemoryStore) :
    (RunOk (next serviceType) (Keeps serviceType) new labels ↔
      ∀ ms e, ms <+: labels → run (next serviceType) new ms = some e → e.Exact serviceType) ∧
    ∃ nodes, Registry.M.discover serviceType { store := m } = .ok (nodes, { store := m }) ∧
      ∀ node, node ∈ nodes ↔ node ∈ m.nodes.map Prod.snd ∧ node.serviceType = serviceType := by
  constructor
  · refine runOk_iff_of_implies (I := fun e => Inv serviceType e ∧ e.ToldRight serviceType) ?_
      (fun _ h => exact_of_inv h.1 h.2) (fun _ _ _ h hkeeps hnext => step_keeps h.1 h.2 hkeeps hnext)
      (fun _ _ _ h hnext hexact => keeps_of_exact h.1 hnext hexact)
      ⟨new_inv, fun _ hp => absurd hp List.not_mem_nil⟩
    rintro e (node | lease | serviceType' | ⟨key, node⟩) hnone
    all_goals cases hnone
  · refine ⟨_, Registry.discover_ok serviceType m, fun node => ?_⟩
    unfold Registry.MemoryStore.nodesOf
    rw [List.mem_filter, decide_eq_true_eq]

/-- A node of `biz2` is registered. -/
theorem not_exact_longerName :
    ∃ e, run (next "biz") new [.register ⟨"biz2", "n1", "10.0.0.1", 8080⟩] = some e ∧
      ¬ e.Exact "biz" := by
  refine ⟨_, rfl, fun hexact => ?_⟩
  have hfound := (hexact.mem_iff ⟨"biz2", "n1", "10.0.0.1", 8080⟩).mp (by decide)
  exact absurd hfound.1 (by decide)

end EtcdImpl

end Gmaker.Discovery
