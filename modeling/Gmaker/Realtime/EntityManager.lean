import Gmaker.Lib.Assoc
import Gmaker.Lib.Fold
import Gmaker.Realtime.Entity

/-!
# Gmaker.Realtime.EntityManager — the entities by id

`EntityManager` keeps the entities in a hash map. The model keeps them in the order of
their creation, an entry an id; in which order a loop of the source meets them is an
`Order` that the loop is given.

The lemmas say what a change of one entity does to what is found.
-/

namespace Gmaker.Realtime

open Gmaker.Lib

/-- `EntityManager`: every id has one entity. -/
@[ext]
structure EntityManager (F : Type) where
  entities : Assoc UInt64 (Entity F) := []
  nextEntityId : UInt64 := 1
  keyed : entities.keys.Nodup := by exact List.nodup_nil

namespace EntityManager

variable {F : Type}

/-! ## Operations -/

/-- The ids. -/
def ids (m : EntityManager F) : List UInt64 := m.entities.keys

/-- `FindEntity`. -/
def find (m : EntityManager F) (id : UInt64) : Option (Entity F) := m.entities.lookup id

/-- A change of one entity. -/
def modify (m : EntityManager F) (id : UInt64) (f : Entity F → Entity F) : EntityManager F :=
  { m with
    entities := m.entities.modify id f
    keyed := by rw [Assoc.keys_modify]; exact m.keyed }

/-- `entities_[eid] = ...`. -/
def put (m : EntityManager F) (id : UInt64) (e : Entity F) : EntityManager F :=
  { m with
    entities := m.entities.assign id e
    keyed := Assoc.nodup_assign m.keyed id e }

/-- An entity with the id that `NextEntityId` gives. -/
def create (m : EntityManager F) (make : UInt64 → Entity F) : EntityManager F :=
  { m.put m.nextEntityId (make m.nextEntityId) with nextEntityId := m.nextEntityId + 1 }

/-- `RemoveEntity`. -/
def removeEntity (m : EntityManager F) (id : UInt64) : EntityManager F :=
  { m with
    entities := m.entities.erase id
    keyed := Assoc.nodup_erase m.keyed id }

/-- Whether there is such an entity, and the test holds of it. -/
def test (m : EntityManager F) (p : Entity F → Bool) (id : UInt64) : Bool := (m.find id).any p

/-- `GetByType`. -/
def getByType (o : Order UInt64) (m : EntityManager F) (type : EntityType) : List UInt64 :=
  (o.arrange m.ids).filter (m.test fun e => e.type = type)

/-- `TickAll`. -/
def tickAll [FloatOps F] (o : Order UInt64) (m : EntityManager F) (deltaMs : ℕ) :
    EntityManager F :=
  (o.arrange m.ids).foldl (fun m id => m.modify id (Entity.tick deltaMs)) m

/-! ## What is found -/

section Find

variable {m : EntityManager F} {id j : UInt64} {e : Entity F} {f g : Entity F → Entity F}

theorem mem_ids_iff : id ∈ m.ids ↔ ∃ e, m.find id = some e := Assoc.mem_keys_iff

@[simp] theorem ids_modify : (m.modify id f).ids = m.ids := Assoc.keys_modify m.entities id f

@[simp] theorem nextEntityId_modify : (m.modify id f).nextEntityId = m.nextEntityId := rfl

theorem find_modify :
    (m.modify id f).find j = if j = id then (m.find j).map f else m.find j :=
  Assoc.lookup_modify m.entities id j f

theorem find_modify_self : (m.modify id f).find id = (m.find id).map f :=
  Assoc.lookup_modify_self m.entities id f

theorem find_modify_of_ne (h : j ≠ id) : (m.modify id f).find j = m.find j :=
  Assoc.lookup_modify_of_ne m.entities h f

theorem find_put : (m.put id e).find j = if j = id then some e else m.find j :=
  Assoc.lookup_assign m.entities id j e

theorem find_create {make : UInt64 → Entity F} :
    (m.create make).find j =
      if j = m.nextEntityId then some (make m.nextEntityId) else m.find j :=
  find_put

theorem find_removeEntity : (m.removeEntity id).find j = if j = id then none else m.find j :=
  Assoc.lookup_erase m.entities id j

/-- What is found after a change was found before it. -/
theorem find_of_modify (h : (m.modify id f).find j = some e) :
    ∃ e₀, m.find j = some e₀ ∧ (j = id ∧ e = f e₀ ∨ j ≠ id ∧ e = e₀) := by
  rw [find_modify] at h
  split_ifs at h with hj
  · subst hj
    obtain ⟨e₀, he₀, rfl⟩ := Option.map_eq_some_iff.mp h
    exact ⟨e₀, he₀, .inl ⟨rfl, rfl⟩⟩
  · exact ⟨e, h, .inr ⟨hj, rfl⟩⟩

theorem modify_comm (h : id ≠ j) : (m.modify id f).modify j g = (m.modify j g).modify id f :=
  EntityManager.ext (Assoc.modify_comm m.entities h f g) rfl

theorem modify_modify : (m.modify id f).modify id g = m.modify id fun e => g (f e) :=
  EntityManager.ext (Assoc.modify_modify m.entities id f g) rfl

theorem modify_congr (h : ∀ e, m.find id = some e → f e = g e) : m.modify id f = m.modify id g :=
  EntityManager.ext (Assoc.modify_congr m.keyed h) rfl

theorem modify_eq_self (h : ∀ e, m.find id = some e → f e = e) : m.modify id f = m :=
  EntityManager.ext (Assoc.modify_eq_self m.keyed h) rfl

/-- A loop that changes every entity of a list once. -/
theorem find_foldl_modify {l : List UInt64} (hnodup : l.Nodup) (m : EntityManager F) :
    (l.foldl (fun m id => m.modify id f) m).find j =
      if j ∈ l then (m.find j).map f else m.find j := by
  induction l generalizing m with
  | nil => simp
  | cons id l ih =>
    obtain ⟨hnot, hrest⟩ := List.nodup_cons.mp hnodup
    rw [List.foldl_cons, ih hrest, find_modify]
    by_cases hj : j = id
    · subst hj
      simp [hnot]
    · simp [hj]

/-- All entities tick. -/
theorem find_tickAll [FloatOps F] {o : Order UInt64} {deltaMs : ℕ} :
    (m.tickAll o deltaMs).find j = (m.find j).map (Entity.tick deltaMs) := by
  unfold tickAll
  rw [find_foldl_modify ((o.perm m.ids).nodup_iff.mpr m.keyed)]
  split_ifs with hj
  · rfl
  · have hnone : m.find j = none := by
      by_contra hsome
      exact hj (o.mem_arrange.mpr (mem_ids_iff.mpr (Option.ne_none_iff_exists'.mp hsome)))
    rw [hnone]
    rfl

theorem mem_getByType {o : Order UInt64} {type : EntityType} :
    id ∈ m.getByType o type ↔ ∃ e, m.find id = some e ∧ e.type = type := by
  unfold getByType test
  rw [List.mem_filter, o.mem_arrange, mem_ids_iff]
  constructor
  · rintro ⟨⟨e, he⟩, htype⟩
    rw [he] at htype
    exact ⟨e, he, by simpa using htype⟩
  · rintro ⟨e, he, htype⟩
    refine ⟨⟨e, he⟩, ?_⟩
    rw [he]
    simpa using htype

/-- The entities of a type are met in some order. -/
theorem getByType_perm (o o' : Order UInt64) (m : EntityManager F) (type : EntityType) :
    (m.getByType o type).Perm (m.getByType o' type) :=
  (o.arrange_perm o' m.ids).filter _

theorem nodup_getByType {o : Order UInt64} {type : EntityType} : (m.getByType o type).Nodup :=
  ((o.perm m.ids).nodup_iff.mpr m.keyed).filter _

end Find

end EntityManager

end Gmaker.Realtime
