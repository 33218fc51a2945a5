import Mathlib

/-!
# Gmaker.LogStats — the log store and its trace index

`LogStats` keeps the newest log entries in memory, `maxSize` of them, and for each trace id
the places of its entries. An entry that is too many pushes out the oldest one, which moves
all places, so that the index is built anew. `queryByTrace_exact` says that a query by trace id
finds the entries of the trace, in the order they came in. Entries without a trace id are
not indexed.
-/

namespace Gmaker

universe u

/-- `LogEntry`. What else is in a line is in `extra`. -/
structure LogEntry (E : Type u) where
  time : String
  level : String
  service : String
  nodeId : String
  /-- empty: none -/
  traceId : String
  msg : String
  extra : E
deriving DecidableEq

/-- `LogStats`. A map gives `none` for a key that it does not have. -/
structure LogStats (E : Type u) where
  entries : List (LogEntry E) := []
  byTrace : String → Option (List ℕ) := fun _ => none

variable {E : Type u}

namespace LogStats

/-- Puts a place under the trace id of its entry. -/
def indexEntry (byTrace : String → Option (List ℕ)) (entry : LogEntry E) (idx : ℕ) :
    String → Option (List ℕ) :=
  if entry.traceId ≠ "" then
    Function.update byTrace entry.traceId (some ((byTrace entry.traceId).getD [] ++ [idx]))
  else byTrace

/-- `rebuildIndex`. -/
def rebuildIndex (entries : List (LogEntry E)) : String → Option (List ℕ) :=
  entries.zipIdx.foldl (fun byTrace p => indexEntry byTrace p.1 p.2) fun _ => none

/-- `Append`, of a line that is an entry. -/
def push (maxSize : ℕ) (ls : LogStats E) (entry : LogEntry E) : LogStats E :=
  let entries := ls.entries ++ [entry]
  if maxSize < entries.length then
    let overflow := entries.length - maxSize
    { entries := entries.drop overflow, byTrace := rebuildIndex (entries.drop overflow) }
  else { entries, byTrace := indexEntry ls.byTrace entry ls.entries.length }

/-- `Append`: a line that `json.Unmarshal` does not read is passed over. -/
def append (unmarshal : List UInt8 → Option (LogEntry E)) (maxSize : ℕ) (ls : LogStats E)
    (raw : List UInt8) : LogStats E :=
  match unmarshal raw with
  | none => ls
  | some entry => ls.push maxSize entry

/-- `QueryByTrace`: a place past the end is passed over. -/
def queryByTrace (ls : LogStats E) (traceId : String) : List (LogEntry E) :=
  match ls.byTrace traceId with
  | none => []
  | some indices => indices.filterMap fun idx => ls.entries[idx]?

/-! ## The places of a trace -/

/-- The places of the entries with a trace id. -/
def places (entries : List (LogEntry E)) (traceId : String) : List ℕ :=
  (entries.zipIdx.filter fun p => p.1.traceId = traceId).map Prod.snd

theorem places_concat (entries : List (LogEntry E)) (entry : LogEntry E) (traceId : String) :
    places (entries ++ [entry]) traceId =
      places entries traceId ++ if entry.traceId = traceId then [entries.length] else [] := by
  unfold places
  rw [List.zipIdx_append, List.zipIdx_singleton, List.filter_append, List.map_append, Nat.zero_add]
  congr 1
  by_cases htrace : entry.traceId = traceId
  · rw [if_pos htrace, List.filter_singleton]
    simp [htrace]
  · rw [if_neg htrace, List.filter_singleton]
    simp [htrace]

theorem lt_of_mem_places {entries : List (LogEntry E)} {traceId : String} {idx : ℕ}
    (h : idx ∈ places entries traceId) : idx < entries.length := by
  obtain ⟨p, hp, rfl⟩ := List.mem_map.mp h
  have hget := List.mem_zipIdx_iff_getElem?.mp (List.mem_filter.mp hp).1
  exact (List.getElem?_eq_some_iff.mp hget).1

/-- At the places of a trace are its entries. -/
theorem filterMap_places (entries : List (LogEntry E)) (traceId : String) :
    ((places entries traceId).filterMap fun idx => entries[idx]?) =
      entries.filter fun entry => entry.traceId = traceId := by
  induction entries using List.reverseRecOn with
  | nil => rfl
  | append_singleton entries entry ih =>
    have hold : ((places entries traceId).filterMap fun idx => (entries ++ [entry])[idx]?) =
        (places entries traceId).filterMap fun idx => entries[idx]? := by
      refine List.filterMap_congr fun idx hidx => ?_
      exact List.getElem?_append_left (lt_of_mem_places hidx)
    rw [places_concat, List.filterMap_append, hold, ih, List.filter_append]
    congr 1
    by_cases htrace : entry.traceId = traceId
    · rw [if_pos htrace, List.filter_singleton]
      simp [htrace]
    · rw [if_neg htrace, List.filter_singleton]
      simp [htrace]

/-! ## The index -/

/-- The index has the places of every trace, and no others. -/
structure Indexed (entries : List (LogEntry E)) (byTrace : String → Option (List ℕ)) : Prop where
  places : ∀ t, t ≠ "" → (byTrace t).getD [] = places entries t
  /-- what has no trace id is not indexed -/
  untraced : byTrace "" = none

theorem indexed_nil : Indexed ([] : List (LogEntry E)) fun _ => none :=
  ⟨fun _ _ => rfl, rfl⟩

theorem Indexed.indexEntry {entries : List (LogEntry E)} {byTrace : String → Option (List ℕ)}
    (h : Indexed entries byTrace) (entry : LogEntry E) :
    Indexed (entries ++ [entry]) (indexEntry byTrace entry entries.length) := by
  unfold LogStats.indexEntry
  by_cases hnone : entry.traceId = ""
  · -- no query is for an entry without a trace id
    rw [if_neg (not_not.mpr hnone)]
    refine ⟨fun t ht => ?_, h.untraced⟩
    have hne : entry.traceId ≠ t := fun heq => ht (heq.symm.trans hnone)
    rw [places_concat, if_neg hne, List.append_nil]
    exact h.places t ht
  · rw [if_pos hnone]
    refine ⟨fun t ht => ?_, ?_⟩
    · rw [places_concat]
      by_cases htrace : entry.traceId = t
      · subst htrace
        rw [Function.update_self, if_pos rfl, Option.getD_some, h.places _ ht]
      · rw [Function.update_of_ne (Ne.symm htrace), if_neg htrace, List.append_nil]
        exact h.places t ht
    · rw [Function.update_of_ne (Ne.symm hnone)]
      exact h.untraced

/-- `rebuildIndex` makes an index of what is left. -/
theorem indexed_rebuildIndex (entries : List (LogEntry E)) :
    Indexed entries (rebuildIndex entries) := by
  induction entries using List.reverseRecOn with
  | nil => exact indexed_nil
  | append_singleton entries entry ih =>
    have hsplit : rebuildIndex (entries ++ [entry]) =
        LogStats.indexEntry (rebuildIndex entries) entry entries.length := by
      unfold rebuildIndex
      rw [List.zipIdx_append, List.zipIdx_singleton, List.foldl_append, Nat.zero_add]
      rfl
    rw [hsplit]
    exact ih.indexEntry entry

/-! ## Runs -/

/-- The entries are the newest ones of `parsed`, and they are indexed. -/
structure Holds (maxSize : ℕ) (parsed : List (LogEntry E)) (ls : LogStats E) : Prop where
  entries : ls.entries = parsed.drop (parsed.length - maxSize)
  indexed : Indexed ls.entries ls.byTrace

theorem holds_empty (maxSize : ℕ) : Holds maxSize [] ({} : LogStats E) :=
  ⟨List.drop_nil.symm, indexed_nil⟩

/-- An entry more, with an overflow or without one. -/
theorem Holds.push {maxSize : ℕ} {parsed : List (LogEntry E)} {ls : LogStats E}
    (h : Holds maxSize parsed ls) (entry : LogEntry E) :
    Holds maxSize (parsed ++ [entry]) (ls.push maxSize entry) := by
  have hlen : ls.entries.length = min parsed.length maxSize := by
    rw [h.entries, List.length_drop]
    omega
  unfold LogStats.push
  dsimp only
  rw [List.length_append, List.length_singleton]
  split_ifs with hover
  · -- full: the oldest entry goes
    refine ⟨?_, indexed_rebuildIndex _⟩
    dsimp only
    rw [h.entries, ← List.drop_append_of_le_length (by omega), List.drop_drop, List.length_append,
      List.length_singleton]
    congr 1
    rw [List.length_drop]
    omega
  · refine ⟨?_, h.indexed.indexEntry entry⟩
    dsimp only
    rw [h.entries, ← List.drop_append_of_le_length (by omega), List.length_append,
      List.length_singleton]
    congr 1
    omega

theorem Holds.append {unmarshal : List UInt8 → Option (LogEntry E)} {maxSize : ℕ}
    {raws : List (List UInt8)} {ls : LogStats E}
    (h : Holds maxSize (raws.filterMap unmarshal) ls) (raw : List UInt8) :
    Holds maxSize ((raws ++ [raw]).filterMap unmarshal) (ls.append unmarshal maxSize raw) := by
  rw [List.filterMap_append]
  unfold LogStats.append
  cases hraw : unmarshal raw with
  | none =>
    rw [List.filterMap_cons_none hraw, List.filterMap_nil, List.append_nil]
    exact h
  | some entry =>
    rw [List.filterMap_cons_some hraw, List.filterMap_nil]
    exact h.push entry

/-- After any lines. -/
theorem holds_foldl (unmarshal : List UInt8 → Option (LogEntry E)) (maxSize : ℕ)
    (raws : List (List UInt8)) :
    Holds maxSize (raws.filterMap unmarshal) (raws.foldl (append unmarshal maxSize) {}) := by
  induction raws using List.reverseRecOn with
  | nil => exact holds_empty maxSize
  | append_singleton raws raw ih =>
    rw [List.foldl_append, List.foldl_cons, List.foldl_nil]
    exact ih.append raw

/-- A query through an index. -/
theorem queryByTrace_eq {ls : LogStats E} (h : Indexed ls.entries ls.byTrace) (traceId : String) :
    ls.queryByTrace traceId =
      if traceId = "" then [] else ls.entries.filter fun entry => entry.traceId = traceId := by
  have hread : ls.queryByTrace traceId =
      ((ls.byTrace traceId).getD []).filterMap fun idx => ls.entries[idx]? := by
    unfold queryByTrace
    cases ls.byTrace traceId <;> rfl
  rw [hread]
  split_ifs with hnone
  · rw [hnone, h.untraced]
    rfl
  · rw [h.places traceId hnone, filterMap_places]

/-- After any lines the newest `maxSize` entries are there in the order they came in, and a
query by trace id finds exactly those of the trace in this order; by the empty one it finds
nothing. -/
theorem queryByTrace_exact (unmarshal : List UInt8 → Option (LogEntry E)) (maxSize : ℕ)
    (raws : List (List UInt8)) :
    let parsed := raws.filterMap unmarshal
    let ls := raws.foldl (append unmarshal maxSize) ({} : LogStats E)
    ls.entries = parsed.drop (parsed.length - min parsed.length maxSize) ∧
      (∀ t, t ≠ "" → ls.queryByTrace t = ls.entries.filter fun entry => entry.traceId = t) ∧
      ls.queryByTrace "" = [] := by
  intro parsed ls
  have h : Holds maxSize parsed ls := holds_foldl unmarshal maxSize raws
  refine ⟨?_, fun t ht => ?_, ?_⟩
  · rw [h.entries]
    congr 1
    omega
  · rw [queryByTrace_eq h.indexed, if_neg ht]
  · rw [queryByTrace_eq h.indexed, if_pos rfl]

/-- A line without a trace id. -/
def untracedEntry : LogEntry Unit :=
  { time := "", level := "info", service := "biz", nodeId := "biz-1", traceId := "", msg := "up",
    extra := () }

/-- It is kept, and no query finds it. -/
theorem untraced_not_found :
    ¬ ∀ (unmarshal : List UInt8 → Option (LogEntry Unit)) (maxSize : ℕ)
      (raws : List (List UInt8)) (t : String), 1 ≤ maxSize →
      let ls := raws.foldl (append unmarshal maxSize) ({} : LogStats Unit)
      ls.queryByTrace t = ls.entries.filter fun entry => entry.traceId = t := by
  intro h
  have hquery := h (fun _ => some untracedEntry) 1 [[]] "" le_rfl
  exact absurd hquery (by decide)

end LogStats

end Gmaker
