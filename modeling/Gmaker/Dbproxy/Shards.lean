import Gmaker.Dbproxy.Profiles
import Gmaker.Lib.Utf8
import Gmaker.Lib.Words

/-!
# Gmaker.Dbproxy.Shards — which database a statement goes to

A player's statements go to the shard that the remainder of the player's id names (`routeUID`). A
key goes to the shard that the remainder of its hash names, without the sign (`routeKey`). The hash
is the number that the key's characters are the digits of, in base 31 (`keyValue`), cut to 64 bits;
of the least of these numbers the sign cannot be taken away.
-/

namespace Gmaker.Dbproxy.Mysql

open Gmaker.Lib

universe u v

/-- `Proxy`. The length of a slice is an `int`. -/
structure Proxy (DB : Type u) where
  shards : List DB
  lt : shards.length < 2 ^ 63

/-- `hashCode`. -/
def hashCode (s : List UInt8) : Int64 := (runes s).foldl (fun h c => 31 * h + Int64.ofNat c) 0

namespace Proxy

variable {DB : Type u} {α : Type v}

/-- `RouteKey`. -/
def routeKey (p : Proxy DB) (key : List UInt8) : Int64 :=
  if p.shards.length = 0 then -1
  else
    let h := hashCode key
    let h := if h < 0 then -h else h
    h % Int64.ofNat p.shards.length

/-- `RouteUID`. -/
def routeUID (p : Proxy DB) (uid : UInt64) : Int64 :=
  if p.shards.length = 0 then -1 else (uid % UInt64.ofNat p.shards.length).toInt64

/-- `QueryRowByUID`, `QueryByUID` and `ExecByUID`: each has the shard `run` a statement of its kind.
There is nothing where `p.shards[idx]` panics. -/
def byUID (p : Proxy DB) (uid : UInt64) (run : DB → Except String α) : Option (Except String α) :=
  let idx := p.routeUID uid
  if idx < 0 then some (.error "no shard available")
  else (p.shards[idx.toInt.toNat]?).map run

/-- The indices of the shards. -/
def InRange (p : Proxy DB) (i : Int64) : Prop := 0 ≤ i.toInt ∧ i.toInt < p.shards.length

instance (p : Proxy DB) (i : Int64) : Decidable (p.InRange i) :=
  inferInstanceAs (Decidable (_ ∧ _))

end Proxy

/-! ## The hash of a key -/

/-- The number with the characters of a key as its digits, in base 31. -/
def keyValue (key : List UInt8) : ℕ := Nat.ofDigits 31 (runes key).reverse

theorem foldl_hash (l : List ℕ) :
    l.foldl (fun h c => 31 * h + Int64.ofNat c) 0 = Int64.ofNat (Nat.ofDigits 31 l.reverse) := by
  induction l using List.reverseRecOn with
  | nil => rfl
  | append_singleton l c ih =>
    rw [List.foldl_append, ih, List.reverse_append]
    change 31 * Int64.ofNat _ + Int64.ofNat c = Int64.ofNat (c + 31 * Nat.ofDigits 31 l.reverse)
    rw [Int64.ofNat_add, Int64.ofNat_mul, Int64.add_comm]
    rfl

theorem hashCode_eq (key : List UInt8) : hashCode key = Int64.ofNat (keyValue key) :=
  foldl_hash (runes key)

theorem hashCode_eq_minValue_iff (key : List UInt8) :
    hashCode key = Int64.minValue ↔ keyValue key % 2 ^ 64 = 2 ^ 63 := by
  rw [hashCode_eq, ofNat_eq_minValue_iff]

theorem ofDigits_le {m : ℕ} {l : List ℕ} (hl : ∀ c ∈ l, c ≤ m) :
    30 * Nat.ofDigits 31 l + m ≤ m * 31 ^ l.length := by
  induction l with
  | nil => simp
  | cons c l ih =>
    rw [List.forall_mem_cons] at hl
    rw [Nat.ofDigits_cons, List.length_cons, pow_succ, ← mul_assoc]
    have hrest := ih hl.2
    have hc := hl.1
    generalize m * 31 ^ l.length = bound at *
    change 30 * (c + 31 * Nat.ofDigits 31 l) + m ≤ bound * 31
    omega

/-- Nine characters do not make the least hash, whichever they are. -/
theorem keyValue_lt {key : List UInt8} (hlen : (runes key).length ≤ 9) : keyValue key < 2 ^ 63 := by
  have hdigits : ∀ c ∈ (runes key).reverse, c ≤ 0x10FFFF := fun c hc =>
    Nat.le_of_lt_succ (lt_of_mem_runes (List.mem_reverse.mp hc))
  have hle := ofDigits_le hdigits
  have hpow : 31 ^ (runes key).reverse.length ≤ 31 ^ 9 :=
    Nat.pow_le_pow_right (by omega) (by rw [List.length_reverse]; exact hlen)
  rw [keyValue]
  omega

namespace Proxy

variable {DB : Type u} {α : Type v} {p : Proxy DB}

theorem toInt_length (p : Proxy DB) : (Int64.ofNat p.shards.length).toInt = p.shards.length :=
  Int64.toInt_ofNat_of_lt p.lt

theorem length_ne_zero (hshards : p.shards ≠ []) : p.shards.length ≠ 0 :=
  fun hzero => hshards (List.length_eq_zero_iff.mp hzero)

/-! ## Player ids -/

theorem toInt_routeUID (hshards : p.shards ≠ []) (uid : UInt64) :
    (p.routeUID uid).toInt = (uid.toNat % p.shards.length : ℕ) := by
  have hlt := p.lt
  have hpos : 0 < p.shards.length := List.length_pos_iff.mpr hshards
  have hrem : (uid % UInt64.ofNat p.shards.length).toNat = uid.toNat % p.shards.length := by
    rw [UInt64.toNat_mod, UInt64.toNat_ofNat_of_lt' (hlt.trans (by decide))]
  have hsmall : uid.toNat % p.shards.length < p.shards.length := Nat.mod_lt _ hpos
  rw [routeUID, if_neg (length_ne_zero hshards), toInt_toInt64_of_lt (by omega), hrem]

theorem inRange_routeUID (hshards : p.shards ≠ []) (uid : UInt64) :
    p.InRange (p.routeUID uid) := by
  have hpos : 0 < p.shards.length := List.length_pos_iff.mpr hshards
  have hsmall : uid.toNat % p.shards.length < p.shards.length := Nat.mod_lt _ hpos
  rw [InRange, toInt_routeUID hshards]
  omega

theorem byUID_eq (hshards : p.shards ≠ []) (uid : UInt64) (run : DB → Except String α) :
    p.byUID uid run = (p.shards[uid.toNat % p.shards.length]?).map run := by
  have hneg : ¬ p.routeUID uid < 0 := fun hneg =>
    absurd (Int64.lt_iff_toInt_lt.mp hneg) (not_lt.mpr (inRange_routeUID hshards uid).1)
  rw [byUID, if_neg hneg, toInt_routeUID hshards, Int.toNat_natCast]

theorem byUID_of_no_shards (hshards : p.shards = []) (uid : UInt64) (run : DB → Except String α) :
    p.byUID uid run = some (.error "no shard available") := by
  have hroute : p.routeUID uid = -1 := if_pos (List.length_eq_zero_iff.mpr hshards)
  rw [byUID, hroute]
  rfl

/-- Nothing panics, and the shard is the one that `Dbproxy.Proxy` has for the player. -/
theorem byUID_eq_shard {m : MySQL} (p : Dbproxy.Proxy m) (hlt : p.shards.length < 2 ^ 63)
    (uid : UInt64) (run : m.Store → Except String α) :
    (⟨p.shards, hlt⟩ : Proxy m.Store).byUID uid run =
      some (match p.shard uid with
        | none => .error "no shard available"
        | some s => run s) := by
  by_cases hshards : p.shards = []
  · rw [byUID_of_no_shards hshards, Dbproxy.Proxy.shard, hshards]
    rfl
  · have hpos : 0 < p.shards.length := List.length_pos_iff.mpr hshards
    have hfound : ∃ s, p.shard uid = some s :=
      ⟨_, List.getElem?_eq_getElem (Nat.mod_lt uid.toNat hpos)⟩
    rcases hfound with ⟨s, hs⟩
    rw [byUID_eq hshards]
    change (p.shard uid).map run = _
    rw [hs]
    rfl

theorem byUID_eq_shard_two :
    byUID (⟨[fun _ => none, fun _ => none], by decide⟩ : Proxy tableDb.Store) 7
      (fun _ => .ok ()) = some (.ok ()) :=
  byUID_eq_shard (m := tableDb) ⟨[fun _ => none, fun _ => none]⟩ (by decide) 7 _

/-! ## Keys -/

theorem routeKey_eq (hshards : p.shards ≠ []) (key : List UInt8) :
    (p.routeKey key).toInt =
      (if hashCode key < 0 then -hashCode key else hashCode key).toInt.tmod p.shards.length := by
  rw [routeKey, if_neg (length_ne_zero hshards), ← toInt_length p, ← Int64.toInt_mod]

theorem inRange_routeKey (hshards : p.shards ≠ []) {key : List UInt8}
    (hmin : hashCode key ≠ Int64.minValue) : p.InRange (p.routeKey key) := by
  have hpos : (0 : ℤ) < p.shards.length :=
    Int.natCast_pos.mpr (List.length_pos_iff.mpr hshards)
  rw [InRange, routeKey_eq hshards, toInt_unsigned hmin]
  constructor
  · exact Int.tmod_nonneg _ (Int.natCast_nonneg _)
  · exact Int.tmod_lt_of_pos _ hpos

theorem inRange_routeKey_of_short (hshards : p.shards ≠ []) {key : List UInt8}
    (hlen : (runes key).length ≤ 9) : p.InRange (p.routeKey key) := by
  apply inRange_routeKey hshards
  intro hmin
  rw [hashCode_eq_minValue_iff] at hmin
  have hlt := keyValue_lt hlen
  omega

theorem inRange_routeKey_of_short_two :
    let p : Proxy Unit := ⟨[(), ()], by decide⟩
    p.InRange (p.routeKey "player_42".toUTF8.toList) :=
  inRange_routeKey_of_short (by decide) (by decide +kernel)

/-- The least hash stays negative, and so does its remainder, unless that is zero. -/
theorem inRange_routeKey_minValue_iff (hshards : p.shards ≠ []) {key : List UInt8}
    (hmin : hashCode key = Int64.minValue) :
    p.InRange (p.routeKey key) ↔ p.shards.length ∣ 2 ^ 63 := by
  have hpos : 0 < p.shards.length := List.length_pos_iff.mpr hshards
  have hroute : (p.routeKey key).toInt = -((2 ^ 63 % p.shards.length : ℕ) : ℤ) := by
    rw [routeKey_eq hshards, hmin]
    change (-2 ^ 63 : ℤ).tmod p.shards.length = _
    rw [Int.neg_tmod]
    rfl
  rw [InRange, hroute, Nat.dvd_iff_mod_eq_zero]
  omega

/-- Keys and players are routed to a shard, unless the number of the key is cut to the least word
and the shards do not divide that evenly. -/
theorem inRange_routes_iff (hshards : p.shards ≠ []) (key : List UInt8) :
    (p.InRange (p.routeKey key) ∧ ∀ uid, p.InRange (p.routeUID uid)) ↔
      keyValue key % 2 ^ 64 ≠ 2 ^ 63 ∨ p.shards.length ∣ 2 ^ 63 := by
  have hmin := hashCode_eq_minValue_iff key
  have huid : ∀ uid, p.InRange (p.routeUID uid) := inRange_routeUID hshards
  by_cases hleast : hashCode key = Int64.minValue
  · rw [inRange_routeKey_minValue_iff hshards hleast]
    have hvalue := hmin.mp hleast
    constructor
    · intro hroutes
      exact Or.inr hroutes.1
    · intro hcond
      exact ⟨hcond.resolve_left (not_not_intro hvalue), huid⟩
  · constructor
    · intro _
      exact Or.inl fun hvalue => hleast (hmin.mpr hvalue)
    · intro _
      exact ⟨inRange_routeKey hshards hleast, huid⟩

/-- Three shards. -/
def three : Proxy Unit := ⟨[(), (), ()], by decide⟩

/-- A key that three shards route. -/
theorem inRange_routes_three :
    three.InRange (three.routeKey "player_42".toUTF8.toList) ∧
      ∀ uid, three.InRange (three.routeUID uid) :=
  (inRange_routes_iff (by decide) _).mpr (Or.inl (by decide +kernel))

/-- A key that three shards route to the index -2. -/
theorem routeKey_three_negative :
    three.shards ≠ [] ∧ (three.routeKey "uidvoaqqaitokjek".toUTF8.toList).toInt = -2 ∧
      ¬ three.InRange (three.routeKey "uidvoaqqaitokjek".toUTF8.toList) := by
  decide +kernel

end Proxy

end Gmaker.Dbproxy.Mysql
