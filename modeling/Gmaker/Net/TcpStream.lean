import Gmaker.Net.TcpReader

/-!
# Gmaker.Net.TcpStream — the packets of a byte stream

What a stream of bytes says, whatever way it arrives: `decodeStream` cuts it into a
header and a payload after the other, up to the first malformed header.

`midHeader` tells whether the bytes end in the middle of a header, and an
arrival of bytes and expiries is `Intact` when no expiry falls there. On those
`readLoop` hands out the packets of the stream; and where an expiry does fall there,
one more packet shows the difference (`delivered_exact`).
-/

namespace Gmaker.Net

open Gmaker.Lib

/-! ## Headers and packets of a stream -/

/-- What the front of a stream is. -/
inductive Status (α : Type) where
  | malformed
  | incomplete
  | complete (a : α)
deriving DecidableEq

/-- The header at the front; the length is looked at as soon as it is there. -/
def nextHeader (bs : Bytes) : Status Header :=
  if bs.length < 4 then .incomplete
  else if validLength (readU32BE bs 0) = false then .malformed
  else if bs.length < headerSize then .incomplete
  else if (parseHeader bs).magic = magicValue then .complete (parseHeader bs)
  else .malformed

/-- The packet at the front, and what comes after it. -/
def nextPacket (s : Session) (bs : Bytes) : Status (Packet × Bytes) :=
  match nextHeader bs with
  | .malformed => .malformed
  | .incomplete => .incomplete
  | .complete h =>
    if bs.length < h.length.toNat then .incomplete
    else
      match s.openPacket { header := h, payload := (bs.take h.length.toNat).drop headerSize } with
      | none => .malformed
      | some pkt => .complete (pkt, bs.drop h.length.toNat)

section Status

variable {s : Session} {bs as : Bytes} {h : Header} {pkt : Packet} {rest : Bytes}

/-- What a complete header is. -/
theorem nextHeader_complete (hh : nextHeader bs = .complete h) :
    headerSize ≤ bs.length ∧ h = parseHeader bs ∧ headerSize ≤ h.length.toNat := by
  unfold nextHeader at hh
  split_ifs at hh with h4 hvalid h34 hmagic
  cases hh
  have hlen : (parseHeader bs).length = readU32BE bs 0 := rfl
  simp only [validLength, Bool.and_eq_false_iff, decide_eq_false_iff_not, not_or, not_not] at hvalid
  exact ⟨not_lt.mp h34, rfl, hlen ▸ hvalid.1⟩

theorem nextPacket_complete (hp : nextPacket s bs = .complete (pkt, rest)) :
    ∃ h, nextHeader bs = .complete h ∧ h.length.toNat ≤ bs.length ∧
      s.openPacket { header := h, payload := (bs.take h.length.toNat).drop headerSize } = some pkt ∧
      rest = bs.drop h.length.toNat := by
  unfold nextPacket at hp
  cases hh : nextHeader bs with
  | malformed =>
    rw [hh] at hp
    cases hp
  | incomplete =>
    rw [hh] at hp
    cases hp
  | complete h =>
    rw [hh] at hp
    simp only at hp
    split_ifs at hp with hlen
    cases hopen : s.openPacket
        { header := h, payload := (bs.take h.length.toNat).drop headerSize } with
    | none =>
      rw [hopen] at hp
      cases hp
    | some pkt' =>
      rw [hopen] at hp
      cases hp
      exact ⟨h, rfl, not_lt.mp hlen, hopen, rfl⟩

/-- A packet takes some bytes. -/
theorem length_lt_of_nextPacket (hp : nextPacket s bs = .complete (pkt, rest)) :
    rest.length < bs.length := by
  obtain ⟨h, hh, hle, -, rfl⟩ := nextPacket_complete hp
  obtain ⟨h34, -, hlen⟩ := nextHeader_complete hh
  have : headerSize = 34 := rfl
  rw [List.length_drop]
  omega

/-- A field that is there is not changed by what follows. -/
theorem field_append {i w : ℕ} (hle : i + w ≤ bs.length) :
    ((bs ++ as).drop i).take w = (bs.drop i).take w := by
  rw [List.drop_append_of_le_length (by omega),
    List.take_append_of_le_length (by rw [List.length_drop]; omega)]

theorem parseHeader_append (hle : headerSize ≤ bs.length) :
    parseHeader (bs ++ as) = parseHeader bs := by
  have h34 : 34 ≤ bs.length := hle
  unfold parseHeader readU16BE readU32BE readU64BE
  rw [field_append (by omega), field_append (by omega), field_append (by omega),
    field_append (by omega), field_append (by omega), field_append (by omega),
    field_append (by omega), field_append (by omega)]

/-- More bytes only complete a header. -/
theorem nextHeader_append (hh : nextHeader bs ≠ .incomplete) :
    nextHeader (bs ++ as) = nextHeader bs := by
  have hlen : (bs ++ as).length = bs.length + as.length := List.length_append
  unfold nextHeader at hh ⊢
  by_cases h4 : bs.length < 4
  · exact absurd (if_pos h4) hh
  · have hfield : readU32BE (bs ++ as) 0 = readU32BE bs 0 := by
      unfold readU32BE
      rw [field_append (by omega)]
    rw [if_neg h4] at hh ⊢
    rw [if_neg (by omega), hfield]
    by_cases hvalid : validLength (readU32BE bs 0) = false
    · rw [if_pos hvalid, if_pos hvalid]
    · rw [if_neg hvalid] at hh ⊢
      rw [if_neg hvalid]
      by_cases hshort : bs.length < headerSize
      · exact absurd (if_pos hshort) hh
      · rw [if_neg hshort, if_neg (by omega), parseHeader_append (not_lt.mp hshort)]

/-- A packet at the front stays there when more bytes follow. -/
theorem nextPacket_append (hp : nextPacket s bs = .complete (pkt, rest)) :
    nextPacket s (bs ++ as) = .complete (pkt, rest ++ as) := by
  obtain ⟨h, hh, hle, hopen, rfl⟩ := nextPacket_complete hp
  have hlen : (bs ++ as).length = bs.length + as.length := List.length_append
  have happ : nextHeader (bs ++ as) = .complete h := by
    rw [nextHeader_append (by rw [hh]; simp), hh]
  unfold nextPacket
  rw [happ]
  simp only
  rw [if_neg (by omega), List.take_append_of_le_length hle, hopen,
    List.drop_append_of_le_length hle]

end Status

/-! ## The whole stream -/

/-- The packets of the stream, up to the first malformed header. -/
def decodeStream (s : Session) (bs : Bytes) : List Packet :=
  match _hp : nextPacket s bs with
  | .complete (pkt, rest) => pkt :: decodeStream s rest
  | .incomplete => []
  | .malformed => []
termination_by bs.length
decreasing_by exact length_lt_of_nextPacket _hp

/-- Whether the bytes end in the middle of a header: some of it is there, and what is
there is not malformed. -/
def midHeader (s : Session) (bs : Bytes) : Bool :=
  match _hp : nextPacket s bs with
  | .complete (_, rest) => midHeader s rest
  | .incomplete => bs ≠ [] && nextHeader bs = .incomplete
  | .malformed => false
termination_by bs.length
decreasing_by exact length_lt_of_nextPacket _hp

section Stream

variable {s : Session} {bs : Bytes} {pkt : Packet} {rest : Bytes}

theorem decodeStream_of_complete (hp : nextPacket s bs = .complete (pkt, rest)) :
    decodeStream s bs = pkt :: decodeStream s rest := by
  rw [decodeStream]
  split
  · next pkt' rest' heq =>
    rw [hp] at heq
    cases heq
    rfl
  · next heq =>
    rw [hp] at heq
    cases heq
  · next heq =>
    rw [hp] at heq
    cases heq

theorem decodeStream_of_not (hp : ∀ p, nextPacket s bs ≠ .complete p) : decodeStream s bs = [] := by
  rw [decodeStream]
  split
  · next pkt rest heq => exact absurd heq (hp _)
  · rfl
  · rfl

theorem midHeader_of_complete (hp : nextPacket s bs = .complete (pkt, rest)) :
    midHeader s bs = midHeader s rest := by
  rw [midHeader]
  split
  · next pkt' rest' heq =>
    rw [hp] at heq
    cases heq
    rfl
  · next heq =>
    rw [hp] at heq
    cases heq
  · next heq =>
    rw [hp] at heq
    cases heq

theorem midHeader_of_not (hp : ∀ p, nextPacket s bs ≠ .complete p) :
    midHeader s bs = (bs ≠ [] && nextHeader bs = .incomplete) := by
  rw [midHeader]
  split
  · next pkt rest heq => exact absurd heq (hp _)
  · rfl
  · next heq =>
    unfold nextPacket at heq
    cases hh : nextHeader bs with
    | malformed => simp
    | incomplete =>
      rw [hh] at heq
      cases heq
    | complete h => simp

/-- Bytes of an incomplete header. -/
theorem midHeader_of_incomplete (hh : nextHeader bs = .incomplete) :
    midHeader s bs = decide (bs ≠ []) ∧ decodeStream s bs = [] := by
  have hp : ∀ p, nextPacket s bs ≠ .complete p := by
    intro p
    unfold nextPacket
    rw [hh]
    simp
  rw [midHeader_of_not hp, decodeStream_of_not hp, hh]
  simp

end Stream

/-! ## One round of the loop -/

section Round

variable {s : Session} {as bs : Bytes} {ts us : List (Token UInt8)} {deadline : Bool}

/-- The two parts of a header are read as the whole. -/
theorem headerOf_eq (has : as.length = 4) :
    headerOf (readU32BE as 0) bs = parseHeader (as ++ bs) := by
  have hfield : ∀ i w, ((as ++ bs).drop (4 + i)).take w = (bs.drop i).take w := by
    intro i w
    rw [← has, List.drop_append, List.drop_of_length_le (by omega), List.nil_append,
      Nat.add_sub_cancel_left]
  have hfirst : ((as ++ bs).drop 0).take 4 = (as.drop 0).take 4 := field_append (by omega)
  unfold headerOf parseHeader readU16BE readU32BE readU64BE
  rw [hfirst, ← hfield 0, ← hfield 2, ← hfield 6, ← hfield 10, ← hfield 14, ← hfield 22,
    ← hfield 26]

theorem nextHeader_of_short (has : as.length < 4) : nextHeader as = .incomplete := if_pos has

/-- With the length there and in range, fewer bytes than a header are incomplete. -/
theorem nextHeader_of_length (has : as.length = 4) (hvalid : validLength (readU32BE as 0) = true)
    (hbs : bs.length < headerSize - 4) : nextHeader (as ++ bs) = .incomplete := by
  have h34 : headerSize = 34 := rfl
  have hlen : (as ++ bs).length = as.length + bs.length := List.length_append
  have hfield : readU32BE (as ++ bs) 0 = readU32BE as 0 := by
    unfold readU32BE
    rw [field_append (by omega)]
  unfold nextHeader
  rw [if_neg (by omega), hfield, hvalid, if_neg (by simp), if_pos (by omega)]

/-- With all bytes there, the magic decides. -/
theorem nextHeader_of_full (has : as.length = 4) (hvalid : validLength (readU32BE as 0) = true)
    (hbs : bs.length = headerSize - 4) :
    nextHeader (as ++ bs) =
      if (parseHeader (as ++ bs)).magic = magicValue then .complete (parseHeader (as ++ bs))
      else .malformed := by
  have h34 : headerSize = 34 := rfl
  have hlen : (as ++ bs).length = as.length + bs.length := List.length_append
  have hfield : readU32BE (as ++ bs) 0 = readU32BE as 0 := by
    unfold readU32BE
    rw [field_append (by omega)]
  unfold nextHeader
  rw [if_neg (by omega), hfield, hvalid, if_neg (by simp), if_neg (by omega)]

theorem nextHeader_of_invalid (has : as.length = 4)
    (hvalid : validLength (readU32BE as 0) = false) : nextHeader as = .malformed := by
  unfold nextHeader
  rw [if_neg (by omega), hvalid, if_pos rfl]

/-- How `DecodeHeader` ends on the plain reader: the deadline expires before the
header is there; the header is there; or it never will be. -/
inductive HeaderRead (ts : List (Token UInt8)) :
    Except HeaderError Header × TokenReader → Prop where
  | timeout {as : Bytes} {post : List (Token UInt8)} (hts : ts = as.map .item ++ .expiry :: post)
      (hh : nextHeader as = .incomplete) :
      HeaderRead ts (.error (.read .timeout), { tokens := post, deadline := true })
  | complete {as : Bytes} {us : List (Token UInt8)} {h : Header} (hts : ts = as.map .item ++ us)
      (hlen : as.length = headerSize) (hh : nextHeader as = .complete h) :
      HeaderRead ts (.ok h, { tokens := us, deadline := true })
  | fails {e : HeaderError} {r : TokenReader} {as : Bytes} {rest : List (Token UInt8)}
      (he : e ≠ .read .timeout) (hts : ts = as.map .item ++ rest)
      (hh : nextHeader as = .malformed ∨ rest = [] ∧ nextHeader as = .incomplete) :
      HeaderRead ts (.error e, r)

theorem plain_readFull (n : ℕ) (ts : List (Token UInt8)) (deadline : Bool) :
    plain.readFull n { tokens := ts, deadline } =
      ((takeExact deadline n ts).1, { tokens := (takeExact deadline n ts).2, deadline }) := rfl

theorem decodeHeader_plain (ts : List (Token UInt8)) :
    HeaderRead ts (decodeHeader plain { tokens := ts, deadline := true }) := by
  unfold decodeHeader
  rw [plain_readFull]
  rcases hfirst : takeExact true 4 ts with ⟨e | as, us⟩
  · cases e with
    | timeout =>
      obtain ⟨-, as, hlen, hts⟩ := takeExact_timeout hfirst
      exact .timeout hts (nextHeader_of_short hlen)
    | eof =>
      obtain ⟨-, hlen, hts⟩ := takeExact_eof hfirst
      exact .fails (by simp) (by rw [List.append_nil]; exact hts rfl)
        (Or.inr ⟨rfl, nextHeader_of_short hlen⟩)
  · obtain ⟨has, front, hts, -, hfront⟩ := takeExact_ok hfirst
    rw [hfront rfl] at hts
    simp only
    cases hvalid : validLength (readU32BE as 0) with
    | false =>
      rw [if_neg (by simp)]
      exact .fails (by simp) hts (Or.inl (nextHeader_of_invalid has hvalid))
    | true =>
      rw [if_pos rfl, plain_readFull]
      rcases hsecond : takeExact true (headerSize - 4) us with ⟨e | bs, vs⟩
      · cases e with
        | timeout =>
          obtain ⟨-, bs, hlen, hus⟩ := takeExact_timeout hsecond
          have hwhole : ts = (as ++ bs).map .item ++ .expiry :: vs := by
            rw [hts, hus, List.map_append, List.append_assoc]
          exact .timeout hwhole (nextHeader_of_length has hvalid hlen)
        | eof =>
          obtain ⟨-, hlen, hus⟩ := takeExact_eof hsecond
          have hwhole : ts = (as ++ items us).map .item ++ [] := by
            rw [List.map_append, List.append_nil, ← hus rfl]
            exact hts
          exact .fails (by simp) hwhole (Or.inr ⟨rfl, nextHeader_of_length has hvalid hlen⟩)
      · obtain ⟨hbs, front, hus, -, hfront⟩ := takeExact_ok hsecond
        rw [hfront rfl] at hus
        have hwhole : ts = (as ++ bs).map .item ++ vs := by
          rw [hts, hus, List.map_append, List.append_assoc]
        have hfull := nextHeader_of_full has hvalid hbs
        have hlen : (as ++ bs).length = headerSize := by
          rw [List.length_append, has, hbs]
          rfl
        simp only
        rw [headerOf_eq has]
        by_cases hmagic : (parseHeader (as ++ bs)).magic = magicValue
        · rw [if_pos hmagic] at hfull ⊢
          exact .complete hwhole hlen hfull
        · rw [if_neg hmagic] at hfull ⊢
          exact .fails (by simp) hwhole (Or.inl hfull)

/-- How a round of the loop ends: the deadline expires and the incomplete header is
lost; a packet is handed out; or the loop ends, at bytes that are no packet. -/
inductive Round (s : Session) (ts : List (Token UInt8)) (out : List Packet) (passes : ℕ)
    (res : Option (List Packet)) : Prop where
  | again {as : Bytes} {post : List (Token UInt8)} (hts : ts = as.map .item ++ .expiry :: post)
      (hh : nextHeader as = .incomplete)
      (hres : res = readLoop s plain passes { tokens := post } out)
  | packet {as : Bytes} {cs us : List (Token UInt8)} {h : Header} {pkt : Packet}
      (hts : ts = as.map .item ++ (cs ++ us)) (hh : nextHeader as = .complete h)
      (hp : nextPacket s (as ++ items cs) = .complete (pkt, []))
      (hres : res = readLoop s plain passes { tokens := us } (out ++ [pkt]))
  | done {as : Bytes} {rest : List (Token UInt8)} (hts : ts = as.map .item ++ rest)
      (hh : nextHeader as ≠ .incomplete ∨ rest = [])
      (hp : ∀ p, nextPacket s (items ts) ≠ .complete p) (hres : res = some out)

/-- The payload that follows a complete header. -/
theorem readPayload_plain {h : Header} (hh : nextHeader as = .complete h) :
    readPayload plain h { tokens := us } =
      ((takeExact false (h.length.toNat - headerSize) us).1,
        { tokens := (takeExact false (h.length.toNat - headerSize) us).2 }) := by
  obtain ⟨-, -, hle⟩ := nextHeader_complete hh
  unfold readPayload
  by_cases hnone : (h.length.toNat : ℤ) - headerSize ≤ 0
  · have hzero : h.length.toNat - headerSize = 0 := by omega
    simp only
    rw [if_pos hnone, hzero, takeExact_zero]
  · have hsub : ((h.length.toNat : ℤ) - headerSize).toNat = h.length.toNat - headerSize := by omega
    simp only
    rw [if_neg hnone, hsub, plain_readFull]

theorem readLoop_round (s : Session) (ts : List (Token UInt8)) (deadline : Bool)
    (out : List Packet) (passes : ℕ) :
    Round s ts out passes (readLoop s plain (passes + 1) { tokens := ts, deadline } out) := by
  unfold readLoop
  have hread := decodeHeader_plain ts
  have hset : plain.setReadDeadline true { tokens := ts, deadline } =
      { tokens := ts, deadline := true } := rfl
  rw [hset]
  generalize decodeHeader plain { tokens := ts, deadline := true } = res at hread ⊢
  cases hread with
  | timeout hts hh => exact .again hts hh rfl
  | @fails e r as rest he hts hh =>
    have hp : ∀ p, nextPacket s (items ts) ≠ .complete p := by
      intro p hp
      obtain ⟨h, hcomplete, -⟩ := nextPacket_complete hp
      rw [hts, items_append, items_map] at hcomplete
      rcases hh with hbad | ⟨hrest, hshort⟩
      · rw [nextHeader_append (by rw [hbad]; simp), hbad] at hcomplete
        cases hcomplete
      · rw [hrest, items_nil, List.append_nil, hshort] at hcomplete
        cases hcomplete
    refine .done hts ?_ hp (if_neg he)
    rcases hh with hbad | ⟨hrest, -⟩
    · exact Or.inl (by rw [hbad]; simp)
    · exact Or.inr hrest
  | @complete as us h hts hlen hh =>
    have hnot : nextHeader as ≠ .incomplete := by
      rw [hh]
      simp
    obtain ⟨-, -, hge⟩ := nextHeader_complete hh
    have hitems : items ts = as ++ items us := by rw [hts, items_append, items_map]
    have hheader : nextHeader (as ++ items us) = .complete h := by
      rw [nextHeader_append hnot, hh]
    have hset : plain.setReadDeadline false { tokens := us, deadline := true } =
        { tokens := us } := rfl
    simp only
    rw [hset, readPayload_plain hh]
    rcases hpayload : takeExact false (h.length.toNat - headerSize) us with ⟨e | payload, vs⟩
    · -- the stream ends within the payload
      have hshort : (items us).length < h.length.toNat - headerSize := by
        cases e with
        | timeout => exact absurd (takeExact_timeout hpayload).1 (by simp)
        | eof => exact (takeExact_eof hpayload).2.1
      refine .done hts (Or.inl hnot) (fun p hp => ?_) rfl
      obtain ⟨h', hcomplete, hle, -⟩ := nextPacket_complete hp
      rw [hitems, hheader] at hcomplete
      cases hcomplete
      rw [hitems, List.length_append, hlen] at hle
      omega
    · obtain ⟨hplen, front, hus, hfront, -⟩ := takeExact_ok hpayload
      have hwhole : (as ++ payload).length = h.length.toNat := by
        rw [List.length_append, hlen, hplen]
        omega
      have hdrop : (as ++ payload).drop headerSize = payload := by
        rw [← hlen, List.drop_left]
      have hnext : nextPacket s (as ++ payload) =
          match s.openPacket { header := h, payload } with
          | none => .malformed
          | some pkt => .complete (pkt, []) := by
        unfold nextPacket
        rw [nextHeader_append hnot, hh]
        simp only
        rw [if_neg (by omega), ← hwhole, List.take_length, List.drop_length, hdrop]
      simp only
      cases hopen : s.openPacket { header := h, payload } with
      | some pkt =>
        rw [hopen] at hnext
        refine .packet (by rw [hts, hus]) hh ?_ rfl
        rw [hfront]
        exact hnext
      | none =>
        rw [hopen] at hnext
        refine .done hts (Or.inl hnot) (fun p hp => ?_) rfl
        obtain ⟨h', hcomplete, -, hopen', -⟩ := nextPacket_complete hp
        rw [hitems, hheader] at hcomplete
        cases hcomplete
        rw [hitems, hus, items_append, hfront, ← List.append_assoc, ← hwhole, List.take_left,
          hdrop, hopen] at hopen'
        cases hopen'

end Round

/-! ## Whole runs -/

/-- No expiry falls into the middle of a header. -/
def IntactTokens (s : Session) (ts : List (Token UInt8)) : Prop :=
  ∀ pre post, ts = pre ++ .expiry :: post → midHeader s (items pre) = false

section Runs

variable {s : Session} {as bs : Bytes} {pre post ts us : List (Token UInt8)} {h : Header}
  {pkt : Packet}

/-- What follows a packet is intact when the whole is. -/
theorem IntactTokens.rest (hin : IntactTokens s (as.map .item ++ (pre ++ us)))
    (hp : nextPacket s (as ++ items pre) = .complete (pkt, [])) : IntactTokens s us := by
  intro front post hus
  have hwhole : as.map .item ++ (pre ++ us) = (as.map .item ++ (pre ++ front)) ++ .expiry :: post := by
    rw [hus]
    simp only [List.append_assoc]
  have hmid := hin _ post hwhole
  rw [items_append, items_map, items_append, ← List.append_assoc,
    midHeader_of_complete (nextPacket_append hp), List.nil_append] at hmid
  exact hmid

/-- What follows an expiry that lost nothing is intact when the whole is. -/
theorem IntactTokens.afterExpiry (hin : IntactTokens s (as.map .item ++ .expiry :: post))
    (hh : nextHeader as = .incomplete) : as = [] ∧ IntactTokens s post := by
  have hmid := hin _ post rfl
  rw [items_map, (midHeader_of_incomplete hh).1, decide_eq_false_iff_not, not_not] at hmid
  subst hmid
  refine ⟨rfl, fun front post' hpost => ?_⟩
  have hmid := hin (.expiry :: front) post' (by rw [hpost]; rfl)
  rwa [items_expiry] at hmid

/-- A stream whose expiries lose nothing: the loop hands out its packets. -/
theorem readLoop_of_intact (passes : ℕ) (hin : IntactTokens s ts) (hpasses : ts.length < passes)
    (deadline : Bool) (out : List Packet) :
    readLoop s plain passes { tokens := ts, deadline } out =
      some (out ++ decodeStream s (items ts)) := by
  induction passes generalizing ts deadline out with
  | zero => omega
  | succ passes ih =>
    cases readLoop_round s ts deadline out passes with
    | again hts hh hres =>
      subst hts
      obtain ⟨rfl, hpost⟩ := hin.afterExpiry hh
      rw [hres, ih hpost (by simp at hpasses; omega)]
      rfl
    | @packet as cs us h pkt hts hh hp hres =>
      subst hts
      have hpos := length_lt_of_nextPacket hp
      have hle := length_items_le cs
      rw [hres, ih (hin.rest hp) (by simp at hpasses hpos; omega), items_append, items_map,
        items_append, ← List.append_assoc as, decodeStream_of_complete (nextPacket_append hp)]
      simp
    | done hts hh hp hres => rw [hres, decodeStream_of_not hp, List.append_nil]

/-- Bytes with a complete header, of a packet that may still be incomplete, do not
end in the middle of one. -/
theorem midHeader_of_header (hh : nextHeader bs = .complete h)
    (hp : ∀ p, nextPacket s bs = .complete p → p.2 = []) : midHeader s bs = false := by
  by_cases hcomplete : ∃ p, nextPacket s bs = .complete p
  · obtain ⟨⟨pkt, rest⟩, hcomplete⟩ := hcomplete
    have hrest : rest = [] := hp _ hcomplete
    rw [midHeader_of_complete hcomplete, hrest, (midHeader_of_incomplete rfl).1]
    rfl
  · rw [midHeader_of_not (fun p hp => hcomplete ⟨p, hp⟩), hh]
    simp

/-- Up to the first expiry that does lose something, the loop hands out the packets;
what was there of the header is gone. -/
theorem readLoop_upto_lost (passes : ℕ) (hin : IntactTokens s pre)
    (hmid : midHeader s (items pre) = true) (hpasses : pre.length + post.length + 1 < passes)
    (deadline : Bool) (out : List Packet) :
    ∃ left, post.length < left ∧
      readLoop s plain passes { tokens := pre ++ .expiry :: post, deadline } out =
        readLoop s plain left { tokens := post } (out ++ decodeStream s (items pre)) := by
  induction passes generalizing pre deadline out with
  | zero => omega
  | succ passes ih =>
    cases readLoop_round s (pre ++ .expiry :: post) deadline out passes with
    | @again as post' hts hh hres =>
      obtain ⟨cs, rfl, hcs⟩ := eq_append_of_map_append hts.symm
      cases cs with
      | nil =>
        -- this is the expiry
        cases hcs
        rw [List.append_nil] at hres ⊢
        rw [items_map, (midHeader_of_incomplete hh).2, List.append_nil]
        exact ⟨passes, by omega, hres⟩
      | cons t cs =>
        cases hcs
        obtain ⟨rfl, hcs⟩ := hin.afterExpiry hh
        obtain ⟨left, hleft, hrec⟩ := ih hcs (by simpa using hmid)
          (by simp at hpasses; omega) false out
        exact ⟨left, hleft, hres.trans (by simpa using hrec)⟩
    | @packet as cs us h pkt hts hh hp hres =>
      have hnot : nextHeader as ≠ .incomplete := by
        rw [hh]
        simp
      obtain ⟨ds, rfl, hds⟩ := eq_append_of_map_append hts.symm
      rcases List.append_eq_append_iff.mp hds with ⟨es, rfl, rfl⟩ | ⟨es, rfl, hes⟩
      · -- it comes after the packet
        have hpos := length_lt_of_nextPacket hp
        have hle := length_items_le cs
        have hrest : items (as.map .item ++ (cs ++ es)) = (as ++ items cs) ++ items es := by
          rw [items_append, items_map, items_append, List.append_assoc]
        rw [hrest, midHeader_of_complete (nextPacket_append hp), List.nil_append] at hmid
        obtain ⟨left, hleft, hrec⟩ := ih (hin.rest hp) hmid
          (by simp at hpasses hpos; omega) false (out ++ [pkt])
        refine ⟨left, hleft, hres.trans ?_⟩
        rw [hrec, hrest, decodeStream_of_complete (nextPacket_append hp)]
        simp
      · -- it would fall into the payload
        have hheader : nextHeader (as ++ items ds) = .complete h := by
          rw [nextHeader_append hnot, hh]
        have hitems : items (as.map .item ++ ds) = as ++ items ds := by
          rw [items_append, items_map]
        rw [hitems, midHeader_of_header hheader] at hmid
        · cases hmid
        · intro p hcomplete
          have happ : nextPacket s ((as ++ items ds) ++ items es) =
              .complete (p.1, p.2 ++ items es) := nextPacket_append hcomplete
          rw [items_append, ← List.append_assoc, happ] at hp
          simp only [Status.complete.injEq, Prod.mk.injEq, List.append_eq_nil_iff] at hp
          exact hp.2.1
    | @done as rest hts hh hp hres =>
      obtain ⟨cs, rfl, rfl⟩ := eq_append_of_map_append hts.symm
      have hnot : nextHeader as ≠ .incomplete := hh.resolve_right (by simp)
      have hitems : items (as.map .item ++ cs) = as ++ items cs := by rw [items_append, items_map]
      have hnone : ∀ p, nextPacket s (as ++ items cs) ≠ .complete p := by
        intro p hcomplete
        have happ : nextPacket s ((as ++ items cs) ++ items post) =
            .complete (p.1, p.2 ++ items post) := nextPacket_append hcomplete
        refine hp (p.1, p.2 ++ items post) ?_
        rw [items_append, hitems]
        exact happ
      rw [hitems, midHeader_of_not hnone, nextHeader_append hnot] at hmid
      simp [hnot] at hmid

end Runs

/-! ## A packet that shows the difference -/

/-- A packet without payload, every field of which but the flags is filled. -/
def probe : Bytes :=
  encodePacket
    { header :=
        { cmdId := 0x01010101, seqId := 0x01010101, userId := 0x0101010101010101
          zoneId := 0x01010101, serviceId := 0x01010101 }
      payload := [] }

/-- What the loop hands out for it. -/
def probePacket : Packet := { header := parseHeader probe, payload := [] }

section Probe

variable {s : Session} {as bs : Bytes}

theorem length_probe : probe.length = 34 := by
  rw [probe, encodePacket, List.length_append, length_encodeHeader]
  rfl

theorem nextHeader_probe : nextHeader probe = .complete (parseHeader probe) := by
  decide

theorem decodeStream_probe : decodeStream s probe = [probePacket] := by
  have hlen : (parseHeader probe).length.toNat = probe.length := by decide
  have hpayload : probe.drop headerSize = [] := by decide
  have hflags : hasFlag (parseHeader probe).flags flagEncrypt = false := by decide
  have hopen : s.openPacket probePacket = some probePacket := by
    unfold Session.openPacket probePacket
    simp [hflags]
  have hp : nextPacket s probe = .complete (probePacket, []) := by
    unfold nextPacket
    rw [nextHeader_probe]
    simp only
    rw [hlen, if_neg (lt_irrefl _), List.take_length, hpayload]
    change (match s.openPacket probePacket with
      | none => Status.malformed
      | some pkt => .complete (pkt, probe.drop probe.length)) = _
    rw [hopen, List.drop_length]
  rw [decodeStream_of_complete hp, (midHeader_of_incomplete rfl).2]

/-- Bytes read alike are alike. -/
theorem getElem?_of_take_drop {i w j : ℕ} (h : (as.drop i).take w = (bs.drop i).take w)
    (hj : j < w) : as[i + j]? = bs[i + j]? := by
  have hget := congrArg (fun l => l[j]?) h
  simpa [List.getElem?_take, hj, List.getElem?_drop] using hget

theorem take_drop_of_readU32BE {i : ℕ} (ha : i + 4 ≤ as.length) (hb : i + 4 ≤ bs.length)
    (h : readU32BE as i = readU32BE bs i) : (as.drop i).take 4 = (bs.drop i).take 4 := by
  have hla : ((as.drop i).take 4).length = 4 := by simp; omega
  have hlb : ((bs.drop i).take 4).length = 4 := by simp; omega
  have hlta := ofBE_lt ((as.drop i).take 4)
  have hltb := ofBE_lt ((bs.drop i).take 4)
  rw [hla] at hlta
  rw [hlb] at hltb
  have hnat := congrArg UInt32.toNat h
  rw [readU32BE, readU32BE, UInt32.toNat_ofNat_of_lt' hlta, UInt32.toNat_ofNat_of_lt' hltb] at hnat
  exact ofBE_inj (hla.trans hlb.symm) hnat

theorem take_drop_of_readU64BE {i : ℕ} (ha : i + 8 ≤ as.length) (hb : i + 8 ≤ bs.length)
    (h : readU64BE as i = readU64BE bs i) : (as.drop i).take 8 = (bs.drop i).take 8 := by
  have hla : ((as.drop i).take 8).length = 8 := by simp; omega
  have hlb : ((bs.drop i).take 8).length = 8 := by simp; omega
  have hlta := ofBE_lt ((as.drop i).take 8)
  have hltb := ofBE_lt ((bs.drop i).take 8)
  rw [hla] at hlta
  rw [hlb] at hltb
  have hnat := congrArg UInt64.toNat h
  rw [readU64BE, readU64BE, UInt64.toNat_ofNat_of_lt' hlta, UInt64.toNat_ofNat_of_lt' hltb] at hnat
  exact ofBE_inj (hla.trans hlb.symm) hnat

/-- Decrypting changes no header field but the flags. -/
theorem openPacket_header {pkt pkt' : Packet} (h : s.openPacket pkt = some pkt') :
    pkt'.header = { pkt.header with flags := pkt'.header.flags } := by
  unfold Session.openPacket at h
  split_ifs at h
  · obtain ⟨dec, -, rfl⟩ := Option.map_eq_some_iff.mp h
    rfl
  · cases h
    rfl

/-- Headers that differ in the flags at most are read from the same other fields. -/
theorem fields_of_parseHeader {flags : UInt32}
    (h : parseHeader as = { parseHeader bs with flags }) :
    readU32BE as 6 = readU32BE bs 6 ∧ readU32BE as 10 = readU32BE bs 10 ∧
      readU64BE as 18 = readU64BE bs 18 ∧ readU32BE as 26 = readU32BE bs 26 ∧
      readU32BE as 30 = readU32BE bs 30 :=
  ⟨congrArg Header.cmdId h, congrArg Header.seqId h, congrArg Header.userId h,
    congrArg Header.zoneId h, congrArg Header.serviceId h⟩

/-- The filled fields tell where the packet begins. -/
theorem probe_aperiodic : ∀ k < 34, 0 < k →
    ∃ i < 34, k ≤ i ∧ (6 ≤ i ∧ i < 14 ∨ 18 ≤ i) ∧ probe[i - k]? ≠ probe[i]? := by
  decide

theorem length_of_incomplete (hh : nextHeader as = .incomplete) : as.length < headerSize := by
  by_contra hlong
  have h34 : headerSize = 34 := rfl
  unfold nextHeader at hh
  rw [if_neg (by omega)] at hh
  split_ifs at hh

/-- Bytes of a header in front of the packet make another packet of it, or none. -/
theorem decodeStream_append_probe (hne : as ≠ []) (hh : nextHeader as = .incomplete) :
    decodeStream s (as ++ probe) ≠ [probePacket] := by
  intro hstream
  by_cases hnone : ∀ p, nextPacket s (as ++ probe) ≠ .complete p
  · rw [decodeStream_of_not hnone] at hstream
    cases hstream
  · obtain ⟨⟨pkt, rest⟩, hp⟩ := not_forall.mp hnone
    have hp := not_not.mp hp
    rw [decodeStream_of_complete hp] at hstream
    obtain ⟨h, hheader, -, hopen, -⟩ := nextPacket_complete hp
    obtain ⟨-, rfl, -⟩ := nextHeader_complete hheader
    have hfields := openPacket_header hopen
    rw [(List.cons.inj hstream).1] at hfields
    have hlen : (as ++ probe).length = as.length + 34 := by
      rw [List.length_append, length_probe]
    have hprobe := length_probe
    obtain ⟨hcmd, hseq, huser, hzone, hservice⟩ := fields_of_parseHeader hfields
    have hcmd := take_drop_of_readU32BE (by omega) (by omega) hcmd
    have hseq := take_drop_of_readU32BE (by omega) (by omega) hseq
    have huser := take_drop_of_readU64BE (by omega) (by omega) huser
    have hzone := take_drop_of_readU32BE (by omega) (by omega) hzone
    have hservice := take_drop_of_readU32BE (by omega) (by omega) hservice
    have hbytes : ∀ i < 34, (6 ≤ i ∧ i < 14 ∨ 18 ≤ i) → probe[i]? = (as ++ probe)[i]? := by
      intro i hi hfilled
      have hfield : ∀ j w, j ≤ i → i < j + w →
          (probe.drop j).take w = ((as ++ probe).drop j).take w → probe[i]? = (as ++ probe)[i]? := by
        intro j w hj hw heq
        have hget := getElem?_of_take_drop heq (show i - j < w by omega)
        rwa [Nat.add_sub_cancel' hj] at hget
      rcases hfilled with ⟨hlo, hhi⟩ | hlo
      · by_cases hten : i < 10
        · exact hfield 6 4 hlo (by omega) hcmd
        · exact hfield 10 4 (by omega) (by omega) hseq
      · by_cases h26 : i < 26
        · exact hfield 18 8 hlo (by omega) huser
        · by_cases h30 : i < 30
          · exact hfield 26 4 (by omega) (by omega) hzone
          · exact hfield 30 4 (by omega) (by omega) hservice
    obtain ⟨i, hi, hle, hfilled, hdiff⟩ := probe_aperiodic as.length
      (length_of_incomplete hh) (List.length_pos_iff.mpr hne)
    rw [hbytes i hi hfilled, List.getElem?_append_right hle] at hdiff
    exact hdiff rfl

end Probe

/-! ## Arrivals -/

/-- The bytes that arrive. -/
def streamBytes : List Arrival → Bytes
  | [] => []
  | .data bs :: raw => bs ++ streamBytes raw
  | .expiry :: raw => streamBytes raw

/-- No expiry of the read deadline falls into the middle of a header. -/
def Intact (s : Session) (raw : List Arrival) : Prop :=
  ∀ pre post, raw = pre ++ .expiry :: post → midHeader s (streamBytes pre) = false

section Arrivals

variable {s : Session} {raw more pre : List Arrival}

theorem items_arrivalTokens (raw : List Arrival) : items (arrivalTokens raw) = streamBytes raw := by
  fun_induction arrivalTokens raw with
  | case1 => rfl
  | case2 bs raw ih => rw [items_append, items_map, ih, streamBytes]
  | case3 raw ih => exact ih

theorem arrivalTokens_append (raw more : List Arrival) :
    arrivalTokens (raw ++ more) = arrivalTokens raw ++ arrivalTokens more := by
  fun_induction arrivalTokens raw with
  | case1 => rfl
  | case2 bs raw ih => rw [List.cons_append, arrivalTokens, ih, List.append_assoc]
  | case3 raw ih => rw [List.cons_append, arrivalTokens, ih, List.cons_append]

theorem streamBytes_append (raw more : List Arrival) :
    streamBytes (raw ++ more) = streamBytes raw ++ streamBytes more := by
  rw [← items_arrivalTokens, arrivalTokens_append, items_append, items_arrivalTokens,
    items_arrivalTokens]

/-- An expiry among the bytes is one among the arrivals. -/
theorem exists_expiry_of_tokens {ts us : List (Token UInt8)}
    (h : arrivalTokens raw = ts ++ .expiry :: us) :
    ∃ pre post, raw = pre ++ .expiry :: post ∧ arrivalTokens pre = ts := by
  induction raw generalizing ts with
  | nil => cases ts <;> cases h
  | cons e raw ih =>
    cases e with
    | data bs =>
      obtain ⟨cs, rfl, hcs⟩ := eq_append_of_map_append h
      obtain ⟨pre, post, rfl, hpre⟩ := ih hcs
      exact ⟨.data bs :: pre, post, rfl, by rw [arrivalTokens, hpre]⟩
    | expiry =>
      cases ts with
      | nil => exact ⟨[], raw, rfl, rfl⟩
      | cons t ts =>
        rw [arrivalTokens, List.cons_append, List.cons.injEq] at h
        obtain ⟨pre, post, rfl, hpre⟩ := ih h.2
        exact ⟨.expiry :: pre, post, rfl, by rw [arrivalTokens, hpre, h.1]⟩

theorem Intact.tokens (h : Intact s raw) : IntactTokens s (arrivalTokens raw) := by
  intro ts us hts
  obtain ⟨pre, post, hraw, rfl⟩ := exists_expiry_of_tokens hts
  rw [items_arrivalTokens]
  exact h pre post hraw

/-- Arrivals without an expiry may follow. -/
theorem Intact.append (h : Intact s raw) (hpre : pre <+: raw) (hmore : .expiry ∉ more) :
    Intact s (pre ++ more) := by
  intro front post hsplit
  obtain ⟨tail, rfl⟩ := hpre
  rcases List.append_eq_append_iff.mp hsplit.symm with ⟨es, rfl, hes⟩ | ⟨es, rfl, rfl⟩
  · cases es with
    | nil =>
      rw [List.nil_append] at hes
      exact absurd (hes ▸ List.mem_cons_self) hmore
    | cons e es =>
      cases hes
      exact h front (es ++ tail) (by simp)
  · exact absurd (List.mem_append_right es List.mem_cons_self) hmore

end Arrivals

/-! ## What the loop hands out -/

/-- The bytes and the expiries of the arrivals. -/
def arrivalSize (raw : List Arrival) : ℕ := (arrivalTokens raw).length

section Delivered

variable {s : Session} {raw pre post : List Arrival}

theorem readLoop_bufio_new (passes : ℕ) (raw : List Arrival) :
    readLoop s bufio passes { raw } [] =
      readLoop s plain passes { tokens := arrivalTokens raw, deadline := false } [] :=
  readLoop_bufio s passes { raw } []

/-- Arrivals whose expiries lose nothing: the loop hands out the packets of the
stream. -/
theorem delivered_of_intact (h : Intact s raw) {passes : ℕ} (hpasses : arrivalSize raw < passes) :
    readLoop s bufio passes { raw } [] = some (decodeStream s (streamBytes raw)) := by
  rw [readLoop_bufio_new, readLoop_of_intact passes h.tokens hpasses, items_arrivalTokens,
    List.nil_append]

/-- What is left of the stream in the middle of a header, and what comes of it. -/
theorem exists_header_of_midHeader {bs : Bytes} (h : midHeader s bs = true) :
    ∃ as, as ≠ [] ∧ nextHeader as = .incomplete ∧
      ∀ cs, decodeStream s (bs ++ cs) = decodeStream s bs ++ decodeStream s (as ++ cs) := by
  induction hlen : bs.length using Nat.strongRecOn generalizing bs with
  | ind n ih =>
    by_cases hcomplete : ∃ p, nextPacket s bs = .complete p
    · obtain ⟨⟨pkt, rest⟩, hp⟩ := hcomplete
      rw [midHeader_of_complete hp] at h
      obtain ⟨as, hne, hh, hdecode⟩ := ih _ (hlen ▸ length_lt_of_nextPacket hp) h rfl
      refine ⟨as, hne, hh, fun cs => ?_⟩
      rw [decodeStream_of_complete hp, decodeStream_of_complete (nextPacket_append hp), hdecode cs,
        List.cons_append]
    · have hnot : ∀ p, nextPacket s bs ≠ .complete p := fun p hp => hcomplete ⟨p, hp⟩
      rw [midHeader_of_not hnot] at h
      simp only [Bool.and_eq_true, decide_eq_true_eq] at h
      refine ⟨bs, h.1, h.2, fun cs => ?_⟩
      rw [decodeStream_of_not hnot, List.nil_append]

/-- An expiry in the middle of a header, and then one packet: it is handed out, where
the stream says another packet or none. -/
theorem delivered_of_lost (h : Intact s pre) (hmid : midHeader s (streamBytes pre) = true)
    {passes : ℕ}
    (hpasses : arrivalSize (pre ++ [Arrival.expiry] ++ [Arrival.data probe]) < passes) :
    readLoop s bufio passes { raw := pre ++ [Arrival.expiry] ++ [Arrival.data probe] } [] ≠
      some (decodeStream s (streamBytes (pre ++ [Arrival.expiry] ++ [Arrival.data probe]))) := by
  have hsplit : arrivalTokens (pre ++ [Arrival.expiry] ++ [Arrival.data probe]) =
      arrivalTokens pre ++ Token.expiry :: probe.map Token.item := by
    simp [arrivalTokens_append, arrivalTokens]
  have hbytes : streamBytes (pre ++ [Arrival.expiry] ++ [Arrival.data probe]) =
      streamBytes pre ++ probe := by
    simp [streamBytes_append, streamBytes]
  rw [arrivalSize, hsplit, List.length_append, List.length_cons, ← Nat.add_assoc] at hpasses
  rw [← items_arrivalTokens] at hmid
  obtain ⟨left, hleft, hrun⟩ := readLoop_upto_lost passes h.tokens hmid hpasses false []
  have hprobe : IntactTokens s (probe.map Token.item) := by
    intro ts us hts
    have hmem : Token.expiry ∈ probe.map Token.item := by
      rw [hts]
      exact List.mem_append_right ts List.mem_cons_self
    simp at hmem
  obtain ⟨as, hne, hh, hdecode⟩ := exists_header_of_midHeader hmid
  rw [readLoop_bufio_new, hsplit, hrun, readLoop_of_intact left hprobe hleft, items_map,
    decodeStream_probe, hbytes, ← items_arrivalTokens, hdecode, List.nil_append]
  intro heq
  rw [Option.some.injEq, List.append_cancel_left_eq] at heq
  exact decodeStream_append_probe hne hh heq.symm

/-- The loop is exact precisely on the arrivals whose expiries do not fall into the
middle of a header: on those, and on what may follow any beginning of them, it hands
out the packets of the stream; of any others there is a beginning that one more packet
tells apart. -/
theorem delivered_exact (s : Session) (raw : List Arrival) :
    Intact s raw ↔ ∀ pre more passes, pre <+: raw → .expiry ∉ more →
      arrivalSize (pre ++ more) < passes →
        readLoop s bufio passes { raw := pre ++ more } [] =
          some (decodeStream s (streamBytes (pre ++ more))) := by
  constructor
  · intro h pre more passes hpre hmore hpasses
    exact delivered_of_intact (h.append hpre hmore) hpasses
  · intro h pre
    induction hlen : pre.length using Nat.strongRecOn generalizing pre with
    | ind n ih =>
      intro post hraw
      cases hmid : midHeader s (streamBytes pre) with
      | false => rfl
      | true =>
        have hintact : Intact s pre := by
          intro front back hpre
          refine ih front.length ?_ front rfl (back ++ .expiry :: post) ?_
          · rw [← hlen, hpre]
            simp
          · rw [hraw, hpre]
            simp
        have hprefix : pre ++ [Arrival.expiry] <+: raw := ⟨post, by rw [hraw]; simp⟩
        have hexact := h (pre ++ [Arrival.expiry]) [Arrival.data probe] _ hprefix (by simp)
          (Nat.lt_succ_self _)
        exact absurd hexact (delivered_of_lost hintact hmid (Nat.lt_succ_self _))

/-- A packet whose header comes in two parts, with an expiry in between. -/
def splitHeader : List Arrival := [.data (probe.take 10), .expiry, .data (probe.drop 10)]

/-- Its first part is lost, and the second is no header. -/
theorem splitHeader_lost :
    ¬ ∀ (s : Session) (raw : List Arrival) (passes : ℕ), arrivalSize raw < passes →
      readLoop s bufio passes { raw } [] = some (decodeStream s (streamBytes raw)) := by
  intro h
  have hcode : readLoop {} bufio 60 { raw := splitHeader } [] = some [] := by decide
  have hbytes : streamBytes splitHeader = probe := by
    simp [splitHeader, streamBytes]
  have hexact := h {} splitHeader 60 (by decide)
  rw [hcode, hbytes, decodeStream_probe] at hexact
  simp at hexact

end Delivered

end Gmaker.Net
