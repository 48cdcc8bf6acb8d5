import NextendoMatchmaking.Endpoint.Connection
import NextendoMatchmaking.Library.Runs
import NextendoMatchmaking.Wire.RoundTrip

/-!
# Acknowledgements

A reliable packet stays in `pending`, and is sent again by `retransmitLoop`, until it is acknowledged.  Single
and aggregate acknowledgements both end in `ackPackets` of `nextendo-nex/endpoint.go`, and there a base
acknowledges every packet whose id is not greater.

* For a single acknowledgement that is too much: a packet with a smaller id that the console dropped is taken
  for acknowledged as well (`single_ack_iff`).
* For an aggregate one it is the intention, but ids are numbers of 16 bits that start again from 0, and a
  packet that was sent after the base can have the smaller id.  Where the base and a pending packet are in
  different rounds of the ids the comparison goes wrong, and only there (`multi_ack_iff`).
-/

namespace NextendoMatchmaking.Endpoint

open NextendoMatchmaking.Runs

variable {pid : UInt16} {conn : Connection}

/-! ### Single acknowledgements -/

theorem lookup_ackPackets (conn : Connection) (base : UInt16) (extra : List UInt16) (pid : UInt16) :
    (ackPackets conn base extra).pending.lookup pid =
      if pid ∈ extra ∨ pid ≤ base then none else conn.pending.lookup pid := by
  unfold ackPackets
  rw [GoMap.lookup_foldl_erase, GoMap.lookup_deleteWhere]
  by_cases hextra : pid ∈ extra
  · rw [if_pos hextra, if_pos (.inl hextra)]
  · rw [if_neg hextra]
    by_cases hle : pid ≤ base
    · rw [if_pos (.inr hle), Option.filter_eq_none_iff]
      intro data _
      simp [hle]
    · rw [if_neg (by tauto)]
      cases conn.pending.lookup pid with
      | none => rfl
      | some data => simp [hle]

theorem processData_ack {e : Config} {env : PacketEnv} {c : Sock} {p : Packet}
    (hmulti : p.hasFlag Flag.multiACK = false) (hack : p.hasFlag Flag.ack = true) (conn : Connection) :
    (processData e env c conn p).1 = ackPackets conn p.packetID [] := by
  unfold processData
  rw [hmulti, hack]
  rfl

/-- A single acknowledgement removes its own packet and nothing else just when no packet with a smaller id is
pending. -/
theorem single_ack_iff (e : Config) (env : PacketEnv) (c : Sock) (conn : Connection) (p : Packet)
    (hmulti : p.hasFlag Flag.multiACK = false) (hack : p.hasFlag Flag.ack = true) :
    (processData e env c conn p).1.pending = conn.pending.erase p.packetID ↔
      ∀ pid ∈ conn.pending, ¬ pid < p.packetID := by
  rw [processData_ack hmulti hack]
  constructor
  · intro heq pid hmem hlt
    obtain ⟨data, hdata⟩ := Option.isSome_iff_exists.mp (Finmap.lookup_isSome.mpr hmem)
    have hlookup := congrArg (Finmap.lookup pid) heq
    rw [lookup_ackPackets, if_pos (.inr (UInt16.le_of_lt hlt)), GoMap.lookup_erase_eq,
      if_neg (UInt16.ne_of_lt hlt), hdata] at hlookup
    cases hlookup
  · intro hnone
    apply Finmap.ext_lookup
    intro pid
    rw [lookup_ackPackets, GoMap.lookup_erase_eq]
    by_cases hpid : pid = p.packetID
    · rw [if_pos (.inr (UInt16.le_of_eq hpid)), if_pos hpid]
    · rw [if_neg hpid]
      split
      · -- an id that is covered by the base without being the base is smaller, so it is not pending
        rename_i hcovered
        have hlt := UInt16.lt_of_le_of_ne (hcovered.resolve_left List.not_mem_nil) hpid
        exact (Finmap.lookup_eq_none.mpr (fun hmem => hnone pid hmem hlt)).symm
      · rfl

/-- The acknowledgement of the packet `id`. -/
def ackOf (id : UInt16) : Packet := { type := PacketType.data, flags := Flag.ack, packetID := id }

/-- A connection with the packets `ids` pending. -/
def waitingFor (ids : List UInt16) : Connection :=
  { newConnection (.ipv4 [10, 0, 0, 1] 4000) with pending := ids.foldl (fun m id => m.insert id []) ∅ }

/-- The oldest of two pending packets is acknowledged. -/
theorem single_ack_oldest :
    (∀ pid ∈ (waitingFor [3, 5]).pending, ¬ pid < (ackOf 3).packetID) ∧
      ∀ e env c, (processData e env c (waitingFor [3, 5]) (ackOf 3)).1.pending =
        (waitingFor [3, 5]).pending.erase 3 := by
  have hnone : ∀ pid ∈ (waitingFor [3, 5]).pending, ¬ pid < (ackOf 3).packetID := by
    intro pid hmem
    have hpid : pid = 5 ∨ pid = 3 := by simpa [waitingFor, Finmap.mem_insert, Finmap.notMem_empty] using hmem
    rcases hpid with rfl | rfl <;> decide
  exact ⟨hnone, fun e env c => (single_ack_iff e env c _ (ackOf 3) (by decide) (by decide)).mpr hnone⟩

/-- The packet 3 was dropped by the console, and the packet 5 is acknowledged: the packet 3 is not sent
again. -/
theorem dropped_packet_forgotten :
    3 ∈ (waitingFor [3, 5]).pending ∧
      ∀ e env c, 3 ∉ (processData e env c (waitingFor [3, 5]) (ackOf 5)).1.pending ∧
        (processData e env c (waitingFor [3, 5]) (ackOf 5)).1.pending ≠
          (waitingFor [3, 5]).pending.erase 5 := by
  have hmem : 3 ∈ (waitingFor [3, 5]).pending := by simp [waitingFor, Finmap.mem_insert]
  refine ⟨hmem, fun e env c => ?_⟩
  have hgone : 3 ∉ (processData e env c (waitingFor [3, 5]) (ackOf 5)).1.pending := by
    rw [processData_ack (by decide) (by decide), ← Finmap.lookup_eq_none, lookup_ackPackets]
    exact if_pos (.inr (by decide))
  refine ⟨hgone, fun heq => hgone ?_⟩
  rw [heq, Finmap.mem_erase]
  exact ⟨by decide, hmem⟩

/-! ### Packets and their numbers

The packets of a connection are numbered from 1 in the order in which they are sent; the id of a packet is its
number modulo 65536. -/

/-- After `sent` packets the next id is `next`, and `held` gives packets, by id and number, that were sent. -/
structure Numbering (next : UInt16) (sent : ℕ) (held : UInt16 → ℕ → Prop) : Prop where
  next : next = UInt16.ofNat (sent + 1)
  id : ∀ pid n, held pid n → UInt16.ofNat n = pid
  pos : ∀ pid n, held pid n → 1 ≤ n
  sent : ∀ pid n, held pid n → n ≤ sent

section Numbering

variable {next : UInt16} {sent : ℕ} {held held' : UInt16 → ℕ → Prop}

theorem Numbering.of_fewer (h : Numbering next sent held) (hfewer : ∀ pid n, held' pid n → held pid n) :
    Numbering next sent held' where
  next := h.next
  id pid n hheld := h.id pid n (hfewer pid n hheld)
  pos pid n hheld := h.pos pid n (hfewer pid n hheld)
  sent pid n hheld := h.sent pid n (hfewer pid n hheld)

/-- The next packet gets the next id. -/
theorem Numbering.allocate (h : Numbering next sent held)
    (hheld : ∀ pid n, held' pid n → held pid n ∨ pid = next ∧ n = sent + 1) :
    Numbering (next + 1) (sent + 1) held' where
  next := by
    rw [h.next, UInt16.ofNat_add (sent + 1) 1]
    rfl
  id pid n hn := by
    rcases hheld pid n hn with hold | ⟨rfl, rfl⟩
    · exact h.id pid n hold
    · exact h.next.symm
  pos pid n hn := by
    rcases hheld pid n hn with hold | ⟨-, rfl⟩
    · exact h.pos pid n hold
    · exact Nat.succ_pos sent
  sent pid n hn := by
    rcases hheld pid n hn with hold | ⟨-, rfl⟩
    · exact (h.sent pid n hold).trans (Nat.le_succ sent)
    · exact le_rfl

end Numbering

/-- A connection, how many packets it has sent, and the number of the last packet with each id. -/
structure Outbox where
  conn : Connection
  sent : ℕ
  number : UInt16 → ℕ

variable {s : Outbox}

def newOutbox (remoteAddr : RemoteAddr) : Outbox := ⟨newConnection remoteAddr, 0, fun _ => 0⟩

/-- `sendOneFragment`, which gives the next number. -/
def Outbox.send (s : Outbox) (chunk : Bytes) (fragmentID : UInt8) : Outbox where
  conn := sendOneFragment s.conn chunk fragmentID
  sent := s.sent + 1
  number := fun pid => if pid = s.conn.outReliable then s.sent + 1 else s.number pid

inductive OutboxLabel
  /-- `sendOneFragment`. -/
  | send (chunk : Bytes) (fragmentID : UInt8)
  /-- `ackPackets`, for an acknowledgement of either kind. -/
  | ack (base : UInt16) (extra : List UInt16)
  /-- Anything else that happens to the connection, which then has the other fields of `conn`. -/
  | other (conn : Connection)

/-- How many packets may be outstanding. -/
def maxOutstanding : ℕ := 32767

/-- One step of a connection that never has more than `maxOutstanding` packets pending. -/
def outboxStep (s : Outbox) : OutboxLabel → Option Outbox
  | .send chunk fragmentID =>
    if (s.send chunk fragmentID).conn.pending.len ≤ maxOutstanding then some (s.send chunk fragmentID) else none
  | .ack base extra => some { s with conn := ackPackets s.conn base extra }
  | .other conn =>
    some { s with conn := { conn with outReliable := s.conn.outReliable, pending := s.conn.pending } }

/-- The ids follow the numbers, and the packets that are pending are among the last 65536. -/
structure Numbered (s : Outbox) : Prop where
  numbering : Numbering s.conn.outReliable s.sent (fun pid n => pid ∈ s.conn.pending ∧ n = s.number pid)
  recent : ∀ pid ∈ s.conn.pending, s.sent < s.number pid + 65536

theorem Numbered.id (h : Numbered s) (hpid : pid ∈ s.conn.pending) :
    UInt16.ofNat (s.number pid) = pid := h.numbering.id pid _ ⟨hpid, rfl⟩

theorem Numbered.sent (h : Numbered s) (hpid : pid ∈ s.conn.pending) :
    s.number pid ≤ s.sent := h.numbering.sent pid _ ⟨hpid, rfl⟩

theorem numbered_newOutbox (remoteAddr : RemoteAddr) : Numbered (newOutbox remoteAddr) where
  numbering :=
    { next := rfl
      id := fun _ _ h => absurd h.1 Finmap.notMem_empty
      pos := fun _ _ h => absurd h.1 Finmap.notMem_empty
      sent := fun _ _ h => absurd h.1 Finmap.notMem_empty }
  recent := fun _ h => absurd h Finmap.notMem_empty

theorem mem_ackPackets {base : UInt16} {extra : List UInt16} :
    pid ∈ (ackPackets conn base extra).pending ↔ pid ∈ conn.pending ∧ pid ∉ extra ∧ base < pid := by
  rw [← Finmap.lookup_isSome, ← Finmap.lookup_isSome, lookup_ackPackets, ← UInt16.not_le, ← not_or]
  split <;> simp [*]

/-- Fewer packets are pending, and nothing else has changed. -/
theorem Numbered.of_fewer (h : Numbered s) (hnext : conn.outReliable = s.conn.outReliable)
    (hfewer : ∀ pid ∈ conn.pending, pid ∈ s.conn.pending) :
    Numbered { s with conn } where
  numbering := by
    show Numbering conn.outReliable s.sent _
    rw [hnext]
    exact h.numbering.of_fewer (fun pid n hn => ⟨hfewer pid hn.1, hn.2⟩)
  recent := fun pid hpid => h.recent pid (hfewer pid hpid)

theorem numbered_send (h : Numbered s) (chunk : Bytes) (fragmentID : UInt8) :
    Numbered (s.send chunk fragmentID) := by
  have hmem : ∀ pid ∈ (sendOneFragment s.conn chunk fragmentID).pending,
      pid ≠ s.conn.outReliable → pid ∈ s.conn.pending :=
    fun pid hpid hne => (Finmap.mem_insert.mp hpid).resolve_left hne
  refine ⟨h.numbering.allocate ?_, fun pid hpid => ?_⟩
  · rintro pid n ⟨hpid, rfl⟩
    show (_ ∧ (if pid = s.conn.outReliable then s.sent + 1 else s.number pid) = s.number pid) ∨ _ ∧
      (if pid = s.conn.outReliable then s.sent + 1 else s.number pid) = s.sent + 1
    by_cases heq : pid = s.conn.outReliable
    · exact .inr ⟨heq, if_pos heq⟩
    · exact .inl ⟨hmem pid hpid heq, if_neg heq⟩
  · show s.sent + 1 < (if pid = s.conn.outReliable then s.sent + 1 else s.number pid) + 65536
    split
    · omega
    · -- a packet of just 65536 sends ago would have the id that is sent now
      rename_i hne
      have hold := hmem pid hpid hne
      have hrecent := h.recent pid hold
      have hother : s.number pid + 65536 ≠ s.sent + 1 := by
        intro heq
        apply hne
        rw [h.numbering.next, ← heq, ← h.id hold, ← UInt16.toNat_inj, UInt16.toNat_ofNat', UInt16.toNat_ofNat']
        simp [h.id hold]
      omega

theorem numbered_step {s' : Outbox} {l : OutboxLabel} (h : Numbered s) (hstep : outboxStep s l = some s') :
    Numbered s' := by
  cases l with
  | send chunk fragmentID =>
    unfold outboxStep at hstep
    dsimp only at hstep
    split at hstep
    · cases hstep
      exact numbered_send h chunk fragmentID
    · cases hstep
  | ack base extra =>
    cases hstep
    exact h.of_fewer rfl (fun pid hpid => (mem_ackPackets.mp hpid).1)
  | other conn =>
    cases hstep
    exact h.of_fewer rfl (fun pid hpid => hpid)

theorem numbered_run {remoteAddr : RemoteAddr} {ls : List OutboxLabel}
    (h : run outboxStep (newOutbox remoteAddr) ls = some s) : Numbered s :=
  run_invariant (fun _ _ _ hi hl => numbered_step hi hl) (numbered_newOutbox remoteAddr) h

/-! ### Aggregate acknowledgements -/

/-- The payload of an aggregate acknowledgement. -/
def multiAckPayload (substream : UInt8) (base : UInt16) (extra : List UInt16) : Bytes :=
  [substream, UInt8.ofNat extra.length] ++ StreamOut.u16 base ++ extra.flatMap StreamOut.u16

theorem multiAckExtras_flatMap (extra : List UInt16) :
    multiAckExtras extra.length (extra.flatMap StreamOut.u16) = extra := by
  induction extra with
  | nil => rfl
  | cons id extra ih =>
    show UInt16.ofNat (leNat (leBytes 2 id.toNat)) ::
      multiAckExtras extra.length (extra.flatMap StreamOut.u16) = _
    rw [ih, leNat_leBytes 2 _ id.toNat_lt, UInt16.ofNat_toNat]

theorem processData_multiAck {e : Config} {env : PacketEnv} {c : Sock} {p : Packet} {substream : UInt8}
    {base : UInt16} {extra : List UInt16} (hmulti : p.hasFlag Flag.multiACK = true) (hlength : extra.length < 256)
    (hpayload : p.payload = multiAckPayload substream base extra) :
    (processData e env c conn p).1 = ackPackets conn base extra := by
  have hbase : UInt16.ofNat (leNat (StreamOut.u16 base)) = base := by
    rw [StreamOut.u16, leNat_leBytes 2 _ base.toNat_lt, UInt16.ofNat_toNat]
  have hcount : (UInt8.ofNat extra.length).toNat = extra.length := by
    rw [UInt8.toNat_ofNat']
    exact Nat.mod_eq_of_lt hlength
  unfold processData
  rw [if_pos hmulti, hpayload]
  show ackPackets conn (UInt16.ofNat (leNat (StreamOut.u16 base)))
    (multiAckExtras (UInt8.ofNat extra.length).toNat (extra.flatMap StreamOut.u16)) = _
  rw [hbase, hcount, multiAckExtras_flatMap]

/-- In `conn` just the packets of `s` are pending that were sent after the packet `b` and that `extra` does not
list. -/
def RemovesUpTo (s : Outbox) (b : ℕ) (extra : List UInt16) (conn : Connection) : Prop :=
  ∀ pid data, conn.pending.lookup pid = some data ↔
    s.conn.pending.lookup pid = some data ∧ b < s.number pid ∧ pid ∉ extra

/-- Ids and numbers are ordered alike just within one round of the ids. -/
theorem id_order_iff (h : Numbered s) (hpid : pid ∈ s.conn.pending) {b : ℕ} (hsent : b ≤ s.sent)
    (hrecent : s.sent < b + maxOutstanding) :
    (UInt16.ofNat b < pid ↔ b < s.number pid) ↔ s.number pid / 65536 = b / 65536 := by
  have hnumber := h.sent hpid
  have hlast := h.recent pid hpid
  have hmax : maxOutstanding = 32767 := rfl
  rw [← h.id hpid, UInt16.lt_iff_toNat_lt, UInt16.toNat_ofNat', UInt16.toNat_ofNat', h.id hpid]
  omega

/-- **Aggregate acknowledgements and the wrap of the ids.**  In every run, an aggregate acknowledgement up to a
packet of the last 32767 removes just what it should when all pending packets that it does not list are in the
same round of the ids as its base, and otherwise not. -/
theorem multi_ack_iff {remoteAddr : RemoteAddr} {ls : List OutboxLabel} {s : Outbox}
    (hrun : run outboxStep (newOutbox remoteAddr) ls = some s) {b : ℕ} (hsent : b ≤ s.sent)
    (hrecent : s.sent < b + maxOutstanding) (e : Config) (env : PacketEnv) (c : Sock) {p : Packet}
    {substream : UInt8} {extra : List UInt16} (hmulti : p.hasFlag Flag.multiACK = true)
    (hlength : extra.length < 256)
    (hpayload : p.payload = multiAckPayload substream (UInt16.ofNat b) extra) :
    RemovesUpTo s b extra (processData e env c s.conn p).1 ↔
      ∀ pid ∈ s.conn.pending, pid ∉ extra → s.number pid / 65536 = b / 65536 := by
  have hnumbered := numbered_run hrun
  rw [processData_multiAck hmulti hlength hpayload]
  constructor
  · intro hremoves pid hpid hextra
    rw [← id_order_iff hnumbered hpid hsent hrecent]
    obtain ⟨data, hdata⟩ := Option.isSome_iff_exists.mp (Finmap.lookup_isSome.mpr hpid)
    have hiff := hremoves pid data
    rw [lookup_ackPackets] at hiff
    by_cases hle : pid ≤ UInt16.ofNat b
    · rw [if_pos (.inr hle)] at hiff
      have hnumber : ¬ b < s.number pid := fun hlt => nomatch hiff.mpr ⟨hdata, hlt, hextra⟩
      exact iff_of_false (UInt16.not_lt.mpr hle) hnumber
    · rw [if_neg (by tauto)] at hiff
      exact iff_of_true (UInt16.not_le.mp hle) (hiff.mp hdata).2.1
  · intro hround pid data
    rw [lookup_ackPackets]
    constructor
    · intro hkept
      split at hkept
      · cases hkept
      · rename_i hnot
        obtain ⟨hextra, hle⟩ := not_or.mp hnot
        have hpid := Finmap.mem_of_lookup_eq_some hkept
        have horder := (id_order_iff hnumbered hpid hsent hrecent).mpr (hround pid hpid hextra)
        exact ⟨hkept, horder.mp (UInt16.not_le.mp hle), hextra⟩
    · intro hthree
      obtain ⟨hdata, hlt, hextra⟩ := hthree
      have hpid := Finmap.mem_of_lookup_eq_some hdata
      have horder := (id_order_iff hnumbered hpid hsent hrecent).mpr (hround pid hpid hextra)
      rw [if_neg (not_or.mpr ⟨hextra, UInt16.not_le.mpr (horder.mpr hlt)⟩)]
      exact hdata

/-- An aggregate acknowledgement without extra ids. -/
def multiAckOf (base : UInt16) : Packet :=
  { type := PacketType.data, flags := Flag.multiACK, payload := multiAckPayload 0 base [] }

theorem outboxStep_send (h : s.conn.pending.len < maxOutstanding) (chunk : Bytes) (fragmentID : UInt8) :
    outboxStep s (.send chunk fragmentID) = some (s.send chunk fragmentID) :=
  if_pos ((GoMap.len_insert_le _ _ _).trans h)

/-- Two sends from a state with nothing pending. -/
theorem run_two_sends (h : s.conn.pending = ∅) :
    run outboxStep s [.send [] 0, .send [] 0] = some ((s.send [] 0).send [] 0) := by
  have hone : (s.send [] 0).conn.pending.len ≤ 1 := by
    refine (GoMap.len_insert_le _ _ _).trans ?_
    rw [h, GoMap.len_empty]
  have hmax : maxOutstanding = 32767 := rfl
  refine run_cons_some.mpr ⟨_, outboxStep_send ?_ [] 0, run_cons_some.mpr ⟨_, outboxStep_send ?_ [] 0, rfl⟩⟩
  · rw [h, GoMap.len_empty]
    omega
  · omega

/-- The first of two packets is acknowledged. -/
theorem multi_ack_first :
    ∃ s, run outboxStep (newOutbox (.ipv4 [10, 0, 0, 1] 4000)) [.send [] 0, .send [] 0] = some s ∧
      (∀ pid ∈ s.conn.pending, pid ∉ ([] : List UInt16) → s.number pid / 65536 = 1 / 65536) ∧
      ∀ e env c, RemovesUpTo s 1 [] (processData e env c s.conn (multiAckOf 1)).1 := by
  have hrun := run_two_sends (s := newOutbox (.ipv4 [10, 0, 0, 1] 4000)) rfl
  have hround : ∀ pid ∈ (((newOutbox (.ipv4 [10, 0, 0, 1] 4000)).send [] 0).send [] 0).conn.pending,
      pid ∉ ([] : List UInt16) →
        (((newOutbox (.ipv4 [10, 0, 0, 1] 4000)).send [] 0).send [] 0).number pid / 65536 = 1 / 65536 := by
    intro pid hpid _
    have hle : _ ≤ 2 := (numbered_run hrun).sent hpid
    omega
  exact ⟨_, hrun, hround, fun e env c =>
    (multi_ack_iff hrun (show 1 ≤ 2 by omega) (show 2 < 1 + 32767 by omega) e env c (by decide) (by decide)
      rfl).mpr hround⟩

/-- `n` packets, each of which is acknowledged before the next one is sent. -/
def rounds : ℕ → List OutboxLabel
  | 0 => []
  | n + 1 => rounds n ++ [.send [] 0, .ack 65535 []]

theorem run_rounds (remoteAddr : RemoteAddr) (n : ℕ) :
    ∃ s, run outboxStep (newOutbox remoteAddr) (rounds n) = some s ∧ s.sent = n ∧ s.conn.pending = ∅ := by
  induction n with
  | zero => exact ⟨_, rfl, rfl, rfl⟩
  | succ n ih =>
    obtain ⟨s, hrun, hsent, hpending⟩ := ih
    have hroom : s.conn.pending.len < maxOutstanding := by
      rw [hpending, GoMap.len_empty]
      decide
    refine ⟨_, run_append_some.mpr ⟨s, hrun, run_cons_some.mpr ⟨_, outboxStep_send hroom [] 0, rfl⟩⟩,
      congrArg (· + 1) hsent, ?_⟩
    apply Finmap.ext_lookup
    intro pid
    rw [lookup_ackPackets, if_pos (.inr (UInt16.le_iff_toNat_le.mpr (Nat.le_of_lt_succ pid.toNat_lt)))]
    rfl

/-- After 65536 packets the id of the last one is 0.  An acknowledgement up to the packet before it, with the
id 65535, removes also this last one. -/
theorem later_packet_forgotten :
    ∃ ls s, run outboxStep (newOutbox (.ipv4 [10, 0, 0, 1] 4000)) ls = some s ∧ 65535 ≤ s.sent ∧
      s.sent < 65535 + maxOutstanding ∧ s.number 0 = 65536 ∧ 0 ∈ s.conn.pending ∧
      ∀ e env c, 0 ∉ (processData e env c s.conn (multiAckOf 65535)).1.pending ∧
        ¬ RemovesUpTo s 65535 [] (processData e env c s.conn (multiAckOf 65535)).1 := by
  obtain ⟨s, hrun, hsent, hpending⟩ := run_rounds (.ipv4 [10, 0, 0, 1] 4000) 65534
  have htwo := run_append_some.mpr ⟨s, hrun, run_two_sends hpending⟩
  have hid : (s.send [] 0).conn.outReliable = 0 := by
    show s.conn.outReliable + 1 = 0
    rw [(numbered_run hrun).numbering.next, hsent]
    rfl
  have hnumber : ((s.send [] 0).send [] 0).number 0 = 65536 := by
    show (if 0 = (s.send [] 0).conn.outReliable then s.sent + 1 + 1 else _) = 65536
    rw [if_pos hid.symm, hsent]
  have hmem : 0 ∈ ((s.send [] 0).send [] 0).conn.pending := Finmap.mem_insert.mpr (.inl hid.symm)
  have htotal : ((s.send [] 0).send [] 0).sent = 65536 := congrArg (· + 1 + 1) hsent
  have hmax : maxOutstanding = 32767 := rfl
  refine ⟨_, _, htwo, by omega, by omega, hnumber, hmem, fun e env c => ?_⟩
  have hgone : 0 ∉ (processData e env c ((s.send [] 0).send [] 0).conn (multiAckOf 65535)).1.pending := by
    rw [processData_multiAck (by decide) (by decide) rfl, mem_ackPackets]
    exact fun hthree => absurd hthree.2.2 (by decide)
  refine ⟨hgone, fun hremoves => hgone ?_⟩
  obtain ⟨data, hdata⟩ := Option.isSome_iff_exists.mp (Finmap.lookup_isSome.mpr hmem)
  exact Finmap.mem_of_lookup_eq_some
    ((hremoves 0 data).mpr ⟨hdata, by rw [hnumber]; omega, List.not_mem_nil⟩)

end NextendoMatchmaking.Endpoint
