import NextendoMatchmaking.Endpoint.Acknowledgements

/-!
# Acknowledgements between the two sections of `sendOneFragment`

`sendOneFragment` of `nextendo-nex/endpoint.go` gives a packet its id and sends it under one lock, and puts it
into `pending` under another one.  Between the two the packet is on the wire and not in `pending`, and an
acknowledgement that is handled there by the receive goroutine finds nothing to remove: the sender then records
a packet that is acknowledged already, and `retransmitLoop` sends it again at every tick.

A `Link` is a connection with the goroutines that work on it: the receive goroutine, which sends short messages
itself, the goroutines that send long messages and pushes, and the loops that send again what is pending.  Every
interleaving of their sections is a run of `linkStep`.  `acked_packet_gone_iff` says for every run which packets
an acknowledgement disposes of for good.
-/

namespace NextendoMatchmaking.Endpoint

open NextendoMatchmaking.Runs

/-! ### The two sections -/

/-- The section of `sendOneFragment` under `mu`: the connection, the id and the bytes that it sends. -/
def allocateAndSend (conn : Connection) (chunk : Bytes) (fragmentID : UInt8) : Connection × UInt16 × Bytes :=
  ({ conn with outReliable := conn.outReliable + 1 }, conn.outReliable,
    (fragmentPacket conn chunk fragmentID).encode)

/-- The section of `sendOneFragment` under `pendingMu`. -/
def recordPending (conn : Connection) (pid : UInt16) (encoded : Bytes) : Connection :=
  { conn with pending := conn.pending.insert pid encoded }

/-- With nothing between them, the two sections are `sendOneFragment`. -/
theorem sendOneFragment_eq_sections (conn : Connection) (chunk : Bytes) (fragmentID : UInt8) :
    recordPending (allocateAndSend conn chunk fragmentID).1 (allocateAndSend conn chunk fragmentID).2.1
      (allocateAndSend conn chunk fragmentID).2.2 = sendOneFragment conn chunk fragmentID := rfl

/-! ### A connection and its goroutines -/

/-- A packet that was sent: its number in the order of sending, its id and its bytes. -/
structure SentPacket where
  number : ℕ
  pid : UInt16
  data : Bytes
  deriving DecidableEq

structure Link where
  conn : Connection
  /-- How many packets were given an id. -/
  sent : ℕ
  /-- The number of the packet that was recorded last under each id. -/
  number : UInt16 → ℕ
  /-- The packet that the receive goroutine has sent and not recorded. -/
  receiver : Option SentPacket
  /-- The packets that other goroutines have sent and not recorded. -/
  senders : List SentPacket
  /-- What each `retransmitLoop` has still to send of its batch. -/
  loops : List (List SentPacket)
  /-- What was sent, in order. -/
  wire : List SentPacket

namespace Link

/-- The sender of `p` is between its two sections. -/
def Unrecorded (s : Link) (p : SentPacket) : Prop := p ∈ s.senders ∨ s.receiver = some p

/-- The packet `p` is in `pending`, and not another one with its id. -/
def Pending (s : Link) (p : SentPacket) : Prop :=
  s.conn.pending.lookup p.pid = some p.data ∧ s.number p.pid = p.number

/-- The next packet. -/
def next (s : Link) (chunk : Bytes) (fragmentID : UInt8) : SentPacket where
  number := s.sent + 1
  pid := (allocateAndSend s.conn chunk fragmentID).2.1
  data := (allocateAndSend s.conn chunk fragmentID).2.2

def allocated (s : Link) (chunk : Bytes) (fragmentID : UInt8) : Link :=
  { s with
    conn := (allocateAndSend s.conn chunk fragmentID).1
    sent := s.sent + 1
    wire := s.wire ++ [s.next chunk fragmentID] }

def recorded (s : Link) (p : SentPacket) : Link :=
  { s with
    conn := recordPending s.conn p.pid p.data
    number := fun pid => if pid = p.pid then p.number else s.number pid }

/-- The copy of `pending` that `retransmitLoop` makes, in the order of its iteration. -/
def batch (s : Link) (order : List UInt16) : List SentPacket :=
  (s.conn.pending.entriesIn order).map (fun e => ⟨s.number e.1, e.1, e.2⟩)

end Link

def newLink (remoteAddr : RemoteAddr) : Link := ⟨newConnection remoteAddr, 0, fun _ => 0, none, [], [], []⟩

inductive LinkLabel
  /-- The receive goroutine sends a packet, and records it. -/
  | reply (chunk : Bytes) (fragmentID : UInt8)
  | replied
  /-- Another goroutine sends a packet, and records it. -/
  | send (chunk : Bytes) (fragmentID : UInt8)
  | record (p : SentPacket)
  /-- The receive goroutine handles an acknowledgement of either kind. -/
  | ack (base : UInt16) (extra : List UInt16)
  /-- `processCONNECT` starts a `retransmitLoop`. -/
  | start
  /-- A `retransmitLoop` that has nothing left to send copies `pending`, and sends the next packet of its
  copy. -/
  | tick (loop : ℕ) (order : List UInt16)
  | resend (loop : ℕ)
  /-- Anything else that happens to the connection, which then has the other fields of `conn`. -/
  | other (conn : Connection)

/-- One section of one goroutine.  The receive goroutine does nothing else between its two sections. -/
def linkStep (s : Link) : LinkLabel → Option Link
  | .reply chunk fragmentID =>
    if s.receiver = none then
      some { s.allocated chunk fragmentID with receiver := some (s.next chunk fragmentID) }
    else none
  | .replied => s.receiver.map (fun p => { s.recorded p with receiver := none })
  | .send chunk fragmentID =>
    some { s.allocated chunk fragmentID with senders := s.next chunk fragmentID :: s.senders }
  | .record p =>
    if p ∈ s.senders then some { s.recorded p with senders := s.senders.filter (· ≠ p) } else none
  | .ack base extra => if s.receiver = none then some { s with conn := ackPackets s.conn base extra } else none
  | .start => some { s with loops := s.loops ++ [[]] }
  | .tick loop order =>
    -- a loop that finds the connection closed ends
    if s.loops[loop]? = some [] ∧ s.conn.state ≠ .closed ∧ GoMap.Enumerates order s.conn.pending then
      some { s with loops := s.loops.set loop (s.batch order) }
    else none
  | .resend loop =>
    match s.loops[loop]? with
    | some (p :: rest) => some { s with wire := s.wire ++ [p], loops := s.loops.set loop rest }
    | _ => none
  | .other conn =>
    some { s with conn := { conn with outReliable := s.conn.outReliable, pending := s.conn.pending } }

/-- The section of a single acknowledgement is what `processData` does with the packet. -/
theorem linkStep_ack {s : Link} (hidle : s.receiver = none) {e : Config} {env : PacketEnv} {c : Sock}
    {p : Packet} (hmulti : p.hasFlag Flag.multiACK = false) (hack : p.hasFlag Flag.ack = true) :
    linkStep s (.ack p.packetID []) = some { s with conn := (processData e env c s.conn p).1 } := by
  rw [processData_ack hmulti hack]
  exact if_pos hidle

theorem linkStep_multiAck {s : Link} (hidle : s.receiver = none) {e : Config} {env : PacketEnv} {c : Sock}
    {p : Packet} {substream : UInt8} {base : UInt16} {extra : List UInt16}
    (hmulti : p.hasFlag Flag.multiACK = true) (hlength : extra.length < 256)
    (hpayload : p.payload = multiAckPayload substream base extra) :
    linkStep s (.ack base extra) = some { s with conn := (processData e env c s.conn p).1 } := by
  rw [processData_multiAck hmulti hlength hpayload]
  exact if_pos hidle

/-! ### What a step can do -/

namespace Link

/-- Some goroutine can still record or send `p`. -/
def Holds (s : Link) (p : SentPacket) : Prop :=
  s.Unrecorded p ∨ s.Pending p ∨ ∃ batch ∈ s.loops, p ∈ batch

/-- What one section can do: a packet is sent or recorded by its goroutine, packets are acknowledged, a loop goes
on, or other fields of the connection change. -/
inductive Section (s : Link) : LinkLabel → Link → Prop
  | allocate {l chunk fragmentID receiver senders}
      (h : ∀ p, p ∈ senders ∨ receiver = some p ↔ s.Unrecorded p ∨ p = s.next chunk fragmentID) :
      Section s l { s.allocated chunk fragmentID with receiver, senders }
  | record {l q receiver senders} (hq : s.Unrecorded q)
      (hold : ∀ p, p ∈ senders ∨ receiver = some p → s.Unrecorded p)
      (hstay : ∀ p, s.Unrecorded p → p = q ∨ p ∈ senders ∨ receiver = some p) :
      Section s l { s.recorded q with receiver, senders }
  | ack {base extra} : Section s (.ack base extra) { s with conn := ackPackets s.conn base extra }
  | loop {l loops wire} (hloops : ∀ batch ∈ loops, ∀ p ∈ batch, s.Holds p)
      (hwire : wire = s.wire ∨ ∃ q, wire = s.wire ++ [q] ∧ s.Holds q) : Section s l { s with loops, wire }
  | other {l} {conn : Connection} : Section s l { s with
      conn := { conn with outReliable := s.conn.outReliable, pending := s.conn.pending } }

variable {s s' : Link} {p : SentPacket} {base : UInt16} {extra : List UInt16} {l : LinkLabel} {loop : ℕ}

/-- The number of `p` was given between `s` and `s'`. -/
def Fresh (s s' : Link) (p : SentPacket) : Prop := s.sent < p.number ∧ p.number ≤ s'.sent

/-- Only new packets are held that were not held before, and only such packets are sent. -/
structure Moves (s s' : Link) : Prop where
  sent : s.sent ≤ s'.sent
  holds : ∀ p, s'.Holds p → s.Holds p ∨ s.Fresh s' p
  wire : s'.wire = s.wire ∨ ∃ q, s'.wire = s.wire ++ [q] ∧ (s.Holds q ∨ s.Fresh s' q)

theorem mem_batch {order : List UInt16} (h : p ∈ s.batch order) : s.Pending p := by
  obtain ⟨e, he, rfl⟩ := List.mem_map.mp h
  exact ⟨(GoMap.mem_entriesIn.mp he).2, rfl⟩

theorem pending_recorded (s : Link) (p : SentPacket) : (s.recorded p).Pending p :=
  ⟨Finmap.lookup_insert _, if_pos rfl⟩

/-- To record `q` makes no other packet pending. -/
theorem pending_of_recorded {q : SentPacket} (h : (s.recorded q).Pending p) : p = q ∨ s.Pending p := by
  obtain ⟨hdata, hnumber⟩ := h
  unfold recorded recordPending at hdata hnumber
  dsimp only at hdata hnumber
  rw [GoMap.lookup_insert_eq] at hdata
  by_cases hpid : p.pid = q.pid
  · rw [if_pos hpid] at hdata hnumber
    left
    cases p
    cases q
    cases hdata
    cases hnumber
    cases hpid
    rfl
  · rw [if_neg hpid] at hdata hnumber
    exact .inr ⟨hdata, hnumber⟩

theorem pending_of_ack (h : ({ s with conn := ackPackets s.conn base extra } : Link).Pending p) : s.Pending p := by
  obtain ⟨hdata, hnumber⟩ := h
  dsimp only at hdata
  rw [lookup_ackPackets] at hdata
  split at hdata
  · cases hdata
  · exact ⟨hdata, hnumber⟩

theorem not_pending_of_ack (hcarries : p.pid ∈ base :: extra) :
    ¬ Link.Pending { s with conn := ackPackets s.conn base extra } p := by
  intro hpending
  have hcovered : p.pid ∈ extra ∨ p.pid ≤ base := by
    rcases List.mem_cons.mp hcarries with hbase | hextra
    · exact .inr (UInt16.le_of_eq hbase)
    · exact .inl hextra
  have hdata := hpending.1
  dsimp only at hdata
  rw [lookup_ackPackets, if_pos hcovered] at hdata
  cases hdata

/-- The batches of a loop hold what they held, once one of them is replaced by such packets. -/
theorem holds_of_set {i : ℕ} {b : List SentPacket} (hb : ∀ p ∈ b, s.Holds p) :
    ∀ batch ∈ s.loops.set i b, ∀ p ∈ batch, s.Holds p := by
  intro batch hbatch p hp
  rcases List.mem_or_eq_of_mem_set hbatch with hbatch | rfl
  · exact .inr (.inr ⟨batch, hbatch, hp⟩)
  · exact hb p hp

end Link

variable {s s' : Link} {p : SentPacket} {base : UInt16} {extra : List UInt16} {l : LinkLabel} {loop : ℕ}

theorem section_of_step (h : linkStep s l = some s') : s.Section l s' := by
  cases l with
  | reply chunk fragmentID =>
    obtain ⟨hidle, heq⟩ := Option.ite_none_right_eq_some.mp h
    cases heq
    refine .allocate (fun p => ?_)
    simp only [Link.Unrecorded, hidle, Option.some.injEq, reduceCtorEq, or_false]
    exact or_congr_right eq_comm
  | replied =>
    obtain ⟨q, hq, rfl⟩ := Option.map_eq_some_iff.mp h
    refine .record (.inr hq) (fun p hp => .inl (hp.resolve_right nofun)) (fun p hp => ?_)
    rcases hp with hsender | hreceiver
    · exact .inr (.inl hsender)
    · exact .inl (Option.some.inj (hreceiver.symm.trans hq))
  | send chunk fragmentID =>
    cases h
    refine .allocate (fun p => ?_)
    simp only [Link.Unrecorded, Link.allocated, List.mem_cons]
    tauto
  | record q =>
    obtain ⟨hq, heq⟩ := Option.ite_none_right_eq_some.mp h
    cases heq
    refine .record (.inl hq) (fun p hp => hp.imp_left List.mem_of_mem_filter) (fun p hp => ?_)
    by_cases hpq : p = q
    · exact .inl hpq
    · exact .inr (hp.imp_left fun hsender => List.mem_filter.mpr ⟨hsender, decide_eq_true hpq⟩)
  | ack base extra =>
    obtain ⟨-, heq⟩ := Option.ite_none_right_eq_some.mp h
    cases heq
    exact .ack
  | start =>
    cases h
    refine .loop (fun batch hbatch p hp => ?_) (.inl rfl)
    rcases List.mem_append.mp hbatch with hbatch | hbatch
    · exact .inr (.inr ⟨batch, hbatch, hp⟩)
    · rw [List.mem_singleton.mp hbatch] at hp
      cases hp
  | tick loop order =>
    obtain ⟨-, heq⟩ := Option.ite_none_right_eq_some.mp h
    cases heq
    exact .loop (Link.holds_of_set fun p hp => .inr (.inl (Link.mem_batch hp))) (.inl rfl)
  | resend loop =>
    unfold linkStep at h
    dsimp only at h
    split at h
    · rename_i q rest hloop
      cases h
      have hmem := List.mem_of_getElem? hloop
      exact .loop (Link.holds_of_set fun p hp => .inr (.inr ⟨_, hmem, List.mem_cons_of_mem _ hp⟩))
        (.inr ⟨q, rfl, .inr (.inr ⟨_, hmem, List.mem_cons_self⟩)⟩)
    · cases h
  | other conn =>
    cases h
    exact .other

/-- **What one section can do** to the packets. -/
theorem moves_of_step (h : linkStep s l = some s') : s.Moves s' := by
  cases section_of_step h with
  | @allocate _ chunk fragmentID receiver senders hnew =>
    have hfresh : s.Fresh { s.allocated chunk fragmentID with receiver, senders } (s.next chunk fragmentID) :=
      ⟨Nat.lt_succ_self _, le_rfl⟩
    refine ⟨Nat.le_succ _, fun p hp => ?_, .inr ⟨_, rfl, .inr hfresh⟩⟩
    rcases hp with hunrecorded | hpending | hbatch
    · rcases (hnew p).mp hunrecorded with hunrecorded | rfl
      · exact .inl (.inl hunrecorded)
      · exact .inr hfresh
    · exact .inl (.inr (.inl hpending))
    · exact .inl (.inr (.inr hbatch))
  | record hq hold _ =>
    refine ⟨le_rfl, fun p hp => .inl ?_, .inl rfl⟩
    rcases hp with hunrecorded | hpending | hbatch
    · exact .inl (hold p hunrecorded)
    · rcases Link.pending_of_recorded hpending with rfl | hpending
      · exact .inl hq
      · exact .inr (.inl hpending)
    · exact .inr (.inr hbatch)
  | ack =>
    refine ⟨le_rfl, fun p hp => .inl ?_, .inl rfl⟩
    exact hp.imp_right (Or.imp_left Link.pending_of_ack)
  | loop hloops hwire =>
    refine ⟨le_rfl, fun p hp => .inl ?_, hwire.imp_right fun ⟨q, heq, hq⟩ => ⟨q, heq, .inl hq⟩⟩
    rcases hp with hunrecorded | hpending | ⟨batch, hbatch, hp⟩
    · exact .inl hunrecorded
    · exact .inr (.inl hpending)
    · exact hloops batch hbatch p hp
  | other => exact ⟨le_rfl, fun p hp => .inl hp, .inl rfl⟩

/-! ### What holds along every run -/

namespace Link

/-- Every packet that was sent or is held has its number. -/
structure Counted (s : Link) : Prop where
  wire : ∀ p ∈ s.wire, p.number ≤ s.sent
  held : ∀ p, s.Holds p → p.number ≤ s.sent

theorem counted_newLink (remoteAddr : RemoteAddr) : Counted (newLink remoteAddr) where
  wire := fun _ h => absurd h List.not_mem_nil
  held := by
    intro p hp
    rcases hp with (hsender | hreceiver) | hpending | hbatch
    · cases hsender
    · cases hreceiver
    · cases hpending.1
    · obtain ⟨batch, hbatch, _⟩ := hbatch
      cases hbatch

theorem Counted.step (hs : s.Counted) (h : linkStep s l = some s') : s'.Counted := by
  have hmoves := moves_of_step h
  have hnumber : ∀ p, s.Holds p ∨ s.Fresh s' p → p.number ≤ s'.sent := by
    intro p hp
    rcases hp with hheld | hfresh
    · exact (hs.held p hheld).trans hmoves.sent
    · exact hfresh.2
  refine ⟨fun p hp => ?_, fun p hp => hnumber p (hmoves.holds p hp)⟩
  rcases hmoves.wire with heq | ⟨q, heq, hq⟩
  · rw [heq] at hp
    exact (hs.wire p hp).trans hmoves.sent
  · rw [heq] at hp
    rcases List.mem_append.mp hp with hp | hp
    · exact (hs.wire p hp).trans hmoves.sent
    · rw [List.mem_singleton.mp hp]
      exact hnumber q hq

theorem counted_of_run {remoteAddr : RemoteAddr} {ls : List LinkLabel}
    (h : run linkStep (newLink remoteAddr) ls = some s) : s.Counted :=
  run_invariant (fun _ _ _ hs hl => hs.step hl) (counted_newLink remoteAddr) h

/-- The packet `p` was given its number and nobody holds it; it is `k` times on the wire. -/
structure Gone (p : SentPacket) (k : ℕ) (s : Link) : Prop where
  number : p.number ≤ s.sent
  free : ¬ s.Holds p
  times : s.wire.count p = k

theorem Gone.step {k : ℕ} (hs : Gone p k s) (h : linkStep s l = some s') : Gone p k s' := by
  have hmoves := moves_of_step h
  have hnot : ¬ (s.Holds p ∨ s.Fresh s' p) := by
    intro hp
    rcases hp with hheld | hfresh
    · exact hs.free hheld
    · exact absurd hfresh.1 (Nat.not_lt.mpr hs.number)
  refine ⟨hs.number.trans hmoves.sent, fun hp => hnot (hmoves.holds p hp), ?_⟩
  rcases hmoves.wire with heq | ⟨q, heq, hq⟩
  · rw [heq, hs.times]
  · have hne : q ≠ p := fun hqp => hnot (hqp ▸ hq)
    rw [heq, List.count_append, hs.times, List.count_singleton, beq_eq_false_iff_ne.mpr hne]
    rfl

/-- A packet that nobody holds is never pending and never sent again. -/
theorem gone_of_run {k : ℕ} {ls : List LinkLabel} (hs : Gone p k s) (h : run linkStep s ls = some s') : Gone p k s' :=
  run_invariant (fun _ _ _ hg hl => hg.step hl) hs h

theorem resend_eq {rest : List SentPacket} (h : s.loops[loop]? = some (p :: rest)) :
    linkStep s (.resend loop) = some { s with wire := s.wire ++ [p], loops := s.loops.set loop rest } := by
  simp only [linkStep, h]

theorem tick_eq {order : List UInt16} (hidle : s.loops[loop]? = some []) (hopen : s.conn.state ≠ .closed)
    (horder : GoMap.Enumerates order s.conn.pending) :
    linkStep s (.tick loop order) = some { s with loops := s.loops.set loop (s.batch order) } :=
  if_pos ⟨hidle, hopen, horder⟩

/-- A loop that has `p` in its batch comes to send it. -/
theorem resend_of_batch {pre rest : List SentPacket} (h : s.loops[loop]? = some (pre ++ p :: rest)) :
    ∃ s', run linkStep s (List.replicate (pre.length + 1) (.resend loop)) = some s' ∧
      (∀ q, s'.Unrecorded q ↔ s.Unrecorded q) ∧ s'.wire = s.wire ++ pre ++ [p] := by
  induction pre generalizing s with
  | nil =>
    refine ⟨_, run_cons_some.mpr ⟨_, resend_eq h, rfl⟩, fun q => Iff.rfl, ?_⟩
    rw [List.append_nil]
  | cons q pre ih =>
    have hbound := (List.getElem?_eq_some_iff.mp h).1
    have hset : (s.loops.set loop (pre ++ p :: rest))[loop]? = some (pre ++ p :: rest) :=
      List.getElem?_set_self hbound
    obtain ⟨s', hrun, hunrecorded, hwire⟩ :=
      ih (s := { s with wire := s.wire ++ [q], loops := s.loops.set loop (pre ++ p :: rest) }) hset
    refine ⟨s', run_cons_some.mpr ⟨_, resend_eq h, hrun⟩, hunrecorded, ?_⟩
    rw [hwire, List.append_assoc s.wire [q] pre]
    rfl

/-- A loop that has `p` in its batch sends it again. -/
theorem sent_again_of_batch (hrecorded : ¬ s.Unrecorded p) {batch : List SentPacket} (hbatch : batch ∈ s.loops)
    (hp : p ∈ batch) :
    ∃ ls s', run linkStep s ls = some s' ∧ ¬ s'.Unrecorded p ∧ s.wire.count p < s'.wire.count p := by
  obtain ⟨loop, hloop⟩ := List.mem_iff_getElem?.mp hbatch
  obtain ⟨pre, rest, rfl⟩ := List.append_of_mem hp
  obtain ⟨s', hrun, hunrecorded, hwire⟩ := resend_of_batch hloop
  refine ⟨_, s', hrun, fun hlater => hrecorded ((hunrecorded p).mp hlater), ?_⟩
  rw [hwire, List.count_append, List.count_append, List.count_singleton_self]
  omega

/-- A sender that goes on puts its packet into `pending`, whatever happened before. -/
theorem pending_of_sender (hidle : s.receiver = none) (h : s.Unrecorded p) :
    ∃ s', linkStep s (.record p) = some s' ∧ ¬ s'.Unrecorded p ∧ s'.Pending p := by
  have hnot : s.receiver ≠ some p := fun hreceiver => nomatch hidle.symm.trans hreceiver
  refine ⟨_, if_pos (h.resolve_right hnot), fun hlater => ?_, pending_recorded s p⟩
  rcases hlater with hlater | hlater
  · simp at hlater
  · exact hnot hlater

/-- An acknowledgement disposes of a packet that is nowhere but in `pending`. -/
theorem gone_of_ack (hs : s.Counted) (hsent : p ∈ s.wire) (hcarries : p.pid ∈ base :: extra)
    (hrecorded : ¬ s.Unrecorded p) (hbatches : ∀ batch ∈ s.loops, p ∉ batch) :
    Gone p (s.wire.count p) { s with conn := ackPackets s.conn base extra } := by
  refine ⟨hs.wire p hsent, fun hholds => ?_, rfl⟩
  rcases hholds with hunrecorded | hpending | ⟨batch, hbatch, hp⟩
  · exact hrecorded hunrecorded
  · exact not_pending_of_ack hcarries hpending
  · exact hbatches batch hbatch hp

end Link

/-! ### Acknowledgements -/

/-- **What an acknowledgement disposes of.**  In every interleaving, a packet whose id is carried by an
acknowledgement is not pending once its sender has recorded it, and is not sent again, whatever happens
afterwards, just when the acknowledgement does not come between the two sections of the sender and no loop has
the packet in the copy that it is sending. -/
theorem acked_packet_gone_iff {remoteAddr : RemoteAddr} {ls : List LinkLabel} {s s₁ : Link}
    (hrun : run linkStep (newLink remoteAddr) ls = some s) {p : SentPacket} (hsent : p ∈ s.wire)
    {base : UInt16} {extra : List UInt16} (hcarries : p.pid ∈ base :: extra)
    (hack : linkStep s (.ack base extra) = some s₁) :
    (∀ ls' s', run linkStep s₁ ls' = some s' → ¬ s'.Unrecorded p →
        ¬ s'.Pending p ∧ s'.wire.count p = s.wire.count p) ↔
      ¬ s.Unrecorded p ∧ ∀ batch ∈ s.loops, p ∉ batch := by
  obtain ⟨hidle, heq⟩ := Option.ite_none_right_eq_some.mp hack
  cases heq
  constructor
  · intro hgone
    have hrecorded : ¬ s.Unrecorded p := by
      intro hunrecorded
      obtain ⟨s', hstep, hdone, hpending⟩ :=
        Link.pending_of_sender (s := { s with conn := ackPackets s.conn base extra }) hidle hunrecorded
      exact (hgone [.record p] s' (run_cons_some.mpr ⟨s', hstep, rfl⟩) hdone).1 hpending
    refine ⟨hrecorded, fun batch hbatch hp => ?_⟩
    obtain ⟨ls', s', hrun', hdone, hmore⟩ :=
      Link.sent_again_of_batch (s := { s with conn := ackPackets s.conn base extra }) hrecorded hbatch hp
    exact absurd (hgone ls' s' hrun' hdone).2 (Nat.ne_of_gt hmore)
  · intro hfree ls' s' hrun' _
    have hgone := Link.gone_of_ack (Link.counted_of_run hrun) hsent hcarries hfree.1 hfree.2
    have hlater := Link.gone_of_run hgone hrun'
    exact ⟨fun hpending => hlater.free (.inr (.inl hpending)), hlater.times⟩

/-! ### A packet that is acknowledged too early -/

/-- The first packet of a long message. -/
def firstFragment : SentPacket := (newLink (.ipv4 [10, 0, 0, 1] 4000)).next [7] 1

/-- A connection with one loop, whose first packet is sent and not recorded. -/
def halfSent : Link :=
  { (newLink (.ipv4 [10, 0, 0, 1] 4000)).allocated [7] 1 with senders := [firstFragment], loops := [[]] }

theorem run_halfSent :
    run linkStep (newLink (.ipv4 [10, 0, 0, 1] 4000)) [.start, .send [7] 1] = some halfSent := rfl

theorem record_single (h : s.senders = [p]) :
    linkStep s (.record p) = some { s.recorded p with senders := [] } := by
  simp [linkStep, h]

/-- The acknowledgement of a packet that was sent and recorded. -/
theorem acked_after_record :
    ∃ s s₁, run linkStep (newLink (.ipv4 [10, 0, 0, 1] 4000)) [.start, .send [7] 1, .record firstFragment] =
        some s ∧
      firstFragment ∈ s.wire ∧ linkStep s (.ack 1 []) = some s₁ ∧
      ∀ ls' s', run linkStep s₁ ls' = some s' → ¬ s'.Unrecorded firstFragment →
        ¬ s'.Pending firstFragment ∧ s'.wire.count firstFragment = s.wire.count firstFragment := by
  have hrun : run linkStep (newLink (.ipv4 [10, 0, 0, 1] 4000))
      ([.start, .send [7] 1] ++ [.record firstFragment]) =
        some { halfSent.recorded firstFragment with senders := [] } :=
    run_snoc_some.mpr ⟨halfSent, run_halfSent, record_single rfl⟩
  refine ⟨_, _, hrun, List.mem_cons_self, rfl, ?_⟩
  refine (acked_packet_gone_iff hrun List.mem_cons_self List.mem_cons_self rfl).mpr ⟨?_, ?_⟩
  · intro hunrecorded
    rcases hunrecorded with hsender | hreceiver
    · cases hsender
    · cases hreceiver
  · intro batch hbatch
    rw [List.mem_singleton.mp hbatch]
    exact List.not_mem_nil

/-- The packet is acknowledged, and then recorded. -/
def recordedLate : Link :=
  { Link.recorded { halfSent with conn := ackPackets halfSent.conn 1 [] } firstFragment with senders := [] }

/-- The acknowledgement of a packet comes between the two sections of its sender.  The packet is then pending
when both are done, and the loop sends it again. -/
theorem acked_before_record :
    ∃ s s₁ s', run linkStep (newLink (.ipv4 [10, 0, 0, 1] 4000)) [.start, .send [7] 1] = some s ∧
      firstFragment ∈ s.wire ∧ firstFragment.pid = 1 ∧ linkStep s (.ack 1 []) = some s₁ ∧
      run linkStep s₁ [.record firstFragment, .tick 0 [1], .resend 0] = some s' ∧
      ¬ s'.Unrecorded firstFragment ∧ s'.Pending firstFragment ∧ s.wire.count firstFragment = 1 ∧
      s'.wire.count firstFragment = 2 := by
  have htick : linkStep recordedLate (.tick 0 [1]) = some _ := Link.tick_eq rfl (by decide) (by decide)
  have hbatch : recordedLate.batch [1] = [firstFragment] := rfl
  have hresend : linkStep { recordedLate with loops := [[firstFragment]] } (.resend 0) = some _ :=
    Link.resend_eq rfl
  rw [hbatch] at htick
  refine ⟨_, _, _, run_halfSent, List.mem_cons_self, rfl, rfl,
    run_cons_some.mpr ⟨_, record_single rfl, run_cons_some.mpr ⟨_, htick, run_cons_some.mpr ⟨_, hresend, rfl⟩⟩⟩,
    ?_, Link.pending_recorded _ _, by decide, by decide⟩
  intro hunrecorded
  rcases hunrecorded with hsender | hreceiver
  · cases hsender
  · cases hreceiver

end NextendoMatchmaking.Endpoint
