import NextendoMatchmaking.Endpoint.AckRace

/-!
# A connection and the console at its other end

`retransmitLoop` of `nextendo-nex/endpoint.go` sends what is pending again, since a console can drop packets that
it has no room for.  `ackPackets` forgets every packet up to the base of an acknowledgement, which is only right
for a console that has them all.

Here the goroutines of a connection (`linkStep`) run against a console that keeps or drops every packet as it
comes, and sends acknowledgements that take their time.  The console is `Truthful`: it acknowledges a base only
when it has all the packets up to it, and other packets only when it has them.

* `no_packet_lost` — under every schedule a packet that the console does not have is still held by the server, and
  the run can be completed without new packets, until the console has everything and nothing is pending.
-/

namespace NextendoMatchmaking.Endpoint

open NextendoMatchmaking.Runs

/-! ### The system -/

/-- A link and a console.  `arrived` counts the packets of the wire that have come to the console, `received` are
the numbers of those that it kept, `acks` are the acknowledgements that it has sent. -/
structure Delivery where
  link : Link
  arrived : ℕ
  received : List ℕ
  acks : List (UInt16 × List UInt16)

def newDelivery (remoteAddr : RemoteAddr) : Delivery := ⟨newLink remoteAddr, 0, [], []⟩

inductive DeliveryLabel
  /-- A section of a goroutine of the server; the acknowledgements that it handles come from the console. -/
  | link (l : LinkLabel)
  /-- The next packet comes to the console, which keeps or drops it. -/
  | arrive (keep : Bool)
  /-- The console acknowledges. -/
  | acknowledge (base : UInt16) (extra : List UInt16)

/-- The acknowledgement is one that the console has sent. -/
def FromConsole (s : Delivery) : LinkLabel → Prop
  | .ack base extra => (base, extra) ∈ s.acks
  | _ => True

instance (s : Delivery) : ∀ l, Decidable (FromConsole s l)
  | .ack base extra => inferInstanceAs (Decidable ((base, extra) ∈ s.acks))
  | .reply _ _ | .replied | .send _ _ | .record _ | .start | .tick _ _ | .resend _ | .other _ => isTrue trivial

def deliveryStep (s : Delivery) : DeliveryLabel → Option Delivery
  | .link l => if FromConsole s l then (linkStep s.link l).map (fun link => { s with link }) else none
  | .arrive keep => s.link.wire[s.arrived]?.map (fun p =>
      { s with
        arrived := s.arrived + 1
        received := if keep then p.number :: s.received else s.received })
  | .acknowledge base extra => some { s with acks := (base, extra) :: s.acks }

/-- The console has the packets that the acknowledgement is for. -/
def Covers (received : List ℕ) (ack : UInt16 × List UInt16) : Prop :=
  (∀ n, 1 ≤ n → n ≤ ack.1.toNat → n ∈ received) ∧ ∀ id ∈ ack.2, id.toNat ∈ received

def Truthful (s : Delivery) : DeliveryLabel → Prop
  | .acknowledge base extra => Covers s.received (base, extra)
  | _ => True

/-! ### What the server holds -/

variable {s s' : Delivery} {l : LinkLabel} {p q : SentPacket} {link link' : Link}

/-- The sender of `p` will record it, or it is pending. -/
def Link.Keeps (link : Link) (p : SentPacket) : Prop := link.Unrecorded p ∨ link.Pending p

/-- The packets that the server holds have the ids of their numbers. -/
def Link.Numbered (link : Link) : Prop :=
  Numbering link.conn.outReliable link.sent (fun pid n => ∃ p, link.Keeps p ∧ p.pid = pid ∧ p.number = n)

theorem Link.Numbered.kept (h : link.Numbered) (hp : link.Keeps p) :
    p.pid.toNat = p.number % 65536 ∧ 1 ≤ p.number ∧ p.number ≤ link.sent := by
  have hid : UInt16.ofNat p.number = p.pid := h.id p.pid p.number ⟨p, hp, rfl, rfl⟩
  refine ⟨?_, h.pos p.pid p.number ⟨p, hp, rfl, rfl⟩, h.sent p.pid p.number ⟨p, hp, rfl, rfl⟩⟩
  rw [← hid, UInt16.toNat_ofNat']

theorem Link.not_keeps_newLink {remoteAddr : RemoteAddr} : ¬ (newLink remoteAddr).Keeps p := by
  rintro ((hsender | hreceiver) | hpending)
  · cases hsender
  · cases hreceiver
  · cases hpending.1

theorem Link.numbered_newLink (remoteAddr : RemoteAddr) : (newLink remoteAddr).Numbered where
  next := rfl
  id := by
    rintro pid n ⟨p, hp, -⟩
    exact absurd hp not_keeps_newLink
  pos := by
    rintro pid n ⟨p, hp, -⟩
    exact absurd hp not_keeps_newLink
  sent := by
    rintro pid n ⟨p, hp, -⟩
    exact absurd hp not_keeps_newLink

theorem Link.Numbered.step (h : link.Numbered) (hstep : linkStep link l = some link') : link'.Numbered := by
  cases section_of_step hstep with
  | @allocate _ chunk fragmentID receiver senders hnew =>
    refine Numbering.allocate h ?_
    rintro pid n ⟨p, hp, rfl, rfl⟩
    rcases hp with hunrecorded | hpending
    · rcases (hnew p).mp hunrecorded with hunrecorded | rfl
      · exact .inl ⟨p, .inl hunrecorded, rfl, rfl⟩
      · exact .inr ⟨rfl, rfl⟩
    · exact .inl ⟨p, .inr hpending, rfl, rfl⟩
  | record hq hold _ =>
    refine Numbering.of_fewer h ?_
    rintro pid n ⟨p, hp, rfl, rfl⟩
    rcases hp with hunrecorded | hpending
    · exact ⟨p, .inl (hold p hunrecorded), rfl, rfl⟩
    · rcases Link.pending_of_recorded hpending with rfl | hpending
      · exact ⟨p, .inl hq, rfl, rfl⟩
      · exact ⟨p, .inr hpending, rfl, rfl⟩
  | ack =>
    refine Numbering.of_fewer h ?_
    rintro pid n ⟨p, hp, rfl, rfl⟩
    exact ⟨p, hp.imp_right Link.pending_of_ack, rfl, rfl⟩
  | loop _ _ => exact h
  | other => exact h

/-- To record a packet leaves the others alone, since no two packets have the same id. -/
theorem Link.Numbered.keeps_recorded (h : link.Numbered) (hfit : link.sent < 65536) (hp : link.Keeps p)
    (hq : link.Unrecorded q) {receiver : Option SentPacket} {senders : List SentPacket}
    (hstay : ∀ p, link.Unrecorded p → p = q ∨ p ∈ senders ∨ receiver = some p) :
    ∃ p', p'.number = p.number ∧ Link.Keeps { link.recorded q with receiver, senders } p' := by
  by_cases hsame : p.number = q.number
  · exact ⟨q, hsame.symm, .inr (Link.pending_recorded link q)⟩
  · have hne : p.pid ≠ q.pid := by
      intro heq
      have hpid := h.kept hp
      have hqid := h.kept (.inl hq)
      rw [heq] at hpid
      omega
    refine ⟨p, rfl, ?_⟩
    rcases hp with hunrecorded | ⟨hdata, hnumber⟩
    · exact .inl ((hstay p hunrecorded).resolve_left fun heq => hsame (congrArg SentPacket.number heq))
    · refine .inr ⟨?_, (if_neg hne).trans hnumber⟩
      show (link.conn.pending.insert q.pid q.data).lookup p.pid = some p.data
      rw [GoMap.lookup_insert_eq, if_neg hne]
      exact hdata

/-- An acknowledgement leaves the packets alone that it does not cover. -/
theorem Link.keeps_ack {base : UInt16} {extra : List UInt16} (hcovered : ¬ (p.pid ∈ extra ∨ p.pid ≤ base))
    (hp : link.Keeps p) : Link.Keeps { link with conn := ackPackets link.conn base extra } p := by
  refine hp.imp_right fun ⟨hdata, hnumber⟩ => ⟨?_, hnumber⟩
  show (ackPackets link.conn base extra).pending.lookup p.pid = some p.data
  rw [lookup_ackPackets, if_neg hcovered]
  exact hdata

/-- A step keeps every packet, but those that are acknowledged. -/
theorem Link.Numbered.keeps_step (h : link.Numbered) (hfit : link.sent < 65536)
    (hstep : linkStep link l = some link') (hp : link.Keeps p) :
    (∃ p', p'.number = p.number ∧ link'.Keeps p') ∨
      ∃ base extra, l = .ack base extra ∧ (p.pid ∈ extra ∨ p.pid ≤ base) := by
  cases section_of_step hstep with
  | allocate hnew => exact .inl ⟨p, rfl, hp.imp_left fun hunrecorded => (hnew p).mpr (.inl hunrecorded)⟩
  | record hq _ hstay => exact .inl (h.keeps_recorded hfit hp hq hstay)
  | @ack base extra =>
    by_cases hcovered : p.pid ∈ extra ∨ p.pid ≤ base
    · exact .inr ⟨base, extra, rfl, hcovered⟩
    · exact .inl ⟨p, rfl, Link.keeps_ack hcovered hp⟩
  | loop _ _ => exact .inl ⟨p, rfl, hp⟩
  | other => exact .inl ⟨p, rfl, hp⟩

/-- A new number is that of a packet whose sender will record it. -/
theorem keeps_of_new (hstep : linkStep link l = some link') {n : ℕ} (hnew : link.sent < n)
    (hle : n ≤ link'.sent) : ∃ p, p.number = n ∧ link'.Keeps p := by
  cases section_of_step hstep with
  | @allocate _ chunk fragmentID _ _ hunrecorded =>
    exact ⟨link.next chunk fragmentID, Nat.le_antisymm hnew hle, .inl ((hunrecorded _).mpr (.inr rfl))⟩
  | record _ _ _ => exact absurd hle (Nat.not_le.mpr hnew)
  | ack => exact absurd hle (Nat.not_le.mpr hnew)
  | loop _ _ => exact absurd hle (Nat.not_le.mpr hnew)
  | other => exact absurd hle (Nat.not_le.mpr hnew)

/-! ### Nothing is lost -/

/-- What holds along every run with a truthful console. -/
structure Secure (s : Delivery) : Prop where
  numbered : s.link.Numbered
  arrived : s.arrived ≤ s.link.wire.length
  acks : ∀ ack ∈ s.acks, Covers s.received ack
  kept : s.link.sent < 65536 →
    ∀ n, 1 ≤ n → n ≤ s.link.sent → n ∈ s.received ∨ ∃ p, p.number = n ∧ s.link.Keeps p

theorem Covers.mono {received received' : List ℕ} {ack : UInt16 × List UInt16} (h : Covers received ack)
    (hsub : received ⊆ received') : Covers received' ack :=
  ⟨fun n hpos hle => hsub (h.1 n hpos hle), fun id hid => hsub (h.2 id hid)⟩

theorem secure_newDelivery (remoteAddr : RemoteAddr) : Secure (newDelivery remoteAddr) where
  numbered := Link.numbered_newLink remoteAddr
  arrived := le_rfl
  acks := List.forall_mem_nil _
  kept _ _ hpos hle := absurd hle (Nat.not_le.mpr hpos)

theorem secure_link (hs : Secure s) (hfrom : FromConsole s l) (hstep : linkStep s.link l = some link') :
    Secure { s with link := link' } := by
  have hmoves := moves_of_step hstep
  refine ⟨hs.numbered.step hstep, hs.arrived.trans ?_, hs.acks, fun hfit n hpos hle => ?_⟩
  · rcases hmoves.wire with heq | ⟨q, heq, -⟩
    · exact Nat.le_of_eq (congrArg List.length heq).symm
    · show s.link.wire.length ≤ link'.wire.length
      rw [heq, List.length_append]
      exact Nat.le_add_right _ _
  · have hfit' : s.link.sent < 65536 := Nat.lt_of_le_of_lt hmoves.sent hfit
    rcases Nat.lt_or_ge s.link.sent n with hnew | hold
    · exact .inr (keeps_of_new hstep hnew hle)
    rcases hs.kept hfit' n hpos hold with hreceived | ⟨p, rfl, hp⟩
    · exact .inl hreceived
    rcases hs.numbered.keeps_step hfit' hstep hp with hkept | ⟨base, extra, rfl, hcovered⟩
    · exact .inr hkept
    · -- the packet is acknowledged, and the console is truthful
      obtain ⟨hid, hone, hbound⟩ := hs.numbered.kept hp
      have hnumber : p.pid.toNat = p.number := by omega
      have hcovers := hs.acks (base, extra) hfrom
      rcases hcovered with hextra | hbase
      · exact .inl (hnumber ▸ hcovers.2 p.pid hextra)
      · rw [UInt16.le_iff_toNat_le, hnumber] at hbase
        exact .inl (hcovers.1 p.number hone hbase)

theorem secure_step {l : DeliveryLabel} (hl : Truthful s l) (hs : Secure s)
    (hstep : deliveryStep s l = some s') : Secure s' := by
  cases l with
  | link l =>
    obtain ⟨hfrom, heq⟩ := Option.ite_none_right_eq_some.mp hstep
    obtain ⟨link', hlink, rfl⟩ := Option.map_eq_some_iff.mp heq
    exact secure_link hs hfrom hlink
  | arrive keep =>
    obtain ⟨p, hp, rfl⟩ := Option.map_eq_some_iff.mp hstep
    have hsub : s.received ⊆ (if keep then p.number :: s.received else s.received) := by
      split
      · exact List.subset_cons_self _ _
      · exact List.Subset.refl _
    refine ⟨hs.numbered, (List.getElem?_eq_some_iff.mp hp).1, fun ack hack => (hs.acks ack hack).mono hsub, ?_⟩
    intro hfit n hpos hle
    rcases hs.kept hfit n hpos hle with hreceived | hkept
    · exact .inl (hsub hreceived)
    · exact .inr hkept
  | acknowledge base extra =>
    obtain rfl := Option.some.inj hstep
    exact ⟨hs.numbered, hs.arrived, List.forall_mem_cons.mpr ⟨hl, hs.acks⟩, hs.kept⟩

/-! ### Completing a run -/

/-- `s'` comes after `s` in a run with a truthful console in which nothing new is sent. -/
def Continues (s s' : Delivery) : Prop :=
  ∃ ls, run deliveryStep s ls = some s' ∧ Steps deliveryStep Truthful s ls ∧
    s'.link.sent = s.link.sent ∧ s'.link.conn.state = s.link.conn.state

theorem Continues.refl (s : Delivery) : Continues s s := ⟨[], rfl, trivial, rfl, rfl⟩

theorem Continues.trans {s₁ s₂ s₃ : Delivery} (h : Continues s₁ s₂) (h' : Continues s₂ s₃) : Continues s₁ s₃ := by
  obtain ⟨ls, hrun, hsteps, hsent, hstate⟩ := h
  obtain ⟨ls', hrun', hsteps', hsent', hstate'⟩ := h'
  exact ⟨ls ++ ls', run_append_some.mpr ⟨s₂, hrun, hrun'⟩, steps_concat hsteps hrun hsteps',
    hsent'.trans hsent, hstate'.trans hstate⟩

theorem Continues.sent (h : Continues s s') : s'.link.sent = s.link.sent := by
  obtain ⟨-, -, -, hsent, -⟩ := h
  exact hsent

theorem Continues.state (h : Continues s s') : s'.link.conn.state = s.link.conn.state := by
  obtain ⟨-, -, -, -, hstate⟩ := h
  exact hstate

theorem continues_step {l : DeliveryLabel} (hstep : deliveryStep s l = some s') (hl : Truthful s l)
    (hsent : s'.link.sent = s.link.sent) (hstate : s'.link.conn.state = s.link.conn.state) : Continues s s' :=
  ⟨[l], run_cons_some.mpr ⟨s', hstep, rfl⟩, ⟨hl, fun _ _ => trivial⟩, hsent, hstate⟩

theorem continues_link (hfrom : FromConsole s l) (hstep : linkStep s.link l = some link')
    (hsent : link'.sent = s.link.sent) (hstate : link'.conn.state = s.link.conn.state) :
    Continues s { s with link := link' } := by
  refine continues_step (l := .link l) ?_ trivial hsent hstate
  show (if FromConsole s l then _ else none) = _
  rw [if_pos hfrom, hstep]
  rfl

theorem Secure.continues (hs : Secure s) (h : Continues s s') : Secure s' := by
  obtain ⟨ls, hrun, hsteps, -, -⟩ := h
  exact run_invariant_of_steps (fun _ _ _ hl hs hstep => secure_step hl hs hstep) hsteps hs hrun

/-- The senders finish. -/
theorem continues_recorded (s : Delivery) : ∃ link', Continues s { s with link := link' } ∧ link'.receiver = none ∧
    link'.senders = [] ∧ link'.loops = s.link.loops ∧ link'.wire = s.link.wire := by
  have hsenders : ∀ n (s : Delivery), s.link.senders.length = n → s.link.receiver = none →
      ∃ link', Continues s { s with link := link' } ∧ link'.receiver = none ∧ link'.senders = [] ∧
        link'.loops = s.link.loops ∧ link'.wire = s.link.wire := by
    intro n
    induction n using Nat.strong_induction_on with
    | _ n ih =>
      intro s hn hidle
      cases hlist : s.link.senders with
      | nil => exact ⟨s.link, .refl s, hidle, hlist, rfl, rfl⟩
      | cons q rest =>
        have hmem : q ∈ s.link.senders := hlist ▸ List.mem_cons_self
        let link₁ : Link := { s.link.recorded q with senders := s.link.senders.filter (· ≠ q) }
        have hstep : linkStep s.link (.record q) = some link₁ := if_pos hmem
        have hless : link₁.senders.length < n := by
          rw [← hn]
          exact List.length_filter_lt_length_iff_exists.mpr ⟨q, hmem, by simp⟩
        have hfirst : Continues s { s with link := link₁ } := continues_link (l := .record q) trivial hstep rfl rfl
        obtain ⟨link', hrest, hidle', hnone, hloops, hwire⟩ :=
          ih link₁.senders.length hless { s with link := link₁ } rfl hidle
        exact ⟨link', hfirst.trans hrest, hidle', hnone, hloops, hwire⟩
  cases hreceiver : s.link.receiver with
  | none => exact hsenders _ s rfl hreceiver
  | some q =>
    let link₁ : Link := { s.link.recorded q with receiver := none }
    have hstep : linkStep s.link .replied = some link₁ := by
      show s.link.receiver.map _ = _
      rw [hreceiver]
      rfl
    have hfirst : Continues s { s with link := link₁ } := continues_link (l := .replied) trivial hstep rfl rfl
    obtain ⟨link', hrest, hidle', hnone, hloops, hwire⟩ := hsenders _ { s with link := link₁ } rfl rfl
    exact ⟨link', hfirst.trans hrest, hidle', hnone, hloops, hwire⟩

/-- A loop sends all that is left of its batch. -/
theorem continues_resend {i : ℕ} {batch : List SentPacket} (h : s.link.loops[i]? = some batch) :
    Continues s { s with
      link := { s.link with wire := s.link.wire ++ batch, loops := s.link.loops.set i [] } } := by
  induction batch generalizing s with
  | nil =>
    have hsame : s.link.loops.set i [] = s.link.loops := by
      obtain ⟨hlt, hget⟩ := List.getElem?_eq_some_iff.mp h
      rw [← hget]
      exact List.set_getElem_self hlt
    rw [hsame, List.append_nil]
    exact .refl s
  | cons p batch ih =>
    have hlt := (List.getElem?_eq_some_iff.mp h).1
    let link₁ : Link := { s.link with wire := s.link.wire ++ [p], loops := s.link.loops.set i batch }
    have hfirst : Continues s { s with link := link₁ } :=
      continues_link (l := .resend i) trivial (Link.resend_eq h) rfl rfl
    have hrest := ih (s := { s with link := link₁ }) (List.getElem?_set_self hlt)
    refine hfirst.trans ?_
    have hwire : link₁.wire ++ batch = s.link.wire ++ p :: batch := by
      rw [List.append_assoc]
      rfl
    rw [hwire, List.set_set] at hrest
    exact hrest

/-- Everything that is on the wire comes to the console, which keeps it. -/
theorem continues_arrived (s : Delivery) : ∃ arrived received,
    Continues s { s with arrived, received } ∧ s.received ⊆ received ∧
      ∀ p ∈ s.link.wire.drop s.arrived, p.number ∈ received := by
  obtain ⟨n, hn⟩ : ∃ n, s.link.wire.length - s.arrived = n := ⟨_, rfl⟩
  induction n generalizing s with
  | zero =>
    refine ⟨s.arrived, s.received, .refl s, List.Subset.refl _, fun p hp => ?_⟩
    rw [List.drop_eq_nil_of_le (Nat.sub_eq_zero_iff_le.mp hn)] at hp
    cases hp
  | succ n ih =>
    have hlt : s.arrived < s.link.wire.length := by omega
    let s₁ : Delivery :=
      { s with arrived := s.arrived + 1, received := (s.link.wire.get ⟨s.arrived, hlt⟩).number :: s.received }
    have hstep : deliveryStep s (.arrive true) = some s₁ := by
      show s.link.wire[s.arrived]?.map _ = _
      rw [List.getElem?_eq_getElem hlt]
      rfl
    have hfirst : Continues s s₁ := continues_step hstep trivial rfl rfl
    have hleft : s₁.link.wire.length - s₁.arrived = n := by
      show s.link.wire.length - (s.arrived + 1) = n
      omega
    obtain ⟨arrived, received, hrest, hsub, hall⟩ := ih s₁ hleft
    refine ⟨arrived, received, hfirst.trans hrest, fun k hk => hsub (List.mem_cons_of_mem _ hk), fun p hp => ?_⟩
    rw [List.drop_eq_getElem_cons hlt] at hp
    rcases List.mem_cons.mp hp with rfl | hp
    · exact hsub List.mem_cons_self
    · exact hall p hp

theorem Link.mem_batch_of_pending {order : List UInt16} (horder : GoMap.Enumerates order link.conn.pending)
    (h : link.Pending p) : p ∈ link.batch order := by
  refine List.mem_map.mpr ⟨(p.pid, p.data), GoMap.mem_entriesIn.mpr ⟨?_, h.1⟩, ?_⟩
  · exact (horder.2 p.pid).mpr (Finmap.mem_of_lookup_eq_some h.1)
  · rw [h.2]

/-- The server sends all that is pending, and the console keeps it. -/
theorem continues_received (hs : Secure s) (hfit : s.link.sent < 65536) (hopen : s.link.conn.state ≠ .closed)
    (hloops : s.link.loops ≠ []) : ∃ s', Continues s s' ∧ s'.link.receiver = none ∧
      ∀ n, 1 ≤ n → n ≤ s.link.sent → n ∈ s'.received := by
  obtain ⟨link₁, hcont₁, hidle, hsenders, hloops₁, -⟩ := continues_recorded s
  obtain ⟨batch₀, hbatch₀⟩ : ∃ batch₀, link₁.loops[0]? = some batch₀ := by
    rw [hloops₁]
    exact ⟨_, List.getElem?_eq_getElem (List.length_pos_iff.mpr hloops)⟩
  have hlt : 0 < link₁.loops.length := (List.getElem?_eq_some_iff.mp hbatch₀).1
  -- the loop finishes its batch and makes a new one of all that is pending
  let link₂ : Link := { link₁ with wire := link₁.wire ++ batch₀, loops := link₁.loops.set 0 [] }
  have hcont₂ : Continues s { s with link := link₂ } :=
    hcont₁.trans (continues_resend (s := { s with link := link₁ }) hbatch₀)
  have hsent₂ : link₁.sent = s.link.sent := hcont₂.sent
  have hopen₂ : link₁.conn.state ≠ .closed := hcont₂.state ▸ hopen
  obtain ⟨order, horder⟩ := GoMap.exists_enumerates link₂.conn.pending
  let link₃ : Link := { link₂ with loops := link₂.loops.set 0 (link₂.batch order) }
  have htick : linkStep link₂ (.tick 0 order) = some link₃ :=
    Link.tick_eq (List.getElem?_set_self hlt) hopen₂ horder
  have hcont₃ : Continues s { s with link := link₃ } :=
    hcont₂.trans (continues_link (s := { s with link := link₂ }) (l := .tick 0 order) trivial htick rfl rfl)
  have hbatch₃ : link₃.loops[0]? = some (link₂.batch order) :=
    List.getElem?_set_self (by rw [List.length_set]; exact hlt)
  have hcont₄ := hcont₃.trans (continues_resend (s := { s with link := link₃ }) hbatch₃)
  obtain ⟨arrived, received, hlast, -, hall⟩ := continues_arrived { s with
    link := { link₃ with wire := link₃.wire ++ link₂.batch order, loops := link₃.loops.set 0 [] } }
  have hcont₅ := hcont₄.trans hlast
  refine ⟨_, hcont₅, hidle, fun n hpos hle => ?_⟩
  rcases (hs.continues hcont₅).kept (hsent₂ ▸ hfit) n hpos (hsent₂ ▸ hle) with hreceived | ⟨p, rfl, hp⟩
  · exact hreceived
  rcases hp with (hsender | hreceiver) | hpending
  · exact absurd (hsenders ▸ hsender) List.not_mem_nil
  · exact nomatch hidle.symm.trans hreceiver
  · have hmem : p ∈ link₂.batch order := Link.mem_batch_of_pending horder hpending
    refine hall p ?_
    rw [List.drop_append_of_le_length (hs.continues hcont₂).arrived]
    exact List.mem_append_right _ hmem

/-- The console acknowledges everything, and nothing is pending any more. -/
theorem continues_acknowledged (hs : Secure s) (hfit : s.link.sent < 65536) (hidle : s.link.receiver = none)
    (hall : ∀ n, 1 ≤ n → n ≤ s.link.sent → n ∈ s.received) :
    ∃ s', Continues s s' ∧ s'.received = s.received ∧ s'.link.conn.pending = ∅ := by
  have hbase : (UInt16.ofNat s.link.sent).toNat = s.link.sent := UInt16.toNat_ofNat_of_lt' hfit
  let s₁ : Delivery := { s with acks := (UInt16.ofNat s.link.sent, []) :: s.acks }
  have htruthful : Covers s.received (UInt16.ofNat s.link.sent, []) :=
    ⟨fun n hpos hle => hall n hpos (hbase ▸ hle), List.forall_mem_nil _⟩
  have hfirst : Continues s s₁ := continues_step (l := .acknowledge (UInt16.ofNat s.link.sent) []) rfl htruthful rfl rfl
  have hack : linkStep s₁.link (.ack (UInt16.ofNat s.link.sent) []) =
      some { s.link with conn := ackPackets s.link.conn (UInt16.ofNat s.link.sent) [] } := if_pos hidle
  have hlast := continues_link (s := s₁) (l := .ack (UInt16.ofNat s.link.sent) []) List.mem_cons_self hack rfl rfl
  refine ⟨_, hfirst.trans hlast, rfl, ?_⟩
  apply Finmap.ext_lookup
  intro pid
  show (ackPackets s.link.conn (UInt16.ofNat s.link.sent) []).pending.lookup pid = _
  rw [lookup_ackPackets, Finmap.lookup_empty]
  split
  · rfl
  · next hcovered =>
    cases hdata : s.link.conn.pending.lookup pid with
    | none => rfl
    | some data =>
      have hp : s.link.Keeps ⟨s.link.number pid, pid, data⟩ := .inr ⟨hdata, rfl⟩
      obtain ⟨hid, hone, hle⟩ := hs.numbered.kept hp
      refine absurd (.inr ?_) hcovered
      rw [UInt16.le_iff_toNat_le, hbase, hid]
      exact Nat.le_trans (Nat.mod_le _ _) hle

/-- **No packet is lost.**  The goroutines of a connection run against a console that keeps and drops packets as
it likes and acknowledges only what it has, with any delay, and fewer than 65536 packets are sent.  In every
interleaving, a packet that the console does not have is pending or will be by its sender; and while the
connection is open and has a loop, the run can be completed without new packets, so that the console has
everything and nothing is pending. -/
theorem no_packet_lost {remoteAddr : RemoteAddr} {ls : List DeliveryLabel}
    (hrun : run deliveryStep (newDelivery remoteAddr) ls = some s)
    (htruthful : Steps deliveryStep Truthful (newDelivery remoteAddr) ls) (hfit : s.link.sent < 65536) :
    (∀ n, 1 ≤ n → n ≤ s.link.sent → n ∈ s.received ∨ ∃ p, p.number = n ∧ s.link.Keeps p) ∧
    (s.link.conn.state ≠ .closed → s.link.loops ≠ [] → ∃ s', Continues s s' ∧
      (∀ n, 1 ≤ n → n ≤ s.link.sent → n ∈ s'.received) ∧ s'.link.conn.pending = ∅) := by
  have hs : Secure s := run_invariant_of_steps (fun _ _ _ hl hs hstep => secure_step hl hs hstep) htruthful
    (secure_newDelivery remoteAddr) hrun
  refine ⟨hs.kept hfit, fun hopen hloops => ?_⟩
  obtain ⟨s₁, hcont, hidle, hall⟩ := continues_received hs hfit hopen hloops
  have hsent := hcont.sent
  obtain ⟨s₂, hlast, hreceived, hempty⟩ := continues_acknowledged (hs.continues hcont) (hsent ▸ hfit) hidle
    (fun n hpos hle => hall n hpos (hsent ▸ hle))
  exact ⟨s₂, hcont.trans hlast, fun n hpos hle => hreceived ▸ hall n hpos hle, hempty⟩

/-- Two packets are sent, and the console drops the first and keeps the second. -/
def droppedFirst : List DeliveryLabel :=
  [.link .start, .link (.send [7] 1), .link (.send [8] 0), .arrive false, .arrive true]

theorem no_packet_lost_dropped : ∃ s,
    run deliveryStep (newDelivery (.ipv4 [10, 0, 0, 1] 4000)) droppedFirst = some s ∧ s.received = [2] ∧
      ∃ s', Continues s s' ∧ (∀ n, 1 ≤ n → n ≤ 2 → n ∈ s'.received) ∧ s'.link.conn.pending = ∅ := by
  have hend : (run deliveryStep (newDelivery (.ipv4 [10, 0, 0, 1] 4000)) droppedFirst).map (fun s =>
      (s.received, s.link.sent, s.link.conn.state, s.link.loops)) =
        some ([2], 2, .connecting, [[]]) := rfl
  obtain ⟨s, hrun, heq⟩ := Option.map_eq_some_iff.mp hend
  simp only [Prod.mk.injEq] at heq
  obtain ⟨hreceived, hsent, hstate, hloops⟩ := heq
  have htruthful : Steps deliveryStep Truthful (newDelivery (.ipv4 [10, 0, 0, 1] 4000)) droppedFirst :=
    ⟨trivial, fun _ _ => ⟨trivial, fun _ _ => ⟨trivial, fun _ _ => ⟨trivial, fun _ _ => ⟨trivial,
      fun _ _ => trivial⟩⟩⟩⟩⟩
  obtain ⟨-, hcomplete⟩ := no_packet_lost hrun htruthful (by rw [hsent]; decide)
  rw [hstate, hloops, hsent] at hcomplete
  exact ⟨s, hrun, hreceived, hcomplete (by decide) (by decide)⟩

end NextendoMatchmaking.Endpoint
