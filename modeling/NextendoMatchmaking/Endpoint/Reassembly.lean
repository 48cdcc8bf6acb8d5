import NextendoMatchmaking.Endpoint.DispatchGate
import NextendoMatchmaking.Endpoint.Fragments
import NextendoMatchmaking.Endpoint.Session

/-!
# Reassembly

What the receiving side makes of fragments: `processData` appends them to the buffer of the connection in the
order in which they come, and hands the buffer to `dispatchRMC` at a fragment with the id 0.

* Against `sendData`: the id of a fragment has eight bits and starts at 1, so the 256th fragment gets the id
  0, which ends the loop of the sender and the message of the receiver.  A message comes through exactly if
  256 fragments hold it (`fragmentation_round_trip`), and a longer one is cut there (`fragments_cut`).
* Against the network: nothing looks at the ids of the packets, so a packet that comes twice is taken twice
  and a fragment that overtakes another is put before it (`stream_broken`).  If the fragments of a client come
  once and in order, then its messages do so too, whatever else happens at the endpoint (`inbound_stream`).
-/

namespace NextendoMatchmaking.Endpoint

open NextendoMatchmaking.Runs

variable {crypto : Crypto} {e : Config} {l : Label} {ls : List Label} {s : State} {c : Sock}
  {conn : Connection} {p : Packet} {env : PacketEnv} {w : Sender} {size n : ℕ}

/-! ### What is handed to `dispatchRMC` -/

/-- The payload that `processData` hands to `dispatchRMC`. -/
def handed (conn : Connection) (p : Packet) : Option Bytes :=
  if IsFragment p then (reassemble conn.fragBuf p).2 else none

/-- A fragment is acknowledged, goes into the buffer, and what it completes is dispatched. -/
theorem processData_fragment (h : IsFragment p) :
    processData e env c conn p =
      (let acks := if p.hasFlag Flag.needACK then [sendAck c conn p] else []
       let conn' := { conn with fragBuf := (reassemble conn.fragBuf p).1 }
       match handed conn p with
       | none => (conn', acks)
       | some payload =>
         ((dispatchRMC e env c conn' payload).1, acks ++ (dispatchRMC e env c conn' payload).2)) := by
  have hmulti : ¬ p.hasFlag Flag.multiACK = true := by simp [h.2.1]
  have hack : ¬ p.hasFlag Flag.ack = true := by simp [h.2.2]
  have hhanded : handed conn p = (reassemble conn.fragBuf p).2 := if_pos h
  refine (if_neg hmulti).trans ((if_neg hack).trans ?_)
  exact hhanded ▸ rfl

/-- `processData` on one packet after the other: the connection it leaves, and the payloads it handed to
`dispatchRMC`. -/
def feed (e : Config) (c : Sock) : Connection → List (Packet × PacketEnv) → Connection × List Bytes
  | conn, [] => (conn, [])
  | conn, (p, env) :: ps =>
    let (conn', payloads) := feed e c (processData e env c conn p).1 ps
    (conn', (handed conn p).toList ++ payloads)

theorem feed_fragments {ps : List (Packet × PacketEnv)} (h : ∀ x ∈ ps, IsFragment x.1) :
    (feed e c conn ps).2 = (assemble conn.fragBuf (ps.map Prod.fst)).1 := by
  induction ps generalizing conn with
  | nil => rfl
  | cons x ps ih =>
    obtain ⟨p, env⟩ := x
    have hfrag : IsFragment p := h _ List.mem_cons_self
    have hbuf : (processData e env c conn p).1.fragBuf = (reassemble conn.fragBuf p).1 :=
      (sameSession_fragment e env c conn hfrag.2.1 hfrag.2.2).fragBuf
    show (handed conn p).toList ++ (feed e c (processData e env c conn p).1 ps).2 =
      (reassemble conn.fragBuf p).2.toList ++
        (assemble (reassemble conn.fragBuf p).1 (ps.map Prod.fst)).1
    rw [ih (fun x hx => h x (List.mem_cons_of_mem _ hx)), hbuf, handed, if_pos hfrag]

/-! ### The loop of `sendData` -/

/-- The packets that the loop of `sendData` sends, at most `fuel` of them, when nothing else is sent on the
connection. -/
def sendLoop (size : ℕ) : ℕ → Connection → Sender → List Packet
  | 0, _, _ => []
  | fuel + 1, conn, w =>
    let (chunk, fragmentID) := w.fragment size
    fragmentPacket conn chunk fragmentID ::
      match w.next size with
      | none => []
      | some w' => sendLoop size fuel (sendOneFragment conn chunk fragmentID) w'

/-- The packets that `sendData` sends: the id comes back to 0 with the 256th fragment, and the loop ends. -/
def sendFragments (settings : Settings) (conn : Connection) (data : Bytes) : List Packet :=
  if data.length ≤ fragSize settings then [fragmentPacket conn data 0]
  else sendLoop (fragSize settings) 256 conn (newSender data)

/-- Everything a step of the loop can do, when `n` more fragments may follow: it ends, and with the last of
the fragments in any case, or it goes on with the next id. -/
theorem sender_cases (size : ℕ) (hn : n ≤ 255) (hid : w.fragmentID = UInt8.ofNat (256 - n)) :
    (w.fragment size = (w.rest.take ((n + 1) * size), 0) ∧ w.next size = none) ∨
      ∃ m, n = m + 1 ∧ w.fragmentID ≠ 0 ∧ w.fragment size = (w.rest.take size, w.fragmentID) ∧
        w.next size = some ⟨w.data, w.rest.drop size, UInt8.ofNat (256 - m)⟩ := by
  by_cases hmore : size < w.rest.length
  · have hfrag : w.fragment size = (w.rest.take size, w.fragmentID) := if_pos hmore
    cases n with
    | zero =>
      have hzero : w.fragmentID = 0 := hid
      refine .inl ⟨?_, ?_⟩
      · rw [hfrag, hzero, Nat.zero_add, Nat.one_mul]
      · show (if (w.fragment size).2 = 0 then none else _) = none
        rw [hfrag, if_pos hzero]
    | succ m =>
      have hne : w.fragmentID ≠ 0 := by
        intro hzero
        have hnat := congrArg UInt8.toNat (hid.symm.trans hzero)
        rw [UInt8.toNat_ofNat_of_lt' (show 256 - (m + 1) < 2 ^ 8 by omega), UInt8.toNat_zero] at hnat
        omega
      have hsucc : w.fragmentID + 1 = UInt8.ofNat (256 - m) := by
        rw [hid, show 256 - m = 256 - (m + 1) + 1 by omega, UInt8.ofNat_add]
        rfl
      refine .inr ⟨m, rfl, hne, hfrag, ?_⟩
      show (if (w.fragment size).2 = 0 then none else some _) = _
      rw [hfrag, if_neg hne, hsucc]
  · obtain ⟨hfrag, hnext⟩ := next_of_last hmore
    have hall : w.rest.take ((n + 1) * size) = w.rest := by
      apply List.take_of_length_le
      rw [Nat.succ_mul]
      omega
    exact .inl ⟨by rw [hfrag, hall], hnext⟩

theorem sendLoop_last {chunk : Bytes} {fragmentID : UInt8} (hfrag : w.fragment size = (chunk, fragmentID))
    (hnext : w.next size = none) :
    sendLoop size (n + 1) conn w = [fragmentPacket conn chunk fragmentID] := by
  simp only [sendLoop, hfrag, hnext]

theorem sendLoop_more {w' : Sender} {chunk : Bytes} {fragmentID : UInt8}
    (hfrag : w.fragment size = (chunk, fragmentID)) (hnext : w.next size = some w') :
    sendLoop size (n + 1) conn w =
      fragmentPacket conn chunk fragmentID ::
        sendLoop size n (sendOneFragment conn chunk fragmentID) w' := by
  simp only [sendLoop, hfrag, hnext]

/-- The receiver gets one message: as much of the rest as the fragments that may follow can hold. -/
theorem assemble_sendLoop (hn : n ≤ 255) (hid : w.fragmentID = UInt8.ofNat (256 - n)) (conn : Connection)
    (buf : Bytes) :
    assemble buf (sendLoop size (n + 1) conn w) = ([buf ++ w.rest.take ((n + 1) * size)], []) := by
  induction n generalizing w conn buf with
  | zero =>
    rcases sender_cases size hn hid with ⟨hfrag, hnext⟩ | ⟨m, hm, -⟩
    · rw [sendLoop_last hfrag hnext]
      rfl
    · cases hm
  | succ n ih =>
    rcases sender_cases size hn hid with ⟨hfrag, hnext⟩ | ⟨m, hm, hne, hfrag, hnext⟩
    · rw [sendLoop_last hfrag hnext]
      rfl
    · cases hm
      have hrest : assemble (buf ++ w.rest.take size) (sendLoop size (n + 1)
          (sendOneFragment conn (w.rest.take size) w.fragmentID)
          ⟨w.data, w.rest.drop size, UInt8.ofNat (256 - n)⟩) =
            ([buf ++ w.rest.take size ++ (w.rest.drop size).take ((n + 1) * size)], []) :=
        ih (by omega) rfl _ _
      have hsplit : w.rest.take ((n + 1 + 1) * size) =
          w.rest.take size ++ (w.rest.drop size).take ((n + 1) * size) := by
        rw [Nat.succ_mul (n + 1), Nat.add_comm, List.take_add]
      rw [sendLoop_more hfrag hnext, hsplit, ← List.append_assoc, ← hrest, assemble, reassemble_fragment,
        if_neg hne]
      rfl

theorem assemble_sendFragments (settings : Settings) (conn : Connection) (data : Bytes) :
    assemble [] (sendFragments settings conn data) = ([data.take (256 * fragSize settings)], []) := by
  unfold sendFragments
  split
  · rename_i hshort
    have hall : data.take (256 * fragSize settings) = data := List.take_of_length_le (by omega)
    rw [hall]
    rfl
  · exact assemble_sendLoop (n := 255) (Nat.le_refl _) rfl conn []

theorem isFragment_fragmentPacket (conn : Connection) (chunk : Bytes) (fragmentID : UInt8) :
    IsFragment (fragmentPacket conn chunk fragmentID) := by
  refine ⟨rfl, ?_, ?_⟩
  · show ((Flag.reliable ||| Flag.needACK) &&& Flag.multiACK != 0) = false
    decide
  · show ((Flag.reliable ||| Flag.needACK) &&& Flag.ack != 0) = false
    decide

theorem isFragment_sendLoop (fuel : ℕ) (conn : Connection) (w : Sender) :
    ∀ p ∈ sendLoop size fuel conn w, IsFragment p := by
  induction fuel generalizing conn w with
  | zero =>
    intro p hp
    cases hp
  | succ fuel ih =>
    intro p hp
    rcases List.mem_cons.mp hp with rfl | hp
    · exact isFragment_fragmentPacket _ _ _
    · split at hp
      · cases hp
      · exact ih _ _ p hp

theorem isFragment_sendFragments (settings : Settings) (conn : Connection) (data : Bytes) :
    ∀ p ∈ sendFragments settings conn data, IsFragment p := by
  unfold sendFragments
  split
  · intro p hp
    rw [List.mem_singleton.mp hp]
    exact isFragment_fragmentPacket _ _ _
  · exact isFragment_sendLoop _ _ _

/-- One fragment of the only message that is being sent. -/
theorem sendStep_only (settings : Settings) {wire : List Packet} (hopen : conn.state ≠ .closed) :
    sendStep settings ⟨conn, wire, [w]⟩ (.fragment 0) =
      some ⟨sendOneFragment conn (w.fragment (fragSize settings)).1 (w.fragment (fragSize settings)).2,
        wire ++ [fragmentPacket conn (w.fragment (fragSize settings)).1
          (w.fragment (fragSize settings)).2], (w.next (fragSize settings)).toList⟩ := by
  show (if fragSize settings < w.data.length ∧ conn.state = .closed then _ else _) = _
  rw [if_neg (fun h => hopen h.2)]
  cases w.next (fragSize settings) with
  | none => rfl
  | some w' => rfl

/-- The loop is what the steps of the goroutine do when it is alone, and it comes to its end. -/
theorem run_sendLoop (settings : Settings) (hn : n ≤ 255) (hid : w.fragmentID = UInt8.ofNat (256 - n))
    (conn : Connection) (hopen : conn.state ≠ .closed) (wire : List Packet) :
    ∃ k conn', run (sendStep settings) ⟨conn, wire, [w]⟩ (List.replicate k (.fragment 0)) =
      some ⟨conn', wire ++ sendLoop (fragSize settings) (n + 1) conn w, []⟩ := by
  induction n generalizing w conn wire with
  | zero =>
    rcases sender_cases (fragSize settings) hn hid with ⟨hfrag, hnext⟩ | ⟨m, hm, -⟩
    · refine ⟨1, sendOneFragment conn (w.rest.take ((0 + 1) * fragSize settings)) 0, ?_⟩
      rw [List.replicate_one, run_cons, sendStep_only settings hopen, sendLoop_last hfrag hnext, hfrag, hnext]
      rfl
    · cases hm
  | succ n ih =>
    rcases sender_cases (fragSize settings) hn hid with ⟨hfrag, hnext⟩ | ⟨m, hm, -, hfrag, hnext⟩
    · refine ⟨1, sendOneFragment conn (w.rest.take ((n + 1 + 1) * fragSize settings)) 0, ?_⟩
      rw [List.replicate_one, run_cons, sendStep_only settings hopen, sendLoop_last hfrag hnext, hfrag, hnext]
      rfl
    · cases hm
      obtain ⟨k, conn', hrun⟩ := ih (w := ⟨w.data, w.rest.drop (fragSize settings), UInt8.ofNat (256 - n)⟩)
        (by omega) rfl
        (sendOneFragment conn (w.rest.take (fragSize settings)) w.fragmentID) hopen
        (wire ++ [fragmentPacket conn (w.rest.take (fragSize settings)) w.fragmentID])
      refine ⟨k + 1, conn', ?_⟩
      rw [List.replicate_succ, run_cons, sendStep_only settings hopen, hfrag, hnext]
      refine hrun.trans ?_
      rw [sendLoop_more hfrag hnext, List.append_assoc]
      rfl

theorem run_sendFragments (settings : Settings) (conn : Connection) (hopen : conn.state ≠ .closed)
    (data : Bytes) : ∃ k conn', run (sendStep settings) ⟨conn, [], [newSender data]⟩
      (List.replicate k (.fragment 0)) = some ⟨conn', sendFragments settings conn data, []⟩ := by
  unfold sendFragments
  split
  · rename_i hshort
    obtain ⟨hfrag, hnext⟩ := next_of_last (w := newSender data) (Nat.not_lt.mpr hshort)
    refine ⟨1, sendOneFragment conn data 0, ?_⟩
    rw [List.replicate_one, run_cons, sendStep_only settings hopen, hfrag, hnext]
    rfl
  · exact run_sendLoop settings (n := 255) (Nat.le_refl _) rfl conn hopen []

/-- The packets of `sendData`, each with what it finds outside when it comes in. -/
def arrivals (settings : Settings) (conn : Connection) (data : Bytes) (envs : ℕ → PacketEnv) :
    List (Packet × PacketEnv) :=
  (sendFragments settings conn data).zipIdx.map (fun x => (x.1, envs x.2))

theorem feed_arrivals (settings : Settings) (conn : Connection) (data : Bytes) (envs : ℕ → PacketEnv)
    (remoteAddr : RemoteAddr) :
    (feed e c (newConnection remoteAddr) (arrivals settings conn data envs)).2 =
      [data.take (256 * fragSize settings)] := by
  have hpackets : (arrivals settings conn data envs).map Prod.fst = sendFragments settings conn data := by
    unfold arrivals
    rw [List.map_map]
    exact List.zipIdx_map_fst _ _
  have hfrags : ∀ x ∈ arrivals settings conn data envs, IsFragment x.1 := by
    intro x hx
    have hmem : x.1 ∈ (arrivals settings conn data envs).map Prod.fst := List.mem_map_of_mem hx
    rw [hpackets] at hmem
    exact isFragment_sendFragments settings conn data x.1 hmem
  rw [feed_fragments hfrags, hpackets]
  exact congrArg Prod.fst (assemble_sendFragments settings conn data)

/-- **Fragmentation.**  The packets that `sendData` sends for `data` make a fresh connection dispatch `data`,
once and nothing else, exactly if 256 fragments hold it. -/
theorem fragmentation_round_trip (e : Config) (c : Sock) (settings : Settings) (conn : Connection)
    (remoteAddr : RemoteAddr) (envs : ℕ → PacketEnv) (data : Bytes) :
    (feed e c (newConnection remoteAddr) (arrivals settings conn data envs)).2 = [data] ↔
      data.length ≤ 256 * fragSize settings := by
  rw [feed_arrivals]
  constructor
  · intro h
    exact List.take_eq_self_iff data |>.mp (List.cons.inj h).1
  · intro h
    rw [List.take_of_length_le h]

/-- With the fragment size of the servers, a message of 332801 bytes arrives without its last byte. -/
theorem fragments_cut :
    (feed secureConfig 0 (newConnection .other)
        (arrivals lineSettings (newConnection .other) (List.replicate 332801 0) (fun _ => recallEnv 7))).2 =
      [List.replicate 332800 0] ∧ List.replicate 332800 (0 : UInt8) ≠ List.replicate 332801 0 := by
  have hsize : 256 * fragSize lineSettings = 332800 := rfl
  constructor
  · rw [feed_arrivals, hsize, List.take_replicate]
    rfl
  · intro h
    have hlen := congrArg List.length h
    rw [List.length_replicate, List.length_replicate] at hlen
    omega

/-! ### Runs of an endpoint -/

/-- The fragments for `c` among the labels of a run, in the order of their arrival. -/
def fragmentsTo (c : Sock) (ls : List Label) : List Packet :=
  ls.filterMap (fun l =>
    match l with
    | .packet c' p _ => if c' = c ∧ IsFragment p then some p else none
    | _ => none)

/-- The payload that a step hands to `dispatchRMC` for the connection `c`. -/
def handedBy (c : Sock) (s : State) : Label → Option Bytes
  | .packet c' p _ => if c' = c then (s.sockets.lookup c).bind (fun conn => handed conn p) else none
  | _ => none

/-- The payloads that a run hands to `dispatchRMC` for the connection `c`. -/
def payloads (crypto : Crypto) (e : Config) (c : Sock) : State → List Label → List Bytes
  | _, [] => []
  | s, l :: ls => (handedBy c s l).toList ++
    match exec crypto e s l with
    | none => []
    | some r => payloads crypto e c r.1 ls

/-- The bytes that wait on the connection `c`. -/
def waiting (c : Sock) (s : State) : Bytes :=
  match s.sockets.lookup c with
  | none => []
  | some conn => conn.fragBuf

/-- One step: a fragment goes through `reassemble`, anything else leaves the buffer alone. -/
theorem exec_assemble {r : State × List Effect} (h : exec crypto e s l = some r) :
    assemble (waiting c s) (fragmentsTo c [l]) = ((handedBy c s l).toList, waiting c r.1) := by
  have hbecomes := exec_becomes h c
  unfold waiting
  revert hbecomes
  generalize hafter : r.1.sockets.lookup c = after
  generalize hbefore : s.sockets.lookup c = before
  intro hbecomes
  cases hbecomes with
  | made hl =>
    subst hl
    rfl
  | absent hl =>
    cases l with
    | packet c' p env =>
      have hc : c' ≠ c := by
        rintro rfl
        exact hl p env rfl
      simp only [fragmentsTo, handedBy, List.filterMap_cons, List.filterMap_nil, hc, false_and, if_false]
      rfl
    | _ => rfl
  | @follows conn conn' hfollows =>
    rw [show (match some conn' with | none => [] | some conn => conn.fragBuf) = conn'.fragBuf from rfl,
      hfollows.fragBuf]
    cases l with
    | packet c' p env =>
      simp only [fragmentsTo, handedBy, fragBufAfter, handed, hbefore, List.filterMap_cons,
        List.filterMap_nil, Option.bind_some]
      by_cases hc : c' = c
      · by_cases hfrag : IsFragment p
        · simp only [hc, hfrag, and_self, if_true]
          show ((reassemble conn.fragBuf p).2.toList ++ [], (reassemble conn.fragBuf p).1) = _
          rw [List.append_nil]
        · simp only [hc, hfrag, and_false, if_true, if_false]
          rfl
      · simp only [hc, false_and, if_false]
        rfl
    | _ => rfl

theorem fragmentsTo_cons (c : Sock) (l : Label) (ls : List Label) :
    fragmentsTo c (l :: ls) = fragmentsTo c [l] ++ fragmentsTo c ls :=
  List.filterMap_append (l := [l])

/-- **A run.**  What is dispatched is what the fragments make when they are put together in the order of
their arrival. -/
theorem payloads_run {t t' : Logged} (h : run (step crypto e) t ls = some t') :
    payloads crypto e c t.1 ls = (assemble (waiting c t.1) (fragmentsTo c ls)).1 := by
  induction ls generalizing t with
  | nil => rfl
  | cons l ls ih =>
    obtain ⟨t₁, hstep, hrun⟩ := run_cons_some.mp h
    obtain ⟨r, hr, rfl⟩ := Option.map_eq_some_iff.mp hstep
    have hrest := ih hrun
    show (handedBy c t.1 l).toList ++ (match exec crypto e t.1 l with
      | none => []
      | some r => payloads crypto e c r.1 ls) = _
    rw [hr, fragmentsTo_cons, assemble_append, exec_assemble hr]
    exact congrArg ((handedBy c t.1 l).toList ++ ·) hrest

/-! ### The stream of a client -/

/-- The packets carry the message in pieces, and only the last one has the id 0. -/
inductive Splits : Bytes → List Packet → Prop
  | last {p : Packet} (hp : IsFragment p) (hid : p.fragmentID = 0) : Splits p.payload [p]
  | more {p : Packet} {data : Bytes} {ps : List Packet} (hp : IsFragment p) (hid : p.fragmentID ≠ 0)
      (h : Splits data ps) : Splits (p.payload ++ data) (p :: ps)

/-- The packets carry the messages one after the other. -/
inductive Carries : List Bytes → List Packet → Prop
  | nil : Carries [] []
  | cons {data : Bytes} {messages : List Bytes} {ps wire : List Packet} (h : Splits data ps)
      (t : Carries messages wire) : Carries (data :: messages) (ps ++ wire)

/-- What a client sends: its messages in fragments, with consecutive ids. -/
structure ClientStream (messages : List Bytes) (wire : List Packet) : Prop where
  carries : Carries messages wire
  ids : ∃ first : UInt16, wire.map (fun p => p.packetID) =
    (List.range wire.length).map (fun k => first + UInt16.ofNat k)

theorem assemble_splits {data : Bytes} {ps : List Packet} (h : Splits data ps) (buf : Bytes) :
    assemble buf ps = ([buf ++ data], []) := by
  induction h generalizing buf with
  | @last p _ hid =>
    rw [assemble, reassemble, if_pos hid]
    rfl
  | @more p data ps _ hid _ ih =>
    rw [assemble, reassemble, if_neg hid]
    show ([] ++ (assemble (buf ++ p.payload) ps).1, (assemble (buf ++ p.payload) ps).2) = _
    rw [ih, List.nil_append, List.append_assoc]

theorem assemble_carries {messages : List Bytes} {wire : List Packet} (h : Carries messages wire) :
    assemble [] wire = (messages, []) := by
  induction h with
  | nil => rfl
  | cons hdata _ ih =>
    rw [assemble_append, assemble_splits hdata, ih]
    rfl

/-- **The inbound stream.**  In every run in which the fragments of a client come once and in the order in
which they were sent, the payloads that are dispatched for its connection are its messages, each once and in
order; whatever else happens at the endpoint in between. -/
theorem inbound_stream (crypto : Crypto) (e : Config) (c : Sock) (messages : List Bytes) (wire : List Packet)
    (hsent : ClientStream messages wire) (ls : List Label) (t : Logged)
    (h : run (step crypto e) start ls = some t) (hinorder : fragmentsTo c ls = wire) :
    payloads crypto e c newEndpoint ls = messages := by
  have hrun : payloads crypto e c newEndpoint ls = (assemble [] (fragmentsTo c ls)).1 := payloads_run h
  rw [hrun, hinorder, assemble_carries hsent.carries]

/-- A fragment of a client. -/
def piece (fragmentID : UInt8) (packetID : UInt16) (payload : Bytes) : Packet :=
  { type := PacketType.data, fragmentID, packetID, payload }

/-- A message in two fragments. -/
theorem twoPieces : ClientStream [[1, 2]] [piece 1 1 [1], piece 0 2 [2]] where
  carries := .cons (.more (p := piece 1 1 [1]) (by decide) (by decide)
    (.last (p := piece 0 2 [2]) (by decide) rfl)) .nil
  ids := ⟨1, by decide⟩

/-- Two clients, the fragments of one between those of the other. -/
def interleavedTrace : List Label :=
  [.accept 0 .other, .accept 1 .other, .packet 0 (piece 1 1 [1]) (recallEnv 7),
    .packet 1 (piece 1 1 [9]) (recallEnv 8), .packet 0 (piece 0 2 [2]) (recallEnv 7)]

theorem inbound_stream_interleaved : ∃ t,
    run (step plainCrypto secureConfig) start interleavedTrace = some t ∧
      payloads plainCrypto secureConfig 0 newEndpoint interleavedTrace = [[1, 2]] :=
  ⟨_, rfl, inbound_stream plainCrypto secureConfig 0 _ _ twoPieces interleavedTrace _ rfl (by decide)⟩

/-- **A repeated packet is dispatched again, and a fragment that overtakes another breaks the message.** -/
theorem stream_broken :
    (ClientStream [[1]] [piece 0 1 [1]] ∧
      (run (step plainCrypto secureConfig) start [.accept 0 .other,
        .packet 0 (piece 0 1 [1]) (recallEnv 7), .packet 0 (piece 0 1 [1]) (recallEnv 7)]).isSome ∧
      payloads plainCrypto secureConfig 0 newEndpoint [.accept 0 .other,
        .packet 0 (piece 0 1 [1]) (recallEnv 7), .packet 0 (piece 0 1 [1]) (recallEnv 7)] = [[1], [1]]) ∧
    ClientStream [[1, 2]] [piece 1 1 [1], piece 0 2 [2]] ∧
      (run (step plainCrypto secureConfig) start [.accept 0 .other,
        .packet 0 (piece 0 2 [2]) (recallEnv 7), .packet 0 (piece 1 1 [1]) (recallEnv 7)]).isSome ∧
      payloads plainCrypto secureConfig 0 newEndpoint [.accept 0 .other,
        .packet 0 (piece 0 2 [2]) (recallEnv 7), .packet 0 (piece 1 1 [1]) (recallEnv 7)] = [[2]] := by
  refine ⟨⟨⟨?_, 1, by decide⟩, rfl, rfl⟩, twoPieces, rfl, rfl⟩
  exact .cons (.last (p := piece 0 1 [1]) (by decide) rfl) .nil

end NextendoMatchmaking.Endpoint
