import Mathlib.Data.List.Sort
import NextendoMatchmaking.Endpoint.Connection
import NextendoMatchmaking.Library.Runs

/-!
# Fragments of concurrent messages

Any number of goroutines pass messages to `SendRMC` of one connection.  A short message is one call of
`sendOneFragment`, a long one a loop of such calls in a goroutine of its own, and the calls of different
messages are interleaved by the scheduler.  The receiver orders the packets by their ids and reassembles them
as `processData` does.

Fragments carry no mark of the message they belong to.  A message that is sent between two fragments of
another one is taken for a part of it (`messages_mixed`).  If no fragment is sent while another message is
partly sent, the receiver gets every message, once and intact, in whatever order the packets arrive
(`message_integrity`).
-/

namespace NextendoMatchmaking.Endpoint

open NextendoMatchmaking.Runs

variable {buf : Bytes} {size : ℕ} {senders : List Sender} {wire : List Packet}

/-! ### Sending and receiving -/

/-- A connection, the packets it has sent, and the messages it is sending. -/
structure Line where
  conn : Connection
  wire : List Packet
  senders : List Sender

/-- A connection that has sent nothing yet. -/
def idleLine (conn : Connection) : Line := ⟨conn, [], []⟩

inductive SendLabel
  /-- A goroutine calls `SendRMC`. -/
  | call (msg : RMCMessage)
  /-- The next step of the `i`-th message that is being sent. -/
  | fragment (i : ℕ)
  | close

/-- One step of the senders of a connection.  Only the goroutine of a long message looks at the state before
each fragment, and gives up when the connection is closed. -/
def sendStep (settings : Settings) (s : Line) : SendLabel → Option Line
  | .call msg => some { s with senders := s.senders ++ [newSender msg.encode] }
  | .close => some { s with conn := { s.conn with state := .closed } }
  | .fragment i =>
    match s.senders[i]? with
    | none => none
    | some w =>
      let size := fragSize settings
      if size < w.data.length ∧ s.conn.state = .closed then
        some { s with senders := s.senders.eraseIdx i }
      else
        let (chunk, fragmentID) := w.fragment size
        some {
          conn := sendOneFragment s.conn chunk fragmentID
          wire := s.wire ++ [fragmentPacket s.conn chunk fragmentID]
          senders := match w.next size with
            | none => s.senders.eraseIdx i
            | some w' => s.senders.set i w' }

/-- The messages that `processData` completes, and what it leaves in the buffer. -/
def assemble (buf : Bytes) : List Packet → List Bytes × Bytes
  | [] => ([], buf)
  | p :: ps =>
    let (buf, full) := reassemble buf p
    let (messages, rest) := assemble buf ps
    (full.toList ++ messages, rest)

/-- A receiver that orders the packets by their ids and reassembles them. -/
def receive (ps : List Packet) : List Bytes :=
  (assemble [] (ps.mergeSort (fun a b => decide (a.packetID ≤ b.packetID)))).1

/-- The messages that were passed to `SendRMC`, encoded. -/
def messages (ls : List SendLabel) : List Bytes :=
  ls.filterMap (fun l =>
    match l with
    | .call msg => some msg.encode
    | _ => none)

/-- Nothing of the message has been sent yet. -/
def Sender.Unsent (w : Sender) : Prop := w.rest = w.data

/-- A fragment is sent only when no other message is partly sent, and a long message is not sent on a closed
connection. -/
def Alone (settings : Settings) (s : Line) : SendLabel → Prop
  | .fragment i =>
    (∀ (j : ℕ) (w : Sender), j ≠ i → s.senders[j]? = some w → w.Unsent) ∧
      ∀ w : Sender, s.senders[i]? = some w → fragSize settings < w.data.length → s.conn.state ≠ .closed
  | _ => True

variable {settings : Settings} {s s' : Line} {ls : List SendLabel} {w : Sender} {i : ℕ}

/-! ### Reassembly -/

theorem assemble_append (buf : Bytes) (ps qs : List Packet) :
    assemble buf (ps ++ qs) =
      ((assemble buf ps).1 ++ (assemble (assemble buf ps).2 qs).1, (assemble (assemble buf ps).2 qs).2) := by
  induction ps generalizing buf with
  | nil => rfl
  | cons p ps ih =>
    show ((reassemble buf p).2.toList ++ (assemble (reassemble buf p).1 (ps ++ qs)).1,
      (assemble (reassemble buf p).1 (ps ++ qs)).2) = _
    rw [ih]
    show _ = ((reassemble buf p).2.toList ++ (assemble (reassemble buf p).1 ps).1 ++ _, _)
    rw [List.append_assoc]
    rfl

theorem reassemble_fragment (conn : Connection) (buf chunk : Bytes) (fragmentID : UInt8) :
    reassemble buf (fragmentPacket conn chunk fragmentID) =
      if fragmentID = 0 then ([], some (buf ++ chunk)) else (buf ++ chunk, none) := rfl

/-- One more packet on the wire. -/
theorem assemble_snoc {done : List Bytes} {ps : List Packet} (p : Packet) (h : assemble [] ps = (done, buf)) :
    assemble [] (ps ++ [p]) = (done ++ (reassemble buf p).2.toList, (reassemble buf p).1) := by
  rw [assemble_append, h]
  show (done ++ ((reassemble buf p).2.toList ++ []), _) = _
  rw [List.append_nil]
  rfl

/-! ### One message -/

theorem fragSize_pos (settings : Settings) : 0 < fragSize settings := by
  unfold fragSize
  split
  · decide
  · omega

/-- The id of the next fragment says how much has been sent; the message has at most 255 fragments. -/
structure SenderInv (size : ℕ) (w : Sender) : Prop where
  pos : 1 ≤ w.fragmentID.toNat
  length : w.data.length = (w.fragmentID.toNat - 1) * size + w.rest.length
  short : w.data.length ≤ 255 * size

theorem senderInv_new {data : Bytes} (h : data.length ≤ 255 * size) : SenderInv size (newSender data) :=
  ⟨Nat.le_refl 1, by simp [newSender], h⟩

/-- While more than one fragment is left, its id does not wrap. -/
theorem fragmentID_lt (h : SenderInv size w) (hmore : size < w.rest.length) : w.fragmentID.toNat < 255 := by
  have hpos := h.pos
  have hlen := h.length
  have hshort := h.short
  obtain ⟨k, hk⟩ : ∃ k, w.fragmentID.toNat = k + 1 := ⟨w.fragmentID.toNat - 1, by omega⟩
  rw [hk, Nat.add_sub_cancel] at hlen
  have hlt : (k + 1) * size < 255 * size := by
    rw [Nat.succ_mul]
    omega
  have := Nat.lt_of_mul_lt_mul_right hlt
  omega

/-- The message goes on after a fragment that is not the last. -/
theorem next_of_more (h : SenderInv size w) (hmore : size < w.rest.length) :
    w.fragment size = (w.rest.take size, w.fragmentID) ∧ w.fragmentID ≠ 0 ∧
      w.next size = some ⟨w.data, w.rest.drop size, w.fragmentID + 1⟩ := by
  have hfrag : w.fragment size = (w.rest.take size, w.fragmentID) := by
    unfold Sender.fragment
    rw [if_pos hmore]
  have hne : w.fragmentID ≠ 0 := by
    intro hzero
    have hpos := h.pos
    rw [hzero] at hpos
    exact absurd hpos (by decide)
  refine ⟨hfrag, hne, ?_⟩
  unfold Sender.next
  rw [hfrag, if_neg hne]

theorem next_of_last (hlast : ¬ size < w.rest.length) : w.fragment size = (w.rest, 0) ∧ w.next size = none := by
  have hfrag : w.fragment size = (w.rest, 0) := by
    unfold Sender.fragment
    rw [if_neg hlast]
  refine ⟨hfrag, ?_⟩
  unfold Sender.next
  rw [hfrag, if_pos rfl]

theorem senderInv_next (h : SenderInv size w) (hmore : size < w.rest.length) :
    SenderInv size ⟨w.data, w.rest.drop size, w.fragmentID + 1⟩ := by
  have hlt := fragmentID_lt h hmore
  have hpos := h.pos
  have hlen := h.length
  have hnext : (w.fragmentID + 1).toNat = w.fragmentID.toNat + 1 := by
    rw [UInt8.toNat_add, UInt8.toNat_one, Nat.mod_eq_of_lt (by omega)]
  obtain ⟨k, hk⟩ : ∃ k, w.fragmentID.toNat = k + 1 := ⟨w.fragmentID.toNat - 1, by omega⟩
  refine ⟨by rw [hnext]; omega, ?_, h.short⟩
  show w.data.length = ((w.fragmentID + 1).toNat - 1) * size + (w.rest.drop size).length
  rw [hnext, List.length_drop, Nat.add_sub_cancel, hlen, hk, Nat.add_sub_cancel, Nat.succ_mul]
  omega

/-! ### All messages -/

/-- The buffer of the receiver belongs to the message that is partly sent, if there is one. -/
structure Solo (senders : List Sender) (buf : Bytes) : Prop where
  empty : (∀ w ∈ senders, w.Unsent) → buf = []
  alone : ∀ (i : ℕ) (w : Sender), senders[i]? = some w →
    (∀ (j : ℕ) (w' : Sender), j ≠ i → senders[j]? = some w' → w'.Unsent) → buf ++ w.rest = w.data

theorem solo_call (h : Solo senders buf) (data : Bytes) : Solo (senders ++ [newSender data]) buf := by
  have hold : ∀ {j : ℕ} {w : Sender}, senders[j]? = some w → (senders ++ [newSender data])[j]? = some w := by
    intro j w hj
    obtain ⟨hlt, -⟩ := List.getElem?_eq_some_iff.mp hj
    rw [List.getElem?_append_left hlt, hj]
  refine ⟨fun hall => h.empty (fun w hw => hall w (List.mem_append_left _ hw)), ?_⟩
  intro i w hi hothers
  by_cases hlt : i < senders.length
  · rw [List.getElem?_append_left hlt] at hi
    exact h.alone i w hi (fun j w' hj hw' => hothers j w' hj (hold hw'))
  · -- The new message: everything before it is unsent, so the buffer is empty.
    have hbuf : buf = [] := by
      apply h.empty
      intro w' hw'
      obtain ⟨j, hj, rfl⟩ := List.mem_iff_getElem.mp hw'
      exact hothers j _ (by omega) (hold (List.getElem?_eq_getElem hj))
    rw [List.getElem?_append_right (by omega)] at hi
    have hw : w = newSender data := by
      have hmem := List.mem_of_getElem? hi
      exact List.mem_singleton.mp hmem
    rw [hbuf, hw]
    rfl

/-- A fragment that is not the last. -/
theorem solo_more (hinv : SenderInv size w) (hsize : 0 < size) (hw : senders[i]? = some w)
    (hmore : size < w.rest.length) (hdata : buf ++ w.rest = w.data) :
    Solo (senders.set i ⟨w.data, w.rest.drop size, w.fragmentID + 1⟩) (buf ++ w.rest.take size) := by
  obtain ⟨hlt, -⟩ := List.getElem?_eq_some_iff.mp hw
  have hself : (senders.set i ⟨w.data, w.rest.drop size, w.fragmentID + 1⟩)[i]? =
      some ⟨w.data, w.rest.drop size, w.fragmentID + 1⟩ := by
    rw [List.getElem?_set_self hlt]
  have hstarted : ¬ Sender.Unsent ⟨w.data, w.rest.drop size, w.fragmentID + 1⟩ := by
    intro hunsent
    have hlen := congrArg List.length hunsent
    have hdlen := hinv.length
    change (w.rest.drop size).length = w.data.length at hlen
    rw [List.length_drop] at hlen
    omega
  refine ⟨fun hall => absurd (hall _ (List.mem_of_getElem? hself)) hstarted, ?_⟩
  intro j w' hj hothers
  by_cases hij : j = i
  · subst hij
    obtain rfl := Option.some.inj (hself.symm.trans hj)
    show buf ++ w.rest.take size ++ w.rest.drop size = w.data
    rw [List.append_assoc, List.take_append_drop, hdata]
  · exact absurd (hothers i _ (Ne.symm hij) hself) hstarted

/-- The last fragment of a message. -/
theorem solo_last (hothers : ∀ (j : ℕ) (w' : Sender), j ≠ i → senders[j]? = some w' → w'.Unsent) :
    Solo (senders.eraseIdx i) [] := by
  have hunsent : ∀ w ∈ senders.eraseIdx i, w.Unsent := by
    intro w hw
    obtain ⟨j, hj, hne, rfl⟩ := List.mem_eraseIdx_iff_getElem.mp hw
    exact hothers j _ hne (List.getElem?_eq_getElem _)
  refine ⟨fun _ => rfl, fun j w hj _ => ?_⟩
  rw [List.nil_append]
  exact hunsent w (List.mem_of_getElem? hj)

/-- What holds along a run in which messages are sent alone: the packets are numbered from 1 on, and what the
receiver has completed, with what is still being sent, is what was passed to `SendRMC`. -/
structure LineInv (size : ℕ) (ls : List SendLabel) (s : Line) : Prop where
  counter : s.conn.outReliable = UInt16.ofNat (s.wire.length + 1)
  ids : s.wire.map (fun p => p.packetID) =
    (List.range s.wire.length).map (fun k => UInt16.ofNat (k + 1))
  senders : ∀ w ∈ s.senders, SenderInv size w
  assembled : ∃ done buf, assemble [] s.wire = (done, buf) ∧
    (done ++ s.senders.map (fun w => w.data)).Perm (messages ls) ∧ Solo s.senders buf

theorem lineInv_idle (size : ℕ) {conn : Connection} (h : conn.outReliable = 1) :
    LineInv size [] (idleLine conn) where
  counter := h
  ids := rfl
  senders := by simp [idleLine]
  assembled := ⟨[], [], rfl, .refl _, ⟨fun _ => rfl, by simp [idleLine]⟩⟩

theorem messages_append (ls ls' : List SendLabel) : messages (ls ++ ls') = messages ls ++ messages ls' :=
  List.filterMap_append

/-- The numbering of the packets after one more. -/
theorem ids_snoc {p : Packet} (hp : p.packetID = UInt16.ofNat (wire.length + 1))
    (h : wire.map (fun p => p.packetID) = (List.range wire.length).map (fun k => UInt16.ofNat (k + 1))) :
    (wire ++ [p]).map (fun p => p.packetID) =
      (List.range (wire ++ [p]).length).map (fun k => UInt16.ofNat (k + 1)) := by
  rw [List.map_append, h, List.length_append, List.length_singleton, List.range_succ, List.map_append]
  simp [hp]

theorem counter_succ (n : ℕ) : UInt16.ofNat (n + 1) + 1 = UInt16.ofNat (n + 1 + 1) := by
  rw [UInt16.ofNat_add (n + 1) 1]
  rfl

/-- A fragment on the wire: the counters go on, and the rest is up to the receiver and the senders. -/
theorem lineInv_sent {ls' : List SendLabel} {done : List Bytes} {chunk : Bytes} {fragmentID : UInt8}
    (hi : LineInv size ls s) (hs : ∀ w ∈ senders, SenderInv size w)
    (hasm : assemble [] (s.wire ++ [fragmentPacket s.conn chunk fragmentID]) = (done, buf))
    (hperm : (done ++ senders.map (fun w => w.data)).Perm (messages ls')) (hsolo : Solo senders buf) :
    LineInv size ls' ⟨sendOneFragment s.conn chunk fragmentID,
      s.wire ++ [fragmentPacket s.conn chunk fragmentID], senders⟩ := by
  refine ⟨?_, ids_snoc hi.counter hi.ids, hs, done, buf, hasm, hperm, hsolo⟩
  show s.conn.outReliable + 1 = _
  rw [hi.counter, List.length_append, List.length_singleton]
  exact counter_succ _

/-- A fragment of a message that is sent alone. -/
theorem lineInv_fragment (hi : LineInv (fragSize settings) ls s) (hw : s.senders[i]? = some w)
    (hothers : ∀ (j : ℕ) (w' : Sender), j ≠ i → s.senders[j]? = some w' → w'.Unsent) :
    LineInv (fragSize settings) ls
      ⟨sendOneFragment s.conn (w.fragment (fragSize settings)).1 (w.fragment (fragSize settings)).2,
        s.wire ++ [fragmentPacket s.conn (w.fragment (fragSize settings)).1
          (w.fragment (fragSize settings)).2],
        match w.next (fragSize settings) with
        | none => s.senders.eraseIdx i
        | some w' => s.senders.set i w'⟩ := by
  obtain ⟨done, buf, hasm, hperm, hsolo⟩ := hi.assembled
  obtain ⟨hlt, hget⟩ := List.getElem?_eq_some_iff.mp hw
  have hinv := hi.senders w (List.mem_of_getElem? hw)
  have hdata := hsolo.alone i w hw hothers
  by_cases hmore : fragSize settings < w.rest.length
  · obtain ⟨hfrag, hne, hnext⟩ := next_of_more hinv hmore
    rw [hfrag, hnext]
    have hasm' : assemble [] (s.wire ++ [fragmentPacket s.conn (w.rest.take (fragSize settings))
        w.fragmentID]) = (done, buf ++ w.rest.take (fragSize settings)) := by
      rw [assemble_snoc _ hasm, reassemble_fragment, if_neg hne]
      exact Prod.ext (List.append_nil done) rfl
    refine lineInv_sent hi ?_ hasm' ?_ (solo_more hinv (fragSize_pos settings) hw hmore hdata)
    · intro w' hw'
      rcases List.mem_or_eq_of_mem_set hw' with hold | rfl
      · exact hi.senders w' hold
      · exact senderInv_next hinv hmore
    · have hsame : (s.senders.set i ⟨w.data, w.rest.drop (fragSize settings), w.fragmentID + 1⟩).map
          (fun w => w.data) = s.senders.map (fun w => w.data) := by
        have hself : (s.senders.map (fun w => w.data)).get ⟨i, by rw [List.length_map]; exact hlt⟩ =
            w.data := by simp [hget]
        rw [List.map_set, ← hself]
        exact List.set_getElem_self _
      rw [hsame]
      exact hperm
  · obtain ⟨hfrag, hnext⟩ := next_of_last hmore
    rw [hfrag, hnext]
    have hasm' : assemble [] (s.wire ++ [fragmentPacket s.conn w.rest 0]) = (done ++ [w.data], []) := by
      rw [assemble_snoc _ hasm, reassemble_fragment, if_pos rfl, hdata]
      rfl
    refine lineInv_sent hi ?_ hasm' ?_ (solo_last hothers)
    · intro w' hw'
      exact hi.senders w' (List.mem_of_mem_eraseIdx hw')
    · have hback : (w :: s.senders.eraseIdx i).Perm s.senders :=
        hget ▸ List.getElem_cons_eraseIdx_perm hlt
      rw [List.append_assoc]
      exact ((hback.map (fun w => w.data)).append_left done).trans hperm

/-- **One step of the senders.** -/
theorem lineInv_step {l : SendLabel} (hi : LineInv (fragSize settings) ls s) (ha : Alone settings s l)
    (hshort : ∀ data ∈ messages (ls ++ [l]), data.length ≤ 255 * fragSize settings)
    (h : sendStep settings s l = some s') : LineInv (fragSize settings) (ls ++ [l]) s' := by
  have hmsgs := messages_append ls [l]
  cases l with
  | call msg =>
    cases h
    obtain ⟨done, buf, hasm, hperm, hsolo⟩ := hi.assembled
    refine ⟨hi.counter, hi.ids, ?_, done, buf, hasm, ?_, solo_call hsolo _⟩
    · intro w hw
      rcases List.mem_append.mp hw with hw | hw
      · exact hi.senders w hw
      · rw [List.mem_singleton.mp hw]
        exact senderInv_new (hshort _ (by rw [hmsgs]; exact List.mem_append_right _ List.mem_cons_self))
    · rw [hmsgs, List.map_append, ← List.append_assoc]
      exact hperm.append_right _
  | close =>
    cases h
    refine ⟨hi.counter, hi.ids, hi.senders, ?_⟩
    rw [hmsgs]
    exact (List.append_nil (messages ls)).symm ▸ hi.assembled
  | fragment i =>
    obtain ⟨hothers, hopen⟩ := ha
    simp only [sendStep] at h
    split at h
    · cases h
    · rename_i w hw
      split at h
      · rename_i hclosed
        exact absurd hclosed.2 (hopen w hw hclosed.1)
      · cases h
        have hi' := lineInv_fragment hi hw hothers
        refine ⟨hi'.counter, hi'.ids, hi'.senders, ?_⟩
        rw [hmsgs]
        exact (List.append_nil (messages ls)).symm ▸ hi'.assembled

/-! ### The receiver -/

/-- The `k`-th packet on the wire has the id `k + 1`. -/
theorem packetID_getElem {k : ℕ} (hlen : wire.length < 2 ^ 16) (hk : k < wire.length)
    (hids : wire.map (fun p => p.packetID) = (List.range wire.length).map (fun k => UInt16.ofNat (k + 1))) :
    wire[k].packetID.toNat = k + 1 := by
  have hmap : (wire.map (fun p => p.packetID))[k]? =
      ((List.range wire.length).map (fun k => UInt16.ofNat (k + 1)))[k]? := by rw [hids]
  rw [List.getElem?_map, List.getElem?_map, List.getElem?_eq_getElem hk, List.getElem?_range hk,
    Option.map_some, Option.map_some, Option.some.injEq] at hmap
  rw [hmap]
  exact UInt16.toNat_ofNat_of_lt' (Nat.lt_of_le_of_lt hk hlen)

/-- Packets that are numbered in the order in which they were sent are put back in that order. -/
theorem receive_of_perm {ps : List Packet} (hlen : wire.length < 2 ^ 16)
    (hids : wire.map (fun p => p.packetID) = (List.range wire.length).map (fun k => UInt16.ofNat (k + 1)))
    (hps : ps.Perm wire) : receive ps = (assemble [] wire).1 := by
  have hid : ∀ {k : ℕ} (hk : k < wire.length), wire[k].packetID.toNat = k + 1 :=
    fun hk => packetID_getElem hlen hk hids
  have hsorted : (ps.mergeSort (fun a b => decide (a.packetID ≤ b.packetID))).Pairwise
      (fun a b => a.packetID ≤ b.packetID) := by
    have hpw : (ps.mergeSort (fun a b => decide (a.packetID ≤ b.packetID))).Pairwise
        (fun a b => decide (a.packetID ≤ b.packetID) = true) := by
      apply List.pairwise_mergeSort
      · intro a b c hab hbc
        simp only [decide_eq_true_eq] at hab hbc ⊢
        exact UInt16.le_trans hab hbc
      · intro a b
        simpa using UInt16.le_total _ _
    simpa only [decide_eq_true_eq] using hpw
  have hwire : wire.Pairwise (fun a b => a.packetID ≤ b.packetID) := by
    rw [List.pairwise_iff_getElem]
    intro i j hi hj hij
    rw [UInt16.le_iff_toNat_le, hid hi, hid hj]
    omega
  have hsort : ps.mergeSort (fun a b => decide (a.packetID ≤ b.packetID)) = wire := by
    refine List.Perm.eq_of_pairwise ?_ hsorted hwire ((List.mergeSort_perm ps _).trans hps)
    intro a b ha hb hab hba
    obtain ⟨i, hi, rfl⟩ := List.mem_iff_getElem.mp (((List.mergeSort_perm ps _).trans hps).mem_iff.mp ha)
    obtain ⟨j, hj, rfl⟩ := List.mem_iff_getElem.mp hb
    rw [UInt16.le_iff_toNat_le, hid hi, hid hj] at hab
    rw [UInt16.le_iff_toNat_le, hid hi, hid hj] at hba
    have hij : i = j := by omega
    subst hij
    rfl
  unfold receive
  rw [hsort]

/-- **Message integrity.**  Let messages be passed to `SendRMC` of a connection that has sent nothing yet, and
let every fragment be sent while no other message is partly sent.  When all of them are sent, with fewer than
`2 ^ 16` fragments in total and 256 in each, the receiver gets exactly these messages, each once, in whatever
order the packets arrive. -/
theorem message_integrity (settings : Settings) (conn : Connection) (hconn : conn.outReliable = 1)
    (ls : List SendLabel) (s : Line) (h : run (sendStep settings) (idleLine conn) ls = some s)
    (hsteps : Steps (sendStep settings) (Alone settings) (idleLine conn) ls) (hdone : s.senders = [])
    (hcount : s.wire.length < 65536)
    (hshort : ∀ data ∈ messages ls, data.length ≤ 255 * fragSize settings) (ps : List Packet)
    (hps : ps.Perm s.wire) : (receive ps).Perm (messages ls) := by
  have hi : (∀ data ∈ messages ls, data.length ≤ 255 * fragSize settings) →
      LineInv (fragSize settings) ls s := by
    refine run_history_of_steps (P := fun ls s => (∀ data ∈ messages ls, data.length ≤
      255 * fragSize settings) → LineInv (fragSize settings) ls s) ?_ ?_ hsteps h
    · intro _
      exact lineInv_idle _ hconn
    · intro ls s l s' ha hprev hstep hall
      refine lineInv_step (hprev (fun data hdata => hall data ?_)) ha hall hstep
      rw [messages_append]
      exact List.mem_append_left _ hdata
  obtain ⟨done, buf, hasm, hperm, -⟩ := (hi hshort).assembled
  rw [receive_of_perm hcount (hi hshort).ids hps, hasm]
  rw [hdone, List.map_nil, List.append_nil] at hperm
  exact hperm

/-! ### Two messages at once -/

def shortMessage : RMCMessage := newRMCSuccess 0x6D 2 2 []

/-- Fragments of 16 bytes, and a message of two such fragments. -/
def smallSettings : Settings := { newSwitchSettings [] 40000 with fragmentSize := 16 }
def mediumMessage : RMCMessage := newRMCSuccess 0x6D 1 1 (List.replicate 8 0)

/-- The short message is sent after the other one. -/
def orderlySends : List SendLabel :=
  [.call mediumMessage, .call shortMessage, .fragment 0, .fragment 0, .fragment 0]

/-- The first message may go on when nothing of the others has been sent. -/
theorem alone_first {others : List Sender} (hs : s.senders = w :: others)
    (hothers : ∀ w' ∈ others, w'.Unsent) (hopen : s.conn.state ≠ .closed) :
    Alone settings s (.fragment 0) := by
  refine ⟨fun j w' hj hw' => ?_, fun _ _ _ => hopen⟩
  obtain ⟨k, rfl⟩ := Nat.exists_eq_succ_of_ne_zero hj
  rw [hs, List.getElem?_cons_succ] at hw'
  exact hothers w' (List.mem_of_getElem? hw')

theorem alone_orderlySends :
    Steps (sendStep smallSettings) (Alone smallSettings) (idleLine (newConnection .other)) orderlySends := by
  have hunsent : ∀ w' ∈ [newSender shortMessage.encode], w'.Unsent := by
    intro w' hw'
    rw [List.mem_singleton.mp hw']
    rfl
  refine ⟨trivial, fun s₁ h₁ => ⟨trivial, fun s₂ h₂ => ⟨?_, fun s₃ h₃ => ⟨?_, fun s₄ h₄ =>
    ⟨?_, fun _ _ => trivial⟩⟩⟩⟩⟩
  · cases h₁
    cases h₂
    exact alone_first rfl hunsent (by decide)
  · cases h₁
    cases h₂
    cases h₃
    exact alone_first rfl hunsent (by decide)
  · cases h₁
    cases h₂
    cases h₃
    cases h₄
    exact alone_first rfl (by simp) (by decide)

theorem message_integrity_orderly : ∃ s,
    run (sendStep smallSettings) (idleLine (newConnection .other)) orderlySends = some s ∧
      s.wire.length = 3 ∧ (receive s.wire.reverse).Perm [mediumMessage.encode, shortMessage.encode] :=
  ⟨_, rfl, rfl, message_integrity smallSettings (newConnection .other) rfl orderlySends _ rfl
    alone_orderlySends rfl (by decide) (by decide) _ (List.reverse_perm _)⟩

def lineSettings : Settings := newSwitchSettings [] 40000

/-- A message of two fragments of the size that the servers use. -/
def longMessage : RMCMessage := newRMCSuccess 0x6D 1 1 (List.replicate 1300 0)

/-- The short message is sent between the fragments of the long one. -/
def mixedSends : List SendLabel :=
  [.call longMessage, .call shortMessage, .fragment 0, .fragment 1, .fragment 0]

theorem eval_mixedSends :
    (run (sendStep lineSettings) (idleLine (newConnection .other)) mixedSends).map
        (fun s => (s.senders.length, s.wire.map (fun p => p.packetID), (assemble [] s.wire).1)) =
      some (0, [1, 2, 3], [longMessage.encode.take 1300 ++ shortMessage.encode,
        longMessage.encode.drop 1300]) := by
  decide +kernel

/-- **Messages are mixed up.**  The receiver takes the short message for a part of the long one, and the rest
of the long one for a message. -/
theorem messages_mixed : ∃ s,
    run (sendStep lineSettings) (idleLine (newConnection .other)) mixedSends = some s ∧ s.senders = [] ∧
      receive s.wire = [longMessage.encode.take 1300 ++ shortMessage.encode,
        longMessage.encode.drop 1300] ∧
      ¬ (receive s.wire).Perm (messages mixedSends) := by
  obtain ⟨s, hs, heval⟩ := Option.map_eq_some_iff.mp eval_mixedSends
  simp only [Prod.mk.injEq] at heval
  obtain ⟨hsenders, hids, hasm⟩ := heval
  have hlen : s.wire.length = 3 := by
    rw [← List.length_map (fun p : Packet => p.packetID), hids]
    rfl
  have hreceive : receive s.wire = [longMessage.encode.take 1300 ++ shortMessage.encode,
      longMessage.encode.drop 1300] := by
    rw [receive_of_perm (by omega) (by rw [hids, hlen]; rfl) (.refl _), hasm]
  refine ⟨s, hs, List.eq_nil_of_length_eq_zero hsenders, hreceive, fun hperm => ?_⟩
  have hmem : shortMessage.encode ∈ receive s.wire := hperm.mem_iff.mpr (by decide +kernel)
  rw [hreceive] at hmem
  exact absurd hmem (by decide +kernel)

end NextendoMatchmaking.Endpoint
