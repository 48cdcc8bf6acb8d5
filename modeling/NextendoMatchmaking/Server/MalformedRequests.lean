import NextendoMatchmaking.Endpoint.StationURL
import NextendoMatchmaking.Matchmaking.Attributes
import NextendoMatchmaking.Matchmaking.Outsiders

/-!
# Requests that end too early

`StreamIn` gives zeros for what a body does not hold, "so a decode path can run to completion and be validated
once at the end".  Of the handlers here only `updateNotificationData` asks for the error.  The others go on
with what they have read: with the gathering 0 where the id is missing, with an empty buffer, with the value
0, with the PIDs that were there and zeros for the rest, with an empty station.

`Handler.Harmless` says for each handler, in terms of the state before the request, when this changes nothing,
and `truncated_request_iff` that it is exact.
-/

namespace NextendoMatchmaking

open NextendoMatchmaking.Parsing

variable {st : StreamIn} {body : Bytes} {offset : ℕ}

/-! ### Reads past the end -/

/-- A read that leaves an error has given nil. -/
theorem read_failed {n : ℕ} (h : (StreamIn.read n st).2.err = true) : (StreamIn.read n st).1 = none := by
  unfold StreamIn.read at h ⊢
  split
  · rfl
  · rename_i hok
    rw [if_neg hok] at h
    exact absurd (.inl h) hok

theorem uint_apply (w : ℕ) (st : StreamIn) :
    StreamIn.uint w st = (((StreamIn.read w st).1.map leNat).getD 0, (StreamIn.read w st).2) := by
  rw [StreamIn.uint, bind_apply]
  cases (StreamIn.read w st).1 <;> rfl

theorem u32_apply (st : StreamIn) :
    StreamIn.u32 st = (UInt32.ofNat (((StreamIn.read 4 st).1.map leNat).getD 0), (StreamIn.read 4 st).2) := by
  show (UInt32.ofNat (StreamIn.uint 4 st).1, (StreamIn.uint 4 st).2) = _
  rw [uint_apply]

/-- A buffer that leaves an error is empty. -/
theorem buffer_failed (h : (StreamIn.buffer st).2.err = true) : (StreamIn.buffer st).1 = [] := by
  have hread : (StreamIn.read (StreamIn.u32 st).1.toNat (StreamIn.u32 st).2).1 = none := read_failed h
  show (StreamIn.read (StreamIn.u32 st).1.toNat (StreamIn.u32 st).2).1.getD [] = []
  rw [hread]
  rfl

/-- A string that leaves an error is empty. -/
theorem string_failed (h : (StreamIn.string st).2.err = true) : (StreamIn.string st).1 = [] := by
  unfold StreamIn.string at h ⊢
  rw [bind_apply] at h ⊢
  by_cases hzero : (StreamIn.u16 st).1 = 0
  · rw [if_pos hzero]
    rfl
  · rw [if_neg hzero] at h ⊢
    rw [bind_apply] at h ⊢
    -- the match on the bytes does not touch the stream
    cases hread : (StreamIn.read (StreamIn.u16 st).1.toNat (StreamIn.u16 st).2).1 with
    | none => rfl
    | some b =>
      rw [hread] at h
      have hnone := read_failed h
      rw [hread] at hnone
      cases hnone

/-- A list that is read after an error is empty. -/
theorem list_of_err {α : Type} (f : Reader α) (h : st.err = true) : (StreamIn.list f st).1 = [] := by
  have hread : StreamIn.u32 st = (0, { st with err := true, failed := true }) := by
    rw [u32_apply, StreamIn.read, if_pos (.inl h), h]
    rfl
  have hcount : StreamIn.count st = (some 0, { st with err := true, failed := true }) := by
    rw [StreamIn.count, bind_apply, hread]
    rfl
  rw [StreamIn.list, bind_apply, hcount]
  rfl

/-! ### The words of a body -/

/-- The number of 32 bits at `offset`, 0 where the body ends before it. -/
def wordAt (body : Bytes) (offset : ℕ) : UInt32 :=
  if offset + 4 ≤ body.length then UInt32.ofNat (leNat ((body.drop offset).take 4)) else 0

/-- The stream has come to `offset`, or the body ends before it and there is an error. -/
def StandsAt (body : Bytes) (offset : ℕ) (st : StreamIn) : Prop :=
  (offset ≤ body.length ∧ st = newStreamIn (body.drop offset)) ∨ (body.length < offset ∧ st.err = true)

theorem standsAt_zero (body : Bytes) : StandsAt body 0 (newStreamIn body) := .inl ⟨Nat.zero_le _, rfl⟩

theorem StandsAt.err_iff (h : StandsAt body offset st) : st.err = true ↔ body.length < offset := by
  obtain ⟨hle, rfl⟩ | ⟨hlt, herr⟩ := h
  · exact ⟨fun h => absurd h Bool.false_ne_true, fun h => absurd hle (Nat.not_le.mpr h)⟩
  · exact ⟨fun _ => hlt, fun _ => herr⟩

theorem wordAt_of_short (h : body.length < offset + 4) : wordAt body offset = 0 :=
  if_neg (Nat.not_le.mpr h)

/-- `U32` gives the word at the position of the stream and moves it on. -/
theorem StandsAt.u32 (h : StandsAt body offset st) :
    (StreamIn.u32 st).1 = wordAt body offset ∧ StandsAt body (offset + 4) (StreamIn.u32 st).2 := by
  rw [u32_apply]
  by_cases hfits : offset + 4 ≤ body.length
  · obtain ⟨-, rfl⟩ | ⟨hlt, -⟩ := h
    · have henough : ¬ ((newStreamIn (body.drop offset)).err = true ∨
          (newStreamIn (body.drop offset)).rest.length < 4) := by
        show ¬ (false = true ∨ (body.drop offset).length < 4)
        rw [List.length_drop]
        simp only [Bool.false_eq_true, false_or]
        omega
      rw [StreamIn.read, if_neg henough, wordAt, if_pos hfits]
      refine ⟨rfl, .inl ⟨hfits, ?_⟩⟩
      show newStreamIn ((body.drop offset).drop 4) = newStreamIn (body.drop (offset + 4))
      rw [List.drop_drop]
    · omega
  · have hshort : st.err = true ∨ st.rest.length < 4 := by
      obtain ⟨hle, rfl⟩ | ⟨-, herr⟩ := h
      · right
        show (body.drop offset).length < 4
        rw [List.length_drop]
        omega
      · exact .inl herr
    rw [StreamIn.read, if_pos hshort, wordAt_of_short (by omega)]
    refine ⟨rfl, .inr ⟨by omega, ?_⟩⟩
    show (st.err || (4 != 0)) = true
    exact Bool.or_true _

/-- The PIDs that a hand-over reads behind the id, with zeros for those that are missing. -/
def pidsAfterWord (s : Settings) (body : Bytes) : List UInt64 :=
  (StreamIn.run (StreamIn.list (StreamIn.pid s)) (body.drop 4)).1

theorem StandsAt.pids {s : Settings} (h : StandsAt body 4 st) :
    (StreamIn.list (StreamIn.pid s) st).1 = pidsAfterWord s body := by
  obtain ⟨-, rfl⟩ | ⟨hlt, herr⟩ := h
  · rfl
  · have hnil : body.drop 4 = [] := List.drop_eq_nil_of_le (Nat.le_of_lt hlt)
    rw [list_of_err _ herr, pidsAfterWord, hnil]
    rfl

end NextendoMatchmaking

namespace NextendoMatchmaking.Matchmaking

open NextendoMatchmaking.Parsing

variable {o : Options} {env : Env} {conn : Caller} {req : RMCMessage} {m : Store} {gid : UInt32}
  {g g' : GatheringEntry}

/-! ### Writes that change nothing -/

theorem put_eq_self_iff (hg : m.gatherings.lookup gid = some g) : m.put gid g' = m ↔ g' = g := by
  constructor
  · intro h
    have hlookup : (m.put gid g').gatherings.lookup gid = some g := by rw [h, hg]
    rw [lookup_put, if_pos rfl] at hlookup
    exact Option.some.inj hlookup
  · rintro rfl
    rw [Store.put, GoMap.insert_eq_self hg]

/-- A condition on the gathering that is found. -/
theorem forall_found_iff {P : GatheringEntry → Prop} : (∀ g', some g = some g' → P g') ↔ P g :=
  ⟨fun h => h g rfl, fun h _ hg' => Option.some.inj hg' ▸ h⟩

theorem remove_ne_self (hg : m.gatherings.lookup gid = some g) : m.remove gid ≠ m := by
  intro h
  have hlookup : (m.remove gid).gatherings.lookup gid = some g := by rw [h, hg]
  rw [lookup_remove, if_pos rfl] at hlookup
  cases hlookup

/-- The number of participants in the session is that of the list. -/
def Counted (g : GatheringEntry) : Prop := g.session.numParticipants = UInt32.ofNat g.participants.length

theorem refreshNumParticipants_eq_self_iff : refreshNumParticipants g = g ↔ Counted g := by
  unfold refreshNumParticipants Counted
  constructor
  · intro h
    exact (congrArg (fun g' : GatheringEntry => g'.session.numParticipants) h).symm
  · intro h
    rw [← h]

/-! ### The ids of gatherings -/

theorem readGID_eq : readGID req = wordAt req.body 0 := (standsAt_zero req.body).u32.1

theorem readGID_of_err (h : (StreamIn.run StreamIn.u32 req.body).2 = true) : readGID req = 0 := by
  have hshort := (standsAt_zero req.body).u32.2.err_iff.mp h
  rw [readGID_eq, wordAt_of_short hshort]

theorem readJoinGID_of_err (h : (StreamIn.run (do
    let _ ← StreamIn.u8
    StreamIn.substream StreamIn.u32) req.body).2 = true) : readJoinGID req = 0 := by
  have hbuffer : (StreamIn.buffer (StreamIn.u8 (newStreamIn req.body)).2).1 = [] := buffer_failed h
  show (StreamIn.u32 (newStreamIn (StreamIn.buffer (StreamIn.u8 (newStreamIn req.body)).2).1)).1 = 0
  rw [hbuffer]
  rfl

/-! ### The join -/

/-- Nothing that is reserved has run out. -/
def Current (now : Int) (g : GatheringEntry) : Prop :=
  ∀ pid expires, g.reservations.lookup pid = some expires → now < expires

theorem expireJoinReservations_eq_self_iff (now : Int) : expireJoinReservations g now = g ↔ Current now g := by
  constructor
  · intro h pid expires hres
    rw [← h] at hres
    have hkept := (GoMap.lookup_deleteWhere_some hres).2
    simpa using hkept
  · intro h
    have hkept : ∀ pid expires, g.reservations.lookup pid = some expires →
        (!decide (now < expires)) = false := by
      intro pid expires hres
      simpa using h pid expires hres
    rw [expireJoinReservations, GoMap.deleteWhere_eq_self hkept]

theorem releaseReservation_eq_self_iff (pid : UInt64) :
    releaseReservation g pid = g ↔ g.reservations.lookup pid = none := by
  constructor
  · intro h
    rw [← h]
    exact Finmap.lookup_erase _ _
  · intro h
    rw [releaseReservation, GoMap.erase_eq_self h]

/-- A join of `pid` at these instants leaves the gathering as it is: the seat is taken already, or there is no
room, or the reservation runs out before it is committed.  A reservation that `pid` has is used up, and any
other that has run out is dropped. -/
def JoinIdle (ttl reserveNow commitNow : Int) (pid : UInt64) (g : GatheringEntry) : Prop :=
  if pid ∈ g.participants then Counted g
  else g.reservations.lookup pid = none ∧ Current reserveNow g ∧
    (¬ Room g pid ∨ (reserveNow + ttl ≤ commitNow ∧ Counted g))

theorem refresh_join_ne {g₁ : GatheringEntry} {pid : UInt64}
    (hjoined : g₁.participants = g.participants ++ [pid]) : refreshNumParticipants g₁ ≠ g := by
  intro h
  have hparts : (refreshNumParticipants g₁).participants = g.participants :=
    congrArg GatheringEntry.participants h
  change g₁.participants = g.participants at hparts
  rw [hjoined, List.append_right_eq_self] at hparts
  cases hparts

/-- The gathering as a reservation that is never committed leaves it. -/
theorem release_expire_eq_self_iff (now : Int) (pid : UInt64) :
    releaseReservation (expireJoinReservations g now) pid = g ↔
      g.reservations.lookup pid = none ∧ Current now g := by
  constructor
  · intro h
    have hnone : g.reservations.lookup pid = none := by
      rw [← h]
      exact Finmap.lookup_erase _ _
    refine ⟨hnone, fun k expires hres => ?_⟩
    have hkey : k ≠ pid := by
      rintro rfl
      rw [hnone] at hres
      cases hres
    rw [← h] at hres
    have hkept : (expireJoinReservations g now).reservations.lookup k = some expires :=
      (Finmap.lookup_erase_ne hkey).symm.trans hres
    have halive := (GoMap.lookup_deleteWhere_some hkept).2
    simpa using halive
  · intro h
    rw [(expireJoinReservations_eq_self_iff now).mpr h.2]
    exact (releaseReservation_eq_self_iff pid).mpr h.1

theorem refresh_eq_self_iff (g₁ g : GatheringEntry) (hparts : g₁.participants = g.participants)
    (hnum : g₁.session = g.session) : refreshNumParticipants g₁ = g ↔ g₁ = g ∧ Counted g := by
  constructor
  · intro h
    have hcounted : Counted g := by
      have hsession := congrArg (fun g' : GatheringEntry => g'.session.numParticipants) h
      have hcount : UInt32.ofNat g₁.participants.length = g.session.numParticipants := hsession
      rw [hparts] at hcount
      exact hcount.symm
    have hcounted₁ : Counted g₁ := by
      unfold Counted
      rw [hnum, hparts]
      exact hcounted
    exact ⟨(refreshNumParticipants_eq_self_iff.mpr hcounted₁).symm.trans h, hcounted⟩
  · rintro ⟨rfl, hcounted⟩
    exact refreshNumParticipants_eq_self_iff.mpr hcounted

theorem joinGathering_eq_self_iff (hg : m.gatherings.lookup gid = some g) :
    (joinGathering o env conn req m gid).1 = m ↔
      JoinIdle m.reservationTTL env.reserveNow env.commitNow conn.pid g := by
  unfold joinGathering JoinIdle
  rw [hg]
  dsimp only
  by_cases hpid : conn.pid ∈ g.participants
  · rw [if_pos (containsPID_iff.mpr hpid), if_pos hpid]
    exact (put_eq_self_iff hg).trans refreshNumParticipants_eq_self_iff
  · rw [if_neg (fun h => hpid (containsPID_iff.mp h)), if_neg hpid]
    have hresult := reserveResult m.reservationTTL env.reserveNow g conn.pid
    generalize reserveJoin m.reservationTTL env.reserveNow g conn.pid = reserved at hresult
    cases hresult with
    | seated hseated => exact absurd hseated hpid
    | full _ hroom =>
      refine (put_eq_self_iff hg).trans ((expireJoinReservations_eq_self_iff _).trans ?_)
      refine ⟨fun hcurrent => ?_, fun h => h.2.1⟩
      rw [(expireJoinReservations_eq_self_iff _).mpr hcurrent] at hroom
      have hnone : g.reservations.lookup conn.pid = none := by
        rw [← Option.not_isSome_iff_eq_none]
        exact fun hres => hroom (.inl hres)
      exact ⟨hnone, hcurrent, .inl hroom⟩
    | held _ hroom =>
      -- where nothing has run out there is room in the gathering as it stands
      have hfree : Current env.reserveNow g → Room g conn.pid := by
        intro hcurrent
        rw [(expireJoinReservations_eq_self_iff _).mpr hcurrent] at hroom
        exact hroom
      have hout : conn.pid ∉ (expireJoinReservations g env.reserveNow).participants := hpid
      rw [if_pos rfl, commit_put env.commitNow (env.reserveNow + m.reservationTTL) hout]
      by_cases hin : env.commitNow < env.reserveNow + m.reservationTTL
      · rw [if_pos hin]
        constructor
        · intro h
          exact absurd ((put_eq_self_iff hg).mp h) (refresh_join_ne rfl)
        · rintro ⟨-, hcurrent, hroom' | ⟨hlate, -⟩⟩
          · exact absurd (hfree hcurrent) hroom'
          · omega
      · rw [if_neg hin]
        refine (put_eq_self_iff hg).trans ((refresh_eq_self_iff
          (releaseReservation (expireJoinReservations g env.reserveNow) conn.pid) g rfl rfl).trans ?_)
        rw [release_expire_eq_self_iff]
        constructor
        · rintro ⟨⟨hnone, hcurrent⟩, hcounted⟩
          exact ⟨hnone, hcurrent, .inr ⟨by omega, hcounted⟩⟩
        · rintro ⟨hnone, hcurrent, hroom' | ⟨-, hcounted⟩⟩
          · exact absurd (hfree hcurrent) hroom'
          · exact ⟨⟨hnone, hcurrent⟩, hcounted⟩

/-! ### The other handlers -/

theorem joinSession_unchanged_iff (herr : (StreamIn.run (do
    let _ ← StreamIn.u8
    StreamIn.substream StreamIn.u32) req.body).2 = true) :
    (joinSession o env conn req m).1 = m ↔ ∀ g, m.gatherings.lookup 0 = some g →
      JoinIdle m.reservationTTL env.reserveNow env.commitNow conn.pid g := by
  unfold joinSession
  rw [readJoinGID_of_err herr]
  cases hg : m.gatherings.lookup 0 with
  | none =>
    unfold joinGathering
    rw [hg]
    exact ⟨fun _ => nofun, fun _ => rfl⟩
  | some g => rw [joinGathering_eq_self_iff hg, forall_found_iff]

/-- Leaving changes nothing for a player that has no seat and no reservation here. -/
def LeaveIdle (pid : UInt64) (g : GatheringEntry) : Prop :=
  pid ∉ g.participants ∧ g.participants ≠ [] ∧ g.reservations.lookup pid = none ∧ Counted g

theorem removePID_eq_self_iff {list : List UInt64} {pid : UInt64} : removePID list pid = list ↔ pid ∉ list := by
  unfold removePID
  rw [List.filter_eq_self]
  constructor
  · intro h hmem
    exact bne_iff_ne.mp (h pid hmem) rfl
  · intro h p hp
    exact bne_iff_ne.mpr (fun heq => h (heq ▸ hp))

theorem refresh_without_eq_self_iff (pid : UInt64) (hne : removePID g.participants pid ≠ []) :
    refreshNumParticipants (without g pid) = g ↔ LeaveIdle pid g := by
  by_cases hpid : pid ∈ g.participants
  · refine ⟨fun h => ?_, fun h => absurd hpid h.1⟩
    have hparts : removePID g.participants pid = g.participants := congrArg GatheringEntry.participants h
    exact absurd hpid (removePID_eq_self_iff.mp hparts)
  · have hsame := removePID_eq_self_iff.mpr hpid
    have hwithout : without g pid = releaseReservation g pid := by
      unfold without
      rw [hsame]
      rfl
    rw [hsame] at hne
    rw [hwithout, refresh_eq_self_iff (releaseReservation g pid) g rfl rfl, releaseReservation_eq_self_iff]
    exact ⟨fun h => ⟨hpid, hne, h.1, h.2⟩, fun h => ⟨h.2.2.1, h.2.2.2⟩⟩

theorem endParticipation_unchanged_iff (herr : (StreamIn.run StreamIn.u32 req.body).2 = true) :
    (endParticipation conn req m).1 = m ↔ ∀ g, m.gatherings.lookup 0 = some g → LeaveIdle conn.pid g := by
  unfold endParticipation
  rw [readGID_of_err herr]
  dsimp only
  cases hg : m.gatherings.lookup 0 with
  | none => exact ⟨fun _ => nofun, fun _ => rfl⟩
  | some g =>
    dsimp only
    rw [forall_found_iff]
    by_cases hlast : (without g conn.pid).participants = []
    · rw [if_pos hlast]
      refine ⟨fun h => absurd h (remove_ne_self hg), fun h => ?_⟩
      have hsame := removePID_eq_self_iff.mpr h.1
      exact absurd (hsame.symm.trans hlast) h.2.1
    · rw [if_neg hlast, put_eq_self_iff hg]
      exact refresh_without_eq_self_iff conn.pid hlast

theorem unregister_unchanged_iff (herr : (StreamIn.run StreamIn.u32 req.body).2 = true) :
    (unregister conn req m).1 = m ↔
      ∀ g, m.gatherings.lookup 0 = some g → g.session.ownerPID ≠ conn.pid := by
  unfold unregister
  rw [readGID_of_err herr]
  dsimp only
  cases hg : m.gatherings.lookup 0 with
  | none => exact ⟨fun _ => nofun, fun _ => rfl⟩
  | some g =>
    dsimp only
    rw [forall_found_iff]
    by_cases howner : g.session.ownerPID = conn.pid
    · rw [if_pos howner]
      exact ⟨fun h => absurd h (remove_ne_self hg), fun h => absurd howner h⟩
    · rw [if_neg howner]
      exact ⟨fun _ => howner, fun _ => rfl⟩

theorem updateApplicationBuffer_unchanged_iff (herr : (StreamIn.run (do
    let gid ← StreamIn.u32
    let buf ← StreamIn.buffer
    return (gid, buf)) req.body).2 = true) :
    (updateApplicationBuffer conn req m).1 = m ↔ ∀ g, m.gatherings.lookup (wordAt req.body 0) = some g →
      g.participants.headD 0 = conn.pid → g.session.applicationData = [] := by
  have hread : StreamIn.run (do
      let gid ← StreamIn.u32
      let buf ← StreamIn.buffer
      return (gid, buf)) req.body = ((wordAt req.body 0, []), true) := by
    have hbuffer : (StreamIn.buffer (StreamIn.u32 (newStreamIn req.body)).2).1 = [] := buffer_failed herr
    exact Prod.ext (Prod.ext (standsAt_zero req.body).u32.1 hbuffer) herr
  unfold updateApplicationBuffer
  rw [hread]
  dsimp only
  cases hg : m.gatherings.lookup (wordAt req.body 0) with
  | none => exact ⟨fun _ => nofun, fun _ => rfl⟩
  | some g =>
    dsimp only
    rw [forall_found_iff]
    by_cases hfirst : g.participants.headD 0 = conn.pid
    · rw [if_pos hfirst, put_eq_self_iff hg]
      refine ⟨fun h _ => ?_, fun h => ?_⟩
      · exact (congrArg (fun g' : GatheringEntry => g'.session.applicationData) h).symm
      · rw [← h hfirst]
    · rw [if_neg hfirst]
      exact ⟨fun _ hfirst' => absurd hfirst' hfirst, fun _ => rfl⟩

/-- The value 0 at `index` is there already, and the loop before the write sees that it is. -/
def ZeroAt (index : ℕ) (attribs : List UInt32) : Prop :=
  index < attribs.length % 2 ^ 32 ∧ attribs[index]? = some 0

/-- The loop ends with a longer list where the index is not behind the low bits of the length. -/
theorem padAttribs_longer {index : UInt32} {attribs padded : List UInt32}
    (h : padAttribs index (2 ^ 32) attribs = some padded) (hle : attribs.length % 2 ^ 32 ≤ index.toNat) :
    attribs.length < padded.length := by
  have hindex : index ≠ 0xFFFFFFFF := by
    rintro rfl
    rw [padAttribs_never] at h
    cases h
  have hbound := succ_toNat_lt hindex
  rw [padAttribs_some hbound _ _ _ rfl (by omega)] at h
  cases h
  rw [List.length_append, List.length_replicate]
  omega

theorem padAttribs_of_lt {index : UInt32} {attribs : List UInt32} (h : index.toNat < attribs.length % 2 ^ 32) :
    padAttribs index (2 ^ 32) attribs = some attribs := by
  have hpad := padAttribs_some (show index.toNat + 1 < 2 ^ 32 by omega) 0 (2 ^ 32) attribs (by omega) (by omega)
  rw [hpad, List.replicate_zero, List.append_nil]

theorem set_eq_self_iff {l : List UInt32} {i : ℕ} {v : UInt32} (h : i < l.length) :
    l.set i v = l ↔ l[i]? = some v := by
  constructor
  · intro hset
    rw [← hset]
    exact List.getElem?_set_self h
  · intro hget
    obtain ⟨hlt, hv⟩ := List.getElem?_eq_some_iff.mp hget
    rw [← hv]
    exact List.set_getElem_self hlt

theorem attribs_eq_self_iff {attribs : List UInt32} :
    { g with session := { g.session with attribs } } = g ↔ attribs = g.session.attribs := by
  constructor
  · intro h
    exact congrArg (fun g' : GatheringEntry => g'.session.attribs) h
  · rintro rfl
    rfl

theorem modifyCurrentGameAttribute_unchanged_iff (herr : (StreamIn.run (do
    let gid ← StreamIn.u32
    let attribIndex ← StreamIn.u32
    let newValue ← StreamIn.u32
    return (gid, attribIndex, newValue)) req.body).2 = true) :
    (modifyCurrentGameAttribute conn req m).map Prod.fst = some m ↔
      ∀ g, m.gatherings.lookup (wordAt req.body 0) = some g → g.participants.head? = some conn.pid →
        ZeroAt (wordAt req.body 4).toNat g.session.attribs := by
  have hread : StreamIn.run (do
      let gid ← StreamIn.u32
      let attribIndex ← StreamIn.u32
      let newValue ← StreamIn.u32
      return (gid, attribIndex, newValue)) req.body = ((wordAt req.body 0, wordAt req.body 4, 0), true) := by
    have hgid := (standsAt_zero req.body).u32
    have hindex := hgid.2.u32
    have hvalue := hindex.2.u32
    have hzero : wordAt req.body 8 = 0 := wordAt_of_short (hvalue.2.err_iff.mp herr)
    exact Prod.ext (Prod.ext hgid.1 (Prod.ext hindex.1 (hvalue.1.trans hzero))) herr
  unfold modifyCurrentGameAttribute
  rw [hread]
  dsimp only
  cases hg : m.gatherings.lookup (wordAt req.body 0) with
  | none => exact ⟨fun _ => nofun, fun _ => rfl⟩
  | some g =>
    dsimp only
    rw [forall_found_iff]
    by_cases hfirst : g.participants.head? = some conn.pid
    · rw [if_pos hfirst, imp_iff_right hfirst]
      by_cases hlt : (wordAt req.body 4).toNat < g.session.attribs.length % 2 ^ 32
      · have hin := Nat.lt_of_lt_of_le hlt (Nat.mod_le _ _)
        rw [padAttribs_of_lt hlt, Option.map_some, Option.some.injEq, put_eq_self_iff hg, attribs_eq_self_iff,
          set_eq_self_iff hin]
        exact ⟨fun h => ⟨hlt, h⟩, fun h => h.2⟩
      · refine ⟨fun h => ?_, fun h => absurd h.1 hlt⟩
        cases hpad : padAttribs (wordAt req.body 4) (2 ^ 32) g.session.attribs with
        | none =>
          rw [hpad] at h
          cases h
        | some padded =>
          rw [hpad, Option.map_some, Option.some.injEq, put_eq_self_iff hg, attribs_eq_self_iff] at h
          have hlonger := padAttribs_longer hpad (Nat.le_of_not_lt hlt)
          rw [← h, List.length_set] at hlonger
          exact absurd hlonger (Nat.lt_irrefl _)
    · rw [if_neg hfirst]
      exact ⟨fun _ hfirst' => absurd hfirst' hfirst, fun _ => rfl⟩

/-- The first of the candidates that has a seat has the first one. -/
def MigrationIdle (candidates : List UInt64) (g : GatheringEntry) : Prop :=
  ∀ c, candidates.find? (containsPID g.participants) = some c → g.participants.head? = some c

theorem migrate_eq_self_iff {candidates participants : List UInt64} :
    migrate candidates participants = participants ↔
      ∀ c, candidates.find? (containsPID participants) = some c → participants.head? = some c := by
  constructor
  · intro h c hc
    rw [← head_migrate hc, h]
  · intro h
    cases hfind : candidates.find? (containsPID participants) with
    | none =>
      unfold migrate
      rw [hfind]
    | some c =>
      refine migrate_of_first (h c hfind) (fun c' hc' => ?_)
      rw [hfind] at hc'
      exact (Option.some.inj hc').symm

theorem readMigration_eq (hasParticipantsOnly : Bool) :
    readMigration o req hasParticipantsOnly = (wordAt req.body 0, pidsAfterWord o.settings req.body) := by
  have hgid := (standsAt_zero req.body).u32
  cases hasParticipantsOnly with
  | false => exact Prod.ext hgid.1 hgid.2.pids
  | true => exact Prod.ext hgid.1 hgid.2.pids

/-- The truncation makes no difference to what a hand-over does: it is the one that a complete body with these
PIDs asks for. -/
theorem migrateGatheringOwnership_unchanged_iff (hasParticipantsOnly : Bool) :
    (migrateGatheringOwnership o env conn req m hasParticipantsOnly).1 = m ↔
      ∀ g, m.gatherings.lookup (wordAt req.body 0) = some g →
        MigrationIdle (pidsAfterWord o.settings req.body) g := by
  have hstore : (migrateGatheringOwnership o env conn req m hasParticipantsOnly).1 =
      (m.gatherings.lookup (readMigration o req hasParticipantsOnly).1).elim m (fun g =>
        if g.participants = [] then m else m.put (readMigration o req hasParticipantsOnly).1
          { g with participants := migrate (readMigration o req hasParticipantsOnly).2 g.participants }) := by
    unfold migrateGatheringOwnership readMigration
    dsimp only
    split
    · rename_i hg
      rw [hg]
      rfl
    · rename_i g hg
      rw [hg, Option.elim_some]
      split <;> rfl
  rw [hstore, readMigration_eq]
  dsimp only
  cases hg : m.gatherings.lookup (wordAt req.body 0) with
  | none => exact ⟨fun _ => nofun, fun _ => rfl⟩
  | some g =>
    rw [Option.elim_some, forall_found_iff]
    by_cases hempty : g.participants = []
    · rw [if_pos hempty]
      refine ⟨fun _ c hc => ?_, fun _ => rfl⟩
      have hmem := containsPID_iff.mp (List.find?_some hc)
      rw [hempty] at hmem
      cases hmem
    · rw [if_neg hempty, put_eq_self_iff hg]
      refine Iff.trans ⟨fun h => ?_, fun h => ?_⟩ migrate_eq_self_iff
      · exact congrArg GatheringEntry.participants h
      · rw [h]

theorem updateNotificationData_unchanged (herr : (StreamIn.run (do
    let typ ← StreamIn.u32
    let p1 ← StreamIn.pid o.settings
    let p2 ← StreamIn.pid o.settings
    let str ← StreamIn.string
    return ({ pidSource := conn.pid, type := typ, param1 := p1, param2 := p2, strParam := str } :
      NotificationEvent)) req.body).2 = true) :
    (updateNotificationData o env conn req m).1 = m := by
  unfold updateNotificationData
  dsimp only
  rw [herr]
  rfl

end NextendoMatchmaking.Matchmaking

namespace NextendoMatchmaking.Server

open NextendoMatchmaking.Matchmaking NextendoMatchmaking.Endpoint

/-! ### The stations -/

/-- A station that is missing is an empty one, which is stored under the empty address. -/
theorem handleReplaceURL_unchanged_iff {pid : UInt64} {stations : List StationURL} {req : RMCMessage}
    (herr : (NextendoMatchmaking.StreamIn.run (do
      let _ ← StreamIn.stationURL
      StreamIn.stationURL) req.body).2 = true) :
    (handleReplaceURL pid stations req).1 = stations ↔
      (stations.map StationURL.address).Nodup ∧
        StationURL.empty.setInt pidKey (intOfUInt64 pid) ∈ stations := by
  have hread : (NextendoMatchmaking.StreamIn.run (do
      let _ ← StreamIn.stationURL
      StreamIn.stationURL) req.body).1 = StationURL.empty := by
    have hstring : (NextendoMatchmaking.StreamIn.string
        (NextendoMatchmaking.StreamIn.string (newStreamIn req.body)).2).1 = [] := string_failed herr
    show parseStationURL (NextendoMatchmaking.StreamIn.string
      (NextendoMatchmaking.StreamIn.string (newStreamIn req.body)).2).1 = StationURL.empty
    rw [hstring]
    rfl
  unfold handleReplaceURL replaceStations
  dsimp only
  rw [hread]
  exact Ordered.collect_snoc_eq_iff StationURL.address stations _

/-! ### The handlers together -/

/-- What the handlers write: the store, with the notification data in it, and the stations of the
connection. -/
structure Written where
  store : Store
  stations : List StationURL

/-- The handlers; a hand-over has two versions. -/
inductive Handler
  | joinSession
  | updateApplicationBuffer
  | modifyCurrentGameAttribute
  | migrateGatheringOwnership (hasParticipantsOnly : Bool)
  | endParticipation
  | unregister
  | updateNotificationData
  | replaceURL
  deriving DecidableEq

namespace Handler

variable (o : Options) (env : Env) (conn : Caller) (req : RMCMessage) (w : Written)

/-- `Err` of the stream over the body, when the handler has read it. -/
def err (body : Bytes) : Handler → Bool
  | joinSession => (NextendoMatchmaking.StreamIn.run (do
      let _ ← StreamIn.u8
      StreamIn.substream StreamIn.u32) body).2
  | updateApplicationBuffer => (NextendoMatchmaking.StreamIn.run (do
      let gid ← StreamIn.u32
      let buf ← StreamIn.buffer
      return (gid, buf)) body).2
  | modifyCurrentGameAttribute => (NextendoMatchmaking.StreamIn.run (do
      let gid ← StreamIn.u32
      let attribIndex ← StreamIn.u32
      let newValue ← StreamIn.u32
      return (gid, attribIndex, newValue)) body).2
  | migrateGatheringOwnership hasParticipantsOnly => (NextendoMatchmaking.StreamIn.run (do
      let gid ← StreamIn.u32
      let candidates ← StreamIn.list (StreamIn.pid o.settings)
      if hasParticipantsOnly then
        let _ ← StreamIn.bool
      return (gid, candidates)) body).2
  | endParticipation => (NextendoMatchmaking.StreamIn.run StreamIn.u32 body).2
  | unregister => (NextendoMatchmaking.StreamIn.run StreamIn.u32 body).2
  | updateNotificationData => (NextendoMatchmaking.StreamIn.run (do
      let typ ← StreamIn.u32
      let p1 ← StreamIn.pid o.settings
      let p2 ← StreamIn.pid o.settings
      let str ← StreamIn.string
      return ({ pidSource := conn.pid, type := typ, param1 := p1, param2 := p2, strParam := str } :
        NotificationEvent)) body).2
  | replaceURL => (NextendoMatchmaking.StreamIn.run (do
      let _ ← StreamIn.stationURL
      StreamIn.stationURL) body).2

/-- What a handler leaves; `none` where it never returns. -/
def serve : Handler → Option Written
  | joinSession => some { w with store := (Matchmaking.joinSession o env conn req w.store).1 }
  | updateApplicationBuffer =>
    some { w with store := (Matchmaking.updateApplicationBuffer conn req w.store).1 }
  | modifyCurrentGameAttribute =>
    (Matchmaking.modifyCurrentGameAttribute conn req w.store).map (fun r => { w with store := r.1 })
  | migrateGatheringOwnership hasParticipantsOnly =>
    some { w with
      store := (Matchmaking.migrateGatheringOwnership o env conn req w.store hasParticipantsOnly).1 }
  | endParticipation => some { w with store := (Matchmaking.endParticipation conn req w.store).1 }
  | unregister => some { w with store := (Matchmaking.unregister conn req w.store).1 }
  | updateNotificationData =>
    some { w with store := (Matchmaking.updateNotificationData o env conn req w.store).1 }
  | replaceURL => some { w with stations := (handleReplaceURL conn.pid w.stations req).1 }

/-- A truncated request with this body finds nothing to change. -/
def Harmless (body : Bytes) : Handler → Prop
  | joinSession => ∀ g, w.store.gatherings.lookup 0 = some g →
      JoinIdle w.store.reservationTTL env.reserveNow env.commitNow conn.pid g
  | updateApplicationBuffer => ∀ g, w.store.gatherings.lookup (wordAt body 0) = some g →
      g.participants.headD 0 = conn.pid → g.session.applicationData = []
  | modifyCurrentGameAttribute => ∀ g, w.store.gatherings.lookup (wordAt body 0) = some g →
      g.participants.head? = some conn.pid → ZeroAt (wordAt body 4).toNat g.session.attribs
  | migrateGatheringOwnership _ => ∀ g, w.store.gatherings.lookup (wordAt body 0) = some g →
      MigrationIdle (pidsAfterWord o.settings body) g
  | endParticipation => ∀ g, w.store.gatherings.lookup 0 = some g → LeaveIdle conn.pid g
  | unregister => ∀ g, w.store.gatherings.lookup 0 = some g → g.session.ownerPID ≠ conn.pid
  | updateNotificationData => True
  | replaceURL => (w.stations.map StationURL.address).Nodup ∧
      StationURL.empty.setInt pidKey (intOfUInt64 conn.pid) ∈ w.stations

end Handler

variable {o : Options} {env : Env} {conn : Caller} {req : RMCMessage} {w : Written}

theorem store_eq_self_iff {m : Store} : some { w with store := m } = some w ↔ m = w.store := by
  rw [Option.some.injEq]
  exact ⟨congrArg Written.store, fun h => by rw [h]⟩

theorem stations_eq_self_iff {stations : List StationURL} :
    some { w with stations } = some w ↔ stations = w.stations := by
  rw [Option.some.injEq]
  exact ⟨congrArg Written.stations, fun h => by rw [h]⟩

/-- **Truncated requests.**  A request whose body ends too early leaves the store, the notification data and
the stations as they were if and only if the zeros it is completed with happen to ask for nothing. -/
theorem truncated_request_iff (h : Handler) (herr : h.err o conn req.body = true) :
    h.serve o env conn req w = some w ↔ h.Harmless o env conn w req.body := by
  cases h with
  | joinSession => exact store_eq_self_iff.trans (joinSession_unchanged_iff herr)
  | updateApplicationBuffer => exact store_eq_self_iff.trans (updateApplicationBuffer_unchanged_iff herr)
  | modifyCurrentGameAttribute =>
    refine Iff.trans ?_ (modifyCurrentGameAttribute_unchanged_iff herr)
    show (modifyCurrentGameAttribute conn req w.store).map (fun r => { w with store := r.1 }) = some w ↔ _
    cases modifyCurrentGameAttribute conn req w.store with
    | none => exact ⟨nofun, nofun⟩
    | some r => exact store_eq_self_iff.trans (iff_of_eq (Option.some.injEq r.1 w.store)).symm
  | migrateGatheringOwnership hasParticipantsOnly =>
    exact store_eq_self_iff.trans (migrateGatheringOwnership_unchanged_iff hasParticipantsOnly)
  | endParticipation => exact store_eq_self_iff.trans (endParticipation_unchanged_iff herr)
  | unregister => exact store_eq_self_iff.trans (unregister_unchanged_iff herr)
  | updateNotificationData =>
    exact store_eq_self_iff.trans ⟨fun _ => trivial, fun _ => updateNotificationData_unchanged herr⟩
  | replaceURL => exact stations_eq_self_iff.trans (handleReplaceURL_unchanged_iff herr)

/-- The gathering 1 of the player 7, with two bytes of application data. -/
def describedGathering : Written where
  store := newMatchmaking.put 1 { attributeGathering with
    session := { attributeGathering.session with applicationData := [1, 2] } }
  stations := []

/-- An `UpdateApplicationBuffer` of the gathering 1 that breaks off behind the id. -/
def brokenOff : RMCMessage :=
  newRMCRequest protocolMatchmakeExtension Method.updateApplicationBuffer 5 (StreamOut.u32 1)

/-- From a player that does not own the gathering the request changes nothing. -/
theorem broken_off_denied :
    Handler.updateApplicationBuffer.serve plainOptions (quietEnv 0 []) ⟨8, 2⟩ brokenOff describedGathering =
      some describedGathering := by
  refine (truncated_request_iff .updateApplicationBuffer (by decide)).mpr ?_
  intro g hg hfirst
  have hstored : describedGathering.store.gatherings.lookup 1 = some _ := Finmap.lookup_insert _
  obtain rfl := Option.some.inj (hstored.symm.trans hg)
  exact absurd hfirst (by decide)

/-- From its owner it is an error for the stream, and the application data is gone. -/
theorem broken_off_erases :
    Handler.updateApplicationBuffer.err plainOptions ⟨7, 1⟩ brokenOff.body = true ∧
      Handler.updateApplicationBuffer.serve plainOptions (quietEnv 0 []) ⟨7, 1⟩ brokenOff describedGathering ≠
        some describedGathering := by
  refine ⟨by decide, fun h => ?_⟩
  have herased := (updateApplicationBuffer_unchanged_iff (by decide)).mp (store_eq_self_iff.mp h)
    _ (Finmap.lookup_insert _) rfl
  cases herased

end NextendoMatchmaking.Server
