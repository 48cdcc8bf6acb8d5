import NextendoMatchmaking.Library.Runs
import NextendoMatchmaking.Matchmaking.Tournaments

/-!
# The ids of tournaments

`nextID` lives in memory.  A server that starts again computes it from the records of its file: the id after
the largest one.  An id whose record has left the file, because its tournament was deleted or because the
server stopped before the delayed writer wrote it, is then given a second time (`tournament_id_reused`).

The system of this file is the store with its file, the delayed writer (`tournamentFlusher`) and restarts.
`tournament_ids_unique`: as long as the file, whenever the store is filled from it, holds a record at or
above every id that was given, no id is given twice and none is the id of a record that was put aside.
-/

namespace NextendoMatchmaking.Matchmaking

open NextendoMatchmaking.Runs

/-! ### Calls -/

/-- What a call without random bytes reads from outside. -/
def fileEnv (file : Option (List (Option Tournament))) : TournamentEnv := ⟨file, fun _ => 0, fun _ => 0, 0, []⟩

/-- The calls that change the tournaments, with the random bytes and the clock of a creation. -/
inductive TournamentCall
  | create (owner : UInt64) (payload : Bytes) (mark : Fin 8 → UInt8) (code : Fin 12 → UInt8) (now : Int)
  | join (id : UInt32) (pid : UInt64)
  | delete (id : UInt32) (pid : UInt64)

/-- A call of a server with this file: the store behind it, and the tournament that it has created. -/
def TournamentCall.run (file : Option (List (Option Tournament))) (t : TournamentStore) :
    TournamentCall → TournamentStore × Option Tournament
  | .create owner payload mark code now => createTournament ⟨file, mark, code, now, []⟩ owner payload t
  | .join id pid => ((joinTournament (fileEnv file) id pid t).1, none)
  | .delete id pid => ((deleteTournament (fileEnv file) id pid t).1, none)

/-! ### The writer -/

/-- A move of `tournamentFlusher`: the list is collected, or `json.Marshal` comes to the record of `id`. -/
inductive TournamentMove
  | collect (order : List UInt32)
  | marshal (id : UInt32)

/-- The quarantined records and the others, as the list of pointers has them once it is collected. -/
abbrev TournamentPass := Option (List Tournament × List Tournament)

/-- `json.Marshal` follows the pointers of the list, so it writes a record as it is when it comes to it. -/
def readTournaments (t : TournamentStore) (r : TournamentPass) :
    TournamentMove → Option (TournamentStore × TournamentPass)
  | .collect order =>
    if r = none ∧ GoMap.Enumerates order t.byID then
      some (t, some (t.quarantined, order.filterMap t.byID.lookup))
    else
      none
  | .marshal id =>
    match r, t.byID.lookup id with
    | some (quarantined, list), some x =>
      some (t, some (quarantined, list.map (fun y => if y.id = id then x else y)))
    | _, _ => none

/-- The list that is written. -/
def listed (r : List Tournament × List Tournament) : List (Option Tournament) := (r.1 ++ r.2).map some

/-- What a move of a pass can do. -/
inductive TournamentMoved (t : TournamentStore) :
    TournamentPass → TournamentMove → TournamentStore → TournamentPass → Prop
  | collect {order} (horder : GoMap.Enumerates order t.byID) :
      TournamentMoved t none (.collect order) t (some (t.quarantined, order.filterMap t.byID.lookup))
  | marshal {quarantined list id x} (hx : t.byID.lookup id = some x) :
      TournamentMoved t (some (quarantined, list)) (.marshal id) t
        (some (quarantined, list.map (fun y => if y.id = id then x else y)))

variable {t : TournamentStore} {id : UInt32} {x : Tournament}

theorem tournamentMoved {t' : TournamentStore} {r r' : TournamentPass} {c : TournamentMove}
    (h : readTournaments t r c = some (t', r')) : TournamentMoved t r c t' r' := by
  cases c with
  | collect order =>
    simp only [readTournaments] at h
    split at h
    · rename_i hfirst
      cases h
      rw [hfirst.1]
      exact .collect hfirst.2
    · cases h
  | marshal id =>
    simp only [readTournaments] at h
    split at h
    · rename_i hx
      cases h
      exact .marshal hx
    · cases h

/-! ### The server -/

/-- The tournaments of a server over its restarts. -/
structure TournamentServer where
  store : TournamentStore
  /-- What the file decodes to; `none` if there is none, or it cannot be decoded. -/
  file : Option (List (Option Tournament))
  /-- What the writer has collected and not yet written. -/
  pass : TournamentPass
  /-- Ghost: the ids that `CreateTournament` has returned. -/
  given : List UInt32

/-- A server that has not been asked anything, with whatever file it finds. -/
def newTournamentServer (file : Option (List (Option Tournament))) : TournamentServer :=
  ⟨newTournamentStore, file, none, []⟩

inductive TournamentEvent
  | call (e : TournamentCall)
  /-- Any other call: it fills the store if it is the first one. -/
  | look
  /-- A move of the writer.  `tournamentDirty` is set by calls that may have released the lock before, so every
  moment is possible. -/
  | read (c : TournamentMove)
  /-- The writer writes what it has collected, or fails. -/
  | write (ok : Bool)
  | restart

namespace TournamentServer

/-- The file as `tournamentInit` sees it; `fileSet` says whether `NEXTENDO_TOURNAMENT_FILE` is set. -/
def found (fileSet : Bool) (s : TournamentServer) : Option (List (Option Tournament)) :=
  if fileSet then s.file else none

/-- The list that `tournamentInit` reads. -/
def visible (fileSet : Bool) (s : TournamentServer) : List (Option Tournament) := (s.found fileSet).getD []

/-- The records that wait to be written. -/
def waiting (s : TournamentServer) : List Tournament := s.pass.elim [] (fun r => r.1 ++ r.2)

/-- The store once it has been filled. -/
def filled (fileSet : Bool) (s : TournamentServer) : TournamentStore :=
  tournamentInit (fileEnv (s.found fileSet)) s.store

end TournamentServer

/-- One step of the server.  The writer runs once the store has been filled, and only if a file is set. -/
def tournamentStep (fileSet : Bool) (s : TournamentServer) : TournamentEvent → Option TournamentServer
  | .call e =>
    let (t, x) := e.run (s.found fileSet) s.store
    some { s with store := t, given := s.given ++ (x.map (fun x => x.id)).toList }
  | .look => some { s with store := s.filled fileSet }
  | .read c =>
    if fileSet ∧ s.store.initialised then
      (readTournaments s.store s.pass c).map (fun (t, pass) => { s with store := t, pass })
    else
      none
  | .write ok =>
    match s.pass with
    | none => none
    | some r => some { s with file := if ok then some (listed r) else s.file, pass := none }
  | .restart => some { s with store := newTournamentStore, pass := none }

/-! ### What a call does -/

/-- The store behind `CreateTournament`: unchanged, one id further, or with the new tournament. -/
theorem createTournament_cases (env : TournamentEnv) (owner : UInt64) (payload : Bytes)
    (t : TournamentStore) :
    createTournament env owner payload t = (tournamentInit env t, none) ∨
    createTournament env owner payload t =
      ({ tournamentInit env t with nextID := (tournamentInit env t).nextID + 1 }, none) ∨
    ∃ x, x.id = (tournamentInit env t).nextID ∧ validStoredTournament x = true ∧
      createTournament env owner payload t =
        ({ tournamentInit env t with
            nextID := (tournamentInit env t).nextID + 1
            byID := (tournamentInit env t).byID.insert (tournamentInit env t).nextID x
            dirty := true }, some x) := by
  unfold createTournament
  dsimp only
  split
  · exact .inl rfl
  · split
    · exact .inl rfl
    · split
      · exact .inl rfl
      · split
        · rename_i hvalid
          exact .inr (.inr ⟨_, rfl, hvalid, rfl⟩)
        · exact .inr (.inl rfl)

theorem joinTournament_cases (env : TournamentEnv) (id : UInt32) (pid : UInt64) (t : TournamentStore) :
    (joinTournament env id pid t).1 = tournamentInit env t ∨
    ∃ x participants, (tournamentInit env t).find id = some x ∧
      (joinTournament env id pid t).1 = { tournamentInit env t with
        byID := (tournamentInit env t).byID.insert id { x with participants := participants }
        dirty := true } := by
  unfold joinTournament
  dsimp only
  split
  · exact .inl rfl
  · rename_i x hx
    split
    · exact .inl rfl
    · exact .inr ⟨x, _, hx, rfl⟩

theorem deleteTournament_cases (env : TournamentEnv) (id : UInt32) (pid : UInt64) (t : TournamentStore) :
    (deleteTournament env id pid t).1 = tournamentInit env t ∨
    (deleteTournament env id pid t).1 = { tournamentInit env t with
      byID := (tournamentInit env t).byID.erase id, dirty := true } := by
  unfold deleteTournament
  dsimp only
  split
  · exact .inl rfl
  · split
    · exact .inl rfl
    · exact .inr rfl

/-! ### Filling the store -/

/-- `id` has been passed by `nextID`, which may have wrapped to 0. -/
def Passed (nextID id : UInt32) : Prop := nextID = 0 ∨ id < nextID

theorem lt_add_one (h : id ≠ 0xFFFFFFFF) : id < id + 1 := by
  have hne : id.toNat ≠ 4294967295 := fun heq => h (UInt32.toNat_inj.mp heq)
  have hlt := id.toNat_lt
  rw [UInt32.lt_iff_toNat_lt, UInt32.toNat_add]
  show id.toNat < (id.toNat + 1) % 2 ^ 32
  omega

theorem passed_self (id : UInt32) : Passed (id + 1) id := by
  by_cases h : id = 0xFFFFFFFF
  · left
    rw [h]
    rfl
  · exact .inr (lt_add_one h)

/-- An id that was passed stays passed when the next one is given. -/
theorem Passed.succ {nextID : UInt32} (hne : nextID ≠ 0) (h : Passed nextID id) : Passed (nextID + 1) id := by
  rcases passed_self nextID with hzero | hlt
  · exact .inl hzero
  · exact .inr (UInt32.lt_trans (h.resolve_left hne) hlt)

/-- What filling the store from `list` gives. -/
structure Filled (t : TournamentStore) (list : List (Option Tournament)) (t' : TournamentStore) : Prop where
  nextID : t.nextID ≤ t'.nextID
  passed : ∀ x, some x ∈ list → x.id < t'.nextID
  quarantined : ∀ x ∈ t'.quarantined, x ∈ t.quarantined ∨
    some x ∈ list ∧ validStoredTournament x = false
  stored : ∀ id x, t'.byID.lookup id = some x → t.byID.lookup id = some x ∨
    some x ∈ list ∧ x.id = id ∧ validStoredTournament x = true

/-- One record. -/
theorem filled_restore (ht : t.nextID ≠ 0) (hx : x.id ≠ 0xFFFFFFFF) :
    Filled t [some x] (restore t (some x)) := by
  by_cases hzero : x.id = 0
  · have hsame : restore t (some x) = t := if_pos hzero
    rw [hsame]
    refine ⟨UInt32.le_refl _, ?_, fun y hy => .inl hy, fun id y hy => .inl hy⟩
    intro y hy
    obtain rfl : y = x := by simpa using hy
    rw [hzero]
    exact UInt32.pos_iff_ne_zero.mpr ht
  · have hnext : ∀ n : UInt32, n = (if t.nextID ≤ x.id then x.id + 1 else t.nextID) →
        t.nextID ≤ n ∧ x.id < n := by
      intro n hn
      subst hn
      split
      · rename_i hle
        exact ⟨UInt32.le_of_lt (UInt32.lt_of_le_of_lt hle (lt_add_one hx)), lt_add_one hx⟩
      · rename_i hlt
        exact ⟨UInt32.le_refl _, UInt32.not_le.mp hlt⟩
    have hpassed : ∀ n : UInt32, x.id < n → ∀ y, some y ∈ [some x] → y.id < n := by
      intro n hn y hy
      obtain rfl : y = x := by simpa using hy
      exact hn
    by_cases hvalid : validStoredTournament x = true
    · rw [restore_valid hzero hvalid]
      refine ⟨(hnext _ rfl).1, hpassed _ (hnext _ rfl).2, fun y hy => .inl hy, fun id y hy => ?_⟩
      change (t.byID.insert x.id x).lookup id = some y at hy
      rw [GoMap.lookup_insert_eq] at hy
      split at hy
      · rename_i hid
        cases hy
        exact .inr ⟨List.mem_singleton_self _, hid.symm, hvalid⟩
      · exact .inl hy
    · have hinvalid : validStoredTournament x = false := Bool.eq_false_of_not_eq_true hvalid
      rw [restore_invalid hzero hinvalid]
      refine ⟨(hnext _ rfl).1, hpassed _ (hnext _ rfl).2, fun y hy => ?_, fun id y hy => .inl hy⟩
      rcases List.mem_append.mp hy with hold | hnew
      · exact .inl hold
      · obtain rfl : y = x := by simpa using hnew
        exact .inr ⟨List.mem_singleton_self _, hinvalid⟩

/-- **Filling the store.**  Every record of the file is passed, however the valid ones and the others are
mixed. -/
theorem filled_foldl (list : List (Option Tournament)) :
    ∀ t : TournamentStore, t.nextID ≠ 0 → (∀ x, some x ∈ list → x.id ≠ 0xFFFFFFFF) →
      Filled t list (list.foldl restore t) := by
  induction list with
  | nil =>
    intro t _ _
    exact ⟨UInt32.le_refl _, nofun, fun y hy => .inl hy, fun id y hy => .inl hy⟩
  | cons r list ih =>
    intro t ht hmax
    rw [List.foldl_cons]
    cases r with
    | none =>
      have h := ih t ht (fun x hx => hmax x (List.mem_cons_of_mem _ hx))
      refine ⟨h.nextID, fun x hx => h.passed x ?_, fun x hx => ?_, fun id x hx => ?_⟩
      · simpa using hx
      · exact (h.quarantined x hx).imp_right fun hnew => ⟨List.mem_cons_of_mem _ hnew.1, hnew.2⟩
      · exact (h.stored id x hx).imp_right fun hnew => ⟨List.mem_cons_of_mem _ hnew.1, hnew.2⟩
    | some r =>
      have hr := filled_restore ht (hmax r List.mem_cons_self)
      have hne : (restore t (some r)).nextID ≠ 0 := by
        intro hzero
        have hle := hr.nextID
        rw [hzero] at hle
        exact ht (UInt32.le_zero_iff.mp hle)
      have h := ih (restore t (some r)) hne (fun x hx => hmax x (List.mem_cons_of_mem _ hx))
      refine ⟨UInt32.le_trans hr.nextID h.nextID, fun x hx => ?_, fun x hx => ?_, fun id x hx => ?_⟩
      · rcases List.mem_cons.mp hx with heq | htail
        · exact UInt32.lt_of_lt_of_le (hr.passed x (by rw [heq]; exact List.mem_singleton_self _)) h.nextID
        · exact h.passed x htail
      · rcases h.quarantined x hx with hold | hnew
        · exact (hr.quarantined x hold).imp_right fun hnew =>
            ⟨List.mem_cons.mpr (.inl (by simpa using hnew.1)), hnew.2⟩
        · exact .inr ⟨List.mem_cons_of_mem _ hnew.1, hnew.2⟩
      · rcases h.stored id x hx with hold | hnew
        · exact (hr.stored id x hold).imp_right fun hnew =>
            ⟨List.mem_cons.mpr (.inl (by simpa using hnew.1)), hnew.2⟩
        · exact .inr ⟨List.mem_cons_of_mem _ hnew.1, hnew.2⟩

/-! ### The invariant -/

/-- A store that has been filled: `nextID` has passed every id that was given and every record that there is,
and the records that were put aside have other ids than those that were given. -/
structure Running (fileSet : Bool) (s : TournamentServer) : Prop where
  given : ∀ id ∈ s.given, Passed s.store.nextID id
  file : ∀ x, some x ∈ s.visible fileSet → Passed s.store.nextID x.id
  waiting : ∀ x ∈ s.waiting, Passed s.store.nextID x.id ∧ (validStoredTournament x = false → x.id ∉ s.given)
  stored : ∀ id x, s.store.byID.lookup id = some x →
    x.id = id ∧ validStoredTournament x = true ∧ Passed s.store.nextID id
  quarantined : ∀ x ∈ s.store.quarantined, Passed s.store.nextID x.id ∧ x.id ∉ s.given

/-- No id was given twice, and the invalid records of the file have other ids. -/
structure IDsApart (fileSet : Bool) (s : TournamentServer) : Prop where
  nodup : s.given.Nodup
  file : ∀ x, some x ∈ s.visible fileSet → validStoredTournament x = false → x.id ∉ s.given
  fresh : s.store.initialised = false → s.store = newTournamentStore ∧ s.pass = none
  running : s.store.initialised = true → Running fileSet s

/-- The file makes `nextID` pass every id that was given, without wrapping. -/
structure CoversGiven (fileSet : Bool) (s : TournamentServer) : Prop where
  given : ∀ id ∈ s.given, ∃ r ∈ s.visible fileSet, ∃ x ∈ r, id ≤ x.id
  max : ∀ r ∈ s.visible fileSet, ∀ x ∈ r, x.id ≠ 0xFFFFFFFF

-- The list of the ids is gone through, not the type of the ids, which is finite as well.
instance (fileSet : Bool) (s : TournamentServer) : Decidable (CoversGiven fileSet s) :=
  have : Decidable (∀ id ∈ s.given, ∃ r ∈ s.visible fileSet, ∃ x ∈ r, id ≤ x.id) := List.decidableBAll _ _
  decidable_of_iff ((∀ id ∈ s.given, ∃ r ∈ s.visible fileSet, ∃ x ∈ r, id ≤ x.id) ∧
    ∀ r ∈ s.visible fileSet, ∀ x ∈ r, x.id ≠ 0xFFFFFFFF) ⟨fun h => ⟨h.1, h.2⟩, fun h => ⟨h.given, h.max⟩⟩

/-- The step fills the store only from a file that covers the ids given so far, and gives an id only while
`nextID` has not wrapped to 0. -/
def KeepsIDsApart (fileSet : Bool) (s : TournamentServer) : TournamentEvent → Prop
  | .call (.create ..) => (s.store.initialised = false → CoversGiven fileSet s) ∧ (s.filled fileSet).nextID ≠ 0
  | .call (.join ..) => s.store.initialised = false → CoversGiven fileSet s
  | .call (.delete ..) => s.store.initialised = false → CoversGiven fileSet s
  | .look => s.store.initialised = false → CoversGiven fileSet s
  | _ => True

instance (fileSet : Bool) (s : TournamentServer) : DecidablePred (KeepsIDsApart fileSet s)
  | .call (.create ..) => inferInstanceAs (Decidable (_ ∧ _))
  | .call (.join ..) => inferInstanceAs (Decidable (_ → _))
  | .call (.delete ..) => inferInstanceAs (Decidable (_ → _))
  | .look => inferInstanceAs (Decidable (_ → _))
  | .read _ => inferInstanceAs (Decidable True)
  | .write _ => inferInstanceAs (Decidable True)
  | .restart => inferInstanceAs (Decidable True)

section Steps

variable {fileSet : Bool} {s : TournamentServer}

/-- In a store that has been filled. -/
theorem IDsApart.of_running (hnodup : s.given.Nodup)
    (hfile : ∀ x, some x ∈ s.visible fileSet → validStoredTournament x = false → x.id ∉ s.given)
    (hinit : s.store.initialised = true) (hrun : Running fileSet s) : IDsApart fileSet s :=
  ⟨hnodup, hfile, fun hfalse => Bool.noConfusion (hinit.symm.trans hfalse), fun _ => hrun⟩

/-- **A call fills the store if it is the first one.** -/
theorem apart_init (h : IDsApart fileSet s) (hcovers : s.store.initialised = false → CoversGiven fileSet s) :
    IDsApart fileSet { s with store := s.filled fileSet } := by
  cases hinit : s.store.initialised with
  | true =>
    rw [TournamentServer.filled, tournamentInit_of_initialised _ hinit]
    exact h
  | false =>
    obtain ⟨hstore, hpass⟩ := h.fresh hinit
    have hcover := hcovers hinit
    have hfilled := filled_foldl (s.visible fileSet) { newTournamentStore with initialised := true }
      (show (1000 : UInt32) ≠ 0 by decide) (fun x hx => hcover.max (some x) hx x rfl)
    have hinitial : s.filled fileSet =
        (s.visible fileSet).foldl restore { newTournamentStore with initialised := true } := by
      rw [TournamentServer.filled, hstore]
      rfl
    rw [← hinitial] at hfilled
    refine .of_running h.nodup h.file (initialised_tournamentInit _ _) ⟨?_, ?_, ?_, ?_, ?_⟩
    · intro id hid
      obtain ⟨_, hx, x, rfl, hle⟩ := hcover.given id hid
      exact .inr (UInt32.lt_of_le_of_lt hle (hfilled.passed x hx))
    · intro x hx
      exact .inr (hfilled.passed x hx)
    · intro x hx
      change x ∈ s.waiting at hx
      rw [TournamentServer.waiting, hpass] at hx
      cases hx
    · intro id x hx
      rcases hfilled.stored id x hx with hold | ⟨hmem, rfl, hvalid⟩
      · cases hold
      · exact ⟨rfl, hvalid, .inr (hfilled.passed x hmem)⟩
    · intro x hx
      rcases hfilled.quarantined x hx with hold | ⟨hmem, hinvalid⟩
      · cases hold
      · exact ⟨.inr (hfilled.passed x hmem), h.file x hmem hinvalid⟩

/-- A filled store that goes on with other tournaments and the same counter. -/
theorem apart_stored (h : IDsApart fileSet s) (hinit : s.store.initialised = true)
    {byID : GoMap UInt32 Tournament} {dirty : Bool}
    (hstored : ∀ id x, byID.lookup id = some x →
      x.id = id ∧ validStoredTournament x = true ∧ Passed s.store.nextID id) :
    IDsApart fileSet { s with store := { s.store with byID := byID, dirty := dirty } } := by
  have hrun := h.running hinit
  exact .of_running h.nodup h.file hinit ⟨hrun.given, hrun.file, hrun.waiting, hstored, hrun.quarantined⟩

/-- A filled store that passes one id without giving it. -/
theorem apart_skip (h : IDsApart fileSet s) (hinit : s.store.initialised = true)
    (hne : s.store.nextID ≠ 0) :
    IDsApart fileSet { s with store := { s.store with nextID := s.store.nextID + 1 } } := by
  have hrun := h.running hinit
  refine .of_running h.nodup h.file hinit ⟨?_, ?_, ?_, ?_, ?_⟩
  · exact fun id hid => (hrun.given id hid).succ hne
  · exact fun x hx => (hrun.file x hx).succ hne
  · exact fun x hx => ⟨(hrun.waiting x hx).1.succ hne, (hrun.waiting x hx).2⟩
  · intro id x hx
    obtain ⟨hid, hvalid, hpassed⟩ := hrun.stored id x hx
    exact ⟨hid, hvalid, hpassed.succ hne⟩
  · exact fun x hx => ⟨(hrun.quarantined x hx).1.succ hne, (hrun.quarantined x hx).2⟩

/-- The id that is given next is none of those that were passed. -/
theorem Passed.ne_nextID {nextID : UInt32} (hne : nextID ≠ 0) (h : Passed nextID id) : id ≠ nextID := by
  intro heq
  rw [heq] at h
  exact UInt32.lt_irrefl _ (h.resolve_left hne)

/-- **An id is given.** -/
theorem apart_give (h : IDsApart fileSet s) (hinit : s.store.initialised = true) (hne : s.store.nextID ≠ 0)
    (hid : x.id = s.store.nextID) (hvalid : validStoredTournament x = true) :
    IDsApart fileSet { s with
      store := { s.store with
        nextID := s.store.nextID + 1
        byID := s.store.byID.insert s.store.nextID x
        dirty := true }
      given := s.given ++ [x.id] } := by
  have hrun := h.running hinit
  -- whatever has been passed and was not given is not the new id either
  have hother : ∀ id, Passed s.store.nextID id → id ∉ s.given → id ∉ s.given ++ [x.id] := by
    intro id hpassed hnot hmem
    rcases List.mem_append.mp hmem with hold | hnew
    · exact hnot hold
    · rw [List.mem_singleton, hid] at hnew
      exact hpassed.ne_nextID hne hnew
  refine .of_running ?_ (fun y hy hinvalid => hother y.id (hrun.file y hy) (h.file y hy hinvalid)) hinit
    ⟨?_, fun y hy => (hrun.file y hy).succ hne, ?_, ?_, ?_⟩
  · rw [List.nodup_append]
    refine ⟨h.nodup, List.nodup_singleton _, fun id hold id' hnew => ?_⟩
    rw [List.mem_singleton, hid] at hnew
    rw [hnew]
    exact (hrun.given id hold).ne_nextID hne
  · intro id hmem
    rcases List.mem_append.mp hmem with hold | hnew
    · exact (hrun.given id hold).succ hne
    · rw [List.mem_singleton, hid] at hnew
      rw [hnew]
      exact passed_self _
  · intro y hy
    obtain ⟨hpassed, hapart⟩ := hrun.waiting y hy
    exact ⟨hpassed.succ hne, fun hinvalid => hother y.id hpassed (hapart hinvalid)⟩
  · intro id y hy
    change (s.store.byID.insert s.store.nextID x).lookup id = some y at hy
    rw [GoMap.lookup_insert_eq] at hy
    split at hy
    · rename_i heq
      cases hy
      exact ⟨hid.trans heq.symm, hvalid, heq ▸ passed_self _⟩
    · obtain ⟨hkey, hval, hpassed⟩ := hrun.stored id y hy
      exact ⟨hkey, hval, hpassed.succ hne⟩
  · intro y hy
    obtain ⟨hpassed, hapart⟩ := hrun.quarantined y hy
    exact ⟨hpassed.succ hne, hother y.id hpassed hapart⟩

/-- The writer collects the records of the store, or comes to one of them again. -/
theorem apart_read (h : IDsApart fileSet s) (hinit : s.store.initialised = true) {c : TournamentMove}
    {pass : TournamentPass} (hmove : TournamentMoved s.store s.pass c t pass) :
    IDsApart fileSet { s with store := t, pass } := by
  have hrun := h.running hinit
  have hstored : ∀ id x, s.store.byID.lookup id = some x →
      Passed s.store.nextID x.id ∧ (validStoredTournament x = false → x.id ∉ s.given) := by
    intro id x hx
    obtain ⟨rfl, hvalid, hpassed⟩ := hrun.stored id x hx
    exact ⟨hpassed, fun hinvalid => Bool.noConfusion (hvalid.symm.trans hinvalid)⟩
  have hold : ∀ x ∈ s.waiting, Passed s.store.nextID x.id ∧ (validStoredTournament x = false → x.id ∉ s.given) :=
    hrun.waiting
  unfold TournamentServer.waiting at hold
  generalize s.pass = old at hmove hold
  cases hmove with
  | collect _ =>
    refine .of_running h.nodup h.file hinit ⟨hrun.given, hrun.file, fun x hx => ?_, hrun.stored, hrun.quarantined⟩
    rcases List.mem_append.mp hx with hq | hlisted
    · exact ⟨(hrun.quarantined x hq).1, fun _ => (hrun.quarantined x hq).2⟩
    · obtain ⟨id, -, hid⟩ := List.mem_filterMap.mp hlisted
      exact hstored id x hid
  | marshal hx₀ =>
    refine .of_running h.nodup h.file hinit ⟨hrun.given, hrun.file, fun x hx => ?_, hrun.stored, hrun.quarantined⟩
    rcases List.mem_append.mp hx with hq | hlisted
    · exact hold x (List.mem_append_left _ hq)
    · obtain ⟨y, hy, rfl⟩ := List.mem_map.mp hlisted
      split
      · exact hstored _ _ hx₀
      · exact hold y (List.mem_append_right _ hy)

/-- What the file shows after a write is what it showed before, or the list of the writer. -/
theorem mem_visible_write {r : List Tournament × List Tournament} (hr : s.pass = some r) (ok : Bool)
    (hx : some x ∈ TournamentServer.visible fileSet
      { s with file := if ok then some (listed r) else s.file, pass := none }) :
    some x ∈ s.visible fileSet ∨ x ∈ s.waiting := by
  unfold TournamentServer.visible TournamentServer.found at hx ⊢
  cases fileSet with
  | false => exact .inl hx
  | true =>
    cases ok with
    | false => exact .inl hx
    | true =>
      right
      obtain ⟨y, hy, heq⟩ := List.mem_map.mp hx
      obtain rfl := Option.some.inj heq
      rw [TournamentServer.waiting, hr]
      exact hy

theorem apart_write (h : IDsApart fileSet s) {r : List Tournament × List Tournament} (hr : s.pass = some r)
    (ok : Bool) :
    IDsApart fileSet { s with file := if ok then some (listed r) else s.file, pass := none } := by
  -- the writer is there only behind a store that has been filled
  have hinit : s.store.initialised = true := by
    by_contra hfalse
    have hnone := (h.fresh (Bool.eq_false_of_not_eq_true hfalse)).2
    rw [hr] at hnone
    cases hnone
  have hrun := h.running hinit
  refine .of_running h.nodup (fun x hx hinvalid => ?_) hinit
    ⟨hrun.given, fun x hx => ?_, fun _ hx => absurd hx List.not_mem_nil, hrun.stored, hrun.quarantined⟩
  · rcases mem_visible_write hr ok hx with hfile | hwaiting
    · exact h.file x hfile hinvalid
    · exact (hrun.waiting x hwaiting).2 hinvalid
  · rcases mem_visible_write hr ok hx with hfile | hwaiting
    · exact hrun.file x hfile
    · exact (hrun.waiting x hwaiting).1

/-- A call. -/
theorem apart_call {e : TournamentCall} (hC : KeepsIDsApart fileSet s (.call e)) (h : IDsApart fileSet s) :
    IDsApart fileSet { s with
      store := (e.run (s.found fileSet) s.store).1
      given := s.given ++ ((e.run (s.found fileSet) s.store).2.map (fun x => x.id)).toList } := by
  have hsame : s.given ++ ((none : Option Tournament).map (fun x => x.id)).toList = s.given :=
    List.append_nil _
  have hinit : (s.filled fileSet).initialised = true := initialised_tournamentInit _ _
  cases e with
  | create owner payload mark code now =>
    obtain ⟨hcovers, hne⟩ := hC
    have hfilled := apart_init h hcovers
    simp only [TournamentCall.run]
    rcases createTournament_cases ⟨s.found fileSet, mark, code, now, []⟩ owner payload s.store with
      heq | heq | ⟨x, hid, hvalid, heq⟩ <;> rw [heq]
    · rw [hsame]
      exact hfilled
    · rw [hsame]
      exact apart_skip hfilled hinit hne
    · exact apart_give hfilled hinit hne hid hvalid
  | join id pid =>
    have hfilled := apart_init h hC
    simp only [TournamentCall.run]
    rw [hsame]
    rcases joinTournament_cases (fileEnv (s.found fileSet)) id pid s.store with heq | ⟨x, ps, hx, heq⟩ <;> rw [heq]
    · exact hfilled
    · refine apart_stored hfilled hinit fun id' y hy => ?_
      obtain ⟨hlookup, hvalid⟩ := Option.filter_eq_some_iff.mp hx
      have hold := (hfilled.running hinit).stored id x hlookup
      rw [GoMap.lookup_insert_eq] at hy
      split at hy
      · rename_i heq'
        cases hy
        exact ⟨hold.1.trans heq'.symm, hvalid, heq' ▸ hold.2.2⟩
      · exact (hfilled.running hinit).stored id' y hy
  | delete id pid =>
    have hfilled := apart_init h hC
    simp only [TournamentCall.run]
    rw [hsame]
    rcases deleteTournament_cases (fileEnv (s.found fileSet)) id pid s.store with heq | heq <;> rw [heq]
    · exact hfilled
    · refine apart_stored hfilled hinit fun id' y hy => ?_
      rw [GoMap.lookup_erase_eq] at hy
      split at hy
      · cases hy
      · exact (hfilled.running hinit).stored id' y hy

/-- **One step.** -/
theorem apart_step {s' : TournamentServer} {e : TournamentEvent} (hC : KeepsIDsApart fileSet s e)
    (h : IDsApart fileSet s) (hstep : tournamentStep fileSet s e = some s') : IDsApart fileSet s' := by
  cases e with
  | call e =>
    cases hstep
    exact apart_call hC h
  | look =>
    cases hstep
    exact apart_init h hC
  | read c =>
    obtain ⟨⟨-, hinit⟩, hread⟩ := Option.ite_none_right_eq_some.mp hstep
    obtain ⟨⟨t, pass⟩, hmove, rfl⟩ := Option.map_eq_some_iff.mp hread
    exact apart_read h hinit (tournamentMoved hmove)
  | write ok =>
    simp only [tournamentStep] at hstep
    split at hstep
    · cases hstep
    · rename_i r hr
      cases hstep
      exact apart_write h hr ok
  | restart =>
    cases hstep
    exact ⟨h.nodup, h.file, fun _ => ⟨rfl, rfl⟩, fun htrue => Bool.noConfusion htrue⟩

end Steps

/-! ### Runs -/

/-- **Ids of tournaments.**  In every run of calls, ticks of the writer (which may fail) and restarts, from
any file, whose steps fill the store only from files that cover the ids given so far and give ids only while
`nextID` has not wrapped: no id is given twice, and none is the id of a record that was put aside. -/
theorem tournament_ids_unique (fileSet : Bool) (file : Option (List (Option Tournament)))
    (es : List TournamentEvent) (s : TournamentServer)
    (hC : Steps (tournamentStep fileSet) (KeepsIDsApart fileSet) (newTournamentServer file) es)
    (h : run (tournamentStep fileSet) (newTournamentServer file) es = some s) :
    s.given.Nodup ∧ ∀ x ∈ s.store.quarantined, x.id ∉ s.given := by
  have hstart : IDsApart fileSet (newTournamentServer file) :=
    ⟨List.nodup_nil, fun _ _ _ => List.not_mem_nil, fun _ => ⟨rfl, rfl⟩, fun htrue => Bool.noConfusion htrue⟩
  have hapart := run_invariant_of_steps (fun s e s' hC hs hstep => apart_step hC hs hstep) hC hstart h
  refine ⟨hapart.nodup, fun x hx => ?_⟩
  cases hinit : s.store.initialised with
  | false =>
    rw [(hapart.fresh hinit).1] at hx
    cases hx
  | true => exact ((hapart.running hinit).quarantined x hx).2

/-- A structure with a name without letters, no rules and an empty code. -/
def tournamentPayload : Bytes :=
  List.replicate 0x69 0 ++ [2, 0, 0, 0] ++ [0xFF, 0, 0, 0, 0] ++ [1, 0, 0]

/-- The PID 7 creates a tournament. -/
def createTournamentEvent : TournamentEvent := .call (.create 7 tournamentPayload (fun _ => 0) (fun _ => 0) 0)

/-- Two tournaments are created and written, the server starts again from that file, and a third is created. -/
def createdOverRestart : List TournamentEvent :=
  [createTournamentEvent, createTournamentEvent, .read (.collect [1000, 1001]), .write true, .restart,
    createTournamentEvent]

theorem tournament_ids_unique_restart : ∃ s,
    run (tournamentStep true) (newTournamentServer none) createdOverRestart = some s ∧
      s.given = [1000, 1001, 1002] ∧ s.given.Nodup := by
  have hgiven : (run (tournamentStep true) (newTournamentServer none) createdOverRestart).map
      TournamentServer.given = some [1000, 1001, 1002] := by decide +kernel
  obtain ⟨s, hs, hids⟩ := Option.map_eq_some_iff.mp hgiven
  have hC : Steps (tournamentStep true) (KeepsIDsApart true) (newTournamentServer none) createdOverRestart := by
    decide +kernel
  exact ⟨s, hs, hids, (tournament_ids_unique true none _ s hC hs).1⟩

/-- A tournament is created and written, deleted and the deletion written.  After a restart its id is given
to another one. -/
theorem tournament_id_reused :
    (run (tournamentStep true) (newTournamentServer none)
      [createTournamentEvent, .read (.collect [1000]), .write true, .call (.delete 1000 7), .read (.collect []),
        .write true, .restart, createTournamentEvent]).map TournamentServer.given = some [1000, 1000] := by
  decide +kernel

end NextendoMatchmaking.Matchmaking
