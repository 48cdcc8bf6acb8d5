import NextendoMatchmaking.Library.Deferred
import NextendoMatchmaking.Wire.Stream

/-!
# Score boards

`recordScore` of `nextendo-nex/ranking_board.go` keeps the best score of each player in each category of a
tournament.  `boardFlusher` writes the boards to a file, and the first call of `boardInit` after a start reads it.
The map of maps `boards` is one map here, with the player as a part of the key: the code never leaves an inner
map empty.  Instants are in nanoseconds; the file has whole seconds.
-/

namespace NextendoMatchmaking.Ranking

open NextendoMatchmaking.Deferred

def scoreProfileLen : ℕ := 132

/-- `boardKey`. -/
structure BoardKey where
  tournament : UInt32
  category : UInt32
  deriving DecidableEq

/-- `boardEntry`. -/
structure BoardEntry where
  pid : UInt64
  score : UInt32
  profile : Bytes
  instant : Int
  deriving DecidableEq

/-- `boards`. -/
abbrev Boards := GoMap (BoardKey × UInt64) BoardEntry

variable {boards : Boards}

/-! ### Scores -/

/-- What `parseScoreSubmission` reads. -/
structure ScoreSubmission where
  tournament : UInt32
  category : UInt32
  score : UInt32
  profile : Bytes
  deriving DecidableEq

/-- The number of 32 bits at `offset`. -/
def le32At (body : Bytes) (offset : ℕ) : UInt32 := UInt32.ofNat (leNat ((body.drop offset).take 4))

/-- `parseScoreSubmission`. -/
def parseScoreSubmission (body : Bytes) : Option ScoreSubmission :=
  if body.length < 0x1d + scoreProfileLen then none
  else if leNat ((body.drop 0x1b).take 2) ≠ scoreProfileLen then none
  else if le32At body 0x05 = 0 then none
  else some {
    tournament := le32At body 0x05
    category := le32At body 0x09
    score := le32At body 0x11
    profile := (body.drop 0x1d).take scoreProfileLen }

/-- A submission that is taken has a tournament and a whole profile. -/
theorem parseScoreSubmission_spec {body : Bytes} {x : ScoreSubmission}
    (h : parseScoreSubmission body = some x) :
    x.tournament ≠ 0 ∧ x.profile.length = scoreProfileLen := by
  unfold parseScoreSubmission at h
  split at h
  · cases h
  · rename_i hlen
    split at h
    · cases h
    · split at h
      · cases h
      · rename_i htournament
        cases h
        refine ⟨htournament, ?_⟩
        rw [List.length_take, List.length_drop]
        omega

/-- `recordScore` at the instant `now` behind its call of `boardInit`: the boards, and whether the submission was
taken.  A score that is not better only brings its profile. -/
def keepBest (now : Int) (pid : UInt64) (body : Bytes) (boards : Boards) : Boards × Bool :=
  match parseScoreSubmission body with
  | none => (boards, false)
  | some x =>
    let k := (⟨x.tournament, x.category⟩, pid)
    let entry : BoardEntry := ⟨pid, x.score, x.profile, now⟩
    match boards.lookup k with
    | none => (boards.insert k entry, true)
    | some prev =>
      if x.score ≤ prev.score then (boards.insert k { prev with profile := x.profile }, true)
      else (boards.insert k entry, true)

/-! ### The file -/

/-- `boardPersisted`. -/
structure BoardPersisted where
  tournament : UInt32
  category : UInt32
  pid : UInt64
  score : UInt32
  profile : Bytes
  seconds : Int
  deriving DecidableEq

def nanoseconds : Int := 1000000000

/-- The record of an entry, as `boardFlusher` writes it. -/
def persistEntry (k : BoardKey × UInt64) (e : BoardEntry) : BoardPersisted :=
  ⟨k.1.tournament, k.1.category, k.2, e.score, e.profile, e.instant / nanoseconds⟩

/-- The entry of a record, as `boardInit` reads it. -/
def restoreEntry (p : BoardPersisted) : Option ((BoardKey × UInt64) × BoardEntry) :=
  if p.profile.length ≠ scoreProfileLen ∨ p.tournament = 0 then none
  else some ((⟨p.tournament, p.category⟩, p.pid), ⟨p.pid, p.score, p.profile, p.seconds * nanoseconds⟩)

/-- The boards on a file; `none` is a file that cannot be read or decoded. -/
def loadedBoards (file : Option (List BoardPersisted)) : Boards :=
  ((file.getD []).filterMap restoreEntry).foldl (fun m p => m.insert p.1 p.2) ∅

/-- `boards` with `boardOnce`.  Everything that writes to the boards calls `boardInit` first. -/
structure BoardStore where
  boards : Boards
  once : Bool
  unread : once = false → boards = ∅

/-- The boards of a process that starts. -/
def newBoardStore : BoardStore := ⟨∅, false, fun _ => rfl⟩

/-- `boardInit`: the first call reads the file. -/
def boardInit (file : Option (List BoardPersisted)) (b : BoardStore) : BoardStore :=
  if b.once then b else ⟨loadedBoards file, true, nofun⟩

/-- `recordScore`. -/
def recordScore (file : Option (List BoardPersisted)) (now : Int) (pid : UInt64) (body : Bytes)
    (b : BoardStore) : BoardStore × Bool :=
  let (boards, taken) := keepBest now pid body (boardInit file b).boards
  (⟨boards, true, nofun⟩, taken)

theorem boardInit_of_once {b : BoardStore} (h : b.once = true) (file : Option (List BoardPersisted)) :
    boardInit file b = b := if_pos h

theorem boardInit_of_not_once {b : BoardStore} (h : b.once = false) (file : Option (List BoardPersisted)) :
    boardInit file b = ⟨loadedBoards file, true, nofun⟩ := by
  unfold boardInit
  rw [if_neg (by rw [h]; exact Bool.false_ne_true)]

theorem once_boardInit (file : Option (List BoardPersisted)) (b : BoardStore) : (boardInit file b).once = true := by
  unfold boardInit
  split
  · assumption
  · rfl

/-- The list that `boardFlusher` collects while it holds the lock. -/
def collectBoards (boards : Boards) (order : List (BoardKey × UInt64)) : List BoardPersisted :=
  (GoMap.entriesIn order boards).map (fun p => persistEntry p.1 p.2)

/-- A submission of a score: by whom, at which instant. -/
structure Submission where
  pid : UInt64
  body : Bytes
  now : Int

/-- The boards behind `boardInit` with `boardFlusher`, which reads them all at once, in any order. -/
def boardDesign :
    Design Boards (Option (List BoardPersisted)) (Option (List BoardPersisted)) Submission
      (List (BoardKey × UInt64)) where
  apply boards e := keepBest e.now e.pid e.body boards
  start := none
  read boards r order :=
    if r = none ∧ GoMap.Enumerates order boards then some (boards, some (collectBoards boards order)) else none
  complete _ r := r.isSome
  output r := r
  load _ file := loadedBoards file

theorem boardDesign_read {boards' : Boards} {r r' : Option (List BoardPersisted)} {order : List (BoardKey × UInt64)}
    (h : boardDesign.read boards r order = some (boards', r')) :
    GoMap.Enumerates order boards ∧ boards' = boards ∧ r' = some (collectBoards boards order) := by
  simp only [boardDesign] at h
  split at h
  · rename_i hfirst
    cases h
    exact ⟨hfirst.2, rfl, rfl⟩
  · cases h

theorem readsOnly_boards : ReadsOnly boardDesign := fun _ _ _ _ _ hmove => (boardDesign_read hmove).2.1

/-! ### The file and the boards -/

/-- The entry with the whole seconds of its instant. -/
def BoardEntry.wholeSeconds (e : BoardEntry) : BoardEntry :=
  { e with instant := e.instant / nanoseconds * nanoseconds }

/-- An entry that the file can hold. -/
structure BoardEntry.Storable (k : BoardKey × UInt64) (e : BoardEntry) : Prop where
  tournament : k.1.tournament ≠ 0
  pid : e.pid = k.2
  profile : e.profile.length = scoreProfileLen

def Storable (boards : Boards) : Prop := ∀ k e, boards.lookup k = some e → e.Storable k

theorem storable_insert (h : Storable boards) {k : BoardKey × UInt64} {e : BoardEntry} (he : e.Storable k) :
    Storable (boards.insert k e) := by
  intro k' e' hlookup
  rw [GoMap.lookup_insert_eq] at hlookup
  split at hlookup
  · rename_i hk
    cases hlookup
    rw [hk]
    exact he
  · exact h k' e' hlookup

theorem storable_keepBest (h : Storable boards) (now : Int) (pid : UInt64) (body : Bytes) :
    Storable (keepBest now pid body boards).1 := by
  unfold keepBest
  split
  · exact h
  · rename_i x hx
    obtain ⟨htournament, hprofile⟩ := parseScoreSubmission_spec hx
    dsimp only
    split
    · exact storable_insert h ⟨htournament, rfl, hprofile⟩
    · rename_i prev hprev
      split
      · exact storable_insert h ⟨htournament, (h _ prev hprev).pid, hprofile⟩
      · exact storable_insert h ⟨htournament, rfl, hprofile⟩

theorem storable_loadedBoards (file : Option (List BoardPersisted)) : Storable (loadedBoards file) := by
  intro k e hlookup
  rcases GoMap.mem_of_lookup_foldl_insert _ _ hlookup with hmem | hempty
  · obtain ⟨p, -, hp⟩ := List.mem_filterMap.mp hmem
    unfold restoreEntry at hp
    split at hp
    · cases hp
    · rename_i hfits
      rw [not_or] at hfits
      cases hp
      exact ⟨hfits.2, rfl, not_not.mp hfits.1⟩
  · rw [Finmap.lookup_empty] at hempty
    cases hempty

/-- A record of a storable entry is read back with whole seconds. -/
theorem restore_persist {k : BoardKey × UInt64} {e : BoardEntry} (h : e.Storable k) :
    restoreEntry (persistEntry k e) = some (k, e.wholeSeconds) := by
  have hfits : ¬ (e.profile.length ≠ scoreProfileLen ∨ k.1.tournament = 0) := by
    rw [not_or]
    exact ⟨not_not.mpr h.profile, h.tournament⟩
  show (if e.profile.length ≠ scoreProfileLen ∨ k.1.tournament = 0 then none else _) = _
  rw [if_neg hfits]
  show some (k, (⟨k.2, e.score, e.profile, e.instant / nanoseconds * nanoseconds⟩ : BoardEntry)) = _
  rw [← h.pid]
  rfl

/-- **The round trip of the boards.** -/
theorem loadedBoards_collect (h : Storable boards) {order : List (BoardKey × UInt64)}
    (horder : GoMap.Enumerates order boards) :
    loadedBoards (some (collectBoards boards order)) = GoMap.mapValues BoardEntry.wholeSeconds boards := by
  have hread : (collectBoards boards order).filterMap restoreEntry =
      (GoMap.entriesIn order boards).map (fun p => (p.1, p.2.wholeSeconds)) := by
    unfold collectBoards
    rw [List.filterMap_map, ← List.filterMap_eq_map]
    apply List.filterMap_congr
    intro p hp
    exact restore_persist (h p.1 p.2 (GoMap.mem_entriesIn.mp hp).2)
  show ((collectBoards boards order).filterMap restoreEntry).foldl _ ∅ = _
  rw [hread]
  apply GoMap.foldl_insert_entries
  intro k e
  rw [GoMap.lookup_mapValues, Option.map_eq_some_iff, List.mem_map]
  constructor
  · intro hmem
    obtain ⟨p, hp, heq⟩ := hmem
    cases heq
    exact ⟨p.2, (GoMap.mem_entriesIn.mp hp).2, rfl⟩
  · intro hlookup
    obtain ⟨e', he', rfl⟩ := hlookup
    have hmem : k ∈ order := (horder.2 k).mpr (Finmap.lookup_isSome.mp (by rw [he']; rfl))
    exact ⟨(k, e'), GoMap.mem_entriesIn.mpr ⟨hmem, he'⟩, rfl⟩

/-- What `boardInit` reads has whole seconds. -/
theorem wholeSeconds_loadedBoards (file : Option (List BoardPersisted)) :
    GoMap.mapValues BoardEntry.wholeSeconds (loadedBoards file) = loadedBoards file := by
  apply Finmap.ext_lookup
  intro k
  rw [GoMap.lookup_mapValues]
  cases hlookup : (loadedBoards file).lookup k with
  | none => rfl
  | some e =>
    rcases GoMap.mem_of_lookup_foldl_insert _ _ hlookup with hmem | hempty
    · obtain ⟨p, -, hp⟩ := List.mem_filterMap.mp hmem
      unfold restoreEntry at hp
      split at hp
      · cases hp
      · cases hp
        show some (BoardEntry.mk _ _ _ (p.seconds * nanoseconds / nanoseconds * nanoseconds)) = _
        rw [Int.mul_ediv_cancel _ (by decide)]
    · rw [Finmap.lookup_empty] at hempty
      cases hempty

/-- The list that the pass has collected is that of the boards. -/
def ReadsBoards (boards : Boards) (r : Option (List BoardPersisted)) : Prop :=
  ∀ list, r = some list → ∃ order, GoMap.Enumerates order boards ∧ list = collectBoards boards order

theorem keepBest_refused {now : Int} {pid : UInt64} {body : Bytes} (h : (keepBest now pid body boards).2 = false) :
    (keepBest now pid body boards).1 = boards := by
  unfold keepBest at h ⊢
  split
  · rfl
  · rename_i x hx
    rw [hx] at h
    dsimp only at h
    split at h
    · cases h
    · split at h <;> cases h

theorem lawful_boards :
    Lawful boardDesign Storable (fun _ => True) ReadsBoards
      (fun file boards => loadedBoards file = GoMap.mapValues BoardEntry.wholeSeconds boards) where
  start _ _ _ hr := nomatch hr
  quiet_agrees boards e file _ hquiet hagrees := by
    rw [hagrees]
    exact congrArg (GoMap.mapValues BoardEntry.wholeSeconds) (keepBest_refused hquiet).symm
  quiet_reads boards e r _ hquiet hreads :=
    (congrArg (fun boards => ReadsBoards boards r) (keepBest_refused hquiet)).mpr hreads
  read boards r order boards' r' _ _ _ hmove := by
    obtain ⟨horder, rfl, rfl⟩ := boardDesign_read hmove
    intro list hlist
    cases hlist
    exact ⟨order, horder, rfl⟩
  complete boards r hgood hreads hcomplete := by
    obtain ⟨list, rfl⟩ := Option.isSome_iff_exists.mp hcomplete
    obtain ⟨order, horder, rfl⟩ := hreads list rfl
    exact loadedBoards_collect hgood horder
  load _ file := (wholeSeconds_loadedBoards file).symm

end NextendoMatchmaking.Ranking
