import NextendoMatchmaking.Ranking.Competition

/-!
# Rankings after a restart

The file of the boards has whole seconds.  What `boardFor` lists after a restart is a listing of the same
players and scores by coarser keys, and it is the same list just when no player who is shown shares score and
second with another (`restart_ranking_iff`).
-/

namespace NextendoMatchmaking.Ranking

open NextendoMatchmaking.TopList

variable {a b : BoardEntry} {boards : Boards} {k : BoardKey} {pids pids' : List UInt64} {tour cat : UInt32}

/-! ### Whole seconds -/

theorem place_wholeSeconds_le (a b : BoardEntry) (h : a.place ≤ b.place) :
    a.wholeSeconds.place ≤ b.wholeSeconds.place := by
  simp only [BoardEntry.place, BoardEntry.wholeSeconds, Prod.Lex.toLex_le_toLex, nanoseconds] at h ⊢
  omega

theorem place_wholeSeconds_eq : a.wholeSeconds.place = b.wholeSeconds.place ↔
    a.score = b.score ∧ a.instant / nanoseconds = b.instant / nanoseconds := by
  rw [place_eq_place]
  refine and_congr_right (fun _ => ?_)
  simp only [BoardEntry.wholeSeconds, nanoseconds]
  omega

theorem boardEntries_mapValues (pids : List UInt64) (k : BoardKey) (boards : Boards) :
    boardEntries pids k (GoMap.mapValues BoardEntry.wholeSeconds boards) =
      (boardEntries pids k boards).map BoardEntry.wholeSeconds := by
  simp only [boardEntries, GoMap.lookup_mapValues, List.map_filterMap]

theorem listsPlayers_mapValues :
    ListsPlayers pids k (GoMap.mapValues BoardEntry.wholeSeconds boards) ↔ ListsPlayers pids k boards := by
  simp only [ListsPlayers, ← Finmap.lookup_isSome, GoMap.lookup_mapValues, Option.isSome_map]

theorem Keyed.mapValues (h : Keyed boards) : Keyed (GoMap.mapValues BoardEntry.wholeSeconds boards) := by
  intro q e hlookup
  rw [GoMap.lookup_mapValues] at hlookup
  obtain ⟨e', he', rfl⟩ := Option.map_eq_some_iff.mp hlookup
  exact h q e' he'

/-! ### The same list -/

/-- Players and scores in the order of the list. -/
def standings (entries : List BoardEntry) : List (UInt64 × UInt32) := entries.map (fun e => (e.pid, e.score))

/-- Without a tie of seconds among the first hundred, the list is the same. -/
theorem standings_restored (hkeyed : Keyed boards) (hpids : ListsPlayers pids ⟨tour, cat⟩ boards)
    (hpids' : ListsPlayers pids' ⟨tour, cat⟩ boards)
    (hties : ∀ a ∈ boardEntries pids ⟨tour, cat⟩ boards, ∀ b ∈ boardEntries pids ⟨tour, cat⟩ boards, a ≠ b →
      a.score = b.score → a.instant / nanoseconds = b.instant / nanoseconds →
      scoreMaxPerBoard ≤ (boardEntries pids ⟨tour, cat⟩ boards).countP (fun x => x.place < a.place)) :
    standings (topEntries pids' tour cat (GoMap.mapValues BoardEntry.wholeSeconds boards)) =
      standings (topEntries pids tour cat boards) := by
  obtain ⟨l, hl, hshown⟩ := topEntries_lists hkeyed hpids hpids
  obtain ⟨l', hl', hshown'⟩ := topEntries_lists hkeyed.mapValues (listsPlayers_mapValues.mpr hpids)
    (listsPlayers_mapValues.mpr hpids')
  rw [boardEntries_mapValues] at hl'
  have hunique : ∀ e ∈ (l.map BoardEntry.wholeSeconds).take scoreMaxPerBoard,
      ∀ e' ∈ (boardEntries pids ⟨tour, cat⟩ boards).map BoardEntry.wholeSeconds,
        e'.place = e.place → e' = e := by
    intro e he e' he' hplace
    rw [← List.map_take] at he
    obtain ⟨a, ha, rfl⟩ := List.mem_map.mp he
    obtain ⟨b, hb, rfl⟩ := List.mem_map.mp he'
    obtain ⟨hscore, hsecond⟩ := place_wholeSeconds_eq.mp hplace
    by_contra hne
    have hmany := hties a (hl.perm.mem_iff.mp (List.mem_of_mem_take ha)) b hb (fun heq => hne (by rw [heq]))
      hscore.symm hsecond.symm
    exact Nat.not_lt.mpr hmany (hl.countP_lt ha)
  rw [hshown, hshown', (hl.map place_wholeSeconds_le).take_eq hl' hunique, ← List.map_take]
  simp only [standings, List.map_map]
  rfl

/-- Two entries with one score and one second can change places, if the first hundred places reach so far. -/
theorem exists_other_standings (hkeyed : Keyed boards) (hdistinct : DistinctInstants boards)
    (hpids : ListsPlayers pids ⟨tour, cat⟩ boards) (ha : boards.lookup (⟨tour, cat⟩, a.pid) = some a)
    (hb : boards.lookup (⟨tour, cat⟩, b.pid) = some b) (hne : a ≠ b) (hscore : a.score = b.score)
    (hsecond : a.instant / nanoseconds = b.instant / nanoseconds)
    (hfew : (boardEntries pids ⟨tour, cat⟩ boards).countP (fun x => x.place < a.place) < scoreMaxPerBoard) :
    ∃ pids', ListsPlayers pids' ⟨tour, cat⟩ boards ∧
      standings (topEntries pids' tour cat (GoMap.mapValues BoardEntry.wholeSeconds boards)) ≠
        standings (topEntries pids tour cat boards) := by
  have hmem : ∀ {e}, e ∈ boardEntries pids ⟨tour, cat⟩ boards ↔ boards.lookup (⟨tour, cat⟩, e.pid) = some e :=
    mem_boardEntries hkeyed hpids
  obtain ⟨l, hl, hshown⟩ := topEntries_lists hkeyed hpids hpids
  obtain ⟨l', i, x, y, hl', hi, hx, hy, hxy⟩ := hl.exists_other_order (nodup_boardEntries hkeyed hpids)
    (fun x hx y hy => place_inj hdistinct (hmem.mp hx) (hmem.mp hy)) (hmem.mpr ha) (hmem.mpr hb) hne hfew
    place_wholeSeconds_le (place_wholeSeconds_eq.mpr ⟨hscore, hsecond⟩)
  rw [← boardEntries_mapValues] at hl'
  obtain ⟨pids', hpids', hshown'⟩ := exists_topEntries hkeyed.mapValues (listsPlayers_mapValues.mpr hpids) hl'
  refine ⟨pids', listsPlayers_mapValues.mp hpids', fun heq => ?_⟩
  -- At the place `i` the two lists have different players.
  have hsame := congrArg (fun l => l[i]?) heq
  simp only [standings, hshown, hshown', List.getElem?_map, List.getElem?_take_of_lt hi, hx, hy,
    Option.map_some, Option.some.injEq, Prod.mk.injEq, BoardEntry.wholeSeconds] at hsame
  have hpid : a.pid = b.pid := by
    rcases hxy with ⟨rfl, rfl⟩ | ⟨rfl, rfl⟩
    · exact hsame.1.symm
    · exact hsame.1
  rw [hpid, hb] at ha
  exact hne (Option.some.inj ha).symm

/-- A process that starts reads the boards back with whole seconds. -/
theorem boardInit_collect (h : Storable boards) {order : List (BoardKey × UInt64)}
    (horder : GoMap.Enumerates order boards) :
    (boardInit (some (collectBoards boards order)) newBoardStore).boards =
      GoMap.mapValues BoardEntry.wholeSeconds boards := by
  rw [boardInit_of_not_once rfl]
  exact loadedBoards_collect h horder

/-- **Rankings across a restart.**  For all boards that the file can hold, with pairwise distinct instants:
every list of a board is the same after a restart, whatever the orders of the loops, just when any two entries
of a board with one score and one second have a hundred others before them. -/
theorem restart_ranking_iff (file : Option (List BoardPersisted)) (boards : Boards) (hstorable : Storable boards)
    (hdistinct : DistinctInstants boards) :
    (∀ order, GoMap.Enumerates order boards → ∀ tour cat pids pids', ListsPlayers pids ⟨tour, cat⟩ boards →
        ListsPlayers pids' ⟨tour, cat⟩ (boardInit (some (collectBoards boards order)) newBoardStore).boards →
        standings (boardFor (some (collectBoards boards order)) pids' tour cat newBoardStore).2 =
          standings (boardFor file pids tour cat ⟨boards, true, nofun⟩).2) ↔
      ∀ k a b, boards.lookup (k, a.pid) = some a → boards.lookup (k, b.pid) = some b → a ≠ b →
        a.score = b.score → a.instant / nanoseconds = b.instant / nanoseconds →
        ∀ pids, ListsPlayers pids k boards →
          scoreMaxPerBoard ≤ (boardEntries pids k boards).countP (fun x => x.before a) := by
  have hkeyed := hstorable.keyed
  have hcount : ∀ pids k a, (boardEntries pids k boards).countP (fun x => x.before a) =
      (boardEntries pids k boards).countP (fun x => x.place < a.place) := fun pids k a =>
    List.countP_congr (fun x _ => by rw [before_iff, decide_eq_true_eq])
  simp only [hcount]
  constructor
  · rintro h ⟨tour, cat⟩ a b ha hb hne hscore hsecond pids hpids
    by_contra hfew
    obtain ⟨order, horder⟩ := GoMap.exists_enumerates boards
    obtain ⟨pids', hpids', hother⟩ := exists_other_standings hkeyed hdistinct hpids ha hb hne hscore hsecond
      (not_le.mp hfew)
    have hsame := h order horder tour cat pids pids' hpids
    unfold boardFor at hsame
    dsimp only at hsame
    rw [boardInit_collect hstorable horder] at hsame
    exact hother (hsame (listsPlayers_mapValues.mpr hpids'))
  · intro h order horder tour cat pids pids' hpids hpids'
    unfold boardFor
    dsimp only
    rw [boardInit_collect hstorable horder] at hpids' ⊢
    refine standings_restored hkeyed hpids (listsPlayers_mapValues.mp hpids') (fun a ha b hb => ?_)
    rw [mem_boardEntries hkeyed hpids] at ha hb
    exact fun hne hscore hsecond => h _ a b ha hb hne hscore hsecond pids hpids

theorem storable_boardsOf {entries : List (BoardKey × BoardEntry)}
    (h : ∀ p ∈ entries, p.1.tournament ≠ 0 ∧ p.2.profile.length = scoreProfileLen) :
    Storable (boardsOf entries) := by
  intro q e hlookup
  obtain ⟨p, hp, rfl, rfl⟩ := exists_of_lookup_boardsOf hlookup
  exact ⟨(h p hp).1, rfl, (h p hp).2⟩

theorem distinctInstants_boardsOf {entries : List (BoardKey × BoardEntry)}
    (h : (entries.map (fun p => p.2.instant)).Nodup) : DistinctInstants (boardsOf entries) := by
  intro q q' e e' hlookup hlookup' hinstant
  obtain ⟨p, hp, rfl, rfl⟩ := exists_of_lookup_boardsOf hlookup
  obtain ⟨p', hp', rfl, rfl⟩ := exists_of_lookup_boardsOf hlookup'
  rw [List.inj_on_of_nodup_map h hp hp' hinstant]

def twoPlayers : Boards := boardsOf [(⟨7, 393⟩, blankEntry 1 40 0), (⟨7, 393⟩, blankEntry 2 60 1)]

theorem restart_ranking_two :
    Storable twoPlayers ∧ DistinctInstants twoPlayers ∧
      ∀ order, GoMap.Enumerates order twoPlayers → ∀ tour cat pids pids',
        ListsPlayers pids ⟨tour, cat⟩ twoPlayers →
        ListsPlayers pids' ⟨tour, cat⟩
          (boardInit (some (collectBoards twoPlayers order)) newBoardStore).boards →
        standings (boardFor (some (collectBoards twoPlayers order)) pids' tour cat newBoardStore).2 =
          standings (boardFor none pids tour cat ⟨twoPlayers, true, nofun⟩).2 := by
  have hstorable : Storable twoPlayers := storable_boardsOf (by simp [blankEntry])
  have hdistinct : DistinctInstants twoPlayers := distinctInstants_boardsOf (by simp [blankEntry])
  refine ⟨hstorable, hdistinct, (restart_ranking_iff none twoPlayers hstorable hdistinct).mpr ?_⟩
  intro k a b ha hb hne hscore
  obtain ⟨p, hp, -, rfl⟩ := exists_of_lookup_boardsOf ha
  obtain ⟨p', hp', -, rfl⟩ := exists_of_lookup_boardsOf hb
  simp only [List.mem_cons, List.not_mem_nil, or_false] at hp hp'
  rcases hp with rfl | rfl <;> rcases hp' with rfl | rfl
  · exact absurd rfl hne
  · exact absurd hscore (by decide)
  · exact absurd hscore (by decide)
  · exact absurd rfl hne

/-- Two players with one score, the second a moment behind the first. -/
def photoFinish : Boards := boardsOf [(⟨7, 393⟩, blankEntry 1 50 100), (⟨7, 393⟩, blankEntry 2 50 200)]

/-- After a restart the second can be in front. -/
theorem restart_swaps : Storable photoFinish ∧ DistinctInstants photoFinish ∧
    ∃ order pids pids', GoMap.Enumerates order photoFinish ∧ ListsPlayers pids ⟨7, 393⟩ photoFinish ∧
      ListsPlayers pids' ⟨7, 393⟩ (boardInit (some (collectBoards photoFinish order)) newBoardStore).boards ∧
      standings (boardFor none pids 7 393 ⟨photoFinish, true, nofun⟩).2 = [(1, 50), (2, 50)] ∧
      standings (boardFor (some (collectBoards photoFinish order)) pids' 7 393 newBoardStore).2 =
        [(2, 50), (1, 50)] := by
  have hstorable : Storable photoFinish := storable_boardsOf (by simp [blankEntry])
  have hdistinct : DistinctInstants photoFinish := distinctInstants_boardsOf (by simp [blankEntry])
  have horder : GoMap.Enumerates [(⟨7, 393⟩, 1), (⟨7, 393⟩, 2)] photoFinish := by decide
  have hpids : ListsPlayers [1, 2] ⟨7, 393⟩ photoFinish := by decide
  have hpids' : ListsPlayers [2, 1] ⟨7, 393⟩ photoFinish := by decide
  refine ⟨hstorable, hdistinct, _, _, [2, 1], horder, hpids, ?_, ?_, ?_⟩
  · rw [boardInit_collect hstorable horder]
    exact listsPlayers_mapValues.mpr hpids'
  · decide
  · unfold boardFor
    dsimp only
    rw [boardInit_collect hstorable horder]
    decide

end NextendoMatchmaking.Ranking
