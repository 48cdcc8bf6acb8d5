import NextendoMatchmaking.Library.Runs
import NextendoMatchmaking.Login.Recall
import NextendoMatchmaking.Matchmaking.TournamentFile
import NextendoMatchmaking.Ranking.Board
import NextendoMatchmaking.Ranking.CommonData

/-!
# The four files

The server keeps four stores in files of their own: the tournaments, the score boards, the profiles and the
recall of logins.  Each has a flag, and a writer that looks at it every few seconds.  The writer takes the flag
down before it reads the store and does not raise it again when the file cannot be written: the change is then
on no list of things to do, and a restart loses it (`failed_write_forgotten`).

`files_agree`: in every run, a store whose flag is down, whose writer rests after a pass that went well and in
which no call is between its change and the flag, is what its file gives back.
-/

namespace NextendoMatchmaking.Server

open NextendoMatchmaking.Deferred NextendoMatchmaking.Runs NextendoMatchmaking.Matchmaking
  NextendoMatchmaking.Ranking NextendoMatchmaking.Login

/-! ### The server -/

/-- What the four files decode to. -/
structure Files where
  tournaments : Option (List (Option Tournament))
  boards : Option (List BoardPersisted)
  commonData : Option CommonData
  authRecall : RecallFile

/-- The four stores with their flags, writers and files. -/
structure FiledStores where
  tournaments : State TournamentStore TournamentPass (Option (List (Option Tournament)))
  boards : State Boards (Option (List BoardPersisted)) (Option (List BoardPersisted))
  commonData : State CommonData (Sweep UInt64 Bytes) (Option CommonData)
  authRecall : State RecallTable RecallPass RecallFile

/-- The stores of a server that has found these files. -/
def openStores (files : Files) (now : Int) : FiledStores where
  tournaments := begin tournamentDesign newTournamentStore files.tournaments
  boards := begin boardDesign ∅ files.boards
  commonData := begin commonDataDesign ∅ files.commonData
  authRecall := begin recallDesign ⟨∅, now, []⟩ files.authRecall

inductive StoreEvent
  | tournaments (e : Event TournamentCall TournamentMove)
  | boards (e : Event Submission (List (BoardKey × UInt64)))
  | commonData (e : Event (UInt64 × Bytes) UInt64)
  | authRecall (e : Event RecallCall RecallMove)

def storeStep (s : FiledStores) : StoreEvent → Option FiledStores
  | .tournaments e => (step tournamentDesign s.tournaments e).map (fun t => { s with tournaments := t })
  | .boards e => (step boardDesign s.boards e).map (fun b => { s with boards := b })
  | .commonData e => (step commonDataDesign s.commonData e).map (fun c => { s with commonData := c })
  | .authRecall e => (step recallDesign s.authRecall e).map (fun r => { s with authRecall := r })

/-- The writers do not reach the caps of their files, and only players from hosts with a name log in. -/
def Regular (s : FiledStores) : StoreEvent → Prop
  | .commonData (.read _) => ∀ r, s.commonData.pass = some r → GoMap.len r.out < commonDataMaxStored
  | .authRecall (.read _) => ∀ r, s.authRecall.pass = some r → GoMap.len r.sweep.out < authRecallMax
  | .authRecall (.op (.remember addr pid)) => ipHost addr ≠ [] ∧ pid ≠ 0
  | _ => True

/-! ### The invariant -/

/-- The score boards of the file, up to the parts of a second. -/
def BoardsOnFile (file : Option (List BoardPersisted)) (boards : Boards) : Prop :=
  loadedBoards file = GoMap.mapValues BoardEntry.wholeSeconds boards

def CommonDataOnFile (file : Option CommonData) (m : CommonData) : Prop := loadCommonData file = m

instance (file : Option CommonData) (m : CommonData) : Decidable (CommonDataOnFile file m) :=
  inferInstanceAs (Decidable (loadCommonData file = m))

structure AllSettled (s : FiledStores) : Prop where
  inPlace : InPlace s.tournaments.store
  tournaments : Settled ReadsTournaments TournamentsOnFile s.tournaments
  storable : Storable s.boards.store
  boards : Settled ReadsBoards BoardsOnFile s.boards
  acceptable : Acceptable s.commonData.store
  commonData : Settled ReadsCommonData CommonDataOnFile s.commonData
  named : NamedState s.authRecall
  authRecall : Settled ReadsRecall RecallOnFile s.authRecall

theorem allSettled_open {files : Files} (h : NamedFile files.authRecall) (now : Int) :
    AllSettled (openStores files now) where
  inPlace := inPlace_tournamentInit files.tournaments
  tournaments := settled_begin lawful_tournaments _ _
  storable := storable_loadedBoards files.boards
  boards := settled_begin lawful_boards _ _
  acceptable := acceptable_load files.commonData
  commonData := settled_begin lawful_commonData _ _
  named := ⟨named_load h _, h, nofun⟩
  authRecall := settled_begin lawful_recall _ _

theorem allSettled_step (s : FiledStores) (e : StoreEvent) (s' : FiledStores) (hregular : Regular s e)
    (h : AllSettled s) (hstep : storeStep s e = some s') : AllSettled s' := by
  cases e with
  | tournaments e =>
    obtain ⟨t, ht, rfl⟩ := Option.map_eq_some_iff.mp hstep
    exact { h with
      inPlace := good_step readsOnly_tournaments (fun _ e h => inPlace_apply h e)
        (fun _ file => inPlace_tournamentInit file) h.inPlace ht
      tournaments := settled_step lawful_tournaments h.inPlace h.tournaments (fun _ _ _ _ => trivial) ht }
  | boards e =>
    obtain ⟨b, hb, rfl⟩ := Option.map_eq_some_iff.mp hstep
    exact { h with
      storable := good_step readsOnly_boards (fun _ e h => storable_keepBest h e.now e.pid e.body)
        (fun _ file => storable_loadedBoards file) h.storable hb
      boards := settled_step lawful_boards h.storable h.boards (fun _ _ _ _ => trivial) hb }
  | commonData e =>
    obtain ⟨c, hc, rfl⟩ := Option.map_eq_some_iff.mp hstep
    have hbelow : ∀ pid, e = .read pid → ∀ r, s.commonData.pass = some r →
        GoMap.len r.out < commonDataMaxStored := by
      rintro pid rfl
      exact hregular
    exact { h with
      acceptable := good_step readsOnly_commonData (fun _ e h => acceptable_put h e.1 e.2)
        (fun _ file => acceptable_load file) h.acceptable hc
      commonData := settled_step lawful_commonData h.acceptable h.commonData hbelow hc }
  | authRecall e =>
    obtain ⟨r, hr, rfl⟩ := Option.map_eq_some_iff.mp hstep
    have hbelow : ∀ c, e = .read c → ∀ r, s.authRecall.pass = some r →
        GoMap.len r.sweep.out < authRecallMax := by
      rintro c rfl
      exact hregular
    have hcall : ∀ addr pid, e = .op (.remember addr pid) → ipHost addr ≠ [] ∧ pid ≠ 0 := by
      rintro addr pid rfl
      exact hregular
    exact { h with
      named := namedState_step h.named hcall hr
      authRecall := settled_step lawful_recall h.named.store h.authRecall hbelow hr }

/-- **The files.**  In every interleaving of calls, steps of the writers and restarts, a store that waits for no
writer, after a pass that went well, is what its file gives back. -/
theorem files_agree {files : Files} {now : Int} {es : List StoreEvent} {s : FiledStores}
    (hfile : NamedFile files.authRecall) (hregular : Steps storeStep Regular (openStores files now) es)
    (hrun : run storeStep (openStores files now) es = some s) :
    (Clean s.tournaments → TournamentsOnFile s.tournaments.file s.tournaments.store) ∧
      (Clean s.boards → BoardsOnFile s.boards.file s.boards.store) ∧
      (Clean s.commonData → CommonDataOnFile s.commonData.file s.commonData.store) ∧
      (Clean s.authRecall → RecallOnFile s.authRecall.file s.authRecall.store) := by
  have h := run_invariant_of_steps allSettled_step hregular (allSettled_open hfile now) hrun
  exact ⟨h.tournaments.agrees, h.boards.agrees, h.commonData.agrees, h.authRecall.agrees⟩

/-- A server without files. -/
def noFiles : Files := ⟨none, none, none, none⟩

/-- The player 7 publishes a profile, and the writer comes by; the file can be written or not. -/
def publish (ok : Bool) : List StoreEvent :=
  [.commonData (.op (7, [1])), .commonData .flag, .commonData .tick, .commonData (.read 7),
    .commonData (.write ok)]

theorem regular_publish (ok : Bool) : Steps storeStep Regular (openStores noFiles 0) (publish ok) := by
  refine ⟨trivial, fun _ h => ?_⟩
  cases h
  refine ⟨trivial, fun _ h => ?_⟩
  cases h
  refine ⟨trivial, fun _ h => ?_⟩
  cases h
  refine ⟨fun r hr => ?_, fun _ _ => ⟨trivial, fun _ _ => trivial⟩⟩
  cases hr
  decide

/-- What a run says about the profiles: the flag, the calls that are about to set it, whether the writer rests
and whether its last pass failed. -/
def atRest (s : State CommonData (Sweep UInt64 Bytes) (Option CommonData)) : Bool × ℕ × Bool × Bool :=
  (s.dirty, s.unflagged, s.pass.isNone, s.failed)

theorem clean_of_atRest {s : State CommonData (Sweep UInt64 Bytes) (Option CommonData)}
    (h : atRest s = (false, 0, true, false)) : Clean s := by
  simp only [atRest, Prod.mk.injEq, Option.isNone_iff_eq_none] at h
  exact ⟨h.1, h.2.1, h.2.2.1, h.2.2.2⟩

/-- The profile is in the file when the file could be written. -/
theorem published_on_file : ∃ s, run storeStep (openStores noFiles 0) (publish true) = some s ∧
    Clean s.commonData ∧ CommonDataOnFile s.commonData.file s.commonData.store := by
  have hrun : (run storeStep (openStores noFiles 0) (publish true)).map (fun s => atRest s.commonData) =
      some (false, 0, true, false) := by decide +kernel
  obtain ⟨s, hs, hrest⟩ := Option.map_eq_some_iff.mp hrun
  have hfile : NamedFile noFiles.authRecall := by
    rintro rec ⟨⟩
  have hclean := clean_of_atRest hrest
  exact ⟨s, hs, hclean, (files_agree hfile (regular_publish true) hs).2.2.1 hclean⟩

/-- Otherwise the flag is down, the writer rests, and the profile is in no file.  The same holds for a moment in
every run, when a call has changed the store and not yet set the flag. -/
theorem failed_write_forgotten :
    (∃ s, run storeStep (openStores noFiles 0) (publish false) = some s ∧ s.commonData.dirty = false ∧
      s.commonData.unflagged = 0 ∧ s.commonData.pass.isNone = true ∧
      ¬ CommonDataOnFile s.commonData.file s.commonData.store) ∧
    ∃ s, run storeStep (openStores noFiles 0) [.commonData (.op (7, [1]))] = some s ∧
      s.commonData.dirty = false ∧ s.commonData.pass.isNone = true ∧
      ¬ CommonDataOnFile s.commonData.file s.commonData.store := by
  have hfailed : (run storeStep (openStores noFiles 0) (publish false)).map (fun s =>
      (atRest s.commonData, decide (CommonDataOnFile s.commonData.file s.commonData.store))) =
        some ((false, 0, true, true), false) := by decide +kernel
  have hearly : (run storeStep (openStores noFiles 0) [.commonData (.op (7, [1]))]).map (fun s =>
      (atRest s.commonData, decide (CommonDataOnFile s.commonData.file s.commonData.store))) =
        some ((false, 1, true, false), false) := by decide +kernel
  constructor
  · obtain ⟨s, hs, heq⟩ := Option.map_eq_some_iff.mp hfailed
    simp only [atRest, Prod.mk.injEq] at heq
    exact ⟨s, hs, heq.1.1, heq.1.2.1, heq.1.2.2.1, of_decide_eq_false heq.2⟩
  · obtain ⟨s, hs, heq⟩ := Option.map_eq_some_iff.mp hearly
    simp only [atRest, Prod.mk.injEq] at heq
    exact ⟨s, hs, heq.1.1, heq.1.2.2.1, of_decide_eq_false heq.2⟩

end NextendoMatchmaking.Server
