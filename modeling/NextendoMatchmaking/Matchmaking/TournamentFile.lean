import NextendoMatchmaking.Library.Deferred
import NextendoMatchmaking.Matchmaking.TournamentIDs

/-!
# The file of the tournaments

`tournamentFlusher` writes the tournaments to the file from which `tournamentInit` fills the store.  It
collects pointers while it holds the lock, and `json.Marshal` follows them afterwards: a record that a player
joins meanwhile is written as it is when `json.Marshal` comes to it.

The system of `TournamentIDs` has the same calls and the same writer, fills the store by its first call and
leaves the flag out.  Every run here is a run there (`serves_run`).
-/

namespace NextendoMatchmaking.Matchmaking

open NextendoMatchmaking.Deferred NextendoMatchmaking.Runs

/-! ### The store with its writer -/

/-- The tournaments with `tournamentFlusher`.  A call runs with the flag down, to see whether it raises it:
`CreateTournament` does so after it has released the lock, and even the others only after the change. -/
def tournamentDesign :
    Design TournamentStore TournamentPass (Option (List (Option Tournament))) TournamentCall
      TournamentMove where
  apply t e :=
    let (t', _) := e.run none { t with dirty := false }
    ({ t' with dirty := false }, t'.dirty)
  start := none
  read := readTournaments
  complete _ r := r.isSome
  output r := r.map listed
  load _ file := tournamentInit (fileEnv file) newTournamentStore

theorem readsOnly_tournaments : ReadsOnly tournamentDesign := by
  intro t r c t' r' hmove
  cases tournamentMoved hmove with
  | collect _ => rfl
  | marshal _ => rfl

/-! ### What the store holds -/

/-- Every record stands where `tournamentInit` would put it. -/
structure InPlace (t : TournamentStore) : Prop where
  initialised : t.initialised = true
  stored : ∀ id x, t.byID.lookup id = some x → x.id = id ∧ validStoredTournament x = true
  aside : ∀ x ∈ t.quarantined, x.id ≠ 0 ∧ validStoredTournament x = false

/-- What a call can do to the records. -/
inductive CallResult (t : TournamentStore) : TournamentStore → Prop
  | same {t'} (hinit : t'.initialised = true) (hbyID : t'.byID = t.byID)
      (haside : t'.quarantined = t.quarantined) : CallResult t t'
  | write {t'} (x : Tournament) (hvalid : validStoredTournament x = true) (hinit : t'.initialised = true)
      (hbyID : t'.byID = t.byID.insert x.id x) (haside : t'.quarantined = t.quarantined)
      (hdirty : t'.dirty = true) : CallResult t t'
  | delete {t'} (id : UInt32) (hinit : t'.initialised = true) (hbyID : t'.byID = t.byID.erase id)
      (haside : t'.quarantined = t.quarantined) (hdirty : t'.dirty = true) : CallResult t t'

theorem callResult {t : TournamentStore} (h : InPlace t) (e : TournamentCall) :
    CallResult t (e.run none { t with dirty := false }).1 := by
  have hinit := h.initialised
  have hfilled : ∀ env, tournamentInit env { t with dirty := false } = { t with dirty := false } :=
    fun env => tournamentInit_of_initialised env hinit
  cases e with
  | create owner payload mark code now =>
    have hcases := createTournament_cases ⟨none, mark, code, now, []⟩ owner payload { t with dirty := false }
    rw [hfilled] at hcases
    show CallResult t (createTournament _ owner payload _).1
    obtain heq | heq | ⟨x, hid, hvalid, heq⟩ := hcases
    · rw [heq]
      exact .same hinit rfl rfl
    · rw [heq]
      exact .same hinit rfl rfl
    · rw [heq]
      refine .write x hvalid hinit ?_ rfl rfl
      rw [hid]
  | join id pid =>
    have hcases := joinTournament_cases (fileEnv none) id pid { t with dirty := false }
    rw [hfilled] at hcases
    show CallResult t (joinTournament _ id pid _).1
    obtain heq | ⟨x, participants, hx, heq⟩ := hcases
    · rw [heq]
      exact .same hinit rfl rfl
    · rw [heq]
      obtain ⟨hlookup, hvalid⟩ := Option.filter_eq_some_iff.mp hx
      refine .write { x with participants } hvalid hinit ?_ rfl rfl
      rw [show x.id = id from (h.stored id x hlookup).1]
  | delete id pid =>
    have hcases := deleteTournament_cases (fileEnv none) id pid { t with dirty := false }
    rw [hfilled] at hcases
    show CallResult t (deleteTournament _ id pid _).1
    obtain heq | heq := hcases
    · rw [heq]
      exact .same hinit rfl rfl
    · rw [heq]
      exact .delete id hinit rfl rfl rfl

theorem inPlace_callResult {t t' : TournamentStore} (h : InPlace t) (hresult : CallResult t t') :
    InPlace t' := by
  cases hresult with
  | same hinit hbyID haside => exact ⟨hinit, hbyID ▸ h.stored, haside ▸ h.aside⟩
  | write x hvalid hinit hbyID haside _ =>
    refine ⟨hinit, fun id y hlookup => ?_, haside ▸ h.aside⟩
    rw [hbyID, GoMap.lookup_insert_eq] at hlookup
    split at hlookup
    · rename_i hid
      cases hlookup
      exact ⟨hid.symm, hvalid⟩
    · exact h.stored id y hlookup
  | delete id hinit hbyID haside _ =>
    refine ⟨hinit, fun id' y hlookup => ?_, haside ▸ h.aside⟩
    rw [hbyID, GoMap.lookup_erase_eq] at hlookup
    split at hlookup
    · cases hlookup
    · exact h.stored id' y hlookup

theorem inPlace_apply {t : TournamentStore} (h : InPlace t) (e : TournamentCall) :
    InPlace (tournamentDesign.apply t e).1 := by
  have hplace := inPlace_callResult h (callResult h e)
  exact ⟨hplace.initialised, hplace.stored, hplace.aside⟩

/-- A call that does not raise the flag has changed no record. -/
theorem quiet_call {t : TournamentStore} (h : InPlace t) {e : TournamentCall}
    (hquiet : (tournamentDesign.apply t e).2 = false) :
    (tournamentDesign.apply t e).1.byID = t.byID ∧
      (tournamentDesign.apply t e).1.quarantined = t.quarantined := by
  cases callResult h e with
  | same _ hbyID haside => exact ⟨hbyID, haside⟩
  | write _ _ _ _ _ hdirty => exact absurd (hdirty.symm.trans hquiet) Bool.true_eq_false.mp
  | delete _ _ _ _ hdirty => exact absurd (hdirty.symm.trans hquiet) Bool.true_eq_false.mp

/-! ### Filling the store again -/

theorem valid_id_ne_zero {x : Tournament} (h : validStoredTournament x = true) : x.id ≠ 0 := by
  intro hid
  simp [validStoredTournament, hid] at h

/-- Records that do not pass the check are put aside in their order. -/
theorem restore_aside (list : List Tournament) :
    ∀ t : TournamentStore, (∀ x ∈ list, x.id ≠ 0 ∧ validStoredTournament x = false) →
      ((list.map some).foldl restore t).byID = t.byID ∧
        ((list.map some).foldl restore t).quarantined = t.quarantined ++ list := by
  induction list with
  | nil =>
    intro t _
    exact ⟨rfl, (List.append_nil _).symm⟩
  | cons x list ih =>
    intro t hlist
    obtain ⟨hid, hinvalid⟩ := hlist x List.mem_cons_self
    have hrest := ih (restore t (some x)) (fun y hy => hlist y (List.mem_cons_of_mem _ hy))
    rw [restore_invalid hid hinvalid] at hrest
    rw [List.map_cons, List.foldl_cons, restore_invalid hid hinvalid]
    refine ⟨hrest.1, hrest.2.trans ?_⟩
    show t.quarantined ++ [x] ++ list = t.quarantined ++ x :: list
    rw [List.append_assoc]
    rfl

/-- Records that pass the check are stored under their ids. -/
theorem restore_stored (list : List Tournament) :
    ∀ t : TournamentStore, (∀ x ∈ list, validStoredTournament x = true) →
      ((list.map some).foldl restore t).byID =
          (list.map (fun x => (x.id, x))).foldl (fun m p => m.insert p.1 p.2) t.byID ∧
        ((list.map some).foldl restore t).quarantined = t.quarantined := by
  induction list with
  | nil =>
    intro t _
    exact ⟨rfl, rfl⟩
  | cons x list ih =>
    intro t hlist
    have hvalid := hlist x List.mem_cons_self
    have hrest := ih (restore t (some x)) (fun y hy => hlist y (List.mem_cons_of_mem _ hy))
    rw [restore_valid (valid_id_ne_zero hvalid) hvalid] at hrest
    rw [List.map_cons, List.foldl_cons, restore_valid (valid_id_ne_zero hvalid) hvalid]
    exact hrest

/-- **The round trip of the tournaments.** -/
theorem tournamentInit_collected {t : TournamentStore} (h : InPlace t) {order : List UInt32}
    (horder : GoMap.Enumerates order t.byID) :
    (tournamentInit (fileEnv (some ((t.quarantined ++ order.filterMap t.byID.lookup).map some)))
        newTournamentStore).byID = t.byID ∧
      (tournamentInit (fileEnv (some ((t.quarantined ++ order.filterMap t.byID.lookup).map some)))
        newTournamentStore).quarantined = t.quarantined := by
  have hmem : ∀ x, x ∈ order.filterMap t.byID.lookup ↔ t.byID.lookup x.id = some x := by
    intro x
    rw [List.mem_filterMap]
    constructor
    · intro hx
      obtain ⟨id, -, hlookup⟩ := hx
      rw [(h.stored id x hlookup).1]
      exact hlookup
    · intro hlookup
      exact ⟨x.id, (horder.2 x.id).mpr (Finmap.lookup_isSome.mp (by rw [hlookup]; rfl)), hlookup⟩
  have hvalid : ∀ x ∈ order.filterMap t.byID.lookup, validStoredTournament x = true :=
    fun x hx => (h.stored x.id x ((hmem x).mp hx)).2
  show (((t.quarantined ++ order.filterMap t.byID.lookup).map some).foldl restore
      { newTournamentStore with initialised := true }).byID = _ ∧
    (((t.quarantined ++ order.filterMap t.byID.lookup).map some).foldl restore
      { newTournamentStore with initialised := true }).quarantined = _
  rw [List.map_append, List.foldl_append]
  obtain ⟨hbyID, haside⟩ := restore_aside t.quarantined { newTournamentStore with initialised := true } h.aside
  obtain ⟨hstored, hkept⟩ := restore_stored (order.filterMap t.byID.lookup)
    ((t.quarantined.map some).foldl restore { newTournamentStore with initialised := true }) hvalid
  refine ⟨?_, hkept.trans haside⟩
  rw [hstored, hbyID]
  apply GoMap.foldl_insert_entries
  intro id x
  rw [List.mem_map]
  constructor
  · intro hx
    obtain ⟨y, hy, heq⟩ := hx
    cases heq
    exact (hmem x).mp hy
  · intro hlookup
    obtain rfl := (h.stored id x hlookup).1
    exact ⟨x, (hmem x).mpr hlookup, rfl⟩

/-- What `tournamentInit` leaves is in its place. -/
theorem inPlace_restore {t : TournamentStore} (h : InPlace t) (r : Option Tournament) :
    InPlace (restore t r) := by
  cases r with
  | none => exact h
  | some x =>
    by_cases hid : x.id = 0
    · rw [show restore t (some x) = t from if_pos hid]
      exact h
    · by_cases hvalid : validStoredTournament x = true
      · rw [restore_valid hid hvalid]
        have hplace := inPlace_callResult h
          (.write x hvalid h.initialised rfl rfl rfl : CallResult t { t with
            byID := t.byID.insert x.id x, dirty := true })
        exact ⟨hplace.initialised, hplace.stored, hplace.aside⟩
      · have hinvalid : validStoredTournament x = false := Bool.eq_false_of_not_eq_true hvalid
        rw [restore_invalid hid hinvalid]
        refine ⟨h.initialised, h.stored, fun y hy => ?_⟩
        rcases List.mem_append.mp hy with hold | hnew
        · exact h.aside y hold
        · obtain rfl := List.mem_singleton.mp hnew
          exact ⟨hid, hinvalid⟩

theorem inPlace_tournamentInit (file : Option (List (Option Tournament))) :
    InPlace (tournamentInit (fileEnv file) newTournamentStore) := by
  have hfold : ∀ (list : List (Option Tournament)) (t : TournamentStore), InPlace t →
      InPlace (list.foldl restore t) := by
    intro list
    induction list with
    | nil => exact fun _ h => h
    | cons r list ih => exact fun t h => ih (restore t r) (inPlace_restore h r)
  refine hfold (file.getD []) { newTournamentStore with initialised := true } ⟨rfl, fun id x hlookup => ?_, ?_⟩
  · cases hlookup
  · exact fun x hx => absurd hx List.not_mem_nil

/-! ### The passes -/

/-- The list that the pass has collected is that of the store. -/
def ReadsTournaments (t : TournamentStore) (r : TournamentPass) : Prop :=
  ∀ quarantined list, r = some (quarantined, list) → quarantined = t.quarantined ∧
    ∃ order, GoMap.Enumerates order t.byID ∧ list = order.filterMap t.byID.lookup

/-- The file holds every record of the store, in its place. -/
def TournamentsOnFile (file : Option (List (Option Tournament))) (t : TournamentStore) : Prop :=
  (tournamentInit (fileEnv file) newTournamentStore).byID = t.byID ∧
    (tournamentInit (fileEnv file) newTournamentStore).quarantined = t.quarantined

/-- A record that was collected and is still in the store is the one that is written. -/
theorem marshal_current {t : TournamentStore} (h : InPlace t) {order : List UInt32} {id : UInt32}
    {x : Tournament} (hx : t.byID.lookup id = some x) :
    (order.filterMap t.byID.lookup).map (fun y => if y.id = id then x else y) =
      order.filterMap t.byID.lookup := by
  refine (List.map_congr_left fun y hy => ?_).trans (List.map_id _)
  obtain ⟨id', -, hy'⟩ := List.mem_filterMap.mp hy
  by_cases hid : y.id = id
  · have hid' := (h.stored id' y hy').1
    rw [if_pos hid]
    rw [← hid', hid, hx] at hy'
    exact Option.some.inj hy'
  · rw [if_neg hid]
    rfl

theorem reads_of_records {t t' : TournamentStore} {r : TournamentPass} (hbyID : t'.byID = t.byID)
    (haside : t'.quarantined = t.quarantined) (h : ReadsTournaments t r) : ReadsTournaments t' r := by
  intro quarantined list hr
  rw [hbyID, haside]
  exact h quarantined list hr

theorem lawful_tournaments :
    Lawful tournamentDesign InPlace (fun _ => True) ReadsTournaments TournamentsOnFile where
  start _ _ _ _ hr := nomatch hr
  quiet_agrees t e file hgood hquiet hagrees := by
    obtain ⟨hbyID, haside⟩ := quiet_call hgood hquiet
    exact ⟨hagrees.1.trans hbyID.symm, hagrees.2.trans haside.symm⟩
  quiet_reads t e r hgood hquiet hreads := by
    obtain ⟨hbyID, haside⟩ := quiet_call hgood hquiet
    exact reads_of_records hbyID haside hreads
  read t r c t' r' hgood _ hreads hmove := by
    cases tournamentMoved hmove with
    | collect horder =>
      intro quarantined list hr
      cases hr
      exact ⟨rfl, _, horder, rfl⟩
    | marshal hx =>
      obtain ⟨hq, order, horder, rfl⟩ := hreads _ _ rfl
      rw [marshal_current hgood hx]
      intro quarantined list hr
      cases hr
      exact ⟨hq, order, horder, rfl⟩
  complete t r hgood hreads hcomplete := by
    obtain ⟨⟨quarantined, list⟩, rfl⟩ := Option.isSome_iff_exists.mp hcomplete
    obtain ⟨rfl, order, horder, rfl⟩ := hreads quarantined list rfl
    exact tournamentInit_collected hgood horder
  load _ _ := ⟨rfl, rfl⟩

/-! ### The server with its restarts -/

/-- Once the store is filled, a call reads neither the file nor the flag. -/
theorem run_call_filled {t : TournamentStore} (hinit : t.initialised = true) (e : TournamentCall)
    (file : Option (List (Option Tournament))) (b c : Bool) :
    ∃ d, (e.run file { t with dirty := b }).1 = { (e.run none { t with dirty := c }).1 with dirty := d } := by
  have hfilled : ∀ env b, tournamentInit env { t with dirty := b } = { t with dirty := b } :=
    fun env _ => tournamentInit_of_initialised env hinit
  cases e with
  | create owner payload mark code now =>
    simp only [TournamentCall.run, createTournament, hfilled]
    split
    · exact ⟨b, rfl⟩
    · split
      · exact ⟨b, rfl⟩
      · split
        · exact ⟨b, rfl⟩
        · split
          · exact ⟨true, rfl⟩
          · exact ⟨b, rfl⟩
  | join id pid =>
    simp only [TournamentCall.run, joinTournament, hfilled, TournamentStore.find]
    split
    · exact ⟨b, rfl⟩
    · split
      · exact ⟨b, rfl⟩
      · exact ⟨true, rfl⟩
  | delete id pid =>
    simp only [TournamentCall.run, deleteTournament, hfilled, TournamentStore.find]
    split
    · exact ⟨b, rfl⟩
    · split
      · exact ⟨b, rfl⟩
      · exact ⟨true, rfl⟩

/-- `t` has the records, the list of the writer and the file of `s`. -/
structure Serves (s : State TournamentStore TournamentPass (Option (List (Option Tournament))))
    (t : TournamentServer) : Prop where
  inPlace : InPlace s.store
  store : ∃ dirty, t.store = { s.store with dirty }
  pass : t.pass = s.pass.join
  file : t.file = s.file

/-- What the server does at an event of the store with its writer. -/
def serverEvents : Deferred.Event TournamentCall TournamentMove → List TournamentEvent
  | .op e => [.call e]
  | .flag => []
  | .tick => []
  | .read c => [.read c]
  | .write ok => [.write ok]
  | .restart => [.restart, .look]

section Serves

variable {s s' : State TournamentStore TournamentPass (Option (List (Option Tournament)))} {t : TournamentServer}

/-- A move of the writer does not read the flag. -/
theorem readTournaments_flag {t t' : TournamentStore} {r r' : TournamentPass} {c : TournamentMove}
    (h : readTournaments t r c = some (t', r')) (dirty : Bool) :
    readTournaments { t with dirty } r c = some ({ t' with dirty }, r') := by
  cases tournamentMoved h with
  | collect horder => exact if_pos ⟨rfl, horder⟩
  | marshal hx => simp only [readTournaments, hx]

theorem serves_step (h : Serves s t) {e : Deferred.Event TournamentCall TournamentMove}
    (hstep : Deferred.step tournamentDesign s e = some s') :
    ∃ t', run (tournamentStep true) t (serverEvents e) = some t' ∧ Serves s' t' := by
  have hplace : InPlace s'.store := good_step readsOnly_tournaments (fun _ e h => inPlace_apply h e)
    (fun _ file => inPlace_tournamentInit file) h.inPlace hstep
  obtain ⟨hold, ⟨dirty, hstore⟩, hpass, hfile⟩ := h
  cases stepped hstep with
  | op e =>
    obtain ⟨d, hd⟩ := run_call_filled hold.initialised e (t.found true) dirty false
    rw [← hstore] at hd
    exact ⟨_, rfl, hplace, ⟨d, hd⟩, hpass, hfile⟩
  | flag _ => exact ⟨t, rfl, hplace, ⟨dirty, hstore⟩, hpass, hfile⟩
  | rest _ _ => exact ⟨t, rfl, hplace, ⟨dirty, hstore⟩, hpass, hfile⟩
  | start hnone _ =>
    refine ⟨t, rfl, hplace, ⟨dirty, hstore⟩, ?_, hfile⟩
    rw [hpass, hnone]
    rfl
  | @read c r store r' hr hmove =>
    have hinit : t.store.initialised = true := by
      rw [hstore]
      exact hold.initialised
    have hread : readTournaments t.store t.pass c = some ({ store with dirty }, r') := by
      rw [hpass, hr, hstore]
      exact readTournaments_flag hmove dirty
    refine ⟨{ t with store := { store with dirty }, pass := r' }, ?_, hplace, ⟨dirty, rfl⟩, rfl, hfile⟩
    rw [serverEvents, run_cons_some]
    refine ⟨_, ?_, rfl⟩
    rw [tournamentStep, if_pos ⟨rfl, hinit⟩, hread]
    rfl
  | @write r ok hr hcomplete =>
    obtain ⟨lists, rfl⟩ := Option.isSome_iff_exists.mp hcomplete
    have hlists : t.pass = some lists := by
      rw [hpass, hr]
      rfl
    refine ⟨{ t with file := if ok then some (listed lists) else t.file, pass := none }, ?_, hplace,
      ⟨dirty, hstore⟩, rfl, ?_⟩
    · rw [serverEvents, run_cons_some]
      refine ⟨_, ?_, rfl⟩
      rw [tournamentStep, hlists]
    · show (if ok then some (listed lists) else t.file) = if ok then some (listed lists) else s.file
      rw [hfile]
  | restart =>
    refine ⟨_, rfl, hplace, ⟨(tournamentInit (fileEnv s.file) newTournamentStore).dirty, ?_⟩, rfl, hfile⟩
    show tournamentInit (fileEnv t.file) newTournamentStore = tournamentInit (fileEnv s.file) newTournamentStore
    rw [hfile]

/-- **The writer behind its flag.**  Every run of the tournaments with their flag and their writer is, event by
event, a run of the server that has been asked once, with the same records and the same file. -/
theorem serves_run {file : Option (List (Option Tournament))}
    {es : List (Deferred.Event TournamentCall TournamentMove)}
    (h : run (Deferred.step tournamentDesign) (begin tournamentDesign newTournamentStore file) es = some s) :
    ∃ t, run (tournamentStep true) (newTournamentServer file) (.look :: es.flatMap serverEvents) = some t ∧
      Serves s t := by
  refine run_history (P := fun es s => ∃ t, run (tournamentStep true) (newTournamentServer file)
    (.look :: es.flatMap serverEvents) = some t ∧ Serves s t) ⟨_, rfl, ?_⟩ ?_ h
  · exact ⟨inPlace_tournamentInit file, ⟨_, rfl⟩, rfl, rfl⟩
  · rintro es s e s' ⟨t, ht, hserves⟩ hstep
    obtain ⟨t', ht', hserves'⟩ := serves_step hserves hstep
    refine ⟨t', ?_, hserves'⟩
    rw [List.flatMap_append, List.flatMap_singleton, ← List.cons_append, run_append_some]
    exact ⟨t, ht, ht'⟩

end Serves

end NextendoMatchmaking.Matchmaking
