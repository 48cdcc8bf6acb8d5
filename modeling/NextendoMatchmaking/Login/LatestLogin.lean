import NextendoMatchmaking.Library.Runs
import NextendoMatchmaking.Login.Recall

/-!
# Whose login is recalled

A connection without a ticket takes over the PID that `RecallAuthPID` finds for its host.  In memory that is
the last login of the host.  The file is behind by up to one interval of the writer, and a server that starts
again has only the file: the logins that it lost do not count any more, and an older login of the same host
does (`older_login_recalled`).

`recalled_login_latest` says what holds in every run, with the writer, the lazy removals and restarts at any
moment: the PID is that of the latest login of the host that no restart has lost, and this login is not older
than `authRecallTTL`.
-/

namespace NextendoMatchmaking.Login

open NextendoMatchmaking.Deferred NextendoMatchmaking.Runs

/-! ### The server -/

/-- The table with its writer, and the calls of `RecallAuthPID`. -/
structure RecallServer where
  server : State RecallTable RecallPass RecallFile
  /-- The hosts whose entry a call has found expired and is about to remove. -/
  stale : List Bytes
  /-- Ghost: the numbers of the logins that a restart has lost. -/
  lost : List ℕ

namespace RecallServer

def logins (s : RecallServer) : List LoginRecord := s.server.store.logins

end RecallServer

/-- A server that starts without a file. -/
def newRecallServer (now : Int) : RecallServer := ⟨begin recallDesign ⟨∅, now, []⟩ none, [], []⟩

inductive RecallEvent
  /-- A login, the passing of time, a step of the writer or a restart.  The restart includes the first call
  afterwards, which reads the file. -/
  | login (e : Event RecallCall RecallMove)
  /-- `RecallAuthPID`, up to the removal of an expired entry. -/
  | ask (addr : Bytes)
  /-- The removal. -/
  | remove (host : Bytes)

/-- The file has the login with this number, or a later one of the same host. -/
def saved (file : RecallFile) (host : Bytes) (login : ℕ) : Bool :=
  match (file.getD ∅).lookup host with
  | none => false
  | some rec => login ≤ rec.login

/-- The logins that a restart loses now. -/
def lostNow (s : State RecallTable RecallPass RecallFile) : List ℕ :=
  (s.store.logins.zipIdx.filter (fun l => !saved s.file l.1.host l.2)).map Prod.snd

def recallStep (s : RecallServer) : RecallEvent → Option RecallServer
  | .login .restart =>
    some ⟨begin recallDesign s.server.store s.server.file, [], s.lost ++ lostNow s.server⟩
  | .login e => (step recallDesign s.server e).map (fun server => { s with server })
  | .ask addr =>
    match s.server.store.byIP.lookup (ipHost addr) with
    | none => some s
    | some rec =>
      if rec.pid ≠ 0 ∧ expired s.server.store.now rec.instant then
        some { s with stale := ipHost addr :: s.stale }
      else
        some s
  | .remove host =>
    if s.stale.contains host then
      some { s with
        server := { s.server with store := { s.server.store with byIP := s.server.store.byIP.erase host } }
        stale := s.stale.erase host }
    else
      none

/-! ### Where an entry comes from -/

/-- The entry of `host` comes from the login with this number, which no restart has lost. -/
structure ComesFrom (logins : List LoginRecord) (lost : List ℕ) (host : Bytes) (pid : UInt64) (instant : Int)
    (login : ℕ) : Prop where
  kept : login ∉ lost
  record : ∃ l, logins[login]? = some l ∧ l.host = host ∧ l.pid = pid ∧ instant ≤ l.instant

/-- Every later login of the host is lost. -/
def Latest (logins : List LoginRecord) (lost : List ℕ) (host : Bytes) (login : ℕ) : Prop :=
  ∀ later l, login < later → logins[later]? = some l → l.host = host → later ∈ lost

variable {logins : List LoginRecord} {lost : List ℕ} {host : Bytes} {pid : UInt64} {instant : Int} {login : ℕ}

theorem ComesFrom.snoc (h : ComesFrom logins lost host pid instant login) (l : LoginRecord) :
    ComesFrom (logins ++ [l]) lost host pid instant login := by
  obtain ⟨l', hl', hrest⟩ := h.record
  refine ⟨h.kept, l', ?_, hrest⟩
  rw [List.getElem?_append_left (List.getElem?_eq_some_iff.mp hl').1]
  exact hl'

theorem ComesFrom.earlier (h : ComesFrom logins lost host pid instant login) {instant' : Int}
    (hle : instant' ≤ instant) : ComesFrom logins lost host pid instant' login := by
  obtain ⟨l, hl, hhost, hpid, hinstant⟩ := h.record
  exact ⟨h.kept, l, hl, hhost, hpid, by omega⟩

theorem Latest.snoc (h : Latest logins lost host login) {l : LoginRecord} (hl : l.host ≠ host) :
    Latest (logins ++ [l]) lost host login := by
  intro later l' hlt hl' hhost
  by_cases hold : later < logins.length
  · rw [List.getElem?_append_left hold] at hl'
    exact h later l' hlt hl' hhost
  · have hmem : l' ∈ [l] := by
      rw [List.getElem?_append_right (Nat.le_of_not_lt hold)] at hl'
      exact List.mem_of_getElem? hl'
    rw [List.mem_singleton.mp hmem] at hhost
    exact absurd hhost hl

/-- A login that has just been made is the latest. -/
theorem latest_length (l : LoginRecord) : Latest (logins ++ [l]) lost host logins.length := by
  intro later l' hlt hl' _
  have hlater := (List.getElem?_eq_some_iff.mp hl').1
  rw [List.length_append, List.length_singleton] at hlater
  omega

/-! ### The invariant -/

/-- The entries of the table are the latest of their hosts; those of the file and of a pass are logins that
were not lost. -/
structure Traced (s : RecallServer) : Prop where
  bound : ∀ login ∈ s.lost, login < s.logins.length
  table : ∀ host rec, s.server.store.byIP.lookup host = some rec →
    ComesFrom s.logins s.lost host rec.pid rec.instant rec.login ∧ Latest s.logins s.lost host rec.login
  file : ∀ host rec, (s.server.file.getD ∅).lookup host = some rec →
    ComesFrom s.logins s.lost host rec.pid (rec.seconds * second) rec.login
  pass : ∀ r, s.server.pass = some r → ∀ host rec, r.sweep.out.lookup host = some rec →
    ComesFrom s.logins s.lost host rec.pid (rec.seconds * second) rec.login

theorem traced_new (now : Int) : Traced (newRecallServer now) where
  bound _ h := absurd h List.not_mem_nil
  table host rec h := by
    obtain ⟨p, hp, -⟩ := of_lookup_authRecallInit h
    rw [Option.getD_none, Finmap.lookup_empty] at hp
    cases hp
  file host rec h := by
    change (∅ : GoMap Bytes AuthRecallPersisted).lookup host = some rec at h
    rw [Finmap.lookup_empty] at h
    cases h
  pass _ h := nomatch h

variable {s s' : RecallServer}

/-- A step that takes entries from the table, at most. -/
theorem Traced.shrink (h : Traced s) {byIP : GoMap Bytes AuthRecall} {stale : List Bytes}
    (hsub : ∀ host rec, byIP.lookup host = some rec → s.server.store.byIP.lookup host = some rec) :
    Traced { s with
      server := { s.server with store := { s.server.store with byIP } }
      stale } :=
  ⟨h.bound, fun host rec hrec => h.table host rec (hsub host rec hrec), h.file, h.pass⟩

theorem erase_subset (m : GoMap Bytes AuthRecall) (ip host : Bytes) (rec : AuthRecall)
    (h : (m.erase ip).lookup host = some rec) : m.lookup host = some rec := by
  rw [GoMap.lookup_erase_eq] at h
  split at h
  · cases h
  · exact h

theorem traced_remember (h : Traced s) (addr : Bytes) (pid : UInt64) (unflagged : ℕ) :
    Traced { s with
      server := { s.server with store := rememberAuthPID s.server.store addr pid, unflagged } } where
  bound login hlost := by
    show login < (s.logins ++ [_]).length
    rw [List.length_append]
    exact Nat.lt_add_right _ (h.bound login hlost)
  table host rec hrec := by
    change (s.server.store.byIP.insert (ipHost addr) _).lookup host = some rec at hrec
    rw [GoMap.lookup_insert_eq] at hrec
    split at hrec
    · rename_i hhost
      cases hrec
      refine ⟨⟨fun hlost => ?_, ⟨ipHost addr, pid, s.server.store.now⟩, ?_, hhost.symm, rfl, Int.le_refl _⟩,
        latest_length _⟩
      · exact Nat.lt_irrefl _ (h.bound _ hlost)
      · exact List.getElem?_concat_length
    · rename_i hhost
      obtain ⟨hfrom, hlatest⟩ := h.table host rec hrec
      exact ⟨hfrom.snoc _, hlatest.snoc (Ne.symm hhost)⟩
  file host rec hrec := (h.file host rec hrec).snoc _
  pass r hr host rec hrec := (h.pass r hr host rec hrec).snoc _

/-- What a pass keeps comes from the table. -/
theorem traced_visit (h : Traced s) {r : RecallPass} (hr : s.server.pass = some r) {ip host : Bytes}
    {rec : AuthRecallPersisted}
    (hrec : (r.sweep.record ip (keepRecall s.server.store r ip).1).out.lookup host = some rec) :
    ComesFrom s.logins s.lost host rec.pid (rec.seconds * second) rec.login := by
  cases hkept : (keepRecall s.server.store r ip).1 with
  | none =>
    rw [hkept] at hrec
    exact h.pass r hr host rec hrec
  | some kept =>
    rw [hkept] at hrec
    change (r.sweep.out.insert ip kept).lookup host = some rec at hrec
    rw [GoMap.lookup_insert_eq] at hrec
    split at hrec
    · rename_i hhost
      cases hrec
      obtain ⟨-, entry, hentry, rfl⟩ := keepRecall_some hkept
      rw [hhost]
      exact ((h.table ip entry hentry).1).earlier (wholeSeconds_le _)
    · exact h.pass r hr host rec hrec

theorem traced_read (h : Traced s) {r r' : RecallPass} {c : RecallMove} {t : RecallTable}
    (hr : s.server.pass = some r) (hmove : readRecall s.server.store r c = some (t, r')) :
    Traced { s with server := { s.server with store := t, pass := some r' } } := by
  cases recallMoved hmove with
  | visit _ =>
    refine ⟨h.bound, h.table, h.file, fun r'' hr'' host rec hrec => ?_⟩
    cases hr''
    exact traced_visit h hr hrec
  | delete _ =>
    refine ⟨h.bound, fun host rec hrec => h.table host rec (erase_subset _ _ _ _ hrec), h.file,
      fun r'' hr'' host rec hrec => ?_⟩
    cases hr''
    exact h.pass r hr host rec hrec

theorem saved_of_lookup {file : RecallFile} {host : Bytes} {rec : AuthRecallPersisted}
    (h : (file.getD ∅).lookup host = some rec) (login : ℕ) :
    saved file host login = decide (login ≤ rec.login) := by
  unfold saved
  rw [h]

theorem mem_lostNow {s : State RecallTable RecallPass RecallFile} {login : ℕ} :
    login ∈ lostNow s ↔ ∃ l, s.store.logins[login]? = some l ∧ saved s.file l.host login = false := by
  unfold lostNow
  rw [List.mem_map]
  constructor
  · intro hex
    obtain ⟨⟨l, i⟩, hmem, rfl⟩ := hex
    obtain ⟨hzip, hsaved⟩ := List.mem_filter.mp hmem
    exact ⟨l, List.mem_zipIdx_iff_getElem?.mp hzip, by simpa using hsaved⟩
  · intro hex
    obtain ⟨l, hl, hsaved⟩ := hex
    exact ⟨(l, login), List.mem_filter.mpr ⟨List.mem_zipIdx_iff_getElem?.mpr hl, by simpa using hsaved⟩, rfl⟩

/-- What is on the file is not lost by a restart, and all that is later is. -/
theorem traced_restart (h : Traced s) :
    Traced ⟨begin recallDesign s.server.store s.server.file, [], s.lost ++ lostNow s.server⟩ := by
  have hfile : ∀ host rec, (s.server.file.getD ∅).lookup host = some rec →
      ComesFrom s.logins (s.lost ++ lostNow s.server) host rec.pid (rec.seconds * second) rec.login := by
    intro host rec hrec
    have hfrom := h.file host rec hrec
    obtain ⟨l, hl, hhost, hrest⟩ := hfrom.record
    refine ⟨fun hlost => ?_, l, hl, hhost, hrest⟩
    rcases List.mem_append.mp hlost with hold | hnew
    · exact hfrom.kept hold
    · obtain ⟨l', hl', hsaved⟩ := mem_lostNow.mp hnew
      obtain rfl := Option.some.inj (hl.symm.trans hl')
      rw [hhost, saved_of_lookup hrec] at hsaved
      simp at hsaved
  refine ⟨fun login hlost => ?_, fun host rec hrec => ?_, hfile, nofun⟩
  · rcases List.mem_append.mp hlost with hold | hnew
    · exact h.bound login hold
    · obtain ⟨l, hl, -⟩ := mem_lostNow.mp hnew
      exact (List.getElem?_eq_some_iff.mp hl).1
  · obtain ⟨p, hp, rfl, -⟩ := of_lookup_authRecallInit hrec
    refine ⟨hfile host p hp, fun later l hlt hl hhost => ?_⟩
    refine List.mem_append.mpr (.inr (mem_lostNow.mpr ⟨l, hl, ?_⟩))
    rw [hhost, saved_of_lookup hp]
    exact decide_eq_false (Nat.not_le.mpr hlt)

theorem traced_login (h : Traced s) {e : Event RecallCall RecallMove}
    {server : State RecallTable RecallPass RecallFile} (hne : e ≠ .restart)
    (hstep : step recallDesign s.server e = some server) : Traced { s with server } := by
  cases stepped hstep with
  | op call =>
    cases call with
    | remember addr pid => exact traced_remember h addr pid _
    | wait d => exact ⟨h.bound, h.table, h.file, h.pass⟩
  | flag _ => exact ⟨h.bound, h.table, h.file, h.pass⟩
  | rest _ _ => exact h
  | start _ _ =>
    refine ⟨h.bound, h.table, h.file, fun r hr host rec hrec => ?_⟩
    cases hr
    cases hrec
  | read hr hmove => exact traced_read h hr hmove
  | write ok hr _ =>
    refine ⟨h.bound, h.table, fun host rec hrec => ?_, nofun⟩
    cases ok with
    | false => exact h.file host rec hrec
    | true => exact h.pass _ hr host rec hrec
  | restart => exact absurd rfl hne

theorem traced_step (s : RecallServer) (e : RecallEvent) (s' : RecallServer) (h : Traced s)
    (hstep : recallStep s e = some s') : Traced s' := by
  cases e with
  | login e =>
    by_cases hrestart : e = .restart
    · subst hrestart
      cases hstep
      exact traced_restart h
    · have hmap : (step recallDesign s.server e).map (fun server => { s with server }) = some s' := by
        cases e with
        | restart => exact absurd rfl hrestart
        | _ => exact hstep
      obtain ⟨server, hserver, rfl⟩ := Option.map_eq_some_iff.mp hmap
      exact traced_login h hrestart hserver
  | ask addr =>
    simp only [recallStep] at hstep
    split at hstep
    · cases hstep
      exact h
    · split at hstep
      · cases hstep
        exact ⟨h.bound, h.table, h.file, h.pass⟩
      · cases hstep
        exact h
  | remove host =>
    simp only [recallStep] at hstep
    split at hstep
    · cases hstep
      exact h.shrink (erase_subset _ _)
    · cases hstep

/-! ### The latest login that was not lost -/

/-- What `RecallAuthPID` returns is in the table, and not expired. -/
theorem recallAuthPID_some {t : RecallTable} {addr : Bytes} {pid : UInt64}
    (h : recallAuthPID t addr = some pid) :
    ∃ rec, t.byIP.lookup (ipHost addr) = some rec ∧ rec.pid = pid ∧ t.now - rec.instant ≤ authRecallTTL := by
  unfold recallAuthPID at h
  split at h
  · cases h
  · rename_i rec hrec
    split at h
    · cases h
    · split at h
      · cases h
      · rename_i halive
        cases h
        refine ⟨rec, hrec, rfl, ?_⟩
        simp only [expired, decide_eq_true_eq] at halive
        omega

/-- **The recalled login.**  In every run, a PID that is recalled for an address is that of the latest login of
its host among those that no restart has lost, and this login is not older than `authRecallTTL`. -/
theorem recalled_login_latest {now : Int} {es : List RecallEvent}
    (hrun : run recallStep (newRecallServer now) es = some s) {addr : Bytes}
    (hrecall : recallAuthPID s.server.store addr = some pid) :
    ∃ login l, s.logins[login]? = some l ∧ l.host = ipHost addr ∧ l.pid = pid ∧
      s.server.store.now - l.instant ≤ authRecallTTL ∧ login ∉ s.lost ∧
      Latest s.logins s.lost (ipHost addr) login := by
  have htraced : Traced s := run_invariant traced_step (traced_new now) hrun
  obtain ⟨rec, hrec, hpid, hage⟩ := recallAuthPID_some hrecall
  obtain ⟨hfrom, hlatest⟩ := htraced.table _ rec hrec
  obtain ⟨l, hl, hhost, hlpid, hinstant⟩ := hfrom.record
  refine ⟨rec.login, l, hl, hhost, hlpid.trans hpid, ?_, hfrom.kept, hlatest⟩
  omega

/-- The player 1 logs in from the host `1`, and the writer writes it; then the player 2 logs in from there, and
the server starts again. -/
def lostLogin : List RecallEvent :=
  [.login (.op (.remember [49] 1)), .login .flag, .login .tick, .login (.read (.visit [49])),
    .login (.write true), .login (.op (.remember [49] 2)), .login .restart]

/-- The first login is the latest one that the restart has not lost. -/
theorem recalled_after_login :
    ∃ s, run recallStep (newRecallServer 0) lostLogin = some s ∧
    recallAuthPID s.server.store [49] = some 1 ∧ s.lost = [1] ∧
    ∃ login l, s.logins[login]? = some l ∧ l.host = ipHost [49] ∧ l.pid = 1 ∧
      s.server.store.now - l.instant ≤ authRecallTTL ∧ login ∉ s.lost ∧
      Latest s.logins s.lost (ipHost [49]) login := by
  have hrun : (run recallStep (newRecallServer 0) lostLogin).map
      (fun s => (recallAuthPID s.server.store [49], s.lost)) = some (some 1, [1]) := by decide +kernel
  obtain ⟨s, hs, heq⟩ := Option.map_eq_some_iff.mp hrun
  obtain ⟨hrecall, hlost⟩ := Prod.mk.inj heq
  exact ⟨s, hs, hrecall, hlost, recalled_login_latest hs hrecall⟩

/-- A connection from the host is now taken for the player 1, whose login is not the last one of the host. -/
theorem older_login_recalled : ∃ s, run recallStep (newRecallServer 0) lostLogin = some s ∧
    recallAuthPID s.server.store [49] = some 1 ∧
      s.logins = [⟨ipHost [49], 1, 0⟩, ⟨ipHost [49], 2, 0⟩] := by
  have hrun : (run recallStep (newRecallServer 0) lostLogin).map
      (fun s => (recallAuthPID s.server.store [49], s.logins)) =
        some (some 1, [⟨ipHost [49], 1, 0⟩, ⟨ipHost [49], 2, 0⟩]) := by decide +kernel
  obtain ⟨s, hs, heq⟩ := Option.map_eq_some_iff.mp hrun
  exact ⟨s, hs, congrArg Prod.fst heq, congrArg Prod.snd heq⟩

end NextendoMatchmaking.Login
