import NextendoMatchmaking.Library.Deferred
import NextendoMatchmaking.Wire.Stream

/-!
# The recall of logins

`RememberAuthPID` and `RecallAuthPID` of `nextendo-nex/ticketgranting.go`: the PID of the last login from each
host, for the connections that come without a ticket.  `authRecallFlusher` writes the table to a file, with
whole seconds, and `authRecallInit` reads it when the server starts again.  Entries that are older than
`authRecallTTL` are dropped where they are met.

Instants are in nanoseconds.  The table keeps a ghost record of all logins, and every entry the number of the
login that it comes from; nothing reads them.
-/

namespace NextendoMatchmaking.Login

open NextendoMatchmaking.Deferred

/-! ### Hosts -/

/-- The host of `net.SplitHostPort`; `none` is an error.  The bytes are those of `:`, `[` and `]`. -/
def splitHost (addr : Bytes) : Option Bytes :=
  let last := addr.length - 1 - addr.reverse.idxOf 58
  if 58 ∉ addr then
    none
  else if addr.head? = some 91 then
    let close := addr.idxOf 93
    -- the first `]` stands right before the last `:`
    if 93 ∉ addr ∨ close + 1 ≠ last ∨ 91 ∈ addr.drop 1 ∨ 93 ∈ addr.drop (close + 1) then none
    else some ((addr.take close).drop 1)
  else if 58 ∈ addr.take last ∨ 91 ∈ addr ∨ 93 ∈ addr then
    none
  else
    some (addr.take last)

/-- `ipHost`. -/
def ipHost (addr : Bytes) : Bytes := (splitHost addr).getD addr

/-- `1:9`, `[1::2]:9` and `1::2` -/
example : ipHost [49, 58, 57] = [49] ∧ ipHost [91, 49, 58, 58, 50, 93, 58, 57] = [49, 58, 58, 50] ∧
    ipHost [49, 58, 58, 50] = [49, 58, 58, 50] := by decide

/-! ### The table -/

def second : Int := 1000000000
def authRecallTTL : Int := 24 * 60 * 60 * second
def authRecallMax : ℕ := 50000

/-- `authRecall`. -/
structure AuthRecall where
  pid : UInt64
  instant : Int
  /-- Ghost: the number of the login. -/
  login : ℕ
  deriving DecidableEq

/-- A login. -/
structure LoginRecord where
  host : Bytes
  pid : UInt64
  instant : Int
  deriving DecidableEq

/-- `authPIDByIP`, and the clock. -/
structure RecallTable where
  byIP : GoMap Bytes AuthRecall
  now : Int
  /-- Ghost: all logins so far. -/
  logins : List LoginRecord

/-- `time.Since(at) > authRecallTTL`. -/
def expired (now instant : Int) : Bool := authRecallTTL < now - instant

/-- `RememberAuthPID`. -/
def rememberAuthPID (t : RecallTable) (addr : Bytes) (pid : UInt64) : RecallTable :=
  { t with
    byIP := t.byIP.insert (ipHost addr) ⟨pid, t.now, t.logins.length⟩
    logins := t.logins ++ [⟨ipHost addr, pid, t.now⟩] }

/-- `RecallAuthPID`, without the removal of an expired entry. -/
def recallAuthPID (t : RecallTable) (addr : Bytes) : Option UInt64 :=
  match t.byIP.lookup (ipHost addr) with
  | none => none
  | some rec => if rec.pid = 0 then none else if expired t.now rec.instant then none else some rec.pid

/-! ### The file -/

/-- `authRecallPersisted`. -/
structure AuthRecallPersisted where
  pid : UInt64
  seconds : Int
  /-- Ghost: the number of the login. -/
  login : ℕ
  deriving DecidableEq

abbrev RecallFile := Option (GoMap Bytes AuthRecallPersisted)

def AuthRecall.persist (rec : AuthRecall) : AuthRecallPersisted := ⟨rec.pid, rec.instant / second, rec.login⟩

def AuthRecallPersisted.restore (rec : AuthRecallPersisted) : AuthRecall :=
  ⟨rec.pid, rec.seconds * second, rec.login⟩

/-- `authRecallInit` at the instant `now`; `none` is a file that cannot be read or decoded. -/
def authRecallInit (now : Int) (file : RecallFile) : GoMap Bytes AuthRecall :=
  GoMap.mapValues AuthRecallPersisted.restore
    (GoMap.deleteWhere (fun _ rec => rec.pid == 0 || expired now (rec.seconds * second)) (file.getD ∅))

/-- What `authRecallFlusher` has found so far, and the expired entries that it has met and not yet removed. -/
structure RecallPass where
  sweep : Sweep Bytes AuthRecallPersisted
  doomed : List Bytes

inductive RecallMove
  /-- `Range` comes to `ip`.  It visits no key twice and may find any of the values that a key has meanwhile, or
  none. -/
  | visit (ip : Bytes)
  /-- The removal of an expired entry, or of what has come in its place. -/
  | delete (ip : Bytes)

/-- The function that `authRecallFlusher` gives to `Range`: what it keeps of the entry under `ip`, and whether
it goes on to remove it. -/
def keepRecall (t : RecallTable) (r : RecallPass) (ip : Bytes) : Option AuthRecallPersisted × Bool :=
  match t.byIP.lookup ip with
  | none => (none, false)
  | some rec =>
    if ip = [] then (none, false)
    else if expired t.now rec.instant then (none, true)
    else (if GoMap.len r.sweep.out < authRecallMax then some rec.persist else none, false)

def readRecall (t : RecallTable) (r : RecallPass) : RecallMove → Option (RecallTable × RecallPass)
  | .visit ip =>
    if r.sweep.seen.contains ip then none
    else
      let (kept, dead) := keepRecall t r ip
      some (t, ⟨r.sweep.record ip kept, if dead then ip :: r.doomed else r.doomed⟩)
  | .delete ip =>
    if r.doomed.contains ip then some ({ t with byIP := t.byIP.erase ip }, { r with doomed := r.doomed.erase ip })
    else none

/-- What a move of a pass can do. -/
inductive RecallMoved (t : RecallTable) (r : RecallPass) : RecallMove → RecallTable → RecallPass → Prop
  | visit {ip} (hip : ip ∉ r.sweep.seen) : RecallMoved t r (.visit ip) t
      ⟨r.sweep.record ip (keepRecall t r ip).1, if (keepRecall t r ip).2 then ip :: r.doomed else r.doomed⟩
  | delete {ip} (hip : ip ∈ r.doomed) : RecallMoved t r (.delete ip) { t with byIP := t.byIP.erase ip }
      { r with doomed := r.doomed.erase ip }

variable {t : RecallTable} {r : RecallPass} {ip : Bytes} {now now' : Int}

theorem recallMoved {t' : RecallTable} {r' : RecallPass} {c : RecallMove} (h : readRecall t r c = some (t', r')) :
    RecallMoved t r c t' r' := by
  cases c with
  | visit ip =>
    simp only [readRecall] at h
    split at h
    · cases h
    · rename_i hip
      cases h
      exact .visit fun hmem => hip (List.contains_iff_mem.mpr hmem)
  | delete ip =>
    simp only [readRecall] at h
    split at h
    · rename_i hip
      cases h
      exact .delete (List.contains_iff_mem.mp hip)
    · cases h

/-- What a pass keeps is an entry of the table, under a host with a name. -/
theorem keepRecall_some {p : AuthRecallPersisted} (h : (keepRecall t r ip).1 = some p) :
    ip ≠ [] ∧ ∃ rec, t.byIP.lookup ip = some rec ∧ p = rec.persist := by
  unfold keepRecall at h
  cases hlookup : t.byIP.lookup ip with
  | none =>
    rw [hlookup] at h
    cases h
  | some rec =>
    rw [hlookup] at h
    dsimp only at h
    split at h
    · cases h
    · rename_i hip
      split at h
      · cases h
      · dsimp only at h
        split at h
        · cases h
          exact ⟨hip, rec, rfl, rfl⟩
        · cases h

inductive RecallCall
  | remember (addr : Bytes) (pid : UInt64)
  /-- Time passes. -/
  | wait (d : ℕ)

/-- The table with `authRecallFlusher`. -/
def recallDesign : Design RecallTable RecallPass RecallFile RecallCall RecallMove where
  apply t e :=
    match e with
    | .remember addr pid => (rememberAuthPID t addr pid, true)
    | .wait d => ({ t with now := t.now + d }, false)
  start := ⟨.empty, []⟩
  read := readRecall
  complete t r := r.sweep.covers t.byIP && r.doomed.isEmpty
  output r := some r.sweep.out
  load t file := { t with byIP := authRecallInit t.now file }

/-! ### Entries that are not expired -/

theorem expired_mono {instant : Int} (h : now ≤ now') (hexpired : expired now instant = true) :
    expired now' instant = true := by
  simp only [expired, decide_eq_true_eq] at hexpired ⊢
  omega

theorem wholeSeconds_le (instant : Int) : instant / second * second ≤ instant :=
  Int.ediv_mul_le instant (by decide)

/-- What is expired is expired with whole seconds. -/
theorem expired_persist {rec : AuthRecall} (h : expired now rec.instant = true) :
    expired now (rec.persist.seconds * second) = true := by
  have hle : rec.persist.seconds * second ≤ rec.instant := wholeSeconds_le rec.instant
  simp only [expired, decide_eq_true_eq] at h ⊢
  omega

/-- A record as it counts at the instant `now`. -/
def fresh (now : Int) (rec : Option AuthRecallPersisted) : Option AuthRecallPersisted :=
  rec.filter (fun rec => !expired now (rec.seconds * second))

@[simp] theorem fresh_none (now : Int) : fresh now none = none := rfl

@[simp] theorem fresh_some (now : Int) (rec : AuthRecallPersisted) :
    fresh now (some rec) = if expired now (rec.seconds * second) then none else some rec := by
  simp only [fresh, Option.filter_some]
  cases expired now (rec.seconds * second) <;> rfl

theorem fresh_fresh (h : now ≤ now') (rec : Option AuthRecallPersisted) :
    fresh now' (fresh now rec) = fresh now' rec := by
  cases rec with
  | none => rfl
  | some rec =>
    by_cases hexpired : expired now (rec.seconds * second) = true
    · have hlater := expired_mono h hexpired
      simp [hexpired, hlater]
    · simp [hexpired]

theorem fresh_filter (now : Int) (rec : Option AuthRecallPersisted) (p : AuthRecallPersisted → Bool) :
    fresh now (rec.filter p) = (fresh now rec).filter p := by
  simp only [fresh, Option.filter_filter, Bool.and_comm]

/-- A record counts as long as the entry that it is read back to. -/
theorem map_restore_fresh (now : Int) (rec : Option AuthRecallPersisted) :
    (fresh now rec).map AuthRecallPersisted.restore =
      (rec.map AuthRecallPersisted.restore).filter (fun rec => !expired now rec.instant) := by
  rw [Option.filter_map]
  rfl

/-- The table as the file can show it: with whole seconds, and without what is expired. -/
def RecallTable.current (t : RecallTable) : GoMap Bytes AuthRecall :=
  GoMap.deleteWhere (fun _ rec => expired t.now rec.instant)
    (GoMap.mapValues (fun rec => rec.persist.restore) t.byIP)

theorem lookup_current (t : RecallTable) (ip : Bytes) :
    t.current.lookup ip =
      (fresh t.now ((t.byIP.lookup ip).map AuthRecall.persist)).map AuthRecallPersisted.restore := by
  unfold RecallTable.current
  rw [GoMap.lookup_deleteWhere, GoMap.lookup_mapValues, map_restore_fresh, Option.map_map]
  rfl

theorem lookup_authRecallInit (now : Int) (file : RecallFile) (ip : Bytes) :
    (authRecallInit now file).lookup ip =
      ((fresh now ((file.getD ∅).lookup ip)).filter (fun rec => rec.pid != 0)).map
        AuthRecallPersisted.restore := by
  unfold authRecallInit fresh
  rw [GoMap.lookup_mapValues, GoMap.lookup_deleteWhere, Option.filter_filter]
  simp only [Bool.not_or, Bool.and_comm, bne]

/-- An entry of the file that is loaded. -/
theorem of_lookup_authRecallInit {file : RecallFile} {rec : AuthRecall}
    (h : (authRecallInit now file).lookup ip = some rec) :
    ∃ p, (file.getD ∅).lookup ip = some p ∧ rec = p.restore ∧ p.pid ≠ 0 ∧
      expired now (p.seconds * second) = false := by
  rw [lookup_authRecallInit, Option.map_eq_some_iff] at h
  obtain ⟨p, hp, rfl⟩ := h
  rw [Option.filter_eq_some_iff] at hp
  obtain ⟨hfresh, hpid⟩ := hp
  rw [fresh, Option.filter_eq_some_iff] at hfresh
  obtain ⟨hlookup, halive⟩ := hfresh
  exact ⟨p, hlookup, rfl, by simpa using hpid, by simpa using halive⟩

/-! ### The file and the table -/

/-- The table has entries of hosts and players only. -/
def Named (t : RecallTable) : Prop := ∀ ip rec, t.byIP.lookup ip = some rec → ip ≠ [] ∧ rec.pid ≠ 0

theorem named_remember (h : Named t) {addr : Bytes} {pid : UInt64} (hhost : ipHost addr ≠ []) (hpid : pid ≠ 0) :
    Named (rememberAuthPID t addr pid) := by
  intro ip rec hlookup
  change (t.byIP.insert (ipHost addr) _).lookup ip = some rec at hlookup
  rw [GoMap.lookup_insert_eq] at hlookup
  split at hlookup
  · rename_i hip
    cases hlookup
    exact ⟨hip ▸ hhost, hpid⟩
  · exact h ip rec hlookup

theorem named_erase (h : Named t) (ip : Bytes) : Named { t with byIP := t.byIP.erase ip } := by
  intro ip' rec hlookup
  change (t.byIP.erase ip).lookup ip' = some rec at hlookup
  rw [GoMap.lookup_erase_eq] at hlookup
  split at hlookup
  · cases hlookup
  · exact h ip' rec hlookup

/-- A file without an empty host, as `authRecallFlusher` writes it. -/
def NamedFile (file : RecallFile) : Prop := ∀ rec, (file.getD ∅).lookup [] ≠ some rec

theorem named_load {file : RecallFile} (h : NamedFile file) (t : RecallTable) :
    Named (recallDesign.load t file) := by
  intro ip rec hlookup
  obtain ⟨p, hp, rfl, hpid, -⟩ := of_lookup_authRecallInit hlookup
  refine ⟨?_, hpid⟩
  rintro rfl
  exact h p hp

/-- The empty host is neither in the table, nor in the file, nor among what a pass has kept. -/
structure NamedState (s : State RecallTable RecallPass RecallFile) : Prop where
  store : Named s.store
  file : NamedFile s.file
  pass : ∀ r, s.pass = some r → r.sweep.out.lookup [] = none

theorem lookup_record_keepRecall (h : r.sweep.out.lookup [] = none) :
    (r.sweep.record ip (keepRecall t r ip).1).out.lookup [] = none := by
  cases hkept : (keepRecall t r ip).1 with
  | none => exact h
  | some p =>
    show (r.sweep.out.insert ip p).lookup [] = none
    rw [GoMap.lookup_insert_eq, if_neg (Ne.symm (keepRecall_some hkept).1), h]

theorem named_readRecall {t' : RecallTable} {r' : RecallPass} {c : RecallMove} (hnamed : Named t)
    (hr : r.sweep.out.lookup [] = none) (hmove : readRecall t r c = some (t', r')) :
    Named t' ∧ r'.sweep.out.lookup [] = none := by
  cases recallMoved hmove with
  | visit _ => exact ⟨hnamed, lookup_record_keepRecall hr⟩
  | delete _ => exact ⟨named_erase hnamed _, hr⟩

/-- Logins of players from hosts with a name keep it so. -/
theorem namedState_step {s s' : State RecallTable RecallPass RecallFile} (h : NamedState s)
    {e : Event RecallCall RecallMove}
    (hcall : ∀ addr pid, e = .op (.remember addr pid) → ipHost addr ≠ [] ∧ pid ≠ 0)
    (hstep : step recallDesign s e = some s') : NamedState s' := by
  cases stepped hstep with
  | op call =>
    cases call with
    | remember addr pid =>
      obtain ⟨hhost, hpid⟩ := hcall addr pid rfl
      exact ⟨named_remember h.store hhost hpid, h.file, h.pass⟩
    | wait d => exact ⟨h.store, h.file, h.pass⟩
  | flag _ => exact ⟨h.store, h.file, h.pass⟩
  | rest _ _ => exact h
  | start _ _ =>
    refine ⟨h.store, h.file, fun r hr => ?_⟩
    cases hr
    rfl
  | read hr hmove =>
    obtain ⟨hstore, hout⟩ := named_readRecall h.store (h.pass _ hr) hmove
    refine ⟨hstore, h.file, fun r' hr' => ?_⟩
    cases hr'
    exact hout
  | write ok hr _ =>
    refine ⟨h.store, ?_, nofun⟩
    cases ok with
    | false => exact h.file
    | true =>
      intro rec hlookup
      exact absurd ((h.pass _ hr).symm.trans hlookup) (Option.some_ne_none rec).symm
  | restart => exact ⟨named_load h.file s.store, h.file, nofun⟩

/-- What the pass has found counts now as what is in the table; what it is about to remove, it has not kept. -/
structure ReadsRecall (t : RecallTable) (r : RecallPass) : Prop where
  shows : r.sweep.Shows (fresh t.now) (fun ip => fresh t.now ((t.byIP.lookup ip).map AuthRecall.persist))
  doomed : ∀ ip ∈ r.doomed, ip ∈ r.sweep.seen ∧ r.sweep.out.lookup ip = none

/-- Time makes no difference: what expires, expires in both. -/
theorem ReadsRecall.later (h : ReadsRecall t r) (d : ℕ) : ReadsRecall { t with now := t.now + d } r := by
  refine ⟨⟨fun ip hip => ?_, h.shows.unseen⟩, h.doomed⟩
  have hle : t.now ≤ t.now + d := by omega
  have hnow := h.shows.seen ip hip
  show fresh (t.now + d) (r.sweep.out.lookup ip) = fresh (t.now + d) ((t.byIP.lookup ip).map AuthRecall.persist)
  rw [← fresh_fresh hle, hnow, fresh_fresh hle]

/-- A host that is met: kept, or not kept because nothing is there, or because it is expired. -/
theorem fresh_keepRecall (h : Named t) (hbelow : GoMap.len r.sweep.out < authRecallMax) (ip : Bytes) :
    fresh t.now (keepRecall t r ip).1 = fresh t.now ((t.byIP.lookup ip).map AuthRecall.persist) ∧
      ((keepRecall t r ip).2 = true → (keepRecall t r ip).1 = none) := by
  unfold keepRecall
  cases hlookup : t.byIP.lookup ip with
  | none => exact ⟨rfl, fun _ => rfl⟩
  | some rec =>
    dsimp only
    rw [if_neg (h ip rec hlookup).1, if_pos hbelow]
    by_cases hexpired : expired t.now rec.instant = true
    · rw [if_pos hexpired]
      refine ⟨?_, fun _ => rfl⟩
      rw [Option.map_some, fresh_some, if_pos (expired_persist hexpired)]
      rfl
    · rw [if_neg hexpired]
      exact ⟨rfl, fun hdead => absurd hdead Bool.false_ne_true⟩

theorem reads_visit (hnamed : Named t) (hbelow : GoMap.len r.sweep.out < authRecallMax) (h : ReadsRecall t r)
    (hip : ip ∉ r.sweep.seen) :
    ReadsRecall t ⟨r.sweep.record ip (keepRecall t r ip).1,
      if (keepRecall t r ip).2 then ip :: r.doomed else r.doomed⟩ := by
  obtain ⟨hkept, hdead⟩ := fresh_keepRecall hnamed hbelow ip
  refine ⟨h.shows.record hip hkept, fun ip' hip' => ?_⟩
  rw [Sweep.lookup_record _ (h.shows.unseen ip hip)]
  -- the host that has just been met, or one from before
  have hcases : ip' ∈ r.doomed ∨ (ip' = ip ∧ (keepRecall t r ip).2 = true) := by
    split at hip'
    · rename_i hflag
      exact (List.mem_cons.mp hip').symm.imp_right fun heq => ⟨heq, hflag⟩
    · exact .inl hip'
  rcases hcases with hold | ⟨rfl, hflag⟩
  · obtain ⟨hseen, hnone⟩ := h.doomed ip' hold
    have hne : ip' ≠ ip := fun heq => hip (heq ▸ hseen)
    exact ⟨List.mem_cons_of_mem _ hseen, by rw [if_neg hne, hnone]⟩
  · exact ⟨List.mem_cons_self, by rw [if_pos rfl, hdead hflag]⟩

theorem reads_delete (h : ReadsRecall t r) (hip : ip ∈ r.doomed) :
    ReadsRecall { t with byIP := t.byIP.erase ip } { r with doomed := r.doomed.erase ip } := by
  refine ⟨⟨fun ip' hip' => ?_, h.shows.unseen⟩, fun ip' hip' => h.doomed ip' (List.mem_of_mem_erase hip')⟩
  show fresh t.now (r.sweep.out.lookup ip') =
    fresh t.now (((t.byIP.erase ip).lookup ip').map AuthRecall.persist)
  rw [GoMap.lookup_erase_eq]
  by_cases heq : ip' = ip
  · rw [if_pos heq, heq, (h.doomed ip hip).2]
    rfl
  · rw [if_neg heq]
    exact h.shows.seen ip' hip'

/-- **The round trip of the table.** -/
theorem authRecallInit_out (hnamed : Named t) (h : ReadsRecall t r) (hcovers : r.sweep.covers t.byIP = true) :
    authRecallInit t.now (some r.sweep.out) = t.current := by
  have hall : ∀ ip, fresh t.now (r.sweep.out.lookup ip) =
      fresh t.now ((t.byIP.lookup ip).map AuthRecall.persist) := by
    refine h.shows.all fun ip hip => ?_
    rw [Sweep.lookup_of_covers hcovers hip]
    rfl
  apply Finmap.ext_lookup
  intro ip
  rw [lookup_authRecallInit, lookup_current]
  show ((fresh t.now (r.sweep.out.lookup ip)).filter _).map _ = _
  rw [hall]
  congr 1
  -- no entry has the PID 0
  cases hlookup : t.byIP.lookup ip with
  | none => rfl
  | some rec =>
    have hpid : rec.persist.pid ≠ 0 := (hnamed ip rec hlookup).2
    rw [Option.map_some, fresh_some]
    split
    · rfl
    · rw [Option.filter_some, if_pos (bne_iff_ne.mpr hpid)]

/-- The file shows the table. -/
def RecallOnFile (file : RecallFile) (t : RecallTable) : Prop := authRecallInit t.now file = t.current

theorem authRecallInit_later (file : RecallFile) (h : now ≤ now') :
    authRecallInit now' file =
      GoMap.deleteWhere (fun _ rec => expired now' rec.instant) (authRecallInit now file) := by
  apply Finmap.ext_lookup
  intro ip
  rw [GoMap.lookup_deleteWhere, lookup_authRecallInit, lookup_authRecallInit, ← fresh_fresh h, ← fresh_filter,
    map_restore_fresh]

theorem current_later (t : RecallTable) (d : ℕ) :
    RecallTable.current { t with now := t.now + d } =
      GoMap.deleteWhere (fun _ rec => expired (t.now + d) rec.instant) t.current := by
  apply Finmap.ext_lookup
  intro ip
  have hle : t.now ≤ t.now + d := by omega
  rw [GoMap.lookup_deleteWhere, lookup_current, lookup_current]
  show (fresh (t.now + d) ((t.byIP.lookup ip).map AuthRecall.persist)).map _ = _
  rw [← fresh_fresh hle, map_restore_fresh]

theorem recallOnFile_load (t : RecallTable) (file : RecallFile) :
    RecallOnFile file (recallDesign.load t file) := by
  apply Finmap.ext_lookup
  intro ip
  rw [lookup_current]
  show (authRecallInit t.now file).lookup ip =
    (fresh t.now (((authRecallInit t.now file).lookup ip).map AuthRecall.persist)).map _
  cases hlookup : (authRecallInit t.now file).lookup ip with
  | none => rfl
  | some rec =>
    obtain ⟨p, -, rfl, -, halive⟩ := of_lookup_authRecallInit hlookup
    have hback : p.restore.persist = p := by
      show (⟨p.pid, p.seconds * second / second, p.login⟩ : AuthRecallPersisted) = p
      rw [Int.mul_ediv_cancel _ (by decide)]
    rw [Option.map_some, hback, fresh_some, halive]
    rfl

theorem lawful_recall :
    Lawful recallDesign Named (fun r => GoMap.len r.sweep.out < authRecallMax) ReadsRecall RecallOnFile where
  start _ _ := ⟨Sweep.shows_empty, fun _ hip => absurd hip List.not_mem_nil⟩
  quiet_agrees t e file _ hquiet hagrees := by
    cases e with
    | remember addr pid => cases hquiet
    | wait d =>
      show authRecallInit (t.now + d) file = RecallTable.current { t with now := t.now + d }
      rw [authRecallInit_later file (show t.now ≤ t.now + d by omega), current_later, show _ = _ from hagrees]
  quiet_reads t e r _ hquiet hreads := by
    cases e with
    | remember addr pid => cases hquiet
    | wait d => exact hreads.later d
  read t r c t' r' hgood hbelow hreads hmove := by
    cases recallMoved hmove with
    | visit hip => exact reads_visit hgood hbelow hreads hip
    | delete hip => exact reads_delete hreads hip
  complete t r hgood hreads hcomplete := by
    exact authRecallInit_out hgood hreads (Bool.and_eq_true_iff.mp hcomplete).1
  load t file := recallOnFile_load t file

end NextendoMatchmaking.Login
