import NextendoMatchmaking.Library.Deferred
import NextendoMatchmaking.Wire.Stream

/-!
# The profiles of players

`PutCommonData` of `nextendo-nex/ranking.go` keeps the last profile that each player has published.
`commonDataFlusher` writes the table to a file, which `loadCommonData` reads when the server starts again; the
decimal keys and the base64 of the file stand for what they encode.  `ForgetCommonData` is not here: nothing but
a test calls it.
-/

namespace NextendoMatchmaking.Ranking

open NextendoMatchmaking.Deferred

def commonDataMaxLen : ℕ := 4096
def commonDataMaxStored : ℕ := 50000

/-- `commonDataStore`. -/
abbrev CommonData := GoMap UInt64 Bytes

/-- `loadCommonData`; `none` is a file that cannot be read or decoded. -/
def loadCommonData (file : Option CommonData) : CommonData :=
  GoMap.deleteWhere (fun _ blob => blob.length == 0 || commonDataMaxLen < blob.length) (file.getD ∅)

/-- `PutCommonData`: the table, and whether the profile was taken. -/
def putCommonData (m : CommonData) (pid : UInt64) (blob : Bytes) : CommonData × Bool :=
  if blob.length = 0 ∨ commonDataMaxLen < blob.length then (m, false) else (m.insert pid blob, true)

/-- The function that `writeCommonData` gives to `Range`, at `pid`.  `Range` visits no key twice and may find
any of the values that a key has meanwhile, or none. -/
def visitCommonData (m : CommonData) (r : Sweep UInt64 Bytes) (pid : UInt64) :
    Option (CommonData × Sweep UInt64 Bytes) :=
  if pid ∈ r.seen then none
  else some (m, r.record pid (if GoMap.len r.out < commonDataMaxStored then m.lookup pid else none))

theorem visitCommonData_some {m m' : CommonData} {r r' : Sweep UInt64 Bytes} {pid : UInt64}
    (h : visitCommonData m r pid = some (m', r')) : pid ∉ r.seen ∧ m' = m ∧
      r' = r.record pid (if GoMap.len r.out < commonDataMaxStored then m.lookup pid else none) := by
  unfold visitCommonData at h
  split at h
  · cases h
  · rename_i hpid
    cases h
    exact ⟨hpid, rfl, rfl⟩

/-- The profiles with `commonDataFlusher`. -/
def commonDataDesign : Design CommonData (Sweep UInt64 Bytes) (Option CommonData) (UInt64 × Bytes) UInt64 where
  apply m e := putCommonData m e.1 e.2
  start := .empty
  read := visitCommonData
  complete m r := r.covers m
  output r := some r.out
  load _ file := loadCommonData file

theorem readsOnly_commonData : ReadsOnly commonDataDesign :=
  fun _ _ _ _ _ hmove => (visitCommonData_some hmove).2.1

/-- A profile that is refused leaves the table as it was. -/
theorem put_refused {m : CommonData} {pid : UInt64} {blob : Bytes} (h : (putCommonData m pid blob).2 = false) :
    (putCommonData m pid blob).1 = m := by
  unfold putCommonData at h ⊢
  split
  · rfl
  · rename_i hlen
    rw [if_neg hlen] at h
    cases h

/-! ### The file and the table -/

/-- Every profile has a length that the server takes. -/
def Acceptable (m : CommonData) : Prop :=
  ∀ pid blob, m.lookup pid = some blob → blob.length ≠ 0 ∧ blob.length ≤ commonDataMaxLen

theorem acceptable_put {m : CommonData} (h : Acceptable m) (pid : UInt64) (blob : Bytes) :
    Acceptable (putCommonData m pid blob).1 := by
  unfold putCommonData
  split
  · exact h
  · rename_i hlen
    intro pid' blob' hlookup
    rw [GoMap.lookup_insert_eq] at hlookup
    split at hlookup
    · cases hlookup
      omega
    · exact h pid' blob' hlookup

theorem acceptable_load (file : Option CommonData) : Acceptable (loadCommonData file) := by
  intro pid blob hlookup
  have hkept := (GoMap.lookup_deleteWhere_some hlookup).2
  simp only [Bool.or_eq_false_iff, beq_eq_false_iff_ne, decide_eq_false_iff_not] at hkept
  omega

/-- A table that a file holds comes back. -/
theorem load_acceptable {m : CommonData} (h : Acceptable m) : loadCommonData (some m) = m := by
  refine GoMap.deleteWhere_eq_self (fun pid blob hlookup => ?_)
  have hlen := h pid blob hlookup
  simp only [Bool.or_eq_false_iff, beq_eq_false_iff_ne, decide_eq_false_iff_not]
  omega

/-- The profiles that the iteration has found are those of the table. -/
def ReadsCommonData (m : CommonData) (r : Sweep UInt64 Bytes) : Prop := r.Shows id m.lookup

theorem lawful_commonData :
    Lawful commonDataDesign Acceptable (fun r => GoMap.len r.out < commonDataMaxStored) ReadsCommonData
      (fun file m => loadCommonData file = m) where
  start _ _ := Sweep.shows_empty
  quiet_agrees m e file _ hquiet hagrees := hagrees.trans (put_refused hquiet).symm
  quiet_reads m e r _ hquiet hreads :=
    (congrArg (fun m => ReadsCommonData m r) (put_refused hquiet)).mpr hreads
  read m r pid m' r' _ hbelow hreads hmove := by
    obtain ⟨hpid, rfl, rfl⟩ := visitCommonData_some hmove
    rw [if_pos hbelow]
    exact hreads.record hpid rfl
  complete m r hgood hreads hcomplete := by
    have hout : r.out = m := by
      apply Finmap.ext_lookup
      exact hreads.all fun pid hpid => Sweep.lookup_of_covers hcomplete hpid
    show loadCommonData (some r.out) = m
    rw [hout, load_acceptable hgood]
  load _ _ := rfl

end NextendoMatchmaking.Ranking
