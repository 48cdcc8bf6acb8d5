import NextendoMatchmaking.Library.Index
import NextendoMatchmaking.Matchmaking.Outsiders

/-!
# The index of room codes

`byCode` finds a gathering by its room code, and a gathering carries its code.  The two are the two
directions of one relation, but only `RemovePlayer` takes an entry out: a gathering that its owner
unregisters or its last participant leaves stays in the index, and so does a code that is replaced.  New
codes are written without a look at the index, also for ids that no gathering has.

`room_codes` says that these are the only ways to take the two directions apart: as long as no step is one
of `Misnames`, `byCode` is exactly the inverse of the codes.
-/

namespace NextendoMatchmaking.Matchmaking

open NextendoMatchmaking.Runs Relation

variable {o : Options} {e : Event} {m m' : Store} {gid : UInt32} {g g' : GatheringEntry} {ttl : Int}

/-! ### Resolving a code -/

/-- The code in the body of `resolveCode`. -/
def readCode (req : RMCMessage) : Bytes :=
  let code := (StreamIn.run StreamIn.string req.body).1
  if code.length ≠ 5 ∧ 5 < req.body.length then (StreamIn.run StreamIn.string (req.body.drop 5)).1
  else code

/-- The gathering id that `resolveCode` answers with. -/
def resolve (m : Store) (code : Bytes) : UInt32 := (m.byCode.lookup code).getD 0

theorem resolveCode_eq (req : RMCMessage) (m : Store) : resolveCode req m =
    success req protocolMatchmakeExtension (StreamOut.u32 (resolve m (readCode req))) := rfl

/-- The code that `makeCode` gives out next for `gid`, as the state of its generator says. -/
def nextCode (m : Store) (gid : UInt32) : Bytes := codeChars 5 (m.codeRand * 1103515245 + 12345 + gid)

/-- The update writes the room code. -/
def WritesCode (p : UpdateMatchmakeSessionParam) : Prop :=
  p.modificationFlags &&& modFlagCodeword ≠ 0 ∨ p.codeword ≠ []

/-- `g` may be given this code: it has it, or it has none and nothing is indexed under it. -/
def Nameable (m : Store) (g : GatheringEntry) (code : Bytes) : Prop :=
  g.code = code ∨ g.code = [] ∧ m.byCode.lookup code = none

/-- The operations that take the index and the codes apart. -/
inductive Misnames (o : Options) (m : Store) : Event → Prop
  /-- A code for an id that no gathering has. -/
  | unknown {service conn req env} (h : MakesCode service req)
      (hnone : m.gatherings.lookup (readGID req) = none) : Misnames o m (.request service conn req env)
  /-- A second code, or one that is taken. -/
  | makes {service conn req env g} (h : MakesCode service req)
      (hg : m.gatherings.lookup (readGID req) = some g) (hcode : ¬ Nameable m g (nextCode m (readGID req))) :
      Misnames o m (.request service conn req env)
  | updates {service conn req env p g} (h : UpdatesPart o service req p)
      (hg : m.gatherings.lookup p.gid = some g) (hwrites : WritesCode p)
      (hcode : ¬ Nameable m g p.codeword) : Misnames o m (.request service conn req env)
  /-- A gathering with a code is unregistered, or its last participant ends its participation. -/
  | removes {service conn req env gid g} (h : Removal gid g (.request service conn req env))
      (hg : m.gatherings.lookup gid = some g) (hcode : g.code ≠ []) :
      Misnames o m (.request service conn req env)
  /-- A gathering with a code is replaced by a new one under its id. -/
  | replaces {conn req env g} (h : Opens o env conn req m) (hg : m.gatherings.lookup m.nextGID = some g)
      (hcode : g.code ≠ []) : Misnames o m (.request .extension conn req env)

/-! ### The names of the gatherings -/

/-- The code of a gathering, if it has one. -/
def nameOf (m : Store) (gid : UInt32) : Option Bytes :=
  (m.gatherings.lookup gid).bind (fun g => if g.code = [] then none else some g.code)

theorem nameOf_of_lookup (h : m.gatherings.lookup gid = some g) :
    nameOf m gid = if g.code = [] then none else some g.code := by
  rw [nameOf, h, Option.bind_some]

theorem nameOf_of_none (h : m.gatherings.lookup gid = none) : nameOf m gid = none := by
  rw [nameOf, h, Option.bind_none]

theorem nameOf_eq_some {code : Bytes} : nameOf m gid = some code ↔
    code ≠ [] ∧ ∃ g, m.gatherings.lookup gid = some g ∧ g.code = code := by
  constructor
  · intro h
    obtain ⟨g, hg, hcode⟩ := Option.bind_eq_some_iff.mp h
    split at hcode
    · cases hcode
    · rename_i hne
      cases hcode
      exact ⟨hne, g, hg, rfl⟩
  · rintro ⟨hne, g, hg, rfl⟩
    rw [nameOf_of_lookup hg, if_neg hne]

/-- `byCode` is the inverse of the codes. -/
def Indexed (m : Store) : Prop := Indexes m.byCode (nameOf m)

/-! ### Operations that write no code -/

theorem code_newGathering (env : CreationEnv) (conn : Caller) (gid : UInt32) (src : MatchmakeSession) :
    (newGathering env conn gid src).code = [] := rfl

theorem code_touch (hquiet : ¬ WritesIndex o e) (t : Touch o ttl gid e g g') : g'.code = g.code := by
  cases t with
  | edit hedit =>
    cases hedit with
    | code h _ => exact absurd (.code h) hquiet
    | _ => rfl
  | part p h _ => exact absurd (.part h) hquiet
  | _ => rfl

/-- Such an operation leaves every name alone, unless a gathering goes or is replaced with its code. -/
theorem nameOf_step (hreach : Reachable (step o) newMatchmaking m) (hquiet : ¬ WritesIndex o e)
    (hkeep : ¬ Misnames o m e) (h : step o m e = some m') : nameOf m' = nameOf m := by
  have hrep := represented_of_reachable hreach
  have htouches : ∀ {ttl gid g g'}, ReflTransGen (Touch o ttl gid e) g g' → g'.code = g.code := by
    intro ttl gid g g' t
    exact touches_keep (P := fun g' => g'.code = g.code) (fun hP t => (code_touch hquiet t).trans hP) rfl t
  funext gid
  cases (step_described h).change gid with
  | kept h₀ h' t _ => rw [nameOf_of_lookup h₀, nameOf_of_lookup h', htouches t]
  | gone h' hgone =>
    rw [nameOf_of_none h']
    cases hg : m.gatherings.lookup gid with
    | none => exact (nameOf_of_none hg).symm
    | some g =>
      have hr := hgone g hg
      have hcode : g.code = [] := by
        by_contra hne
        cases hr with
        | unregister h₁ h₂ h₃ => exact hkeep (.removes (.unregister h₁ h₂ h₃) hg hne)
        | leave h₁ h₂ h₃ => exact hkeep (.removes (.leave h₁ h₂ h₃) hg hne)
        | disconnect _ => exact hquiet .disconnect
      rw [nameOf_of_lookup hg, if_pos hcode]
  | @fresh service conn req env src g' he hjoin hgid hnext h' t =>
    subst he
    rw [nameOf_of_lookup h', htouches t, if_pos (code_newGathering _ _ _ _)]
    cases hg : m.gatherings.lookup gid with
    | none => exact (nameOf_of_none hg).symm
    | some g =>
      have hopens : Opens o env conn req m := by
        refine opens_of_nextGID hrep hjoin h ?_
        rw [hnext]
        intro heq
        simp at heq
      have hcode : g.code = [] := by
        by_contra hne
        obtain ⟨rfl, -⟩ := hjoin
        exact hkeep (.replaces hopens (hgid ▸ hg) hne)
      rw [nameOf_of_lookup hg, if_pos hcode]

/-! ### Operations that write a code -/

/-- A code that may be given is written to the gathering and to the index. -/
theorem indexed_assign {code : Bytes} {m₁ : Store} (h : Indexed m) (hg : m.gatherings.lookup gid = some g)
    (hne : code ≠ []) (hmay : Nameable m g code) (hindex : m₁.byCode = m.byCode.insert code gid)
    (hlookup : ∀ gid', m₁.gatherings.lookup gid' =
      if gid' = gid then some g' else m.gatherings.lookup gid') (hcode : g'.code = code) : Indexed m₁ := by
  have hname : nameOf m₁ = Function.update (nameOf m) gid (some code) := by
    funext gid'
    rw [Function.update_apply, nameOf, hlookup]
    split
    · rw [Option.bind_some, hcode, if_neg hne]
    · rfl
  unfold Indexed
  rw [hindex, hname]
  rcases hmay with hsame | ⟨hempty, hfree⟩
  · have hgid : nameOf m gid = some code := nameOf_eq_some.mpr ⟨hne, g, hg, hsame⟩
    rw [Function.update_eq_self_iff.mpr hgid.symm]
    exact h.rename_same hgid
  · have hgid : nameOf m gid = none := by rw [nameOf_of_lookup hg, if_pos hempty]
    exact h.assign hgid hfree

/-- Whoever writes to a gathering and not to its code leaves all names alone. -/
theorem nameOf_put (hg : m.gatherings.lookup gid = some g) (hcode : g'.code = g.code) :
    nameOf (m.put gid g') = nameOf m := by
  funext gid'
  by_cases hgid : gid' = gid
  · subst hgid
    have hput : (m.put gid' g').gatherings.lookup gid' = some g' := by rw [lookup_put, if_pos rfl]
    rw [nameOf_of_lookup hput, nameOf_of_lookup hg, hcode]
  · rw [nameOf, nameOf, lookup_put, if_neg hgid]

theorem indexed_makeCode (h : Indexed m) (hg : m.gatherings.lookup gid = some g)
    (hmay : Nameable m g (nextCode m gid)) : Indexed (makeCode gid m).2 := by
  have hlookup : ∀ gid', (makeCode gid m).2.gatherings.lookup gid' =
      if gid' = gid then some { g with code := nextCode m gid } else m.gatherings.lookup gid' := by
    intro gid'
    simp only [makeCode, GoMap.modify, hg]
    exact GoMap.lookup_insert_eq _ _ _ _
  exact indexed_assign h hg (List.cons_ne_nil _ _) hmay rfl hlookup rfl

theorem indexed_applySessionPart {p : UpdateMatchmakeSessionParam} (h : Indexed m)
    (hmay : ∀ g, m.gatherings.lookup p.gid = some g → WritesCode p → Nameable m g p.codeword) :
    Indexed (applySessionPart p m) := by
  unfold applySessionPart
  split
  · exact h
  · rename_i g hg
    by_cases hcode : p.codeword = []
    · -- nothing goes to the index, and the gathering had no code if it loses one
      have hsame : (applyPart p g).code = g.code := by
        show (if p.modificationFlags &&& modFlagCodeword ≠ 0 ∨ p.codeword ≠ [] then p.codeword
          else g.code) = g.code
        split
        · rename_i hwrites
          rcases hmay g hg hwrites with heq | ⟨hempty, -⟩
          · exact heq.symm
          · rw [hcode, hempty]
        · rfl
      rw [if_neg (not_not_intro hcode)]
      have hname := nameOf_put hg hsame
      unfold Indexed at h ⊢
      exact hname ▸ h
    · have hwritten : (applyPart p g).code = p.codeword := by
        show (if p.modificationFlags &&& modFlagCodeword ≠ 0 ∨ p.codeword ≠ [] then p.codeword
          else g.code) = p.codeword
        exact if_pos (.inr hcode)
      refine indexed_assign h hg hcode (hmay g hg (.inr hcode)) (if_pos hcode) ?_ hwritten
      intro gid'
      exact lookup_put m p.gid gid' (applyPart p g)

/-! ### `RemovePlayer` -/

theorem code_removePlayerFrom {pid : UInt64} (h : removePlayerFrom pid g = some g') : g'.code = g.code := by
  simp only [removePlayerFrom] at h
  split at h
  · cases h
    rfl
  · split at h
    · cases h
    · cases h
      rfl

/-- One round of the loop: a gathering that goes takes its entry with it. -/
theorem indexed_removePlayerAt (h : Indexed m) (pid : UInt64) (gid : UInt32) :
    Indexed (removePlayerAt pid m gid) := by
  unfold removePlayerAt
  cases hg : m.gatherings.lookup gid with
  | none => exact h
  | some g =>
    dsimp only
    cases hrem : removePlayerFrom pid g with
    | some g' =>
      have hname := nameOf_put hg (code_removePlayerFrom hrem)
      unfold Indexed at h ⊢
      exact hname ▸ h
    | none =>
      have hname : ∀ byCode, nameOf { m.remove gid with byCode := byCode } =
          Function.update (nameOf m) gid none := by
        intro byCode
        funext gid'
        rw [Function.update_apply, nameOf]
        show ((m.remove gid).gatherings.lookup gid').bind _ = _
        rw [lookup_remove]
        split <;> rfl
      dsimp only
      unfold Indexed
      rw [hname]
      by_cases hcode : g.code = []
      · have hgid : nameOf m gid = none := by rw [nameOf_of_lookup hg, if_pos hcode]
        rw [if_neg (not_not_intro hcode), Function.update_eq_self_iff.mpr hgid.symm]
        exact h
      · rw [if_pos hcode]
        exact h.drop (nameOf_eq_some.mpr ⟨hcode, g, hg, rfl⟩)

theorem indexed_removePlayer (h : Indexed m) (pid : UInt64) (order : List UInt32) :
    Indexed (removePlayer pid order m) := by
  unfold removePlayer
  split
  · exact h
  · have hloop : ∀ m₁, Indexed m₁ → Indexed (order.foldl (removePlayerAt pid) m₁) := by
      induction order with
      | nil => exact fun m₁ h₁ => h₁
      | cons gid order ih => exact fun m₁ h₁ => ih _ (indexed_removePlayerAt h₁ pid gid)
    exact hloop _ h

/-! ### Runs -/

theorem handle_makesCode {service : Service} {conn : Caller} {req : RMCMessage} {env : Env}
    (h : MakesCode service req) :
    handle o env service conn req m = some (privateRoomCreate req m) := by
  obtain ⟨rfl, hmethod | hmethod⟩ := h
  · simp only [handle, extensionHandler, hmethod]
    rfl
  · simp only [handle, extensionHandler, hmethod]
    rfl

theorem indexed_step (hreach : Reachable (step o) newMatchmaking m) (hkeep : ¬ Misnames o m e)
    (hm : Indexed m) (h : step o m e = some m') : Indexed m' := by
  by_cases hwrites : WritesIndex o e
  · cases hwrites with
    | @code service conn req env hmakes =>
      simp only [step] at h
      split at h
      · rw [handle_makesCode hmakes, Option.map_some, Option.some.injEq] at h
        subst h
        cases hg : m.gatherings.lookup (readGID req) with
        | none => exact absurd (.unknown hmakes hg) hkeep
        | some g =>
          refine indexed_makeCode hm hg ?_
          by_contra hcode
          exact hkeep (.makes hmakes hg hcode)
      · cases h
    | @part service conn req env p hpart =>
      simp only [step] at h
      split at h
      · rw [handle_updatesPart hpart, Option.some.injEq] at h
        subst h
        refine indexed_applySessionPart hm (fun g hg hw => ?_)
        by_contra hcode
        exact hkeep (.updates hpart hg hw hcode)
      · cases h
    | @disconnect pid order =>
      simp only [step] at h
      split at h
      · cases h
        exact indexed_removePlayer hm pid order
      · cases h
  · have hindex : m'.byCode = m.byCode := (step_described h).byCode.resolve_right hwrites
    unfold Indexed at hm ⊢
    rw [hindex, nameOf_step hreach hwrites hkeep h]
    exact hm

/-- **Room codes.**  In every state of every run in which no step misnames a gathering, what `resolveCode`
finds is live and carries the code, and the code of every live gathering resolves to this gathering. -/
theorem room_codes (o : Options) (es : List Event) (m : Store)
    (h : run (step o) newMatchmaking es = some m)
    (hkeep : Steps (step o) (fun m e => ¬ Misnames o m e) newMatchmaking es) :
    (∀ req, resolveCode req m =
        success req protocolMatchmakeExtension (StreamOut.u32 (resolve m (readCode req)))) ∧
      (∀ code, resolve m code ≠ 0 →
        ∃ g, m.gatherings.lookup (resolve m code) = some g ∧ g.code = code) ∧
      ∀ gid g, m.gatherings.lookup gid = some g → g.code ≠ [] → resolve m g.code = gid := by
  have hindexed : Reachable (step o) newMatchmaking m ∧ Indexed m := by
    refine run_invariant_of_steps (P := fun m => Reachable (step o) newMatchmaking m ∧ Indexed m)
      ?_ hkeep ⟨⟨[], rfl⟩, ?_⟩ h
    · intro m e m' hC hm hstep
      exact ⟨reachable_step hm.1 hstep, indexed_step hm.1 hC hm.2 hstep⟩
    · exact indexes_empty
  refine ⟨fun req => resolveCode_eq req m, fun code hne => ?_, fun gid g hg hcode => ?_⟩
  · cases hlookup : m.byCode.lookup code with
    | none =>
      rw [resolve, hlookup] at hne
      exact absurd rfl hne
    | some gid =>
      have hres : resolve m code = gid := by rw [resolve, hlookup]; rfl
      rw [hres]
      exact (nameOf_eq_some.mp ((hindexed.2 code gid).mp hlookup)).2
  · have hlookup := (hindexed.2 g.code gid).mpr (nameOf_eq_some.mpr ⟨hcode, g, hg, rfl⟩)
    rw [resolve, hlookup]
    rfl

/-- A request for a room code of `gid`. -/
def codeRequest (gid : UInt32) : RMCMessage :=
  newRMCRequest protocolMatchmakeExtension Method.customPrivateRoomCreate 1 (StreamOut.u32 gid)

/-- `pid` asks for a room code of `gid`. -/
def codeEvent (pid : UInt64) (gid : UInt32) (order : List UInt32) : Event :=
  .request .extension ⟨pid, 1⟩ (codeRequest gid) (quietEnv 0 order)

/-- `pid` unregisters `gid`. -/
def unregisterEvent (pid : UInt64) (gid : UInt32) (order : List UInt32) : Event :=
  .request .matchMaking ⟨pid, 1⟩
    (newRMCRequest protocolMatchMaking Method.unregisterGathering 1 (StreamOut.u32 gid)) (quietEnv 0 order)

/-- PID 7 opens a session and asks for a room code. -/
theorem room_codes_private : ∃ m g,
    run (step plainOptions) newMatchmaking [createEvent 7 2 0 [], codeEvent 7 1 [1]] = some m ∧
      m.gatherings.lookup 1 = some g ∧ g.code ≠ [] ∧ resolve m g.code = 1 := by
  have heval : ((run (step plainOptions) newMatchmaking [createEvent 7 2 0 [], codeEvent 7 1 [1]]).bind
      (fun m => (m.gatherings.lookup 1).map (fun g => decide (g.code = [])))) = some false := rfl
  obtain ⟨m, g, hm, hg, hcode⟩ := exists_live heval
  have hne : g.code ≠ [] := of_decide_eq_false hcode
  have hsteps : Steps (step plainOptions) (fun m e => ¬ Misnames plainOptions m e) newMatchmaking
      [createEvent 7 2 0 [], codeEvent 7 1 [1]] := by
    refine ⟨fun hmis => ?_, fun m₁ h₁ => ⟨fun hmis => ?_, fun _ _ => trivial⟩⟩
    · cases hmis with
      | unknown h _ => exact absurd h.2 (by decide)
      | makes h _ _ => exact absurd h.2 (by decide)
      | updates h _ _ _ => exact absurd h.method (by decide)
      | removes h _ _ => cases h
      | replaces _ hg _ => cases hg
    · have hstate : (m₁.gatherings.lookup 1).map (fun g => g.code) = some [] ∧ m₁.byCode = ∅ := by
        have hcreated : (step plainOptions newMatchmaking (createEvent 7 2 0 [])).map (fun m =>
            ((m.gatherings.lookup 1).map (fun g => g.code), m.byCode)) = some (some [], ∅) := rfl
        rw [h₁, Option.map_some, Option.some.injEq, Prod.mk.injEq] at hcreated
        exact hcreated
      have hgid : readGID (codeRequest 1) = 1 := rfl
      cases hmis with
      | unknown _ hnone =>
        rw [hgid] at hnone
        rw [hnone] at hstate
        cases hstate.1
      | makes _ hg hcode =>
        rw [hgid] at hg
        rw [hg, Option.map_some, Option.some.injEq] at hstate
        exact hcode (.inr ⟨hstate.1, by rw [hstate.2, Finmap.lookup_empty]⟩)
      | updates h _ _ _ => exact absurd h.method (by decide)
      | removes h _ _ => cases h
      | replaces h _ _ =>
        cases h with
        | create hmethod _ => exact absurd hmethod (by decide)
        | auto hmethod _ _ => exact absurd hmethod (by decide)
  exact ⟨m, g, hm, hg, hne, (room_codes plainOptions _ m hm hsteps).2.2 1 g hg hne⟩

/-- PID 7 opens a session and asks for a room code.  It unregisters the session, and the code still finds
it; or it asks for a second code, and the first one still finds the session. -/
theorem room_code_stale : ∃ code m₁ m₂ g₂,
    run (step plainOptions) newMatchmaking
        [createEvent 7 2 0 [], codeEvent 7 1 [1], unregisterEvent 7 1 [1]] = some m₁ ∧
      resolve m₁ code = 1 ∧ m₁.gatherings.lookup 1 = none ∧
    run (step plainOptions) newMatchmaking
        [createEvent 7 2 0 [], codeEvent 7 1 [1], codeEvent 7 1 [1]] = some m₂ ∧
      resolve m₂ code = 1 ∧ m₂.gatherings.lookup 1 = some g₂ ∧ g₂.code ≠ code := by
  have hgone : ((run (step plainOptions) newMatchmaking
      [createEvent 7 2 0 [], codeEvent 7 1 [1], unregisterEvent 7 1 [1]]).map (fun m =>
        (resolve m (nextCode newMatchmaking 1), m.gatherings.lookup 1))) = some (1, none) := rfl
  have hsecond : ((run (step plainOptions) newMatchmaking
      [createEvent 7 2 0 [], codeEvent 7 1 [1], codeEvent 7 1 [1]]).bind (fun m =>
        (m.gatherings.lookup 1).map (fun g => (resolve m (nextCode newMatchmaking 1),
          decide (g.code = nextCode newMatchmaking 1))))) = some (1, false) := by decide +kernel
  obtain ⟨m₁, hm₁, heq₁⟩ := Option.map_eq_some_iff.mp hgone
  obtain ⟨m₂, g₂, hm₂, hg₂, heq₂⟩ := exists_live hsecond
  simp only [Prod.mk.injEq, decide_eq_false_iff_not] at heq₁ heq₂
  exact ⟨nextCode newMatchmaking 1, m₁, m₂, g₂, hm₁, heq₁.1, heq₁.2, hm₂, heq₂.1, hg₂, heq₂.2⟩

end NextendoMatchmaking.Matchmaking
