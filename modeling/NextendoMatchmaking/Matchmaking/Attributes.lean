import NextendoMatchmaking.Matchmaking.Handlers
import NextendoMatchmaking.Wire.RoundTrip

/-!
# Writing one attribute

`modifyCurrentGameAttribute` appends zeros until the attributes reach the index of the request, and then
writes the new value.  The loop compares the length as a number of 32 bits.  No such number is greater than
the greatest index, so for this index the loop never ends, with the lock of the store held.  For every other
index it ends, and what it leaves is what a write into a long enough list leaves, as long as the length of the
old list is a number of 32 bits or its low bits are past the index (`attribute_update_iff`).
-/

namespace NextendoMatchmaking.Matchmaking

open NextendoMatchmaking.Parsing

/-! ### The loop -/

/-- The loop for the greatest index has no end. -/
theorem padAttribs_never (fuel : ℕ) (attribs : List UInt32) : padAttribs 0xFFFFFFFF fuel attribs = none := by
  induction fuel generalizing attribs with
  | zero => rfl
  | succ fuel ih =>
    have hle : UInt32.ofNat attribs.length ≤ 0xFFFFFFFF := by
      rw [UInt32.le_iff_toNat_le]
      exact Nat.le_of_lt_succ (UInt32.ofNat attribs.length).toNat_lt
    rw [padAttribs, if_pos hle, ih]

theorem succ_toNat_lt {index : UInt32} (h : index ≠ 0xFFFFFFFF) : index.toNat + 1 < 2 ^ 32 := by
  have hne : index.toNat ≠ 4294967295 := fun heq => h (UInt32.toNat_inj.mp heq)
  have hlt := index.toNat_lt
  omega

/-- The loop for any other index, with `k` zeros to append. -/
theorem padAttribs_some {index : UInt32} (hindex : index.toNat + 1 < 2 ^ 32) (k : ℕ) :
    ∀ (fuel : ℕ) (attribs : List UInt32), k = index.toNat + 1 - attribs.length % 2 ^ 32 → k < fuel →
      padAttribs index fuel attribs = some (attribs ++ List.replicate k 0) := by
  induction k with
  | zero =>
    intro fuel attribs hk hfuel
    obtain ⟨fuel, rfl⟩ : ∃ n, fuel = n + 1 := ⟨fuel - 1, by omega⟩
    have hpast : ¬ UInt32.ofNat attribs.length ≤ index := by
      rw [UInt32.le_iff_toNat_le, UInt32.toNat_ofNat']
      omega
    rw [padAttribs, if_neg hpast, List.replicate_zero, List.append_nil]
  | succ k ih =>
    intro fuel attribs hk hfuel
    obtain ⟨fuel, rfl⟩ : ∃ n, fuel = n + 1 := ⟨fuel - 1, by omega⟩
    have hbefore : UInt32.ofNat attribs.length ≤ index := by
      rw [UInt32.le_iff_toNat_le, UInt32.toNat_ofNat']
      omega
    have hlength : (attribs ++ [0]).length = attribs.length + 1 := List.length_append
    rw [padAttribs, if_pos hbefore, ih fuel (attribs ++ [0]) (by omega) (by omega), List.append_assoc]
    rfl

/-! ### The write -/

/-- `new` is `old` with `v` at `i`, filled with zeros as far as needed. -/
structure WrittenAt (old : List UInt32) (i : ℕ) (v : UInt32) (new : List UInt32) : Prop where
  length : new.length = max old.length (i + 1)
  written : new[i]? = some v
  kept : ∀ j < old.length, j ≠ i → new[j]? = old[j]?
  zero : ∀ j < new.length, old.length ≤ j → j ≠ i → new[j]? = some 0

theorem writtenAt_padded {old : List UInt32} {i k : ℕ} (v : UInt32)
    (hlength : old.length + k = max old.length (i + 1)) :
    WrittenAt old i v ((old ++ List.replicate k 0).set i v) := by
  have hpadded : (old ++ List.replicate k (0 : UInt32)).length = max old.length (i + 1) := by
    rw [List.length_append, List.length_replicate, hlength]
  refine ⟨by rw [List.length_set, hpadded], List.getElem?_set_self (by omega), ?_, ?_⟩
  · intro j hj hne
    rw [List.getElem?_set_ne (Ne.symm hne), List.getElem?_append_left hj]
  · intro j hj hpast hne
    rw [List.length_set, hpadded] at hj
    rw [List.getElem?_set_ne (Ne.symm hne), List.getElem?_append_right hpast,
      List.getElem?_replicate_of_lt (by omega)]

variable {conn : Caller} {req : RMCMessage} {m : Store} {g : GatheringEntry} {gid index value : UInt32}
  {rest : Bytes}

/-- The handler on a request of the owner. -/
theorem modifyCurrentGameAttribute_owner
    (hbody : req.body = StreamOut.u32 gid ++ (StreamOut.u32 index ++ StreamOut.u32 value) ++ rest)
    (hg : m.gatherings.lookup gid = some g) (howner : g.participants.head? = some conn.pid) :
    modifyCurrentGameAttribute conn req m =
      (padAttribs index (2 ^ 32) g.session.attribs).map (fun attribs =>
        (m.put gid { g with session := { g.session with attribs := attribs.set index.toNat value } },
          success req protocolMatchmakeExtension [])) := by
  have hread : StreamIn.run (do
      let gid ← StreamIn.u32
      let attribIndex ← StreamIn.u32
      let newValue ← StreamIn.u32
      return (gid, attribIndex, newValue)) req.body = ((gid, index, value), false) := by
    have hparse : Reads (do
        let gid ← StreamIn.u32
        let attribIndex ← StreamIn.u32
        let newValue ← StreamIn.u32
        return (gid, attribIndex, newValue)) (StreamOut.u32 gid ++ (StreamOut.u32 index ++ StreamOut.u32 value))
        (gid, index, value) :=
      (reads_u32 gid).bind ((reads_u32 index).bind (reads_u32 value).last)
    rw [hbody, StreamIn.run, hparse rest]
    rfl
  unfold modifyCurrentGameAttribute
  rw [hread]
  dsimp only
  rw [hg]
  dsimp only
  rw [if_pos howner]
  cases padAttribs index (2 ^ 32) g.session.attribs <;> rfl

/-- **The attribute update.**  A request of the owner is answered and writes just the attribute that it names,
unless it names the greatest index, or the old list is so long that its length, cut to 32 bits, hides the
index. -/
theorem attribute_update_iff
    (hbody : req.body = StreamOut.u32 gid ++ (StreamOut.u32 index ++ StreamOut.u32 value) ++ rest)
    (hg : m.gatherings.lookup gid = some g) (howner : g.participants.head? = some conn.pid) :
    (∃ attribs reply, modifyCurrentGameAttribute conn req m =
          some (m.put gid { g with session := { g.session with attribs } }, reply) ∧
        WrittenAt g.session.attribs index.toNat value attribs) ↔
      index ≠ 0xFFFFFFFF ∧
        (index.toNat < g.session.attribs.length → index.toNat < g.session.attribs.length % 2 ^ 32) := by
  rw [modifyCurrentGameAttribute_owner hbody hg howner]
  constructor
  · intro hex
    obtain ⟨attribs, reply, hsome, hwritten⟩ := hex
    have hindex : index ≠ 0xFFFFFFFF := by
      rintro rfl
      rw [padAttribs_never] at hsome
      cases hsome
    refine ⟨hindex, fun hlt => ?_⟩
    have hbound := succ_toNat_lt hindex
    rw [padAttribs_some hbound _ _ _ rfl (by omega)] at hsome
    -- a gathering that was written twice under one id
    have hsame := congrArg (fun r => r.map (fun p => p.1.gatherings.lookup gid)) hsome
    simp only [Option.map_some, Store.put, Finmap.lookup_insert, Option.some.injEq, GatheringEntry.mk.injEq,
      MatchmakeSession.mk.injEq, true_and, and_true] at hsame
    have hlength := hwritten.length
    rw [← hsame, List.length_set, List.length_append, List.length_replicate] at hlength
    omega
  · intro hcond
    obtain ⟨hindex, hlong⟩ := hcond
    have hbound := succ_toNat_lt hindex
    rw [padAttribs_some hbound _ _ _ rfl (by omega)]
    refine ⟨_, _, rfl, writtenAt_padded value ?_⟩
    -- without padding the list is longer than the index, and otherwise its length has 32 bits
    by_cases hlt : index.toNat < g.session.attribs.length
    · have hpast := hlong hlt
      omega
    · have hmod : g.session.attribs.length % 2 ^ 32 = g.session.attribs.length := Nat.mod_eq_of_lt (by omega)
      omega

/-- A gathering of its owner alone, with three attributes. -/
def attributeGathering : GatheringEntry where
  session := {
    id := 1, ownerPID := 7, hostPID := 7, minParticipants := 2, maxParticipants := 12, participationPolicy := 0
    policyArgument := 0, flags := 0, state := 0, description := [], gameMode := 3, attribs := [1, 2, 3]
    openParticipation := true, matchmakeSystem := 0, applicationData := [], numParticipants := 1
    progressScore := 0, sessionKey := [], option := 0, param := ∅, startedTime := 0, userPassword := []
    referGID := 0, userPasswordEnabled := false, systemPasswordEnabled := false, codeword := [] }
  participants := [7]
  hostConnID := 1
  code := []
  reservations := ∅

/-- The request to write 9 at `index` in the gathering 1. -/
def attributeRequest (index : UInt32) : RMCMessage :=
  newRMCRequest protocolMatchmakeExtension Method.modifyCurrentGameAttribute 5
    (StreamOut.u32 1 ++ (StreamOut.u32 index ++ StreamOut.u32 9) ++ [])

/-- A write behind the end of the list. -/
theorem attribute_update_behind :
    ∃ attribs reply,
      modifyCurrentGameAttribute ⟨7, 1⟩ (attributeRequest 4) (newMatchmaking.put 1 attributeGathering) =
        some ((newMatchmaking.put 1 attributeGathering).put 1 { attributeGathering with
          session := { attributeGathering.session with attribs } }, reply) ∧
      WrittenAt [1, 2, 3] 4 9 attribs := by
  have hbody : (attributeRequest 4).body = StreamOut.u32 1 ++ (StreamOut.u32 4 ++ StreamOut.u32 9) ++ [] := rfl
  exact (attribute_update_iff hbody (Finmap.lookup_insert _) rfl).mpr ⟨by decide, by decide⟩

/-- The owner names the greatest index: the loop never ends and there is no answer. -/
theorem greatest_index_hangs :
    modifyCurrentGameAttribute ⟨7, 1⟩ (attributeRequest 0xFFFFFFFF) (newMatchmaking.put 1 attributeGathering) =
        none ∧
      ∀ fuel, padAttribs 0xFFFFFFFF fuel attributeGathering.session.attribs = none := by
  refine ⟨?_, fun fuel => padAttribs_never fuel _⟩
  rw [modifyCurrentGameAttribute_owner (g := attributeGathering) rfl (Finmap.lookup_insert _) rfl,
    padAttribs_never]
  rfl

end NextendoMatchmaking.Matchmaking
