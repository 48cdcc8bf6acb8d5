import NextendoMatchmaking.Wire.Decoding

/-!
# When the decoder gives back what was written

The encoder writes every length as a number of 16 or 32 bits and does not ask whether it fits.  Where it does
not, the decoder reads something else, or it fails: for each kind of value that carries a length there is a
condition that says exactly when it comes back.
-/

namespace NextendoMatchmaking

open NextendoMatchmaking.Parsing

variable {s : Settings}
variable {α : Type} {body : Bytes} {load : Reader α}

/-! ### Strings and lists -/

/-- `P` decides whether the decoder gives back what was written. -/
abbrev EchoesRead {α : Type} (f : Reader α) (bytes : Bytes) (a : α) (P : Prop) : Prop :=
  Echoes newStreamIn Failed f bytes a P

/-- A string of 65535 bytes is written with the length 0, and read as the empty string. -/
theorem string_wrapped {str : Bytes} (h : str.length = 65535) (suffix : Bytes) :
    (StreamIn.string (newStreamIn (StreamOut.string str ++ suffix))).1 = [] := by
  have hzero : UInt16.ofNat (str ++ [0]).length = 0 := by
    rw [List.length_append, h]
    rfl
  unfold StreamOut.string
  dsimp only
  rw [hzero, List.append_assoc, StreamIn.string, bind_apply, reads_u16]
  rfl

theorem echoes_string (str : Bytes) :
    EchoesRead StreamIn.string (StreamOut.string str) str (StringFits str) where
  reads := reads_string
  misses hnot := by
    intro suffix
    refine .inr fun heq => ?_
    -- what is read has at most 65535 bytes, and a string of just that length is read as the empty one
    have hle := length_string_le (newStreamIn (StreamOut.string str ++ suffix))
    rw [heq] at hle
    have hlength : str.length = 65535 := by
      unfold StringFits at hnot
      omega
    rw [string_wrapped hlength] at heq
    rw [← heq] at hlength
    cases hlength

theorem echoes_u8s (l : List UInt8) :
    EchoesRead (StreamIn.list StreamIn.u8) (StreamOut.list StreamOut.u8 l) l (l.length < 2 ^ 32) where
  reads hlen := reads_list hlen (fun x _ => reads_u8 x) (fun _ _ => Nat.le_refl 1)
  misses hnot := by
    intro suffix
    refine .inr fun heq => hnot ?_
    have hlt := length_list_lt StreamIn.u8 (newStreamIn (StreamOut.list StreamOut.u8 l ++ suffix))
    rw [heq] at hlt
    exact hlt

/-! ### Levels -/

/-- What a level is read from: as much of the body as the length on the wire says. -/
theorem level_eq (hs : s.structHeader = true) (load : Reader α) (body suffix : Bytes) :
    readLevel s load (newStreamIn (writeLevel s body ++ suffix)) =
      ((load (newStreamIn (body.take (UInt32.ofNat body.length).toNat))).1,
        (newStreamIn (body.drop (UInt32.ofNat body.length).toNat ++ suffix)).after
          (load (newStreamIn (body.take (UInt32.ofNat body.length).toNat))).2) := by
  have hle : (UInt32.ofNat body.length).toNat ≤ body.length := by
    rw [UInt32.toNat_ofNat']
    exact Nat.mod_le _ _
  have hlength : (body.take (UInt32.ofNat body.length).toNat).length = (UInt32.ofNat body.length).toNat := by
    rw [List.length_take]
    omega
  have hread := reads_read (body.take (UInt32.ofNat body.length).toNat)
    (body.drop (UInt32.ofNat body.length).toNat ++ suffix)
  rw [hlength, ← List.append_assoc, List.take_append_drop] at hread
  unfold readLevel writeLevel StreamOut.buffer
  rw [if_pos hs, if_pos hs, bind_apply, List.append_assoc, reads_u8, StreamIn.substream, bind_apply,
    StreamIn.buffer, bind_apply, List.append_assoc, reads_u32, bind_apply, hread]
  rfl

/-- A level comes back when its body does and the length of the body fits. -/
theorem echoes_level {a : α} {P : Prop} (hs : s.structHeader = true) (hload : SettlesRead load)
    (h : EchoesRead load body a P) :
    EchoesRead (readLevel s load) (writeLevel s body) a (P ∧ BufferFits body) where
  reads hP := reads_level hP.2 (h.reads hP.1)
  misses hnot := by
    intro suffix
    rw [level_eq hs]
    -- the cut is the part of the body that the length on the wire leaves out
    have hbody := List.take_append_drop (UInt32.ofNat body.length).toNat body
    by_cases hP : P
    · have hcut : body.drop (UInt32.ofNat body.length).toNat ≠ [] := by
        rw [Ne, List.drop_eq_nil_iff, UInt32.toNat_ofNat']
        have hlong : ¬ body.length < 2 ^ 32 := fun hfits => hnot ⟨hP, hfits⟩
        omega
      have hreads := h.reads hP
      rw [← hbody] at hreads
      exact .inl (lost_of_cut newStreamIn_injective hload hreads hcut)
    · have hmisses := h.misses hP
      rw [← hbody] at hmisses
      exact hmisses.of_cut not_failed_newStreamIn hload

/-- The version of a level makes no difference to the decoder. -/
theorem echoes_version {a : α} {P : Prop} (version : UInt8)
    (h : EchoesRead (readLevel s load) (writeLevel s body) a P) :
    EchoesRead (readLevel s load) (writeLevelOf s version body) a P := by
  refine .of_same (fun suffix => ?_) h
  unfold readLevel writeLevel writeLevelOf
  split
  · rw [bind_apply, bind_apply, List.append_assoc, List.append_assoc, reads_u8, reads_u8]
  · rfl

/-- A level with a header or without one. -/
theorem echoes_levelOf {a : α} {P : Prop} (version : UInt8) (hload : SettlesRead load) (h : EchoesRead load body a P) :
    EchoesRead (readLevel s load) (writeLevelOf s version body) a
      (P ∧ (s.structHeader = true → BufferFits body)) := by
  by_cases hs : s.structHeader = true
  · exact .of_iff (and_congr_right fun _ => imp_iff_right hs) (echoes_version version (echoes_level hs hload h))
  · refine .of_iff (and_iff_left fun hs' => absurd hs' hs) ?_
    unfold readLevel writeLevelOf
    rw [if_neg hs, if_neg hs]
    exact h

end NextendoMatchmaking
