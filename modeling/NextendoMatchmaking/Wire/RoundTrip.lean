import NextendoMatchmaking.Library.Parsing
import NextendoMatchmaking.Wire.Structures

/-!
# What is written is read back

Every `StreamOut` method is undone by the `StreamIn` method of the same name, for the values whose lengths
the wire format can carry.  Lists and maps also have to pass the count check of `ReadList` and `ReadMap`,
which they do because every element takes at least one byte.  Maps come back whatever order `WriteMap`
visited them in, and a level comes back with its header or without.
-/

namespace NextendoMatchmaking

open NextendoMatchmaking.Parsing

/-- `f` reads `bytes` back as `a`, without an error, and leaves what follows. -/
abbrev Reads {α : Type} (f : Reader α) (bytes : Bytes) (a : α) : Prop := Parses newStreamIn f bytes a

/-! ### Fixed-width integers -/

theorem length_leBytes (w n : ℕ) : (leBytes w n).length = w := by
  induction w generalizing n with
  | zero => rfl
  | succ w ih =>
    show (leBytes w (n / 256)).length + 1 = w + 1
    rw [ih]

theorem leNat_leBytes (w n : ℕ) (h : n < 256 ^ w) : leNat (leBytes w n) = n := by
  induction w generalizing n with
  | zero =>
    have hzero : n = 0 := by simpa using h
    rw [hzero]
    rfl
  | succ w ih =>
    have hdiv : n / 256 < 256 ^ w := by
      rw [pow_succ] at h
      omega
    show (UInt8.ofNat n).toNat + 256 * leNat (leBytes w (n / 256)) = n
    rw [ih _ hdiv, UInt8.toNat_ofNat']
    omega

theorem leNat_lt (bs : Bytes) : leNat bs < 256 ^ bs.length := by
  induction bs with
  | nil => exact Nat.one_pos
  | cons x bs ih =>
    show x.toNat + 256 * leNat bs < 256 ^ (bs.length + 1)
    have hx := x.toNat_lt
    rw [pow_succ]
    omega

theorem leBytes_leNat (bs : Bytes) : leBytes bs.length (leNat bs) = bs := by
  induction bs with
  | nil => rfl
  | cons x bs ih =>
    have hx := x.toNat_lt
    show UInt8.ofNat (x.toNat + 256 * leNat bs) :: leBytes bs.length ((x.toNat + 256 * leNat bs) / 256) = _
    rw [show (x.toNat + 256 * leNat bs) / 256 = leNat bs by omega, ih]
    congr 1
    rw [← UInt8.toNat_inj, UInt8.toNat_ofNat']
    omega

theorem reads_read (bytes : Bytes) : Reads (StreamIn.read bytes.length) bytes (some bytes) := by
  intro suffix
  have henough : ¬ ((newStreamIn (bytes ++ suffix)).err = true ∨
      (newStreamIn (bytes ++ suffix)).rest.length < bytes.length) := by
    simp [newStreamIn]
  unfold StreamIn.read
  rw [if_neg henough]
  simp [newStreamIn]

theorem reads_uint {w n : ℕ} (h : n < 256 ^ w) : Reads (StreamIn.uint w) (leBytes w n) n := by
  have hread := reads_read (leBytes w n)
  rw [length_leBytes] at hread
  refine hread.bind_nil ?_
  show Reads (pure (leNat (leBytes w n))) [] n
  rw [leNat_leBytes w n h]
  exact parses_pure n

theorem reads_u8 (v : UInt8) : Reads StreamIn.u8 (StreamOut.u8 v) v := by
  have h := (reads_uint (w := 1) (n := v.toNat) v.toNat_lt).map (k := UInt8.ofNat)
  have hbytes : leBytes 1 v.toNat = StreamOut.u8 v := by simp [leBytes, StreamOut.u8]
  rw [UInt8.ofNat_toNat, hbytes] at h
  exact h

theorem reads_u16 (v : UInt16) : Reads StreamIn.u16 (StreamOut.u16 v) v := by
  have h := (reads_uint (w := 2) (n := v.toNat) v.toNat_lt).map (k := UInt16.ofNat)
  rw [UInt16.ofNat_toNat] at h
  exact h

theorem reads_u32 (v : UInt32) : Reads StreamIn.u32 (StreamOut.u32 v) v := by
  have h := (reads_uint (w := 4) (n := v.toNat) v.toNat_lt).map (k := UInt32.ofNat)
  rw [UInt32.ofNat_toNat] at h
  exact h

theorem reads_u64 (v : UInt64) : Reads StreamIn.u64 (StreamOut.u64 v) v := by
  have h := (reads_uint (w := 8) (n := v.toNat) v.toNat_lt).map (k := UInt64.ofNat)
  rw [UInt64.ofNat_toNat] at h
  exact h

theorem reads_bool (v : Bool) : Reads StreamIn.bool (StreamOut.bool v) v := by
  cases v with
  | false => exact (reads_u8 0).map (k := (· != 0))
  | true => exact (reads_u8 1).map (k := (· != 0))

/-- A PID fits the size that the settings give it. -/
def PIDFits (s : Settings) (v : UInt64) : Prop := s.pidSize = 8 ∨ v.toNat < 2 ^ 32

theorem reads_pid {s : Settings} {v : UInt64} (h : PIDFits s v) :
    Reads (StreamIn.pid s) (StreamOut.pid s v) v := by
  unfold StreamIn.pid StreamOut.pid
  by_cases hsize : s.pidSize = 8
  · rw [if_pos hsize, if_pos hsize]
    exact reads_u64 v
  · rw [if_neg hsize, if_neg hsize]
    have hsmall := h.resolve_left hsize
    have hback : v.toUInt32.toUInt64 = v := by
      apply UInt64.toNat_inj.mp
      rw [UInt32.toNat_toUInt64, UInt64.toNat_toUInt32]
      exact Nat.mod_eq_of_lt hsmall
    have hread := (reads_u32 v.toUInt32).map (k := UInt32.toUInt64)
    rw [hback] at hread
    exact hread

/-! ### Strings and buffers -/

/-- The length of a string with its terminator fits 16 bits. -/
def StringFits (str : Bytes) : Prop := str.length ≤ 65534

/-- A length that fits 32 bits. -/
def BufferFits (b : Bytes) : Prop := b.length < 2 ^ 32

theorem reads_string {str : Bytes} (h : StringFits str) : Reads StreamIn.string (StreamOut.string str) str := by
  have hlen : (UInt16.ofNat (str ++ [0]).length).toNat = (str ++ [0]).length := by
    apply UInt16.toNat_ofNat_of_lt'
    rw [List.length_append, List.length_singleton]
    have hle : str.length ≤ 65534 := h
    show str.length + 1 < 65536
    omega
  have hne : UInt16.ofNat (str ++ [0]).length ≠ 0 := by
    intro hzero
    rw [hzero, List.length_append, List.length_singleton] at hlen
    simp at hlen
  refine (reads_u16 _).bind ?_
  show Reads (if UInt16.ofNat (str ++ [0]).length = 0 then _ else _) _ _
  rw [if_neg hne]
  have hread := reads_read (str ++ [0])
  rw [← hlen] at hread
  refine hread.bind_nil ?_
  show Reads (pure (if (str ++ [0]).getLast? = some 0 then (str ++ [0]).dropLast else str ++ [0])) [] str
  rw [List.getLast?_concat, if_pos rfl, List.dropLast_concat]
  exact parses_pure str

theorem reads_buffer {b : Bytes} (h : BufferFits b) : Reads StreamIn.buffer (StreamOut.buffer b) b := by
  have hlen : (UInt32.ofNat b.length).toNat = b.length := UInt32.toNat_ofNat_of_lt' h
  have hread := reads_read b
  rw [← hlen] at hread
  exact (reads_u32 _).bind (hread.last (k := fun r : Option Bytes => r.getD []))

theorem reads_qBuffer {b : Bytes} (h : b.length < 2 ^ 16) : Reads StreamIn.qBuffer (StreamOut.qBuffer b) b := by
  have hlen : (UInt16.ofNat b.length).toNat = b.length := UInt16.toNat_ofNat_of_lt' h
  have hread := reads_read b
  rw [← hlen] at hread
  exact (reads_u16 _).bind (hread.last (k := fun r : Option Bytes => r.getD []))

/-! ### Lists and maps -/

section Sequences

variable {ι α : Type} {f : Reader α} {w : ι → Bytes} {k : ι → α} {l : List ι}

theorem reads_times (h : ∀ x ∈ l, Reads f (w x) (k x)) :
    Reads (StreamIn.times f l.length) (l.flatMap w) (l.map k) := by
  induction l with
  | nil => exact parses_pure []
  | cons x l ih =>
    have htail := ih (fun y hy => h y (List.mem_cons_of_mem _ hy))
    exact (h x List.mem_cons_self).bind (htail.last (k := fun as => k x :: as))

/-- Elements that are not empty take as many bytes as there are elements, at least. -/
theorem length_le_flatMap (h : ∀ x ∈ l, 1 ≤ (w x).length) : l.length ≤ (l.flatMap w).length := by
  induction l with
  | nil => exact Nat.le_refl 0
  | cons x l ih =>
    have hx := h x List.mem_cons_self
    have hl := ih (fun y hy => h y (List.mem_cons_of_mem _ hy))
    rw [List.flatMap_cons, List.length_append, List.length_cons]
    omega

/-- The count check passes when there is a byte for each element. -/
theorem count_eq {n : ℕ} {rest : Bytes} (hn : n < 2 ^ 32) (hrest : n ≤ rest.length) :
    StreamIn.count (newStreamIn (StreamOut.u32 (UInt32.ofNat n) ++ rest)) =
      (some n, newStreamIn rest) := by
  have hnat : (UInt32.ofNat n).toNat = n := UInt32.toNat_ofNat_of_lt' hn
  have hcheck : ¬ (newStreamIn rest).rest.length < (UInt32.ofNat n).toNat := by
    rw [hnat]
    exact Nat.not_lt.mpr hrest
  have hread := reads_u32 (UInt32.ofNat n) rest
  unfold StreamIn.count
  simp only [bind, StateT.bind, get, getThe, MonadStateOf.get, StateT.get, hread, pure]
  rw [if_neg hcheck]
  show (some (UInt32.ofNat n).toNat, newStreamIn rest) = (some n, newStreamIn rest)
  rw [hnat]

theorem reads_elements (hlen : l.length < 2 ^ 32) (h : ∀ x ∈ l, Reads f (w x) (k x))
    (hpos : ∀ x ∈ l, 1 ≤ (w x).length) :
    Reads (StreamIn.list f) (StreamOut.u32 (UInt32.ofNat l.length) ++ l.flatMap w) (l.map k) := by
  intro suffix
  have hbytes : l.length ≤ (l.flatMap w ++ suffix).length := by
    have hle := length_le_flatMap hpos
    rw [List.length_append]
    omega
  have hcount := count_eq hlen hbytes
  rw [List.append_assoc]
  simp only [StreamIn.list, bind, StateT.bind, hcount]
  exact reads_times h suffix

theorem reads_list {w : α → Bytes} {l : List α} (hlen : l.length < 2 ^ 32)
    (h : ∀ x ∈ l, Reads f (w x) x) (hpos : ∀ x ∈ l, 1 ≤ (w x).length) :
    Reads (StreamIn.list f) (StreamOut.list w l) l := by
  have hread := reads_elements (k := id) hlen h hpos
  rw [List.map_id] at hread
  exact hread

end Sequences

section Maps

variable {κ ν ν' : Type} [DecidableEq κ] {kf : Reader κ} {vf : Reader ν'} {kw : κ → Bytes} {vw : ν → Bytes}
  {c : ν → ν'} {order : List κ} {m : GoMap κ ν}

/-- What `WriteMap` writes, entry by entry. -/
theorem map_eq_entries (order : List κ) (m : GoMap κ ν) :
    StreamOut.map kw vw order m = StreamOut.u32 (UInt32.ofNat (GoMap.len m)) ++
      (GoMap.entriesIn order m).flatMap (fun e => kw e.1 ++ vw e.2) := by
  unfold StreamOut.map
  congr 1
  induction order with
  | nil => rfl
  | cons k order ih =>
    rw [List.flatMap_cons, ih]
    cases hv : m.lookup k with
    | none =>
      have hskip : GoMap.entriesIn (k :: order) m = GoMap.entriesIn order m :=
        List.filterMap_cons_none (by rw [hv]; rfl)
      rw [hskip]
      rfl
    | some v =>
      have hcons : GoMap.entriesIn (k :: order) m = (k, v) :: GoMap.entriesIn order m :=
        List.filterMap_cons_some (by rw [hv]; rfl)
      rw [hcons]
      rfl

/-- `ReadMap` reads a list of pairs and inserts them. -/
theorem map_eq_list : StreamIn.map kf vf =
    (fun pairs => pairs.foldl (fun m p => m.insert p.1 p.2) ∅) <$>
      StreamIn.list (do let k ← kf; let v ← vf; return (k, v)) := by
  funext s
  simp only [StreamIn.map, StreamIn.list, bind, StateT.bind, Functor.map, StateT.map]
  obtain ⟨n, s'⟩ := StreamIn.count s
  cases n with
  | none => rfl
  | some n => rfl

/-- **Maps come back in whatever order they were written**, with `c` of their values when that is what the
values are read as. -/
theorem reads_map (horder : GoMap.Enumerates order m) (hlen : GoMap.len m < 2 ^ 32)
    (hk : ∀ k v, m.lookup k = some v → Reads kf (kw k) k ∧ 1 ≤ (kw k).length)
    (hv : ∀ k v, m.lookup k = some v → Reads vf (vw v) (c v)) :
    Reads (StreamIn.map kf vf) (StreamOut.map kw vw order m) (GoMap.mapValues c m) := by
  have hentry : ∀ e ∈ GoMap.entriesIn order m, m.lookup e.1 = some e.2 :=
    fun e he => (GoMap.mem_entriesIn.mp he).2
  have hlength : (GoMap.entriesIn order m).length = GoMap.len m := GoMap.length_entriesIn horder
  have hpairs : ∀ e ∈ GoMap.entriesIn order m,
      Reads (do let k ← kf; let v ← vf; return (k, v)) (kw e.1 ++ vw e.2) (e.1, c e.2) := fun e he =>
    (hk _ _ (hentry e he)).1.bind ((hv _ _ (hentry e he)).last (k := fun v => (e.1, v)))
  have hpos : ∀ e ∈ GoMap.entriesIn order m, 1 ≤ (kw e.1 ++ vw e.2).length := by
    intro e he
    have hkey := (hk _ _ (hentry e he)).2
    rw [List.length_append]
    omega
  have hrebuilt : ((GoMap.entriesIn order m).map (fun e => (e.1, c e.2))).foldl
      (fun m p => m.insert p.1 p.2) ∅ = GoMap.mapValues c m := by
    apply GoMap.foldl_insert_entries
    intro k v
    rw [GoMap.lookup_mapValues, List.mem_map, Option.map_eq_some_iff]
    constructor
    · intro hex
      obtain ⟨e, he, heq⟩ := hex
      cases heq
      exact ⟨e.2, hentry e he, rfl⟩
    · intro hex
      obtain ⟨v', hv', rfl⟩ := hex
      have hmem : k ∈ order := (horder.2 k).mpr (Finmap.mem_of_lookup_eq_some hv')
      exact ⟨(k, v'), GoMap.mem_entriesIn.mpr ⟨hmem, hv'⟩, rfl⟩
  rw [map_eq_entries, map_eq_list, ← hlength, ← hrebuilt]
  exact (reads_elements (by omega) hpairs hpos).map

end Maps

/-! ### Levels -/

/-- A level comes back, in its frame or without one. -/
theorem reads_level {α : Type} {s : Settings} {load : Reader α} {body : Bytes} {a : α}
    (hfits : BufferFits body) (h : Reads load body a) :
    Reads (readLevel s load) (writeLevel s body) a := by
  unfold readLevel writeLevel
  split
  · refine (reads_u8 0).bind ((reads_buffer hfits).bind_nil ?_)
    intro suffix
    have hinner := h []
    rw [List.append_nil] at hinner
    simp only [hinner]
    rfl
  · exact h

end NextendoMatchmaking
