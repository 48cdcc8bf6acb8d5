import Mathlib.Data.List.Basic

/-!
# Framers over a stream that arrives in pieces

A framer looks at the front of a buffer: there is a whole frame, there is not yet one, or the buffer cannot
begin a frame.  A receiver keeps what is left of its buffer, appends what arrives, and takes every frame
that is complete.

* `Incremental` — what the framer has decided does not change when more arrives;
* `decode_append` — the frames of a longer buffer are those of the shorter one, and then those of what was
  left of it together with the rest;
* `receiveAll_eq` — so a receiver gets the frames of the whole stream however the stream was cut;
* `Corrupt` — the buffers in which the framer meets an error, after some frames or at once.
-/

namespace NextendoMatchmaking.Framing

variable {τ ε α : Type}

/-! ### Framers -/

/-- What a framer finds at the front of its buffer. -/
inductive Front (ε α : Type)
  /-- Not a whole frame yet. -/
  | wait
  | error (e : ε)
  /-- A frame, and how many tokens it takes. -/
  | frame (a : α) (size : Nat)

/-- What a framer makes of a buffer: the frames, what is left, and the error that stopped it. -/
structure Decoded (τ ε α : Type) where
  frames : List α
  rest : List τ
  error : Option ε
  deriving DecidableEq

/-- The frames `as`, and then what `d` holds. -/
def Decoded.after (as : List α) (d : Decoded τ ε α) : Decoded τ ε α := { d with frames := as ++ d.frames }

/-- Take frames until none is left, at most `fuel` times. -/
def decodeLoop (next : List τ → Front ε α) : Nat → List τ → Decoded τ ε α
  | 0, buf => ⟨[], buf, none⟩
  | fuel + 1, buf =>
    match next buf with
    | .wait => ⟨[], buf, none⟩
    | .error e => ⟨[], buf, some e⟩
    | .frame a size => (decodeLoop next fuel (buf.drop size)).after [a]

/-- Take frames until none is left: every frame takes a token, so the length of the buffer is fuel enough. -/
def decode (next : List τ → Front ε α) (buf : List τ) : Decoded τ ε α := decodeLoop next (buf.length + 1) buf

/-- What the framer has decided does not change when more arrives, and a frame takes part of the buffer. -/
structure Incremental (next : List τ → Front ε α) : Prop where
  frame : ∀ {buf a size}, next buf = .frame a size →
    0 < size ∧ size ≤ buf.length ∧ ∀ more, next (buf ++ more) = .frame a size
  error : ∀ {buf e}, next buf = .error e → ∀ more, next (buf ++ more) = .error e

variable {next : List τ → Front ε α}

/-! ### Decoding a buffer -/

/-- Fuel beyond the length of the buffer makes no difference. -/
theorem decodeLoop_fuel (h : Incremental next) (n : Nat) :
    ∀ (m : Nat) (buf : List τ), buf.length < n → buf.length < m →
      decodeLoop next n buf = decodeLoop next m buf := by
  induction n with
  | zero => intro m buf hn; omega
  | succ n ih =>
    intro m buf hn hm
    cases m with
    | zero => omega
    | succ m =>
      unfold decodeLoop
      cases hnext : next buf with
      | wait => rfl
      | error e => rfl
      | frame a size =>
        obtain ⟨hpos, hle, -⟩ := h.frame hnext
        have hdrop : (buf.drop size).length = buf.length - size := List.length_drop
        show (decodeLoop next n (buf.drop size)).after [a] = (decodeLoop next m (buf.drop size)).after [a]
        rw [ih m (buf.drop size) (by omega) (by omega)]

theorem decode_wait {buf : List τ} (hnext : next buf = .wait) : decode next buf = ⟨[], buf, none⟩ := by
  simp only [decode, decodeLoop, hnext]

theorem decode_error {buf : List τ} {e : ε} (hnext : next buf = .error e) :
    decode next buf = ⟨[], buf, some e⟩ := by
  simp only [decode, decodeLoop, hnext]

theorem decode_frame (h : Incremental next) {buf : List τ} {a : α} {size : Nat}
    (hnext : next buf = .frame a size) :
    decode next buf = (decode next (buf.drop size)).after [a] := by
  obtain ⟨hpos, hle, -⟩ := h.frame hnext
  have hdrop : (buf.drop size).length = buf.length - size := List.length_drop
  have hfuel := decodeLoop_fuel h buf.length ((buf.drop size).length + 1) (buf.drop size) (by omega) (by omega)
  simp only [decode, decodeLoop, hnext] at hfuel ⊢
  rw [hfuel]

/-- Induction along the frames of a buffer. -/
theorem frame_induction (h : Incremental next) {motive : List τ → Prop}
    (hwait : ∀ buf, next buf = .wait → motive buf)
    (herror : ∀ buf e, next buf = .error e → motive buf)
    (hframe : ∀ buf a size, next buf = .frame a size → motive (buf.drop size) → motive buf)
    (buf : List τ) : motive buf := by
  induction hn : buf.length using Nat.strongRecOn generalizing buf with
  | _ n ih =>
    cases hnext : next buf with
    | wait => exact hwait buf hnext
    | error e => exact herror buf e hnext
    | frame a size =>
      obtain ⟨hpos, hle, -⟩ := h.frame hnext
      have hdrop : (buf.drop size).length = buf.length - size := List.length_drop
      exact hframe buf a size hnext (ih (buf.drop size).length (by omega) (buf.drop size) rfl)

/-- What is left of a buffer without errors is not a whole frame. -/
theorem next_rest (h : Incremental next) (buf : List τ) :
    (decode next buf).error = none → next (decode next buf).rest = .wait := by
  induction buf using frame_induction h with
  | hwait buf hnext =>
    intro _
    rw [decode_wait hnext]
    exact hnext
  | herror buf e hnext =>
    intro hok
    rw [decode_error hnext] at hok
    cases hok
  | hframe buf a size hnext ih =>
    intro hok
    rw [decode_frame h hnext] at hok ⊢
    exact ih hok

/-- **More arrives.**  The frames that were complete stay, and the framer goes on from what was left. -/
theorem decode_append (h : Incremental next) (more : List τ) (buf : List τ) :
    (decode next buf).error = none →
      decode next (buf ++ more) =
        (decode next ((decode next buf).rest ++ more)).after (decode next buf).frames := by
  induction buf using frame_induction h with
  | hwait buf hnext =>
    intro _
    rw [decode_wait hnext]
    rfl
  | herror buf e hnext =>
    intro hok
    rw [decode_error hnext] at hok
    cases hok
  | hframe buf a size hnext ih =>
    intro hok
    obtain ⟨-, hle, hmore⟩ := h.frame hnext
    rw [decode_frame h hnext] at hok ⊢
    rw [decode_frame h (hmore more), List.drop_append_of_le_length hle, ih hok]
    rfl

/-- An error in the buffer stays an error. -/
theorem decode_append_error (h : Incremental next) (more : List τ) {e : ε} (buf : List τ) :
    (decode next buf).error = some e → (decode next (buf ++ more)).error = some e := by
  induction buf using frame_induction h with
  | hwait buf hnext =>
    intro herror
    rw [decode_wait hnext] at herror
    cases herror
  | herror buf e' hnext =>
    intro herror
    rw [decode_error hnext] at herror
    rw [decode_error (h.error hnext more)]
    exact herror
  | hframe buf a size hnext ih =>
    intro herror
    obtain ⟨-, hle, hmore⟩ := h.frame hnext
    rw [decode_frame h hnext] at herror
    rw [decode_frame h (hmore more), List.drop_append_of_le_length hle]
    exact ih herror

/-! ### Errors behind whole frames -/

/-- The tokens `w` are one whole frame. -/
def IsFrame (next : List τ → Front ε α) (w : List τ) (a : α) : Prop := next w = .frame a w.length

/-- Some whole frames, and behind them what cannot begin a frame. -/
inductive Corrupt (next : List τ → Front ε α) : List τ → Prop
  | here {buf e} (h : next buf = .error e) : Corrupt next buf
  | behind {buf a size} (h : next buf = .frame a size) (hrest : Corrupt next (buf.drop size)) :
      Corrupt next buf

theorem decode_frames (h : Incremental next) {ws : List (List τ)} {as : List α}
    (hws : List.Forall₂ (IsFrame next) ws as) (rest : List τ) :
    decode next (ws.flatten ++ rest) = (decode next rest).after as := by
  induction hws with
  | nil => rfl
  | @cons w a ws as hw _ ih =>
    rw [List.flatten_cons, List.append_assoc, decode_frame h ((h.frame hw).2.2 _), List.drop_left, ih]
    rfl

/-- A part of a frame is not yet a frame. -/
theorem wait_of_part (h : Incremental next) {w part : List τ} {a : α} (hw : IsFrame next w a)
    (hpart : part <+: w) (hproper : part ≠ w) : next part = .wait := by
  obtain ⟨more, rfl⟩ := hpart
  unfold IsFrame at hw
  cases hnext : next part with
  | wait => rfl
  | error e =>
    rw [h.error hnext more] at hw
    cases hw
  | frame b size =>
    obtain ⟨-, hle, hframe⟩ := h.frame hnext
    rw [hframe more, List.length_append] at hw
    injection hw with _ hsize
    have hmore : more = [] := List.length_eq_zero_iff.mp (by omega)
    exact absurd (by rw [hmore, List.append_nil]) hproper

theorem corrupt_iff (h : Incremental next) (buf : List τ) :
    Corrupt next buf ↔ (decode next buf).error ≠ none := by
  constructor
  · intro hcorrupt
    induction hcorrupt with
    | here hnext =>
      rw [decode_error hnext]
      nofun
    | behind hnext _ ih =>
      rw [decode_frame h hnext]
      exact ih
  · induction buf using frame_induction h with
    | hwait buf hnext =>
      intro hne
      rw [decode_wait hnext] at hne
      exact absurd rfl hne
    | herror buf e hnext => exact fun _ => .here hnext
    | hframe buf a size hnext ih =>
      intro hne
      rw [decode_frame h hnext] at hne
      exact .behind hnext (ih hne)

/-! ### Receivers -/

/-- A receiver with the buffer `buf` gets `data`: the frames it takes and its next buffer.  On an error it
drops everything. -/
def receive (next : List τ → Front ε α) (buf data : List τ) : List α × List τ :=
  match (decode next (buf ++ data)).error with
  | some _ => ([], [])
  | none => ((decode next (buf ++ data)).frames, (decode next (buf ++ data)).rest)

theorem receive_error {buf data : List τ} (herror : (decode next (buf ++ data)).error ≠ none) :
    receive next buf data = ([], []) := by
  obtain ⟨e, he⟩ := Option.ne_none_iff_exists'.mp herror
  rw [receive, he]

theorem receive_ok {buf data : List τ} (hok : (decode next (buf ++ data)).error = none) :
    receive next buf data = ((decode next (buf ++ data)).frames, (decode next (buf ++ data)).rest) := by
  rw [receive, hok]

/-- What comes of some whole frames depends on what is behind them. -/
theorem frames_received_iff (h : Incremental next) {ws : List (List τ)} {as : List α}
    (hws : List.Forall₂ (IsFrame next) ws as) (rest : List τ) :
    as <+: (receive next [] (ws.flatten ++ rest)).1 ↔ as = [] ∨ ¬ Corrupt next rest := by
  have hdecode := decode_frames h hws rest
  rw [corrupt_iff h]
  by_cases herror : (decode next rest).error = none
  · have hok : (decode next ([] ++ (ws.flatten ++ rest))).error = none := by
      rw [List.nil_append, hdecode]
      exact herror
    rw [receive_ok hok, List.nil_append, hdecode]
    exact iff_of_true (List.prefix_append _ _) (.inr (not_not.mpr herror))
  · have hfail : (decode next ([] ++ (ws.flatten ++ rest))).error ≠ none := by
      rw [List.nil_append, hdecode]
      exact herror
    rw [receive_error hfail, List.prefix_nil]
    exact ⟨.inl, fun hor => hor.resolve_right (not_not.mpr herror)⟩

/-- The frames of a receiver that gets one piece after another, and the buffer it ends with. -/
def receiveAll (next : List τ → Front ε α) (buf : List τ) : List (List τ) → List α × List τ
  | [] => ([], buf)
  | data :: more =>
    let (as, buf) := receive next buf data
    let (as', buf) := receiveAll next buf more
    (as ++ as', buf)

/-- **The cuts do not matter.**  The buffer in between is always what was left of the stream so far. -/
theorem receiveAll_eq (h : Incremental next) (pieces : List (List τ)) :
    ∀ buf, next buf = .wait → (decode next (buf ++ pieces.flatten)).error = none →
      receiveAll next buf pieces =
        ((decode next (buf ++ pieces.flatten)).frames, (decode next (buf ++ pieces.flatten)).rest) := by
  induction pieces with
  | nil =>
    intro buf hwait _
    show ([], buf) = ((decode next (buf ++ [])).frames, (decode next (buf ++ [])).rest)
    rw [List.append_nil, decode_wait hwait]
  | cons data more ih =>
    intro buf _ hok
    rw [List.flatten_cons, ← List.append_assoc] at hok ⊢
    -- an error in the part that is there would show in the whole stream
    cases hpart : (decode next (buf ++ data)).error with
    | some e =>
      rw [decode_append_error h more.flatten (buf ++ data) hpart] at hok
      cases hok
    | none =>
      have happend := decode_append h more.flatten (buf ++ data) hpart
      rw [happend] at hok
      rw [receiveAll, receive, hpart, happend]
      dsimp only
      rw [ih _ (next_rest h (buf ++ data) hpart) hok]
      rfl

end NextendoMatchmaking.Framing
