import NextendoMatchmaking.Endpoint.NatBridge
import NextendoMatchmaking.Library.GoMap
import NextendoMatchmaking.Library.Runs

/-!
# The parameters of a station URL, parsed and rendered

`StationURL` of `nextendo-nex/types.go` keeps its parameters in two structures, a list of the keys in their
order and a map with the values, and every method updates the two on its own.  `KeyedURL` is this
representation, and `StationURL` of the model, the list of the entries, is what it stands for
(`Represents`): every method of the one is the method of the other.

The text of a URL joins the entries with `;` and a key to its value with `=`.  When no key contains a `=` or a
`;` and no value a `;`, the text is read back as the same URL (`parse_render`), after any sequence of changes
and copies (`station_url_round_trip`), and shows no parameter that was removed.
-/

namespace NextendoMatchmaking.Endpoint

open NextendoMatchmaking.Ordered NextendoMatchmaking.Runs

/-! ### The two structures -/

/-- `StationURL` as the source has it. -/
structure KeyedURL where
  scheme : Bytes
  keys : List Bytes
  params : GoMap Bytes Bytes

namespace KeyedURL

/-- `Set`. -/
def set (u : KeyedURL) (k v : Bytes) : KeyedURL :=
  { u with
    keys := if (u.params.lookup k).isSome then u.keys else u.keys ++ [k]
    params := u.params.insert k v }

/-- `SetInt`. -/
def setInt (u : KeyedURL) (k : Bytes) (v : Int) : KeyedURL := u.set k (itoa v)

/-- `Remove`: the loop takes out the first key that is equal. -/
def remove (u : KeyedURL) (k : Bytes) : KeyedURL :=
  if (u.params.lookup k).isSome then { u with keys := u.keys.erase k, params := u.params.erase k } else u

/-- `Copy`, with the order in which its loop visits the map. -/
def copy (u : KeyedURL) (order : List Bytes) : KeyedURL :=
  { u with params := (GoMap.entriesIn order u.params).foldl (fun m e => m.insert e.1 e.2) ∅ }

/-- `String`. -/
def render (u : KeyedURL) : Bytes :=
  let joined := [59].intercalate (u.keys.map (fun k => k ++ [61] ++ (u.params.lookup k).getD []))
  if u.scheme ≠ [] then u.scheme ++ [58, 47] ++ joined else joined

/-- One field of `ParseStationURL`. -/
def setField (u : KeyedURL) (f : Bytes) : KeyedURL :=
  match cutField f with
  | none => u
  | some (k, v) => u.set k v

/-- `ParseStationURL`. -/
def parse (s : Bytes) : KeyedURL :=
  match cutScheme s with
  | none => ⟨[], [], ∅⟩
  | some (scheme, fields) =>
    if fields = [] then ⟨scheme, [], ∅⟩ else (fields.splitOn 59).foldl setField ⟨scheme, [], ∅⟩

end KeyedURL

/-- One field of `ParseStationURL`. -/
def StationURL.setField (u : StationURL) (f : Bytes) : StationURL :=
  match cutField f with
  | none => u
  | some (k, v) => u.set k v

theorem parseStationURL_none {s : Bytes} (h : cutScheme s = none) : parseStationURL s = .empty := by
  unfold parseStationURL
  rw [h]

theorem parseStationURL_some {s scheme fields : Bytes} (h : cutScheme s = some (scheme, fields)) :
    parseStationURL s = if fields = [] then { StationURL.empty with scheme }
      else (fields.splitOn 59).foldl StationURL.setField { StationURL.empty with scheme } := by
  unfold parseStationURL
  rw [h]
  rfl

/-- `u` holds the entries of `v`. -/
structure Represents (u : KeyedURL) (v : StationURL) : Prop where
  scheme : u.scheme = v.scheme
  keys : u.keys = v.params.map Prod.fst
  lookup : ∀ k, u.params.lookup k = v.params.lookup k

namespace Represents

variable {u u' : KeyedURL} {v : StationURL}

theorem isSome_iff (h : Represents u v) {k : Bytes} : (u.params.lookup k).isSome ↔ k ∈ u.keys := by
  rw [h.lookup, h.keys, lookup_isSome_iff]

theorem enumerates (h : Represents u v) : GoMap.Enumerates u.keys u.params :=
  ⟨h.keys ▸ v.nodup, fun k => by rw [← Finmap.lookup_isSome, h.isSome_iff]⟩

/-- A URL has one representation. -/
theorem eq (h : Represents u v) (h' : Represents u' v) : u = u' := by
  obtain ⟨scheme, keys, params⟩ := u
  obtain ⟨scheme', keys', params'⟩ := u'
  have hparams : params = params' := by
    apply Finmap.ext_lookup
    intro k
    exact (h.lookup k).trans (h'.lookup k).symm
  obtain rfl : scheme = scheme' := h.scheme.trans h'.scheme.symm
  obtain rfl : keys = keys' := h.keys.trans h'.keys.symm
  rw [hparams]

theorem empty (scheme : Bytes) : Represents ⟨scheme, [], ∅⟩ { StationURL.empty with scheme } where
  scheme := rfl
  keys := rfl
  lookup _ := rfl

theorem set (h : Represents u v) (k w : Bytes) : Represents (u.set k w) (v.set k w) where
  scheme := h.scheme
  keys := by
    show (if (u.params.lookup k).isSome then u.keys else u.keys ++ [k]) = (put k w v.params).map Prod.fst
    rw [keys_put, h.lookup, h.keys]
    by_cases hk : k ∈ v.params.map Prod.fst
    · rw [if_pos (lookup_isSome_iff.mpr hk), if_pos hk]
    · rw [if_neg (fun hsome => hk (lookup_isSome_iff.mp hsome)), if_neg hk]
  lookup k' := by
    show (u.params.insert k w).lookup k' = (put k w v.params).lookup k'
    rw [GoMap.lookup_insert_eq, lookup_put_eq, h.lookup]

theorem remove (h : Represents u v) (k : Bytes) : Represents (u.remove k) (v.remove k) := by
  have hnodup : u.keys.Nodup := h.keys ▸ v.nodup
  have hkeys : u.keys.erase k = (v.remove k).params.map Prod.fst := by
    rw [hnodup.erase_eq_filter, h.keys, List.filter_map]
    show (v.params.filter _).map Prod.fst = (v.params.filter _).map Prod.fst
    congr 2
    funext e
    simp [bne, Bool.beq_eq_decide_eq]
  unfold KeyedURL.remove
  split
  · refine ⟨h.scheme, hkeys, fun k' => ?_⟩
    rw [GoMap.lookup_erase_eq, StationURL.lookup_remove, h.lookup]
  · rename_i hnone
    refine ⟨h.scheme, ?_, fun k' => ?_⟩
    · rw [← hkeys, List.erase_of_not_mem (fun hmem => hnone (h.isSome_iff.mpr hmem))]
    · rw [StationURL.lookup_remove, h.lookup]
      split
      · rename_i heq
        rw [heq, ← h.lookup]
        exact Option.not_isSome_iff_eq_none.mp hnone
      · rfl

theorem copy (h : Represents u v) {order : List Bytes} (horder : GoMap.Enumerates order u.params) :
    Represents (u.copy order) v := by
  have hparams : (u.copy order).params = u.params := by
    refine GoMap.foldl_insert_entries (fun k w => ?_)
    rw [GoMap.mem_entriesIn, horder.2 k, and_iff_right_iff_imp]
    exact Finmap.mem_of_lookup_eq_some
  exact ⟨h.scheme, h.keys, fun k => by rw [hparams, h.lookup]⟩

theorem render (h : Represents u v) : u.render = v.render := by
  have hfields : u.keys.map (fun k => k ++ [61] ++ (u.params.lookup k).getD []) =
      v.params.map (fun e => e.1 ++ [61] ++ e.2) := by
    rw [h.keys, List.map_map]
    refine List.map_congr_left (fun e he => ?_)
    show e.1 ++ [61] ++ (u.params.lookup e.1).getD [] = _
    rw [h.lookup, lookup_of_mem v.nodup he]
    rfl
  simp only [KeyedURL.render, StationURL.render, hfields, h.scheme]

theorem setField (h : Represents u v) (f : Bytes) : Represents (u.setField f) (v.setField f) := by
  unfold KeyedURL.setField StationURL.setField
  cases cutField f with
  | none => exact h
  | some e => exact h.set e.1 e.2

theorem foldl_setField (h : Represents u v) (fields : List Bytes) :
    Represents (fields.foldl KeyedURL.setField u) (fields.foldl StationURL.setField v) := by
  induction fields generalizing u v with
  | nil => exact h
  | cons f fields ih => exact ih (h.setField f)

end Represents

theorem represents_parse (s : Bytes) : Represents (KeyedURL.parse s) (parseStationURL s) := by
  cases hcut : cutScheme s with
  | none =>
    rw [parseStationURL_none hcut, KeyedURL.parse, hcut]
    exact .empty []
  | some cut =>
    obtain ⟨scheme, fields⟩ := cut
    rw [parseStationURL_some hcut, KeyedURL.parse, hcut]
    dsimp only
    split
    · exact .empty scheme
    · exact (Represents.empty scheme).foldl_setField _

/-! ### Reading a text back -/

theorem cutField_join {k : Bytes} (hk : 61 ∉ k) (v : Bytes) : cutField (k ++ [61] ++ v) = some (k, v) := by
  have hall : ∀ b ∈ k, decide (b ≠ 61) = true := fun b hb => decide_eq_true (fun heq => hk (heq ▸ hb))
  have hmem : 61 ∈ k ++ [61] ++ v := by simp
  unfold cutField
  rw [if_pos hmem, List.append_assoc, List.takeWhile_append_of_pos hall, List.dropWhile_append_of_pos hall]
  simp

/-- The two parts of a field, and what is not in them. -/
theorem parts_of_cutField {f k v : Bytes} (h : cutField f = some (k, v)) : f = k ++ [61] ++ v ∧ 61 ∉ k := by
  by_cases hmem : 61 ∈ f
  · obtain ⟨front, back, rfl, hfront⟩ := List.eq_append_cons_of_mem hmem
    have hfield : front ++ 61 :: back = front ++ [61] ++ back := by simp
    rw [hfield, cutField_join hfront] at h
    cases h
    exact ⟨hfield, hfront⟩
  · rw [cutField, if_neg hmem] at h
    cases h

/-- The scheme of a text is cut off again from every text that begins with it. -/
theorem cutScheme_of_cutScheme {s scheme fields : Bytes} (h : cutScheme s = some (scheme, fields)) :
    s = scheme ++ [58, 47] ++ fields ∧
      ∀ rest, cutScheme (scheme ++ [58, 47] ++ rest) = some (scheme, rest) := by
  induction s generalizing scheme with
  | nil => cases h
  | cons b s ih =>
    rw [cutScheme] at h
    split at h
    · rename_i hsep
      obtain ⟨rfl, hhead⟩ := hsep
      cases h
      cases s with
      | nil => cases hhead
      | cons b s =>
        cases hhead
        exact ⟨rfl, fun rest => rfl⟩
    · rename_i hsep
      obtain ⟨⟨before, after⟩, hcut, heq⟩ := Option.map_eq_some_iff.mp h
      cases heq
      obtain ⟨rfl, hagain⟩ := ih hcut
      refine ⟨rfl, fun rest => ?_⟩
      -- the byte after `b` is the same in both texts, or it is the `:` of the separator
      have hsep' : ¬ (b = 58 ∧ (before ++ [58, 47] ++ rest).head? = some 47) := by
        cases before with
        | nil => simp
        | cons c before => exact hsep
      show cutScheme (b :: (before ++ [58, 47] ++ rest)) = _
      rw [cutScheme, if_neg hsep', hagain]
      rfl

/-- No part of a split contains what was split on. -/
theorem notMem_of_mem_splitOn {s f : Bytes} {sep : UInt8} (h : f ∈ s.splitOn sep) : sep ∉ f := by
  induction s generalizing f with
  | nil =>
    rw [List.splitOn_nil, List.mem_singleton] at h
    simp [h]
  | cons b s ih =>
    rw [List.splitOn_cons_eq_if_modifyHead] at h
    split at h
    · rcases List.mem_cons.mp h with rfl | h
      · exact List.not_mem_nil
      · exact ih h
    · rename_i hne
      cases hparts : s.splitOn sep with
      | nil => exact absurd hparts (List.splitOn_ne_nil sep s)
      | cons g parts =>
        rw [hparts] at h ih
        rcases List.mem_cons.mp h with rfl | h
        · have hg : sep ∉ g := ih List.mem_cons_self
          simp only [beq_iff_eq] at hne
          exact List.not_mem_cons_of_ne_of_not_mem (Ne.symm hne) hg
        · exact ih (List.mem_cons_of_mem _ h)

/-- What a text needs to be read back: its scheme is cut off again, and the separators are in their places. -/
structure StationURL.Clean (v : StationURL) : Prop where
  scheme : v.scheme ≠ []
  cut : ∀ rest, cutScheme (v.scheme ++ [58, 47] ++ rest) = some (v.scheme, rest)
  key : ∀ e ∈ v.params, 61 ∉ e.1
  field : ∀ e ∈ v.params, 59 ∉ e.1 ++ [61] ++ e.2

namespace StationURL.Clean

variable {v : StationURL}

theorem set (h : v.Clean) {k w : Bytes} (hk : 61 ∉ k) (hfield : 59 ∉ k ++ [61] ++ w) : (v.set k w).Clean where
  scheme := h.scheme
  cut := h.cut
  key e he := by
    rcases mem_of_mem_put he with rfl | he
    · exact hk
    · exact h.key e he
  field e he := by
    rcases mem_of_mem_put he with rfl | he
    · exact hfield
    · exact h.field e he

theorem remove (h : v.Clean) (k : Bytes) : (v.remove k).Clean where
  scheme := h.scheme
  cut := h.cut
  key e he := h.key e (List.mem_of_mem_filter he)
  field e he := h.field e (List.mem_of_mem_filter he)

theorem setField (h : v.Clean) {f : Bytes} (hf : 59 ∉ f) : (v.setField f).Clean := by
  unfold StationURL.setField
  cases hcut : cutField f with
  | none => exact h
  | some e =>
    obtain ⟨hparts, hkey⟩ := parts_of_cutField hcut
    exact h.set hkey (hparts ▸ hf)

theorem foldl_setField (h : v.Clean) {fields : List Bytes} (hfields : ∀ f ∈ fields, 59 ∉ f) :
    (fields.foldl StationURL.setField v).Clean := by
  induction fields generalizing v with
  | nil => exact h
  | cons f fields ih =>
    exact ih (h.setField (hfields f List.mem_cons_self)) (fun f' hf' => hfields f' (List.mem_cons_of_mem _ hf'))

end StationURL.Clean

theorem scheme_foldl_setField (fields : List Bytes) (v : StationURL) :
    (fields.foldl StationURL.setField v).scheme = v.scheme := by
  induction fields generalizing v with
  | nil => rfl
  | cons f fields ih =>
    rw [List.foldl_cons, ih]
    unfold StationURL.setField
    cases cutField f <;> rfl

theorem clean_parse {s : Bytes} (h : (parseStationURL s).scheme ≠ []) : (parseStationURL s).Clean := by
  cases hcut : cutScheme s with
  | none =>
    rw [parseStationURL_none hcut] at h
    exact absurd rfl h
  | some cut =>
    obtain ⟨scheme, fields⟩ := cut
    rw [parseStationURL_some hcut] at h ⊢
    have hscheme : scheme ≠ [] := by
      split at h
      · exact h
      · rwa [scheme_foldl_setField] at h
    have hstart : StationURL.Clean { StationURL.empty with scheme } :=
      ⟨hscheme, (cutScheme_of_cutScheme hcut).2, nofun, nofun⟩
    split
    · exact hstart
    · exact hstart.foldl_setField (fun f hf => notMem_of_mem_splitOn hf)

/-- Reading the fields of a URL gives its parameters. -/
theorem foldl_setField_fields {l : List (Bytes × Bytes)} (hkey : ∀ e ∈ l, 61 ∉ e.1) (v : StationURL) :
    ((l.map (fun e => e.1 ++ [61] ++ e.2)).foldl StationURL.setField v).params =
      l.foldl (fun m e => put e.1 e.2 m) v.params := by
  induction l generalizing v with
  | nil => rfl
  | cons e l ih =>
    have hfield : v.setField (e.1 ++ [61] ++ e.2) = v.set e.1 e.2 := by
      rw [StationURL.setField, cutField_join (hkey e List.mem_cons_self)]
    rw [List.map_cons, List.foldl_cons, hfield, ih (fun e' he' => hkey e' (List.mem_cons_of_mem _ he'))]
    rfl

theorem StationURL.eq_of_params {u v : StationURL} (hscheme : u.scheme = v.scheme)
    (hparams : u.params = v.params) : u = v := by
  cases u
  cases v
  cases hscheme
  cases hparams
  rfl

/-- The text after the scheme: the fields with `;` between them. -/
def StationURL.joined (v : StationURL) : Bytes := [59].intercalate (v.params.map (fun e => e.1 ++ [61] ++ e.2))

namespace StationURL.Clean

variable {v : StationURL}

theorem render_eq (h : v.Clean) : v.render = v.scheme ++ [58, 47] ++ v.joined := if_pos h.scheme

theorem splitOn_joined (h : v.Clean) (hsome : v.params ≠ []) :
    v.joined.splitOn 59 = v.params.map (fun e => e.1 ++ [61] ++ e.2) := by
  refine List.splitOn_intercalate 59 (fun f hf => ?_) (fun hnil => hsome (List.map_eq_nil_iff.mp hnil))
  obtain ⟨e, he, rfl⟩ := List.mem_map.mp hf
  exact h.field e he

theorem joined_ne_nil (h : v.Clean) (hsome : v.params ≠ []) : v.joined ≠ [] := by
  intro hnil
  have hsplit := h.splitOn_joined hsome
  rw [hnil, List.splitOn_nil] at hsplit
  obtain ⟨e, _, he⟩ := List.mem_map.mp (hsplit ▸ List.mem_singleton_self ([] : Bytes))
  simp at he

/-- A field of the text has a parameter of the URL. -/
theorem mem_of_cutField (h : v.Clean) {f k w : Bytes} (hf : f ∈ v.joined.splitOn 59)
    (hcut : cutField f = some (k, w)) : (k, w) ∈ v.params := by
  by_cases hnone : v.params = []
  · rw [joined, hnone] at hf
    cases List.mem_singleton.mp hf
    cases hcut
  · rw [h.splitOn_joined hnone] at hf
    obtain ⟨e, he, rfl⟩ := List.mem_map.mp hf
    rw [cutField_join (h.key e he)] at hcut
    cases hcut
    exact he

end StationURL.Clean

variable {k : Bytes} {urls urls' : List KeyedURL} {i : ℕ}

theorem parse_render {v : StationURL} (h : v.Clean) : parseStationURL v.render = v := by
  rw [h.render_eq, parseStationURL_some (h.cut _)]
  by_cases hnone : v.params = []
  · have hnil : v.joined = [] := by
      rw [StationURL.joined, hnone]
      rfl
    rw [if_pos hnil]
    exact StationURL.eq_of_params rfl hnone.symm
  · rw [if_neg (h.joined_ne_nil hnone), h.splitOn_joined hnone]
    refine StationURL.eq_of_params (scheme_foldl_setField _ _) ?_
    rw [foldl_setField_fields h.key, foldl_put_of_nodup v.nodup]
    rfl

/-! ### Changes and copies -/

/-- A change of one URL. -/
inductive Edit
  | set (k v : Bytes)
  | setInt (k : Bytes) (v : Int)
  | remove (k : Bytes)

def KeyedURL.edit (u : KeyedURL) : Edit → KeyedURL
  | .set k v => u.set k v
  | .setInt k v => u.setInt k v
  | .remove k => u.remove k

/-- What happens to a URL and its copies. -/
inductive URLLabel
  /-- The URL `i` is changed. -/
  | edit (i : ℕ) (e : Edit)
  /-- The URL `i` is copied, by a loop that visits its map in this order. -/
  | copy (i : ℕ) (order : List Bytes)

/-- The URLs after one step, the copies in the order in which they were made. -/
def urlStep (urls : List KeyedURL) : URLLabel → Option (List KeyedURL)
  | .edit i e => urls[i]?.map (fun u => urls.set i (u.edit e))
  | .copy i order => urls[i]?.map (fun u => urls ++ [u.copy order])

/-- The keys are free of `=` and `;`, the values of `;`. -/
def Edit.Free : Edit → Prop
  | .set k v => (61 ∉ k ∧ 59 ∉ k) ∧ 59 ∉ v
  | .setInt k _ => 61 ∉ k ∧ 59 ∉ k
  | .remove k => 61 ∉ k ∧ 59 ∉ k

instance : ∀ e : Edit, Decidable e.Free
  | .set k v => inferInstanceAs (Decidable ((61 ∉ k ∧ 59 ∉ k) ∧ 59 ∉ v))
  | .setInt k _ => inferInstanceAs (Decidable (61 ∉ k ∧ 59 ∉ k))
  | .remove k => inferInstanceAs (Decidable (61 ∉ k ∧ 59 ∉ k))

/-- The keys and values of a step are free of the separators, and the loop of a copy visits the whole map. -/
def URLLabel.Allowed (urls : List KeyedURL) : URLLabel → Prop
  | .edit _ e => e.Free
  | .copy i order => ∀ u, urls[i]? = some u → GoMap.Enumerates order u.params

/-- The two structures of `u` agree, and its text is read back. -/
def Sound (u : KeyedURL) : Prop := ∃ v, Represents u v ∧ v.Clean

theorem notMem_field {v : Bytes} (hk : 59 ∉ k) (hv : 59 ∉ v) : 59 ∉ k ++ [61] ++ v := by
  simp [hk, hv]

theorem Sound.edit {u : KeyedURL} (h : Sound u) {e : Edit} (hfree : e.Free) : Sound (u.edit e) := by
  obtain ⟨v, hrep, hclean⟩ := h
  cases e with
  | set k w => exact ⟨_, hrep.set k w, hclean.set hfree.1.1 (notMem_field hfree.1.2 hfree.2)⟩
  | setInt k n =>
    have hdigits : 59 ∉ itoa n := fun hmem => by
      rcases mem_itoa hmem with hminus | hdigit
      · exact absurd hminus (by decide)
      · exact absurd hdigit (by decide)
    exact ⟨_, hrep.set k (itoa n), hclean.set hfree.1 (notMem_field hfree.2 hdigits)⟩
  | remove k => exact ⟨_, hrep.remove k, hclean.remove k⟩

theorem Sound.copy {u : KeyedURL} (h : Sound u) {order : List Bytes}
    (horder : GoMap.Enumerates order u.params) : Sound (u.copy order) := by
  obtain ⟨v, hrep, hclean⟩ := h
  exact ⟨v, hrep.copy horder, hclean⟩

theorem sound_step {l : URLLabel} (hallowed : l.Allowed urls) (h : ∀ u ∈ urls, Sound u)
    (hstep : urlStep urls l = some urls') : ∀ u ∈ urls', Sound u := by
  intro u hu
  cases l with
  | edit i e =>
    obtain ⟨old, hold, rfl⟩ := Option.map_eq_some_iff.mp hstep
    rcases List.mem_or_eq_of_mem_set hu with hu | rfl
    · exact h u hu
    · exact (h old (List.mem_of_getElem? hold)).edit hallowed
  | copy i order =>
    obtain ⟨old, hold, rfl⟩ := Option.map_eq_some_iff.mp hstep
    rcases List.mem_append.mp hu with hu | hu
    · exact h u hu
    · rw [List.mem_singleton.mp hu]
      exact (h old (List.mem_of_getElem? hold)).copy (hallowed old hold)

/-! ### Removed parameters -/

/-- The URL and the key that a step sets, if it sets one. -/
def URLLabel.sets : URLLabel → Option (ℕ × Bytes)
  | .edit i (.set k _) => some (i, k)
  | .edit i (.setInt k _) => some (i, k)
  | .edit _ (.remove _) => none
  | .copy _ _ => none

/-- The URL `i` is there and has no parameter `k`. -/
def Lacks (i : ℕ) (k : Bytes) (urls : List KeyedURL) : Prop := ∃ u, urls[i]? = some u ∧ k ∉ u.params

theorem notMem_set {u : KeyedURL} {k' : Bytes} (h : k ∉ u.params) (hne : k' ≠ k) (v : Bytes) :
    k ∉ (u.set k' v).params := by
  show k ∉ u.params.insert k' v
  rw [Finmap.mem_insert]
  rintro (rfl | hmem)
  · exact hne rfl
  · exact h hmem

theorem notMem_remove {u : KeyedURL} {k' : Bytes} (h : k = k' ∨ k ∉ u.params) : k ∉ (u.remove k').params := by
  unfold KeyedURL.remove
  split
  · show k ∉ u.params.erase k'
    rw [Finmap.mem_erase]
    rintro ⟨hne, hmem⟩
    exact h.elim hne (fun hnot => hnot hmem)
  · rename_i hnone
    rw [Finmap.lookup_isSome] at hnone
    rcases h with rfl | h
    · exact hnone
    · exact h

/-- `Remove` removes. -/
theorem lacks_of_remove (hstep : urlStep urls (.edit i (.remove k)) = some urls') : Lacks i k urls' := by
  obtain ⟨u, hu, rfl⟩ := Option.map_eq_some_iff.mp hstep
  have hi : i < urls.length := (List.getElem?_eq_some_iff.mp hu).1
  exact ⟨u.remove k, List.getElem?_set_self hi, notMem_remove (.inl rfl)⟩

/-- Only a `Set` of the key brings it back. -/
theorem lacks_step {l : URLLabel} (hl : l.sets ≠ some (i, k)) (h : Lacks i k urls)
    (hstep : urlStep urls l = some urls') : Lacks i k urls' := by
  obtain ⟨u, hu, hk⟩ := h
  have hi : i < urls.length := (List.getElem?_eq_some_iff.mp hu).1
  cases l with
  | copy j order =>
    obtain ⟨old, -, rfl⟩ := Option.map_eq_some_iff.mp hstep
    exact ⟨u, (List.getElem?_append_left hi).trans hu, hk⟩
  | edit j e =>
    obtain ⟨old, hold, rfl⟩ := Option.map_eq_some_iff.mp hstep
    by_cases hj : j = i
    · subst hj
      obtain rfl : old = u := Option.some.inj (hold.symm.trans hu)
      refine ⟨old.edit e, List.getElem?_set_self hi, ?_⟩
      cases e with
      | set k' v => exact notMem_set hk (fun heq => hl (heq ▸ rfl)) v
      | setInt k' n => exact notMem_set hk (fun heq => hl (heq ▸ rfl)) (itoa n)
      | remove k' => exact notMem_remove (.inr hk)
    · exact ⟨u, (List.getElem?_set_ne hj).trans hu, hk⟩

theorem lacks_of_removed {urls₀ : List KeyedURL} {before after : List URLLabel}
    (hrun : run urlStep urls₀ (before ++ .edit i (.remove k) :: after) = some urls)
    (hafter : ∀ l ∈ after, l.sets ≠ some (i, k)) : Lacks i k urls := by
  obtain ⟨urls₁, -, hrun⟩ := run_append_some.mp hrun
  obtain ⟨urls₂, hremove, hrun⟩ := run_cons_some.mp hrun
  exact (run_invariant_of_labels (fun _ _ _ hl h hstep => ⟨lacks_step hl h hstep, trivial⟩) hafter
    (lacks_of_remove hremove) hrun).1

/-! ### The text -/

/-- The texts between the `;` after the scheme. -/
def textFields (u : KeyedURL) : List Bytes := (u.render.drop (u.scheme.length + 2)).splitOn 59

/-- `k` is the key of a field of the text. -/
def Shown (k : Bytes) (u : KeyedURL) : Prop := ∃ f ∈ textFields u, ∃ v, cutField f = some (k, v)

/-- What the text shows is a parameter of the URL. -/
theorem Sound.mem_of_shown {u : KeyedURL} (h : Sound u) (hshown : Shown k u) : k ∈ u.params := by
  obtain ⟨v, hrep, hclean⟩ := h
  obtain ⟨f, hf, w, hcut⟩ := hshown
  have htext : u.render.drop (u.scheme.length + 2) = v.joined := by
    rw [hrep.render, hrep.scheme, hclean.render_eq]
    exact List.drop_left' (by simp)
  rw [textFields, htext] at hf
  have hmem := hclean.mem_of_cutField hf hcut
  rw [← Finmap.lookup_isSome, hrep.lookup, lookup_of_mem v.nodup hmem]
  rfl

theorem Sound.parse_render {u : KeyedURL} (h : Sound u) : KeyedURL.parse u.render = u := by
  obtain ⟨v, hrep, hclean⟩ := h
  have hagain := represents_parse u.render
  rw [hrep.render, Endpoint.parse_render hclean] at hagain
  rw [hrep.render]
  exact hagain.eq hrep

/-- **Station URLs are read back as they were.**  After any sequence of changes and copies of a parsed URL, with
keys free of `=` and `;` and values free of `;`, every URL has each of its parameters once in its list of keys
and no other key, its text is parsed to the same scheme, keys and values, and shows no parameter that it does
not have.  A parameter that was removed from a URL, and not set again on it, is in no field of its text. -/
theorem station_url_round_trip {s : Bytes} (hscheme : (KeyedURL.parse s).scheme ≠ []) {ls : List URLLabel}
    {urls : List KeyedURL} (hallowed : Steps urlStep (fun urls l => l.Allowed urls) [KeyedURL.parse s] ls)
    (hrun : run urlStep [KeyedURL.parse s] ls = some urls) :
    (∀ u ∈ urls, u.keys.Nodup ∧ (∀ k, k ∈ u.keys ↔ k ∈ u.params) ∧ KeyedURL.parse u.render = u ∧
      ∀ k, k ∉ u.params → ¬ Shown k u) ∧
    ∀ i k before after, ls = before ++ .edit i (.remove k) :: after → (∀ l ∈ after, l.sets ≠ some (i, k)) →
      ∃ u, urls[i]? = some u ∧ ¬ Shown k u := by
  have hparsed := represents_parse s
  have hstart : ∀ u ∈ [KeyedURL.parse s], Sound u := by
    intro u hu
    rw [List.mem_singleton.mp hu]
    exact ⟨_, hparsed, clean_parse (hparsed.scheme ▸ hscheme)⟩
  have hsound : ∀ u ∈ urls, Sound u := run_invariant_of_steps (fun _ _ _ hC hP hstep => sound_step hC hP hstep)
    hallowed hstart hrun
  constructor
  · intro u hu
    obtain ⟨v, hrep, -⟩ := hsound u hu
    obtain ⟨hnodup, hkeys⟩ := hrep.enumerates
    exact ⟨hnodup, hkeys, (hsound u hu).parse_render, fun k hk hshown => hk ((hsound u hu).mem_of_shown hshown)⟩
  · rintro i k before after rfl hafter
    obtain ⟨u, hu, hk⟩ := lacks_of_removed hrun hafter
    exact ⟨u, hu, fun hshown => hk ((hsound u (List.mem_of_getElem? hu)).mem_of_shown hshown)⟩

/-- `prudp:/PID=7;type=3` -/
def sampleURL : Bytes :=
  [112, 114, 117, 100, 112, 58, 47, 80, 73, 68, 61, 55, 59, 116, 121, 112, 101, 61, 51]

/-- A port is set and the type removed; then the URL is copied, and the PID of the copy set. -/
def sampleChanges : List URLLabel :=
  [.edit 0 (.setInt portKey (-5)), .edit 0 (.remove typeKey), .copy 0 [pidKey, portKey],
    .edit 1 (.set pidKey [56])]

/-- The type is in no field of the first URL, and both are read back. -/
theorem station_url_round_trip_sample :
    (KeyedURL.parse sampleURL).scheme ≠ [] ∧ Shown typeKey (KeyedURL.parse sampleURL) ∧
      ∃ urls, run urlStep [KeyedURL.parse sampleURL] sampleChanges = some urls ∧ urls.length = 2 ∧
        (∀ u ∈ urls, u.keys.Nodup ∧ (∀ k, k ∈ u.keys ↔ k ∈ u.params) ∧ KeyedURL.parse u.render = u ∧
          ∀ k, k ∉ u.params → ¬ Shown k u) ∧
        ∃ u, urls[0]? = some u ∧ ¬ Shown typeKey u := by
  have hscheme : (KeyedURL.parse sampleURL).scheme ≠ [] := by decide
  have hkeys : (((KeyedURL.parse sampleURL).setInt portKey (-5)).remove typeKey).keys = [pidKey, portKey] := by
    decide
  have horder := (((represents_parse sampleURL).set portKey (itoa (-5))).remove typeKey).enumerates
  have hallowed : Steps urlStep (fun urls l => l.Allowed urls) [KeyedURL.parse sampleURL] sampleChanges := by
    have hport : (Edit.setInt portKey (-5)).Free := by decide
    have htype : (Edit.remove typeKey).Free := by decide
    have hpid : (Edit.set pidKey [56]).Free := by decide
    refine ⟨hport, fun _ h₁ => ⟨htype, fun _ h₂ => ⟨fun u hu => ?_, fun _ _ => ⟨hpid, ?_⟩⟩⟩⟩
    swap
    · exact fun _ _ => trivial
    cases h₁
    cases h₂
    cases hu
    rw [← hkeys]
    exact horder
  have hshown : Shown typeKey (KeyedURL.parse sampleURL) := by
    refine ⟨[116, 121, 112, 101, 61, 51], ?_, [51], rfl⟩
    decide
  obtain ⟨hback, hremoved⟩ := station_url_round_trip hscheme hallowed rfl
  refine ⟨hscheme, hshown, _, rfl, rfl, hback, ?_⟩
  refine hremoved 0 typeKey [.edit 0 (.setInt portKey (-5))] [.copy 0 [pidKey, portKey], .edit 1 (.set pidKey [56])]
    rfl ?_
  decide

end NextendoMatchmaking.Endpoint
