import UtxoAssets.Payload.Decoder

/-!
# Decoders read forward and see no further than they read

A decoder never looks at the length of the payload, save to report how many bytes are missing.

* `Cursor.Passes` — what lies between two cursors on one payload; the second one is then ahead of
  the first (`Cursor.Reaches`).
* `Decoder.Streaming` — the contract of a decoder: it moves forward, a report of missing bytes
  names the place of the cursor, and bytes put behind the payload change nothing, unless they are
  as many as were missing.
* `Streaming.bind`, `Streaming.many` and the lemmas beside them: every way of building a decoder
  keeps the contract, and `streaming_take` and `streaming_require`, the two decoders that look at
  the payload, meet it.
* `Decoder.PrefixStable` — what the contract says of whole payloads (`Streaming.prefixStable`).
-/

set_option autoImplicit false

namespace UtxoAssets

variable {α β : Type}

/-! ## Longer payloads -/

/-- The same place in a payload that has the bytes `t` behind it. -/
def Cursor.extend (c : Cursor) (t : Bytes) : Cursor := ⟨c.offset, c.rest ++ t⟩

/-- From one cursor over the bytes `front` to another. -/
def Cursor.Passes (c : Cursor) (front : Bytes) (after : Cursor) : Prop :=
  c.rest = front ++ after.rest ∧ after.offset = c.offset + front.length

theorem Cursor.Passes.nil (c : Cursor) : c.Passes [] c := ⟨rfl, rfl⟩

theorem Cursor.Passes.append {a b c : Cursor} {f g : Bytes} (hf : a.Passes f b)
    (hg : b.Passes g c) : a.Passes (f ++ g) c := by
  obtain ⟨hf, ho⟩ := hf
  obtain ⟨hg, hp⟩ := hg
  refine ⟨?_, ?_⟩
  · rw [hf, hg, List.append_assoc]
  · rw [hp, ho, List.length_append, Nat.add_assoc]

/-- The second cursor lies ahead of the first one. -/
def Cursor.Reaches (c after : Cursor) : Prop := ∃ front, c.Passes front after

theorem Cursor.Reaches.refl (c : Cursor) : c.Reaches c := ⟨[], Cursor.Passes.nil c⟩

theorem Cursor.Reaches.trans {a b c : Cursor} (h₁ : a.Reaches b) (h₂ : b.Reaches c) :
    a.Reaches c := by
  obtain ⟨f, hf⟩ := h₁
  obtain ⟨g, hg⟩ := h₂
  exact ⟨f ++ g, hf.append hg⟩

theorem Cursor.Reaches.end_eq {c after : Cursor} (h : c.Reaches after) :
    after.offset + after.rest.length = c.offset + c.rest.length := by
  obtain ⟨front, hf, ho⟩ := h
  rw [hf, ho, List.length_append, Nat.add_assoc]

namespace PayloadError

/-- No report of missing bytes. -/
def IsFinal (e : PayloadError) : Prop := ∀ offset missing, e ≠ .unexpectedEnd offset missing

/-- The cause that is left when the bytes `t` come behind the payload. -/
def extend (t : Bytes) : PayloadError → PayloadError
  | .unexpectedEnd offset missing => .unexpectedEnd offset (missing - t.length)
  | e => e

/-- The bytes `t` do not make up for what is missing. -/
def Outlasts (t : Bytes) : PayloadError → Prop
  | .unexpectedEnd _ missing => t.length < missing
  | _ => True

/-- Missing bytes are missing at the cursor. -/
def MissingAt (c : Cursor) : PayloadError → Prop
  | .unexpectedEnd offset missing => offset = c.offset ∧ 1 ≤ missing
  | _ => True

theorem IsFinal.extend {e : PayloadError} (h : e.IsFinal) (t : Bytes) : e.extend t = e := by
  cases e with
  | unexpectedEnd offset missing => exact absurd rfl (h offset missing)
  | _ => rfl

theorem IsFinal.outlasts {e : PayloadError} (h : e.IsFinal) (t : Bytes) : e.Outlasts t := by
  cases e with
  | unexpectedEnd offset missing => exact absurd rfl (h offset missing)
  | _ => trivial

theorem IsFinal.missingAt {e : PayloadError} (h : e.IsFinal) (c : Cursor) : e.MissingAt c := by
  cases e with
  | unexpectedEnd offset missing => exact absurd rfl (h offset missing)
  | _ => trivial

end PayloadError

namespace Decoder

/-! ## Runs of a decoder made of two -/

theorem run_bind_eq_ok_iff {x : Decoder α} {f : α → Decoder β} {c after : Cursor} {v : β} :
    (x >>= f).run c = .ok v after ↔
      ∃ a between, x.run c = .ok a between ∧ (f a).run between = .ok v after := by
  rw [EStateM.run_bind]
  cases x.run c with
  | ok a between =>
    constructor
    · intro h
      exact ⟨a, between, rfl, h⟩
    · rintro ⟨_, _, ⟨⟩, h⟩
      exact h
  | error e between =>
    constructor
    · intro h
      cases h
    · rintro ⟨_, _, ⟨⟩, _⟩

theorem run_bind_eq_error_iff {x : Decoder α} {f : α → Decoder β} {c after : Cursor}
    {e : PayloadError} :
    (x >>= f).run c = .error e after ↔
      x.run c = .error e after ∨
        ∃ a between, x.run c = .ok a between ∧ (f a).run between = .error e after := by
  rw [EStateM.run_bind]
  cases x.run c with
  | ok a between =>
    constructor
    · intro h
      exact Or.inr ⟨a, between, rfl, h⟩
    · rintro (h | ⟨_, _, ⟨⟩, h⟩)
      · cases h
      · exact h
  | error e between =>
    constructor
    · intro h
      cases h
      exact Or.inl rfl
    · rintro (h | ⟨_, _, ⟨⟩, _⟩)
      cases h
      rfl

theorem run_map_eq_ok_iff {d : Decoder α} {f : α → β} {c after : Cursor} {v : β} :
    (f <$> d).run c = .ok v after ↔ ∃ a, d.run c = .ok a after ∧ f a = v := by
  rw [map_eq_pure_bind, run_bind_eq_ok_iff]
  constructor
  · rintro ⟨a, between, hrun, ⟨⟩⟩
    exact ⟨a, hrun, rfl⟩
  · rintro ⟨a, hrun, rfl⟩
    exact ⟨a, after, hrun, rfl⟩

theorem run_take_of_le {n : Nat} {c : Cursor} (h : n ≤ c.rest.length) :
    (take n).run c = .ok (c.rest.take n) ⟨c.offset + n, c.rest.drop n⟩ := by
  simp only [take, EStateM.run, splitExactly?_eq, if_pos h]

theorem run_take_of_lt {n : Nat} {c : Cursor} (h : c.rest.length < n) :
    (take n).run c = .error (.unexpectedEnd c.offset (n - c.rest.length)) c := by
  simp only [take, EStateM.run, splitExactly?_eq, if_neg (Nat.not_le.mpr h)]

theorem run_require_of_le {n : Nat} {c : Cursor} (h : n ≤ c.rest.length) :
    (require n).run c = .ok () c := if_pos h

theorem run_require_of_lt {n : Nat} {c : Cursor} (h : c.rest.length < n) :
    (require n).run c = .error (.unexpectedEnd c.offset (n - c.rest.length)) c :=
  if_neg (Nat.not_le.mpr h)

/-! ## The contract -/

/-- **What a decoder makes of a payload does not change when bytes come behind it.** -/
structure Streaming (d : Decoder α) : Prop where
  ok : ∀ {c after : Cursor} {v : α}, d.run c = .ok v after →
    c.Reaches after ∧ ∀ t, d.run (c.extend t) = .ok v (after.extend t)
  error : ∀ {c after : Cursor} {e : PayloadError}, d.run c = .error e after →
    c.Reaches after ∧ e.MissingAt after ∧
      ∀ t, e.Outlasts t → d.run (c.extend t) = .error (e.extend t) (after.extend t)

/-- Streaming passes to sequences: the bytes of the two steps stand one behind the other. -/
theorem Streaming.bind {x : Decoder α} {f : α → Decoder β} (hx : x.Streaming)
    (hf : ∀ a, (f a).Streaming) : (x >>= f).Streaming where
  ok h := by
    obtain ⟨a, between, hrun, hrest⟩ := run_bind_eq_ok_iff.mp h
    obtain ⟨hreach, hext⟩ := hx.ok hrun
    obtain ⟨hreach', hext'⟩ := (hf a).ok hrest
    refine ⟨hreach.trans hreach', fun t => ?_⟩
    exact run_bind_eq_ok_iff.mpr ⟨a, _, hext t, hext' t⟩
  error h := by
    rcases run_bind_eq_error_iff.mp h with hrun | ⟨a, between, hrun, hrest⟩
    · obtain ⟨hreach, hat, hext⟩ := hx.error hrun
      refine ⟨hreach, hat, fun t ht => ?_⟩
      exact run_bind_eq_error_iff.mpr (Or.inl (hext t ht))
    · obtain ⟨hreach, hext⟩ := hx.ok hrun
      obtain ⟨hreach', hat, hext'⟩ := (hf a).error hrest
      refine ⟨hreach.trans hreach', hat, fun t ht => ?_⟩
      exact run_bind_eq_error_iff.mpr (Or.inr ⟨a, _, hext t, hext' t ht⟩)

theorem streaming_pure (v : α) : (pure v : Decoder α).Streaming where
  ok h := by
    cases h
    exact ⟨Cursor.Reaches.refl _, fun _ => rfl⟩
  error h := by cases h

theorem streaming_throw {e : PayloadError} (h : e.IsFinal) : (throw e : Decoder α).Streaming where
  ok h := by cases h
  error := by
    rintro c after e' hrun
    cases hrun
    refine ⟨Cursor.Reaches.refl c, h.missingAt c, fun t _ => ?_⟩
    rw [h.extend t]
    rfl

theorem Streaming.map {d : Decoder α} (h : d.Streaming) (f : α → β) : (f <$> d).Streaming := by
  rw [map_eq_pure_bind]
  exact h.bind fun a => streaming_pure (f a)

/-! ## The decoders that look at the payload -/

/-- A decoder that needs `n` bytes and has fewer goes on needing the rest of them. -/
theorem error_of_short {d : Decoder α} {n : Nat}
    (hd : ∀ c : Cursor, c.rest.length < n →
      d.run c = .error (.unexpectedEnd c.offset (n - c.rest.length)) c)
    {c : Cursor} (h : c.rest.length < n) {e : PayloadError}
    (he : e = .unexpectedEnd c.offset (n - c.rest.length)) :
    c.Reaches c ∧ e.MissingAt c ∧
      ∀ t, e.Outlasts t → d.run (c.extend t) = .error (e.extend t) (c.extend t) := by
  subst he
  refine ⟨Cursor.Reaches.refl c, ⟨rfl, by omega⟩, fun t ht => ?_⟩
  simp only [PayloadError.Outlasts] at ht
  have hlen : (c.extend t).rest.length < n := by
    simp only [Cursor.extend, List.length_append]
    omega
  rw [hd _ hlen]
  simp only [Cursor.extend, PayloadError.extend, List.length_append, Nat.sub_add_eq]

/-- The shortage that a read reports shrinks by the bytes that are added behind. -/
theorem streaming_take (n : Nat) : (take n).Streaming where
  ok := by
    intro c after v h
    by_cases hn : n ≤ c.rest.length
    · rw [run_take_of_le hn] at h
      cases h
      refine ⟨⟨c.rest.take n, ?_, ?_⟩, fun t => ?_⟩
      · exact (List.take_append_drop n c.rest).symm
      · rw [List.length_take, Nat.min_eq_left hn]
      · have hlen : n ≤ (c.extend t).rest.length := by
          simp only [Cursor.extend, List.length_append]
          omega
        rw [run_take_of_le hlen]
        simp only [Cursor.extend, List.take_append_of_le_length hn,
          List.drop_append_of_le_length hn]
    · rw [run_take_of_lt (Nat.not_le.mp hn)] at h
      cases h
  error := by
    intro c after e h
    by_cases hn : n ≤ c.rest.length
    · rw [run_take_of_le hn] at h
      cases h
    · rw [run_take_of_lt (Nat.not_le.mp hn)] at h
      cases h
      exact error_of_short (fun _ => run_take_of_lt) (Nat.not_le.mp hn) rfl

theorem streaming_require (n : Nat) : (require n).Streaming where
  ok := by
    intro c after v h
    by_cases hn : n ≤ c.rest.length
    · rw [run_require_of_le hn] at h
      cases h
      refine ⟨Cursor.Reaches.refl c, fun t => run_require_of_le ?_⟩
      simp only [Cursor.extend, List.length_append]
      omega
    · rw [run_require_of_lt (Nat.not_le.mp hn)] at h
      cases h
  error := by
    intro c after e h
    by_cases hn : n ≤ c.rest.length
    · rw [run_require_of_le hn] at h
      cases h
    · rw [run_require_of_lt (Nat.not_le.mp hn)] at h
      cases h
      exact error_of_short (fun _ => run_require_of_lt) (Nat.not_le.mp hn) rfl

/-- A test of values read before may refuse them, but misses no bytes. -/
theorem streaming_check {test : Except PayloadError α} (h : ∀ e, test = .error e → e.IsFinal) :
    (check test).Streaming := by
  cases test with
  | ok v => exact streaming_pure ()
  | error e => exact streaming_throw (h e rfl)

/-! ## Decoders built of others -/

theorem streaming_word (α : Type) [Word α] : (word α).Streaming :=
  (streaming_take _).bind fun _ => streaming_pure _

theorem streaming_flag : flag.Streaming := (streaming_word UInt8).bind fun _ => streaming_pure _

theorem streaming_wideSize (width least : Nat) : (wideSize width least).Streaming := by
  refine (streaming_take width).bind fun bs => ?_
  dsimp only
  split
  · refine (streaming_throw ?_).bind fun _ => streaming_pure _
    rintro _ _ ⟨⟩
  · exact streaming_pure _

theorem streaming_compactSize : compactSize.Streaming := by
  refine (streaming_word UInt8).bind fun tag => ?_
  split
  · exact streaming_wideSize 2 0xfd
  split
  · exact streaming_wideSize 4 0x10000
  split
  · exact streaming_wideSize 8 0x100000000
  · exact streaming_pure _

theorem streaming_length : Decoder.length.Streaming :=
  streaming_compactSize.bind fun n => (streaming_require n).bind fun _ => streaming_pure n

theorem streaming_varBytes : varBytes.Streaming := streaming_length.bind streaming_take

theorem streaming_fixed (field : String) (n : Nat) : (fixed field n).Streaming := by
  refine streaming_varBytes.bind fun bs => ?_
  split
  · exact streaming_pure _
  · refine streaming_throw ?_
    rintro _ _ ⟨⟩

theorem streaming_base64Field (field : String) : (base64Field field).Streaming := by
  refine streaming_varBytes.bind fun bs => ?_
  split
  · exact streaming_pure _
  · refine streaming_throw ?_
    rintro _ _ ⟨⟩

/-- Streaming passes to loops, by induction on the count. -/
theorem Streaming.many {item : Decoder α} (h : item.Streaming) (count : Nat) :
    (many count item).Streaming := by
  induction count with
  | zero => exact streaming_pure []
  | succ count ih => exact h.bind fun _ => ih.bind fun _ => streaming_pure _

theorem Streaming.counted {item : Decoder α} (h : item.Streaming) : (counted item).Streaming :=
  streaming_compactSize.bind h.many

theorem Streaming.onlyIf {d : Decoder α} (h : d.Streaming) (condition : Bool) :
    (onlyIf condition d).Streaming := by
  unfold Decoder.onlyIf
  split
  · exact h.map some
  · exact streaming_pure none

/-! ## Whole payloads -/

/-- The front of the payload that a decoder has read when it ends. -/
def consumed (d : Decoder α) (payload : Bytes) : Bytes :=
  match d.run (Cursor.start payload) with
  | .ok _ after => payload.take after.offset
  | .error _ after => payload.take after.offset

/-- **How decoding a payload and decoding a longer one agree.** -/
structure PrefixStable (d : Decoder α) : Prop where
  /-- A record stays what it is. -/
  ok : ∀ p t r, d.decode p = .ok r → d.decode (p ++ t) = .ok r
  /-- So does a cause, unless bytes were missing. -/
  error : ∀ p t e, d.decode p = .error e → (∀ offset missing, e ≠ .unexpectedEnd offset missing) →
    d.decode (p ++ t) = .error e
  /-- If bytes were missing, fewer are missing now. -/
  short : ∀ p offset missing, d.decode p = .error (.unexpectedEnd offset missing) →
    offset ≤ p.length ∧ 1 ≤ missing ∧ ∀ t : Bytes, t.length < missing →
      d.decode (p ++ t) = .error (.unexpectedEnd offset (missing - t.length))
  /-- Part of what makes a record is too short for one. -/
  truncated : ∀ p r q, d.decode p = .ok r → q <+: d.consumed p → q ≠ d.consumed p →
    ∃ offset missing, d.decode q = .error (.unexpectedEnd offset missing)

theorem decode_eq_ok_iff {d : Decoder α} {p : Bytes} {r : α} :
    d.decode p = .ok r ↔ ∃ after, d.run (Cursor.start p) = .ok r after := by
  unfold decode
  cases d.run (Cursor.start p) with
  | ok v after => simp
  | error e after => simp

theorem decode_eq_error_iff {d : Decoder α} {p : Bytes} {e : PayloadError} :
    d.decode p = .error e ↔ ∃ after, d.run (Cursor.start p) = .error e after := by
  unfold decode
  cases d.run (Cursor.start p) with
  | ok v after => simp
  | error e after => simp

theorem consumed_eq_of_run {d : Decoder α} {p : Bytes} {r : α} {after : Cursor}
    (h : d.run (Cursor.start p) = .ok r after) : d.consumed p = p.take after.offset := by
  rw [consumed, h]

theorem length_consumed_le (d : Decoder α) (p : Bytes) : (d.consumed p).length ≤ p.length := by
  unfold consumed
  split <;> exact List.length_take_le' _ _

theorem exists_eq_consumed_append (d : Decoder α) (p : Bytes) : ∃ rest, p = d.consumed p ++ rest := by
  unfold consumed
  split <;> exact ⟨_, (List.take_append_drop _ p).symm⟩

theorem decode_map_eq_ok_iff {d : Decoder α} {f : α → β} {p : Bytes} {v : β} :
    (f <$> d).decode p = .ok v ↔ ∃ a, d.decode p = .ok a ∧ f a = v := by
  simp only [decode_eq_ok_iff, run_map_eq_ok_iff]
  constructor
  · rintro ⟨after, a, hrun, hv⟩
    exact ⟨a, ⟨after, hrun⟩, hv⟩
  · rintro ⟨a, ⟨after, hrun⟩, hv⟩
    exact ⟨after, a, hrun, hv⟩

/-- Giving a value a meaning reads no bytes. -/
theorem consumed_map (d : Decoder α) (f : α → β) (p : Bytes) :
    (f <$> d).consumed p = d.consumed p := by
  unfold consumed
  rw [map_eq_pure_bind, EStateM.run_bind]
  cases d.run (Cursor.start p) with
  | ok v after => rfl
  | error e after => rfl

/-- The step lemmas of a streaming decoder, from the start of a payload on, are the stability of its
results under bytes added behind. -/
theorem Streaming.prefixStable {d : Decoder α} (h : d.Streaming) : d.PrefixStable where
  ok p t r hp := by
    obtain ⟨after, hrun⟩ := decode_eq_ok_iff.mp hp
    exact decode_eq_ok_iff.mpr ⟨_, (h.ok hrun).2 t⟩
  error p t e hp he := by
    obtain ⟨after, hrun⟩ := decode_eq_error_iff.mp hp
    have hfinal : e.IsFinal := he
    have hext := (h.error hrun).2.2 t (hfinal.outlasts t)
    rw [hfinal.extend t] at hext
    exact decode_eq_error_iff.mpr ⟨_, hext⟩
  short p offset missing hp := by
    obtain ⟨after, hrun⟩ := decode_eq_error_iff.mp hp
    obtain ⟨hreach, ⟨rfl, hmissing⟩, hext⟩ := h.error hrun
    have hend := hreach.end_eq
    simp only [Cursor.start] at hend
    refine ⟨by omega, hmissing, fun t ht => ?_⟩
    exact decode_eq_error_iff.mpr ⟨_, hext t ht⟩
  truncated p r q hp hq hne := by
    obtain ⟨after, hrun⟩ := decode_eq_ok_iff.mp hp
    rw [consumed_eq_of_run hrun] at hq hne
    obtain ⟨t, ht⟩ := hq.trans (List.take_prefix _ _)
    have hlt : q.length < after.offset := by
      have hle := hq.length_le
      have hne' : q.length ≠ (p.take after.offset).length := fun hlen => hne (hq.eq_of_length hlen)
      rw [List.length_take] at hle hne'
      omega
    rw [← ht] at hrun
    cases hread : d.run (Cursor.start q) with
    | ok v between =>
      -- A decoder that needs no more than `q` does not read past it in the longer payload.
      obtain ⟨hreach, hext⟩ := h.ok hread
      have hsame := (hext t).symm.trans hrun
      cases hsame
      have hend := hreach.end_eq
      simp only [Cursor.start, Cursor.extend] at hend hlt
      omega
    | error e between =>
      obtain ⟨-, -, hext⟩ := h.error hread
      cases e with
      | unexpectedEnd offset missing =>
        exact ⟨offset, missing, decode_eq_error_iff.mpr ⟨between, hread⟩⟩
      | _ => exact absurd ((hext t trivial).symm.trans hrun) (by rintro ⟨⟩)

end Decoder

end UtxoAssets
