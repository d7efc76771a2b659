import CydMonitor.Codec.ControlBody

/-!
# The envelope loops side by side

Away from the body key the two loops take the same step. The device's decoded
frame is a view of the Host's locals over what the body stored (`d₀`).
-/

namespace CydMonitor.Codec

open Cbor Scan

/-- The envelope the device has stored when the Host's locals are `s`. -/
def headerView (s : Rust.EnvelopeFields) (d₀ : Cpp.Decoded) : Cpp.Decoded :=
  { d₀ with
    envelope := { d₀.envelope with
      version := { major := 1, minor := s.minor.getD 0 },
      type := s.kind.getD Cpp.MessageType.kHello, session := s.session.getD (Octets.zero 16),
      sequence := s.sequence.getD 0, utcMs := s.utcMs, utcUncertaintyMs := s.uncertainty,
      localOffsetMinutes := s.offset } }

/-- Whether a known key was read. -/
def hasKey (s : Rust.EnvelopeFields) : ℕ → Bool
  | 0 => s.major.isSome
  | 1 => s.minor.isSome
  | 2 => s.kind.isSome
  | 3 => s.session.isSome
  | 4 => s.sequence.isSome
  | 5 => s.body.isSome
  | 6 => s.utcMs.isSome
  | 7 => s.uncertainty.isSome
  | 8 => s.offset.isSome
  | _ => false

structure EnvelopeMatch (d₀ : Cpp.Decoded) (s : Rust.EnvelopeFields) (t : Cpp.DecodeState) :
    Prop where
  index : t.index = 0 ↔ s.previous = none
  previous : ∀ old ∈ s.previous, t.previousKey = old
  got : t.got = hasKey s
  below : ∀ k, hasKey s k → ∃ old ∈ s.previous, k ≤ old
  view : t.d = headerView s d₀

theorem EnvelopeMatch.init : EnvelopeMatch {} {} {} where
  index := by simp
  previous := by simp
  got := by
    funext k
    unfold hasKey
    split <;> rfl
  below k h := by
    unfold hasKey at h
    split at h <;> simp at h
  view := rfl

theorem EnvelopeMatch.order {d₀ : Cpp.Decoded} {s : Rust.EnvelopeFields} {t : Cpp.DecodeState}
    (h : EnvelopeMatch d₀ s t) (key : ℕ) :
    (∀ old ∈ s.previous, old < key) ↔ ¬(t.index ≠ 0 ∧ key ≤ t.previousKey) := by
  cases hp : s.previous with
  | none => simp [h.index.mpr hp]
  | some old =>
    have hi : t.index ≠ 0 := fun h0 => by simp [h.index.mp h0] at hp
    simp [hi, h.previous old (by simp [hp])]

/-- A Host error against the device's error of the same name. -/
def SameError (e : Rust.Error) (e' : Cpp.Error) : Prop := e' = ofError e

/-- What the value of key `k` changes. -/
structure Stored (d₀ : Cpp.Decoded) (s : Rust.EnvelopeFields) (k : ℕ)
    (s' : Rust.EnvelopeFields) (d' : Cpp.Decoded) : Prop where
  previous : s'.previous = s.previous
  kind : k ≠ 2 → s'.kind = s.kind
  body : s'.body = s.body
  keys : hasKey s' = Function.update (hasKey s) k true
  view : d' = headerView s' d₀

theorem alike_number {α β : Type} {R : α → β → Prop} {f : ℕ → Scan UInt8 Rust.Error α}
    {g : ℕ → Scan UInt8 Cpp.Error β}
    (h : ∀ v, Alike Cpp.kMaxFrameBytes SameError R (f v) (g v)) (m : ℕ) :
    Alike Cpp.kMaxFrameBytes SameError R (Rust.expectUint m >>= f)
      ((Cpp.readUInt m).orFail .kMalformed >>= g) := by
  unfold Rust.expectUint
  rw [readUint_eq, readUInt_eq]
  have hread : Alike Cpp.kMaxFrameBytes SameError Eq
      ((scanHead m).orFail Rust.Error.malformed) ((scanHead m).orFail Cpp.Error.kMalformed) :=
    (Alike.of_local (F := fun _ _ => True) (local_scanHead m) fun _ => trivial).orFail rfl
  refine hread.bind fun v _ hv => ?_
  subst hv
  exact h v

private theorem keys_update {s s' : Rust.EnvelopeFields} {k : ℕ} (hk : hasKey s' k = true)
    (h : ∀ j, j ≠ k → hasKey s' j = hasKey s j) :
    hasKey s' = Function.update (hasKey s) k true := by
  funext j
  by_cases hj : j = k
  · subst hj
    simpa using hk
  · rw [Function.update_of_ne hj, h j hj]

/-- Past the major version, the device's checks on a number are one check. -/
private theorem numberValue_eq (d : Cpp.Decoded) {k : ℕ} (h0 : k ≠ 0) :
    Cpp.numberValue d k = ((Cpp.readUInt 0).orFail .kMalformed >>= fun v =>
      ensure (¬((k = 0 ∨ k = 1 ∨ k = 2) ∧ v > 0xff) ∧ ¬(k = 4 ∧ v > 2 ^ 32 - 1) ∧
        ¬(k = 7 ∧ v > 2 ^ 32 - 1) ∧ ¬(k = 8 ∧ v > 2880)) .kMalformed >>= fun _ =>
      pure { d with envelope := Cpp.envelopeField d.envelope k v }) := by
  unfold Cpp.numberValue
  congr 1
  funext v
  have hmajor : ¬(k = 0 ∧ v ≠ 1) := by omega
  rw [ensure_true hmajor]
  simp only [Scan.pure_bind, ensure_ensure]

/-- A number the Host keeps exactly when the device's check lets it pass. -/
private theorem alike_numberValue {d₀ : Cpp.Decoded} {s : Rust.EnvelopeFields} {k : ℕ}
    {keep : ℕ → Scan UInt8 Rust.Error Rust.EnvelopeFields} {c : ℕ → Prop} [DecidablePred c]
    {store : ℕ → Rust.EnvelopeFields} (h0 : k ≠ 0)
    (hc : ∀ v, c v ↔ (k = 1 ∨ k = 2 → v ≤ 0xff) ∧ (k = 4 ∨ k = 7 → v ≤ 2 ^ 32 - 1) ∧
      (k = 8 → v ≤ 2880))
    (hkeep : ∀ v, keep v = (ensure (c v) .malformed >>= fun _ => pure (store v)))
    (hstore : ∀ v, c v → Stored d₀ s k (store v)
      { headerView s d₀ with
        envelope := Cpp.envelopeField (headerView s d₀).envelope k v }) :
    Alike Cpp.kMaxFrameBytes SameError (Stored d₀ s k) (Rust.expectUint 0 >>= keep)
      (Cpp.numberValue (headerView s d₀) k) := by
  rw [numberValue_eq _ h0]
  refine alike_number (fun v => ?_) 0
  rw [hkeep v]
  exact Alike.ensure_bind ((hc v).trans (by omega)) rfl fun hv => Alike.pure (hstore v hv)

private theorem byte_keep {α : Type} (v : ℕ) (f : UInt8 → α) :
    (lift (Rust.byte v) >>= fun b => pure (f b) : Scan UInt8 Rust.Error α) =
      (ensure (v ≤ 0xff) .malformed >>= fun _ => pure (f (UInt8.ofNat v))) := by
  unfold Rust.byte
  by_cases h : v ≤ 255
  · rw [if_pos h, ensure_true h]
    rfl
  · rw [if_neg h, ensure_false h]
    rfl

private theorem word_keep {α : Type} (v : ℕ) (f : UInt32 → α) :
    (lift (Rust.word v) >>= fun w => pure (f w) : Scan UInt8 Rust.Error α) =
      (ensure (v ≤ 2 ^ 32 - 1) .malformed >>= fun _ => pure (f (UInt32.ofNat v))) := by
  unfold Rust.word
  by_cases h : v ≤ 2 ^ 32 - 1
  · rw [if_pos h, ensure_true h]
    rfl
  · rw [if_neg h, ensure_false h]
    rfl

/-- Storing one more known key. -/
private theorem Stored.intro {d₀ : Cpp.Decoded} {s s' : Rust.EnvelopeFields} {k : ℕ}
    {d' : Cpp.Decoded} (hp : s'.previous = s.previous) (ht : k ≠ 2 → s'.kind = s.kind)
    (hb : s'.body = s.body) (hk : hasKey s' k = true)
    (hj : ∀ j, j ≠ k → hasKey s' j = hasKey s j) (hd : d' = headerView s' d₀) :
    Stored d₀ s k s' d' :=
  ⟨hp, ht, hb, keys_update hk hj, hd⟩

/-- The session identity is the one byte string of the envelope. -/
private theorem alike_session (s : Rust.EnvelopeFields) (d₀ : Cpp.Decoded) :
    Alike Cpp.kMaxFrameBytes SameError (Stored d₀ s 3) (Rust.envelopeValue s 3)
      (Cpp.sessionValue (headerView s d₀)) := by
  unfold Rust.envelopeValue Rust.bytes Cpp.sessionValue
  rw [bind_assoc]
  refine alike_number (fun n => ?_) 2
  rw [bind_assoc, ensure_ensure]
  have hlen : n = 16 ↔ n ≤ Cpp.kMaxFrameBytes ∧ n = Cpp.kSessionIdBytes := by
    simp only [Cpp.kMaxFrameBytes, Cpp.kSessionIdBytes]
    omega
  refine Alike.ensure_bind hlen rfl fun _ =>
    (alike_octets 16 (E := SameError) rfl).bind fun b _ hb => ?_
  subst hb
  refine Alike.pure (Stored.intro rfl (fun _ => rfl) rfl rfl (fun j hj => ?_) rfl)
  unfold hasKey
  split <;> first | rfl | contradiction

/-- The major version is 1, on both sides a check of its own. -/
private theorem alike_major (s : Rust.EnvelopeFields) (d₀ : Cpp.Decoded) :
    Alike Cpp.kMaxFrameBytes SameError (Stored d₀ s 0) (Rust.envelopeValue s 0)
      (Cpp.numberValue (headerView s d₀) 0) := by
  refine alike_number (fun v => ?_) 0
  by_cases h1 : v = 1
  · subst h1
    refine Alike.pure (Stored.intro rfl (fun _ => rfl) rfl rfl (fun j hj => ?_) rfl)
    unfold hasKey
    split <;> first | rfl | contradiction
  by_cases h255 : v ≤ 255
  · have hbyte : UInt8.ofNat v ≠ 1 := by
      rw [Ne, ← UInt8.toNat_inj, UInt8.toNat_ofNat', Nat.mod_eq_of_lt (by omega)]
      exact h1
    unfold Rust.byte
    rw [if_pos h255, lift_ok, Scan.pure_bind, ensure_false hbyte, ensure_true (by omega),
      Scan.pure_bind, ensure_false (by omega)]
    exact Alike.fail rfl
  · unfold Rust.byte
    rw [if_neg h255, ensure_false (by omega)]
    exact Alike.fail rfl

theorem alike_value (s : Rust.EnvelopeFields) (d₀ : Cpp.Decoded) {k : ℕ} (hk : k ≤ 8)
    (h5 : k ≠ 5) :
    Alike Cpp.kMaxFrameBytes SameError (Stored d₀ s k) (Rust.envelopeValue s k)
      (if k = 3 then Cpp.sessionValue (headerView s d₀)
        else if k = 5 then Cpp.body (headerView s d₀)
        else Cpp.numberValue (headerView s d₀) k) := by
  rcases (by omega : k = 0 ∨ k = 1 ∨ k = 2 ∨ k = 3 ∨ k = 4 ∨ k = 6 ∨ k = 7 ∨ k = 8) with
    rfl | rfl | rfl | rfl | rfl | rfl | rfl | rfl
  · exact alike_major s d₀
  · refine alike_numberValue (by omega) (c := (· ≤ 0xff)) (fun v => by omega)
      (fun v => byte_keep v _) fun v _ =>
        Stored.intro rfl (fun _ => rfl) rfl rfl (fun j hj => ?_) rfl
    unfold hasKey
    split <;> first | rfl | contradiction
  · refine alike_numberValue (by omega) (c := (· ≤ 0xff)) (fun v => by omega)
      (fun v => byte_keep v _) fun v _ => Stored.intro rfl (absurd rfl) rfl rfl (fun j hj => ?_) rfl
    unfold hasKey
    split <;> first | rfl | contradiction
  · exact alike_session s d₀
  · refine alike_numberValue (by omega) (c := (· ≤ 2 ^ 32 - 1)) (fun v => by omega)
      (fun v => word_keep v _) fun v _ =>
        Stored.intro rfl (fun _ => rfl) rfl rfl (fun j hj => ?_) rfl
    unfold hasKey
    split <;> first | rfl | contradiction
  · have hkeep (v : ℕ) : (pure { s with utcMs := some (UInt64.ofNat v) } :
        Scan UInt8 Rust.Error _) = (ensure True .malformed >>= fun _ => pure _) := rfl
    refine alike_numberValue (by omega) (fun v => by simp) hkeep fun v _ =>
      Stored.intro rfl (fun _ => rfl) rfl rfl (fun j hj => ?_) rfl
    unfold hasKey
    split <;> first | rfl | contradiction
  · refine alike_numberValue (by omega) (c := (· ≤ 2 ^ 32 - 1)) (fun v => by omega)
      (fun v => word_keep v _) fun v _ =>
        Stored.intro rfl (fun _ => rfl) rfl rfl (fun j hj => ?_) rfl
    unfold hasKey
    split <;> first | rfl | contradiction
  · refine alike_numberValue (by omega) (c := (· ≤ 2880)) (fun v => by omega)
      (fun v => rfl) fun v _ => Stored.intro rfl (fun _ => rfl) rfl rfl (fun j hj => ?_) rfl
    unfold hasKey
    split <;> first | rfl | contradiction

/-- The device's round once the key is read and in order. -/
def storeKey (t : Cpp.DecodeState) (k : ℕ) : Scan UInt8 Cpp.Error Cpp.DecodeState :=
  if k > 8 then do
    (Cpp.skip 4).orFail .kMalformed
    pure { t with index := t.index + 1, previousKey := k }
  else
    ensure (t.got k = false) .kMalformed >>= fun _ =>
      (if k = 3 then Cpp.sessionValue t.d else if k = 5 then Cpp.body t.d
        else Cpp.numberValue t.d k) >>= fun d =>
      pure { index := t.index + 1, previousKey := k, got := Function.update t.got k true, d := d }

theorem envelopeEntry_eq (t : Cpp.DecodeState) :
    Cpp.envelopeEntry t = ((Cpp.readUInt 0).orFail .kMalformed >>= fun k =>
      ensure (¬(t.index ≠ 0 ∧ k ≤ t.previousKey)) .kMalformed >>= fun _ => storeKey t k) := by
  unfold Cpp.envelopeEntry storeKey
  congr 1
  funext k
  congr 1
  funext _
  by_cases h3 : k = 3
  · subst h3
    rfl
  by_cases h5 : k = 5
  · subst h5
    rfl
  simp only [h3, h5, if_false]

/-- Both loops after a round that read key `k`. -/
structure Advanced (d₀ : Cpp.Decoded) (s : Rust.EnvelopeFields) (k : ℕ)
    (s' : Rust.EnvelopeFields) (t' : Cpp.DecodeState) : Prop where
  matched : EnvelopeMatch d₀ s' t'
  previous : s'.previous = some k
  kind : k ≠ 2 → s'.kind = s.kind
  body : s'.body = s.body

theorem EnvelopeMatch.fresh {d₀ : Cpp.Decoded} {s : Rust.EnvelopeFields} {t : Cpp.DecodeState}
    (h : EnvelopeMatch d₀ s t) {k : ℕ} (hk : ∀ old ∈ s.previous, old < k) : t.got k = false := by
  rw [h.got]
  by_contra hgot
  obtain ⟨old, hold, hle⟩ := h.below k (by simpa using hgot)
  exact absurd (hk old hold) (by omega)

theorem alike_storeKey {d₀ : Cpp.Decoded} {s : Rust.EnvelopeFields} {t : Cpp.DecodeState}
    (h : EnvelopeMatch d₀ s t) {k : ℕ} (h5 : k ≠ 5) (hk : ∀ old ∈ s.previous, old < k) :
    Alike Cpp.kMaxFrameBytes SameError (Advanced d₀ s k)
      (Rust.envelopeValue { s with previous := some k } k) (storeKey t k) := by
  unfold storeKey
  by_cases h8 : k > 8
  · obtain ⟨j, rfl⟩ : ∃ j, k = j + 9 := ⟨k - 9, by omega⟩
    rw [if_pos h8]
    have hskip : Alike Cpp.kMaxFrameBytes SameError (fun _ _ => True) (Rust.skipValue 4)
        ((Cpp.skip 4).orFail .kMalformed) :=
      (alike_skip 4).orFail_right (failsOnly_skipValue 4) rfl
    refine hskip.bind fun _ _ _ => Alike.pure ⟨⟨?_, ?_, ?_, ?_, h.view⟩, rfl, fun _ => rfl, rfl⟩
    · simp
    · simp
    · exact h.got
    · intro i hi
      obtain ⟨old, hold, hle⟩ := h.below i hi
      have := hk old hold
      exact ⟨j + 9, rfl, by omega⟩
  · rw [if_neg h8, ensure_true (h.fresh hk), Scan.pure_bind, h.view]
    refine (alike_value { s with previous := some k } d₀ (by omega) h5).map_right
      fun s' d' hs => ⟨⟨?_, ?_, ?_, ?_, hs.view⟩, hs.previous, hs.kind, hs.body⟩
    · simp [hs.previous]
    · simp [hs.previous]
    · change Function.update t.got k true = hasKey s'
      rw [hs.keys, h.got]
      rfl
    · intro j hj
      rw [hs.keys] at hj
      refine ⟨k, hs.previous, ?_⟩
      by_cases hjk : j = k
      · exact hjk.le
      · rw [Function.update_of_ne hjk] at hj
        obtain ⟨old, hold, hle⟩ := h.below j hj
        have := hk old hold
        omega

end CydMonitor.Codec
