import CydMonitor.Codec.SnapshotBody

/-!
# The fields of a control body agree

The Host checks the range of a field when it builds the body, the device when it
reads the field. Keys increase, so a bad value is never replaced and the Host may
as well check it at once (`strictEntry`); then the two loops run side by side.
-/

namespace CydMonitor.Codec

open Cbor Scan

/-- The range the device demands of a field's value. -/
def InRange : Rust.MessageType → ℕ → ℕ → Prop
  | .hello, key, v | .helloReply, key, v =>
    ¬((key < 2 ∧ v > 0xff) ∨ ((key = 2 ∨ key = 3) ∧ v > 2 ^ 32 - 1) ∨ (key = 5 ∧ v > 2 ^ 32 - 1))
  | .pair, _, v => ¬(v < 100000 ∨ v > 999999)
  | _, key, v => ¬((key = 0 ∧ v > 2 ^ 32 - 1) ∨ (key > 0 ∧ v > 0xff))

instance (kind : Rust.MessageType) (key v : ℕ) : Decidable (InRange kind key v) := by
  cases kind <;> (unfold InRange; infer_instance)

/-- The Host's loop body with the range check moved into it. -/
def strictEntry (kind : Rust.MessageType) (known : ℕ) (s : Rust.ControlFields) :
    Scan UInt8 Rust.Error Rust.ControlFields := do
  let key ← Rust.expectUint 0
  ensure (∀ old ∈ s.prior, old < key) .malformed
  if known < key then do
    Rust.skipValue 4
    pure { s with prior := some key }
  else if kind = .pair ∧ key < 2 then do
    let identity ← Rust.bytes 16
    pure { s with prior := some key,
                  identities := Function.update s.identities key (some identity) }
  else do
    let value ← Rust.expectUint 0
    ensure (InRange kind key value) .malformed
    pure { s with prior := some key, fields := Function.update s.fields key (some value) }

/-- Fields stand at keys that were read, and only at keys their type has. -/
def FieldsOk (kind : Rust.MessageType) (known : ℕ) (s : Rust.ControlFields) : Prop :=
  ∀ key v, s.fields key = some v →
    key ≤ known ∧ (kind = .pair → 2 ≤ key) ∧ ∃ old ∈ s.prior, key ≤ old

def AllInRange (kind : Rust.MessageType) (s : Rust.ControlFields) : Prop :=
  ∀ key v, s.fields key = some v → InRange kind key v

/-- What one round of the Host's loop does, in three cases. -/
theorem controlEntry_cases {kind : Rust.MessageType} {known : ℕ} {s s' : Rust.ControlFields}
    {l r : List UInt8} (h : Rust.controlEntry kind known s l = .ok (s', r)) :
    ∃ key m, Rust.expectUint 0 l = .ok (key, m) ∧ (∀ old ∈ s.prior, old < key) ∧
      ((known < key ∧ Rust.skipValue 4 m = .ok ((), r) ∧ s' = { s with prior := some key }) ∨
        (¬known < key ∧ (kind = .pair ∧ key < 2) ∧ ∃ x, Rust.bytes 16 m = .ok (x, r) ∧
          s' = { s with prior := some key,
                        identities := Function.update s.identities key (some x) }) ∨
        (¬known < key ∧ ¬(kind = .pair ∧ key < 2) ∧ ∃ v, Rust.expectUint 0 m = .ok (v, r) ∧
          s' = { s with prior := some key, fields := Function.update s.fields key (some v) })) := by
  obtain ⟨key, m, hkey, h₁⟩ := bind_eq_ok.mp h
  obtain ⟨hprior, h₂⟩ := ensure_bind_eq_ok.mp h₁
  refine ⟨key, m, hkey, hprior, ?_⟩
  split_ifs at h₂ with hknown hpair
  · obtain ⟨_, _, hskip, h₃⟩ := bind_eq_ok.mp h₂
    cases h₃
    exact Or.inl ⟨hknown, hskip, rfl⟩
  · obtain ⟨x, _, hx, h₃⟩ := bind_eq_ok.mp h₂
    cases h₃
    exact Or.inr (Or.inl ⟨hknown, hpair, x, hx, rfl⟩)
  · obtain ⟨v, _, hv, h₃⟩ := bind_eq_ok.mp h₂
    cases h₃
    exact Or.inr (Or.inr ⟨hknown, hpair, v, hv, rfl⟩)

theorem FieldsOk.step {kind : Rust.MessageType} {known : ℕ} {s s' : Rust.ControlFields}
    {l r : List UInt8} (hs : FieldsOk kind known s)
    (h : Rust.controlEntry kind known s l = .ok (s', r)) : FieldsOk kind known s' := by
  obtain ⟨key, m, -, hprior, hcase⟩ := controlEntry_cases h
  have keep (j v : ℕ) (hj : s.fields j = some v) :
      j ≤ known ∧ (kind = .pair → 2 ≤ j) ∧ ∃ old ∈ some key, j ≤ old := by
    obtain ⟨h₁, h₂, old, hold, hle⟩ := hs j v hj
    exact ⟨h₁, h₂, key, rfl, by have := hprior old hold; omega⟩
  obtain ⟨-, -, rfl⟩ | ⟨-, -, x, -, rfl⟩ | ⟨hknown, hpair, v, -, rfl⟩ := hcase
  · exact keep
  · exact keep
  · intro j w hj
    by_cases hjk : j = key
    · subst hjk
      exact ⟨by omega, fun hk => by by_contra; exact hpair ⟨hk, by omega⟩, j, rfl, le_refl _⟩
    · exact keep j w (by simpa [Function.update_of_ne hjk] using hj)

/-- A violation stays: the key of a field is never read again. -/
theorem AllInRange.back {kind : Rust.MessageType} {known : ℕ} {s s' : Rust.ControlFields}
    {l r : List UInt8} (hs : FieldsOk kind known s)
    (h : Rust.controlEntry kind known s l = .ok (s', r)) (hs' : AllInRange kind s') :
    AllInRange kind s := by
  obtain ⟨key, m, -, hprior, hcase⟩ := controlEntry_cases h
  intro j v hj
  obtain ⟨-, -, rfl⟩ | ⟨-, -, x, -, rfl⟩ | ⟨-, -, w, -, rfl⟩ := hcase
  · exact hs' j v hj
  · exact hs' j v hj
  · obtain ⟨-, -, old, hold, hle⟩ := hs j v hj
    have := hprior old hold
    exact hs' j v (by simpa [Function.update_of_ne (show j ≠ key by omega)] using hj)

theorem strictEntry_of_inRange {kind : Rust.MessageType} {known : ℕ} {s s' : Rust.ControlFields}
    {l r : List UInt8} (h : Rust.controlEntry kind known s l = .ok (s', r))
    (hs' : AllInRange kind s') : strictEntry kind known s l = .ok (s', r) := by
  obtain ⟨key, m, hkey, hprior, hcase⟩ := controlEntry_cases h
  unfold strictEntry
  rw [bind_ok hkey, ensure_true hprior, pure_bind]
  obtain ⟨hknown, hskip, rfl⟩ | ⟨hknown, hpair, x, hx, rfl⟩ | ⟨hknown, hpair, v, hv, rfl⟩ := hcase
  · rw [if_pos hknown, bind_ok hskip]
    rfl
  · rw [if_neg hknown, if_pos hpair, bind_ok hx]
    rfl
  · have hr : InRange kind key v := hs' key v (by simp)
    rw [if_neg hknown, if_neg hpair, bind_ok hv, ensure_true hr]
    rfl

theorem controlEntry_of_strict {kind : Rust.MessageType} {known : ℕ} {s : Rust.ControlFields}
    {l : List UInt8} {x : Rust.ControlFields × List UInt8}
    (h : strictEntry kind known s l = .ok x) : Rust.controlEntry kind known s l = .ok x := by
  obtain ⟨s', r⟩ := x
  obtain ⟨key, m, hkey, h₁⟩ := bind_eq_ok.mp h
  obtain ⟨hprior, h₂⟩ := ensure_bind_eq_ok.mp h₁
  unfold Rust.controlEntry
  rw [bind_ok hkey, ensure_true hprior, pure_bind]
  split_ifs at h₂ ⊢
  · exact h₂
  · exact h₂
  · obtain ⟨v, m, hv, h₃⟩ := bind_eq_ok.mp h₂
    rw [bind_ok hv]
    exact (ensure_bind_eq_ok.mp h₃).2

def helloOf (fields : ℕ → Option ℕ) : Cpp.HelloBody :=
  { supportedMajor := (fields 0).elim 1 UInt8.ofNat,
    supportedMinor := (fields 1).elim 0 UInt8.ofNat,
    capabilityBits := (fields 2).elim 0 UInt32.ofNat,
    configurationRevision := (fields 3).elim 0 UInt32.ofNat,
    utcMs := (fields 4).map UInt64.ofNat, utcUncertaintyMs := (fields 5).map UInt32.ofNat }

def pairOf (s : Rust.ControlFields) : Cpp.PairBody :=
  { senderIdentity := (s.identities 0).getD (Octets.zero 16),
    intendedPeerIdentity := (s.identities 1).getD (Octets.zero 16),
    matchingCode := (s.fields 2).elim 0 UInt32.ofNat }

def commandOf (fields : ℕ → Option ℕ) : Cpp.CommandBody :=
  { commandIdentity := (fields 0).elim 0 UInt32.ofNat,
    operation := (fields 1).elim 0 UInt8.ofNat, result := (fields 2).map UInt8.ofNat }

theorem helloOf_update (fields : ℕ → Option ℕ) {key : ℕ} (h : key ≤ 5) (v : ℕ) :
    helloOf (Function.update fields key (some v)) = Cpp.helloField (helloOf fields) key v := by
  interval_cases key <;> simp [helloOf, Cpp.helloField]

theorem commandOf_update (fields : ℕ → Option ℕ) {key : ℕ} (h : key ≤ 2) (v : ℕ) :
    commandOf (Function.update fields key (some v)) =
      Cpp.commandField (commandOf fields) key v := by
  interval_cases key <;> simp [commandOf, Cpp.commandField]

/-- The device's locals for the Host's, for the bodies of one type. -/
structure ControlMatch (kind : Rust.MessageType) (s : Rust.ControlFields)
    (t : Cpp.ControlState) : Prop where
  index : t.index = 0 ↔ s.prior = none
  previous : ∀ old ∈ s.prior, t.previous = old
  fields : t.fields = fun k => (s.fields k).isSome || (s.identities k).isSome
  hello : kind = .hello ∨ kind = .helloReply → t.hello = helloOf s.fields
  pair : kind = .pair → t.pair = pairOf s
  command : kind = .command ∨ kind = .commandReply → t.command = commandOf s.fields
  identities : kind ≠ .pair → s.identities = fun _ => none
  noResult : kind = .command → s.fields 2 = none
  pairKeys : kind = .pair →
    (s.fields 0 = none ∧ s.fields 1 = none) ∧ ∀ k, 2 ≤ k → s.identities k = none
  range : AllInRange kind s

theorem ControlMatch.init (kind : Rust.MessageType) : ControlMatch kind {} {} where
  index := by simp
  previous := by simp
  fields := by simp
  hello _ := rfl
  pair _ := rfl
  command _ := rfl
  identities _ := rfl
  noResult _ := rfl
  pairKeys _ := ⟨⟨rfl, rfl⟩, fun _ _ => rfl⟩
  range := by simp [AllInRange]

theorem ControlMatch.order {kind : Rust.MessageType} {s : Rust.ControlFields}
    {t : Cpp.ControlState} (h : ControlMatch kind s t) (key : ℕ) :
    (∀ old ∈ s.prior, old < key) ↔ ¬(t.index ≠ 0 ∧ key ≤ t.previous) := by
  cases hp : s.prior with
  | none => simp [h.index.mpr hp]
  | some old =>
    have hi : t.index ≠ 0 := fun h0 => by simp [h.index.mp h0] at hp
    simp [hi, h.previous old (by simp [hp])]

private theorem isSome_update {α : Type} (f : ℕ → Option α) (k : ℕ) (a : α) (g : ℕ → Bool) :
    (fun j => (Function.update f k (some a) j).isSome || g j) =
      Function.update (fun j => (f j).isSome || g j) k true := by
  funext j
  by_cases h : j = k
  · subst h; simp
  · simp [Function.update_of_ne h]

/-- A number of a Hello, a Pair or a Command goes into the body of its type. -/
theorem ControlMatch.number {kind : Rust.MessageType} {s : Rust.ControlFields}
    {t t' : Cpp.ControlState} (h : ControlMatch kind s t) {key v : ℕ}
    (hindex : t'.index = t.index + 1) (hprevious : t'.previous = key)
    (hfields : t'.fields = Function.update t.fields key true)
    (hhello : kind = .hello ∨ kind = .helloReply →
      key ≤ 5 ∧ t'.hello = Cpp.helloField t.hello key v)
    (hpair : kind = .pair → key = 2 ∧ t'.pair = { t.pair with matchingCode := UInt32.ofNat v })
    (hcommand : kind = .command ∨ kind = .commandReply →
      key ≤ 2 ∧ t'.command = Cpp.commandField t.command key v)
    (hnoResult : kind = .command → key < 2) (hrange : InRange kind key v) :
    ControlMatch kind
      { s with prior := some key, fields := Function.update s.fields key (some v) } t' where
  index := by simp [hindex]
  previous := by simp [hprevious]
  fields := by rw [hfields, h.fields]; exact (isSome_update s.fields key v _).symm
  hello hk := by
    rw [(hhello hk).2, h.hello hk]
    exact (helloOf_update s.fields (hhello hk).1 v).symm
  pair hk := by
    obtain ⟨rfl, hp⟩ := hpair hk
    rw [hp, h.pair hk]
    simp [pairOf]
  command hk := by
    rw [(hcommand hk).2, h.command hk]
    exact (commandOf_update s.fields (hcommand hk).1 v).symm
  identities := h.identities
  noResult hk := by
    have := hnoResult hk
    simpa [Function.update_of_ne (show 2 ≠ key by omega)] using h.noResult hk
  pairKeys hk := by
    obtain ⟨rfl, -⟩ := hpair hk
    simpa using h.pairKeys hk
  range j w hj := by
    by_cases hjk : j = key
    · subst hjk
      simp only [Function.update_self, Option.some.injEq] at hj
      exact hj ▸ hrange
    · exact h.range j w (by simpa [Function.update_of_ne hjk] using hj)

theorem ControlMatch.skipped {kind : Rust.MessageType} {s : Rust.ControlFields}
    {t : Cpp.ControlState} (h : ControlMatch kind s t) (key : ℕ) :
    ControlMatch kind { s with prior := some key }
      { t with index := t.index + 1, previous := key } where
  index := by simp
  previous := by simp
  fields := h.fields
  hello := h.hello
  pair := h.pair
  command := h.command
  identities := h.identities
  noResult := h.noResult
  pairKeys := h.pairKeys
  range := h.range

theorem ControlMatch.identity {s : Rust.ControlFields} {t t' : Cpp.ControlState}
    (h : ControlMatch .pair s t) {key : ℕ} (hkey : key < 2) {x : Octets 16}
    (hindex : t'.index = t.index + 1)
    (hprevious : t'.previous = key) (hfields : t'.fields = Function.update t.fields key true)
    (hpair : t'.pair = pairOf { s with identities := Function.update s.identities key (some x) }) :
    ControlMatch .pair
      { s with prior := some key,
               identities := Function.update s.identities key (some x) } t' where
  index := by simp [hindex]
  previous := by simp [hprevious]
  fields := by
    rw [hfields, h.fields]
    simp only [Bool.or_comm (Option.isSome (s.fields _))]
    exact (isSome_update s.identities key x _).symm
  hello hk := by simp at hk
  pair _ := hpair
  command hk := by simp at hk
  identities hk := absurd rfl hk
  noResult hk := by simp at hk
  pairKeys _ := by
    refine ⟨(h.pairKeys rfl).1, fun k hk => ?_⟩
    simpa [Function.update_of_ne (show k ≠ key by omega)] using (h.pairKeys rfl).2 k hk
  range := h.range

/-- The wire value as the device's type. -/
abbrev typeOf (kind : Rust.MessageType) : Cpp.MessageType := UInt8.ofNat kind.code

theorem knownMax_typeOf {kind : Rust.MessageType} {known : ℕ}
    (h : Rust.knownMax kind = .ok known) : Cpp.knownMax (typeOf kind) = known := by
  cases kind <;> cases h <;> rfl

/-- A session or an identity: a byte string of 16 bytes. -/
theorem alike_bytes {α β : Type} {R : α → β → Prop} {f : Octets 16 → Scan UInt8 Rust.Error α}
    {g : Octets Cpp.kSessionIdBytes → Scan UInt8 Unit β}
    (h : ∀ x, Alike Cpp.kMaxFrameBytes Malformed R (f x) (g x)) :
    Alike Cpp.kMaxFrameBytes Malformed R (Rust.bytes 16 >>= f) (do
      let n ← Cpp.readUInt 2
      ensure (n ≤ Cpp.kMaxFrameBytes) ()
      ensure (n = Cpp.kSessionIdBytes) ()
      let x ← octets Cpp.kSessionIdBytes ()
      g x) := by
  unfold Rust.bytes
  rw [bind_assoc]
  refine (alike_uint 2).bind fun n _ hn => ?_
  subst hn
  rw [ensure_ensure, bind_assoc]
  have hiff : n = 16 ↔ n ≤ Cpp.kMaxFrameBytes ∧ n = Cpp.kSessionIdBytes := by
    simp only [Cpp.kMaxFrameBytes, Cpp.kSessionIdBytes]
    omega
  refine Alike.ensure_bind hiff rfl fun _ =>
    (alike_octets 16 (E := Malformed) rfl).bind fun x _ hx => ?_
  subst hx
  exact h x

theorem alike_strictEntry {kind : Rust.MessageType} {known : ℕ}
    (hknown : Rust.knownMax kind = .ok known) {s : Rust.ControlFields} {t : Cpp.ControlState}
    (h : ControlMatch kind s t) :
    Alike Cpp.kMaxFrameBytes Malformed (ControlMatch kind) (strictEntry kind known s)
      (Cpp.controlEntry (typeOf kind) t) := by
  refine (alike_uint 0).bind fun key _ hkey => ?_
  subst hkey
  refine Alike.ensure_bind (h.order key) rfl fun _ => ?_
  refine Alike.ite (by rw [knownMax_typeOf hknown]) (fun _ => ?_) fun hle => ?_
  · exact (alike_skip 4).bind fun _ _ _ => Alike.pure (h.skipped key)
  by_cases hpair : kind = .pair ∧ key < 2
  · obtain ⟨rfl, hlt⟩ := hpair
    rw [if_pos ⟨rfl, hlt⟩, if_pos ⟨rfl, by omega⟩]
    refine alike_bytes fun x => ?_
    have hkey : key = 0 ∨ key = 1 := by omega
    rcases hkey with rfl | rfl
    · exact Alike.pure (h.identity hlt rfl rfl rfl (by simp [pairOf, h.pair rfl]))
    · exact Alike.pure (h.identity hlt rfl rfl rfl (by simp [pairOf, h.pair rfl]))
  · have hpair' : ¬(typeOf kind = .kPair ∧ (key = 0 ∨ key = 1)) := by
      rintro ⟨hk, hkey⟩
      refine hpair ⟨?_, by omega⟩
      cases kind <;> first | rfl | exact absurd hk (by decide)
    rw [if_neg hpair, if_neg hpair']
    refine (alike_uint 0).bind fun v _ hv => ?_
    subst hv
    cases kind with
    | hello =>
      cases hknown
      refine Alike.ensure_bind Iff.rfl rfl fun hr => Alike.pure ?_
      exact h.number rfl rfl rfl (fun _ => ⟨by omega, rfl⟩) (by simp) (by simp) (by simp) hr
    | helloReply =>
      cases hknown
      refine Alike.ensure_bind Iff.rfl rfl fun hr => Alike.pure ?_
      exact h.number rfl rfl rfl (fun _ => ⟨by omega, rfl⟩) (by simp) (by simp) (by simp) hr
    | pair =>
      cases hknown
      have hkey : key = 2 := by
        by_contra
        exact hpair ⟨rfl, by omega⟩
      have hrange : InRange .pair key v ↔ ¬(key ≠ 2 ∨ v < 100000 ∨ v > 999999) := by
        simp [InRange, hkey]
      refine Alike.ensure_bind hrange rfl fun hr => Alike.pure ?_
      exact h.number rfl rfl rfl (by simp) (fun _ => ⟨hkey, rfl⟩) (by simp) (by simp) hr
    | command =>
      cases hknown
      have hrange : InRange .command key v ↔
          ¬(key > 1 ∨ (key = 0 ∧ v > 2 ^ 32 - 1) ∨ (key > 0 ∧ v > 0xff)) := by
        simp only [InRange]
        omega
      refine Alike.ensure_bind hrange rfl fun hr => Alike.pure ?_
      exact h.number rfl rfl rfl (by simp) (by simp) (fun _ => ⟨by omega, rfl⟩)
        (fun _ => by omega) hr
    | commandReply =>
      cases hknown
      have hrange : InRange .commandReply key v ↔
          ¬(key > 2 ∨ (key = 0 ∧ v > 2 ^ 32 - 1) ∨ (key > 0 ∧ v > 0xff)) := by
        simp only [InRange]
        omega
      refine Alike.ensure_bind hrange rfl fun hr => Alike.pure ?_
      exact h.number rfl rfl rfl (by simp) (by simp) (fun _ => ⟨by omega, rfl⟩) (by simp) hr
    | snapshot => cases hknown
    | error => cases hknown

end CydMonitor.Codec
