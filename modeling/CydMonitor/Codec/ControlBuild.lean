import CydMonitor.Codec.ControlFields

/-!
# Building a control body agrees

With the ranges of its fields known, the Host builds a body exactly when the
device stores one, and from the same values.
-/

namespace CydMonitor.Codec

open Cbor Scan

theorem byte_of_le {v : ℕ} (h : v ≤ 255) : Rust.byte v = .ok (UInt8.ofNat v) := if_pos h

theorem word_of_le {v : ℕ} (h : v ≤ 2 ^ 32 - 1) : Rust.word v = .ok (UInt32.ofNat v) :=
  if_pos h

/-- Two pure ends that agree. -/
def EndsAlike (e : Cpp.Envelope) (x : Except Rust.Error Rust.ControlBody)
    (y : Except Unit Cpp.Envelope) : Prop :=
  (∃ b, x = .ok b ∧ y = .ok (withBody e b)) ∨ (x = .error .malformed ∧ y = .error ())

theorem EndsAlike.lift {e : Cpp.Envelope} {x : Except Rust.Error Rust.ControlBody}
    {y : Except Unit Cpp.Envelope} (h : EndsAlike e x y) :
    Alike Cpp.kMaxFrameBytes Malformed (fun b e' => e' = withBody e b)
      (lift x : Scan UInt8 Rust.Error _) (lift y) := by
  obtain ⟨b, rfl, rfl⟩ | ⟨rfl, rfl⟩ := h
  · exact Alike.pure rfl
  · exact Alike.fail rfl

/-- With the ranges checked, a Hello needs its first four fields only. -/
private theorem helloFrom_of_range {s : Rust.ControlFields}
    (hr : ∀ key v, s.fields key = some v → InRange .hello key v) :
    Rust.helloFrom s =
      if (s.fields 0).isSome ∧ (s.fields 1).isSome ∧ (s.fields 2).isSome ∧ (s.fields 3).isSome then
        .ok { supportedMajor := (s.fields 0).elim 1 UInt8.ofNat,
              supportedMinor := (s.fields 1).elim 0 UInt8.ofNat,
              capabilities := (s.fields 2).elim 0 UInt32.ofNat,
              configurationRevision := (s.fields 3).elim 0 UInt32.ofNat,
              utcMs := (s.fields 4).map UInt64.ofNat,
              utcUncertaintyMs := (s.fields 5).map UInt32.ofNat }
      else .error .malformed := by
  have hbyte (k v : ℕ) (hk : k < 2) (h : s.fields k = some v) :
      Rust.byte v = .ok (UInt8.ofNat v) := byte_of_le (by have := hr k v h; grind [InRange])
  have hword (k v : ℕ) (hk : k = 2 ∨ k = 3 ∨ k = 5) (h : s.fields k = some v) :
      Rust.word v = .ok (UInt32.ofNat v) := word_of_le (by have := hr k v h; grind [InRange])
  have hlast : Rust.optionalWord (s.fields 5) = .ok ((s.fields 5).map UInt32.ofNat) := by
    cases h5 : s.fields 5 with
    | none => rfl
    | some v => simp [Rust.optionalWord, hword 5 v (by omega) h5]
  simp only [Rust.helloFrom, hlast]
  cases h0 : s.fields 0 with
  | none => simp [Rust.required]
  | some v0 =>
  cases h1 : s.fields 1 with
  | none => simp [Rust.required, hbyte 0 v0 (by omega) h0]
  | some v1 =>
  cases h2 : s.fields 2 with
  | none => simp [Rust.required, hbyte 0 v0 (by omega) h0, hbyte 1 v1 (by omega) h1]
  | some v2 =>
  cases h3 : s.fields 3 with
  | none =>
    simp [Rust.required, hbyte 0 v0 (by omega) h0, hbyte 1 v1 (by omega) h1,
      hword 2 v2 (by omega) h2]
  | some v3 =>
    simp [Rust.required, hbyte 0 v0 (by omega) h0, hbyte 1 v1 (by omega) h1,
      hword 2 v2 (by omega) h2, hword 3 v3 (by omega) h3]

private theorem pairFrom_of_range {s : Rust.ControlFields}
    (hr : ∀ key v, s.fields key = some v → InRange .pair key v) :
    Rust.pairFrom s =
      if (s.identities 0).isSome ∧ (s.identities 1).isSome ∧ (s.fields 2).isSome then
        .ok { pairingIdentity := (s.identities 0).getD (Octets.zero 16),
              intendedPeerIdentity := (s.identities 1).getD (Octets.zero 16),
              matchingCode := (s.fields 2).elim 0 UInt32.ofNat }
      else .error .malformed := by
  simp only [Rust.pairFrom]
  cases h2 : s.fields 2 with
  | none => simp [Rust.required]
  | some v =>
    have hv : ¬(v < 100000 ∨ v > 999999) := hr 2 v h2
    have hcode : (100000 : UInt32) ≤ UInt32.ofNat v ∧ UInt32.ofNat v ≤ 999999 := by
      rw [UInt32.le_iff_toNat_le, UInt32.le_iff_toNat_le, UInt32.toNat_ofNat',
        Nat.mod_eq_of_lt (by omega)]
      exact ⟨by simpa using (not_or.mp hv).1, by simpa using (not_or.mp hv).2⟩
    cases s.identities 0 <;> cases s.identities 1 <;>
      simp [Rust.required, word_of_le (show v ≤ 2 ^ 32 - 1 by omega), Rust.check, hcode]

private theorem ofNat_le_two {v : ℕ} (h : v ≤ 255) : UInt8.ofNat v ≤ 2 ↔ v ≤ 2 := by
  rw [UInt8.le_iff_toNat_le, UInt8.toNat_ofNat', Nat.mod_eq_of_lt (by omega)]
  rfl

private theorem one_le_ofNat {v : ℕ} (h : v ≤ 255) : 1 ≤ UInt8.ofNat v ↔ 1 ≤ v := by
  rw [UInt8.le_iff_toNat_le, UInt8.toNat_ofNat', Nat.mod_eq_of_lt (by omega)]
  rfl

private theorem op_cases (v : ℕ) :
    (∃ o, Rust.op v = .ok o ∧ o.code = v ∧ 1 ≤ v ∧ v ≤ 2) ∨
      (Rust.op v = .error .malformed ∧ ¬(1 ≤ v ∧ v ≤ 2)) := by
  match v with
  | 0 => exact Or.inr ⟨rfl, by omega⟩
  | 1 => exact Or.inl ⟨_, rfl, rfl, by omega⟩
  | 2 => exact Or.inl ⟨_, rfl, rfl, by omega⟩
  | k + 3 => exact Or.inr ⟨rfl, by omega⟩

private theorem result_cases (v : ℕ) :
    (∃ o, Rust.result v = .ok o ∧ o.code = v ∧ v ≤ 2) ∨
      (Rust.result v = .error .malformed ∧ ¬v ≤ 2) := by
  match v with
  | 0 => exact Or.inl ⟨_, rfl, rfl, by omega⟩
  | 1 => exact Or.inl ⟨_, rfl, rfl, by omega⟩
  | 2 => exact Or.inl ⟨_, rfl, rfl, by omega⟩
  | k + 3 => exact Or.inr ⟨rfl, by omega⟩

private theorem command_end {e : Cpp.Envelope} {s : Rust.ControlFields} {t : Cpp.ControlState}
    (h : ControlMatch .command s t) :
    EndsAlike e (Rust.ControlBody.command <$> Rust.commandFrom s)
      (if !t.fields 0 || !t.fields 1 || !Cpp.validCommand t.command false then .error ()
        else .ok { e with command := some t.command }) := by
  have hid : s.identities = fun _ => none := h.identities (by simp)
  rw [h.fields, h.command (Or.inl rfl), hid]
  simp only [Rust.commandFrom, Option.isSome_none, Bool.or_false]
  cases h0 : s.fields 0 with
  | none => exact Or.inr ⟨rfl, by simp⟩
  | some v0 =>
  have hv0 : v0 ≤ 2 ^ 32 - 1 := by have := h.range 0 v0 h0; grind [InRange]
  cases h1 : s.fields 1 with
  | none => exact Or.inr ⟨by simp [Rust.required, word_of_le hv0], by simp⟩
  | some v1 =>
  have hv1 : v1 ≤ 255 := by have := h.range 1 v1 h1; grind [InRange]
  have hvalid : Cpp.validCommand (commandOf s.fields) false = decide (1 ≤ v1 ∧ v1 ≤ 2) := by
    simp only [Cpp.validCommand, commandOf, h1, h.noResult rfl, Option.elim_some,
      one_le_ofNat hv1, ofNat_le_two hv1, Bool.decide_and]
    simp
  rw [hvalid]
  obtain ⟨o, ho, hcode, hrange⟩ | ⟨ho, hrange⟩ := op_cases v1
  · refine Or.inl ⟨.command ⟨UInt32.ofNat v0, o⟩, by simp [Rust.required, word_of_le hv0, ho], ?_⟩
    simp [hrange, withBody, ofCommand, commandOf, h0, h1, h.noResult rfl, hcode]
  · refine Or.inr ⟨by simp [Rust.required, word_of_le hv0, ho], by simp [hrange]⟩

private theorem commandReply_end {e : Cpp.Envelope} {s : Rust.ControlFields}
    {t : Cpp.ControlState} (h : ControlMatch .commandReply s t) :
    EndsAlike e (Rust.ControlBody.commandReply <$> Rust.commandReplyFrom s)
      (if !t.fields 0 || !t.fields 1 || !t.fields 2 || !Cpp.validCommand t.command true then
          .error ()
        else .ok { e with command := some t.command }) := by
  have hid : s.identities = fun _ => none := h.identities (by simp)
  rw [h.fields, h.command (Or.inr rfl), hid]
  simp only [Rust.commandReplyFrom, Option.isSome_none, Bool.or_false]
  cases h0 : s.fields 0 with
  | none => exact Or.inr ⟨rfl, by simp⟩
  | some v0 =>
  have hv0 : v0 ≤ 2 ^ 32 - 1 := by have := h.range 0 v0 h0; grind [InRange]
  cases h1 : s.fields 1 with
  | none => exact Or.inr ⟨by simp [Rust.required, word_of_le hv0], by simp⟩
  | some v1 =>
  have hv1 : v1 ≤ 255 := by have := h.range 1 v1 h1; grind [InRange]
  cases h2 : s.fields 2 with
  | none =>
    refine Or.inr ⟨?_, by simp⟩
    obtain ⟨o, ho, -⟩ | ⟨ho, -⟩ := op_cases v1 <;> simp [Rust.required, word_of_le hv0, ho]
  | some v2 =>
  have hv2 : v2 ≤ 255 := by have := h.range 2 v2 h2; grind [InRange]
  have hvalid : Cpp.validCommand (commandOf s.fields) true =
      decide ((1 ≤ v1 ∧ v1 ≤ 2) ∧ v2 ≤ 2) := by
    simp only [Cpp.validCommand, commandOf, h1, h2, Option.elim_some, Option.map_some,
      Option.any_some, one_le_ofNat hv1, ofNat_le_two hv1, ofNat_le_two hv2, Bool.decide_and]
    simp
  rw [hvalid]
  obtain ⟨o, ho, hcode, hrange⟩ | ⟨ho, hrange⟩ := op_cases v1
  · obtain ⟨w, hw, hwcode, hwrange⟩ | ⟨hw, hwrange⟩ := result_cases v2
    · refine Or.inl ⟨.commandReply ⟨UInt32.ofNat v0, o, w⟩,
        by simp [Rust.required, word_of_le hv0, ho, hw], ?_⟩
      simp [hrange, hwrange, withBody, ofCommandReply, commandOf, h0, h1, h2, hcode, hwcode]
    · exact Or.inr ⟨by simp [Rust.required, word_of_le hv0, ho, hw], by simp [hwrange]⟩
  · exact Or.inr ⟨by simp [Rust.required, word_of_le hv0, ho], by simp [hrange]⟩

private theorem hello_end {e : Cpp.Envelope} {kind : Rust.MessageType} {s : Rust.ControlFields}
    {t : Cpp.ControlState} (h : ControlMatch kind s t) (hk : kind = .hello ∨ kind = .helloReply)
    {wrap : Rust.HelloBody → Rust.ControlBody}
    (hwrap : ∀ b, withBody e (wrap b) = { e with hello := some (ofHello b) }) :
    EndsAlike e (wrap <$> Rust.helloFrom s)
      (if !t.fields 0 || !t.fields 1 || !t.fields 2 || !t.fields 3 then .error ()
        else .ok { e with hello := some t.hello }) := by
  have hid : s.identities = fun _ => none := h.identities (by rintro rfl; simp at hk)
  have hrange : ∀ key v, s.fields key = some v → InRange .hello key v := by
    rcases hk with rfl | rfl <;> exact h.range
  rw [h.fields, h.hello hk, hid, helloFrom_of_range hrange]
  by_cases hall : (s.fields 0).isSome ∧ (s.fields 1).isSome ∧ (s.fields 2).isSome ∧
      (s.fields 3).isSome
  · rw [if_pos hall, if_neg (by simp [hall])]
    exact Or.inl ⟨_, rfl, by rw [hwrap]; rfl⟩
  · have hmissing (a b c d : Bool) : ¬(a ∧ b ∧ c ∧ d) → (!a || !b || !c || !d) = true := by
      cases a <;> cases b <;> cases c <;> cases d <;> simp
    simp only [Option.isSome_none, Bool.or_false]
    rw [if_neg hall, if_pos (hmissing _ _ _ _ hall)]
    exact Or.inr ⟨rfl, rfl⟩

private theorem pair_end {e : Cpp.Envelope} {s : Rust.ControlFields} {t : Cpp.ControlState}
    (h : ControlMatch .pair s t) :
    EndsAlike e (Rust.ControlBody.pair <$> Rust.pairFrom s)
      (if !t.fields 0 || !t.fields 1 || !t.fields 2 then .error ()
        else .ok { e with pair := some t.pair }) := by
  obtain ⟨⟨h0, h1⟩, h2⟩ := h.pairKeys rfl
  rw [h.fields, h.pair rfl, pairFrom_of_range h.range]
  by_cases hall : (s.identities 0).isSome ∧ (s.identities 1).isSome ∧ (s.fields 2).isSome
  · rw [if_pos hall, if_neg (by simp [hall])]
    exact Or.inl ⟨_, rfl, rfl⟩
  · have hmissing (a b c : Bool) : ¬(a ∧ b ∧ c) → (!a || !b || !c) = true := by
      cases a <;> cases b <;> cases c <;> simp
    simp only [h0, h1, h2 2 le_rfl, Option.isSome_none, Bool.or_false, Bool.false_or]
    rw [if_neg hall, if_pos (hmissing _ _ _ hall)]
    exact Or.inr ⟨rfl, rfl⟩

theorem controlEnd {e : Cpp.Envelope} {kind : Rust.MessageType} {known : ℕ}
    (hknown : Rust.knownMax kind = .ok known) (htype : e.type = typeOf kind)
    {s : Rust.ControlFields} {t : Cpp.ControlState} (h : ControlMatch kind s t) :
    EndsAlike e (Rust.controlFrom kind s) (Cpp.controlStore e t) := by
  unfold Cpp.controlStore
  cases kind with
  | hello =>
    have hc : e.type = .kHello ∨ e.type = .kHelloReply := Or.inl htype
    rw [if_pos hc]
    exact hello_end h (Or.inl rfl) fun _ => rfl
  | helloReply =>
    have hc : e.type = .kHello ∨ e.type = .kHelloReply := Or.inr htype
    rw [if_pos hc]
    exact hello_end h (Or.inr rfl) fun _ => rfl
  | pair =>
    have hc : ¬(e.type = .kHello ∨ e.type = .kHelloReply) := by rw [htype]; decide
    have hp : e.type = .kPair := htype
    rw [if_neg hc, if_pos hp]
    exact pair_end h
  | command =>
    have hc : ¬(e.type = .kHello ∨ e.type = .kHelloReply) := by rw [htype]; decide
    have hp : ¬e.type = .kPair := by rw [htype]; decide
    have hr : (e.type == .kCommandReply) = false := by rw [htype]; decide
    rw [if_neg hc, if_neg hp, hr, Bool.false_and, Bool.or_false]
    exact command_end h
  | commandReply =>
    have hc : ¬(e.type = .kHello ∨ e.type = .kHelloReply) := by rw [htype]; decide
    have hp : ¬e.type = .kPair := by rw [htype]; decide
    have hr : (e.type == .kCommandReply) = true := by rw [htype]; decide
    rw [if_neg hc, if_neg hp, hr, Bool.true_and]
    exact commandReply_end h
  | snapshot => cases hknown
  | error => cases hknown

theorem onlyError_check (c : Prop) [Decidable c] : OnlyError .malformed (Rust.check c) :=
  OnlyError.ite (OnlyError.ok _ _) (OnlyError.error _)

theorem onlyError_required {α : Type} (o : Option α) : OnlyError .malformed (Rust.required o) := by
  cases o
  · exact OnlyError.error _
  · exact OnlyError.ok _ _

theorem onlyError_byte (v : ℕ) : OnlyError .malformed (Rust.byte v) :=
  OnlyError.ite (OnlyError.ok _ _) (OnlyError.error _)

theorem onlyError_word (v : ℕ) : OnlyError .malformed (Rust.word v) :=
  OnlyError.ite (OnlyError.ok _ _) (OnlyError.error _)

private theorem onlyError_op (v : ℕ) : OnlyError .malformed (Rust.op v) := by
  obtain ⟨o, ho, -⟩ | ⟨ho, -⟩ := op_cases v
  · rw [ho]; exact OnlyError.ok _ _
  · rw [ho]; exact OnlyError.error _

private theorem onlyError_result (v : ℕ) : OnlyError .malformed (Rust.result v) := by
  obtain ⟨o, ho, -⟩ | ⟨ho, -⟩ := result_cases v
  · rw [ho]; exact OnlyError.ok _ _
  · rw [ho]; exact OnlyError.error _

private theorem onlyError_helloFrom (s : Rust.ControlFields) :
    OnlyError .malformed (Rust.helloFrom s) := by
  refine (onlyError_required _).bind fun _ => (onlyError_byte _).bind fun _ =>
    (onlyError_required _).bind fun _ => (onlyError_byte _).bind fun _ =>
    (onlyError_required _).bind fun _ => (onlyError_word _).bind fun _ =>
    (onlyError_required _).bind fun _ => (onlyError_word _).bind fun _ => ?_
  refine OnlyError.bind ?_ fun _ => OnlyError.ok _ _
  cases s.fields 5 with
  | none => exact OnlyError.ok _ _
  | some v => exact (onlyError_word v).map _

theorem onlyError_controlFrom (kind : Rust.MessageType) (s : Rust.ControlFields) :
    OnlyError .malformed (Rust.controlFrom kind s) := by
  cases kind with
  | hello => exact (onlyError_helloFrom s).map _
  | helloReply => exact (onlyError_helloFrom s).map _
  | pair =>
    exact ((onlyError_required _).bind fun _ => (onlyError_word _).bind fun _ =>
      (onlyError_check _).bind fun _ => (onlyError_required _).bind fun _ =>
      (onlyError_required _).bind fun _ => OnlyError.ok _ _).map _
  | command =>
    exact ((onlyError_required _).bind fun _ => (onlyError_word _).bind fun _ =>
      (onlyError_required _).bind fun _ => (onlyError_op _).bind fun _ => OnlyError.ok _ _).map _
  | commandReply =>
    exact ((onlyError_required _).bind fun _ => (onlyError_word _).bind fun _ =>
      (onlyError_required _).bind fun _ => (onlyError_op _).bind fun _ =>
      (onlyError_required _).bind fun _ => (onlyError_result _).bind fun _ =>
      OnlyError.ok _ _).map _
  | snapshot => exact OnlyError.error _
  | error => exact OnlyError.error _

theorem le_of_byte {v : ℕ} {b : UInt8} (h : Rust.byte v = .ok b) : v ≤ 255 := by
  unfold Rust.byte at h
  split_ifs at h with hv
  exact hv

theorem le_of_word {v : ℕ} {w : UInt32} (h : Rust.word v = .ok w) : v ≤ 2 ^ 32 - 1 := by
  unfold Rust.word at h
  split_ifs at h with hv
  exact hv

/-- A required field that a check accepted passes the check. -/
private theorem of_required {o : Option ℕ} {a v : ℕ} {P : ℕ → Prop}
    (h : Rust.required o = .ok a) (ha : P a) (hv : o = some v) : P v := by
  subst hv
  cases h
  exact ha

private theorem helloFrom_range {s : Rust.ControlFields} {b : Rust.HelloBody}
    (h : Rust.helloFrom s = .ok b) :
    ∀ key v, key ≤ 5 → s.fields key = some v → InRange .hello key v := by
  simp only [Rust.helloFrom, except_bind_eq_ok] at h
  obtain ⟨v0, h0, _, hb0, v1, h1, _, hb1, v2, h2, _, hw2, v3, h3, _, hw3, _, h5, -⟩ := h
  intro key v hkey hv
  have hcases : key = 0 ∨ key = 1 ∨ key = 2 ∨ key = 3 ∨ key = 4 ∨ key = 5 := by omega
  rcases hcases with rfl | rfl | rfl | rfl | rfl | rfl
  · exact of_required (P := fun v => InRange .hello 0 v) h0
      (by have := le_of_byte hb0; grind [InRange]) hv
  · exact of_required (P := fun v => InRange .hello 1 v) h1
      (by have := le_of_byte hb1; grind [InRange]) hv
  · exact of_required (P := fun v => InRange .hello 2 v) h2
      (by have := le_of_word hw2; grind [InRange]) hv
  · exact of_required (P := fun v => InRange .hello 3 v) h3
      (by have := le_of_word hw3; grind [InRange]) hv
  · grind [InRange]
  · rw [hv, Rust.optionalWord, except_map_eq_ok] at h5
    obtain ⟨_, hw5, -⟩ := h5
    have := le_of_word hw5
    grind [InRange]

private theorem pairFrom_range {s : Rust.ControlFields} {b : Rust.PairBody}
    (h : Rust.pairFrom s = .ok b) : ∀ v, s.fields 2 = some v → InRange .pair 2 v := by
  simp only [Rust.pairFrom, except_bind_eq_ok] at h
  obtain ⟨v2, h2, code, hcode, _, hcheck, -⟩ := h
  intro v hv
  refine of_required (P := fun v => InRange .pair 2 v) h2 ?_ hv
  have hle := le_of_word hcode
  rw [word_of_le hle] at hcode
  cases hcode
  unfold Rust.check at hcheck
  split_ifs at hcheck with hrange
  rw [UInt32.le_iff_toNat_le, UInt32.le_iff_toNat_le, UInt32.toNat_ofNat',
    Nat.mod_eq_of_lt (by omega)] at hrange
  have hlow : 100000 ≤ v2 := hrange.1
  have hhigh : v2 ≤ 999999 := hrange.2
  simp only [InRange]
  omega

private theorem op_le {v : ℕ} {o : Rust.CommandOperation} (h : Rust.op v = .ok o) : v ≤ 255 := by
  obtain ⟨_, -, -, -, hv⟩ | ⟨h', -⟩ := op_cases v
  · omega
  · rw [h'] at h; cases h

private theorem result_le {v : ℕ} {o : Rust.CommandResult} (h : Rust.result v = .ok o) :
    v ≤ 255 := by
  obtain ⟨_, -, -, hv⟩ | ⟨h', -⟩ := result_cases v
  · omega
  · rw [h'] at h; cases h

/-- A body that could be built has every field in range. -/
theorem controlFrom_range {kind : Rust.MessageType} {known : ℕ}
    (hknown : Rust.knownMax kind = .ok known) {s : Rust.ControlFields} {b : Rust.ControlBody}
    (hs : FieldsOk kind known s) (h : Rust.controlFrom kind s = .ok b) : AllInRange kind s := by
  intro key v hv
  obtain ⟨hle, hpair, -⟩ := hs key v hv
  cases kind with
  | hello =>
    cases hknown
    obtain ⟨a, ha, -⟩ := except_map_eq_ok.mp h
    exact helloFrom_range ha key v hle hv
  | helloReply =>
    cases hknown
    obtain ⟨a, ha, -⟩ := except_map_eq_ok.mp h
    exact helloFrom_range ha key v hle hv
  | pair =>
    cases hknown
    obtain ⟨a, ha, -⟩ := except_map_eq_ok.mp h
    obtain rfl : key = 2 := by have := hpair rfl; omega
    exact pairFrom_range ha v hv
  | command =>
    cases hknown
    obtain ⟨a, ha, -⟩ := except_map_eq_ok.mp h
    simp only [Rust.commandFrom, except_bind_eq_ok] at ha
    obtain ⟨v0, h0, _, hw, v1, h1, _, ho, -⟩ := ha
    have hcases : key = 0 ∨ key = 1 := by omega
    rcases hcases with rfl | rfl
    · exact of_required (P := fun v => InRange .command 0 v) h0
        (by have := le_of_word hw; grind [InRange]) hv
    · exact of_required (P := fun v => InRange .command 1 v) h1
        (by have := op_le ho; grind [InRange]) hv
  | commandReply =>
    cases hknown
    obtain ⟨a, ha, -⟩ := except_map_eq_ok.mp h
    simp only [Rust.commandReplyFrom, except_bind_eq_ok] at ha
    obtain ⟨v0, h0, _, hw, v1, h1, _, ho, v2, h2, _, hres, -⟩ := ha
    have hcases : key = 0 ∨ key = 1 ∨ key = 2 := by omega
    rcases hcases with rfl | rfl | rfl
    · exact of_required (P := fun v => InRange .commandReply 0 v) h0
        (by have := le_of_word hw; grind [InRange]) hv
    · exact of_required (P := fun v => InRange .commandReply 1 v) h1
        (by have := op_le ho; grind [InRange]) hv
    · exact of_required (P := fun v => InRange .commandReply 2 v) h2
        (by have := result_le hres; grind [InRange]) hv
  | snapshot => cases hknown
  | error => cases hknown

end CydMonitor.Codec
