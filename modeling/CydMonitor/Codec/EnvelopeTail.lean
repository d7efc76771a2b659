import CydMonitor.Codec.Envelope

/-!
# After the body

Past the body's key the two loops agree, and every error they report is the
malformed one. What follows the loops agrees too when the body does.
-/

namespace CydMonitor.Codec

open Cbor Scan

/-- The Host's `decode` once `parse_envelope` is done. -/
def finish (x : Rust.Envelope × List UInt8) : Except Rust.Error Rust.Message :=
  if x.1.kind = .snapshot then do
    let cpu ← Rust.decodeCpuBody x.2
    pure (.snapshot x.1 cpu)
  else do
    let control ← Rust.decodeControlBody x.1.kind x.2
    pure (.control x.1 control)

/-- The Host from the state `s` of its envelope loop, `n` rounds before the end. -/
def hostRest (n : ℕ) (s : Rust.EnvelopeFields) : Scan UInt8 Rust.Error Rust.Message := do
  let s ← loop Rust.envelopeEntry n s
  atEnd .malformed
  lift (Rust.envelopeFrom s >>= finish)

/-- The device from the state `t` of its envelope loop, `n` rounds before the end. -/
def deviceRest (n : ℕ) (t : Cpp.DecodeState) : Scan UInt8 Cpp.Error Cpp.Decoded := do
  let t ← loop Cpp.envelopeEntry n t
  atEnd .kMalformed
  lift (Cpp.accept t)

/-- Both loops past the body's key, where they were in `s₀` when they passed it. -/
structure Past (d₀ : Cpp.Decoded) (s₀ s : Rust.EnvelopeFields) (t : Cpp.DecodeState) : Prop where
  matched : EnvelopeMatch d₀ s t
  past : ∃ old ∈ s.previous, 5 ≤ old
  kind : s.kind = s₀.kind
  body : s.body = s₀.body

theorem alike_pastEntry {d₀ : Cpp.Decoded} {s₀ s : Rust.EnvelopeFields} {t : Cpp.DecodeState}
    (h : Past d₀ s₀ s t) :
    Alike Cpp.kMaxFrameBytes SameError (Past d₀ s₀) (Rust.envelopeEntry s)
      (Cpp.envelopeEntry t) := by
  rw [envelopeEntry_eq]
  refine alike_number (fun k => Alike.ensure_bind (h.matched.order k) rfl fun hk => ?_) 0
  obtain ⟨old, hold, hle⟩ := h.past
  have hlt := hk old hold
  refine (alike_storeKey h.matched (by omega) hk).mono (fun _ _ he => he) fun s' t' hs => ?_
  exact ⟨hs.matched, ⟨k, hs.previous, by omega⟩, (hs.kind (by omega)).trans h.kind,
    hs.body.trans h.body⟩

/-- Past the body the Host has one error left. -/
theorem failsOnly_pastEntry {s : Rust.EnvelopeFields} (h : ∃ old ∈ s.previous, 5 ≤ old) :
    FailsOnly .malformed (Rust.envelopeEntry s) := by
  refine (FailsOnly.orFail _ _).bind fun k => FailsOnly.ensure_bind fun hk => ?_
  obtain ⟨old, hold, hle⟩ := h
  have hlt := hk old hold
  obtain ⟨j, rfl⟩ : ∃ j, k = j + 6 := ⟨k - 6, by omega⟩
  have hnumber {α : Type} {f : ℕ → Scan UInt8 Rust.Error α} (hf : ∀ v, FailsOnly .malformed (f v)) :
      FailsOnly .malformed (Rust.expectUint 0 >>= f) := (FailsOnly.orFail _ _).bind hf
  match j with
  | 0 => exact hnumber fun _ => FailsOnly.pure _ _
  | 1 => exact hnumber fun v => (FailsOnly.lift (onlyError_word v)).bind fun _ => FailsOnly.pure _ _
  | 2 => exact hnumber fun _ => (FailsOnly.ensure _ _).bind fun _ => FailsOnly.pure _ _
  | _ + 3 => exact (failsOnly_skipValue 4).bind fun _ => FailsOnly.pure _ _

theorem past_step {s : Rust.EnvelopeFields} {l r : List UInt8} {s' : Rust.EnvelopeFields}
    (hs : ∃ old ∈ s.previous, 5 ≤ old) (h : Rust.envelopeEntry s l = .ok (s', r)) :
    (∃ old ∈ s'.previous, 5 ≤ old) ∧ s'.kind = s.kind ∧ s'.body = s.body := by
  obtain ⟨k, m, -, h₁⟩ := bind_eq_ok.mp h
  obtain ⟨hk, h₂⟩ := ensure_bind_eq_ok.mp h₁
  obtain ⟨old, hold, hle⟩ := hs
  have hlt := hk old hold
  obtain ⟨j, rfl⟩ : ∃ j, k = j + 6 := ⟨k - 6, by omega⟩
  match j with
  | 0 =>
    obtain ⟨v, _, -, h₃⟩ := bind_eq_ok.mp h₂
    cases h₃
    exact ⟨⟨6, rfl, by omega⟩, rfl, rfl⟩
  | 1 =>
    obtain ⟨v, _, -, h₃⟩ := bind_eq_ok.mp h₂
    obtain ⟨w, _, -, h₄⟩ := bind_eq_ok.mp h₃
    cases h₄
    exact ⟨⟨7, rfl, by omega⟩, rfl, rfl⟩
  | 2 =>
    obtain ⟨v, _, -, h₃⟩ := bind_eq_ok.mp h₂
    obtain ⟨-, h₄⟩ := ensure_bind_eq_ok.mp h₃
    cases h₄
    exact ⟨⟨8, rfl, by omega⟩, rfl, rfl⟩
  | j + 3 =>
    obtain ⟨v, _, -, h₃⟩ := bind_eq_ok.mp h₂
    cases h₃
    exact ⟨⟨j + 3 + 6, rfl, by omega⟩, rfl, rfl⟩

theorem onlyError_messageType (v : ℕ) : OnlyError .malformed (Rust.messageType v) := by
  unfold Rust.messageType
  split <;> first | exact OnlyError.ok _ _ | exact OnlyError.error _

theorem messageType_eq_ok {code : UInt8} {kind : Rust.MessageType} :
    Rust.messageType code.toNat = .ok kind ↔ code = typeOf kind := by
  constructor
  · intro h
    unfold Rust.messageType at h
    rw [← UInt8.toNat_inj]
    split at h <;> cases h <;> simp_all [typeOf] <;> rfl
  · rintro rfl
    cases kind <;> rfl

theorem onlyError_envelopeFrom (s : Rust.EnvelopeFields) :
    OnlyError .malformed (Rust.envelopeFrom s) :=
  (onlyError_check _).bind fun _ => (onlyError_required _).bind fun _ =>
    (onlyError_required _).bind fun _ => (onlyError_messageType _).bind fun _ =>
    (onlyError_required _).bind fun _ => (onlyError_required _).bind fun _ =>
    (onlyError_required _).bind fun _ => OnlyError.ok _ _

@[simp] theorem required_eq_ok {α : Type} {o : Option α} {a : α} :
    Rust.required o = .ok a ↔ o = some a := by
  cases o <;> simp [Rust.required]

/-- A required value was there. -/
theorem required_bind_eq_ok {α β : Type} {o : Option α} {f : α → Except Rust.Error β} {b : β} :
    (Rust.required o >>= f) = .ok b ↔ ∃ a, o = some a ∧ f a = .ok b := by
  simp only [except_bind_eq_ok, required_eq_ok]

@[simp] theorem check_eq_ok {c : Prop} [Decidable c] {u : Unit} :
    Rust.check c = .ok u ↔ c := by
  unfold Rust.check
  split_ifs with h <;> simp [h]

theorem check_bind_eq_ok {c : Prop} [Decidable c] {β : Type} {f : Unit → Except Rust.Error β}
    {b : β} : (Rust.check c >>= f) = .ok b ↔ c ∧ f () = .ok b := by
  rw [except_bind_eq_ok]
  exact ⟨fun ⟨_, hc, h⟩ => ⟨check_eq_ok.mp hc, h⟩, fun ⟨hc, h⟩ => ⟨(), check_eq_ok.mpr hc, h⟩⟩

/-- What the Host's envelope is made of. -/
theorem envelopeFrom_eq_ok {s : Rust.EnvelopeFields} {e : Rust.Envelope} {u : List UInt8} :
    Rust.envelopeFrom s = .ok (e, u) ↔ s.major.isSome ∧ s.minor = some e.minor ∧
      s.kind = some (typeOf e.kind) ∧ s.session = some e.session ∧
      s.sequence = some e.sequence ∧ s.body = some u ∧ e = ⟨1, e.minor, e.kind, e.session,
        e.sequence, s.utcMs, s.uncertainty, s.offset⟩ := by
  unfold Rust.envelopeFrom
  simp only [except_bind_eq_ok, check_eq_ok, required_eq_ok, messageType_eq_ok]
  constructor
  · rintro ⟨-, hmajor, minor, hminor, code, hcode, kind, hkind, session, hsession, sequence,
      hsequence, body, hbody, heq⟩
    cases heq
    exact ⟨hmajor, hminor, by rw [hcode, hkind], hsession, hsequence, hbody, rfl⟩
  · rintro ⟨hmajor, hminor, hkind, hsession, hsequence, hbody, heq⟩
    rw [heq]
    exact ⟨(), hmajor, _, hminor, _, hkind, _, rfl, _, hsession, _, hsequence, _, hbody, rfl⟩

/-- What a body is on the device when the Host can decode it. -/
inductive BodyOf : Rust.MessageType → List UInt8 → Cpp.Decoded → Prop
  | snapshot {u : List UInt8} {s : Rust.Snapshot} (h : Rust.decodeCpuBody u = .ok s) :
      BodyOf .snapshot u { hasCpu := true, cpu := ofCpu s.cpu, groups := ofGroups s }
  | control {kind : Rust.MessageType} {u : List UInt8} {b : Rust.ControlBody}
      (hkind : kind ≠ .snapshot) (h : Rust.decodeControlBody kind u = .ok b) :
      BodyOf kind u { envelope := withBody {} b }

theorem namedType_typeOf (kind : Rust.MessageType) : Cpp.namedType (typeOf kind) := by
  cases kind <;> decide

/-- The device's last checks, over the Host's locals. -/
private theorem accept_eq {d₀ : Cpp.Decoded} {s : Rust.EnvelopeFields} {t : Cpp.DecodeState}
    (h : EnvelopeMatch d₀ s t) {kind : Rust.MessageType} (hkind : s.kind = some (typeOf kind))
    (hcpu : kind = .snapshot → d₀.hasCpu = true) :
    Cpp.accept t = if s.major.isSome ∧ s.minor.isSome ∧ s.session.isSome ∧ s.sequence.isSome ∧
      s.body.isSome then .ok (headerView s d₀) else .error .kMalformed := by
  have htype : t.d.envelope.type = typeOf kind := by
    rw [h.view]
    simp [headerView, hkind]
  have hsnapshot : (t.d.envelope.type == .kSnapshot && !t.d.hasCpu) = false := by
    rw [htype, h.view]
    cases kind <;> first | rfl | simp [headerView, hcpu rfl]
  unfold Cpp.accept
  rw [hsnapshot, htype, if_neg (not_not.mpr (namedType_typeOf kind)), h.got, h.view]
  simp only [hasKey, hkind, Option.isSome_some]
  cases s.major <;> cases s.minor <;> cases s.session <;> cases s.sequence <;> cases s.body <;> rfl

theorem headerView_control (s : Rust.EnvelopeFields) (b : Rust.ControlBody) :
    headerView s { envelope := withBody {} b } =
      { envelope := withBody (headerView s {}).envelope b } := by
  cases b <;> rfl

theorem finish_bodyOf {e : Rust.Envelope} {u : List UInt8} {d₀ : Cpp.Decoded}
    (hd : BodyOf e.kind u d₀) {s : Rust.EnvelopeFields}
    (hs : Rust.envelopeFrom s = .ok (e, u)) :
    ∃ m, finish (e, u) = .ok m ∧ headerView s d₀ = image m := by
  obtain ⟨-, hminor, hkind, hsession, hsequence, -, heq⟩ := envelopeFrom_eq_ok.mp hs
  have hview : (headerView s {}).envelope = ofEnvelope e := by
    rw [heq]
    simp [headerView, ofEnvelope, hminor, hkind, hsession, hsequence]
  generalize hk : e.kind = kind at hd
  cases hd with
  | snapshot h =>
    rename_i snap
    refine ⟨.snapshot e snap, by simp [finish, hk, h], ?_⟩
    rw [image, ← hview]
    rfl
  | control hne h =>
    rename_i b
    refine ⟨.control e b, by simp [finish, hk, hne, h], ?_⟩
    rw [image, headerView_control, hview]

theorem alike_end {d₀ : Cpp.Decoded} {s : Rust.EnvelopeFields} {t : Cpp.DecodeState}
    (h : EnvelopeMatch d₀ s t) {kind : Rust.MessageType} {u : List UInt8}
    (hkind : s.kind = some (typeOf kind)) (hbody : s.body = some u) (hd : BodyOf kind u d₀) :
    Alike Cpp.kMaxFrameBytes SameError (fun m d => d = image m)
      (lift (Rust.envelopeFrom s >>= finish) : Scan UInt8 Rust.Error _) (lift (Cpp.accept t)) := by
  rw [accept_eq h hkind (by rintro rfl; cases hd <;> first | rfl | contradiction)]
  split_ifs with hall
  · obtain ⟨hmajor, hminor, hsession, hsequence, -⟩ := hall
    obtain ⟨minor, hminor⟩ := Option.isSome_iff_exists.mp hminor
    obtain ⟨session, hsession⟩ := Option.isSome_iff_exists.mp hsession
    obtain ⟨sequence, hsequence⟩ := Option.isSome_iff_exists.mp hsequence
    have hfrom : Rust.envelopeFrom s =
        .ok (⟨1, minor, kind, session, sequence, s.utcMs, s.uncertainty, s.offset⟩, u) :=
      envelopeFrom_eq_ok.mpr ⟨hmajor, hminor, hkind, hsession, hsequence, hbody, rfl⟩
    obtain ⟨m, hm, hview⟩ := finish_bodyOf hd hfrom
    rw [hfrom, except_ok_bind, hm, hview]
    exact Alike.pure rfl
  · cases hfrom : Rust.envelopeFrom s with
    | ok x =>
      obtain ⟨e, u'⟩ := x
      obtain ⟨hmajor, hminor, -, hsession, hsequence, hbody', -⟩ := envelopeFrom_eq_ok.mp hfrom
      simp [hmajor, hminor, hsession, hsequence, hbody'] at hall
    | error e =>
      rw [onlyError_envelopeFrom s e hfrom]
      exact Alike.fail rfl

private theorem alike_pastLoop {d₀ : Cpp.Decoded} {s : Rust.EnvelopeFields}
    {t : Cpp.DecodeState} (h : EnvelopeMatch d₀ s t) (hp : ∃ old ∈ s.previous, 5 ≤ old) (n : ℕ) :
    Alike Cpp.kMaxFrameBytes SameError (Past d₀ s) (loop Rust.envelopeEntry n s)
      (loop Cpp.envelopeEntry n t) :=
  Alike.loop (fun _ _ => alike_pastEntry) n ⟨h, hp, rfl, rfl⟩

/-- A body that the device took over as the Host will decode it. -/
theorem alike_rest {d₀ : Cpp.Decoded} {s : Rust.EnvelopeFields} {t : Cpp.DecodeState}
    (h : EnvelopeMatch d₀ s t) (hp : ∃ old ∈ s.previous, 5 ≤ old) {kind : Rust.MessageType}
    {u : List UInt8} (hkind : s.kind = some (typeOf kind)) (hbody : s.body = some u)
    (hd : BodyOf kind u d₀) (n : ℕ) :
    Alike Cpp.kMaxFrameBytes SameError (fun m d => d = image m) (hostRest n s)
      (deviceRest n t) := by
  refine (alike_pastLoop h hp n).bind fun s' t' hs =>
    (Alike.atEnd (E := SameError) rfl).bind fun _ _ _ => ?_
  exact alike_end hs.matched (hs.kind.trans hkind) (hs.body.trans hbody) hd

private theorem failsOnly_pastLoop {s : Rust.EnvelopeFields}
    (hp : ∃ old ∈ s.previous, 5 ≤ old) (n : ℕ) :
    FailsOnly .malformed (loop Rust.envelopeEntry n s) :=
  FailsOnly.loop (fun _ => failsOnly_pastEntry) (fun _ _ _ _ hs h => (past_step hs h).1) n hp

private theorem onlyError_finish {x : Rust.Envelope × List UInt8}
    (hu : x.2.length ≤ Cpp.kMaxFrameBytes) : OnlyError .malformed (finish x) :=
  OnlyError.ite ((onlyError_decodeCpuBody hu).bind fun _ => OnlyError.ok _ _)
    ((onlyError_decodeControlBody _ _).bind fun _ => OnlyError.ok _ _)

/-- Without a body that it can decode, the Host's one answer is malformed. -/
theorem hostRest_malformed {s : Rust.EnvelopeFields} (hp : ∃ old ∈ s.previous, 5 ≤ old)
    (hlen : ∀ u ∈ s.body, u.length ≤ Cpp.kMaxFrameBytes)
    (hbad : ∀ e u m, s.kind = some (typeOf e.kind) → s.body = some u → finish (e, u) ≠ .ok m)
    (n : ℕ) (l : List UInt8) : hostRest n s l = .error .malformed := by
  have hloop {s' : Rust.EnvelopeFields} {r : List UInt8}
      (h : loop Rust.envelopeEntry n s l = .ok (s', r)) :
      s'.kind = s.kind ∧ s'.body = s.body := by
    refine (loop_invariant (I := fun t => (∃ old ∈ t.previous, 5 ≤ old) ∧ t.kind = s.kind ∧
      t.body = s.body) (fun t l t' r ht hstep => ?_) ⟨hp, rfl, rfl⟩ h).2
    obtain ⟨hp', hk', hb'⟩ := past_step ht.1 hstep
    exact ⟨hp', hk'.trans ht.2.1, hb'.trans ht.2.2⟩
  have hend {s' : Rust.EnvelopeFields} (hk : s'.kind = s.kind) (hb : s'.body = s.body) :
      (Rust.envelopeFrom s' >>= finish) = .error .malformed := by
    cases hfrom : Rust.envelopeFrom s' with
    | error e => rw [onlyError_envelopeFrom s' e hfrom]; rfl
    | ok x =>
      obtain ⟨e, u⟩ := x
      obtain ⟨-, -, hkind, -, -, hbody, -⟩ := envelopeFrom_eq_ok.mp hfrom
      rw [hk] at hkind
      rw [hb] at hbody
      rw [except_ok_bind]
      cases hfinish : finish (e, u) with
      | ok m => exact absurd hfinish (hbad e u m hkind hbody)
      | error e' => rw [onlyError_finish (hlen u hbody) e' hfinish]
  cases hl : loop Rust.envelopeEntry n s l with
  | error e =>
    rw [failsOnly_pastLoop hp n l e hl] at hl
    exact bind_error hl
  | ok x =>
    obtain ⟨s', r⟩ := x
    obtain ⟨hk, hb⟩ := hloop hl
    unfold hostRest
    rw [bind_ok hl, hend hk hb]
    cases r <;> rfl

/-- Nor does the device accept anything but a whole frame. -/
theorem deviceRest_malformed {d₀ : Cpp.Decoded} {s : Rust.EnvelopeFields}
    {t : Cpp.DecodeState} (h : EnvelopeMatch d₀ s t) (hp : ∃ old ∈ s.previous, 5 ≤ old)
    (hbad : s.kind = none ∨ s.body = none ∨
      s.kind = some Cpp.MessageType.kSnapshot ∧ d₀.hasCpu = false) (n : ℕ) {l : List UInt8}
    (hl : l.length ≤ Cpp.kMaxFrameBytes) : deviceRest n t l = .error .kMalformed := by
  have hend {s' : Rust.EnvelopeFields} {t' : Cpp.DecodeState} (hs : Past d₀ s s' t') :
      Cpp.accept t' = .error .kMalformed := by
    unfold Cpp.accept
    rw [hs.matched.got, hs.matched.view]
    simp only [hasKey, hs.kind, hs.body, headerView]
    rcases hbad with hk | hb | ⟨hk, hcpu⟩
    · simp [hk]
    · simp [hb]
    · rw [hk, hcpu]
      cases s'.major <;> cases s'.minor <;> cases s'.session <;> cases s'.sequence <;>
        cases s.body <;> rfl
  cases ht : loop Cpp.envelopeEntry n t l with
  | error e =>
    obtain ⟨e', he', hsame⟩ := (alike_pastLoop h hp n).error_right hl ht
    rw [failsOnly_pastLoop hp n l e' he'] at hsame
    rw [hsame] at ht
    exact bind_error ht
  | ok x =>
    obtain ⟨t', r⟩ := x
    obtain ⟨s', -, hs⟩ := (alike_pastLoop h hp n).ok_right hl ht
    unfold deviceRest
    rw [bind_ok ht, hend hs]
    cases r <;> rfl

end CydMonitor.Codec
