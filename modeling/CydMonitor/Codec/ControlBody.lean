import CydMonitor.Codec.ControlBuild

/-!
# Control bodies agree

A control body is a map of fields or, for an Error, a byte string.
-/

namespace CydMonitor.Codec

open Cbor Scan

/-- The fields and the body of a control message that is a map. -/
def mapBody (kind : Rust.MessageType) (known : ℕ) : Scan UInt8 Rust.Error Rust.ControlBody := do
  let s ← Rust.controlFields kind known
  lift (Rust.controlFrom kind s)

theorem local_controlEntry (kind : Rust.MessageType) (known : ℕ) (s : Rust.ControlFields) :
    Local (Rust.controlEntry kind known s) :=
  (local_expectUint _).bind fun _ => (Local.ensure _ _).bind fun _ =>
    Local.ite ((local_skipValue 4).bind fun _ => Local.pure _) <|
    Local.ite ((local_bytes _).bind fun _ => Local.pure _) <|
    (local_expectUint _).bind fun _ => Local.pure _

theorem covers_controlEntry (kind : Rust.MessageType) (known : ℕ) (s : Rust.ControlFields) :
    Covers (Rust.controlEntry kind known s) (do Rust.skipValue 4; Rust.skipValue 4) := by
  refine Sim.bind (R := fun _ _ => True) covers_uint fun key _ _ => Sim.ensure_bind fun _ => ?_
  split_ifs
  · exact Sim.bind_silent (Sim.refl (fun _ => trivial) _) fun _ => Silent.pure _
  · exact Sim.bind_silent (covers_bytes 16) fun _ => Silent.pure _
  · exact Sim.bind_silent covers_uint fun _ => Silent.pure _

theorem mapLike_mapBody (kind : Rust.MessageType) (known : ℕ) : MapLike (mapBody kind known) :=
  MapLike.lift_bind (p := Rust.controlFields kind known)
    ⟨(local_expectUint _).bind fun _ => (Local.ensure _ _).bind fun _ =>
        Local.loop (local_controlEntry kind known) _ _,
      covers_flatMap (covers_controlEntry kind known)⟩
    (fun _ => Local.lift _) fun _ => Silent.lift _

private theorem failsOnly_controlEntry (kind : Rust.MessageType) (known : ℕ)
    (s : Rust.ControlFields) : FailsOnly .malformed (Rust.controlEntry kind known s) :=
  (FailsOnly.orFail _ _).bind fun _ => (FailsOnly.ensure _ _).bind fun _ =>
    FailsOnly.ite ((failsOnly_skipValue 4).bind fun _ => FailsOnly.pure _ _) <|
    FailsOnly.ite ((failsOnly_bytes _).bind fun _ => FailsOnly.pure _ _) <|
    (FailsOnly.orFail _ _).bind fun _ => FailsOnly.pure _ _

private theorem failsOnly_controlFields (kind : Rust.MessageType) (known : ℕ) :
    FailsOnly .malformed (Rust.controlFields kind known) :=
  (FailsOnly.orFail _ _).bind fun _ => (FailsOnly.ensure _ _).bind fun _ =>
    FailsOnly.loop (I := fun _ => True) (fun _ _ => failsOnly_controlEntry kind known _)
      (fun _ _ _ _ _ _ => trivial) _ trivial

/-- The Host's map body with the range check moved into its loop. -/
private def strictBody (kind : Rust.MessageType) (known : ℕ) :
    Scan UInt8 Rust.Error Rust.ControlBody := do
  let count ← Rust.expectUint 5
  ensure (count ≤ 16) .malformed
  let s ← loop (strictEntry kind known) count {}
  lift (Rust.controlFrom kind s)

private theorem alike_strictBody {kind : Rust.MessageType} {known : ℕ}
    (hknown : Rust.knownMax kind = .ok known) {e : Cpp.Envelope} (htype : e.type = typeOf kind) :
    Alike Cpp.kMaxFrameBytes Malformed (fun b e' => e' = withBody e b) (strictBody kind known)
      (Cpp.readControlBody e) := by
  refine (alike_uint 5).bind fun count _ hcount => ?_
  subst hcount
  refine Alike.ensure_bind Iff.rfl rfl fun _ => ?_
  rw [htype]
  refine (Alike.loop (R := ControlMatch kind) (fun s t h => alike_strictEntry hknown h) count
    (ControlMatch.init kind)).bind fun s t h => ?_
  exact (controlEnd hknown htype h).lift

private theorem fieldsOk_init (kind : Rust.MessageType) (known : ℕ) :
    FieldsOk kind known {} := by
  simp [FieldsOk]

/-- Checking ranges at once or at the end accepts the same bodies. -/
private theorem mapBody_eq_ok {kind : Rust.MessageType} {known : ℕ}
    (hknown : Rust.knownMax kind = .ok known) (l : List UInt8)
    (x : Rust.ControlBody × List UInt8) :
    mapBody kind known l = .ok x ↔ strictBody kind known l = .ok x := by
  obtain ⟨b, r⟩ := x
  have hloop (n : ℕ) {l r : List UInt8} {s : Rust.ControlFields} (hs : AllInRange kind s) :
      loop (Rust.controlEntry kind known) n {} l = .ok (s, r) ↔
        loop (strictEntry kind known) n {} l = .ok (s, r) :=
    loop_deferred (I := FieldsOk kind known) (C := AllInRange kind)
      (fun _ _ _ _ hs h => hs.step h) (fun _ _ _ _ hs h => AllInRange.back hs h)
      (fun _ _ _ _ _ h => strictEntry_of_inRange h) (fun _ _ _ h => controlEntry_of_strict h) n
      (fieldsOk_init kind known) hs
  have hfields {n : ℕ} {l r : List UInt8} {s : Rust.ControlFields}
      (h : loop (Rust.controlEntry kind known) n {} l = .ok (s, r)) : FieldsOk kind known s :=
    loop_invariant (fun _ _ _ _ hs h => hs.step h) (fieldsOk_init kind known) h
  have hstrict {n : ℕ} {l r : List UInt8} {s : Rust.ControlFields}
      (h : loop (strictEntry kind known) n {} l = .ok (s, r)) : FieldsOk kind known s :=
    loop_invariant (fun _ _ _ _ hs h => hs.step (controlEntry_of_strict h))
      (fieldsOk_init kind known) h
  unfold mapBody strictBody Rust.controlFields
  simp only [bind_assoc, bind_eq_ok, lift_eq_ok]
  constructor
  · rintro ⟨n, m, hn, u, m', hle, s, m'', hs, hb, hr⟩
    exact ⟨n, m, hn, u, m', hle, s, m'',
      (hloop n (controlFrom_range hknown (hfields hs) hb)).mp hs, hb, hr⟩
  · rintro ⟨n, m, hn, u, m', hle, s, m'', hs, hb, hr⟩
    exact ⟨n, m, hn, u, m', hle, s, m'',
      (hloop n (controlFrom_range hknown (hstrict hs) hb)).mpr hs, hb, hr⟩

theorem alike_mapBody {kind : Rust.MessageType} {known : ℕ}
    (hknown : Rust.knownMax kind = .ok known) {e : Cpp.Envelope} (htype : e.type = typeOf kind) :
    Alike Cpp.kMaxFrameBytes Malformed (fun b e' => e' = withBody e b) (mapBody kind known)
      (Cpp.readControlBody e) := by
  refine (alike_strictBody hknown htype).of_successes (e := .malformed) (mapBody_eq_ok hknown) ?_
    fun _ => rfl
  exact (failsOnly_controlFields kind known).bind fun s =>
    FailsOnly.lift (onlyError_controlFrom kind s)

/-- `decode_control_body` before it checks that it is at the end. -/
def controlBody (kind : Rust.MessageType) : Scan UInt8 Rust.Error Rust.ControlBody :=
  if kind = .error then do
    let len ← Rust.expectUint 2
    let body ← take len .malformed
    pure (.error body)
  else do
    let known ← lift (Rust.knownMax kind)
    mapBody kind known

theorem local_controlBody (kind : Rust.MessageType) : Local (controlBody kind) :=
  Local.ite ((local_expectUint _).bind fun _ => (Local.take _ _).bind fun _ => Local.pure _)
    ((Local.lift _).bind fun known => (mapLike_mapBody kind known).isLocal)

/-- The device's bound on a control body reads as far as the body does. -/
theorem covers_controlBody (kind : Rust.MessageType) : Covers (controlBody kind) flatBody := by
  unfold controlBody
  split_ifs
  · refine Covers.trans (Covers.value (fun _ => (Local.take _ _).bind fun _ => Local.pure _) ?_
      (by omega)) value_covers
    exact (Sim.refl (fun _ => rfl) _).bind fun len _ hlen => by
      subst hlen
      exact (Sim.refl (fun _ => rfl) _).bind fun _ _ _ => Sim.pure trivial
  · cases h : Rust.knownMax kind with
    | error e => exact Sim.fail _ _
    | ok known => exact (mapLike_mapBody kind known).covered.trans flatMap_covers

/-- The types whose body is a map of fields. -/
private theorem mapType {kind : Rust.MessageType} (hs : kind ≠ .snapshot) (he : kind ≠ .error) :
    ∃ known, Rust.knownMax kind = .ok known ∧ (typeOf kind = .kHello ∨
      typeOf kind = .kHelloReply ∨ typeOf kind = .kPair ∨ typeOf kind = .kCommand ∨
      typeOf kind = .kCommandReply) := by
  cases kind <;> first | exact ⟨_, rfl, by decide⟩ | contradiction

theorem alike_controlBody {kind : Rust.MessageType} (hkind : kind ≠ .snapshot) {d : Cpp.Decoded}
    (htype : d.envelope.type = typeOf kind) :
    Alike Cpp.kMaxFrameBytes Malformed
      (fun b d' => d' = { d with envelope := withBody d.envelope b })
      (controlBody kind) (Cpp.typedBody d) := by
  have hsnapshot : d.envelope.type ≠ .kSnapshot := by
    rw [htype]
    cases kind <;> first | decide | contradiction
  unfold controlBody Cpp.typedBody
  by_cases herr : kind = .error
  · subst herr
    rw [if_pos rfl]
    have htypes : ¬(d.envelope.type = .kHello ∨ d.envelope.type = .kHelloReply ∨
        d.envelope.type = .kPair ∨ d.envelope.type = .kCommand ∨
        d.envelope.type = .kCommandReply) := by
      rw [htype]
      decide
    refine Alike.peek_right (.error rfl) fun b => ?_
    simp only [hsnapshot, and_false, if_false, htypes]
    unfold Cpp.readBytes
    rw [bind_assoc]
    refine (alike_uint 2).bind fun n _ hn => ?_
    subst hn
    rw [bind_assoc]
    exact Alike.take_bind (by omega) rfl rfl fun _ => Alike.pure rfl
  · rw [if_neg herr]
    obtain ⟨known, hknown, htypes⟩ := mapType hkind herr
    rw [← htype] at htypes
    rw [hknown, lift_ok, Scan.pure_bind]
    refine Alike.peek_right (.error rfl) fun b => ?_
    simp only [hsnapshot, and_false, if_false, htypes, if_true]
    exact (alike_mapBody hknown htype).map_right fun b e' h => by rw [h]

theorem onlyError_decodeControlBody (kind : Rust.MessageType) (u : List UInt8) :
    OnlyError .malformed (Rust.decodeControlBody kind u) := by
  refine FailsOnly.run (FailsOnly.ite ?_ ?_) u
  · exact FailsOnly.bind ((FailsOnly.orFail _ _).bind fun _ => (FailsOnly.take _ _).bind fun _ =>
      (FailsOnly.atEnd _).bind fun _ => FailsOnly.pure _ _) fun _ => FailsOnly.pure _ _
  · refine (FailsOnly.lift ?_).bind fun known => ?_
    · cases kind <;> first | exact OnlyError.ok _ _ | exact OnlyError.error _
    · exact (failsOnly_controlFields kind known).bind fun s => (FailsOnly.atEnd _).bind fun _ =>
        FailsOnly.lift (onlyError_controlFrom kind s)

theorem decodeControlBody_eq_ok {kind : Rust.MessageType} {u : List UInt8}
    {b : Rust.ControlBody} :
    Rust.decodeControlBody kind u = .ok b ↔ controlBody kind u = .ok (b, []) := by
  unfold Rust.decodeControlBody controlBody
  rw [run_eq_ok]
  split_ifs
  · constructor
    · rintro ⟨r, h⟩
      obtain ⟨body, m, hbody, h₁⟩ := bind_eq_ok.mp h
      obtain ⟨len, m₁, hlen, h₂⟩ := bind_eq_ok.mp hbody
      obtain ⟨b', m₂, htake, h₃⟩ := bind_eq_ok.mp h₂
      obtain ⟨_, m₃, hend, h₄⟩ := bind_eq_ok.mp h₃
      obtain ⟨rfl, rfl⟩ := atEnd_eq_ok.mp hend
      cases h₄
      cases h₁
      exact bind_eq_ok.mpr ⟨len, m₁, hlen, bind_eq_ok.mpr ⟨body, [], htake, rfl⟩⟩
    · intro h
      obtain ⟨len, m₁, hlen, h₁⟩ := bind_eq_ok.mp h
      obtain ⟨b', m₂, htake, h₂⟩ := bind_eq_ok.mp h₁
      cases h₂
      exact ⟨[], bind_eq_ok.mpr ⟨b', [], bind_eq_ok.mpr ⟨len, m₁, hlen, bind_eq_ok.mpr
        ⟨b', [], htake, bind_eq_ok.mpr ⟨(), [], rfl, rfl⟩⟩⟩, rfl⟩⟩
  · cases Rust.knownMax kind with
    | error e =>
      constructor
      · rintro ⟨_, h⟩
        cases h
      · intro h
        cases h
    | ok known =>
      rw [lift_ok, Scan.pure_bind, Scan.pure_bind, mapBody]
      constructor
      · rintro ⟨r, h⟩
        obtain ⟨s, m, hs, h₁⟩ := bind_eq_ok.mp h
        obtain ⟨_, m', hend, h₂⟩ := bind_eq_ok.mp h₁
        obtain ⟨rfl, rfl⟩ := atEnd_eq_ok.mp hend
        obtain ⟨hb, rfl⟩ := lift_eq_ok.mp h₂
        exact bind_eq_ok.mpr ⟨s, [], hs, lift_eq_ok.mpr ⟨hb, rfl⟩⟩
      · intro h
        obtain ⟨s, m, hs, h₁⟩ := bind_eq_ok.mp h
        obtain ⟨hb, rfl⟩ := lift_eq_ok.mp h₁
        exact ⟨[], bind_eq_ok.mpr ⟨s, [], hs, bind_eq_ok.mpr ⟨(), [], rfl, lift_eq_ok.mpr
          ⟨hb, rfl⟩⟩⟩⟩

end CydMonitor.Codec
