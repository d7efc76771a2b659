import CydMonitor.Codec.EnvelopeTail

/-!
# The body's key

Here the two codecs can part: the Host cuts the body out with its own skipper,
the device bounds it with another and decodes it in place.
-/

namespace CydMonitor.Codec

open Cbor Scan

/-- A body on which the two codecs report different errors, by the type byte read
before it. Without a type the Host is done, while the device goes on as for a
Hello and may find the body too long. With the type of a control message the Host
may find a body too long that the device cannot skip at all. -/
def BodyApart : Option UInt8 → List UInt8 → Prop
  | none, l => ∃ m, Cpp.skipBody l = .ok ((), m) ∧ 512 < l.length - m.length
  | some code, l => (∃ kind : Rust.MessageType, kind ≠ .snapshot ∧ code = typeOf kind) ∧
      (∃ m, Rust.skipBody l = .ok ((), m) ∧ 512 < l.length - m.length) ∧
      ∀ m, Cpp.skipBody l ≠ .ok ((), m)

/-- The outcomes of the two codecs are the same but for the frames of `D`, which
both reject, each with an error of its own. -/
structure Verdict (D : Prop) (x : Except Rust.Error (Rust.Message × List UInt8))
    (y : Except Cpp.Error (Cpp.Decoded × List UInt8)) : Prop where
  same : ¬D → Outcome Cpp.kMaxFrameBytes SameError (fun m d => d = image m) x y
  apart : D → ∃ e e', x = .error e ∧ y = .error e' ∧ ¬SameError e e'

theorem Verdict.of_same {D : Prop} {x : Except Rust.Error (Rust.Message × List UInt8)}
    {y : Except Cpp.Error (Cpp.Decoded × List UInt8)} (hD : ¬D)
    (h : Outcome Cpp.kMaxFrameBytes SameError (fun m d => d = image m) x y) : Verdict D x y :=
  ⟨fun _ => h, fun hd => absurd hd hD⟩

/-- Both say malformed. -/
theorem Verdict.malformed {D : Prop} {x : Except Rust.Error (Rust.Message × List UInt8)}
    {y : Except Cpp.Error (Cpp.Decoded × List UInt8)} (hD : ¬D) (hx : x = .error .malformed)
    (hy : y = .error .kMalformed) : Verdict D x y := by
  subst hx hy
  exact .of_same hD (.error rfl)

/-- The bytes between `l` and what is left of it. -/
abbrev cut (l m : List UInt8) : List UInt8 := l.take (l.length - m.length)

theorem length_cut (l m : List UInt8) : (cut l m).length = l.length - m.length := by
  simp

/-- The Host's round for the body of a named type. -/
theorem hostBody_eq {α : Type} {s : Rust.EnvelopeFields} {kind : Rust.MessageType}
    (hkind : s.kind = some (typeOf kind)) (f : Rust.EnvelopeFields → Scan UInt8 Rust.Error α)
    (l : List UInt8) :
    (Rust.envelopeValue s 5 >>= f) l = match Rust.skipBody l with
      | .error _ => .error .malformed
      | .ok (_, m) =>
        if kind ≠ .snapshot ∧ 512 < l.length - m.length then .error .tooLarge
        else f { s with body := some (cut l m) } m := by
  have hround : Rust.envelopeValue s 5 = (slice Rust.skipBody >>= fun body =>
      ensure (¬(kind ≠ .snapshot ∧ body.length > 512)) .tooLarge >>= fun _ =>
      pure { s with body := some body }) := by
    unfold Rust.envelopeValue
    rw [hkind, Rust.required, lift_ok, Scan.pure_bind, messageType_eq_ok.mpr rfl, lift_ok,
      Scan.pure_bind]
  rw [hround, bind_assoc]
  cases h : Rust.skipBody l with
  | error e =>
    rw [failsOnly_skipBody l e h] at h
    have hs : slice Rust.skipBody l = .error .malformed := by simp [slice, h]
    exact bind_error hs
  | ok x =>
    obtain ⟨_, m⟩ := x
    have hs : slice Rust.skipBody l = .ok (cut l m, m) := by simp [slice, h]
    rw [bind_ok hs, bind_assoc]
    dsimp only
    by_cases hlong : kind ≠ .snapshot ∧ 512 < l.length - m.length
    · have hbound : ¬¬(kind ≠ .snapshot ∧ (cut l m).length > 512) := by
        rw [length_cut]
        exact not_not.mpr hlong
      rw [ensure_false hbound, if_pos hlong]
      rfl
    · have hbound : ¬(kind ≠ .snapshot ∧ (cut l m).length > 512) := by
        rw [length_cut]
        exact hlong
      rw [ensure_true hbound, if_neg hlong]
      rfl

/-- The device's round for a body that is not a snapshot's. -/
theorem deviceBody_eq {α : Type} {d : Cpp.Decoded} {kind : Rust.MessageType}
    (htype : d.envelope.type = typeOf kind) (hkind : kind ≠ .snapshot)
    (g : Cpp.Decoded → Scan UInt8 Cpp.Error α) {l : List UInt8}
    (hl : l.length ≤ Cpp.kMaxFrameBytes) :
    (Cpp.body d >>= g) l = match flatBody l with
      | .error _ => .error .kMalformed
      | .ok (_, m) =>
        if 512 < l.length - m.length then .error .kTooLarge
        else ((Cpp.typedBody d).orFail .kMalformed >>= g) l := by
  have hsnapshot : d.envelope.type ≠ .kSnapshot := by
    rw [htype]
    cases kind <;> first | decide | contradiction
  have hround : Cpp.body d = (preview (Cpp.skipBody.orFail .kMalformed) >>= fun skipped =>
      ensure (skipped.length ≤ 512) .kTooLarge >>= fun _ =>
      (Cpp.typedBody d).orFail .kMalformed) := by
    unfold Cpp.body Cpp.boundBody
    rw [if_pos hsnapshot, htype, ensure_true (namedType_typeOf kind), Scan.pure_bind, bind_assoc]
  rw [hround, bind_assoc]
  cases h : flatBody l with
  | error e =>
    obtain ⟨e', he', -⟩ := alike_skipBody.error_left hl h
    have hs : preview (Cpp.skipBody.orFail Cpp.Error.kMalformed) l = .error .kMalformed := by
      simp [preview, orFail, he']
    exact bind_error hs
  | ok x =>
    obtain ⟨_, m⟩ := x
    obtain ⟨_, hm, -⟩ := alike_skipBody.ok_left hl h
    have hs : preview (Cpp.skipBody.orFail Cpp.Error.kMalformed) l = .ok (cut l m, l) := by
      simp [preview, orFail, hm]
    rw [bind_ok hs, bind_assoc]
    by_cases hlong : 512 < l.length - m.length
    · have hbound : ¬(cut l m).length ≤ 512 := by
        rw [length_cut]
        omega
      rw [ensure_false hbound]
      simp only [hlong, if_true]
      rfl
    · have hbound : (cut l m).length ≤ 512 := by
        rw [length_cut]
        omega
      rw [ensure_true hbound]
      simp only [hlong, if_false]
      rfl

/-- The device's state once it took the body over as `d`. -/
def storeBody (t : Cpp.DecodeState) (d : Cpp.Decoded) : Cpp.DecodeState :=
  { index := t.index + 1, previousKey := 5, got := Function.update t.got 5 true, d := d }

theorem EnvelopeMatch.storeBody {s : Rust.EnvelopeFields} {t : Cpp.DecodeState}
    (h : EnvelopeMatch {} s t) (hk : ∀ old ∈ s.previous, old < 5) (u : List UInt8)
    (d₀ : Cpp.Decoded) :
    EnvelopeMatch d₀ { s with previous := some 5, body := some u }
      (storeBody t (headerView s d₀)) where
  index := by simp [Codec.storeBody]
  previous := by simp [Codec.storeBody]
  got := by
    funext j
    change Function.update t.got 5 true j = _
    by_cases hj : j = 5
    · subst hj
      rfl
    · rw [Function.update_of_ne hj, h.got]
      unfold hasKey
      split <;> first | rfl | contradiction
  below j hj := by
    refine ⟨5, rfl, ?_⟩
    by_contra hlt
    have hj' : hasKey s j = true := by
      rw [← hj]
      unfold hasKey
      split <;> first | rfl | omega
    obtain ⟨old, hold, hle⟩ := h.below j hj'
    have := hk old hold
    omega
  view := rfl

theorem typeOf_injective {kind kind' : Rust.MessageType} (h : typeOf kind = typeOf kind') :
    kind = kind' := by
  have h' : Rust.messageType (typeOf kind).toNat = .ok kind' := messageType_eq_ok.mpr h
  rw [messageType_eq_ok.mpr rfl] at h'
  exact Except.ok.inj h'

private theorem bodyOf_of_finish {e : Rust.Envelope} {u : List UInt8} {m : Rust.Message}
    (h : finish (e, u) = .ok m) : ∃ d₀, BodyOf e.kind u d₀ := by
  unfold finish at h
  split_ifs at h with hk
  · obtain ⟨cpu, hcpu, -⟩ := except_bind_eq_ok.mp h
    change e.kind = _ at hk
    rw [hk]
    exact ⟨_, .snapshot hcpu⟩
  · obtain ⟨b, hb, -⟩ := except_bind_eq_ok.mp h
    exact ⟨_, .control hk hb⟩

/-- The Host rejects a frame whose body it cut out but cannot decode. -/
private theorem hostRest_undecodable {s : Rust.EnvelopeFields} {kind : Rust.MessageType}
    (hkind : s.kind = some (typeOf kind)) {u : List UInt8} (hno : ∀ d₀, ¬BodyOf kind u d₀)
    (hu : u.length ≤ Cpp.kMaxFrameBytes) (n : ℕ) (m : List UInt8) :
    hostRest n { s with previous := some 5, body := some u } m = .error .malformed := by
  refine hostRest_malformed ⟨5, rfl, by omega⟩ (fun u' hu' => ?_) (fun e u' x hk hu' hx => ?_) n m
  · cases hu'
    exact hu
  · cases hu'
    obtain ⟨d₀, hd⟩ := bodyOf_of_finish hx
    rw [← typeOf_injective (Option.some.inj (hkind.symm.trans hk))] at hd
    exact hno d₀ hd

/-- A body decoder reads `l` as it reads what the Host cut out of `l`. -/
private theorem covered_eq_ok {α : Type} {p : Scan UInt8 Rust.Error α} (hp : Local p)
    (hc : Covers p Rust.skipBody) {l m r : List UInt8} (h : Rust.skipBody l = .ok ((), m)) {a : α} :
    p l = .ok (a, r) ↔ r = m ∧ p (cut l m) = .ok (a, []) := by
  have hs : slice Rust.skipBody l = .ok (cut l m, m) := by simp [slice, h]
  rw [Sim.slice_iff hc hp local_skipBody, hs]
  constructor
  · rintro ⟨u, hu, ha⟩
    cases hu
    exact ⟨rfl, ha⟩
  · rintro ⟨rfl, ha⟩
    exact ⟨_, rfl, ha⟩

private theorem controlBody_eq_ok {kind : Rust.MessageType} {l m r : List UInt8}
    (h : Rust.skipBody l = .ok ((), m)) {b : Rust.ControlBody} :
    controlBody kind l = .ok (b, r) ↔ r = m ∧ Rust.decodeControlBody kind (cut l m) = .ok b := by
  rw [decodeControlBody_eq_ok]
  exact covered_eq_ok (local_controlBody kind) ((covers_controlBody kind).trans skipBody_covers) h

private theorem cpuBody_eq_ok {l m r : List UInt8} (h : Rust.skipBody l = .ok ((), m))
    {s : Rust.Snapshot} :
    cpuBody l = .ok (s, r) ↔ r = m ∧ Rust.decodeCpuBody (cut l m) = .ok s := by
  rw [decodeCpuBody_eq_ok]
  exact covered_eq_ok local_cpuBody covers_cpuBody h

theorem namedType_eq {code : UInt8} (h : Cpp.namedType code) :
    ∃ kind, code = typeOf kind := by
  unfold Cpp.namedType at h
  rw [gt_iff_lt, UInt8.lt_iff_toNat_lt, UInt8.lt_iff_toNat_lt] at h
  have hlow : Cpp.MessageType.kHello.toNat = 1 := rfl
  have hhigh : Cpp.MessageType.kError.toNat = 7 := rfl
  rcases (by omega : code.toNat = 1 ∨ code.toNat = 2 ∨ code.toNat = 3 ∨ code.toNat = 4 ∨
    code.toNat = 5 ∨ code.toNat = 6 ∨ code.toNat = 7) with hc | hc | hc | hc | hc | hc | hc
  · exact ⟨.hello, UInt8.toNat_inj.mp hc⟩
  · exact ⟨.helloReply, UInt8.toNat_inj.mp hc⟩
  · exact ⟨.pair, UInt8.toNat_inj.mp hc⟩
  · exact ⟨.snapshot, UInt8.toNat_inj.mp hc⟩
  · exact ⟨.command, UInt8.toNat_inj.mp hc⟩
  · exact ⟨.commandReply, UInt8.toNat_inj.mp hc⟩
  · exact ⟨.error, UInt8.toNat_inj.mp hc⟩

/-- A snapshot's body is decoded as one when it is a map. -/
private theorem typedBody_snapshot {d : Cpp.Decoded} (htype : d.envelope.type = .kSnapshot)
    {b : UInt8} {l : List UInt8} (hb : b.toNat / 32 = 5) :
    Cpp.typedBody d (b :: l) = Cpp.snapshotBody d (b :: l) := by
  unfold Cpp.typedBody
  rw [peek_cons]
  simp only [hb, htype, and_self, if_true]

private theorem map_of_cpuBody {l r : List UInt8} {s : Rust.Snapshot}
    (h : cpuBody l = .ok (s, r)) : ∃ b l', l = b :: l' ∧ b.toNat / 32 = 5 := by
  obtain ⟨f, m, hf, -⟩ := bind_eq_ok.mp h
  cases l with
  | nil =>
    obtain ⟨_, _, hv, -⟩ := bind_eq_ok.mp hf
    exact absurd (consumes_expectUint 5 _ _ _ hv) (by simp)
  | cons b l => exact ⟨b, l, rfl, head_major_of_ok hf⟩

/-- And any other value is taken over as bytes. -/
private theorem typedBody_bytes {d d' : Cpp.Decoded} (htype : d.envelope.type = .kSnapshot)
    {b : UInt8} {l r : List UInt8} (hb : b.toNat / 32 ≠ 5)
    (h : Cpp.typedBody d (b :: l) = .ok (d', r)) :
    ∃ u, Cpp.readBytes (b :: l) = .ok (u, r) ∧ d' = { d with envelope.body := u } := by
  have htypes : ¬(d.envelope.type = .kHello ∨ d.envelope.type = .kHelloReply ∨
      d.envelope.type = .kPair ∨ d.envelope.type = .kCommand ∨
      d.envelope.type = .kCommandReply) := by
    rw [htype]
    decide
  unfold Cpp.typedBody at h
  rw [peek_cons] at h
  simp only [hb, false_and, if_false, htypes] at h
  obtain ⟨u, m, hu, h₁⟩ := bind_eq_ok.mp h
  cases h₁
  exact ⟨u, hu, rfl⟩

section Cases

variable {s : Rust.EnvelopeFields} {t : Cpp.DecodeState} (h : EnvelopeMatch {} s t)
  (hk : ∀ old ∈ s.previous, old < 5) (n : ℕ) {l : List UInt8}
  (hl : l.length ≤ Cpp.kMaxFrameBytes)

include h hk hl

private theorem verdict_control {kind : Rust.MessageType} (hkind : s.kind = some (typeOf kind))
    (hne : kind ≠ .snapshot) :
    Verdict (BodyApart s.kind l)
      ((Rust.envelopeValue { s with previous := some 5 } 5 >>= hostRest n) l)
      ((Cpp.body t.d >>= fun d => deviceRest n (storeBody t d)) l) := by
  have htype : t.d.envelope.type = typeOf kind := by
    rw [h.view]
    simp [headerView, hkind]
  have hhost := hostBody_eq (s := { s with previous := some 5 }) hkind (hostRest n) l
  have hdevice := deviceBody_eq htype hne (fun d => deviceRest n (storeBody t d)) hl
  rw [hhost, hdevice]
  -- the device's skipper decides how far the body goes when it accepts it
  cases hflat : flatBody l with
  | ok x =>
    obtain ⟨_, m⟩ := x
    obtain ⟨_, hskip, -⟩ := skipBody_covers _ _ _ hflat
    obtain ⟨_, hcpp, -⟩ := alike_skipBody.ok_left hl hflat
    have hD : ¬BodyApart s.kind l := by
      rw [hkind]
      rintro ⟨-, -, hno⟩
      exact hno m hcpp
    simp only [hskip]
    by_cases hlong : 512 < l.length - m.length
    · rw [if_pos ⟨hne, hlong⟩, if_pos hlong]
      exact .of_same hD (.error rfl)
    rw [if_neg (fun hc => hlong hc.2), if_neg hlong]
    cases hbody : controlBody kind l with
    | ok y =>
      obtain ⟨b, r⟩ := y
      obtain ⟨d', hd', hstored⟩ := (alike_controlBody hne htype).ok_left hl hbody
      obtain ⟨rfl, hdecode⟩ := (controlBody_eq_ok hskip).mp hbody
      have hview : d' = headerView s { envelope := withBody {} b } := by
        rw [hstored, h.view, headerView_control]
        rfl
      have htyped : (Cpp.typedBody t.d).orFail Cpp.Error.kMalformed l = .ok (d', r) :=
        orFail_eq_ok.mpr hd'
      rw [bind_ok htyped, hview]
      refine .of_same hD (alike_rest (h.storeBody hk _ _) ⟨5, rfl, le_refl 5⟩ hkind rfl
        (.control hne hdecode) n r ?_)
      exact (local_skipBody.length_le hskip).trans hl
    | error e =>
      obtain ⟨_, he, -⟩ := (alike_controlBody hne htype).error_left hl hbody
      refine .malformed hD (hostRest_undecodable hkind (fun d₀ hd => ?_) ?_ n m) ?_
      · cases hd with
        | snapshot hs => exact hne rfl
        | control _ hb =>
          rw [(controlBody_eq_ok hskip).mpr ⟨rfl, hb⟩] at hbody
          cases hbody
      · rw [length_cut]
        omega
      · refine bind_error ?_
        simp [orFail, he]
  | error e =>
    cases hskip : Rust.skipBody l with
    | error e' =>
      refine .malformed ?_ rfl rfl
      rw [hkind]
      rintro ⟨-, ⟨m, hm, -⟩, -⟩
      rw [hskip] at hm
      cases hm
    | ok x =>
      obtain ⟨_, m⟩ := x
      dsimp only
      by_cases hlong : 512 < l.length - m.length
      · rw [if_pos ⟨hne, hlong⟩]
        refine ⟨fun hD => absurd ?_ hD, fun _ => ⟨_, _, rfl, rfl, by simp [SameError, ofError]⟩⟩
        rw [hkind]
        refine ⟨⟨kind, hne, rfl⟩, ⟨m, hskip, hlong⟩, fun r hr => ?_⟩
        obtain ⟨_, hr', -⟩ := alike_skipBody.ok_right hl hr
        rw [hflat] at hr'
        cases hr'
      · rw [if_neg (fun hc => hlong hc.2)]
        refine .malformed ?_ (hostRest_undecodable hkind (fun d₀ hd => ?_) ?_ n m) rfl
        · rw [hkind]
          rintro ⟨-, ⟨r, hr, hr'⟩, -⟩
          rw [hskip] at hr
          cases hr
          exact hlong hr'
        · cases hd with
          | snapshot hs => exact hne rfl
          | control _ hb =>
            have hbody := (controlBody_eq_ok hskip).mpr ⟨rfl, hb⟩
            obtain ⟨_, hf, -⟩ := covers_controlBody kind _ _ _ hbody
            rw [hflat] at hf
            cases hf
        · rw [length_cut]
          omega

private theorem verdict_untyped (hkind : s.kind = none) :
    Verdict (BodyApart s.kind l)
      ((Rust.envelopeValue { s with previous := some 5 } 5 >>= hostRest n) l)
      ((Cpp.body t.d >>= fun d => deviceRest n (storeBody t d)) l) := by
  have htype : t.d.envelope.type = typeOf .hello := by
    rw [h.view]
    simp only [headerView, hkind]
    rfl
  have hhost : (Rust.envelopeValue { s with previous := some 5 } 5 >>= hostRest n) l =
      .error .malformed := by
    unfold Rust.envelopeValue
    rw [hkind]
    rfl
  have hne : Rust.MessageType.hello ≠ .snapshot := by decide
  have hdevice := deviceBody_eq htype hne (fun d => deviceRest n (storeBody t d)) hl
  rw [hhost, hdevice, hkind]
  cases hflat : flatBody l with
  | error e =>
    refine .malformed ?_ rfl rfl
    rintro ⟨m, hm, -⟩
    obtain ⟨_, hf, -⟩ := alike_skipBody.ok_right hl hm
    rw [hflat] at hf
    cases hf
  | ok x =>
    obtain ⟨_, m⟩ := x
    obtain ⟨_, hcpp, -⟩ := alike_skipBody.ok_left hl hflat
    dsimp only
    by_cases hlong : 512 < l.length - m.length
    · rw [if_pos hlong]
      exact ⟨fun hD => absurd ⟨m, hcpp, hlong⟩ hD,
        fun _ => ⟨_, _, rfl, rfl, by simp [SameError, ofError]⟩⟩
    rw [if_neg hlong]
    refine .malformed ?_ rfl ?_
    · rintro ⟨r, hr, hr'⟩
      rw [hcpp] at hr
      cases hr
      exact hlong hr'
    cases hbody : Cpp.typedBody t.d l with
    | error e => exact bind_error (by simp [orFail, hbody])
    | ok y =>
      obtain ⟨d', r⟩ := y
      obtain ⟨b, hb, hstored⟩ := (alike_controlBody hne htype).ok_right hl hbody
      have hview : d' = headerView s { envelope := withBody {} b } := by
        rw [hstored, h.view, headerView_control]
        rfl
      rw [bind_ok (orFail_eq_ok.mpr hbody), hview]
      exact deviceRest_malformed (h.storeBody hk l _) ⟨5, rfl, le_refl 5⟩ (Or.inl hkind) n
        (((local_controlBody _).length_le hb).trans hl)

omit hk hl in
private theorem verdict_unnamed {code : UInt8} (hkind : s.kind = some code)
    (hcode : ∀ kind, code ≠ typeOf kind) :
    Verdict (BodyApart s.kind l)
      ((Rust.envelopeValue { s with previous := some 5 } 5 >>= hostRest n) l)
      ((Cpp.body t.d >>= fun d => deviceRest n (storeBody t d)) l) := by
  refine .malformed ?_ ?_ ?_
  · rw [hkind]
    rintro ⟨⟨kind, -, hk⟩, -⟩
    exact hcode kind hk
  · unfold Rust.envelopeValue
    rw [hkind]
    cases hm : Rust.messageType code.toNat with
    | ok kind => exact absurd (messageType_eq_ok.mp hm) (hcode kind)
    | error e =>
      rw [onlyError_messageType _ e hm] at hm
      simp only [Rust.required, lift_ok, Scan.pure_bind, hm, lift_error]
      rfl
  · have htype : t.d.envelope.type = code := by
      rw [h.view]
      simp [headerView, hkind]
    have hnamed : ¬Cpp.namedType code := fun hn => by
      obtain ⟨kind, hkind⟩ := namedType_eq hn
      exact hcode kind hkind
    unfold Cpp.body
    rw [htype, ensure_false hnamed]
    rfl

private theorem verdict_snapshot (hkind : s.kind = some Cpp.MessageType.kSnapshot) :
    Verdict (BodyApart s.kind l)
      ((Rust.envelopeValue { s with previous := some 5 } 5 >>= hostRest n) l)
      ((Cpp.body t.d >>= fun d => deviceRest n (storeBody t d)) l) := by
  have hkind' : s.kind = some (typeOf .snapshot) := hkind
  have hD : ¬BodyApart s.kind l := by
    rw [hkind']
    rintro ⟨⟨kind, hne, hk⟩, -⟩
    exact hne (typeOf_injective hk).symm
  have htype : t.d.envelope.type = .kSnapshot := by
    rw [h.view]
    simp [headerView, hkind]
  have hhost := hostBody_eq (s := { s with previous := some 5 }) hkind' (hostRest n) l
  have hdevice : (Cpp.body t.d >>= fun d => deviceRest n (storeBody t d)) =
      ((Cpp.typedBody t.d).orFail .kMalformed >>= fun d => deviceRest n (storeBody t d)) := by
    unfold Cpp.body Cpp.boundBody
    rw [if_neg (not_not.mpr htype), htype, ensure_true (by decide)]
    rfl
  rw [hhost, hdevice]
  cases hbody : cpuBody l with
  | ok y =>
    obtain ⟨snap, r⟩ := y
    obtain ⟨_, hskip, -⟩ := covers_cpuBody _ _ _ hbody
    obtain ⟨-, hdecode⟩ := (cpuBody_eq_ok hskip).mp hbody
    obtain ⟨d', hd', hstored⟩ := (alike_snapshotBody (d := t.d) (by rw [h.view]; rfl)
      (by rw [h.view]; rfl)).ok_left hl hbody
    have hview : d' = headerView s
        { hasCpu := true, cpu := ofCpu snap.cpu, groups := ofGroups snap } := by
      rw [hstored, h.view]
      rfl
    have htyped : (Cpp.typedBody t.d).orFail Cpp.Error.kMalformed l = .ok (d', r) := by
      obtain ⟨b, l', rfl, hb⟩ := map_of_cpuBody hbody
      rw [orFail_eq_ok, typedBody_snapshot htype hb]
      exact hd'
    rw [bind_ok htyped, hview]
    simp only [hskip]
    rw [if_neg (fun hc => hc.1 rfl)]
    refine .of_same hD (alike_rest (h.storeBody hk _ _) ⟨5, rfl, le_refl 5⟩ hkind' rfl
      (.snapshot hdecode) n r ?_)
    exact (local_skipBody.length_le hskip).trans hl
  | error e =>
    refine .malformed hD ?_ ?_
    · cases hskip : Rust.skipBody l with
      | error e' => rfl
      | ok x =>
        obtain ⟨_, m⟩ := x
        dsimp only
        rw [if_neg (fun hc => hc.1 rfl)]
        refine hostRest_undecodable hkind' (fun d₀ hd => ?_) ?_ n m
        · cases hd with
          | snapshot hs =>
            rw [(cpuBody_eq_ok hskip).mpr ⟨rfl, hs⟩] at hbody
            cases hbody
          | control hne _ => exact hne rfl
        · rw [length_cut]
          omega
    · cases htyped : Cpp.typedBody t.d l with
      | error e' => exact bind_error (by simp [orFail, htyped])
      | ok y =>
        obtain ⟨d', r⟩ := y
        cases l with
        | nil => cases htyped
        | cons b l =>
          have hb : b.toNat / 32 ≠ 5 := fun hb => by
            rw [typedBody_snapshot htype hb] at htyped
            obtain ⟨_, hc, -⟩ := (alike_snapshotBody (d := t.d) (by rw [h.view]; rfl)
              (by rw [h.view]; rfl)).ok_right hl htyped
            rw [hbody] at hc
            cases hc
          obtain ⟨u, hu, hstored⟩ := typedBody_bytes htype hb htyped
          have hview : d' = headerView s { envelope := { body := u } } := by
            rw [hstored, h.view]
            rfl
          obtain ⟨_, hr, -⟩ := alike_byteString.ok_right hl hu
          rw [bind_ok (orFail_eq_ok.mpr htyped), hview]
          exact deviceRest_malformed (h.storeBody hk [] _) ⟨5, rfl, le_refl 5⟩
            (Or.inr (Or.inr ⟨hkind, rfl⟩)) n ((local_byteString.length_le hr).trans hl)

/-- At the body's key the two codecs part exactly on the bodies of `BodyApart`. -/
theorem verdict_body :
    Verdict (BodyApart s.kind l)
      ((Rust.envelopeValue { s with previous := some 5 } 5 >>= hostRest n) l)
      ((Cpp.body t.d >>= fun d => deviceRest n (storeBody t d)) l) := by
  cases hkind : s.kind with
  | none =>
    rw [← hkind]
    exact verdict_untyped h hk n hl hkind
  | some code =>
    rw [← hkind]
    by_cases hnamed : ∃ kind, code = typeOf kind
    · obtain ⟨kind, rfl⟩ := hnamed
      by_cases hs : kind = .snapshot
      · subst hs
        exact verdict_snapshot h hk n hl hkind
      · exact verdict_control h hk n hl hkind hs
    · exact verdict_unnamed h n hkind fun kind hk => hnamed ⟨kind, hk⟩

end Cases

end CydMonitor.Codec
