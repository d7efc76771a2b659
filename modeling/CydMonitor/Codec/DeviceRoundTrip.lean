import CydMonitor.Codec.Encoders

/-!
# Control messages round trip on the device

What the device encodes of a control message comes back when its type is a named
one, unless it is an Error whose body leaves no room for its own length.
-/

namespace CydMonitor.Codec

open Cbor Scan

/-- Both envelopes carry the same typed body, for the type of the first. -/
def SameBody (e e' : Cpp.Envelope) : Prop :=
  if e.type = .kHello ∨ e.type = .kHelloReply then e'.hello = e.hello
  else if e.type = .kPair then e'.pair = e.pair
  else if e.type = .kCommand ∨ e.type = .kCommandReply then e'.command = e.command
  else e'.body = e.body

/-- The same envelope fields and the same typed body. -/
structure SameMessage (e e' : Cpp.Envelope) : Prop where
  version : e'.version = e.version
  type : e'.type = e.type
  session : e'.session = e.session
  sequence : e'.sequence = e.sequence
  utcMs : e'.utcMs = e.utcMs
  utcUncertaintyMs : e'.utcUncertaintyMs = e.utcUncertaintyMs
  localOffsetMinutes : e'.localOffsetMinutes = e.localOffsetMinutes
  body : SameBody e e'

theorem needed_eq_ok {α : Type} {c : α → Bool} {o : Option α} {a : α} :
    Cpp.needed c o = .ok a ↔ o = some a ∧ c a = true := by
  cases o with
  | none => simp [Cpp.needed]
  | some b =>
    cases hb : c b with
    | true => simp only [Cpp.needed, hb, if_true, Except.ok.injEq, Option.some.injEq]; grind
    | false => simp only [Cpp.needed, hb]; grind

/-- A device body of a named type, as the Host has it. -/
structure HostBody (e : Cpp.Envelope) (u : List UInt8) (b : Rust.ControlBody) : Prop where
  type : e.type = typeOf (kindOf b)
  bytes : u = bodyBytes b
  same : ∀ e', SameBody e (withBody e' b)
  encodable : (e.type = .kError → e.body.length ≤ 509) → Encodable b

/-- The Host value of a device Hello. -/
def hostHello (h : Cpp.HelloBody) : Rust.HelloBody :=
  ⟨h.supportedMajor, h.supportedMinor, h.capabilityBits, h.configurationRevision, h.utcMs,
    h.utcUncertaintyMs⟩

theorem helloBytes_ofHello (h : Cpp.HelloBody) :
    Cpp.helloBytes h = Rust.helloBytes (hostHello h) := by
  have hhead : Cpp.map (4 + h.utcMs.isSome.toNat + h.utcUncertaintyMs.isSome.toNat) =
      [UInt8.ofNat (0xa4 + h.utcMs.isSome.toNat + h.utcUncertaintyMs.isSome.toNat)] := by
    cases h.utcMs.isSome <;> cases h.utcUncertaintyMs.isSome <;> rfl
  unfold Cpp.helloBytes Rust.helloBytes
  rw [hhead]
  rfl

theorem pairBytes_ofPair (p : Cpp.PairBody) :
    Cpp.pairBytes p =
      Rust.pairBytes ⟨p.senderIdentity, p.intendedPeerIdentity, p.matchingCode⟩ := by
  have hhead : Cpp.map 3 = [0xa3] := rfl
  unfold Cpp.pairBytes Rust.pairBytes Rust.bytesEntry Cpp.byteString
  simp only [hhead, List.append_assoc]
  rfl

private theorem operation_toNat (o : Rust.CommandOperation) :
    (UInt8.ofNat o.code).toNat = o.code := by
  cases o <;> rfl

private theorem result_toNat (r : Rust.CommandResult) : (UInt8.ofNat r.code).toNat = r.code := by
  cases r <;> rfl

theorem commandBytes_ofCommand (c : Rust.CommandBody) :
    Cpp.commandBytes false (ofCommand c) = Rust.commandBytes c := by
  unfold Cpp.commandBytes ofCommand Rust.commandBytes
  simp only [operation_toNat, Option.elim_none, List.append_nil]
  rfl

theorem commandBytes_ofCommandReply (c : Rust.CommandReplyBody) :
    Cpp.commandBytes true (ofCommandReply c) = Rust.commandReplyBytes c := by
  unfold Cpp.commandBytes ofCommandReply Rust.commandReplyBytes
  simp only [operation_toNat, result_toNat, Option.elim_some, List.append_assoc]
  exact congrArg ([0xa3] ++ ·) List.flatMap_append.symm

theorem bodyBytes_of {m : Rust.MessageType} {b : Rust.ControlBody} {u : List UInt8}
    (h : Rust.controlBytes m b = .ok u) : u = bodyBytes b := (controlBytes_eq_ok.mp h).2.2

/-- A Command or a CommandReply has one of the two operations, and a reply one of
the three results. -/
private theorem command_cases {c : Cpp.CommandBody} {reply : Bool}
    (h : Cpp.validCommand c reply = true) :
    ∃ o : Rust.CommandOperation, c.operation = UInt8.ofNat o.code ∧
      if reply then ∃ r : Rust.CommandResult, c.result = some (UInt8.ofNat r.code)
      else c.result = none := by
  unfold Cpp.validCommand at h
  simp only [Bool.and_eq_true, decide_eq_true_eq] at h
  obtain ⟨⟨h1, h2⟩, hresult⟩ := h
  rw [UInt8.le_iff_toNat_le] at h1 h2
  have hone : (1 : UInt8).toNat = 1 := rfl
  have htwo : (2 : UInt8).toNat = 2 := rfl
  have hop : ∃ o : Rust.CommandOperation, c.operation = UInt8.ofNat o.code := by
    rcases (by omega : c.operation.toNat = 1 ∨ c.operation.toNat = 2) with hc | hc
    · exact ⟨.unpair, UInt8.toNat_inj.mp hc⟩
    · exact ⟨.calibrationReset, UInt8.toNat_inj.mp hc⟩
  obtain ⟨o, ho⟩ := hop
  refine ⟨o, ho, ?_⟩
  cases reply with
  | false => simpa using hresult
  | true =>
    simp only [if_true] at hresult ⊢
    cases hr : c.result with
    | none => simp [hr] at hresult
    | some r =>
      simp only [hr, Option.any_some, decide_eq_true_eq, UInt8.le_iff_toNat_le] at hresult
      rcases (by omega : r.toNat = 0 ∨ r.toNat = 1 ∨ r.toNat = 2) with hc | hc | hc
      · exact ⟨.applied, congrArg some (UInt8.toNat_inj.mp hc)⟩
      · exact ⟨.alreadyApplied, congrArg some (UInt8.toNat_inj.mp hc)⟩
      · exact ⟨.rejected, congrArg some (UInt8.toNat_inj.mp hc)⟩

private theorem hostBody_hello {e : Cpp.Envelope} {u : List UInt8}
    (htype : e.type = .kHello ∨ e.type = .kHelloReply) (h : Cpp.encodeControlBody e = .ok u) :
    ∃ a, u = Rust.helloBytes a ∧ e.hello = some (ofHello a) := by
  unfold Cpp.encodeControlBody at h
  rw [if_pos htype] at h
  obtain ⟨a, ha, rfl⟩ := except_map_eq_ok.mp h
  obtain ⟨ha, -⟩ := needed_eq_ok.mp ha
  exact ⟨hostHello a, helloBytes_ofHello a, ha⟩

private theorem hostBody_pair {e : Cpp.Envelope} {u : List UInt8} (htype : e.type = .kPair)
    (h : Cpp.encodeControlBody e = .ok u) :
    ∃ p, u = Rust.pairBytes p ∧ e.pair = some (ofPair p) ∧ Encodable (.pair p) := by
  unfold Cpp.encodeControlBody at h
  rw [if_neg (by rw [htype]; decide), if_pos htype] at h
  obtain ⟨p, hp, rfl⟩ := except_map_eq_ok.mp h
  obtain ⟨hp, hcode⟩ := needed_eq_ok.mp hp
  refine ⟨⟨p.senderIdentity, p.intendedPeerIdentity, p.matchingCode⟩, pairBytes_ofPair p, hp, ?_⟩
  simp only [Bool.not_eq_true', Bool.or_eq_false_iff, decide_eq_false_iff_not,
    UInt32.not_lt] at hcode
  exact hcode

private theorem hostBody_command {e : Cpp.Envelope} {u : List UInt8}
    (htype : e.type = .kCommand ∨ e.type = .kCommandReply)
    (h : Cpp.encodeControlBody e = .ok u) :
    ∃ (c : Cpp.CommandBody) (o : Rust.CommandOperation),
      u = Cpp.commandBytes (e.type == .kCommandReply) c ∧ e.command = some c ∧
      c.operation = UInt8.ofNat o.code ∧
      if e.type == .kCommandReply then
        ∃ r : Rust.CommandResult, c.result = some (UInt8.ofNat r.code)
      else c.result = none := by
  unfold Cpp.encodeControlBody at h
  rw [if_neg (by rcases htype with htype | htype <;> rw [htype] <;> decide),
    if_neg (by rcases htype with htype | htype <;> rw [htype] <;> decide), if_pos htype] at h
  obtain ⟨c, hc, rfl⟩ := except_map_eq_ok.mp h
  obtain ⟨hc, hvalid⟩ := needed_eq_ok.mp hc
  obtain ⟨o, ho, hresult⟩ := command_cases hvalid
  exact ⟨c, o, rfl, hc, ho, hresult⟩

/-- What the device encodes of a named type other than Snapshot is a Host body. -/
theorem exists_hostBody {e : Cpp.Envelope} (hnamed : Cpp.namedType e.type)
    (hne : e.type ≠ .kSnapshot) {u : List UInt8} (h : Cpp.encodeControlBody e = .ok u) :
    ∃ b, HostBody e u b := by
  obtain ⟨kind, hkind⟩ := namedType_eq hnamed
  cases kind with
  | hello =>
    have htype : e.type = .kHello := hkind
    obtain ⟨a, rfl, ha⟩ := hostBody_hello (Or.inl htype) h
    refine ⟨.hello a, hkind, bodyBytes_of (m := .hello) rfl, fun e' => ?_, fun _ => trivial⟩
    rw [SameBody, if_pos (Or.inl htype), ha]
    rfl
  | helloReply =>
    have htype : e.type = .kHelloReply := hkind
    obtain ⟨a, rfl, ha⟩ := hostBody_hello (Or.inr htype) h
    refine ⟨.helloReply a, hkind, bodyBytes_of (m := .helloReply) rfl, fun e' => ?_,
      fun _ => trivial⟩
    rw [SameBody, if_pos (Or.inr htype), ha]
    rfl
  | pair =>
    have htype : e.type = .kPair := hkind
    obtain ⟨p, rfl, hp, hcode⟩ := hostBody_pair htype h
    refine ⟨.pair p, hkind, ?_, fun e' => ?_, fun _ => hcode⟩
    · refine bodyBytes_of (m := .pair) (if_neg ?_)
      simp only [ne_eq, not_true, false_or, not_or, UInt32.not_lt]
      exact hcode
    · rw [SameBody, if_neg (by rw [htype]; decide), if_pos htype, hp]
      rfl
  | snapshot => exact absurd hkind hne
  | command =>
    have htype : e.type = .kCommand := hkind
    obtain ⟨⟨identity, operation, result⟩, o, rfl, hc, ho, hresult⟩ :=
      hostBody_command (Or.inl htype) h
    have hreply : (e.type == .kCommandReply) = false := by rw [htype]; rfl
    rw [hreply] at hresult ⊢
    obtain rfl : operation = _ := ho
    obtain rfl : result = none := hresult
    refine ⟨.command ⟨identity, o⟩, hkind, ?_, fun e' => ?_, fun _ => trivial⟩
    · refine bodyBytes_of (m := .command) ?_
      exact (congrArg Except.ok (commandBytes_ofCommand ⟨identity, o⟩)).symm
    · rw [SameBody, if_neg (by rw [htype]; decide), if_neg (by rw [htype]; decide),
        if_pos (Or.inl htype), hc]
      rfl
  | commandReply =>
    have htype : e.type = .kCommandReply := hkind
    obtain ⟨⟨identity, operation, result⟩, o, rfl, hc, ho, hresult⟩ :=
      hostBody_command (Or.inr htype) h
    have hreply : (e.type == .kCommandReply) = true := by rw [htype]; rfl
    rw [hreply] at hresult ⊢
    obtain rfl : operation = _ := ho
    obtain ⟨r, rfl⟩ : ∃ r : Rust.CommandResult, result = some (UInt8.ofNat r.code) := hresult
    refine ⟨.commandReply ⟨identity, o, r⟩, hkind, ?_, fun e' => ?_, fun _ => trivial⟩
    · refine bodyBytes_of (m := .commandReply) ?_
      exact (congrArg Except.ok (commandBytes_ofCommandReply ⟨identity, o, r⟩)).symm
    · rw [SameBody, if_neg (by rw [htype]; decide), if_neg (by rw [htype]; decide),
        if_pos (Or.inr htype), hc]
      rfl
  | error =>
    have htype : e.type = .kError := hkind
    unfold Cpp.encodeControlBody at h
    rw [if_neg (by rw [htype]; decide), if_neg (by rw [htype]; decide),
      if_neg (by rw [htype]; decide)] at h
    split_ifs at h
    cases h
    refine ⟨.error e.body, hkind, rfl, fun e' => ?_, fun hlen => hlen htype⟩
    rw [SameBody, if_neg (by rw [htype]; decide), if_neg (by rw [htype]; decide),
      if_neg (by rw [htype]; decide)]
    rfl

private theorem length_field_le (f : Field) : f.bytes.length ≤ 34 := by
  cases f with
  | number key v =>
    have hkey := length_head_le 0 key
    have hv := length_head_le 0 v
    simp only [Field.bytes, uintEntries_single, uint_eq_head, List.length_append]
    omega
  | identity key v =>
    have hkey := length_head_le 0 key
    have hv := length_head_le 2 v.val.length
    simp only [Field.bytes, Rust.bytesEntry, uint_eq_head, List.length_append]
    have hlen := v.property
    omega

private theorem length_fields_le (fs : List Field) :
    (fs.flatMap Field.bytes).length ≤ 34 * fs.length := by
  induction fs with
  | nil => simp
  | cons f fs ih =>
    have hf := length_field_le f
    simp only [List.flatMap_cons, List.length_append, List.length_cons]
    omega

/-- A control body that the Host would encode is within the body limit. -/
theorem length_bodyBytes_le {b : Rust.ControlBody} (h : Encodable b) :
    (bodyBytes b).length ≤ 512 := by
  have hfields := length_fields_le (fieldsOf b)
  have hcount := length_fieldsOf_le b
  have hhead := length_head_le 5 (fieldsOf b).length
  cases b with
  | error u =>
    have hlen : u.length ≤ 509 := h
    have hhead : (head 2 u.length).length ≤ 3 := length_head_le_three (by omega)
    simp only [bodyBytes, uint_eq_head, List.length_append]
    omega
  | _ =>
    simp only [bodyBytes, uint_eq_head, List.length_append]
    omega

/-- The Host envelope behind a device envelope of a named type. -/
private def hostEnvelope (e : Cpp.Envelope) (kind : Rust.MessageType) : Rust.Envelope :=
  ⟨e.version.major, e.version.minor, kind, e.session, e.sequence, e.utcMs, e.utcUncertaintyMs,
    e.localOffsetMinutes⟩

private theorem envelopeStart_hostEnvelope {e : Cpp.Envelope} {kind : Rust.MessageType}
    (h : e.type = typeOf kind) :
    Cpp.envelopeStart e = Rust.envelopeStart (hostEnvelope e kind) := by
  rw [← envelopeStart_eq]
  unfold Cpp.envelopeStart ofEnvelope hostEnvelope
  rw [h]

private theorem envelopeEnd_hostEnvelope (e : Cpp.Envelope) (kind : Rust.MessageType) :
    Cpp.envelopeEnd e = ofResult (Rust.envelopeEnd (hostEnvelope e kind)) :=
  envelopeEnd_eq (hostEnvelope e kind)

/-- The device writes the frame that the Host would write of the same message. -/
theorem encodeControl_of_encode {e : Cpp.Envelope} {u f : List UInt8} {b : Rust.ControlBody}
    (hu : Cpp.encodeControlBody e = .ok u) (hb : HostBody e u b) (hencodable : Encodable b)
    (hf : Cpp.encode e = .ok f) :
    Rust.encodeControl (hostEnvelope e (kindOf b)) b = .ok f := by
  unfold Cpp.encode at hf
  rw [sealed_eq (envelopeStart_hostEnvelope hb.type) (envelopeEnd_hostEnvelope e (kindOf b))
    (show Cpp.messageBody e none = .ok u from hu), hb.bytes] at hf
  obtain ⟨tail, htail, hfinish⟩ : ∃ tail, Rust.envelopeEnd (hostEnvelope e (kindOf b)) = .ok tail ∧
      Rust.finishFrame (Rust.envelopeStart (hostEnvelope e (kindOf b)) ++ bodyBytes b ++ tail) =
        .ok f := except_bind_eq_ok.mp (ofResult_eq_ok.mp hf)
  exact encodeControl_eq_ok.mpr ⟨rfl, hencodable, length_bodyBytes_le hencodable, tail, htail,
    hfinish⟩

/-- What the device decodes, the Host decodes. -/
theorem exists_image {f : List UInt8} {d : Cpp.Decoded} (h : Cpp.decode f = .ok d) :
    ∃ m, Rust.decode f = .ok m ∧ d = image m := by
  rcases decode_outcome f with ⟨-, hsame⟩ | ⟨-, e, e', -, herror, -⟩
  · rw [hsame] at h
    cases hm : Rust.decode f with
    | error e => rw [hm] at h; cases h
    | ok m =>
      rw [hm] at h
      cases h
      exact ⟨m, rfl, rfl⟩
  · rw [herror] at h
    cases h

/-- What the Host decodes, the device decodes. -/
theorem decode_image {f : List UInt8} {m : Rust.Message} (h : Rust.decode f = .ok m) :
    Cpp.decode f = .ok (image m) := by
  rcases decode_outcome f with ⟨-, hsame⟩ | ⟨-, e, e', herror, -⟩
  · rw [hsame, h]
    rfl
  · rw [herror] at h
    cases h

private theorem type_of_image (m : Rust.Message) :
    ∃ kind, (image m).envelope.type = typeOf kind := by
  cases m with
  | snapshot e s => exact ⟨e.kind, rfl⟩
  | control e b => cases b <;> exact ⟨e.kind, rfl⟩

/-- The body of a decoded Error. -/
private theorem error_of_image {f : List UInt8} {m : Rust.Message} (h : Rust.decode f = .ok m)
    (htype : (image m).envelope.type = .kError) : (image m).envelope.body.length ≤ 509 := by
  cases m with
  | snapshot e s =>
    have hkind : typeOf e.kind = .kError := htype
    rw [snapshot_kind h] at hkind
    exact absurd hkind (by decide)
  | control e b =>
    cases b with
    | error u => exact error_length_le h
    | _ =>
      have hkind : typeOf e.kind = typeOf .error := htype
      rw [control_kind h] at hkind
      exact nomatch typeOf_injective hkind

private theorem sameMessage_withBody {e : Cpp.Envelope} {u : List UInt8} {b : Rust.ControlBody}
    (h : HostBody e u b) :
    SameMessage e (withBody (ofEnvelope (hostEnvelope e (kindOf b))) b) := by
  have htype := h.type.symm
  have hbody := h.same (ofEnvelope (hostEnvelope e (kindOf b)))
  cases b <;> exact ⟨rfl, htype, rfl, rfl, rfl, rfl, rfl, hbody⟩

/-- Encoding and decoding on the device give the message back exactly when its type
is a named one and an Error's body has at most 509 bytes. -/
theorem device_round_trip_iff (e : Cpp.Envelope) (f : List UInt8)
    (hmajor : e.version.major = 1) (htype : e.type ≠ .kSnapshot) (hf : Cpp.encode e = .ok f) :
    (∃ d, Cpp.decode f = .ok d ∧ SameMessage e d.envelope) ↔
      Cpp.namedType e.type ∧ (e.type = .kError → e.body.length ≤ 509) := by
  constructor
  · rintro ⟨d, hd, hsame⟩
    obtain ⟨m, hm, rfl⟩ := exists_image hd
    obtain ⟨kind, hkind⟩ := type_of_image m
    refine ⟨by rw [← hsame.type, hkind]; exact namedType_typeOf kind, fun herror => ?_⟩
    have hbody := hsame.body
    rw [SameBody, if_neg (by rw [herror]; decide), if_neg (by rw [herror]; decide),
      if_neg (by rw [herror]; decide)] at hbody
    rw [← hbody]
    exact error_of_image hm (hsame.type.trans herror)
  · rintro ⟨hnamed, hlen⟩
    obtain ⟨cbor, hcbor, -⟩ := except_map_eq_ok.mp hf
    obtain ⟨u, hu, -⟩ := except_bind_eq_ok.mp hcbor
    obtain ⟨b, hb⟩ := exists_hostBody hnamed htype hu
    have hhost := encodeControl_of_encode hu hb (hb.encodable hlen) hf
    exact ⟨_, decode_image (decode_of_encodeControl hmajor hhost), sameMessage_withBody hb⟩

/-- An Error with a body of `n` bytes. -/
def errorOf (n : ℕ) : Cpp.Envelope := { type := .kError, sequence := 1, body := List.replicate n 7 }

/-- An Error with a body of 509 bytes still comes back. -/
theorem device_round_trip_error : ∃ f d, Cpp.encode (errorOf 509) = .ok f ∧
    Cpp.decode f = .ok d ∧ SameMessage (errorOf 509) d.envelope := by
  cases hf : Cpp.encode (errorOf 509) with
  | ok f =>
    obtain ⟨d, hd, hsame⟩ := (device_round_trip_iff (errorOf 509) f rfl (by decide) hf).mpr
      ⟨by decide, fun _ => (List.length_replicate).le⟩
    exact ⟨f, d, rfl, hd, hsame⟩
  | error err =>
    have hok : (Cpp.encode (errorOf 509)).isOk = true := by decide +kernel
    rw [hf] at hok
    cases hok

/-- An Error with a body of 510 bytes is encoded and then found too large. -/
theorem device_round_trip_fails : ¬∀ (e : Cpp.Envelope) (f : List UInt8),
    e.version.major = 1 → e.type ≠ .kSnapshot → Cpp.encode e = .ok f →
      ∃ d, Cpp.decode f = .ok d ∧ SameMessage e d.envelope := by
  intro h
  have hreject : (Cpp.encode (errorOf 510) >>= Cpp.decode) = .error .kTooLarge := by
    decide +kernel
  cases hf : Cpp.encode (errorOf 510) with
  | ok f =>
    obtain ⟨d, hd, -⟩ := h (errorOf 510) f rfl (by decide) hf
    rw [hf, except_ok_bind, hd] at hreject
    cases hreject
  | error err =>
    have hok : (Cpp.encode (errorOf 510)).isOk = true := by decide +kernel
    rw [hf] at hok
    cases hok

end CydMonitor.Codec
