import CydMonitor.Codec.EnvelopeRoundTrip
import CydMonitor.Codec.Fields

/-!
# Control messages round trip

`decode` inverts `encode_control`, and a control frame without unknown keys is
what `encode_control` makes of its message.
-/

namespace CydMonitor.Codec

open Cbor Scan

private def helloFields (b : Rust.HelloBody) : List Field :=
  [.number 0 b.supportedMajor.toNat, .number 1 b.supportedMinor.toNat,
    .number 2 b.capabilities.toNat, .number 3 b.configurationRevision.toNat] ++
    b.utcMs.toList.map (fun v => Field.number 4 v.toNat) ++
    b.utcUncertaintyMs.toList.map fun v => Field.number 5 v.toNat

/-- The fields of a control body, in key order; an Error's body has none. -/
def fieldsOf : Rust.ControlBody → List Field
  | .hello b | .helloReply b => helloFields b
  | .pair b => [.identity 0 b.pairingIdentity, .identity 1 b.intendedPeerIdentity,
      .number 2 b.matchingCode.toNat]
  | .command b => [.number 0 b.commandIdentity.toNat, .number 1 b.operation.code]
  | .commandReply b => [.number 0 b.commandIdentity.toNat, .number 1 b.operation.code,
      .number 2 b.result.code]
  | .error _ => []

theorem length_fieldsOf_le (b : Rust.ControlBody) : (fieldsOf b).length ≤ 6 := by
  cases b with
  | hello b | helloReply b =>
    obtain ⟨_, _, _, _, utcMs, uncertainty⟩ := b
    cases utcMs <;> cases uncertainty <;> simp [fieldsOf, helloFields]
  | _ => simp [fieldsOf]

/-- The message type a body goes with. -/
def kindOf : Rust.ControlBody → Rust.MessageType
  | .hello _ => .hello
  | .helloReply _ => .helloReply
  | .pair _ => .pair
  | .command _ => .command
  | .commandReply _ => .commandReply
  | .error _ => .error

/-- What `encode_control` asks of a body. -/
def Encodable : Rust.ControlBody → Prop
  | .pair b => 100000 ≤ b.matchingCode ∧ b.matchingCode ≤ 999999
  | .error b => b.length ≤ 509
  | _ => True

/-- The bytes of a body. -/
def bodyBytes (b : Rust.ControlBody) : List UInt8 :=
  match b with
  | .error u => Rust.uint 2 u.length ++ u
  | b => Rust.uint 5 (fieldsOf b).length ++ (fieldsOf b).flatMap Field.bytes

private theorem helloBytes_eq (b : Rust.HelloBody) :
    Rust.helloBytes b =
      Rust.uint 5 (helloFields b).length ++ (helloFields b).flatMap Field.bytes := by
  have hhead : [UInt8.ofNat (0xa4 + b.utcMs.isSome.toNat + b.utcUncertaintyMs.isSome.toNat)] =
      Rust.uint 5 (helloFields b).length := by
    unfold helloFields
    cases b.utcMs <;> cases b.utcUncertaintyMs <;> rfl
  unfold Rust.helloBytes
  rw [hhead]
  unfold helloFields
  cases b.utcMs <;> cases b.utcUncertaintyMs <;> simp [Field.bytes, Rust.uintEntries]

private theorem ite_eq_ok {c : Prop} [Decidable c] {e : Rust.Error} {u v : List UInt8} :
    (if c then Except.ok v else .error e) = .ok u ↔ c ∧ u = v := by
  split_ifs with h <;> simp [h, eq_comm]

/-- When a control body is encoded, and as what. -/
theorem controlBytes_eq_ok {kind : Rust.MessageType} {b : Rust.ControlBody} {u : List UInt8} :
    Rust.controlBytes kind b = .ok u ↔ kind = kindOf b ∧ Encodable b ∧ u = bodyBytes b := by
  cases b with
  | hello b =>
    rw [Rust.controlBytes, ite_eq_ok, helloBytes_eq]
    simp [kindOf, Encodable, bodyBytes, fieldsOf]
  | helloReply b =>
    rw [Rust.controlBytes, ite_eq_ok, helloBytes_eq]
    simp [kindOf, Encodable, bodyBytes, fieldsOf]
  | pair b =>
    have hbytes : Rust.pairBytes b = bodyBytes (.pair b) := by
      simp [Rust.pairBytes, bodyBytes, fieldsOf, Field.bytes, Rust.uintEntries]
      rfl
    rw [Rust.controlBytes, hbytes]
    split_ifs with h
    · simp only [false_iff, kindOf, Encodable]
      rintro ⟨hk, ⟨h1, h2⟩, -⟩
      rcases h with h | h | h
      · exact h hk
      · exact UInt32.not_le.mpr h h1
      · exact UInt32.not_le.mpr h h2
    · simp only [not_or, not_not, UInt32.not_lt] at h
      simp [kindOf, Encodable, h, eq_comm]
  | command b =>
    have hbytes : Rust.commandBytes b = bodyBytes (.command b) := by
      simp [Rust.commandBytes, bodyBytes, fieldsOf, Field.bytes, Rust.uintEntries]
      rfl
    rw [Rust.controlBytes, ite_eq_ok, hbytes]
    simp [kindOf, Encodable]
  | commandReply b =>
    have hbytes : Rust.commandReplyBytes b = bodyBytes (.commandReply b) := by
      simp [Rust.commandReplyBytes, bodyBytes, fieldsOf, Field.bytes, Rust.uintEntries]
      rfl
    rw [Rust.controlBytes, ite_eq_ok, hbytes]
    simp [kindOf, Encodable]
  | error b =>
    rw [Rust.controlBytes]
    split_ifs with h
    · simp only [false_iff, kindOf, Encodable]
      rintro ⟨hk, hlen, -⟩
      rcases h with h | h
      · exact h hk
      · omega
    · simp only [not_or, not_not, not_lt] at h
      have hlen : b.length ≤ 509 := by omega
      simp [kindOf, Encodable, bodyBytes, h.1, hlen, eq_comm]

private theorem reads_mapFields {kind : Rust.MessageType} {known : ℕ}
    (hknown : Rust.knownMax kind = .ok known) {fs : List Field} {b : Rust.ControlBody}
    (hcount : fs.length ≤ 6) (hfs : Admits (Field.Fits kind known) Field.store {} fs)
    (hb : Rust.controlFrom kind (fs.foldl Field.store {}) = .ok b) :
    Reads (controlBody kind) (Rust.uint 5 fs.length ++ fs.flatMap Field.bytes) b := by
  have hne : kind ≠ .error := by
    rintro rfl
    cases hknown
  have hlt : known < 2 ^ 64 := by
    cases kind <;> cases hknown <;> omega
  unfold controlBody mapBody Rust.controlFields
  rw [if_neg hne, hknown, lift_ok, Scan.pure_bind, bind_assoc, uint_eq_head]
  refine (reads_expectUint (by omega) (by omega)).bind ?_
  rw [bind_assoc]
  refine Reads.ensure_bind (by omega) ?_
  exact (Reads.items (fun _ _ h => reads_field hlt h) hfs).bind_nil (Reads.lift hb)

private theorem byte_lt (v : UInt8) : v.toNat < 18446744073709551616 :=
  v.toNat_lt.trans (by omega)

private theorem word_lt (v : UInt32) : v.toNat < 18446744073709551616 :=
  v.toNat_lt.trans (by omega)

private theorem long_lt (v : UInt64) : v.toNat < 18446744073709551616 := v.toNat_lt

private theorem op_lt (o : Rust.CommandOperation) : o.code < 18446744073709551616 := by
  cases o <;> decide

private theorem result_lt (o : Rust.CommandResult) : o.code < 18446744073709551616 := by
  cases o <;> decide

private theorem op_code (o : Rust.CommandOperation) : Rust.op o.code = .ok o := by
  cases o <;> rfl

private theorem result_code (o : Rust.CommandResult) : Rust.result o.code = .ok o := by
  cases o <;> rfl

private theorem helloFrom_helloFields (b : Rust.HelloBody) :
    Rust.helloFrom ((helloFields b).foldl Field.store {}) = .ok b := by
  obtain ⟨major, minor, capabilities, revision, utcMs, uncertainty⟩ := b
  unfold helloFields
  cases utcMs <;> cases uncertainty <;>
    simp [Rust.helloFrom, Field.store, Rust.required, byte_toNat, word_toNat, Rust.optionalWord]

private theorem admits_helloFields (b : Rust.HelloBody) {kind : Rust.MessageType}
    (hkind : kind ≠ .pair) :
    Admits (Field.Fits kind 5) Field.store {} (helloFields b) := by
  unfold helloFields
  cases b.utcMs <;> cases b.utcUncertaintyMs <;>
    simp [Admits, Field.fits_iff, Field.key, Field.Typed, hkind, byte_lt, word_lt, long_lt]

/-- A control body is read back from its bytes. -/
theorem reads_bodyBytes {b : Rust.ControlBody} (h : Encodable b) :
    Reads (controlBody (kindOf b)) (bodyBytes b) b := by
  cases b with
  | hello b =>
    refine reads_mapFields rfl (length_fieldsOf_le (.hello b))
      (admits_helloFields b (by simp [kindOf])) ?_
    exact congrArg (Functor.map _) (helloFrom_helloFields b)
  | helloReply b =>
    refine reads_mapFields rfl (length_fieldsOf_le (.helloReply b))
      (admits_helloFields b (by simp [kindOf])) ?_
    exact congrArg (Functor.map _) (helloFrom_helloFields b)
  | pair b =>
    refine reads_mapFields rfl (length_fieldsOf_le _) ?_ ?_
    · simp [fieldsOf, kindOf, Admits, Field.fits_iff, Field.key, Field.Typed, word_lt]
    · have hcode : 100000 ≤ b.matchingCode ∧ b.matchingCode ≤ 999999 := h
      simp [kindOf, fieldsOf, Rust.controlFrom, Rust.pairFrom, Field.store, Rust.required,
        word_toNat, Rust.check, hcode]
  | command b =>
    refine reads_mapFields rfl (length_fieldsOf_le _) ?_ ?_
    · simp [fieldsOf, kindOf, Admits, Field.fits_iff, Field.key, Field.Typed, word_lt, op_lt]
    · simp [kindOf, fieldsOf, Rust.controlFrom, Rust.commandFrom, Field.store, Rust.required,
        word_toNat, op_code]
  | commandReply b =>
    refine reads_mapFields rfl (length_fieldsOf_le _) ?_ ?_
    · simp [fieldsOf, kindOf, Admits, Field.fits_iff, Field.key, Field.Typed, word_lt, op_lt,
        result_lt]
    · simp [kindOf, fieldsOf, Rust.controlFrom, Rust.commandReplyFrom, Field.store, Rust.required,
        word_toNat, op_code, result_code]
  | error b =>
    have hlen : b.length ≤ 509 := h
    unfold controlBody bodyBytes kindOf
    rw [if_pos rfl]
    dsimp only
    rw [uint_eq_head]
    exact (reads_expectUint (by omega) (by omega)).bind
      ((Reads.take rfl _).bind_nil (Reads.pure _))

theorem encodeFrame_eq_ok {e : Rust.Envelope} {u f : List UInt8} :
    Rust.encodeFrame e u = .ok f ↔ u.length ≤ 512 ∧ ∃ tail, Rust.envelopeEnd e = .ok tail ∧
      Rust.finishFrame (Rust.envelopeStart e ++ u ++ tail) = .ok f := by
  unfold Rust.encodeFrame
  by_cases hlen : u.length > 512
  · have hlen' : ¬u.length ≤ 512 := by omega
    simp only [hlen, if_true, hlen', false_and, iff_false]
    intro h
    cases h
  · have hlen' : u.length ≤ 512 := by omega
    simp only [hlen, if_false, hlen', true_and]
    exact except_bind_eq_ok

theorem encodeControl_eq_ok {e : Rust.Envelope} {b : Rust.ControlBody} {f : List UInt8} :
    Rust.encodeControl e b = .ok f ↔ e.kind = kindOf b ∧ Encodable b ∧
      (bodyBytes b).length ≤ 512 ∧ ∃ tail, Rust.envelopeEnd e = .ok tail ∧
      Rust.finishFrame (Rust.envelopeStart e ++ bodyBytes b ++ tail) = .ok f := by
  unfold Rust.encodeControl
  simp only [except_bind_eq_ok, controlBytes_eq_ok, encodeFrame_eq_ok]
  constructor
  · rintro ⟨u, ⟨hkind, hb, rfl⟩, hlen, htail⟩
    exact ⟨hkind, hb, hlen, htail⟩
  · rintro ⟨hkind, hb, hlen, htail⟩
    exact ⟨_, ⟨hkind, hb, rfl⟩, hlen, htail⟩

/-- Decoding inverts encoding. -/
theorem decode_of_encodeControl {e : Rust.Envelope} (hmajor : e.major = 1)
    {b : Rust.ControlBody} {f : List UInt8} (h : Rust.encodeControl e b = .ok f) :
    Rust.decode f = .ok (.control e b) := by
  obtain ⟨hkind, hb, hlen, tail, htail, hf⟩ := encodeControl_eq_ok.mp h
  have hread := (reads_bodyBytes hb).whole
  have hne : kindOf b ≠ .snapshot := by cases b <;> simp [kindOf]
  obtain ⟨_, hflat, -⟩ := covers_controlBody _ _ _ _ hread
  obtain ⟨_, hskip, -⟩ := skipBody_covers _ _ _ hflat
  refine decode_finished hmajor htail hf (local_skipBody.reads_of_whole hskip) (fun _ => hlen) ?_
  unfold finish
  rw [if_neg (by rw [hkind]; exact hne), hkind, decodeControlBody_eq_ok.mpr hread]
  rfl

private theorem optionalWord_eq_ok {o : Option ℕ} {w : Option UInt32}
    (h : Rust.optionalWord o = .ok w) : o = w.map UInt32.toNat := by
  cases o with
  | none => cases h; rfl
  | some v =>
    obtain ⟨w', hw', rfl⟩ := except_map_eq_ok.mp h
    rw [toNat_word hw']
    rfl

private theorem op_eq_ok {v : ℕ} {o : Rust.CommandOperation} (h : Rust.op v = .ok o) :
    v = o.code := by
  unfold Rust.op at h
  split at h <;> cases h <;> rfl

private theorem result_eq_ok {v : ℕ} {o : Rust.CommandResult} (h : Rust.result v = .ok o) :
    v = o.code := by
  unfold Rust.result at h
  split at h <;> cases h <;> rfl

private theorem helloFrom_eq_ok {s : Rust.ControlFields} {b : Rust.HelloBody}
    (hlong : ∀ v ∈ s.fields 4, v < 2 ^ 64) (h : Rust.helloFrom s = .ok b) :
    s.fields 0 = some b.supportedMajor.toNat ∧ s.fields 1 = some b.supportedMinor.toNat ∧
      s.fields 2 = some b.capabilities.toNat ∧ s.fields 3 = some b.configurationRevision.toNat ∧
      s.fields 4 = b.utcMs.map UInt64.toNat ∧ s.fields 5 = b.utcUncertaintyMs.map UInt32.toNat := by
  obtain ⟨v0, h0, h⟩ := required_bind_eq_ok.mp h
  obtain ⟨major, hmajor, h⟩ := except_bind_eq_ok.mp h
  obtain ⟨v1, h1, h⟩ := required_bind_eq_ok.mp h
  obtain ⟨minor, hminor, h⟩ := except_bind_eq_ok.mp h
  obtain ⟨v2, h2, h⟩ := required_bind_eq_ok.mp h
  obtain ⟨capabilities, hcapabilities, h⟩ := except_bind_eq_ok.mp h
  obtain ⟨v3, h3, h⟩ := required_bind_eq_ok.mp h
  obtain ⟨revision, hrevision, h⟩ := except_bind_eq_ok.mp h
  obtain ⟨uncertainty, huncertainty, h⟩ := except_bind_eq_ok.mp h
  cases h
  refine ⟨by rw [h0, toNat_byte hmajor], by rw [h1, toNat_byte hminor],
    by rw [h2, toNat_word hcapabilities], by rw [h3, toNat_word hrevision], ?_,
    optionalWord_eq_ok huncertainty⟩
  cases h4 : s.fields 4 with
  | none => rfl
  | some v =>
    have hv : (UInt64.ofNat v).toNat = v := by
      rw [UInt64.toNat_ofNat', Nat.mod_eq_of_lt (hlong v h4)]
    simp [hv]

private theorem pairFrom_eq_ok {s : Rust.ControlFields} {b : Rust.PairBody}
    (h : Rust.pairFrom s = .ok b) : Encodable (.pair b) ∧
      s.identities 0 = some b.pairingIdentity ∧ s.identities 1 = some b.intendedPeerIdentity ∧
      s.fields 2 = some b.matchingCode.toNat := by
  obtain ⟨v2, h2, h⟩ := required_bind_eq_ok.mp h
  obtain ⟨code, hcode, h⟩ := except_bind_eq_ok.mp h
  obtain ⟨_, hcheck, h⟩ := except_bind_eq_ok.mp h
  obtain ⟨sender, h0, h⟩ := required_bind_eq_ok.mp h
  obtain ⟨peer, h1, h⟩ := required_bind_eq_ok.mp h
  have hrange := check_eq_ok.mp hcheck
  cases h
  exact ⟨hrange, h0, h1, by rw [h2, toNat_word hcode]⟩

private theorem commandFrom_eq_ok {s : Rust.ControlFields} {b : Rust.CommandBody}
    (h : Rust.commandFrom s = .ok b) :
    s.fields 0 = some b.commandIdentity.toNat ∧ s.fields 1 = some b.operation.code := by
  obtain ⟨v0, h0, h⟩ := required_bind_eq_ok.mp h
  obtain ⟨identity, hidentity, h⟩ := except_bind_eq_ok.mp h
  obtain ⟨v1, h1, h⟩ := required_bind_eq_ok.mp h
  obtain ⟨operation, hoperation, h⟩ := except_bind_eq_ok.mp h
  cases h
  exact ⟨by rw [h0, toNat_word hidentity], by rw [h1, op_eq_ok hoperation]⟩

private theorem commandReplyFrom_eq_ok {s : Rust.ControlFields} {b : Rust.CommandReplyBody}
    (h : Rust.commandReplyFrom s = .ok b) :
    s.fields 0 = some b.commandIdentity.toNat ∧ s.fields 1 = some b.operation.code ∧
      s.fields 2 = some b.result.code := by
  obtain ⟨v0, h0, h⟩ := required_bind_eq_ok.mp h
  obtain ⟨identity, hidentity, h⟩ := except_bind_eq_ok.mp h
  obtain ⟨v1, h1, h⟩ := required_bind_eq_ok.mp h
  obtain ⟨operation, hoperation, h⟩ := except_bind_eq_ok.mp h
  obtain ⟨v2, h2, h⟩ := required_bind_eq_ok.mp h
  obtain ⟨result, hresult, h⟩ := except_bind_eq_ok.mp h
  cases h
  exact ⟨by rw [h0, toNat_word hidentity], by rw [h1, op_eq_ok hoperation],
    by rw [h2, result_eq_ok hresult]⟩

private theorem held_helloFields {kind : Rust.MessageType} (hkind : kind ≠ .pair)
    {s : Rust.ControlFields} {b : Rust.HelloBody} (hlong : ∀ v ∈ s.fields 4, v < 2 ^ 64)
    (h : Rust.helloFrom s = .ok b) :
    (List.range 6).filterMap (Field.held kind s) = helloFields b := by
  obtain ⟨h0, h1, h2, h3, h4, h5⟩ := helloFrom_eq_ok hlong h
  have hrange : List.range 6 = [0, 1, 2, 3, 4, 5] := rfl
  unfold helloFields
  cases hu : b.utcMs <;> cases hc : b.utcUncertaintyMs <;>
    simp [hrange, Field.held, hkind, h0, h1, h2, h3, h4, h5, hu, hc]

/-- The fields a body was built from, in key order, are the fields of the body. -/
private theorem held_fieldsOf {kind : Rust.MessageType} {known : ℕ}
    (hknown : Rust.knownMax kind = .ok known) {s : Rust.ControlFields} {b : Rust.ControlBody}
    (hlong : 4 ≤ known → ∀ v ∈ s.fields 4, v < 2 ^ 64) (h : Rust.controlFrom kind s = .ok b) :
    kind = kindOf b ∧ Encodable b ∧
      (List.range (known + 1)).filterMap (Field.held kind s) = fieldsOf b := by
  have hrange2 : List.range 2 = [0, 1] := rfl
  have hrange3 : List.range 3 = [0, 1, 2] := rfl
  cases kind with
  | hello =>
    cases hknown
    obtain ⟨b, hb, rfl⟩ := except_map_eq_ok.mp h
    exact ⟨rfl, trivial, held_helloFields (by decide) (hlong (by omega)) hb⟩
  | helloReply =>
    cases hknown
    obtain ⟨b, hb, rfl⟩ := except_map_eq_ok.mp h
    exact ⟨rfl, trivial, held_helloFields (by decide) (hlong (by omega)) hb⟩
  | pair =>
    cases hknown
    obtain ⟨b, hb, rfl⟩ := except_map_eq_ok.mp h
    obtain ⟨hcode, h0, h1, h2⟩ := pairFrom_eq_ok hb
    exact ⟨rfl, hcode, by simp [hrange3, Field.held, h0, h1, h2, fieldsOf]⟩
  | command =>
    cases hknown
    obtain ⟨b, hb, rfl⟩ := except_map_eq_ok.mp h
    obtain ⟨h0, h1⟩ := commandFrom_eq_ok hb
    exact ⟨rfl, trivial, by simp [hrange2, Field.held, h0, h1, fieldsOf]⟩
  | commandReply =>
    cases hknown
    obtain ⟨b, hb, rfl⟩ := except_map_eq_ok.mp h
    obtain ⟨h0, h1, h2⟩ := commandReplyFrom_eq_ok hb
    exact ⟨rfl, trivial, by simp [hrange3, Field.held, h0, h1, h2, fieldsOf]⟩
  | snapshot => cases h
  | error => cases h

/-- What is held has been read in key order. -/
private def FieldsBelow (kind : Rust.MessageType) (s : Rust.ControlFields) : Prop :=
  ∀ j, (∀ old ∈ s.prior, old < j) → Field.held kind s j = none

private theorem fieldsBelow_init (kind : Rust.MessageType) : FieldsBelow kind {} := by
  intro j _
  simp [Field.held]

private theorem fieldsBelow_store {kind : Rust.MessageType} {known : ℕ} {s : Rust.ControlFields}
    {f : Field} (hs : FieldsBelow kind s) (h : f.Fits kind known s) :
    FieldsBelow kind (f.store s) := by
  intro j hj
  have hlt : f.key < j := hj f.key (by rw [Field.store_prior]; rfl)
  rw [Field.held_store h, Function.update_of_ne (by omega)]
  exact hs j fun old hold => (h.order old hold).trans hlt

/-- A body with known keys only is the one the encoder writes. -/
theorem body_canonical {kind : Rust.MessageType} {u : List UInt8} {b : Rust.ControlBody}
    (h : Rust.decodeControlBody kind u = .ok b) (hkeys : bodyWithin kind u = true)
    (hlen : u.length ≤ 512) : kind = kindOf b ∧ Encodable b ∧ u = bodyBytes b := by
  rw [decodeControlBody_eq_ok] at h
  unfold controlBody at h
  split_ifs at h with herr
  · obtain ⟨len, m, hhead, h₁⟩ := bind_eq_ok.mp h
    obtain ⟨body, m', htake, h₂⟩ := bind_eq_ok.mp h₁
    cases h₂
    obtain ⟨rfl, rfl⟩ := take_eq_ok.mp htake
    obtain ⟨rfl, -⟩ := expectUint_eq_ok hhead
    refine ⟨herr, ?_, by simp [bodyBytes, uint_eq_head]⟩
    -- a byte string this long has three bytes of head
    by_contra hlong
    have hhead := three_le_length_head (m := 2) (v := body.length)
      (by simp only [Encodable] at hlong; omega)
    simp only [Encodable, List.length_append, List.length_nil] at hlong hlen
    omega
  · obtain ⟨known, m, hlift, h₁⟩ := bind_eq_ok.mp h
    obtain ⟨hknown, rfl⟩ := lift_eq_ok.mp hlift
    obtain ⟨s, m', hfields, h₂⟩ := bind_eq_ok.mp h₁
    obtain ⟨hfrom, rfl⟩ := lift_eq_ok.mp h₂
    obtain ⟨count, l, hcount, h₃⟩ := bind_eq_ok.mp hfields
    obtain ⟨h16, hloop⟩ := ensure_bind_eq_ok.mp h₃
    unfold bodyWithin at hkeys
    rw [hknown] at hkeys
    obtain ⟨keys, hrun, hkeys⟩ := within_eq_true hkeys
    obtain ⟨r', hmap⟩ := run_eq_ok.mp hrun
    obtain ⟨count', l', hcount', hprobe⟩ := bind_eq_ok.mp hmap
    rw [hcount] at hcount'
    cases hcount'
    obtain ⟨-, _, fs, -, -, hcount', hadmits, hl, hs⟩ :=
      items_of_loop (R := fun j f => Field.key f = j)
        (fun _ _ _ _ keys h => control_round keys h) hloop
        hprobe hkeys
    have hheld := items_determined (n := known + 1) (I := FieldsBelow kind)
      (fun _ f hs h => ⟨Nat.lt_succ_of_le h.known, fun j hj =>
        hs j fun old hold => (h.order old hold).trans_le hj⟩) (fun _ _ h => Field.held_store h)
      (fun _ _ hs h => fieldsBelow_store hs h) (fieldsBelow_init kind) hadmits
    rw [← hs] at hheld
    have hlong : 4 ≤ known → ∀ v ∈ s.fields 4, v < 2 ^ 64 := by
      intro h4 v hv
      have hmem : Field.number 4 v ∈ (List.range (known + 1)).filterMap (Field.held kind s) :=
        List.mem_filterMap.mpr ⟨4, List.mem_range.mpr (by omega), by
          simp [Field.held, Option.mem_def.mp hv]⟩
      rw [hheld] at hmem
      obtain ⟨s', hfits⟩ := hadmits.exists_fits (by simpa [Field.held] using hmem)
      exact hfits.typed.2
    obtain ⟨hkind, hb, hfs⟩ := held_fieldsOf hknown hlong hfrom
    have hinit : (List.range (known + 1)).filterMap (Field.held kind {}) = [] := by
      simp [Field.held]
    rw [hfs, hinit, List.nil_append] at hheld
    refine ⟨hkind, hb, ?_⟩
    have hbytes : bodyBytes b =
        Rust.uint 5 (fieldsOf b).length ++ (fieldsOf b).flatMap Field.bytes := by
      cases b with
      | error u => exact absurd hkind herr
      | _ => rfl
    rw [hbytes, hheld, hcount', uint_eq_head, (expectUint_eq_ok hcount).1, hl, List.append_nil]

/-- An accepted control frame opens, parses and decodes in steps. -/
private theorem control_of_decode {f : List UInt8} {e : Rust.Envelope} {b : Rust.ControlBody}
    (h : Rust.decode f = .ok (.control e b)) :
    ∃ c u, Rust.framePayload f = .ok c ∧ Rust.parsePayload c = .ok (e, u) ∧
      e.kind ≠ .snapshot ∧ Rust.decodeControlBody e.kind u = .ok b := by
  obtain ⟨⟨e', u⟩, hparse, h₁⟩ := except_bind_eq_ok.mp h
  obtain ⟨c, hc, hpayload⟩ := except_bind_eq_ok.mp hparse
  dsimp only at h₁
  split_ifs at h₁ with hkind
  · obtain ⟨_, -, h₂⟩ := except_bind_eq_ok.mp h₁
    cases h₂
  · obtain ⟨b', hb, h₂⟩ := except_bind_eq_ok.mp h₁
    cases h₂
    exact ⟨c, u, hc, hpayload, hkind, hb⟩

/-- A body is decoded as what its type says. -/
private theorem kind_of_decode {kind : Rust.MessageType} {u : List UInt8} {b : Rust.ControlBody}
    (h : Rust.decodeControlBody kind u = .ok b) : kind = kindOf b := by
  rw [decodeControlBody_eq_ok] at h
  unfold controlBody at h
  split_ifs at h with herr
  · obtain ⟨len, m, -, h₁⟩ := bind_eq_ok.mp h
    obtain ⟨body, m', -, h₂⟩ := bind_eq_ok.mp h₁
    cases h₂
    exact herr
  · obtain ⟨known, m, -, h₁⟩ := bind_eq_ok.mp h
    obtain ⟨s, m', -, h₂⟩ := bind_eq_ok.mp h₁
    obtain ⟨hfrom, -⟩ := lift_eq_ok.mp h₂
    cases kind with
    | snapshot => cases hfrom
    | error => exact absurd rfl herr
    | _ =>
      obtain ⟨b', -, rfl⟩ := except_map_eq_ok.mp hfrom
      rfl

/-- A frame is decoded as the message its type names. -/
theorem control_kind {f : List UInt8} {e : Rust.Envelope} {b : Rust.ControlBody}
    (h : Rust.decode f = .ok (.control e b)) : e.kind = kindOf b := by
  obtain ⟨c, u, -, -, -, hb⟩ := control_of_decode h
  exact kind_of_decode hb

theorem snapshot_kind {f : List UInt8} {e : Rust.Envelope} {s : Rust.Snapshot}
    (h : Rust.decode f = .ok (.snapshot e s)) : e.kind = .snapshot := by
  obtain ⟨⟨e', u⟩, -, h₁⟩ := except_bind_eq_ok.mp h
  dsimp only at h₁
  split_ifs at h₁ with hkind
  · obtain ⟨_, -, h₂⟩ := except_bind_eq_ok.mp h₁
    cases h₂
    exact hkind
  · obtain ⟨_, -, h₂⟩ := except_bind_eq_ok.mp h₁
    cases h₂

/-- A decoded Error leaves room for the length of its body. -/
theorem error_length_le {f u : List UInt8} {e : Rust.Envelope}
    (h : Rust.decode f = .ok (.control e (.error u))) : u.length ≤ 509 := by
  obtain ⟨c, body, -, hparse, hkind, hb⟩ := control_of_decode h
  have herr : e.kind = .error := kind_of_decode hb
  have hkeys : bodyWithin e.kind body = true := by
    rw [herr]
    rfl
  exact (body_canonical hb hkeys (body_bound hparse hkind)).2.1

/-- A decoded Pair has a matching code of six digits. -/
theorem pair_encodable {f : List UInt8} {e : Rust.Envelope} {b : Rust.PairBody}
    (h : Rust.decode f = .ok (.control e (.pair b))) : Encodable (.pair b) := by
  obtain ⟨c, u, -, -, -, hb⟩ := control_of_decode h
  have hpair : e.kind = .pair := kind_of_decode hb
  rw [hpair, decodeControlBody_eq_ok] at hb
  obtain ⟨known, m, -, h₁⟩ := bind_eq_ok.mp hb
  obtain ⟨s, m', -, h₂⟩ := bind_eq_ok.mp h₁
  obtain ⟨hfrom, -⟩ := lift_eq_ok.mp h₂
  obtain ⟨b', hb', heq⟩ := except_map_eq_ok.mp hfrom
  cases heq
  exact (pairFrom_eq_ok hb').1

/-- `decode` inverts `encode_control`, and `encode_control` writes the one control
frame without unknown keys that `decode` reads as its message. -/
theorem control_round_trip (e : Rust.Envelope) (b : Rust.ControlBody) (f : List UInt8) :
    (e.major = 1 → Rust.encodeControl e b = .ok f → Rust.decode f = .ok (.control e b)) ∧
      (Rust.decode f = .ok (.control e b) → knownKeys f = true →
        Rust.encodeControl e b = .ok f) := by
  refine ⟨fun hmajor h => decode_of_encodeControl hmajor h, fun h hkeys => ?_⟩
  obtain ⟨c, u, hc, hparse, hkind, hb⟩ := control_of_decode h
  obtain ⟨rfl, -, hsize⟩ := framePayload_eq_ok.mp hc
  unfold knownKeys Rust.parseEnvelope at hkeys
  rw [hc, except_ok_bind, hparse] at hkeys
  obtain ⟨henvelope, hbody⟩ := Bool.and_eq_true_iff.mp hkeys
  have hlen := body_bound hparse hkind
  obtain ⟨hk, hencodable, rfl⟩ := body_canonical hb hbody hlen
  obtain ⟨-, tail, htail, rfl⟩ := payload_canonical hparse henvelope
  refine encodeControl_eq_ok.mpr ⟨hk, hencodable, hlen, tail, htail, ?_⟩
  exact finishFrame_eq_ok.mpr ⟨by simp only [Rust.maxFrameBytes]; omega, rfl⟩

/-- A Command with a local offset, there and back. -/
theorem control_round_trip_command :
    let e : Rust.Envelope := ⟨1, 0, .command, Octets.zero 16, 7, none, none, some (-90)⟩
    let b : Rust.ControlBody := .command ⟨300, .unpair⟩
    ∃ f, Rust.encodeControl e b = .ok f ∧ Rust.decode f = .ok (.control e b) ∧
      Rust.encodeControl e b = .ok f := by
  intro e b
  obtain ⟨f, hf⟩ : ∃ f, Rust.encodeControl e b = .ok f := ⟨_, rfl⟩
  have hdecode := (control_round_trip e b f).1 rfl hf
  refine ⟨f, hf, hdecode, (control_round_trip e b f).2 hdecode ?_⟩
  cases hf
  decide +kernel

end CydMonitor.Codec
