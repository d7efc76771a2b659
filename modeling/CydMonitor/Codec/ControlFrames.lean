import CydMonitor.Codec.DeviceRoundTrip

/-!
# The frames of control messages

A control message fits its frame whatever its fields are, and both ends write the same
one.
-/

namespace CydMonitor.Codec

open BigEndian Cbor Scan

private theorem length_uintEntries_le (es : List (ℕ × ℕ)) :
    (Rust.uintEntries es).length ≤ 18 * es.length := by
  induction es with
  | nil => simp [Rust.uintEntries]
  | cons e es ih =>
    have hkey := length_head_le 0 e.1
    have hvalue := length_head_le 0 e.2
    have hsplit : Rust.uintEntries (e :: es) =
        Rust.uint 0 e.1 ++ Rust.uint 0 e.2 ++ Rust.uintEntries es := rfl
    rw [hsplit, uint_eq_head, uint_eq_head, List.length_append, List.length_append,
      List.length_cons]
    omega

private theorem length_entry_le (key : ℕ) (v : Option ℕ) :
    (v.elim [] fun v => Rust.uintEntries [(key, v)]).length ≤ 18 := by
  cases v with
  | none => exact Nat.zero_le _
  | some v => exact length_uintEntries_le [(key, v)]

private theorem length_envelopeStart_le (e : Rust.Envelope) :
    (Rust.envelopeStart e).length ≤ 116 := by
  have hversion := length_uintEntries_le [(0, e.major.toNat), (1, e.minor.toNat), (2, e.kind.code)]
  have hsequence := length_uintEntries_le [(4, e.sequence.toNat)]
  have hkey := length_head_le 0 3
  have hlength := length_head_le 2 e.session.val.length
  have hbody := length_head_le 0 5
  have hsession := e.session.property
  simp only [List.length_cons, List.length_nil] at hversion hsequence
  simp only [Rust.envelopeStart, Rust.bytesEntry, uint_eq_head, List.length_append,
    List.length_cons, List.length_nil]
  omega

private theorem length_envelopeEnd_le {e : Rust.Envelope} {tail : List UInt8}
    (h : Rust.envelopeEnd e = .ok tail) : tail.length ≤ 54 := by
  have hutc := length_entry_le 6 (e.utcMs.map (·.toNat))
  have huncertainty := length_entry_le 7 (e.utcUncertaintyMs.map (·.toNat))
  rw [Option.elim_map] at hutc huncertainty
  rw [Rust.envelopeEnd] at h
  cases hoffset : e.localOffsetMinutes with
  | none =>
    rw [hoffset] at h
    cases h
    simp only [List.length_append]
    simp only [Function.comp_def] at hutc huncertainty
    omega
  | some offset =>
    rw [hoffset] at h
    dsimp only at h
    split_ifs at h
    cases h
    have hentry := length_uintEntries_le [(8, (offset + 1440).toNat)]
    simp only [List.length_cons, List.length_nil] at hentry
    simp only [List.length_append]
    simp only [Function.comp_def] at hutc huncertainty
    omega

private theorem exists_envelopeEnd {e : Rust.Envelope}
    (h : ∀ offset ∈ e.localOffsetMinutes, -1440 ≤ offset ∧ offset ≤ 1440) :
    ∃ tail, Rust.envelopeEnd e = .ok tail := by
  rw [Rust.envelopeEnd]
  cases hoffset : e.localOffsetMinutes with
  | none => exact ⟨_, rfl⟩
  | some offset =>
    obtain ⟨h1, h2⟩ := h offset hoffset
    dsimp only
    rw [if_neg (by omega)]
    exact ⟨_, rfl⟩

/-- What the device would have to encode for a Host body. -/
theorem encodeControlBody_withBody {e : Rust.Envelope} {b : Rust.ControlBody}
    (hkind : e.kind = kindOf b) (hb : Encodable b) :
    Cpp.encodeControlBody (withBody (ofEnvelope e) b) = .ok (bodyBytes b) := by
  have htype : (withBody (ofEnvelope e) b).type = typeOf (kindOf b) := by
    rw [← hkind]
    cases b <;> rfl
  rw [Cpp.encodeControlBody]
  cases b with
  | hello b =>
    have htype : (withBody (ofEnvelope e) (.hello b)).type = .kHello := htype
    rw [if_pos (Or.inl htype)]
    refine except_map_eq_ok.mpr ⟨ofHello b, rfl, (helloBytes_ofHello (ofHello b)).trans ?_⟩
    exact bodyBytes_of (m := .hello) rfl
  | helloReply b =>
    have htype : (withBody (ofEnvelope e) (.helloReply b)).type = .kHelloReply := htype
    rw [if_pos (Or.inr htype)]
    refine except_map_eq_ok.mpr ⟨ofHello b, rfl, (helloBytes_ofHello (ofHello b)).trans ?_⟩
    exact bodyBytes_of (m := .helloReply) rfl
  | pair b =>
    have htype : (withBody (ofEnvelope e) (.pair b)).type = .kPair := htype
    have hrange : 100000 ≤ b.matchingCode ∧ b.matchingCode ≤ 999999 := hb
    have hcode : (!(b.matchingCode < 100000 || b.matchingCode > 999999)) = true := by
      simpa [UInt32.not_lt] using hrange
    rw [if_neg (by rw [htype]; decide), if_pos htype]
    refine except_map_eq_ok.mpr ⟨ofPair b, needed_eq_ok.mpr ⟨rfl, hcode⟩, ?_⟩
    rw [pairBytes_ofPair]
    refine bodyBytes_of (m := .pair) (if_neg ?_)
    simp only [ne_eq, not_true, false_or, not_or, UInt32.not_lt]
    exact hrange
  | command b =>
    have htype : (withBody (ofEnvelope e) (.command b)).type = .kCommand := htype
    have hvalid : Cpp.validCommand (ofCommand b) false = true := by
      rcases b with ⟨identity, operation⟩
      cases operation <;> rfl
    rw [if_neg (by rw [htype]; decide), if_neg (by rw [htype]; decide), if_pos (Or.inl htype),
      htype]
    refine except_map_eq_ok.mpr ⟨ofCommand b, needed_eq_ok.mpr ⟨rfl, hvalid⟩, ?_⟩
    exact (commandBytes_ofCommand b).trans (bodyBytes_of (m := .command) rfl)
  | commandReply b =>
    have htype : (withBody (ofEnvelope e) (.commandReply b)).type = .kCommandReply := htype
    have hvalid : Cpp.validCommand (ofCommandReply b) true = true := by
      rcases b with ⟨identity, operation, result⟩
      cases operation <;> cases result <;> rfl
    rw [if_neg (by rw [htype]; decide), if_neg (by rw [htype]; decide), if_pos (Or.inr htype),
      htype]
    refine except_map_eq_ok.mpr ⟨ofCommandReply b, needed_eq_ok.mpr ⟨rfl, hvalid⟩, ?_⟩
    exact (commandBytes_ofCommandReply b).trans (bodyBytes_of (m := .commandReply) rfl)
  | error b =>
    have htype : (withBody (ofEnvelope e) (.error b)).type = .kError := htype
    have hlen : b.length ≤ 509 := hb
    rw [if_neg (by rw [htype]; decide), if_neg (by rw [htype]; decide),
      if_neg (by rw [htype]; decide), if_neg (by simp only [withBody]; omega)]
    rfl

/-- Both ends encode a control message, as the same frame. -/
theorem exists_controlFrame {e : Rust.Envelope} {b : Rust.ControlBody} (hkind : e.kind = kindOf b)
    (hb : Encodable b)
    (hoffset : ∀ offset ∈ e.localOffsetMinutes, -1440 ≤ offset ∧ offset ≤ 1440) :
    ∃ f, Rust.encodeControl e b = .ok f ∧ Cpp.encode (withBody (ofEnvelope e) b) = .ok f := by
  obtain ⟨tail, htail⟩ := exists_envelopeEnd hoffset
  have hstart := length_envelopeStart_le e
  have hend := length_envelopeEnd_le htail
  have hbody := length_bodyBytes_le hb
  have hfits : (Rust.envelopeStart e ++ bodyBytes b ++ tail).length + 6 ≤ Rust.maxFrameBytes := by
    simp only [List.length_append, Rust.maxFrameBytes]
    omega
  have hfinish := finishFrame_eq_ok.mpr ⟨hfits, rfl⟩
  refine ⟨_, encodeControl_eq_ok.mpr ⟨hkind, hb, hbody, tail, htail, hfinish⟩, ?_⟩
  have hstart' : Cpp.envelopeStart (withBody (ofEnvelope e) b) = Rust.envelopeStart e := by
    rw [← envelopeStart_eq]
    cases b <;> rfl
  have hend' : Cpp.envelopeEnd (withBody (ofEnvelope e) b) = ofResult (Rust.envelopeEnd e) := by
    rw [← envelopeEnd_eq]
    cases b <;> rfl
  have hmessage : Cpp.messageBody (withBody (ofEnvelope e) b) none = .ok (bodyBytes b) :=
    encodeControlBody_withBody hkind hb
  rw [Cpp.encode, sealed_eq hstart' hend' hmessage, htail]
  exact congrArg ofResult hfinish

end CydMonitor.Codec
