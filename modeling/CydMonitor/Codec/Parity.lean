import CydMonitor.Codec.Divergence
import CydMonitor.Codec.Sealing

/-!
# Parity of the two codecs

Every frame that one codec accepts, the other accepts as the same message. A
rejected frame gets the same error from both unless it is one of `Diverges`.
-/

namespace CydMonitor.Codec

open Cbor Scan

/-- `decode` on a payload. -/
def hostPayload : Scan UInt8 Rust.Error Rust.Message := do
  let count ← Rust.expectUint 5
  ensure (count ≤ 16) .malformed
  hostRest count {}

def devicePayload : Scan UInt8 Cpp.Error Cpp.Decoded := do
  let count ← (Cpp.readUInt 5).orFail .kMalformed
  ensure (count ≤ 16) .kMalformed
  deviceRest count {}

theorem hostDecode_eq (f : List UInt8) :
    Rust.decode f = (Rust.framePayload f >>= run hostPayload) := by
  unfold Rust.decode Rust.parseEnvelope
  cases Rust.framePayload f with
  | error e => rfl
  | ok c =>
    change (Rust.parsePayload c >>= finish) = run hostPayload c
    unfold Rust.parsePayload Rust.envelopeFields hostPayload hostRest
    rw [run_bind]
    simp only [bind_assoc, lift_bind]

theorem deviceDecode_eq (f : List UInt8) :
    Cpp.decode f = (Cpp.framePayload f >>= run devicePayload) := by
  unfold Cpp.decode Cpp.decodePayload Cpp.envelopeFields devicePayload deviceRest
  simp only [bind_assoc]

/-- The frames that both codecs reject, each with an error of its own: intact, well
formed up to the body, with a body of `BodyApart`. -/
def Diverges (f : List UInt8) : Prop :=
  ∃ (c : List UInt8) (n : ℕ) (es : List Entry) (r : List UInt8),
    f = Rust.sealFrame c ∧ c.length ≤ 2042 ∧
    c = Rust.uint 5 n ++ es.flatMap Entry.bytes ++ Rust.uint 0 5 ++ r ∧
    n ≤ 16 ∧ es.length < n ∧ (∀ e ∈ es, e.key < 5) ∧ (es.map Entry.key).Pairwise (· < ·) ∧
    BodyApart (es.foldl Entry.typed none) r

/-- `Diverges`, on an opened frame. -/
private theorem diverges_iff {f c : List UInt8} (hf : Rust.framePayload f = .ok c) :
    Diverges f ↔ ∃ n r, c = Rust.uint 5 n ++ r ∧ n ≤ 16 ∧ DivergesFrom n {} r := by
  obtain ⟨rfl, h1, h2⟩ := framePayload_eq_ok.mp hf
  constructor
  · rintro ⟨c', n, es, r, hseal, hlen, rfl, hn, hes, h5, hsorted, hr⟩
    have hpos : 1 ≤ (Rust.uint 5 n).length := by
      rw [uint_eq_head]
      exact length_head_pos 5 n
    have hc' := framePayload_eq_ok.mpr ⟨hseal, by simp only [List.length_append]; omega, hlen⟩
    rw [hf] at hc'
    cases hc'
    exact ⟨n, _, by simp only [List.append_assoc], hn, es, r, rfl, hes,
      fun e he => ⟨h5 e he, by simp⟩, hsorted, hr⟩
  · rintro ⟨n, r', rfl, hn, es, r, rfl, hes, h5, hsorted, hr⟩
    exact ⟨_, n, es, r, rfl, h2, by simp only [List.append_assoc], hn, hes,
      fun e he => (h5 e he).1, hsorted, hr⟩

private theorem not_diverges {f : List UInt8} {e : Rust.Error}
    (hf : Rust.framePayload f = .error e) : ¬Diverges f := by
  rintro ⟨c, n, es, r, hseal, hlen, rfl, -⟩
  have hpos : 1 ≤ (Rust.uint 5 n).length := by
    rw [uint_eq_head]
    exact length_head_pos 5 n
  rw [framePayload_eq_ok.mpr ⟨hseal, by simp only [List.length_append]; omega, hlen⟩] at hf
  cases hf

private theorem verdict_payload {c : List UInt8} (hc : c.length ≤ Cpp.kMaxFrameBytes) :
    Verdict (∃ n r, c = Rust.uint 5 n ++ r ∧ n ≤ 16 ∧ DivergesFrom n {} r) (hostPayload c)
      (devicePayload c) := by
  unfold hostPayload devicePayload
  rcases read_number 5 c with ⟨n, m, hn, rfl, hhost, hdevice⟩ | ⟨hhost, hdevice⟩
  · rw [bind_ok hhost, bind_ok hdevice]
    have hunique {n' : ℕ} {r : List UInt8} (hn' : n' ≤ 16)
        (h : Rust.uint 5 n ++ m = Rust.uint 5 n' ++ r) : n = n' ∧ m = r := by
      rw [uint_eq_head, uint_eq_head] at h
      exact head_append_inj (by omega) hn (by omega) h
    by_cases h16 : n ≤ 16
    · rw [ensure_true h16, ensure_true h16, Scan.pure_bind, Scan.pure_bind]
      have hm : m.length ≤ Cpp.kMaxFrameBytes := by
        simp only [List.length_append] at hc
        omega
      refine (verdict_rest n EnvelopeMatch.init (by simp) hm).congr ⟨?_, ?_⟩
      · rintro ⟨n', r, hr, hn', hd⟩
        obtain ⟨rfl, rfl⟩ := hunique hn' hr
        exact hd
      · exact fun hd => ⟨n, m, rfl, h16, hd⟩
    · rw [ensure_false h16, ensure_false h16]
      refine .malformed ?_ rfl rfl
      rintro ⟨n', r, hr, hn', -⟩
      obtain ⟨rfl, -⟩ := hunique hn' hr
      exact h16 hn'
  · refine .malformed ?_ (bind_error hhost) (bind_error hdevice)
    rintro ⟨n, r, rfl, hn, -⟩
    rw [uint_eq_head, reads_expectUint (by omega) (by omega) r] at hhost
    cases hhost

/-- The device's answer, for a Host answer. -/
def answer : Except Rust.Error Rust.Message → Except Cpp.Error Cpp.Decoded
  | .ok m => .ok (image m)
  | .error e => .error (ofError e)

/-- The outcomes of the two codecs on any bytes: one answer, or two errors. -/
theorem decode_outcome (f : List UInt8) :
    (¬Diverges f ∧ Cpp.decode f = answer (Rust.decode f)) ∨
    (Diverges f ∧ ∃ e e', Rust.decode f = .error e ∧ Cpp.decode f = .error e' ∧
      e' ≠ ofError e) := by
  rw [hostDecode_eq, deviceDecode_eq]
  rcases framePayload_parity f with ⟨c, hhost, hdevice⟩ | ⟨e, hhost, hdevice⟩
  · rw [hhost, hdevice, diverges_iff hhost]
    have hc : c.length ≤ Cpp.kMaxFrameBytes :=
      (framePayload_eq_ok.mp hhost).2.2.trans (by decide)
    have hverdict := verdict_payload hc
    by_cases hD : ∃ n r, c = Rust.uint 5 n ++ r ∧ n ≤ 16 ∧ DivergesFrom n {} r
    · obtain ⟨e, e', he, he', hne⟩ := hverdict.apart hD
      exact Or.inr ⟨hD, e, e', run_eq_error.mpr he, run_eq_error.mpr he', hne⟩
    · refine Or.inl ⟨hD, ?_⟩
      have hsame := hverdict.same hD
      simp only [except_ok_bind, run]
      generalize hostPayload c = x at hsame ⊢
      generalize devicePayload c = y at hsame ⊢
      cases hsame with
      | ok h _ => rw [h]; rfl
      | error h => rw [h]; rfl
  · rw [hhost, hdevice]
    exact Or.inl ⟨not_diverges hhost, rfl⟩

/-- Both codecs accept the same frames, as the same messages. -/
theorem acceptance_parity (f : List UInt8) :
    ((∃ m, Rust.decode f = .ok m) ↔ ∃ d, Cpp.decode f = .ok d) ∧
      ∀ m d, Rust.decode f = .ok m → Cpp.decode f = .ok d → d = image m := by
  rcases decode_outcome f with ⟨-, h⟩ | ⟨-, e, e', hhost, hdevice, -⟩
  · rw [h]
    cases Rust.decode f with
    | ok m => exact ⟨⟨fun _ => ⟨image m, rfl⟩, fun _ => ⟨m, rfl⟩⟩, by
        intro m' d hm hd
        cases hm
        cases hd
        rfl⟩
    | error e => simp [answer]
  · simp [hhost, hdevice]

/-- A rejected frame gets one error from both codecs exactly outside `Diverges`. -/
theorem rejection_parity_iff (f : List UInt8) :
    ((∃ e, Rust.decode f = .error e) ∨ (∃ e, Cpp.decode f = .error e) →
      ∃ e, Rust.decode f = .error e ∧ Cpp.decode f = .error (ofError e)) ↔ ¬Diverges f := by
  rcases decode_outcome f with ⟨hD, h⟩ | ⟨hD, e, e', hhost, hdevice, hne⟩
  · rw [h]
    simp only [hD, not_false_eq_true, iff_true]
    cases Rust.decode f with
    | ok m => simp [answer]
    | error e => exact fun _ => ⟨e, rfl, rfl⟩
  · simp only [hD, not_true, iff_false]
    intro hsame
    obtain ⟨e₁, h₁, h₂⟩ := hsame (Or.inl ⟨e, hhost⟩)
    rw [hhost] at h₁
    rw [hdevice] at h₂
    cases h₁
    cases h₂
    exact hne rfl

/-- A body of 513 bytes, and no message type before it. -/
def untypedBodyFrame : List UInt8 :=
  Rust.sealFrame ([0xa1, 0x05, 0x59, 0x02, 0x01] ++ List.replicate 513 0)

theorem rejection_parity_fails : ¬∀ f : List UInt8,
    (∃ e, Rust.decode f = .error e) ∨ (∃ e, Cpp.decode f = .error e) →
      ∃ e, Rust.decode f = .error e ∧ Cpp.decode f = .error (ofError e) := by
  intro h
  have hhost : Rust.decode untypedBodyFrame = .error .malformed := by decide +kernel
  have hdevice : Cpp.decode untypedBodyFrame = .error .kTooLarge := by decide +kernel
  obtain ⟨e, he, he'⟩ := h untypedBodyFrame (Or.inl ⟨_, hhost⟩)
  rw [hhost] at he
  rw [hdevice] at he'
  cases he
  cases he'

end CydMonitor.Codec
