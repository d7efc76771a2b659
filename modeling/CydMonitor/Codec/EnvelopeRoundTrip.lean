import CydMonitor.Codec.KnownKeys
import CydMonitor.Codec.Parity

/-!
# Envelopes round trip

The encoders write an envelope as its entries in key order. The Host reads these
back, and an envelope without unknown keys is nothing else.
-/

namespace CydMonitor.Codec

open Cbor Scan

/-- The optional entries after the body. -/
def timesOf (e : Rust.Envelope) : List Entry :=
  e.utcMs.toList.map Entry.utcMs ++ e.utcUncertaintyMs.toList.map Entry.uncertainty ++
    e.localOffsetMinutes.toList.map Entry.offset

/-- The entries of an envelope with its body, in key order. -/
def entriesOf (e : Rust.Envelope) (body : List UInt8) : List Entry :=
  [.major, .minor e.minor, .kind (typeOf e.kind), .session e.session, .sequence e.sequence,
    .body body] ++ timesOf e

@[simp] theorem typeOf_toNat (kind : Rust.MessageType) : (typeOf kind).toNat = kind.code := by
  cases kind <;> rfl

theorem envelopeEnd_eq_ok {e : Rust.Envelope} {tail : List UInt8} :
    Rust.envelopeEnd e = .ok tail ↔ (∀ z ∈ e.localOffsetMinutes, -1440 ≤ z ∧ z ≤ 1440) ∧
      tail = (timesOf e).flatMap Entry.bytes := by
  unfold Rust.envelopeEnd timesOf
  cases e.localOffsetMinutes with
  | none =>
    cases e.utcMs <;> cases e.utcUncertaintyMs <;> simp [Entry.bytes, eq_comm]
  | some z =>
    by_cases hz : z < -1440 ∨ 1440 < z
    · have hz' : ¬(-1440 ≤ z ∧ z ≤ 1440) := by omega
      simp [hz, hz']
    · have hz' : -1440 ≤ z ∧ z ≤ 1440 := by omega
      simp only [hz, if_false]
      cases e.utcMs <;> cases e.utcUncertaintyMs <;> simp [Entry.bytes, hz', eq_comm]

/-- The encoders write a map of the envelope's entries. -/
theorem payload_eq {e : Rust.Envelope} (hmajor : e.major = 1) {tail : List UInt8}
    (h : Rust.envelopeEnd e = .ok tail) (body : List UInt8) :
    Rust.envelopeStart e ++ body ++ tail =
      Rust.uint 5 (entriesOf e body).length ++ (entriesOf e body).flatMap Entry.bytes := by
  rw [(envelopeEnd_eq_ok.mp h).2]
  have hhead : [UInt8.ofNat (0xa6 + e.utcMs.isSome.toNat + e.utcUncertaintyMs.isSome.toNat +
      e.localOffsetMinutes.isSome.toNat)] = Rust.uint 5 (entriesOf e body).length := by
    unfold entriesOf timesOf
    cases e.utcMs <;> cases e.utcUncertaintyMs <;> cases e.localOffsetMinutes <;> rfl
  unfold Rust.envelopeStart
  rw [hhead]
  have hcode : e.kind.code % 256 = e.kind.code := by cases e.kind <;> rfl
  simp [entriesOf, Entry.bytes, Rust.uintEntries, Rust.bytesEntry, hmajor, hcode]

theorem length_entriesOf_le (e : Rust.Envelope) (body : List UInt8) :
    (entriesOf e body).length ≤ 9 := by
  unfold entriesOf timesOf
  cases e.utcMs <;> cases e.utcUncertaintyMs <;> cases e.localOffsetMinutes <;> simp

private theorem fits_plain {s : Rust.EnvelopeFields} {k : Entry}
    (ho : ∀ old ∈ s.previous, old < k.key) (hb : ∀ u, k ≠ .body u) (hz : ∀ z, k ≠ .offset z) :
    k.Fits s :=
  ⟨ho, fun u hu => absurd hu (hb u), fun z hz' => absurd hz' (hz z)⟩

/-- Entries in key order after the body. -/
private theorem admits_timesOf (e : Rust.Envelope)
    (hz : ∀ z ∈ e.localOffsetMinutes, -1440 ≤ z ∧ z ≤ 1440) {s : Rust.EnvelopeFields}
    (hs : s.previous = some 5) :
    Admits (fun s k => Entry.Fits s k) Entry.store s (timesOf e) := by
  have hutc (s : Rust.EnvelopeFields) (v : UInt64) :
      Entry.Fits s (.utcMs v) ↔ ∀ old ∈ s.previous, old < 6 :=
    ⟨fun h => h.order, fun ho => fits_plain ho (by simp) (by simp)⟩
  have huncertainty (s : Rust.EnvelopeFields) (v : UInt32) :
      Entry.Fits s (.uncertainty v) ↔ ∀ old ∈ s.previous, old < 7 :=
    ⟨fun h => h.order, fun ho => fits_plain ho (by simp) (by simp)⟩
  have hoffset (s : Rust.EnvelopeFields) (z : ℤ) : Entry.Fits s (.offset z) ↔
      (∀ old ∈ s.previous, old < 8) ∧ -1440 ≤ z ∧ z ≤ 1440 :=
    ⟨fun h => ⟨h.order, h.offset z rfl⟩, fun ho => ⟨ho.1, fun u hu => (by cases hu), fun v hv => by
      cases hv
      exact ho.2⟩⟩
  unfold timesOf
  cases e.utcMs <;> cases e.utcUncertaintyMs <;> cases h : e.localOffsetMinutes <;>
    simp [Admits, hutc, huncertainty, hoffset, hs, Entry.key]
  all_goals exact hz _ h

/-- Every entry fits when the body does. -/
theorem admits_entriesOf {e : Rust.Envelope} {body : List UInt8}
    (hz : ∀ z ∈ e.localOffsetMinutes, -1440 ≤ z ∧ z ≤ 1440) (hskip : Reads Rust.skipBody body ())
    (hlen : e.kind ≠ .snapshot → body.length ≤ 512) :
    Admits (fun s k => Entry.Fits s k) Entry.store {} (entriesOf e body) := by
  refine admits_append.mpr ⟨⟨?_, ?_, ?_, ?_, ?_, ?_, trivial⟩, admits_timesOf e hz rfl⟩
  · exact fits_plain (by simp) (by simp) (by simp)
  · exact fits_plain (by simp [Entry.key]) (by simp) (by simp)
  · exact fits_plain (by simp [Entry.key]) (by simp) (by simp)
  · exact fits_plain (by simp [Entry.key]) (by simp) (by simp)
  · exact fits_plain (by simp [Entry.key]) (by simp) (by simp)
  · refine ⟨by simp [Entry.key], fun u hu => ?_, fun v hv => (by cases hv)⟩
    cases hu
    exact ⟨e.kind, rfl, hskip, hlen⟩

/-- What the Host's locals hold at the end. -/
theorem envelopeFrom_entriesOf {e : Rust.Envelope} (hmajor : e.major = 1) (body : List UInt8) :
    Rust.envelopeFrom ((entriesOf e body).foldl Entry.store {}) = .ok (e, body) := by
  rw [envelopeFrom_eq_ok]
  obtain ⟨major, minor, kind, session, sequence, utcMs, uncertainty, offset⟩ := e
  cases hmajor
  cases utcMs <;> cases uncertainty <;> cases offset <;>
    exact ⟨rfl, rfl, rfl, rfl, rfl, rfl, rfl⟩

theorem finishFrame_eq_ok {c f : List UInt8} :
    Rust.finishFrame c = .ok f ↔ c.length + 6 ≤ Rust.maxFrameBytes ∧ f = Rust.sealFrame c := by
  unfold Rust.finishFrame
  split_ifs with h
  · simp [h]
  · simp only [Except.ok.injEq]
    constructor
    · rintro rfl
      exact ⟨by omega, rfl⟩
    · rintro ⟨-, rfl⟩
      rfl

/-- The frame an encoder finishes is decoded to what its body is decoded to. -/
theorem decode_finished {e : Rust.Envelope} (hmajor : e.major = 1) {tail body f : List UInt8}
    (htail : Rust.envelopeEnd e = .ok tail)
    (hf : Rust.finishFrame (Rust.envelopeStart e ++ body ++ tail) = .ok f)
    (hskip : Reads Rust.skipBody body ()) (hlen : e.kind ≠ .snapshot → body.length ≤ 512)
    {m : Rust.Message} (hm : finish (e, body) = .ok m) : Rust.decode f = .ok m := by
  obtain ⟨hsize, rfl⟩ := finishFrame_eq_ok.mp hf
  rw [payload_eq hmajor htail] at hsize ⊢
  have hcount := length_entriesOf_le e body
  have hloop := Reads.items (fun _ _ h => reads_entry h)
    (admits_entriesOf (envelopeEnd_eq_ok.mp htail).1 hskip hlen)
  have hread : hostPayload (Rust.uint 5 (entriesOf e body).length ++
      (entriesOf e body).flatMap Entry.bytes) = .ok (m, []) := by
    unfold hostPayload hostRest
    rw [uint_eq_head, bind_ok (reads_expectUint (by omega) (by omega) _),
      ensure_true (by omega), Scan.pure_bind, bind_ok hloop.whole, envelopeFrom_entriesOf hmajor,
      except_ok_bind, hm]
    rfl
  have hpos : 1 ≤ (Rust.uint 5 (entriesOf e body).length).length := by
    rw [uint_eq_head]
    exact length_head_pos _ _
  simp only [Rust.maxFrameBytes] at hsize
  rw [hostDecode_eq, framePayload_eq_ok.mpr ⟨rfl, by simp only [List.length_append]; omega,
    by omega⟩, except_ok_bind, run_eq_ok]
  exact ⟨[], hread⟩

/-- The entry that the Host's locals hold for a key. -/
def Entry.held (s : Rust.EnvelopeFields) : ℕ → Option Entry
  | 0 => s.major.map fun _ => .major
  | 1 => s.minor.map .minor
  | 2 => s.kind.map .kind
  | 3 => s.session.map .session
  | 4 => s.sequence.map .sequence
  | 5 => s.body.map .body
  | 6 => s.utcMs.map .utcMs
  | 7 => s.uncertainty.map .uncertainty
  | 8 => s.offset.map .offset
  | _ => none

private theorem held_store (s : Rust.EnvelopeFields) (e : Entry) :
    Entry.held (e.store s) = Function.update (Entry.held s) e.key (some e) := by
  funext j
  by_cases hj : j = e.key
  · subst hj
    cases e <;> rfl
  · rw [Function.update_of_ne hj]
    cases e <;> unfold Entry.held <;> split <;> first | rfl | contradiction

/-- What is held has been read in key order. -/
private def HeldBelow (s : Rust.EnvelopeFields) : Prop :=
  ∀ j, (∀ old ∈ s.previous, old < j) → Entry.held s j = none

private theorem heldBelow_init : HeldBelow {} := by
  intro j _
  unfold Entry.held
  split <;> rfl

private theorem heldBelow_store {s : Rust.EnvelopeFields} {e : Entry} (hs : HeldBelow s)
    (h : e.Fits s) : HeldBelow (e.store s) := by
  intro j hj
  have hlt : e.key < j := hj e.key (by rw [Entry.store_previous]; rfl)
  rw [held_store, Function.update_of_ne (by omega)]
  exact hs j fun old hold => (h.order old hold).trans hlt

private theorem held_entriesOf {s : Rust.EnvelopeFields} {e : Rust.Envelope} {u : List UInt8}
    (h : Rust.envelopeFrom s = .ok (e, u)) :
    (List.range 9).filterMap (Entry.held s) = entriesOf e u := by
  obtain ⟨hmajor, hminor, hkind, hsession, hsequence, hbody, he⟩ := envelopeFrom_eq_ok.mp h
  obtain ⟨v, hmajor⟩ := Option.isSome_iff_exists.mp hmajor
  have hrange : List.range 9 = [0, 1, 2, 3, 4, 5, 6, 7, 8] := rfl
  rw [he]
  cases hu : s.utcMs <;> cases hc : s.uncertainty <;> cases ho : s.offset <;>
    simp [hrange, Entry.held, hmajor, hminor, hkind, hsession, hsequence, hbody, hu, hc, ho,
      entriesOf, timesOf]

/-- A payload whose envelope has known keys only is the one the encoders write. -/
theorem payload_canonical {c u : List UInt8} {e : Rust.Envelope}
    (h : Rust.parsePayload c = .ok (e, u)) (hkeys : within 8 (run envelopeKeys c) = true) :
    e.major = 1 ∧ ∃ tail, Rust.envelopeEnd e = .ok tail ∧
      c = Rust.envelopeStart e ++ u ++ tail := by
  obtain ⟨r, h₁⟩ := run_eq_ok.mp h
  obtain ⟨s, m, hfields, h₂⟩ := bind_eq_ok.mp h₁
  obtain ⟨_, m', hend, h₃⟩ := bind_eq_ok.mp h₂
  obtain ⟨rfl, rfl⟩ := atEnd_eq_ok.mp hend
  obtain ⟨hfrom, -⟩ := lift_eq_ok.mp h₃
  obtain ⟨count, l, hcount, h₄⟩ := bind_eq_ok.mp hfields
  obtain ⟨h16, hloop⟩ := ensure_bind_eq_ok.mp h₄
  obtain ⟨keys, hrun, hknown⟩ := within_eq_true hkeys
  obtain ⟨r', hmap⟩ := run_eq_ok.mp hrun
  obtain ⟨count', l', hcount', hprobe⟩ := bind_eq_ok.mp hmap
  rw [hcount] at hcount'
  cases hcount'
  -- the entries behind the loop, and the state they leave
  obtain ⟨-, _, es, -, -, hlen, hadmits, hl, hs⟩ :=
    items_of_loop (R := fun j e => Entry.key e = j)
      (fun _ _ _ _ keys h => envelope_round keys h) hloop
      hprobe hknown
  have hheld := items_determined (n := 9) (I := HeldBelow) (fun _ e hs h => ⟨e.key_lt, fun j hj =>
      hs j fun old hold => (h.order old hold).trans_le hj⟩) (fun s e _ => held_store s e)
    (fun _ _ hs h => heldBelow_store hs h) heldBelow_init hadmits
  rw [← hs, held_entriesOf hfrom] at hheld
  have hes : es = entriesOf e u := hheld.symm
  have hmajor : e.major = 1 := by
    rw [(envelopeFrom_eq_ok.mp hfrom).2.2.2.2.2.2]
  have hz : ∀ z ∈ e.localOffsetMinutes, -1440 ≤ z ∧ z ≤ 1440 := by
    intro z hz
    have hmem : Entry.offset z ∈ es := by
      rw [hes]
      simp [entriesOf, timesOf, Option.mem_def.mp hz]
    obtain ⟨s', hfits⟩ := hadmits.exists_fits hmem
    exact hfits.offset z rfl
  refine ⟨hmajor, _, envelopeEnd_eq_ok.mpr ⟨hz, rfl⟩, ?_⟩
  rw [payload_eq hmajor (envelopeEnd_eq_ok.mpr ⟨hz, rfl⟩), ← hes, hlen, uint_eq_head,
    (expectUint_eq_ok hcount).1, hl, List.append_nil]

/-- The type of a body's frame is read before the body and bounds it. -/
private def BodyBound (s : Rust.EnvelopeFields) : Prop :=
  ∀ u ∈ s.body, (∃ old ∈ s.previous, 5 ≤ old) ∧
    ∃ kind, s.kind = some (typeOf kind) ∧ (kind ≠ .snapshot → u.length ≤ 512)

private theorem bodyBound_step {s s' : Rust.EnvelopeFields} {l r : List UInt8} (hs : BodyBound s)
    (h : Rust.envelopeEntry s l = .ok (s', r)) : BodyBound s' := by
  by_cases hb : s.body = none
  · rcases entry_of_ok h with ⟨e, hfits, -, rfl⟩ | ⟨k, _, -, -, rfl⟩
    · intro u hu
      cases e with
      | body u' =>
        cases hu
        obtain ⟨kind, hkind, -, hlen⟩ := hfits.body u rfl
        exact ⟨⟨5, rfl, le_rfl⟩, kind, hkind, hlen⟩
      | _ => exact absurd (hb.symm.trans hu) (by simp)
    · intro u hu
      exact absurd (hb.symm.trans hu) (by simp)
  · obtain ⟨u₀, hu₀⟩ := Option.ne_none_iff_exists'.mp hb
    obtain ⟨hp, kind, hkind, hlen⟩ := hs u₀ hu₀
    obtain ⟨hp', hk', hb'⟩ := past_step hp h
    intro u hu
    rw [hb', hu₀] at hu
    cases hu
    exact ⟨hp', kind, hk'.trans hkind, hlen⟩

theorem body_bound {c u : List UInt8} {e : Rust.Envelope}
    (h : Rust.parsePayload c = .ok (e, u)) (hkind : e.kind ≠ .snapshot) : u.length ≤ 512 := by
  obtain ⟨r, h₁⟩ := run_eq_ok.mp h
  obtain ⟨s, m, hfields, h₂⟩ := bind_eq_ok.mp h₁
  obtain ⟨_, m', -, h₃⟩ := bind_eq_ok.mp h₂
  obtain ⟨hfrom, -⟩ := lift_eq_ok.mp h₃
  obtain ⟨count, l, -, h₄⟩ := bind_eq_ok.mp hfields
  obtain ⟨-, hloop⟩ := ensure_bind_eq_ok.mp h₄
  have hbound : BodyBound s :=
    loop_invariant (fun _ _ _ _ hs h => bodyBound_step hs h) (by simp [BodyBound]) hloop
  obtain ⟨-, -, htype, -, -, hbody, -⟩ := envelopeFrom_eq_ok.mp hfrom
  obtain ⟨-, kind, hk, hlen⟩ := hbound u hbody
  rw [htype] at hk
  rw [typeOf_injective (Option.some.inj hk)] at hkind
  exact hlen hkind

end CydMonitor.Codec
