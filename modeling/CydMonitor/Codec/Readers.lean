import CydMonitor.Rust.Decoder
import CydMonitor.Cpp.Decoder

/-!
# The two codecs read the same primitives

Both number readers are the canonical head scanner, so numbers, byte strings and
skipped values agree between the codecs. Every Host scanner is local.
-/

namespace CydMonitor.Codec

open BigEndian Cbor Scan

private theorem width_cases {a : ℕ} (h : ¬a < 24) :
    (a = 24 ∨ a = 25 ∨ a = 26 ∨ a = 27) ∨
      (a ≠ 24 ∧ a ≠ 25 ∧ a ≠ 26 ∧ a ≠ 27) ∧ argument a = none := by
  by_cases h' : a = 24 ∨ a = 25 ∨ a = 26 ∨ a = 27
  · exact Or.inl h'
  · right
    refine ⟨by omega, ?_⟩
    unfold argument
    split <;> first | rfl | omega

/-- The tail of both readers is the head scanner's, once the width is known. -/
private theorem tail_eq {a : ℕ} (ha : ¬a < 24) (l : List UInt8) :
    (let n := if a = 24 then 1 else if a = 25 then 2 else if a = 26 then 4
        else if a = 27 then 8 else 0
      if n = 0 ∨ l.length < n then Except.error ()
      else
        let v := value (l.take n)
        if (a = 24 ∧ v < 24) ∨ (a = 25 ∧ v ≤ 255) ∨ (a = 26 ∧ v ≤ 65535) ∨
            (a = 27 ∧ v ≤ 2 ^ 32 - 1) then Except.error ()
        else Except.ok (v, l.drop n)) =
      match argument a with
      | none => .error ()
      | some (n, least) =>
        if l.length < n ∨ value (l.take n) < least then .error ()
        else .ok (value (l.take n), l.drop n) := by
  have split (n v least : ℕ) (x : Except Unit (ℕ × List UInt8)) :
      (if l.length < n then Except.error () else if v < least then Except.error () else x) =
        if l.length < n ∨ v < least then Except.error () else x := by
    by_cases h : l.length < n <;> simp [h]
  rcases width_cases ha with (rfl | rfl | rfl | rfl) | ⟨⟨h24, h25, h26, h27⟩, harg⟩
  · simpa [argument] using split 1 _ 24 _
  · have hle (v : ℕ) : v ≤ 255 ↔ v < 256 := by omega
    simpa [argument, hle] using split 2 _ 256 _
  · have hle (v : ℕ) : v ≤ 65535 ↔ v < 65536 := by omega
    simpa [argument, hle] using split 4 _ 65536 _
  · have hle (v : ℕ) : v ≤ 4294967295 ↔ v < 4294967296 := by omega
    simpa [argument, hle] using split 8 _ 4294967296 _
  · simp [harg, h24, h25, h26, h27]

theorem readUint_eq (m : ℕ) : Rust.readUint m = scanHead m := by
  funext l
  cases l with
  | nil => rfl
  | cons b l =>
    rw [scanHead_cons]
    unfold Rust.readUint
    by_cases ha : b.toNat % 32 < 24
    · simp only [ha, Nat.le_of_lt_succ ha, if_true]
    · simp only [ha, show ¬b.toNat % 32 ≤ 23 by omega, if_false]
      congr 1
      exact tail_eq ha l

theorem readUInt_eq (m : ℕ) : Cpp.readUInt m = scanHead m := by
  funext l
  cases l with
  | nil => rfl
  | cons b l =>
    rw [scanHead_cons]
    unfold Cpp.readUInt
    by_cases ha : b.toNat % 32 < 24
    · simp only [ha, if_true]
    · simp only [ha, if_false]
      congr 1
      exact tail_eq ha l

/-- The encoder writes canonical heads. -/
theorem uint_eq_head (m v : ℕ) : Rust.uint m v = head m v := by
  unfold Rust.uint head
  split_ifs <;> first | rfl | omega | simp [BigEndian.bytes]

theorem reads_expectUint {m v : ℕ} (hm : m < 8) (hv : v < 2 ^ 64) :
    Reads (Rust.expectUint m) (head m v) v := by
  unfold Rust.expectUint
  rw [readUint_eq]
  exact (reads_scanHead hm hv).orFail _

theorem expectUint_eq_ok {m v : ℕ} {l r : List UInt8} (h : Rust.expectUint m l = .ok (v, r)) :
    l = head m v ++ r ∧ v < 2 ^ 64 := by
  unfold Rust.expectUint at h
  rw [orFail_eq_ok, readUint_eq] at h
  exact scanHead_sound h

theorem local_expectUint (m : ℕ) : Local (Rust.expectUint m) := by
  unfold Rust.expectUint
  rw [readUint_eq]
  exact (local_scanHead m).orFail _

theorem consumes_expectUint (m : ℕ) : Consumes (Rust.expectUint m) := by
  unfold Rust.expectUint
  rw [readUint_eq]
  exact (consumes_scanHead m).orFail _

private theorem consumes_skipValue (levels : ℕ) (hl : Local (Rust.skipValue levels)) :
    Consumes (Rust.skipValue (levels + 1)) := by
  rw [Rust.skipValue]
  refine Consumes.peek fun o => ?_
  cases o with
  | none => exact Consumes.fail _
  | some b =>
    refine Consumes.ite ?_ (Consumes.ite ?_ (Consumes.ite ?_ (Consumes.fail _)))
    · exact (consumes_expectUint _).bind fun _ => Local.pure _
    · exact (consumes_expectUint _).bind fun _ => (Local.take _ _).bind fun _ => Local.pure _
    · exact (consumes_expectUint _).bind fun _ =>
        (Local.ensure _ _).bind fun _ => Local.loop (fun _ => hl) _ _

theorem local_skipValue (levels : ℕ) : Local (Rust.skipValue levels) := by
  induction levels with
  | zero => exact Local.fail _
  | succ levels ih =>
    have hc := consumes_skipValue levels ih
    rw [Rust.skipValue] at hc ⊢
    refine Local.peek (fun o => ?_) hc
    cases o with
    | none => exact Local.fail _
    | some b =>
      refine Local.ite ?_ (Local.ite ?_ (Local.ite ?_ (Local.fail _)))
      · exact (local_expectUint _).bind fun _ => Local.pure _
      · exact (local_expectUint _).bind fun _ => (Local.take _ _).bind fun _ => Local.pure _
      · exact (local_expectUint _).bind fun _ =>
          (Local.ensure _ _).bind fun _ => Local.loop (fun _ => ih) _ _

/-- A value may be nested one level deeper when one more level is left. -/
theorem skipValue_mono (levels : ℕ) :
    Sim (fun _ _ => True) (Rust.skipValue levels) (Rust.skipValue (levels + 1)) := by
  induction levels with
  | zero => exact Sim.fail _ _
  | succ levels ih =>
    rw [Rust.skipValue, Rust.skipValue]
    refine Sim.peek fun o => ?_
    cases o with
    | none => exact Sim.fail _ _
    | some b =>
      refine Sim.ite (Sim.refl (fun _ => trivial) _) (Sim.ite (Sim.refl (fun _ => trivial) _)
        (Sim.ite ?_ (Sim.refl (fun _ => trivial) _)))
      refine (Sim.refl (fun _ => rfl) _).bind fun count _ h => ?_
      subst h
      exact (Sim.refl (fun _ => rfl) _).bind fun _ _ _ => Sim.loop (fun _ _ _ => ih) _ trivial

private theorem map_covers :
    Sim (fun _ _ => True)
      (do
        let count ← Rust.expectUint 5
        ensure (count ≤ 16) .malformed
        loop (fun _ => Rust.skipValue 3) (count * 2) ())
      (do
        let inner ← Rust.expectUint 5
        ensure (inner ≤ 16) .malformed
        loop (fun _ => Rust.skipValue 4) (inner * 2) ()) := by
  refine (Sim.refl (fun _ => rfl) _).bind fun count _ hcount => ?_
  subst hcount
  exact (Sim.refl (fun _ => rfl) _).bind fun _ _ _ =>
    Sim.loop (fun _ _ _ => skipValue_mono 3) _ trivial

/-- On a map, a value of `levels + 1` is a map of values of `levels`. -/
theorem skipValue_map {levels : ℕ} {b : UInt8} (hb : b.toNat / 32 = 5) (l : List UInt8) :
    Rust.skipValue (levels + 1) (b :: l) = (do
      let count ← Rust.expectUint 5
      ensure (count ≤ 16) .malformed
      loop (fun _ => Rust.skipValue levels) (count * 2) ()) (b :: l) := by
  rw [Rust.skipValue, peek_cons]
  simp [Rust.majorOf, hb]

/-- A map of at most 16 entries, any values: what a group or a control body is. -/
def flatMap : Scan UInt8 Rust.Error Unit := do
  let inner ← Rust.expectUint 5
  ensure (inner ≤ 16) .malformed
  loop (fun _ => Rust.skipValue 4) (inner * 2) ()

/-- The device's rule for a body, over the Host's values: no value of the body's
map gets another level. -/
def flatBody : Scan UInt8 Rust.Error Unit := peek fun first =>
  if Rust.majorOf first = some 5 then flatMap else Rust.skipValue 4

theorem local_flatMap : Local flatMap :=
  (local_expectUint _).bind fun _ => (Local.ensure _ _).bind fun _ =>
    Local.loop (fun _ => local_skipValue 4) _ _

theorem consumes_flatMap : Consumes flatMap :=
  (consumes_expectUint _).bind fun _ => (Local.ensure _ _).bind fun _ =>
    Local.loop (fun _ => local_skipValue 4) _ _

private theorem consumes_value : Consumes (Rust.skipValue 4) :=
  consumes_skipValue 3 (local_skipValue 3)

theorem local_flatBody : Local flatBody :=
  Local.peek (fun _ => Local.ite local_flatMap (local_skipValue 4))
    (Consumes.peek fun _ => Consumes.ite consumes_flatMap consumes_value)

theorem local_skipBodyEntry : Local Rust.skipBodyEntry :=
  (local_skipValue 4).bind fun _ => local_flatBody

theorem local_skipBody : Local Rust.skipBody := by
  refine Local.peek (fun _ => ?_) (Consumes.peek fun _ => ?_)
  · exact Local.ite ((local_expectUint _).bind fun _ => (Local.ensure _ _).bind fun _ =>
      Local.loop (fun _ => local_skipBodyEntry) _ _) (local_skipValue 4)
  · exact Consumes.ite ((consumes_expectUint _).bind fun _ => (Local.ensure _ _).bind fun _ =>
      Local.loop (fun _ => local_skipBodyEntry) _ _) consumes_value

theorem failsOnly_skipValue (levels : ℕ) : FailsOnly .malformed (Rust.skipValue levels) := by
  induction levels with
  | zero => exact FailsOnly.fail _
  | succ levels ih =>
    rw [Rust.skipValue]
    refine FailsOnly.peek fun o => ?_
    cases o with
    | none => exact FailsOnly.fail _
    | some b =>
      refine FailsOnly.ite ?_ (FailsOnly.ite ?_ (FailsOnly.ite ?_ (FailsOnly.fail _)))
      · exact (FailsOnly.orFail _ _).bind fun _ => FailsOnly.pure _ _
      · exact (FailsOnly.orFail _ _).bind fun _ => (FailsOnly.take _ _).bind fun _ =>
          FailsOnly.pure _ _
      · exact (FailsOnly.orFail _ _).bind fun _ => (FailsOnly.ensure _ _).bind fun _ =>
          FailsOnly.loop (I := fun _ => True) (fun _ _ => ih) (fun _ _ _ _ _ _ => trivial) _ trivial

theorem failsOnly_flatBody : FailsOnly .malformed flatBody :=
  FailsOnly.peek fun _ => FailsOnly.ite
    ((FailsOnly.orFail _ _).bind fun _ => (FailsOnly.ensure _ _).bind fun _ =>
      FailsOnly.loop (I := fun _ => True) (fun _ _ => failsOnly_skipValue 4)
        (fun _ _ _ _ _ _ => trivial) _ trivial)
    (failsOnly_skipValue 4)

theorem failsOnly_skipBody : FailsOnly .malformed Rust.skipBody :=
  FailsOnly.peek fun _ => FailsOnly.ite
    ((FailsOnly.orFail _ _).bind fun _ => (FailsOnly.ensure _ _).bind fun _ =>
      FailsOnly.loop (I := fun _ => True)
        (fun _ _ => (failsOnly_skipValue 4).bind fun _ => failsOnly_flatBody)
        (fun _ _ _ _ _ _ => trivial) _ trivial)
    (failsOnly_skipValue 4)

theorem failsOnly_bytes (n : ℕ) : FailsOnly .malformed (Rust.bytes n) :=
  (FailsOnly.orFail _ _).bind fun _ => (FailsOnly.ensure _ _).bind fun _ => failsOnly_octets _ _

theorem local_bytes (n : ℕ) : Local (Rust.bytes n) :=
  (local_expectUint _).bind fun _ => (Local.ensure _ _).bind fun _ => local_octets _ _

/-- `q` goes at least as far as `p` on everything `p` accepts. -/
abbrev Covers {α β : Type} (p : Scan UInt8 Rust.Error α) (q : Scan UInt8 Rust.Error β) : Prop :=
  Sim (fun _ _ => True) p q

theorem Covers.trans {α β γ : Type} {p : Scan UInt8 Rust.Error α} {q : Scan UInt8 Rust.Error β}
    {q' : Scan UInt8 Rust.Error γ} (h : Covers p q) (h' : Covers q q') : Covers p q' :=
  (Sim.trans h h').mono fun _ _ _ => trivial

/-- A scanner that begins with a head of major type `m`. -/
theorem head_major_of_ok {α : Type} {m : ℕ} {f : ℕ → Scan UInt8 Rust.Error α} {b : UInt8}
    {l r : List UInt8} {a : α} (h : (Rust.expectUint m >>= f) (b :: l) = .ok (a, r)) :
    b.toNat / 32 = m := by
  obtain ⟨v, _, hv, -⟩ := bind_eq_ok.mp h
  unfold Rust.expectUint at hv
  rw [orFail_eq_ok, readUint_eq, scanHead_cons] at hv
  by_contra hb
  rw [if_pos hb] at hv
  cases hv

/-- A scanner of a number or a string is covered by skipping the value. -/
theorem Covers.value {α : Type} {m : ℕ} {f : ℕ → Scan UInt8 Rust.Error α}
    (hf : ∀ v, Local (f v))
    (h : Covers (Rust.expectUint m >>= f)
      (if m ≤ 1 then do let _ ← Rust.expectUint m; pure ()
      else if m ≤ 3 then do let len ← Rust.expectUint m; let _ ← take len .malformed; pure ()
      else fail .malformed)) (hm : m ≤ 3) :
    Covers (Rust.expectUint m >>= f) (Rust.skipValue 4) := by
  rw [Rust.skipValue]
  refine Sim.peek_right (fun b l a r hok => ?_) ((consumes_expectUint m).bind hf)
  simp only [Rust.majorOf, Option.map_some, head_major_of_ok hok]
  split_ifs at h ⊢
  · exact h
  · exact h

theorem covers_uint : Covers (Rust.expectUint 0) (Rust.skipValue 4) := by
  have h : Rust.expectUint 0 = (Rust.expectUint 0 >>= pure) := by
    funext l
    cases hl : Rust.expectUint 0 l with
    | ok x => rw [bind_ok hl]; rfl
    | error e => rw [bind_error hl]
  rw [h]
  refine Covers.value (fun _ => Local.pure _) ?_ (by omega)
  exact (Sim.refl (fun _ => rfl) _).bind fun _ _ _ => Sim.pure trivial

theorem covers_bytes (n : ℕ) : Covers (Rust.bytes n) (Rust.skipValue 4) := by
  refine Covers.value (fun _ => (Local.ensure _ _).bind fun _ => local_octets _ _) ?_ (by omega)
  refine (Sim.refl (fun _ => rfl) _).bind fun len _ hlen => ?_
  subst hlen
  refine Sim.ensure_bind fun hn => ?_
  subst hn
  intro l x r h
  have ht : take len Rust.Error.malformed l = .ok (x.val, r) :=
    take_eq_ok.mpr ⟨octets_eq_ok.mp h, x.property⟩
  exact ⟨(), by rw [bind_ok ht]; rfl, trivial⟩

/-- A map whose entries are two values each. -/
theorem covers_flatMap {σ : Type} {entry : σ → Scan UInt8 Rust.Error σ} {s : σ}
    (h : ∀ s, Covers (entry s) (do Rust.skipValue 4; Rust.skipValue 4)) :
    Covers (do
      let count ← Rust.expectUint 5
      ensure (count ≤ 16) .malformed
      loop entry count s) flatMap := by
  refine (Sim.refl (fun _ => rfl) _).bind fun count _ hcount => ?_
  subst hcount
  refine (Sim.refl (fun _ => rfl) _).bind fun _ _ _ => ?_
  rw [loop_mul_two]
  exact Sim.loop (R := fun _ _ => True) (fun _ _ _ => h _) _ trivial

/-- Where a map may stand, it is skipped as one. -/
theorem flatMap_covers : Covers flatMap flatBody := by
  refine Sim.peek_right (fun b l a r hok => ?_) consumes_flatMap
  rw [if_pos (by simp [Rust.majorOf, head_major_of_ok hok])]
  exact Sim.refl (fun _ => trivial) _

theorem value_covers : Covers (Rust.skipValue 4) flatBody := by
  intro l a r h
  cases l with
  | nil => exact absurd (consumes_value _ _ _ h) (by simp)
  | cons b l =>
    unfold flatBody
    rw [peek_cons]
    by_cases hb : b.toNat / 32 = 5
    · rw [skipValue_map hb] at h
      rw [if_pos (by simp [Rust.majorOf, hb])]
      refine map_covers _ _ _ h
    · rw [if_neg (by simp [Rust.majorOf, hb])]
      exact ⟨a, h, trivial⟩

/-- The Host skips whatever the device skips. -/
theorem skipBody_covers : Covers flatBody Rust.skipBody := by
  refine Sim.peek fun o => Sim.ite ?_ (Sim.refl (fun _ => trivial) _)
  refine (Sim.refl (fun _ => rfl) _).bind fun count _ hcount => ?_
  subst hcount
  refine (Sim.refl (fun _ => rfl) _).bind fun _ _ _ => ?_
  rw [loop_mul_two]
  exact Sim.loop (fun _ _ _ => (Sim.refl (fun _ => rfl) _).bind fun _ _ _ => value_covers) _
    trivial

/-- A Host error against a device reader's `false`. -/
def Malformed (e : Rust.Error) (_ : Unit) : Prop := e = .malformed

theorem alike_uint (m : ℕ) :
    Alike Cpp.kMaxFrameBytes Malformed Eq (Rust.expectUint m) (Cpp.readUInt m) := by
  unfold Rust.expectUint
  rw [readUint_eq, readUInt_eq]
  exact (Alike.of_local (F := fun _ _ => True) (local_scanHead m) fun _ => trivial).orFail_left
    fun _ => rfl

theorem alike_octets {ε δ : Type} {E : ε → δ → Prop} (n : ℕ) {e : ε} {d : δ} (hE : E e d) :
    Alike Cpp.kMaxFrameBytes E Eq (octets n e) (octets n d) := by
  intro l hl
  unfold octets
  split_ifs with hn
  · exact .error hE
  · exact .ok rfl (by simp; omega)

theorem alike_skip (levels : ℕ) :
    Alike Cpp.kMaxFrameBytes Malformed (fun _ _ => True) (Rust.skipValue levels)
      (Cpp.skip levels) := by
  induction levels with
  | zero => exact Alike.fail rfl
  | succ levels ih =>
    rw [Rust.skipValue, Cpp.skip]
    refine Alike.peek fun o => ?_
    cases o with
    | none => exact Alike.fail rfl
    | some b =>
      refine Alike.ite Iff.rfl (fun _ => ?_) fun h₁ => Alike.ite (by omega) (fun _ => ?_)
        fun h₃ => Alike.ite (by omega) (fun _ => ?_) fun _ => Alike.fail rfl
      · exact (alike_uint _).bind fun _ _ _ => Alike.pure trivial
      · refine (alike_uint _).bind fun n _ hn => ?_
        subst hn
        exact Alike.take_bind (by omega) rfl rfl fun _ => Alike.pure trivial
      · refine (alike_uint _).bind fun n _ hn => ?_
        subst hn
        exact Alike.ensure_bind Iff.rfl rfl fun _ => Alike.loop (fun _ _ _ => ih) _ trivial

theorem alike_skipBody :
    Alike Cpp.kMaxFrameBytes Malformed (fun _ _ => True) flatBody Cpp.skipBody := by
  refine Alike.peek fun o => Alike.ite Iff.rfl (fun _ => ?_) fun _ => alike_skip 4
  refine (alike_uint _).bind fun n _ hn => ?_
  subst hn
  exact Alike.ensure_bind Iff.rfl rfl fun _ => Alike.loop (fun _ _ _ => alike_skip 4) _ trivial

end CydMonitor.Codec
