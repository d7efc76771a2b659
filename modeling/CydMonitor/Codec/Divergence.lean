import CydMonitor.Codec.BodyKey
import CydMonitor.Codec.Entries

/-!
# Where the two codecs part

The rounds before the body agree, errors included, so two different outcomes come
from the body's key: from a frame that is well formed up to a body of `BodyApart`.
-/

namespace CydMonitor.Codec

open Cbor Scan

/-- The type byte after one more entry. -/
def Entry.typed (code : Option UInt8) : Entry → Option UInt8
  | .kind v => some v
  | _ => code

/-- The entries before the body, in order, and a body the codecs judge apart. -/
def DivergesFrom (n : ℕ) (s : Rust.EnvelopeFields) (l : List UInt8) : Prop :=
  ∃ (es : List Entry) (r : List UInt8), l = es.flatMap Entry.bytes ++ (Rust.uint 0 5 ++ r) ∧
    es.length < n ∧ (∀ e ∈ es, e.key < 5 ∧ ∀ old ∈ s.previous, old < e.key) ∧
    (es.map Entry.key).Pairwise (· < ·) ∧ BodyApart (es.foldl Entry.typed s.kind) r

theorem Entry.store_kind (s : Rust.EnvelopeFields) (e : Entry) :
    (e.store s).kind = e.typed s.kind := by
  cases e <;> rfl

private theorem fits_of_order {s : Rust.EnvelopeFields} {e : Entry} (h5 : e.key < 5)
    (h : ∀ old ∈ s.previous, old < e.key) : e.Fits s := by
  refine ⟨h, fun u hu => ?_, fun v hv => ?_⟩
  · subst hu
    simp [Entry.key] at h5
  · subst hv
    simp [Entry.key] at h5

/-- One round at a time: at the body's key, or after one more entry. -/
theorem divergesFrom_succ {n : ℕ} {s : Rust.EnvelopeFields} {l : List UInt8} :
    DivergesFrom (n + 1) s l ↔ (∃ r, l = Rust.uint 0 5 ++ r ∧ BodyApart s.kind r) ∨
      ∃ e : Entry, ∃ r, e.key < 5 ∧ e.Fits s ∧ l = e.bytes ++ r ∧ DivergesFrom n (e.store s) r := by
  constructor
  · rintro ⟨es, r, rfl, hn, hes, hsorted, hr⟩
    cases es with
    | nil => exact Or.inl ⟨r, rfl, hr⟩
    | cons e es =>
      obtain ⟨he, hsorted⟩ := List.pairwise_cons.mp hsorted
      obtain ⟨h5, ho⟩ := hes e List.mem_cons_self
      refine Or.inr ⟨e, _, h5, fits_of_order h5 ho, by simp, es, r, rfl,
        Nat.lt_of_succ_lt_succ hn, fun e' he' => ⟨(hes e' (List.mem_cons_of_mem e he')).1, ?_⟩,
        hsorted, ?_⟩
      · intro old hold
        rw [Entry.store_previous] at hold
        cases hold
        exact he e'.key (List.mem_map_of_mem he')
      · rw [Entry.store_kind]
        exact hr
  · rintro (⟨r, rfl, hr⟩ | ⟨e, r', h5, hfits, rfl, es, r, rfl, hn, hes, hsorted, hr⟩)
    · exact ⟨[], r, rfl, by simp, by simp, by simp, hr⟩
    · have hafter : ∀ e' ∈ es, e.key < e'.key := fun e' he' =>
        (hes e' he').2 e.key (by rw [Entry.store_previous]; rfl)
      refine ⟨e :: es, r, by simp, by simpa using hn, fun e' he' => ?_, ?_, ?_⟩
      · rcases List.mem_cons.mp he' with rfl | he'
        · exact ⟨h5, hfits.order⟩
        · refine ⟨(hes e' he').1, fun old hold => ?_⟩
          exact (hfits.order old hold).trans (hafter e' he')
      · refine List.pairwise_cons.mpr ⟨fun k hk => ?_, hsorted⟩
        obtain ⟨e', he', rfl⟩ := List.mem_map.mp hk
        exact hafter e' he'
      · rw [Entry.store_kind] at hr
        exact hr

theorem Verdict.congr {D D' : Prop} {x : Except Rust.Error (Rust.Message × List UInt8)}
    {y : Except Cpp.Error (Cpp.Decoded × List UInt8)} (h : Verdict D x y) (hD : D' ↔ D) :
    Verdict D' x y :=
  ⟨fun hd => h.same (mt hD.mpr hd), fun hd => h.apart (hD.mp hd)⟩

private theorem key_unique {k k' : ℕ} {l l' : List UInt8} (hk : k < 2 ^ 64) (hk' : k' < 2 ^ 64)
    (h : Rust.uint 0 k ++ l = Rust.uint 0 k' ++ l') : k = k' ∧ l = l' := by
  rw [uint_eq_head, uint_eq_head] at h
  exact head_append_inj (by omega) hk hk' h

theorem hostRest_succ (n : ℕ) (s : Rust.EnvelopeFields) :
    hostRest (n + 1) s = Rust.envelopeEntry s >>= hostRest n := by
  unfold hostRest
  rw [loop_succ, bind_assoc]

theorem deviceRest_succ (n : ℕ) (t : Cpp.DecodeState) :
    deviceRest (n + 1) t = Cpp.envelopeEntry t >>= deviceRest n := by
  unfold deviceRest
  rw [loop_succ, bind_assoc]

private theorem body_none {s : Rust.EnvelopeFields} {t : Cpp.DecodeState}
    (h : EnvelopeMatch {} s t) (hprev : ∀ old ∈ s.previous, old < 5) : s.body = none := by
  by_contra hb
  obtain ⟨old, hold, hle⟩ := h.below 5 (Option.isSome_iff_ne_none.mpr hb)
  have := hprev old hold
  omega

private theorem rest_zero {s : Rust.EnvelopeFields} {t : Cpp.DecodeState}
    (h : EnvelopeMatch {} s t) (hb : s.body = none) (l : List UInt8) :
    hostRest 0 s l = .error .malformed ∧ deviceRest 0 t l = .error .kMalformed := by
  have hhost : (Rust.envelopeFrom s >>= finish) = .error .malformed := by
    cases hfrom : Rust.envelopeFrom s with
    | error e => rw [onlyError_envelopeFrom s e hfrom]; rfl
    | ok x =>
      obtain ⟨e, u⟩ := x
      obtain ⟨-, -, -, -, -, hbody, -⟩ := envelopeFrom_eq_ok.mp hfrom
      rw [hb] at hbody
      cases hbody
  have hdevice : Cpp.accept t = .error .kMalformed := by
    have h5 : t.got 5 = false := by
      rw [h.got]
      simp [hasKey, hb]
    simp [Cpp.accept, h5]
  unfold hostRest deviceRest
  simp only [loop_zero, Scan.pure_bind, hhost, hdevice]
  cases l <;> exact ⟨rfl, rfl⟩

/-- A frame whose next key is neither known before the body nor the body's. -/
private theorem not_divergesFrom {n : ℕ} {s : Rust.EnvelopeFields} {k : ℕ} {l : List UInt8}
    (hk : k < 2 ^ 64)
    (h : ∀ e : Entry, ∀ r, e.key = k → e.key < 5 → e.Fits s → Rust.uint 0 k ++ l ≠ e.bytes ++ r)
    (h5 : k ≠ 5) : ¬DivergesFrom (n + 1) s (Rust.uint 0 k ++ l) := by
  rw [divergesFrom_succ]
  rintro (⟨r, hr, -⟩ | ⟨e, r, he5, hfits, hr, -⟩)
  · exact h5 (key_unique hk (by omega) hr).1
  · obtain ⟨u, hu⟩ := e.bytes_eq
    have hkey := hr
    rw [hu, List.append_assoc] at hkey
    exact h e r (key_unique hk (by omega) hkey).1.symm he5 hfits hr

/-- Both codecs read a number, or both are done. -/
theorem read_number (major : ℕ) (l : List UInt8) :
    (∃ k m, k < 2 ^ 64 ∧ l = Rust.uint major k ++ m ∧ Rust.expectUint major l = .ok (k, m) ∧
      (Cpp.readUInt major).orFail Cpp.Error.kMalformed l = .ok (k, m)) ∨
    (Rust.expectUint major l = .error .malformed ∧
      (Cpp.readUInt major).orFail Cpp.Error.kMalformed l = .error .kMalformed) := by
  unfold Rust.expectUint
  rw [readUint_eq, readUInt_eq]
  cases hs : scanHead major l with
  | ok x =>
    obtain ⟨k, m⟩ := x
    obtain ⟨hl, hk⟩ := scanHead_sound hs
    exact Or.inl ⟨k, m, hk, by rw [uint_eq_head, hl], orFail_eq_ok.mpr hs, orFail_eq_ok.mpr hs⟩
  | error e => exact Or.inr ⟨by simp [orFail, hs], by simp [orFail, hs]⟩

/-- The round of a key other than the body's, and the rest after it. -/
private theorem verdict_entry {n : ℕ} {s : Rust.EnvelopeFields} {t : Cpp.DecodeState}
    (ih : ∀ {s : Rust.EnvelopeFields} {t : Cpp.DecodeState}, EnvelopeMatch {} s t →
      (∀ old ∈ s.previous, old < 5) → ∀ {l : List UInt8}, l.length ≤ Cpp.kMaxFrameBytes →
      Verdict (DivergesFrom n s l) (hostRest n s l) (deviceRest n t l))
    (h : EnvelopeMatch {} s t) {k : ℕ} (hk : k < 2 ^ 64) (h5 : k ≠ 5)
    (ho : ∀ old ∈ s.previous, old < k) (hprev : ∀ old ∈ s.previous, old < 5) {m : List UInt8}
    (hm : m.length ≤ Cpp.kMaxFrameBytes) :
    Verdict (DivergesFrom (n + 1) s (Rust.uint 0 k ++ m))
      ((Rust.envelopeValue { s with previous := some k } k >>= hostRest n) m)
      ((storeKey t k >>= deviceRest n) m) := by
  -- the whole round, for the entries that `DivergesFrom` speaks of
  have hround {e : Entry} {r : List UInt8} (hfits : e.Fits s)
      (hr : Rust.uint 0 k ++ m = e.bytes ++ r) :
      Rust.envelopeValue { s with previous := some k } k m = .ok (e.store s, r) := by
    have hentry := reads_entry hfits r
    rw [← hr, uint_eq_head] at hentry
    unfold Rust.envelopeEntry at hentry
    rwa [bind_ok (reads_expectUint (by omega) hk m), ensure_true ho, Scan.pure_bind] at hentry
  have halike := alike_storeKey h h5 ho m hm
  cases hhost : Rust.envelopeValue { s with previous := some k } k m with
  | error e =>
    rw [hhost] at halike
    have hD := not_divergesFrom (n := n) (s := s) (l := m) hk (fun e' r _ _ hfits hr => by
      rw [hround hfits hr] at hhost
      cases hhost) h5
    rw [bind_error hhost]
    cases hdevice : storeKey t k m with
    | error e' =>
      rw [hdevice] at halike
      cases halike with
      | error he =>
        rw [bind_error hdevice]
        exact .of_same hD (.error he)
    | ok y => rw [hdevice] at halike; cases halike
  | ok x =>
    obtain ⟨s', r⟩ := x
    obtain ⟨t', hdevice, hs⟩ := (alike_storeKey h h5 ho).ok_left hm hhost
    have hr : r.length ≤ Cpp.kMaxFrameBytes := by
      rw [hhost, hdevice] at halike
      cases halike with
      | ok _ hr => exact hr
    rw [bind_ok hhost, bind_ok hdevice]
    by_cases hlt : k < 5
    · refine (ih hs.matched (fun old hold => ?_) hr).congr ?_
      · rw [hs.previous] at hold
        cases hold
        exact hlt
      · rw [divergesFrom_succ]
        constructor
        · rintro (⟨r', hr', -⟩ | ⟨e, r', -, hfits, hr', hd⟩)
          · exact absurd (key_unique hk (by omega) hr').1 h5
          · rw [hround hfits hr'] at hhost
            cases hhost
            exact hd
        · intro hd
          have hentry : Rust.envelopeEntry s (Rust.uint 0 k ++ m) = .ok (s', r) := by
            unfold Rust.envelopeEntry
            rw [uint_eq_head, bind_ok (reads_expectUint (by omega) hk m), ensure_true ho,
              Scan.pure_bind, hhost]
          rcases entry_of_ok hentry with ⟨e, hfits, hbytes, rfl⟩ | ⟨k', _, hk', -, rfl⟩
          · have hkey := hs.previous
            rw [Entry.store_previous] at hkey
            cases hkey
            exact Or.inr ⟨e, r, hlt, hfits, hbytes, hd⟩
          · have hkey := hs.previous
            cases hkey
            omega
    · have hpast : ∃ old ∈ s'.previous, 5 ≤ old := ⟨k, hs.previous, by omega⟩
      have hbody : s'.body = none := hs.body.trans (body_none h hprev)
      refine .malformed ?_ (hostRest_malformed hpast ?_ ?_ n r)
        (deviceRest_malformed hs.matched hpast (Or.inr (Or.inl hbody)) n hr)
      · exact not_divergesFrom hk (fun e r hkey h5' _ _ => by omega) h5
      · intro u hu
        rw [hbody] at hu
        cases hu
      · intro e u m' _ hu
        rw [hbody] at hu
        cases hu

/-- From any point before the body on. -/
theorem verdict_rest (n : ℕ) {s : Rust.EnvelopeFields} {t : Cpp.DecodeState}
    (h : EnvelopeMatch {} s t) (hprev : ∀ old ∈ s.previous, old < 5) {l : List UInt8}
    (hl : l.length ≤ Cpp.kMaxFrameBytes) :
    Verdict (DivergesFrom n s l) (hostRest n s l) (deviceRest n t l) := by
  induction n generalizing s t l with
  | zero =>
    obtain ⟨hhost, hdevice⟩ := rest_zero h (body_none h hprev) l
    refine .malformed ?_ hhost hdevice
    rintro ⟨es, r, -, hn, -⟩
    exact absurd hn (by simp)
  | succ n ih =>
    rw [hostRest_succ, deviceRest_succ, envelopeEntry_eq, bind_assoc]
    unfold Rust.envelopeEntry
    rw [bind_assoc]
    rcases read_number 0 l with ⟨k, m, hk, rfl, hhost, hdevice⟩ | ⟨hhost, hdevice⟩
    · rw [bind_ok hhost, bind_ok hdevice, bind_assoc, bind_assoc]
      have hm : m.length ≤ Cpp.kMaxFrameBytes := by
        simp only [List.length_append] at hl
        omega
      by_cases ho : ∀ old ∈ s.previous, old < k
      · rw [ensure_true ho, ensure_true ((h.order k).mp ho), Scan.pure_bind, Scan.pure_bind]
        by_cases h5 : k = 5
        · subst h5
          have hdevice' : (storeKey t 5 >>= deviceRest n) =
              (Cpp.body t.d >>= fun d => deviceRest n (storeBody t d)) := by
            unfold storeKey
            rw [if_neg (by omega), ensure_true (h.fresh ho), Scan.pure_bind, bind_assoc]
            rfl
          rw [hdevice']
          refine (verdict_body h ho n hm).congr ?_
          rw [divergesFrom_succ]
          constructor
          · rintro (⟨r, hr, hd⟩ | ⟨e, r, he5, -, hr, -⟩)
            · rw [(key_unique (by omega) (by omega) hr).2]
              exact hd
            · obtain ⟨u, hu⟩ := e.bytes_eq
              rw [hu, List.append_assoc] at hr
              have := (key_unique (by omega) (by omega) hr).1
              omega
          · exact fun hd => Or.inl ⟨m, rfl, hd⟩
        · exact verdict_entry ih h hk h5 ho hprev hm
      · rw [ensure_false ho, ensure_false (mt (h.order k).mpr ho)]
        refine .malformed (not_divergesFrom hk (fun e r hkey _ hfits _ => ho ?_) fun h5 => ho ?_)
          rfl rfl
        · rw [← hkey]
          exact hfits.order
        · rw [h5]
          exact hprev
    · refine .malformed ?_ (bind_error hhost) (bind_error hdevice)
      have hno {k : ℕ} {r : List UInt8} (hk : k < 2 ^ 64) : l ≠ Rust.uint 0 k ++ r := by
        rintro rfl
        rw [uint_eq_head, reads_expectUint (by omega) hk r] at hhost
        cases hhost
      rw [divergesFrom_succ]
      rintro (⟨r, hr, -⟩ | ⟨e, r, he5, -, hr, -⟩)
      · exact hno (by omega) hr
      · obtain ⟨u, hu⟩ := e.bytes_eq
        rw [hu, List.append_assoc] at hr
        exact hno (by omega) hr

end CydMonitor.Codec
