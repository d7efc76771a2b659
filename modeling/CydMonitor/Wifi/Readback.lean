import CydMonitor.Wifi.Lines
import Mathlib.Data.Bool.AllAny

/-!
# What the daemon reads in the provider's strings

Labels, hex text and hardware addresses that the provider writes in ASCII read back.
-/

namespace CydMonitor.Wifi

open Text (utf8 byte utf8_append utf8_ascii toNat_byte)

/-- A character that a string may hold as a byte. -/
def Printable (c : Char) : Prop := 0x20 ≤ c.toNat ∧ c.toNat < 0x80 ∧ c ≠ '"' ∧ c ≠ '\\'

instance (c : Char) : Decidable (Printable c) :=
  inferInstanceAs (Decidable (_ ∧ _ ∧ _ ∧ _))

theorem byte_inj {c d : Char} (hc : c.toNat < 128) (hd : d.toNat < 128) (h : byte c = byte d) :
    c = d := by
  have hnat : (byte c).toNat = (byte d).toNat := congrArg _ h
  rw [toNat_byte hc, toNat_byte hd] at hnat
  exact Char.ext (UInt32.toNat_inj.mp hnat)

theorem utf8_printable {s : List Char} (h : ∀ c ∈ s, Printable c) : utf8 s = s.map byte :=
  utf8_ascii fun c hc => (h c hc).2.1

theorem plain_utf8 {max : ℕ} {s : List Char} (h : ∀ c ∈ s, Printable c)
    (hlength : s.length ≤ max + 1) : Plain max (utf8 s) := by
  rw [utf8_printable h]
  refine ⟨by rwa [List.length_map], fun b hb => ?_⟩
  obtain ⟨c, hc, rfl⟩ := List.mem_map.mp hb
  obtain ⟨hlow, hhigh, hquote, hescape⟩ := h c hc
  refine ⟨fun he => hquote ?_, fun he => hescape ?_, fun hlt => ?_⟩
  · exact byte_inj hhigh (by decide) he
  · exact byte_inj hhigh (by decide) he
  · have hnat := UInt8.lt_iff_toNat_lt.mp hlt
    rw [toNat_byte hhigh] at hnat
    exact absurd hlow (Nat.not_le.mpr hnat)

section Labels

/-- The label's characters that stay are ASCII. -/
def PlainLabel (t : Text) : Prop := ∀ c ∈ t.take 32, c ≠ [Char.ofNat 0x212A]

instance (t : Text) : Decidable (PlainLabel t) :=
  inferInstanceAs (Decidable (∀ c ∈ t.take 32, _))

private theorem allowed_scalar {c : Character} (h : c ∈ allowed) :
    ∃ s, c = [s] ∧ Printable s ∧ isLabelByte (byte s) = true := by
  have hall : ("ABCDEFGHIJKLMNOPQRSTUVWXYZabcdefghijklmnopqrstuvwxyz0123456789._- ".toList.all
      fun s => decide (Printable s ∧ isLabelByte (byte s) = true)) = true := by
    decide +kernel
  obtain ⟨s, hs, rfl⟩ := List.mem_map.mp h
  exact ⟨s, rfl, List.all_iff_forall_prop.mp hall s hs⟩

private theorem mem_cleanLabel {t : Text} (ht : PlainLabel t) {c : Character}
    (hc : c ∈ cleanLabel t) : c ∈ allowed := by
  rw [cleanLabel] at hc
  split_ifs at hc
  · have hunknown : ∀ c ∈ text "unknown", c ∈ allowed := by decide +kernel
    exact hunknown c hc
  · rw [← List.map_take] at hc
    obtain ⟨d, hd, rfl⟩ := List.mem_map.mp hc
    have hcanonical : canonical d = d := if_neg (ht d hd)
    simp only [hcanonical]
    split_ifs with hallowed
    · exact hallowed
    · decide +kernel

private theorem length_cleanLabel (t : Text) :
    1 ≤ (cleanLabel t).length ∧ (cleanLabel t).length ≤ 32 := by
  rw [cleanLabel]
  split_ifs with hempty
  · decide
  · rw [List.isEmpty_iff] at hempty
    exact ⟨List.length_pos_iff.mpr hempty, List.length_take_le ..⟩

/-- A label of single scalars. -/
private theorem label_scalars {cs : Text} (h : ∀ c ∈ cs, c ∈ allowed) :
    cs.flatten.length = cs.length ∧
      ∀ s ∈ cs.flatten, Printable s ∧ isLabelByte (byte s) = true := by
  induction cs with
  | nil => exact ⟨rfl, by simp⟩
  | cons c cs ih =>
    obtain ⟨s, rfl, hs⟩ := allowed_scalar (h c List.mem_cons_self)
    obtain ⟨hlength, hall⟩ := ih fun d hd => h d (List.mem_cons_of_mem _ hd)
    refine ⟨by simp [hlength], fun d hd => ?_⟩
    rw [List.flatten_cons, List.singleton_append, List.mem_cons] at hd
    rcases hd with rfl | hd
    · exact hs
    · exact hall d hd

theorem plain_label {t : Text} (ht : PlainLabel t) :
    Plain kMaxStringBytes (utf8 (cleanLabel t).flatten) := by
  obtain ⟨hlength, hall⟩ := label_scalars fun c hc => mem_cleanLabel ht hc
  refine plain_utf8 (fun c hc => (hall c hc).1) ?_
  have := (length_cleanLabel t).2
  rw [hlength, kMaxStringBytes]
  omega

theorem label_cleanLabel {t : Text} (ht : PlainLabel t) :
    label (utf8 (cleanLabel t).flatten) = .ok (utf8 (cleanLabel t).flatten) := by
  obtain ⟨hlength, hall⟩ := label_scalars fun c hc => mem_cleanLabel ht hc
  obtain ⟨hpos, hle⟩ := length_cleanLabel t
  have htext := utf8_printable fun c hc => (hall c hc).1
  have hbytes : (utf8 (cleanLabel t).flatten).length = (cleanLabel t).length := by
    rw [htext, List.length_map, hlength]
  rw [label, if_neg]
  rintro (hempty | hlong | hother)
  · rw [hempty, List.length_nil] at hbytes
    omega
  · rw [hbytes, kMaxTextField] at hlong
    omega
  · have hallowed : (utf8 (cleanLabel t).flatten).all isLabelByte = true := by
      rw [htext, List.all_map]
      exact List.all_eq_true.mpr fun c hc => (hall c hc).2
    rw [hallowed] at hother
    cases hother

end Labels

section Hex

private theorem hexDigit_value {n : ℕ} (h : n < 16) :
    Printable (hexDigit n) ∧ hexValue (byte (hexDigit n)) = some (UInt8.ofNat n) := by
  have hall : ∀ n < 16, Printable (hexDigit n) ∧
      hexValue (byte (hexDigit n)) = some (UInt8.ofNat n) := by
    decide +kernel
  exact hall n h

private theorem printable_hex (bytes : List UInt8) :
    ∀ c ∈ bytes.flatMap hexByte, Printable c := by
  intro c hc
  obtain ⟨b, -, hb⟩ := List.mem_flatMap.mp hc
  have hlt : b.toNat < 256 := b.toNat_lt
  rw [hexByte, List.mem_pair] at hb
  rcases hb with rfl | rfl
  · exact (hexDigit_value (by omega)).1
  · exact (hexDigit_value (by omega)).1

private theorem length_hex (bytes : List UInt8) :
    (bytes.flatMap hexByte).length = 2 * bytes.length := by
  induction bytes with
  | nil => rfl
  | cons b bytes ih =>
    rw [List.flatMap_cons, List.length_append, ih, List.length_cons]
    show 2 + 2 * bytes.length = _
    omega

private theorem hexPairs_hex (bytes : List UInt8) :
    hexPairs ((bytes.flatMap hexByte).map byte) = some bytes := by
  induction bytes with
  | nil => rfl
  | cons b bytes ih =>
    have hlt : b.toNat < 256 := b.toNat_lt
    have hhigh := (hexDigit_value (n := b.toNat / 16) (by omega)).2
    have hlow := (hexDigit_value (n := b.toNat % 16) (by omega)).2
    have hbyte : 16 * UInt8.ofNat (b.toNat / 16) + UInt8.ofNat (b.toNat % 16) = b := by
      calc
        _ = UInt8.ofNat (16 * (b.toNat / 16) + b.toNat % 16) := by
          rw [UInt8.ofNat_add, UInt8.ofNat_mul]
          rfl
        _ = UInt8.ofNat b.toNat := by rw [Nat.div_add_mod]
        _ = b := UInt8.ofNat_toNat
    show hexPairs (byte (hexDigit (b.toNat / 16)) :: byte (hexDigit (b.toNat % 16)) ::
      (bytes.flatMap hexByte).map byte) = _
    rw [hexPairs, hhigh, hlow, ih]
    exact congrArg (fun d => some (d :: bytes)) hbyte

theorem plain_hex {bytes : List UInt8} (h : bytes.length ≤ 32) :
    Plain kMaxStringBytes (utf8 (bytes.flatMap hexByte)) := by
  refine plain_utf8 (printable_hex bytes) ?_
  rw [length_hex, kMaxStringBytes]
  omega

theorem hexBytes_hex {bytes : List UInt8} (h : bytes.length ≤ 32) :
    hexBytes (utf8 (bytes.flatMap hexByte)) 32 = .ok bytes := by
  rw [hexBytes, utf8_printable (printable_hex bytes), if_neg, hexPairs_hex]
  rw [List.length_map, length_hex]
  omega

end Hex

section HardwareAddress

/-- ASCII text. -/
def Ascii (t : Text) : Prop := ∀ c ∈ t, ∀ s ∈ c, s.toNat < 128

instance (t : Text) : Decidable (Ascii t) :=
  decidable_of_iff (t.all fun c => c.all fun s => decide (s.toNat < 128)) (by simp [Ascii])

/-- The octet that two hex digits stand for. -/
def groupOctet : Text → UInt8
  | [a, b] => UInt8.ofNat (16 * (hexDigitValue a).getD 0 + (hexDigitValue b).getD 0)
  | _ => 0

private theorem ascii_digit {a : Character} (ha : isHexDigit a = true)
    (hascii : ∀ s ∈ a, s.toNat < 128) :
    ∃ s, a = [s] ∧ Printable s ∧ s ≠ ':' ∧
      hexValue (byte s) = some (UInt8.ofNat ((hexDigitValue a).getD 0)) := by
  have hall : ∀ n < 128, isHexDigit [Char.ofNat n] = true →
      Printable (Char.ofNat n) ∧ Char.ofNat n ≠ ':' ∧ hexValue (byte (Char.ofNat n)) =
        some (UInt8.ofNat ((hexDigitValue [Char.ofNat n]).getD 0)) := by
    decide +kernel
  match a with
  | [s] =>
    have hs := hall s.toNat (hascii s (by simp))
    rw [Char.ofNat_toNat] at hs
    exact ⟨s, rfl, hs ha⟩
  | [] => cases ha
  | _ :: _ :: _ => cases ha

/-- Two ASCII hex digits. -/
def HexGroup (p : Text) : Prop := p.length = 2 ∧ p.all isHexDigit = true ∧ Ascii p

private theorem HexGroup.text {p : Text} (h : HexGroup p) :
    ∃ a b, p.flatten = [a, b] ∧ (∀ c ∈ p.flatten, Printable c ∧ c ≠ ':') ∧
      hexBytes (utf8 p.flatten) 1 = .ok [groupOctet p] := by
  obtain ⟨hlength, hall, hascii⟩ := h
  match p, hlength with
  | [a, b], _ =>
    simp only [List.all_cons, List.all_nil, Bool.and_eq_true, and_true] at hall
    obtain ⟨s, rfl, hs, hscolon, hsvalue⟩ := ascii_digit hall.1 (hascii a (by simp))
    obtain ⟨u, rfl, hu, hucolon, huvalue⟩ := ascii_digit hall.2 (hascii b (by simp))
    have hboth : ∀ c ∈ [s, u], Printable c ∧ c ≠ ':' := by
      simp [hs, hu, hscolon, hucolon]
    refine ⟨s, u, rfl, hboth, ?_⟩
    have htext : utf8 [[s], [u]].flatten = [byte s, byte u] := utf8_printable fun c hc =>
      (hboth c hc).1
    rw [htext, hexBytes, if_neg (by simp), hexPairs, hsvalue, huvalue, groupOctet,
      UInt8.ofNat_add, UInt8.ofNat_mul]
    rfl

variable {α : Type}

private theorem mem_intercalate {x s : α} {ls : List (List α)} (h : x ∈ [s].intercalate ls) :
    x = s ∨ ∃ l ∈ ls, x ∈ l := by
  induction ls with
  | nil => simp at h
  | cons l ls ih =>
    cases ls with
    | nil => exact .inr ⟨l, by simp, by simpa using h⟩
    | cons m ls =>
      rw [List.intercalate_cons_cons, List.append_assoc, List.mem_append, List.mem_append,
        List.mem_singleton] at h
      rcases h with h | rfl | h
      · exact .inr ⟨l, by simp, h⟩
      · exact .inl rfl
      · obtain hs | ⟨k, hk, hx⟩ := ih h
        · exact .inl hs
        · exact .inr ⟨k, List.mem_cons_of_mem l hk, hx⟩

private theorem mem_intercalate_of_mem {x s : α} {l : List α} {ls : List (List α)} (hl : l ∈ ls)
    (hx : x ∈ l) : x ∈ [s].intercalate ls := by
  induction ls with
  | nil => cases hl
  | cons m ls ih =>
    cases ls with
    | nil => simpa [List.mem_singleton.mp hl] using hx
    | cons k ls =>
      rw [List.intercalate_cons_cons, List.append_assoc, List.mem_append]
      rcases List.mem_cons.mp hl with rfl | hl
      · exact .inl hx
      · exact .inr (List.mem_append_right _ (ih hl))

private theorem utf8_intercalate (parts : List Text) :
    utf8 ([[':']].intercalate parts).flatten =
      [byte ':'].intercalate (parts.map fun p => utf8 p.flatten) := by
  induction parts with
  | nil => rfl
  | cons p parts ih =>
    cases parts with
    | nil => simp
    | cons q parts =>
      rw [List.intercalate_cons_cons, List.map_cons, List.map_cons, List.intercalate_cons_cons,
        List.flatten_append, List.flatten_append, utf8_append, utf8_append, ih]
      rfl

private theorem length_intercalate {s : α} {ls : List (List α)} (h : ∀ l ∈ ls, l.length = 2) :
    ([s].intercalate ls).length ≤ 3 * ls.length := by
  induction ls with
  | nil => simp
  | cons l ls ih =>
    have hl := h l List.mem_cons_self
    cases ls with
    | nil => simp [hl]
    | cons m ls =>
      have := ih fun k hk => h k (List.mem_cons_of_mem l hk)
      rw [List.intercalate_cons_cons, List.append_assoc, List.length_append, List.length_append,
        hl, List.length_singleton, List.length_cons]
      omega

private theorem mapM_ok {β ε : Type} {f : α → Except ε β} {g : α → β} {l : List α}
    (h : ∀ x ∈ l, f x = .ok (g x)) : l.mapM f = .ok (l.map g) := by
  induction l with
  | nil => rfl
  | cons x l ih =>
    rw [List.mapM_cons, h x List.mem_cons_self, ih fun y hy => h y (List.mem_cons_of_mem x hy)]
    rfl

/-- What the kept text of a hardware address is. -/
theorem sanitizedBssid_groups {t u : Text} (h : sanitizedBssid t = some u) (ht : Ascii t) :
    u = [[':']].intercalate (bssidParts t) ∧ (bssidParts t).length = 6 ∧
      ∀ p ∈ bssidParts t, HexGroup p := by
  rw [sanitizedBssid] at h
  split_ifs at h with hparts
  obtain ⟨hlength, hall⟩ := hparts
  refine ⟨(Option.some.inj h).symm, hlength, fun p hp => ?_⟩
  have hp2 := List.all_eq_true.mp hall p hp
  rw [Bool.and_eq_true, beq_iff_eq] at hp2
  refine ⟨hp2.1, hp2.2, fun c hc s hs => ?_⟩
  have hmem : c ∈ [[':']].intercalate (bssidParts t) := mem_intercalate_of_mem hp hc
  rw [bssidParts, List.intercalate_splitOn] at hmem
  obtain ⟨d, hd, rfl⟩ := List.mem_map.mp hmem
  obtain ⟨r, hr, rfl⟩ := List.mem_map.mp hs
  have hlow : ∀ n < 128, (lowerScalar (Char.ofNat n)).toNat < 128 := by decide +kernel
  have := hlow r.toNat (ht d hd r hr)
  rwa [Char.ofNat_toNat] at this

/-- The octets of a hardware address. -/
def bssidOctets (t : Text) : Option (Octets 6) :=
  Octets.ofList? 6 ((bssidParts t).map groupOctet)

theorem plain_bssid {t u : Text} (h : sanitizedBssid t = some u) (ht : Ascii t) :
    Plain kMaxStringBytes (utf8 u.flatten) ∧ (utf8 u.flatten).length ≤ 18 := by
  obtain ⟨rfl, hlength, hgroups⟩ := sanitizedBssid_groups h ht
  have hprintable : ∀ c ∈ ([[':']].intercalate (bssidParts t)).flatten, Printable c := by
    intro c hc
    obtain ⟨d, hd, hcd⟩ := List.mem_flatten.mp hc
    obtain rfl | ⟨p, hp, hdp⟩ := mem_intercalate hd
    · rw [List.mem_singleton.mp hcd]
      decide
    · obtain ⟨-, -, -, hall, -⟩ := (hgroups p hp).text
      exact (hall c (List.mem_flatten_of_mem hdp hcd)).1
  have hle : (utf8 ([[':']].intercalate (bssidParts t)).flatten).length ≤ 18 := by
    rw [utf8_intercalate]
    refine (length_intercalate fun l hl => ?_).trans (by rw [List.length_map, hlength])
    obtain ⟨p, hp, rfl⟩ := List.mem_map.mp hl
    obtain ⟨a, b, hab, hall, -⟩ := (hgroups p hp).text
    rw [utf8_printable fun c hc => (hall c hc).1, hab]
    rfl
  refine ⟨plain_utf8 hprintable ?_, hle⟩
  rw [utf8_printable hprintable, List.length_map] at hle
  rw [kMaxStringBytes]
  omega

theorem parseMac_bssid {t u : Text} (h : sanitizedBssid t = some u) (ht : Ascii t) :
    ∃ octets, bssidOctets t = some octets ∧ parseMac (utf8 u.flatten) = .ok octets := by
  obtain ⟨rfl, hlength, hgroups⟩ := sanitizedBssid_groups h ht
  have hlist : ((bssidParts t).map groupOctet).length = 6 := by rw [List.length_map, hlength]
  have hoctets : bssidOctets t = some ⟨_, hlist⟩ := Octets.ofList?_eq_some.mpr rfl
  refine ⟨_, hoctets, ?_⟩
  have hsplit : (utf8 ([[':']].intercalate (bssidParts t)).flatten).splitOn (byte ':') =
      (bssidParts t).map fun p => utf8 p.flatten := by
    rw [utf8_intercalate, List.splitOn_intercalate]
    · intro l hl hmem
      obtain ⟨p, hp, rfl⟩ := List.mem_map.mp hl
      obtain ⟨a, b, -, hall, -⟩ := (hgroups p hp).text
      rw [utf8_printable fun c hc => (hall c hc).1] at hmem
      obtain ⟨c, hc, hbyte⟩ := List.mem_map.mp hmem
      exact (hall c hc).2 (byte_inj (hall c hc).1.2.1 (by decide) hbyte)
    · rw [ne_eq, List.map_eq_nil_iff]
      intro hnil
      rw [hnil] at hlength
      cases hlength
  have htwo : ((bssidParts t).map fun p => utf8 p.flatten).any (·.length ≠ 2) = false := by
    rw [List.any_eq_false]
    intro l hl
    obtain ⟨p, hp, rfl⟩ := List.mem_map.mp hl
    obtain ⟨a, b, hab, hall, -⟩ := (hgroups p hp).text
    rw [utf8_printable fun c hc => (hall c hc).1, hab]
    simp
  have hbytes : ((bssidParts t).map fun p => utf8 p.flatten).mapM (fun p => hexBytes p 1) =
      .ok (((bssidParts t).map groupOctet).map fun o => [o]) := by
    rw [List.mapM_map, List.map_map]
    exact mapM_ok fun p hp => by
      obtain ⟨-, -, -, -, hhex⟩ := (hgroups p hp).text
      exact hhex
  have hflatten : (((bssidParts t).map groupOctet).map fun o => [o]).flatten =
      (bssidParts t).map groupOctet := by
    rw [← List.flatMap_def]
    simp
  rw [parseMac, hsplit]
  simp only [htwo, List.length_map, hlength]
  rw [hbytes]
  rw [if_neg (by simp)]
  dsimp only [bind, Except.bind]
  rw [hflatten]
  rw [bssidOctets] at hoctets
  rw [hoctets]

end HardwareAddress

end CydMonitor.Wifi
