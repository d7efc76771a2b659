import CydMonitor.Wifi.Readback

/-!
# What the provider's lines say

The message that the builder means with a line, and that the daemon reads it in the line.
-/

namespace CydMonitor.Wifi

open ProviderMessageBuilder
open Text (utf8 lit decimal utf8_decimal length_decimal_le)

/-- What a context line means: a hardware address stands for its octets. -/
def meantContext (availability : ContextAvailability) (sample : Option WifiSample) :
    AssociationContext :=
  { availability
    band := sample.bind (·.band)
    channel := (channelOnWire sample).map fun c => UInt16.ofNat c.toNat
    ssid := if availability = .available then (sample.bind (·.ssid)).bind sanitizedSsid else none
    bssid := if availability = .available then
        (sample.bind (·.bssid)).bind fun t => (sanitizedBssid t).bind fun _ => bssidOctets t
      else none }

/-- The hardware address that a context line carries is ASCII. -/
def PlainSample (availability : ContextAvailability) (sample : Option WifiSample) : Prop :=
  availability = .available → ∀ t ∈ sample.bind (·.bssid), (sanitizedBssid t).isSome → Ascii t

private theorem channelOnWire_range {sample : Option WifiSample} {c : Int}
    (h : channelOnWire sample = some c) : 1 ≤ c ∧ c ≤ 233 := by
  cases sample with
  | none => cases h
  | some s =>
    obtain ⟨d, hd, hc⟩ := Option.bind_eq_some_iff.mp h
    split_ifs at hc with hrange
    obtain rfl := Option.some.inj hc
    exact hrange

private theorem sanitizedSsid_length {ssid kept : List UInt8} (h : sanitizedSsid ssid = some kept) :
    kept.length ≤ 32 := by
  rw [sanitizedSsid] at h
  split_ifs at h with hlength
  rw [← Option.some.inj h]
  exact hlength.2

/-- The network name in a context line. -/
private def ssidText (availability : ContextAvailability) (sample : Option WifiSample) :
    Option (List UInt8) :=
  (if availability = .available then sample.map sanitizedIdentity else none).bind (·.ssid)

private theorem ssidText_eq (availability : ContextAvailability) (sample : Option WifiSample) :
    ssidText availability sample = (meantContext availability sample).ssid := by
  cases sample <;> by_cases h : availability = .available <;>
    simp [ssidText, meantContext, h, sanitizedIdentity]

private theorem ssidText_length {availability : ContextAvailability} {sample : Option WifiSample}
    {ssid : List UInt8} (h : ssidText availability sample = some ssid) : ssid.length ≤ 32 := by
  rw [ssidText_eq] at h
  simp only [meantContext] at h
  split_ifs at h
  obtain ⟨kept, -, hkept⟩ := Option.bind_eq_some_iff.mp h
  exact sanitizedSsid_length hkept

private def bssidText (availability : ContextAvailability) (sample : Option WifiSample) :
    Option Text :=
  (if availability = .available then sample.map sanitizedIdentity else none).bind (·.bssid)

private theorem bssidText_some {availability : ContextAvailability} {sample : Option WifiSample}
    {u : Text} (h : bssidText availability sample = some u) :
    availability = .available ∧ ∃ t, sample.bind (·.bssid) = some t ∧
      sanitizedBssid t = some u := by
  rw [bssidText] at h
  split_ifs at h with ha
  · cases sample with
    | none => cases h
    | some s => exact ⟨ha, Option.bind_eq_some_iff.mp h⟩
  · cases h

private theorem bssidText_none {availability : ContextAvailability} {sample : Option WifiSample}
    (h : bssidText availability sample = none) :
    (meantContext availability sample).bssid = none := by
  show (if availability = .available then
    (sample.bind (·.bssid)).bind fun t => (sanitizedBssid t).bind fun _ => bssidOctets t
    else none) = none
  split_ifs with ha
  · cases sample with
    | none => rfl
    | some s =>
      rw [bssidText, if_pos ha] at h
      cases hb : s.bssid with
      | none => simp [hb]
      | some t =>
        have hnone : sanitizedBssid t = none := by simpa [sanitizedIdentity, hb] using h
        simp [hb, hnone]
  · rfl

section Fits

private theorem fits_lit {s : String}
    (h : (s.toList.all fun c => decide (Printable c)) = true) (hlength : s.toList.length ≤ 129) :
    (Value.str (lit s)).Fits :=
  plain_utf8 (List.all_iff_forall_prop.mp h) hlength

private theorem fits_one : (Value.int 1).Fits :=
  ⟨by decide, by decide⟩

private theorem fits_availability (a : ContextAvailability) :
    (Value.str (lit a.rawValue)).Fits := by
  cases a <;> exact fits_lit (by decide) (by decide)

private theorem fits_status (status : PermissionStatus) :
    (Value.str (lit status.rawValue)).Fits := by
  cases status <;> exact fits_lit (by decide) (by decide)

private theorem fits_nullable {α : Type} {f : α → Value} {o : Option α}
    (h : ∀ a ∈ o, (f a).Fits) : (nullable f o).Fits := by
  cases o with
  | none => trivial
  | some a => exact h a rfl

private theorem key_lit {s : String} (h : (s.toList.all fun c => decide (Printable c)) = true)
    (hlength : s.toList.length ≤ 25) : Plain kMaxKeyBytes (lit s) :=
  plain_utf8 (List.all_iff_forall_prop.mp h) hlength

theorem fits_helloFields {provider version : Text} (hp : PlainLabel provider)
    (hv : PlainLabel version) : ∀ f ∈ helloFields provider version, FitsMember f := by
  simp only [helloFields, List.forall_mem_cons, List.not_mem_nil, false_imp_iff, implies_true,
    and_true]
  refine ⟨⟨key_lit (by decide) (by decide), fits_one⟩,
    ⟨key_lit (by decide) (by decide), fits_lit (by decide) (by decide)⟩,
    ⟨key_lit (by decide) (by decide), plain_label hp⟩,
    ⟨key_lit (by decide) (by decide), plain_label hv⟩⟩

theorem fits_permissionFields {seq : ℕ} (hseq : seq < 2 ^ 32) (status : PermissionStatus) :
    ∀ f ∈ permissionFields seq status, FitsMember f := by
  simp only [permissionFields, List.forall_mem_cons, List.not_mem_nil, false_imp_iff,
    implies_true, and_true]
  refine ⟨⟨key_lit (by decide) (by decide), fits_one⟩,
    ⟨key_lit (by decide) (by decide), fits_lit (by decide) (by decide)⟩,
    ⟨key_lit (by decide) (by decide), ?_⟩,
    ⟨key_lit (by decide) (by decide), fits_status status⟩⟩
  exact ⟨Int.natCast_nonneg seq, by omega⟩

theorem fits_contextFields {seq : ℕ} (hseq : seq < 2 ^ 32) {tMs : UInt64}
    (htMs : tMs.toNat < 10 ^ 15) (ageMs : UInt32) {availability : ContextAvailability}
    {sample : Option WifiSample} (hplain : PlainSample availability sample) :
    ∀ f ∈ contextFields seq tMs ageMs availability sample, FitsMember f := by
  have hage : ageMs.toNat < 2 ^ 32 := ageMs.toNat_lt
  have hband : ∀ band : WifiBand, (Value.str (lit band.rawValue)).Fits := by
    intro band
    cases band <;> exact fits_lit (by decide) (by decide)
  simp only [contextFields, List.forall_mem_cons, List.not_mem_nil, false_imp_iff,
    implies_true, and_true]
  refine ⟨⟨key_lit (by decide) (by decide), fits_one⟩,
    ⟨key_lit (by decide) (by decide), fits_lit (by decide) (by decide)⟩,
    ⟨key_lit (by decide) (by decide), Int.natCast_nonneg seq, by omega⟩,
    ⟨key_lit (by decide) (by decide), Int.natCast_nonneg _, by omega⟩,
    ⟨key_lit (by decide) (by decide), Int.natCast_nonneg _, by omega⟩,
    ⟨key_lit (by decide) (by decide), fits_availability availability⟩,
    ⟨key_lit (by decide) (by decide), fits_nullable fun band _ => hband band⟩,
    ⟨key_lit (by decide) (by decide), fits_nullable fun c hc => ?_⟩,
    ⟨key_lit (by decide) (by decide), fits_nullable fun s hs => ?_⟩,
    ⟨key_lit (by decide) (by decide), fits_nullable fun u hu => ?_⟩⟩
  · obtain ⟨hlow, hhigh⟩ := channelOnWire_range hc
    exact ⟨by omega, by omega⟩
  · exact plain_hex (ssidText_length hs)
  · obtain ⟨ha, t, ht, hkept⟩ := bssidText_some hu
    exact (plain_bssid hkept (hplain ha t ht (by simp [hkept]))).1

end Fits

section Lengths

private theorem length_membersText {fields : Fields} (hne : fields ≠ []) :
    (membersText fields).length = (fields.map fun f => (memberText f).length + 1).sum := by
  induction fields with
  | nil => exact absurd rfl hne
  | cons f fs ih =>
    cases fs with
    | nil => simp [membersText]
    | cons g fs =>
      rw [membersText, List.length_append, List.length_cons, ih (by simp)]
      · simp only [List.map_cons, List.sum_cons]
        omega
      · simp

private theorem length_memberText (key : String) (v : Value) :
    (memberText (lit key, v)).length = (lit key).length + v.text.length + 3 := by
  simp [memberText]
  omega

private theorem length_int {n : ℕ} {k : ℕ} (h : n < 10 ^ (k + 1)) :
    (Value.int n).text.length ≤ k + 1 := by
  show (utf8 (decimal n)).length ≤ _
  rw [utf8_decimal, List.length_map]
  exact length_decimal_le h

private theorem length_str {s : List UInt8} {k : ℕ} (h : s.length ≤ k) :
    (Value.str s).text.length ≤ k + 2 := by
  simpa [Value.text] using h

private theorem length_nullable {α : Type} {f : α → Value} {k : ℕ} {o : Option α}
    (h : ∀ a ∈ o, (f a).text.length ≤ k) : (nullable f o).text.length ≤ k + 4 := by
  cases o with
  | none =>
    show (lit "null").length ≤ _
    have : (lit "null").length = 4 := by decide
    omega
  | some a => exact (h a rfl).trans (Nat.le_add_right k 4)

theorem length_helloFields {provider version : Text} (hp : PlainLabel provider)
    (hv : PlainLabel version) : (render (helloFields provider version)).length ≤ 512 := by
  have hprovider := length_str (plain_label hp).1
  have hversion := length_str (plain_label hv).1
  have hkeys : (lit "v").length = 1 ∧ (lit "type").length = 4 ∧ (lit "provider").length = 8 ∧
      (lit "provider_version").length = 16 := by
    decide
  have hhello : (Value.int 1).text.length = 1 ∧ (Value.str (lit "hello")).text.length = 7 := by
    decide +kernel
  rw [kMaxStringBytes] at hprovider hversion
  rw [render, List.length_cons, length_membersText (by simp [helloFields])]
  simp only [helloFields, List.map_cons, List.map_nil, List.sum_cons, List.sum_nil,
    length_memberText]
  omega

theorem length_permissionFields {seq : ℕ} (hseq : seq < 2 ^ 32) (status : PermissionStatus) :
    (render (permissionFields seq status)).length ≤ 512 := by
  have hseqText := length_int (k := 9) (show seq < 10 ^ 10 by omega)
  have hstatus : (Value.str (lit status.rawValue)).text.length ≤ 24 := by
    cases status <;> decide
  have hkeys : (lit "v").length = 1 ∧ (lit "type").length = 4 ∧ (lit "seq").length = 3 ∧
      (lit "status").length = 6 := by
    decide
  have htype : (Value.int 1).text.length = 1 ∧
      (Value.str (lit "permission_status")).text.length = 19 := by
    decide +kernel
  rw [render, List.length_cons, length_membersText (by simp [permissionFields])]
  simp only [permissionFields, List.map_cons, List.map_nil, List.sum_cons, List.sum_nil,
    length_memberText]
  omega

theorem length_contextFields {seq : ℕ} (hseq : seq < 2 ^ 32) (tMs : UInt64) (ageMs : UInt32)
    {availability : ContextAvailability} {sample : Option WifiSample}
    (hplain : PlainSample availability sample) :
    (render (contextFields seq tMs ageMs availability sample)).length ≤ 512 := by
  have hage : ageMs.toNat < 2 ^ 32 := ageMs.toNat_lt
  have hseqText := length_int (k := 9) (show seq < 10 ^ 10 by omega)
  have htMsText := length_int (k := 15) (show min tMs.toNat (2 ^ 53) < 10 ^ 16 by omega)
  have hageText := length_int (k := 9) (show ageMs.toNat < 10 ^ 10 by omega)
  have havailability : (Value.str (lit availability.rawValue)).text.length ≤ 24 := by
    cases availability <;> decide
  have hband := length_nullable (k := 5) (o := sample.bind (·.band))
    (f := fun band => .str (lit band.rawValue)) fun band _ => by cases band <;> decide
  have hchannel := length_nullable (k := 3) (o := channelOnWire sample) (f := Value.int)
    fun c hc => by
      obtain ⟨hlow, hhigh⟩ := channelOnWire_range hc
      obtain ⟨n, rfl⟩ := Int.eq_ofNat_of_zero_le (show 0 ≤ c by omega)
      exact length_int (by omega)
  have hssid := length_nullable (k := 131) (o := ssidText availability sample)
    (f := fun s => .str (utf8 (s.flatMap hexByte))) fun s hs => by
      exact length_str (plain_hex (ssidText_length hs)).1
  have hbssid := length_nullable (k := 20) (o := bssidText availability sample)
    (f := fun u => .str (utf8 u.flatten)) fun u hu => by
      obtain ⟨ha, t, ht, hkept⟩ := bssidText_some hu
      exact length_str (plain_bssid hkept (hplain ha t ht (by simp [hkept]))).2
  have hkeys : (lit "v").length = 1 ∧ (lit "type").length = 4 ∧ (lit "seq").length = 3 ∧
      (lit "t_ms").length = 4 ∧ (lit "age_ms").length = 6 ∧ (lit "availability").length = 12 ∧
      (lit "band").length = 4 ∧ (lit "channel").length = 7 ∧ (lit "ssid_hex").length = 8 ∧
      (lit "bssid").length = 5 := by
    decide
  have htype : (Value.int 1).text.length = 1 ∧ (Value.str (lit "context")).text.length = 9 := by
    decide +kernel
  rw [ssidText] at hssid
  rw [bssidText] at hbssid
  rw [render, List.length_cons, length_membersText (by simp [contextFields])]
  simp only [contextFields, List.map_cons, List.map_nil, List.sum_cons, List.sum_nil,
    length_memberText]
  omega

end Lengths

section Reading

variable {f : Fields}

private theorem parseBand_eq {band : Option WifiBand}
    (h : f.get "band" = some (nullable (fun b => .str (lit b.rawValue)) band)) :
    parseBand f = .ok band := by
  rw [parseBand, Fields.nullableStr, h]
  cases band with
  | none => rfl
  | some band => cases band <;> rfl

private theorem parseChannel_eq {c : Option Int} (hrange : ∀ n ∈ c, 1 ≤ n ∧ n ≤ 233)
    (h : f.get "channel" = some (nullable .int c)) :
    parseChannel f = .ok (c.map fun n => UInt16.ofNat n.toNat) := by
  rw [parseChannel, h]
  cases c with
  | none => rfl
  | some n => exact if_pos (hrange n rfl)

private theorem nullableStr_eq {α : Type} {key : String} {g : α → List UInt8} {o : Option α}
    (h : f.get key = some (nullable (fun a => .str (g a)) o)) :
    f.nullableStr key = .ok (o.map g) := by
  rw [Fields.nullableStr, h]
  cases o <;> rfl

private theorem uint_eq {key : String} {n max : ℕ} (h : f.get key = some (.int n))
    (hn : n ≤ max) : f.uint key max = .ok n := by
  rw [Fields.uint, h]
  exact if_pos ⟨Int.natCast_nonneg n, Int.ofNat_le.mpr hn⟩

private theorem fromName_availability (a : ContextAvailability) :
    fromName ContextAvailability.names (lit a.rawValue) = some a := by
  cases a <;> decide

private theorem fromName_status (status : PermissionStatus) :
    fromName PermissionStatus.names (lit status.rawValue) = some status := by
  cases status <;> decide

theorem parseFields_hello {provider version : Text} (hp : PlainLabel provider)
    (hv : PlainLabel version) : parseFields (helloFields provider version) =
      .ok (.hello (utf8 (cleanLabel provider).flatten) (utf8 (cleanLabel version).flatten)) := by
  show parseHello (helloFields provider version) = _
  show (do
    let provider ← label (utf8 (cleanLabel provider).flatten)
    let version ← label (utf8 (cleanLabel version).flatten)
    pure (ProviderMessage.hello provider version)) = _
  rw [label_cleanLabel hp, label_cleanLabel hv]
  rfl

theorem parseFields_permission {seq : ℕ} (hseq : seq < 2 ^ 32) (status : PermissionStatus) :
    parseFields (permissionFields seq status) = .ok (.permissionStatus seq status) := by
  show parsePermissionStatus (permissionFields seq status) = _
  have hstr : (permissionFields seq status).str "status" = .ok (lit status.rawValue) := rfl
  rw [parsePermissionStatus, uint_eq (n := seq) rfl (by omega), hstr]
  dsimp only [bind, Except.bind]
  rw [fromName_status]
  rfl

/-- What a context line says is what was meant. -/
theorem parseFields_context {seq : ℕ} (hseq : seq < 2 ^ 32) (tMs : UInt64) (ageMs : UInt32)
    {availability : ContextAvailability} {sample : Option WifiSample}
    (hplain : PlainSample availability sample) :
    parseFields (contextFields seq tMs ageMs availability sample) =
      .ok (.context seq (min tMs.toNat (2 ^ 53)) ageMs (meantContext availability sample)) := by
  have hage : ageMs.toNat < 2 ^ 32 := ageMs.toNat_lt
  set fields := contextFields seq tMs ageMs availability sample with hfields
  have hstr : fields.str "availability" = .ok (lit availability.rawValue) := rfl
  have hband : parseBand fields = .ok (sample.bind (·.band)) := parseBand_eq rfl
  have hchannel : parseChannel fields =
      .ok ((channelOnWire sample).map fun n => UInt16.ofNat n.toNat) :=
    parseChannel_eq (fun n hn => channelOnWire_range hn) rfl
  have hssidStr : fields.nullableStr "ssid_hex" =
      .ok ((ssidText availability sample).map fun s => utf8 (s.flatMap hexByte)) :=
    nullableStr_eq rfl
  have hbssidStr : fields.nullableStr "bssid" =
      .ok ((bssidText availability sample).map fun u => utf8 u.flatten) :=
    nullableStr_eq rfl
  have hseqRead : fields.uint "seq" (2 ^ 32 - 1) = .ok seq := uint_eq rfl (by omega)
  have htMsRead : fields.uint "t_ms" (2 ^ 53) = .ok (min tMs.toNat (2 ^ 53)) :=
    uint_eq rfl (Nat.min_le_right ..)
  have hageRead : fields.uint "age_ms" (2 ^ 32 - 1) = .ok ageMs.toNat := uint_eq rfl (by omega)
  have hssid : ((ssidText availability sample).map fun s => utf8 (s.flatMap hexByte)).mapM
      (fun s => hexBytes s 32) = .ok (meantContext availability sample).ssid := by
    rw [← ssidText_eq]
    cases hs : ssidText availability sample with
    | none => rfl
    | some s =>
      show (hexBytes (utf8 (s.flatMap hexByte)) 32).map some = _
      rw [hexBytes_hex (ssidText_length hs)]
      rfl
  have hbssid : ((bssidText availability sample).map fun u => utf8 u.flatten).mapM parseMac =
      .ok (meantContext availability sample).bssid := by
    cases hu : bssidText availability sample with
    | none =>
      rw [bssidText_none hu]
      rfl
    | some u =>
      obtain ⟨ha, t, ht, hkept⟩ := bssidText_some hu
      obtain ⟨octets, hoctets, hmac⟩ := parseMac_bssid hkept (hplain ha t ht (by simp [hkept]))
      show (parseMac (utf8 u.flatten)).map some = _
      rw [hmac]
      simp only [meantContext, if_pos ha, ht, Option.bind_some, hkept, hoctets]
      rfl
  have hidentity : ¬ (((meantContext availability sample).ssid.isSome ∨
      (meantContext availability sample).bssid.isSome) ∧ availability ≠ .available) := by
    rintro ⟨hsome, ha⟩
    simp [meantContext, ha] at hsome
  show parseContext fields = _
  rw [parseContext, hstr]
  dsimp only [bind, Except.bind]
  rw [fromName_availability]
  simp only [hband, hchannel, hssidStr, hbssidStr, hssid, hbssid, if_neg hidentity, hseqRead,
    htMsRead, hageRead]
  simp [pure, Except.pure, meantContext]

end Reading

end CydMonitor.Wifi
