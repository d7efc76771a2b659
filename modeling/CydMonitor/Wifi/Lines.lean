import CydMonitor.Wifi.Provider

/-!
# The provider's lines as flat objects

Each line is the rendering of its fields, and they are read back when their values fit.
-/

namespace CydMonitor.Wifi

open ProviderMessageBuilder
open Text (utf8 lit byte decimal utf8_append)

variable {α : Type}

theorem utf8_quoted (s : List Char) : utf8 (quoted s) = (Value.str (utf8 s)).text := by
  rw [quoted, utf8_append]
  rfl

def nullable (f : α → Value) : Option α → Value
  | none => .null
  | some a => f a

theorem utf8_orNull {f : α → Value} {g : α → List Char} (h : ∀ a, utf8 (g a) = (f a).text)
    (o : Option α) : utf8 (orNull (o.map g)) = (nullable f o).text := by
  cases o with
  | none => rfl
  | some a => exact h a

/-- A key and its colon. -/
private def opening (key : String) : List UInt8 :=
  byte '"' :: (lit key ++ [byte '"', byte ':'])

private theorem memberText_lit (key : String) (v : Value) :
    memberText (lit key, v) = opening key ++ v.text :=
  rfl

private theorem utf8_brace : utf8 ['}'] = [byte '}'] :=
  rfl

def helloFields (provider version : Text) : Fields :=
  [(lit "v", .int 1), (lit "type", .str (lit "hello")),
    (lit "provider", .str (utf8 (cleanLabel provider).flatten)),
    (lit "provider_version", .str (utf8 (cleanLabel version).flatten))]

theorem utf8_helloText (provider version : Text) :
    utf8 (helloText provider version) = render (helloFields provider version) := by
  have hfirst : utf8 "\x7b\"v\":1,\"type\":\"hello\",\"provider\":".toList =
      byte '{' :: (opening "v" ++ (Value.int 1).text ++
        byte ',' :: (opening "type" ++ (Value.str (lit "hello")).text ++
          byte ',' :: opening "provider")) := by
    decide +kernel
  have hversion : utf8 ",\"provider_version\":".toList =
      byte ',' :: opening "provider_version" := by
    decide +kernel
  delta helloText
  simp only [utf8_append, utf8_quoted, utf8_brace, hfirst, hversion, render,
    helloFields, membersText, memberText_lit, List.append_assoc, List.cons_append]

def permissionFields (seq : ℕ) (status : PermissionStatus) : Fields :=
  [(lit "v", .int 1), (lit "type", .str (lit "permission_status")), (lit "seq", .int seq),
    (lit "status", .str (lit status.rawValue))]

private theorem utf8_seq (n : ℕ) : utf8 (decimal n) = (Value.int n).text :=
  rfl

theorem utf8_permissionText (seq : ℕ) (status : PermissionStatus) :
    utf8 (permissionText seq status) = render (permissionFields seq status) := by
  have hfirst : utf8 "\x7b\"v\":1,\"type\":\"permission_status\",\"seq\":".toList =
      byte '{' :: (opening "v" ++ (Value.int 1).text ++
        byte ',' :: (opening "type" ++ (Value.str (lit "permission_status")).text ++
          byte ',' :: opening "seq")) := by
    decide +kernel
  have hstatus : utf8 ",\"status\":".toList = byte ',' :: opening "status" := by
    decide +kernel
  delta permissionText
  simp only [utf8_append, utf8_quoted, utf8_brace, utf8_seq, hfirst, hstatus,
    render, permissionFields, membersText, memberText_lit, List.append_assoc, List.cons_append]
  rfl

/-- The fields of a context line. -/
def contextFields (seq : ℕ) (tMs : UInt64) (ageMs : UInt32) (availability : ContextAvailability)
    (sample : Option WifiSample) : Fields :=
  let identity := if availability = .available then sample.map sanitizedIdentity else none
  [(lit "v", .int 1), (lit "type", .str (lit "context")), (lit "seq", .int seq),
    (lit "t_ms", .int (min tMs.toNat (2 ^ 53) : ℕ)), (lit "age_ms", .int ageMs.toNat),
    (lit "availability", .str (lit availability.rawValue)),
    (lit "band", nullable (fun band => .str (lit band.rawValue)) (sample.bind (·.band))),
    (lit "channel", nullable .int (channelOnWire sample)),
    (lit "ssid_hex", nullable (fun s => .str (utf8 (s.flatMap hexByte)))
      (identity.bind (·.ssid))),
    (lit "bssid", nullable (fun t => .str (utf8 t.flatten)) (identity.bind (·.bssid)))]

theorem utf8_contextText (seq : ℕ) (tMs : UInt64) (ageMs : UInt32)
    (availability : ContextAvailability) (sample : Option WifiSample) :
    utf8 (contextText seq tMs ageMs availability sample) =
      render (contextFields seq tMs ageMs availability sample) := by
  have hfirst : utf8 "\x7b\"v\":1,\"type\":\"context\",\"seq\":".toList =
      byte '{' :: (opening "v" ++ (Value.int 1).text ++
        byte ',' :: (opening "type" ++ (Value.str (lit "context")).text ++
          byte ',' :: opening "seq")) := by
    decide +kernel
  have htMs : utf8 ",\"t_ms\":".toList = byte ',' :: opening "t_ms" := by decide +kernel
  have hageMs : utf8 ",\"age_ms\":".toList = byte ',' :: opening "age_ms" := by decide +kernel
  have havailability : utf8 ",\"availability\":".toList = byte ',' :: opening "availability" := by
    decide +kernel
  have hband : utf8 ",\"band\":".toList = byte ',' :: opening "band" := by decide +kernel
  have hchannel : utf8 ",\"channel\":".toList = byte ',' :: opening "channel" := by
    decide +kernel
  have hssid : utf8 ",\"ssid_hex\":".toList = byte ',' :: opening "ssid_hex" := by
    decide +kernel
  have hbssid : utf8 ",\"bssid\":".toList = byte ',' :: opening "bssid" := by decide +kernel
  have hbands := utf8_orNull fun band : WifiBand => utf8_quoted band.rawValue.toList
  have hchannels := utf8_orNull fun c : Int =>
    show utf8 (decimal c.toNat) = (Value.int c).text from rfl
  have hssids := utf8_orNull fun s : List UInt8 => utf8_quoted (s.flatMap hexByte)
  have hbssids := utf8_orNull fun t : Text => utf8_quoted t.flatten
  delta contextText
  simp only [utf8_append, utf8_quoted, utf8_brace, utf8_seq, hfirst, htMs, hageMs,
    havailability, hband, hchannel, hssid, hbssid, hbands, hchannels, hssids, hbssids, render,
    contextFields, membersText, memberText_lit, List.append_assoc, List.cons_append]
  rfl

end CydMonitor.Wifi
