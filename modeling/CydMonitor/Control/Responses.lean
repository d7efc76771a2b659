import CydMonitor.Hooks.Editing
import Mathlib.Algebra.GroupWithZero.Nat

/-!
# Control responses (`host/hostcore/src/control.rs`)

A response is built by string concatenation; the reader of `host/cli/src/hooks/json.rs` takes it
for the values that were put in.
-/

namespace CydMonitor.ControlIpc

open Hooks
open Text (utf8 decimal)

def ipcVersion : ℕ := 1

def jsonChar (c : Char) : List Char :=
  if c = '"' then "\\\"".toList
  else if c = '\\' then "\\\\".toList
  else if c = '\n' then "\\n".toList
  else if c = '\r' then "\\r".toList
  else if c = '\t' then "\\t".toList
  else if c.toNat < 0x20 then "\\u".toList ++ hex04 c.toNat
  else [c]

/-- JSON string literal with the escapes JSON requires. -/
def jsonString (text : List Char) : List Char := '"' :: (text.flatMap jsonChar ++ ['"'])

structure JsonObject where
  out : List Char
  deriving DecidableEq

namespace JsonObject

def new : JsonObject := { out := ['\x7b'] }

/-- The text before a member. -/
def opened (o : JsonObject) : List Char := if byteLength o.out > 1 then o.out ++ [','] else o.out

def key (o : JsonObject) (key : List Char) : JsonObject :=
  { out := o.opened ++ (jsonString key ++ [':']) }

/-- A value that is already JSON. -/
def raw (o : JsonObject) (key json : List Char) : JsonObject := { out := (o.key key).out ++ json }

def str (o : JsonObject) (key value : List Char) : JsonObject := o.raw key (jsonString value)

def optStr (o : JsonObject) (key : List Char) : Option (List Char) → JsonObject
  | some value => o.str key value
  | none => o.raw key "null".toList

def num (o : JsonObject) (key : List Char) (value : UInt64) : JsonObject :=
  o.raw key (decimal value.toNat)

def optNum (o : JsonObject) (key : List Char) : Option UInt64 → JsonObject
  | some value => o.num key value
  | none => o.raw key "null".toList

def finish (o : JsonObject) : List Char := o.out ++ ['\x7d']

def object (o : JsonObject) (key : List Char) (value : JsonObject) : JsonObject :=
  o.raw key value.finish

end JsonObject

def okResponse (cmd : List Char) : Option (List Char × List Char) → List Char
  | some (key, json) =>
    "\x7b\"v\":".toList ++ decimal ipcVersion ++ ",\"ok\":true,\"cmd\":".toList ++ jsonString cmd ++
      ",\"".toList ++ key ++ "\":".toList ++ json ++ "\x7d".toList
  | none =>
    "\x7b\"v\":".toList ++ decimal ipcVersion ++ ",\"ok\":true,\"cmd\":".toList ++ jsonString cmd ++
      "\x7d".toList

def errorResponse (code message : List Char) : List Char :=
  "\x7b\"v\":".toList ++ decimal ipcVersion ++ ",\"ok\":false,\"error\":".toList ++
    jsonString code ++ ",\"message\":".toList ++ jsonString message ++ "\x7d".toList

/-- What the builder is called with for a member. -/
inductive Tree where
  | str (value : List Char)
  | optStr (value : Option (List Char))
  | num (value : UInt64)
  | optNum (value : Option UInt64)
  | object (members : List (List Char × Tree))

mutual

/-- The call that adds a member. -/
def Tree.add (o : JsonObject) (key : List Char) : Tree → JsonObject
  | .str value => o.str key value
  | .optStr value => o.optStr key value
  | .num value => o.num key value
  | .optNum value => o.optNum key value
  | .object members => o.object key (build .new members)

def build (o : JsonObject) : List (List Char × Tree) → JsonObject
  | [] => o
  | (key, t) :: members => build (t.add o key) members

end

mutual

/-- The value that a member is to be read as. -/
def Tree.json : Tree → Json
  | .str value => .str value
  | .optStr none => .null
  | .optStr (some value) => .str value
  | .num value => .num (decimal value.toNat)
  | .optNum none => .null
  | .optNum (some value) => .num (decimal value.toNat)
  | .object members => .obj (jsonFields members)

def jsonFields : List (List Char × Tree) → List (List Char × Json)
  | [] => []
  | (key, t) :: members => (key, t.json) :: jsonFields members

end

/-- The text of an object that is built by the calls. -/
def objectText (members : List (List Char × Tree)) : List Char := (build .new members).finish

example : okResponse "status".toList
    (some ("status".toList, objectText [("a\n".toList, .object [("b".toList, .optNum none)])])) =
    ("\x7b\"v\":1,\"ok\":true,\"cmd\":\"status\"," ++
      "\"status\":\x7b\"a\\n\":\x7b\"b\":null\x7d\x7d\x7d").toList := by
  decide +kernel

/-- No control character. -/
def Printable (text : List Char) : Prop := ∀ c ∈ text, 0x20 ≤ c.toNat

@[simp] theorem printable_nil : Printable [] := fun _ h => absurd h List.not_mem_nil

@[simp] theorem printable_cons {c : Char} {text : List Char} :
    Printable (c :: text) ↔ 0x20 ≤ c.toNat ∧ Printable text :=
  List.forall_mem_cons

@[simp] theorem printable_append {a b : List Char} :
    Printable (a ++ b) ↔ Printable a ∧ Printable b :=
  List.forall_mem_append

theorem printable_decimal (n : ℕ) : Printable (decimal n) := by
  intro c hc
  have := (Text.digit_of_mem_decimal hc).1
  omega

private theorem printable_hex04 (n : ℕ) (h : n < 0x20) : Printable (hex04 n) := by
  have hall : ∀ n < 0x20, ((hex04 n).all fun c => decide (0x20 ≤ c.toNat)) = true := by decide
  intro c hc
  exact of_decide_eq_true (List.all_eq_true.mp (hall n h) c hc)

private theorem printable_jsonChar (c : Char) : Printable (jsonChar c) := by
  rw [jsonChar]
  split_ifs with hquote hescape hn hr ht hcontrol
  · simp
  · simp
  · simp
  · simp
  · simp
  · simpa using printable_hex04 _ hcontrol
  · simpa using hcontrol

theorem printable_jsonString (text : List Char) : Printable (jsonString text) := by
  have hbody : Printable (text.flatMap jsonChar) := by
    intro c hc
    obtain ⟨d, -, hd⟩ := List.mem_flatMap.mp hc
    exact printable_jsonChar d c hd
  simpa [jsonString] using hbody

private theorem le_ofNat {n : ℕ} (h : 0x20 ≤ n % 2 ^ 8) : 0x20 ≤ UInt8.ofNat n := by
  rw [UInt8.le_iff_toNat_le, UInt8.toNat_ofNat']
  exact h

/-- The bytes of a character are those of ASCII or have the high bit. -/
theorem utf8_printable {text : List Char} (h : Printable text) : ∀ b ∈ utf8 text, 0x20 ≤ b := by
  intro b hb
  obtain ⟨c, hc, hb⟩ := List.mem_flatMap.mp hb
  have hc : 0x20 ≤ c.val.toNat := h c hc
  rw [String.utf8EncodeChar] at hb
  generalize c.val.toNat = v at hb hc
  split_ifs at hb <;> simp only [List.mem_cons, List.not_mem_nil, or_false] at hb
  · rw [hb]
    exact le_ofNat (by omega)
  · obtain rfl | rfl := hb <;> exact le_ofNat (by omega)
  · obtain rfl | rfl | rfl := hb <;> exact le_ofNat (by omega)
  · obtain rfl | rfl | rfl | rfl := hb <;> exact le_ofNat (by omega)

private theorem hex04_control (n : ℕ) (h : n < 0x20) : HexText n (hex04 n) := by
  have hall : ∀ n < 0x20, hex4 (hex04 n) = .ok (n, []) := by decide
  obtain ⟨t, ht, htext⟩ := hex4_sound (hall n h)
  rwa [htext, List.append_nil]

theorem charText_jsonChar (c : Char) : CharText c (jsonChar c) := by
  rw [jsonChar]
  split_ifs with hquote hescape hn hr ht hcontrol
  · exact .short '"' c (by rw [hquote]; decide)
  · exact .short '\\' c (by rw [hescape]; decide)
  · exact .short 'n' c (by rw [hn]; decide)
  · exact .short 'r' c (by rw [hr]; decide)
  · exact .short 't' c (by rw [ht]; decide)
  · exact .unit c _ (hex04_control _ hcontrol)
  · exact .plain c ⟨hquote, hescape, by omega⟩

theorem stringText_jsonString (s : List Char) : StringText s (jsonString s) := by
  refine ⟨s.flatMap jsonChar, ?_, rfl⟩
  induction s with
  | nil => exact .nil
  | cons c s ih => exact .cons (charText_jsonChar c) ih

/-- One member and those that follow, without white space. -/
theorem members_cons {key t rest : List Char} {v : Json} {fields : List (List Char × Json)}
    (h : Denotes v t) (hs : Members fields rest) :
    Members ((key, v) :: fields) (jsonString key ++ ':' :: (t ++ ',' :: rest)) :=
  Members.more ws_nil (stringText_jsonString key) ws_nil ws_nil h ws_nil hs

theorem members_single {key t : List Char} {v : Json} (h : Denotes v t) :
    Members [(key, v)] (jsonString key ++ ':' :: t) := by
  have hlast := Members.last ws_nil (stringText_jsonString key) ws_nil ws_nil h ws_nil
  simpa using hlast

/-- The text that a call writes after the key and the colon. -/
def Tree.text : Tree → List Char
  | .str value => jsonString value
  | .optStr none => "null".toList
  | .optStr (some value) => jsonString value
  | .num value => decimal value.toNat
  | .optNum none => "null".toList
  | .optNum (some value) => decimal value.toNat
  | .object members => objectText members

theorem Tree.out_add (o : JsonObject) (key : List Char) (t : Tree) :
    (t.add o key).out = o.opened ++ (jsonString key ++ ':' :: t.text) := by
  have hraw (json : List Char) :
      (o.raw key json).out = o.opened ++ (jsonString key ++ ':' :: json) := by
    simp [JsonObject.raw, JsonObject.key]
  cases t with
  | str value => exact hraw _
  | num value => exact hraw _
  | object members => exact hraw _
  | optStr value => cases value <;> exact hraw _
  | optNum value => cases value <;> exact hraw _

/-- After a member the next one has a comma before it. -/
theorem opened_add (o : JsonObject) (key : List Char) (t : Tree) :
    (t.add o key).opened = (t.add o key).out ++ [','] := by
  have hquotes : 2 ≤ byteLength (t.add o key).out := by
    rw [Tree.out_add]
    simp [byteLength, jsonString]
    have hquote : '"'.utf8Size = 1 := by decide
    omega
  rw [JsonObject.opened, if_pos (by omega)]

/-- What the calls for one member or more append. -/
def Appends (o : JsonObject) (members : List (List Char × Tree)) : Prop :=
  ∃ text, (build o members).out = o.opened ++ text ∧ Members (jsonFields members) text ∧
    Printable text

theorem denotes_objectText_of {members : List (List Char × Tree)}
    (h : members ≠ [] → Appends .new members) :
    Denotes (.obj (jsonFields members)) (objectText members) ∧ Printable (objectText members) := by
  cases members with
  | nil => exact ⟨.noMembers ws_nil, by simp [objectText, build, JsonObject.finish, JsonObject.new]⟩
  | cons m members =>
    obtain ⟨text, hout, hmembers, hprintable⟩ := h (by simp)
    have htext : objectText (m :: members) = '\x7b' :: (text ++ ['\x7d']) := by
      rw [objectText, JsonObject.finish, hout]
      rfl
    rw [htext]
    exact ⟨.members hmembers, by simpa using hprintable⟩

mutual

theorem Tree.denotes (t : Tree) : Denotes t.json t.text ∧ Printable t.text := by
  cases t with
  | str value => exact ⟨.str (stringText_jsonString value), printable_jsonString value⟩
  | num value => exact ⟨.num (isNumber_decimal _), printable_decimal _⟩
  | optStr value =>
    cases value with
    | none => exact ⟨.null, by simp [Tree.text]⟩
    | some value => exact ⟨.str (stringText_jsonString value), printable_jsonString value⟩
  | optNum value =>
    cases value with
    | none => exact ⟨.null, by simp [Tree.text]⟩
    | some value => exact ⟨.num (isNumber_decimal _), printable_decimal _⟩
  | object members => exact denotes_objectText_of (appends_build .new members)

theorem appends_build (o : JsonObject) (members : List (List Char × Tree)) (hne : members ≠ []) :
    Appends o members := by
  cases members with
  | nil => exact absurd rfl hne
  | cons m members =>
    obtain ⟨key, t⟩ := m
    obtain ⟨hdenotes, hprintable⟩ := t.denotes
    have hkey := printable_jsonString key
    have hnext := appends_build (t.add o key) members
    cases members with
    | nil =>
      refine ⟨_, Tree.out_add o key t, members_single hdenotes, ?_⟩
      simp [hkey, hprintable]
    | cons n members =>
      obtain ⟨text, hout, hmembers, htext⟩ := hnext (by simp)
      refine ⟨jsonString key ++ ':' :: (t.text ++ ',' :: text), ?_,
        members_cons hdenotes hmembers, ?_⟩
      · rw [build, hout, opened_add, Tree.out_add]
        simp
      · simp [hkey, hprintable, htext]

end

theorem denotes_objectText (members : List (List Char × Tree)) :
    Denotes (.obj (jsonFields members)) (objectText members) ∧ Printable (objectText members) :=
  denotes_objectText_of (appends_build .new members)

/-- One line, read as the value as far as the reader goes. -/
def ReadsBack (text : List Char) (v : Json) : Prop :=
  (∀ b ∈ utf8 text, 0x20 ≤ b) ∧
    (parse text = .ok v ↔ byteLength text ≤ maxBytes ∧ v.depth ≤ maxDepth)

theorem readsBack_of_denotes {text : List Char} {v : Json} (h : Denotes v text)
    (hprintable : Printable text) (hdistinct : v.Distinct) : ReadsBack text v := by
  refine ⟨utf8_printable hprintable, ?_⟩
  constructor
  · intro hparse
    obtain ⟨hbytes, -, -, hdepth⟩ := parse_spelled hparse
    exact ⟨hbytes, hdepth⟩
  · intro ⟨hbytes, hdepth⟩
    exact (parse_iff hbytes).mpr ⟨⟨[], text, [], ws_nil, h, ws_nil, by simp⟩, hdistinct, hdepth⟩

/-- A key that needs no escape. -/
def PlainKey (key : List Char) : Prop := ∀ c ∈ key, c ≠ '"' ∧ c ≠ '\\' ∧ 0x20 ≤ c.toNat

theorem jsonChar_plain {c : Char} (h : c ≠ '"' ∧ c ≠ '\\' ∧ 0x20 ≤ c.toNat) : jsonChar c = [c] := by
  obtain ⟨hquote, hescape, hcontrol⟩ := h
  have hother {d : Char} (hd : d.toNat < 0x20) : c ≠ d := by
    rintro rfl
    omega
  rw [jsonChar, if_neg hquote, if_neg hescape, if_neg (hother (by decide)),
    if_neg (hother (by decide)), if_neg (hother (by decide)), if_neg (by omega)]

theorem jsonString_plain {key : List Char} (h : PlainKey key) :
    jsonString key = '"' :: (key ++ ['"']) := by
  have hbody : key.flatMap jsonChar = key := by
    induction key with
    | nil => rfl
    | cons c key ih =>
      rw [List.flatMap_cons, jsonChar_plain (h c List.mem_cons_self),
        ih fun d hd => h d (List.mem_cons_of_mem c hd)]
      rfl
  rw [jsonString, hbody]

/-- What a response says before its own members. -/
def header (ok : Bool) : List (List Char × Json) :=
  [("v".toList, .num (decimal ipcVersion)), ("ok".toList, .bool ok)]

private theorem members_header (ok : Bool) {fields : List (List Char × Json)} {text : List Char}
    (h : Members fields text) : Members (header ok ++ fields)
      ("\"v\":".toList ++ (decimal ipcVersion ++ (",\"ok\":".toList ++
        (if ok then "true" else "false").toList ++ ',' :: text))) := by
  have hok : Denotes (.bool ok) (if ok then "true" else "false").toList := by
    cases ok with
    | true => exact .true
    | false => exact .false
  have hmembers := @members_cons "v".toList _ _ _ _ (.num (isNumber_decimal ipcVersion))
    (@members_cons "ok".toList _ _ _ _ hok h)
  exact (List.append_assoc ..) ▸ hmembers

/-- A response of the header and some members. -/
private theorem readsBack_response {ok : Bool} {fields : List (List Char × Json)}
    {text response : List Char} (h : Members fields text) (hprintable : Printable text)
    (hdistinct : (Json.obj (header ok ++ fields)).Distinct)
    (htext : response = '\x7b' :: ("\"v\":".toList ++ (decimal ipcVersion ++ (",\"ok\":".toList ++
      (if ok then "true" else "false").toList ++ ',' :: (text ++ ['\x7d']))))) :
    ReadsBack response (.obj (header ok ++ fields)) := by
  have hmembers := Denotes.members (members_header ok h)
  have hdecimal := printable_decimal ipcVersion
  have hok : Printable (if ok then "true" else "false").toList := by cases ok <;> simp
  refine readsBack_of_denotes ?_ ?_ hdistinct
  · rw [htext]
    simpa using hmembers
  · rw [htext]
    simp [hdecimal, hok, hprintable]

private theorem jsonString_keys : jsonString "cmd".toList = "\"cmd\"".toList ∧
    jsonString "error".toList = "\"error\"".toList ∧
    jsonString "message".toList = "\"message\"".toList := by
  decide

theorem okResponse_alone (cmd : List Char) : ReadsBack (okResponse cmd none)
    (.obj (header true ++ [("cmd".toList, .str cmd)])) := by
  have hcmd := @members_single "cmd".toList _ _ (.str (stringText_jsonString cmd))
  refine readsBack_response hcmd ?_ ?_ ?_
  · simp [printable_jsonString]
  · simp [Json.Distinct, DistinctFields, header]
  · unfold okResponse
    rw [jsonString_keys.1]
    generalize jsonString cmd = text
    simp

theorem okResponse_body {cmd key body : List Char} {v : Json} (h : Denotes v body)
    (hprintable : Printable body) (hdistinct : v.Distinct) (hkey : PlainKey key)
    (hnew : key ∉ ["v".toList, "ok".toList, "cmd".toList]) :
    ReadsBack (okResponse cmd (some (key, body)))
      (.obj (header true ++ [("cmd".toList, .str cmd), (key, v)])) := by
  have hmembers := @members_cons "cmd".toList _ _ _ _ (.str (stringText_jsonString cmd))
    (@members_single key _ _ h)
  refine readsBack_response hmembers ?_ ?_ ?_
  · simp [printable_jsonString, hprintable]
  · simp only [List.mem_cons, List.not_mem_nil, or_false, not_or] at hnew
    obtain ⟨hv, hok, hcmd⟩ := hnew
    simp [Json.Distinct, DistinctFields, header, hdistinct]
    exact ⟨Ne.symm hv, Ne.symm hok, Ne.symm hcmd⟩
  · unfold okResponse
    rw [jsonString_plain hkey, jsonString_keys.1]
    generalize jsonString cmd = text
    simp

theorem errorResponse_reads_back (code message : List Char) : ReadsBack (errorResponse code message)
    (.obj (header false ++ [("error".toList, .str code), ("message".toList, .str message)])) := by
  have hmembers := @members_cons "error".toList _ _ _ _ (.str (stringText_jsonString code))
    (@members_single "message".toList _ _ (.str (stringText_jsonString message)))
  refine readsBack_response hmembers ?_ ?_ ?_
  · simp [printable_jsonString]
  · simp [Json.Distinct, DistinctFields, header]
  · unfold errorResponse
    rw [jsonString_keys.2.1, jsonString_keys.2.2]
    generalize jsonString code = text
    generalize jsonString message = text'
    simp

/-- Every response is one line, which reads back as what was put in when its bytes and its levels
are as many as the reader takes. -/
theorem responses_read_back (members : List (List Char × Tree)) (cmd key code message : List Char)
    (hdistinct : (Json.obj (jsonFields members)).Distinct) (hkey : PlainKey key)
    (hnew : key ∉ ["v".toList, "ok".toList, "cmd".toList]) :
    ReadsBack (objectText members) (.obj (jsonFields members)) ∧
      ReadsBack (okResponse cmd (some (key, objectText members)))
        (.obj [("v".toList, .num "1".toList), ("ok".toList, .bool true), ("cmd".toList, .str cmd),
          (key, .obj (jsonFields members))]) ∧
      ReadsBack (okResponse cmd none)
        (.obj [("v".toList, .num "1".toList), ("ok".toList, .bool true),
          ("cmd".toList, .str cmd)]) ∧
      ReadsBack (errorResponse code message)
        (.obj [("v".toList, .num "1".toList), ("ok".toList, .bool false),
          ("error".toList, .str code), ("message".toList, .str message)]) := by
  obtain ⟨hdenotes, hprintable⟩ := denotes_objectText members
  refine ⟨readsBack_of_denotes hdenotes hprintable hdistinct, ?_, okResponse_alone cmd,
    errorResponse_reads_back code message⟩
  exact okResponse_body hdenotes hprintable hdistinct hkey hnew

private theorem distinct_sample : (Json.obj (jsonFields
    [("a\n".toList, .object [("b".toList, .optNum (some 7))]),
      ("c".toList, .str ['"'])])).Distinct := by
  simp [jsonFields, Tree.json, Json.Distinct, DistinctFields]

/-- A tree with escapes under a `status` key. -/
theorem responses_read_back_sample :
    parse (okResponse "status".toList (some ("status".toList, objectText
      [("a\n".toList, .object [("b".toList, .optNum (some 7))]), ("c".toList, .str ['"'])]))) =
      .ok (.obj [("v".toList, .num "1".toList), ("ok".toList, .bool true),
        ("cmd".toList, .str "status".toList), ("status".toList, .obj (jsonFields
          [("a\n".toList, .object [("b".toList, .optNum (some 7))]),
            ("c".toList, .str ['"'])]))]) := by
  have hread := (responses_read_back
    [("a\n".toList, .object [("b".toList, .optNum (some 7))]), ("c".toList, .str ['"'])]
    "status".toList "status".toList [] [] distinct_sample (by simp [PlainKey]) (by simp)).2.1.2
  exact hread.mpr (by decide +kernel)

/-- Objects in objects. -/
def nested : ℕ → List (List Char × Tree)
  | 0 => []
  | n + 1 => [(['a'], .object (nested n))]

private theorem nested_levels (n : ℕ) : (Json.obj (jsonFields (nested n))).Distinct ∧
    (Json.obj (jsonFields (nested n))).depth = n + 1 := by
  induction n with
  | zero => exact ⟨⟨List.nodup_nil, trivial⟩, rfl⟩
  | succ n ih =>
    refine ⟨⟨by simp [nested, jsonFields], ih.1, trivial⟩, ?_⟩
    rw [nested, jsonFields, Json.depth, depthFields, Tree.json, ih.2]
    simp [jsonFields, depthFields]

theorem length_le_byteLength (text : List Char) : text.length ≤ byteLength text := by
  induction text with
  | nil => exact Nat.le_refl 0
  | cons c text ih =>
    have hsize := Char.utf8Size_pos c
    simp only [byteLength, List.map_cons, List.sum_cons, List.length_cons] at ih ⊢
    omega

/-- A text that fills the reader's bound is refused with anything around it. -/
private theorem parse_long {text : List Char} (hplain : PlainKey text)
    (hlong : maxBytes ≤ text.length) (v : Json) :
    parse (objectText [(['a'], .str text)]) ≠ .ok v := by
  intro h
  obtain ⟨hbytes, -⟩ := parse_spelled h
  have hmore : text.length < (objectText [(['a'], .str text)]).length := by
    rw [objectText, JsonObject.finish, build, build, Tree.out_add, Tree.text,
      jsonString_plain hplain]
    simp only [List.length_append, List.length_cons]
    omega
  have hle := length_le_byteLength (objectText [(['a'], .str text)])
  omega

/-- A string that is as long as the reader's whole text may be. -/
def longText : List Char := List.replicate maxBytes 'a'

private theorem longText_plain : PlainKey longText ∧ maxBytes ≤ longText.length := by
  constructor
  · intro c hc
    obtain rfl : c = 'a' := (List.mem_replicate.mp hc).2
    decide
  · exact Nat.le_of_eq List.length_replicate.symm

/-- 33 levels, a text that is too long, and a key that would have to be escaped. -/
theorem response_not_read :
    ((Json.obj (jsonFields (nested 32))).Distinct ∧
        parse (objectText (nested 32)) ≠ .ok (.obj (jsonFields (nested 32)))) ∧
      ((Json.obj (jsonFields [(['a'], .str longText)])).Distinct ∧
        parse (objectText [(['a'], .str longText)]) ≠
          .ok (.obj (jsonFields [(['a'], .str longText)]))) ∧
      parse (okResponse ['a'] (some (['"'], objectText []))) ≠
        .ok (.obj [("v".toList, .num "1".toList), ("ok".toList, .bool true),
          ("cmd".toList, .str ['a']), (['"'], .obj [])]) := by
  have hlong (text : List Char) : (Json.obj (jsonFields [(['a'], .str text)])).Distinct := by
    simp [jsonFields, Tree.json, Json.Distinct, DistinctFields]
  refine ⟨⟨(nested_levels 32).1, fun h => ?_⟩,
    ⟨hlong longText, parse_long longText_plain.1 longText_plain.2 _⟩, by decide +kernel⟩
  obtain ⟨-, -, -, hdepth⟩ := parse_spelled h
  rw [(nested_levels 32).2] at hdepth
  exact absurd hdepth (by decide)

end CydMonitor.ControlIpc
