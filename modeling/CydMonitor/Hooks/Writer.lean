import CydMonitor.Hooks.Complete

/-!
# The JSON writers (`host/cli/src/hooks/json.rs`)

Both writers spell the value that they are given, so what they write reads back.
-/

namespace CydMonitor.Hooks

def indent (depth : ℕ) : List Char := (List.replicate depth "  ".toList).flatten

/-- Four lower-case hexadecimal digits, or more if the number needs them. -/
def hex04 (n : ℕ) : List Char := List.leftpad 4 '0' (Nat.toDigits 16 n)

def writeChar (c : Char) : List Char :=
  if c = '"' then "\\\"".toList
  else if c = '\\' then "\\\\".toList
  else if c = '\n' then "\\n".toList
  else if c = '\r' then "\\r".toList
  else if c = '\t' then "\\t".toList
  else if c = '\x08' then "\\b".toList
  else if c = '\x0c' then "\\f".toList
  else if c.toNat < 0x20 then "\\u".toList ++ hex04 c.toNat
  else [c]

def writeString (text : List Char) : List Char := '"' :: (text.flatMap writeChar ++ ['"'])

mutual

def writeValue : (depth : ℕ) → Json → List Char
  | _, .null => "null".toList
  | _, .bool true => "true".toList
  | _, .bool false => "false".toList
  | _, .num text => text
  | _, .str text => writeString text
  | depth, .arr items =>
    if items.isEmpty then "[]".toList
    else "[\n".toList ++ writeItems depth items ++ indent depth ++ "]".toList
  | depth, .obj fields =>
    if fields.isEmpty then "\x7b\x7d".toList
    else "\x7b\n".toList ++ writeFields depth fields ++ indent depth ++ "\x7d".toList

def writeItems : (depth : ℕ) → List Json → List Char
  | _, [] => []
  | depth, item :: items =>
    indent (depth + 1) ++ writeValue (depth + 1) item ++
      (if items.isEmpty then "\n".toList else ",\n".toList) ++ writeItems depth items

def writeFields : (depth : ℕ) → List (List Char × Json) → List Char
  | _, [] => []
  | depth, (key, item) :: fields =>
    indent (depth + 1) ++ writeString key ++ ": ".toList ++ writeValue (depth + 1) item ++
      (if fields.isEmpty then "\n".toList else ",\n".toList) ++ writeFields depth fields

end

/-- Two-space indentation and a final newline. -/
def pretty (v : Json) : List Char := writeValue 0 v ++ "\n".toList

mutual

/-- No indentation, no newline. -/
def compact : Json → List Char
  | .arr items => "[".toList ++ compactItems items ++ "]".toList
  | .obj fields => "\x7b".toList ++ compactFields fields ++ "\x7d".toList
  | .null => writeValue 0 .null
  | .bool b => writeValue 0 (.bool b)
  | .num text => writeValue 0 (.num text)
  | .str text => writeValue 0 (.str text)

def compactItems : List Json → List Char
  | [] => []
  | item :: items =>
    compact item ++ (if items.isEmpty then [] else ",".toList) ++ compactItems items

def compactFields : List (List Char × Json) → List Char
  | [] => []
  | (key, item) :: fields =>
    writeString key ++ ":".toList ++ compact item ++ (if fields.isEmpty then [] else ",".toList) ++
      compactFields fields

end

example : compact (.obj [("a".toList, .arr [.num "1".toList, .str ['\n', '\x01']])]) =
    "\x7b\"a\":[1,\"\\n\\u0001\"]\x7d".toList := by
  decide +kernel

private theorem hex04_control (n : ℕ) (h : n < 0x20) : HexText n (hex04 n) := by
  have hall : ∀ n < 0x20, hex4 (hex04 n) = .ok (n, []) := by decide
  obtain ⟨t, ht, htext⟩ := hex4_sound (hall n h)
  rwa [htext, List.append_nil]

theorem charText_writeChar (c : Char) : CharText c (writeChar c) := by
  rw [writeChar]
  split_ifs with hquote hescape hn hr ht hb hf hcontrol
  · exact .short '"' c (by rw [hquote]; decide)
  · exact .short '\\' c (by rw [hescape]; decide)
  · exact .short 'n' c (by rw [hn]; decide)
  · exact .short 'r' c (by rw [hr]; decide)
  · exact .short 't' c (by rw [ht]; decide)
  · exact .short 'b' c (by rw [hb]; decide)
  · exact .short 'f' c (by rw [hf]; decide)
  · exact .unit c _ (hex04_control _ hcontrol)
  · exact .plain c ⟨hquote, hescape, by omega⟩

theorem stringText_writeString (s : List Char) : StringText s (writeString s) := by
  refine ⟨s.flatMap writeChar, ?_, rfl⟩
  induction s with
  | nil => exact .nil
  | cons c s ih => exact .cons (charText_writeChar c) ih

theorem ws_indent (depth : ℕ) : Ws (indent depth) := by
  intro c hc
  obtain ⟨two, htwo, hmem⟩ := List.mem_flatten.mp hc
  rw [List.eq_of_mem_replicate htwo] at hmem
  have hall : ∀ c ∈ "  ".toList, isWs c = true := by simp [isWs]
  exact hall c hmem

theorem ws_newline : Ws "\n".toList := by
  intro c hc
  obtain rfl := List.mem_singleton.mp hc
  rfl

private theorem ws_space : Ws " ".toList := by
  intro c hc
  obtain rfl := List.mem_singleton.mp hc
  rfl

mutual

theorem denotes_writeValue {v : Json} {t : List Char} (h : Denotes v t) (depth : ℕ) :
    Denotes v (writeValue depth v) := by
  cases h with
  | null => exact .null
  | true => exact .true
  | false => exact .false
  | num h => exact .num h
  | @str s t h => exact .str (stringText_writeString s)
  | noItems => exact .noItems ws_nil
  | @items items t h =>
    have hwritten := (items_writeItems h depth (ws_indent depth)).ws ws_newline
    have hsome : items.isEmpty = Bool.false := by cases h <;> rfl
    rw [writeValue, hsome]
    exact (List.append_assoc "[\n".toList _ _) ▸ Denotes.items hwritten
  | noMembers => exact .noMembers ws_nil
  | @members fields t h =>
    have hwritten := (members_writeFields h depth (ws_indent depth)).ws ws_newline
    have hsome : fields.isEmpty = Bool.false := by cases h <;> rfl
    rw [writeValue, hsome]
    exact (List.append_assoc "\x7b\n".toList _ _) ▸ Denotes.members hwritten

theorem items_writeItems {items : List Json} {t : List Char} (h : Items items t) (depth : ℕ)
    {w : List Char} (hw : Ws w) : Items items (writeItems depth items ++ w) := by
  cases h with
  | @last v _ t _ _ h =>
    have hwritten := Items.last (ws_indent (depth + 1)) (denotes_writeValue h (depth + 1))
      (ws_newline.append hw)
    have htext : writeItems depth [v] ++ w =
        indent (depth + 1) ++ (writeValue (depth + 1) v ++ ("\n".toList ++ w)) := by
      simp [writeItems]
    rwa [htext]
  | @more v items _ t _ _ _ h _ hs =>
    have hrest := (items_writeItems hs depth hw).ws ws_newline
    have hwritten := Items.more (ws_indent (depth + 1)) (denotes_writeValue h (depth + 1)) ws_nil
      hrest
    have hsome : items.isEmpty = Bool.false := by cases hs <;> rfl
    have htext : writeItems depth (v :: items) ++ w =
        indent (depth + 1) ++ (writeValue (depth + 1) v ++
          ([] ++ ',' :: ("\n".toList ++ (writeItems depth items ++ w)))) := by
      simp [writeItems, hsome]
    rwa [htext]

theorem members_writeFields {fields : List (List Char × Json)} {t : List Char}
    (h : Members fields t) (depth : ℕ) {w : List Char} (hw : Ws w) :
    Members fields (writeFields depth fields ++ w) := by
  cases h with
  | @last key v _ _ _ _ t _ _ _ _ _ h =>
    have hwritten := Members.last (ws_indent (depth + 1)) (stringText_writeString key) ws_nil
      ws_space (denotes_writeValue h (depth + 1)) (ws_newline.append hw)
    have htext : writeFields depth [(key, v)] ++ w =
        indent (depth + 1) ++ (writeString key ++ ([] ++ ':' :: (" ".toList ++
          (writeValue (depth + 1) v ++ ("\n".toList ++ w))))) := by
      simp [writeFields]
    rwa [htext]
  | @more key v fields _ _ _ _ t _ _ _ _ _ _ h _ hs =>
    have hrest := (members_writeFields hs depth hw).ws ws_newline
    have hwritten := Members.more (ws_indent (depth + 1)) (stringText_writeString key) ws_nil
      ws_space (denotes_writeValue h (depth + 1)) ws_nil hrest
    have hsome : fields.isEmpty = Bool.false := by cases hs <;> rfl
    have htext : writeFields depth ((key, v) :: fields) ++ w =
        indent (depth + 1) ++ (writeString key ++ ([] ++ ':' :: (" ".toList ++
          (writeValue (depth + 1) v ++ ([] ++ ',' :: ("\n".toList ++
            (writeFields depth fields ++ w))))))) := by
      simp [writeFields, hsome]
    rwa [htext]

end

mutual

theorem denotes_compact {v : Json} {t : List Char} (h : Denotes v t) : Denotes v (compact v) := by
  cases h with
  | null => exact .null
  | true => exact .true
  | false => exact .false
  | num h => exact .num h
  | @str s t h => exact .str (stringText_writeString s)
  | noItems => exact .noItems ws_nil
  | @items items t h => exact .items (items_compactItems h)
  | noMembers => exact .noMembers ws_nil
  | @members fields t h => exact .members (members_compactFields h)

theorem items_compactItems {items : List Json} {t : List Char} (h : Items items t) :
    Items items (compactItems items) := by
  cases h with
  | @last v _ t _ _ h =>
    have hwritten := Items.last ws_nil (denotes_compact h) ws_nil
    simpa [compactItems] using hwritten
  | @more v items _ t _ _ _ h _ hs =>
    have hwritten := Items.more ws_nil (denotes_compact h) ws_nil (items_compactItems hs)
    have hsome : items.isEmpty = Bool.false := by cases hs <;> rfl
    simpa [compactItems, hsome] using hwritten

theorem members_compactFields {fields : List (List Char × Json)} {t : List Char}
    (h : Members fields t) : Members fields (compactFields fields) := by
  cases h with
  | @last key v _ _ _ _ t _ _ _ _ _ h =>
    have hwritten := Members.last ws_nil (stringText_writeString key) ws_nil ws_nil
      (denotes_compact h) ws_nil
    simpa [compactFields] using hwritten
  | @more key v fields _ _ _ _ t _ _ _ _ _ _ h _ hs =>
    have hwritten := Members.more ws_nil (stringText_writeString key) ws_nil ws_nil
      (denotes_compact h) ws_nil (members_compactFields hs)
    have hsome : fields.isEmpty = Bool.false := by cases hs <;> rfl
    simpa [compactFields, hsome] using hwritten

end

/-- What the reader can answer. -/
theorem parse_spelled {text : List Char} {v : Json} (h : parse text = .ok v) :
    byteLength text ≤ maxBytes ∧ Document v text ∧ v.Distinct ∧ v.depth ≤ maxDepth := by
  have hbytes : byteLength text ≤ maxBytes := by
    by_contra hlarge
    rw [parse, parseLimited, if_pos (Nat.lt_of_not_le hlarge)] at h
    cases h
  exact ⟨hbytes, (parse_iff hbytes).mp h⟩

/-- The reader takes exactly the documents of the grammar without a key twice and with fewer than
33 levels, and what is read can be written and read again. -/
theorem parse_grammar_and_round_trip :
    (∀ (text : List Char) (v : Json), byteLength text ≤ maxBytes →
      (parse text = .ok v ↔ Document v text ∧ v.Distinct ∧ v.depth < 33)) ∧
    ∀ (text : List Char) (v : Json), parse text = .ok v →
      (byteLength (pretty v) ≤ maxBytes → parse (pretty v) = .ok v) ∧
        (byteLength (compact v) ≤ maxBytes → parse (compact v) = .ok v) := by
  refine ⟨fun text v h => (parse_iff h).trans ?_, fun text v h => ?_⟩
  · exact and_congr_right fun _ => and_congr_right fun _ => Nat.lt_succ_iff.symm
  · obtain ⟨-, ⟨w, t, w', hw, ht, hw', -⟩, hdistinct, hdepth⟩ := parse_spelled h
    refine ⟨fun hbytes => ?_, fun hbytes => ?_⟩
    · exact (parse_iff hbytes).mpr
        ⟨⟨[], _, _, ws_nil, denotes_writeValue ht 0, ws_newline, rfl⟩, hdistinct, hdepth⟩
    · refine (parse_iff hbytes).mpr
        ⟨⟨[], _, [], ws_nil, denotes_compact ht, ws_nil, ?_⟩, hdistinct, hdepth⟩
      rw [List.append_nil]
      rfl

/-- A document with an escape and a number that keeps its text. -/
theorem parse_grammar_and_round_trip_sample :
    parse "\x7b\"a\\n\" : [1.50]\x7d".toList =
        .ok (.obj [("a\n".toList, .arr [.num "1.50".toList])]) ∧
      parse (compact (.obj [("a\n".toList, .arr [.num "1.50".toList])])) =
        .ok (.obj [("a\n".toList, .arr [.num "1.50".toList])]) := by
  have hread : parse "\x7b\"a\\n\" : [1.50]\x7d".toList =
      .ok (.obj [("a\n".toList, .arr [.num "1.50".toList])]) := by decide +kernel
  exact ⟨hread, (parse_grammar_and_round_trip.2 _ _ hread).2 (by decide +kernel)⟩

end CydMonitor.Hooks
