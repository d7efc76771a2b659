import CydMonitor.Hooks.Writer
import CydMonitor.Wifi.FlatJson

/-!
# Edited JSON values

What a key holds after an edit of an object, and which edits leave a value that can be written and
read back.
-/

namespace CydMonitor.Hooks

variable {key other : List Char} {v w : Json} {fields : List (List Char × Json)}

namespace Json

@[simp] theorem set_obj (key : List Char) (v : Json) (fields : List (List Char × Json)) :
    Json.set key v (.obj fields) = .obj (setField key v fields) :=
  rfl

theorem get_cons (f : List Char × Json) (fields : List (List Char × Json)) :
    (Json.obj (f :: fields)).get key =
      if f.1 = key then some f.2 else (Json.obj fields).get key := by
  rw [get, get, List.find?_cons]
  by_cases h : f.1 = key
  · simp [h]
  · rw [if_neg h, beq_eq_false_iff_ne.mpr h]

theorem get_eq_none : (Json.obj fields).get key = none ↔ key ∉ fields.map Prod.fst := by
  induction fields with
  | nil => simp [get]
  | cons f fields ih =>
    rw [get_cons, List.map_cons, List.mem_cons]
    by_cases h : f.1 = key
    · simp [h]
    · simp [h, ih, Ne.symm h]

theorem mem_of_get (h : (Json.obj fields).get key = some v) : (key, v) ∈ fields := by
  induction fields with
  | nil => cases h
  | cons f fields ih =>
    rw [get_cons] at h
    by_cases hkey : f.1 = key
    · rw [if_pos hkey] at h
      rw [← hkey, ← Option.some.inj h]
      exact List.mem_cons_self
    · rw [if_neg hkey] at h
      exact List.mem_cons_of_mem f (ih h)

/-- Without a key twice every member is found. -/
theorem get_of_mem (hkeys : (fields.map Prod.fst).Nodup) (h : (key, v) ∈ fields) :
    (Json.obj fields).get key = some v := by
  induction fields with
  | nil => cases h
  | cons f fields ih =>
    rw [List.map_cons, List.nodup_cons] at hkeys
    rw [get_cons]
    cases h with
    | head => rw [if_pos rfl]
    | tail _ h =>
      have hne : f.1 ≠ key := fun heq => hkeys.1 (heq ▸ List.mem_map_of_mem (f := Prod.fst) h)
      rw [if_neg hne]
      exact ih hkeys.2 h

@[simp] theorem get_setField_self : (Json.obj (setField key v fields)).get key = some v := by
  induction fields with
  | nil => simp [setField, get]
  | cons f fields ih =>
    rw [setField]
    by_cases h : f.1 = key
    · simp [h, get_cons]
    · simp [h, get_cons, ih]

theorem get_setField_ne (h : other ≠ key) :
    (Json.obj (setField key v fields)).get other = (Json.obj fields).get other := by
  induction fields with
  | nil => simp [setField, get, Ne.symm h]
  | cons f fields ih =>
    rw [setField]
    by_cases hkey : f.1 = key
    · rw [if_pos hkey, get_cons, get_cons, if_neg (Ne.symm h), if_neg (hkey ▸ Ne.symm h)]
    · rw [if_neg hkey, get_cons, get_cons, ih]

theorem setField_of_get (h : (Json.obj fields).get key = some v) :
    setField key v fields = fields := by
  induction fields with
  | nil => cases h
  | cons f fields ih =>
    rw [get_cons] at h
    rw [setField]
    by_cases hkey : f.1 = key
    · rw [if_pos hkey] at h ⊢
      rw [← hkey, ← Option.some.inj h]
    · rw [if_neg hkey] at h ⊢
      rw [ih h]

theorem setField_setField : setField key w (setField key v fields) = setField key w fields := by
  induction fields with
  | nil => simp [setField]
  | cons f fields ih =>
    by_cases hkey : f.1 = key
    · simp [setField, hkey]
    · simp [setField, hkey, ih]

theorem setField_new (h : key ∉ fields.map Prod.fst) :
    setField key v fields = fields ++ [(key, v)] := by
  induction fields with
  | nil => rfl
  | cons f fields ih =>
    obtain ⟨hf, hfields⟩ := not_or.mp fun hmem => h (List.mem_cons.mpr hmem)
    rw [setField, if_neg (Ne.symm hf), ih hfields]
    rfl

theorem keys_setField : (setField key v fields).map Prod.fst =
    if key ∈ fields.map Prod.fst then fields.map Prod.fst else fields.map Prod.fst ++ [key] := by
  induction fields with
  | nil => rfl
  | cons f fields ih =>
    by_cases hkey : f.1 = key
    · simp [setField, hkey]
    · have hmem : key ∈ (f :: fields).map Prod.fst ↔ key ∈ fields.map Prod.fst := by
        simp [Ne.symm hkey]
      rw [setField, if_neg hkey, List.map_cons, ih]
      by_cases h : key ∈ fields.map Prod.fst
      · rw [if_pos h, if_pos (hmem.mpr h), List.map_cons]
      · rw [if_neg h, if_neg fun hf => h (hmem.mp hf), List.map_cons, List.cons_append]

theorem mem_setField {f : List Char × Json} (h : f ∈ setField key v fields) :
    f = (key, v) ∨ f ∈ fields := by
  induction fields with
  | nil => exact .inl (List.mem_singleton.mp h)
  | cons g fields ih =>
    rw [setField] at h
    by_cases hkey : g.1 = key
    · rw [if_pos hkey] at h
      exact (List.mem_cons.mp h).imp_right (List.mem_cons_of_mem g)
    · rw [if_neg hkey] at h
      obtain rfl | h := List.mem_cons.mp h
      · exact .inr List.mem_cons_self
      · exact (ih h).imp_right (List.mem_cons_of_mem g)

end Json

/-- A value without a key twice, of at most so many levels, whose numbers are numbers. -/
structure Good (n : ℕ) (v : Json) : Prop where
  distinct : v.Distinct
  depth : v.depth ≤ n
  spelled : ∃ t, Denotes v t

theorem Good.mono {n m : ℕ} (h : Good n v) (hle : n ≤ m) : Good m v :=
  ⟨h.distinct, Nat.le_trans h.depth hle, h.spelled⟩

theorem good_str (n : ℕ) (text : List Char) : Good (n + 1) (.str text) :=
  ⟨trivial, Nat.succ_le_succ (Nat.zero_le n), _, .str (stringText_writeString text)⟩

theorem good_num (n : ℕ) {text : List Char} (h : IsNumber text) : Good (n + 1) (.num text) :=
  ⟨trivial, Nat.succ_le_succ (Nat.zero_le n), _, .num h⟩

theorem isNumber_decimal (n : ℕ) : IsNumber (Text.decimal n) := by
  have hdigits : Digits (Text.decimal n) := by
    refine ⟨Nat.toDigits_ne_nil, fun c hc => ?_⟩
    exact Nat.isDigit_of_mem_toDigits (by decide) (by decide) hc
  refine ⟨[], Text.decimal n, [], [], .inl rfl, ?_, .inl rfl, .inl rfl, by simp⟩
  by_cases hzero : (Text.decimal n).head? = some '0'
  · left
    rw [Text.head_decimal n hzero]
    rfl
  · exact .inr ⟨hdigits, hzero⟩

private theorem distinctItems_iff {items : List Json} :
    DistinctItems items ↔ ∀ v ∈ items, v.Distinct := by
  induction items with
  | nil => simp [DistinctItems]
  | cons v items ih => simp [DistinctItems, ih]

private theorem distinctFields_iff :
    DistinctFields fields ↔ ∀ f ∈ fields, f.2.Distinct := by
  induction fields with
  | nil => simp [DistinctFields]
  | cons f fields ih =>
    obtain ⟨key, v⟩ := f
    simp [DistinctFields, ih]

private theorem depthItems_le {items : List Json} {n : ℕ} :
    depthItems items ≤ n ↔ ∀ v ∈ items, v.depth ≤ n := by
  induction items with
  | nil => simp [depthItems]
  | cons v items ih => rw [depthItems, Nat.max_le, ih, List.forall_mem_cons]

private theorem depthFields_le {n : ℕ} :
    depthFields fields ≤ n ↔ ∀ f ∈ fields, f.2.depth ≤ n := by
  induction fields with
  | nil => simp [depthFields]
  | cons f fields ih =>
    obtain ⟨key, v⟩ := f
    rw [depthFields, Nat.max_le, ih, List.forall_mem_cons]

theorem exists_items {items : List Json} (hne : items ≠ []) :
    (∃ t, Items items t) ↔ ∀ v ∈ items, ∃ t, Denotes v t := by
  induction items with
  | nil => exact absurd rfl hne
  | cons v items ih =>
    rw [List.forall_mem_cons]
    constructor
    · intro ⟨t, h⟩
      cases h with
      | last _ h => exact ⟨⟨_, h⟩, nofun⟩
      | more _ h _ hs => exact ⟨⟨_, h⟩, (ih (by rintro rfl; cases hs)).mp ⟨_, hs⟩⟩
    · intro ⟨⟨t, h⟩, hall⟩
      by_cases hlast : items = []
      · exact hlast ▸ ⟨_, .last ws_nil h ws_nil⟩
      · obtain ⟨rest, hrest⟩ := (ih hlast).mpr hall
        exact ⟨_, .more ws_nil h ws_nil hrest⟩

theorem exists_members (hne : fields ≠ []) :
    (∃ t, Members fields t) ↔ ∀ f ∈ fields, ∃ t, Denotes f.2 t := by
  induction fields with
  | nil => exact absurd rfl hne
  | cons f fields ih =>
    obtain ⟨key, v⟩ := f
    rw [List.forall_mem_cons]
    constructor
    · intro ⟨t, h⟩
      cases h with
      | last _ _ _ _ h => exact ⟨⟨_, h⟩, nofun⟩
      | more _ _ _ _ h _ hs => exact ⟨⟨_, h⟩, (ih (by rintro rfl; cases hs)).mp ⟨_, hs⟩⟩
    · intro ⟨⟨t, h⟩, hall⟩
      have hkey := stringText_writeString key
      by_cases hlast : fields = []
      · exact hlast ▸ ⟨_, .last ws_nil hkey ws_nil ws_nil h ws_nil⟩
      · obtain ⟨rest, hrest⟩ := (ih hlast).mpr hall
        exact ⟨_, .more ws_nil hkey ws_nil ws_nil h ws_nil hrest⟩

theorem good_arr {n : ℕ} {items : List Json} :
    Good (n + 1) (.arr items) ↔ ∀ v ∈ items, Good n v := by
  constructor
  · intro ⟨hdistinct, hdepth, t, h⟩ v hv
    rw [Json.Distinct, distinctItems_iff] at hdistinct
    rw [Json.depth, Nat.succ_le_succ_iff, depthItems_le] at hdepth
    refine ⟨hdistinct v hv, hdepth v hv, ?_⟩
    cases h with
    | noItems => cases hv
    | items h => exact (exists_items (by rintro rfl; cases hv)).mp ⟨_, h⟩ v hv
  · intro h
    refine ⟨?_, ?_, ?_⟩
    · rw [Json.Distinct, distinctItems_iff]
      exact fun v hv => (h v hv).distinct
    · rw [Json.depth, Nat.succ_le_succ_iff, depthItems_le]
      exact fun v hv => (h v hv).depth
    · by_cases hne : items = []
      · exact hne ▸ ⟨_, .noItems ws_nil⟩
      · obtain ⟨t, ht⟩ := (exists_items hne).mpr fun v hv => (h v hv).spelled
        exact ⟨_, .items ht⟩

theorem good_obj {n : ℕ} :
    Good (n + 1) (.obj fields) ↔ (fields.map Prod.fst).Nodup ∧ ∀ f ∈ fields, Good n f.2 := by
  constructor
  · rintro ⟨hdistinct, hdepth, t, h⟩
    rw [Json.Distinct, distinctFields_iff] at hdistinct
    rw [Json.depth, Nat.succ_le_succ_iff, depthFields_le] at hdepth
    refine ⟨hdistinct.1, fun f hf => ⟨hdistinct.2 f hf, hdepth f hf, ?_⟩⟩
    cases h with
    | noMembers => cases hf
    | members h => exact (exists_members (by rintro rfl; cases hf)).mp ⟨_, h⟩ f hf
  · rintro ⟨hkeys, h⟩
    refine ⟨?_, ?_, ?_⟩
    · rw [Json.Distinct, distinctFields_iff]
      exact ⟨hkeys, fun f hf => (h f hf).distinct⟩
    · rw [Json.depth, Nat.succ_le_succ_iff, depthFields_le]
      exact fun f hf => (h f hf).depth
    · by_cases hne : fields = []
      · exact hne ▸ ⟨_, .noMembers ws_nil⟩
      · obtain ⟨t, ht⟩ := (exists_members hne).mpr fun f hf => (h f hf).spelled
        exact ⟨_, .members ht⟩

/-- An object with one value replaced or added. -/
theorem Good.setField {n : ℕ} (h : Good (n + 1) (.obj fields)) (hv : Good n v) :
    Good (n + 1) (.obj (Json.setField key v fields)) := by
  obtain ⟨hkeys, hfields⟩ := good_obj.mp h
  refine good_obj.mpr ⟨?_, fun f hf => ?_⟩
  · rw [Json.keys_setField]
    split_ifs with hmem
    · exact hkeys
    · rw [List.nodup_append]
      refine ⟨hkeys, by simp, fun a ha b hb heq => hmem ?_⟩
      obtain rfl := List.mem_singleton.mp hb
      exact heq ▸ ha
  · obtain rfl | hf := Json.mem_setField hf
    · exact hv
    · exact hfields f hf

theorem Good.of_get {n : ℕ} (h : Good (n + 1) (.obj fields))
    (hget : (Json.obj fields).get key = some v) : Good n v :=
  (good_obj.mp h).2 _ (Json.mem_of_get hget)

/-- An object with some of its members. -/
theorem Good.sublist {n : ℕ} {kept : List (List Char × Json)} (h : Good (n + 1) (.obj fields))
    (hkept : kept.Sublist fields) : Good (n + 1) (.obj kept) := by
  obtain ⟨hkeys, hfields⟩ := good_obj.mp h
  exact good_obj.mpr ⟨hkeys.sublist (hkept.map _), fun f hf => hfields f (hkept.subset hf)⟩

theorem good_of_parse {text : List Char} (h : parse text = .ok v) : Good maxDepth v := by
  obtain ⟨-, ⟨w, t, w', -, ht, -, -⟩, hdistinct, hdepth⟩ := parse_spelled h
  exact ⟨hdistinct, hdepth, t, ht⟩

/-- What is written is read as it was, if it is not too long. -/
theorem Good.parse_pretty (h : Good maxDepth v) (hbytes : byteLength (pretty v) ≤ maxBytes) :
    parse (pretty v) = .ok v := by
  obtain ⟨t, ht⟩ := h.spelled
  exact (parse_iff hbytes).mpr
    ⟨⟨[], _, _, ws_nil, denotes_writeValue ht 0, ws_newline, rfl⟩, h.distinct, h.depth⟩

end CydMonitor.Hooks
