import CydMonitor.Hooks.Exact

/-!
# What the grammar derives is read

By induction on the derivation, with as much room as the value has levels.
-/

namespace CydMonitor.Hooks

theorem denotes_head {v : Json} {text : List Char} (h : Denotes v text) :
    ∃ c rest, text = c :: rest ∧ isWs c = false ∧ c ≠ ']' := by
  cases h with
  | null | true | false => exact ⟨_, _, rfl, by decide, by decide⟩
  | num h =>
    obtain ⟨minus, int, frac, exp, hminus, hint, -, -, rfl⟩ := h
    obtain rfl | rfl := hminus
    · obtain rfl | ⟨hds, -⟩ := hint
      · exact ⟨_, _, rfl, by decide, by decide⟩
      · obtain ⟨d, ds, rfl⟩ := List.exists_cons_of_ne_nil hds.1
        have hdigit := hds.2 d List.mem_cons_self
        refine ⟨d, _, rfl, ?_, fun heq => ?_⟩
        · have hne (c : Char) (hc : c.isDigit = false) : d ≠ c := by
            intro heq
            rw [heq, hc] at hdigit
            cases hdigit
          simp [isWs, hne ' ' rfl, hne '\t' rfl, hne '\n' rfl, hne '\r' rfl]
        · rw [heq] at hdigit
          exact absurd hdigit (by decide)
    · exact ⟨_, _, rfl, by decide, by decide⟩
  | str h =>
    obtain ⟨body, -, rfl⟩ := h
    exact ⟨_, _, rfl, by decide, by decide⟩
  | noItems | items | noMembers | members => exact ⟨_, _, rfl, by decide, by decide⟩

theorem denotes_skipWs {v : Json} {text w : List Char} (hw : Ws w) (h : Denotes v text)
    (rest : List Char) : skipWs (w ++ (text ++ rest)) = text ++ rest := by
  obtain ⟨c, t, rfl, hc, -⟩ := denotes_head h
  exact skipWs_to hw hc _

theorem StringText.head {s text : List Char} (h : StringText s text) :
    ∃ rest, text = '"' :: rest := by
  obtain ⟨body, -, rfl⟩ := h
  exact ⟨_, rfl⟩

theorem stops_ws {w : List Char} (hw : Ws w) {c : Char}
    (hc : c = ',' ∨ c = ']' ∨ c = '\x7d') (rest : List Char) : Stops (w ++ c :: rest) := by
  intro d hd
  have hcases : d = ' ' ∨ d = '\t' ∨ d = '\n' ∨ d = '\r' ∨ d = ',' ∨ d = ']' ∨ d = '\x7d' := by
    cases w with
    | nil =>
      obtain rfl := Option.some.inj hd
      exact .inr (.inr (.inr (.inr hc)))
    | cons e w =>
      have he := hw e List.mem_cons_self
      rw [Option.some.inj hd] at he
      have hcases : d = ' ' ∨ d = '\t' ∨ d = '\n' ∨ d = '\r' := by
        simpa [isWs, or_assoc] using he
      simp only [← or_assoc] at hcases ⊢
      exact .inl (.inl (.inl hcases))
  obtain rfl | rfl | rfl | rfl | rfl | rfl | rfl := hcases <;> decide

theorem stops_nil {w : List Char} (hw : Ws w) : Stops w := by
  intro d hd
  have h := hw d (List.mem_of_mem_head? hd)
  have hcases : d = ' ' ∨ d = '\t' ∨ d = '\n' ∨ d = '\r' := by
    simpa [isWs, or_assoc] using h
  obtain rfl | rfl | rfl | rfl := hcases <;> decide

variable {read : List Char → Except Fail (Json × List Char)} {room : ℕ}

/-- A loop only looks at what its first round makes of its start. -/
theorem loop_congr {σ ε α : Type} [Inhabited ε] {body : σ → Except ε (σ ⊕ α)} {μ : σ → ℕ}
    (h : Loop.Lowers body μ) {s s' : σ} (hbody : body s = body s') :
    Loop.loop body μ s = Loop.loop body μ s' := by
  cases hs : body s' with
  | error e => rw [Loop.loop_fail hs, Loop.loop_fail (hbody.trans hs)]
  | ok r =>
    cases r with
    | inl next => rw [Loop.loop_next h hs, Loop.loop_next h (hbody.trans hs)]
    | inr a => rw [Loop.loop_stop hs, Loop.loop_stop (hbody.trans hs)]

theorem arrayRound_spelled {v : Json} {w t w' rest : List Char} (hw : Ws w) (h : Denotes v t)
    (hw' : Ws w') {c : Char} (hc : c = ',' ∨ c = ']')
    (hread : read (t ++ (w' ++ c :: rest)) = .ok (v, w' ++ c :: rest)) (items : List Json) :
    arrayRound read (items, w ++ (t ++ (w' ++ c :: rest))) =
      if c = ',' then .ok (.inl (items ++ [v], rest))
      else .ok (.inr (.arr (items ++ [v]), rest)) := by
  have hskip : skipWs (w' ++ c :: rest) = c :: rest :=
    skipWs_to hw' (by obtain rfl | rfl := hc <;> rfl) rest
  rw [arrayRound]
  simp only [bind, Except.bind, denotes_skipWs hw h, hread, hskip]
  obtain rfl | rfl := hc <;> rfl

theorem objectRound_spelled {key : List Char} {v : Json} {w name w₁ w₂ t w' rest : List Char}
    (hw : Ws w) (hkey : StringText key name) (hw₁ : Ws w₁) (hw₂ : Ws w₂) (h : Denotes v t)
    (hw' : Ws w') {c : Char} (hc : c = ',' ∨ c = '\x7d')
    (hread : read (t ++ (w' ++ c :: rest)) = .ok (v, w' ++ c :: rest))
    {fields : List (List Char × Json)} (hnew : key ∉ fields.map Prod.fst) :
    objectRound read (fields, w ++ (name ++ (w₁ ++ ':' :: (w₂ ++ (t ++ (w' ++ c :: rest)))))) =
      if c = ',' then .ok (.inl (fields ++ [(key, v)], rest))
      else .ok (.inr (.obj (fields ++ [(key, v)]), rest)) := by
  have hskip : skipWs (w' ++ c :: rest) = c :: rest :=
    skipWs_to hw' (by obtain rfl | rfl := hc <;> rfl) rest
  have hcolon : skipWs (w₁ ++ ':' :: (w₂ ++ (t ++ (w' ++ c :: rest)))) =
      ':' :: (w₂ ++ (t ++ (w' ++ c :: rest))) := skipWs_to hw₁ rfl _
  obtain ⟨name', hname⟩ := hkey.head
  have hstart : skipWs (w ++ (name ++ (w₁ ++ ':' :: (w₂ ++ (t ++ (w' ++ c :: rest)))))) =
      name ++ (w₁ ++ ':' :: (w₂ ++ (t ++ (w' ++ c :: rest)))) := by
    rw [hname]
    exact skipWs_to hw rfl _
  have hquote : ¬(name ++ (w₁ ++ ':' :: (w₂ ++ (t ++ (w' ++ c :: rest))))).head? ≠ some '"' := by
    rw [hname]
    simp
  rw [objectRound]
  simp only [hstart, if_neg hquote, bind, Except.bind, string_spelled hkey, if_neg hnew, hcolon,
    List.head?_cons, ne_eq, not_true_eq_false, if_false, List.tail_cons, denotes_skipWs hw₂ h,
      hread, hskip]
  obtain rfl | rfl := hc <;> rfl

/-- The loop from the text behind the first white space is the loop from all of it. -/
theorem array_loop (hread : Sound room read) {text : List Char}
    (h : (skipWs text).head? ≠ some ']') :
    array read ('[' :: text) = Loop.loop (arrayRound read) (·.2.length) ([], text) := by
  have hround : arrayRound read ([], skipWs text) = arrayRound read ([], text) := by
    rw [arrayRound, arrayRound]
    simp only [skipWs_skipWs]
  rw [array, List.tail_cons]
  simp only [if_neg h]
  exact loop_congr (arrayRound_lowers hread) hround

theorem object_loop (hread : Sound room read) {text : List Char}
    (h : (skipWs text).head? ≠ some '\x7d') :
    object read ('\x7b' :: text) = Loop.loop (objectRound read) (·.2.length) ([], text) := by
  have hround : objectRound read ([], skipWs text) = objectRound read ([], text) := by
    rw [objectRound, objectRound]
    simp only [skipWs_skipWs]
  rw [object, List.tail_cons]
  simp only [if_neg h]
  exact loop_congr (objectRound_lowers hread) hround

theorem items_head {items : List Json} {text : List Char} (h : Items items text)
    (rest : List Char) : (skipWs (text ++ rest)).head? ≠ some ']' := by
  have hhead {v : Json} {w t : List Char} (hw : Ws w) (h : Denotes v t) (rest : List Char) :
      (skipWs (w ++ (t ++ rest))).head? ≠ some ']' := by
    obtain ⟨c, t', rfl, -, hc⟩ := denotes_head h
    rw [denotes_skipWs hw h]
    simpa using hc
  cases h with
  | last hw h hw' =>
    rw [List.append_assoc, List.append_assoc]
    exact hhead hw h _
  | more hw h hw' hs =>
    rw [List.append_assoc, List.append_assoc]
    exact hhead hw h _

theorem members_head {fields : List (List Char × Json)} {text : List Char} (h : Members fields text)
    (rest : List Char) : (skipWs (text ++ rest)).head? ≠ some '\x7d' := by
  have hhead {key w name : List Char} (hw : Ws w) (h : StringText key name) (rest : List Char) :
      (skipWs (w ++ (name ++ rest))).head? ≠ some '\x7d' := by
    obtain ⟨name', rfl⟩ := h.head
    rw [List.cons_append, skipWs_to hw rfl]
    simp
  cases h with
  | last hw hkey =>
    rw [List.append_assoc, List.append_assoc]
    exact hhead hw hkey _
  | more hw hkey =>
    rw [List.append_assoc, List.append_assoc]
    exact hhead hw hkey _

theorem new_key {before fields : List (List Char × Json)} {key : List Char} {v : Json}
    (h : ((before ++ (key, v) :: fields).map Prod.fst).Nodup) : key ∉ before.map Prod.fst := by
  rw [List.map_append] at h
  exact fun hmem => (List.nodup_append.mp h).2.2 _ hmem _ List.mem_cons_self rfl

theorem value_literal {literal : String} {v : Json} {room : ℕ} (rest : List Char)
    (h : literal = "true" ∧ v = .bool true ∨ literal = "false" ∧ v = .bool false ∨
      literal = "null" ∧ v = .null) :
    value (room + 1) (literal.toList ++ rest) = .ok (v, rest) := by
  obtain ⟨rfl, rfl⟩ | ⟨rfl, rfl⟩ | ⟨rfl, rfl⟩ := h
  · have heat : eat "true" ('t' :: 'r' :: 'u' :: 'e' :: rest) = some rest := eat_some.mpr rfl
    show value (room + 1) ('t' :: 'r' :: 'u' :: 'e' :: rest) = _
    rw [value, if_neg (by decide), if_neg (by decide), if_neg (by decide), heat]
  · have htrue : eat "true" ('f' :: 'a' :: 'l' :: 's' :: 'e' :: rest) = none := by
      simp [eat]
    have heat : eat "false" ('f' :: 'a' :: 'l' :: 's' :: 'e' :: rest) = some rest :=
      eat_some.mpr rfl
    show value (room + 1) ('f' :: 'a' :: 'l' :: 's' :: 'e' :: rest) = _
    rw [value, if_neg (by decide), if_neg (by decide), if_neg (by decide), htrue, heat]
  · have htrue : eat "true" ('n' :: 'u' :: 'l' :: 'l' :: rest) = none := by simp [eat]
    have hfalse : eat "false" ('n' :: 'u' :: 'l' :: 'l' :: rest) = none := by simp [eat]
    have heat : eat "null" ('n' :: 'u' :: 'l' :: 'l' :: rest) = some rest := eat_some.mpr rfl
    show value (room + 1) ('n' :: 'u' :: 'l' :: 'l' :: rest) = _
    rw [value, if_neg (by decide), if_neg (by decide), if_neg (by decide), htrue, hfalse, heat]

theorem value_number {t : List Char} (h : IsNumber t) {rest : List Char} (hrest : Stops rest)
    (room : ℕ) : value (room + 1) (t ++ rest) = .ok (.num t, rest) := by
  obtain ⟨c, t', htext, hc⟩ : ∃ c t', t = c :: t' ∧ (c = '-' ∨ c.isDigit = true) := by
    obtain ⟨minus, int, frac, exp, rfl | rfl, hint, -, -, rfl⟩ := h
    · obtain rfl | ⟨hds, -⟩ := hint
      · exact ⟨_, _, rfl, by decide⟩
      · obtain ⟨d, ds, rfl⟩ := List.exists_cons_of_ne_nil hds.1
        exact ⟨d, _, rfl, .inr (hds.2 d List.mem_cons_self)⟩
    · exact ⟨_, _, rfl, .inl rfl⟩
  have hne (d : Char) (hd : d ≠ '-' ∧ d.isDigit = false) : c ≠ d := by
    rintro rfl
    rw [hd.2] at hc
    exact hc.elim hd.1 (by simp)
  have heat (literal : String) (d : Char) (ds : List Char) (hl : literal.toList = d :: ds)
      (hd : d ≠ '-' ∧ d.isDigit = false) : eat literal (c :: (t' ++ rest)) = none := by
    rw [eat, if_neg]
    rw [hl]
    exact fun hprefix => hne d hd (List.cons_prefix_cons.mp hprefix).1.symm
  have hnumber := number_spelled h hrest
  rw [htext, List.cons_append] at hnumber ⊢
  rw [value, if_neg (hne _ (by decide)), if_neg (hne _ (by decide)), if_neg (hne _ (by decide)),
    heat "true" 't' _ rfl (by decide), heat "false" 'f' _ rfl (by decide),
    heat "null" 'n' _ rfl (by decide)]
  simp only [if_pos hc, hnumber]

/-- The text of a value of at most so many levels is read as the value. -/
def ReadsBack (room : ℕ) : Prop :=
  ∀ {v : Json} {t : List Char}, Denotes v t → v.depth ≤ room → v.Distinct →
    ∀ {rest : List Char}, Stops rest → value room (t ++ rest) = .ok (v, rest)

theorem items_spelled {room : ℕ} (hvalue : ReadsBack room) {items : List Json} {t : List Char}
    (h : Items items t) (hdepth : depthItems items ≤ room) (hdistinct : DistinctItems items)
    (before : List Json) (rest : List Char) :
    Loop.loop (arrayRound (value room)) (·.2.length) (before, t ++ ']' :: rest) =
      .ok (.arr (before ++ items), rest) := by
  induction items generalizing t before with
  | nil => cases h
  | cons v items ih =>
    cases h with
    | @last _ w t w' hw h hw' =>
      obtain ⟨hv, -⟩ := Nat.max_le.mp hdepth
      have hread := hvalue h hv hdistinct.1 (stops_ws hw' (.inr (.inl rfl)) rest)
      have hround := arrayRound_spelled hw h hw' (.inr rfl) hread before
      simp only [List.append_assoc]
      exact Loop.loop_stop hround
    | @more _ _ w t w' rest' hw h hw' hs =>
      obtain ⟨hv, hitems⟩ := Nat.max_le.mp hdepth
      have hread := hvalue h hv hdistinct.1 (stops_ws hw' (.inl rfl) (rest' ++ ']' :: rest))
      have hround := arrayRound_spelled hw h hw' (.inl rfl) hread before
      have hrest := ih hs hitems hdistinct.2 (before ++ [v])
      rw [List.append_assoc, List.singleton_append] at hrest
      simp only [List.append_assoc, List.cons_append]
      exact (Loop.loop_next (arrayRound_lowers (value_sound room)) hround).trans hrest

theorem members_spelled {room : ℕ} (hvalue : ReadsBack room) {fields : List (List Char × Json)}
    {t : List Char} (h : Members fields t) (hdepth : depthFields fields ≤ room)
    (hdistinct : DistinctFields fields) (before : List (List Char × Json))
    (hkeys : ((before ++ fields).map Prod.fst).Nodup) (rest : List Char) :
    Loop.loop (objectRound (value room)) (·.2.length) (before, t ++ '\x7d' :: rest) =
      .ok (.obj (before ++ fields), rest) := by
  induction fields generalizing t before with
  | nil => cases h
  | cons field fields ih =>
    cases h with
    | @last key v w name w₁ w₂ t w' hw hkey hw₁ hw₂ h hw' =>
      obtain ⟨hv, -⟩ := Nat.max_le.mp hdepth
      have hread := hvalue h hv hdistinct.1 (stops_ws hw' (.inr (.inr rfl)) rest)
      have hround := objectRound_spelled hw hkey hw₁ hw₂ h hw' (.inr rfl) hread (new_key hkeys)
      simp only [List.append_assoc, List.cons_append]
      exact Loop.loop_stop hround
    | @more key v _ w name w₁ w₂ t w' rest' hw hkey hw₁ hw₂ h hw' hs =>
      obtain ⟨hv, hfields⟩ := Nat.max_le.mp hdepth
      have hread := hvalue h hv hdistinct.1 (stops_ws hw' (.inl rfl) (rest' ++ '\x7d' :: rest))
      have hround := objectRound_spelled hw hkey hw₁ hw₂ h hw' (.inl rfl) hread (new_key hkeys)
      have hrest := ih hs hfields hdistinct.2 (before ++ [(key, v)]) (by simpa using hkeys)
      rw [List.append_assoc, List.singleton_append] at hrest
      simp only [List.append_assoc, List.cons_append]
      exact (Loop.loop_next (objectRound_lowers (value_sound room)) hround).trans hrest

theorem depth_pos (v : Json) : 0 < v.depth := by
  cases v <;> exact Nat.succ_pos _

theorem value_spelled (room : ℕ) : ReadsBack room := by
  induction room with
  | zero =>
    intro v _ _ hdepth
    exact absurd (depth_pos v) (Nat.not_lt_of_le hdepth)
  | succ room ih =>
    intro v t h hdepth hdistinct rest hrest
    cases h with
    | null => exact value_literal rest (.inr (.inr ⟨rfl, rfl⟩))
    | true => exact value_literal rest (.inl ⟨rfl, rfl⟩)
    | false => exact value_literal rest (.inr (.inl ⟨rfl, rfl⟩))
    | num h => exact value_number h hrest room
    | str h =>
      obtain ⟨t', htext⟩ := h.head
      have hread := string_spelled h rest
      rw [htext, List.cons_append] at hread ⊢
      rw [value, if_neg (by decide), if_neg (by decide), if_pos rfl, hread]
      rfl
    | @noItems w hw =>
      have htext : '[' :: (w ++ [']']) ++ rest = '[' :: (w ++ ']' :: rest) := by simp
      rw [htext, value, if_neg (by decide), if_pos rfl, array, List.tail_cons]
      simp only [skipWs_to hw (show isWs ']' = Bool.false from rfl)]
      rfl
    | @items items t h =>
      have htext : '[' :: (t ++ [']']) ++ rest = '[' :: (t ++ ']' :: rest) := by simp
      rw [htext, value, if_neg (by decide), if_pos rfl,
        array_loop (value_sound room) (items_head h _)]
      exact items_spelled ih h (Nat.le_of_succ_le_succ hdepth) hdistinct [] rest
    | @noMembers w hw =>
      have htext : '\x7b' :: (w ++ ['\x7d']) ++ rest = '\x7b' :: (w ++ '\x7d' :: rest) := by simp
      rw [htext, value, if_pos rfl, object, List.tail_cons]
      simp only [skipWs_to hw (show isWs '\x7d' = Bool.false from rfl)]
      rfl
    | @members fields t h =>
      have htext : '\x7b' :: (t ++ ['\x7d']) ++ rest = '\x7b' :: (t ++ '\x7d' :: rest) := by simp
      rw [htext, value, if_pos rfl, object_loop (value_sound room) (members_head h _)]
      exact members_spelled ih h (Nat.le_of_succ_le_succ hdepth) hdistinct.2 [] hdistinct.1 rest

/-- A text is read as a value exactly when it denotes it, the value has no key twice and at most
as many levels as there are. -/
theorem document_exact {text : List Char} {v : Json} :
    document text = .ok v ↔ Document v text ∧ v.Distinct ∧ v.depth ≤ maxDepth := by
  constructor
  · intro h
    rw [document] at h
    cases hvalue : value maxDepth (skipWs text) with
    | error e =>
      simp only [bind, Except.bind, hvalue] at h
      cases h
    | ok r =>
      obtain ⟨v', rest⟩ := r
      simp only [bind, Except.bind, hvalue] at h
      obtain ⟨t, ht, htext, hdepth, hdistinct⟩ := value_sound _ _ _ _ hvalue
      obtain ⟨w, hw, hstart⟩ := exists_ws text
      obtain ⟨w', hw', hend⟩ := exists_ws rest
      split_ifs at h with hrest
      · cases h
        rw [hrest, List.append_nil] at hend
        rw [htext, hend] at hstart
        exact ⟨⟨w, t, w', hw, ht, hw', hstart⟩, hdistinct, hdepth⟩
      · cases h
  · intro ⟨⟨w, t, w', hw, ht, hw', htext⟩, hdistinct, hdepth⟩
    have hread := value_spelled maxDepth ht hdepth hdistinct (stops_nil hw')
    rw [document, htext, denotes_skipWs hw ht]
    simp only [bind, Except.bind, hread, skipWs_all hw']
    rfl

theorem parse_iff {text : List Char} {v : Json} (h : byteLength text ≤ maxBytes) :
    parse text = .ok v ↔ Document v text ∧ v.Distinct ∧ v.depth ≤ maxDepth := by
  rw [parse, parseLimited, if_neg (by omega), ← document_exact]
  cases document text <;> simp [Except.mapError]

end CydMonitor.Hooks
