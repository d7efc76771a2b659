import CydMonitor.Hooks.Strings

/-!
# What the reader accepts

A text is read as a value exactly when the grammar says that it denotes the value and the value
has no key twice and few enough levels.
-/

namespace CydMonitor.Hooks

theorem depthItems_append (a b : List Json) :
    depthItems (a ++ b) = max (depthItems a) (depthItems b) := by
  induction a with
  | nil => simp [depthItems]
  | cons v a ih => rw [List.cons_append, depthItems, depthItems, ih, Nat.max_assoc]

theorem distinctItems_append {a b : List Json} :
    DistinctItems (a ++ b) ↔ DistinctItems a ∧ DistinctItems b := by
  induction a with
  | nil => simp [DistinctItems]
  | cons v a ih => rw [List.cons_append, DistinctItems, DistinctItems, ih, and_assoc]

theorem depthFields_append (a b : List (List Char × Json)) :
    depthFields (a ++ b) = max (depthFields a) (depthFields b) := by
  induction a with
  | nil => simp [depthFields]
  | cons f a ih => rw [List.cons_append, depthFields, depthFields, ih, Nat.max_assoc]

theorem distinctFields_append {a b : List (List Char × Json)} :
    DistinctFields (a ++ b) ↔ DistinctFields a ∧ DistinctFields b := by
  induction a with
  | nil => simp [DistinctFields]
  | cons f a ih => rw [List.cons_append, DistinctFields, DistinctFields, ih, and_assoc]

theorem depthItems_concat {items : List Json} {v : Json} {n : ℕ} (h : depthItems items ≤ n)
    (hv : v.depth ≤ n) : depthItems (items ++ [v]) ≤ n := by
  rw [depthItems_append, depthItems, depthItems, Nat.max_zero]
  exact Nat.max_le.mpr ⟨h, hv⟩

theorem depthFields_concat {fields : List (List Char × Json)} {key : List Char} {v : Json} {n : ℕ}
    (h : depthFields fields ≤ n) (hv : v.depth ≤ n) : depthFields (fields ++ [(key, v)]) ≤ n := by
  rw [depthFields_append, depthFields, depthFields, Nat.max_zero]
  exact Nat.max_le.mpr ⟨h, hv⟩

theorem Items.ws {items : List Json} {text w : List Char} (hw : Ws w) (h : Items items text) :
    Items items (w ++ text) := by
  cases h with
  | last hw₁ h hw' =>
    rw [← List.append_assoc]
    exact .last (hw.append hw₁) h hw'
  | more hw₁ h hw' hs =>
    rw [← List.append_assoc]
    exact .more (hw.append hw₁) h hw' hs

theorem Members.ws {fields : List (List Char × Json)} {text w : List Char} (hw : Ws w)
    (h : Members fields text) : Members fields (w ++ text) := by
  cases h with
  | last hw₁ hkey hw₂ hw₃ h hw' =>
    rw [← List.append_assoc]
    exact .last (hw.append hw₁) hkey hw₂ hw₃ h hw'
  | more hw₁ hkey hw₂ hw₃ h hw' hs =>
    rw [← List.append_assoc]
    exact .more (hw.append hw₁) hkey hw₂ hw₃ h hw' hs

/-- A reader that takes only texts of values with so many levels. -/
def Sound (room : ℕ) (value : List Char → Except Fail (Json × List Char)) : Prop :=
  ∀ text v rest, value text = .ok (v, rest) →
    ∃ t, Denotes v t ∧ text = t ++ rest ∧ v.depth ≤ room ∧ v.Distinct

variable {room : ℕ} {read : List Char → Except Fail (Json × List Char)}

/-- One round takes a value and a comma or the closing bracket. -/
theorem arrayRound_sound (hread : Sound room read) {items : List Json} {text : List Char}
    {r : (List Json × List Char) ⊕ (Json × List Char)}
    (h : arrayRound read (items, text) = .ok r) :
    ∃ v w t w' rest, Ws w ∧ Denotes v t ∧ Ws w' ∧ v.depth ≤ room ∧ v.Distinct ∧
      (text = w ++ (t ++ (w' ++ ',' :: rest)) ∧ r = .inl (items ++ [v], rest) ∨
        text = w ++ (t ++ (w' ++ ']' :: rest)) ∧ r = .inr (.arr (items ++ [v]), rest)) := by
  rw [arrayRound] at h
  cases hvalue : read (skipWs text) with
  | error e =>
    simp only [bind, Except.bind, hvalue] at h
    cases h
  | ok s =>
    obtain ⟨v, text₁⟩ := s
    simp only [bind, Except.bind, hvalue] at h
    obtain ⟨t, ht, htext, hdepth, hdistinct⟩ := hread _ _ _ hvalue
    obtain ⟨w, hw, hstart⟩ := exists_ws text
    obtain ⟨w', hw', hend⟩ := exists_ws text₁
    rw [htext, hend] at hstart
    split_ifs at h with hcomma hclose
    · obtain ⟨rest, hrest⟩ := List.head?_eq_some_iff.mp hcomma
      rw [hrest] at h hstart
      cases h
      exact ⟨v, w, t, w', rest, hw, ht, hw', hdepth, hdistinct, .inl ⟨hstart, rfl⟩⟩
    · obtain ⟨rest, hrest⟩ := List.head?_eq_some_iff.mp hclose
      rw [hrest] at h hstart
      cases h
      exact ⟨v, w, t, w', rest, hw, ht, hw', hdepth, hdistinct, .inr ⟨hstart, rfl⟩⟩
    · rw [badDelimiter] at h
      split_ifs at h <;> cases h

theorem arrayRound_lowers (hread : Sound room read) :
    Loop.Lowers (arrayRound read) (·.2.length) := by
  intro ⟨items, text⟩ s' h
  obtain ⟨v, w, t, w', rest, -, -, -, -, -, hcase⟩ := arrayRound_sound hread h
  obtain ⟨htext, hr⟩ | ⟨-, hr⟩ := hcase
  · cases hr
    simp only [htext, List.length_append, List.length_cons]
    omega
  · cases hr

theorem array_sound (hread : Sound room read) {text rest : List Char} {v : Json}
    (h : array read ('[' :: text) = .ok (v, rest)) :
    ∃ t, Denotes v t ∧ '[' :: text = t ++ rest ∧ v.depth ≤ room + 1 ∧ v.Distinct := by
  obtain ⟨w, hw, htext⟩ := exists_ws text
  rw [array, List.tail_cons] at h
  split_ifs at h with hclose
  · obtain ⟨tail, htail⟩ := List.head?_eq_some_iff.mp hclose
    rw [htail] at h htext
    cases h
    refine ⟨_, .noItems hw, by rw [htext]; simp, ?_, ?_⟩
    · simp [Json.depth, depthItems]
    · simp [Json.Distinct, DistinctItems]
  · have hitems : ∃ items t, v = .arr items ∧ Items items t ∧ skipWs text = t ++ ']' :: rest ∧
        depthItems items ≤ room ∧ DistinctItems items := by
      refine Loop.loop_keeps
        (I := fun s => ∃ before, skipWs text = before ++ s.2 ∧ depthItems s.1 ≤ room ∧
          DistinctItems s.1 ∧ ∀ more t, Items more t → Items (s.1 ++ more) (before ++ t))
        (Q := fun a => ∃ items t, a.1 = .arr items ∧ Items items t ∧
          skipWs text = t ++ ']' :: a.2 ∧ depthItems items ≤ room ∧ DistinctItems items)
        ?_ ?_ ?_ h
      · intro ⟨items, text'⟩ s' ⟨before, hbefore, hdepths, hdistincts, hmore⟩ hnext
        obtain ⟨v, w, t, w', rest', hw, ht, hw', hdepth, hdistinct, hcase⟩ :=
          arrayRound_sound hread hnext
        obtain ⟨htext', hr⟩ | ⟨-, hr⟩ := hcase
        · cases hr
          refine ⟨before ++ (w ++ (t ++ (w' ++ [',']))), ?_, ?_, ?_, fun more t' hmore' => ?_⟩
          · rw [hbefore, htext']
            simp
          · exact depthItems_concat hdepths hdepth
          · exact distinctItems_append.mpr ⟨hdistincts, hdistinct, trivial⟩
          · have hall := hmore _ _ (.more hw ht hw' hmore')
            simpa using hall
        · cases hr
      · intro ⟨items, text'⟩ a ⟨before, hbefore, hdepths, hdistincts, hmore⟩ hstop
        obtain ⟨v, w, t, w', rest', hw, ht, hw', hdepth, hdistinct, hcase⟩ :=
          arrayRound_sound hread hstop
        obtain ⟨-, hr⟩ | ⟨htext', hr⟩ := hcase
        · cases hr
        · cases hr
          refine ⟨items ++ [v], before ++ (w ++ (t ++ w')), rfl, hmore _ _ (.last hw ht hw'), ?_,
            ?_,             distinctItems_append.mpr ⟨hdistincts, hdistinct, trivial⟩⟩
          · rw [hbefore, htext']
            simp
          · exact depthItems_concat hdepths hdepth
      · exact ⟨[], rfl, Nat.zero_le _, trivial, fun _ _ h => h⟩
    obtain ⟨items, t, rfl, hitems, hskip, hdepth, hdistinct⟩ := hitems
    refine ⟨_, .items (hitems.ws hw), ?_, Nat.succ_le_succ hdepth, hdistinct⟩
    rw [htext, hskip]
    simp

/-- One round takes a member and a comma or the closing brace. -/
theorem objectRound_sound (hread : Sound room read) {fields : List (List Char × Json)}
    {text : List Char} {r : (List (List Char × Json) × List Char) ⊕ (Json × List Char)}
    (h : objectRound read (fields, text) = .ok r) :
    ∃ key v w name w₁ w₂ t w' rest, Ws w ∧ StringText key name ∧ Ws w₁ ∧ Ws w₂ ∧ Denotes v t ∧
      Ws w' ∧ v.depth ≤ room ∧ v.Distinct ∧ key ∉ fields.map Prod.fst ∧
      (text = w ++ (name ++ (w₁ ++ ':' :: (w₂ ++ (t ++ (w' ++ ',' :: rest))))) ∧
          r = .inl (fields ++ [(key, v)], rest) ∨
        text = w ++ (name ++ (w₁ ++ ':' :: (w₂ ++ (t ++ (w' ++ '\x7d' :: rest))))) ∧
          r = .inr (.obj (fields ++ [(key, v)]), rest)) := by
  obtain ⟨w, hw, hstart⟩ := exists_ws text
  rw [objectRound] at h
  dsimp only at h
  by_cases hquote : (skipWs text).head? ≠ some '"'
  · rw [if_pos hquote] at h
    split_ifs at h <;> cases h
  · rw [if_neg hquote] at h
    obtain ⟨text₀, htext₀⟩ := List.head?_eq_some_iff.mp (not_not.mp hquote)
    rw [htext₀] at h hstart
    cases hkey : string ('"' :: text₀) with
    | error e =>
      simp only [bind, Except.bind, hkey] at h
      cases h
    | ok s =>
      obtain ⟨key, text₁⟩ := s
      obtain ⟨name, hname, hnamed⟩ := string_sound hkey
      obtain ⟨w₁, hw₁, hstart₁⟩ := exists_ws text₁
      simp only [bind, Except.bind, hkey] at h
      by_cases hdup : key ∈ fields.map Prod.fst
      · rw [if_pos hdup] at h
        cases h
      · rw [if_neg hdup] at h
        by_cases hcolon : (skipWs text₁).head? ≠ some ':'
        · rw [if_pos hcolon] at h
          cases h
        · rw [if_neg hcolon] at h
          obtain ⟨text₂, htext₂⟩ := List.head?_eq_some_iff.mp (not_not.mp hcolon)
          rw [htext₂, List.tail_cons] at h
          rw [htext₂] at hstart₁
          obtain ⟨w₂, hw₂, hstart₂⟩ := exists_ws text₂
          cases hvalue : read (skipWs text₂) with
          | error e =>
            simp only [hvalue] at h
            cases h
          | ok s =>
            obtain ⟨v, text₃⟩ := s
            obtain ⟨t, ht, htext, hdepth, hdistinct⟩ := hread _ _ _ hvalue
            obtain ⟨w', hw', hend⟩ := exists_ws text₃
            simp only [hvalue] at h
            rw [hnamed, hstart₁, hstart₂, htext, hend] at hstart
            split_ifs at h with hcomma hclose
            · obtain ⟨rest, hrest⟩ := List.head?_eq_some_iff.mp hcomma
              rw [hrest] at h hstart
              cases h
              exact ⟨key, v, w, name, w₁, w₂, t, w', rest, hw, hname, hw₁, hw₂, ht, hw', hdepth,
                hdistinct, hdup, .inl ⟨by simpa using hstart, rfl⟩⟩
            · obtain ⟨rest, hrest⟩ := List.head?_eq_some_iff.mp hclose
              rw [hrest] at h hstart
              cases h
              exact ⟨key, v, w, name, w₁, w₂, t, w', rest, hw, hname, hw₁, hw₂, ht, hw', hdepth,
                hdistinct, hdup, .inr ⟨by simpa using hstart, rfl⟩⟩
            · rw [badDelimiter] at h
              split_ifs at h <;> cases h

theorem objectRound_lowers (hread : Sound room read) :
    Loop.Lowers (objectRound read) (·.2.length) := by
  intro ⟨fields, text⟩ s' h
  obtain ⟨key, v, w, name, w₁, w₂, t, w', rest, -, -, -, -, -, -, -, -, -, hcase⟩ :=
    objectRound_sound hread h
  obtain ⟨htext, hr⟩ | ⟨-, hr⟩ := hcase
  · cases hr
    simp only [htext, List.length_append, List.length_cons]
    omega
  · cases hr

private theorem nodup_concat {fields : List (List Char × Json)} {key : List Char}
    (h : (fields.map Prod.fst).Nodup) (hkey : key ∉ fields.map Prod.fst) (v : Json) :
    ((fields ++ [(key, v)]).map Prod.fst).Nodup := by
  rw [List.map_append]
  exact List.nodup_append.mpr ⟨h, by simp, fun a ha b hb heq =>
    hkey (by rwa [heq, List.mem_singleton.mp hb] at ha)⟩

theorem object_sound (hread : Sound room read) {text rest : List Char} {v : Json}
    (h : object read ('\x7b' :: text) = .ok (v, rest)) :
    ∃ t, Denotes v t ∧ '\x7b' :: text = t ++ rest ∧ v.depth ≤ room + 1 ∧ v.Distinct := by
  obtain ⟨w, hw, htext⟩ := exists_ws text
  rw [object, List.tail_cons] at h
  split_ifs at h with hclose
  · obtain ⟨tail, htail⟩ := List.head?_eq_some_iff.mp hclose
    rw [htail] at h htext
    cases h
    refine ⟨_, .noMembers hw, by rw [htext]; simp, ?_, ?_⟩
    · simp [Json.depth, depthFields]
    · simp [Json.Distinct, DistinctFields]
  · have hfields : ∃ fields t, v = .obj fields ∧ Members fields t ∧
        skipWs text = t ++ '\x7d' :: rest ∧ depthFields fields ≤ room ∧
        (fields.map Prod.fst).Nodup ∧ DistinctFields fields := by
      refine Loop.loop_keeps
        (I := fun s => ∃ before, skipWs text = before ++ s.2 ∧ depthFields s.1 ≤ room ∧
          (s.1.map Prod.fst).Nodup ∧ DistinctFields s.1 ∧
          ∀ more t, Members more t → Members (s.1 ++ more) (before ++ t))
        (Q := fun a => ∃ fields t, a.1 = .obj fields ∧ Members fields t ∧
          skipWs text = t ++ '\x7d' :: a.2 ∧ depthFields fields ≤ room ∧
          (fields.map Prod.fst).Nodup ∧ DistinctFields fields)
        ?_ ?_ ?_ h
      · intro ⟨fields, text'⟩ s' ⟨before, hbefore, hdepths, hkeys, hdistincts, hmore⟩ hnext
        obtain ⟨key, v, w, name, w₁, w₂, t, w', rest', hw, hname, hw₁, hw₂, ht, hw', hdepth,
          hdistinct, hnew, hcase⟩ := objectRound_sound hread hnext
        obtain ⟨htext', hr⟩ | ⟨-, hr⟩ := hcase
        · cases hr
          refine ⟨before ++ (w ++ (name ++ (w₁ ++ ':' :: (w₂ ++ (t ++ (w' ++ [','])))))), ?_, ?_,
            nodup_concat hkeys hnew v, ?_, fun more t' hmore' => ?_⟩
          · rw [hbefore, htext']
            simp
          · exact depthFields_concat hdepths hdepth
          · exact distinctFields_append.mpr ⟨hdistincts, hdistinct, trivial⟩
          · have hall := hmore _ _ (.more hw hname hw₁ hw₂ ht hw' hmore')
            simpa using hall
        · cases hr
      · intro ⟨fields, text'⟩ a ⟨before, hbefore, hdepths, hkeys, hdistincts, hmore⟩ hstop
        obtain ⟨key, v, w, name, w₁, w₂, t, w', rest', hw, hname, hw₁, hw₂, ht, hw', hdepth,
          hdistinct, hnew, hcase⟩ := objectRound_sound hread hstop
        obtain ⟨-, hr⟩ | ⟨htext', hr⟩ := hcase
        · cases hr
        · cases hr
          refine ⟨fields ++ [(key, v)], before ++ (w ++ (name ++ (w₁ ++ ':' :: (w₂ ++ (t ++ w'))))),
            rfl, hmore _ _ (.last hw hname hw₁ hw₂ ht hw'), ?_, ?_, nodup_concat hkeys hnew v,
            distinctFields_append.mpr ⟨hdistincts, hdistinct, trivial⟩⟩
          · rw [hbefore, htext']
            simp
          · exact depthFields_concat hdepths hdepth
      · exact ⟨[], rfl, Nat.zero_le _, List.nodup_nil, trivial, fun _ _ h => h⟩
    obtain ⟨fields, t, rfl, hfields, hskip, hdepth, hkeys, hdistinct⟩ := hfields
    refine ⟨_, .members (hfields.ws hw), ?_, Nat.succ_le_succ hdepth, hkeys, hdistinct⟩
    rw [htext, hskip]
    simp

/-- Whatever is read was spelled so, with no more levels than there was room for. -/
theorem value_sound (room : ℕ) : Sound room (value room) := by
  induction room with
  | zero =>
    intro text v rest h
    cases h
  | succ room ih =>
    intro text v rest h
    cases text with
    | nil => cases h
    | cons c text =>
      rw [value] at h
      by_cases hbrace : c = '\x7b'
      · rw [if_pos hbrace, hbrace] at h
        rw [hbrace]
        exact object_sound ih h
      rw [if_neg hbrace] at h
      by_cases hbracket : c = '['
      · rw [if_pos hbracket, hbracket] at h
        rw [hbracket]
        exact array_sound ih h
      rw [if_neg hbracket] at h
      by_cases hquote : c = '"'
      · rw [if_pos hquote, hquote] at h
        rw [hquote]
        cases hstring : string ('"' :: text) with
        | error e =>
          rw [hstring] at h
          cases h
        | ok s =>
          rw [hstring] at h
          cases h
          obtain ⟨t, ht, htext⟩ := string_sound hstring
          exact ⟨t, .str ht, htext, Nat.succ_le_succ (Nat.zero_le _), trivial⟩
      rw [if_neg hquote] at h
      have hscalar (w : Json) (t : List Char) (hw : w.depth = 1 ∧ w.Distinct) (ht : Denotes w t)
          (htext : c :: text = t ++ rest) :
          ∃ t, Denotes w t ∧ c :: text = t ++ rest ∧ w.depth ≤ room + 1 ∧ w.Distinct :=
        ⟨t, ht, htext, by omega, hw.2⟩
      split at h
      · next rest' heat =>
        cases h
        exact hscalar _ _ ⟨rfl, trivial⟩ .true (eat_some.mp heat)
      split at h
      · next rest' heat =>
        cases h
        exact hscalar _ _ ⟨rfl, trivial⟩ .false (eat_some.mp heat)
      split at h
      · next rest' heat =>
        cases h
        exact hscalar _ _ ⟨rfl, trivial⟩ .null (eat_some.mp heat)
      split_ifs at h
      · obtain ⟨t, ht, rfl, htext⟩ := number_sound h
        exact hscalar _ _ ⟨rfl, trivial⟩ (.num ht) htext
      · cases h
      · cases h

end CydMonitor.Hooks
