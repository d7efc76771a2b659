import CydMonitor.Hooks.Adapters

/-!
# Commands read back

A command that is written for a binary is read back as that binary's exactly when the path does
not contain the marker itself.
-/

namespace CydMonitor.Hooks

open Text Metrics

@[simp] theorem quote_append (a b : List Char) : quote (a ++ b) = quote a ++ quote b :=
  List.flatMap_append

theorem quote_plain {text : List Char} (h : '\'' ∉ text) : quote text = text := by
  induction text with
  | nil => rfl
  | cons c text ih =>
    obtain ⟨hc, htext⟩ := not_or.mp (fun hmem => h (List.mem_cons.mpr hmem))
    have hquote := ih htext
    rw [quote] at hquote ⊢
    rw [List.flatMap_cons, hquote, if_neg (Ne.symm hc)]
    rfl

/-- A quoted text is unquoted from the left. -/
theorem replace_quote (text rest : List Char) :
    replace quotedQuote "'".toList (quote text ++ rest) =
      text ++ replace quotedQuote "'".toList rest := by
  induction text with
  | nil => rfl
  | cons c text ih =>
    rw [quote, List.flatMap_cons, List.append_assoc]
    by_cases hc : c = '\''
    · rw [if_pos hc, replace_word (by decide), hc]
      exact congrArg _ ih
    · rw [if_neg hc, List.singleton_append, replace_cons (by decide)]
      · exact congrArg _ ih
      · simpa [quotedQuote] using Ne.symm hc

variable {word : List Char}

theorem prefix_quote (hword : '\'' ∉ word) {text : List Char} (h : word <+: quote text) :
    word <+: text := by
  induction text generalizing word with
  | nil => exact h
  | cons c text ih =>
    cases word with
    | nil => exact List.nil_prefix
    | cons d word =>
      rw [quote, List.flatMap_cons] at h
      by_cases hc : c = '\''
      · rw [if_pos hc] at h
        obtain ⟨rfl, -⟩ := List.cons_prefix_cons.mp h
        exact absurd List.mem_cons_self hword
      · rw [if_neg hc, List.singleton_append] at h
        obtain ⟨rfl, hrest⟩ := List.cons_prefix_cons.mp h
        exact List.cons_prefix_cons.mpr ⟨rfl,
          ih (fun hmem => hword (List.mem_cons_of_mem _ hmem)) hrest⟩

/-- A word without quotes occurs in a quoted text only where it occurs in the text. -/
theorem infix_quote (hword : '\'' ∉ word) (hlong : 2 ≤ word.length) {text : List Char}
    (h : word <:+: quote text) : word <:+: text := by
  induction text with
  | nil => exact h
  | cons c text ih =>
    by_cases hc : c = '\''
    · have hsplit :
          quote (c :: text) = [] ++ '\'' :: (['\\'] ++ '\'' :: ([] ++ '\'' :: quote text)) := by
        rw [quote, List.flatMap_cons, if_pos hc]
        rfl
      have hshort {part : List Char} (hi : word <:+: part) : 2 ≤ part.length :=
        Nat.le_trans hlong hi.length_le
      rw [hsplit] at h
      -- the word is on one side of each of the three quotes
      obtain h | h := infix_split hword h
      · exact absurd (hshort h) (by decide)
      · obtain h | h := infix_split hword h
        · exact absurd (hshort h) (by decide)
        · obtain h | h := infix_split hword h
          · exact absurd (hshort h) (by decide)
          · exact List.infix_cons (ih h)
    · have hcons : quote (c :: text) = c :: quote text := by
        rw [quote, List.flatMap_cons, if_neg hc]
        rfl
      rw [hcons] at h
      obtain h | h := List.infix_cons_iff.mp h
      · rw [← hcons] at h
        exact (prefix_quote hword h).isInfix
      · exact List.infix_cons (ih h)

/-- What the slug of an agent makes of the marker. -/
theorem marker_facts (agent : Agent) : '\'' ∉ marker agent.slug.toList ∧
    2 ≤ (marker agent.slug.toList).length ∧ (marker agent.slug.toList).head? = some 'a' := by
  cases agent <;> decide

variable {slug : List Char}

theorem commandLine_eq (binary slug : List Char) (activity : HookActivity) :
    commandLine binary slug activity = ('\'' :: (quote binary ++ "' ".toList)) ++
      (marker slug ++ (activityWord activity ++ " 2>/dev/null || true".toList)) := by
  have hopening : "'".toList = ['\''] := by decide
  have hword : "' agent-event ".toList = "' ".toList ++ "agent-event ".toList := by decide
  unfold commandLine marker
  simp only [hopening, hword]
  generalize "' ".toList = closing
  generalize "agent-event ".toList = event
  generalize " ".toList = blank
  generalize " 2>/dev/null || true".toList = ending
  simp

theorem isOurs_commandLine (binary slug : List Char) (activity : HookActivity) :
    isOurs (commandLine binary slug activity) slug = true := by
  rw [commandLine_eq]
  exact decide_eq_true ⟨_, _, List.append_assoc ..⟩

private theorem firstWord_activity (activity : HookActivity) :
    firstWord (activityWord activity ++ " 2>/dev/null || true".toList) =
      some (activityWord activity) := by
  cases activity <;> decide

/-- The path between single quotes. -/
theorem commandPath_quoted (text : List Char) :
    commandPath ('\'' :: (text ++ ['\''])) = replace quotedQuote "'".toList text := by
  have hstrip : stripSuffix '\'' (text ++ ['\'']) = some text := by
    simp [stripSuffix]
  simp [commandPath, stripPrefix, hstrip]

theorem rdropWhile_append_pos {α : Type} {p : α → Bool} (text : List α) {ws : List α}
    (hws : ∀ c ∈ ws, p c = true) : (text ++ ws).rdropWhile p = text.rdropWhile p := by
  induction ws using List.reverseRecOn with
  | nil => rw [List.append_nil]
  | append_singleton ws c ih =>
    rw [← List.append_assoc, List.rdropWhile_concat_pos _ _ _ (hws c (by simp))]
    exact ih fun d hd => hws d (by simp [hd])

/-- A text that starts with a quote, and the white space after it. -/
theorem trim_quote {text ws : List Char} (hlast : ∀ c ∈ text.getLast?, isWhiteSpace c = false)
    (hws : ∀ c ∈ ws, isWhiteSpace c = true) : trim ('\'' :: (text ++ ws)) = '\'' :: text := by
  rw [trim, List.dropWhile_cons_of_neg (by decide), ← List.cons_append,
    rdropWhile_append_pos _ hws, List.rdropWhile_eq_self_iff]
  intro hne
  cases text with
  | nil => simp [isWhiteSpace]
  | cons c text =>
    have hmem := List.getLast?_eq_getLast_of_ne_nil (List.cons_ne_nil c text)
    rw [List.getLast_cons (List.cons_ne_nil c text), hlast _ hmem]
    exact Bool.false_ne_true

theorem parseCommand_commandLine (agent : Agent) {binary : List Char}
    (h : ¬marker agent.slug.toList <:+: binary) (activity : HookActivity) :
    parseCommand (commandLine binary agent.slug.toList activity) agent.slug.toList =
      some (binary, some activity) := by
  obtain ⟨hquote, hlong, hhead⟩ := marker_facts agent
  generalize agent.slug.toList = slug at *
  have hne : marker slug ≠ [] := fun hnil => by
    rw [hnil] at hlong
    exact absurd hlong (by decide)
  have hfirst :
      ¬marker slug <:+: ('\'' :: (quote binary ++ "' ".toList)) ++ (marker slug).dropLast := by
    have hsplit : ('\'' :: (quote binary ++ "' ".toList)) ++ (marker slug).dropLast =
        [] ++ '\'' :: (quote binary ++ '\'' :: (' ' :: (marker slug).dropLast)) := by
      have hclosing : "' ".toList = ['\'', ' '] := by decide
      simp [hclosing]
    rw [hsplit]
    intro hi
    obtain hi | hi := infix_split hquote hi
    · exact hne (List.eq_nil_of_infix_nil hi)
    · obtain hi | hi := infix_split hquote hi
      · exact h (infix_quote hquote hlong hi)
      · have hsame : marker slug = ' ' :: (marker slug).dropLast := by
          refine hi.eq_of_length ?_
          rw [List.length_cons, List.length_dropLast]
          omega
        rw [hsame, List.head?_cons] at hhead
        exact absurd hhead (by decide)
  have htrim : trim ('\'' :: (quote binary ++ "' ".toList)) = '\'' :: (quote binary ++ ['\'']) := by
    have hclosing : "' ".toList = ['\''] ++ [' '] := by decide
    rw [hclosing, ← List.append_assoc]
    exact trim_quote (by simp; decide) (by simp; decide)
  have hunquote := replace_quote binary []
  rw [List.append_nil] at hunquote
  rw [commandLine_eq, parseCommand, cut_first hne hfirst]
  show some (commandPath (trim ('\'' :: (quote binary ++ "' ".toList))), _) = _
  rw [htrim, commandPath_quoted, hunquote, firstWord_activity]
  cases activity with
  | busy => simp [activityWord, replace, replaceFrom]
  | idle => simp [activityWord, replace, replaceFrom]

/-- The last character of a quoted text is that of the text. -/
theorem getLast?_quote (text : List Char) : (quote text).getLast? = text.getLast? := by
  induction text using List.reverseRecOn with
  | nil => rfl
  | append_singleton text c ih =>
    rw [quote_append, List.getLast?_append, List.getLast?_append]
    by_cases hc : c = '\''
    · rw [hc]
      rfl
    · simp [quote, hc]

/-- What the part of a command up to a marker inside the path is read as. -/
theorem commandPath_ne {before after marked : List Char} (habsolute : before.head? = some '/')
    (hmarked : marked.head? = some 'a') :
    commandPath (trim ('\'' :: quote before)) ≠ before ++ (marked ++ after) := by
  obtain ⟨path, ws, rfl, hlast, hws⟩ : ∃ path ws, before = path ++ ws ∧
      (∀ c ∈ path.getLast?, isWhiteSpace c = false) ∧ ∀ c ∈ ws, isWhiteSpace c = true := by
    refine ⟨before.rdropWhile isWhiteSpace, before.rtakeWhile isWhiteSpace,
      (List.rdropWhile_append_rtakeWhile ..).symm, fun c hc => ?_, fun c => List.mem_rtakeWhile_imp⟩
    have hne : before.rdropWhile isWhiteSpace ≠ [] := by
      intro hnil
      rw [hnil] at hc
      cases hc
    rw [List.getLast?_eq_getLast_of_ne_nil hne] at hc
    obtain rfl := Option.some.inj hc
    simpa using List.rdropWhile_last_not isWhiteSpace before hne
  have hquoteless : '\'' ∉ ws := fun hmem => absurd (hws _ hmem) (by decide)
  rw [quote_append, quote_plain hquoteless, trim_quote (by rwa [getLast?_quote]) hws]
  by_cases hquote : path.getLast? = some '\''
  · obtain ⟨path, rfl⟩ := List.getLast?_eq_some_iff.mp hquote
    have hsplit :
        '\'' :: quote (path ++ ['\'']) = '\'' :: ((quote path ++ "'\\'".toList) ++ ['\'']) := by
      rw [quote_append]
      simp [quote, quotedQuote]
    rw [hsplit, commandPath_quoted, replace_quote, replace_short (by decide)]
    intro heq
    rw [List.append_assoc, List.append_assoc] at heq
    have hnext := List.append_cancel_left heq
    have htail : '\\' :: ['\''] = ws ++ (marked ++ after) := (List.cons.inj hnext).2
    cases ws with
    | nil =>
      have hhead : (marked ++ after).head? = some 'a' := by
        rw [List.head?_append, hmarked]
        rfl
      rw [List.nil_append] at htail
      rw [← htail] at hhead
      exact absurd hhead (by decide)
    | cons c ws =>
      obtain rfl := (List.cons.inj htail).1
      exact absurd (hws '\\' List.mem_cons_self) (by decide)
  · have hstrip : stripSuffix '\'' (quote path) = none := by
      rw [stripSuffix, getLast?_quote, if_neg hquote]
    intro heq
    have hpath : commandPath ('\'' :: quote path) = '\'' :: quote path := by
      simp [commandPath, stripPrefix, hstrip]
    rw [hpath] at heq
    have hhead := congrArg List.head? heq
    rw [List.head?_append, habsolute, Option.some_or, List.head?_cons] at hhead
    exact absurd hhead (by decide)

/-- With the marker in its path a command is read as one for another path. -/
theorem parseCommand_marked (agent : Agent) {binary : List Char}
    (h : marker agent.slug.toList <:+: binary) (habsolute : binary.head? = some '/')
    (activity : HookActivity) :
    ∃ path reported, parseCommand (commandLine binary agent.slug.toList activity)
      agent.slug.toList = some (path, reported) ∧ path ≠ binary := by
  obtain ⟨hquote, hlong, hhead⟩ := marker_facts agent
  generalize agent.slug.toList = slug at *
  have hne : marker slug ≠ [] := fun hnil => by
    rw [hnil] at hlong
    exact absurd hlong (by decide)
  obtain ⟨before, after, rfl, hfirst⟩ := exists_first hne h
  have hbefore : before.head? = some '/' := by
    cases before with
    | nil =>
      rw [List.nil_append, List.head?_append, hhead, Option.some_or] at habsolute
      exact absurd habsolute (by decide)
    | cons c before => exact habsolute
  have hcut : ¬marker slug <:+: ('\'' :: quote before) ++ (marker slug).dropLast := by
    have hplain : quote (marker slug).dropLast = (marker slug).dropLast :=
      quote_plain fun hmem => hquote (List.dropLast_subset _ hmem)
    have hsplit : ('\'' :: quote before) ++ (marker slug).dropLast =
        [] ++ '\'' :: quote (before ++ (marker slug).dropLast) := by
      rw [quote_append, hplain]
      rfl
    rw [hsplit]
    intro hi
    obtain hi | hi := infix_split hquote hi
    · exact hne (List.eq_nil_of_infix_nil hi)
    · exact hfirst (infix_quote hquote hlong hi)
  obtain ⟨rest, hrest⟩ : ∃ rest, commandLine (before ++ (marker slug ++ after)) slug activity =
      ('\'' :: quote before) ++ (marker slug ++ rest) := by
    rw [commandLine_eq, quote_append, quote_append, quote_plain hquote]
    simp only [List.cons_append, List.append_assoc]
    exact ⟨_, rfl⟩
  rw [hrest, parseCommand, cut_first hne hcut]
  exact ⟨_, _, rfl, commandPath_ne hbefore hhead⟩

end CydMonitor.Hooks
