import CydMonitor.Hooks.Editing
import CydMonitor.Lib.Substring
import CydMonitor.Metrics.Agents

/-!
# The hook adapters (`host/cli/src/hooks/adapters.rs`)

The text of the OpenCode plugin is given in advance. Handlers that a closure visits or changes are
a list, or a map over the list.
-/

namespace CydMonitor.Hooks

open Metrics Text

/-- How one event's entry is shaped in the config. -/
inductive Shape where
  | group | flat
  deriving DecidableEq

structure EventSpec where
  event : List Char
  activity : HookActivity
  matcher : Option (List Char)
  shape : Shape
  deriving DecidableEq

/-- What of the file is ours. -/
inductive Scope where
  | shared | wholeFile | ownKey
  deriving DecidableEq

inductive Format where
  | json (key : List Char) (scope : Scope) (timeout : Option ℕ)
  | plugin (template : List Char)
  deriving DecidableEq

structure Adapter where
  agent : Agent
  format : Format
  events : List EventSpec
  deriving DecidableEq

def Adapter.slug (a : Adapter) : List Char := a.agent.slug.toList

def group (event : String) (activity : HookActivity) (matcher : Option String) : EventSpec :=
  { event := event.toList, activity, matcher := matcher.map String.toList, shape := .group }

def flat (event : String) (activity : HookActivity) : EventSpec :=
  { event := event.toList, activity, matcher := none, shape := .flat }

/-- `ADAPTERS`, given the text of the plugin. -/
def adapters (template : List Char) : List Adapter :=
  [{ agent := .codex
     format := .json "hooks".toList .shared (some 5)
     events := [group "UserPromptSubmit" .busy none, group "PreToolUse" .busy none,
       group "PostToolUse" .busy none, group "PermissionRequest" .idle none,
       group "Stop" .idle none, group "SessionEnd" .idle none, group "Interrupt" .idle none] },
   { agent := .claude
     format := .json "hooks".toList .shared (some 5)
     events := [group "UserPromptSubmit" .busy none, group "PreToolUse" .busy (some "*"),
       group "PostToolUse" .busy (some "*"), group "Stop" .idle none,
       group "Notification" .idle none, group "SessionEnd" .idle none] },
   { agent := .grok
     format := .json "hooks".toList .wholeFile none
     events := [group "UserPromptSubmit" .busy none, group "PreToolUse" .busy none,
       group "PostToolUse" .busy none, group "PostToolUseFailure" .busy none,
       group "Notification" .idle (some "permission_prompt|idle_prompt"),
       group "Stop" .idle none, group "StopFailure" .idle none, group "StopCancelled" .idle none,
       group "SessionEnd" .idle none] },
   { agent := .gemini
     format := .json "cyd-activity".toList .ownKey none
     events := [flat "PreInvocation" .busy, group "PreToolUse" .busy (some ".*"),
       group "PostToolUse" .busy (some ".*"), flat "Stop" .idle] },
   { agent := .openCode, format := .plugin template, events := [] }]

def activityWord : HookActivity → List Char
  | .busy => "busy".toList
  | .idle => "idle".toList

/-- `'\''` -/
def quotedQuote : List Char := "'\\''".toList

/-- `binary.replace('\'', "'\\''")` -/
def quote (text : List Char) : List Char :=
  text.flatMap fun c => if c = '\'' then quotedQuote else [c]

def marker (slug : List Char) : List Char := "agent-event ".toList ++ slug ++ " ".toList

/-- `'<binary>' agent-event <slug> <busy|idle> 2>/dev/null || true` -/
def commandLine (binary slug : List Char) (activity : HookActivity) : List Char :=
  "'".toList ++ quote binary ++ "' agent-event ".toList ++ slug ++ " ".toList ++
    activityWord activity ++ " 2>/dev/null || true".toList

def isOurs (command slug : List Char) : Bool := marker slug <:+: command

/-- The path in the part of a command before the marker. -/
def commandPath (head : List Char) : List Char :=
  match (stripPrefix '\'' head).bind (stripSuffix '\'') with
  | some quoted => replace quotedQuote "'".toList quoted
  | none => head

def parseCommand (command slug : List Char) : Option (List Char × Option HookActivity) := do
  let (head, rest) ← cut (marker slug) command
  let path := commandPath (trim head)
  let activity :=
    if firstWord rest = some "busy".toList then some .busy
    else if firstWord rest = some "idle".toList then some .idle
    else none
  return (path, activity)

inductive EventState where
  | ok | missing
  | outdated (why : List Char)
  deriving DecidableEq

/-- Why a config is refused: the reader's error, or a text. -/
inductive Reason where
  | json (error : JsonError)
  | text (what : List Char)
  deriving DecidableEq

inductive HookState where
  | installed
  | partly (missing : List Char)
  | outdated (why : List Char)
  | notInstalled | agentNotInstalled
  | unreadable (why : Reason)
  deriving DecidableEq

def commandKey : List Char := "command".toList
def hooksKey : List Char := "hooks".toList
def timeoutKey : List Char := "timeout".toList
def matcherKey : List Char := "matcher".toList

def handlerCommand (item : Json) : Option (List Char) := (item.get commandKey).bind Json.asStr

def isHandler (item : Json) : Bool := (handlerCommand item).isSome

/-- The `hooks` list of a group. -/
def groupHooks (item : Json) : Option (List Json) :=
  match item.get hooksKey with
  | some (.arr inner) => some inner
  | _ => none

def itemHandlers (item : Json) : List Json :=
  if isHandler item then [item] else ((groupHooks item).getD []).filter isHandler

/-- The handlers that `for_each_handler` visits. -/
def handlers (list : List Json) : List Json := list.flatMap itemHandlers

def mapItem (f : Json → Json) (item : Json) : Json :=
  if isHandler item then f item
  else
    match groupHooks item with
    | some inner =>
      Json.set hooksKey (.arr (inner.map fun h => if isHandler h then f h else h)) item
    | none => item

/-- `for_each_handler_mut` -/
def mapHandlers (f : Json → Json) (list : List Json) : List Json := list.map (mapItem f)

def isOurHandler (slug : List Char) (item : Json) : Bool :=
  (handlerCommand item).any (isOurs · slug)

/-- The object holding the events; none when absent. -/
def container (root : Json) (key : List Char) : Except Reason (Option Json) :=
  match root with
  | .obj _ =>
    match root.get key with
    | none => .ok none
    | some (.obj fields) => .ok (some (.obj fields))
    | some _ => .error (.text ("\"".toList ++ key ++ "\" is not an object".toList))
  | _ => .error (.text "the top level is not an object".toList)

def notAList (event : List Char) : Reason :=
  .text ("\"".toList ++ event ++ "\" is not a list".toList)

def eventList (container : Option Json) (event : List Char) : Except Reason (List Json) :=
  match container.bind (Json.get event) with
  | none => .ok []
  | some (.arr items) => .ok items
  | some _ => .error (notAList event)

def judge (command slug : List Char) (want : HookActivity) (binary : List Char)
    (exist : List Char → Bool) : EventState :=
  match parseCommand command slug with
  | none => .outdated "unrecognised command".toList
  | some (path, activity) =>
    if path ≠ binary then .outdated ("pointing at ".toList ++ path)
    else if activity ≠ some want then
      .outdated ("reporting the wrong state (expected ".toList ++ activityWord want ++ ")".toList)
    else if !exist path then .outdated ("binary ".toList ++ path ++ " does not exist".toList)
    else .ok

/-- The state of one event: one bad handler of ours makes it outdated. -/
def worst (states : List EventState) : EventState :=
  match states.find? fun | .outdated _ => true | _ => false with
  | some bad => bad
  | none => if states.isEmpty then .missing else .ok

def inspectEvent (slug : List Char) (spec : EventSpec) (list : List Json) (binary : List Char)
    (exist : List Char → Bool) : EventState :=
  worst (((handlers list).filter (isOurHandler slug)).map fun handler =>
    judge ((handlerCommand handler).getD []) slug spec.activity binary exist)

def notJsonAdapter : Reason := .text "not a JSON adapter".toList

/-- Each of the adapter's events against a parsed config. -/
def inspectJson (a : Adapter) (root : Json) (binary : List Char) (exist : List Char → Bool) :
    Except Reason (List (List Char × EventState)) :=
  match a.format with
  | .plugin _ => .error notJsonAdapter
  | .json key _ _ => do
    let container ← container root key
    a.events.mapM fun spec => do
      let list ← eventList container spec.event
      return (spec.event, inspectEvent a.slug spec list binary exist)

/-- Events with the same complaint, in the order in which the complaints came up. -/
def complain (grouped : List (List Char × List (List Char))) (state : List Char × EventState) :
    List (List Char × List (List Char)) :=
  match state.2 with
  | .outdated why =>
    if why ∈ grouped.map Prod.fst then
      grouped.map fun g => if g.1 = why then (g.1, g.2 ++ [state.1]) else g
    else grouped ++ [(why, [state.1])]
  | _ => grouped

def join (separator : String) (texts : List (List Char)) : List Char :=
  separator.toList.intercalate texts

def summarize (states : List (List Char × EventState)) : HookState :=
  let missing := (states.filter (·.2 = .missing)).map Prod.fst
  let outdated := (states.foldl complain []).map fun g => join ", " g.2 ++ ": ".toList ++ g.1
  if missing.length = states.length then .notInstalled
  else if !missing.isEmpty then
    .partly ("missing ".toList ++ join ", " missing ++
      (if outdated.isEmpty then [] else "; outdated: ".toList ++ join ", " outdated))
  else if !outdated.isEmpty then .outdated (join "; " outdated)
  else .installed

def pluginPlaceholder : List Char := "/absolute/path/to/cyd-host".toList
def pluginId : List Char := "id: \"cyd-system-monitor\"".toList
def pluginCall : List Char := "\"agent-event\", \"opencode\"".toList

def jsEscape (text : List Char) : List Char :=
  text.flatMap fun c =>
    if c = '"' then "\\\"".toList
    else if c = '\\' then "\\\\".toList
    else if c.toNat < 0x20 ∨ c.toNat = 0x2028 ∨ c.toNat = 0x2029 ∨ c.toNat = 0x7f then
      "\\u".toList ++ hex04 c.toNat
    else [c]

/-- The OpenCode plugin with the binary path filled in. -/
def pluginSource (template binary : List Char) : List Char :=
  replace pluginPlaceholder (jsEscape binary) template

def pluginIsOurs (text : List Char) : Bool := pluginId <:+: text && pluginCall <:+: text

/-- `u32::from_str_radix(hex, 16)`, which also takes a plus sign. -/
def fromHex (text : List Char) : Option ℕ :=
  let digits := if text.head? = some '+' then text.tail else text
  if digits.isEmpty then none
  else digits.foldl (fun n c => do return (← n) * 16 + (← hexVal c)) (some 0)

/-- The text of a JavaScript string up to its closing quote; `skip` characters are passed over. -/
def pathText : (skip : ℕ) → List Char → List Char → Option (List Char)
  | _, _, [] => none
  | skip + 1, out, _ :: text => pathText skip out text
  | 0, out, '"' :: _ => some out
  | 0, _, ['\\'] => none
  | 0, out, '\\' :: other :: text =>
    if other = 'u' then
      match (fromHex (text.take 4)).bind fromU32 with
      | some c => pathText (1 + (text.take 4).length) (out ++ [c]) (other :: text)
      | none => none
    else pathText 1 (out ++ [other]) (other :: text)
  | 0, out, c :: text => pathText 0 (out ++ [c]) text

/-- The path in the plugin's `|| "<path>"` default. -/
def pluginPath (text : List Char) : Option (List Char) :=
  (cut "|| \"".toList text).bind fun r => pathText 0 [] r.2

/-- Classifies a config file's text, none: no file. -/
def classify (a : Adapter) (text : Option (List Char)) (binary : List Char)
    (exist : List Char → Bool) : HookState :=
  match text with
  | none => .notInstalled
  | some text =>
    match a.format with
    | .plugin template =>
      if text = pluginSource template binary then
        if exist binary then .installed
        else .outdated ("binary ".toList ++ binary ++ " does not exist".toList)
      else if pluginIsOurs text then
        .outdated ("plugin differs from this cyd-host's, pointing at ".toList ++
          (pluginPath text).getD "an unknown path".toList)
      else .unreadable (.text "the file is not the cyd-host plugin".toList)
    | .json _ _ _ =>
      match parse text with
      | .error error => .unreadable (.json error)
      | .ok root =>
        match inspectJson a root binary exist with
        | .ok states => summarize states
        | .error reason => .unreadable reason

/-- What to do to a config file. -/
inductive Edit where
  | unchanged
  | write (text : List Char)
  | delete
  deriving DecidableEq

def seconds (timeout : ℕ) : Json := .num (Nat.toDigits 10 timeout)

def newHandler (a : Adapter) (spec : EventSpec) (binary : List Char) (timeout : Option ℕ) : Json :=
  let handler := .obj [("type".toList, .str "command".toList),
    (commandKey, .str (commandLine binary a.slug spec.activity))]
  match timeout with
  | some t => Json.set timeoutKey (seconds t) handler
  | none => handler

def newEntry (a : Adapter) (spec : EventSpec) (binary : List Char) (timeout : Option ℕ) : Json :=
  let handler := newHandler a spec binary timeout
  match spec.shape with
  | .flat => handler
  | .group =>
    let group := match spec.matcher with
      | some m => .obj [(matcherKey, .str m)]
      | none => .obj []
    Json.set hooksKey (.arr [handler]) group

/-- What happens to a handler of ours. -/
def point (want : List Char) (timeout : Option ℕ) (handler : Json) : Json :=
  let handler := Json.set commandKey (.str want) handler
  match timeout, handler.get timeoutKey with
  | some t, none => Json.set timeoutKey (seconds t) handler
  | _, _ => handler

def pointOurs (slug want : List Char) (timeout : Option ℕ) (handler : Json) : Json :=
  if isOurHandler slug handler then point want timeout handler else handler

/-- An event's list with every handler of ours pointed at the binary, and an entry if there was
none. -/
def mergeList (a : Adapter) (spec : EventSpec) (binary : List Char) (timeout : Option ℕ)
    (list : List Json) : List Json :=
  let want := commandLine binary a.slug spec.activity
  let found := (handlers list).any (isOurHandler a.slug)
  mapHandlers (pointOurs a.slug want timeout) list ++
    if found then [] else [newEntry a spec binary timeout]

def mergeEvent (a : Adapter) (binary : List Char) (timeout : Option ℕ) (events : Json)
    (spec : EventSpec) : Except Reason Json :=
  let events :=
    if (events.get spec.event).isNone then Json.set spec.event (.arr []) events else events
  match events.get spec.event with
  | some (.arr list) =>
    .ok (Json.set spec.event (.arr (mergeList a spec binary timeout list)) events)
  | _ => .error (notAList spec.event)

/-- Points every one of our handlers at the binary and adds an entry for each event that has
none. -/
def merge (a : Adapter) (root : Json) (binary : List Char) : Except Reason Json :=
  match a.format with
  | .plugin _ => .error notJsonAdapter
  | .json key _ timeout => do
    let _ ← container root key
    let root := if (root.get key).isNone then Json.set key (.obj []) root else root
    match root.get key with
    | none => .error (.text "internal: container vanished".toList)
    | some events => do
      let events ← a.events.foldlM (mergeEvent a binary timeout) events
      return Json.set key events root

def notOurPlugin : Reason :=
  .text "a file at that path is not the cyd-host plugin; left alone".toList

/-- The edit that makes the config hold our hooks for the binary. -/
def install (a : Adapter) (existing : Option (List Char)) (binary : List Char) :
    Except Reason Edit :=
  match a.format with
  | .plugin template =>
    let want := pluginSource template binary
    match existing with
    | none => .ok (.write want)
    | some text =>
      if text = want then .ok .unchanged
      else if !pluginIsOurs text then .error notOurPlugin
      else .ok (.write want)
  | .json _ scope _ => do
    let parsed ← match existing with
      | some text => (some <$> parse text).mapError Reason.json
      | none => .ok none
    -- a whole-file adapter starts from nothing
    let root := match parsed with
      | some root => if scope = .wholeFile then .obj [] else root
      | none => .obj []
    let root ← merge a root binary
    if parsed = some root then return .unchanged else return .write (pretty root)

/-- What is left of an item of an event's list, and whether a handler of ours went. -/
def stripItem (slug : List Char) (item : Json) : Option Json × Bool :=
  if isHandler item then
    if isOurHandler slug item then (none, true) else (some item, false)
  else
    match groupHooks item with
    | some inner =>
      let kept := inner.filter fun h => !isOurHandler slug h
      if kept.length ≠ inner.length then
        (if kept.isEmpty then none else some (Json.set hooksKey (.arr kept) item), true)
      else (some item, false)
    | none => (some item, false)

def stripOurs (slug : List Char) (list : List Json) : List Json × Bool :=
  (list.filterMap fun item => (stripItem slug item).1, list.any fun item => (stripItem slug item).2)

/-- What is left of a field of the container, and whether a handler of ours went. -/
def stripField (slug : List Char) (field : List Char × Json) : Option (List Char × Json) × Bool :=
  match field.2 with
  | .arr list =>
    let (list, touched) := stripOurs slug list
    (if touched && list.isEmpty then none else some (field.1, .arr list), touched)
  | _ => (some field, false)

/-- The edit of a shared config: what is left of the root, and whether a handler of ours went. -/
def removeShared (slug key : List Char) (root : Json) : Json × Bool :=
  match root.get key with
  | some (.obj fields) =>
    let kept := fields.filterMap fun field => (stripField slug field).1
    let removed := fields.any fun field => (stripField slug field).2
    let root := Json.set key (.obj kept) root
    (if removed && kept.isEmpty then (root.remove key).1 else root, removed)
  | _ => (root, false)

/-- The edit that removes our hooks. -/
def remove (a : Adapter) (existing : Option (List Char)) : Except Reason Edit :=
  match existing with
  | none => .ok .unchanged
  | some text =>
    match a.format with
    | .plugin _ => if pluginIsOurs text then .ok .delete else .error notOurPlugin
    | .json key scope _ =>
      if scope = .wholeFile then .ok .delete
      else do
        let root ← (parse text).mapError Reason.json
        let _ ← container root key
        let (root, removed) :=
          if scope = .ownKey then root.remove key else removeShared a.slug key root
        if !removed then return .unchanged
        else if root.isEmptyObject then return .delete
        else return .write (pretty root)

end CydMonitor.Hooks
