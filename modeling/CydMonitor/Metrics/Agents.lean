import CydMonitor.Wifi.FlatJson
import Mathlib.Logic.Function.Basic

/-!
# Agent activity (`host/metrics/src/agents.rs`)

Paths are lists of characters; an array indexed by agents is a function.
-/

namespace CydMonitor.Metrics

open Wifi
open Text (utf8 lit)

inductive Agent where
  | codex | claude | grok | gemini | openCode
  deriving DecidableEq, Repr

def Agent.slug : Agent → String
  | .codex => "codex"
  | .claude => "claude"
  | .grok => "grok"
  | .gemini => "gemini"
  | .openCode => "opencode"

inductive AgentState where
  | notRunning | runningActivityUnknown | busy | idle
  deriving DecidableEq, Repr

structure ProcessRecord where
  uid : UInt32
  pid : Int32
  path : List Char
  deriving DecidableEq

def maxPathBytes : ℕ := 1024

/-- A segment of a pattern: a text, or a version between two texts. -/
inductive Seg where
  | lit (text : String)
  | versioned (before after : String)

inductive Root where
  | absolute | home
  deriving DecidableEq

/-- The whole path, or a root that the path is inside of. -/
inductive Shape where
  | executable (pattern : List Seg)
  | bundle (pattern : List Seg)

structure Entry where
  agent : Agent
  root : Root
  shape : Shape

open Seg in
def allowlist : List Entry :=
  [{ agent := .codex, root := .absolute
     shape := .executable [lit "opt", lit "homebrew", lit "Caskroom", lit "codex",
       versioned "" "", lit "bin", lit "codex"] },
    { agent := .codex, root := .absolute
      shape := .executable [lit "usr", lit "local", lit "Caskroom", lit "codex",
        versioned "" "", lit "bin", lit "codex"] },
    { agent := .codex, root := .absolute
      shape := .executable [lit "opt", lit "homebrew", lit "Cellar", lit "codex",
        versioned "" "", lit "bin", lit "codex"] },
    { agent := .codex, root := .absolute
      shape := .executable [lit "usr", lit "local", lit "Cellar", lit "codex",
        versioned "" "", lit "bin", lit "codex"] },
    { agent := .codex, root := .home
      shape := .executable [lit ".vscode", lit "extensions",
        versioned "openai.chatgpt-" "-darwin-arm64", lit "bin", lit "macos-aarch64",
        lit "codex"] },
    { agent := .codex, root := .absolute
      shape := .bundle [lit "Applications", lit "Codex.app"] },
    { agent := .claude, root := .absolute
      shape := .executable [lit "opt", lit "homebrew", lit "Caskroom", lit "claude-code@latest",
        versioned "" "", lit "claude"] },
    { agent := .claude, root := .absolute
      shape := .executable [lit "opt", lit "homebrew", lit "Caskroom", lit "claude-code",
        versioned "" "", lit "claude"] },
    { agent := .claude, root := .absolute
      shape := .executable [lit "usr", lit "local", lit "Caskroom", lit "claude-code@latest",
        versioned "" "", lit "claude"] },
    { agent := .claude, root := .absolute
      shape := .executable [lit "usr", lit "local", lit "Caskroom", lit "claude-code",
        versioned "" "", lit "claude"] },
    { agent := .claude, root := .home
      shape := .executable [lit ".local", lit "share", lit "claude", lit "versions",
        versioned "" ""] },
    { agent := .claude, root := .home
      shape := .executable [lit ".vscode", lit "extensions",
        versioned "anthropic.claude-code-" "-darwin-arm64", lit "resources",
        lit "native-binary", lit "claude"] },
    { agent := .claude, root := .absolute
      shape := .bundle [lit "Applications", lit "Claude.app"] },
    { agent := .grok, root := .home
      shape := .executable [lit ".grok", lit "bin", lit "grok"] },
    { agent := .grok, root := .home
      shape := .executable [lit ".grok", lit "downloads", versioned "grok-" "-macos-aarch64"] },
    { agent := .grok, root := .home
      shape := .executable [lit ".grok", lit "downloads", versioned "grok-" "-macos-x86_64"] },
    { agent := .gemini, root := .home
      shape := .executable [lit ".local", lit "bin", lit "agy"] },
    { agent := .openCode, root := .absolute
      shape := .executable [lit "opt", lit "homebrew", lit "Cellar", lit "opencode-v2",
        versioned "" "", lit "bin", lit "opencode"] },
    { agent := .openCode, root := .absolute
      shape := .executable [lit "usr", lit "local", lit "Cellar", lit "opencode-v2",
        versioned "" "", lit "bin", lit "opencode"] }]

def isNumeric (p : List Char) : Bool := !p.isEmpty && p.length ≤ 9 && p.all Char.isDigit

def isTail (t : List Char) : Bool :=
  !t.isEmpty && t.length ≤ 32 && t.all fun c => c.isAlphanum || c == '.' || c == '-'

def isSemver (text : List Char) : Bool :=
  let isCore := fun c => c != '-' && c != '+'
  let core :=
    match (text.takeWhile isCore).splitOn '.' with
    | [major, minor, patch] => isNumeric major && isNumeric minor && isNumeric patch
    | _ => false
  match text.dropWhile isCore with
  | [] => core
  | _ :: tail => core && isTail tail

def segmentMatches (seg : Seg) (actual : List Char) : Bool :=
  match seg with
  | .lit text => actual == text.toList
  | .versioned before after =>
    match (actual.dropPrefix? before.toList).bind (·.dropSuffix? after.toList) with
    | some version => isSemver version
    | none => false

def isResolvedPath (path : List Char) : Bool :=
  match path with
  | '/' :: rest =>
    2 ≤ (utf8 path).length && (utf8 path).length ≤ maxPathBytes &&
      !path.contains (Char.ofNat 0) &&
      (rest.splitOn '/').all fun seg => !seg.isEmpty && seg != ['.'] && seg != ['.', '.']
  | _ => false

def segments (path : List Char) : List (List Char) := (path.drop 1).splitOn '/'

/-- What is left of a path under its entry's root. -/
def belowRoot (root : Root) (path : List (List Char)) (home : Option (List (List Char))) :
    Option (List (List Char)) :=
  match root with
  | .absolute => some path
  | .home => home.bind fun home => path.dropPrefix? home

/-- What is left of the segments after a pattern. -/
def afterPattern : List Seg → List (List Char) → Option (List (List Char))
  | [], rest => some rest
  | _ :: _, [] => none
  | seg :: pattern, actual :: rest =>
    if segmentMatches seg actual then afterPattern pattern rest else none

def entryMatches (entry : Entry) (path : List (List Char)) (home : Option (List (List Char))) :
    Bool :=
  match belowRoot entry.root path home with
  | none => false
  | some rest =>
    match entry.shape with
    | .executable pattern => afterPattern pattern rest == some []
    | .bundle pattern =>
      match afterPattern pattern rest with
      | some (contents :: _ :: _) => contents == "Contents".toList
      | _ => false

def identify (path home : List Char) : Option Agent :=
  if !isResolvedPath path then none
  else
    let homeSegments := if isResolvedPath home then some (segments home) else none
    (allowlist.find? fun entry => entryMatches entry (segments path) homeSegments).map (·.agent)

abbrev States := Agent → AgentState

/-- A process of the agent that the user runs. -/
def ProcessRecord.runs (r : ProcessRecord) (currentUid : UInt32) (home : List Char)
    (agent : Agent) : Bool :=
  r.uid == currentUid && identify r.path home == some agent

def classifyRecord (currentUid : UInt32) (home : List Char) (state : States) (r : ProcessRecord) :
    States :=
  if r.uid ≠ currentUid then state
  else
    match identify r.path home with
    | some agent => Function.update state agent .runningActivityUnknown
    | none => state

def classify (records : List ProcessRecord) (currentUid : UInt32) (home : List Char) : States :=
  records.foldl (classifyRecord currentUid home) fun _ => .notRunning

inductive HookActivity where
  | busy | idle
  deriving DecidableEq, Repr

structure HookRecord where
  agent : Agent
  pid : Int32
  activity : HookActivity
  ageMs : UInt64
  deriving DecidableEq

def hookBusyTimeoutMs : UInt64 := 15 * 60000

/-- The loop over an agent's own event files. -/
def reportOf (reported : Bool) : List HookRecord → AgentState
  | [] => if reported then .idle else .runningActivityUnknown
  | hook :: hooks =>
    if hook.activity = .busy ∧ hook.ageMs < hookBusyTimeoutMs then .busy else reportOf true hooks

def fromHooks (agent : Agent) (records : List ProcessRecord) (currentUid : UInt32)
    (home : List Char) (hooks : List HookRecord) : AgentState :=
  let running := fun pid => records.any fun r => r.pid == pid && r.runs currentUid home agent
  reportOf false (hooks.filter fun h => h.agent == agent && running h.pid)

def classifyActivity (records : List ProcessRecord) (currentUid : UInt32) (home : List Char)
    (hooks : List HookRecord) : States :=
  fun agent =>
    if classify records currentUid home agent ≠ .notRunning then
      fromHooks agent records currentUid home hooks
    else .notRunning

theorem classifyRecord_eq_notRunning {currentUid : UInt32} {home : List Char} {state : States}
    {r : ProcessRecord} {agent : Agent} :
    classifyRecord currentUid home state r agent = .notRunning ↔
      state agent = .notRunning ∧ r.runs currentUid home agent = false := by
  by_cases huid : r.uid = currentUid
  · cases hid : identify r.path home with
    | none => simp [classifyRecord, ProcessRecord.runs, huid, hid]
    | some other =>
      by_cases hagent : agent = other
      · simp [classifyRecord, ProcessRecord.runs, huid, hid, hagent]
      · simp [classifyRecord, ProcessRecord.runs, huid, hid, hagent, Ne.symm hagent]
  · simp [classifyRecord, ProcessRecord.runs, huid]

/-- An agent is not running exactly when no process of the user is one of its own. -/
theorem classify_eq_notRunning {records : List ProcessRecord} {currentUid : UInt32}
    {home : List Char} {agent : Agent} :
    classify records currentUid home agent = .notRunning ↔
      ∀ r ∈ records, r.runs currentUid home agent = false := by
  have hfold (state : States) :
      records.foldl (classifyRecord currentUid home) state agent = .notRunning ↔
        state agent = .notRunning ∧ ∀ r ∈ records, r.runs currentUid home agent = false := by
    induction records generalizing state with
    | nil => simp
    | cons r records ih =>
      rw [List.foldl_cons, ih, classifyRecord_eq_notRunning, List.forall_mem_cons, and_assoc]
  exact (hfold _).trans (and_iff_right rfl)

theorem reportOf_ne_notRunning (reported : Bool) (hooks : List HookRecord) :
    reportOf reported hooks ≠ .notRunning := by
  induction hooks generalizing reported with
  | nil => cases reported <;> simp [reportOf]
  | cons hook hooks ih =>
    rw [reportOf]
    split_ifs
    · simp
    · exact ih true

/-- Event files do not make an agent run or stop. -/
theorem classifyActivity_eq_notRunning {records : List ProcessRecord} {currentUid : UInt32}
    {home : List Char} {hooks : List HookRecord} {agent : Agent} :
    classifyActivity records currentUid home hooks agent = .notRunning ↔
      ∀ r ∈ records, r.runs currentUid home agent = false := by
  rw [← classify_eq_notRunning, classifyActivity]
  by_cases h : classify records currentUid home agent = .notRunning
  · simp [h]
  · rw [if_pos h]
    exact iff_of_false (reportOf_ne_notRunning _ _) h

end CydMonitor.Metrics
