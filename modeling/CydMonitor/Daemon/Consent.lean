import CydMonitor.Daemon.Supervisor
import CydMonitor.Lib.Trace
import Mathlib.Data.UInt

/-!
# What a port is opened for

The log of a run tells which device the identity file holds, whether a `pair_start` is waiting
and which ports are left alone. Every opening agrees with the log before it.
-/

namespace CydMonitor.Daemon

open Trace

/-- The device that is stored after an act. -/
def stored (device : Option Rust.Identity) : Act → Option Rust.Identity
  | .wrote device => device
  | _ => device

/-- A device is only written right after a handshake with it. -/
def OnlyMet (acts : List Act) : Prop :=
  ∀ before since device, acts = before ++ .wrote (some device) :: since →
    before.getLast? = some (.met device)

/-- The error takes a `pair_start` back: a refusal or a timeout, but not a display that speaks
another version. -/
def LinkError.Withdraws : LinkError → Prop
  | .refused refusal => refusal ≠ .incompatible
  | .timeout _ => True
  | _ => False

/-- The act leaves a `pair_start` waiting. -/
def Act.Waits : Act → Prop
  | .cancelled | .connected _ => False
  | .failed _ error => ¬error.Withdraws
  | _ => True

/-- A `pair_start` was accepted and still waits. -/
def Asked (acts : List Act) : Prop := Since (· = .asked) Act.Waits acts

/-- The port's display refused or did not answer in time, or was unpaired. -/
def Act.Parks (port : Port) : Act → Prop
  | .failed p (.refused _) | .failed p (.timeout _) | .broke p (.refused _) | .unpaired p =>
    p = port
  | _ => False

/-- The act lets the port be tried again: no port is seen, the Operator acts, or another port is
parked in its place. -/
def Act.Frees (port : Port) (a : Act) : Prop :=
  a = .sawNone ∨ a = .asked ∨ a = .forgot ∨ ∃ other, other ≠ port ∧ a.Parks other

/-- The port's display refused, did not answer or was unpaired, and nothing since lets the port
be tried again. -/
def Parked (port : Port) (acts : List Act) : Prop :=
  Since (·.Parks port) (¬·.Frees port) acts

theorem Act.parks_unique {a : Act} {p q : Port} (hp : a.Parks p) (hq : a.Parks q) : p = q := by
  cases a with
  | failed port error =>
    cases error with
    | refused => exact Eq.trans (Eq.symm hp) hq
    | timeout => exact Eq.trans (Eq.symm hp) hq
    | _ => exact hp.elim
  | broke port error =>
    cases error with
    | refused => exact Eq.trans (Eq.symm hp) hq
    | _ => exact hp.elim
  | unpaired port => exact Eq.trans (Eq.symm hp) hq
  | _ => exact hp.elim

theorem onlyMet_iff {acts : List Act} : OnlyMet acts ↔
    ∀ before a since, acts = before ++ a :: since →
      ∀ device, a = .wrote (some device) → before.getLast? = some (.met device) := by
  constructor
  · rintro h before a since hacts device rfl
    exact h before since device hacts
  · intro h before since device hacts
    exact h before _ since hacts device rfl

theorem onlyMet_concat {acts : List Act} {a : Act} : OnlyMet (acts ++ [a]) ↔
    OnlyMet acts ∧ ∀ device, a = .wrote (some device) → acts.getLast? = some (.met device) := by
  rw [onlyMet_iff, onlyMet_iff]
  exact forall_split_concat

def deviceOf (file : Option Identity) : Option Rust.Identity := file.bind Identity.device

/-- An opening agrees with the log before it. -/
structure Consented (first : Option Rust.Identity) (acts : List Act) (port : Port)
    (known : Option Rust.Identity) : Prop where
  asStored : known = acts.foldl stored first
  consent : known.isSome ∨ Asked acts
  unparked : ¬Parked port acts

/-- The state and its log agree. -/
structure Sound (first : Option Rust.Identity) (s : Supervisor) : Prop where
  asked : s.pair.requested = true → Asked s.acts
  parked : ∀ port, Parked port s.acts → s.pair.parked = some port
  file : deviceOf s.file = s.acts.foldl stored first
  met : OnlyMet s.acts
  opened : ∀ before since port known, s.acts = before ++ .opened port known :: since →
    Consented first before port known

variable {first : Option Rust.Identity} {s s' : Supervisor}

/-- Nothing of what the log is about changes. -/
structure Alike (s s' : Supervisor) : Prop where
  acts : s'.acts = s.acts
  pair : s'.pair = s.pair
  file : s'.file = s.file

theorem Sound.alike (h : Sound first s) (hs : Alike s s') : Sound first s' := by
  refine ⟨?_, ?_, ?_, ?_, ?_⟩
  · rw [hs.pair, hs.acts]
    exact h.asked
  · rw [hs.pair, hs.acts]
    exact h.parked
  · rw [hs.file, hs.acts]
    exact h.file
  · rw [hs.acts]
    exact h.met
  · rw [hs.acts]
    exact h.opened

/-- One act more. -/
theorem Sound.concat (h : Sound first s) {a : Act} (hacts : s'.acts = s.acts ++ [a])
    (hasked : s'.pair.requested = true → a = .asked ∨ s.pair.requested = true ∧ a.Waits)
    (hparked : ∀ port, a.Parks port ∨ s.pair.parked = some port ∧ ¬a.Frees port →
      s'.pair.parked = some port)
    (hfile : deviceOf s'.file = stored (deviceOf s.file) a)
    (hmet : ∀ device, a = .wrote (some device) → s.acts.getLast? = some (.met device))
    (hopened : ∀ port known, a = .opened port known → known = deviceOf s.file ∧
      (known.isSome ∨ s.pair.requested = true) ∧ s.pair.parked ≠ some port) :
    Sound first s' := by
  refine ⟨fun hrequested => ?_, fun port hport => ?_, ?_, ?_,
    fun before since port known hsplit => ?_⟩
  · rw [hacts, Asked, since_concat]
    exact (hasked hrequested).imp_right fun hold => ⟨h.asked hold.1, hold.2⟩
  · rw [hacts, Parked, since_concat] at hport
    exact hparked port (hport.imp_right fun hold => ⟨h.parked port hold.1, hold.2⟩)
  · rw [hfile, h.file, hacts, List.foldl_append]
    rfl
  · rw [hacts, onlyMet_concat]
    exact ⟨h.met, hmet⟩
  · rw [hacts] at hsplit
    rcases concat_split hsplit with ⟨-, ha, rfl⟩ | ⟨since', -, hold⟩
    · obtain ⟨hknown, hconsent, hfree⟩ := hopened port known ha
      exact ⟨hknown.trans h.file, hconsent.imp_right h.asked, fun hport =>
        hfree (h.parked port hport)⟩
    · exact h.opened before since' port known hold

/-- An act that is neither an opening nor a write. -/
def Act.Plain : Act → Prop
  | .wrote _ | .opened .. => False
  | _ => True

theorem Act.Plain.stored {a : Act} (ha : a.Plain) (device : Option Rust.Identity) :
    stored device a = device := by
  cases a with
  | wrote => exact ha.elim
  | _ => rfl

theorem Sound.plain (h : Sound first s) {a : Act} (ha : a.Plain)
    (hacts : s'.acts = s.acts ++ [a]) (hfile : s'.file = s.file)
    (hasked : s'.pair.requested = true → a = .asked ∨ s.pair.requested = true ∧ a.Waits)
    (hparked : ∀ port, a.Parks port ∨ s.pair.parked = some port ∧ ¬a.Frees port →
      s'.pair.parked = some port) : Sound first s' := by
  refine h.concat hacts hasked hparked (by rw [hfile, ha.stored]) (fun device hwrote => ?_)
    fun port known hopens => ?_
  · rw [hwrote] at ha
    exact ha.elim
  · rw [hopens] at ha
    exact ha.elim

/-- An act that neither parks nor frees a port, and what it leaves of the request. -/
theorem Sound.aside (h : Sound first s) {a : Act} (ha : a.Plain) (hacts : s'.acts = s.acts ++ [a])
    (hfile : s'.file = s.file) (hquiet : ∀ port, ¬a.Parks port)
    (hparked : s'.pair.parked = s.pair.parked)
    (hasked : s'.pair.requested = true → s.pair.requested = true ∧ a.Waits) : Sound first s' := by
  refine h.plain ha hacts hfile (fun hrequested => Or.inr (hasked hrequested)) fun port hport => ?_
  rw [hparked]
  exact (hport.resolve_left (hquiet port)).1

/-- An act that parks a port. -/
theorem Sound.parking (h : Sound first s) (port : Port) {a : Act} (ha : a.Plain)
    (hacts : s'.acts = s.acts ++ [a]) (hfile : s'.file = s.file)
    (hparks : a.Parks port) (hparked : s'.pair.parked = some port)
    (hasked : s'.pair.requested = true → s.pair.requested = true ∧ a.Waits) : Sound first s' := by
  refine h.plain ha hacts hfile (fun hrequested => Or.inr (hasked hrequested)) fun p hp => ?_
  rw [hparked]
  rcases hp with hp | ⟨-, hfrees⟩
  · rw [Act.parks_unique hparks hp]
  · by_contra hother
    exact hfrees (Or.inr (Or.inr (Or.inr ⟨port, fun hsame => hother (congrArg some hsame),
      hparks⟩)))

/-- An act that frees every port. -/
theorem Sound.freeing (h : Sound first s) {a : Act} (ha : a.Plain)
    (hacts : s'.acts = s.acts ++ [a]) (hfile : s'.file = s.file) (hquiet : ∀ port, ¬a.Parks port)
    (hfrees : ∀ port, a.Frees port)
    (hasked : s'.pair.requested = true → a = .asked ∨ s.pair.requested = true ∧ a.Waits) :
    Sound first s' := by
  refine h.plain ha hacts hfile hasked fun port hport => ?_
  exact absurd (hfrees port) (hport.resolve_left (hquiet port)).2

theorem alike_setLink (state : LinkState) (detail : Option (List Char)) (port : Option Port)
    (code : Option UInt32) (s : Supervisor) : Alike s (s.setLink state detail port code) := by
  rw [Supervisor.setLink]
  dsimp only
  split_ifs <;> exact ⟨rfl, rfl, rfl⟩

theorem Sound.setLink (h : Sound first s) (state : LinkState) (detail : Option (List Char))
    (port : Option Port) (code : Option UInt32) : Sound first (s.setLink state detail port code) :=
  h.alike (alike_setLink state detail port code s)

theorem Sound.replied (h : Sound first s) (command : ControlIpc.Request) (response : List Char) :
    Sound first (s.reply command response) :=
  h.alike ⟨rfl, rfl, rfl⟩

/-- The identity file is written; a device only right after a handshake with it. -/
theorem Sound.write (h : Sound first s) (file : Option Identity)
    (hmet : ∀ device, deviceOf file = some device → s.acts.getLast? = some (.met device)) :
    Sound first (s.write file) := by
  refine h.concat rfl (fun hrequested => Or.inr ⟨hrequested, trivial⟩) (fun port hport => ?_) rfl
    (fun device hwrote => hmet device (Act.wrote.inj hwrote))
    fun port known hopens => by cases hopens
  exact (hport.resolve_left id).1

theorem Identity.cut_device {n : ℕ} {id : Identity} {device : Rust.Identity}
    (h : deviceOf (id.cut n) = some device) : id.device = some device := by
  rw [cut] at h
  split_ifs at h
  · cases h
  · cases h
  · exact h

/-- A save, with what it leaves. -/
theorem Sound.saveIn (h : Sound first s) {save : Save} {id : Identity}
    (hmet : ∀ device, id.device = some device → s.acts.getLast? = some (.met device))
    {r : Except (List Char) Unit} (hsave : s.saveIn save id = (r, s')) :
    Sound first s' ∧ (r = .ok () → deviceOf s'.file = id.device) := by
  cases save with
  | done =>
    cases hsave
    exact ⟨h.write (some id) hmet, fun _ => rfl⟩
  | failed e cut =>
    cases cut with
    | none =>
      cases hsave
      exact ⟨h, nofun⟩
    | some n =>
      cases hsave
      exact ⟨h.write (id.cut n) fun device hdevice => hmet device (Identity.cut_device hdevice),
        nofun⟩

/-- A load, with what it leaves: what is loaded is what is stored then. -/
theorem Sound.loadOrCreate (h : Sound first s) {disk : Disk} {r : Except (List Char) Identity}
    (hload : s.loadOrCreate disk = (r, s')) :
    Sound first s' ∧ ∀ id, r = .ok id → id.device = deviceOf s'.file := by
  rw [Supervisor.loadOrCreate] at hload
  cases hread : if disk.reads then s.file else none with
  | some id =>
    rw [hread] at hload
    cases hload
    refine ⟨h, fun id' hid => ?_⟩
    split_ifs at hread
    rw [hread, ← Except.ok.inj hid]
    rfl
  | none =>
    rw [hread] at hload
    rcases hcreate : disk.create with e | ⟨host, save⟩
    · rw [hcreate] at hload
      cases hload
      exact ⟨h, nofun⟩
    · rw [hcreate] at hload
      dsimp only at hload
      rcases hsave : s.saveIn save { host, device := none } with ⟨_ | _, s₁⟩
      · rw [hsave] at hload
        cases hload
        exact ⟨(h.saveIn (fun _ hdevice => by cases hdevice) hsave).1, nofun⟩
      · rw [hsave] at hload
        cases hload
        obtain ⟨hsaved, hdevice⟩ := h.saveIn (fun _ hdevice => by cases hdevice) hsave
        refine ⟨hsaved, fun id hid => ?_⟩
        rw [hdevice rfl, ← Except.ok.inj hid]

theorem Sound.forget (h : Sound first s) (disk : Disk) : Sound first (s.forget disk).2 := by
  rw [Supervisor.forget]
  rcases hload : s.loadOrCreate disk with ⟨_ | id, s₁⟩
  · exact (h.loadOrCreate hload).1
  · dsimp only
    rcases hsave : s₁.saveIn disk.save { id with device := none } with ⟨_ | _, s₂⟩
    · exact ((h.loadOrCreate hload).1.saveIn (fun _ hdevice => by cases hdevice) hsave).1
    · have hsaved := ((h.loadOrCreate hload).1.saveIn (fun _ hdevice => by cases hdevice) hsave).1
      exact hsaved.freeing (a := .forgot) trivial rfl rfl (fun _ hparks => hparks)
        (fun _ => Or.inr (Or.inr (Or.inl rfl))) fun hrequested => Or.inr ⟨hrequested, trivial⟩

theorem Sound.asks (h : Sound first s) (port : Option Port) :
    Sound first (({ s with pair := { requested := true, port, parked := none } }).act .asked) :=
  h.freeing (a := .asked) trivial rfl rfl (fun _ => id) (fun _ => Or.inr (Or.inl rfl))
    fun _ => Or.inl rfl

theorem Sound.cancels (h : Sound first s) :
    Sound first (({ s with pair := { s.pair with requested := false, port := none } }).act
      .cancelled) :=
  h.aside (a := .cancelled) trivial rfl rfl (fun _ => id) rfl nofun

theorem Sound.handleIdle (h : Sound first s) (command : ControlIpc.Request) (disk : Disk) :
    Sound first (s.handleIdle command disk) := by
  cases command with
  | pairStart port =>
    rw [Supervisor.handleIdle]
    rcases hload : s.loadOrCreate disk with ⟨_ | id, s₁⟩
    · exact (h.loadOrCreate hload).1.replied _ _
    · dsimp only
      split_ifs
      · exact (h.loadOrCreate hload).1.replied _ _
      · exact ((h.loadOrCreate hload).1.asks port).replied _ _
  | pairCancel => exact h.cancels.replied _ _
  | forget =>
    have hforgotten := h.forget disk
    rw [Supervisor.handleIdle]
    rcases hforget : s.forget disk with ⟨_ | _, s₁⟩
    · rw [hforget] at hforgotten
      exact hforgotten.replied _ _
    · rw [hforget] at hforgotten
      exact hforgotten.replied _ _
  | _ => exact h.replied _ _

theorem Sound.idleWait (h : Sound first s) (arrives : Option (ControlIpc.Request × Disk)) :
    Sound first (s.idleWait arrives) := by
  cases arrives with
  | none => exact h
  | some a => exact h.handleIdle a.1 a.2

theorem Sound.polled (h : Sound first s) (commands : List ControlIpc.Request) :
    Sound first (s.cancels commands).2 := by
  induction commands generalizing s with
  | nil => exact h
  | cons command commands ih =>
    cases command with
    | pairCancel => exact h.cancels.replied _ _
    | _ => exact ih (h.replied _ _)

theorem Sound.report (h : Sound first s) (port : Port) (p : Progress) :
    Sound first (s.report port p) := by
  cases p with
  | paired => exact h
  | _ => exact h.setLink _ _ _ _

theorem Sound.attempt (h : Sound first s) (port : Port) (happenings : List Happening) :
    Sound first (Supervisor.attempt port happenings s).2 := by
  induction happenings generalizing s with
  | nil => exact h
  | cons happening rest ih =>
    cases happening with
    | progress p => exact ih (h.report port p)
    | poll stopped commands =>
      rw [Supervisor.attempt]
      split_ifs
      · exact h
      · have hpolled := h.polled commands
        rcases hcancels : s.cancels commands with ⟨_ | _, s₁⟩
        · rw [hcancels] at hpolled
          exact ih hpolled
        · rw [hcancels] at hpolled
          exact hpolled

theorem Sound.meets (h : Sound first s) (device : Rust.Identity) :
    Sound first (s.act (.met device)) :=
  h.aside (a := .met device) trivial rfl rfl (fun _ => id) rfl fun hrequested =>
    ⟨hrequested, trivial⟩

/-- A link takes the request back. -/
theorem Sound.connects (h : Sound first s) (device : Rust.Identity) :
    Sound first { s.act (.connected device) with
      pair := { s.pair with requested := false, port := none } } :=
  h.aside (a := .connected device) trivial rfl rfl (fun _ => id) rfl nofun

/-- What a connection attempt leaves: a failure, or a link for which the request is taken back. -/
theorem connect_cases {port : Port} {id : Identity} {w : Turn} {r : Except LinkError Identity}
    (h : Sound first s) (hconnect : s.connect port id w = (r, s')) :
    (∃ e, r = .error e ∧ Sound first s') ∨ ∃ id', r = .ok id' ∧
      Sound first { s' with pair := { s'.pair with requested := false, port := none } } := by
  have hattempt := h.attempt port w.attempt
  rw [Supervisor.connect] at hconnect
  rcases hreported : Supervisor.attempt port w.attempt s with ⟨_ | _, s₁⟩
  · rw [hreported] at hattempt hconnect
    dsimp only at hattempt hconnect
    cases hhandshake : w.handshake with
    | error e =>
      rw [hhandshake] at hconnect
      cases hconnect
      exact Or.inl ⟨e, rfl, hattempt⟩
    | ok device =>
      rw [hhandshake] at hconnect
      dsimp only at hconnect
      have hmeets := hattempt.meets device
      split_ifs at hconnect with hother
      · rcases hsave : (s₁.act (.met device)).saveIn w.save { id with device := some device } with
          ⟨r₂, s₂⟩
        have hlast (d : Rust.Identity) (hd : some device = some d) :
            (s₁.act (.met device)).acts.getLast? = some (.met d) := by
          rw [← Option.some.inj hd]
          exact List.getLast?_concat
        have hsaved := (hmeets.saveIn hlast hsave).1
        rw [hsave] at hconnect
        cases r₂ with
        | error e =>
          cases hconnect
          exact Or.inl ⟨_, rfl, hsaved⟩
        | ok u =>
          cases hconnect
          exact Or.inr ⟨_, rfl, hsaved.connects device⟩
      · cases hconnect
        exact Or.inr ⟨id, rfl, hmeets.connects device⟩
  · rw [hreported] at hattempt hconnect
    cases hconnect
    exact Or.inl ⟨_, rfl, hattempt⟩

/-- A refusal or a timeout that takes the request back. -/
theorem Sound.withdraws (h : Sound first s) (error : LinkError) (port : Port)
    (hparks : (Act.failed port error).Parks port) (state : LinkState)
    (detail : Option (List Char)) : Sound first
      { (s.act (.failed port error)).setLink state detail (some port) none with
        pair := { requested := false, port := none, parked := some port } } := by
  have halike := alike_setLink state detail (some port) none (s.act (.failed port error))
  exact h.parking port (a := .failed port error) trivial halike.acts halike.file hparks rfl nofun

theorem Sound.afterFailedConnect (h : Sound first s) (error : LinkError) (port : Port)
    (idle : Option (ControlIpc.Request × Disk)) :
    Sound first (s.afterFailedConnect error port idle) := by
  cases error with
  | cancelled =>
    exact h.aside (a := .failed port .cancelled) trivial rfl rfl (fun _ => id) rfl fun hrequested =>
      ⟨hrequested, id⟩
  | io e =>
    have hfailed : Sound first (s.act (.failed port (.io e))) :=
      h.aside (a := .failed port (.io e)) trivial rfl rfl (fun _ => id) rfl fun hrequested =>
        ⟨hrequested, id⟩
    exact (hfailed.setLink _ _ _ _).idleWait idle
  | timeout what => exact h.withdraws (.timeout what) port rfl _ _
  | refused refusal =>
    cases refusal with
    | incompatible =>
      have halike := alike_setLink .deviceFound
        (some "the display speaks an incompatible protocol version".toList) (some port) none
        (s.act (.failed port (.refused .incompatible)))
      refine h.parking port (a := .failed port (.refused .incompatible)) trivial halike.acts
        halike.file rfl rfl fun hrequested => ⟨?_, fun hother => hother rfl⟩
      exact (congrArg PairControl.requested halike.pair).symm.trans hrequested
    | _ => exact h.withdraws (.refused _) port rfl _ _

theorem Sound.serve (h : Sound first s) (broken : Except LinkError Unit)
    (service : List Service) : Sound first (Supervisor.serve broken service s).2 := by
  induction service generalizing s with
  | nil => exact h
  | cons happening rest ih =>
    cases happening with
    | snapshot nowMs utcMs groups => exact ih (h.alike ⟨rfl, rfl, rfl⟩)
    | poll stopped command result =>
      cases stopped with
      | true => exact h
      | false =>
        cases command with
        | none => exact ih h
        | some command =>
          cases command with
          | unpair =>
            have hreplied : Sound first (s.onCommand .unpair "unpair".toList result) :=
              h.replied _ _
            rcases result with e | answer
            · exact ih hreplied
            · cases answer with
              | rejected => exact ih hreplied
              | _ => exact hreplied
          | _ => exact ih (h.replied _ _)

theorem Sound.finish (h : Sound first s) : Sound first s.finish :=
  (h.setLink _ _ _ _).alike ⟨rfl, rfl, rfl⟩

theorem Sound.breaks (h : Sound first s) (port : Port) (error : LinkError)
    (hquiet : ∀ p, ¬(Act.broke port error).Parks p) : Sound first (s.act (.broke port error)) :=
  h.aside (a := .broke port error) trivial rfl rfl hquiet rfl fun hrequested =>
    ⟨hrequested, trivial⟩

theorem Sound.afterServe (h : Sound first s) (outcome : Except LinkError ServeEnd) (port : Port)
    (w : Turn) : Sound first (s.afterServe outcome port w) := by
  rcases outcome with error | ending
  · cases error with
    | refused refusal =>
      have halike := alike_setLink .stale (some (LinkError.refused refusal).display) (some port)
        none (s.act (.broke port (.refused refusal)))
      refine h.parking port (a := .broke port (.refused refusal)) trivial halike.acts halike.file
        rfl rfl fun hrequested => ⟨?_, trivial⟩
      exact (congrArg PairControl.requested halike.pair).symm.trans hrequested
    | io e => exact ((h.breaks port (.io e) fun _ => id).setLink _ _ _ _).idleWait w.idle
    | timeout what =>
      exact ((h.breaks port (.timeout what) fun _ => id).setLink _ _ _ _).idleWait w.idle
    | cancelled => exact ((h.breaks port .cancelled fun _ => id).setLink _ _ _ _).idleWait w.idle
  · cases ending with
    | stopped => exact h.finish
    | resync => exact h.setLink _ _ _ _
    | unpaired =>
      have hunpairs {s₁ : Supervisor} (h₁ : Sound first s₁) : Sound first
          ({ s₁ with pair := { s₁.pair with parked := some port } }.act (.unpaired port)) :=
        h₁.parking port (a := .unpaired port) trivial rfl rfl rfl rfl fun hrequested =>
          ⟨hrequested, trivial⟩
      have hforgotten := h.forget w.forgetting
      rw [Supervisor.afterServe]
      rcases hforget : s.forget w.forgetting with ⟨e | _, s₁⟩
      · rw [hforget] at hforgotten
        have hline : Sound first
            (s₁.line (Text.utf8 ("cannot forget the display: ".toList ++ e))) :=
          hforgotten.alike ⟨rfl, rfl, rfl⟩
        exact hunpairs (hline.setLink _ _ _ _)
      · rw [hforget] at hforgotten
        exact hunpairs (hforgotten.setLink _ _ _ _)

theorem Sound.useChannel (h : Sound first s) (port : Port) (id : Identity) (w : Turn) :
    Sound first (s.useChannel port id w) := by
  rw [Supervisor.useChannel]
  dsimp only
  have hpublished : Sound first (s.publish { s.shared with
      link := { s.shared.link with sessions := s.shared.link.sessions + 1 } }) :=
    h.alike ⟨rfl, rfl, rfl⟩
  rcases hconnect : (s.publish _).connect port id w with ⟨r, s₁⟩
  rcases connect_cases hpublished hconnect with ⟨e, rfl, hfailed⟩ | ⟨id', rfl, hlinked⟩
  · exact hfailed.afterFailedConnect e port w.idle
  · have hidentity : Sound first
        (({ s₁ with pair := { s₁.pair with requested := false, port := none } }).setIdentity
          id'.device) := hlinked.alike ⟨rfl, rfl, rfl⟩
    have hset := hidentity.setLink .pairedConnected none (some port) none
    exact (hset.serve w.broken w.service).afterServe _ port w

/-- A port is opened with the stored device, for a stored device or a waiting request, and never
while it is parked. -/
theorem Sound.opens (h : Sound first s) (port : Port) {known : Option Rust.Identity}
    (hknown : known = deviceOf s.file) (hfree : s.pair.parked ≠ some port)
    (hconsent : known.isSome ∨ s.pair.requested = true) :
    Sound first (s.act (.opened port known)) := by
  refine h.concat rfl (fun hrequested => Or.inr ⟨hrequested, trivial⟩) (fun p hp => ?_) rfl
    (fun device hwrote => by cases hwrote) fun p known' ha => ?_
  · exact (hp.resolve_left id).1
  · cases ha
    exact ⟨hknown, hconsent, hfree⟩

theorem Sound.usePort (h : Sound first s) (port : Port) {id : Identity}
    (hid : id.device = deviceOf s.file) (w : Turn) : Sound first (s.usePort port id w) := by
  rw [Supervisor.usePort]
  dsimp only
  have hset : Sound first (s.setIdentity id.device) := h.alike ⟨rfl, rfl, rfl⟩
  split_ifs with hparked hask
  · exact hset.idleWait w.idle
  · exact (hset.setLink _ _ _ _).idleWait w.idle
  · have hconsent : id.device.isSome ∨ (s.setIdentity id.device).pair.requested = true := by
      rw [not_and_or] at hask
      rcases hask with hsome | hrequested
      · exact Or.inl (by simpa [Option.isSome_iff_ne_none] using hsome)
      · exact Or.inr (by simpa using hrequested)
    have hlinked := hset.setLink .deviceFound (some "connecting".toList) (some port) none
    have halike := alike_setLink .deviceFound (some "connecting".toList) (some port) none
      (s.setIdentity id.device)
    have hopened := hlinked.opens port (hid.trans (congrArg deviceOf halike.file).symm)
      (by rw [halike.pair]; exact hparked) (by rw [halike.pair]; exact hconsent)
    cases w.opening with
    | error e => exact (hopened.setLink _ _ _ _).idleWait w.idle
    | ok u => exact hopened.useChannel port id w

theorem Sound.turn (h : Sound first s) (w : Turn) : Sound first (s.turn w) := by
  rw [Supervisor.turn]
  split_ifs
  · exact h
  · exact h.finish
  · split
    · have hfreed : Sound first
          (({ s with pair := { s.pair with parked := none } }).act .sawNone) :=
        h.freeing (a := .sawNone) trivial rfl rfl (fun _ => id) (fun _ => Or.inl rfl)
          fun hrequested => Or.inr ⟨hrequested, trivial⟩
      exact (hfreed.setLink _ _ _ _).idleWait w.idle
    · exact (h.setLink _ _ _ _).idleWait w.idle
    · next port hport =>
      rcases hload : s.loadOrCreate w.load with ⟨_ | id, s₁⟩
      · exact ((h.loadOrCreate hload).1.setLink _ _ _ _).idleWait w.idle
      · obtain ⟨hloaded, hdevice⟩ := h.loadOrCreate hload
        exact hloaded.usePort port (hdevice id rfl) w

theorem sound_boot (port : Option Port) (file : Option Identity) :
    Sound (deviceOf file) (.boot port file) := by
  refine ⟨?_, ?_, rfl, ?_, ?_⟩
  · intro hrequested
    cases hrequested
  · intro p hparked
    exact absurd hparked since_nil
  · intro before since device hacts
    exact absurd hacts.symm (by simp [Supervisor.boot])
  · intro before since p known hacts
    exact absurd hacts.symm (by simp [Supervisor.boot])

theorem sound_run (port : Option Port) (file : Option Identity) (turns : List Turn) :
    Sound (deviceOf file) ((Supervisor.boot port file).run turns) :=
  List.foldlRecOn turns Supervisor.turn (sound_boot port file) fun _ h w _ => h.turn w

/-- A port is opened for the display that is stored then, or for a `pair_start` that waits; what
is stored was found at the start, or written after a handshake with it. -/
theorem opened_with_consent {port : Option Port} {file : Option Identity} {turns : List Turn}
    {before since : List Act} {p : Port} {known : Option Rust.Identity}
    (h : ((Supervisor.boot port file).run turns).acts = before ++ .opened p known :: since) :
    known = before.foldl stored (deviceOf file) ∧ (known.isSome ∨ Asked before) ∧
      OnlyMet ((Supervisor.boot port file).run turns).acts := by
  have hsound := sound_run port file turns
  have hconsented := hsound.opened before since p known h
  exact ⟨hconsented.asStored, hconsented.consent, hsound.met⟩

/-- A look at one port, with an attempt that ends so. -/
def look (idle : Option ControlIpc.Request) (handshake : Except LinkError Rust.Identity) : Turn :=
  let disk : Disk := { reads := true, create := .ok (Octets.zero 16, .done), save := .done }
  { candidates := [[47, 100]], present := fun _ => true, load := disk
    idle := idle.map fun command => (command, disk), opening := .ok ()
    attempt := [.progress .opened, .poll false [.status]]
    handshake, save := .done, service := [], broken := .error (.io []), forgetting := disk }

/-- A display is paired, its link breaks, and it is connected again. -/
def reunion : List Turn :=
  [look (some (.pairStart none)) (.error .cancelled), look none (.ok (Octets.zero 16)),
    look none (.error .cancelled)]

theorem opened_with_consent_again :
    some (Octets.zero 16) = [Act.wrote none, .asked, .opened [47, 100] none, .met (Octets.zero 16),
      .wrote (some (Octets.zero 16)), .connected (Octets.zero 16), .broke [47, 100] (.io [])].foldl
        stored none ∧
      ((some (Octets.zero 16)).isSome ∨ Asked [.wrote none, .asked, .opened [47, 100] none,
        .met (Octets.zero 16), .wrote (some (Octets.zero 16)), .connected (Octets.zero 16),
        .broke [47, 100] (.io [])]) ∧
      OnlyMet ((Supervisor.boot none none).run reunion).acts := by
  have hacts : ((Supervisor.boot none none).run reunion).acts = [.wrote none, .asked,
      .opened [47, 100] none, .met (Octets.zero 16), .wrote (some (Octets.zero 16)),
      .connected (Octets.zero 16), .broke [47, 100] (.io [])] ++
        .opened [47, 100] (some (Octets.zero 16)) :: [.failed [47, 100] .cancelled] := by
    decide +kernel
  exact opened_with_consent hacts

/-- A port whose display refused, did not answer in time or was unpaired is not opened before it
is freed: each opening resets the board. -/
theorem parked_left_alone {port : Option Port} {file : Option Identity} {turns : List Turn}
    {before since : List Act} {p : Port} {known : Option Rust.Identity}
    (h : ((Supervisor.boot port file).run turns).acts = before ++ .opened p known :: since) :
    ¬Parked p before :=
  ((sound_run port file turns).opened before since p known h).unparked

/-- A display that refuses, the wait after its next look, and its second refusal. -/
def refusals : List Turn :=
  let refused := look (some (.pairStart none)) (.error (.refused .declined))
  [refused, refused, refused, refused]

theorem parked_left_alone_again : ¬Parked [47, 100] [.wrote none, .asked, .opened [47, 100] none,
    .failed [47, 100] (.refused .declined), .asked] := by
  have hacts : ((Supervisor.boot none none).run refusals).acts = [.wrote none, .asked,
      .opened [47, 100] none, .failed [47, 100] (.refused .declined), .asked] ++
        .opened [47, 100] none :: [.failed [47, 100] (.refused .declined)] := by
    decide +kernel
  exact parked_left_alone hacts

end CydMonitor.Daemon
