import CydMonitor.Observation.Ledger
import CydMonitor.Observation.Seam

/-!
# What a call of the runner can touch

Seen through the books and the few fields of the runner that decide its calls, most of its
functions only read the clock. The rest is said call by call, as what must hold before for
a postcondition to hold after.
-/

namespace CydMonitor.Observation

open RadioRunner

namespace World

variable {δ : Type}

def core (w : World δ) : Core := w.runner.core

/-- The world differs in clock readings and in nothing else that the calls depend on. -/
def Quiet (w w' : World δ) : Prop :=
  w'.core = w.core ∧
    ∃ rs, w.ledger.readings <+: rs ∧ w'.ledger = { w.ledger with readings := rs }

instance : Std.Refl (Quiet (δ := δ)) where
  refl _ := ⟨rfl, _, List.prefix_rfl, rfl⟩

instance : IsTrans (World δ) Quiet where
  trans _ _ _ := by
    rintro ⟨hcore, rs, hprefix, hledger⟩ ⟨hcore', rs', hprefix', hledger'⟩
    refine ⟨hcore'.trans hcore, rs', ?_, ?_⟩
    · rw [hledger] at hprefix'
      exact hprefix.trans hprefix'
    · rw [hledger', hledger]

end World

open Prog World

section Quiet

variable {δ : Type} {α : Type}

theorem quiet_call {f : StateM δ α} {note : α → Event}
    (h : ∀ a l, Ledger.note l (note a) = l) : Within Quiet (call f note) := by
  refine fun w => ⟨rfl, w.ledger.readings, List.prefix_rfl, ?_⟩
  exact (Ledger.of_append ..).trans (h _ _)

private theorem quiet_update {f : RadioRunner → RadioRunner} (h : ∀ r, (f r).core = r.core) :
    Within Quiet (update f : RadioM δ Unit) :=
  fun w => ⟨h w.runner, w.ledger.readings, List.prefix_rfl, rfl⟩

private theorem quiet_emit {message : RadioMessage} (h : Ledger.ofWindow message = []) :
    Within Quiet (emit message : RadioM δ Unit) :=
  fun w => ⟨rfl, w.ledger.readings, List.prefix_rfl,
    (Ledger.of_append ..).trans (Ledger.note_emit _ h)⟩

theorem quiet_noteFault (radio : Radio) (result : DriverResult) :
    Within Quiet (noteFault radio result : RadioM δ Unit) :=
  within_noteFault inferInstance inferInstance (fun _ h => quiet_update fun r => (h r).1)
    (fun _ => quiet_emit rfl) radio result

theorem quiet_clearFault (radio : Radio) : Within Quiet (clearFault radio : RadioM δ Unit) :=
  within_clearFault inferInstance inferInstance (fun _ h => quiet_update fun r => (h r).1)
    (fun _ => quiet_emit rfl) radio

theorem quiet_countClean (radio : Radio) (faulted : Bool) (report : WindowReport) :
    Within Quiet (countClean radio faulted report : RadioM δ Unit) :=
  within_countClean inferInstance inferInstance (fun _ h => quiet_update fun r => (h r).1)
    quiet_clearFault radio faulted report

theorem quiet (d : RadioDriver δ) : Steady d Quiet where
  refl := inferInstance
  trans := inferInstance
  adjust _ h := quiet_update fun r => (h r).1
  clearDisabled := within_clearDisabled inferInstance inferInstance quiet_clearFault
  emitConfig := Within.bind (within_read inferInstance) fun _ => quiet_emit rfl
  nowUs w :=
    ⟨rfl, w.ledger.readings ++ [(d.nowUs w.driver).1], List.prefix_append ..,
      (Ledger.of_append ..).trans (Ledger.note_nowUs ..)⟩
  poll := quiet_call fun _ l => Ledger.note_poll l _
  waitUntilUs _ := quiet_call fun _ l => Ledger.note_waitUntilUs l _ _
  yield := quiet_call fun _ l => Ledger.note_yield l

end Quiet

section Meets

variable {δ : Type} {α β : Type}

/-- From these books and these fields the program ends with `Q`, whatever the driver. -/
def Meets (c : RadioM δ α) (Q : α → Ledger → Core → Prop) (l : Ledger) (k : Core) : Prop :=
  Triple (fun w => w.ledger = l ∧ w.core = k) c fun a w => Q a w.ledger w.core

variable {l : Ledger} {k : Core}

theorem Meets.pure {Q : α → Ledger → Core → Prop} {a : α} (h : Q a l k) :
    Meets (Pure.pure a : RadioM δ α) Q l k := by
  rintro w ⟨rfl, rfl⟩
  exact h

theorem Meets.bind {c : RadioM δ α} {f : α → RadioM δ β} {Q : β → Ledger → Core → Prop}
    (h : Meets c (fun a l k => Meets (f a) Q l k) l k) : Meets (c >>= f) Q l k :=
  Triple.bind h fun _ w hw => hw w ⟨rfl, rfl⟩

theorem Meets.mono {c : RadioM δ α} {Q Q' : α → Ledger → Core → Prop} (h : Meets c Q l k)
    (hQ : ∀ a l k, Q a l k → Q' a l k) : Meets c Q' l k :=
  Triple.conseq h (fun _ hw => hw) fun a w => hQ a w.ledger w.core

theorem Meets.ite {p : Prop} [Decidable p] {c c' : RadioM δ α} {Q : α → Ledger → Core → Prop}
    (h : p → Meets c Q l k) (h' : ¬ p → Meets c' Q l k) : Meets (if p then c else c') Q l k :=
  Triple.ite h h'

theorem Meets.read {Q : RadioRunner → Ledger → Core → Prop} (h : ∀ r, r.core = k → Q r l k) :
    Meets (read : RadioM δ RadioRunner) Q l k := by
  rintro w ⟨rfl, rfl⟩
  exact h w.runner rfl

theorem Meets.update {f : RadioRunner → RadioRunner} {Q : Unit → Ledger → Core → Prop}
    (g : Core → Core) (hf : ∀ r, (f r).core = g r.core) (h : Q () l (g k)) :
    Meets (update f : RadioM δ Unit) Q l k := by
  rintro w ⟨rfl, rfl⟩
  show Q () w.ledger (f w.runner).core
  rwa [hf]

theorem Meets.call {f : StateM δ α} {note : α → Event} {Q : α → Ledger → Core → Prop}
    (h : ∀ a, Q a (l.note (note a)) k) : Meets (call f note) Q l k := by
  rintro w ⟨rfl, rfl⟩
  show Q _ (Ledger.of (w.calls ++ [note _])) w.core
  rw [Ledger.of_append]
  exact h _

theorem Meets.emit {message : RadioMessage} {Q : Unit → Ledger → Core → Prop}
    (h : Q () (l.note (.emit message)) k) : Meets (emit message : RadioM δ Unit) Q l k := by
  rintro w ⟨rfl, rfl⟩
  show Q () (Ledger.of (w.calls ++ [.emit message])) w.core
  rwa [Ledger.of_append]

/-- After a quiet program only clock readings have been added. -/
theorem Meets.quiet {c : RadioM δ α} {Q : α → Ledger → Core → Prop} (hc : Within Quiet c)
    (h : ∀ a rs, l.readings <+: rs → Q a { l with readings := rs } k) : Meets c Q l k := by
  rintro w ⟨rfl, rfl⟩
  obtain ⟨hcore, rs, hprefix, hledger⟩ := hc w
  show Q _ (c w).2.ledger (c w).2.core
  rw [hcore, hledger]
  exact h _ rs hprefix

variable (d : RadioDriver δ)

theorem meets_nowUs {Q : UInt64 → Ledger → Core → Prop}
    (h : ∀ us, Q us { l with readings := l.readings ++ [us] } k) : Meets (nowUs d) Q l k := by
  refine Meets.call fun us => ?_
  rw [Ledger.note_nowUs]
  exact h us

theorem meets_dropsFirst {Q : Bool → Ledger → Core → Prop} (h : ∀ first, Q first l k) :
    Meets (dropsFirst d) Q l k := by
  rintro w ⟨rfl, rfl⟩
  exact h _

theorem meets_startReceiver {window : Window} {Q : DriverResult → Ledger → Core → Prop}
    (h : ∀ result, Q result (l.note (.start window.radio window.channel result)) k) :
    Meets (startReceiver d window) Q l k := by
  rw [startReceiver]
  cases hradio : window.radio with
  | kWifi => exact Meets.call (hradio ▸ h)
  | kBle => exact Meets.call (hradio ▸ h)

/-- A stop that worked leaves its receiver off. -/
def Core.stopped (k : Core) (radio : Radio) (result : DriverResult) : Core :=
  { k with
    running := if result.ok then Function.update k.running radio false else k.running }

theorem meets_stopReceiver {radio : Radio} {Q : DriverResult → Ledger → Core → Prop}
    (h : ∀ result, Q result (l.note (.stop radio result)) (k.stopped radio result)) :
    Meets (stopReceiver d radio) Q l k := by
  have hissue : Meets (issueStop d radio)
      (fun result l k => Q result l (k.stopped radio result)) l k := by
    cases radio with
    | kWifi => exact Meets.call h
    | kBle => exact Meets.call h
  rw [stopReceiver]
  refine Meets.bind (hissue.mono fun result l k hq => Meets.bind ?_)
  exact Meets.update (fun k => k.stopped radio result) (fun _ => rfl) (Meets.pure hq)

theorem meets_noteStopFailure {radio : Radio} {result : DriverResult}
    {Q : Unit → Ledger → Core → Prop}
    (h : ∀ rs, l.readings <+: rs → Q () { l with readings := rs } { k with stuck := some radio }) :
    Meets (noteStopFailure d radio result) Q l k := by
  have hquiet : Within World.Quiet (do
      let now ← nowUs d
      update fun r =>
        { r with stopRetryAtUs := saturatingAdd now kStopRetryBackoffUs, nextStartUs := none }
      noteFault radio result) :=
    (quiet d).bind (quiet d).nowUs fun now =>
      (quiet d).bind ((quiet d).adjust _ fun _ => ⟨rfl, rfl⟩) fun _ =>
        quiet_noteFault radio result
  rw [noteStopFailure]
  refine Meets.bind (Meets.update (fun k => { k with stuck := some radio }) (fun _ => rfl) ?_)
  exact Meets.quiet hquiet fun _ => h

end Meets

end CydMonitor.Observation
