import CydMonitor.Lib.Mailbox
import CydMonitor.Observation.Messages
import Mathlib.Data.Int.Order.Basic
import Mathlib.Logic.Function.Basic

/-!
# The radio task's end of the queue (`firmware/platform/esp32/radio/radio_task.cpp`)

A full queue never blocks the radio task: what is lost is counted, and made up when there is room.
A pending message and its flag are one option.
-/

namespace CydMonitor.Observation

def kMessageQueueDepth : ℕ := 32
def kOverflowClearSends : UInt32 := 8

structure QueueRadioSink where
  messages : Mailbox RadioMessage := {}
  messageOverflows : UInt32 := 0
  config : Option ConfigAppliedMessage := none
  /-- The fault or the clear that is to be sent again. -/
  fault : Radio → Option RadioMessage := fun _ => none
  lost : Radio → UInt32 := fun _ => 0
  cleanSends : Radio → UInt32 := fun _ => 0
  overflowFault : Radio → Bool := fun _ => false
  runnerFault : Radio → Option FaultMessage := fun _ => none

namespace QueueRadioSink

def send (message : RadioMessage) (s : QueueRadioSink) : Bool × QueueRadioSink :=
  ((s.messages.send kMessageQueueDepth message).1,
    { s with messages := (s.messages.send kMessageQueueDepth message).2 })

def observe (message : RadioMessage) (s : QueueRadioSink) : QueueRadioSink :=
  match message with
  | .fault fault =>
    { s with
      runnerFault := Function.update s.runnerFault fault.radio (some fault)
      overflowFault := Function.update s.overflowFault fault.radio false }
  | .faultCleared radio =>
    { s with
      runnerFault := Function.update s.runnerFault radio none
      overflowFault := Function.update s.overflowFault radio false }
  | _ => s

/-- A window message that did not go through. -/
def lose (radio : Radio) (s : QueueRadioSink) : QueueRadioSink :=
  { s with
    lost := Function.update s.lost radio (s.lost radio + 1)
    cleanSends := Function.update s.cleanSends radio 0 }

def drop (message : RadioMessage) (s : QueueRadioSink) : QueueRadioSink :=
  let s := { s with messageOverflows := s.messageOverflows + 1 }
  match message with
  | .configApplied config => { s with config := some config }
  | .fault fault => { s with fault := Function.update s.fault fault.radio (some message) }
  | .faultCleared radio => { s with fault := Function.update s.fault radio (some message) }
  | .windowStarted started => s.lose started.radio
  | .windowReport report => s.lose report.window.radio

/-- A part of `Flush`: may the next one follow? -/
abbrev Stage := QueueRadioSink → Bool × QueueRadioSink

def flushConfig : Stage := fun s =>
  match s.config with
  | none => (true, s)
  | some config =>
    match s.send (.configApplied config) with
    | (false, s) => (false, s)
    | (true, s) => (true, { s with config := none })

def flushFault (radio : Radio) : Stage := fun s =>
  match s.fault radio with
  | none => (true, s)
  | some message =>
    match s.send message with
    | (false, s) => (false, s)
    | (true, s) => (true, { s with fault := Function.update s.fault radio none })

def kInt32Max : UInt32 := 2147483647

/-- The report-overflow fault that names the lost messages. -/
def overflow (radio : Radio) (lost : UInt32) : RadioMessage :=
  .fault ⟨radio, .kReportQueueOverflow, (min lost kInt32Max).toInt32⟩

def flushLost (radio : Radio) : Stage := fun s =>
  if s.lost radio = 0 then (true, s)
  else
    match s.send (overflow radio (s.lost radio)) with
    | (false, s) => (false, s)
    | (true, s) =>
      (true,
        { s with
          lost := Function.update s.lost radio 0
          cleanSends := Function.update s.cleanSends radio 0
          overflowFault := Function.update s.overflowFault radio true })

/-- What the runner last said about a radio. -/
def restored (radio : Radio) (s : QueueRadioSink) : RadioMessage :=
  (s.runnerFault radio).elim (.faultCleared radio) .fault

def withdraw (radio : Radio) : Stage := fun s =>
  if !s.overflowFault radio || s.cleanSends radio < kOverflowClearSends then (true, s)
  else
    match s.send (s.restored radio) with
    | (false, s) => (false, s)
    | (true, s) => (true, { s with overflowFault := Function.update s.overflowFault radio false })

def through : List Stage → QueueRadioSink → QueueRadioSink
  | [], s => s
  | stage :: rest, s =>
    match stage s with
    | (false, s) => s
    | (true, s) => through rest s

def flush : QueueRadioSink → QueueRadioSink :=
  through [flushConfig, flushFault .kWifi, flushFault .kBle, flushLost .kWifi, flushLost .kBle,
    withdraw .kWifi, withdraw .kBle]

/-- A message that went through. -/
def noteSent (message : RadioMessage) (s : QueueRadioSink) : QueueRadioSink :=
  match message with
  | .windowReport report =>
    { s with
      cleanSends :=
        Function.update s.cleanSends report.window.radio (s.cleanSends report.window.radio + 1) }
  | _ => s

def emit (message : RadioMessage) (s : QueueRadioSink) : QueueRadioSink :=
  match (flush (s.observe message)).send message with
  | (true, s) => s.noteSent message
  | (false, s) => s.drop message

end QueueRadioSink

/-- What the radio task and the app loop do with the queue. The app loop also receives between
two sends of the radio task. -/
inductive SinkEvent where
  | emit (message : RadioMessage)
  | flush
  | receive (n : ℕ)

namespace SinkEvent

def apply (s : QueueRadioSink) : SinkEvent → QueueRadioSink
  | .emit message => s.emit message
  | .flush => s.flush
  | .receive n => { s with messages := s.messages.receive n }

def emitted : SinkEvent → Option RadioMessage
  | .emit message => some message
  | _ => none

end SinkEvent

/-- The sink after a run in which the app loop takes so many messages before each send. -/
def sinkRun (takes : List ℕ) (events : List SinkEvent) : QueueRadioSink :=
  events.foldl SinkEvent.apply { messages := { takes } }

/-- What the runner said in a run. -/
def said (events : List SinkEvent) : List RadioMessage := events.filterMap SinkEvent.emitted

end CydMonitor.Observation
