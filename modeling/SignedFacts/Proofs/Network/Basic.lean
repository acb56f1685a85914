import Mathlib.Logic.Function.Basic
import SignedFacts.Proofs.Engine.Exchange

/-!
# Networks of engines

Engines pass their records on.  What an engine serves at some moment is captured as
a message, and from then on the message may reach any engine, at any time and any
number of times.  In between documents are handed in.

A run is a list of events.  `AllowsAll` says what is asked of them: the documents
have no reserved keys, and the messages that are delivered keep the limits of the
engine that receives them.
-/

namespace SignedFacts

universe u

/-- Some engines and the messages captured so far. -/
structure Network (ι : Type u) where
  /-- The engines. -/
  engines : ι → Engine
  /-- The messages, in the order in which they were captured. -/
  messages : List (List UInt8)

/-- What may happen in a network. -/
inductive Event (ι : Type u) where
  /-- A document is handed in at a place. -/
  | ingest (place : ι) (document : List UInt8)
  /-- What the engine at a place serves is captured. -/
  | capture (place : ι)
  /-- The message with this number answers a round of the engine at a place. -/
  | deliver (message : Nat) (place : ι) (url : String)

namespace Network

variable {ι : Type u}

/-- The store of the engine at a place. -/
def store (place : ι) (network : Network ι) : Store := (network.engines place).store

/-- New engines and no messages. -/
def start (settings : ι → Settings) : Network ι := ⟨fun place => .new (settings place), []⟩

/-- What is asked of an event. -/
def Allows (event : Event ι) (network : Network ι) : Prop :=
  match event with
  | .ingest _ document => Record.WithoutReserved document
  | .capture _ => True
  | .deliver message place url =>
      ∃ body, network.messages[message]? = some body ∧ (network.engines place).Allows url body

variable [DecidableEq ι]

/-- Changes the engine at a place. -/
def change (place : ι) (action : Engine → Engine) (network : Network ι) : Network ι :=
  { network with
    engines := Function.update network.engines place (action (network.engines place)) }

theorem engines_change {place : ι} {action : Engine → Engine} {network : Network ι} :
    (network.change place action).engines place = action (network.engines place) :=
  Function.update_self ..

theorem engines_change_of_ne {place other : ι} {action : Engine → Engine} {network : Network ι}
    (apart : other ≠ place) : (network.change place action).engines other = network.engines other :=
  Function.update_of_ne apart ..

/-- The network after an event. -/
def step (event : Event ι) (network : Network ι) : Network ι :=
  match event with
  | .ingest place document => network.change place (·.perform (.ingest document))
  | .capture place =>
      { network with
        messages := network.messages ++ [Utf8.octets (network.engines place).exportRecords] }
  | .deliver message place url =>
      match network.messages[message]? with
      | some body => network.change place (·.receive url body)
      | none => network

/-- The network after some events. -/
def run : List (Event ι) → Network ι → Network ι
  | [], network => network
  | event :: events, network => run events (network.step event)

/-- What is asked of the events of a run. -/
def AllowsAll : List (Event ι) → Network ι → Prop
  | [], _ => True
  | event :: events, network => network.Allows event ∧ AllowsAll events (network.step event)

theorem run_append (before after : List (Event ι)) (network : Network ι) :
    network.run (before ++ after) = (network.run before).run after := by
  induction before generalizing network with
  | nil => rfl
  | cons event before induction => exact induction (network.step event)

theorem allowsAll_append {before after : List (Event ι)} {network : Network ι} :
    network.AllowsAll (before ++ after)
      ↔ network.AllowsAll before ∧ (network.run before).AllowsAll after := by
  induction before generalizing network with
  | nil => exact (iff_of_eq (true_and _)).symm
  | cons event before induction =>
      rw [List.cons_append, AllowsAll, AllowsAll, induction, and_assoc, run]

/-! ## Inserting and informing -/

/-- A document handed in at a place during a run is inserted there under an id. -/
def InsertedAt (place : ι) (events : List (Event ι)) (network : Network ι) (id : RecordId) : Prop :=
  ∃ before document after, events = before ++ .ingest place document :: after
    ∧ (((network.run before).engines place).ingest document).1 = .ok ⟨id, .inserted⟩

/-- After the last document was handed in at one place, a message was captured there
that has been delivered to another place. -/
def Informs (place other : ι) (events : List (Event ι)) (network : Network ι) : Prop :=
  ∃ before after url, events = before ++ .capture place :: after
    ∧ (∀ document, .ingest place document ∉ after)
    ∧ .deliver (network.run before).messages.length other url ∈ after

end Network

end SignedFacts
