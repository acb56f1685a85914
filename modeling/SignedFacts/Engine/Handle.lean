import SignedFacts.Engine.Basic

/-!
# Handles

A handle gives access to an engine until it is freed.  A freed handle answers
every call with the same error.  A round that was begun before ends all the same.
-/

namespace SignedFacts

/-- Access to an engine. -/
structure Handle where
  /-- The engine. -/
  engine : Engine
  /-- Whether the handle has not been freed. -/
  isLive : Bool

namespace Handle

/-- A live handle on a new engine. -/
def new (settings : Settings) : Handle := ⟨.new settings, true⟩

/-- The engine of a live handle. -/
def engine? (handle : Handle) : Except EngineError Engine :=
  if handle.isLive then .ok handle.engine else .error .invalidHandle

/-- Frees a handle, and tells whether it was live. -/
def free (handle : Handle) : Bool × Handle := (handle.isLive, { handle with isLive := false })

/-- Asks the engine of a live handle. -/
def ask {α : Type} (query : Engine → Except EngineError α) (handle : Handle) :
    Except EngineError α :=
  handle.engine?.bind query

/-- Lets the engine of a live handle do something. -/
def run {α : Type} (step : Engine → Except EngineError α × Engine) (handle : Handle) :
    Except EngineError α × Handle :=
  match handle.engine? with
  | .error error => (.error error, handle)
  | .ok engine =>
      let (result, engine) := step engine
      (result, { handle with engine := engine })

/-- One round with a peer. -/
def pull (url : String) (handle : Handle) : Except EngineError Summary × Handle :=
  handle.run fun engine =>
    let (result, engine) := engine.pull url
    (result.mapError .sync, engine)

/-- The peers with which a round has come to an end. -/
def peerCount (handle : Handle) : Except EngineError Nat :=
  handle.ask fun engine => .ok engine.peerCount

/-- A round that is begun before the handle is freed and ends after. -/
def pullFreeing (url : String) (handle : Handle) :
    Bool × Except EngineError Summary × Handle :=
  match handle.engine? with
  | .error error =>
      let (freed, handle) := handle.free
      (freed, .error error, handle)
  | .ok engine =>
      let (begun, engine) := engine.begin url
      let (freed, handle) := ({ handle with engine := engine } : Handle).free
      match begun with
      | .error error => (freed, .error (.sync error), handle)
      | .ok pending =>
          let (result, engine) := handle.engine.finish pending
          (freed, result.mapError .sync, { handle with engine := engine })

end Handle

end SignedFacts
