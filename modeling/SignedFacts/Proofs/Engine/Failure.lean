import SignedFacts.Proofs.Engine.Calls
import SignedFacts.Proofs.Peer.Registry

/-!
# Rounds that fail

A round fails when it receives no documents (`pull_eq_error_iff`): its URL is blank,
or its fetch fails, takes too long, or brings something that cannot be cut into
documents or into too many.  Whatever the reason, nothing is merged and no time
passes.  What is left of the round is one fetch more and a note with its peer, and
after a blank URL not even that (`failure_confined`).
-/

namespace SignedFacts.Engine

section Failure

variable {engine : Engine} {url : String} {error : RoundError}

theorem received_of_blank (blank : Text.trim url = "") :
    engine.received url = .error (.invalidUrl url) := by
  rw [received, if_pos (String.isEmpty_iff.2 blank)]

/-- A round fails with the reason for which it receives no documents. -/
theorem pull_eq_error_iff (usable : engine.storeFault = none) :
    (engine.pull url).1 = .error error ↔ engine.received url = .error error := by
  cases arrived : engine.received url with
  | ok documents => simp [pull_of_received usable arrived]
  | error cause =>
      by_cases blank : Text.trim url = ""
      · rw [received_of_blank blank] at arrived
        cases arrived
        simp [pull_of_blank blank]
      · simp [(pull_of_missing blank arrived).2]

/-- A failed round leaves the store and the clock alone.  After a blank URL the peers and
the transport are as before, too.  Otherwise there was one fetch, from the peer, and
only the entry of this peer changes, which counts and keeps the failure and remembers the last
completed round. -/
theorem failure_confined (usable : engine.storeFault = none)
    (failed : (engine.pull url).1 = .error error) :
    let peer := Text.trim url
    let after := (engine.pull url).2
    let before := (engine.peers.peer? peer).getD (.fresh peer)
    after.store = engine.store ∧ after.clock = engine.clock
      ∧ ((peer = "" ∧ error = .invalidUrl url ∧ after.peers = engine.peers
          ∧ after.transport = engine.transport)
        ∨ (peer ≠ "" ∧ (∀ text, error ≠ .invalidUrl text)
          ∧ after.transport.answers = engine.transport.answers
          ∧ (∀ other, after.transport.fetchCount other
            = engine.transport.fetchCount other + if other = peer then 1 else 0)
          ∧ (∀ other, other ≠ peer → after.peers.peer? other = engine.peers.peer? other)
          ∧ after.peers.peer? peer = some
            { url := before.url
              lastSyncAt := before.lastSyncAt
              failures := min (before.failures + 1) 4294967295
              state := .unreachable
              lastError := some error.message })) := by
  have missing := (pull_eq_error_iff usable).1 failed
  by_cases blank : Text.trim url = ""
  · rw [received_of_blank blank] at missing
    cases missing
    rw [pull_of_blank blank]
    exact ⟨rfl, rfl, .inl ⟨blank, rfl, rfl, rfl⟩⟩
  · obtain ⟨fault, pulled⟩ := pull_of_missing blank missing
    rw [pulled]
    refine ⟨rfl, rfl, .inr ⟨blank, ?_, rfl, fun other => Transport.fetchCount_count,
      fun other apart => ?_, ?_⟩⟩
    · rintro text rfl
      cases fault
    · exact Registry.peer?_recordFailure_register.trans (if_neg apart)
    · exact Registry.peer?_recordFailure_register.trans (if_pos rfl)

end Failure

/-! ## A peer that keeps failing -/

/-- An engine that has seen a peer fail as often as can be counted, and that gets half a
list from this peer. -/
def tired : Engine :=
  { Engine.new {} with
    peers := Table.empty.insert "u"
      ⟨"u", some 3, 4294967295, .unreachable, some "fetch timed out after 10000 ms"⟩
    transport := Transport.empty.respond "u" (.delayed 5 (.body (Utf8.encode "[1,"))) }

theorem failure_confined_tired :
    (tired.pull " u ").2.store = tired.store
      ∧ (tired.pull " u ").2.peers.peer? "u"
        = some ⟨"u", some 3, 4294967295, .unreachable,
          some "malformed response: EOF while parsing a value"⟩ := by
  have failed : (tired.pull " u ").1
      = .error (.malformedResponse (.reading .endInValue)) := rfl
  obtain ⟨store, _, ⟨blank, _⟩ | ⟨_, _, _, _, _, entry⟩⟩ := failure_confined rfl failed
  · exact absurd blank (by decide)
  · exact ⟨store, entry⟩

end SignedFacts.Engine
