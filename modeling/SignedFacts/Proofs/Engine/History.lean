import Mathlib.Data.Finset.Card
import SignedFacts.Proofs.Engine.Failure

/-!
# What is remembered of rounds

An engine with a scripted transport is asked for things one after the other.  Documents
are handed in, answers are written down, and rounds are asked for.  A round is over when
the request is, and all that can be seen of it is when it completed or why it failed.
`history` lists the rounds in this way, the newest first.

The list of peers is a summary of the history (`registry_summarises`).  What is
remembered of a peer is what the results of the rounds with it come to
(`Peer.ofResults`), and neither other rounds nor anything else has a part in it.  The
invariant is `Remembers`, and one request keeps it (`Remembers.serve`).
-/

namespace SignedFacts

/-! ## What results come to -/

/-- What is to be remembered of a peer after rounds with these results, the newest first.
A completed round is given by its time. -/
def Peer.ofResults (url : String) (results : List (Except RoundError Nat)) : Peer where
  url := url
  lastSyncAt := results.findSome? Except.toOption
  failures := min (results.takeWhile fun result => !result.isOk).length Peer.maxFailures
  state :=
    match results with
    | [] => .unknown
    | .ok _ :: _ => .reachable
    | .error _ :: _ => .unreachable
  lastError :=
    match results with
    | .error error :: _ => some error.message
    | _ => none

namespace Peer

variable {url : String} {results : List (Except RoundError Nat)}

theorem ofResults_ok {time : Nat} :
    ofResults url (.ok time :: results) = (ofResults url results).succeed time := rfl

theorem ofResults_error {error : RoundError} :
    ofResults url (.error error :: results) = (ofResults url results).fail error.message := by
  -- Once the largest number is reached, one failure more makes no difference.
  have failures (count : Nat) :
      min (count + 1) maxFailures = min (min count maxFailures + 1) maxFailures := by omega
  have longer : (.error error :: results).takeWhile (fun result => !result.isOk)
      = .error error :: results.takeWhile fun result => !result.isOk := rfl
  rw [ofResults, longer, List.length_cons, failures]
  rfl

theorem state_ofResults (some : results ≠ []) : (ofResults url results).state ≠ .unknown := by
  cases results with
  | nil => exact absurd rfl some
  | cons result _ => cases result <;> nofun

end Peer

namespace Engine

/-! ## Requests -/

/-- What an engine with a scripted transport is asked for. -/
inductive Request where
  /-- A document is handed in. -/
  | ingest (document : List UInt8)
  /-- The answer for a URL is written down. -/
  | respond (url : String) (answer : Answer)
  /-- A round is asked for. -/
  | pull (url : String)

/-- The peer with which a request asks for a round, if its URL is not blank. -/
def Request.peer? : Request → Option String
  | .pull url => if Text.trim url = "" then none else some (Text.trim url)
  | _ => none

/-- The engine after a request. -/
def serve (request : Request) (engine : Engine) : Engine :=
  match request with
  | .ingest document => (engine.ingest document).2
  | .respond url answer => { engine with transport := engine.transport.respond url answer }
  | .pull url => (engine.pull url).2

/-- The engine after some requests. -/
def serveAll : List Request → Engine → Engine
  | [], engine => engine
  | request :: requests, engine => serveAll requests (engine.serve request)

/-- A round that is over. -/
structure Past where
  /-- The URL of the peer, without blanks around it. -/
  peer : String
  /-- What the clock showed when the round had completed, or why it failed. -/
  result : Except RoundError Nat

/-- The round that a request asks for, seen when it is over. -/
def pastOf (request : Request) (engine : Engine) : List Past :=
  match request with
  | .pull url =>
      if Text.trim url = "" then []
      else
        let (result, after) := engine.pull url
        [⟨Text.trim url, result.map fun _ => after.clock.now⟩]
  | _ => []

/-- The rounds that some requests ask for, the newest first. -/
def history : List Request → Engine → List Past
  | [], _ => []
  | request :: requests, engine => history requests (engine.serve request) ++ engine.pastOf request

/-- The results of the rounds with a peer. -/
def resultsWith (url : String) (past : List Past) : List (Except RoundError Nat) :=
  (past.filter fun round => round.peer = url).map Past.result

section History

variable {engine : Engine} {past : List Past} {url : String}

theorem map_peer_pastOf (request : Request) :
    (engine.pastOf request).map Past.peer = request.peer?.toList := by
  cases request with
  | pull url =>
      rw [pastOf, Request.peer?]
      generalize engine.pull url = pulled
      split <;> rfl
  | _ => rfl

theorem map_peer_history (requests : List Request) :
    (engine.history requests).map Past.peer = (requests.filterMap Request.peer?).reverse := by
  induction requests generalizing engine with
  | nil => rfl
  | cons request requests induction =>
      rw [history, List.map_append, induction, map_peer_pastOf, List.filterMap_cons]
      cases request.peer? <;> simp

/-! ## One request -/

/-- What becomes of a round with a URL that is not blank. -/
theorem pull_cases (usable : engine.storeFault = none) (filled : Text.trim url ≠ "") :
    (∃ error, (engine.pull url).1 = .error error
        ∧ (engine.pull url).2 = { engine with
          peers := (engine.peers.register (Text.trim url)).recordFailure (Text.trim url)
            error.message
          transport := engine.transport.count (Text.trim url) })
      ∨ ∃ summary store time, (engine.pull url).1 = .ok summary
        ∧ (engine.pull url).2 = { engine with
          store := store
          clock := ⟨time⟩
          peers := (engine.peers.register (Text.trim url)).recordSuccess (Text.trim url) time
          transport := engine.transport.count (Text.trim url) } := by
  cases arrived : engine.received url with
  | error error =>
      rw [(pull_of_missing filled arrived).2]
      exact .inl ⟨error, rfl, rfl⟩
  | ok documents =>
      rw [pull_of_received usable arrived]
      exact .inr ⟨_, _, _, rfl, rfl⟩

/-- The list of peers and the counts of fetches are what the rounds so far come to. -/
structure Remembers (past : List Past) (engine : Engine) : Prop where
  usable : engine.storeFault = none
  peers : ∀ url, engine.peers.peer? url
    = if url ∈ past.map Past.peer then some (.ofResults url (resultsWith url past)) else none
  fetches : ∀ url, engine.transport.fetchCount url = (past.map Past.peer).count url

theorem remembers_new (settings : Settings) : Remembers [] (Engine.new settings) :=
  ⟨rfl, fun _ => rfl, fun _ => rfl⟩

/-- A peer with which there was no round is one of which nothing is known. -/
theorem Remembers.getD_peer? (remembers : Remembers past engine) (url : String) :
    (engine.peers.peer? url).getD (.fresh url) = .ofResults url (resultsWith url past) := by
  rw [remembers.peers]
  split
  next => rfl
  next apart =>
    have none : past.filter (fun round => round.peer = url) = [] := by
      rw [List.filter_eq_nil_iff]
      intro round member same
      exact apart (List.mem_map.2 ⟨round, member, of_decide_eq_true same⟩)
    rw [resultsWith, none]
    rfl

theorem resultsWith_cons {round : Past} :
    resultsWith url (round :: past)
      = if round.peer = url then round.result :: resultsWith url past else resultsWith url past := by
  by_cases same : round.peer = url <;> simp [resultsWith, same]

/-- One round more is remembered with its peer and counted there. -/
theorem Remembers.cons (remembers : Remembers past engine) {round : Past} {after : Engine}
    (usable : after.storeFault = none)
    (peers : ∀ other, after.peers.peer? other
      = if other = round.peer
        then some (.ofResults round.peer (round.result :: resultsWith round.peer past))
        else engine.peers.peer? other)
    (transport : after.transport = engine.transport.count round.peer) :
    Remembers (round :: past) after := by
  refine ⟨usable, fun other => ?_, fun other => ?_⟩
  · rw [peers, List.map_cons, resultsWith_cons]
    by_cases same : other = round.peer
    · subst same
      rw [if_pos rfl, if_pos List.mem_cons_self, if_pos rfl]
    · rw [if_neg same, if_neg (Ne.symm same), remembers.peers]
      simp only [List.mem_cons, same, false_or]
  · rw [transport, Transport.fetchCount_count, remembers.fetches, List.map_cons, List.count_cons]
    simp only [beq_iff_eq, @eq_comm _ other]

/-- A request keeps the invariant. -/
theorem Remembers.serve (remembers : Remembers past engine) (request : Request) :
    Remembers (engine.pastOf request ++ past) (engine.serve request) := by
  have ⟨usable, peers, fetches⟩ := remembers
  cases request with
  | ingest document =>
      cases parsed : Record.parse document with
      | error cause =>
          rw [Engine.serve, ingest_error parsed]
          exact ⟨usable, peers, fetches⟩
      | ok record =>
          rw [Engine.serve, ingest_record usable parsed]
          exact ⟨usable, peers, fetches⟩
  | respond url answer => exact ⟨usable, peers, fetches⟩
  | pull url =>
      rw [Engine.serve, pastOf]
      by_cases blank : Text.trim url = ""
      · rw [pull_of_blank blank, if_pos blank]
        exact ⟨usable, peers, fetches⟩
      · rw [if_neg blank]
        obtain ⟨error, failed, after⟩ | ⟨summary, store, time, completed, after⟩ :=
          pull_cases usable blank
        · simp only [failed, after]
          refine remembers.cons usable (fun other => ?_) rfl
          rw [Registry.peer?_recordFailure_register, remembers.getD_peer?, ← Peer.ofResults_error]
          rfl
        · simp only [completed, after]
          refine remembers.cons usable (fun other => ?_) rfl
          rw [Registry.peer?_recordSuccess_register, remembers.getD_peer?, ← Peer.ofResults_ok]
          rfl

theorem Remembers.serveAll (remembers : Remembers past engine) (requests : List Request) :
    Remembers (engine.history requests ++ past) (engine.serveAll requests) := by
  induction requests generalizing engine past with
  | nil => exact remembers
  | cons request requests induction =>
      rw [history, List.append_assoc]
      exact induction (remembers.serve request)

/-! ## The list of peers -/

theorem resultsWith_eq_nil_iff : resultsWith url past = [] ↔ url ∉ past.map Past.peer := by
  simp [resultsWith, List.filter_eq_nil_iff]

theorem resultsWith_append {others : List Past} :
    resultsWith url (others ++ past) = resultsWith url others ++ resultsWith url past := by
  rw [resultsWith, List.filter_append, List.map_append]
  rfl

/-- Every peer is listed under its own URL, and a round with it has come to an end. -/
theorem Remembers.of_peer? (remembers : Remembers past engine) {peer : Peer}
    (listed : engine.peers.peer? url = some peer) :
    url ∈ past.map Past.peer ∧ peer = .ofResults url (resultsWith url past) := by
  rw [remembers.peers] at listed
  split at listed
  next member => exact ⟨member, (Option.some.inj listed).symm⟩
  next => cases listed

theorem Remembers.map_url_all (remembers : Remembers past engine) :
    engine.peers.all.map Peer.url = engine.peers.keys := by
  rw [Registry.all, Table.values, Table.keys, List.map_map]
  refine List.map_congr_left fun entry member => ?_
  have listed : engine.peers.peer? entry.1 = some entry.2 := Table.find?_eq_some_iff.2 member
  rw [Function.comp, (remembers.of_peer? listed).2]
  rfl

theorem Remembers.mem_keys_iff (remembers : Remembers past engine) :
    url ∈ engine.peers.keys ↔ url ∈ past.map Past.peer := by
  have listed : url ∈ engine.peers.keys ↔ ∃ peer, engine.peers.peer? url = some peer := by
    simp [Table.keys, Registry.peer?, Table.find?_eq_some_iff]
  rw [listed, remembers.peers]
  split <;> simp [*]

/-- With every peer in the list a round has come to an end. -/
theorem Remembers.peerCount_eq (remembers : Remembers past engine) :
    engine.peerCount = engine.peers.all.length := by
  rw [peerCount, Registry.knownCount, List.filter_eq_self.2]
  intro peer member
  obtain ⟨entry, inside, rfl⟩ := List.mem_map.1 member
  have listed : engine.peers.peer? entry.1 = some entry.2 := Table.find?_eq_some_iff.2 inside
  obtain ⟨known, same⟩ := remembers.of_peer? listed
  rw [decide_eq_true_iff, same]
  exact Peer.state_ofResults fun none => resultsWith_eq_nil_iff.1 none known

/-- The list of peers is the summary of all rounds so far.  It has one entry for each URL that
was asked for, in order of the URLs, and says of it what the results of the rounds with it
come to.  The fetches are counted by the rounds, too.  A request that names another peer or
none changes nothing of this. -/
theorem registry_summarises (settings : Settings) (requests : List Request) :
    let engine := (Engine.new settings).serveAll requests
    let past := (Engine.new settings).history requests
    let asked := requests.filterMap Request.peer?
    past.map Past.peer = asked.reverse
      ∧ (engine.peers.all.map Peer.url).Pairwise (fun x y => compare x y = .lt)
      ∧ (∀ url, url ∈ engine.peers.all.map Peer.url ↔ url ∈ asked)
      ∧ engine.peerCount = engine.peers.all.length
      ∧ engine.peerCount = asked.toFinset.card
      ∧ (∀ peer, peer ∈ engine.peers.all ↔ engine.peers.peer? peer.url = some peer)
      ∧ (∀ url, engine.peers.peer? url
        = if url ∈ asked then some (.ofResults url (resultsWith url past)) else none)
      ∧ (∀ url, engine.transport.fetchCount url = asked.count url)
      ∧ ∀ request url, request.peer? ≠ some url →
        (engine.serve request).peers.peer? url = engine.peers.peer? url
          ∧ (engine.serve request).transport.fetchCount url = engine.transport.fetchCount url := by
  intro engine past asked
  have remembers : Remembers past engine := by
    have run := (remembers_new settings).serveAll requests
    rwa [List.append_nil] at run
  have named : past.map Past.peer = asked.reverse := map_peer_history requests
  have known (url : String) : url ∈ past.map Past.peer ↔ url ∈ asked := by
    rw [named, List.mem_reverse]
  have ascending := Sorted.ascending_iff_keys.1 engine.peers.ascending
  refine ⟨named, ?_, fun url => ?_, remembers.peerCount_eq, ?_, fun peer => ?_, fun url => ?_,
    fun url => ?_, fun request url other => ?_⟩
  · rw [remembers.map_url_all]
    exact ascending
  · rw [remembers.map_url_all, remembers.mem_keys_iff, known]
  · have same : engine.peers.keys.toFinset = asked.toFinset := by
      ext url
      rw [List.mem_toFinset, List.mem_toFinset, remembers.mem_keys_iff, known]
    have distinct : engine.peers.keys.Nodup := Sorted.nodup_of_ascending engine.peers.ascending
    rw [remembers.peerCount_eq, ← List.length_map Peer.url, remembers.map_url_all, ← same,
      List.toFinset_card_of_nodup distinct]
  · constructor
    · intro member
      obtain ⟨entry, inside, rfl⟩ := List.mem_map.1 member
      have listed : engine.peers.peer? entry.1 = some entry.2 := Table.find?_eq_some_iff.2 inside
      rwa [show entry.2.url = entry.1 by rw [(remembers.of_peer? listed).2]; rfl]
    · intro listed
      exact List.mem_map.2 ⟨_, Table.find?_eq_some_iff.1 listed, rfl⟩
  · simp only [remembers.peers, known]
  · rw [remembers.fetches, named, List.count_reverse]
  · -- What the request adds to the history has another peer.
    have apart : url ∉ (engine.pastOf request).map Past.peer := by
      rw [map_peer_pastOf, Option.mem_toList]
      exact other
    have after := remembers.serve request
    rw [after.peers, remembers.peers, after.fetches, remembers.fetches, resultsWith_append,
      resultsWith_eq_nil_iff.2 apart, List.nil_append, List.map_append, List.count_append,
      List.count_eq_zero.2 apart, Nat.zero_add]
    simp only [List.mem_append, apart, false_or, and_self]

end History

/-! ## A peer that fails, answers and fails again -/

/-- Two rounds fail, one completes and one more fails, all with one peer, whose URL is
spelled in three ways.  One round names another peer, and one names none. -/
def varied : List Request :=
  [.pull " u", .pull "v", .pull "u", .respond "u" (.body (Utf8.encode "[]")), .pull "u ",
    .pull "\t", .respond "u" (.fail .timedOut), .pull " u "]

theorem registry_summarises_varied :
    let engine := (Engine.new {}).serveAll varied
    engine.peers.peer? "u"
        = some ⟨"u", some 1, 1, .unreachable, some "transport error: transport timed out"⟩
      ∧ engine.transport.fetchCount "u" = 4 ∧ engine.peerCount = 2 := by
  obtain ⟨_, _, _, _, count, _, entries, fetches, _⟩ := registry_summarises {} varied
  exact ⟨entries "u", fetches "u", count⟩

end Engine

end SignedFacts
