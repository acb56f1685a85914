import Mathlib.Algebra.Group.Nat.Defs
import Mathlib.Data.List.Induction
import SignedFacts.Engine.Tokens

/-!
# Tokens stand for their own engines

Callers make engines, free them and make requests on tokens, in any order and also on
tokens that were never given out.  What a request does is decided by the engine behind
its token (`perform_on_congr`), and it leaves the engines behind other tokens alone
(`find?_perform_on_of_ne`).  A token stands for an engine from when it is given out to
when it is freed (`isSome_find?_run_iff`), as long as the tokens do not run out.  So an
engine answers as if it were the only one (`run_requests`).
-/

namespace SignedFacts

/-! ## One handle -/

theorem RoundError.status_kind_ne (cause : RoundError) :
    cause.kind.status ≠ ErrorKind.invalidHandle.status := by
  cases cause with
  | fetch reason => cases reason <;> simp [kind, ErrorKind.status]
  | _ => simp [kind, ErrorKind.status]

namespace Handle

variable {handle : Handle} {url : String}

theorem isLive_pull : (handle.pull url).2.isLive = handle.isLive := by
  rw [pull, run]
  split <;> rfl

/-- A round that fails on a live handle fails for another reason than the handle. -/
theorem status_ne_of_pull {error : EngineError} (live : handle.isLive = true)
    (failed : (handle.pull url).1 = .error error) :
    error.status ≠ ErrorKind.invalidHandle.status := by
  have result : (handle.pull url).1 = (handle.engine.pull url).1.mapError .sync := by
    rw [pull, run, engine?, if_pos live]
  rw [result] at failed
  cases round : (handle.engine.pull url).1 with
  | ok summary => simp [round, Except.mapError] at failed
  | error cause =>
      obtain rfl : EngineError.sync cause = error := by simpa [round, Except.mapError] using failed
      exact cause.status_kind_ne

end Handle

namespace Tokens

variable {tokens others : Tokens} {token other : UInt64}

/-! ## Calls -/

/-- What is asked of the engine behind a token. -/
inductive Request where
  /-- To go. -/
  | free
  /-- A round with the peer at a URL, where the network does what is given. -/
  | sync (answer : String → Answer) (url : Option (List UInt8))
  /-- The number of its peers. -/
  | peerCount

/-- A call from outside. -/
inductive Call where
  /-- Makes an engine. -/
  | init (settings : Settings)
  /-- Makes a request on a token, whatever the token. -/
  | on (token : UInt64) (request : Request)

/-- What a call is answered. -/
inductive Reply where
  /-- The token of a new engine. -/
  | token (token : UInt64)
  /-- Nothing. -/
  | done
  /-- A number or a status. -/
  | number (number : Int)

/-- What a call does. -/
def perform : Call → Tokens → Reply × Tokens
  | .init settings, tokens => (.token (tokens.init settings).1, (tokens.init settings).2)
  | .on token .free, tokens => (.done, tokens.free token)
  | .on token (.sync answer url), tokens =>
      (.number (tokens.sync answer token url).1, (tokens.sync answer token url).2)
  | .on token .peerCount, tokens => (.number (tokens.peerCount token), tokens)

/-- What some calls do. -/
def run : List Call → Tokens → List Reply × Tokens
  | [], tokens => ([], tokens)
  | call :: calls, tokens =>
      let (reply, tokens) := tokens.perform call
      let (replies, tokens) := run calls tokens
      (reply :: replies, tokens)

theorem run_append {first second : List Call} :
    tokens.run (first ++ second)
      = ((tokens.run first).1 ++ ((tokens.run first).2.run second).1,
        ((tokens.run first).2.run second).2) := by
  induction first generalizing tokens with
  | nil => rfl
  | cons call first induction => simp only [List.cons_append, run, induction]

theorem run_concat {calls : List Call} {call : Call} :
    tokens.run (calls ++ [call])
      = ((tokens.run calls).1 ++ [((tokens.run calls).2.perform call).1],
        ((tokens.run calls).2.perform call).2) :=
  run_append

/-! ## One engine -/

theorem find?_init {settings : Settings} :
    (tokens.init settings).2.find? token
      = if token = tokens.next ∧ token ≠ 0 then some (.new settings) else tokens.find? token := by
  simp only [find?, init, Table.find?_insert, Std.LawfulEqCmp.compare_eq_iff_eq]
  by_cases none : token = 0 <;> simp [none]

theorem find?_free :
    (tokens.free other).find? token = if token = other then none else tokens.find? token := by
  by_cases none : other = 0
  · subst none
    by_cases same : token = 0 <;> simp [free, find?, same]
  · simp only [free, none, if_false, find?, Table.find?_erase, Std.LawfulEqCmp.compare_eq_iff_eq]
    by_cases same : token = other <;> simp [same]

theorem free_of_missing (missing : tokens.find? token = none) : tokens.free token = tokens := by
  rw [free]
  split
  next => rfl
  next given =>
    rw [find?, if_neg given] at missing
    rw [Table.erase_of_find?_eq_none missing]

/-- Puts a handle behind a token. -/
def put (token : UInt64) (handle : Handle) (tokens : Tokens) : Tokens :=
  { tokens with handles := tokens.handles.insert token handle }

theorem find?_put {handle : Handle} (given : other ≠ 0) :
    (tokens.put other handle).find? token
      = if token = other then some handle else tokens.find? token := by
  simp only [find?, put, Table.find?_insert, Std.LawfulEqCmp.compare_eq_iff_eq]
  by_cases same : token = other
  · simp [same, given]
  · simp [same]

theorem ne_zero_of_find? {handle : Handle} (found : tokens.find? token = some handle) :
    token ≠ 0 := by
  rintro rfl
  cases found

/-- A handle when the network does what is given for a URL. -/
def hearing (answer : String → Answer) (url : String) (handle : Handle) : Handle :=
  let peer := Text.trim url
  { handle with engine := { handle.engine with
    transport := handle.engine.transport.respond peer (answer peer) } }

@[simp] theorem isLive_hearing {answer : String → Answer} {url : String} {handle : Handle} :
    (hearing answer url handle).isLive = handle.isLive := rfl

/-- The status of a round. -/
def statusOf : Except EngineError Summary → Int
  | .ok _ => statusOk
  | .error error => error.status

section Sync

variable {answer : String → Answer} {url : Option (List UInt8)} {handle : Handle}

theorem sync_of_missing (missing : tokens.find? token = none) :
    tokens.sync answer token url = (ErrorKind.invalidHandle.status, tokens) := by
  rw [sync, missing]

theorem sync_of_found (found : tokens.find? token = some handle) :
    tokens.sync answer token url
      = match textIn? url with
        | none => (ErrorKind.invalidArgument.status, tokens)
        | some url =>
            (statusOf ((hearing answer url handle).pull url).1,
              tokens.put token ((hearing answer url handle).pull url).2) := by
  rw [sync, found]
  cases textIn? url with
  | none => rfl
  | some url =>
      simp only [hearing]
      split
      next ok => rw [ok]; rfl
      next failed => rw [failed]; rfl

end Sync

/-! ## One request -/

variable {request : Request}

/-- A request to go frees the engine.  Another one leaves everything as it is or puts the
handle back that was there, as live as before. -/
theorem perform_on_cases (tokens : Tokens) (token : UInt64) (request : Request) :
    (request = .free ∧ (tokens.perform (.on token request)).2 = tokens.free token)
      ∨ (request ≠ .free ∧ ((tokens.perform (.on token request)).2 = tokens
        ∨ ∃ handle later, tokens.find? token = some handle ∧ later.isLive = handle.isLive
          ∧ (tokens.perform (.on token request)).2 = tokens.put token later)) := by
  cases request with
  | free => exact .inl ⟨rfl, rfl⟩
  | peerCount => exact .inr ⟨nofun, .inl rfl⟩
  | sync answer url =>
      refine .inr ⟨nofun, ?_⟩
      cases held : tokens.find? token with
      | none =>
          rw [perform, sync_of_missing held]
          exact .inl rfl
      | some handle =>
          rw [perform, sync_of_found held]
          cases textIn? url with
          | none => exact .inl rfl
          | some url => exact .inr ⟨handle, _, rfl, Handle.isLive_pull.trans isLive_hearing, rfl⟩

theorem next_perform_on : (tokens.perform (.on token request)).2.next = tokens.next := by
  rcases perform_on_cases tokens token request with
    ⟨_, freed⟩ | ⟨_, same | ⟨_, later, _, _, put⟩⟩
  · rw [freed, free]
    split <;> rfl
  · rw [same]
  · rw [put, Tokens.put]

/-- A request leaves the engines behind other tokens alone. -/
theorem find?_perform_on_of_ne (apart : token ≠ other) :
    (tokens.perform (.on other request)).2.find? token = tokens.find? token := by
  rcases perform_on_cases tokens other request with
    ⟨_, freed⟩ | ⟨_, same | ⟨_, later, found, _, put⟩⟩
  · rw [freed, find?_free, if_neg apart]
  · rw [same]
  · rw [put, find?_put (ne_zero_of_find? found), if_neg apart]

/-- Without an engine behind its token a request changes nothing. -/
theorem perform_on_of_missing (missing : tokens.find? token = none) :
    (tokens.perform (.on token request)).2 = tokens := by
  rcases perform_on_cases tokens token request with
    ⟨_, freed⟩ | ⟨_, same | ⟨handle, _, found, _⟩⟩
  · rw [freed, free_of_missing missing]
  · exact same
  · rw [missing] at found
    cases found

/-- Only a request to go takes the engine away. -/
theorem isSome_find?_perform_on :
    ((tokens.perform (.on other request)).2.find? token).isSome
      ↔ (tokens.find? token).isSome ∧ ¬ (token = other ∧ request = .free) := by
  by_cases apart : token = other
  · subst apart
    rcases perform_on_cases tokens token request with
      ⟨rfl, freed⟩ | ⟨other, same | ⟨_, later, found, _, put⟩⟩
    · simp [freed, find?_free]
    · simp [same, other]
    · simp [put, find?_put (ne_zero_of_find? found), found, other]
  · simp [find?_perform_on_of_ne apart, apart]

/-- The engine behind a token decides what a request on it does. -/
theorem perform_on_congr (same : tokens.find? token = others.find? other) :
    (tokens.perform (.on token request)).1 = (others.perform (.on other request)).1
      ∧ (tokens.perform (.on token request)).2.find? token
        = (others.perform (.on other request)).2.find? other := by
  cases request with
  | free => simp [perform, find?_free]
  | peerCount => simp [perform, peerCount, same]
  | sync answer url =>
      cases held : tokens.find? token with
      | none =>
          have missing : others.find? other = none := same.symm.trans held
          simp [perform, sync_of_missing, held, missing]
      | some handle =>
          have found : others.find? other = some handle := same.symm.trans held
          simp only [perform, sync_of_found held, sync_of_found found]
          cases textIn? url with
          | none => exact ⟨rfl, same⟩
          | some url => simp [find?_put, ne_zero_of_find? held, ne_zero_of_find? found]

/-- All engines are behind live handles. -/
def AllLive (tokens : Tokens) : Prop :=
  ∀ token handle, tokens.find? token = some handle → handle.isLive = true

theorem AllLive.perform (live : tokens.AllLive) (call : Call) : (tokens.perform call).2.AllLive := by
  intro token handle found
  cases call with
  | init settings =>
      rw [Tokens.perform, find?_init] at found
      split at found
      · obtain rfl := Option.some.inj found
        rfl
      · exact live token handle found
  | on other request =>
      rcases perform_on_cases tokens other request with
        ⟨_, freed⟩ | ⟨_, same | ⟨_, later, before, kept, put⟩⟩
      · rw [freed, find?_free] at found
        split at found
        · cases found
        · exact live token handle found
      · rw [same] at found
        exact live token handle found
      · rw [put, find?_put (ne_zero_of_find? before)] at found
        split at found
        · obtain rfl := Option.some.inj found
          exact kept.trans (live other _ before)
        · exact live token handle found

/-- The reply tells whether there is an engine. -/
theorem reply_eq_invalid_iff (live : tokens.AllLive) (stays : request ≠ .free) :
    (tokens.perform (.on token request)).1 = .number ErrorKind.invalidHandle.status
      ↔ tokens.find? token = none := by
  cases request with
  | free => exact absurd rfl stays
  | peerCount =>
      simp only [Tokens.perform, Reply.number.injEq, peerCount]
      cases held : tokens.find? token with
      | none => simp
      | some handle =>
          have count : handle.peerCount = .ok handle.engine.peerCount := by
            rw [Handle.peerCount, Handle.ask, Handle.engine?, if_pos (live token handle held)]
            rfl
          simp only [count, ErrorKind.status]
          exact iff_of_false (by omega) nofun
  | sync answer url =>
      simp only [Tokens.perform, Reply.number.injEq]
      cases held : tokens.find? token with
      | none => simp [sync_of_missing held]
      | some handle =>
          rw [sync_of_found held]
          refine iff_of_false ?_ nofun
          cases textIn? url with
          | none => simp [ErrorKind.status]
          | some url =>
              show statusOf ((hearing answer url handle).pull url).1 ≠ _
              cases round : ((hearing answer url handle).pull url).1 with
              | ok summary => simp [statusOf, statusOk, ErrorKind.status]
              | error error =>
                  refine Handle.status_ne_of_pull ?_ round
                  exact isLive_hearing.trans (live token handle held)

/-! ## What has been called -/

/-- Whether a call makes an engine. -/
def Call.isInit : Call → Bool
  | .init _ => true
  | .on _ _ => false

/-- How many engines some calls make. -/
def inits (calls : List Call) : Nat := calls.countP Call.isInit

/-- A token is given out by some calls. -/
def Issued (token : UInt64) (calls : List Call) : Prop := .token token ∈ (empty.run calls).1

/-- A token is freed by some calls after it was given out. -/
def Freed (token : UInt64) (calls : List Call) : Prop :=
  ∃ before, before ++ [.on token .free] <+: calls ∧ Issued token before

/-- A token is given out by some calls and not freed since. -/
def Live (token : UInt64) (calls : List Call) : Prop := Issued token calls ∧ ¬ Freed token calls

section History

variable {calls : List Call} {settings : Settings}

theorem inits_append {rest : List Call} : inits (calls ++ rest) = inits calls + inits rest :=
  List.countP_append

theorem inits_concat_init : inits (calls ++ [.init settings]) = inits calls + 1 := inits_append

theorem inits_concat_on : inits (calls ++ [.on token request]) = inits calls := inits_append

theorem next_run : (empty.run calls).2.next = UInt64.ofNat (inits calls + 1) := by
  induction calls using List.reverseRecOn with
  | nil => rfl
  | append_singleton calls call induction =>
      rw [run_concat]
      cases call with
      | init settings =>
          rw [inits_concat_init, UInt64.ofNat_add, ← induction]
          rfl
      | on token request => rw [next_perform_on, inits_concat_on, induction]

theorem issued_concat_init :
    Issued token (calls ++ [.init settings])
      ↔ Issued token calls ∨ token = (empty.run calls).2.next := by
  simp [Issued, run_concat, perform, init]

theorem issued_concat_on :
    Issued token (calls ++ [.on other request]) ↔ Issued token calls := by
  rw [Issued, run_concat, List.mem_append, List.mem_singleton]
  refine or_iff_left ?_
  cases request <;> nofun

theorem freed_concat {call : Call} :
    Freed token (calls ++ [call])
      ↔ Freed token calls ∨ (call = .on token .free ∧ Issued token calls) := by
  simp only [Freed, List.prefix_concat_iff, or_and_right, exists_or]
  rw [or_comm]
  refine or_congr_right ⟨?_, ?_⟩
  · rintro ⟨before, same, issued⟩
    obtain ⟨rfl, called⟩ := List.append_inj' same rfl
    exact ⟨(List.singleton_inj.1 called).symm, issued⟩
  · rintro ⟨rfl, issued⟩
    exact ⟨calls, rfl, issued⟩

theorem Freed.issued (freed : Freed token calls) : Issued token calls := by
  obtain ⟨before, ⟨rest, rfl⟩, issued⟩ := freed
  rw [Issued, run_append, run_concat]
  exact List.mem_append_left _ (List.mem_append_left _ issued)

/-- The tokens that are given out are the numbers from one on. -/
theorem exists_of_issued (issued : Issued token calls) :
    ∃ number < inits calls, token = UInt64.ofNat (number + 1) := by
  induction calls using List.reverseRecOn with
  | nil => cases issued
  | append_singleton calls call induction =>
      cases call with
      | init settings =>
          rw [inits_concat_init]
          rcases issued_concat_init.1 issued with earlier | rfl
          · obtain ⟨number, less, same⟩ := induction earlier
            exact ⟨number, by omega, same⟩
          · exact ⟨inits calls, by omega, next_run⟩
      | on other request =>
          rw [inits_concat_on]
          exact induction (issued_concat_on.1 issued)

theorem toNat_next_run (few : inits calls + 1 < 2 ^ 64) :
    (empty.run calls).2.next.toNat = inits calls + 1 := by
  rw [next_run]
  exact UInt64.toNat_ofNat_of_lt' few

theorem next_run_ne_zero (few : inits calls + 1 < 2 ^ 64) : (empty.run calls).2.next ≠ 0 := by
  intro none
  have number := toNat_next_run few
  rw [none] at number
  cases number

/-- The next token has not been given out. -/
theorem not_issued_next_run (few : inits calls + 1 < 2 ^ 64) :
    ¬ Issued (empty.run calls).2.next calls := by
  intro issued
  obtain ⟨number, less, same⟩ := exists_of_issued issued
  have earlier : (UInt64.ofNat (number + 1)).toNat = number + 1 :=
    UInt64.toNat_ofNat_of_lt' (show number + 1 < 2 ^ 64 by omega)
  rw [← same, toNat_next_run few] at earlier
  omega

/-- A token stands for an engine from when it is given out to when it is freed. -/
theorem isSome_find?_run_iff (few : inits calls < 2 ^ 64) :
    ((empty.run calls).2.find? token).isSome ↔ Live token calls := by
  induction calls using List.reverseRecOn with
  | nil =>
      have none : empty.find? token = none := by
        rw [find?]
        split <;> rfl
      simp [run, none, Live, Issued]
  | append_singleton calls call induction =>
      rw [run_concat]
      cases call with
      | init settings =>
          rw [inits_concat_init] at few
          have before := induction (by omega)
          rw [perform, find?_init, Live, issued_concat_init, freed_concat]
          by_cases new : token = (empty.run calls).2.next
          · subst new
            have fresh := not_issued_next_run few
            simpa [next_run_ne_zero few] using mt Freed.issued fresh
          · simpa [new, Live] using before
      | on other request =>
          rw [inits_concat_on] at few
          rw [isSome_find?_perform_on, induction few, Live, Live, issued_concat_on, freed_concat]
          constructor
          · rintro ⟨⟨issued, kept⟩, stays⟩
            refine ⟨issued, ?_⟩
            rintro (freed | ⟨same, _⟩)
            · exact kept freed
            · cases same
              exact stays ⟨rfl, rfl⟩
          · rintro ⟨issued, kept⟩
            refine ⟨⟨issued, fun freed => kept (.inl freed)⟩, ?_⟩
            rintro ⟨rfl, rfl⟩
            exact kept (.inr ⟨rfl, issued⟩)

theorem allLive_run : (empty.run calls).2.AllLive := by
  induction calls using List.reverseRecOn with
  | nil =>
      intro token handle found
      rw [run, find?] at found
      split at found <;> cases found
  | append_singleton calls call induction =>
      rw [run_concat]
      exact induction.perform call

end History

/-! ## One engine among others -/

/-- What a call asks of the engine behind a token, if it is on this token. -/
def Call.request? (token : UInt64) : Call → Option Request
  | .init _ => none
  | .on other request => if other = token then some request else none

/-- Whether a call is on no other token than this one. -/
def Call.spares (token : UInt64) : Call → Bool
  | .init _ => true
  | .on other _ => other == token

/-- The requests on a token. -/
def requests (token : UInt64) (calls : List Call) : List Request :=
  calls.filterMap (Call.request? token)

/-- The replies to the requests on a token. -/
def repliesOn (token : UInt64) (calls : List Call) (tokens : Tokens) : List Reply :=
  (calls.zip (tokens.run calls).1).filterMap fun (call, reply) =>
    (call.request? token).map fun _ => reply

section Isolation

variable {calls rest : List Call} {settings : Settings}

theorem requests_cons_on :
    requests token (.on token request :: calls) = request :: requests token calls :=
  List.filterMap_cons_some (if_pos rfl)

theorem requests_cons_other {call : Call} (apart : call.request? token = none) :
    requests token (call :: calls) = requests token calls :=
  List.filterMap_cons_none apart

theorem repliesOn_cons_on :
    repliesOn token (.on token request :: calls) tokens
      = (tokens.perform (.on token request)).1
        :: repliesOn token calls (tokens.perform (.on token request)).2 := by
  simp [repliesOn, run, Call.request?]

theorem repliesOn_cons_other {call : Call} (apart : call.request? token = none) :
    repliesOn token (call :: calls) tokens
      = repliesOn token calls (tokens.perform call).2 := by
  simp [repliesOn, run, apart]

/-- Calls on other tokens make no difference. -/
theorem repliesOn_filter_spares (next : tokens.next = others.next)
    (same : tokens.find? token = others.find? token) :
    repliesOn token (calls.filter (Call.spares token)) others = repliesOn token calls tokens := by
  induction calls generalizing tokens others with
  | nil => rfl
  | cons call calls induction =>
      cases call with
      | init settings =>
          rw [List.filter_cons_of_pos rfl, repliesOn_cons_other rfl, repliesOn_cons_other rfl]
          refine induction (congrArg (· + 1) next) ?_
          rw [perform, perform, find?_init, find?_init, next, same]
      | on other request =>
          by_cases on : other = token
          · subst on
            obtain ⟨reply, after⟩ := @perform_on_congr _ _ _ _ request same
            rw [List.filter_cons_of_pos (by simp [Call.spares]), repliesOn_cons_on,
              repliesOn_cons_on, reply]
            rw [induction (by rw [next_perform_on, next_perform_on, next]) after]
          · rw [List.filter_cons_of_neg (by simpa [Call.spares] using on),
              repliesOn_cons_other (by simp [Call.request?, on])]
            refine induction (next_perform_on.trans next) ?_
            exact (find?_perform_on_of_ne (Ne.symm on)).trans same

/-- An engine that is there already replies as it does behind any other token where
nothing else is asked. -/
theorem run_requests (few : inits (calls ++ rest) < 2 ^ 64) (issued : Issued token calls)
    (same : (empty.run calls).2.find? token = others.find? other) :
    (others.run ((requests token rest).map (.on other))).1
      = repliesOn token rest (empty.run calls).2 := by
  induction rest generalizing calls others with
  | nil => rfl
  | cons call rest induction =>
      rw [List.append_cons] at few
      have later (others : Tokens) := @induction others (calls ++ [call])
      simp only [run_concat] at later
      cases call with
      | init settings =>
          -- The token is not given out again.
          have fresh : token ≠ (empty.run calls).2.next := by
            rintro rfl
            rw [inits_append, inits_concat_init] at few
            exact not_issued_next_run (by omega) issued
          rw [requests_cons_other rfl, repliesOn_cons_other rfl]
          refine later _ few (issued_concat_init.2 (.inl issued)) ?_
          rw [perform, find?_init, if_neg fun taken => fresh taken.1, same]
      | on name request =>
          by_cases on : name = token
          · subst on
            obtain ⟨reply, after⟩ := @perform_on_congr _ _ _ _ request same
            rw [requests_cons_on, List.map_cons, run, repliesOn_cons_on, reply]
            exact congrArg _ (later _ few (issued_concat_on.2 issued) after)
          · have none : (Call.on name request).request? token = none := by
              simp [Call.request?, on]
            rw [requests_cons_other none, repliesOn_cons_other none]
            refine later _ few (issued_concat_on.2 issued) ?_
            exact (find?_perform_on_of_ne (Ne.symm on)).trans same

/-- While there are tokens left, a call that makes an engine is answered with a token
other than zero that was not given out before.  A call for a round or for the number of
peers is answered with the status of an invalid handle if the token was not given out or
was freed since, and only then.  A request on such a token changes nothing.  The replies
on a token do not change when the calls on other tokens are left out.  From when the token
is given out they are those to the same requests on a new engine that is the only one. -/
theorem run_isolates (calls : List Call) (few : inits calls < 2 ^ 64) :
    (∀ before settings after, calls = before ++ .init settings :: after →
        ∃ token, ((empty.run before).2.perform (.init settings)).1 = .token token
          ∧ token ≠ 0 ∧ ¬ Issued token before)
      ∧ (∀ before token request after, calls = before ++ .on token request :: after →
        (request ≠ .free →
          (((empty.run before).2.perform (.on token request)).1 = .number (-3)
            ↔ ¬ Live token before))
          ∧ (¬ Live token before →
            ((empty.run before).2.perform (.on token request)).2 = (empty.run before).2))
      ∧ (∀ token,
        repliesOn token (calls.filter (Call.spares token)) empty = repliesOn token calls empty)
      ∧ ∀ before settings after token, calls = before ++ .init settings :: after →
        ((empty.run before).2.perform (.init settings)).1 = .token token →
          (empty.run (.init settings :: (requests token after).map (.on 1))).1
            = .token 1 :: repliesOn token after (empty.run (before ++ [.init settings])).2 := by
  refine ⟨?_, ?_, fun token => repliesOn_filter_spares rfl rfl, ?_⟩
  · rintro before settings after rfl
    rw [List.append_cons, inits_append, inits_concat_init] at few
    exact ⟨_, rfl, next_run_ne_zero (by omega), not_issued_next_run (by omega)⟩
  · rintro before token request after rfl
    rw [inits_append] at few
    have gone : ¬ Live token before ↔ (empty.run before).2.find? token = none := by
      rw [← isSome_find?_run_iff (by omega), Option.not_isSome_iff_eq_none]
    rw [gone]
    exact ⟨reply_eq_invalid_iff allLive_run, perform_on_of_missing⟩
  · rintro before settings after token rfl given
    rw [List.append_cons] at few
    obtain rfl := Reply.token.inj given
    refine congrArg (Reply.token 1 :: ·) (run_requests few (issued_concat_init.2 (.inr rfl)) ?_)
    rw [inits_append, inits_concat_init] at few
    rw [run_concat, perform, find?_init, if_pos ⟨rfl, next_run_ne_zero (by omega)⟩]
    rfl

/-- Two engines, of which one has a round and the other is freed, called on once more and
freed again. -/
def someCalls : List Call :=
  [.init {}, .init {}, .on 2 (.sync (fun _ => .body (Utf8.encode "[]")) (some [0x75])),
    .on 1 .free, .on 1 .peerCount, .on 2 .peerCount, .on 1 .free]

/-- The freed engine does not answer and cannot be freed again, and the other one counts the
peer of its own round. -/
theorem run_isolates_someCalls :
    ((empty.run (someCalls.take 4)).2.perform (.on 1 .peerCount)).1 = .number (-3)
      ∧ ((empty.run (someCalls.take 6)).2.perform (.on 1 .free)).2
        = (empty.run (someCalls.take 6)).2
      ∧ repliesOn 2 someCalls empty = [.number 0, .number 1] := by
  obtain ⟨_, onToken, spared, _⟩ := run_isolates someCalls (by decide)
  have issued : Issued 1 (someCalls.take 3) := .head _
  have freed (more : List Call) : Freed 1 (someCalls.take 4 ++ more) :=
    ⟨someCalls.take 3, List.prefix_append _ _, issued⟩
  refine ⟨?_, ?_, ?_⟩
  · exact ((onToken (someCalls.take 4) 1 .peerCount _ rfl).1 nofun).2 fun live => live.2 (freed [])
  · exact (onToken (someCalls.take 6) 1 .free _ rfl).2 fun live => live.2 (freed _)
  · rw [← spared 2]
    rfl

end Isolation

end Tokens

end SignedFacts
