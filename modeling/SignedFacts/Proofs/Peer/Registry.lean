import SignedFacts.Peer.Registry
import SignedFacts.Peer.Transport

/-!
# What a round leaves with its peer

The list of peers and the counts of fetches are tables by URL, and a round changes
what stands under its own URL only (`peer?_update_register`, `fetchCount_count`).
-/

namespace SignedFacts

theorem Table.find?_update {κ α : Type} [Ord κ] [Std.TransOrd κ] [Std.LawfulEqOrd κ]
    (key other : κ) (fresh : α) (change : α → α) (table : Table κ α) :
    (table.update key fresh change).find? other
      = if compare other key = .eq then some (change ((table.find? key).getD fresh))
        else table.find? other :=
  Table.find?_insert key other _ table

namespace Registry

variable {peers : Registry} {url other : String}

theorem peer?_update {change : Peer → Peer} :
    Registry.peer? other (Table.update url (.fresh url) change peers)
      = if other = url then some (change ((peers.peer? url).getD (.fresh url)))
        else peers.peer? other := by
  simp only [peer?, Table.find?_update, Std.LawfulEqCmp.compare_eq_iff_eq]

/-- What is changed at the end of a round is the entry of its peer, which is listed by then. -/
theorem peer?_update_register {change : Peer → Peer} :
    Registry.peer? other (Table.update url (.fresh url) change (peers.register url))
      = if other = url then some (change ((peers.peer? url).getD (.fresh url)))
        else peers.peer? other := by
  rw [peer?_update, register, peer?_update, if_pos rfl, Option.getD_some, peer?_update]
  split <;> rfl

theorem peer?_recordFailure_register {error : String} :
    ((peers.register url).recordFailure url error).peer? other
      = if other = url then some (((peers.peer? url).getD (.fresh url)).fail error)
        else peers.peer? other := peer?_update_register

theorem peer?_recordSuccess_register {time : Nat} :
    ((peers.register url).recordSuccess url time).peer? other
      = if other = url then some (((peers.peer? url).getD (.fresh url)).succeed time)
        else peers.peer? other := peer?_update_register

end Registry

theorem Transport.answerFor_respond {transport : Transport} {url : String} {answer : Answer} :
    (transport.respond url answer).answerFor url = answer := by
  rw [answerFor, respond, Table.find?_insert, if_pos Std.ReflCmp.compare_self, Option.getD_some]

theorem Transport.fetchCount_count {transport : Transport} {url other : String} :
    (transport.count url).fetchCount other
      = transport.fetchCount other + if other = url then 1 else 0 := by
  simp only [fetchCount, count, Table.find?_update, Std.LawfulEqCmp.compare_eq_iff_eq]
  by_cases same : other = url
  · simp [same]
  · simp [same]

end SignedFacts
