import Bluefin.Base.Rendezvous
import Bluefin.Net.Handshake

/-!
# Which `accept()` gets which ClientHello (net/server.rs, worker/reader.rs)

Any number of `accept()` calls and of reader workers meet at the `HelloState`. The
locked section of an `accept()` and `handle_hello_single` are the two sections of
a rendezvous: the ids of the calls that wait are its takers and the queued hellos
its items.
-/

namespace Bluefin
open Base

namespace HelloMatching

/-- In `handed` is what was given to whom: a queued hello to the `accept()` that pops it, and a
hello that is routed to the id it is routed to. -/
structure State where
  state : HelloState
  accepts : List UInt32
  kept : List Hello
  dropped : List Hello
  handed : List (UInt32 × Hello)

def init : State := ⟨⟨[], []⟩, [], [], [], []⟩

inductive Action where
  | accept (srcConnId : UInt32)
  | arrive (packet : BluefinPacket) (addr : SocketAddr)

/-- A queued hello and a dropped one have the same answer and differ in the queue. -/
def step (st : State) : Action → State
  | .accept srcConnId =>
    let (hello, state) := BluefinServer.popHelloOrPushSlot st.state srcConnId
    { st with
      state := state
      accepts := st.accepts ++ [srcConnId]
      handed := st.handed ++ hello.toList.map (Prod.mk srcConnId) }
  | .arrive packet addr =>
    match ReaderTxChannel.handleHelloSingle .packLeader st.state packet addr with
    | (.ok (.routed id), state) => { st with
        state := state
        kept := st.kept ++ [(packet, addr)]
        handed := st.handed ++ [(id, packet, addr)] }
    | (.ok .queued, state) =>
      if st.state.helloQueue.length < state.helloQueue.length then
        { st with state := state, kept := st.kept ++ [(packet, addr)] }
      else { st with state := state, dropped := st.dropped ++ [(packet, addr)] }
    | (_, state) => { st with state := state }

def run (acts : List Action) : State := acts.foldl step init

/-! ### The two sections as a rendezvous -/

def rendezvous (state : HelloState) : Rendezvous UInt32 Hello :=
  ⟨state.pendingAcceptIds, state.helloQueue⟩

theorem popHelloOrPushSlot_take (state : HelloState) (srcConnId : UInt32) :
    (rendezvous state).take srcConnId =
      ((BluefinServer.popHelloOrPushSlot state srcConnId).1,
        rendezvous (BluefinServer.popHelloOrPushSlot state srcConnId).2) := by
  obtain ⟨ids, queue⟩ := state
  cases queue with
  | nil => rfl
  | cons hello queue => rfl

def account (st : State) (state : HelloState) (hello : Hello) : Handling UInt32 → State
  | .handed id => { st with
      state := state, kept := st.kept ++ [hello], handed := st.handed ++ [(id, hello)] }
  | .kept => { st with state := state, kept := st.kept ++ [hello] }
  | .dropped => { st with state := state, dropped := st.dropped ++ [hello] }

theorem handleHelloSingle_put (st : State) (packet : BluefinPacket) (addr : SocketAddr)
    (hhello : isHelloPacket .packLeader packet = true) :
    ∃ state, rendezvous state = ((rendezvous st.state).put maxQueuedHellos (packet, addr)).2 ∧
      step st (.arrive packet addr) = account st state (packet, addr)
        ((rendezvous st.state).put maxQueuedHellos (packet, addr)).1 := by
  obtain ⟨⟨ids, queue⟩, accepts, kept, dropped, handed⟩ := st
  cases ids with
  | cons id ids =>
    refine ⟨⟨ids, queue⟩, rfl, ?_⟩
    simp [step, ReaderTxChannel.handleHelloSingle, hhello, rendezvous, Rendezvous.put, account]
  | nil =>
    by_cases hroom : queue.length < 64
    · refine ⟨⟨[], queue ++ [(packet, addr)]⟩, ?_, ?_⟩
      · simp [rendezvous, Rendezvous.put, hroom]
      · simp [step, ReaderTxChannel.handleHelloSingle, hhello, rendezvous, Rendezvous.put, account,
          hroom]
    · refine ⟨⟨[], queue⟩, ?_, ?_⟩
      · simp [rendezvous, Rendezvous.put, hroom]
      · simp [step, ReaderTxChannel.handleHelloSingle, hhello, rendezvous, Rendezvous.put, account,
          hroom]

theorem step_other (st : State) (packet : BluefinPacket) (addr : SocketAddr)
    (hhello : isHelloPacket .packLeader packet = false) :
    step st (.arrive packet addr) = st := by
  simp [step, ReaderTxChannel.handleHelloSingle, hhello]

/-! ### All interleavings -/

def acceptIds : List Action → List UInt32
  | [] => []
  | .accept srcConnId :: acts => srcConnId :: acceptIds acts
  | .arrive _ _ :: acts => acceptIds acts

def hellos : List Action → List Hello
  | [] => []
  | .accept _ :: acts => hellos acts
  | .arrive packet addr :: acts =>
    if isHelloPacket .packLeader packet then (packet, addr) :: hellos acts else hellos acts

structure Inv (acts : List Action) (st : State) : Prop where
  matched : Rendezvous.Matched maxQueuedHellos (rendezvous st.state) st.accepts st.kept st.handed
  accepts_eq : st.accepts = acceptIds acts
  hellos_perm : (st.kept ++ st.dropped).Perm (hellos acts)
  kept_sublist : st.kept.Sublist (hellos acts)

theorem acceptIds_append (acts acts' : List Action) :
    acceptIds (acts ++ acts') = acceptIds acts ++ acceptIds acts' := by
  induction acts with
  | nil => rfl
  | cons act acts ih =>
    cases act with
    | accept srcConnId => simp [acceptIds, ih]
    | arrive packet addr => simp [acceptIds, ih]

theorem hellos_append (acts acts' : List Action) :
    hellos (acts ++ acts') = hellos acts ++ hellos acts' := by
  induction acts with
  | nil => rfl
  | cons act acts ih =>
    cases act with
    | accept srcConnId => simp [hellos, ih]
    | arrive packet addr =>
      simp only [List.cons_append, hellos, ih]
      split <;> rfl

theorem inv_accept {acts : List Action} {st : State} (h : Inv acts st) (srcConnId : UInt32) :
    Inv (acts ++ [.accept srcConnId]) (step st (.accept srcConnId)) := by
  have hmatched := Rendezvous.matched_take h.matched srcConnId
  rw [popHelloOrPushSlot_take] at hmatched
  constructor
  case matched => exact hmatched
  case accepts_eq =>
    rw [acceptIds_append, ← h.accepts_eq]
    rfl
  case hellos_perm =>
    rw [hellos_append, hellos, hellos, List.append_nil]
    exact h.hellos_perm
  case kept_sublist =>
    rw [hellos_append, hellos, hellos, List.append_nil]
    exact h.kept_sublist

theorem inv_hello {acts : List Action} {st : State} (h : Inv acts st) (packet : BluefinPacket)
    (addr : SocketAddr) (hhello : isHelloPacket .packLeader packet = true) :
    Inv (acts ++ [.arrive packet addr]) (step st (.arrive packet addr)) := by
  obtain ⟨state, hstate, hstep⟩ := handleHelloSingle_put st packet addr hhello
  have haccepts : acceptIds (acts ++ [.arrive packet addr]) = acceptIds acts := by
    rw [acceptIds_append, acceptIds, acceptIds, List.append_nil]
  have hhellos : hellos (acts ++ [.arrive packet addr]) = hellos acts ++ [(packet, addr)] := by
    rw [hellos_append, hellos, if_pos hhello, hellos]
  have hput := Rendezvous.matched_put h.matched (packet, addr)
  have hlast : (st.kept ++ [(packet, addr)] ++ st.dropped).Perm (hellos acts ++ [(packet, addr)]) := by
    rw [List.append_assoc, List.singleton_append]
    exact List.perm_middle.trans ((h.hellos_perm.cons _).trans (List.perm_append_singleton _ _).symm)
  have hsublist : (st.kept ++ [(packet, addr)]).Sublist (hellos acts ++ [(packet, addr)]) :=
    h.kept_sublist.append (List.Sublist.refl _)
  rw [hstep]
  rcases hres : (rendezvous st.state).put maxQueuedHellos (packet, addr) with ⟨handling, r⟩
  rw [hres] at hput hstate
  obtain rfl : rendezvous state = r := hstate
  cases handling with
  | handed id =>
    exact ⟨hput, h.accepts_eq.trans haccepts.symm, by rw [hhellos]; exact hlast,
      by rw [hhellos]; exact hsublist⟩
  | kept =>
    exact ⟨hput, h.accepts_eq.trans haccepts.symm, by rw [hhellos]; exact hlast,
      by rw [hhellos]; exact hsublist⟩
  | dropped =>
    refine ⟨hput.1, h.accepts_eq.trans haccepts.symm, ?_, ?_⟩
    · rw [hhellos]
      simp only [account]
      rw [← List.append_assoc]
      exact h.hellos_perm.append_right _
    · rw [hhellos]
      exact h.kept_sublist.trans (List.sublist_append_left _ _)

theorem inv_step {acts : List Action} {st : State} (h : Inv acts st) (act : Action) :
    Inv (acts ++ [act]) (step st act) := by
  cases act with
  | accept srcConnId => exact inv_accept h srcConnId
  | arrive packet addr =>
    cases hhello : isHelloPacket .packLeader packet with
    | true => exact inv_hello h packet addr hhello
    | false =>
      rw [step_other st packet addr hhello]
      have hhellos : hellos (acts ++ [.arrive packet addr]) = hellos acts := by
        rw [hellos_append, hellos, if_neg (by simp [hhello]), hellos, List.append_nil]
      have haccepts : acceptIds (acts ++ [.arrive packet addr]) = acceptIds acts := by
        rw [acceptIds_append, acceptIds, acceptIds, List.append_nil]
      exact ⟨h.matched, h.accepts_eq.trans haccepts.symm, by rw [hhellos]; exact h.hellos_perm,
        by rw [hhellos]; exact h.kept_sublist⟩

theorem inv_run (acts : List Action) : Inv acts (run acts) := by
  induction acts using List.reverseRecOn with
  | nil => exact ⟨Rendezvous.matched_empty, rfl, .nil, .slnil⟩
  | append_singleton acts act ih =>
    rw [run, List.foldl_append]
    exact inv_step ih act

theorem dropped_full {acts : List Action} {st : State} (h : Inv acts st) (act : Action)
    (hdropped : (step st act).dropped ≠ st.dropped) : st.state.helloQueue.length = 64 := by
  cases act with
  | accept srcConnId => exact absurd rfl hdropped
  | arrive packet addr =>
    cases hhello : isHelloPacket .packLeader packet with
    | false =>
      rw [step_other st packet addr hhello] at hdropped
      exact absurd rfl hdropped
    | true =>
      obtain ⟨state, _, hstep⟩ := handleHelloSingle_put st packet addr hhello
      have hput := Rendezvous.matched_put h.matched (packet, addr)
      rw [hstep] at hdropped
      rcases hres : (rendezvous st.state).put maxQueuedHellos (packet, addr) with ⟨handling, r⟩
      rw [hres] at hput hdropped
      cases handling with
      | handed id => exact absurd rfl hdropped
      | kept => exact absurd rfl hdropped
      | dropped => exact hput.2

/-- After any interleaving: slots and queued hellos do not both wait, at most 64
hellos do, the `k`-th `accept()` to register has been handed the `k`-th hello that
was not dropped and nothing else was handed over, all others still wait, no hello is
lost but those that were dropped, and a hello is dropped only from a full queue. -/
theorem hello_matching (acts : List Action) :
    ((run acts).state.pendingAcceptIds = [] ∨ (run acts).state.helloQueue = []) ∧
    (run acts).state.helloQueue.length ≤ 64 ∧
    (run acts).accepts = acceptIds acts ∧
    (∀ (k : ℕ) id hello, (run acts).handed[k]? = some (id, hello) ↔
      (run acts).accepts[k]? = some id ∧ (run acts).kept[k]? = some hello) ∧
    (run acts).state.pendingAcceptIds = (run acts).accepts.drop (run acts).handed.length ∧
    (run acts).state.helloQueue = (run acts).kept.drop (run acts).handed.length ∧
    (run acts).kept.Sublist (hellos acts) ∧
    ((run acts).kept ++ (run acts).dropped).Perm (hellos acts) ∧
    ∀ act, (step (run acts) act).dropped ≠ (run acts).dropped →
      (run acts).state.helloQueue.length = 64 := by
  have h := inv_run acts
  refine ⟨h.matched.one_side, h.matched.bound, h.accepts_eq, ?_, h.matched.takers_eq,
    h.matched.items_eq, h.kept_sublist, h.hellos_perm, dropped_full h⟩
  intro k id hello
  rw [h.matched.handed_eq, List.getElem?_zip_eq_some]

end HelloMatching

end Bluefin
