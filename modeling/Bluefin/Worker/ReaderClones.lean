import Bluefin.Net.Consumption
import Bluefin.Worker.Eof
import Bluefin.Worker.ReaderTx

/-!
# Reads on two clones of a connection (worker/reader.rs)

The clones of a `BluefinConnection` share its buffers. A read peeks in its poll and
consumes under a later lock of the same mutex, and between the two the read of another
clone can take the bytes it has seen. What is left then decides: the clone that finds
nothing unwraps the error of its consume.
-/

namespace Bluefin
open Base

/-! ### The bytes that can be read -/

namespace OrderedBytes

/-- Nothing that is held is without bytes. -/
structure Solid (s : OrderedBytes) : Prop where
  carry : s.carryOverBytes ≠ some []
  slots : ∀ k p, s.slotAt k = some p → p.payload ≠ []

theorem slotAt_popAll (s : OrderedBytes) (ps : List BluefinPacket) (k : ℕ) :
    (s.popAll ps).slotAt k = s.slotAt (k + ps.length) := by
  induction ps generalizing s with
  | nil => rfl
  | cons p ps ih =>
    rw [List.length_cons, ← Nat.add_assoc, ← slotAt_pop s p]
    exact ih (s.pop p)

theorem run_popAll (s : OrderedBytes) (k : ℕ) :
    (s.popAll (s.run.take k)).run = s.run.drop k := by
  induction k generalizing s with
  | zero => rfl
  | succ k ih =>
    cases hhead : s.slotAt 0 with
    | none =>
      rw [run_of_none s hhead, List.take_nil, List.drop_nil]
      exact run_of_none s hhead
    | some p =>
      rw [run_of_some s hhead, List.take_succ_cons, List.drop_succ_cons]
      exact ih (s.pop p)

theorem carryBytes_carryOf (s : OrderedBytes) (xs : Bytes) :
    (s.setCarry (carryOf xs)).carryBytes = xs := by
  unfold carryBytes carryOf setCarry
  split
  · rename_i hnil
    exact hnil.symm
  · rfl

theorem afterTake_readable (s : OrderedBytes) (n : ℕ) :
    (s.afterTake n).readable = (payloads s.run).flatten.drop n := by
  have hrun : (s.afterTake n).run = s.run.drop (takeCount n (payloads s.run)) := run_popAll s _
  have htake : payloads (s.takeBytes n) = (payloads s.run).take (takeCount n (payloads s.run)) :=
    List.map_take
  have hdrop : payloads (s.run.drop (takeCount n (payloads s.run))) =
      (payloads s.run).drop (takeCount n (payloads s.run)) := List.map_drop
  rw [readable, hrun, hdrop, afterTake, carryBytes_carryOf, htake]
  exact takeCount_drop n (payloads s.run)

/-- A consume takes the bytes off the front of what can be read. -/
theorem consume_readable (s : OrderedBytes) {len : ℕ} {buf : Bytes} (hbuf : len ≤ buf.length) :
    (s.consume len buf).2.1.readable = s.readable.drop len := by
  rw [consume_eq s len buf hbuf]
  by_cases hlong : len < s.carryBytes.length
  · rw [if_pos hlong]
    have hcarry : (s.setCarry (some (s.carryBytes.drop len))).carryBytes = s.carryBytes.drop len := rfl
    rw [readable, hcarry, run_setCarry, readable, List.drop_append,
      show len - s.carryBytes.length = 0 by omega, List.drop_zero]
  · rw [if_neg hlong]
    change ((s.setCarry none).afterTake (len - s.carryBytes.length)).readable = _
    rw [afterTake_readable, run_setCarry, readable, List.drop_append,
      List.drop_of_length_le (Nat.le_of_not_lt hlong), List.nil_append]

theorem peek_isOk_readable {s : OrderedBytes} (h : s.Solid) :
    s.peek.isOk = true ↔ s.readable ≠ [] := by
  rw [peek_isOk_iff]
  constructor
  · intro hsome hnil
    obtain ⟨hcarry, hflat⟩ := List.append_eq_nil_iff.mp hnil
    rcases hsome with hsome | hsome
    · obtain ⟨c, hc⟩ := Option.ne_none_iff_exists'.mp hsome
      rw [carryBytes, hc] at hcarry
      exact h.carry (hc.trans (congrArg some hcarry))
    · obtain ⟨p, hp⟩ := Option.ne_none_iff_exists'.mp hsome
      rw [run_of_some s hp] at hflat
      exact h.slots 0 p hp (List.append_eq_nil_iff.mp hflat).1
  · intro hne
    by_contra hnone
    rw [not_or, not_not, not_not] at hnone
    apply hne
    rw [readable, carryBytes, hnone.1, run_of_none s hnone.2]
    rfl

theorem consume_isOk_readable {s : OrderedBytes} (h : s.Solid) {len : ℕ} {buf : Bytes}
    (hlen : 0 < len) (hbuf : len ≤ buf.length) :
    (s.consume len buf).1.isOk = true ↔ s.readable ≠ [] := by
  rw [consume_isOk_iff s hlen hbuf h.carry, ← peek_isOk_readable h, peek_isOk_iff]
  constructor
  · intro hsome
    rcases hsome with hcarry | ⟨p, hp, -⟩
    · exact .inl hcarry
    · right
      intro hnone
      rw [run_of_none s hnone] at hp
      cases hp
  · intro hsome
    rcases hsome with hcarry | hhead
    · exact .inl hcarry
    · obtain ⟨p, hp⟩ := Option.ne_none_iff_exists'.mp hhead
      right
      exact ⟨p, by rw [run_of_some s hp]; exact List.mem_cons_self .., h.slots 0 p hp⟩

theorem solid_consume {s : OrderedBytes} (h : s.Solid) {len : ℕ} {buf : Bytes}
    (hbuf : len ≤ buf.length) : (s.consume len buf).2.1.Solid := by
  rw [consume_eq s len buf hbuf]
  by_cases hlong : len < s.carryBytes.length
  · rw [if_pos hlong]
    constructor
    case carry =>
      intro hnil
      have hlength := congrArg List.length (Option.some.inj hnil)
      rw [List.length_drop, List.length_nil] at hlength
      omega
    case slots => exact h.slots
  · rw [if_neg hlong]
    constructor
    case carry => exact carryOf_ne _
    case slots =>
      intro k p hp
      have hslot := slotAt_popAll (s.setCarry none)
        ((s.setCarry none).takeBytes (len - s.carryBytes.length)) k
      exact h.slots _ p (hslot.symm.trans hp)

theorem solid_bufferAll {s : OrderedBytes} (h : s.Solid) {ps : List BluefinPacket}
    (hps : ∀ p ∈ ps, p.payload ≠ []) : (s.bufferAll ps).Solid := by
  constructor
  case carry =>
    rw [(bufferAll_keeps s ps).1]
    exact h.carry
  case slots =>
    intro k p hp
    rcases bufferAll_slot hp with hold | hnew
    · exact h.slots k p hold
    · exact hps p hnew

theorem bufferAll_readable (s : OrderedBytes) (ps : List BluefinPacket) :
    s.readable <+: (s.bufferAll ps).readable := by
  obtain ⟨hcarry, rest, hrun⟩ := bufferAll_keeps s ps
  refine ⟨(payloads rest).flatten, ?_⟩
  rw [readable, readable, carryBytes, carryBytes, hcarry, ← hrun, payloads, payloads, payloads,
    List.map_append, List.flatten_append, List.append_assoc]

end OrderedBytes

namespace ReaderClones

open Reader (ReadCall Task)

inductive Clone where
  | first
  | second
  deriving DecidableEq, Repr

def Clone.other : Clone → Clone
  | .first => .second
  | .second => .first

/-- Each read is awaited in a task of its own. -/
def Clone.waker : Clone → Waker
  | .first => 0
  | .second => 1

structure State where
  bufs : ConnectionManagedBuffers
  tasks : Clone → Task

abbrev State.readable (st : State) : Bytes := st.bufs.connBuff.orderedBytes.readable

abbrev State.flag (st : State) : Bool := st.bufs.closeBuff.peerFinObserved

def State.setTask (st : State) (c : Clone) (t : Task) : State :=
  { st with tasks := Function.update st.tasks c t }

def init (bufs : ConnectionManagedBuffers) : State := ⟨bufs, fun _ => .new⟩

/-- By `repoll` a waker may be called at any time, late or by a producer that was for the other
clone, and a parked read is then polled again. -/
inductive Action where
  | data (packets : List BluefinPacket)
  | deliver (packet : BluefinPacket) (addr : SocketAddr)
  | close (packets : List BluefinPacket)
  | read (c : Clone) (bytesToRead : ℕ) (buf : Bytes)
  | repoll (c : Clone)
  | task (c : Clone)

def step (st : State) : Action → Option State
  | .data packets => some { st with
      bufs.connBuff := (ConnReaderHandler.bufferInDataPackets st.bufs.connBuff packets).2.1 }
  | .deliver packet addr => some { st with
      bufs.connBuff :=
        (ReaderTxChannel.bufferToConnBuffer st.bufs.connBuff packet addr false false).2.1 }
  | .close packets =>
    some { st with bufs := (ConnReaderHandler.bufferInClosePackets st.bufs packets).2.1 }
  | .read c bytesToRead buf => match (st.tasks c).pc with
    | .idle => some (st.setTask c { st.tasks c with pc := .polling (.read bytesToRead buf) })
    | _ => none
  | .repoll c => match (st.tasks c).pc with
    | .parked _ => some (st.setTask c (st.tasks c).wake)
    | _ => none
  | .task c => (Reader.taskStep c.waker st.bufs (st.tasks c)).map fun (bufs, task) =>
      { st with bufs := bufs }.setTask c task

/-- Packets with payload bytes, and reads that ask for something. -/
def Permitted : Action → Prop
  | .data packets => ∀ p ∈ packets, p.payload ≠ []
  | .deliver packet _ => packet.payload ≠ []
  | .close _ => True
  | .read _ bytesToRead buf => 0 < bytesToRead ∧ bytesToRead ≤ buf.length
  | .repoll _ => True
  | .task _ => True

def Step (st : State) (act : Action) (st' : State) : Prop :=
  Permitted act ∧ step st act = some st'

/-- The buffers of a connection after its handshake: the address is there, and nothing
that is held is without bytes. -/
structure Established (bufs : ConnectionManagedBuffers) : Prop where
  addr : ∃ addr, bufs.connBuff.addr = some addr
  solid : bufs.connBuff.orderedBytes.Solid

/-- The read has counted on bytes that it has not taken. -/
def Exposed (st : State) (c : Clone) : Prop :=
  match (st.tasks c).pc with
  | .consuming _ => True
  | .resolved _ => st.flag = false
  | _ => False

/-- When a clone consumes while the read of the other is exposed, it leaves bytes. -/
def LeavesBytes (st : State) (act : Action) : Prop :=
  ∀ c bytesToRead buf, act = .task c → (st.tasks c).pc = .consuming (.read bytesToRead buf) →
    Exposed st c.other → bytesToRead < st.readable.length

/-! ### What one step can do -/

inductive TaskMoves (b : ConnectionManagedBuffers) (t : Task) : ConnectionManagedBuffers → Task → Prop
  | resolves (call : ReadCall) (hpc : t.pc = .polling call)
      (hready : b.connBuff.peek.isOk = true ∨ b.closeBuff.peerFinObserved = true) :
      TaskMoves b t b { t with pc := .resolved call }
  | parks (call : ReadCall) (w : Waker) (hpc : t.pc = .polling call) :
      TaskMoves b t { b with connBuff.waker := some w } { t with pc := .parked call }
  | seesFin (call : ReadCall) (hpc : t.pc = .resolved call) :
      TaskMoves b t b { t with pc := .finSeen call }
  | goesOn (call : ReadCall) (hpc : t.pc = .resolved call)
      (hflag : b.closeBuff.peerFinObserved = false) :
      TaskMoves b t b { t with pc := .consuming call }
  | eof (call : ReadCall) (r : Reader.Reply) (hpc : t.pc = .finSeen call) : TaskMoves b t b (t.reply r)
  | noEof (call : ReadCall) (hpc : t.pc = .finSeen call)
      (hsome : b.connBuff.peek.isOk = true ∨ b.connBuff.addr = none) :
      TaskMoves b t b { t with pc := .consuming call }
  | consumes (call : ReadCall) (hpc : t.pc = .consuming call) :
      TaskMoves b t (Reader.finish b t call).1 (Reader.finish b t call).2

theorem taskMoves_of_taskStep {w : Waker} {b b' : ConnectionManagedBuffers} {t t' : Task}
    (h : Reader.taskStep w b t = some (b', t')) : TaskMoves b t b' t' := by
  unfold Reader.taskStep at h
  split at h
  · cases h
  · rename_i call hpc
    unfold Reader.poll at h
    split at h
    · rename_i hpeek
      cases h
      exact .resolves call hpc (.inl (by rw [hpeek]; rfl))
    · split at h
      · rename_i hflag
        cases h
        exact .resolves call hpc (.inr hflag)
      · cases h
        exact .parks call w hpc
  · cases h
  · rename_i call hpc
    by_cases hflag : b.closeBuff.peerFinObserved = true
    · rw [if_pos hflag] at h
      cases h
      exact .seesFin call hpc
    · rw [if_neg hflag] at h
      cases h
      exact .goesOn call hpc (Bool.eq_false_iff.mpr hflag)
  · rename_i call hpc
    unfold Reader.checkEof at h
    split at h
    · rename_i hpeek
      cases h
      exact .noEof call hpc (.inl (by rw [hpeek]; rfl))
    · cases h
      exact .eof call _ hpc
    · rename_i haddr _
      cases h
      exact .noEof call hpc (.inr haddr)
  · rename_i call hpc
    have hmove := @TaskMoves.consumes b t call hpc
    rw [Option.some.inj h] at hmove
    exact hmove
  · cases h

theorem finish_read {b : ConnectionManagedBuffers} (hb : Established b) (t : Task) {len : ℕ}
    {buf : Bytes} (hlen : 0 < len) (hbuf : len ≤ buf.length) :
    let after := Reader.finish b t (.read len buf)
    Established after.1 ∧ after.1.closeBuff = b.closeBuff ∧
      after.1.connBuff.orderedBytes.readable = b.connBuff.orderedBytes.readable.drop len ∧
      after.2.pc = if b.connBuff.orderedBytes.readable = [] then .crashed else .idle := by
  obtain ⟨⟨addr, haddr⟩, hsolid⟩ := hb
  have hread := OrderedBytes.consume_readable b.connBuff.orderedBytes hbuf
  have hok := OrderedBytes.consume_isOk_readable hsolid hlen hbuf
  have hsolid' := OrderedBytes.solid_consume hsolid hbuf
  have hpanic := OrderedBytes.consume_no_panic b.connBuff.orderedBytes hbuf
  simp only [Reader.finish, ConnectionBuffer.consume_of_addr haddr]
  rcases hres : b.connBuff.orderedBytes.consume len buf with ⟨res, bytes, buf'⟩
  rw [hres] at hread hok hsolid' hpanic
  refine ⟨⟨⟨addr, haddr⟩, hsolid'⟩, trivial, hread, ?_⟩
  cases res with
  | ok r =>
    rw [if_neg (hok.mp rfl)]
    rfl
  | err e =>
    rw [if_pos (not_not.mp (fun hne => by cases hok.mpr hne))]
    rfl
  | panicked f => cases hpanic

/-! ### All interleavings -/

/-- Where a read stands, what it counts on is there. -/
structure Safe (b : ConnectionManagedBuffers) (t : Task) : Prop where
  calls : ∀ call, t.pc.call = some call →
    ∃ bytesToRead buf, call = .read bytesToRead buf ∧ 0 < bytesToRead ∧ bytesToRead ≤ buf.length
  resolved : ∀ call, t.pc = .resolved call →
    b.connBuff.orderedBytes.readable ≠ [] ∨ b.closeBuff.peerFinObserved = true
  consuming : ∀ call, t.pc = .consuming call → b.connBuff.orderedBytes.readable ≠ []
  alive : t.pc ≠ .crashed

structure Inv (st : State) : Prop where
  established : Established st.bufs
  safe : ∀ c, Safe st.bufs (st.tasks c)

theorem peek_isOk_iff {b : ConnectionManagedBuffers} (hb : Established b) :
    b.connBuff.peek.isOk = true ↔ b.connBuff.orderedBytes.readable ≠ [] := by
  obtain ⟨⟨addr, haddr⟩, hsolid⟩ := hb
  have hpeek : b.connBuff.peek = b.connBuff.orderedBytes.peek := by
    simp only [ConnectionBuffer.peek, haddr]
  rw [hpeek]
  exact OrderedBytes.peek_isOk_readable hsolid

theorem Safe.mono {b b' : ConnectionManagedBuffers} {t : Task} (h : Safe b t)
    (hread : b.connBuff.orderedBytes.readable ≠ [] → b'.connBuff.orderedBytes.readable ≠ [])
    (hflag : b.closeBuff.peerFinObserved = true → b'.closeBuff.peerFinObserved = true) :
    Safe b' t := by
  constructor
  case calls => exact h.calls
  case resolved => exact fun call hpc => (h.resolved call hpc).imp hread hflag
  case consuming => exact fun call hpc => hread (h.consuming call hpc)
  case alive => exact h.alive

theorem safe_task {b b' : ConnectionManagedBuffers} {t t' : Task} (hb : Established b)
    (h : Safe b t) (hm : TaskMoves b t b' t') :
    Established b' ∧ Safe b' t' ∧ b'.closeBuff = b.closeBuff ∧
      (b'.connBuff.orderedBytes.readable = b.connBuff.orderedBytes.readable ∨
        ∃ len buf, t.pc = .consuming (.read len buf) ∧ b'.connBuff.orderedBytes.readable =
          b.connBuff.orderedBytes.readable.drop len) := by
  have hcall : ∀ call, t.pc.call = some call → ∀ pc : Reader.Pc, pc.call = some call →
      ∀ call', pc.call = some call' → ∃ len buf, call' = .read len buf ∧ 0 < len ∧ len ≤ buf.length := by
    intro call ht pc hpc call' hcall'
    rw [hpc] at hcall'
    cases hcall'
    exact h.calls call ht
  cases hm with
  | resolves call hpc hready =>
    have hcalls := hcall call (by rw [hpc]; rfl) (.resolved call) rfl
    rw [peek_isOk_iff hb] at hready
    exact ⟨hb, ⟨hcalls, fun _ _ => hready, by simp, by simp⟩, rfl, .inl rfl⟩
  | parks call w hpc =>
    have hcalls := hcall call (by rw [hpc]; rfl) (.parked call) rfl
    exact ⟨⟨hb.addr, hb.solid⟩, ⟨hcalls, by simp, by simp, by simp⟩, rfl, .inl rfl⟩
  | seesFin call hpc =>
    have hcalls := hcall call (by rw [hpc]; rfl) (.finSeen call) rfl
    exact ⟨hb, ⟨hcalls, by simp, by simp, by simp⟩, rfl, .inl rfl⟩
  | goesOn call hpc hflag =>
    have hcalls := hcall call (by rw [hpc]; rfl) (.consuming call) rfl
    have hread := (h.resolved call hpc).resolve_right (by rw [hflag]; simp)
    exact ⟨hb, ⟨hcalls, by simp, fun _ _ => hread, by simp⟩, rfl, .inl rfl⟩
  | eof call r hpc =>
    exact ⟨hb, ⟨by simp [Task.reply, Reader.Pc.call], by simp [Task.reply], by simp [Task.reply],
      by simp [Task.reply]⟩, rfl, .inl rfl⟩
  | noEof call hpc hsome =>
    have hcalls := hcall call (by rw [hpc]; rfl) (.consuming call) rfl
    obtain ⟨addr, haddr⟩ := hb.addr
    have hread := (peek_isOk_iff hb).mp (hsome.resolve_right (by rw [haddr]; simp))
    exact ⟨hb, ⟨hcalls, by simp, fun _ _ => hread, by simp⟩, rfl, .inl rfl⟩
  | consumes call hpc =>
    obtain ⟨len, buf, rfl, hlen, hbuf⟩ := h.calls call (by rw [hpc]; rfl)
    obtain ⟨hb', hclose, hread, hpc'⟩ := finish_read hb t hlen hbuf
    rw [if_neg (h.consuming _ hpc)] at hpc'
    refine ⟨hb', ⟨?_, ?_, ?_, ?_⟩, hclose, .inr ⟨len, buf, hpc, hread⟩⟩
    · simp [hpc', Reader.Pc.call]
    · simp [hpc']
    · simp [hpc']
    · simp [hpc']

/-! ### The producers -/

/-- What a producer can do to the buffers of an established connection. -/
structure Produced (b b' : ConnectionManagedBuffers) : Prop where
  established : Established b'
  readable : b.connBuff.orderedBytes.readable ≠ [] → b'.connBuff.orderedBytes.readable ≠ []
  flag : b.closeBuff.peerFinObserved = true → b'.closeBuff.peerFinObserved = true

theorem readable_ne_of_bufferAll {s : OrderedBytes} {ps : List BluefinPacket}
    (h : s.readable ≠ []) : (s.bufferAll ps).readable ≠ [] := by
  intro hnil
  have hbelow := OrderedBytes.bufferAll_readable s ps
  rw [hnil] at hbelow
  exact h (List.prefix_nil.mp hbelow)

theorem produced_bufferAll {b : ConnectionManagedBuffers} (hb : Established b)
    {ps : List BluefinPacket} (hps : ∀ p ∈ ps, p.payload ≠ []) {connBuff : ConnectionBuffer}
    (hbytes : connBuff.orderedBytes = b.connBuff.orderedBytes.bufferAll ps)
    (haddr : connBuff.addr = b.connBuff.addr) : Produced b { b with connBuff := connBuff } := by
  constructor
  case established =>
    constructor
    case addr =>
      rw [haddr]
      exact hb.addr
    case solid =>
      rw [hbytes]
      exact OrderedBytes.solid_bufferAll hb.solid hps
  case readable =>
    rw [hbytes]
    exact readable_ne_of_bufferAll
  case flag => exact id

theorem bufferToConnBuffer_data (b : ConnectionBuffer) (p : BluefinPacket) (addr : SocketAddr) :
    (ReaderTxChannel.bufferToConnBuffer b p addr false false).2.1.orderedBytes =
        b.orderedBytes.bufferAll [p] ∧
      (ReaderTxChannel.bufferToConnBuffer b p addr false false).2.1.addr = b.addr := by
  have hbytes : ∀ res b', b.bufferInBytes p = (res, b') →
      b'.orderedBytes = b.orderedBytes.bufferAll [p] ∧ b'.addr = b.addr := by
    intro res b' h
    cases h
    exact ⟨rfl, rfl⟩
  unfold ReaderTxChannel.bufferToConnBuffer
  simp only [Bool.not_false, Bool.and_self, if_true]
  rcases hres : b.bufferInBytes p with ⟨res, b'⟩
  have hb' := hbytes res b' hres
  cases res with
  | ok u =>
    simp only [Outcome.orReturn]
    split <;> exact hb'
  | err e => exact hb'
  | panicked f => exact hb'

theorem bufferInClose_flag {b : CloseBuffer} (hb : b.peerFinObserved = true) (sawFin : Bool)
    (packets : List BluefinPacket) :
    (ConnReaderHandler.bufferInClose b sawFin packets).2.peerFinObserved = true := by
  induction packets generalizing b sawFin with
  | nil => exact hb
  | cons p packets ih =>
    unfold ConnReaderHandler.bufferInClose
    split
    · exact ih (CloseBuffer.bufferInFin_flag b p hb) true
    · exact ih (b := b.bufferInFinAck p) hb sawFin
    · exact hb

theorem produced_close {b : ConnectionManagedBuffers} (hb : Established b)
    (packets : List BluefinPacket) :
    Produced b (ConnReaderHandler.bufferInClosePackets b packets).2.1 := by
  have hflag : b.closeBuff.peerFinObserved = true → _ :=
    fun h => bufferInClose_flag h false packets
  unfold ConnReaderHandler.bufferInClosePackets
  split <;> rename_i hres <;> rw [hres] at hflag <;> exact ⟨⟨hb.addr, hb.solid⟩, id, hflag⟩

/-! ### Two clones -/

theorem other_ne (c : Clone) : c.other ≠ c := by
  cases c <;> decide

theorem eq_or_other (c d : Clone) : d = c ∨ d = c.other := by
  cases c <;> cases d <;> decide

theorem inv_setTask {st : State} (hinv : Inv st) {c : Clone} {t : Task} (h : Safe st.bufs t) :
    Inv (st.setTask c t) := by
  constructor
  case established => exact hinv.established
  case safe =>
    intro d
    simp only [State.setTask]
    by_cases hd : d = c
    · rw [hd, Function.update_self]
      exact h
    · rw [Function.update_of_ne hd]
      exact hinv.safe d

theorem inv_produced {st : State} (hinv : Inv st) {b : ConnectionManagedBuffers}
    (h : Produced st.bufs b) : Inv { st with bufs := b } :=
  ⟨h.established, fun c => (hinv.safe c).mono h.readable h.flag⟩

/-- A consume of one clone that leaves bytes if the read of the other is exposed. -/
theorem safe_other {st : State} {b' : ConnectionManagedBuffers} {c : Clone} {len : ℕ}
    (h : Safe st.bufs (st.tasks c)) (hclose : b'.closeBuff = st.bufs.closeBuff)
    (hread : b'.connBuff.orderedBytes.readable = st.readable.drop len)
    (hleaves : Exposed st c → len < st.readable.length) : Safe b' (st.tasks c) := by
  have hleft : Exposed st c → b'.connBuff.orderedBytes.readable ≠ [] := by
    intro hexposed hnil
    have hlength := congrArg List.length (hread.symm.trans hnil)
    rw [List.length_drop, List.length_nil] at hlength
    have hlong := hleaves hexposed
    omega
  constructor
  case calls => exact h.calls
  case resolved =>
    intro call hpc
    by_cases hflag : st.flag = true
    · rw [hclose]
      exact .inr hflag
    · left
      apply hleft
      rw [Exposed, hpc]
      exact Bool.eq_false_iff.mpr hflag
  case consuming =>
    intro call hpc
    apply hleft
    rw [Exposed, hpc]
    trivial
  case alive => exact h.alive

theorem inv_polling {st : State} (hinv : Inv st) (c : Clone) {len : ℕ} {buf : Bytes}
    (hlen : 0 < len) (hbuf : len ≤ buf.length) :
    Inv (st.setTask c { st.tasks c with pc := .polling (.read len buf) }) := by
  apply inv_setTask hinv
  constructor
  case calls =>
    intro call hcall
    cases hcall
    exact ⟨len, buf, rfl, hlen, hbuf⟩
  case resolved => simp
  case consuming => simp
  case alive => simp

theorem inv_task {st : State} (hinv : Inv st) {c : Clone} (hleaves : LeavesBytes st (.task c))
    {b' : ConnectionManagedBuffers} {t' : Task}
    (htask : Reader.taskStep c.waker st.bufs (st.tasks c) = some (b', t')) :
    Inv ({ st with bufs := b' }.setTask c t') := by
  obtain ⟨hb', hsafe, hclose, hread⟩ :=
    safe_task hinv.established (hinv.safe c) (taskMoves_of_taskStep htask)
  constructor
  case established => exact hb'
  case safe =>
    intro d
    simp only [State.setTask]
    rcases eq_or_other c d with rfl | rfl
    · rw [Function.update_self]
      exact hsafe
    · rw [Function.update_of_ne (other_ne c)]
      rcases hread with hread | ⟨len, buf, hpc, hread⟩
      · apply (hinv.safe c.other).mono
        · rw [hread]
          exact id
        · rw [hclose]
          exact id
      · exact safe_other (hinv.safe c.other) hclose hread (hleaves c len buf rfl hpc)

theorem inv_step {st st' : State} {act : Action} (hinv : Inv st) (hleaves : LeavesBytes st act)
    (h : Step st act st') : Inv st' := by
  obtain ⟨hpermitted, h⟩ := h
  cases act with
  | data packets =>
    simp only [step, ConnReaderHandler.bufferInDataPackets, ConnReaderHandler.bufferInData_eq] at h
    cases h
    exact inv_produced hinv (produced_bufferAll hinv.established hpermitted rfl rfl)
  | deliver packet addr =>
    obtain ⟨hbytes, haddr⟩ := bufferToConnBuffer_data st.bufs.connBuff packet addr
    cases h
    have hpayload : ∀ p ∈ [packet], p.payload ≠ [] := by
      intro p hp
      rw [List.mem_singleton.mp hp]
      exact hpermitted
    exact inv_produced hinv (produced_bufferAll hinv.established hpayload hbytes haddr)
  | close packets =>
    cases h
    exact inv_produced hinv (produced_close hinv.established packets)
  | read c bytesToRead buf =>
    simp only [step] at h
    split at h
    · cases h
      exact inv_polling hinv c hpermitted.1 hpermitted.2
    · cases h
  | repoll c =>
    simp only [step] at h
    split at h
    · rename_i call hpc
      obtain ⟨len, buf, rfl, hlen, hbuf⟩ := (hinv.safe c).calls call (by rw [hpc]; rfl)
      have hwake : (st.tasks c).wake = { st.tasks c with pc := .polling (.read len buf) } := by
        simp only [Task.wake, hpc]
      rw [hwake] at h
      cases h
      exact inv_polling hinv c hlen hbuf
    · cases h
  | task c =>
    simp only [step] at h
    obtain ⟨⟨b', t'⟩, htask, rfl⟩ := Option.map_eq_some_iff.mp h
    exact inv_task hinv hleaves htask

theorem inv_init {bufs : ConnectionManagedBuffers} (h : Established bufs) : Inv (init bufs) := by
  constructor
  case established => exact h
  case safe =>
    intro c
    constructor <;> simp [init, Task.new, Reader.Pc.call]

theorem inv_run {bufs : ConnectionManagedBuffers} (hest : Established bufs) {acts : List Action}
    {st : State}
    (hr : Run (fun st act st' => LeavesBytes st act ∧ Step st act st') (init bufs) acts st) :
    Inv st := by
  induction hr with
  | nil => exact inv_init hest
  | snoc _ hs ih => exact inv_step ih hs.1 hs.2

/-! ### The crash -/

theorem consume_step {st : State} {c : Clone} {call : ReadCall}
    (hpc : (st.tasks c).pc = .consuming call) :
    Step st (.task c) ({ st with bufs := (Reader.finish st.bufs (st.tasks c) call).1 }.setTask c
      (Reader.finish st.bufs (st.tasks c) call).2) := by
  constructor
  · trivial
  · simp only [step, Reader.taskStep, hpc, Option.map_some]

theorem crash_of_consuming {st : State} {c : Clone} (hb : Established st.bufs)
    {len : ℕ} {buf : Bytes} (hlen : 0 < len) (hbuf : len ≤ buf.length) (hpc : (st.tasks c).pc = .consuming (.read len buf))
    (hnil : st.readable = []) : ∃ st', Step st (.task c) st' ∧ (st'.tasks c).pc = .crashed := by
  refine ⟨_, consume_step hpc, ?_⟩
  have hcrash := (finish_read hb (st.tasks c) hlen hbuf).2.2.2
  rw [if_pos hnil] at hcrash
  simp only [State.setTask, Function.update_self]
  exact hcrash

theorem crash_of_exposed {st : State} {c : Clone} (hb : Established st.bufs)
    (hcalls : ∀ call, (st.tasks c).pc.call = some call →
      ∃ len buf, call = .read len buf ∧ 0 < len ∧ len ≤ buf.length)
    (hexposed : Exposed st c) (hnil : st.readable = []) :
    ∃ acts st', Run Step st acts st' ∧ (st'.tasks c).pc = .crashed := by
  cases hpc : (st.tasks c).pc with
  | consuming call =>
    obtain ⟨len, buf, rfl, hlen, hbuf⟩ := hcalls call (by rw [hpc]; rfl)
    obtain ⟨st', hstep, hcrash⟩ := crash_of_consuming hb hlen hbuf hpc hnil
    exact ⟨[.task c], st', Run.nil.snoc hstep, hcrash⟩
  | resolved call =>
    obtain ⟨len, buf, rfl, hlen, hbuf⟩ := hcalls call (by rw [hpc]; rfl)
    rw [Exposed, hpc] at hexposed
    have hload : Step st (.task c)
        (st.setTask c { st.tasks c with pc := .consuming (.read len buf) }) := by
      constructor
      · trivial
      · simp only [step, Reader.taskStep, hpc, Option.map_some]
        rw [if_neg (Bool.eq_false_iff.mp hexposed)]
    have hpc' : ((st.setTask c { st.tasks c with pc := .consuming (.read len buf) }).tasks c).pc =
        .consuming (.read len buf) := by
      simp only [State.setTask, Function.update_self]
    obtain ⟨st', hstep, hcrash⟩ := @crash_of_consuming
      (st.setTask c { st.tasks c with pc := .consuming (.read len buf) }) c hb len buf hlen hbuf
      hpc' hnil
    exact ⟨[.task c, .task c], st', (Run.nil.snoc hload).snoc hstep, hcrash⟩
  | _ =>
    rw [Exposed, hpc] at hexposed
    exact hexposed.elim

/-- Reads on two clones of an established connection, among any steps of the producers:
no read crashes in a run in which every consume leaves bytes while the read of the other
clone is exposed, and after a consume that does not, the other read can crash. -/
theorem clone_reads_safe (bufs : ConnectionManagedBuffers) (hest : Established bufs) :
    (∀ acts st, Run (fun st act st' => LeavesBytes st act ∧ Step st act st') (init bufs) acts st →
      ∀ c, (st.tasks c).pc ≠ .crashed) ∧
    ∀ acts st c st', Run (fun st act st' => LeavesBytes st act ∧ Step st act st') (init bufs) acts st →
      Step st (.task c) st' → ¬ LeavesBytes st (.task c) →
      ∃ acts' st'', Run Step st' acts' st'' ∧ (st''.tasks c.other).pc = .crashed := by
  constructor
  · intro acts st hr c
    exact ((inv_run hest hr).safe c).alive
  · intro acts st c st' hr hstep hnot
    have hinv := inv_run hest hr
    simp only [LeavesBytes, not_forall] at hnot
    obtain ⟨d, len, buf, hd, hpc, hexposed, hshort⟩ := hnot
    cases hd
    obtain ⟨call, buf', hcall, hlen, hbuf⟩ := (hinv.safe c).calls _ (by rw [hpc]; rfl)
    cases hcall
    obtain ⟨hb', hclose, hread, -⟩ := finish_read hinv.established (st.tasks c) hlen hbuf
    have hst' := hstep.2.symm.trans (consume_step hpc).2
    cases hst'
    have hsame : ({ st with bufs := (Reader.finish st.bufs (st.tasks c) (.read len buf)).1 }.setTask c
        (Reader.finish st.bufs (st.tasks c) (.read len buf)).2).tasks c.other =
        st.tasks c.other := Function.update_of_ne (other_ne c) _ _
    apply crash_of_exposed hb'
    · rw [hsame]
      exact (hinv.safe c.other).calls
    · unfold Exposed State.flag
      rw [hsame]
      simp only [State.setTask, hclose]
      exact hexposed
    · exact hread.trans (List.drop_of_length_le (Nat.le_of_not_lt hshort))

/-- A connection whose peer starts at packet number 7. -/
def connected : ConnectionManagedBuffers where
  connBuff := { ConnectionBuffer.new 1 .client with addr := some 0, orderedBytes := .new 1 7 }
  ackBuff := .new 0
  closeBuff := .new
  finAckTx := some []

theorem connected_established : Established connected := by
  constructor
  case addr => exact ⟨0, rfl⟩
  case solid =>
    constructor
    case carry => exact (Option.some_ne_none _).symm
    case slots =>
      intro k p hp
      unfold OrderedBytes.slotAt at hp
      split at hp <;> cases hp

def oneByte : BluefinPacket :=
  ⟨(BluefinHeader.new 2 1 .unencryptedData 1 .default).withPacketNumber 7, [42]⟩

/-- A clone consumes only while the other is idle. -/
def stepInTurn (st : State) : Action → Option State
  | .task c => if (st.tasks c.other).pc = .idle then step st (.task c) else none
  | act => step st act

theorem leavesBytes_inTurn {st st' : State} {act : Action} (h : stepInTurn st act = some st') :
    LeavesBytes st act ∧ step st act = some st' := by
  cases act with
  | task c =>
    simp only [stepInTurn] at h
    split at h
    · rename_i hidle
      refine ⟨?_, h⟩
      intro d len buf hd _ hexposed
      cases hd
      rw [Exposed, hidle] at hexposed
      exact hexposed.elim
    · cases h
  | _ =>
    refine ⟨?_, h⟩
    intro d len buf hd
    cases hd

/-- The first clone reads the byte, and the second finds the end of the stream. -/
def inTurn : List Action :=
  [.data [oneByte], .read .first 1 [0], .task .first, .task .first, .task .first,
    .close [⟨(BluefinHeader.new 2 1 .fin 0 .default).withPacketNumber 8, []⟩],
    .read .second 1 [0], .task .second, .task .second, .task .second]

theorem inTurn_permitted : ∀ act ∈ inTurn, Permitted act := by
  simp [inTurn, Permitted, oneByte]

theorem clone_reads_inTurn :
    ∃ st, Run (fun st act st' => LeavesBytes st act ∧ Step st act st') (init connected) inTurn st ∧
      (st.tasks .first).replies = [⟨.ok (1, 0), [42]⟩] ∧
      (st.tasks .second).replies = [⟨.ok (0, 0), []⟩] ∧ ∀ c, (st.tasks c).pc ≠ .crashed := by
  have hcomputed : (inTurn.foldlM stepInTurn (init connected)).map (fun st =>
      ((st.tasks .first).replies, (st.tasks .second).replies)) =
      some ([⟨.ok (1, 0), [42]⟩], [⟨.ok (0, 0), []⟩]) := by decide +kernel
  have hsteps : ∀ act ∈ inTurn, ∀ st st', stepInTurn st act = some st' →
      LeavesBytes st act ∧ Step st act st' := by
    intro act hact st st' h
    obtain ⟨hleaves, hstep⟩ := leavesBytes_inTurn h
    exact ⟨hleaves, inTurn_permitted act hact, hstep⟩
  obtain ⟨st, hr, hst⟩ := Run.exists_of_foldlM _ inTurn hsteps hcomputed
  obtain ⟨hfirst, hsecond⟩ := Prod.mk.inj hst
  exact ⟨st, hr, hfirst, hsecond, (clone_reads_safe connected connected_established).1 _ st hr⟩

/-- Both clones see the one byte that is there, and both go to take it. -/
def race : List Action :=
  [.data [oneByte], .read .first 1 [0], .read .second 1 [0], .task .first, .task .second,
    .task .first, .task .second, .task .first, .task .second]

theorem race_permitted : ∀ act ∈ race, Permitted act := by
  simp [race, Permitted, oneByte]

theorem clone_read_crashes :
    ∃ st, Run Step (init connected) race st ∧
      (st.tasks .first).replies = [⟨.ok (1, 0), [42]⟩] ∧ (st.tasks .second).pc = .crashed ∧
      (st.tasks .second).replies =
        [⟨.panicked (.raised (.unwrapOnErr .bufferEmptyError)), []⟩] := by
  have hcomputed : (race.foldlM step (init connected)).map (fun st =>
      ((st.tasks .first).replies, (st.tasks .second).pc, (st.tasks .second).replies)) =
      some ([⟨.ok (1, 0), [42]⟩], .crashed,
        [⟨.panicked (.raised (.unwrapOnErr .bufferEmptyError)), []⟩]) := by decide +kernel
  have hsteps : ∀ act ∈ race, ∀ st st', step st act = some st' → Step st act st' :=
    fun act hact _ _ h => ⟨race_permitted act hact, h⟩
  obtain ⟨st, hr, hst⟩ := Run.exists_of_foldlM _ race hsteps hcomputed
  simp only [Prod.mk.injEq] at hst
  exact ⟨st, hr, hst⟩

end ReaderClones

end Bluefin
