import Bluefin.Worker.Transfer

/-!
# From the stdin of one `bluefintool` to the stdout of another (main.rs, `run_pipe`)

`run_pipe` moves the lines of its stdin into `send` and the bytes of `recv` to its stdout, in one
task, until Ctrl-C, the end of stdin, the end of the peer's stream or an error. Two of them are
joined by one direction of a connection: side `a` sends, side `b` receives. What `a` receives and
what `b` sends goes the other way and is left open here.

What a step can do is said once (`Moves`); the results are in `PipeEnds`.
-/

namespace Bluefin
open Base

namespace Pipe
open Writer (Emission)
open Reader (ReadCall Reply)

/-! ### The loop -/

structure Config where
  interactive : Bool
  closeOnStdinEof : Bool
  diag : Bool

inductive ExitReason where
  | shutdownSignal
  | stdinEof
  | peerClosed
  deriving DecidableEq, Repr

/-- A call is in progress at `sending`, `flushing`, `receiving` and `closing`. The reason of `done`
is that of leaving the loop; an error returns from inside it. -/
inductive Pc where
  | top
  | drain
  | send (data : Bytes)
  | sending (data : Bytes)
  | flush
  | flushing
  | recv
  | receiving
  | leave (reason : ExitReason)
  | closing (reason : ExitReason)
  | done (reason : Option ExitReason) (res : BluefinResult Unit)
  deriving DecidableEq

/-- The task of `run_pipe`. While `rx` is set the receiver of the stdin channel is there. -/
structure Task where
  rx : Bool
  pc : Pc
  stdout : Bytes
  totalSent : ℕ
  totalRecv : ℕ

def Task.new (rx : Bool) : Task := ⟨rx, .top, [], 0, 0⟩

inductive TryRecv where
  | data (data : Bytes)
  | empty
  | disconnected

/-- How the `select` around `recv` ends. -/
inductive Received where
  | shutdown
  | timedOut
  | result (res : BluefinResult ℕ) (bytes : Bytes)

def Task.look (t : Task) (shutdown : Bool) : Task :=
  { t with pc := if shutdown then .leave .shutdownSignal else if t.rx then .drain else .recv }

def Task.tryRecv (t : Task) : TryRecv → Task
  | .data data => { t with pc := .send data }
  | .empty => { t with pc := .recv }
  | .disconnected => { t with pc := .flush }

def Task.sent (t : Task) (data : Bytes) : BluefinResult ℕ → Task
  | .ok _ => { t with pc := .drain, totalSent := t.totalSent + data.length }
  | .err e => { t with pc := .done none (.err e) }
  | .panicked f => { t with pc := .done none (.panicked f) }

/-- An error of `flush` is only printed. -/
def Task.flushed (cfg : Config) (t : Task) : Task :=
  if cfg.closeOnStdinEof && !cfg.interactive then { t with pc := .leave .stdinEof }
  else { t with rx := false, pc := .recv }

def Task.received (cfg : Config) (t : Task) : Received → Task
  | .shutdown => { t with pc := .leave .shutdownSignal }
  | .timedOut => { t with pc := .top }
  | .result (.ok 0) _ => { t with pc := .leave .peerClosed }
  | .result (.ok (n + 1)) bytes => { t with
      pc := .top
      totalRecv := t.totalRecv + (n + 1)
      stdout := if cfg.diag then t.stdout else t.stdout ++ bytes }
  | .result (.err e) _ => { t with pc := .done none (.err e) }
  | .result (.panicked f) _ => { t with pc := .done none (.panicked f) }

/-! ### Two of them and one direction of their connection -/

/-- The channel of `spawn_stdin_reader`; `reading` until its task ends. -/
structure Stdin where
  queue : List Bytes
  reading : Bool

abbrev stdinBound : ℕ := 64

/-- The watch of Ctrl-C: its value, and whether `changed()` resolves, as it does when the value has
changed or its sender is gone. -/
structure Watch where
  value : Bool
  fired : Bool

/-- The lines that the stdin of `a` has given and its loop has taken are `given` and `taken`, and
`seen` is how many replies of `recv` the loop of `b` has seen; none of them is kept by the program.
-/
structure State where
  net : Transfer.State
  stdin : Stdin
  given : List Bytes
  taken : List Bytes
  seen : ℕ
  a : Task
  b : Task
  watchA : Watch
  watchB : Watch

def init (start : UInt64) (bufs : ConnectionManagedBuffers) (rxB : Bool) : State where
  net := Transfer.init start bufs
  stdin := ⟨[], true⟩
  given := []
  taken := []
  seen := 0
  a := .new true
  b := .new rxB
  watchA := ⟨false, false⟩
  watchB := ⟨false, false⟩

/-- An `a` or `b` is the next step of a loop where it has no choice. The others are what the stdin
of `a`, Ctrl-C, the workers, the network and the other direction of the connection do. -/
inductive Action where
  | line (data : Bytes)
  | stdinEnds
  | interruptA
  | interruptB
  | watchGoneA
  | watchGoneB
  | packetiser
  | sender
  | deliver (e : Emission)
  | a
  | aRefused
  | aReceived (r : Received)
  | aWaits (again : Bool)
  | b
  | bStdin (r : TryRecv)
  | bSent (res : BluefinResult ℕ)
  | bFlushed
  | bTask
  | bTimeout
  | bShutdown
  | bClosed

/-- The read of `recv(&mut buf, buf_len)` with the 4096 bytes of `buf`. -/
def recvCall : ReadCall := .read 4096 (List.replicate 4096 0)

/-- What `send_data` returns when the call ends at this point. -/
def sendResult (c : Writer.SendCall) : BluefinResult ℕ :=
  match c.pc with
  | .start => .err .connectionClosed
  | .failed => .err (.writeError "Failed to send data (channel full or closed)")
  | _ => .ok c.payload.length

section

variable (cfgA cfgB : Config) (srcConnId dstConnId : UInt32)

def netStep (st : State) (act : Transfer.Action) : Option State :=
  (Transfer.step srcConnId dstConnId st.net act).map fun net => { st with net := net }

def writerStep (st : State) (act : Writer.Action) : Option State :=
  netStep srcConnId dstConnId st (.sender (.writer act))

def stepA (st : State) : Option State :=
  match st.a.pc with
  | .top => some { st with a := st.a.look st.watchA.value }
  | .drain => match st.stdin.queue with
    | data :: queue => some { st with
        stdin.queue := queue, taken := st.taken ++ [data], a := st.a.tryRecv (.data data) }
    | [] => some { st with
        a := st.a.tryRecv (if st.stdin.reading then .empty else .disconnected) }
  | .send data => (writerStep srcConnId dstConnId st (.sendBegin .sync data)).map fun st =>
      { st with a.pc := .sending data }
  | .sending data => match st.net.sender.writer.sends with
    | [] => none
    | c :: _ => (writerStep srcConnId dstConnId st (.send 0)).map fun st =>
        if st.net.sender.writer.sends = [] then { st with a := st.a.sent data (sendResult c) }
        else st
  | .flush => (writerStep srcConnId dstConnId st .flushBegin).map fun st =>
      { st with a.pc := .flushing }
  | .flushing => match st.net.sender.writer.flushes.getLast? with
    | some .returned => some { st with a := st.a.flushed cfgA }
    | _ => writerStep srcConnId dstConnId st (.flush (st.net.sender.writer.flushes.length - 1))
  | .recv => some { st with a.pc := .receiving }
  | .receiving => none
  | .leave .peerClosed => some { st with a.pc := .done (some .peerClosed) (.ok ()) }
  | .leave reason => (writerStep srcConnId dstConnId st .closeBegin).map fun st =>
      { st with a.pc := .closing reason }
  | .closing reason => match st.net.sender.writer.closer with
    | .done _ => some { st with a.pc := .done (some reason) (.ok ()) }
    | _ => writerStep srcConnId dstConnId st .close
  | .done _ _ => none

def stepB (st : State) : Option State :=
  match st.b.pc with
  | .top => some { st with b := st.b.look st.watchB.value }
  | .recv => (netStep srcConnId dstConnId st (.call recvCall)).map fun st =>
      { st with b.pc := .receiving }
  | .receiving => st.net.reader.task.replies[st.seen]?.map fun r => { st with
      seen := st.seen + 1
      b := st.b.received cfgB (.result (r.result.map Prod.fst) r.bytes) }
  | .leave .peerClosed => some { st with b.pc := .done (some .peerClosed) (.ok ()) }
  | .leave reason => some { st with b.pc := .closing reason }
  | _ => none

def step (st : State) : Action → Option State
  | .line data =>
    if st.stdin.reading ∧ data ≠ [] ∧ st.stdin.queue.length < stdinBound then some { st with
      stdin.queue := st.stdin.queue ++ [data], given := st.given ++ [data] }
    else none
  | .stdinEnds => some { st with stdin.reading := false }
  | .interruptA => some { st with watchA := ⟨true, true⟩ }
  | .interruptB => some { st with watchB := ⟨true, true⟩ }
  | .watchGoneA => some { st with watchA.fired := true }
  | .watchGoneB => some { st with watchB.fired := true }
  | .packetiser => writerStep srcConnId dstConnId st .packetiser
  | .sender => writerStep srcConnId dstConnId st .sender
  | .deliver e => netStep srcConnId dstConnId st (.deliver e)
  | .a => stepA cfgA srcConnId dstConnId st
  | .aRefused => match st.a.pc with
    | .sending _ => netStep srcConnId dstConnId st (.sender (.refuse 0))
    | _ => none
  | .aReceived r => match st.a.pc, r with
    | .receiving, .shutdown =>
      if st.watchA.fired then some { st with a := st.a.received cfgA .shutdown } else none
    | .receiving, r => some { st with a := st.a.received cfgA r }
    | _, _ => none
  | .aWaits again => match st.a.pc with
    | .closing _ =>
      writerStep srcConnId dstConnId st (if again then .closeRetransmit else .closeReturn)
    | _ => none
  | .b => stepB cfgB srcConnId dstConnId st
  | .bStdin r => match st.b.pc with
    | .drain => some { st with b := st.b.tryRecv r }
    | _ => none
  | .bSent res => match st.b.pc with
    | .send data => some { st with b := st.b.sent data res }
    | _ => none
  | .bFlushed => match st.b.pc with
    | .flush => some { st with b := st.b.flushed cfgB }
    | _ => none
  | .bTask => match st.b.pc with
    | .receiving => netStep srcConnId dstConnId st .task
    | _ => none
  | .bTimeout => match st.b.pc with
    | .receiving => (netStep srcConnId dstConnId st .cancel).map fun st =>
        { st with b := st.b.received cfgB .timedOut }
    | _ => none
  | .bShutdown => match st.b.pc, st.watchB.fired with
    | .receiving, true => (netStep srcConnId dstConnId st .cancel).map fun st =>
        { st with b := st.b.received cfgB .shutdown }
    | _, _ => none
  | .bClosed => match st.b.pc with
    | .closing reason => some { st with b.pc := .done (some reason) (.ok ()) }
    | _ => none

def Step (st : State) (act : Action) (st' : State) : Prop :=
  step cfgA cfgB srcConnId dstConnId st act = some st'

end

/-! ### What a step does -/

def isSend : Writer.Action → Bool
  | .sendBegin _ _ => true
  | .send _ => true
  | .cancel _ => true
  | _ => false

/-- The line that has been taken from stdin and not yet been accepted. -/
def Pc.line : Pc → Bytes
  | .send data => data
  | .sending data => data
  | _ => []

/-- No line is on its way into the connection. -/
def Pc.free : Pc → Bool
  | .send _ => false
  | .sending _ => false
  | _ => true

def Pc.reason : Pc → Option ExitReason
  | .leave reason => some reason
  | .closing reason => some reason
  | .done reason _ => reason
  | _ => none

/-- The loop has called `close()`, or is over. -/
def Pc.ended : Pc → Bool
  | .closing _ => true
  | .done _ _ => true
  | _ => false

/-- The end of stdin has been seen in this iteration, or is the reason of leaving. -/
def Pc.sawEof : Pc → Bool
  | .flush => true
  | .flushing => true
  | pc => pc.reason = some .stdinEof

section

variable (cfgB : Config) (srcConnId dstConnId : UInt32)

inductive Moves (st : State) : State → Prop
  | line (data : Bytes) (hreading : st.stdin.reading = true) :
      Moves st { st with
        stdin.queue := st.stdin.queue ++ [data], given := st.given ++ [data] }
  | stdinEnds : Moves st { st with stdin.reading := false }
  | watch (watchA watchB : Watch) : Moves st { st with watchA := watchA, watchB := watchB }
  | writer (act : Writer.Action) (s : Barrier.State) (a : Task) (hact : isSend act = false)
      (hbegin : act ≠ .closeBegin)
      (hs : Barrier.step srcConnId dstConnId st.net.sender (.writer act) = some s)
      (ha : a = st.a ∨ st.a.pc = .flush ∧ a = { st.a with pc := .flushing }) :
      Moves st { st with net.sender := s, a := a }
  | aTurn (a : Task) (hfree : st.a.pc.free = true) (hloop : st.a.pc.ended = false)
      (hnew : a.pc.free = true)
      (heof : a.pc.sawEof = true →
        st.a.pc.sawEof = true ∨ st.stdin.reading = false ∧ st.stdin.queue = []) :
      Moves st { st with a := a }
  | aTake (data : Bytes) (queue : List Bytes) (hpc : st.a.pc = .drain)
      (hqueue : st.stdin.queue = data :: queue) :
      Moves st { st with
        stdin.queue := queue, taken := st.taken ++ [data], a.pc := .send data }
  | aSend (data : Bytes) (s : Barrier.State) (hpc : st.a.pc = .send data)
      (hs : Barrier.step srcConnId dstConnId st.net.sender (.writer (.sendBegin .sync data)) =
        some s) :
      Moves st { st with net.sender := s, a.pc := .sending data }
  | aSending (data : Bytes) (s : Barrier.State) (c : Writer.SendCall) (rest : List Writer.SendCall)
      (hpc : st.a.pc = .sending data) (hsends : st.net.sender.writer.sends = c :: rest)
      (hs : Barrier.step srcConnId dstConnId st.net.sender (.writer (.send 0)) = some s) :
      Moves st { st with
        net.sender := s
        a := if s.writer.sends = [] then st.a.sent data (sendResult c) else st.a }
  | aRefused (data : Bytes) (s : Barrier.State) (hpc : st.a.pc = .sending data)
      (hs : Barrier.step srcConnId dstConnId st.net.sender (.refuse 0) = some s) :
      Moves st { st with net.sender := s }
  | aClose (reason : ExitReason) (s : Barrier.State) (hreason : reason ≠ .peerClosed)
      (hpc : st.a.pc = .leave reason)
      (hs : Barrier.step srcConnId dstConnId st.net.sender (.writer .closeBegin) = some s) :
      Moves st { st with net.sender := s, a.pc := .closing reason }
  | aClosed (reason : ExitReason) (hpc : st.a.pc = .closing reason) :
      Moves st { st with a.pc := .done (some reason) (.ok ()) }
  | deliver (e : Emission) (net : Transfer.State)
      (hnet : Transfer.step srcConnId dstConnId st.net (.deliver e) = some net) :
      Moves st { st with net := net }
  | bCall (net : Transfer.State) (hpc : st.b.pc = .recv)
      (hnet : Transfer.step srcConnId dstConnId st.net (.call recvCall) = some net) :
      Moves st { st with net := net, b.pc := .receiving }
  | bTask (net : Transfer.State) (hpc : st.b.pc = .receiving)
      (hnet : Transfer.step srcConnId dstConnId st.net .task = some net) :
      Moves st { st with net := net }
  | bSees (r : Reply) (hpc : st.b.pc = .receiving)
      (hr : st.net.reader.task.replies[st.seen]? = some r) :
      Moves st { st with
        seen := st.seen + 1
        b := st.b.received cfgB (.result (r.result.map Prod.fst) r.bytes) }
  | bDrop (net : Transfer.State) (pc : Pc) (hpc : st.b.pc = .receiving)
      (hnew : pc = .top ∨ pc = .leave .shutdownSignal)
      (hnet : Transfer.step srcConnId dstConnId st.net .cancel = some net) :
      Moves st { st with net := net, b.pc := pc }
  | bTurn (b : Task) (hpc : st.b.pc ≠ .receiving) (hnew : b.pc ≠ .receiving)
      (hstdout : b.stdout = st.b.stdout)
      (heof : b.pc.reason = some .peerClosed → st.b.pc.reason = some .peerClosed) :
      Moves st { st with b := b }

end

section

variable {cfgA cfgB : Config} {srcConnId dstConnId : UInt32} {st st' : State}

theorem netStep_eq {act : Transfer.Action} (h : netStep srcConnId dstConnId st act = some st') :
    ∃ net, Transfer.step srcConnId dstConnId st.net act = some net ∧
      st' = { st with net := net } := by
  obtain ⟨net, hnet, rfl⟩ := Option.map_eq_some_iff.mp h
  exact ⟨net, hnet, rfl⟩

theorem senderStep_eq {act : Barrier.Action}
    (h : netStep srcConnId dstConnId st (.sender act) = some st') :
    ∃ s, Barrier.step srcConnId dstConnId st.net.sender act = some s ∧
      st' = { st with net.sender := s } := by
  obtain ⟨net, hnet, rfl⟩ := netStep_eq h
  obtain ⟨s, hs, rfl⟩ := Option.map_eq_some_iff.mp hnet
  exact ⟨s, hs, rfl⟩

theorem moves_of_worker {act : Writer.Action}
    (h : writerStep srcConnId dstConnId st act = some st') (hact : isSend act = false)
    (hbegin : act ≠ .closeBegin) :
    Moves cfgB srcConnId dstConnId st st' := by
  obtain ⟨s, hs, rfl⟩ := senderStep_eq h
  exact .writer act s st.a hact hbegin hs (.inl rfl)

theorem moves_of_stepA (h : stepA cfgA srcConnId dstConnId st = some st') :
    Moves cfgB srcConnId dstConnId st st' := by
  unfold stepA at h
  split at h
  case h_1 hpc =>
    cases h
    refine .aTurn _ (by rw [hpc]; rfl) (by rw [hpc]; rfl) ?_ ?_
    · unfold Task.look
      split <;> try split
      all_goals rfl
    · unfold Task.look
      split <;> try split
      all_goals exact fun h => by cases h
  case h_2 hpc =>
    split at h
    · rename_i data queue hqueue
      cases h
      exact .aTake data queue hpc hqueue
    · rename_i hqueue
      cases h
      refine .aTurn _ (by rw [hpc]; rfl) (by rw [hpc]; rfl) ?_ ?_
      · split <;> rfl
      · split
        · exact fun heof => by cases heof
        · rename_i hreading
          exact fun _ => .inr ⟨by simpa using hreading, hqueue⟩
  case h_3 data hpc =>
    obtain ⟨st₁, h₁, rfl⟩ := Option.map_eq_some_iff.mp h
    obtain ⟨s, hs, rfl⟩ := senderStep_eq h₁
    exact .aSend data s hpc hs
  case h_4 data hpc =>
    split at h
    · cases h
    · rename_i c rest hsends
      obtain ⟨st₁, h₁, hst⟩ := Option.map_eq_some_iff.mp h
      obtain ⟨s, hs, rfl⟩ := senderStep_eq h₁
      have hmoves : Moves cfgB srcConnId dstConnId st _ := .aSending data s c rest hpc hsends hs
      rw [← hst]
      split at hmoves
      · rename_i hnil
        rw [if_pos hnil]
        exact hmoves
      · rename_i hnil
        rw [if_neg hnil]
        exact hmoves
  case h_5 hpc =>
    obtain ⟨st₁, h₁, rfl⟩ := Option.map_eq_some_iff.mp h
    obtain ⟨s, hs, rfl⟩ := senderStep_eq h₁
    exact .writer .flushBegin s _ rfl (fun heq => by cases heq) hs (.inr ⟨hpc, rfl⟩)
  case h_6 hpc =>
    split at h
    · cases h
      refine .aTurn _ (by rw [hpc]; rfl) (by rw [hpc]; rfl) ?_ fun _ => .inl (by rw [hpc]; rfl)
      unfold Task.flushed
      split <;> rfl
    · exact moves_of_worker h rfl (fun heq => by cases heq)
  case h_7 hpc =>
    cases h
    exact .aTurn _ (by rw [hpc]; rfl) (by rw [hpc]; rfl) rfl fun heof => by cases heof
  case h_8 => cases h
  case h_9 hpc =>
    cases h
    exact .aTurn _ (by rw [hpc]; rfl) (by rw [hpc]; rfl) rfl fun heof => by cases heof
  case h_10 reason hne hpc =>
    obtain ⟨st₁, h₁, rfl⟩ := Option.map_eq_some_iff.mp h
    obtain ⟨s, hs, rfl⟩ := senderStep_eq h₁
    exact .aClose reason s hne hpc hs
  case h_11 reason hpc =>
    split at h
    · cases h
      exact .aClosed reason hpc
    · exact moves_of_worker h rfl (fun heq => by cases heq)
  case h_12 => cases h

theorem moves_of_stepB (h : stepB cfgB srcConnId dstConnId st = some st') :
    Moves cfgB srcConnId dstConnId st st' := by
  unfold stepB at h
  split at h
  case h_1 hpc =>
    cases h
    refine .bTurn _ (by simp [hpc]) ?_ rfl ?_
    all_goals
      unfold Task.look
      split <;> try split
      all_goals exact fun h => by cases h
  case h_2 hpc =>
    obtain ⟨st₁, h₁, rfl⟩ := Option.map_eq_some_iff.mp h
    obtain ⟨net, hnet, rfl⟩ := netStep_eq h₁
    exact .bCall net hpc hnet
  case h_3 hpc =>
    obtain ⟨r, hr, rfl⟩ := Option.map_eq_some_iff.mp h
    exact .bSees r hpc hr
  case h_4 hpc =>
    cases h
    exact .bTurn _ (by simp [hpc]) (by simp) rfl fun _ => by rw [hpc]; rfl
  case h_5 reason hne hpc =>
    cases h
    exact .bTurn _ (by simp [hpc]) (by simp) rfl fun h => absurd (Option.some.inj h) hne
  case h_6 => cases h

theorem moves_of_step {act : Action} (h : Step cfgA cfgB srcConnId dstConnId st act st') :
    Moves cfgB srcConnId dstConnId st st' := by
  cases act with
  | line data =>
    simp only [Step, step] at h
    split at h
    · rename_i hline
      cases h
      exact .line data hline.1
    · cases h
  | stdinEnds =>
    cases h
    exact .stdinEnds
  | interruptA | interruptB | watchGoneA | watchGoneB =>
    cases h
    exact .watch _ _
  | packetiser | sender => exact moves_of_worker h rfl (fun heq => by cases heq)
  | deliver e =>
    obtain ⟨net, hnet, rfl⟩ := netStep_eq h
    exact .deliver e net hnet
  | a => exact moves_of_stepA h
  | aRefused =>
    simp only [Step, step] at h
    split at h
    · rename_i data hpc
      obtain ⟨s, hs, rfl⟩ := senderStep_eq h
      exact .aRefused data s hpc hs
    · cases h
  | aReceived r =>
    simp only [Step, step] at h
    split at h
    · rename_i hpc
      split at h
      · cases h
        exact .aTurn _ (by rw [hpc]; rfl) (by rw [hpc]; rfl) rfl fun heof => by cases heof
      · cases h
    · rename_i hpc hother
      cases h
      refine .aTurn _ (by rw [hpc]; rfl) (by rw [hpc]; rfl) ?_ ?_
      · unfold Task.received
        split <;> rfl
      · unfold Task.received
        split <;> exact fun heof => by cases heof
    · cases h
  | aWaits again =>
    simp only [Step, step] at h
    split at h
    · cases again with
      | false => exact moves_of_worker h rfl (fun heq => by cases heq)
      | true => exact moves_of_worker h rfl (fun heq => by cases heq)
    · cases h
  | b => exact moves_of_stepB h
  | bStdin r =>
    simp only [Step, step] at h
    split at h
    · rename_i hpc
      cases h
      cases r <;> exact .bTurn _ (by simp [hpc]) (by simp [Task.tryRecv]) rfl fun h => by cases h
    · cases h
  | bSent res =>
    simp only [Step, step] at h
    split at h
    · rename_i data hpc
      cases h
      cases res <;> exact .bTurn _ (by simp [hpc]) (by simp [Task.sent]) rfl fun h => by cases h
    · cases h
  | bFlushed =>
    simp only [Step, step] at h
    split at h
    · rename_i hpc
      cases h
      refine .bTurn _ (by simp [hpc]) ?_ ?_ ?_
      all_goals
        unfold Task.flushed
        split
      all_goals first | rfl | exact fun h => by cases h
    · cases h
  | bTask =>
    simp only [Step, step] at h
    split at h
    · rename_i hpc
      obtain ⟨net, hnet, rfl⟩ := netStep_eq h
      exact .bTask net hpc hnet
    · cases h
  | bTimeout =>
    simp only [Step, step] at h
    split at h
    · rename_i hpc
      obtain ⟨st₁, h₁, rfl⟩ := Option.map_eq_some_iff.mp h
      obtain ⟨net, hnet, rfl⟩ := netStep_eq h₁
      exact .bDrop net .top hpc (.inl rfl) hnet
    · cases h
  | bShutdown =>
    simp only [Step, step] at h
    split at h
    · rename_i hpc hfired
      obtain ⟨st₁, h₁, rfl⟩ := Option.map_eq_some_iff.mp h
      obtain ⟨net, hnet, rfl⟩ := netStep_eq h₁
      exact .bDrop net (.leave .shutdownSignal) hpc (.inr rfl) hnet
    · cases h
  | bClosed =>
    simp only [Step, step] at h
    split at h
    · rename_i reason hpc
      cases h
      refine .bTurn _ (by simp [hpc]) (by simp) rfl fun h => ?_
      rw [hpc]
      exact h
    · cases h

end

end Pipe

end Bluefin
